import RowMapper.Proofs.Compile.Ensures

/-!
# What compilation takes from a core

Names are written in the quotes of a dialect, and models come from a registry. Apart from the values
of records and the style of a conflict clause, a statement takes nothing else from the cores of its
sessions: where two collections of cores give the same models, and the quotes of one are those of
the other changed by `f`, every statement asks for the same models, and its tokens differ in the
quotes of names only (`Cores.Requoted`, one lemma for each part of a statement).
-/

namespace RowMapper

namespace Token

/-- The token with other quotes, if it has any. -/
def requoted (f : Char → Char) : Token → Token
  | name quote s => name (f quote) s
  | t => t

/-- Quotes that stay as they are leave every token as it is. -/
@[simp]
theorem requoted_id : requoted id = id := by
  funext t
  cases t <;> rfl

variable (f : Char → Char)

@[simp]
theorem requoted_word (w : Word) : (word w).requoted f = word w := rfl

@[simp]
theorem requoted_sign (s : Sign) : (sign s).requoted f = sign s := rfl

@[simp]
theorem requoted_name (quote : Char) (s : String) :
    (name quote s).requoted f = name (f quote) s := rfl

/-- Bound values stand for themselves: they are never written into the text. -/
@[simp]
theorem requoted_bound (v : Value) : (bound v).requoted f = bound v := rfl

/-- Fragments are text of the user, and what is quoted in them is not touched. -/
@[simp]
theorem requoted_fragment (sql : String) (args : List Value) :
    (fragment sql args).requoted f = fragment sql args := rfl

/-- The tokens of a list with other quotes. -/
def requotedAll (ts : List Token) : List Token := ts.map (requoted f)

@[simp]
theorem requotedAll_nil : requotedAll f [] = [] := rfl

@[simp]
theorem requotedAll_cons (t : Token) (ts : List Token) :
    requotedAll f (t :: ts) = t.requoted f :: requotedAll f ts := rfl

@[simp]
theorem requotedAll_append (ts us : List Token) :
    requotedAll f (ts ++ us) = requotedAll f ts ++ requotedAll f us :=
  List.map_append

/-- Quotes that stay as they are leave every list of tokens as it is. -/
@[simp]
theorem requotedAll_id : requotedAll id = id := by
  funext ts
  rw [requotedAll, requoted_id, List.map_id, id]

/-- Parentheses are the same in all quotes. -/
@[simp]
theorem requotedAll_parenthesized (ts : List Token) :
    requotedAll f (parenthesized ts) = parenthesized (requotedAll f ts) := by
  simp [parenthesized]

/-- So are the words that clauses begin with. -/
@[simp]
theorem requotedAll_clause (w : Word) (ts : List Token) :
    requotedAll f (clause w ts) = clause w (requotedAll f ts) := rfl

/-- So are the commas of a list. -/
@[simp]
theorem requotedAll_commaSeparated : ∀ tss : List (List Token),
    requotedAll f (commaSeparated tss) = commaSeparated (tss.map (requotedAll f))
  | [] => rfl
  | [ts] => rfl
  | ts :: us :: rest => by simp [commaSeparated, requotedAll_commaSeparated (us :: rest)]

/-- The tokens of a list, each on its own, with other quotes. -/
@[simp]
theorem map_requotedAll_singletons (ts : List Token) :
    ts.map (requotedAll f ∘ ([·])) = (requotedAll f ts).map ([·]) := by
  simp [requotedAll]

/-- Other quotes go into the part of a statement that may be left out. -/
@[simp]
theorem requotedAll_ite {c : Prop} [Decidable c] (ts : List Token) :
    requotedAll f (if c then [] else ts) = if c then [] else requotedAll f ts := by
  split <;> rfl

@[simp]
theorem requotedAll_countTokens (w : Word) (n : UInt64) :
    requotedAll f (countTokens w n) = countTokens w n := by
  simp [countTokens]

/-- Whether a side of a comparison is put in parentheses does not depend on quotes. -/
@[simp]
theorem requotedAll_asSide (e : Expr) (ts : List Token) :
    requotedAll f (e.asSide ts) = e.asSide (requotedAll f ts) := by
  cases e <;> simp [Expr.asSide]

end Token

open Token (requoted requotedAll)

/-- Two collections of cores give the same models, and the quotes of the second are those of the
first changed by `f`. -/
structure Cores.Requoted (f : Char → Char) (cores cores' : Cores) : Prop where
  quote : ∀ session, (cores' session).dialect.quote = f (cores session).dialect.quote
  model : ∀ session T, (cores' session).registry.model T = (cores session).registry.model T

namespace Cores.Requoted

variable {f : Char → Char} {cores cores' : Cores}

/-- The model of an entity type is the same for both collections of cores. -/
theorem compiledModel (h : Requoted f cores cores') (session : String) (T : EntityType) :
    Compiled.model cores' session T = Compiled.model cores session T := by
  rw [Compiled.model, Compiled.model, h.model]

/-! ## Names in scope -/

mutual

/-- A qualified column resolves to the same alias and column: both come from models and aliases, and
no quote is written yet. -/
theorem resolveQualifier (h : Requoted f cores cores') (session : String) (own : Model)
    (field : String) : ∀ q : Qualifier,
    q.resolve cores' session own field = q.resolve cores session own field
  | .own => rfl
  | .table t => by simp only [Qualifier.resolve, h.compiledModel]
  | .subquery s => h.resolveSubquery session field s

/-- A column of a subquery resolves to the same name. It depends on the list of the inner select, as
that decides which fields are exposed. -/
theorem resolveSubquery (h : Requoted f cores cores') (session field : String) : ∀ s : Subquery,
    s.resolve cores' session field = s.resolve cores session field
  -- an empty list exposes all fields of the model, any other one only its own items
  | .mk (.mk _ _ [] _ _ _ _ _ _ _) _ => by simp only [Subquery.resolve, h.compiledModel]
  | .mk (.mk _ _ (item :: items) _ _ _ _ _ _ _) _ => by
    simp only [Subquery.resolve, h.compiledModel, h.exposedName session _ field (item :: items)]

/-- The first item of a list that exposes a field is the same one. -/
theorem exposedName (h : Requoted f cores cores') (session : String) (inner : Model)
    (field : String) : ∀ items : List Selectable,
    RowMapper.exposedName cores' session inner field items =
      RowMapper.exposedName cores session inner field items
  | [] => rfl
  | .column (.mk q name _) :: items => by
    simp only [RowMapper.exposedName, h.resolveQualifier session inner field q,
      h.exposedName session inner field items]
  | .aggregate _ :: items => by
    simp only [RowMapper.exposedName, h.exposedName session inner field items]
  | .fragment _ :: items => h.exposedName session inner field items

end

/-! ## Parts of statements -/

section

variable (h : Requoted f cores cores') (scope : Scope)
include h

/-- A name is written in the quotes of the core, and this is where the two differ. -/
@[simp]
theorem name (s : String) : scope.name cores' s = (scope.name cores s).requoted f := by
  rw [Scope.name, Scope.name, h.quote, Token.requoted_name]

/-- An alias is quoted as any other name is. -/
theorem aliasTokens (alias? : Option String) :
    scope.aliasTokens cores' alias? = requotedAll f (scope.aliasTokens cores alias?) := by
  cases alias? with
  | none => rfl
  | some s => simp [Scope.aliasTokens, h.name]

theorem column (field : String) :
    scope.column cores' field = requoted f <$> scope.column cores field := by
  simp [Scope.column, h.name]

/-- A list of columns fails on the same field, or else differs in quotes only. -/
theorem columns : ∀ fields : List String,
    scope.columns cores' fields = requotedAll f <$> scope.columns cores fields
  | [] => by simp [Scope.columns]
  | field :: fields => by simp [Scope.columns, h.column, columns fields]

/-- A column is resolved first and quoted after that. -/
theorem columnTokens (c : Column) :
    c.tokens cores' scope = requotedAll f <$> c.tokens cores scope := by
  simp only [Column.tokens, h.resolveQualifier, map_bind, map_pure]
  -- both resolve to the same pair, so only what is done with it is compared
  refine Compiled.bind_congr fun r _ => ?_
  obtain ⟨alias?, column⟩ := r
  cases alias? <;> simp [h.name]

theorem aggregateTokens (a : Aggregate) :
    a.tokens cores' scope = requotedAll f <$> a.tokens cores scope := by
  simp [Aggregate.tokens, h.column]

/-- A table differs in the quotes of its name and of its alias. -/
theorem tableTokens (t : Table) :
    t.tokens cores' scope = requotedAll f <$> t.tokens cores scope := by
  simp [Table.tokens, h.compiledModel, h.name, h.aliasTokens]

theorem selectableTokens : ∀ i : Selectable,
    i.tokens cores' scope = requotedAll f <$> i.tokens cores scope
  | .column c => by simp [Selectable.tokens, h.columnTokens, h.aliasTokens]
  | .aggregate a => by simp [Selectable.tokens, h.aggregateTokens, h.aliasTokens]
  | .fragment _ => by simp [Selectable.tokens, Fragment.tokens]

/-- The items of a select list are written one by one. -/
theorem listTokens : ∀ is : List Selectable, Selectable.listTokens cores' scope is =
    List.map (requotedAll f) <$> Selectable.listTokens cores scope is
  | [] => by simp [Selectable.listTokens]
  | i :: is => by simp [Selectable.listTokens, h.selectableTokens, listTokens is]

/-- The select list, which is a star if it has no items. -/
theorem projectionTokens : ∀ is : List Selectable, Selectable.projectionTokens cores' scope is =
    requotedAll f <$> Selectable.projectionTokens cores scope is
  | [] => by simp [Selectable.projectionTokens]
  | i :: is => by simp [Selectable.projectionTokens, h.listTokens]

theorem orderTokens : ∀ os : List (Direction × String), RowMapper.orderTokens cores' scope os =
    List.map (requotedAll f) <$> RowMapper.orderTokens cores scope os
  | [] => by simp [RowMapper.orderTokens]
  | (_, field) :: os => by simp [RowMapper.orderTokens, h.column, orderTokens os]

end

/-! ## Expressions, conditions, sources and statements -/

mutual

/-- Expressions and predicates contain subqueries, and these contain sources and conditions again,
so what follows is one induction over all parts of a select. -/
theorem exprTokens (h : Requoted f cores cores') (scope : Scope) : ∀ e : Expr,
    e.tokens cores' scope = requotedAll f <$> e.tokens cores scope
  | .column c => h.columnTokens scope c
  | .value _ => by simp [Expr.tokens]
  | .predicate p => h.predicateTokens scope p
  | .aggregate a => h.aggregateTokens scope a
  | .math _ left right => by
    simp [Expr.tokens, h.exprTokens scope left, h.exprTokens scope right]
  | .fragment _ => by simp [Expr.tokens, Fragment.tokens]
  | .subquery s => h.subqueryTokens s
  | .quantified _ s => by simp [Expr.tokens, h.subqueryTokens s]

theorem predicateTokens (h : Requoted f cores cores') (scope : Scope) : ∀ p : Predicate,
    p.tokens cores' scope = requotedAll f <$> p.tokens cores scope
  | .compare _ left right => by
    simp [Predicate.tokens, Expr.sideTokens_eq, h.exprTokens scope left, h.exprTokens scope right]
  | .and p q => by simp [Predicate.tokens, h.predicateTokens scope p, h.predicateTokens scope q]
  | .or p q => by simp [Predicate.tokens, h.predicateTokens scope p, h.predicateTokens scope q]
  | .not p => by simp [Predicate.tokens, h.predicateTokens scope p]
  | .inList _ [] => by simp [Predicate.tokens]
  | .inList c (_ :: _) => by
    simp [Predicate.tokens, h.columnTokens scope c, Function.comp_def]
  | .inQuery c s => by simp [Predicate.tokens, h.columnTokens scope c, h.subqueryTokens s]
  | .exists s => by simp [Predicate.tokens, h.subqueryTokens s]
  | .fragment _ => by simp [Predicate.tokens, Fragment.tokens]

/-- The conjunction of the predicates so far differs in quotes only, and so it does with each
further predicate. -/
theorem conjoinedTokens (h : Requoted f cores cores') (scope : Scope) :
    ∀ (ps : List Predicate) (left : List Token),
    RowMapper.conjoinedTokens cores' scope (requotedAll f left) ps =
      requotedAll f <$> RowMapper.conjoinedTokens cores scope left ps
  | [], _ => by simp [RowMapper.conjoinedTokens]
  | p :: ps, left => by
    simp [RowMapper.conjoinedTokens, h.predicateTokens scope p, ← h.conjoinedTokens scope ps]

/-- A clause of conditions, which is left out if there are none. -/
theorem conditionTokens (h : Requoted f cores cores') (scope : Scope) (w : Word) :
    ∀ ps : List Predicate, RowMapper.conditionTokens cores' scope w ps =
      requotedAll f <$> RowMapper.conditionTokens cores scope w ps
  | [] => by simp [RowMapper.conditionTokens]
  | p :: ps => by
    simp [RowMapper.conditionTokens, h.predicateTokens scope p, h.conjoinedTokens scope ps]

/-- A source is a tree of joins with tables and subqueries as its leaves. -/
theorem sourceTokens (h : Requoted f cores cores') (scope : Scope) : ∀ s : Source,
    s.tokens cores' scope = requotedAll f <$> s.tokens cores scope
  | .table t => h.tableTokens scope t
  | .joinOn _ left right on => by
    simp [Source.tokens, h.sourceTokens scope left, h.sourceTokens scope right,
      h.conditionTokens scope .on on]
  | .joinUsing _ left right fields => by
    simp [Source.tokens, h.sourceTokens scope left, h.sourceTokens scope right,
      h.columns scope fields]
  | .subquery (.mk s _) => by simp [Source.tokens, h.selectTokens s, h.aliasTokens]

theorem subqueryTokens (h : Requoted f cores cores') : ∀ s : Subquery,
    s.tokens cores' = requotedAll f <$> s.tokens cores
  | .mk s _ => by simp [Subquery.tokens, h.selectTokens s]

/-- Without a source, rows come from the table of the statement's own model. -/
theorem rowsTokens (h : Requoted f cores cores') (scope : Scope) : ∀ s : Option Source,
    RowMapper.sourceTokens cores' scope s = requotedAll f <$> RowMapper.sourceTokens cores scope s
  | none => by simp [RowMapper.sourceTokens, h.name]
  | some s => h.sourceTokens scope s

/-- A select as a whole: every clause differs in quotes only, and the counts of rows not at all. -/
theorem selectTokens (h : Requoted f cores cores') : ∀ s : Select,
    s.tokens cores' = requotedAll f <$> s.tokens cores
  | .mk session T projection source filters groupBy having orderBy _ _ => by
    simp [Select.tokens, h.compiledModel, h.projectionTokens, h.rowsTokens _ source,
      h.conditionTokens _ .where filters, h.columns, h.conditionTokens _ .having having,
      h.orderTokens]

end

/-! ## Statements that change rows -/

section

variable (h : Requoted f cores cores') (scope : Scope)
include h

/-- The table that a statement changes. -/
theorem targetTokens (t? : Option Table) : RowMapper.targetTokens cores' scope t? =
    requotedAll f <$> RowMapper.targetTokens cores scope t? := by
  cases t? with
  | none => simp [RowMapper.targetTokens, h.name]
  | some t => exact h.tableTokens scope t

omit h in
/-- If each assignment differs in quotes only, then so does their list. -/
theorem assignmentListTokens {compile compile' : Assignment → Compiled (List Token)}
    (hcompile : ∀ a, compile' a = requotedAll f <$> compile a) : ∀ as : List Assignment,
    Assignment.listTokens compile' as =
      List.map (requotedAll f) <$> Assignment.listTokens compile as
  | [] => by simp [Assignment.listTokens]
  | a :: as => by simp [Assignment.listTokens, hcompile, assignmentListTokens hcompile as]

/-- An assignment of a conflict clause, where dialects differ in how they write the proposed
value. -/
theorem upsertTokens (proposed : Token → List Token)
    (hproposed : ∀ name, proposed (requoted f name) = requotedAll f (proposed name))
    (a : Assignment) : a.upsertTokens cores' scope proposed =
      requotedAll f <$> a.upsertTokens cores scope proposed := by
  cases a with
  | column c => simp [Assignment.upsertTokens, h.column, hproposed]
  | value field e => simp [Assignment.upsertTokens, h.column, h.exprTokens]
  | fragment _ => simp [Assignment.upsertTokens]

/-- In whatever style a conflict clause is written, it differs in quotes only. -/
theorem conflictTokens (u : Upsert) (style : ConflictStyle) :
    style.tokens cores' scope u = requotedAll f <$> style.tokens cores scope u := by
  cases style with
  | onConflict =>
    have hitems := assignmentListTokens
      (h.upsertTokens scope ConflictStyle.excludedTokens fun _ => rfl) u.assignments
    rw [ConflictStyle.tokens, ConflictStyle.tokens]
    split
    · rfl
    · simp [h.columns, hitems]
  | onDuplicateKey =>
    have hitems := assignmentListTokens
      (h.upsertTokens scope ConflictStyle.valuesTokens fun _ => rfl) u.assignments
    rw [ConflictStyle.tokens, ConflictStyle.tokens]
    split
    · rfl
    · simp [hitems]
  | counted =>
    have hlist (names : List Token) :
        (requotedAll f names).flatMap (fun name => [blank, name]) =
          requotedAll f (names.flatMap fun name => [blank, name]) := by
      simp [requotedAll, List.map_flatMap, List.flatMap_map]
    simp [ConflictStyle.tokens, h.columns, h.name, hlist]
  | omitted => simp [ConflictStyle.tokens]

/-- An assignment of an update takes the value of a field from the record, so the two cores must
read the record alike. -/
theorem updateTokens {T : EntityType} {r : T.Record}
    (hread : ∀ field, Binding.field (cores' scope.session).strategy scope.model r field =
      Binding.field (cores scope.session).strategy scope.model r field) (a : Assignment) :
    a.updateTokens cores' scope r = requotedAll f <$> a.updateTokens cores scope r := by
  cases a with
  | column c => simp [Assignment.updateTokens, h.column, hread]
  | value field e => simp [Assignment.updateTokens, h.column, h.exprTokens]
  | fragment _ => simp [Assignment.updateTokens, Fragment.tokens]

end

end Cores.Requoted

/-! ## Values of records -/

/-- The values of an insert only depend on what is read from its records. -/
theorem Insert.cells_congr {strategy strategy' : Strategy} {m : Model} {T : EntityType}
    (fields : List String) (hread : ∀ (r : T.Record) field,
      Binding.field strategy m r field = Binding.field strategy' m r field) (rs : List T.Record) :
    cells strategy m fields rs = cells strategy' m fields rs := by
  simp only [cells_eq_mapM, rowValues_eq_mapM, funext (hread _)]

/-- The cores of a statement's session read alike from the records of its entity. -/
def Statement.ReadsAlike (cores cores' : Cores) (s : Statement) : Prop :=
  ∀ m, (cores s.session).registry.model s.entity = .ok m → ∀ (r : s.entity.Record) field,
    Binding.field (cores s.session).strategy m r field =
      Binding.field (cores' s.session).strategy m r field

/-- If an insert has a clause for conflicts, the cores of its session write it in the same style. -/
def Statement.ConflictsAlike (cores cores' : Cores) : Statement → Prop
  | insert s => s.upsert?.isSome →
      (cores' s.session).dialect.conflict = (cores s.session).dialect.conflict
  | _ => True

section

variable {f : Char → Char} {cores cores' : Cores} (h : cores.Requoted f cores')
include h

/-- An insert takes more from its core than models and quotes: the values of its rows, and the style
of its conflict clause. -/
theorem Insert.tokens_requoted (s : Insert) (hread : (Statement.insert s).ReadsAlike cores cores')
    (hstyle : (Statement.insert s).ConflictsAlike cores cores') :
    s.tokens cores' = requotedAll f <$> s.tokens cores := by
  cases hempty : s.rows.isEmpty with
  | true => rw [tokens, tokens, if_pos hempty, if_pos hempty, Compiled.map_fail]
  | false =>
    rw [tokens_eq _ _ hempty, tokens_eq _ _ hempty, h.compiledModel, map_bind]
    refine Compiled.bind_congr fun m hm => ?_
    -- the style is only asked for if there is a conflict clause at all
    have hconflict (scope : Scope) :
        s.conflictTokens cores' scope = requotedAll f <$> s.conflictTokens cores scope := by
      unfold conflictTokens
      cases hupsert : s.upsert? with
      | none => simp
      | some u =>
        simp only [hstyle (by rw [hupsert]; rfl)]
        exact h.conflictTokens scope u _
    -- the strategies may differ, but not in what they read from these records
    have hcells : cells (cores' s.session).strategy m (s.listedFields m) s.rows =
        cells (cores s.session).strategy m (s.listedFields m) s.rows :=
      cells_congr _ (fun r field => (hread m hm r field).symm) s.rows
    have hrows (rows : List (List Value)) :
        (rows.map rowTokens).map (requotedAll f) = rows.map rowTokens := by
      simp [rowTokens, Function.comp_def]
    simp [h.columns, h.name, hconflict, hcells, hrows]

/-- An update takes the values of its record from its core, too. -/
theorem Update.tokens_requoted (s : Update) (hread : (Statement.update s).ReadsAlike cores cores') :
    s.tokens cores' = requotedAll f <$> s.tokens cores := by
  unfold tokens
  split
  · rw [Compiled.map_fail]
  · rw [h.compiledModel, map_bind]
    refine Compiled.bind_congr fun m hm => ?_
    have hitems := Cores.Requoted.assignmentListTokens (h.updateTokens ⟨s.session, m⟩
      (T := s.entity) fun field => (hread m hm s.record field).symm) s.assignments
    simp [h.targetTokens, hitems, h.conditionTokens]

/-- A delete takes nothing else from its core. -/
theorem Delete.tokens_requoted (s : Delete) :
    s.tokens cores' = requotedAll f <$> s.tokens cores := by
  simp [tokens, h.compiledModel, h.targetTokens, h.conditionTokens]

/-- A statement compiles to the same tokens, up to the quotes of names. -/
theorem Statement.tokens_requoted (s : Statement) (hread : s.ReadsAlike cores cores')
    (hstyle : s.ConflictsAlike cores cores') :
    s.tokens cores' = requotedAll f <$> s.tokens cores := by
  cases s with
  | select s => simp [tokens, h.selectTokens]
  | insert s => simp [tokens, s.tokens_requoted h hread hstyle]
  | update s => simp [tokens, s.tokens_requoted h hread]
  | delete s => simp [tokens, s.tokens_requoted h]
  | raw s => simp [tokens]

end

end RowMapper
