import RowMapper.Proofs.Compile.Vocabulary

/-!
# Names that a statement writes

The identifiers of a statement in the order in which a reader of its text meets them: stored names
of tables and columns, and aliases. They are read off the tree and the models alone; that the tokens
in quotes are these and no others, in this order, is `Statement.tokens_names`. A name that is
written twice is listed twice, such as a column that a conflict clause sets to its own proposed
value.
-/

namespace RowMapper

namespace Token

/-- The name that a token has in quotes. -/
def name? : Token → Option String
  | name _ s => some s
  | _ => none

/-- The names in quotes among tokens, in order. -/
def names (ts : List Token) : List String := ts.filterMap name?

@[simp]
theorem names_nil : names [] = [] := rfl

/-- Names are read from the front to the back. -/
@[simp]
theorem names_append (ts us : List Token) : names (ts ++ us) = names ts ++ names us :=
  List.filterMap_append

@[simp]
theorem names_word (w : Word) (ts : List Token) : names (word w :: ts) = names ts := rfl

@[simp]
theorem names_sign (s : Sign) (ts : List Token) : names (sign s :: ts) = names ts := rfl

/-- Of a name, its text counts and not its quote. -/
@[simp]
theorem names_name (quote : Char) (s : String) (ts : List Token) :
    names (name quote s :: ts) = s :: names ts := rfl

/-- A bound value has no name, whatever its text is. -/
@[simp]
theorem names_bound (v : Value) (ts : List Token) : names (bound v :: ts) = names ts := rfl

@[simp]
theorem names_parenthesized (ts : List Token) : names (parenthesized ts) = names ts := by
  simp [parenthesized]

@[simp]
theorem names_clause (w : Word) (ts : List Token) : names (clause w ts) = names ts := rfl

/-- The names of a list are those of its entries. -/
@[simp]
theorem names_commaSeparated : ∀ tss : List (List Token),
    names (commaSeparated tss) = tss.flatMap names
  | [] => rfl
  | [ts] => by simp [commaSeparated]
  | ts :: us :: rest => by simp [commaSeparated, names_commaSeparated (us :: rest)]

/-- A list of tokens has the names of its tokens. -/
@[simp]
theorem flatMap_names_singletons (ts : List Token) : (ts.map ([·])).flatMap names = names ts := by
  induction ts with
  | nil => rfl
  | cons t ts ih => rw [List.map_cons, List.flatMap_cons, ih, ← names_append, List.singleton_append]

/-- The names of what is left out where there would be none. -/
theorem names_unless {c : Prop} [Decidable c] {ts : List Token} {ns : List String}
    (h : names ts = ns) (hc : c → ns = []) : names (if c then [] else ts) = ns := by
  split
  · rw [hc ‹c›, names_nil]
  · exact h

/-- A name among tokens is that of a token in some quotes. -/
theorem mem_names {ts : List Token} {s : String} :
    s ∈ names ts ↔ ∃ quote, name quote s ∈ ts := by
  simp only [names, List.mem_filterMap]
  constructor
  · rintro ⟨t, ht, hs⟩
    cases t with
    | name quote n =>
      obtain rfl : n = s := by simpa [name?] using hs
      exact ⟨quote, ht⟩
    | _ => simp [name?] at hs
  · rintro ⟨quote, ht⟩
    exact ⟨_, ht, rfl⟩

end Token

/-- The columns of those fields that a model has. -/
def Model.columnNames (m : Model) (fields : List String) : List String :=
  fields.filterMap fun field => (m.columnOf field).toOption

theorem Model.columnNames_nil (m : Model) : m.columnNames [] = [] := rfl

/-- A field that the model has gives its column. -/
theorem Model.columnNames_of_ok {m : Model} {field column : String}
    (h : m.columnOf field = .ok column) : m.columnNames [field] = [column] := by
  simp [columnNames, h, Except.toOption]

/-- Columns are listed as their fields are. -/
theorem Model.columnNames_cons (m : Model) (field : String) (fields : List String) :
    m.columnNames (field :: fields) = m.columnNames [field] ++ m.columnNames fields := by
  rw [columnNames, columnNames, columnNames, ← List.filterMap_append, List.singleton_append]

/-! ## The names of a tree -/

section

variable (cores : Cores) (scope : Scope)

/-- The alias before a column, if any, and the column. -/
def Column.names (c : Column) : List String :=
  match (c.qualifier.resolve cores scope.session scope.model c.field).result with
  | .ok (alias?, column) => alias?.toList ++ [column]
  | .error _ => []

/-- The table of an entity and its alias. -/
def Table.names (t : Table) : List String :=
  match (cores scope.session).registry.model t.entity with
  | .ok m => m.tableName :: t.alias?.toList
  | .error _ => []

/-- The names of an item and its alias. -/
def Selectable.names : Selectable → List String
  | column c => c.names cores scope ++ c.alias?.toList
  | aggregate a => scope.model.columnNames [a.field] ++ a.alias?.toList
  | fragment _ => []

end

mutual

/-- The names of an operand. -/
def Expr.names (cores : Cores) (scope : Scope) : Expr → List String
  | .column c => c.names cores scope
  | .value _ => []
  | .predicate p => p.names cores scope
  | .aggregate a => scope.model.columnNames [a.field]
  | .math _ left right => left.names cores scope ++ right.names cores scope
  | .fragment _ => []
  | .subquery s => s.names cores
  | .quantified _ s => s.names cores

/-- The names of a condition. -/
def Predicate.names (cores : Cores) (scope : Scope) : Predicate → List String
  | .compare _ left right => left.names cores scope ++ right.names cores scope
  | .and p q => p.names cores scope ++ q.names cores scope
  | .or p q => p.names cores scope ++ q.names cores scope
  | .not p => p.names cores scope
  | .inList c _ => c.names cores scope
  | .inQuery c s => c.names cores scope ++ s.names cores
  | .exists s => s.names cores
  | .fragment _ => []

/-- The names of what rows are selected from. -/
def Source.names (cores : Cores) (scope : Scope) : Source → List String
  | .table t => t.names cores scope
  | .joinOn _ left right on =>
    left.names cores scope ++ right.names cores scope ++ predicatesNames cores scope on
  | .joinUsing _ left right fields =>
    left.names cores scope ++ right.names cores scope ++ scope.model.columnNames fields
  | .subquery (.mk s alias?) => s.names cores ++ alias?.toList

/-- The names of a subquery without its alias. -/
def Subquery.names (cores : Cores) : Subquery → List String
  | .mk s _ => s.names cores

/-- The names of conditions in order. -/
def predicatesNames (cores : Cores) (scope : Scope) : List Predicate → List String
  | [] => []
  | p :: ps => p.names cores scope ++ predicatesNames cores scope ps

/-- The names of a source; the statement's own table where there is none. -/
def sourceNames (cores : Cores) (scope : Scope) : Option Source → List String
  | none => [scope.model.tableName]
  | some s => s.names cores scope

/-- The names of a select statement. -/
def Select.names (cores : Cores) : Select → List String
  | .mk session T projection source filters groupBy having orderBy _ _ =>
    match (cores session).registry.model T with
    | .error _ => []
    | .ok m =>
      let scope : Scope := ⟨session, m⟩
      projection.flatMap (·.names cores scope) ++ sourceNames cores scope source ++
        predicatesNames cores scope filters ++ m.columnNames groupBy ++
        predicatesNames cores scope having ++ m.columnNames (orderBy.map (·.2))

end

/-- The names of the table that rows are changed in. -/
def targetNames (cores : Cores) (scope : Scope) : Option Table → List String
  | none => [scope.model.tableName]
  | some t => t.names cores scope

/-- The names of an assignment of an update. -/
def Assignment.updateNames (cores : Cores) (scope : Scope) : Assignment → List String
  | column c => scope.model.columnNames [c.field]
  | value field e => scope.model.columnNames [field] ++ e.names cores scope
  | fragment _ => []

/-- The names of an assignment of a conflict clause. A plain column is also the one whose proposed
value it takes. -/
def Assignment.upsertNames (cores : Cores) (scope : Scope) : Assignment → List String
  | column c => scope.model.columnNames [c.field, c.field]
  | value field e => scope.model.columnNames [field] ++ e.names cores scope
  | fragment _ => []

/-- The names of a conflict clause. -/
def ConflictStyle.names (cores : Cores) (scope : Scope) (u : Upsert) : ConflictStyle → List String
  | onConflict =>
    scope.model.columnNames u.conflict ++ u.assignments.flatMap (·.upsertNames cores scope)
  | onDuplicateKey => u.assignments.flatMap (·.upsertNames cores scope)
  | counted => scope.model.tableName :: scope.model.columnNames u.conflict
  | omitted => []

namespace Insert

/-- The names of the conflict clause of an insert, if it has one. -/
def conflictNames (cores : Cores) (scope : Scope) (s : Insert) : List String :=
  match s.upsert? with
  | none => []
  | some u => (cores s.session).dialect.conflict.names cores scope u

/-- The names of an insert. -/
def names (cores : Cores) (s : Insert) : List String :=
  match (cores s.session).registry.model s.entity with
  | .error _ => []
  | .ok m =>
    m.tableName :: m.columnNames (s.listedFields m) ++ s.conflictNames cores ⟨s.session, m⟩

end Insert

/-- The names of an update. -/
def Update.names (cores : Cores) (s : Update) : List String :=
  match (cores s.session).registry.model s.entity with
  | .error _ => []
  | .ok m =>
    let scope : Scope := ⟨s.session, m⟩
    targetNames cores scope s.table? ++ s.assignments.flatMap (·.updateNames cores scope) ++
      predicatesNames cores scope s.filters

/-- The names of a delete. -/
def Delete.names (cores : Cores) (s : Delete) : List String :=
  match (cores s.session).registry.model s.entity with
  | .error _ => []
  | .ok m =>
    let scope : Scope := ⟨s.session, m⟩
    targetNames cores scope s.table? ++ predicatesNames cores scope s.filters

/-- The identifiers of a statement, in the order of its text. A statement by the caller has none
that the compiler would write. -/
def Statement.names (cores : Cores) : Statement → List String
  | select s => s.names cores
  | insert s => s.names cores
  | update s => s.names cores
  | delete s => s.names cores
  | raw _ => []

/-! ## The names of the tokens -/

variable {cores : Cores} {M : String × EntityType → Prop}

section

variable (scope : Scope)

/-- An alias is one name, or none. -/
@[simp]
theorem Scope.names_aliasTokens (alias? : Option String) :
    Token.names (scope.aliasTokens cores alias?) = alias?.toList := by
  cases alias? <;> rfl

/-- A limit or offset has no name. -/
@[simp]
theorem names_countTokens (w : Word) (n : UInt64) : Token.names (countTokens w n) = [] := by
  unfold countTokens
  split <;> rfl

/-- A column in scope is the name of the field's column. -/
theorem Scope.column_names (field : String) : (scope.column cores field).Ensures M
    fun t => Token.names [t] = scope.model.columnNames [field] :=
  .bind (.ofExcept fun _ hc => hc) fun _ hc => .pure (scope.model.columnNames_of_ok hc).symm

/-- Columns in scope are the names of the fields' columns, in order. -/
theorem Scope.columns_names : ∀ fields : List String, (scope.columns cores fields).Ensures M
    fun ts => Token.names ts = scope.model.columnNames fields
  | [] => .pure rfl
  | field :: fields => .bind (scope.column_names field) fun t ht =>
      .bind (columns_names fields) fun ts hts => .pure (by
        rw [Model.columnNames_cons, ← ht, ← hts, ← Token.names_append, List.singleton_append])

/-- A column is its alias or qualifier's name, if it has one, and its own. -/
theorem Column.tokens_names (c : Column) : (c.tokens cores scope).Ensures M
    fun ts => Token.names ts = c.names cores scope := by
  refine .bind .self fun r hr => .pure ?_
  obtain ⟨alias?, column⟩ := r
  rw [names, hr]
  cases alias? <;> rfl

theorem Aggregate.tokens_names (a : Aggregate) : (a.tokens cores scope).Ensures M
    fun ts => Token.names ts = scope.model.columnNames [a.field] :=
  .bind (scope.column_names a.field) fun _ hc => .pure (by simpa using hc)

theorem Table.tokens_names (t : Table) : (t.tokens cores scope).Ensures M
    fun ts => Token.names ts = t.names cores scope :=
  .bind (.model fun _ _ hm => hm) fun m hm => .pure (by simp [names, hm, Scope.name])

/-- An item is followed by its alias. -/
theorem Selectable.tokens_names : ∀ i : Selectable, (i.tokens cores scope).Ensures M
    fun ts => Token.names ts = i.names cores scope
  | column c => .bind (c.tokens_names scope) fun _ hc => .pure (by simp [names, hc])
  | aggregate a => .bind (a.tokens_names scope) fun _ ha => .pure (by simp [names, ha])
  | fragment _ => .pure rfl

/-- The names of a projection are those of its items. -/
theorem Selectable.listTokens_names : ∀ is : List Selectable,
    (listTokens cores scope is).Ensures M
      fun tss => tss.flatMap Token.names = is.flatMap (·.names cores scope)
  | [] => .pure rfl
  | i :: is => .bind (i.tokens_names scope) fun _ hi =>
      .bind (listTokens_names is) fun _ his => .pure (by simp [hi, his])

theorem Selectable.projectionTokens_names : ∀ is : List Selectable,
    (projectionTokens cores scope is).Ensures M
      fun ts => Token.names ts = is.flatMap (·.names cores scope)
  | [] => .pure rfl
  | i :: is => .bind (listTokens_names scope (i :: is)) fun _ his => .pure (by simp [his])

/-- What rows are ordered by is columns; the directions are words. -/
theorem orderTokens_names : ∀ os : List (Direction × String),
    (orderTokens cores scope os).Ensures M
      fun tss => tss.flatMap Token.names = scope.model.columnNames (os.map (·.2))
  | [] => .pure rfl
  | (d, field) :: os => .bind (scope.column_names field) fun t ht =>
      .bind (orderTokens_names os) fun tss htss => .pure (by
        rw [List.map_cons, Model.columnNames_cons, ← ht, ← htss, List.flatMap_cons,
          ← List.singleton_append, Token.names_append]
        simp)

end

/-- Parentheses have no names. -/
theorem Expr.names_asSide (e : Expr) (ts : List Token) :
    Token.names (e.asSide ts) = Token.names ts := by
  cases e <;> simp [asSide]

mutual

/-- The parts of a select have their names by one induction over the tree, which both the text and
the list of names follow. -/
theorem Expr.tokens_names (scope : Scope) : ∀ e : Expr, (e.tokens cores scope).Ensures M
    fun ts => Token.names ts = e.names cores scope
  | .column c => c.tokens_names scope
  | .value _ => .pure rfl
  | .predicate p => p.tokens_names scope
  | .aggregate a => a.tokens_names scope
  | .math _ left right => .bind (left.tokens_names scope) fun _ hl =>
      .bind (right.tokens_names scope) fun _ hr => .pure (by simp [Expr.names, hl, hr])
  | .fragment _ => .pure rfl
  | .subquery s => s.tokens_names
  | .quantified _ s => .bind s.tokens_names fun _ hs => .pure (by simp [Expr.names, hs])

theorem Predicate.tokens_names (scope : Scope) : ∀ p : Predicate,
    (p.tokens cores scope).Ensures M fun ts => Token.names ts = p.names cores scope
  | .compare _ left right => by
    have hside (e : Expr) (h : (e.tokens cores scope).Ensures M
        fun ts => Token.names ts = e.names cores scope) :
        (e.sideTokens cores scope).Ensures M fun ts => Token.names ts = e.names cores scope := by
      rw [e.sideTokens_eq]
      exact .bind h fun ts hts => .pure (by rw [e.names_asSide, hts])
    exact .bind (hside left (left.tokens_names scope)) fun _ hl =>
      .bind (hside right (right.tokens_names scope)) fun _ hr => .pure (by
        simp [Predicate.names, hl, hr])
  | .and p q => .bind (p.tokens_names scope) fun _ hl =>
      .bind (q.tokens_names scope) fun _ hr => .pure (by simp [Predicate.names, hl, hr])
  | .or p q => .bind (p.tokens_names scope) fun _ hl =>
      .bind (q.tokens_names scope) fun _ hr => .pure (by simp [Predicate.names, hl, hr])
  | .not p => .bind (p.tokens_names scope) fun _ hp => .pure (by simp [Predicate.names, hp])
  | .inList _ [] => .fail _
  | .inList c (v :: vs) => .bind (c.tokens_names scope) fun _ hc => .pure (by
      simp [Predicate.names, hc])
  | .inQuery c s => .bind (c.tokens_names scope) fun _ hc =>
      .bind s.tokens_names fun _ hs => .pure (by simp [Predicate.names, hc, hs])
  | .exists s => .bind s.tokens_names fun _ hs => .pure (by simp [Predicate.names, hs])
  | .fragment _ => .pure rfl

/-- The names of what is joined already come first. -/
theorem conjoinedTokens_names (scope : Scope) : ∀ (ps : List Predicate) (left : List Token),
    (conjoinedTokens cores scope left ps).Ensures M
      fun ts => Token.names ts = Token.names left ++ predicatesNames cores scope ps
  | [], _ => .pure (by simp [predicatesNames])
  | p :: ps, _ => .bind (p.tokens_names scope) fun _ hp =>
      .mono (conjoinedTokens_names scope ps _) fun _ hps => by
        simp [hps, hp, predicatesNames]

/-- A clause of conditions has their names. -/
theorem conditionTokens_names (scope : Scope) (w : Word) : ∀ ps : List Predicate,
    (conditionTokens cores scope w ps).Ensures M
      fun ts => Token.names ts = predicatesNames cores scope ps
  | [] => .pure rfl
  | p :: ps => .bind (p.tokens_names scope) fun _ hp =>
      .bind (conjoinedTokens_names scope ps _) fun _ hps => .pure (by
        simp [hps, hp, predicatesNames])

/-- A join has the names of its sides, and then those of what it joins them on. -/
theorem Source.tokens_names (scope : Scope) : ∀ s : Source, (s.tokens cores scope).Ensures M
    fun ts => Token.names ts = s.names cores scope
  | .table t => t.tokens_names scope
  | .joinOn _ left right on => .bind (left.tokens_names scope) fun _ hl =>
      .bind (right.tokens_names scope) fun _ hr =>
        .bind (conditionTokens_names scope .on on) fun _ hon => .pure (by
          simp [Source.names, hl, hr, hon])
  | .joinUsing _ left right fields => .bind (left.tokens_names scope) fun _ hl =>
      .bind (right.tokens_names scope) fun _ hr =>
        .bind (scope.columns_names fields) fun cs hcs => .pure (by
          have hshared : Token.names (if fields.isEmpty then []
              else clause .using (parenthesized (commaSeparated (cs.map ([·]))))) =
              scope.model.columnNames fields :=
            Token.names_unless (by simpa using hcs) fun h => by
              rw [List.isEmpty_iff.mp h, Model.columnNames_nil]
          simp only [Token.names_parenthesized, Token.names_append, Token.names_sign,
            Token.names_word, hl, hr, hshared, Source.names, List.append_assoc])
  | .subquery (.mk s _) => .bind s.tokens_names fun _ hs => .pure (by simp [Source.names, hs])

theorem Subquery.tokens_names : ∀ s : Subquery, (s.tokens cores).Ensures M
    fun ts => Token.names ts = s.names cores
  | .mk s _ => .bind s.tokens_names fun _ hs => .pure (by simp [Subquery.names, hs])

/-- Where a select takes its rows from. -/
theorem sourceTokens_names (scope : Scope) : ∀ s : Option Source,
    (sourceTokens cores scope s).Ensures M fun ts => Token.names ts = sourceNames cores scope s
  | none => .pure rfl
  | some s => s.tokens_names scope

/-- A select has the names of its clauses in the order of its text. Clauses that are left out have
none. -/
theorem Select.tokens_names : ∀ s : Select, (s.tokens cores).Ensures M
    fun ts => Token.names ts = s.names cores
  | .mk session T projection source filters groupBy having orderBy limit offset => by
    refine .bind (.model fun _ m hm => hm) fun m hm => ?_
    refine .bind (Selectable.projectionTokens_names _ projection) fun items hitems => ?_
    refine .bind (sourceTokens_names _ source) fun rows hrows => ?_
    refine .bind (conditionTokens_names _ .where filters) fun filter hfilter => ?_
    refine .bind (Scope.columns_names _ groupBy) fun groups hgroups => ?_
    refine .bind (conditionTokens_names _ .having having) fun groupFilter hgroupFilter => ?_
    refine .bind (orderTokens_names _ orderBy) fun orders horders => .pure ?_
    -- the clauses that may be left out: there are no names then either
    have hgroup : Token.names (if groupBy.isEmpty then []
        else clause .groupBy (commaSeparated (groups.map ([·])))) = m.columnNames groupBy :=
      Token.names_unless (by simpa using hgroups) fun h => by
        rw [List.isEmpty_iff.mp h, Model.columnNames_nil]
    have horder : Token.names (if orderBy.isEmpty then []
        else clause .orderBy (commaSeparated orders)) = m.columnNames (orderBy.map (·.2)) :=
      Token.names_unless (by simpa using horders) fun h => by
        rw [List.isEmpty_iff.mp h, List.map_nil, Model.columnNames_nil]
    rw [Select.names, hm]
    simp only [Token.names_word, Token.names_sign, Token.names_append, Token.names_clause,
      names_countTokens, hitems, hrows, hfilter, hgroup, hgroupFilter, horder, List.append_nil]

end

section

variable (scope : Scope)

/-- The table that a statement changes. -/
theorem targetTokens_names : ∀ t? : Option Table, (targetTokens cores scope t?).Ensures M
    fun ts => Token.names ts = targetNames cores scope t?
  | none => .pure rfl
  | some t => t.tokens_names scope

namespace Assignment

/-- If each assignment has its names, then so does their list. -/
theorem listTokens_names {compile : Assignment → Compiled (List Token)}
    {names : Assignment → List String}
    (h : ∀ a, (compile a).Ensures M fun ts => Token.names ts = names a) :
    ∀ as : List Assignment, (listTokens compile as).Ensures M
      fun tss => tss.flatMap Token.names = as.flatMap names
  | [] => .pure rfl
  | a :: as => .bind (h a) fun _ ha => .bind (listTokens_names h as) fun _ has => .pure (by
      rw [List.flatMap_cons, List.flatMap_cons, ha, has])

/-- The column of an assignment with the names of what follows it. -/
theorem assigned_names {name : Token} {field : String} {ts : List Token} {ns : List String}
    (hname : Token.names [name] = scope.model.columnNames [field]) (hts : Token.names ts = ns) :
    Token.names (name :: .sign .eq :: ts) = scope.model.columnNames [field] ++ ns := by
  rw [← List.singleton_append, Token.names_append, Token.names_sign, hname, hts]

/-- A plain column is written once, as its value is bound. -/
theorem updateTokens_names {T : EntityType} (r : T.Record) : ∀ a : Assignment,
    (a.updateTokens cores scope r).Ensures M
      fun ts => Token.names ts = a.updateNames cores scope
  | column c => .bind (scope.column_names c.field) fun _ hc => .bind .any fun v _ => .pure (by
      rw [assigned_names scope hc rfl, Token.names_bound, Token.names_nil, List.append_nil,
        updateNames])
  | value field e => .bind (scope.column_names field) fun _ hc =>
      .bind (e.tokens_names scope) fun _ he => .pure (assigned_names scope hc he)
  | fragment _ => .pure rfl

/-- A plain column is written twice: as what is set, and as the proposed value it is set to. -/
theorem upsertTokens_names {proposed : Token → List Token}
    (hproposed : ∀ name, Token.names (proposed name) = Token.names [name]) : ∀ a : Assignment,
    (a.upsertTokens cores scope proposed).Ensures M
      fun ts => Token.names ts = a.upsertNames cores scope
  | column c => .bind (scope.column_names c.field) fun name hc => .pure (by
      rw [assigned_names scope hc (hproposed name), hc, ← Model.columnNames_cons, upsertNames])
  | value field e => .bind (scope.column_names field) fun _ hc =>
      .bind (e.tokens_names scope) fun _ he => .pure (assigned_names scope hc he)
  | fragment _ => .fail _

end Assignment

/-- The styles differ in what they name: the columns of the conflict, the assignments, or only the
table. -/
theorem ConflictStyle.tokens_names (u : Upsert) (style : ConflictStyle) :
    (style.tokens cores scope u).Ensures M
      fun ts => Token.names ts = style.names cores scope u := by
  cases style with
  | onConflict =>
    rw [tokens]
    split
    · exact .fail _
    refine .bind (scope.columns_names u.conflict) fun columns hcolumns => ?_
    have hexcluded (name : Token) : Token.names (excludedTokens name) = Token.names [name] := rfl
    refine .bind (Assignment.listTokens_names
      (Assignment.upsertTokens_names scope hexcluded) u.assignments) fun items hitems => ?_
    have htarget : Token.names (if u.conflict.isEmpty then []
        else parenthesized (commaSeparated (columns.map ([·])))) =
        scope.model.columnNames u.conflict :=
      Token.names_unless (by simpa using hcolumns) fun h => by
        rw [List.isEmpty_iff.mp h, Model.columnNames_nil]
    exact .pure (by
      rw [Token.names_sign, Token.names_word, Token.names_append, htarget, Token.names_clause,
        Token.names_commaSeparated, hitems, names])
  | onDuplicateKey =>
    rw [tokens]
    split
    · exact .fail _
    have hvalues (name : Token) : Token.names (valuesTokens name) = Token.names [name] := by
      simp [valuesTokens]
    exact .bind (Assignment.listTokens_names
      (Assignment.upsertTokens_names scope hvalues) u.assignments) fun items hitems => .pure (by
        rw [Token.names_clause, Token.names_commaSeparated, hitems, names])
  | counted =>
    refine .bind (scope.columns_names u.conflict) fun columns hcolumns => .pure ?_
    have hlist : Token.names (columns.flatMap fun name => [blank, name]) =
        scope.model.columnNames u.conflict := by
      rw [← hcolumns]
      clear hcolumns
      induction columns with
      | nil => rfl
      | cons c cs ih =>
        rw [List.flatMap_cons, Token.names_append, ih, Token.names_sign, ← Token.names_append,
          List.singleton_append]
    simp [hlist, Scope.name, names]
  | omitted => exact .pure rfl

end

/-- An insert without a conflict clause has no further names. -/
theorem Insert.conflictTokens_names (scope : Scope) (s : Insert) :
    (s.conflictTokens cores scope).Ensures M
      fun ts => Token.names ts = s.conflictNames cores scope := by
  unfold conflictTokens conflictNames
  cases s.upsert? with
  | none => exact .pure rfl
  | some u => exact ConflictStyle.tokens_names scope u _

/-- The rows of an insert have no names, as all of their values are bound. -/
theorem Insert.tokens_names (s : Insert) : (s.tokens cores).Ensures M
    fun ts => Token.names ts = s.names cores := by
  cases hempty : s.rows.isEmpty with
  | true =>
    rw [tokens, if_pos hempty]
    exact .fail _
  | false =>
    rw [tokens_eq _ _ hempty]
    refine .bind (.model fun _ m hm => hm) fun m hm => ?_
    refine .bind (Scope.columns_names _ _) fun columns hcolumns => ?_
    refine .bind .any fun rows _ => ?_
    refine .bind (s.conflictTokens_names _) fun conflict hconflict => .pure ?_
    have hrows : (rows.map rowTokens).flatMap Token.names = [] := by
      simp [rowTokens, List.flatMap_map]
    rw [names, hm]
    simp [Scope.name, hcolumns, hrows, hconflict]

/-- An update has the names of its table, its assignments and its conditions. -/
theorem Update.tokens_names (s : Update) : (s.tokens cores).Ensures M
    fun ts => Token.names ts = s.names cores := by
  rw [tokens]
  split
  · exact .fail _
  refine .bind (.model fun _ m hm => hm) fun m hm => ?_
  refine .bind (targetTokens_names _ s.table?) fun target htarget => ?_
  refine .bind (Assignment.listTokens_names
    (Assignment.updateTokens_names _ s.record) s.assignments) fun items hitems => ?_
  refine .bind (conditionTokens_names _ .where s.filters) fun filter hfilter => .pure ?_
  rw [names, hm]
  simp [htarget, hitems, hfilter]

theorem Delete.tokens_names (s : Delete) : (s.tokens cores).Ensures M
    fun ts => Token.names ts = s.names cores := by
  refine .bind (.model fun _ m hm => hm) fun m hm => ?_
  refine .bind (targetTokens_names _ s.table?) fun target htarget => ?_
  refine .bind (conditionTokens_names _ .where s.filters) fun filter hfilter => .pure ?_
  rw [names, hm]
  simp [htarget, hfilter]

/-- The names in quotes of a compiled statement are its identifiers, in order. -/
theorem Statement.tokens_names : ∀ s : Statement, (s.tokens cores).Ensures M
    fun ts => Token.names ts = s.names cores
  | .select s => .bind s.tokens_names fun _ hs => .pure (by simp [names, hs])
  | .insert s => .bind s.tokens_names fun _ hs => .pure (by simp [names, hs])
  | .update s => .bind s.tokens_names fun _ hs => .pure (by simp [names, hs])
  | .delete s => .bind s.tokens_names fun _ hs => .pure (by simp [names, hs])
  | .raw _ => .pure rfl

/-! ## Texts with the names of a tree -/

/-- A name in the quotes of a session, or another token with `P`. -/
def Token.QuotedOr (cores : Cores) (P : Token → Prop) : Token → Prop
  | .name quote _ => ∃ session, quote = (cores session).dialect.quote
  | t => P t

/-- Every name of a model is a name. -/
theorem Cores.namesSatisfy_true (cores : Cores) (e : String × EntityType) :
    cores.NamesSatisfy (fun _ => True) e :=
  fun _ _ => ⟨trivial, fun _ _ => trivial⟩

namespace Vocabulary

variable {P : Token → Prop} {I : String → Prop} {F : Fragment → Prop} (V : Vocabulary cores P I F)
include V

/-- Any name will do, as long as a session quotes it. -/
theorem quotedOr : Vocabulary cores (Token.QuotedOr cores P) (fun _ => True) F :=
  ⟨V.word, V.operator, V.bound, fun session _ _ => ⟨session, rfl⟩, V.fragment⟩

/-- A text with any names is one of the vocabulary if its names are. -/
theorem phrase_of_quotedOr {ts : List Token} (h : Phrase (Token.QuotedOr cores P) ts)
    (hnames : ∀ n ∈ Token.names ts, I n) : Phrase P ts := by
  -- only names ask for more than before, and they are among those that are written
  refine h.imp_of_mem fun t ht hP => ?_
  cases t with
  | name quote n =>
    obtain ⟨session, rfl⟩ := hP
    exact V.name session n (hnames n (Token.mem_names.mpr ⟨_, ht⟩))
  | _ => exact hP

end Vocabulary

/-- A statement that compiles is a phrase of its vocabulary, of which the names are exactly those
that it writes. -/
theorem Statement.phrase_of_names {P : Token → Prop} {F : Fragment → Prop} {s : Statement}
    (V : Vocabulary cores P (· ∈ s.names cores) F) (h : s.UsesOnly (fun _ => True) F)
    {ts : List Token} (hts : (s.tokens cores).result = .ok ts) :
    ∃ body, Phrase P body ∧ ts = body ++ s.terminator := by
  have hall := fun e (_ : e ∈ (s.tokens cores).consulted) => cores.namesSatisfy_true e
  obtain ⟨body, hbody, rfl⟩ := Statement.phrase V.quotedOr s h hall ts hts
  have hnames : Token.names (body ++ s.terminator) = s.names cores := s.tokens_names hall _ hts
  refine ⟨body, V.phrase_of_quotedOr hbody fun n hn => ?_, rfl⟩
  rw [← hnames, Token.names_append]
  exact List.mem_append_left _ hn

end RowMapper
