import RowMapper.Proofs.Compile.Ensures
import RowMapper.Proofs.Sql.Leaves

/-!
# Aliases outside projections

Columns and combined values carry an alias wherever they stand, but only an item of a projection is
written with it, and only an item of a projection is found under it. `unaliased` takes all other
aliases of columns and combined values away, also inside subqueries and inside what qualifies a
column. Two statements that become the same without these aliases compile alike
(`Statement.compile_of_unaliased_eq`).

What is compiled to tokens is the same with and without the aliases. They do show in the message of
a failure, since it may hold the text of a condition. So it is the kind of a failure that stays:
its number, which every kind has one of its own of. `Compiled.Alike` says this of a single step.
-/

namespace RowMapper

/-! ## Statements without the aliases -/

/-- The combined value without its alias. -/
def Aggregate.unaliased (a : Aggregate) : Aggregate := { a with alias? := none }

mutual

/-- The column without its alias. -/
def Column.unaliased : Column → Column
  | .mk q field _ => .mk q.unaliased field none

/-- What a column belongs to, where that is a subquery with conditions of its own. -/
def Qualifier.unaliased : Qualifier → Qualifier
  | .own => .own
  | .table t => .table t
  | .subquery s => .subquery s.unaliased

/-- The expression without the aliases of its columns and combined values. -/
def Expr.unaliased : Expr → Expr
  | .column c => .column c.unaliased
  | .value v => .value v
  | .predicate p => .predicate p.unaliased
  | .aggregate a => .aggregate a.unaliased
  | .math op left right => .math op left.unaliased right.unaliased
  | .fragment f => .fragment f
  | .subquery s => .subquery s.unaliased
  | .quantified q s => .quantified q s.unaliased

/-- The predicate without the aliases in its operands. -/
def Predicate.unaliased : Predicate → Predicate
  | .compare op left right => .compare op left.unaliased right.unaliased
  | .and p q => .and p.unaliased q.unaliased
  | .or p q => .or p.unaliased q.unaliased
  | .not p => .not p.unaliased
  | .inList c values => .inList c.unaliased values
  | .inQuery c s => .inQuery c.unaliased s.unaliased
  | .exists s => .exists s.unaliased
  | .fragment f => .fragment f

/-- An item of a projection keeps its alias. What its column belongs to may be a subquery, which has
conditions of its own. -/
def Selectable.unaliased : Selectable → Selectable
  | .column (.mk q field alias?) => .column (.mk q.unaliased field alias?)
  | .aggregate a => .aggregate a
  | .fragment f => .fragment f

/-- The source without the aliases in its conditions. Tables and subqueries keep theirs. -/
def Source.unaliased : Source → Source
  | .table t => .table t
  | .joinOn kind left right on =>
    .joinOn kind left.unaliased right.unaliased (unaliasedPredicates on)
  | .joinUsing kind left right fields => .joinUsing kind left.unaliased right.unaliased fields
  | .subquery s => .subquery s.unaliased

/-- A subquery keeps its own alias, which is no alias of a column. -/
def Subquery.unaliased : Subquery → Subquery
  | .mk s alias? => .mk s.unaliased alias?

/-- The select without the aliases outside its projection. -/
def Select.unaliased : Select → Select
  | .mk session T projection source filters groupBy having orderBy limit offset =>
    .mk session T (unaliasedItems projection) (unaliasedSource source)
      (unaliasedPredicates filters) groupBy (unaliasedPredicates having) orderBy limit offset

/-- Every condition of a list without its aliases. -/
def unaliasedPredicates : List Predicate → List Predicate
  | [] => []
  | p :: ps => p.unaliased :: unaliasedPredicates ps

/-- Every item of a projection, with its own alias only. -/
def unaliasedItems : List Selectable → List Selectable
  | [] => []
  | i :: is => i.unaliased :: unaliasedItems is

/-- A source, if there is one, without its aliases. -/
def unaliasedSource : Option Source → Option Source
  | none => none
  | some s => some s.unaliased

end

/-- The assignment without the aliases of its target and its value. -/
def Assignment.unaliased : Assignment → Assignment
  | column c => column c.unaliased
  | value field e => value field e.unaliased
  | fragment f => fragment f

/-- The conflict clause without the aliases in its assignments. -/
def Upsert.unaliased (u : Upsert) : Upsert :=
  { u with assignments := u.assignments.map Assignment.unaliased }

def Insert.unaliased (s : Insert) : Insert := { s with upsert? := s.upsert?.map Upsert.unaliased }

/-- The update without the aliases in its assignments and conditions. -/
def Update.unaliased (s : Update) : Update :=
  { s with
    assignments := s.assignments.map Assignment.unaliased
    filters := unaliasedPredicates s.filters }

def Delete.unaliased (s : Delete) : Delete := { s with filters := unaliasedPredicates s.filters }

/-- The statement without the aliases of columns and combined values outside projections. -/
def Statement.unaliased : Statement → Statement
  | select s => select s.unaliased
  | insert s => insert s.unaliased
  | update s => update s.unaliased
  | delete s => delete s.unaliased
  | raw s => raw s

/-! ## Steps that compile alike -/

namespace Compiled

variable {α β : Type}

/-- Two steps ask for the same models, and both give the same result or fail with errors of the same
kind. -/
structure Alike (x y : Compiled α) : Prop where
  consulted : x.consulted = y.consulted
  result : x.result.mapError Error.code = y.result.mapError Error.code

namespace Alike

theorem refl (x : Compiled α) : x.Alike x := ⟨rfl, rfl⟩

theorem symm {x y : Compiled α} (h : x.Alike y) : y.Alike x := ⟨h.consulted.symm, h.result.symm⟩

theorem trans {x y z : Compiled α} (h : x.Alike y) (h' : y.Alike z) : x.Alike z :=
  ⟨h.consulted.trans h'.consulted, h.result.trans h'.result⟩

/-- Either both steps give the same, or both fail. -/
theorem cases {x y : Compiled α} (h : x.Alike y) :
    (∃ a, x.result = .ok a ∧ y.result = .ok a) ∨
      ∃ e e', x.result = .error e ∧ y.result = .error e' ∧ e.code = e'.code := by
  have hresult := h.result
  cases hx : x.result with
  | ok a =>
    cases hy : y.result with
    | ok b =>
      rw [hx, hy] at hresult
      obtain rfl : a = b := Except.ok.inj hresult
      exact .inl ⟨a, rfl, rfl⟩
    | error e =>
      rw [hx, hy] at hresult
      cases hresult
  | error e =>
    cases hy : y.result with
    | ok b =>
      rw [hx, hy] at hresult
      cases hresult
    | error e' =>
      rw [hx, hy] at hresult
      exact .inr ⟨e, e', rfl, rfl, Except.error.inj hresult⟩

/-- Steps that compile alike, followed by steps that do for every value, do so together. -/
theorem bind {x y : Compiled α} {f g : α → Compiled β} (h : x.Alike y)
    (hf : ∀ a, (f a).Alike (g a)) : (x >>= f).Alike (y >>= g) := by
  have hconsulted := h.consulted
  obtain ⟨consulted, result⟩ := x
  obtain ⟨consulted', result'⟩ := y
  obtain rfl : consulted = consulted' := hconsulted
  -- after a common value the second steps decide, after two failures there are none
  rcases h.cases with ⟨a, hx, hy⟩ | ⟨e, e', hx, hy, hcode⟩
  · obtain rfl : result = .ok a := hx
    obtain rfl : result' = .ok a := hy
    exact ⟨congrArg (consulted ++ ·) (hf a).consulted, (hf a).result⟩
  · obtain rfl : result = .error e := hx
    obtain rfl : result' = .error e' := hy
    exact ⟨rfl, congrArg Except.error hcode⟩

/-- Two failures of the same kind. -/
theorem fail {e e' : Error} (h : e.code = e'.code) :
    (Compiled.fail e : Compiled α).Alike (Compiled.fail e') :=
  ⟨rfl, congrArg Except.error h⟩

end Alike

end Compiled

/-! ## Names in scope -/

section

variable (cores : Cores)

mutual

/-- A qualified column resolves as before: the list of a subquery is a projection, and keeps its
aliases. -/
theorem Qualifier.resolve_unaliased (session : String) (own : Model) (field : String) :
    ∀ q : Qualifier,
      q.unaliased.resolve cores session own field = q.resolve cores session own field
  | .own => rfl
  | .table _ => rfl
  | .subquery s => Subquery.resolve_unaliased session field s

/-- A subquery exposes what it did. -/
theorem Subquery.resolve_unaliased (session field : String) : ∀ s : Subquery,
    s.unaliased.resolve cores session field = s.resolve cores session field
  | .mk (.mk _ _ [] _ _ _ _ _ _ _) _ => rfl
  | .mk (.mk _ T (item :: items) _ _ _ _ _ _ _) _ => by
    have hitems (inner : Model) := exposedName_unaliased session inner field (item :: items)
    rw [unaliasedItems] at hitems
    simp only [Subquery.unaliased, Select.unaliased, unaliasedItems, Subquery.resolve, hitems]

/-- The first item of a list that exposes a field is the same one. -/
theorem exposedName_unaliased (session : String) (inner : Model) (field : String) :
    ∀ items : List Selectable,
      exposedName cores session inner field (unaliasedItems items) =
        exposedName cores session inner field items
  | [] => rfl
  | .column (.mk q name _) :: items => by
    simp only [unaliasedItems, Selectable.unaliased, exposedName,
      Qualifier.resolve_unaliased session inner field q,
      exposedName_unaliased session inner field items]
  | .aggregate _ :: items => by
    simp only [unaliasedItems, Selectable.unaliased, exposedName,
      exposedName_unaliased session inner field items]
  | .fragment _ :: items => exposedName_unaliased session inner field items

end

variable (scope : Scope)

/-- A column is written without its alias, whether it has one or not. -/
@[simp]
theorem Column.tokens_unaliased (c : Column) :
    c.unaliased.tokens cores scope = c.tokens cores scope := by
  obtain ⟨q, field, alias?⟩ := c
  simp only [unaliased, tokens, qualifier, Column.field, Qualifier.resolve_unaliased]

/-- An item of a projection is written with its alias, and it kept that. -/
@[simp]
theorem Selectable.tokens_unaliased : ∀ i : Selectable,
    i.unaliased.tokens cores scope = i.tokens cores scope
  | .column (.mk q field alias?) => by
    simp only [unaliased, tokens, Column.tokens, Column.qualifier, Column.field, Column.alias?,
      Qualifier.resolve_unaliased]
  | .aggregate _ => rfl
  | .fragment _ => rfl

theorem Selectable.listTokens_unaliased : ∀ is : List Selectable,
    listTokens cores scope (unaliasedItems is) = listTokens cores scope is
  | [] => rfl
  | i :: is => by
    simp only [unaliasedItems, listTokens, tokens_unaliased, listTokens_unaliased is]

/-- A projection is written as before. -/
@[simp]
theorem Selectable.projectionTokens_unaliased : ∀ is : List Selectable,
    projectionTokens cores scope (unaliasedItems is) = projectionTokens cores scope is
  | [] => rfl
  | i :: is => by
    have hitems := listTokens_unaliased cores scope (i :: is)
    rw [unaliasedItems] at hitems
    simp only [unaliasedItems, projectionTokens, hitems]

end

/-- An operand is put in parentheses if it is nested, whatever aliases are in it. -/
theorem Expr.asSide_unaliased (e : Expr) : e.unaliased.asSide = e.asSide := by
  cases e <;> rfl

/-! ## Expressions, conditions, sources and statements -/

open Compiled (Alike)

section

variable (cores : Cores)

mutual

/-- The parts of a select compile alike, in one induction over the tree. Only conditions can fail
with another text than before. -/
theorem Expr.tokens_alike (scope : Scope) : ∀ e : Expr,
    (e.unaliased.tokens cores scope).Alike (e.tokens cores scope)
  | .column c => by
    rw [Expr.unaliased, Expr.tokens, Expr.tokens, Column.tokens_unaliased]
    exact .refl _
  | .value _ => .refl _
  | .predicate p => Predicate.tokens_alike scope p
  | .aggregate _ => .refl _
  | .math _ left right =>
    (Expr.tokens_alike scope left).bind fun _ =>
      (Expr.tokens_alike scope right).bind fun _ => .refl _
  | .fragment _ => .refl _
  | .subquery s => Subquery.tokens_alike s
  | .quantified _ s => (Subquery.tokens_alike s).bind fun _ => .refl _

theorem Predicate.tokens_alike (scope : Scope) : ∀ p : Predicate,
    (p.unaliased.tokens cores scope).Alike (p.tokens cores scope)
  | .compare _ left right => by
    simp only [Predicate.unaliased, Predicate.tokens, Expr.sideTokens_eq, Expr.asSide_unaliased]
    exact ((Expr.tokens_alike scope left).bind fun _ => .refl _).bind fun _ =>
      ((Expr.tokens_alike scope right).bind fun _ => .refl _).bind fun _ => .refl _
  | .and p q =>
    (Predicate.tokens_alike scope p).bind fun _ =>
      (Predicate.tokens_alike scope q).bind fun _ => .refl _
  | .or p q =>
    (Predicate.tokens_alike scope p).bind fun _ =>
      (Predicate.tokens_alike scope q).bind fun _ => .refl _
  | .not p => (Predicate.tokens_alike scope p).bind fun _ => .refl _
  -- the one failure whose text shows the aliases
  | .inList _ [] => .fail rfl
  | .inList c (_ :: _) => by
    rw [Predicate.unaliased, Predicate.tokens, Predicate.tokens, Column.tokens_unaliased]
    exact .refl _
  | .inQuery c s => by
    rw [Predicate.unaliased, Predicate.tokens, Predicate.tokens, Column.tokens_unaliased]
    exact (Alike.refl _).bind fun _ => (Subquery.tokens_alike s).bind fun _ => .refl _
  | .exists s => (Subquery.tokens_alike s).bind fun _ => .refl _
  | .fragment _ => .refl _

/-- The predicates before are written already, so they are the same text on both sides. -/
theorem conjoinedTokens_alike (scope : Scope) : ∀ (ps : List Predicate) (left : List Token),
    (conjoinedTokens cores scope left (unaliasedPredicates ps)).Alike
      (conjoinedTokens cores scope left ps)
  | [], _ => .refl _
  | p :: ps, _ =>
    (Predicate.tokens_alike scope p).bind fun _ => conjoinedTokens_alike scope ps _

/-- A clause of conditions, if there are any. -/
theorem conditionTokens_alike (scope : Scope) (w : Word) : ∀ ps : List Predicate,
    (conditionTokens cores scope w (unaliasedPredicates ps)).Alike
      (conditionTokens cores scope w ps)
  | [] => .refl _
  | p :: ps =>
    (Predicate.tokens_alike scope p).bind fun ts =>
      (conjoinedTokens_alike scope ps ts).bind fun _ => .refl _

/-- A source compiles its sides before what it joins them on. -/
theorem Source.tokens_alike (scope : Scope) : ∀ s : Source,
    (s.unaliased.tokens cores scope).Alike (s.tokens cores scope)
  | .table _ => .refl _
  | .joinOn _ left right on =>
    (Source.tokens_alike scope left).bind fun _ =>
      (Source.tokens_alike scope right).bind fun _ =>
        (conditionTokens_alike scope .on on).bind fun _ => .refl _
  | .joinUsing _ left right _ =>
    (Source.tokens_alike scope left).bind fun _ =>
      (Source.tokens_alike scope right).bind fun _ => .refl _
  | .subquery (.mk s _) => (Select.tokens_alike s).bind fun _ => .refl _

theorem Subquery.tokens_alike : ∀ s : Subquery,
    (s.unaliased.tokens cores).Alike (s.tokens cores)
  | .mk s _ => (Select.tokens_alike s).bind fun _ => .refl _

theorem sourceTokens_alike (scope : Scope) : ∀ s : Option Source,
    (sourceTokens cores scope (unaliasedSource s)).Alike (sourceTokens cores scope s)
  | none => .refl _
  | some s => Source.tokens_alike scope s

/-- The clauses of a select compile one after the other, the projection and the order as they
are. -/
theorem Select.tokens_alike : ∀ s : Select, (s.unaliased.tokens cores).Alike (s.tokens cores)
  | .mk session T projection source filters groupBy having orderBy _ _ => by
    simp only [Select.unaliased, Select.tokens, Selectable.projectionTokens_unaliased]
    refine (Alike.refl _).bind fun _ => (Alike.refl _).bind fun _ =>
      (sourceTokens_alike _ source).bind fun _ =>
        (conditionTokens_alike _ .where filters).bind fun _ => (Alike.refl _).bind fun _ =>
          (conditionTokens_alike _ .having having).bind fun _ => .refl _

end

/-! ## Statements that change rows -/

/-- If each assignment compiles alike, then so does their list. -/
theorem Assignment.listTokens_alike {compile : Assignment → Compiled (List Token)}
    (hcompile : ∀ a : Assignment, (compile a.unaliased).Alike (compile a)) :
    ∀ as : List Assignment,
      (listTokens compile (as.map Assignment.unaliased)).Alike (listTokens compile as)
  | [] => .refl _
  | a :: as => (hcompile a).bind fun _ => (listTokens_alike hcompile as).bind fun _ => .refl _

variable (scope : Scope)

/-- A plain column is named by its field alone. -/
theorem Assignment.updateTokens_alike {T : EntityType} (r : T.Record) : ∀ a : Assignment,
    (a.unaliased.updateTokens cores scope r).Alike (a.updateTokens cores scope r)
  | .column (.mk _ _ _) => .refl _
  | .value _ e => (Alike.refl _).bind fun _ => (e.tokens_alike cores scope).bind fun _ => .refl _
  | .fragment _ => .refl _

theorem Assignment.upsertTokens_alike (proposed : Token → List Token) : ∀ a : Assignment,
    (a.unaliased.upsertTokens cores scope proposed).Alike (a.upsertTokens cores scope proposed)
  | .column (.mk _ _ _) => .refl _
  | .value _ e => (Alike.refl _).bind fun _ => (e.tokens_alike cores scope).bind fun _ => .refl _
  | .fragment _ => .refl _

/-- The styles that count assignments or leave them out do not look into them. -/
theorem ConflictStyle.tokens_alike (u : Upsert) (style : ConflictStyle) :
    (style.tokens cores scope u.unaliased).Alike (style.tokens cores scope u) := by
  cases style with
  | onConflict =>
    simp only [tokens, Upsert.unaliased, List.isEmpty_map]
    split
    · exact .refl _
    · exact (Alike.refl _).bind fun _ => (Assignment.listTokens_alike
        (Assignment.upsertTokens_alike cores scope _) u.assignments).bind fun _ => .refl _
  | onDuplicateKey =>
    simp only [tokens, Upsert.unaliased, List.isEmpty_map]
    split
    · exact .refl _
    · exact (Assignment.listTokens_alike
        (Assignment.upsertTokens_alike cores scope _) u.assignments).bind fun _ => .refl _
  | counted =>
    simp only [tokens, Upsert.unaliased, List.length_map]
    exact .refl _
  | omitted => exact .refl _

/-- The rows of an insert have no aliases, so only its conflict clause is looked at. -/
theorem Insert.tokens_alike (s : Insert) : (s.unaliased.tokens cores).Alike (s.tokens cores) := by
  cases hrows : s.rows.isEmpty with
  | true =>
    rw [tokens, tokens, unaliased, hrows]
    exact .refl _
  | false =>
    rw [tokens_eq cores s hrows, tokens_eq cores s.unaliased hrows]
    refine (Alike.refl _).bind fun m => (Alike.refl _).bind fun _ => (Alike.refl _).bind fun _ =>
      Alike.bind ?_ fun _ => .refl _
    unfold conflictTokens unaliased
    cases s.upsert? with
    | none => exact .refl _
    | some u => exact ConflictStyle.tokens_alike cores _ u _

/-- The assignments of an update read the same fields of the record. -/
theorem Update.tokens_alike (s : Update) : (s.unaliased.tokens cores).Alike (s.tokens cores) := by
  simp only [tokens, unaliased, List.isEmpty_map]
  split
  · exact .refl _
  · exact (Alike.refl _).bind fun m => (Alike.refl _).bind fun _ =>
      (Assignment.listTokens_alike (Assignment.updateTokens_alike cores _ s.record)
        s.assignments).bind fun _ => (conditionTokens_alike cores _ .where s.filters).bind fun _ =>
          .refl _

theorem Delete.tokens_alike (s : Delete) : (s.unaliased.tokens cores).Alike (s.tokens cores) :=
  (Alike.refl _).bind fun _ => (Alike.refl _).bind fun _ =>
    (conditionTokens_alike cores _ .where s.filters).bind fun _ => .refl _

/-- A statement compiles like the one without the aliases. -/
theorem Statement.compile_unaliased (s : Statement) :
    (s.unaliased.compile cores).Alike (s.compile cores) := by
  refine Alike.bind ?_ fun _ => .refl _
  cases s with
  | select s => exact (s.tokens_alike cores).bind fun _ => .refl _
  | insert s => exact (s.tokens_alike cores).bind fun _ => .refl _
  | update s => exact (s.tokens_alike cores).bind fun _ => .refl _
  | delete s => exact (s.tokens_alike cores).bind fun _ => .refl _
  | raw s => exact .refl _

end

/-- Aliases of columns and combined values matter in projections only. Two statements that differ
outside projections, in such aliases alone, ask for the same models; they compile to the same query,
or both fail with errors of the same kind. -/
theorem Statement.compile_of_unaliased_eq {s s' : Statement} (h : s'.unaliased = s.unaliased)
    (cores : Cores) :
    (s'.compile cores).consulted = (s.compile cores).consulted ∧
      ((∃ q, (s'.compile cores).result = .ok q ∧ (s.compile cores).result = .ok q) ∨
        ∃ e e', (s'.compile cores).result = .error e' ∧ (s.compile cores).result = .error e ∧
          e'.code = e.code) := by
  have halike : (s'.compile cores).Alike (s.compile cores) :=
    (s'.compile_unaliased cores).symm.trans (h ▸ s.compile_unaliased cores)
  refine ⟨halike.consulted, ?_⟩
  rcases halike.cases with hok | ⟨e', e, herror⟩
  · exact .inl hok
  · exact .inr ⟨e, e', herror⟩

/-- The owners of several accounts, with an alias for each column and count outside the
projections. -/
def severalOwners (alias? : Option String) : Select :=
  .mk "db" account [.column ((Column.own "owner").as "name")] none
    [.inQuery (.mk .own "id" alias?) (.mk (.mk "db" account [.column (.own "id")] none
      [.compare .gt (.column (.mk .own "balance" alias?)) (.value (.integer 0))] [] [] [] 0 0)
      none)]
    ["owner"]
    [.compare .gt (.aggregate ⟨.count, "id", alias?⟩) (.value (.integer 1))] [] 0 0

/-- The alias of the projection is written, the others are not. -/
theorem Statement.compile_of_unaliased_eq_severalOwners :
    (Statement.select (severalOwners (some "n"))).unaliased =
        (Statement.select (severalOwners none)).unaliased ∧
      ∃ q, ((Statement.select (severalOwners (some "n"))).compile fun _ => .default).result =
          .ok q ∧
        ((Statement.select (severalOwners none)).compile fun _ => .default).result = .ok q ∧
        q.sql = "SELECT `owner` AS `name` FROM `account` WHERE `id` IN (SELECT `id` FROM " ++
          "`account` WHERE `balance` > ?) GROUP BY `owner` HAVING COUNT(`id`) > ?;" := by
  have hsame : (Statement.select (severalOwners (some "n"))).unaliased =
      (Statement.select (severalOwners none)).unaliased := rfl
  refine ⟨hsame, ?_⟩
  rcases (compile_of_unaliased_eq hsame fun _ => .default).2 with ⟨q, hn, hq⟩ | ⟨e, e', -, he, -⟩
  · refine ⟨q, hn, hq, ?_⟩
    obtain rfl := Except.ok.inj hq
    decide +kernel
  · cases he

/-- Only the kind of a failure is the same: its text shows the alias. -/
example : ((Predicate.inList (.mk .own "id" (some "n")) []).tokens
      (fun _ => .default) accountScope).result ≠
    ((Predicate.inList (.mk .own "id" none) []).tokens (fun _ => .default) accountScope).result :=
  by decide

end RowMapper
