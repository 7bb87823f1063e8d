import Mathlib.Tactic.SplitIfs
import RowMapper.Proofs.Compile.Ensures
import RowMapper.Proofs.Sql.Leaves

/-!
# What a statement must satisfy to compile

`Statement.checks` lists what is asked of a statement, in the order in which its text is written:
entities that must have models, fields that must belong to them or be exposed by a subquery, lists
that must not be empty. A nested statement that is written brings its own checks to where it stands;
one that only qualifies a column brings those of the column.

`Statement.compile_checks` says that the compiler asks for exactly this. A statement compiles if and
only if every check holds, and otherwise the error is that of the first check that does not. The
proof follows the compiler: `Compiled.Tests x cs` says it of one step, and each way to make a step
has one rule.
-/

namespace RowMapper

/-- Something asked of a statement. A session is named where its registry has to have a model. -/
inductive Check where
  /-- An entity type has a model. -/
  | entity (session : String) (T : EntityType)
  /-- A name is that of a field of an entity's model. -/
  | field (session : String) (T : EntityType) (name : String)
  /-- A projection has an item that exposes a name. -/
  | exposed (items : List Selectable) (name : String)
  /-- A list of values to be compared with a column is not empty. -/
  | elements (c : Column) (vs : List Value)
  /-- A list of assignments is not empty. -/
  | assignments (as : List Assignment)
  /-- A field can be read from the record that an update takes its values from. -/
  | readable (session : String) {T : EntityType} (r : T.Record) (name : String)

/-- Whether an item of a projection exposes a name: as its alias, or as a column without one. -/
def Selectable.exposes (name : String) : Selectable → Bool
  | .column (.mk _ field alias?) => alias? = some name || (alias? = none && field = name)
  | .aggregate a => a.alias? = some name
  | .fragment _ => false

/-- A model has a column for a name if and only if it has a field of that name. -/
theorem Model.exists_columnOf_eq_ok {m : Model} {name : String} :
    (∃ column, m.columnOf name = .ok column) ↔ ∃ f, m.field? name = some f := by
  unfold columnOf
  cases m.field? name <;> simp

namespace Check

open Results

/-- What a check asks for. -/
def Holds (cores : Cores) : Check → Prop
  | entity session T => ∃ m, (cores session).registry.model T = .ok m
  | field session T name =>
    ∃ m f, (cores session).registry.model T = .ok m ∧ m.field? name = some f
  | exposed items name => ∃ i ∈ items, i.exposes name = true
  | elements _ vs => vs ≠ []
  | assignments as => as ≠ []
  | @readable session T r name => ∃ m v, (cores session).registry.model T = .ok m ∧
      Binding.field (cores session).strategy m r name = .ok v

/-- The error of a check that does not hold. -/
def fault? (cores : Cores) : Check → Option Error
  | entity session T => errorOf ((cores session).registry.model T)
  | field session T name => errorOf do (← (cores session).registry.model T).columnOf name
  | exposed items name => if items.any (·.exposes name) then none else some (.unknownField name)
  | elements c vs =>
    if vs.isEmpty then some (.unsupportedExpression (Predicate.inList c vs).outline) else none
  | assignments as => if as.isEmpty then some .nothingToUpdate else none
  | @readable session T r name => errorOf do
      Binding.field (cores session).strategy (← (cores session).registry.model T) r name

/-- A check holds exactly if there is no error for it. -/
theorem holds_iff {cores : Cores} : ∀ {c : Check}, c.Holds cores ↔ c.fault? cores = none
  | .entity session T => errorOf_eq_none.symm
  | .field session T name => by
    rw [fault?, errorOf_eq_none]
    constructor
    · rintro ⟨m, f, hm, hf⟩
      obtain ⟨column, hcolumn⟩ := Model.exists_columnOf_eq_ok.mpr ⟨f, hf⟩
      exact ⟨column, bind_eq_ok.mpr ⟨m, hm, hcolumn⟩⟩
    · rintro ⟨column, hcolumn⟩
      obtain ⟨m, hm, hcolumn⟩ := bind_eq_ok.mp hcolumn
      obtain ⟨f, hf⟩ := Model.exists_columnOf_eq_ok.mp ⟨column, hcolumn⟩
      exact ⟨m, f, hm, hf⟩
  | .exposed items name => by simp [Holds, fault?]
  | .elements c vs => by simp [Holds, fault?]
  | .assignments as => by simp [Holds, fault?]
  | .readable session r name => by
    rw [fault?, errorOf_eq_none]
    constructor
    · rintro ⟨m, v, hm, hv⟩
      exact ⟨v, bind_eq_ok.mpr ⟨m, hm, hv⟩⟩
    · rintro ⟨v, hv⟩
      obtain ⟨m, hm, hv⟩ := bind_eq_ok.mp hv
      exact ⟨m, v, hm, hv⟩

/-- A name that is not that of a field of a model is reported as unknown. -/
theorem eq_of_fault?_field {cores : Cores} {session : String} {T : EntityType} {m : Model}
    {name : String} {e : Error} (hm : (cores session).registry.model T = .ok m)
    (h : (field session T name).fault? cores = some e) : e = .unknownField name := by
  rw [fault?, hm, errorOf_eq_some] at h
  obtain h | ⟨m', hm', h⟩ := bind_eq_error.mp h
  · cases h
  · obtain rfl := Except.ok.inj hm'
    unfold Model.columnOf at h
    split at h
    · cases h
    · exact (Except.error.inj h).symm

end Check

/-! ## The checks of a statement

`T` is the entity type of the statement that a tree belongs to: fields without a qualifier are those
of its model. -/

mutual

/-- The checks of a field under a qualifier. -/
def Qualifier.checks (session : String) (T : EntityType) (field : String) : Qualifier → List Check
  | .own => [.field session T field]
  | .table t => [.entity session t.entity, .field session t.entity field]
  | .subquery s => s.exposureChecks session field

/-- The checks of a field of a subquery. Without a projection it is one of its entity. -/
def Subquery.exposureChecks (session : String) (field : String) : Subquery → List Check
  | .mk (.mk _ T [] _ _ _ _ _ _ _) _ => [.entity session T, .field session T field]
  | .mk (.mk _ T (item :: items) _ _ _ _ _ _ _) _ =>
    .entity session T :: .exposed (item :: items) field ::
      exposedChecks session T field (item :: items)

/-- The checks of the first item of a projection that exposes a field. A name given by an alias has
none; a column has those of its field. -/
def exposedChecks (session : String) (T : EntityType) (field : String) :
    List Selectable → List Check
  | [] => []
  | item :: items => match item with
    | .column (.mk q name alias?) =>
      if alias? = some field then []
      else if alias? = none ∧ name = field then q.checks session T field
      else exposedChecks session T field items
    | .aggregate a =>
      if a.alias? = some field then [] else exposedChecks session T field items
    | .fragment _ => exposedChecks session T field items

end

/-- A column has the checks of its field under its qualifier. Its alias has none. -/
def Column.checks (session : String) (T : EntityType) : Column → List Check
  | .mk q field _ => q.checks session T field

/-- The checks of an item of a projection. -/
def Selectable.checks (session : String) (T : EntityType) : Selectable → List Check
  | .column c => c.checks session T
  | .aggregate a => [.field session T a.field]
  | .fragment _ => []

mutual

/-- The checks of an expression, from left to right. Values and fragments have none. -/
def Expr.checks (session : String) (T : EntityType) : Expr → List Check
  | .column c => c.checks session T
  | .value _ => []
  | .predicate p => p.checks session T
  | .aggregate a => [.field session T a.field]
  | .math _ left right => left.checks session T ++ right.checks session T
  | .fragment _ => []
  | .subquery s => s.checks
  | .quantified _ s => s.checks

/-- The checks of a condition. A list of values is looked at before its column. -/
def Predicate.checks (session : String) (T : EntityType) : Predicate → List Check
  | .compare _ left right => left.checks session T ++ right.checks session T
  | .and p q => p.checks session T ++ q.checks session T
  | .or p q => p.checks session T ++ q.checks session T
  | .not p => p.checks session T
  | .inList c vs => .elements c vs :: c.checks session T
  | .inQuery c s => c.checks session T ++ s.checks
  | .exists s => s.checks
  | .fragment _ => []

/-- The checks of a source: of its sides, and then of what they are joined on. -/
def Source.checks (session : String) (T : EntityType) : Source → List Check
  | .table t => [.entity session t.entity]
  | .joinOn _ left right on =>
    left.checks session T ++ right.checks session T ++ predicatesChecks session T on
  | .joinUsing _ left right fields =>
    left.checks session T ++ right.checks session T ++ fields.map (.field session T)
  | .subquery s => s.checks

/-- A subquery that is written has the checks of its statement. -/
def Subquery.checks : Subquery → List Check
  | .mk s _ => s.checks

/-- The checks of a select statement, clause by clause. -/
def Select.checks : Select → List Check
  | .mk session T projection source filters groupBy having orderBy _ _ =>
    .entity session T :: (projection.flatMap (Selectable.checks session T) ++
      sourceChecks session T source ++ predicatesChecks session T filters ++
      groupBy.map (.field session T) ++ predicatesChecks session T having ++
      orderBy.map fun o => .field session T o.2)

/-- The checks of a clause of conditions. -/
def predicatesChecks (session : String) (T : EntityType) : List Predicate → List Check
  | [] => []
  | p :: ps => p.checks session T ++ predicatesChecks session T ps

def sourceChecks (session : String) (T : EntityType) : Option Source → List Check
  | none => []
  | some s => s.checks session T

end

/-- The checks of an assignment of an update. The qualifier of a plain column does not count: the
column takes the value of the record, so it is a field of the statement's own entity. -/
def Assignment.checks (session : String) {T : EntityType} (r : T.Record) : Assignment → List Check
  | column c => [.field session T c.field, .readable session r c.field]
  | value field e => .field session T field :: e.checks session T
  | fragment _ => []

/-- The table that a statement changes is only looked up if the statement names one. -/
def targetChecks (session : String) : Option Table → List Check
  | none => []
  | some t => [.entity session t.entity]

/-- The checks of an update. That it assigns anything is looked at before all else. -/
def Update.checks (s : Update) : List Check :=
  .assignments s.assignments :: .entity s.session s.entity :: (targetChecks s.session s.table? ++
    s.assignments.flatMap (Assignment.checks s.session s.record) ++
    predicatesChecks s.session s.entity s.filters)

/-- The checks of a delete. -/
def Delete.checks (s : Delete) : List Check :=
  .entity s.session s.entity :: (targetChecks s.session s.table? ++
    predicatesChecks s.session s.entity s.filters)

/-- The checks of a statement other than an insert. -/
def Statement.checks : Statement → List Check
  | .select s => s.checks
  | .insert _ => []
  | .update s => s.checks
  | .delete s => s.checks
  | .raw _ => []

/-! ## Steps and their checks -/

/-- A step fails with the error of the first of some checks that does not hold, and succeeds if all
of them hold. -/
def Compiled.Tests (cores : Cores) {α : Type} (x : Compiled α) (cs : List Check) : Prop :=
  Results.errorOf x.result = cs.findSome? (·.fault? cores)

namespace Compiled.Tests

variable {cores : Cores} {α β : Type}

theorem pure {a : α} : (pure a : Compiled α).Tests cores [] := rfl

/-- Two steps have the checks of the first and then those of the second, which only counts where the
first one succeeds. -/
theorem bind {x : Compiled α} {f : α → Compiled β} {cs ds : List Check} (hx : x.Tests cores cs)
    (hf : ∀ a, x.result = .ok a → (f a).Tests cores ds) : (x >>= f).Tests cores (cs ++ ds) := by
  unfold Tests at hx hf ⊢
  rw [Compiled.result_bind, List.findSome?_append, ← hx]
  cases hresult : x.result with
  | error e => rfl
  | ok a => exact hf a hresult

/-- To go on without failing adds no check. -/
theorem map {x : Compiled α} {cs : List Check} (hx : x.Tests cores cs) (f : α → β) :
    (x >>= fun a => Pure.pure (f a)).Tests cores cs := by
  have h := hx.bind (f := fun a => Pure.pure (f a)) fun _ _ => pure
  rwa [List.append_nil] at h

/-- To ask for a model is to check that there is one. -/
theorem model {session : String} {T : EntityType} :
    (Compiled.model cores session T).Tests cores [.entity session T] := by
  simp [Tests, Check.fault?]

/-- A step that asks for a model, and one that goes on with the model. -/
theorem modelBind {session : String} {T : EntityType} {f : Model → Compiled α} {cs : List Check}
    (hf : ∀ m, (cores session).registry.model T = .ok m → (f m).Tests cores cs) :
    (Compiled.model cores session T >>= f).Tests cores (.entity session T :: cs) :=
  model.bind hf

/-- A check that holds changes nothing. -/
theorem holds {x : Compiled α} {c : Check} {cs : List Check} (hc : c.fault? cores = none)
    (hx : x.Tests cores cs) : x.Tests cores (c :: cs) := by
  unfold Tests at hx ⊢
  rw [hx, List.findSome?_cons, hc]

/-- Of two checks with the same error, one may stand for the other. -/
theorem congr {x : Compiled α} {c d : Check} {cs : List Check}
    (hcd : c.fault? cores = d.fault? cores) (hx : x.Tests cores (d :: cs)) :
    x.Tests cores (c :: cs) := by
  unfold Tests at hx ⊢
  rw [hx, List.findSome?_cons, List.findSome?_cons, hcd]

/-- A step that fails, at a check that does not hold. -/
theorem fail {e : Error} {c : Check} {cs : List Check} (hc : c.fault? cores = some e) :
    (Compiled.fail e : Compiled α).Tests cores (c :: cs) := by
  unfold Tests
  rw [List.findSome?_cons, hc]
  rfl

/-- To look up a column is to check that the model has the field. -/
theorem columnOf {session : String} {T : EntityType} {m : Model} {name : String}
    (hm : (cores session).registry.model T = .ok m) :
    (ofExcept (m.columnOf name)).Tests cores [.field session T name] := by
  have hfault : (Check.field session T name).fault? cores = Results.errorOf (m.columnOf name) := by
    rw [Check.fault?, hm]
    rfl
  simp [Tests, hfault]

/-- A step succeeds if and only if all of its checks hold. -/
theorem exists_ok_iff {x : Compiled α} {cs : List Check} (h : x.Tests cores cs) :
    (∃ a, x.result = .ok a) ↔ ∀ c ∈ cs, c.Holds cores := by
  simp only [Check.holds_iff]
  rw [← Results.errorOf_eq_none, h, List.findSome?_eq_none_iff]

/-- The error of a step is that of one of its checks. -/
theorem exists_of_error {x : Compiled α} {cs : List Check} {e : Error} (h : x.Tests cores cs)
    (he : x.result = .error e) : ∃ c ∈ cs, c.fault? cores = some e := by
  have hfirst : Results.errorOf x.result = some e := Results.errorOf_eq_some.mpr he
  rw [h] at hfirst
  exact List.exists_of_findSome?_eq_some hfirst

end Compiled.Tests

variable {cores : Cores}

/-! ## Names in scope -/

mutual

/-- A field is looked for where its qualifier says, and the checks are made in the same order as the
lookups. -/
theorem Qualifier.resolve_tests {session : String} {T : EntityType} {own : Model}
    (hown : (cores session).registry.model T = .ok own) (field : String) : ∀ q : Qualifier,
    (q.resolve cores session own field).Tests cores (q.checks session T field)
  | .own => (Compiled.Tests.columnOf hown).map _
  | .table _ => .modelBind fun _ hm => (Compiled.Tests.columnOf hm).map _
  | .subquery s => s.resolve_tests session field

/-- A field of a subquery is looked for in its projection, or in its model if it selects
everything. -/
theorem Subquery.resolve_tests (session field : String) : ∀ s : Subquery,
    (s.resolve cores session field).Tests cores (s.exposureChecks session field)
  | .mk (.mk _ _ [] _ _ _ _ _ _ _) _ => .modelBind fun _ hm => (Compiled.Tests.columnOf hm).map _
  | .mk (.mk _ _ (item :: items) _ _ _ _ _ _ _) _ =>
    .modelBind fun _ hm => (exposedName_tests hm field (item :: items)).map _

/-- A projection is searched from the front, for the first item that exposes the name. -/
theorem exposedName_tests {session : String} {T : EntityType} {inner : Model}
    (hinner : (cores session).registry.model T = .ok inner) (field : String) :
    ∀ items : List Selectable, (exposedName cores session inner field items).Tests cores
      (.exposed items field :: exposedChecks session T field items)
  | [] => .fail rfl
  | .column (.mk q name alias?) :: items => by
    simp only [exposedName, exposedChecks]
    -- an item that exposes the name ends the search, even if it does not resolve
    split_ifs with halias hname
    · exact .holds (by simp [Check.fault?, Selectable.exposes, halias]) .pure
    · refine .holds (by simp [Check.fault?, Selectable.exposes, hname]) ?_
      exact (q.resolve_tests hinner field).map _
    · refine .congr ?_ (exposedName_tests hinner field items)
      simp [Check.fault?, Selectable.exposes, halias, hname]
  | .aggregate a :: items => by
    simp only [exposedName, exposedChecks]
    split_ifs with halias
    · exact .holds (by simp [Check.fault?, Selectable.exposes, halias]) .pure
    · refine .congr ?_ (exposedName_tests hinner field items)
      simp [Check.fault?, Selectable.exposes, halias]
  | .fragment _ :: items => .congr rfl (exposedName_tests hinner field items)

end

section

variable {T : EntityType} {scope : Scope}
  (hscope : (cores scope.session).registry.model T = .ok scope.model)
include hscope

theorem Scope.column_tests (field : String) :
    (scope.column cores field).Tests cores [.field scope.session T field] :=
  (Compiled.Tests.columnOf hscope).map _

/-- Fields are looked up from left to right. -/
theorem Scope.columns_tests : ∀ fields : List String,
    (scope.columns cores fields).Tests cores (fields.map (.field scope.session T))
  | [] => .pure
  | field :: fields => (column_tests hscope field).bind fun _ _ => (columns_tests fields).map _

/-- A column is written once its qualifier is resolved. -/
theorem Column.tokens_tests : ∀ c : Column,
    (c.tokens cores scope).Tests cores (c.checks scope.session T)
  | .mk q field _ => (q.resolve_tests hscope field).map _

theorem Aggregate.tokens_tests (a : Aggregate) :
    (a.tokens cores scope).Tests cores [.field scope.session T a.field] :=
  (scope.column_tests hscope a.field).map _

omit hscope in
theorem Table.tokens_tests (t : Table) :
    (t.tokens cores scope).Tests cores [.entity scope.session t.entity] :=
  Compiled.Tests.model.map _

theorem Selectable.tokens_tests : ∀ i : Selectable,
    (i.tokens cores scope).Tests cores (i.checks scope.session T)
  | .column c => (c.tokens_tests hscope).map _
  | .aggregate a => (a.tokens_tests hscope).map _
  | .fragment _ => .pure

/-- The items of a projection are compiled from left to right. -/
theorem Selectable.listTokens_tests : ∀ is : List Selectable,
    (listTokens cores scope is).Tests cores (is.flatMap (checks scope.session T))
  | [] => .pure
  | i :: is => (i.tokens_tests hscope).bind fun _ _ => (listTokens_tests is).map _

theorem Selectable.projectionTokens_tests : ∀ is : List Selectable,
    (projectionTokens cores scope is).Tests cores (is.flatMap (checks scope.session T))
  | [] => .pure
  | i :: is => (listTokens_tests hscope (i :: is)).map _

/-- What rows are ordered by is fields of the statement's own entity. -/
theorem orderTokens_tests : ∀ os : List (Direction × String),
    (orderTokens cores scope os).Tests cores (os.map fun o => .field scope.session T o.2)
  | [] => .pure
  | (_, field) :: os => (scope.column_tests hscope field).bind fun _ _ =>
      (orderTokens_tests os).map _

end

/-! ## Expressions, conditions, sources and statements -/

/-- The side of a condition has the checks of the operand. -/
theorem Expr.sideTokens_tests {scope : Scope} {e : Expr} {cs : List Check}
    (h : (e.tokens cores scope).Tests cores cs) : (e.sideTokens cores scope).Tests cores cs := by
  rw [sideTokens_eq]
  exact h.map _

mutual

/-- A tree is compiled in the order in which its checks are listed, and nested statements where they
stand: one induction over all parts of a select. -/
theorem Expr.tokens_tests {T : EntityType} {scope : Scope}
    (hscope : (cores scope.session).registry.model T = .ok scope.model) : ∀ e : Expr,
    (e.tokens cores scope).Tests cores (e.checks scope.session T)
  | .column c => c.tokens_tests hscope
  | .value _ => .pure
  | .predicate p => p.tokens_tests hscope
  | .aggregate a => a.tokens_tests hscope
  | .math _ left right => (left.tokens_tests hscope).bind fun _ _ =>
      (right.tokens_tests hscope).map _
  | .fragment _ => .pure
  | .subquery s => s.tokens_tests
  | .quantified _ s => s.tokens_tests.map _

/-- An empty list is noticed before its column is looked up. -/
theorem Predicate.tokens_tests {T : EntityType} {scope : Scope}
    (hscope : (cores scope.session).registry.model T = .ok scope.model) : ∀ p : Predicate,
    (p.tokens cores scope).Tests cores (p.checks scope.session T)
  | .compare _ left right => (Expr.sideTokens_tests (left.tokens_tests hscope)).bind fun _ _ =>
      (Expr.sideTokens_tests (right.tokens_tests hscope)).map _
  | .and p q => (p.tokens_tests hscope).bind fun _ _ => (q.tokens_tests hscope).map _
  | .or p q => (p.tokens_tests hscope).bind fun _ _ => (q.tokens_tests hscope).map _
  | .not p => (p.tokens_tests hscope).map _
  | .inList _ [] => .fail rfl
  | .inList c (_ :: _) => .holds rfl ((c.tokens_tests hscope).map _)
  | .inQuery c s => (c.tokens_tests hscope).bind fun _ _ => s.tokens_tests.map _
  | .exists s => s.tokens_tests.map _
  | .fragment _ => .pure

/-- What is joined already has been checked, so only the remaining predicates count. -/
theorem conjoinedTokens_tests {T : EntityType} {scope : Scope}
    (hscope : (cores scope.session).registry.model T = .ok scope.model) : ∀ (ps : List Predicate)
    (left : List Token), (conjoinedTokens cores scope left ps).Tests cores
      (predicatesChecks scope.session T ps)
  | [], _ => .pure
  | p :: ps, _ => (p.tokens_tests hscope).bind fun _ _ => conjoinedTokens_tests hscope ps _

theorem conditionTokens_tests {T : EntityType} {scope : Scope}
    (hscope : (cores scope.session).registry.model T = .ok scope.model) (w : Word) :
    ∀ ps : List Predicate, (conditionTokens cores scope w ps).Tests cores
      (predicatesChecks scope.session T ps)
  | [] => .pure
  | p :: ps => (p.tokens_tests hscope).bind fun _ _ => (conjoinedTokens_tests hscope ps _).map _

/-- A join compiles its left side, its right side, and then what it joins them on. -/
theorem Source.tokens_tests {T : EntityType} {scope : Scope}
    (hscope : (cores scope.session).registry.model T = .ok scope.model) : ∀ s : Source,
    (s.tokens cores scope).Tests cores (s.checks scope.session T)
  | .table t => t.tokens_tests
  | .joinOn _ left right on => by
    rw [Source.checks, List.append_assoc]
    exact (left.tokens_tests hscope).bind fun _ _ => (right.tokens_tests hscope).bind fun _ _ =>
      (conditionTokens_tests hscope .on on).map _
  | .joinUsing _ left right fields => by
    rw [Source.checks, List.append_assoc]
    exact (left.tokens_tests hscope).bind fun _ _ => (right.tokens_tests hscope).bind fun _ _ =>
      (scope.columns_tests hscope fields).map _
  | .subquery (.mk s _) => s.tokens_tests.map _

theorem Subquery.tokens_tests : ∀ s : Subquery, (s.tokens cores).Tests cores s.checks
  | .mk s _ => s.tokens_tests.map _

/-- A select asks for its own model first, and then compiles its clauses in order. -/
theorem Select.tokens_tests : ∀ s : Select, (s.tokens cores).Tests cores s.checks
  | .mk _ _ projection source filters groupBy having orderBy _ _ => by
    refine .modelBind fun m hm => ?_
    simp only [List.append_assoc]
    refine (Selectable.projectionTokens_tests hm projection).bind fun _ _ => ?_
    refine (sourceTokens_tests hm source).bind fun _ _ => ?_
    refine (conditionTokens_tests hm .where filters).bind fun _ _ => ?_
    refine (Scope.columns_tests hm groupBy).bind fun _ _ => ?_
    refine (conditionTokens_tests hm .having having).bind fun _ _ => ?_
    exact (orderTokens_tests hm orderBy).map _

theorem sourceTokens_tests {T : EntityType} {scope : Scope}
    (hscope : (cores scope.session).registry.model T = .ok scope.model) : ∀ s : Option Source,
    (sourceTokens cores scope s).Tests cores (sourceChecks scope.session T s)
  | none => .pure
  | some s => s.tokens_tests hscope

end

/-! ## Statements that change rows -/

/-- A statement that names no table changes rows of its own one. -/
theorem targetTokens_tests (scope : Scope) : ∀ t? : Option Table,
    (targetTokens cores scope t?).Tests cores (targetChecks scope.session t?)
  | none => .pure
  | some t => t.tokens_tests

/-- A plain column is looked up in the model and then read from the record. -/
theorem Assignment.updateTokens_tests {T : EntityType} {scope : Scope}
    (hscope : (cores scope.session).registry.model T = .ok scope.model) (r : T.Record) :
    ∀ a : Assignment, (a.updateTokens cores scope r).Tests cores (a.checks scope.session r)
  | .column c => by
    have hread : (Compiled.ofExcept (Binding.field (cores scope.session).strategy scope.model r
        c.field)).Tests cores [.readable scope.session r c.field] := by
      have hfault : (Check.readable scope.session r c.field).fault? cores = Results.errorOf
          (Binding.field (cores scope.session).strategy scope.model r c.field) := by
        rw [Check.fault?, hscope]
        rfl
      simp [Compiled.Tests, hfault]
    exact (scope.column_tests hscope c.field).bind fun _ _ => hread.map _
  | .value field e => (scope.column_tests hscope field).bind fun _ _ =>
      (e.tokens_tests hscope).map _
  | .fragment _ => .pure

/-- If each assignment has its checks, then so does their list, one after the other. -/
theorem Assignment.listTokens_tests {compile : Assignment → Compiled (List Token)}
    {checks : Assignment → List Check} (h : ∀ a, (compile a).Tests cores (checks a)) :
    ∀ as : List Assignment, (listTokens compile as).Tests cores (as.flatMap checks)
  | [] => .pure
  | a :: as => (h a).bind fun _ _ => (listTokens_tests h as).map _

/-- The clauses of an update, after the check that it assigns anything. -/
theorem Update.tokens_tests (s : Update) : (s.tokens cores).Tests cores s.checks := by
  unfold tokens checks
  -- the empty list is noticed before a model is asked for
  split
  · next hempty => exact .fail (by simp [Check.fault?, hempty])
  · next hassigned =>
    refine .holds (by simpa [Check.fault?] using hassigned) (.modelBind fun m hm => ?_)
    rw [List.append_assoc]
    refine (targetTokens_tests ⟨s.session, m⟩ s.table?).bind fun _ _ => ?_
    refine (Assignment.listTokens_tests (Assignment.updateTokens_tests hm s.record)
      s.assignments).bind fun _ _ => ?_
    exact (conditionTokens_tests hm .where s.filters).map _

theorem Delete.tokens_tests (s : Delete) : (s.tokens cores).Tests cores s.checks :=
  .modelBind fun m hm => (targetTokens_tests ⟨s.session, m⟩ s.table?).bind fun _ _ =>
    (conditionTokens_tests hm .where s.filters).map _

/-- To make a query of the tokens adds no check. -/
theorem Statement.compile_tests : ∀ s : Statement, s.kind ≠ .insert →
    (s.compile cores).Tests cores s.checks
  | .select s, _ => (s.tokens_tests.map _).map _
  | .insert _, h => absurd rfl h
  | .update s, _ => (s.tokens_tests.map _).map _
  | .delete s, _ => (s.tokens_tests.map _).map _
  | .raw _, _ => Compiled.Tests.pure.map _

/-- A statement other than an insert compiles if and only if all of its checks hold. Otherwise the
error is that of the first check, in the order in which the text is written, that does not. -/
theorem Statement.compile_checks (cores : Cores) (s : Statement) (hkind : s.kind ≠ .insert) :
    ((∃ q, (s.compile cores).result = .ok q) ↔ ∀ c ∈ s.checks, c.Holds cores) ∧
      ∀ e, (s.compile cores).result = .error e ↔ ∃ before c after,
        s.checks = before ++ c :: after ∧ (∀ d ∈ before, d.Holds cores) ∧
          c.fault? cores = some e := by
  have htests : Results.errorOf (s.compile cores).result = _ := s.compile_tests hkind
  simp only [Check.holds_iff]
  constructor
  · rw [← Results.errorOf_eq_none, htests, List.findSome?_eq_none_iff]
  · intro e
    rw [← Results.errorOf_eq_some, htests, List.findSome?_eq_some_iff]
    constructor
    · rintro ⟨before, c, after, hchecks, hfault, hbefore⟩
      exact ⟨before, c, after, hchecks, hbefore, hfault⟩
    · rintro ⟨before, c, after, hchecks, hbefore, hfault⟩
      exact ⟨before, c, after, hchecks, hfault, hbefore⟩

/-- A select with two faults: a nested statement compares a field that transfers do not have, and
after it stands an empty list. -/
def faultySelect : Select :=
  (((Select.all "db" account).filteredBy (.inQuery (.own "id")
    (.mk ((Select.all "db" transfer).filteredBy (.compare .eq (.column (.own "fee"))
      (.value (.integer 1)))) none))).filteredBy (.inList (.own "owner") [])).orderedBy
        .ascending "balance"

/-- The error of a select with two faults is that of the first one. -/
theorem Statement.compile_checks_faultySelect :
    ∃ before c after, (Statement.select faultySelect).checks = before ++ c :: after ∧
      (∀ d ∈ before, d.Holds fun _ => .default) ∧
      (c.fault? fun _ => .default) = some (.unknownField "fee") :=
  ((compile_checks (fun _ => .default) (.select faultySelect) (by decide)).2 _).mp rfl

/-- An update of transfers that assigns a column of accounts. -/
def qualifiedAssignment : Update :=
  (Update.of "db" transfer).assigning [.column ((Table.mk account none).column "amount")]

/-- A select of a field that two items of a subquery expose: a column that accounts do not have, and
a combined value. -/
def doublyExposed : Select :=
  (Select.all "db" transfer).withProjection [.column (Subquery.column (.mk ((Select.all "db"
    account).withProjection [.column (.own "fee"), .aggregate ⟨.count, "id", some "fee"⟩])
      (some "s")) "fee")]

/-- The declaration of a record whose field is not reachable by name. -/
def secretive : EntityType :=
  { account with name := "Secret", fields := [{ FieldDecl.int64 "secret" with hidden := true }] }

/-- An update that takes its value from a field that is not reachable by name. -/
def secretAssignment : Update := (Update.of "db" secretive).assigning [.column (.own "secret")]

/-- Where the checks are not those of names alone. A plain column of an update compiles although its
table has no such field. A field that a later item of a subquery exposes does not, as the first item
that exposes it counts. A field of the model does not, as the record does not give its value. -/
theorem Statement.compile_names_alone :
    ((∃ q, ((Statement.update qualifiedAssignment).compile fun _ => .default).result = .ok q) ∧
      ¬(Check.field "db" account "amount").Holds fun _ => .default) ∧
    (((Statement.select doublyExposed).compile fun _ => .default).result =
        .error (.unknownField "fee") ∧
      (Selectable.aggregate ⟨.count, "id", some "fee"⟩).exposes "fee" = true) ∧
    (((Statement.update secretAssignment).compile fun _ => .default).result =
        .error (.unknownField "secret") ∧
      (Check.field "db" secretive "secret").Holds fun _ => .default) := by
  refine ⟨⟨⟨_, rfl⟩, ?_⟩, ⟨rfl, rfl⟩, rfl, ?_⟩
  · rw [Check.holds_iff]
    decide
  · exact ⟨_, _, rfl, rfl⟩

end RowMapper
