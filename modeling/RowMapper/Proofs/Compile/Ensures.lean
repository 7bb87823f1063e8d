import RowMapper.Compile.Statement
import RowMapper.Proofs.Results

/-!
# Postconditions of compilation steps

`Compiled.Ensures M x Q` is a postcondition: a step that succeeds has a result with `Q`, provided
that `M` holds of the models it asked for. One lemma for each way to make a step is all that a proof
about the compiler needs; nothing below unfolds `Compiled.bind` again.
-/

namespace RowMapper

namespace Compiled

variable {α β : Type} {M : String × EntityType → Prop}

/-- A step that succeeds has a result with `Q`, if `M` holds of every model it asked for. -/
def Ensures (M : String × EntityType → Prop) (x : Compiled α) (Q : α → Prop) : Prop :=
  (∀ e ∈ x.consulted, M e) → ∀ a, x.result = .ok a → Q a

theorem bind_eq (x : Compiled α) (f : α → Compiled β) : (x >>= f) = Compiled.bind x f := rfl

theorem pure_eq (a : α) : (pure a : Compiled α) = ⟨[], .ok a⟩ := rfl

/-- Three steps in a row ask for the same models however they are grouped. -/
theorem bind_assoc {γ : Type} (x : Compiled α) (f : α → Compiled β) (g : β → Compiled γ) :
    (x >>= f) >>= g = x >>= fun a => f a >>= g := by
  obtain ⟨consulted, result⟩ := x
  simp only [bind_eq]
  cases result with
  | error e => rfl
  | ok a =>
    simp only [Compiled.bind]
    cases (f a).result <;> simp

/-- What follows a step only has to be the same for the result that it gave. -/
theorem bind_congr {x : Compiled α} {f g : α → Compiled β}
    (h : ∀ a, x.result = .ok a → f a = g a) : x >>= f = x >>= g := by
  obtain ⟨consulted, result⟩ := x
  simp only [bind_eq]
  cases result with
  | error e => rfl
  | ok a => simp only [Compiled.bind, h a rfl]

/-- Returning what a step gave is that step. -/
@[simp]
theorem bind_pure (x : Compiled α) : (x >>= fun a => pure a) = x := by
  obtain ⟨consulted, result⟩ := x
  rw [bind_eq]
  cases result <;> simp [Compiled.bind, pure_eq]

instance : LawfulMonad Compiled :=
  .mk' _ (fun x => bind_pure x) (fun a f => by
    rw [bind_eq, pure_eq]
    simp [Compiled.bind]) bind_assoc

/-- To change the result of a step is to change nothing that it asked for, and no error. -/
@[simp]
theorem result_map (f : α → β) (x : Compiled α) : (f <$> x).result = x.result.map f := by
  rw [← bind_pure_comp, result_bind]
  cases x.result <;> rfl

/-- A list of steps gives the results of its steps, up to the first that fails. -/
theorem result_mapM (f : α → Compiled β) : ∀ as : List α,
    (as.mapM f).result = as.mapM fun a => (f a).result
  | [] => rfl
  | a :: as => by
    rw [List.mapM_cons, List.mapM_cons, result_bind]
    simp only [bind_pure_comp, result_map, result_mapM f as]
    rfl

theorem ofExcept_ok (a : α) : ofExcept (.ok a) = pure a := rfl

/-- Steps that ask for no model are chained as their results are. -/
theorem ofExcept_bind (r : Except Error α) (f : α → Except Error β) :
    ofExcept (r >>= f) = ofExcept r >>= fun a => ofExcept (f a) := by
  cases r <;> rfl

theorem ofExcept_map (f : α → β) (r : Except Error α) :
    ofExcept (f <$> r) = f <$> ofExcept r := by
  cases r <;> rfl

@[simp]
theorem map_fail (f : α → β) (e : Error) : f <$> (fail e : Compiled α) = fail e := rfl

/-- What a step asks for does not depend on what is made of its result. -/
theorem consulted_bind_pure (x : Compiled α) (f : α → β) :
    (x >>= fun a => pure (f a)).consulted = x.consulted := by
  obtain ⟨consulted, result⟩ := x
  rw [bind_eq]
  cases result <;> simp [Compiled.bind, pure_eq]

/-- Nothing is asked of the result. -/
theorem Ensures.any {x : Compiled α} : Ensures M x fun _ => True := fun _ _ _ => trivial

theorem Ensures.pure {Q : α → Prop} {a : α} (h : Q a) : Ensures M (pure a) Q := by
  intro _ b hb
  obtain rfl : a = b := by simpa using hb
  exact h

/-- A step that fails has every postcondition. -/
theorem Ensures.fail {Q : α → Prop} (e : Error) : Ensures M (fail e : Compiled α) Q := by
  intro _ a ha
  simp at ha

/-- A step that asks for no model has the postcondition that its result has. -/
theorem Ensures.ofExcept {Q : α → Prop} {r : Except Error α} (h : ∀ a, r = .ok a → Q a) :
    Ensures M (ofExcept r) Q :=
  fun _ a ha => h a ha

/-- To ask for a model is to know `M` of its entity type, and that the registry has this model. -/
theorem Ensures.model {cores : Cores} {session : String} {T : EntityType} {Q : Model → Prop}
    (h : M (session, T) → ∀ m, (cores session).registry.model T = .ok m → Q m) :
    Ensures M (model cores session T) Q :=
  fun hM m hm => h (hM _ (by simp [Compiled.model])) m hm

/-- A chain has a postcondition if the first step has one from which the second one follows it. Both
steps may use `M` of the models that they ask for themselves. -/
theorem Ensures.bind {x : Compiled α} {f : α → Compiled β} {R : α → Prop} {Q : β → Prop}
    (hx : Ensures M x R) (hf : ∀ a, R a → Ensures M (f a) Q) : Ensures M (x >>= f) Q := by
  obtain ⟨consulted, result⟩ := x
  rw [bind_eq]
  cases result with
  | error e =>
    intro _ b hb
    simp [Compiled.bind] at hb
  | ok a =>
    intro hM b hb
    -- the models asked for are those of the first step and then those of the second
    simp only [Compiled.bind, List.mem_append] at hM hb
    have hR : R a := hx (fun e he => hM e (.inl he)) a rfl
    exact hf a hR (fun e he => hM e (.inr he)) b hb

/-- A result is known to be the one that the step gave. -/
theorem Ensures.self {x : Compiled α} : Ensures M x fun a => x.result = .ok a := fun _ _ ha => ha

/-- Two postconditions of one step hold together. -/
theorem Ensures.and {x : Compiled α} {Q R : α → Prop} (hQ : Ensures M x Q) (hR : Ensures M x R) :
    Ensures M x fun a => Q a ∧ R a :=
  fun hM a ha => ⟨hQ hM a ha, hR hM a ha⟩

/-- A postcondition may be weakened. -/
theorem Ensures.mono {x : Compiled α} {Q R : α → Prop} (hx : Ensures M x Q)
    (h : ∀ a, Q a → R a) : Ensures M x R :=
  fun hM a ha => h a (hx hM a ha)

end Compiled

/-- The columns of a scope are looked up one by one and then quoted; only the lookup can fail. -/
theorem Scope.columns_eq_mapM (cores : Cores) (scope : Scope) : ∀ fields : List String,
    scope.columns cores fields =
      List.map (scope.name cores) <$> Compiled.ofExcept (fields.mapM scope.model.columnOf)
  | [] => rfl
  | field :: fields => by
    simp [columns, column, columns_eq_mapM cores scope fields, Compiled.ofExcept_bind,
      Compiled.ofExcept_map]

/-! ## Operands of conditions

An operand of a condition is compiled like any other, up to the parentheses of a nested one. -/

/-- The tokens of an operand as the side of a condition. -/
def Expr.asSide : Expr → List Token → List Token
  | .predicate _, ts => parenthesized ts
  | _, ts => ts

/-- A side is compiled as an expression, and parentheses come afterwards. -/
theorem Expr.sideTokens_eq (cores : Cores) (scope : Scope) (e : Expr) :
    e.sideTokens cores scope = e.tokens cores scope >>= fun ts => pure (e.asSide ts) := by
  cases e <;> simp [Expr.sideTokens, Expr.tokens, Expr.asSide]

/-! ## Inserts as chains of steps -/

namespace Insert

section

variable {strategy : Strategy} {m : Model} {T : EntityType}

/-- The values of a row are read field by field. -/
theorem rowValues_eq_mapM (r : T.Record) : ∀ fields : List String,
    rowValues strategy m r fields = fields.mapM (Binding.field strategy m r)
  | [] => rfl
  | field :: fields => by rw [rowValues, List.mapM_cons, rowValues_eq_mapM r fields]

/-- The values of an insert are read row by row. -/
theorem cells_eq_mapM (fields : List String) : ∀ rs : List T.Record,
    cells strategy m fields rs = rs.mapM (rowValues strategy m · fields)
  | [] => rfl
  | r :: rs => by rw [cells, List.mapM_cons, cells_eq_mapM fields rs]

/-- The values of a row stand in the order of its fields, and each was read from its own field. -/
theorem rowValues_eq_ok {r : T.Record} {fields : List String} {vs : List Value} :
    rowValues strategy m r fields = .ok vs ↔
      List.Forall₂ (fun field v => Binding.field strategy m r field = .ok v) fields vs := by
  rw [rowValues_eq_mapM, Results.mapM_eq_ok]

/-- The rows of values stand in the order of the records. -/
theorem cells_eq_ok {fields : List String} {rs : List T.Record} {vss : List (List Value)} :
    cells strategy m fields rs = .ok vss ↔
      List.Forall₂ (fun r vs => rowValues strategy m r fields = .ok vs) rs vss := by
  rw [cells_eq_mapM, Results.mapM_eq_ok]

end

/-- The conflict clause of an insert, if it has one. -/
def conflictTokens (cores : Cores) (scope : Scope) (s : Insert) : Compiled (List Token) :=
  match s.upsert? with
  | none => pure []
  | some u => (cores s.session).dialect.conflict.tokens cores scope u

/-- An insert with rows compiles in one chain: model, columns, values, conflict clause. Each can
fail, in this order. -/
theorem tokens_eq (cores : Cores) (s : Insert) (hrows : s.rows.isEmpty = false) :
    s.tokens cores = (do
      let m ← Compiled.model cores s.session s.entity
      let scope : Scope := ⟨s.session, m⟩
      let names ← scope.columns cores (s.listedFields m)
      let rows ← Compiled.ofExcept
        (cells (cores s.session).strategy m (s.listedFields m) s.rows)
      let conflict ← s.conflictTokens cores scope
      return Token.word .insertInto :: blank :: scope.name cores m.tableName ::
        (parenthesized (commaSeparated (names.map ([·]))) ++ blank :: Token.word .values ::
          (commaSeparated (rows.map rowTokens) ++ conflict))) := by
  unfold tokens conflictTokens
  rw [hrows]
  cases s.upsert? <;> rfl

end Insert

end RowMapper
