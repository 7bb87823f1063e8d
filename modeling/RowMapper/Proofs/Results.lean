import Mathlib.Data.List.Forall2
import RowMapper.Error

/-!
# Results

A chain of two results succeeds if both do, and a list of results if each does. `Results.errorOf` is
the error of a result that is one.
-/

namespace RowMapper.Results

variable {α β γ : Type}

/-- What is done to the value in the end may be done in the second step. -/
theorem map_bind (x : Except Error α) (f : α → Except Error β) (g : β → γ) :
    (x >>= f).map g = x >>= fun a => (f a).map g := by
  cases x <;> rfl

theorem map_eq_ok {x : Except Error α} {f : α → β} {b : β} :
    x.map f = .ok b ↔ ∃ a, x = .ok a ∧ f a = b := by
  cases x <;> simp [Except.map]

/-- Results that become the same are the same, errors included. -/
theorem map_injective {f : α → β} (hf : Function.Injective f) :
    Function.Injective (Except.map f : Except Error α → Except Error β)
  | .error _, .error _, h => congrArg Except.error (Except.error.inj h)
  | .ok _, .ok _, h => congrArg Except.ok (hf (Except.ok.inj h))

/-- What follows two results that have one image is the same if it only depends on the image. -/
theorem bind_of_map_eq {δ : Type} {x : Except Error α} {y : Except Error β} {f : α → γ} {g : β → γ}
    {k : α → Except Error δ} {l : β → Except Error δ} (h : x.map f = y.map g)
    (hk : ∀ a b, f a = g b → k a = l b) : x >>= k = y >>= l := by
  cases x with
  | error e =>
    cases y with
    | error e' => exact congrArg Except.error (Except.error.inj h)
    | ok b => cases h
  | ok a =>
    cases y with
    | error e => cases h
    | ok b => exact hk a b (Except.ok.inj h)

/-- Two steps succeed if the first one does and then the second one with its value. -/
theorem bind_eq_ok {x : Except Error α} {f : α → Except Error β} {b : β} :
    (x >>= f) = .ok b ↔ ∃ a, x = .ok a ∧ f a = .ok b := by
  cases x with
  | error e => simp [Bind.bind, Except.bind]
  | ok a => simp [Bind.bind, Except.bind]

/-- Two steps fail if the first one does, or else if the second one does with its value. -/
theorem bind_eq_error {x : Except Error α} {f : α → Except Error β} {e : Error} :
    (x >>= f) = .error e ↔ x = .error e ∨ ∃ a, x = .ok a ∧ f a = .error e := by
  cases x with
  | error e' => simp [Bind.bind, Except.bind]
  | ok a => simp [Bind.bind, Except.bind]

/-- A list of steps succeeds with the values that its steps give, one for each and in order. -/
theorem mapM_eq_ok {f : α → Except Error β} : ∀ {as : List α} {bs : List β},
    as.mapM f = .ok bs ↔ List.Forall₂ (fun a b => f a = .ok b) as bs
  | [], bs => by cases bs <;> simp [pure, Except.pure]
  | a :: as, bs => by
    rw [List.mapM_cons, bind_eq_ok]
    constructor
    · rintro ⟨b, hb, h⟩
      obtain ⟨rest, hrest, h⟩ := bind_eq_ok.mp h
      obtain rfl := Except.ok.inj h
      exact .cons hb (mapM_eq_ok.mp hrest)
    · rintro (_ | ⟨hb, hrest⟩)
      exact ⟨_, hb, bind_eq_ok.mpr ⟨_, mapM_eq_ok.mpr hrest, rfl⟩⟩

/-- A list fails with the error of its first element that fails. -/
theorem mapM_eq_error {f : α → Except Error β} {e : Error} : ∀ {as : List α},
    as.mapM f = .error e ↔ ∃ before a after, as = before ++ a :: after ∧
      (∀ a' ∈ before, ∃ b, f a' = .ok b) ∧ f a = .error e
  | [] => by simp [pure, Except.pure]
  | a :: as => by
    rw [List.mapM_cons, bind_eq_error]
    constructor
    · rintro (ha | ⟨b, hb, h⟩)
      · exact ⟨[], a, as, rfl, nofun, ha⟩
      -- the failing element is the head, or a later one with this head before it
      · obtain hrest | ⟨bs, -, hpure⟩ := bind_eq_error.mp h
        · obtain ⟨before, a', after, rfl, hbefore, ha'⟩ := mapM_eq_error.mp hrest
          exact ⟨a :: before, a', after, rfl, List.forall_mem_cons.mpr ⟨⟨b, hb⟩, hbefore⟩, ha'⟩
        · cases hpure
    · rintro ⟨_ | ⟨_, before⟩, a', after, heq, hbefore, ha'⟩ <;>
        obtain ⟨rfl, rfl⟩ := List.cons.inj heq
      · exact .inl ha'
      · obtain ⟨⟨b, hb⟩, hbefore⟩ := List.forall_mem_cons.mp hbefore
        have hrest := mapM_eq_error.mpr ⟨before, a', after, rfl, hbefore, ha'⟩
        exact .inr ⟨b, hb, bind_eq_error.mpr (.inl hrest)⟩

/-- A list of steps succeeds if each of them does. -/
theorem exists_mapM_eq_ok {f : α → Except Error β} {as : List α} (h : ∀ a ∈ as, ∃ b, f a = .ok b) :
    ∃ bs, as.mapM f = .ok bs := by
  induction as with
  | nil => exact ⟨[], rfl⟩
  | cons a as ih =>
    obtain ⟨b, hb⟩ := h a (.head _)
    obtain ⟨bs, hbs⟩ := ih fun a ha => h a (.tail _ ha)
    exact ⟨b :: bs, mapM_eq_ok.mpr (.cons hb (mapM_eq_ok.mp hbs))⟩

/-- The error of a result that is one. -/
def errorOf : Except Error α → Option Error
  | .ok _ => none
  | .error e => some e

theorem errorOf_eq_none {x : Except Error α} : errorOf x = none ↔ ∃ a, x = .ok a := by
  cases x <;> simp [errorOf]

theorem errorOf_eq_some {x : Except Error α} {e : Error} : errorOf x = some e ↔ x = .error e := by
  cases x <;> simp [errorOf]

end RowMapper.Results
