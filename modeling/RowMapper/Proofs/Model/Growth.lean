import RowMapper.Proofs.Model.Indexes

/-!
# Growing registries

A registry that is asked for models takes in default models of types that had none, and changes in
no other way: `Registry.Grows`. Since a type without a model would have been given its default model
anyway, growth does not show in the models that a registry gives (`Registry.Grows.model`).

`Registry.lookup?_replace` says what a registry finds after the one step that changes it, and there
is an equation for each thing that `Registry.get` and `Registry.register` can do; nothing later
opens these operations.
-/

namespace RowMapper.Registry

variable {r r' r'' : Registry} {T U : EntityType} {m : Model} {shared : SharedModel}

/-- The model that a replacement shares is found under its type, and other types are as before. -/
theorem lookup?_replace (r : Registry) (T : EntityType) (m : Model) (U : EntityType) :
    (r.replace T m).2.lookup? U = if U = T then some (r.replace T m).1 else r.lookup? U := by
  have hother := lookup_filter (fun V => decide (V ≠ T)) U r.entries
  by_cases hU : U = T
  · subst hU
    simp [lookup?, replace]
  · have hbeq : (U == T) = false := beq_false_of_ne hU
    simpa [lookup?, replace, List.lookup_cons, hbeq, hU] using hother

/-- A type that has a model keeps it. -/
theorem insertIfAbsent_of_lookup? (h : r.lookup? T = some shared) (m : Model) :
    r.insertIfAbsent T m = (shared, r) := by
  rw [insertIfAbsent, h]

theorem insertIfAbsent_of_absent (h : r.lookup? T = none) (m : Model) :
    r.insertIfAbsent T m = r.replace T m := by
  rw [insertIfAbsent, h]

/-! ## The three things that asking for a model does -/

/-- A model that is there is given as it is. -/
theorem get_of_lookup? (h : r.lookup? T = some shared) : r.get T = (.ok shared, r) := by
  rw [get, h]

/-- A type without a model is given its default model, which it has from then on. -/
theorem get_of_absent (h : r.lookup? T = none) (hm : Model.ofEntity T = .ok m) :
    r.get T = (.ok (r.replace T m).1, (r.replace T m).2) := by
  simp only [get, h, hm, insertIfAbsent_of_absent h]

/-- A type that has no default model either leaves the registry as it was. -/
theorem get_of_error {e : Error} (h : r.lookup? T = none) (he : Model.ofEntity T = .error e) :
    r.get T = (.error e, r) := by
  simp only [get, h, he]

/-! ## The two things that registering a model does -/

section

variable {options : List ModelOption} {e : Error}

/-- The model that was made replaces the one that was there. -/
theorem register_of_ok (h : (Model.ofEntity T >>= (ModelOption.applyAll · options)) = .ok m) :
    r.register T options = (.ok (r.replace T m).1, (r.replace T m).2) := by
  rw [register, h]

/-- If a model cannot be made, the one that was there stays. -/
theorem register_of_error
    (h : (Model.ofEntity T >>= (ModelOption.applyAll · options)) = .error e) :
    r.register T options = (.error e, r) := by
  rw [register, h]

end

/-! ## The model of a type -/

/-- What `get` gives is what `model` reads. -/
theorem get_eq_model (r : Registry) (T : EntityType) :
    (r.get T).1.map (·.model) = r.model T := by
  rw [model]
  cases h : r.lookup? T with
  | some shared => rw [get_of_lookup? h]; rfl
  | none => cases hm : Model.ofEntity T with
    | ok m => rw [get_of_absent h hm]; rfl
    | error e => rw [get_of_error h hm]; rfl

/-- After a type was asked for it has a model, if it has a default model. -/
theorem isSome_lookup?_get (r : Registry) (T U : EntityType) :
    ((r.get T).2.lookup? U).isSome = true ↔
      (r.lookup? U).isSome = true ∨ T = U ∧ ∃ m, Model.ofEntity U = .ok m := by
  cases h : r.lookup? T with
  | some shared =>
    rw [get_of_lookup? h, iff_self_or]
    rintro ⟨rfl, -⟩
    rw [h, Option.isSome_some]
  | none => cases hm : Model.ofEntity T with
    | ok m =>
      rw [get_of_absent h hm, lookup?_replace]
      by_cases hU : U = T
      · subst hU
        simp [hm]
      · simp [hU, Ne.symm hU]
    | error e =>
      rw [get_of_error h hm, iff_self_or]
      rintro ⟨rfl, m, hok⟩
      simp [hm] at hok

/-! ## Growth -/

/-- A registry has come to share default models of types that had none, under new serial numbers,
and still shares all that it shared. -/
structure Grows (r r' : Registry) : Prop where
  issued : r.issued ≤ r'.issued
  keeps : ∀ {T : EntityType} {shared : SharedModel},
    r.lookup? T = some shared → r'.lookup? T = some shared
  gains : ∀ {T : EntityType} {shared : SharedModel},
    r.lookup? T = none → r'.lookup? T = some shared →
      Model.ofEntity T = .ok shared.model ∧ r.issued ≤ shared.serial

namespace Grows

protected theorem refl (r : Registry) : r.Grows r where
  issued := Nat.le_refl _
  keeps h := h
  gains h h' := by simp [h] at h'

/-- What was taken in on the way is there at the end, and what is new at the end was either taken in
on the way or after it. -/
theorem trans (h : r.Grows r') (h' : r'.Grows r'') : r.Grows r'' where
  issued := Nat.le_trans h.issued h'.issued
  keeps hT := h'.keeps (h.keeps hT)
  gains {T shared} hnone hT := by
    cases hbetween : r'.lookup? T with
    | some found =>
      obtain rfl : found = shared := by simpa [h'.keeps hbetween] using hT
      exact h.gains hnone hbetween
    | none =>
      obtain ⟨hdefault, hserial⟩ := h'.gains hbetween hT
      exact ⟨hdefault, Nat.le_trans h.issued hserial⟩

/-- Asking for a model lets a registry grow. -/
theorem get (r : Registry) (T : EntityType) : r.Grows (r.get T).2 := by
  cases h : r.lookup? T with
  | some shared => rw [get_of_lookup? h]; exact .refl r
  | none => cases hm : Model.ofEntity T with
    | error e => rw [get_of_error h hm]; exact .refl r
    | ok m =>
      rw [get_of_absent h hm]
      refine ⟨Nat.le_succ _, fun {U shared} hU => ?_, fun {U shared} hnone hU => ?_⟩
      -- a type that had a model is not the one that was asked for
      · have hne : U ≠ T := fun heq => by simp [heq, h] at hU
        rw [lookup?_replace, if_neg hne, hU]
      · rw [lookup?_replace] at hU
        split at hU
        · next heq =>
          obtain rfl := Option.some.inj hU
          exact ⟨heq ▸ hm, Nat.le_refl _⟩
        · simp [hnone] at hU

/-- A registry that has grown gives the models that it gave before. -/
theorem model (h : r.Grows r') (T : EntityType) : r'.model T = r.model T := by
  rw [Registry.model, Registry.model]
  cases hbefore : r.lookup? T with
  | some shared => rw [h.keeps hbefore]
  | none => cases hafter : r'.lookup? T with
    | none => rfl
    | some shared => rw [(h.gains hbefore hafter).1]

end Grows

end RowMapper.Registry
