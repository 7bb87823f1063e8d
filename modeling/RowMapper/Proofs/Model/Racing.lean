import Mathlib.Logic.Function.Basic
import RowMapper.Proofs.Model.Sharing

/-!
# Racing callers of a registry

Callers that share a registry take its operations apart: an operation looks its type up or makes a
model on its own (`Operation.enter`), and then shares the model that it made, if it made one
(`Operation.share`). Any steps of other callers may lie in between: `Callers.Step`.

In whatever order the steps are taken, the answers and the registry are those of the operations made
one after the other in the order of their last steps (`Callers.run_of_trace`): a model that was made
for a type which has one by then is dropped, as if its maker had come late and found the other.
`Callers.registrations_last` says what follows for the models of one type.
-/

namespace RowMapper.Registry

namespace Operation

/-- The first step of an operation: it gives the answer, or a model that is still to be shared. -/
def enter (r : Registry) : Operation → Except Error SharedModel ⊕ Model
  | get T => match r.lookup? T with
    | some shared => .inl (.ok shared)
    | none => match Model.ofEntity T with
      | .ok m => .inr m
      | .error e => .inl (.error e)
  | register T options => match (register T options).made with
    | .ok m => .inr m
    | .error e => .inl (.error e)

/-- The second step of an operation: it shares the model that the operation made. -/
def share (r : Registry) (m : Model) : Operation → SharedModel × Registry
  | get T => r.insertIfAbsent T m
  | register T _ => r.replace T m

variable {r : Registry} {o : Operation} {m : Model}

/-- An operation takes its steps in a row. -/
theorem apply_eq_enter (r : Registry) (o : Operation) :
    o.apply r = match o.enter r with
      | .inl answer => (answer, r)
      | .inr m => (.ok (o.share r m).1, (o.share r m).2) := by
  cases o with
  | get T =>
    rw [apply, enter, Registry.get]
    cases r.lookup? T with
    | some shared => rfl
    | none => cases Model.ofEntity T <;> rfl
  | register T options =>
    rw [apply, enter, Registry.register, made]
    cases Model.ofEntity T >>= (ModelOption.applyAll · options) <;> rfl

/-- An operation that is answered at its first step is done, and leaves the registry as it is. -/
theorem apply_of_enter {answer : Except Error SharedModel} (h : o.enter r = .inl answer) :
    o.apply r = (answer, r) := by
  rw [apply_eq_enter, h]

/-- An operation that goes on has made its model at the first step. -/
theorem made_of_enter (h : o.enter r = .inr m) : o.made = .ok m := by
  cases o with
  | get T =>
    rw [enter] at h
    split at h
    · simp at h
    · split at h
      · next hm => rw [made, hm, Sum.inr.inj h]
      · simp at h
  | register T options =>
    rw [enter] at h
    split at h
    · next hm => rw [hm, Sum.inr.inj h]
    · simp at h

/-- Whatever happened since an operation made its model, sharing it is the whole operation now. -/
theorem apply_of_share (h : o.made = .ok m) (r : Registry) :
    o.apply r = (.ok (o.share r m).1, (o.share r m).2) := by
  cases o with
  | get T =>
    rw [apply, share]
    cases hlookup : r.lookup? T with
    -- another caller was faster, and the model that was made is dropped
    | some shared => rw [get_of_lookup? hlookup, insertIfAbsent_of_lookup? hlookup]
    | none => rw [get_of_absent hlookup h, insertIfAbsent_of_absent hlookup]
  | register T options => exact register_of_ok h

end Operation

/-- Callers of a registry: the operation and the model of each of them that has made one and not yet
shared it, and the registry. -/
structure Callers (ι : Type) where
  holding : ι → Option (Operation × Model)
  registry : Registry

namespace Callers

variable {ι : Type} [DecidableEq ι] {r : Registry} {x y z : Callers ι} {as past : List Answered}

/-- Callers that are not in the middle of an operation. -/
def idle (r : Registry) : Callers ι := ⟨fun _ => none, r⟩

/-- One step of one caller, with the answer if it is the last step of an operation. -/
inductive Step : Callers ι → Option Answered → Callers ι → Prop
  | answered (x : Callers ι) (i : ι) (o : Operation) (answer : Except Error SharedModel)
      (hidle : x.holding i = none) (henter : o.enter x.registry = .inl answer) :
      Step x (some ⟨o, answer⟩) x
  | made (x : Callers ι) (i : ι) (o : Operation) (m : Model)
      (hidle : x.holding i = none) (henter : o.enter x.registry = .inr m) :
      Step x none ⟨Function.update x.holding i (some (o, m)), x.registry⟩
  | shared (x : Callers ι) (i : ι) (o : Operation) (m : Model)
      (hholding : x.holding i = some (o, m)) :
      Step x (some ⟨o, .ok (o.share x.registry m).1⟩)
        ⟨Function.update x.holding i none, (o.share x.registry m).2⟩

/-- Any number of steps, with the answers in their order. -/
inductive Trace : Callers ι → List Answered → Callers ι → Prop
  | nil (x : Callers ι) : Trace x [] x
  | snoc {x y z : Callers ι} {as : List Answered} {a : Option Answered} (hpast : Trace x as y)
      (hstep : Step y a z) : Trace x (as ++ a.toList) z

/-- What a caller holds is what its operation makes. -/
def Made (x : Callers ι) : Prop := ∀ i o m, x.holding i = some (o, m) → o.made = .ok m

omit [DecidableEq ι] in
theorem made_idle (r : Registry) : (idle r : Callers ι).Made := nofun

/-- A caller between its steps has the model that its operation makes, whatever the others do. -/
theorem Made.step (hx : x.Made) {a : Option Answered} (h : Step x a y) : y.Made := by
  cases h with
  | answered => exact hx
  | made i o m hidle henter =>
    intro j o' m' hj
    by_cases hji : j = i
    · obtain ⟨rfl, rfl⟩ : o = o' ∧ m = m' := by simpa [hji] using hj
      exact Operation.made_of_enter henter
    · exact hx j o' m' (by simpa [hji] using hj)
  | shared i o m hholding =>
    intro j o' m' hj
    by_cases hji : j = i
    · simp [hji] at hj
    · exact hx j o' m' (by simpa [hji] using hj)

theorem Made.trace (hx : x.Made) (h : Trace x as y) : y.Made := by
  induction h with
  | nil => exact hx
  | snoc _ hstep ih => exact ih.step hstep

/-! ## The order of last steps -/

/-- A step that answers does to the registry what the whole operation would do at this moment. -/
theorem run_of_step (hx : x.Made) {a : Option Answered} (h : Step x a y) :
    x.registry.run (a.toList.map (·.operation)) = (a.toList, y.registry) := by
  cases h with
  | answered i o answer hidle henter =>
    simp [run, Operation.apply_of_enter henter]
  | made => rfl
  | shared i o m hholding =>
    simp [run, Operation.apply_of_share (hx i o m hholding)]

/-- Callers get the answers that one caller gets who makes the operations one after the other, in
the order of their last steps. -/
theorem run_of_trace (hx : x.Made) (h : Trace x as y) :
    x.registry.run (as.map (·.operation)) = (as, y.registry) := by
  induction h with
  | nil => rfl
  | snoc hpast hstep ih =>
    rw [List.map_append, run_append, ih, run_of_step (hx.trace hpast) hstep]

end Callers

/-! ## Operations without a registration of a type -/

/-- An answer that tells of a new registered model of a type. -/
def Answered.Registers (T : EntityType) (a : Answered) : Prop :=
  ∃ options shared, a = ⟨.register T options, .ok shared⟩

variable {r : Registry} {T : EntityType} {shared : SharedModel}

/-- A model that a registry has for a type is the one that it still has after an operation, unless
that was a registration of the type. -/
theorem Outcome.lookup?_of_not_registers {o : Operation}
    {p : Except Error SharedModel × Registry} (ho : Outcome r o p)
    (hp : ¬ Answered.Registers T ⟨o, p.1⟩) (h : r.lookup? T = some shared) :
    p.2.lookup? T = some shared := by
  by_cases hT : T = o.entity
  · subst hT
    cases ho with
    | found | failed => exact h
    | made m hnone hmade => cases o with
      | get T => simp [hnone rfl] at h
      | register T options => exact absurd ⟨options, _, rfl⟩ hp
  · rw [ho.lookup?_of_ne hT, h]

/-- Operations that do not register a type leave the model that it has. -/
theorem lookup?_run {os : List Operation} {as : List Answered} {r' : Registry}
    (hrun : r.run os = (as, r')) (hquiet : ∀ a ∈ as, ¬ a.Registers T)
    (h : r.lookup? T = some shared) : r'.lookup? T = some shared := by
  induction os generalizing r as with
  | nil =>
    obtain ⟨rfl, rfl⟩ := Prod.mk.inj hrun
    exact h
  | cons o os ih =>
    obtain ⟨rfl, hrest⟩ := Prod.mk.inj (r.run_cons o os ▸ hrun)
    obtain ⟨hfirst, hquiet⟩ := List.forall_mem_cons.mp hquiet
    exact ih (Prod.ext rfl hrest) hquiet ((o.outcome r).lookup?_of_not_registers hfirst h)

/-- All that ask for a type are given the model that the registry has in the end. -/
theorem lookup?_run_of_get {os : List Operation} {as : List Answered} {r' : Registry}
    (hrun : r.run os = (as, r')) (hquiet : ∀ a ∈ as, ¬ a.Registers T)
    (h : ⟨.get T, .ok shared⟩ ∈ as) : r'.lookup? T = some shared := by
  induction os generalizing r as with
  | nil =>
    obtain ⟨rfl, rfl⟩ := Prod.mk.inj hrun
    exact nomatch h
  | cons o os ih =>
    obtain ⟨rfl, hrest⟩ := Prod.mk.inj (r.run_cons o os ▸ hrun)
    obtain ⟨-, hquiet⟩ := List.forall_mem_cons.mp hquiet
    obtain hfirst | hlater := List.mem_cons.mp h
    · obtain ⟨rfl, hok⟩ := Answered.mk.inj hfirst
      exact lookup?_run (Prod.ext rfl hrest) hquiet
        ((Operation.outcome r (.get T)).lookup?_self hok.symm)
    · exact ih (Prod.ext rfl hrest) hquiet hlater

namespace Callers

variable {ι : Type} [DecidableEq ι] {x y : Callers ι} {as past : List Answered}

/-- Racing callers never undo a registration. As long as no registration of a type is shared, all
that ask for it are given one model, the one that the registry has for it then; and a model that it
had stays. Any step leaves the model of the type, or is a registration that puts its own in place;
and who is given a model is given the one that is there by the last step. -/
theorem registrations_last (hx : Trace (idle r) past x) (hy : Trace x as y) (T : EntityType) :
    ((∀ a ∈ as, ¬ a.Registers T) →
      (∀ found, ⟨.get T, .ok found⟩ ∈ as → y.registry.lookup? T = some found) ∧
      ∀ present, x.registry.lookup? T = some present → y.registry.lookup? T = some present) ∧
    ∀ a z, Step y a z →
      (∀ found, a = some ⟨.get T, .ok found⟩ → z.registry.lookup? T = some found ∧
        ∀ present, y.registry.lookup? T = some present → found = present) ∧
      (∀ options new, a = some ⟨.register T options, .ok new⟩ →
        z.registry.lookup? T = some new) ∧
      ∀ present, y.registry.lookup? T = some present → z.registry.lookup? T ≠ some present →
        ∃ options new, a = some ⟨.register T options, .ok new⟩ := by
  have hmade : x.Made := (made_idle r).trace hx
  refine ⟨fun hquiet => ⟨fun found => lookup?_run_of_get (run_of_trace hmade hy) hquiet,
    fun present => lookup?_run (run_of_trace hmade hy) hquiet⟩, fun a z hstep => ?_⟩
  -- a step is a run of one operation, or of none if no operation has its last step there
  have hrun := run_of_step (hmade.trace hy) hstep
  have hstays : (∀ b ∈ a.toList, ¬ b.Registers T) → ∀ present,
      y.registry.lookup? T = some present → z.registry.lookup? T = some present :=
    fun hquiet present => lookup?_run hrun hquiet
  refine ⟨?_, ?_, fun present hpresent hchanged => ?_⟩
  · rintro found rfl
    have hquiet : ∀ b ∈ [(⟨.get T, .ok found⟩ : Answered)], ¬ b.Registers T := by
      simp [Answered.Registers]
    have hthere := lookup?_run_of_get hrun hquiet List.mem_cons_self
    refine ⟨hthere, fun present hpresent => ?_⟩
    exact Option.some.inj (hthere.symm.trans (hstays hquiet present hpresent))
  · rintro options new rfl
    obtain ⟨hanswer, hregistry⟩ := Prod.mk.inj hrun
    have hok := (Answered.mk.inj (List.cons.inj hanswer).1).2
    exact hregistry ▸ (Operation.outcome _ (.register T options)).lookup?_self hok
  · by_contra hnone
    refine hchanged (hstays ?_ present hpresent)
    rintro b hb ⟨options, new, rfl⟩
    exact hnone ⟨options, new, Option.mem_toList.mp hb⟩

/-- Who has made a default model while another caller registered the type is given the registered
model. -/
theorem late_get_gives_registration :
    ∃ (x y : Callers ℕ) (user : EntityType) (m : Model) (registered : SharedModel),
      x.holding 0 = some (.get user, m) ∧ m.tableName = "user" ∧
      x.registry.lookup? user = some registered ∧ registered.model.tableName = "people" ∧
      Trace x [⟨.get user, .ok registered⟩] y ∧ y.registry.lookup? user = some registered := by
  let user : EntityType := .integers "User" ["id"]
  let rename : Operation := .register user [.tableName "people"]
  obtain ⟨m, hm, hname⟩ : ∃ m, Model.ofEntity user = .ok m ∧ m.tableName = "user" :=
    ⟨_, rfl, by decide⟩
  obtain ⟨m', hm', hname'⟩ : ∃ m', rename.made = .ok m' ∧ m'.tableName = "people" :=
    ⟨_, rfl, rfl⟩
  have henter : (Operation.get user).enter empty = .inr m := by
    rw [Operation.enter, hm]
    rfl
  have henter' : rename.enter empty = .inr m' := by
    rw [Operation.enter, hm']
  obtain ⟨x, hx, hheld, hthere⟩ : ∃ x : Callers ℕ, Trace (idle empty) [⟨rename, .ok ⟨0, m'⟩⟩] x ∧
      x.holding 0 = some (.get user, m) ∧ x.registry.lookup? user = some ⟨0, m'⟩ := by
    -- the lookup makes the default model, and then the registration is made and shared
    have hfirst := (Trace.nil (idle empty : Callers ℕ)).snoc (.made _ 0 _ m rfl henter)
    have hsecond := hfirst.snoc (.made _ 1 rename m' rfl henter')
    exact ⟨_, hsecond.snoc (.shared _ 1 rename m' rfl), rfl, lookup?_replace ..⟩
  have hgiven : ((Operation.get user).share x.registry m).1 = ⟨0, m'⟩ := by
    rw [Operation.share, insertIfAbsent_of_lookup? hthere]
  have hy := (Trace.nil x).snoc (.shared _ 0 (.get user) m hheld)
  rw [hgiven] at hy
  exact ⟨x, _, user, m, _, hheld, hname, hthere, hname', hy,
    ((registrations_last hx hy user).1 (by simp [Answered.Registers])).1 _ List.mem_cons_self⟩

end Callers

end RowMapper.Registry
