import RowMapper.Proofs.Model.Growth

/-!
# One shared model per type

A run asks a registry for models and registers models, one operation after the other
(`Registry.run`). Whoever writes down what was handed out can tell the next answer from that alone:
`Registry.Owed` says which answers there can be after given ones. The registry itself is only a
memory of the model handed out last for each type (`Registry.Remembers`).

`Registry.shared_throughout` says this of every operation of every run, with what it does to the
registry: nothing if it fails, and never anything to other types or to models handed out before.
-/

namespace RowMapper.Registry

variable {r : Registry} {T : EntityType} {e : Error}

/-! ## Runs -/

/-- An operation on a registry. -/
inductive Operation
  | get (T : EntityType)
  | register (T : EntityType) (options : List ModelOption)

namespace Operation

/-- The type that an operation is about. -/
def entity : Operation → EntityType
  | get T | register T _ => T

/-- An operation that makes a model only for a type without one. -/
def reuses : Operation → Bool
  | get _ => true
  | register _ _ => false

/-- The model that an operation makes: the default model, with options if there are any. -/
def made : Operation → Except Error Model
  | get T => Model.ofEntity T
  | register T options => Model.ofEntity T >>= (ModelOption.applyAll · options)

/-- The answer to an operation, and the registry after it. -/
def apply (r : Registry) : Operation → Except Error SharedModel × Registry
  | get T => r.get T
  | register T options => r.register T options

end Operation

/-- An operation with its answer. -/
structure Answered where
  operation : Operation
  answer : Except Error SharedModel

/-- The answers to operations one after the other, and the registry after them. -/
def run (r : Registry) : List Operation → List Answered × Registry
  | [] => ([], r)
  | o :: os =>
    let (answer, r) := o.apply r
    let (answers, r) := r.run os
    (⟨o, answer⟩ :: answers, r)

theorem run_cons (r : Registry) (o : Operation) (os : List Operation) :
    r.run (o :: os) =
      (⟨o, (o.apply r).1⟩ :: ((o.apply r).2.run os).1, ((o.apply r).2.run os).2) :=
  rfl

/-- Operations may be run in two parts, the second one from the registry that the first one left. -/
theorem run_append (r : Registry) (os os' : List Operation) :
    r.run (os ++ os') = ((r.run os).1 ++ ((r.run os).2.run os').1, ((r.run os).2.run os').2) := by
  induction os generalizing r with
  | nil => rfl
  | cons o os ih => simp only [List.cons_append, run_cons, ih]

/-- The models handed out, each under the type that was asked for or registered. -/
def handed (past : List Answered) : List (EntityType × SharedModel) :=
  past.filterMap fun a => a.answer.toOption.map (a.operation.entity, ·)

/-- The model handed out last for a type. -/
def latest? (T : EntityType) (past : List Answered) : Option SharedModel :=
  (handed past).reverse.lookup T

section

variable {past : List Answered} {o : Operation} {shared : SharedModel}

/-- An answer that is a model adds to what was handed out. -/
@[simp]
theorem handed_concat_ok :
    handed (past ++ [⟨o, .ok shared⟩]) = handed past ++ [(o.entity, shared)] := by
  simp [handed, Except.toOption]

@[simp]
theorem handed_concat_error : handed (past ++ [⟨o, .error e⟩]) = handed past := by
  simp [handed, Except.toOption]

/-- A model that was just handed out is the latest one of its type, and of no other. -/
theorem latest?_concat_ok :
    latest? T (past ++ [⟨o, .ok shared⟩]) =
      if T = o.entity then some shared else latest? T past := by
  rw [latest?, handed_concat_ok, List.reverse_concat, List.lookup_cons]
  by_cases hT : T = o.entity
  · simp [hT]
  · simp [hT, beq_false_of_ne hT, latest?]

/-- A failure hands nothing out. -/
@[simp]
theorem latest?_concat_error : latest? T (past ++ [⟨o, .error e⟩]) = latest? T past := by
  rw [latest?, handed_concat_error, latest?]

/-- The latest model of a type was handed out. -/
theorem handed_of_latest? (h : latest? T past = some shared) : (T, shared) ∈ handed past := by
  obtain ⟨l, l', hl, -⟩ := List.lookup_eq_some_iff.mp h
  simpa using congrArg ((T, shared) ∈ ·) hl

end

/-! ## What one operation does -/

/-- What an operation does to a registry: it finds a model, or makes one and shares it, or makes
none. -/
inductive Outcome (r : Registry) (o : Operation) : Except Error SharedModel × Registry → Prop
  | found (shared : SharedModel) (hreuses : o.reuses = true)
      (hlookup : r.lookup? o.entity = some shared) : Outcome r o (.ok shared, r)
  | made (m : Model) (hnone : o.reuses = true → r.lookup? o.entity = none)
      (hmade : o.made = .ok m) :
      Outcome r o (.ok (r.replace o.entity m).1, (r.replace o.entity m).2)
  | failed (e : Error) (hnone : o.reuses = true → r.lookup? o.entity = none)
      (hmade : o.made = .error e) : Outcome r o (.error e, r)

/-- There is one outcome for each case of the two operations. -/
theorem Operation.outcome (r : Registry) (o : Operation) : Outcome r o (o.apply r) := by
  cases o with
  | get T =>
    rw [apply]
    cases h : r.lookup? T with
    | some shared => rw [get_of_lookup? h]; exact .found shared rfl h
    | none => cases hm : Model.ofEntity T with
      | ok m => rw [get_of_absent h hm]; exact .made m (fun _ => h) hm
      | error e => rw [get_of_error h hm]; exact .failed e (fun _ => h) hm
  | register T options =>
    rw [apply]
    cases hm : (Operation.register T options).made with
    | ok m => rw [register_of_ok hm]; exact .made m nofun hm
    | error e => rw [register_of_error hm]; exact .failed e nofun hm

/-- An answer that an operation can get after given answers. The model of a type is handed out again
to whoever asks for it. Any other model is new, with the content that the operation makes; if it
makes none, the answer is the reason. -/
inductive Owed (past : List Answered) (o : Operation) : Except Error SharedModel → Prop
  | again (shared : SharedModel) (hreuses : o.reuses = true)
      (hlatest : latest? o.entity past = some shared) : Owed past o (.ok shared)
  | new (shared : SharedModel) (hnone : o.reuses = true → latest? o.entity past = none)
      (hmade : o.made = .ok shared.model)
      (hnew : ∀ h ∈ handed past, h.2.serial ≠ shared.serial) : Owed past o (.ok shared)
  | failed (e : Error) (hnone : o.reuses = true → latest? o.entity past = none)
      (hmade : o.made = .error e) : Owed past o (.error e)

/-- A registry has the model handed out last for each type, and no serial number stands for two
models. -/
structure Remembers (r : Registry) (past : List Answered) : Prop where
  latest : ∀ T, r.lookup? T = latest? T past
  issued : ∀ h ∈ handed past, h.2.serial < r.issued
  unaltered : ∀ h ∈ handed past, ∀ h' ∈ handed past, h.2.serial = h'.2.serial → h = h'

theorem remembers_empty : empty.Remembers [] where
  latest _ := rfl
  issued := by simp [handed]
  unaltered := by simp [handed]

namespace Outcome

variable {past : List Answered} {o : Operation} {p : Except Error SharedModel × Registry}

/-- Whatever the outcome, a registry that remembers the past answers as it owes. -/
theorem owed (ho : Outcome r o p) (hr : r.Remembers past) : Owed past o p.1 := by
  cases ho with
  | found shared hreuses hlookup => exact .again shared hreuses (hr.latest _ ▸ hlookup)
  | made m hnone hmade =>
    exact .new _ (hr.latest _ ▸ hnone) hmade fun h hmem => Nat.ne_of_lt (hr.issued h hmem)
  | failed e hnone hmade => exact .failed e (hr.latest _ ▸ hnone) hmade

/-- An operation leaves the models of other types alone. -/
theorem lookup?_of_ne (ho : Outcome r o p) {U : EntityType} (hU : U ≠ o.entity) :
    p.2.lookup? U = r.lookup? U := by
  cases ho with
  | found | failed => rfl
  | made m => rw [lookup?_replace, if_neg hU]

/-- The model that an operation hands out is the model of its type from then on. -/
theorem lookup?_self (ho : Outcome r o p) {shared : SharedModel} (hok : p.1 = .ok shared) :
    p.2.lookup? o.entity = some shared := by
  cases ho with
  | found found hreuses hlookup => exact hlookup.trans (congrArg some (Except.ok.inj hok))
  | made m => rw [lookup?_replace, if_pos rfl, Except.ok.inj hok]
  | failed e => simp at hok

/-- An operation that fails leaves the registry as it was. -/
theorem eq_of_error (ho : Outcome r o p) (he : p.1 = .error e) : p.2 = r := by
  cases ho with
  | found | failed => rfl
  | made m => simp at he

/-- The step: after its answer, a registry remembers this answer, too. -/
theorem remembers (ho : Outcome r o p) (hr : r.Remembers past) :
    p.2.Remembers (past ++ [⟨o, p.1⟩]) := by
  cases ho with
  | found shared hreuses hlookup =>
    -- what is found was handed out before, so its serial number stands for nothing else
    have hhanded : (o.entity, shared) ∈ handed past :=
      handed_of_latest? (hr.latest _ ▸ hlookup)
    refine ⟨fun T => ?_, ?_, ?_⟩
    · rw [latest?_concat_ok, hr.latest]
      split
      · next hT => rw [hT, ← hr.latest, hlookup]
      · rfl
    all_goals simp only [handed_concat_ok, List.mem_append, List.mem_singleton]
    · rintro h (hmem | rfl)
      exacts [hr.issued h hmem, hr.issued _ hhanded]
    · rintro h (hmem | rfl) h' (hmem' | rfl)
      exacts [hr.unaltered h hmem h' hmem', hr.unaltered h hmem _ hhanded,
        hr.unaltered _ hhanded h' hmem', fun _ => rfl]
  | made m hnone hmade =>
    refine ⟨fun T => ?_, ?_, ?_⟩
    -- a new model has the next serial number, which is above all that were handed out
    · rw [latest?_concat_ok, lookup?_replace, hr.latest]
    all_goals simp only [handed_concat_ok, List.mem_append, List.mem_singleton]
    · rintro h (hmem | rfl)
      exacts [Nat.lt_succ_of_lt (hr.issued h hmem), Nat.lt_succ_self _]
    · rintro h (hmem | rfl) h' (hmem' | rfl) hserial
      · exact hr.unaltered h hmem h' hmem' hserial
      · exact absurd hserial (Nat.ne_of_lt (hr.issued h hmem))
      · exact absurd hserial.symm (Nat.ne_of_lt (hr.issued h' hmem'))
      · rfl
  | failed e =>
    refine ⟨fun T => ?_, ?_, ?_⟩
    · rw [latest?_concat_error, hr.latest]
    · simpa using hr.issued
    · simpa using hr.unaltered

end Outcome

/-! ## Why an operation fails -/

/-- A reason to make no model: the type is no record, a tag of it is wrong, or an option fails on
the model that the options before it made. -/
inductive Unmade : Operation → Error → Prop
  | shape {o : Operation} (hshape : o.entity.shape ≠ .record) :
      Unmade o (.notARecord o.entity.name)
  | tag {o : Operation} {e : Error} (f : FieldDecl) (hf : f ∈ o.entity.fields)
      (htag : Tag.pairs f.tag = .error e) : Unmade o e
  | option {T : EntityType} {e : Error} (before after : List ModelOption) (option : ModelOption)
      (m : Model) (hbefore : (Operation.register T before).made = .ok m)
      (hoption : option.apply m = .error e) :
      Unmade (.register T (before ++ option :: after)) e

/-- The column of a field is only missing if its tag cannot be read. -/
theorem tag_of_defaultColumn {f : FieldDecl} (h : Model.defaultColumn f = .error e) :
    Tag.pairs f.tag = .error e := by
  obtain htag | ⟨pairs, -, h⟩ := Results.bind_eq_error.mp h
  · exact htag
  · split at h <;> exact nomatch h

/-- So default fields fail with the tag of one of them. -/
theorem tag_of_defaultFields : ∀ {fs : List FieldDecl} {place : ℕ},
    Model.defaultFields place fs = .error e → ∃ f ∈ fs, Tag.pairs f.tag = .error e
  | [], place, h => nomatch h
  | f :: fs, place, h => by
    obtain hcolumn | ⟨column, -, h⟩ := Results.bind_eq_error.mp h
    · exact ⟨f, List.mem_cons_self, tag_of_defaultColumn hcolumn⟩
    · obtain hrest | ⟨rest, -, h⟩ := Results.bind_eq_error.mp h
      · obtain ⟨g, hg, htag⟩ := tag_of_defaultFields hrest
        exact ⟨g, List.mem_cons_of_mem _ hg, htag⟩
      · exact nomatch h

/-- Options fail with the first one that does, after those before it were applied. -/
theorem option_of_applyAll : ∀ {os : List ModelOption} {m : Model},
    ModelOption.applyAll m os = .error e → ∃ before option after m',
      os = before ++ option :: after ∧ ModelOption.applyAll m before = .ok m' ∧
        option.apply m' = .error e
  | [], m, h => nomatch h
  | o :: os, m, h => by
    obtain ho | ⟨m₁, ho, h⟩ := Results.bind_eq_error.mp h
    · exact ⟨[], o, os, m, rfl, rfl, ho⟩
    · obtain ⟨before, option, after, m', rfl, hbefore, hoption⟩ := option_of_applyAll h
      exact ⟨o :: before, option, after, m', rfl, Results.bind_eq_ok.mpr ⟨m₁, ho, hbefore⟩, hoption⟩

/-- A default model is not made of another type than a record, nor with a tag that cannot be
read. -/
theorem unmade_of_ofEntity {o : Operation} (h : Model.ofEntity o.entity = .error e) :
    Unmade o e := by
  rw [Model.ofEntity] at h
  split at h
  · next hshape =>
    obtain hfields | ⟨fields, -, h⟩ := Results.bind_eq_error.mp h
    · obtain ⟨f, hf, htag⟩ := tag_of_defaultFields hfields
      exact .tag f hf htag
    · exact nomatch h
  · next hshape => exact Except.error.inj h ▸ .shape hshape

/-- A model with options may fail for these reasons, or for that of an option. -/
theorem unmade_of_error {o : Operation} (h : o.made = .error e) : Unmade o e := by
  cases o with
  | get T => exact unmade_of_ofEntity h
  | register T options =>
    obtain hT | ⟨m, hT, h⟩ := Results.bind_eq_error.mp h
    · exact unmade_of_ofEntity hT
    · obtain ⟨before, option, after, m', rfl, hbefore, hoption⟩ := option_of_applyAll h
      exact .option before after option m' (Results.bind_eq_ok.mpr ⟨m, hT, hbefore⟩) hoption

/-! ## Whole runs -/

/-- The run, by induction on the operations: what is remembered grows by each answer. -/
theorem Remembers.run {past : List Answered} (hr : r.Remembers past) (os : List Operation) :
    (r.run os).2.Remembers (past ++ (r.run os).1) := by
  induction os generalizing r past with
  | nil => simpa [Registry.run] using hr
  | cons o os ih => simpa [run_cons] using ih ((o.outcome r).remembers hr)

/-- What holds of an operation with the outcome `p`, when the answers before it were `past` and left
the registry `r`. -/
structure Kept (past : List Answered) (r : Registry) (o : Operation)
    (p : Except Error SharedModel × Registry) : Prop where
  /-- The answer is one that the answers before it allow. -/
  owed : Owed past o p.1
  /-- A model that is handed out is what its type is asked for next gives. -/
  shared : ∀ shared, p.1 = .ok shared → p.2.get o.entity = (.ok shared, p.2)
  /-- A failure has its reason, leaves the registry as it was, and the previous model is given. -/
  failed : ∀ e, p.1 = .error e → Unmade o e ∧ p.2 = r ∧
    ∀ previous, latest? o.entity past = some previous → p.2.get o.entity = (.ok previous, p.2)
  /-- Other types are given the very models they had, and equal ones if they had none. -/
  elsewhere : ∀ U, U ≠ o.entity → p.2.lookup? U = r.lookup? U ∧
    (p.2.get U).1.map (·.model) = (r.get U).1.map (·.model)
  /-- What was handed out under one serial number is one model of one type throughout. -/
  unaltered : ∀ h ∈ handed (past ++ [⟨o, p.1⟩]), ∀ h' ∈ handed (past ++ [⟨o, p.1⟩]),
    h.2.serial = h'.2.serial → h = h'

/-- A registry that starts without models shares one model per type, whatever it is asked for. -/
theorem shared_throughout (os : List Operation) (o : Operation) :
    Kept (empty.run os).1 (empty.run os).2 o (o.apply (empty.run os).2) := by
  have hr : (empty.run os).2.Remembers (empty.run os).1 := remembers_empty.run os
  -- only what the registry remembers of the run matters from here on
  generalize (empty.run os).1 = past, (empty.run os).2 = r at hr ⊢
  have ho := o.outcome r
  generalize o.apply r = p at ho ⊢
  refine ⟨ho.owed hr, fun shared hok => get_of_lookup? (ho.lookup?_self hok), fun e he => ?_,
    fun U hU => ?_, (ho.remembers hr).unaltered⟩
  · have hunmade : o.made = .error e := by
      cases ho with
      | found | made => simp at he
      | failed e' hnone hmade => exact hmade.trans (congrArg _ (Except.error.inj he))
    refine ⟨unmade_of_error hunmade, ho.eq_of_error he, fun previous hprevious => ?_⟩
    rw [ho.eq_of_error he]
    exact get_of_lookup? ((hr.latest _).trans hprevious)
  · have hlookup := ho.lookup?_of_ne hU
    refine ⟨hlookup, ?_⟩
    rw [get_eq_model, get_eq_model, model, model, hlookup]

end RowMapper.Registry
