import RowMapper.Proofs.Compile.Agreement
import RowMapper.Proofs.Sql.Leaves
import RowMapper.Session.Setup

/-!
# Runs and binding strategies

Sessions may bind by name or by place, and no run shows which. `Run.Indifferent` says it of a run:
with the sessions of a state binding by other strategies it has the same result, and leaves the same
state but for these strategies, the log of what was sent included. There is one lemma for each way
to make a run.

Where a run looks at a strategy it binds a row at once, or reads a record, with the model it took,
and `Binding.setColumns_eq` and `Binding.field_eq` say that this gives the same. So the models have
to be made from declarations: `Backend.Registered` is the invariant of the registries, and a
middleware may not pass another model on (`Middleware.Indifferent`).
-/

namespace RowMapper

variable {α β : Type} {T : EntityType}

namespace Backend

/-- The state with sessions binding by other strategies. -/
def bindingBy (b : Backend) (strategies : String → Strategy) : Backend :=
  { b with settings := fun name => { b.settings name with strategy := strategies name } }

/-- The registries hold models that were made from declarations. -/
def Registered (b : Backend) : Prop := ∀ name, (b.registries name).Sound

namespace Registered

variable {b : Backend} (hb : b.Registered)
include hb

/-- The registry of a session may be changed for one that holds such models, too. -/
theorem setRegistry {r : Registry} (hr : r.Sound) (session : String) :
    (b.setRegistry session r).Registered := by
  intro name
  unfold Backend.setRegistry
  dsimp only
  split
  · exact hr
  · exact hb name

/-- To take in a model is to make it from its declaration. -/
theorem takeIn (e : String × EntityType) : (b.takeIn e).Registered := hb.setRegistry (hb _).get e.1

theorem cancelFor (name? : Option String) : (b.cancelFor name?).Registered := by
  cases name? <;> exact hb

end Registered

/-- What an answer cancels does not depend on strategies. -/
theorem cancelFor_bindingBy (b : Backend) (name? : Option String) (strategies : String → Strategy) :
    (b.bindingBy strategies).cancelFor name? = (b.cancelFor name?).bindingBy strategies := by
  cases name? <;> rfl

/-- The models of a list of entity types can be taken in whatever the strategies are. -/
theorem takeAll_bindingBy (strategies : String → Strategy) : ∀ (es : List (String × EntityType))
    (b : Backend), es.foldl takeIn (b.bindingBy strategies) =
      (es.foldl takeIn b).bindingBy strategies
  | [], _ => rfl
  | e :: es, b => takeAll_bindingBy strategies es (b.takeIn e)

/-- So it is with the models of a whole list. -/
theorem Registered.takeAll : ∀ (es : List (String × EntityType)) {b : Backend}, b.Registered →
    (es.foldl Backend.takeIn b).Registered
  | [], _, hb => hb
  | e :: es, _, hb => takeAll es (hb.takeIn e)

end Backend

/-! ## Runs -/

/-- A run with the same result, and the same effects, whatever strategies the sessions bind by. -/
structure Run.Indifferent (x : Run α) : Prop where
  registered : ∀ b : Backend, b.Registered → (x b).2.Registered
  run_eq : ∀ (b : Backend) (strategies : String → Strategy), b.Registered →
    x (b.bindingBy strategies) = ((x b).1, (x b).2.bindingBy strategies)

/-- A run whose value has a property, if it has one. -/
def Run.Yields (x : Run α) (Q : α → Prop) : Prop :=
  ∀ b : Backend, b.Registered → ∀ a, (x b).1 = .ok a → Q a

namespace Run.Indifferent

/-- A run after one whose value has a property only has to be indifferent for such values. -/
theorem bindYields {x : Run α} {f : α → Run β} {Q : α → Prop} (hx : Indifferent x)
    (hQ : x.Yields Q) (hf : ∀ a, Q a → Indifferent (f a)) : Indifferent (x >>= f) where
  registered b hb := by
    have hregistered := hx.registered b hb
    have hvalue := hQ b hb
    rw [bind_apply]
    rcases hxb : x b with ⟨e | a, b'⟩
    · rwa [hxb] at hregistered
    · rw [hxb] at hregistered hvalue
      exact (hf a (hvalue a rfl)).registered b' hregistered
  run_eq b strategies hb := by
    have hregistered := hx.registered b hb
    have hvalue := hQ b hb
    rw [bind_apply, bind_apply, hx.run_eq b strategies hb]
    rcases hxb : x b with ⟨e | a, b'⟩
    · rfl
    · rw [hxb] at hregistered hvalue
      exact (hf a (hvalue a rfl)).run_eq b' strategies hregistered

/-- One run after another, if the second one is indifferent for all values. -/
protected theorem bind {x : Run α} {f : α → Run β} (hx : Indifferent x)
    (hf : ∀ a, Indifferent (f a)) : Indifferent (x >>= f) :=
  hx.bindYields (Q := fun _ => True) (fun _ _ _ _ => trivial) fun a _ => hf a

theorem ofExcept (r : Except Error α) : Indifferent (ofExcept r) :=
  ⟨fun _ hb => hb, fun _ _ _ => rfl⟩

protected theorem pure (a : α) : Indifferent (pure a : Run α) := ofExcept (.ok a)

theorem fail (e : Error) : Indifferent (fail e : Run α) := ofExcept (.error e)

/-- What is looked at may not be a strategy. -/
theorem look {f : Backend → α}
    (hf : ∀ (b : Backend) strategies, f (b.bindingBy strategies) = f b) : Indifferent (look f) :=
  ⟨fun _ hb => hb, fun b strategies _ => by rw [Run.look, Run.look, hf]⟩

/-- A change to the state has to keep the registries sound and the strategies as they are. -/
theorem modify {f : Backend → Backend}
    (hregistered : ∀ b : Backend, b.Registered → (f b).Registered)
    (hf : ∀ (b : Backend) strategies, f (b.bindingBy strategies) = (f b).bindingBy strategies) :
    Indifferent (modify f) :=
  ⟨hregistered, fun b strategies _ => by rw [Run.modify, Run.modify, hf]⟩

theorem note (e : Event) : Indifferent (note e) := modify (fun _ hb => hb) fun _ _ => rfl

/-- The result of a run, also of one that fails. -/
theorem attempt {x : Run α} (hx : Indifferent x) : Indifferent x.attempt where
  registered := hx.registered
  run_eq b strategies hb := by rw [Run.attempt, hx.run_eq b strategies hb]; rfl

/-- Whether a token is cancelled does not depend on strategies. -/
theorem unlessCancelled (token : CancelToken) {x : Run α} (hx : Indifferent x) :
    Indifferent (unlessCancelled token x) where
  registered b hb := by
    rw [Run.unlessCancelled]
    split
    · exact hb
    · exact hx.registered b hb
  run_eq b strategies hb := by
    have hcancelled : (b.bindingBy strategies).isCancelled token = b.isCancelled token := rfl
    rw [Run.unlessCancelled, Run.unlessCancelled, hcancelled]
    split
    · rfl
    · exact hx.run_eq b strategies hb

/-- What is built may not depend on a strategy. -/
theorem build {compile : Cores → Compiled Query} (hcompile : ∀ b : Backend, b.Registered →
    ∀ strategies, compile (b.bindingBy strategies).cores = compile b.cores) :
    Indifferent (build compile) where
  registered b hb := hb.takeAll _
  run_eq b strategies hb := by
    rw [Run.build, hcompile b hb strategies, Backend.takeAll_bindingBy]
    rfl

end Run.Indifferent

namespace Run.Yields

/-- Nothing is said of the value. -/
theorem any {x : Run α} : x.Yields fun _ => True := fun _ _ _ _ => trivial

protected theorem pure {a : α} {Q : α → Prop} (ha : Q a) : (pure a : Run α).Yields Q :=
  fun _ _ _ h => Except.ok.inj h ▸ ha

/-- The value of two runs has what the second one gives it, if the first one's value is such that it
does. -/
protected theorem bind {x : Run α} {f : α → Run β} {Q : α → Prop} {R : β → Prop}
    (hx : x.Indifferent) (hQ : x.Yields Q) (hf : ∀ a, Q a → (f a).Yields R) :
    (x >>= f).Yields R := by
  intro b hb c hc
  have hregistered := hx.registered b hb
  have hvalue := hQ b hb
  rw [bind_apply] at hc
  rcases hxb : x b with ⟨e | a, b'⟩
  · simp [hxb] at hc
  · rw [hxb] at hregistered hvalue hc
    exact hf a (hvalue a rfl) b' hregistered c hc

end Run.Yields

/-! ## Handlers and middlewares -/

/-- A context whose statement compiles alike whatever the strategies are, and whose model was made
from an entity type. -/
structure Context.Indifferent (T : EntityType) (c : Context) : Prop where
  compile : ∀ b : Backend, b.Registered → ∀ strategies,
    c.compile (b.bindingBy strategies).cores = c.compile b.cores
  model : c.model.MadeFrom T

/-- To build the statement of such a context. -/
theorem Context.Indifferent.build {c : Context} (hc : c.Indifferent T) : c.build.Indifferent :=
  .build hc.compile

/-- A handler that is indifferent in every context with a model of an entity type. -/
def Handler.Indifferent (T : EntityType) (h : Handler) : Prop :=
  ∀ c : Context, c.Indifferent T → (h c).Indifferent

namespace Middleware

/-- A middleware that does not look at strategies by itself, and that passes on contexts with a
model of the entity type only. -/
def Indifferent (T : EntityType) (m : Middleware) : Prop :=
  ∀ next : Handler, next.Indifferent T → Handler.Indifferent T (m next)

/-- A middleware that passes each statement to a log is as indifferent as the log. -/
theorem indifferent_queryLog {log : Query → Run Unit} (hlog : ∀ q, (log q).Indifferent) :
    (queryLog log).Indifferent T :=
  fun _ hnext c hc => .bind hc.build fun q => .bind (hlog q) fun _ => hnext c hc

theorem indifferent_noted : noted.Indifferent T := indifferent_queryLog fun _ => .note _

theorem indifferent_unnoted : unnoted.Indifferent T := indifferent_queryLog fun _ => .pure ()

/-- What is noted is the name and the kind of the statement, not how rows are bound. -/
theorem indifferent_record (name : String) : (record name).Indifferent T := fun _ hnext c hc =>
  .bind (.look fun _ _ => rfl) fun _ => .bind (.note _) fun _ =>
    .bind (.attempt (hnext c hc)) fun _ => .bind (.note _) fun _ => .ofExcept _

/-- The statement that it builds beforehand is the same, so what it notes is. -/
theorem indifferent_prebuild : prebuild.Indifferent T := fun _ hnext c hc =>
  .bind (.attempt hc.build) fun _ => .bind (.note _) fun _ => hnext c hc

theorem indifferent_refuse (e : Error) : (refuse e).Indifferent T := fun _ _ _ _ => .fail e

theorem indifferent_answer (output : Except Error Output) : (answer output).Indifferent T :=
  fun _ _ _ _ => .ofExcept output

theorem indifferent_cancelling : cancelling.Indifferent T := fun _ hnext c hc =>
  .bind (.modify (fun _ hb => hb) fun _ _ => rfl) fun _ => hnext c hc

/-- It calls the next handler in the context that it was given, both times. -/
theorem indifferent_twice : twice.Indifferent T := fun _ hnext c hc =>
  .bind (.attempt (hnext c hc)) fun _ => hnext c hc

theorem indifferent_recover (output : Except Error Output) : (recover output).Indifferent T :=
  fun _ hnext c hc => .bind (.attempt (hnext c hc)) fun
    | .ok o => .pure o
    | .error _ => .ofExcept output

/-- Another statement may be passed on with the model. -/
theorem indifferent_swap (q : Query) : (swap q).Indifferent T :=
  fun _ hnext _ hc => hnext _ ⟨fun _ _ _ => rfl, hc.model⟩

/-- A chain of such middlewares is as indifferent as the innermost handler. -/
theorem indifferent_chain {ms : List Middleware} (hms : ∀ m ∈ ms, m.Indifferent T)
    {terminal : Handler} (hterminal : terminal.Indifferent T) :
    Handler.Indifferent T (chain ms terminal) := by
  induction ms with
  | nil => exact hterminal
  | cons m ms ih => exact hms m (.head _) _ (ih fun m hm => hms m (.tail _ hm))

end Middleware

/-! ## Sessions -/

namespace Session

/-- What a session passes on, and what it is answered, does not depend on strategies. -/
theorem indifferent_deliver (p : Purpose) (r : Request) : ∀ s sender : Session,
    (s.deliver p sender r).Indifferent
  | .database name, sender =>
    { registered := fun b hb => by
        have hnoted : ((b.setScript name (p.reply (b.scripts name) r.sent.sql).2).note
          (.sent sender r (p.reply (b.scripts name) r.sent.sql).1.accepted)).Registered := hb
        exact hnoted.cancelFor _
      run_eq := fun b strategies _ => by
        simp only [deliver, Backend.ask]
        rw [← Backend.cancelFor_bindingBy]
        rfl }
  -- the check that the transaction is open looks at its flag only, and the message that is kept
  -- holds the answer, which is the same
  | .transaction id inner, sender => by
    have hinner := indifferent_deliver p r inner sender
    refine .bind ⟨fun b hb => ?_, fun b strategies _ => ?_⟩ fun _ => ⟨fun b hb => ?_, ?_⟩
    · rw [Transaction.ensureActive]
      split <;> exact hb
    · have hfinished : Transaction.isFinished ⟨id, inner⟩ (b.bindingBy strategies) =
          Transaction.isFinished ⟨id, inner⟩ b := rfl
      rw [Transaction.ensureActive, Transaction.ensureActive, hfinished]
      split <;> rfl
    · exact hinner.registered b hb
    · intro b strategies hb
      rw [Transaction.sending, hinner.run_eq b strategies hb]
      rfl

variable (s : Session)

theorem indifferent_read (row : Reply (List Value)) : (s.read row).Indifferent where
  registered b hb := by
    have hnoted : (b.note (.read s)).Registered := hb
    exact hnoted.cancelFor row.cancels
  run_eq b strategies _ := by
    simp only [read, Backend.read]
    rw [← Backend.cancelFor_bindingBy]
    rfl

theorem indifferent_readEnd : s.readEnd.Indifferent := .note _

variable {c : Context} (hT : T.WellFormed) (hc : c.Indifferent T)
include hc

/-- A statement that is run for its outcome binds no rows. -/
theorem indifferent_execute : (s.execute c).Indifferent :=
  .bind hc.build fun _ => .unlessCancelled _ (indifferent_deliver _ _ s s)

/-- The rows that a statement gives are not bound yet. -/
theorem indifferent_fetch : (s.fetch c).Indifferent :=
  .bind hc.build fun _ => .unlessCancelled _ (indifferent_deliver _ _ s s)

include hT

/-- A row is bound as it would be by name, whatever strategy the session has. -/
theorem strategy_bindRow (columns : List String) (values : List Value)
    (f : Except Error T.Record → Run α) :
    (s.strategy >>= fun strategy => f (Binding.bindRow strategy c.model T columns values)) =
      f (Binding.bindRow .byName c.model T columns values) := by
  funext b
  have hrow := Binding.bindRow_eq hT hc.model.describes (b.settings s.base).strategy .byName
    columns values
  exact congrArg (f · b) hrow

/-- Rows are bound one by one, each as soon as it is read, and by name or by place with the same
result. -/
theorem indifferent_bindAll (columns : List String) : ∀ rows : List (Reply (List Value)),
    (s.bindAll c T columns rows).Indifferent
  | [] => .bind (.unlessCancelled _ s.indifferent_readEnd) fun _ => .pure _
  | row :: rows => by
    refine .bind (.unlessCancelled _ (s.indifferent_read row)) fun values => ?_
    -- the strategy is looked up here; both give the same row, so the lookup can be left out
    rw [s.strategy_bindRow hT hc columns values fun bound => do
      let r ← Run.ofExcept bound
      let rs ← s.bindAll c T columns rows
      return r :: rs]
    exact .bind (.ofExcept _) fun _ => .bind (indifferent_bindAll columns rows) fun _ => .pure _

theorem indifferent_fetchAll : (s.fetchAll T c).Indifferent :=
  .bind (s.indifferent_fetch hc) fun cursor =>
    s.indifferent_bindAll hT hc cursor.columns cursor.rows

/-- The first row is bound as any other. -/
theorem indifferent_fetchOne : (s.fetchOne T c).Indifferent := by
  refine .bind (s.indifferent_fetch hc) fun cursor => ?_
  cases cursor.rows with
  | nil => exact .bind (.unlessCancelled _ s.indifferent_readEnd) fun _ => .fail _
  | cons row rows =>
    refine .bind (.unlessCancelled _ (s.indifferent_read row)) fun values => ?_
    rw [s.strategy_bindRow hT hc cursor.columns values Run.ofExcept]
    exact .ofExcept _

end Session

/-! ## Statements -/

namespace Job

variable {ms : Middlewares} {j : Job}

/-- The statement of a job compiles alike: what it reads from a record, it reads alike. -/
theorem compile_bindingBy (hj : j.entity.WellFormed) {b : Backend} (hb : b.Registered)
    (strategies : String → Strategy) :
    j.compile (b.bindingBy strategies).cores = j.compile b.cores := by
  let cores : Cores := fun name => b.cores (j.directory.base name)
  have hsound : (cores j.statement.session).registry.Sound := hb _
  exact congrArg (Compiled.onSessions j.directory.base)
    (Statement.compile_bindingBy hj hsound fun name => strategies (j.directory.base name))

theorem indifferent_takeModel : j.takeModel.Indifferent :=
  ⟨fun _ hb => hb.setRegistry (hb _).get _, fun _ _ _ => rfl⟩

/-- The model that a job takes was made from the declaration of its entity type, also if it was
taken in earlier. -/
theorem takeModel_yields : j.takeModel.Yields (Model.MadeFrom · j.entity) := by
  intro b hb m hm
  -- a model is shared by all that take it, so what was taken is what the registry holds
  obtain ⟨shared, hshared, rfl⟩ : ∃ shared,
      ((b.registry j.session.base).get j.entity).1 = .ok shared ∧ shared.model = m := by
    cases hget : ((b.registry j.session.base).get j.entity).1 with
    | error e => simp [takeModel, hget, Except.map] at hm
    | ok shared => exact ⟨shared, rfl, by simpa [takeModel, hget, Except.map] using hm⟩
  exact Registry.Sound.get_model (hb _) hshared

theorem indifferent_takeToken : j.takeToken.Indifferent := by
  refine ⟨fun b hb => ?_, fun b strategies _ => ?_⟩ <;>
    unfold takeToken <;> cases j.cancel <;> first | exact hb | rfl

theorem indifferent_context : j.context.Indifferent :=
  .bind indifferent_takeModel fun _ => .bind indifferent_takeToken fun _ => .pure _

/-- The context of a job is one in which handlers may be indifferent. -/
theorem context_yields (hj : j.entity.WellFormed) : j.context.Yields (·.Indifferent j.entity) :=
  .bind indifferent_takeModel takeModel_yields fun _ hm =>
    .bind indifferent_takeToken .any fun _ _ =>
      .pure ⟨fun _ hb strategies => compile_bindingBy hj hb strategies, hm⟩

variable (hj : j.entity.WellFormed) (hms : ∀ m ∈ ms j.session.base, m.Indifferent j.entity)
include hj hms

/-- A handler that is indifferent stays so inside the middlewares, in the context of a job. -/
theorem indifferent_through {terminal : Handler} (hterminal : terminal.Indifferent j.entity) :
    (j.through ms terminal).Indifferent :=
  indifferent_context.bindYields (context_yields hj) fun c hc =>
    Middleware.indifferent_chain hms hterminal c hc

/-- A whole job, run for its outcome. -/
theorem indifferent_exec : (j.exec ms).Indifferent :=
  .bind (indifferent_through hj hms fun _ hc =>
    .bind (j.session.indifferent_execute hc) fun _ => .pure _) fun _ => .ofExcept _

theorem indifferent_get : (j.get ms).Indifferent :=
  .bind (indifferent_through hj hms fun _ hc =>
    .bind (j.session.indifferent_fetchOne hj hc) fun _ => .pure _) fun _ => .ofExcept _

/-- A whole job, run for all its rows. -/
theorem indifferent_getAll : (j.getAll ms).Indifferent :=
  .bind (indifferent_through hj hms fun _ hc =>
    .bind (j.session.indifferent_fetchAll hj hc) fun _ => .pure _) fun _ => .ofExcept _

end Job

/-! ## Sessions that are set up -/

/-- Registrations leave a registry with models that were made from declarations, whatever their
options. -/
theorem Registry.Sound.registerAll {r : Registry} (hr : r.Sound) : ∀ {registrations : Registrations}
    {r' : Registry}, r.registerAll registrations = .ok r' → r'.Sound
  | [], r', h => Except.ok.inj h ▸ hr
  | (T, options) :: rest, r', h => by
    have hregistered := hr.register (T := T) options
    rw [Registry.registerAll] at h
    split at h
    · next m r₁ hr₁ =>
      rw [hr₁] at hregistered
      exact hregistered.registerAll h
    · simp at h

/-- Sessions are set up one by one, each with its own registrations. -/
theorem Backend.registered_setUpAll : ∀ {setups : List (String × Configuration)} {b b' : Backend},
    b.Registered → b.setUpAll setups = .ok b' → b'.Registered
  | [], b, b', hb, h => Except.ok.inj h ▸ hb
  | (name, c) :: rest, b, b', hb, h => by
    obtain ⟨b₁, hb₁, h⟩ := Results.bind_eq_ok.mp h
    obtain ⟨r, hr, hb₁⟩ := Results.bind_eq_ok.mp hb₁
    obtain rfl := Except.ok.inj hb₁
    refine registered_setUpAll (Registered.setRegistry ?_ ((hb _).registerAll hr) name) h
    exact hb

/-- Sessions that are set up have models made from declarations only. -/
theorem Setup.registered {s : Setup} {b : Backend} (h : s.backend = .ok b) : b.Registered :=
  Backend.registered_setUpAll (fun _ => Registry.sound_empty) h

/-- The strategies cannot be told apart. With a model that is made from a well formed declaration
they bind every row to the same record, with the same result, and read the same from a record. A
statement about such an entity, on any sessions, with middlewares that neither look at strategies
nor pass on the model of another entity, is built and run with the same result whatever the
strategies are, and leaves the same state, in which the log has what was sent. -/
theorem Strategy.indistinguishable (T : EntityType) (hT : T.WellFormed) :
    (∀ m : Model, m.MadeFrom T → ∀ r : T.Record,
      (∀ columns values, Binding.setColumns .byName m r columns values =
        Binding.setColumns .byPlace m r columns values) ∧
      ∀ name, Binding.field .byName m r name = Binding.field .byPlace m r name) ∧
    ∀ (j : Job) (ms : Middlewares) (b : Backend) (strategies : String → Strategy), j.entity = T →
      (∀ m ∈ ms j.session.base, m.Indifferent T) → b.Registered →
        j.build (b.bindingBy strategies) = ((j.build b).1, (j.build b).2.bindingBy strategies) ∧
        j.exec ms (b.bindingBy strategies) =
          ((j.exec ms b).1, (j.exec ms b).2.bindingBy strategies) ∧
        j.get ms (b.bindingBy strategies) =
          ((j.get ms b).1, (j.get ms b).2.bindingBy strategies) ∧
        j.getAll ms (b.bindingBy strategies) =
          ((j.getAll ms b).1, (j.getAll ms b).2.bindingBy strategies) := by
  constructor
  · intro m hm r
    exact ⟨Binding.setColumns_eq hT hm.describes _ _ r,
      Binding.field_eq hT hm.describes _ _ r⟩
  · rintro j ms b strategies rfl hms hb
    have hbuild : j.build.Indifferent :=
      .build fun _ hb strategies => Job.compile_bindingBy hT hb strategies
    exact ⟨hbuild.run_eq b strategies hb, (Job.indifferent_exec hT hms).run_eq b strategies hb,
      (Job.indifferent_get hT hms).run_eq b strategies hb,
      (Job.indifferent_getAll hT hms).run_eq b strategies hb⟩

/-- The transfers of one account. -/
def accountTransfers : Job :=
  { statement := .select (.mk "db" transfer [] none
      [.compare .eq (.column (.own "accountId")) (.value (.integer 7))] [] [] [] 0 0)
    directory := []
    cancel := none }

/-- A database with one transfer, whose columns come in another order than the declared one. -/
def ledger : Backend :=
  Backend.blank.setScript "db" (Script.empty.pushCursor
    (.plain (.ok ⟨["amount", "account_id"], [.plain (.ok [.integer 30, .integer 7])]⟩)))

/-- A transfer that a session reads by place is the one that it reads by name. -/
theorem Strategy.indistinguishable_transfers :
    ∃ b : Backend, accountTransfers.getAll (fun _ => [.noted, .recover (.error .noRows)])
        (ledger.bindingBy fun _ => .byPlace) =
      (.ok [((⟨7, by decide, by decide⟩, ⟨30, by decide, by decide⟩, ()) :
          BoundedInt .int64 × BoundedInt .int64 × Unit)], b.bindingBy fun _ => .byPlace) := by
  have hms : ∀ m ∈ [Middleware.noted, .recover (.error .noRows)], m.Indifferent transfer := by
    simp only [List.forall_mem_cons]
    exact ⟨Middleware.indifferent_noted, Middleware.indifferent_recover _, List.forall_mem_nil _⟩
  obtain ⟨-, -, -, h⟩ := (indistinguishable transfer ⟨by decide, by decide⟩).2 accountTransfers
    (fun _ => [.noted, .recover (.error .noRows)]) ledger (fun _ => .byPlace) rfl hms
    fun _ => Registry.sound_empty
  exact ⟨_, h.trans rfl⟩

end RowMapper
