import RowMapper.Proofs.Binding.Selected
import RowMapper.Proofs.Session.Logging
import RowMapper.Proofs.Session.Strategies

/-!
# Runs among other tasks

A run takes its steps one by one, and other tasks, which share the registries, take steps in
between. `Process` is what is left of a run, as the next move and what follows from its result.
Without other tasks a process is the run itself (`Job.Way.run_process`).

A run takes the model of its entity first, and binds rows with that model. Its statement is compiled
later, with the model that is registered by then. `Process.Step` lets other tasks register models at
any point, so the two models may differ; `Job.Way.bound_as_compiled` says that this takes a
registration of the type in between, and what follows for the rows if there was none.
-/

namespace RowMapper

variable {α β : Type}

/-! ## Processes -/

/-- A move of a run: it takes the model of its entity into a context, compiles its statement, or
binds a row. Whatever else it does is a run of its own. -/
inductive Move : Type 1 where
  | take (j : Job)
  | compile (c : Context)
  | bind (strategy : Strategy) (m : Model) (T : EntityType) (columns : List String)
      (values : List Value)
  | own {β : Type} (x : Run β)

namespace Move

/-- What a move gives. -/
def Answer : Move → Type
  | take _ => Context
  | compile _ => Query
  | bind _ _ T _ _ => T.Record
  | own (β := β) _ => β

/-- Makes a move. -/
def make : (k : Move) → Run k.Answer
  | take j => j.context
  | compile c => c.build
  | bind strategy m T columns values => Run.ofExcept (Binding.bindRow strategy m T columns values)
  | own x => x

end Move

/-- What is left of a run: its result, or a move and what follows, also if the move fails. -/
inductive Process (α : Type) : Type 1 where
  | finish (r : Except Error α)
  | step (k : Move) (rest : Except Error k.Answer → Process α)

namespace Process

/-- A process and what follows its result. -/
def after : Process α → (Except Error α → Process β) → Process β
  | finish r, f => f r
  | step k rest, f => step k fun r => (rest r).after f

instance : Monad Process where
  pure a := finish (.ok a)
  bind p f := p.after fun
    | .ok a => f a
    | .error e => finish (.error e)

/-- The process of a single move. -/
def single (k : Move) : Process k.Answer := step k finish

/-- The process that takes the model of a job into a context. -/
def take (j : Job) : Process Context := single (.take j)

def compile (c : Context) : Process Query := single (.compile c)

/-- The process of a run that other tasks do not interrupt. -/
def own (x : Run α) : Process α := single (.own x)

def bindRow (strategy : Strategy) (m : Model) (T : EntityType) (columns : List String)
    (values : List Value) : Process T.Record :=
  single (.bind strategy m T columns values)

/-- Makes all moves of a process in a row. -/
def run : Process α → Run α
  | finish r => Run.ofExcept r
  | step k rest => fun b => (rest (k.make b).1).run (k.make b).2

/-- What follows a process starts from the result and the state that the process ends with. -/
theorem run_after (f : Except Error α → Process β) : ∀ (p : Process α) (b : Backend),
    (p.after f).run b = (f (p.run b).1).run (p.run b).2
  | finish _, _ => rfl
  | step k rest, b => run_after f (rest (k.make b).1) (k.make b).2

/-- Moves of two processes in a row are the moves of the first and then of the second, if it did not
fail. -/
theorem run_bind (p : Process α) (f : α → Process β) :
    (p >>= f).run = p.run >>= fun a => (f a).run := by
  funext b
  refine (run_after _ p b).trans ?_
  rw [Run.bind_apply]
  rcases p.run b with ⟨e | a, b'⟩ <;> rfl

end Process

namespace Session

open Process

/-- Reads rows to the end and binds each to a record, move by move. -/
def bindAllProcess (s : Session) (c : Context) (T : EntityType) (columns : List String) :
    List (Reply (List Value)) → Process (List T.Record)
  | [] => do
    own (Run.unlessCancelled c.token s.readEnd)
    return []
  | row :: rows => do
    let values ← own (Run.unlessCancelled c.token (s.read row))
    let strategy ← own s.strategy
    let r ← bindRow strategy c.model T columns values
    let rs ← s.bindAllProcess c T columns rows
    return r :: rs

/-- Compiles the statement of a context and sends it, for its rows. -/
def fetchProcess (s : Session) (c : Context) : Process Cursor := do
  let q ← compile c
  own (Run.unlessCancelled c.token (s.query q))

/-- Runs the statement of a context and binds all rows, move by move. -/
def fetchAllProcess (s : Session) (T : EntityType) (c : Context) : Process (List T.Record) := do
  let cursor ← s.fetchProcess c
  s.bindAllProcess c T cursor.columns cursor.rows

/-- Runs the statement of a context and binds the first row, move by move. -/
def fetchOneProcess (s : Session) (T : EntityType) (c : Context) : Process T.Record := do
  let cursor ← s.fetchProcess c
  match cursor.rows with
  | [] =>
    own (Run.unlessCancelled c.token s.readEnd)
    own (Run.fail .noRows)
  | row :: _ =>
    let values ← own (Run.unlessCancelled c.token (s.read row))
    let strategy ← own s.strategy
    bindRow strategy c.model T cursor.columns values

/-- Runs the statement of a context for its outcome, move by move. -/
def executeProcess (s : Session) (c : Context) : Process ExecResult := do
  let q ← compile c
  own (Run.unlessCancelled c.token (s.exec q))

end Session

/-- A program as a process, inside of which is another. -/
def Program.process (next : Process Output) : Program → Process Output
  | finish r => .finish r
  | own x rest => .step (.own x) fun r => (rest r).process next
  | call rest => next.after fun r => (rest r).process next

/-- The middleware that a program is. -/
def Program.middleware (p : Context → Program) : Middleware := fun next c => (p c).run (next c)

namespace Job.Way

/-- The innermost handler, move by move. -/
def terminalProcess (j : Job) (c : Context) : Way → Process Output
  | outcome => do return .exec (← j.session.executeProcess c)
  | first => do return .one j.entity (← j.session.fetchOneProcess j.entity c)
  | all => do return .many j.entity (← j.session.fetchAllProcess j.entity c)

/-- Handlers inside of each other, move by move. -/
def nestProcess (w : Way) (j : Job) (c : Context) : List (Context → Program) → Process Output
  | [] => w.terminalProcess j c
  | p :: ps => (p c).process (w.nestProcess j c ps)

/-- A run of a job through middlewares, move by move. -/
def process (w : Way) (j : Job) (ps : List (Context → Program)) : Process Output := do
  let c ← Process.take j
  w.nestProcess j c ps

end Job.Way

/-! ## A process is its run -/

namespace Session

variable (s : Session) (c : Context) (T : EntityType)

/-- Reading and binding rows move by move is reading and binding them. -/
theorem run_bindAllProcess (columns : List String) : ∀ rows : List (Reply (List Value)),
    (s.bindAllProcess c T columns rows).run = s.bindAll c T columns rows
  | [] => by
    rw [bindAllProcess, bindAll, Process.run_bind]
    rfl
  | row :: rows => by
    rw [bindAllProcess, bindAll, ← run_bindAllProcess columns rows]
    simp only [Process.run_bind]
    rfl

theorem run_fetchProcess : (s.fetchProcess c).run = s.fetch c := by
  rw [fetchProcess, Process.run_bind]
  rfl

theorem run_fetchAllProcess : (s.fetchAllProcess T c).run = s.fetchAll T c := by
  simp only [fetchAllProcess, fetchAll, Process.run_bind, run_fetchProcess, run_bindAllProcess]

/-- Binding the first row move by move is binding it. -/
theorem run_fetchOneProcess : (s.fetchOneProcess T c).run = s.fetchOne T c := by
  rw [fetchOneProcess, fetchOne, Process.run_bind, run_fetchProcess]
  refine congrArg (s.fetch c >>= ·) (funext fun cursor => ?_)
  cases cursor.rows with
  | nil => exact Process.run_bind _ _
  | cons row rows =>
    simp only [Process.run_bind]
    rfl

theorem run_executeProcess : (s.executeProcess c).run = s.execute c := by
  rw [executeProcess, Process.run_bind]
  rfl

end Session

/-- A program is run move by move as it is run at once: its parts are runs of their own, and the
calls inside are the process that it is put around. -/
theorem Program.run_process {next : Process Output} : ∀ p : Program,
    (p.process next).run = p.run next.run
  | finish _ => rfl
  | own x rest => funext fun b => congrFun (run_process (rest (x b).1)) (x b).2
  | call rest => by
    funext b
    rw [process, Process.run_after, run_process]
    rfl

namespace Job.Way

variable (w : Way) (j : Job)

/-- The innermost handler move by move is the handler. -/
theorem run_terminalProcess (c : Context) : (w.terminalProcess j c).run = w.terminal j c := by
  cases w with
  | outcome =>
    rw [terminalProcess, Process.run_bind, Session.run_executeProcess]
    rfl
  | first =>
    rw [terminalProcess, Process.run_bind, Session.run_fetchOneProcess]
    rfl
  | all =>
    rw [terminalProcess, Process.run_bind, Session.run_fetchAllProcess]
    rfl

/-- Handlers inside of each other move by move are the chain of the middlewares. -/
theorem run_nestProcess (c : Context) : ∀ ps : List (Context → Program),
    (w.nestProcess j c ps).run = Middleware.chain (ps.map Program.middleware) (w.terminal j) c
  | [] => run_terminalProcess w j c
  | p :: ps => by
    rw [nestProcess, Program.run_process, run_nestProcess c ps]
    rfl

/-- Without other tasks, a process is a run through the middlewares that its programs are. -/
theorem run_process (ps : List (Context → Program)) :
    (w.process j ps).run = j.through (fun _ => ps.map Program.middleware) (w.terminal j) := by
  rw [process, Process.run_bind]
  exact congrArg (j.context >>= ·) (funext fun c => run_nestProcess w j c ps)

end Job.Way

/-! ## Other tasks -/

/-- A move of a run, with the state in which it was made, or a registration by another task. -/
inductive Happening : Type 1 where
  | made (k : Move) (before : Backend)
  | registered (registry : String) (T : EntityType)

namespace Process

/-- A step of a run or of another task. Other tasks register models, and do anything that leaves
the registries as they are, up to default models that these take in. -/
inductive Step : Process α × Backend → Option Happening → Process α × Backend → Prop
  | move (k : Move) (rest : Except Error k.Answer → Process α) (b : Backend) :
      Step (.step k rest, b) (some (.made k b)) (rest (k.make b).1, (k.make b).2)
  | register (p : Process α) (b : Backend) (session : String) (T : EntityType)
      (options : List ModelOption) (shared : SharedModel)
      (hok : ((b.registry session).register T options).1 = .ok shared) :
      Step (p, b) (some (.registered (b.settings session).registry T))
        (p, b.setRegistry session ((b.registry session).register T options).2)
  | elsewhere (p : Process α) (b b' : Backend) (hgrows : b.Grows b') : Step (p, b) none (p, b')

/-- Any number of steps, with what happened in them. -/
inductive Trace : Process α × Backend → List Happening → Process α × Backend → Prop
  | nil (x : Process α × Backend) : Trace x [] x
  | snoc {x y z : Process α × Backend} {hs : List Happening} {h : Option Happening}
      (hpast : Trace x hs y) (hstep : Step y h z) : Trace x (hs ++ h.toList) z

/-- A trace that goes on where another ends. -/
theorem Trace.trans {x y z : Process α × Backend} {hs hs' : List Happening} (h : Trace x hs y)
    (h' : Trace y hs' z) : Trace x (hs ++ hs') z := by
  induction h' with
  | nil => rwa [List.append_nil]
  | snoc _ hstep ih =>
    rw [← List.append_assoc]
    exact ih.snoc hstep

/-- To run without other tasks is one way to interleave. -/
theorem trace_run : ∀ (p : Process α) (b : Backend),
    ∃ hs, Trace (p, b) hs (finish (p.run b).1, (p.run b).2)
  | finish r, b => ⟨[], .nil _⟩
  | step k rest, b => by
    obtain ⟨hs, hrest⟩ := trace_run (rest (k.make b).1) (k.make b).2
    exact ⟨_, ((Trace.nil _).snoc (.move k rest b)).trans hrest⟩

end Process

/-! ## The order of moves -/

namespace Process

/-- What is left of a run of a job. The model is taken once, into the context that statements are
compiled in; rows are bound with that model, and only after a compilation that was not followed by
another. The other moves only let registries grow. `taken?` is the context, if the model is taken by
now, and `compiled` says whether the last compilation succeeded. -/
def Obeys (j : Job) : Process α → Option Context → Bool → Prop
  | finish _, _, _ => True
  | step (.take j') rest, taken?, _ => j' = j ∧ taken? = none ∧
    (∀ e, (rest (.error e)).Obeys j none false) ∧
    ∀ c, c.compile = j.compile → (rest (.ok c)).Obeys j (some c) false
  | step (.compile c) rest, taken?, _ => taken? = some c ∧
    (∀ e, (rest (.error e)).Obeys j taken? false) ∧ ∀ q, (rest (.ok q)).Obeys j taken? true
  | step (.bind _ m T _ _) rest, taken?, compiled => compiled = true ∧ T = j.entity ∧
    (∃ c, taken? = some c ∧ c.model = m) ∧ ∀ r, (rest r).Obeys j taken? compiled
  | step (.own x) rest, taken?, compiled => (∀ b : Backend, b.Grows (x b).2) ∧
    ∀ r, (rest r).Obeys j taken? compiled

variable {j : Job} {c : Context} {compiled : Bool}

/-- A process whose model is taken keeps the order if what follows keeps it from wherever the
process leaves off. -/
theorem obeys_after {f : Except Error α → Process β}
    (hf : ∀ r compiled, (f r).Obeys j (some c) compiled) : ∀ {p : Process α}
      {compiled : Bool}, p.Obeys j (some c) compiled →
      (p.after f).Obeys j (some c) compiled
  | finish r, _, _ => hf r _
  | step (.take _) _, _, h => nomatch h.2.1
  | step (.compile _) _, _, h =>
    ⟨h.1, fun e => obeys_after hf (h.2.1 e), fun q => obeys_after hf (h.2.2 q)⟩
  | step (.bind ..) _, _, h => ⟨h.1, h.2.1, h.2.2.1, fun r => obeys_after hf (h.2.2.2 r)⟩
  | step (.own _) _, _, h => ⟨h.1, fun r => obeys_after hf (h.2 r)⟩

/-- Only what follows a success matters: after a failure there are no moves. -/
theorem obeys_bind {p : Process α} {f : α → Process β}
    (hf : ∀ a compiled, (f a).Obeys j (some c) compiled) (hp : p.Obeys j (some c) compiled) :
    (p >>= f).Obeys j (some c) compiled := by
  refine obeys_after (fun r compiled => ?_) hp
  cases r with
  | ok a => exact hf a compiled
  | error e => trivial

/-- A run of its own may come at any point, as long as it only lets registries grow. -/
theorem obeys_own {x : Run α} {f : α → Process β} (hx : ∀ b : Backend, b.Grows (x b).2)
    (hf : ∀ a, (f a).Obeys j (some c) compiled) : (own x >>= f).Obeys j (some c) compiled := by
  refine ⟨hx, fun r => ?_⟩
  cases r with
  | ok a => exact hf a
  | error e => trivial

/-- Rows are bound with the model of the context, after a compilation. -/
theorem obeys_bindRow {strategy : Strategy} {columns : List String} {values : List Value}
    {f : j.entity.Record → Process β} (hf : ∀ a, (f a).Obeys j (some c) true) :
    (bindRow strategy c.model j.entity columns values >>= f).Obeys j (some c) true := by
  refine ⟨rfl, rfl, ⟨c, rfl, rfl⟩, fun r => ?_⟩
  cases r with
  | ok a => exact hf a
  | error e => trivial

/-- A compilation makes the way free for rows. -/
theorem obeys_compile {f : Query → Process β} (hf : ∀ q, (f q).Obeys j (some c) true) :
    (compile c >>= f).Obeys j (some c) compiled := ⟨rfl, fun _ => trivial, hf⟩

end Process

/-- Asking a session lets registries grow at most. -/
theorem Question.grows_ask (t : CancelToken) (s : Session) (k : Question) (b : Backend) :
    b.Grows (Run.unlessCancelled t (k.ask s) b).2 :=
  (Run.Related.unlessCancelled t (k.related_ask b s) b b (.refl (.refl b))).2.left

namespace Session

open Process

variable (s : Session) {j : Job} {c : Context}

/-- Reading and binding rows keeps the order once the statement is compiled, however many rows there
are. -/
theorem obeys_bindAllProcess (columns : List String) : ∀ rows : List (Reply (List Value)),
    (s.bindAllProcess c j.entity columns rows).Obeys j (some c) true
  | [] => obeys_own (Question.grows_ask c.token s .noMore) fun _ => trivial
  | row :: rows => obeys_own (Question.grows_ask c.token s (.row row)) fun _ =>
    obeys_own (fun b => .refl b) fun _ => obeys_bindRow fun _ =>
      obeys_bind (fun _ _ => trivial) (obeys_bindAllProcess columns rows)

/-- A fetch compiles the statement before it gives anything. -/
theorem obeys_fetch {f : Cursor → Process α} (hf : ∀ cursor, (f cursor).Obeys j (some c) true)
    (compiled : Bool) : (s.fetchProcess c >>= f).Obeys j (some c) compiled := by
  refine ⟨rfl, fun _ => trivial, fun q => ⟨Question.grows_ask c.token s (.statement .rows q), ?_⟩⟩
  rintro (e | cursor)
  · trivial
  · exact hf cursor

theorem obeys_fetchAllProcess (compiled : Bool) :
    (s.fetchAllProcess j.entity c).Obeys j (some c) compiled :=
  s.obeys_fetch (fun cursor => s.obeys_bindAllProcess cursor.columns cursor.rows) compiled

/-- Fetching one record compiles the statement before the row is bound, whatever was compiled
before. -/
theorem obeys_fetchOneProcess (compiled : Bool) :
    (s.fetchOneProcess j.entity c).Obeys j (some c) compiled := by
  refine s.obeys_fetch (fun cursor => ?_) compiled
  cases cursor.rows with
  | nil =>
    exact obeys_own (Question.grows_ask c.token s .noMore) fun _ =>
      ⟨fun b => .refl b, fun _ => trivial⟩
  | cons row rows =>
    exact obeys_own (Question.grows_ask c.token s (.row row)) fun _ =>
      obeys_own (fun b => .refl b) fun _ => ⟨rfl, rfl, ⟨c, rfl, rfl⟩, fun _ => trivial⟩

theorem obeys_executeProcess (compiled : Bool) :
    (s.executeProcess c).Obeys j (some c) compiled :=
  obeys_compile fun q =>
    ⟨Question.grows_ask c.token s (.statement .outcome q), fun _ => trivial⟩

end Session

/-- A program that asks nothing of the registries itself keeps the order if what it is put around
does, however often it calls it. -/
theorem Program.obeys_process {j : Job} {c : Context} {next : Process Output}
    (hnext : ∀ compiled, next.Obeys j (some c) compiled) : ∀ {p : Program}, p.Discreet →
      ∀ compiled, (p.process next).Obeys j (some c) compiled
  | finish _, _, _ => trivial
  | own _ _, ⟨hx, hrest⟩, compiled =>
    ⟨fun b => (hx.aside b).grows, fun r => obeys_process hnext (hrest r) compiled⟩
  | call _, hrest, compiled =>
    Process.obeys_after (fun r compiled => obeys_process hnext (hrest r) compiled) (hnext compiled)

namespace Job.Way

variable {w : Way} {j : Job}

theorem obeys_terminalProcess {c : Context} (compiled : Bool) :
    (w.terminalProcess j c).Obeys j (some c) compiled := by
  cases w with
  | outcome => exact Process.obeys_bind (fun _ _ => trivial) (j.session.obeys_executeProcess _)
  | first => exact Process.obeys_bind (fun _ _ => trivial) (j.session.obeys_fetchOneProcess _)
  | all => exact Process.obeys_bind (fun _ _ => trivial) (j.session.obeys_fetchAllProcess _)

/-- Discreet programs inside of each other keep the order of the innermost handler. -/
theorem obeys_nestProcess {c : Context} (hc : c.Steady) : ∀ {ps : List (Context → Program)},
    (∀ p ∈ ps, ∀ c, c.Steady → (p c).Discreet) →
      ∀ compiled, (w.nestProcess j c ps).Obeys j (some c) compiled
  | [], _, compiled => obeys_terminalProcess compiled
  | p :: ps, hps, compiled => by
    obtain ⟨hp, hps⟩ := List.forall_mem_cons.mp hps
    exact Program.obeys_process (obeys_nestProcess hc hps) (hp c hc) compiled

/-- A run of a job moves in order, if its middlewares are discreet. -/
theorem obeys_process {ps : List (Context → Program)}
    (hps : ∀ p ∈ ps, ∀ c, c.Steady → (p c).Discreet) : (w.process j ps).Obeys j none false :=
  ⟨rfl, rfl, fun _ => trivial, fun _ hc => obeys_nestProcess (j.steady_context hc) hps false⟩

end Job.Way

/-! ## The models of a history -/

namespace Happening

/-- A registration of a type in a registry. -/
def Registers (registry : String) (T : EntityType) (h : Happening) : Prop :=
  h = .registered registry T

/-- A compilation of a statement. -/
def Compiles (h : Happening) : Prop := ∃ c b, h = .made (.compile c) b

end Happening

namespace Backend

/-- The models that registries give are made from declarations. -/
def Declared (b : Backend) : Prop :=
  ∀ name T m, (b.registries name).model T = .ok m → m.MadeFrom T

/-- What registrations and defaults put into registries is made from declarations. -/
theorem Registered.declared {b : Backend} (hb : b.Registered) : b.Declared :=
  fun name _ _ h => (hb name).model h

/-- A registry that grows gives the models that it gave before. -/
theorem Declared.grows {b b' : Backend} (hb : b.Declared) (h : b.Grows b') : b'.Declared :=
  fun name T m hm => hb name T m ((h.registries name).model T ▸ hm)

end Backend

/-- A registration that succeeds gives a model that is made from the declaration, and has it in the
place of that of its type. -/
theorem Registry.model_register {r : Registry} {T : EntityType} {options : List ModelOption}
    {shared : SharedModel} (h : (r.register T options).1 = .ok shared) :
    shared.model.MadeFrom T ∧ ∀ U,
      ((r.register T options).2).model U = if U = T then .ok shared.model else r.model U := by
  cases hm : Model.ofEntity T >>= (ModelOption.applyAll · options) with
  | error e =>
    rw [register_of_error hm] at h
    exact nomatch h
  | ok m =>
    rw [register_of_ok hm] at h ⊢
    obtain rfl := Except.ok.inj h
    refine ⟨⟨options, hm⟩, fun U => ?_⟩
    rw [Registry.model, lookup?_replace, Registry.model]
    by_cases hU : U = T <;> simp [hU]

/-- A registration puts its model in the place of that of its type, in one registry. -/
theorem Backend.model_register {b : Backend} {session : String} {T : EntityType}
    {options : List ModelOption} {shared : SharedModel}
    (hok : ((b.registry session).register T options).1 = .ok shared) (name : String)
    (U : EntityType) :
    ((b.setRegistry session ((b.registry session).register T options).2).registries name).model U =
      if name = (b.settings session).registry ∧ U = T then .ok shared.model
      else (b.registries name).model U := by
  by_cases hname : name = (b.settings session).registry
  · subst hname
    simpa [Backend.setRegistry, Backend.registry] using (Registry.model_register hok).2 U
  · simp [Backend.setRegistry, hname]

/-- A registration makes its model from a declaration too. -/
theorem Backend.Declared.register {b : Backend} (hb : b.Declared) {session : String}
    {T : EntityType} {options : List ModelOption} {shared : SharedModel}
    (hok : ((b.registry session).register T options).1 = .ok shared) :
    (b.setRegistry session ((b.registry session).register T options).2).Declared := by
  intro name U m hm
  rw [model_register hok] at hm
  split at hm
  · next h =>
    obtain ⟨-, rfl⟩ := h
    rw [← Except.ok.inj hm]
    exact (Registry.model_register hok).1
  · exact hb name U m hm

namespace Job

variable {j : Job} {registry : String} {hs between before : List Happening} {h : Happening}
  {b b' b₁ : Backend} {c : Context}

/-- A history in which a job has taken its model, with what happened since then. The model is the
registered one unless there was a registration of its type. -/
structure Taken (j : Job) (registry : String) (hs : List Happening) (b : Backend) (c : Context)
    (between : List Happening) : Prop where
  history : ∃ earlier b₀, hs = earlier ++ .made (.take j) b₀ :: between ∧ (j.context b₀).1 = .ok c
  compile : c.compile = j.compile
  declared : c.model.MadeFrom j.entity
  current : (∀ h ∈ between, ¬ h.Registers registry j.entity) →
    (b.registries registry).model j.entity = .ok c.model

/-- What happened since a job has taken its model, with the state in which its statement was last
compiled, successfully, and what happened before that. -/
structure LastCompiled (j : Job) (registry : String) (between : List Happening) (c : Context)
    (before : List Happening) (b₁ : Backend) : Prop where
  history : ∃ since, between = before ++ .made (.compile c) b₁ :: since ∧
    ∀ h ∈ since, ¬ h.Compiles
  succeeded : ∃ q, (c.build b₁).1 = .ok q
  current : (∀ h ∈ before, ¬ h.Registers registry j.entity) →
    (b₁.registry j.session.base).model j.entity = .ok c.model

/-- A job that takes its model starts a history. -/
theorem Taken.start (hb : b.Declared) (hregistry : (b.settings j.session.base).registry = registry)
    (hcontext : (j.context b).1 = .ok c) :
    j.Taken registry (hs ++ [.made (.take j) b]) (j.context b).2 c [] := by
  obtain ⟨hcompile, hmodel⟩ := context_eq_ok (Prod.ext hcontext rfl)
  have hgrows : b.Grows (j.context b).2 := (j.aside_context b : b.Aside [] _).grows
  refine ⟨⟨hs, b, rfl, hcontext⟩, hcompile, hb _ _ _ hmodel, ?_⟩
  intro _
  rw [(hgrows.registries registry).model, ← hmodel, ← hregistry]
  rfl

/-- What is noted of the taking goes on with the history, since only a registration of the type
changes its model. -/
theorem Taken.snoc (ht : j.Taken registry hs b c between)
    (hmodel : ¬ h.Registers registry j.entity →
      (b'.registries registry).model j.entity = (b.registries registry).model j.entity) :
    j.Taken registry (hs ++ [h]) b' c (between ++ [h]) where
  history := by
    obtain ⟨earlier, b₀, rfl, hc⟩ := ht.history
    exact ⟨earlier, b₀, by simp, hc⟩
  compile := ht.compile
  declared := ht.declared
  current hquiet := by
    obtain ⟨hbetween, hh⟩ := List.forall_mem_append.mp hquiet
    rw [hmodel (hh h (.head _))]
    exact ht.current hbetween

/-- A registry that grows gives the model that it gave before, so that nothing has to be noted. -/
theorem Taken.grows (ht : j.Taken registry hs b c between) (hgrows : b.Grows b') :
    j.Taken registry hs b' c between :=
  { ht with
    current := fun hquiet => by
      rw [(hgrows.registries registry).model]
      exact ht.current hquiet }

/-- A job that compiles its statement has compiled it last. -/
theorem Taken.compiled (ht : j.Taken registry hs b c between)
    (hregistry : (b.settings j.session.base).registry = registry) {q : Query}
    (hq : (c.build b).1 = .ok q) :
    j.LastCompiled registry (between ++ [.made (.compile c) b]) c between b where
  history := ⟨[], rfl, List.forall_mem_nil _⟩
  succeeded := ⟨q, hq⟩
  current hquiet := by
    rw [← ht.current hquiet, ← hregistry]
    rfl

/-- A compilation is the last one until there is another. -/
theorem LastCompiled.snoc (hl : j.LastCompiled registry between c before b₁) (hh : ¬ h.Compiles) :
    j.LastCompiled registry (between ++ [h]) c before b₁ :=
  { hl with
    history := by
      obtain ⟨since, rfl, hsince⟩ := hl.history
      refine ⟨since ++ [h], by simp, List.forall_mem_append.mpr ⟨hsince, ?_⟩⟩
      exact List.forall_mem_singleton.mpr hh }

/-- What a history says of a job that has come to a point in the order of its moves. -/
def Recorded (j : Job) (registry : String) (hs : List Happening) (b : Backend) :
    Option Context → Bool → Prop
  | none, _ => True
  | some c, compiled => ∃ between, j.Taken registry hs b c between ∧
    (compiled = true → ∃ before b₁, j.LastCompiled registry between c before b₁)

/-- What is noted of a job goes on with anything that happens, other than a compilation. -/
theorem Recorded.snoc {taken? : Option Context} {compiled : Bool}
    (hr : j.Recorded registry hs b taken? compiled) (hh : ¬ h.Compiles)
    (hmodel : ¬ h.Registers registry j.entity →
      (b'.registries registry).model j.entity = (b.registries registry).model j.entity) :
    j.Recorded registry (hs ++ [h]) b' taken? compiled := by
  cases taken? with
  | none => trivial
  | some c =>
    obtain ⟨between, ht, hlast⟩ := hr
    refine ⟨_, ht.snoc hmodel, fun hcompiled => ?_⟩
    obtain ⟨before, b₁, hl⟩ := hlast hcompiled
    exact ⟨before, b₁, hl.snoc hh⟩

/-- A job and other tasks have come to a process and a state, through what is in a history. -/
structure InOrder (j : Job) (start : Backend) (hs : List Happening) (x : Process α × Backend) :
    Prop where
  settings : x.2.settings = start.settings
  declared : x.2.Declared
  recorded : ∃ taken? compiled, x.1.Obeys j taken? compiled ∧
    j.Recorded (start.settings j.session.base).registry hs x.2 taken? compiled

/-- Every step keeps the order. -/
theorem InOrder.step {start : Backend} {x y : Process α × Backend} {h : Option Happening}
    (hx : j.InOrder start hs x) (hstep : Process.Step x h y) :
    j.InOrder start (hs ++ h.toList) y := by
  obtain ⟨hsettings, hdeclared, taken?, compiled, hobeys, hrecorded⟩ := hx
  cases hstep with
  | elsewhere p b b' hgrows =>
    refine ⟨hgrows.settings.trans hsettings, hdeclared.grows hgrows, taken?, compiled, hobeys, ?_⟩
    rw [Option.toList_none, List.append_nil]
    cases taken? with
    | none => trivial
    | some c =>
      -- nothing is added to the history, so the last compilation stays where it is
      obtain ⟨between, ht, hlast⟩ := hrecorded
      exact ⟨between, ht.grows hgrows, hlast⟩
  | register p b session T options shared hok =>
    refine ⟨hsettings, hdeclared.register hok, taken?, compiled, hobeys, hrecorded.snoc nofun ?_⟩
    intro hother
    rw [Backend.model_register hok, if_neg]
    rintro ⟨hregistry, hT⟩
    exact hother (congrArg₂ _ hregistry.symm hT.symm)
  | move k rest b =>
    have hregistry : (b.settings j.session.base).registry =
        (start.settings j.session.base).registry := by rw [hsettings]
    cases k with
    | take j' =>
      obtain ⟨rfl, rfl, herror, hok⟩ := hobeys
      have hgrows : b.Grows (j'.context b).2 := (j'.aside_context b : b.Aside [] _).grows
      refine ⟨hgrows.settings.trans hsettings, hdeclared.grows hgrows, ?_⟩
      show ∃ taken? compiled, (rest (j'.context b).1).Obeys j' taken? compiled ∧ _
      cases hc : (j'.context b).1 with
      | error e => exact ⟨none, false, herror e, trivial⟩
      | ok c =>
        have htaken : j'.Taken _ (hs ++ _) _ c [] := .start hdeclared hregistry hc
        exact ⟨some c, false, hok c htaken.compile, [], htaken, nofun⟩
    | compile c =>
      -- what was compiled before does not count any more, also if this fails
      obtain ⟨rfl, herror, hok⟩ := hobeys
      have hgrows : b.Grows (c.build b).2 := .takeAll _ b
      refine ⟨hgrows.settings.trans hsettings, hdeclared.grows hgrows, ?_⟩
      obtain ⟨between, ht, -⟩ := hrecorded
      have htaken := ht.snoc (h := .made (.compile c) b) fun _ => (hgrows.registries _).model _
      show ∃ taken? compiled, (rest (c.build b).1).Obeys j taken? compiled ∧ _
      cases hq : (c.build b).1 with
      | error e => exact ⟨some c, false, herror e, _, htaken, nofun⟩
      | ok q =>
        exact ⟨some c, true, hok q, _, htaken, fun _ => ⟨_, b, ht.compiled hregistry hq⟩⟩
    | bind strategy m T columns values =>
      obtain ⟨-, -, -, hrest⟩ := hobeys
      refine ⟨hsettings, hdeclared, taken?, compiled, hrest _, hrecorded.snoc ?_ fun _ => rfl⟩
      simp [Happening.Compiles]
    | own x =>
      obtain ⟨hx, hrest⟩ := hobeys
      refine ⟨(hx b).settings.trans hsettings, hdeclared.grows (hx b), taken?, compiled, hrest _,
        hrecorded.snoc ?_ fun _ => ((hx b).registries _).model _⟩
      simp [Happening.Compiles]

/-- The order is kept by any number of steps. -/
theorem InOrder.trace {start : Backend} {x y : Process α × Backend} {hs' : List Happening}
    (hx : j.InOrder start hs x) (htrace : Process.Trace x hs' y) :
    j.InOrder start (hs ++ hs') y := by
  induction htrace with
  | nil => rwa [List.append_nil]
  | snoc _ hstep ih =>
    rw [← List.append_assoc]
    exact ih.step hstep

namespace Way

/-- Rows are bound with the model that their statement is compiled with, unless the type is
registered between the two. Take a run of a job among other tasks, at any point at which it is about
to bind a row. It has taken its model, and compiled its statement after that; the model that the row
is bound with is the one that was taken. If no registration of the type lies between the taking and
the last compilation, it is the model that was registered at the compilation. Then a row does not
fail with an unknown field if the statement is a plain select, its entity has fields that are all
reached by name, and the columns of the row are columns that the statement gives in the state in
which it was compiled. Registrations before and after these two moves, between one row and the next
among them, make no difference. -/
theorem bound_as_compiled (w : Way) (j : Job) {start : Backend} (hstart : start.Registered)
    {ps : List (Context → Program)} (hps : ∀ p ∈ ps, ∀ c, c.Steady → (p c).Discreet)
    {hs : List Happening} {b : Backend} {strategy : Strategy} {m : Model} {T : EntityType}
    {columns : List String} {values : List Value}
    {rest : Except Error T.Record → Process Output}
    (htrace : Process.Trace (w.process j ps, start) hs
      (.step (.bind strategy m T columns values) rest, b)) :
    T = j.entity ∧ ∃ earlier b₀ c before b₁ since,
      hs = earlier ++ .made (.take j) b₀ :: (before ++ .made (.compile c) b₁ :: since) ∧
      (∀ h ∈ since, ¬ h.Compiles) ∧ (j.context b₀).1 = .ok c ∧ c.model = m ∧
      (∃ q, (j.build b₁).1 = .ok q) ∧
      ((∀ h ∈ before, ¬ h.Registers (start.settings j.session.base).registry j.entity) →
        (b₁.registry j.session.base).model j.entity = .ok m ∧
        ∀ s, j.statement = .select s → s.Plain → s.entity.WellFormed → m.FindsColumns →
          (∀ column ∈ columns, s.Outputs (fun name => b₁.cores (j.directory.base name)) column) →
          Results.Known (Binding.bindRow strategy m T columns values)) := by
  have hinitial : j.InOrder start [] (w.process j ps, start) :=
    ⟨rfl, hstart.declared, none, false, obeys_process hps, trivial⟩
  obtain ⟨-, -, taken?, compiled, hobeys, hrecorded⟩ := hinitial.trace htrace
  obtain ⟨rfl, rfl, ⟨c, rfl, rfl⟩, -⟩ := hobeys
  obtain ⟨between, htaken, hlast⟩ := hrecorded
  obtain ⟨before, b₁, hcompiled⟩ := hlast rfl
  obtain ⟨earlier, b₀, hhistory, hcontext⟩ := htaken.history
  obtain ⟨since, rfl, hsince⟩ := hcompiled.history
  obtain ⟨q, hq⟩ := hcompiled.succeeded
  rw [Context.build, htaken.compile] at hq
  refine ⟨rfl, earlier, b₀, c, before, b₁, since, hhistory, hsince, hcontext, rfl, ⟨q, hq⟩, ?_⟩
  intro hquiet
  have hcurrent := hcompiled.current hquiet
  refine ⟨hcurrent, fun s hs hplain hT hfinds hcolumns => ?_⟩
  obtain ⟨_, directory, cancel⟩ := j
  obtain rfl := hs
  exact hplain.known_bindRow hcurrent hT htaken.declared hfinds strategy hcolumns values

/-- The owner of the first account. -/
def firstOwner : Job :=
  { statement := .select ((Select.all "db" account).withProjection [.column (.own "owner")])
    directory := []
    cancel := none }

/-- The same under another name. -/
def firstHolder : Job :=
  { firstOwner with
    statement := .select
      ((Select.all "db" account).withProjection [.column (.mk .own "owner" (some "holder"))]) }

/-- A database that gives one row, with one column. -/
def answering (column : String) : Backend :=
  plain.setScript "db" (Script.empty.pushCursor
    (.plain (.ok ⟨[column], [.plain (.ok [.integer 7])]⟩)))

/-- The same, where two columns of accounts are swapped. -/
def swapped (column : String) : Backend :=
  (answering column).setRegistry "db" (((answering column).registry "db").register account
    [.columnName "owner" "balance", .columnName "balance" "owner"]).2

/-- A registration after the compilation does no harm to the row that is bound then. -/
theorem bound_as_compiled_firstOwner : ∃ hs b m values rest,
    Process.Trace (first.process firstOwner [], answering "owner") hs
      (.step (.bind .byName m account ["owner"] values) rest, b) ∧
    .registered "db" account ∈ hs ∧
    Results.Known (Binding.bindRow .byName m account ["owner"] values) := by
  obtain ⟨m, hm, b, c, b₁, rest, x, b₂, y, b₃, z, b₄, htrace⟩ : ∃ m,
      Model.ofEntity account = .ok m ∧ ∃ b c b₁ rest, ∃ (x : Run Cursor) (b₂ : Backend)
        (y : Run (List Value)) (b₃ : Backend) (z : Run Strategy) (b₄ : Backend),
      Process.Trace (first.process firstOwner [], answering "owner")
        [.made (.take firstOwner) (answering "owner"), .made (.compile c) b₁, .made (.own x) b₂,
          .registered "db" account, .made (.own y) b₃, .made (.own z) b₄]
        (.step (.bind .byName m account ["owner"] [.integer 7]) rest, b) := by
    have hcompile := ((Process.Trace.nil (first.process firstOwner [], answering "owner")).snoc
      (.move (.take firstOwner) _ _)).snoc (.move (.compile _) _ _)
    have hregister := (hcompile.snoc (.move (.own _) _ _)).snoc
      (.register _ _ "db" account [.columnName "owner" "holder"] _ rfl)
    have htrace := (hregister.snoc (.move (.own _) _ _)).snoc (.move (.own _) _ _)
    exact ⟨_, rfl, _, _, _, _, _, _, _, _, _, _, htrace⟩
  have hstart : (answering "owner").Registered := fun _ => Registry.sound_empty
  obtain ⟨-, earlier, b₀, c', before, b₁', since, hhistory, -, -, -, -, hknown⟩ :=
    bound_as_compiled first firstOwner hstart (List.forall_mem_nil _) htrace
  -- the statement is compiled right after the model is taken
  obtain ⟨rfl, -, hafter⟩ :=
    (List.append_cons_inj_of_notMem List.not_mem_nil (by simp)).mp hhistory
  obtain ⟨rfl, -, -⟩ := (List.append_cons_inj_of_notMem List.not_mem_nil (by simp)).mp hafter
  obtain ⟨hcurrent, hrow⟩ := hknown (List.forall_mem_nil _)
  refine ⟨_, b, m, _, rest, htrace, by simp, ?_⟩
  have hwell : account.WellFormed := ⟨by decide, by decide⟩
  refine hrow _ rfl ?_ hwell (Model.findsColumns_ofEntity hm) ?_
  · exact List.forall_mem_singleton.mpr trivial
  · obtain rfl := Except.ok.inj hm
    exact List.forall_mem_singleton.mpr ⟨_, hcurrent, _, .head _, _, rfl, rfl⟩

/-- Columns that the statement gave may be unknown when a row is bound. A registration that another
task makes between the taking of the model and the compilation renames a column; an alias is a name
that the model does not have; and a model with swapped columns finds only one of them. -/
theorem unknown_columns :
    (∃ hs b, Process.Trace (first.process firstOwner [], answering "holder") hs
      (.finish (.error (.unknownField "holder")), b) ∧
      b.log = [.sent (.database "db")
        (.query ⟨"SELECT \x60holder\x60 FROM \x60account\x60;", []⟩) true,
          .read (.database "db")]) ∧
    (first.run (fun _ => []) firstHolder (answering "holder")).1 =
      .error (.unknownField "holder") ∧
    (first.run (fun _ => []) firstHolder (answering "holder")).2.log = [.sent (.database "db")
      (.query ⟨"SELECT \x60owner\x60 AS \x60holder\x60 FROM \x60account\x60;", []⟩) true,
        .read (.database "db")] ∧
    (first.run (fun _ => []) firstOwner (swapped "balance")).1 =
      .error (.unknownField "balance") ∧
    (first.run (fun _ => []) firstOwner (swapped "balance")).2.log = [.sent (.database "db")
      (.query ⟨"SELECT \x60balance\x60 FROM \x60account\x60;", []⟩) true,
        .read (.database "db")] := by
  refine ⟨?_, rfl, rfl, rfl, rfl⟩
  have htake := (Process.Trace.nil (first.process firstOwner [], answering "holder")).snoc
    (.move (.take firstOwner) _ _)
  have hregister := htake.snoc
    (.register _ _ "db" account [.columnName "owner" "holder"] _ rfl)
  obtain ⟨hs, hrest⟩ := Process.trace_run _ _
  exact ⟨_, _, hregister.trans hrest, rfl⟩

end Way

end Job

end RowMapper
