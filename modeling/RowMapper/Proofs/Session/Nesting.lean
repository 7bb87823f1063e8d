import RowMapper.Proofs.Session.Asides

/-!
# Nested middlewares

A run goes inwards through its middlewares as far as each of them calls the next handler
(`Plan.handOver`), and comes back through the same ones. The innermost handler builds the statement
and then, unless that failed or the token is cancelled, makes one call on the session
(`Job.Way.leads_terminal`). As all else is aside from the sessions, that call is all that they see
of the run.

`Job.Way.run_nests` says this of every way to run a job, through any middlewares that have plans.
-/

namespace RowMapper

variable {names : List String} {b b' b₁ : Backend} {α β γ : Type}

/-! ## What a session sees of a call -/

/-- The mark of a call on a session is the request that reached its database, if one did. -/
theorem Session.marks_deliver (names : List String) (p : Purpose) (sender : Session) (r : Request)
    (s : Session) (b : Backend) : (s.deliver p sender r b).2.marks names =
      b.marks names ++
        if s.isOpen b then [.sends sender r (s.deliver p sender r b).1.isOk] else [] := by
  rw [Backend.marks, log_deliver, List.filterMap_append, ← Backend.marks]
  cases s.isOpen b <;> simp [Event.mark?]

/-! ## Middlewares inside each other -/

namespace Middleware

/-- The state in which the handler inside of middlewares is called, if each of them calls the next
handler. -/
def Plan.handOver (c : Context) : List Plan → Backend → Option Backend
  | [], b => some b
  | p :: ps, b => match p.before c b with
    | (.ok (.inr _), b) => handOver c ps b
    | _ => none

variable {c : Context} {terminal : Handler}

/-- What a middleware with a plan does: it comes to a result of its own, or calls the next handler
once. -/
theorem Plan.Aside.stops_or_calls {p : Plan} (hp : p.Aside names) (c : Context) (b : Backend) :
    (∃ result b', b.Aside names b' ∧ (∀ next, p.middleware next c b = (result, b')) ∧
      ∀ ps, handOver c (p :: ps) b = none) ∨
    ∃ (after : Except Error Output → Run Output) (b' : Backend), b.Aside names b' ∧
      (∀ r, (after r).Aside names) ∧
      (∀ next, p.middleware next c b = after (next c b').1 (next c b').2) ∧
      ∀ ps, handOver c (p :: ps) b = handOver c ps b' := by
  have hbefore := hp.before c b
  rcases hb : p.before c b with ⟨e | output | after, b'⟩ <;> rw [hb] at hbefore
  · exact .inl ⟨_, b', hbefore, fun next => by rw [middleware_apply, hb],
      fun ps => by rw [handOver, hb]⟩
  · exact .inl ⟨_, b', hbefore, fun next => by rw [middleware_apply, hb],
      fun ps => by rw [handOver, hb]⟩
  · exact .inr ⟨after, b', hbefore, hp.after c b after b' hb,
      fun next => by rw [middleware_apply, hb], fun ps => by rw [handOver, hb]⟩

/-- The handler of middlewares with plans around another. -/
def nest (ps : List Plan) (terminal : Handler) : Handler := chain (ps.map Plan.middleware) terminal

theorem nest_nil : nest [] terminal = terminal := rfl

theorem nest_cons (p : Plan) (ps : List Plan) :
    nest (p :: ps) terminal = p.middleware (nest ps terminal) := rfl

/-- If a middleware does not call the next handler, all of the run is aside. -/
theorem aside_of_not_handOver : ∀ {ps : List Plan} {b : Backend}, (∀ p ∈ ps, p.Aside names) →
    Plan.handOver c ps b = none → b.Aside names (nest ps terminal c b).2
  | [], b, _, h => nomatch h
  | p :: ps, b, hps, h => by
    obtain ⟨hp, hps⟩ := List.forall_mem_cons.mp hps
    rw [nest_cons]
    obtain ⟨result, b₁, hbefore, happly, -⟩ | ⟨after, b₁, hbefore, hafter, happly, hcalls⟩ :=
      hp.stops_or_calls c b
    · rwa [happly]
    · rw [hcalls] at h
      rw [happly]
      exact (hbefore.trans (aside_of_not_handOver hps h)).trans (hafter _ _)

/-- If all middlewares call the next handler, all of the run but the innermost handler is aside. -/
theorem aside_of_handOver (terminal : Handler) : ∀ {ps : List Plan} {b b₁ : Backend},
    (∀ p ∈ ps, p.Aside names) → Plan.handOver c ps b = some b₁ →
      b.Aside names b₁ ∧ (terminal c b₁).2.Aside names (nest ps terminal c b).2
  | [], b, b₁, _, h => by
    obtain rfl := Option.some.inj h
    exact ⟨.refl b, .refl _⟩
  | p :: ps, b, b₁, hps, h => by
    obtain ⟨hp, hps⟩ := List.forall_mem_cons.mp hps
    rw [nest_cons]
    obtain ⟨result, b₂, -, -, hstops⟩ | ⟨after, b₂, hbefore, hafter, happly, hcalls⟩ :=
      hp.stops_or_calls c b
    · simp [hstops] at h
    · rw [hcalls] at h
      obtain ⟨hinwards, houtwards⟩ := aside_of_handOver terminal hps h
      rw [happly]
      exact ⟨hbefore.trans hinwards, houtwards.trans (hafter _ _)⟩

/-! ## The marks that middlewares leave -/

/-- Plans, each inside one that notes its name before and after it. -/
def Plan.watched : List (String × Plan) → List Plan
  | [] => []
  | (name, p) :: ps => .record name :: p :: watched ps

/-- Where no names are watched for, watchers leave no mark either. -/
theorem aside_watched : ∀ {ps : List (String × Plan)}, (∀ e ∈ ps, e.2.Aside names) →
    ∀ p ∈ Plan.watched ps, p.Aside []
  | [], _ => nofun
  | (name, p) :: ps, hps => by
    obtain ⟨hp, hps⟩ := List.forall_mem_cons.mp hps
    exact List.forall_mem_cons.mpr ⟨.record List.not_mem_nil,
      List.forall_mem_cons.mpr ⟨hp.unwatched, aside_watched hps⟩⟩

/-- A run from one state to another leaves the marks of nested middlewares. Some of the first ones
are entered, in their order: a middleware is, if all outside of it call the next handler. They are
left in the opposite order, and in the middle are the marks of the innermost handler, by the state
in which it is called, if it is. -/
def Bracketed (names : List String) (c : Context) (marked : Backend → List Mark)
    (ps : List (String × Plan)) (b b' : Backend) : Prop :=
  ∃ k ≤ ps.length,
    (∀ i < ps.length, i < k ↔ (Plan.handOver c (Plan.watched (ps.take i)) b).isSome) ∧
    b'.marks names = b.marks names ++ ((ps.take k).map fun e => .enters e.1) ++
      (Plan.handOver c (Plan.watched ps) b).elim [] marked ++
      ((ps.take k).map fun e => .leaves e.1).reverse

/-- The state after the name of a middleware is noted before it. -/
def noteEntered (name : String) (c : Context) (b : Backend) : Backend :=
  b.note (.entered name c.kind (c.outline b))

/-- The result and state after the name of a middleware is noted after it. -/
def noteLeft (name : String) (x : Except Error Output × Backend) : Except Error Output × Backend :=
  (x.1, x.2.note (.left name (x.1.map Output.outline)))

/-- The watcher stands right around its middleware, so what is inside of the one is inside of the
other. -/
theorem nest_watched (name : String) (p : Plan) (ps : List (String × Plan)) (b : Backend) :
    nest (Plan.watched ((name, p) :: ps)) terminal c b =
      noteLeft name (p.middleware (nest (Plan.watched ps) terminal) c (noteEntered name c b)) := rfl

/-- A call goes inwards past the watcher, which only notes the name. -/
theorem handOver_watched (name : String) (p : Plan) (ps : List (String × Plan)) (b : Backend) :
    Plan.handOver c (Plan.watched ((name, p) :: ps)) b =
      Plan.handOver c (p :: Plan.watched ps) (noteEntered name c b) := rfl

section

variable {name : String} (hname : name ∈ names) {p : Plan} {ps : List (String × Plan)}
  {marked : Backend → List Mark} {b₂ : Backend}
include hname

/-- Entering a handler leaves one mark. -/
theorem marks_noteEntered (c : Context) (b : Backend) :
    (noteEntered name c b).marks names = b.marks names ++ [.enters name] := by
  simp [noteEntered, Backend.marks, Backend.note, Event.mark?, hname]

/-- Leaving a handler leaves one mark, whatever the handler gave. -/
theorem marks_noteLeft (x : Except Error Output × Backend) :
    (noteLeft name x).2.marks names = x.2.marks names ++ [.leaves name] := by
  simp [noteLeft, Backend.marks, Backend.note, Event.mark?, hname]

/-- A middleware that does not call the next handler is left at once. -/
theorem Bracketed.of_stops
    (hstops : ∀ ps, Plan.handOver c (p :: ps) (noteEntered name c b) = none)
    (hbefore : (noteEntered name c b).Aside names b₁) (result : Except Error Output) :
    Bracketed names c marked ((name, p) :: ps) b (noteLeft name (result, b₁)).2 := by
  refine ⟨1, Nat.le_add_left 1 _, fun i _ => ?_, ?_⟩
  · cases i with
    | zero => simp [Plan.watched, Plan.handOver]
    | succ i => simp [handOver_watched, hstops]
  · simp [marks_noteLeft hname, hbefore.marks, marks_noteEntered hname, handOver_watched, hstops]

/-- A middleware that calls the next handler is entered before all that are inside of it, and left
after them. -/
theorem Bracketed.of_calls
    (hcalls : ∀ ps, Plan.handOver c (p :: ps) (noteEntered name c b) = Plan.handOver c ps b₁)
    (hbefore : (noteEntered name c b).Aside names b₁) (h : Bracketed names c marked ps b₁ b₂)
    {x : Except Error Output × Backend} (hafter : b₂.Aside names x.2) :
    Bracketed names c marked ((name, p) :: ps) b (noteLeft name x).2 := by
  obtain ⟨k, hk, hreach, hmarks⟩ := h
  -- one more is entered than inside of this middleware
  refine ⟨k + 1, Nat.succ_le_succ hk, fun i hi => ?_, ?_⟩
  · cases i with
    | zero => simp [Plan.watched, Plan.handOver]
    | succ i =>
      rw [List.take_succ_cons, handOver_watched, hcalls, ← hreach i (Nat.lt_of_succ_lt_succ hi),
        Nat.succ_lt_succ_iff]
  · simp [marks_noteLeft hname, hafter.marks, hmarks, hbefore.marks, marks_noteEntered hname,
      handOver_watched, hcalls]

end

/-- Nested middlewares leave their marks in brackets, if they leave no others. -/
theorem bracketed_nest {marked : Backend → List Mark} :
    ∀ {ps : List (String × Plan)} {b : Backend}, (∀ e ∈ ps, e.1 ∈ names ∧ e.2.Aside names) →
    (∀ b₁, Plan.handOver c (Plan.watched ps) b = some b₁ →
      (terminal c b₁).2.marks names = b₁.marks names ++ marked b₁) →
    Bracketed names c marked ps b (nest (Plan.watched ps) terminal c b).2
  | [], b, _, hterminal => by
    refine ⟨0, Nat.le_refl 0, nofun, ?_⟩
    simpa [Plan.watched, Plan.handOver, nest_nil] using hterminal b rfl
  | (name, p) :: ps, b, hps, hterminal => by
    obtain ⟨⟨hname, hp⟩, hps⟩ := List.forall_mem_cons.mp hps
    rw [nest_watched]
    obtain ⟨result, b₁, hbefore, happly, hstops⟩ | ⟨after, b₁, hbefore, hafter, happly, hcalls⟩ :=
      hp.stops_or_calls c (noteEntered name c b)
    · rw [happly]
      exact .of_stops hname hstops hbefore result
    · rw [happly]
      rw [handOver_watched, hcalls] at hterminal
      exact .of_calls hname hcalls hbefore (bracketed_nest hps hterminal) (hafter _ _)

end Middleware

/-! ## The innermost handler -/

/-- A run that makes another first, and fails with it; what it does after that is aside. -/
def Run.Leads (names : List String) (x : Run α) (y : Run β) : Prop :=
  ∀ b, (x b).2.Aside names (y b).2 ∧ ∀ e, (x b).1 = .error e → (y b).1 = .error e

namespace Run.Leads

variable {x : Run α} {y : Run β}

protected theorem refl (x : Run α) : Leads names x x := fun _ => ⟨.refl _, fun _ h => h⟩

/-- What follows without a mark does not change where a run leads. -/
theorem bind {f : β → Run γ} (h : Leads names x y) (hf : ∀ a, (f a).Aside names) :
    Leads names x (y >>= f) := by
  intro b
  obtain ⟨haside, herror⟩ := h b
  rcases hy : y b with ⟨e | a, b'⟩ <;> rw [hy] at haside herror
  · rw [bind_of_error hy]
    exact ⟨haside, fun e' he => congrArg _ (Except.error.inj (herror e' he))⟩
  · rw [bind_of_ok hy]
    exact ⟨haside.trans (hf a b'), fun e he => nomatch herror e he⟩

end Run.Leads

namespace Job

/-- The ways to run a job: for its outcome, for its first record, and for all its records. -/
inductive Way where
  | outcome
  | first
  | all

namespace Way

/-- What a statement is run for. -/
def purpose : Way → Purpose
  | outcome => .outcome
  | first | all => .rows

/-- The innermost handler. -/
def terminal (j : Job) : Way → Handler
  | outcome => fun c => do return .exec (← j.session.execute c)
  | first => fun c => do return .one j.entity (← j.session.fetchOne j.entity c)
  | all => fun c => do return .many j.entity (← j.session.fetchAll j.entity c)

/-- The state after a job was run. -/
def after (w : Way) (ms : Middlewares) (j : Job) (b : Backend) : Backend :=
  match w with
  | outcome => (j.exec ms b).2
  | first => (j.get ms b).2
  | all => (j.getAll ms b).2

/-- The call that a session gets for a query. -/
def call (w : Way) (j : Job) (q : Query) : Run w.purpose.Answer :=
  j.session.deliver w.purpose j.session (w.purpose.request q)

/-- The statement of a context is built, and its query sent unless the token is cancelled. -/
def send (w : Way) (j : Job) (c : Context) : Run w.purpose.Answer := do
  let q ← c.build
  Run.unlessCancelled c.token (w.call j q)

variable {w : Way} {j : Job} {c : Context} {e : Error} {q : Query}

/-- Binding rows leaves no mark, so of the innermost handler only the call is seen. -/
theorem leads_terminal (names : List String) (w : Way) (j : Job) (c : Context) :
    Run.Leads names (w.send j c) (w.terminal j c) := by
  -- each way begins with the same call; what differs is how rows are read and bound after it
  cases w with
  | outcome => exact Run.Leads.bind (.refl (j.session.execute c)) fun _ => .pure _
  | first =>
    refine .bind (.bind (.refl (j.session.fetch c)) fun cursor => ?_) fun _ => .pure _
    cases cursor.rows with
    | nil =>
      exact .bind (.unlessCancelled _ j.session.aside_readEnd) fun _ => .ofExcept (.error _)
    | cons row rows =>
      exact .bind (.unlessCancelled _ (j.session.aside_read row)) fun _ => .bind (.look _) fun _ =>
        .ofExcept _
  | all =>
    exact .bind (.bind (.refl (j.session.fetch c)) fun cursor =>
      j.session.aside_bindAll c j.entity cursor.columns cursor.rows) fun _ => .pure _

/-- What a run gives is taken out of the output of its handlers, which changes nothing any more. -/
theorem after_eq (w : Way) (ms : Middlewares) (j : Job) (b : Backend) :
    w.after ms j b = (j.through ms (w.terminal j) b).2 := by
  have htaken {α : Type} {f : Output → Except Error α} (x : Run Output) :
      ((x >>= fun o => Run.ofExcept (f o)) b).2 = (x b).2 := by
    rw [Run.bind_apply]
    rcases x b with ⟨_ | _, _⟩ <;> rfl
  cases w <;> exact htaken _

end Way

variable {j : Job} {m : Model}

/-- A job whose entity has a model runs in a context with that model. -/
theorem context_of_model (hm : (b.registry j.session.base).model j.entity = .ok m) :
    ∃ t b₀, j.context b = (.ok ⟨j.statement.kind, j.compile, m, t⟩, b₀) := by
  obtain ⟨b₁, hmodel⟩ : ∃ b₁, j.takeModel b = (.ok m, b₁) :=
    ⟨_, Prod.ext ((Registry.get_eq_model _ _).trans hm) rfl⟩
  obtain ⟨t, b₂, htoken⟩ : ∃ t b₂, j.takeToken b₁ = (.ok t, b₂) := by
    rw [takeToken]
    cases j.cancel <;> exact ⟨_, _, rfl⟩
  exact ⟨t, b₂, (Run.bind_of_ok hmodel _).trans (Run.bind_of_ok htoken _)⟩

/-- Compiling a statement cancels no token. -/
theorem isCancelled_build (j : Job) (b : Backend) (t : CancelToken) :
    (j.build b).2.isCancelled t = b.isCancelled t := by
  rw [build, Run.build, Backend.takeAll_eq]
  rfl

namespace Way

/-- What the session of a job gets in a run from one state to another, by the state in which the
innermost handler is called, if it is called. -/
inductive Received (w : Way) (j : Job) (c : Context) (b : Backend) : Option Backend → Backend → Prop
  | uncalled {b' : Backend} (hrun : b.Aside [] b') : Received w j c b none b'
  | unbuilt {b₁ b' : Backend} {e : Error} (hbuild : (j.build b).1 = .error e)
      (hterminal : (w.terminal j c b₁).1 = .error e) (hrun : b.Aside [] b') :
      Received w j c b (some b₁) b'
  | cancelled {b₁ b' : Backend} {q : Query} (hbuild : (j.build b).1 = .ok q)
      (hcancelled : b₁.isCancelled c.token = true)
      (hterminal : (w.terminal j c b₁).1 = .error .cancelled) (hrun : b.Aside [] b') :
      Received w j c b (some b₁) b'
  | call {b₁ b' : Backend} {q : Query} (hbuild : (j.build b).1 = .ok q)
      (hcancelled : b₁.isCancelled c.token = false) (hbefore : b.Aside [] (j.build b₁).2)
      (hafter : (w.call j q (j.build b₁).2).2.Aside [] b') : Received w j c b (some b₁) b'

/-- What is sent when the innermost handler is called in a state, in a run that started in another:
the query that the job is built to, unless that fails, the token is cancelled or the session is
closed. -/
def sent (w : Way) (j : Job) (b : Backend) (t : CancelToken) (b₁ : Backend) : List Mark :=
  match (j.build b).1 with
  | .error _ => []
  | .ok q => if !b₁.isCancelled t && j.session.isOpen b then
      [.sends j.session (w.purpose.request q) (w.call j q (j.build b₁).2).1.isOk] else []

section

variable {w : Way} {kind : StatementKind} {t : CancelToken} {e : Error} {q : Query}

/-- A statement that does not compile is not sent. -/
theorem send_of_error (h : (j.build b).1 = .error e) :
    w.send j ⟨kind, j.compile, m, t⟩ b = (.error e, (j.build b).2) :=
  Run.bind_of_error (Prod.ext h rfl) _

/-- A statement that compiles is sent unless its token is cancelled by then. -/
theorem send_of_ok (h : (j.build b).1 = .ok q) :
    w.send j ⟨kind, j.compile, m, t⟩ b =
      if b.isCancelled t then (.error .cancelled, (j.build b).2)
      else w.call j q (j.build b).2 := by
  rw [← isCancelled_build j b t]
  exact Run.bind_of_ok (Prod.ext h rfl) _

/-- The innermost handler fails if its statement cannot be built, and sends nothing. -/
theorem terminal_of_error (h : (j.build b).1 = .error e) :
    (w.terminal j ⟨kind, j.compile, m, t⟩ b).1 = .error e ∧
      b.Aside names (w.terminal j ⟨kind, j.compile, m, t⟩ b).2 := by
  obtain ⟨haside, herror⟩ := leads_terminal names w j ⟨kind, j.compile, m, t⟩ b
  rw [send_of_error h] at haside herror
  exact ⟨herror e rfl, (Run.Aside.build j.compile b).trans haside⟩

/-- The innermost handler of a cancelled token leaves no mark. -/
theorem terminal_of_cancelled (h : (j.build b).1 = .ok q) (ht : b.isCancelled t = true) :
    (w.terminal j ⟨kind, j.compile, m, t⟩ b).1 = .error .cancelled ∧
      b.Aside names (w.terminal j ⟨kind, j.compile, m, t⟩ b).2 := by
  obtain ⟨haside, herror⟩ := leads_terminal names w j ⟨kind, j.compile, m, t⟩ b
  rw [send_of_ok h, if_pos ht] at haside herror
  exact ⟨herror _ rfl, (Run.Aside.build j.compile b).trans haside⟩

/-- Otherwise the session gets the query of the statement, and nothing else. -/
theorem terminal_of_ok (h : (j.build b).1 = .ok q) (ht : b.isCancelled t = false) :
    (w.call j q (j.build b).2).2.Aside names (w.terminal j ⟨kind, j.compile, m, t⟩ b).2 := by
  have haside := (leads_terminal names w j ⟨kind, j.compile, m, t⟩ b).1
  rwa [send_of_ok h, if_neg (ht ▸ Bool.false_ne_true)] at haside

/-- The marks of the innermost handler are those of the one call it may make. -/
theorem marks_terminal (h : b.Aside [] b₁) :
    (w.terminal j ⟨kind, j.compile, m, t⟩ b₁).2.marks names =
      b₁.marks names ++ w.sent j b t b₁ := by
  have hbuild := build_of_grows h.grows j
  rw [sent]
  cases hb : (j.build b).1 with
  | error e => simpa using (terminal_of_error (hbuild.trans hb)).2.marks
  | ok q => cases ht : b₁.isCancelled t with
    | true => simpa using (terminal_of_cancelled (hbuild.trans hb) ht).2.marks
    | false =>
      -- the handler is called with the transactions of the start, so the session is as open as then
      have hbuilt : b₁.Aside names (j.build b₁).2 := Run.Aside.build j.compile b₁
      have hopen := Session.isOpen_congr (hbuilt.transactions.trans h.transactions) j.session
      have hcall := Session.marks_deliver names w.purpose j.session (w.purpose.request q)
        j.session (j.build b₁).2
      rw [hopen, hbuilt.marks] at hcall
      rw [(terminal_of_ok (hbuild.trans hb) ht).marks]
      simpa [call] using hcall

open Middleware

/-- As the middlewares are aside, the session gets what the innermost handler sends. -/
theorem received_nest {b₀ : Backend} (hstart : b.Aside [] b₀) {ps : List Plan}
    (hps : ∀ p ∈ ps, p.Aside []) : let c : Context := ⟨kind, j.compile, m, t⟩
    w.Received j c b (Plan.handOver c ps b₀) (nest ps (w.terminal j) c b₀).2 := by
  intro c
  cases hcalled : Plan.handOver c ps b₀ with
  | none => exact .uncalled (hstart.trans (aside_of_not_handOver hps hcalled))
  | some b₁ =>
    -- only what the innermost handler does can reach a session: all before and after it is aside
    obtain ⟨hinwards, houtwards⟩ := aside_of_handOver (w.terminal j) hps hcalled
    have hbefore := hstart.trans hinwards
    have hbuild := build_of_grows hbefore.grows j
    cases hb : (j.build b).1 with
    | error e =>
      obtain ⟨hterminal, hrun⟩ := terminal_of_error (hbuild.trans hb)
      exact .unbuilt hb hterminal ((hbefore.trans hrun).trans houtwards)
    | ok q => cases ht : b₁.isCancelled t with
      | true =>
        obtain ⟨hterminal, hrun⟩ := terminal_of_cancelled (hbuild.trans hb) ht
        exact .cancelled hb ht hterminal ((hbefore.trans hrun).trans houtwards)
      | false =>
        exact .call hb ht (hbefore.trans (Run.Aside.build j.compile b₁))
          ((terminal_of_ok (hbuild.trans hb) ht).trans houtwards)

end

open Middleware in
/-- Middlewares nest in their order, and a statement reaches its session at most once, fully built.
The middlewares may be any that have plans, each set aside from the sessions. The session gets a
call exactly if all of them call the next handler, the statement can be built and the token is not
cancelled when they have; it is a call with the query that the statement is built to at first. All
else is aside. If the statement cannot be built, the innermost handler fails with that error.

Names noted before and after each of the middlewares show the order in which they are entered and
left. They are entered in the order of the list as far as each calls the next handler, and left in
the opposite order; what is sent is sent in between. -/
theorem run_nests (w : Way) (hm : (b.registry j.session.base).model j.entity = .ok m)
    {ps : List Plan} (hps : ∀ p ∈ ps, p.Aside []) :
    ∃ t b₀, let c : Context := ⟨j.statement.kind, j.compile, m, t⟩
      j.context b = (.ok c, b₀) ∧
      w.Received j c b (Plan.handOver c ps b₀) (w.after (fun _ => ps.map Plan.middleware) j b) ∧
      ∀ named : List (String × Plan), named.map (·.2) = ps →
        (∀ p ∈ ps, p.Aside (named.map (·.1))) →
        b₀.marks (named.map (·.1)) = b.marks (named.map (·.1)) ∧
        Bracketed (named.map (·.1)) c (w.sent j b t) named b₀
          (w.after (fun _ => (Plan.watched named).map Plan.middleware) j b) := by
  obtain ⟨t, b₀, hcontext⟩ := context_of_model hm
  have hrun (ps : List Plan) : w.after (fun _ => ps.map Plan.middleware) j b =
      (nest ps (w.terminal j) ⟨j.statement.kind, j.compile, m, t⟩ b₀).2 := by
    rw [after_eq, through, Run.bind_of_ok hcontext, nest]
  have hstart (names : List String) : b.Aside names b₀ := by
    have haside : b.Aside names (j.context b).2 := j.aside_context b
    rwa [hcontext] at haside
  refine ⟨t, b₀, hcontext, hrun ps ▸ received_nest (hstart []) hps, fun named hnamed hwatched => ?_⟩
  subst hnamed
  rw [hrun]
  refine ⟨(hstart _).marks, bracketed_nest (fun e he => ?_) fun b₁ hcalled => ?_⟩
  · exact ⟨List.mem_map_of_mem he, hwatched e.2 (List.mem_map_of_mem he)⟩
  -- the sessions get nothing on the way inwards
  · have hinwards := (aside_of_handOver (w.terminal j)
      (aside_watched fun e he => hwatched e.2 (List.mem_map_of_mem he)) hcalled).1
    exact marks_terminal ((hstart []).trans hinwards)

/-- A statement that is written as text, on a database. -/
def vacuum : Job :=
  { statement := .raw ⟨"db", .integers "Account" ["id"], "VACUUM", []⟩
    directory := []
    cancel := none }

/-- The sessions of databases without models. -/
def plain : Backend := .initial (fun name => ⟨.sqlite, .byName, name⟩) fun _ => .empty

open Middleware in
/-- A statement is sent between the calls of its middlewares and their returns. -/
theorem run_nests_vacuum : (outcome.after (fun _ =>
      [.record "outer", prebuild, .record "inner", .record "audit"]) vacuum plain).marks
        ["outer", "inner"] =
    [.enters "outer", .enters "inner", .sends (.database "db") (.exec ⟨"VACUUM", []⟩) true,
      .leaves "inner", .leaves "outer"] := by
  let build : Plan := .first fun c => do Run.note (.built (← Run.attempt c.build))
  have hbuild : build.middleware = prebuild := Plan.middleware_first _
  have hps : ∀ p ∈ [build, .record "audit"], p.Aside ["outer", "inner"] := by
    simp only [List.forall_mem_cons]
    exact ⟨.first fun c => .bind (.attempt (.build _)) fun _ => .note rfl, .record (by decide),
      nofun⟩
  obtain ⟨m, hm⟩ : ∃ m, (plain.registry vacuum.session.base).model vacuum.entity = .ok m :=
    ⟨_, rfl⟩
  obtain ⟨t, b₀, hcontext, -, hnamed⟩ := run_nests .outcome hm fun p hp => (hps p hp).unwatched
  obtain ⟨-, k, hk, hreach, hmarks⟩ :=
    hnamed [("outer", build), ("inner", .record "audit")] rfl hps
  obtain ⟨hc, rfl⟩ := Prod.mk.inj hcontext
  obtain rfl : CancelToken.own 0 = t := congrArg Context.token (Except.ok.inj hc)
  obtain rfl : k = 2 := Nat.le_antisymm hk ((hreach 1 (by decide)).mpr rfl)
  rw [← hbuild]
  exact hmarks

end Way

end Job

end RowMapper
