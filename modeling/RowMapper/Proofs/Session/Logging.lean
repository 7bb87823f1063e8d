import RowMapper.Proofs.Session.Cancellation

/-!
# Logged runs

`Middleware.queryLog` builds a statement to log it, and the innermost handler builds it again. The
extra build shows in nothing but the registries, which take in default models: `Backend.Alike` says
so of two states, and `Run.Related` of two runs.

The middlewares around it are the user's own. `Program` is what a middleware can do that passes its
context on unchanged, as a tree of steps and of calls to the next handler, as many as it likes. In a
discreet one the steps are aside from the sessions, and tell no alike states apart
(`Program.Discreet`). `Program.related` is the one induction over these trees: it holds for every
relation of states that discreet steps respect, and `Job.Way.run_related` carries it to whole runs.

`Job.Way.run_logged` takes it from there. A query log changes nothing that shows as long as the
statement can be built, and it logs what is sent. If the statement cannot be built, the query log
gives the error of that at once; middlewares inside of it do not get to see it.
-/

namespace RowMapper

variable {α β : Type}

/-! ## Alike states and related runs -/

namespace Backend

/-- Two states that have grown from a third one, and that differ only in which default models the
registries have taken in, and in what is noted that is no request. -/
structure Alike (o b b' : Backend) : Prop where
  left : o.Grows b
  right : o.Grows b'
  scripts : b'.scripts = b.scripts
  transactions : b'.transactions = b.transactions
  tokens : b'.tokens = b.tokens
  cancelled : b'.cancelled = b.cancelled
  marks : b'.marks [] = b.marks []

namespace Alike

variable {o b b' b'' : Backend}

protected theorem refl (h : o.Grows b) : Alike o b b := ⟨h, h, rfl, rfl, rfl, rfl, rfl⟩

/-- Alike states are so by way of a third one. -/
theorem trans (h : Alike o b b') (h' : Alike o b' b'') : Alike o b b'' where
  left := h.left
  right := h'.right
  scripts := h'.scripts.trans h.scripts
  transactions := h'.transactions.trans h.transactions
  tokens := h'.tokens.trans h.tokens
  cancelled := h'.cancelled.trans h.cancelled
  marks := h'.marks.trans h.marks

theorem symm (h : Alike o b b') : Alike o b' b where
  left := h.right
  right := h.left
  scripts := h.scripts.symm
  transactions := h.transactions.symm
  tokens := h.tokens.symm
  cancelled := h.cancelled.symm
  marks := h.marks.symm

/-- What has grown from a state has grown from all that it has grown from. -/
theorem since (h : Alike b b b') (ho : o.Grows b) : Alike o b b' :=
  { h with left := ho, right := ho.trans h.right }

/-- Settings never change, so alike states have the same. -/
theorem settings (h : Alike o b b') : b'.settings = b.settings :=
  h.right.settings.trans h.left.settings.symm

/-- A token is cancelled in both or in neither. -/
theorem isCancelled (h : Alike o b b') (t : CancelToken) : b'.isCancelled t = b.isCancelled t := by
  rw [Backend.isCancelled, Backend.isCancelled, h.cancelled]

/-- So a transaction has ended in both or in neither. -/
theorem isFinished (h : Alike o b b') (id : ℕ) : b'.isFinished id = b.isFinished id := by
  rw [Backend.isFinished, Backend.isFinished, h.transactions]

/-- Taking in models makes no difference. -/
theorem takeAll (es : List (String × EntityType)) (b : Backend) :
    Alike b b (es.foldl takeIn b) := by
  have hgrows := Grows.takeAll es b
  rw [takeAll_eq] at hgrows ⊢
  exact ⟨.refl b, hgrows, rfl, rfl, rfl, rfl, rfl⟩

/-- Noting something that is no request makes none either. -/
theorem note {e : Event} (he : e.mark? [] = none) (b : Backend) : Alike b b (b.note e) where
  left := .refl b
  right := (Aside.note he b).grows
  scripts := rfl
  transactions := rfl
  tokens := rfl
  cancelled := rfl
  marks := (Aside.note he b).marks

/-! The same change to both states leaves them alike. -/

/-- Both note the same event. -/
theorem noteBoth (h : Alike o b b') (e : Event) : Alike o (b.note e) (b'.note e) :=
  { h with
    left := ⟨h.left.settings, h.left.registries⟩
    right := ⟨h.right.settings, h.right.registries⟩
    marks := by
      have hmarks := h.marks
      simp only [Backend.marks, Backend.note, List.filterMap_append] at hmarks ⊢
      rw [hmarks] }

/-- A database has come to the same place in its script. -/
theorem setScriptBoth (h : Alike o b b') (database : String) (s : Script) :
    Alike o (b.setScript database s) (b'.setScript database s) :=
  { h with
    left := ⟨h.left.settings, h.left.registries⟩
    right := ⟨h.right.settings, h.right.registries⟩
    scripts := by rw [setScript, setScript, h.scripts] }

theorem cancelBoth (h : Alike o b b') (t : CancelToken) : Alike o (b.cancel t) (b'.cancel t) :=
  { h with
    left := ⟨h.left.settings, h.left.registries⟩
    right := ⟨h.right.settings, h.right.registries⟩
    cancelled := congrArg (t :: ·) h.cancelled }

theorem cancelForBoth (h : Alike o b b') (token? : Option String) :
    Alike o (b.cancelFor token?) (b'.cancelFor token?) := by
  cases token? with
  | none => exact h
  | some name => exact h.cancelBoth _

/-- A transaction has kept the same message. -/
theorem keepBoth (h : Alike o b b') (id : ℕ) (m : Message) :
    Alike o (b.keep id m) (b'.keep id m) :=
  { h with
    left := ⟨h.left.settings, h.left.registries⟩
    right := ⟨h.right.settings, h.right.registries⟩
    transactions := by rw [keep, keep, h.transactions] }

end Alike

/-- One state, with something that holds of it. -/
def Same (I : Backend → Prop) (b b' : Backend) : Prop := b' = b ∧ I b

end Backend

open Backend (Alike Same)

/-- Two runs that have the same result from related states, and leave related states. -/
def Run.Related (S : Backend → Backend → Prop) (x y : Run α) : Prop :=
  ∀ b b', S b b' → (y b').1 = (x b).1 ∧ S (x b).2 (y b').2

namespace Run.Related

variable {S : Backend → Backend → Prop} {o : Backend}

/-- Runs stay related one after the other: equal results lead to the same second run. -/
protected theorem bind {x y : Run α} {f g : α → Run β} (hx : Related S x y)
    (hf : ∀ a, Related S (f a) (g a)) : Related S (x >>= f) (y >>= g) := by
  intro b b' h
  obtain ⟨hresult, hstate⟩ := hx b b' h
  rcases hxb : x b with ⟨e | a, b₁⟩ <;> rcases hyb : y b' with ⟨e' | a', b₁'⟩ <;>
    rw [hxb, hyb] at hresult hstate
  · obtain rfl : e' = e := Except.error.inj hresult
    rw [bind_of_error hxb, bind_of_error hyb]
    exact ⟨rfl, hstate⟩
  · exact nomatch hresult
  · exact nomatch hresult
  · obtain rfl : a' = a := Except.ok.inj hresult
    rw [bind_of_ok hxb, bind_of_ok hyb]
    exact hf a' b₁ b₁' hstate

theorem ofExcept (r : Except Error α) : Related S (ofExcept r) (ofExcept r) :=
  fun _ _ h => ⟨rfl, h⟩

/-- To note the same event in both states. -/
theorem note (e : Event) : Related (Alike o) (note e) (note e) := fun _ _ h => ⟨rfl, h.noteBoth e⟩

/-- Either both runs are made or neither is. -/
theorem unlessCancelled (t : CancelToken) {x y : Run α} (hx : Related (Alike o) x y) :
    Related (Alike o) (unlessCancelled t x) (unlessCancelled t y) := by
  intro b b' h
  rw [Run.unlessCancelled, Run.unlessCancelled, h.isCancelled]
  split
  · exact ⟨rfl, h⟩
  · exact hx b b' h

end Run.Related

/-! ## Contexts, sessions and the innermost handler -/

/-- A context whose statement compiles the same when registries have grown. -/
def Context.Steady (c : Context) : Prop :=
  ∀ b b' : Backend, b.Grows b' → c.compile b'.cores = c.compile b.cores

namespace Context.Steady

variable {c : Context} (hc : c.Steady) {o b : Backend}
include hc

/-- The statement of such a context is built to the same query in all states that have grown from
one. -/
theorem build_eq (h : o.Grows b) : (c.build b).1 = (c.build o).1 :=
  congrArg Compiled.result (hc o b h)

/-- So to build it leaves alike states alike. -/
theorem related_build (o : Backend) : Run.Related (Alike o) c.build c.build := by
  intro b b' h
  refine ⟨by rw [hc.build_eq h.left, hc.build_eq h.right], ?_⟩
  -- both states take models in by themselves
  exact (((Alike.takeAll _ b).since h.left).symm.trans h).trans ((Alike.takeAll _ b').since h.right)

end Context.Steady

/-- A request is answered from the scripts, the transactions and nothing else, and so alike in alike
states. -/
theorem Session.related_deliver (o : Backend) (p : Purpose) (sender : Session) (r : Request) :
    ∀ s : Session, Run.Related (Alike o) (s.deliver p sender r) (s.deliver p sender r)
  | database name => by
    intro b b' h
    simp only [deliver, Backend.ask, h.scripts, true_and]
    exact ((h.setScriptBoth name _).noteBoth _).cancelForBoth _
  | transaction id inner => by
    intro b b' h
    have hfinished : Transaction.isFinished ⟨id, inner⟩ b' =
        Transaction.isFinished ⟨id, inner⟩ b := h.isFinished id
    rw [deliver, Transaction.ensureActive_bind, Transaction.ensureActive_bind, hfinished]
    split
    · exact ⟨rfl, h⟩
    · obtain ⟨hresult, hstate⟩ := related_deliver o p sender r inner b b' h
      refine ⟨hresult, ?_⟩
      simp only [Transaction.sending, hresult]
      exact hstate.keepBoth id _

/-- So is every question of a run. -/
theorem Question.related_ask (o : Backend) (s : Session) :
    ∀ k : Question, Run.Related (Alike o) (k.ask s) (k.ask s)
  | statement p _ => Session.related_deliver o p s _ s
  | row reply => fun _ _ h => ⟨rfl, (h.noteBoth (.read s)).cancelForBoth reply.cancels⟩
  | noMore => .note (.read s)

/-- And so is the whole dialogue, as the answers decide what is asked next. -/
theorem Dialogue.related_run (o : Backend) (s : Session) (t : CancelToken) :
    ∀ d : Dialogue α, Run.Related (Alike o) (d.run s t) (d.run s t)
  | finish r => .ofExcept r
  | asks k rest => .bind (.unlessCancelled t (k.related_ask o s)) fun a =>
    related_run o s t (rest a)

namespace Job

/-- A context with the statement of a job is such a one. -/
theorem steady_context (j : Job) {c : Context} (h : c.compile = j.compile) : c.Steady := by
  intro b b' hgrows
  rw [h, compile_of_grows hgrows]

/-- The innermost handler does not tell alike states apart. -/
theorem Way.related_terminal (w : Way) (j : Job) {c : Context} (hc : c.Steady) (o : Backend) :
    Run.Related (Alike o) (w.terminal j c) (w.terminal j c) := by
  intro b b' h
  obtain ⟨hresult, hstate⟩ := hc.related_build o b b' h
  rcases hb : c.build b with ⟨e | q, b₁⟩ <;> rcases hb' : c.build b' with ⟨e' | q', b₁'⟩ <;>
    rw [hb, hb'] at hresult hstate
  · obtain rfl : e' = e := Except.error.inj hresult
    rw [terminal_eq_error hb, terminal_eq_error hb']
    exact ⟨rfl, hstate⟩
  · exact nomatch hresult
  · exact nomatch hresult
  · obtain rfl : q' = q := Except.ok.inj hresult
    rw [terminal_eq w hb, terminal_eq w hb', hstate.settings]
    exact Dialogue.related_run o _ _ _ b₁ b₁' hstate

end Job

/-! ## Discreet steps -/

/-- A run that is aside from the sessions and does not tell alike states apart. -/
structure Run.Discreet (x : Run α) : Prop where
  aside : x.Aside []
  alike : ∀ o, Related (Alike o) x x

namespace Run.Discreet

/-- Discreet steps one after the other. -/
protected theorem bind {x : Run α} {f : α → Run β} (hx : Discreet x) (hf : ∀ a, Discreet (f a)) :
    Discreet (x >>= f) where
  aside := .bind hx.aside fun a => (hf a).aside
  alike o := .bind (hx.alike o) fun a => (hf a).alike o

theorem ofExcept (r : Except Error α) : Discreet (ofExcept r) := ⟨.ofExcept r, fun _ => .ofExcept r⟩

protected theorem pure (a : α) : Discreet (pure a : Run α) := ofExcept (.ok a)

/-- The result of a discreet step, also of one that fails. -/
theorem attempt {x : Run α} (hx : Discreet x) : Discreet x.attempt where
  aside := .attempt hx.aside
  alike o b b' h := ⟨congrArg Except.ok (hx.alike o b b' h).1, (hx.alike o b b' h).2⟩

theorem note {e : Event} (he : e.mark? [] = none) : Discreet (note e) :=
  ⟨.note he, fun _ => .note e⟩

/-- To cancel a token is seen by no session, and is the same in alike states. -/
theorem cancel (t : CancelToken) : Discreet (modify (·.cancel t)) :=
  ⟨fun b => .cancel b t, fun _ _ _ h => ⟨rfl, h.cancelBoth t⟩⟩

/-- A step may look at what does not differ between alike states. -/
theorem look {f : Backend → α} (hf : ∀ o b b', Alike o b b' → f b' = f b) : Discreet (look f) :=
  ⟨.look f, fun o b b' h => ⟨congrArg Except.ok (hf o b b' h), h⟩⟩

theorem build {c : Context} (hc : c.Steady) : Discreet c.build := ⟨.build _, hc.related_build⟩

/-- A discreet step keeps what growing and requests decide. -/
theorem same {x : Run α} (hx : Discreet x) {I : Backend → Prop}
    (hI : ∀ b b' : Backend, b.Aside [] b' → I b → I b') : Related (Same I) x x := by
  rintro _ b ⟨rfl, hb⟩
  exact ⟨rfl, rfl, hI b _ (hx.aside b) hb⟩

end Run.Discreet

/-! ## Programs of middlewares -/

/-- What a middleware does in a context that it passes on unchanged: steps of its own and calls to
the next handler, until it comes to a result. It goes on as the results say. -/
inductive Program : Type 1 where
  | finish (r : Except Error Output)
  | own {β : Type} (x : Run β) (rest : Except Error β → Program)
  | call (rest : Except Error Output → Program)

namespace Program

/-- Runs a program; the next handler is given as it runs in the context. -/
def run (next : Run Output) : Program → Run Output
  | finish r => Run.ofExcept r
  | own x rest => fun b => (rest (x b).1).run next (x b).2
  | call rest => fun b => (rest (next b).1).run next (next b).2

/-- All own steps of a program are discreet. -/
def Discreet : Program → Prop
  | finish _ => True
  | own x rest => x.Discreet ∧ ∀ r, (rest r).Discreet
  | call rest => ∀ r, (rest r).Discreet

/-- A program goes on as the result of its own step says. -/
theorem run_own (next : Run Output) (x : Run β) (rest : Except Error β → Program) (b : Backend) :
    (own x rest).run next b = (rest (x b).1).run next (x b).2 := rfl

/-- A program goes on as the result of the call says. -/
theorem run_call (next : Run Output) (rest : Except Error Output → Program) (b : Backend) :
    (call rest).run next b = (rest (next b).1).run next (next b).2 := rfl

/-- Related handlers stay related inside a program, if its own steps respect the relation. -/
theorem related {S : Backend → Backend → Prop}
    (hS : ∀ {γ : Type} {x : Run γ}, x.Discreet → Run.Related S x x) {next next' : Run Output}
    (hnext : Run.Related S next next') :
    ∀ {p : Program}, p.Discreet → Run.Related S (p.run next) (p.run next')
  | finish r, _ => .ofExcept r
  | own x rest, ⟨hx, hrest⟩ => by
    intro b b' h
    -- the own step respects the relation, and its result leads on to the same rest
    obtain ⟨hresult, hstate⟩ := hS hx b b' h
    rw [run_own, run_own, hresult]
    exact related hS hnext (hrest _) _ _ hstate
  | call rest, hrest => by
    intro b b' h
    obtain ⟨hresult, hstate⟩ := hnext b b' h
    rw [run_call, run_call, hresult]
    exact related hS hnext (hrest _) _ _ hstate

end Program

namespace Middleware

/-- A middleware that passes its context on unchanged and is discreet in what it does besides. -/
def Discreet (m : Middleware) : Prop :=
  ∃ p : Context → Program, (∀ c, c.Steady → (p c).Discreet) ∧
    ∀ next c, m next c = (p c).run (next c)

/-- A middleware that only does something before the next handler. -/
theorem Discreet.first {x : Context → Run Unit} (hx : ∀ c, c.Steady → (x c).Discreet) :
    Discreet fun next c => (do x c; next c) := by
  refine ⟨fun c => .own (x c) fun
      | .ok _ => .call .finish
      | .error e => .finish (.error e), fun c hc => ⟨hx c hc, ?_⟩, fun next c => ?_⟩
  · rintro (_ | _)
    · trivial
    · exact fun _ => trivial
  · funext b
    rw [Program.run_own]
    rcases h : x c b with ⟨e | _, b'⟩
    · exact Run.bind_of_error h _
    · exact Run.bind_of_ok h _

/-- A query log is discreet if the log is: it builds the statement first, and fails if that does. -/
theorem discreet_queryLog {log : Query → Run Unit} (hlog : ∀ q, (log q).Discreet) :
    (queryLog log).Discreet := by
  have hfirst : queryLog log = fun next c => (do (do log (← c.build)); next c) := by
    funext next c b
    rcases h : c.build b with ⟨e | q, b'⟩
    · exact (Run.bind_of_error h _).trans (Run.bind_of_error (Run.bind_of_error h _) _).symm
    · rw [queryLog, Run.bind_of_ok h, Run.bind_apply, Run.bind_apply, Run.bind_of_ok h]
  rw [hfirst]
  exact .first fun c hc => .bind (.build hc) hlog

theorem discreet_noted : noted.Discreet := discreet_queryLog fun _ => .note rfl

theorem discreet_unnoted : unnoted.Discreet := discreet_queryLog fun _ => .pure ()

theorem discreet_prebuild : prebuild.Discreet :=
  .first fun _ hc => .bind (.attempt (.build hc)) fun _ => .note rfl

theorem discreet_cancelling : cancelling.Discreet := .first fun _ _ => .cancel _

/-- Its program is an output, without a call. -/
theorem discreet_answer (output : Except Error Output) : (answer output).Discreet :=
  ⟨fun _ => .finish output, fun _ _ => trivial, fun _ _ => rfl⟩

theorem discreet_refuse (e : Error) : (refuse e).Discreet := discreet_answer (.error e)

/-- Its program is two calls, and the result of the second one. -/
theorem discreet_twice : twice.Discreet :=
  ⟨fun _ => .call fun _ => .call .finish, fun _ _ _ _ => trivial, fun _ _ => rfl⟩

/-- Its program is one call, and its own output in the place of a failure. -/
theorem discreet_recover (output : Except Error Output) : (recover output).Discreet := by
  refine ⟨fun _ => .call fun r => .finish (r.tryCatch fun _ => output), fun _ _ _ => trivial,
    fun next c => ?_⟩
  funext b
  have hattempt : (next c).attempt b = (.ok (next c b).1, (next c b).2) := rfl
  rw [recover, Run.bind_of_ok hattempt, Program.run_call]
  cases (next c b).1 <;> rfl

/-- The text of a context does not differ between alike states. -/
theorem discreet_record (name : String) : (record name).Discreet := by
  refine ⟨fun c => .own (do Run.note (.entered name c.kind (← Run.look c.outline))) fun _ =>
      .call fun r => .own (Run.note (.left name (r.map Output.outline))) fun _ => .finish r,
    fun c _ => ⟨.bind (.look ?_) fun _ => .note rfl, fun _ _ => ⟨.note rfl, fun _ => trivial⟩⟩,
    fun _ _ => rfl⟩
  intro o b b' h
  rw [Context.outline, Context.outline, h.isCancelled]

section

variable {S : Backend → Backend → Prop}
  (hS : ∀ {γ : Type} {x : Run γ}, x.Discreet → Run.Related S x x)
include hS

/-- Related handlers stay related inside a chain of discreet middlewares. -/
theorem related_chain {c : Context} (hc : c.Steady) {h h' : Handler}
    (hh : Run.Related S (h c) (h' c)) : ∀ {ms : List Middleware}, (∀ m ∈ ms, m.Discreet) →
      Run.Related S (chain ms h c) (chain ms h' c)
  | [], _ => hh
  | m :: ms, hms => by
    obtain ⟨⟨p, hp, hm⟩, hms⟩ := List.forall_mem_cons.mp hms
    show Run.Related S (m (chain ms h) c) (m (chain ms h') c)
    rw [hm, hm]
    exact Program.related hS (related_chain hc hh hms) (hp c hc)

end

theorem chain_append (ms ms' : List Middleware) (h : Handler) :
    chain (ms ++ ms') h = chain ms (chain ms' h) := List.foldr_append

end Middleware

/-! ## What a query log does in a run -/

namespace Middleware

/-- Builds the statement, whatever comes of it, and logs once. -/
def logging (log : Run Unit) : Middleware := fun next c => do
  let _ ← Run.attempt c.build
  log
  next c

/-- Builds the statement, whatever comes of it, and fails without logging. -/
def stopping (e : Error) : Middleware := fun _ c => do
  let _ ← Run.attempt c.build
  Run.fail e

/-- A log that does not fail, and that shows in nothing but what is noted. -/
structure OnlyLogs (log : Query → Run Unit) : Prop where
  succeeds : ∀ q b, (log q b).1 = .ok ()
  alike : ∀ q b, Alike b b (log q b).2

/-- Such a log is discreet. -/
theorem OnlyLogs.discreet {log : Query → Run Unit} (hlog : OnlyLogs log) (q : Query) :
    (log q).Discreet where
  aside b := ⟨(hlog.alike q b).right, (hlog.alike q b).scripts, (hlog.alike q b).transactions,
    (hlog.alike q b).marks⟩
  alike o b b' h := by
    rw [hlog.succeeds, hlog.succeeds]
    exact ⟨rfl, (((hlog.alike q b).since h.left).symm.trans h).trans
      ((hlog.alike q b').since h.right)⟩

theorem onlyLogs_noted : OnlyLogs fun q => Run.note (.logged q) :=
  ⟨fun _ _ => rfl, fun _ => .note rfl⟩

theorem onlyLogs_unnoted : OnlyLogs fun _ => pure () :=
  ⟨fun _ _ => rfl, fun _ b => .refl (.refl b)⟩

variable {log : Query → Run Unit} {next : Handler} {c : Context} {o b : Backend} {q : Query}
  {e : Error}

/-- A query log whose statement is built logs it once. -/
theorem queryLog_of_ok (h : (c.build b).1 = .ok q) :
    queryLog log next c b = logging (log q) next c b :=
  Run.bind_of_ok (Prod.ext h rfl) _

/-- To build the statement and to log does not show. -/
theorem OnlyLogs.logging_apply (hlog : OnlyLogs log) (q : Query) (next : Handler) (c : Context)
    (b : Backend) : ∃ b', Alike b b b' ∧ logging (log q) next c b = next c b' := by
  have hbuilt : Alike b b (c.build b).2 := .takeAll _ b
  have hlogged := hlog.alike q (c.build b).2
  refine ⟨_, hbuilt.trans (hlogged.since hbuilt.right), ?_⟩
  exact Run.bind_of_ok (Prod.ext (hlog.succeeds q (c.build b).2) rfl) _

/-- A query log whose statement cannot be built stops. -/
theorem queryLog_of_error (h : (c.build b).1 = .error e) :
    queryLog log next c b = stopping e next c b :=
  Run.bind_of_error (Prod.ext h rfl) _

end Middleware

/-- A run that fails with an error and does nothing else that shows, in all states that have grown
from a given one. -/
def Run.GivesUp (o : Backend) (e : Error) (x : Run α) : Prop :=
  ∀ b, o.Grows b → (x b).1 = .error e ∧ Alike b b (x b).2

/-- A middleware that hands the error of a statement which cannot be built on, and does nothing else
that shows. -/
def Middleware.HandsOn (m : Middleware) : Prop :=
  ∀ (o : Backend) (c : Context) (e : Error) (next : Handler), c.Steady →
    (c.build o).1 = .error e → (next c).GivesUp o e → (m next c).GivesUp o e

namespace Run.GivesUp

variable {o : Backend} {e : Error}

/-- After a step that succeeds and does not show, a run gives up as what follows does. -/
theorem bind {x : Run β} {f : β → Run α} (h : ∀ b, o.Grows b → ∃ a,
    (x b).1 = .ok a ∧ Alike b b (x b).2 ∧ (f a).GivesUp o e) : (x >>= f).GivesUp o e := by
  intro b hb
  obtain ⟨a, hok, halike, hf⟩ := h b hb
  obtain ⟨herror, hrest⟩ := hf _ (hb.trans halike.right)
  rw [bind_of_ok (Prod.ext hok rfl)]
  exact ⟨herror, halike.trans (hrest.since halike.right)⟩

theorem fail : (Run.fail e : Run α).GivesUp o e := fun b _ => ⟨rfl, .refl (.refl b)⟩

end Run.GivesUp

namespace Middleware

/-- A query log fails with the error of the statement, before it calls anything. -/
theorem handsOn_queryLog (log : Query → Run Unit) : (queryLog log).HandsOn := by
  intro o c e next hc hbuild _ b hb
  rw [queryLog_of_error ((hc.build_eq hb).trans hbuild)]
  exact ⟨rfl, .takeAll _ b⟩

theorem handsOn_prebuild : prebuild.HandsOn := fun _ _ _ _ _ _ hnext =>
  .bind fun b _ => ⟨_, rfl, .takeAll _ b, .bind fun b _ => ⟨(), rfl, .note rfl b, hnext⟩⟩

theorem handsOn_twice : twice.HandsOn := fun _ _ _ _ _ _ hnext =>
  .bind fun b hb => ⟨_, rfl, (hnext b hb).2, hnext⟩

/-- What it notes beforehand and afterwards does not show, and it gives the result that it noted. -/
theorem handsOn_record (name : String) : (record name).HandsOn := by
  intro o c e next _ _ hnext
  refine .bind fun b _ => ⟨_, rfl, .refl (.refl b), .bind fun b _ => ⟨(), rfl, .note rfl b, ?_⟩⟩
  refine .bind fun b hb => ⟨.error e, congrArg Except.ok (hnext b hb).1, (hnext b hb).2, ?_⟩
  exact .bind fun b _ => ⟨(), rfl, .note rfl b, .fail⟩

/-- Middlewares that hand an error on do so together. -/
theorem givesUp_chain {o : Backend} {c : Context} {e : Error} (hc : c.Steady)
    (hbuild : (c.build o).1 = .error e) {h : Handler} (hh : (h c).GivesUp o e) :
    ∀ {ms : List Middleware}, (∀ m ∈ ms, m.HandsOn) → (chain ms h c).GivesUp o e
  | [], _ => hh
  | m :: ms, hms => by
    obtain ⟨hm, hms⟩ := List.forall_mem_cons.mp hms
    exact hm o c e (chain ms h) hc hbuild (givesUp_chain hc hbuild hh hms)

end Middleware

namespace Job

/-- The context of a job compiles the statement of the job, and has the model that is registered by
then. -/
theorem context_eq_ok {j : Job} {c : Context} {b b₀ : Backend} (h : j.context b = (.ok c, b₀)) :
    c.compile = j.compile ∧ (b.registry j.session.base).model j.entity = .ok c.model := by
  cases hm : (b.registry j.session.base).model j.entity with
  | error e =>
    have hmodel : j.takeModel b = (.error e, (j.takeModel b).2) :=
      Prod.ext ((Registry.get_eq_model _ _).trans hm) rfl
    rw [context, Run.bind_of_error hmodel] at h
    cases h
  | ok m =>
    obtain ⟨t, b₁, hcontext⟩ := context_of_model hm
    obtain rfl := Except.ok.inj (Prod.mk.inj (hcontext.symm.trans h)).1
    exact ⟨rfl, rfl⟩

namespace Way

open Middleware

variable (w : Way) (j : Job) {b : Backend}

/-- What a run gives is made of what its handlers give. -/
theorem run_eq_through : ∃ f : Except Error Output → Except Error Output, ∀ ms b,
    w.run ms j b = (f (j.through ms (w.terminal j) b).1, (j.through ms (w.terminal j) b).2) := by
  have htaken {γ : Type} (x : Run Output) (g : Output → Except Error γ) (f : γ → Output)
      (b : Backend) : ((x >>= fun o => Run.ofExcept (g o)) >>= fun a => pure (f a)) b =
        (((x b).1 >>= g).map f, (x b).2) := by
    rw [Run.bind_pure_apply, Run.bind_apply]
    rcases x b with ⟨_ | _, _⟩ <;> rfl
  cases w with
  | outcome => exact ⟨fun r => (r >>= Output.toExec).map .exec, fun _ => htaken _ _ _⟩
  | first => exact ⟨fun r => (r >>= Output.toOne j.entity).map (.one j.entity), fun _ =>
      htaken _ _ _⟩
  | all => exact ⟨fun r => (r >>= Output.toMany j.entity).map (.many j.entity), fun _ =>
      htaken _ _ _⟩

/-- Runs of a job whose middlewares are related are related. -/
theorem run_related {S : Backend → Backend → Prop} {ms ms' : List Middleware}
    (hstart : ∀ b₀, b.Aside [] b₀ → S b₀ b₀)
    (hchain : ∀ c : Context, c.compile = j.compile →
      Run.Related S (chain ms (w.terminal j) c) (chain ms' (w.terminal j) c)) :
    (w.run (fun _ => ms') j b).1 = (w.run (fun _ => ms) j b).1 ∧
      S (w.run (fun _ => ms) j b).2 (w.run (fun _ => ms') j b).2 := by
  obtain ⟨f, hf⟩ := run_eq_through w j
  have hcontext := hstart _ (j.aside_context b)
  rw [hf, hf, through, through]
  rcases h : j.context b with ⟨e | c, b₀⟩ <;> rw [h] at hcontext
  · rw [Run.bind_of_error h, Run.bind_of_error h]
    exact ⟨rfl, hcontext⟩
  · rw [Run.bind_of_ok h, Run.bind_of_ok h]
    obtain ⟨hresult, hstate⟩ := hchain c (context_eq_ok h).1 b₀ b₀ hcontext
    exact ⟨congrArg f hresult, hstate⟩

/-- The requests for the query that a job is built to in a state, if it can be built. -/
def requests (b : Backend) (answers : List Bool) : List Mark :=
  match (j.build b).1 with
  | .error _ => []
  | .ok q => answers.map (.sends j.session (w.purpose.request q))

variable {w j}

/-- More answers to the same query are more requests for it. -/
theorem requests_append (answers answers' : List Bool) :
    w.requests j b (answers ++ answers') = w.requests j b answers ++ w.requests j b answers' := by
  rw [requests, requests, requests]
  cases (j.build b).1 with
  | error e => rfl
  | ok q => exact List.map_append

/-- What the innermost handler sends is its query, once or not at all. -/
theorem sent_eq_requests (b₁ : Backend) (t : CancelToken) :
    ∃ answers, w.sent j b t b₁ = w.requests j b answers := by
  rw [sent]
  simp only [requests]
  cases (j.build b).1 with
  | error e => exact ⟨[], rfl⟩
  | ok q =>
    dsimp only
    split
    · exact ⟨[_], rfl⟩
    · exact ⟨[], rfl⟩

/-- A run from one state to another in which nothing is sent but requests for the query of a job. -/
def SendsOnly (w : Way) (j : Job) (b b' : Backend) : Prop :=
  b.Grows b' ∧ ∃ answers, b'.marks [] = b.marks [] ++ w.requests j b answers

/-- What is aside from the sessions sends nothing more. -/
theorem SendsOnly.aside {b' b'' : Backend} (h : w.SendsOnly j b b') (haside : b'.Aside [] b'') :
    w.SendsOnly j b b'' := by
  obtain ⟨hgrows, answers, hmarks⟩ := h
  exact ⟨hgrows.trans haside.grows, answers, by rw [haside.marks, hmarks]⟩

/-- Nothing is sent for the query, if nothing is sent. -/
theorem SendsOnly.refl (w : Way) (j : Job) (b : Backend) : w.SendsOnly j b b := by
  refine ⟨.refl b, [], ?_⟩
  rw [requests]
  cases (j.build b).1 <;> simp

/-- The innermost handler sends the query that was built at first, since registries that have grown
give the same. -/
theorem sendsOnly_terminal {c : Context} (hc : c.compile = j.compile) (b : Backend) :
    Run.Related (Same (w.SendsOnly j b)) (w.terminal j c) (w.terminal j c) := by
  rintro _ b₁ ⟨rfl, hgrows, answers, hmarks⟩
  obtain ⟨kind, _, m, t⟩ := c
  obtain rfl := hc
  obtain ⟨answers', hsent⟩ := sent_eq_requests (w := w) (j := j) (b := b₁) b₁ t
  have hbuild : w.requests j b₁ = w.requests j b := by
    funext answers
    rw [requests, build_of_grows hgrows, requests]
  refine ⟨rfl, rfl, (related_terminal w j (steady_context j rfl) b b₁ b₁ (.refl hgrows)).2.left,
    answers ++ answers', ?_⟩
  rw [marks_terminal (.refl b₁), hsent, hbuild, hmarks, requests_append, List.append_assoc]

/-- A discreet step sends nothing. -/
theorem related_own (b : Backend) {γ : Type} {x : Run γ} (hx : x.Discreet) :
    Run.Related (Same (w.SendsOnly j b)) x x := hx.same fun _ _ haside h => h.aside haside

/-- So does a chain of discreet middlewares around it, as often as they call it. -/
theorem sendsOnly_chain {c : Context} (hc : c.compile = j.compile) (b : Backend)
    {ms : List Middleware} (hms : ∀ m ∈ ms, m.Discreet) :
    Run.Related (Same (w.SendsOnly j b)) (chain ms (w.terminal j) c) (chain ms (w.terminal j) c) :=
  related_chain (related_own b) (j.steady_context hc) (sendsOnly_terminal hc b) hms

/-- Through discreet middlewares, a job sends its query and nothing else. -/
theorem sendsOnly_run {ms : List Middleware} (hms : ∀ m ∈ ms, m.Discreet) :
    w.SendsOnly j b (w.run (fun _ => ms) j b).2 :=
  (run_related w j (fun _ haside => ⟨rfl, (SendsOnly.refl w j b).aside haside⟩)
    fun _ hc => sendsOnly_chain hc b hms).2.2

section

variable {outer inner : List Middleware} (houter : ∀ m ∈ outer, m.Discreet)
include houter

/-- Inside of discreet middlewares, handlers that do not tell alike states apart may be put in each
other's place. -/
theorem alike_run {ms ms' : List Middleware} (h : ∀ c : Context, c.compile = j.compile →
      Run.Related (Alike b) (chain ms (w.terminal j) c) (chain ms' (w.terminal j) c)) :
    (w.run (fun _ => outer ++ ms') j b).1 = (w.run (fun _ => outer ++ ms) j b).1 ∧
      Alike b (w.run (fun _ => outer ++ ms) j b).2 (w.run (fun _ => outer ++ ms') j b).2 := by
  refine run_related w j (fun _ haside => .refl haside.grows) fun c hc => ?_
  rw [chain_append, chain_append]
  exact related_chain (·.alike b) (j.steady_context hc) (h c hc) houter

/-- A middleware may be put in the place of another that does the same in all states that the run
can reach. -/
theorem run_replaced {m m' : Middleware} (hms : ∀ m' ∈ m :: inner, m'.Discreet)
    (h : ∀ next c b₁, c.compile = j.compile → b.Grows b₁ → m next c b₁ = m' next c b₁) :
    w.run (fun _ => outer ++ m :: inner) j b = w.run (fun _ => outer ++ m' :: inner) j b := by
  have hrelated (c : Context) (hc : c.compile = j.compile) :
      Run.Related (Same (w.SendsOnly j b)) (chain (outer ++ m :: inner) (w.terminal j) c)
        (chain (outer ++ m' :: inner) (w.terminal j) c) := by
    rw [chain_append, chain_append]
    refine related_chain (related_own b) (j.steady_context hc) ?_ houter
    rintro _ b₁ ⟨rfl, hb₁⟩
    have heq : chain (m :: inner) (w.terminal j) c b₁ = chain (m' :: inner) (w.terminal j) c b₁ :=
      h _ c b₁ hc hb₁.1
    rw [← heq]
    exact sendsOnly_chain hc b hms b₁ b₁ ⟨rfl, hb₁⟩
  obtain ⟨hresult, hstate, -⟩ := run_related w j
    (fun _ haside => ⟨rfl, (SendsOnly.refl w j b).aside haside⟩) hrelated
  exact Prod.ext hresult.symm hstate.symm

variable {log : Query → Run Unit} {q : Query} {e : Error}

/-- A query log whose statement can be built does not show. -/
theorem alike_queryLog (hlog : OnlyLogs log) (hinner : ∀ m ∈ inner, m.Discreet)
    (hq : (j.build b).1 = .ok q) :
    (w.run (fun _ => outer ++ queryLog log :: inner) j b).1 =
        (w.run (fun _ => outer ++ inner) j b).1 ∧
      Alike b (w.run (fun _ => outer ++ inner) j b).2
        (w.run (fun _ => outer ++ queryLog log :: inner) j b).2 := by
  refine alike_run houter fun c hc b₁ b₁' h => ?_
  have hsteady := j.steady_context hc
  have hbuild : (c.build b₁').1 = .ok q := by
    rw [hsteady.build_eq h.right, Context.build, hc]
    exact hq
  obtain ⟨b₂, halike, hlogging⟩ := hlog.logging_apply q (chain inner (w.terminal j)) c b₁'
  have hquery : chain (queryLog log :: inner) (w.terminal j) c b₁' =
      chain inner (w.terminal j) c b₂ := (queryLog_of_ok hbuild).trans hlogging
  rw [hquery]
  exact related_chain (·.alike b) hsteady (related_terminal w j hsteady b) hinner b₁ b₂
    (h.trans (halike.since h.right))

/-- Nor does it show if the statement cannot be built and all inside of it hand the error on. -/
theorem alike_queryLog_of_error (hinner : ∀ m ∈ inner, m.HandsOn)
    (he : (j.build b).1 = .error e) :
    (w.run (fun _ => outer ++ queryLog log :: inner) j b).1 =
        (w.run (fun _ => outer ++ inner) j b).1 ∧
      Alike b (w.run (fun _ => outer ++ inner) j b).2
        (w.run (fun _ => outer ++ queryLog log :: inner) j b).2 := by
  refine alike_run houter fun c hc b₁ b₁' h => ?_
  have hsteady := j.steady_context hc
  have hbuild : (c.build b).1 = .error e := by
    rw [Context.build, hc]
    exact he
  -- the innermost handler fails on the same build, so both runs come back with the same error
  have hterminal : (w.terminal j c).GivesUp b e := by
    intro b₂ hb₂
    rw [terminal_eq_error (Prod.ext ((hsteady.build_eq hb₂).trans hbuild) rfl)]
    exact ⟨rfl, .takeAll _ b₂⟩
  obtain ⟨hplain, hplainAlike⟩ := givesUp_chain hsteady hbuild hterminal hinner b₁ h.left
  obtain ⟨hlogged, hloggedAlike⟩ :=
    handsOn_queryLog log b c e _ hsteady hbuild (givesUp_chain hsteady hbuild hterminal hinner)
      b₁' h.right
  exact ⟨hlogged.trans hplain.symm,
    ((hplainAlike.since h.left).symm.trans h).trans (hloggedAlike.since h.right)⟩

end

/-- A query log is transparent for statements that can be built, and logs what runs. The middlewares
around it may be any that pass their context on unchanged and are discreet in what they do besides.

If the statement can be built, the run has the result that it has without the query log, and the
states after the two are alike, so the same was sent; each time the query log is entered it logs the
query of the statement, once, and that is the query of all that is sent. If it cannot be built, the
query log never logs and gives the error of that, and nothing is sent, with or without it. The
result is then the same as well if the middlewares inside of the query log hand the error on and do
nothing else that shows. -/
theorem run_logged (w : Way) (j : Job) (b : Backend) {outer inner : List Middleware}
    {log : Query → Run Unit} (houter : ∀ m ∈ outer, m.Discreet) (hinner : ∀ m ∈ inner, m.Discreet)
    (hlog : OnlyLogs log) :
    let plain := w.run (fun _ => outer ++ inner) j b
    let logged := w.run (fun _ => outer ++ queryLog log :: inner) j b
    (∀ q, (j.build b).1 = .ok q →
      logged.1 = plain.1 ∧ Alike b plain.2 logged.2 ∧
      logged = w.run (fun _ => outer ++ logging (log q) :: inner) j b ∧
      ∃ answers : List Bool, logged.2.marks [] =
        b.marks [] ++ answers.map (.sends j.session (w.purpose.request q))) ∧
    ∀ e, (j.build b).1 = .error e →
      logged = w.run (fun _ => outer ++ stopping e :: inner) j b ∧
      logged.2.marks [] = b.marks [] ∧ plain.2.marks [] = b.marks [] ∧
      ((∀ m ∈ inner, m.HandsOn) → logged.1 = plain.1 ∧ Alike b plain.2 logged.2) := by
  intro plain logged
  have hms : ∀ m ∈ queryLog log :: inner, m.Discreet :=
    List.forall_mem_cons.mpr ⟨discreet_queryLog hlog.discreet, hinner⟩
  have hsends : w.SendsOnly j b logged.2 := sendsOnly_run fun m hm =>
    (List.mem_append.mp hm).elim (houter m) (hms m)
  have hplain : w.SendsOnly j b plain.2 := sendsOnly_run fun m hm =>
    (List.mem_append.mp hm).elim (houter m) (hinner m)
  -- the log builds the statement again, in a state that only grew, and gets what the job gets
  have hbuild {c : Context} {b₁ : Backend} (hc : c.compile = j.compile) (hb₁ : b.Grows b₁) :
      (c.build b₁).1 = (j.build b).1 := by
    rw [Context.build, hc]
    exact build_of_grows hb₁ j
  refine ⟨fun q hq => ?_, fun e he => ?_⟩
  · obtain ⟨hresult, halike⟩ := alike_queryLog (w := w) houter hlog hinner hq
    obtain ⟨-, answers, hmarks⟩ := hsends
    rw [requests, hq] at hmarks
    exact ⟨hresult, halike, run_replaced houter hms fun _ _ _ hc hb₁ =>
      queryLog_of_ok ((hbuild hc hb₁).trans hq), answers, hmarks⟩
  · obtain ⟨-, _, hmarks⟩ := hsends
    obtain ⟨-, _, hplainMarks⟩ := hplain
    rw [requests, he, List.append_nil] at hmarks hplainMarks
    exact ⟨run_replaced houter hms fun _ _ _ hc hb₁ =>
      queryLog_of_error ((hbuild hc hb₁).trans he), hmarks, hplainMarks,
      fun hhands => alike_queryLog_of_error houter hhands he⟩

/-- A statement that is run twice is logged and sent twice. -/
theorem run_logged_vacuum :
    (outcome.run (fun _ => [twice, noted, record "audit"]) vacuum plain).1 =
        .ok (.exec .single) ∧
      (outcome.run (fun _ => [twice, noted, record "audit"]) vacuum plain).2.marks [] =
        List.replicate 2 (.sends (.database "db") (.exec ⟨"VACUUM", []⟩) true) := by
  have houter : ∀ m ∈ [twice], m.Discreet := List.forall_mem_singleton.mpr discreet_twice
  have hinner : ∀ m ∈ [record "audit"], m.Discreet :=
    List.forall_mem_singleton.mpr (discreet_record "audit")
  obtain ⟨hbuilt, -⟩ := run_logged .outcome vacuum plain houter hinner onlyLogs_noted
  obtain ⟨hresult, halike, -, -⟩ := hbuilt ⟨"VACUUM", []⟩ rfl
  exact ⟨hresult, halike.marks⟩

/-- An update that assigns nothing. -/
def idle : Job :=
  { statement := .update (.of "db" account)
    directory := []
    cancel := none }

/-- A middleware that answers after a failure gets to see one that a query log outside of it does
not let through. -/
theorem recovered_unless_logged : let m := recover (.ok (.exec .single))
    m.Discreet ∧ (outcome.run (fun _ => [m]) idle plain).1 = .ok (.exec .single) ∧
      (outcome.run (fun _ => [noted, m]) idle plain).1 = .error .nothingToUpdate :=
  ⟨discreet_recover _, rfl, rfl⟩

end Way

end Job

end RowMapper
