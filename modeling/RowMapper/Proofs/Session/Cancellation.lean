import RowMapper.Proofs.Session.Nesting
import RowMapper.Proofs.Sql.Leaves

/-!
# Cancelled runs

Once its statement is built, a run is a dialogue with its session: it asks for the statement to be
run, then for one row after the other, and what it asks next depends on the answers (`Dialogue`).
Each question is asked only if the token of the run is not cancelled by then. An answer may cancel
the token, so it can become cancelled before any question.

`Dialogue.moments` are the questions of a dialogue that nothing interrupts, each with the state in
which it is asked. A cancelled token cuts this list: the dialogue ends at the first moment at which
the token is cancelled, in the state of that moment and with that error, whatever the answers were
(`Dialogue.run_of_cancelled`); without such a moment nothing is cut (`Dialogue.run_of_uncancelled`).
`Job.Way.terminal_cancelled` says this of the innermost handler, wherever middlewares call it, and
`Job.Way.run_cancelled` of a whole run without middlewares, compared to the run of the same job with
a token of its own. An answer that never comes is no part of it: to wait for it ends with the error
of the answer.
-/

namespace RowMapper

variable {α β : Type}

/-! ## Dialogues -/

/-- What a run asks its session for: to run a statement, to give a row, or to find that there is no
further one. -/
inductive Question where
  | statement (p : Purpose) (q : Query)
  | row (reply : Reply (List Value))
  | noMore

namespace Question

/-- What the answer to a question is. -/
def Answer : Question → Type
  | statement p _ => p.Answer
  | row _ => List Value
  | noMore => Unit

/-- Asks a question. -/
def ask (s : Session) : (k : Question) → Run k.Answer
  | statement p q => s.deliver p s (p.request q)
  | row reply => s.read reply
  | noMore => s.readEnd

/-- What a question leaves in the log: the request that was sent, unless a transaction on the way
has ended, or that rows were read. -/
def events (s : Session) (b : Backend) : Question → List Event
  | statement p q =>
    if s.isOpen b then [.sent s (p.request q) (s.deliver p s (p.request q) b).1.isOk] else []
  | row _ | noMore => [.read s]

/-- Whether a question asks for rows that are there already. -/
def reads : Question → Bool
  | statement _ _ => false
  | row _ | noMore => true

end Question

/-- What a run asks its session, with what it makes of the answers. -/
inductive Dialogue (α : Type) where
  | finish (r : Except Error α)
  | asks (k : Question) (rest : k.Answer → Dialogue α)

/-- A question and the state in which it is asked. -/
structure Moment where
  question : Question
  before : Backend

/-- What the question of a moment leaves in the log. -/
def Moment.events (s : Session) (m : Moment) : List Event := m.question.events s m.before

namespace Dialogue

variable (s : Session) (t : CancelToken)

/-- The dialogue with something made of its result. -/
def map (f : α → β) : Dialogue α → Dialogue β
  | finish r => finish (r.map f)
  | asks k rest => asks k fun a => (rest a).map f

/-- Asks the questions of a dialogue, each only if a token is not cancelled. -/
def run : Dialogue α → Run α
  | finish r => Run.ofExcept r
  | asks k rest => do
    let a ← Run.unlessCancelled t (k.ask s)
    (rest a).run

/-- Asks the questions of a dialogue without looking at a token. -/
def uninterrupted : Dialogue α → Run α
  | finish r => Run.ofExcept r
  | asks k rest => do
    let a ← k.ask s
    (rest a).uninterrupted

/-- The questions of a dialogue that nothing interrupts. -/
def moments : Dialogue α → Backend → List Moment
  | finish _, _ => []
  | asks k rest, b => ⟨k, b⟩ :: match k.ask s b with
    | (.ok a, b) => (rest a).moments b
    | (.error _, _) => []

/-- Every question of a dialogue is of some kind, whatever the answers are. -/
def AsksOnly (P : Question → Prop) : Dialogue α → Prop
  | finish _ => True
  | asks k rest => P k ∧ ∀ a, (rest a).AsksOnly P

variable {s t} {b : Backend}

/-- What is made of the result does not change what is asked. -/
theorem AsksOnly.map {P : Question → Prop} (f : α → β) : ∀ {d : Dialogue α},
    d.AsksOnly P → (d.map f).AsksOnly P
  | finish _, _ => trivial
  | asks _ _, h => ⟨h.1, fun a => (h.2 a).map f⟩

theorem run_map (f : α → β) : ∀ (d : Dialogue α) (b : Backend),
    (d.map f).run s t b = (((d.run s t b).1.map f), (d.run s t b).2)
  | finish _, _ => rfl
  | asks k rest, b => by
    rw [map, run, run]
    rcases hk : Run.unlessCancelled t (k.ask s) b with ⟨e | a, b'⟩
    · rw [Run.bind_of_error hk, Run.bind_of_error hk]
      rfl
    · rw [Run.bind_of_ok hk, Run.bind_of_ok hk]
      exact run_map f (rest a) b'

/-- A dialogue goes on after an answer, and not after a failure. -/
theorem moments_asks (k : Question) (rest : k.Answer → Dialogue α) (b : Backend) :
    (∃ a b', k.ask s b = (.ok a, b') ∧
      (asks k rest).moments s b = ⟨k, b⟩ :: (rest a).moments s b') ∨
    ∃ e b', k.ask s b = (.error e, b') ∧ (asks k rest).moments s b = [⟨k, b⟩] := by
  rcases h : k.ask s b with ⟨e | a, b'⟩
  · exact .inr ⟨e, b', rfl, by rw [moments, h]⟩
  · exact .inl ⟨a, b', rfl, by rw [moments, h]⟩

/-- What a dialogue comes to ask is among what it may ask. -/
theorem AsksOnly.moments {P : Question → Prop} : ∀ {d : Dialogue α} {b : Backend},
    d.AsksOnly P → ∀ m ∈ d.moments s b, P m.question
  | finish _, _, _ => nofun
  | asks k rest, b, h => by
    rcases moments_asks (s := s) k rest b with ⟨a, b', -, hmoments⟩ | ⟨e, b', -, hmoments⟩ <;>
      rw [hmoments, List.forall_mem_cons]
    · exact ⟨h.1, (h.2 a).moments⟩
    · exact ⟨h.1, nofun⟩

/-- The first question of a dialogue is asked in its first state. -/
theorem moments_head {d : Dialogue α} {m : Moment} {later : List Moment}
    (h : d.moments s b = m :: later) : m.before = b := by
  cases d with
  | finish r => simp [moments] at h
  | asks k rest =>
    rw [moments] at h
    exact congrArg Moment.before (List.cons.inj h).1.symm

/-- Where the token is not cancelled at any moment, it is as if there were none. -/
theorem run_of_uncancelled : ∀ {d : Dialogue α} {b : Backend},
    (∀ m ∈ d.moments s b, m.before.isCancelled t = false) →
      d.run s t b = d.uninterrupted s b
  | finish _, _, _ => rfl
  | asks k rest, b, h => by
    rw [run, uninterrupted, Run.bind_apply, Run.bind_apply]
    rcases moments_asks (s := s) k rest b with ⟨a, b', hask, hmoments⟩ | ⟨e, b', hask, hmoments⟩ <;>
      rw [hmoments, List.forall_mem_cons] at h <;>
      rw [Run.unlessCancelled, if_neg (by rw [h.1]; decide), hask]
    exact run_of_uncancelled h.2

/-- At the first moment at which the token is cancelled, the dialogue ends: the questions before it
were asked and answered, and the result is the error of cancellation. -/
theorem run_of_cancelled : ∀ {d : Dialogue α} {b : Backend} {earlier later : List Moment}
    {m : Moment}, d.moments s b = earlier ++ m :: later →
      (∀ m' ∈ earlier, m'.before.isCancelled t = false) → m.before.isCancelled t = true →
      d.run s t b = (.error .cancelled, m.before)
  | finish _, _, earlier, _, _, hsplit, _, _ => by simp [moments] at hsplit
  | asks k rest, b, [], _, m, hsplit, _, hm => by
    rw [moments_head hsplit] at hm ⊢
    rw [run, Run.bind_of_error (if_pos hm)]
  | asks k rest, b, m' :: earlier, later, m, hsplit, hearlier, hm => by
    obtain ⟨hm', hearlier⟩ := List.forall_mem_cons.mp hearlier
    rw [moments_head hsplit] at hm'
    rw [run, Run.bind_apply, Run.unlessCancelled, if_neg (by rw [hm']; decide)]
    rcases moments_asks (s := s) k rest b with ⟨a, b', hask, hmoments⟩ | ⟨e, b', -, hmoments⟩
    · rw [hmoments] at hsplit
      rw [hask]
      exact run_of_cancelled (List.cons.inj hsplit).2 hearlier hm
    · -- a question that fails is the last one
      simp [hmoments] at hsplit

/-- Each question but the last one is answered, and the next one is asked in the state after it. -/
theorem moments_consecutive : ∀ {d : Dialogue α} {b : Backend} {earlier later : List Moment}
    {m m' : Moment}, d.moments s b = earlier ++ m :: m' :: later →
      ∃ a, m.question.ask s m.before = (.ok a, m'.before)
  | finish _, _, _, _, _, _, h => by simp [moments] at h
  | asks k rest, b, earlier, later, m, m', h => by
    rcases moments_asks (s := s) k rest b with ⟨a, b', hask, hmoments⟩ | ⟨e, b', -, hmoments⟩ <;>
      rw [hmoments] at h
    · cases earlier with
      | nil =>
        obtain ⟨rfl, hrest⟩ := List.cons.inj h
        exact ⟨a, moments_head hrest ▸ hask⟩
      | cons _ earlier => exact moments_consecutive (List.cons.inj h).2
    · cases earlier <;> simp at h

end Dialogue

/-! ## Questions -/

namespace Backend

/-- From one state to another, the settings stay as they are and no token of a single run is
cancelled. -/
structure Keeps (b b' : Backend) : Prop where
  settings : b'.settings = b.settings
  own : ∀ n, b'.isCancelled (.own n) = b.isCancelled (.own n)

theorem Keeps.trans {b b' b'' : Backend} (h : b.Keeps b') (h' : b'.Keeps b'') : b.Keeps b'' :=
  ⟨h'.settings.trans h.settings, fun n => (h'.own n).trans (h.own n)⟩

/-- Giving an answer cancels tokens with names only. -/
theorem keeps_cancelFor (b : Backend) (token? : Option String) : b.Keeps (b.cancelFor token?) := by
  cases token? with
  | none => exact ⟨rfl, fun _ => rfl⟩
  | some name => exact ⟨rfl, fun n => by simp [cancelFor, cancel, isCancelled]⟩

/-- The state with another number of tokens of single runs. -/
def renumbered (n : ℕ) (b : Backend) : Backend := { b with tokens := n }

/-- Cancelling a token does not depend on how tokens are numbered. -/
theorem renumbered_cancelFor (n : ℕ) (b : Backend) (token? : Option String) :
    (b.renumbered n).cancelFor token? = (b.cancelFor token?).renumbered n := by
  cases token? <;> rfl

end Backend

/-- A run that does the same whatever the number of tokens is. -/
def Run.Unnumbered (x : Run α) : Prop :=
  ∀ (n : ℕ) (b : Backend), x (b.renumbered n) = ((x b).1, (x b).2.renumbered n)

/-- Building a statement does not depend on the number of tokens. -/
theorem Run.unnumbered_build (compile : Cores → Compiled Query) : (build compile).Unnumbered := by
  have htaken : ∀ (n : ℕ) (es : List (String × EntityType)) (b : Backend),
      es.foldl Backend.takeIn (b.renumbered n) = (es.foldl Backend.takeIn b).renumbered n := by
    intro n es
    induction es with
    | nil => exact fun _ => rfl
    | cons e es ih => exact fun b => ih (b.takeIn e)
  exact fun n b => congrArg (Prod.mk _) (htaken n (compile b.cores).consulted b)

namespace Session

variable (p : Purpose) (sender : Session) (r : Request)

/-- Asking a session keeps the settings, and the tokens that are made for single runs. -/
theorem keeps_deliver : ∀ (s : Session) (b : Backend), b.Keeps (s.deliver p sender r b).2
  | database name, b => by
    simp only [deliver, Backend.ask]
    exact ⟨(Backend.keeps_cancelFor _ _).settings, (Backend.keeps_cancelFor _ _).own⟩
  | transaction id inner, b => by
    rw [deliver, Transaction.ensureActive_bind]
    split
    · exact ⟨rfl, fun _ => rfl⟩
    · exact (keeps_deliver inner b).trans ⟨rfl, fun _ => rfl⟩

/-- What a session is asked does not depend on how tokens are numbered. -/
theorem unnumbered_deliver : ∀ s : Session, (s.deliver p sender r).Unnumbered
  | database name, n, b => by
    exact congrArg (Prod.mk _) (Backend.renumbered_cancelFor n
      ((b.setScript name (p.reply (b.scripts name) r.sent.sql).2).note
        (.sent sender r (p.reply (b.scripts name) r.sent.sql).1.accepted)) _)
  | transaction id inner, n, b => by
    have hfinished : Transaction.isFinished ⟨id, inner⟩ (b.renumbered n) =
        Transaction.isFinished ⟨id, inner⟩ b := rfl
    rw [deliver, Transaction.ensureActive_bind, Transaction.ensureActive_bind, hfinished]
    split
    · rfl
    · rw [Transaction.sending, unnumbered_deliver inner n b]
      rfl

end Session

namespace Question

variable (s : Session) (k : Question)

theorem keeps_ask (b : Backend) : b.Keeps (k.ask s b).2 := by
  cases k with
  | statement p q => exact Session.keeps_deliver p s _ s b
  | row reply => exact ⟨(Backend.keeps_cancelFor _ _).settings, (Backend.keeps_cancelFor _ _).own⟩
  | noMore => exact ⟨rfl, fun _ => rfl⟩

/-- A question adds its own events to the log, and no others. -/
theorem log_ask (b : Backend) : (k.ask s b).2.log = b.log ++ k.events s b := by
  cases k with
  | statement p q => exact Session.log_deliver p s _ s b
  | row reply => exact Backend.log_cancelFor _ _
  | noMore => rfl

theorem unnumbered_ask : (k.ask s).Unnumbered := by
  cases k with
  | statement p q => exact Session.unnumbered_deliver p s _ s
  | row reply =>
    exact fun n b => congrArg (Prod.mk _) (Backend.renumbered_cancelFor n (b.note (.read s)) _)
  | noMore => exact fun _ _ => rfl

end Question

namespace Dialogue

variable {s : Session} {t : CancelToken} {b : Backend}

/-- What is logged by a moment is what the questions before it left. -/
theorem log_before : ∀ {d : Dialogue α} {b : Backend} {earlier later : List Moment} {m : Moment},
    d.moments s b = earlier ++ m :: later →
      m.before.log = b.log ++ earlier.flatMap (·.events s)
  | _, _, [], _, _, h => by simp [moments_head h]
  | finish _, _, _ :: _, _, _, h => by simp [moments] at h
  | asks k rest, b, m' :: earlier, later, m, h => by
    rcases moments_asks (s := s) k rest b with ⟨a, b', hask, hmoments⟩ | ⟨e, b', -, hmoments⟩ <;>
      rw [hmoments] at h
    · obtain ⟨rfl, hrest⟩ := List.cons.inj h
      have hlog := k.log_ask s b
      rw [hask] at hlog
      rw [log_before hrest, hlog, List.append_assoc]
      rfl
    · simp at h

/-- A dialogue that nobody interrupts logs the events of its questions, in order. -/
theorem log_uninterrupted : ∀ (d : Dialogue α) (b : Backend),
    (d.uninterrupted s b).2.log = b.log ++ (d.moments s b).flatMap (·.events s)
  | finish _, b => (List.append_nil b.log).symm
  | asks k rest, b => by
    have hlog := k.log_ask s b
    rcases moments_asks (s := s) k rest b with ⟨a, b', hask, hmoments⟩ | ⟨e, b', hask, hmoments⟩ <;>
      rw [hask] at hlog <;> rw [hmoments, uninterrupted]
    · rw [Run.bind_of_ok hask, log_uninterrupted (rest a) b', hlog, List.append_assoc]
      rfl
    · rw [Run.bind_of_error hask, hlog]
      simp [Moment.events]

/-- No question of a dialogue cancels the token of a single run. -/
theorem own_uncancelled {n : ℕ} : ∀ {d : Dialogue α} {b : Backend},
    b.isCancelled (.own n) = false → ∀ m ∈ d.moments s b, m.before.isCancelled (.own n) = false
  | finish _, _, _ => by simp [moments]
  | asks k rest, b, h => by
    have hkeeps := (k.keeps_ask s b).own n
    rcases moments_asks (s := s) k rest b with ⟨a, b', hask, hmoments⟩ | ⟨e, b', -, hmoments⟩ <;>
      rw [hmoments, List.forall_mem_cons]
    · rw [hask] at hkeeps
      exact ⟨h, own_uncancelled (hkeeps.trans h)⟩
    · exact ⟨h, nofun⟩

theorem unnumbered_run : ∀ d : Dialogue α, (d.run s t).Unnumbered
  | finish _, _, _ => rfl
  | asks k rest, n, b => by
    have hk : Run.unlessCancelled t (k.ask s) (b.renumbered n) =
        ((Run.unlessCancelled t (k.ask s) b).1,
          (Run.unlessCancelled t (k.ask s) b).2.renumbered n) := by
      have hcancelled : (b.renumbered n).isCancelled t = b.isCancelled t := rfl
      rw [Run.unlessCancelled, hcancelled, k.unnumbered_ask s n b, Run.unlessCancelled]
      split <;> rfl
    rw [run, Run.bind_apply, Run.bind_apply, hk]
    rcases Run.unlessCancelled t (k.ask s) b with ⟨e | a, b'⟩
    · rfl
    · exact unnumbered_run (rest a) n b'

end Dialogue

/-! ## The dialogues of runs -/

namespace Dialogue

/-- Reads rows to the end and binds each to a record. -/
def rows (strategy : Strategy) (m : Model) (T : EntityType) (columns : List String) :
    List (Reply (List Value)) → Dialogue (List T.Record)
  | [] => asks .noMore fun _ => finish (.ok [])
  | row :: rest => asks (.row row) fun values =>
    match Binding.bindRow strategy m T columns values with
    | .ok r => (rows strategy m T columns rest).map (r :: ·)
    | .error e => finish (.error e)

/-- Reads a row and binds it to a record. -/
def firstRow (strategy : Strategy) (m : Model) (T : EntityType) (columns : List String) :
    List (Reply (List Value)) → Dialogue T.Record
  | [] => asks .noMore fun _ => finish (.error .noRows)
  | row :: _ => asks (.row row) fun values =>
    finish (Binding.bindRow strategy m T columns values)

variable {s : Session} {strategy : Strategy} {c : Context} {m : Model} {T : EntityType}
  {columns : List String}

theorem settings_of_ok {k : Question} {t : CancelToken} {a : k.Answer} {b b' : Backend}
    (h : Run.unlessCancelled t (k.ask s) b = (.ok a, b')) : b'.settings = b.settings := by
  have hkeeps : b.Keeps (Run.unlessCancelled t (k.ask s) b).2 :=
    Run.rel_unlessCancelled (fun _ => ⟨rfl, fun _ => rfl⟩) t (k.keeps_ask s) b
  rw [h] at hkeeps
  exact hkeeps.settings

/-- Reading and binding rows is a dialogue with the session. -/
theorem bindAll_eq : ∀ (rest : List (Reply (List Value))) (b : Backend),
    (b.settings s.base).strategy = strategy →
      s.bindAll c T columns rest b = (rows strategy c.model T columns rest).run s c.token b
  | [], _, _ => rfl
  | row :: rest, b, hstrategy => by
    rw [Session.bindAll, rows, run]
    rcases hrow : Run.unlessCancelled c.token (Question.ask s (.row row)) b with ⟨e | values, b'⟩
    · exact (Run.bind_of_error hrow _).trans (Run.bind_of_error hrow _).symm
    · have hsettings := settings_of_ok hrow
      -- the strategy is looked up anew for every row, but nothing that is asked changes it
      have hbound : s.strategy b' = (.ok strategy, b') := by
        rw [← hstrategy, ← hsettings]
        rfl
      refine (Run.bind_of_ok hrow _).trans (.trans ?_ (Run.bind_of_ok hrow _).symm)
      rw [Run.bind_of_ok hbound]
      cases hr : Binding.bindRow strategy c.model T columns values with
      | error e => rfl
      | ok r =>
        have hrest := bindAll_eq rest b' (by rw [hsettings, hstrategy])
        show (s.bindAll c T columns rest >>= fun rs => pure (r :: rs)) b' = _
        rw [Run.bind_pure_apply, hrest, run_map]

/-- Reading and binding the first row is a dialogue with the session. -/
theorem firstRow_eq : ∀ (rest : List (Reply (List Value))) (b : Backend),
    (b.settings s.base).strategy = strategy →
      (match rest with
        | [] => do
          Run.unlessCancelled c.token s.readEnd
          Run.fail .noRows
        | row :: _ => do
          let values ← Run.unlessCancelled c.token (s.read row)
          let strategy ← s.strategy
          Run.ofExcept (Binding.bindRow strategy c.model T columns values)) b =
        (firstRow strategy c.model T columns rest).run s c.token b
  | [], _, _ => rfl
  | row :: rest, b, hstrategy => by
    rw [firstRow, run]
    rcases hrow : Run.unlessCancelled c.token (Question.ask s (.row row)) b with ⟨e | values, b'⟩
    · exact (Run.bind_of_error hrow _).trans (Run.bind_of_error hrow _).symm
    · have hbound : s.strategy b' = (.ok strategy, b') := by
        rw [← hstrategy, ← settings_of_ok hrow]
        rfl
      refine (Run.bind_of_ok hrow _).trans (.trans ?_ (Run.bind_of_ok hrow _).symm)
      exact Run.bind_of_ok hbound _

theorem asksOnly_rows : ∀ rest : List (Reply (List Value)),
    (rows strategy m T columns rest).AsksOnly (·.reads)
  | [] => ⟨rfl, fun _ => trivial⟩
  | row :: rest => by
    refine ⟨rfl, fun values => ?_⟩
    dsimp only
    cases Binding.bindRow strategy m T columns values with
    | error e => trivial
    | ok r => exact (asksOnly_rows rest).map _

theorem asksOnly_firstRow : ∀ rest : List (Reply (List Value)),
    (firstRow strategy m T columns rest).AsksOnly (·.reads)
  | [] | _ :: _ => ⟨rfl, fun _ => trivial⟩

/-- Fetching and then going on is a dialogue that begins with the query. -/
theorem fetch_bind {f : Cursor → Run α} {d : Cursor → Dialogue α} {q : Query} {b b₁ : Backend}
    (hbuild : c.build b = (.ok q, b₁)) (hstrategy : (b₁.settings s.base).strategy = strategy)
    (hrows : ∀ cursor b, (b.settings s.base).strategy = strategy →
      f cursor b = (d cursor).run s c.token b) :
    (s.fetch c >>= f) b = (asks (.statement .rows q) d).run s c.token b₁ := by
  have hfetch : s.fetch c b = Run.unlessCancelled c.token (s.query q) b₁ :=
    Run.bind_of_ok hbuild _
  show _ = (Run.unlessCancelled c.token (Question.ask s (.statement .rows q)) >>=
    fun cursor => (d cursor).run s c.token) b₁
  rcases hquery : Run.unlessCancelled c.token (Question.ask s (.statement .rows q)) b₁ with
    ⟨e | cursor, b'⟩
  · exact (Run.bind_of_error (hfetch.trans hquery) _).trans (Run.bind_of_error hquery _).symm
  · refine (Run.bind_of_ok (hfetch.trans hquery) _).trans (.trans ?_ (Run.bind_of_ok hquery _).symm)
    exact hrows cursor b' (by rw [settings_of_ok hquery, hstrategy])

/-- After its statement has compiled, fetching one record is a dialogue. -/
theorem fetchOne_eq {q : Query} {b b₁ : Backend} (hbuild : c.build b = (.ok q, b₁)) :
    s.fetchOne T c b = (asks (.statement .rows q) fun cursor =>
      firstRow (b₁.settings s.base).strategy c.model T cursor.columns cursor.rows).run
        s c.token b₁ :=
  fetch_bind hbuild rfl fun cursor => firstRow_eq cursor.rows

/-- After its statement has compiled, fetching all records is a dialogue. -/
theorem fetchAll_eq {q : Query} {b b₁ : Backend} (hbuild : c.build b = (.ok q, b₁)) :
    s.fetchAll T c b = (asks (.statement .rows q) fun cursor =>
      rows (b₁.settings s.base).strategy c.model T cursor.columns cursor.rows).run s c.token b₁ :=
  fetch_bind hbuild rfl fun cursor => bindAll_eq cursor.rows

end Dialogue

namespace Job

/-- An output of the innermost handler is taken out of the run, and is made an output again. -/
theorem through_rewrapped {ms : Middlewares} {j : Job} (hms : ms j.session.base = [])
    (x : Context → Run α) {f : α → Output} {g : Output → Except Error α}
    (hg : ∀ a, g (f a) = .ok a) {b : Backend} :
    (((j.through ms fun c => do return f (← x c)) >>= fun o => Run.ofExcept (g o)) >>=
      fun a => pure (f a)) b = (j.context >>= fun c => do return f (← x c)) b := by
  have hthrough (terminal : Handler) : j.through ms terminal = j.context >>= terminal := by
    rw [through, hms]
    rfl
  rw [hthrough, Run.bind_pure_apply, Run.bind_apply]
  rcases hcontext : j.context b with ⟨e | c, b'⟩
  · rw [Run.bind_of_error hcontext]
    rfl
  · rw [Run.bind_of_ok hcontext, Run.bind_pure_apply]
    rcases x c b' with ⟨e | a, b''⟩
    · rfl
    · exact congrArg (fun r => (r.map f, b'')) (hg a)

namespace Way

/-- Runs a job, and makes what it gives an output. -/
def run (ms : Middlewares) (j : Job) : Way → Run Output
  | outcome => do return .exec (← j.exec ms)
  | first => do return .one j.entity (← j.get ms)
  | all => do return .many j.entity (← j.getAll ms)

/-- What a run asks its session once the statement is built. -/
def dialogue (j : Job) (strategy : Strategy) (m : Model) (q : Query) : Way → Dialogue Output
  | outcome => .asks (.statement .outcome q) fun r => .finish (.ok (.exec r))
  | first => .asks (.statement .rows q) fun cursor =>
    (Dialogue.firstRow strategy m j.entity cursor.columns cursor.rows).map (.one j.entity)
  | all => .asks (.statement .rows q) fun cursor =>
    (Dialogue.rows strategy m j.entity cursor.columns cursor.rows).map (.many j.entity)

variable {w : Way} {j : Job} {c : Context} {q : Query} {b b₁ : Backend}

/-- Without middlewares, a run takes its context and runs the innermost handler in it. -/
theorem run_eq {ms : Middlewares} (hms : ms j.session.base = []) :
    w.run ms j b = (j.context >>= w.terminal j) b := by
  cases w with
  | outcome => exact through_rewrapped hms j.session.execute (g := Output.toExec) fun _ => rfl
  | first => exact through_rewrapped hms (j.session.fetchOne j.entity) fun _ => dif_pos rfl
  | all => exact through_rewrapped hms (j.session.fetchAll j.entity) fun _ => dif_pos rfl

/-- Once its statement is built, the innermost handler is a dialogue. -/
theorem terminal_eq (w : Way) (hbuild : c.build b = (.ok q, b₁)) : w.terminal j c b =
    (w.dialogue j (b₁.settings j.session.base).strategy c.model q).run j.session c.token b₁ := by
  cases w with
  | outcome =>
    refine (Run.bind_pure_apply _ _ b).trans ?_
    rw [Session.execute, Run.bind_of_ok hbuild]
    exact (Run.bind_pure_apply _ _ b₁).symm
  | first =>
    refine (Run.bind_pure_apply _ _ b).trans ?_
    rw [Dialogue.fetchOne_eq hbuild]
    exact (Dialogue.run_map ..).symm
  | all =>
    refine (Run.bind_pure_apply _ _ b).trans ?_
    rw [Dialogue.fetchAll_eq hbuild]
    exact (Dialogue.run_map ..).symm

/-- If the statement cannot be built, the innermost handler fails with that and asks for nothing. -/
theorem terminal_eq_error {e : Error} (hbuild : c.build b = (.error e, b₁)) :
    w.terminal j c b = (.error e, b₁) := by
  have hfetch : j.session.fetch c b = (.error e, b₁) := Run.bind_of_error hbuild _
  cases w with
  | outcome => exact Run.bind_of_error (Run.bind_of_error hbuild _) _
  | first | all => exact Run.bind_of_error (Run.bind_of_error hfetch _) _

/-- Wherever the innermost handler is called, in whatever context, it ends at the first moment at
which the token of the context is cancelled, and nowhere else. -/
theorem terminal_cancelled (w : Way) (hbuild : c.build b = (.ok q, b₁)) :
    let d := w.dialogue j (b₁.settings j.session.base).strategy c.model q
    (∀ earlier m later, d.moments j.session b₁ = earlier ++ m :: later →
      (∀ m' ∈ earlier, m'.before.isCancelled c.token = false) →
      m.before.isCancelled c.token = true → w.terminal j c b = (.error .cancelled, m.before)) ∧
    ((∀ m ∈ d.moments j.session b₁, m.before.isCancelled c.token = false) →
      w.terminal j c b = d.uninterrupted j.session b₁) := by
  rw [terminal_eq w hbuild]
  exact ⟨fun _ _ _ hsplit hearlier hm => Dialogue.run_of_cancelled hsplit hearlier hm,
    Dialogue.run_of_uncancelled⟩

/-- What a run asks its session, and the state in which it begins to: after the model was taken and
the statement was built. Where either fails there is nothing to ask. -/
def talk (w : Way) (j : Job) (b : Backend) : Dialogue Output × Backend :=
  match j.takeModel b with
  | (.error e, b) => (.finish (.error e), b)
  | (.ok m, b) => match j.build b with
    | (.error e, b) => (.finish (.error e), b)
    | (.ok q, b) => (w.dialogue j (b.settings j.session.base).strategy m q, b)

/-- The questions that a run asks its session if nothing cancels it. -/
def moments (w : Way) (j : Job) (b : Backend) : List Moment :=
  (w.talk j b).1.moments j.session (w.talk j b).2

/-- In the context of a job, the innermost handler has the talk of the job. -/
theorem terminal_talk {m : Model} {b' : Backend} (w : Way) (hmodel : j.takeModel b = (.ok m, b'))
    (t : CancelToken) : w.terminal j ⟨j.statement.kind, j.compile, m, t⟩ b' =
      (w.talk j b).1.run j.session t (w.talk j b).2 := by
  let c : Context := ⟨j.statement.kind, j.compile, m, t⟩
  rw [talk, hmodel]
  rcases hbuild : j.build b' with ⟨e | q, b₁⟩
  · simp only [hbuild]
    exact terminal_eq_error (c := c) hbuild
  · simp only [hbuild]
    exact terminal_eq (c := c) w hbuild

/-- Before its first question, a run takes in models and does nothing else. -/
theorem talk_before (w : Way) (j : Job) (b : Backend) :
    (w.talk j b).2 = { b with registries := (w.talk j b).2.registries } := by
  have hbuild (b : Backend) : (j.build b).2 = { b with registries := (j.build b).2.registries } :=
    Backend.takeAll_eq _ b
  have hmodel : (j.takeModel b).2 = { b with registries := (j.takeModel b).2.registries } := rfl
  rw [talk]
  rcases hm : j.takeModel b with ⟨e | m, b'⟩ <;> rw [hm] at hmodel <;> change b' = _ at hmodel
  · exact hmodel
  · have hbuilt := hbuild b'
    rw [hmodel] at hbuilt
    rcases hq : j.build b' with ⟨e | q, b₁⟩ <;> simp only [hq, ← hmodel] at hbuilt ⊢ <;>
      exact hbuilt

/-- A run with a shared token is the talk of its job. -/
theorem run_named {ms : Middlewares} (hms : ms j.session.base = []) {name : String}
    (hname : j.cancel = some name) (w : Way) (b : Backend) :
    w.run ms j b = (w.talk j b).1.run j.session (.named name) (w.talk j b).2 := by
  rw [run_eq hms]
  rcases hmodel : j.takeModel b with ⟨e | m, b'⟩
  · rw [talk, hmodel]
    exact Run.bind_of_error (Run.bind_of_error hmodel _) _
  · have htoken : j.takeToken b' = (.ok (.named name), b') := by rw [takeToken, hname]
    rw [← terminal_talk w hmodel]
    exact Run.bind_of_ok ((Run.bind_of_ok hmodel _).trans (Run.bind_of_ok htoken _)) _

/-- What the innermost handler does, does not depend on the number of tokens. -/
theorem unnumbered_terminal (w : Way) (j : Job) (c : Context) : (w.terminal j c).Unnumbered := by
  intro n b
  have hbuild : c.build (b.renumbered n) = ((c.build b).1, (c.build b).2.renumbered n) :=
    Run.unnumbered_build c.compile n b
  rcases h : c.build b with ⟨e | q, b₁⟩ <;> rw [h] at hbuild
  · rw [terminal_eq_error h, terminal_eq_error hbuild]
  · rw [terminal_eq w h, terminal_eq w hbuild, Dialogue.unnumbered_run]
    rfl

/-- A run of the same job with a token of its own is its talk, and nothing interrupts it. -/
theorem run_own {ms : Middlewares} (hms : ms j.session.base = [])
    (hfresh : b.isCancelled (.own b.tokens) = false) (w : Way) :
    ∃ n, w.run ms { j with cancel := none } b =
      (((w.talk j b).1.uninterrupted j.session (w.talk j b).2).1,
        ((w.talk j b).1.uninterrupted j.session (w.talk j b).2).2.renumbered n) := by
  let own : Job := { j with cancel := none }
  have hrun : w.run ms own b = (own.context >>= w.terminal own) b := run_eq hms
  have hterminal : w.terminal own = w.terminal j := by cases w <;> rfl
  rcases hmodel : j.takeModel b with ⟨e | m, b'⟩
  · refine ⟨b'.tokens, hrun.trans ?_⟩
    rw [talk, hmodel]
    exact Run.bind_of_error (Run.bind_of_error hmodel _) _
  · obtain rfl : (j.takeModel b).2 = b' := congrArg Prod.snd hmodel
    have hcontext : own.context b = (.ok ⟨j.statement.kind, j.compile, m, .own b.tokens⟩,
        (j.takeModel b).2.renumbered (b.tokens + 1)) := Run.bind_of_ok hmodel _
    -- nobody else has the token that is made for the run
    have hnever : ∀ m ∈ w.moments j b, m.before.isCancelled (.own b.tokens) = false :=
      Dialogue.own_uncancelled (by rw [talk_before]; exact hfresh)
    refine ⟨b.tokens + 1, hrun.trans ?_⟩
    rw [Run.bind_of_ok hcontext, hterminal, unnumbered_terminal, terminal_talk w hmodel,
      Dialogue.run_of_uncancelled hnever]

/-- A run first asks for its statement to be run, and then reads rows. -/
theorem dialogue_moments (w : Way) (strategy : Strategy) (m : Model) :
    ∃ rest, (w.dialogue j strategy m q).moments j.session b = ⟨.statement w.purpose q, b⟩ :: rest ∧
      ∀ m' ∈ rest, m'.question.reads = true := by
  have hasks : ∃ rest : w.purpose.Answer → Dialogue Output,
      w.dialogue j strategy m q = .asks (.statement w.purpose q) rest ∧
        ∀ a, (rest a).AsksOnly (·.reads) := by
    cases w with
    | outcome => exact ⟨_, rfl, fun _ => trivial⟩
    | first => exact ⟨_, rfl, fun cursor => (Dialogue.asksOnly_firstRow cursor.rows).map _⟩
    | all => exact ⟨_, rfl, fun cursor => (Dialogue.asksOnly_rows cursor.rows).map _⟩
  obtain ⟨rest, hdialogue, hreads⟩ := hasks
  rw [hdialogue]
  obtain ⟨a, b', -, hmoments⟩ | ⟨e, b', -, hmoments⟩ :=
    Dialogue.moments_asks (s := j.session) (.statement w.purpose q) rest b <;> rw [hmoments]
  · exact ⟨_, rfl, (hreads a).moments⟩
  · exact ⟨[], rfl, nofun⟩

/-- A job whose entity has a model builds its statement as it would have at first. -/
theorem talk_of_build {m : Model} (hm : (b.registry j.session.base).model j.entity = .ok m)
    (w : Way) : (w.talk j b).1 = match (j.build b).1 with
      | .error e => .finish (.error e)
      | .ok q => w.dialogue j (b.settings j.session.base).strategy m q := by
  obtain ⟨b', hmodel⟩ : ∃ b', j.takeModel b = (.ok m, b') :=
    ⟨_, Prod.ext ((Registry.get_eq_model _ _).trans hm) rfl⟩
  have hgrows : b.Grows b' := by
    have haside : b.Aside [] (j.takeModel b).2 := j.aside_takeModel b
    rw [hmodel] at haside
    exact haside.grows
  have hsettings : (w.talk j b).2.settings = b.settings := by rw [talk_before]
  rw [← build_of_grows hgrows, ← hsettings, talk, hmodel]
  rcases hbuild : j.build b' with ⟨e | q, b₁⟩ <;> simp only [hbuild]

/-- If the entity of a job has no model, its run asks for nothing. -/
theorem talk_of_error {e : Error} (he : (b.registry j.session.base).model j.entity = .error e)
    (w : Way) : (w.talk j b).1 = .finish (.error e) := by
  obtain ⟨b', hmodel⟩ : ∃ b', j.takeModel b = (.error e, b') :=
    ⟨_, Prod.ext ((Registry.get_eq_model _ _).trans he) rfl⟩
  rw [talk, hmodel]

/-- A job whose entity has a model asks for the statement that it would have built at first. -/
theorem talk_of_model {m : Model} (hm : (b.registry j.session.base).model j.entity = .ok m)
    (w : Way) : (∀ e, (j.build b).1 = .error e → (w.talk j b).1 = .finish (.error e)) ∧
      ∀ q, (j.build b).1 = .ok q → ∃ strategy,
        (w.talk j b).1 = w.dialogue j strategy m q := by
  rw [talk_of_build hm w]
  exact ⟨fun e h => by rw [h], fun q h => ⟨_, by rw [h]⟩⟩

/-- Cancellation stops a run between two questions and nowhere else. Take the questions that a run
of a job asks its session if it has a token of its own, which nothing cancels: first the statement
that was built, then the readings of rows, each after an answer to the one before. A run of the same
job with a shared token asks the same questions up to the first one at which the token is cancelled;
if there is one, the result is the error of cancellation, whatever was read before it, and else all
is as with a token of its own. If the statement cannot be built, that is the result, also if the
token is cancelled already. -/
theorem run_cancelled (w : Way) (ms : Middlewares) (j : Job) (name : String) (b : Backend)
    (hms : ms j.session.base = []) (hname : j.cancel = some name)
    (hfresh : b.isCancelled (.own b.tokens) = false) :
    (w.run ms { j with cancel := none } b).2.log =
        b.log ++ (w.moments j b).flatMap (·.events j.session) ∧
    (∀ earlier m later, w.moments j b = earlier ++ m :: later →
      (∀ m' ∈ earlier, m'.before.isCancelled (.named name) = false) →
      m.before.isCancelled (.named name) = true →
        w.run ms j b = (.error .cancelled, m.before) ∧
        m.before.log = b.log ++ earlier.flatMap (·.events j.session)) ∧
    ((∀ m ∈ w.moments j b, m.before.isCancelled (.named name) = false) →
      (w.run ms j b).1 = (w.run ms { j with cancel := none } b).1 ∧
      (w.run ms j b).2.log = (w.run ms { j with cancel := none } b).2.log) ∧
    (∀ earlier m m' later, w.moments j b = earlier ++ m :: m' :: later →
      ∃ a, m.question.ask j.session m.before = (.ok a, m'.before)) ∧
    ∀ model, (b.registry j.session.base).model j.entity = .ok model →
      (∀ e, (j.build b).1 = .error e →
        (w.run ms j b).1 = .error e ∧ (w.run ms j b).2.log = b.log) ∧
      ∀ q, (j.build b).1 = .ok q → ∃ first rest,
        w.moments j b = ⟨.statement w.purpose q, first⟩ :: rest ∧
        first = { b with registries := first.registries } ∧
        ∀ m ∈ rest, m.question.reads = true := by
  obtain ⟨n, hown⟩ := run_own hms hfresh w
  have hnamed := run_named hms hname w b
  have hlog : (w.talk j b).2.log = b.log := by rw [talk_before]
  have hownlog : (w.run ms { j with cancel := none } b).2.log =
      b.log ++ (w.moments j b).flatMap (·.events j.session) := by
    rw [hown, ← hlog]
    exact Dialogue.log_uninterrupted _ _
  -- with a token of its own, a job goes through all its moments; the named token stops it at one
  refine ⟨hownlog, fun earlier m later hsplit hearlier hm => ⟨?_, ?_⟩, fun hnever => ?_,
    fun _ _ _ _ hsplit => Dialogue.moments_consecutive hsplit, fun model hmodel => ⟨?_, ?_⟩⟩
  · exact hnamed.trans (Dialogue.run_of_cancelled hsplit hearlier hm)
  · exact hlog ▸ Dialogue.log_before hsplit
  · rw [hnamed, Dialogue.run_of_uncancelled hnever, hown]
    exact ⟨rfl, rfl⟩
  · intro e hbuild
    rw [hnamed, (talk_of_model hmodel w).1 e hbuild]
    exact ⟨rfl, hlog⟩
  · intro q hbuild
    obtain ⟨strategy, htalk⟩ := (talk_of_model hmodel w).2 q hbuild
    obtain ⟨rest, hmoments, hreads⟩ := dialogue_moments w strategy model
    refine ⟨_, rest, ?_, talk_before w j b, hreads⟩
    rw [moments, htalk]
    exact hmoments

/-- All accounts, unless someone calls it off. -/
def stoppable : Job :=
  { statement := .select (Select.all "db" account)
    directory := []
    cancel := some "stop" }

/-- Three accounts, of which the first one is reason enough to call it off. -/
def threeAccounts : Cursor where
  columns := ["id", "owner", "balance"]
  rows := [⟨.ok [.integer 1, .integer 7, .integer 50], some "stop", false⟩,
    .plain (.ok [.integer 2, .integer 7, .integer 0]),
    .plain (.ok [.integer 3, .integer 8, .integer 9])]

/-- The database that gives these accounts. -/
def accounts : Backend :=
  plain.setScript "db" (Script.empty.pushCursor (.plain (.ok threeAccounts)))

/-- One row is read and bound, and then the run ends without it. -/
theorem run_cancelled_stoppable :
    (all.run (fun _ => []) stoppable accounts).1 = .error .cancelled ∧
      (all.run (fun _ => []) stoppable accounts).2.log =
        [.sent (.database "db") (.query ⟨"SELECT * FROM \x60account\x60;", []⟩) true,
          .read (.database "db")] := by
  obtain ⟨-, hcancelled, -, -, -⟩ :=
    run_cancelled .all (fun _ => []) stoppable "stop" accounts rfl rfl rfl
  have hsplit : all.moments stoppable accounts = [_, _] ++ _ :: _ := rfl
  obtain ⟨hrun, hlog⟩ := hcancelled _ _ _ hsplit
    (List.forall_mem_cons.mpr ⟨rfl, List.forall_mem_cons.mpr ⟨rfl, nofun⟩⟩) rfl
  rw [hrun]
  exact ⟨rfl, hlog⟩

end Way

end Job

end RowMapper
