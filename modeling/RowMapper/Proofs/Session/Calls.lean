import Mathlib.Data.Nat.Notation
import RowMapper.Session.Transaction

/-!
# Calls on a transaction

A call on a transaction takes two steps. It enters: it sees whether the transaction has ended, and a
commit or rollback ends the transaction with the same step. Then it sends its request to the session
that the transaction was begun on. `Call.make_eq` says that the calls of the library are these two
steps in a row; `Call.enter_apply` and `Call.state?_send` say what either step does.

That session may be a transaction too, but an older one (`Transaction.Proper`), so sending leaves
the transaction as it is, up to the message that is kept.
-/

namespace RowMapper

/-- All transactions that a session goes through have numbers below a bound. -/
def Session.Below (n : ℕ) : Session → Prop
  | database _ => True
  | transaction id inner => id < n ∧ inner.Below n

/-- Whether a request ends the transaction that sends it. -/
def Request.ends : Request → Bool
  | commit | rollback => true
  | _ => false

namespace Backend

/-- A transaction ends on its own; all others stay as they are. -/
theorem getElem?_finish (b : Backend) (i j : ℕ) : (b.finish i).transactions[j]? =
    if i = j then b.transactions[j]?.map ({ · with finished := true }) else b.transactions[j]? := by
  rw [finish, List.getElem?_modify]
  split <;> simp

/-- A message is kept with its transaction, after those that are there. -/
theorem getElem?_keep (b : Backend) (i j : ℕ) (m : Message) : (b.keep i m).transactions[j]? =
    if i = j then b.transactions[j]?.map fun s => { s with messages := s.messages ++ [m] }
    else b.transactions[j]? := by
  rw [keep, List.getElem?_modify]
  split <;> simp

/-- A cancelled token ends no transaction. -/
@[simp]
theorem transactions_cancelFor (b : Backend) (token? : Option String) :
    (b.cancelFor token?).transactions = b.transactions := by
  cases token? <;> rfl

/-- A database is asked without touching a transaction. -/
@[simp]
theorem transactions_ask (b : Backend) (p : Purpose) (database : String) (sender : Session)
    (r : Request) : (b.ask p database sender r).2.transactions = b.transactions := by
  simp [ask, note, setScript]

end Backend

@[simp]
theorem Message.request_answered {α : Type} (r : Request) (x : Except Error α) :
    (answered r x).request = r := by
  cases x <;> rfl

@[simp]
theorem Message.answered_map {α β : Type} (r : Request) (x : Except Error α) (f : α → β) :
    answered r (x.map f) = answered r x := by
  cases x <;> rfl

namespace Run

variable {α β : Type}

theorem bind_of_ok {x : Run α} {a : α} {b b' : Backend} (h : x b = (.ok a, b')) (f : α → Run β) :
    (x >>= f) b = f a b' := by
  rw [bind_apply, h]

theorem bind_of_error {x : Run α} {e : Error} {b b' : Backend} (h : x b = (.error e, b'))
    (f : α → Run β) : (x >>= f) b = (.error e, b') := by
  rw [bind_apply, h]

/-- What only changes the result of a run leaves the state that it ends in. -/
theorem bind_pure_apply (x : Run α) (f : α → β) (b : Backend) :
    (x >>= fun a => pure (f a)) b = ((x b).1.map f, (x b).2) := by
  rcases hx : x b with ⟨e | a, b'⟩
  · exact bind_of_error hx _
  · exact bind_of_ok hx _

section

variable {R : Backend → Backend → Prop} {x : Run α}

/-- What two steps do to the state, one step after the other does as well. -/
theorem rel_bind (htrans : ∀ {b b' b''}, R b b' → R b' b'' → R b b'') {f : α → Run β}
    (hx : ∀ b, R b (x b).2) (hf : ∀ a b, R b (f a b).2) (b : Backend) : R b ((x >>= f) b).2 := by
  have h := hx b
  rcases hxb : x b with ⟨e | a, b'⟩ <;> rw [hxb] at h
  · rwa [bind_of_error hxb]
  · rw [bind_of_ok hxb]
    exact htrans h (hf a b')

/-- A run that is cancelled leaves the state as it is; otherwise it does to it what it always
does. -/
theorem rel_unlessCancelled (hrefl : ∀ b, R b b) (token : CancelToken) (hx : ∀ b, R b (x b).2)
    (b : Backend) : R b (unlessCancelled token x b).2 := by
  rw [unlessCancelled]
  split
  · exact hrefl b
  · exact hx b

end

end Run

namespace Transaction

variable {α : Type} (t : Transaction) (b : Backend)

/-- What there is to know of a transaction, if it was begun. -/
def state? (b : Backend) : Option TransactionState := b.transactions[t.id]?

/-- The messages of a transaction. -/
def messages (b : Backend) : List Message := (t.state? b).elim [] (·.messages)

/-- A transaction is begun on an older session. -/
def Proper (t : Transaction) : Prop := t.inner.Below t.id

/-- Nothing is done after the check of a transaction that has ended. -/
theorem ensureActive_bind (f : Unit → Run α) : (t.ensureActive >>= f) b =
    if t.isFinished b then (.error .transactionFinished, b) else f () b := by
  cases h : t.isFinished b <;> simp [Run.bind_apply, ensureActive, h]

variable {t b} {s : TransactionState}

theorem isFinished_eq (hs : t.state? b = some s) : t.isFinished b = s.finished := by
  rw [state?] at hs
  rw [isFinished, Backend.isFinished, hs, Option.any_some]

/-- The messages of a transaction that was begun are those that are kept of it. -/
theorem messages_eq (hs : t.state? b = some s) : t.messages b = s.messages := by
  rw [messages, hs, Option.elim_some]

/-- A transaction keeps the message of the request that it sent. -/
theorem state?_sending {answer : Run α} (r : Request) (hs : t.state? (answer b).2 = some s) :
    t.state? (t.sending r answer b).2 =
      some { s with messages := s.messages ++ [.answered r (answer b).1] } := by
  rw [state?] at hs
  rw [state?, sending, Backend.getElem?_keep, if_pos rfl, hs, Option.map_some]

/-- Commits and rollbacks keep their message as other requests do, although they give no outcome. -/
theorem state?_sendLast (r : Request)
    (hs : t.state? (t.inner.deliver .outcome t.session r b).2 = some s) :
    t.state? (t.sendLast r b).2 =
      some { s with messages := s.messages ++ [.answered r (t.sendLast r b).1] } := by
  rw [sendLast, Run.bind_pure_apply, Message.answered_map]
  exact state?_sending r hs

end Transaction

/-! ## Older sessions -/

namespace Session

variable {n : ℕ}

/-- What older sessions are asked does not touch a transaction. -/
theorem getElem?_deliver (p : Purpose) : ∀ {s : Session}, s.Below n → ∀ (sender : Session)
    (r : Request) (b : Backend), (s.deliver p sender r b).2.transactions[n]? = b.transactions[n]?
  | database _, _, _, _, _ => by simp [deliver]
  | transaction id inner, ⟨hid, hinner⟩, sender, r, b => by
    rw [deliver, Transaction.ensureActive_bind]
    split
    · rfl
    · rw [Transaction.sending, Backend.getElem?_keep, if_neg (Nat.ne_of_lt hid)]
      exact getElem?_deliver p hinner sender r b

end Session

/-! ## The two steps of a call -/

namespace Transaction

/-- A call on a transaction. A statement may be the transaction's own or come from a transaction
that was begun on it. -/
inductive Call where
  | run (p : Purpose) (sender : Session) (r : Request)
  | commit
  | rollback

namespace Call

/-- What a call gives. -/
def Result : Call → Type
  | run p _ _ => p.Answer
  | commit | rollback => Unit

/-- The request that a call sends. -/
def request : Call → Request
  | run p _ r => p.request r.sent
  | commit => .commit
  | rollback => .rollback

/-- The session that a call on a transaction comes from. -/
def sender (t : Transaction) : Call → Session
  | run _ sender _ => sender
  | commit | rollback => t.session

/-- Makes a call. -/
def make (t : Transaction) : (c : Call) → Run c.Result
  | run p sender r => t.session.deliver p sender r
  | commit => t.commit
  | rollback => t.rollback

/-- The first step of a call. -/
def enter (t : Transaction) : Call → Run Unit
  | run _ _ _ => t.ensureActive
  | commit | rollback => t.finish

/-- The second step of a call. -/
def send (t : Transaction) : (c : Call) → Run c.Result
  | run p sender r => t.sending (p.request r.sent) (t.inner.deliver p sender r)
  | commit => t.sendLast .commit
  | rollback => t.sendLast .rollback

variable {t : Transaction} (c : Call) (b : Backend)

/-- A call takes its two steps in a row. -/
theorem make_eq : c.make t = (do c.enter t; c.send t) := by
  cases c <;> rfl

/-- The first step fails on a transaction that has ended, and ends it if the request does. -/
theorem enter_apply : c.enter t b = if t.isFinished b then (.error .transactionFinished, b)
    else (.ok (), if c.request.ends then b.finish t.id else b) := by
  cases c with
  | run p sender r => cases p <;> rfl
  | commit | rollback => rfl

/-- No call enters a transaction that has ended. -/
theorem enter_of_finished (h : t.isFinished b = true) :
    c.enter t b = (.error .transactionFinished, b) := by
  rw [enter_apply, if_pos h]

/-- A call enters an open transaction, and ends it if its request does. -/
theorem enter_of_open {s : TransactionState} (hs : t.state? b = some s)
    (hopen : s.finished = false) : (c.enter t b).1 = .ok () ∧
      t.state? (c.enter t b).2 = some { s with finished := c.request.ends } := by
  have hactive : t.isFinished b = false := by rw [isFinished_eq hs, hopen]
  rw [enter_apply, hactive]
  refine ⟨rfl, ?_⟩
  rw [state?] at hs
  cases c.request.ends with
  | false => exact hs.trans (by rw [← hopen])
  | true => simp [state?, Backend.getElem?_finish, hs]

/-- A call that has entered sends its request, once, and is answered as the request is. -/
theorem state?_send {s : TransactionState} (ht : t.Proper) (hs : t.state? b = some s) :
    t.state? (c.send t b).2 =
      some { s with messages := s.messages ++ [.answered c.request (c.send t b).1] } := by
  have hanswer (p : Purpose) (sender : Session) (r : Request) :
      t.state? (t.inner.deliver p sender r b).2 = some s := by
    rw [state?, Session.getElem?_deliver p ht]
    exact hs
  cases c with
  | run p sender r => exact state?_sending _ (hanswer p sender r)
  | commit => exact state?_sendLast .commit (hanswer .outcome t.session .commit)
  | rollback => exact state?_sendLast .rollback (hanswer .outcome t.session .rollback)

/-- A call on a transaction that has ended fails and does nothing. -/
theorem make_of_finished (h : t.isFinished b = true) :
    c.make t b = (.error .transactionFinished, b) := by
  rw [make_eq, Run.bind_apply, enter_of_finished c b h]

/-- A call on an open transaction takes both steps. -/
theorem make_of_open (h : t.isFinished b = false) : c.make t b = c.send t (c.enter t b).2 := by
  rw [make_eq, Run.bind_apply, ← Prod.eta (c.enter t b), enter_apply, h]
  rfl

/-- A call on an open transaction sends its request, and ends the transaction if the request does,
whether the request fails or not. -/
theorem state?_make {s : TransactionState} (ht : t.Proper) (hs : t.state? b = some s)
    (hopen : s.finished = false) : t.state? (c.make t b).2 =
      some ⟨c.request.ends, s.messages ++ [.answered c.request (c.make t b).1]⟩ := by
  rw [make_of_open c b (by rw [isFinished_eq hs, hopen])]
  exact state?_send c _ ht (enter_of_open c b hs hopen).2

/-- The second step of a call asks the session that the transaction was begun on. -/
theorem send_eq (c : Call) (t : Transaction) : ∃ p r, c.request.sent = r.sent ∧ ∀ b,
    (c.send t b).2 = (t.sending c.request (t.inner.deliver p (c.sender t) r) b).2 := by
  have hlast (r : Request) (b : Backend) : (t.sendLast r b).2 =
      (t.sending r (t.inner.deliver .outcome t.session r) b).2 := by
    rw [sendLast, Run.bind_pure_apply]
  cases c with
  | run p sender r =>
    refine ⟨p, r, ?_, fun _ => rfl⟩
    cases p <;> rfl
  | commit => exact ⟨.outcome, .commit, rfl, hlast .commit⟩
  | rollback => exact ⟨.outcome, .rollback, rfl, hlast .rollback⟩

/-- Commits and rollbacks come from the transaction itself. -/
theorem sender_of_ends {c : Call} (hc : c.request.ends = true) (t : Transaction) :
    c.sender t = t.session := by
  cases c with
  | run p sender r => cases p <;> cases hc
  | commit | rollback => rfl

end Call

/-! ## The call after a callback -/

/-- After its callback a transaction gets one call, unless it has ended: a commit or a rollback. -/
theorem conclude_eq {α : Type} (t : Transaction) (ending : Ending α) :
    ∃ c : Call, c.request.ends = true ∧
      ∀ b, (t.conclude ending b).2 = if t.isFinished b then b else (c.make t b).2 := by
  have hcommit (a : α) (b : Backend) : (t.commitFor a b).2 =
      if t.isFinished b then b else (t.commit b).2 := by
    rw [commitFor]
    split
    · rfl
    · rcases t.commit b with ⟨_ | _, _⟩ <;> rfl
  have hrollback (cause : Error) (b : Backend) :
      (t.rollbackFor cause b : Except Error α × Backend).2 =
        if t.isFinished b then b else (t.rollback b).2 := by
    rw [rollbackFor]
    split
    · rfl
    · rcases t.rollback b with ⟨_ | _, _⟩ <;> rfl
  cases ending with
  | value a => exact ⟨.commit, rfl, hcommit a⟩
  | error e => exact ⟨.rollback, rfl, hrollback e⟩
  | abrupt message? => exact ⟨.rollback, rfl, hrollback _⟩

end Transaction

end RowMapper
