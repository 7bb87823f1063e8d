import RowMapper.Proofs.Session.Calls

/-!
# Requests in the log

The log holds what reached the databases. A session passes a request on to its database if it is
open, it and all that it was begun on (`Session.isOpen`), and then the log has one event more, with
that request and its sender; otherwise the log stays as it is (`Session.log_deliver`).

A transaction keeps the messages that it sends, and `Transaction.logged` is what the log shows of
it. `Transaction.Shown` says that these are the same. Every call keeps it so, as long as the session
that the transaction was begun on is open (`Shown.make`), and so does whatever shows in neither
(`Shown.congr`).
-/

namespace RowMapper

@[simp]
theorem Backend.log_cancelFor (b : Backend) (token? : Option String) :
    (b.cancelFor token?).log = b.log := by
  cases token? <;> rfl

/-! ## What a session passes on -/

namespace Session

/-- A session that is no transaction which has ended, and does not go through one. -/
def isOpen (b : Backend) : Session → Bool
  | database _ => true
  | transaction id inner => !b.isFinished id && inner.isOpen b

/-- Whether a session goes through a transaction. -/
def goesThrough : Session → Transaction → Bool
  | database _, _ => false
  | transaction id inner, t => id == t.id || inner.goesThrough t

variable {b b' : Backend}

/-- Whether a session is open only depends on the transactions. -/
theorem isOpen_congr (h : b'.transactions = b.transactions) :
    ∀ s : Session, s.isOpen b' = s.isOpen b
  | database _ => rfl
  | transaction id inner => by
    rw [isOpen, isOpen, isOpen_congr h inner, Backend.isFinished, Backend.isFinished, h]

/-- Whether a session is open only depends on the transactions that it goes through. -/
theorem Below.isOpen_congr {n : ℕ} (h : ∀ i < n, b'.transactions[i]? = b.transactions[i]?) :
    ∀ {s : Session}, s.Below n → s.isOpen b' = s.isOpen b
  | database _, _ => rfl
  | transaction id inner, ⟨hid, hinner⟩ => by
    rw [isOpen, isOpen, isOpen_congr h hinner, Backend.isFinished, Backend.isFinished, h id hid]

variable {p : Purpose} {sender : Session} {r : Request}

/-- A database is sent a request, unchanged and once, if no transaction on the way has ended. -/
theorem log_deliver (p : Purpose) (sender : Session) (r : Request) : ∀ (s : Session) (b : Backend),
    (s.deliver p sender r b).2.log =
      b.log ++ if s.isOpen b then [.sent sender r (s.deliver p sender r b).1.isOk] else []
  | database name, b => by
    simp [deliver, Backend.ask, Backend.note, Backend.setScript, isOpen, Reply.accepted]
  | transaction id inner, b => by
    rw [deliver, Transaction.ensureActive_bind]
    cases h : b.isFinished id with
    | true => simp [Transaction.isFinished, h, isOpen]
    | false =>
      rw [Transaction.isFinished, h, isOpen, h]
      exact log_deliver p sender r inner b

/-- A session that gave an answer was open. -/
theorem isOpen_of_ok {a : p.Answer} : ∀ {s : Session} {b : Backend},
    (s.deliver p sender r b).1 = .ok a → s.isOpen b = true
  | database _, _, _ => rfl
  | transaction id inner, b, h => by
    rw [deliver, Transaction.ensureActive_bind] at h
    cases hfinished : b.isFinished id with
    | true => simp [Transaction.isFinished, hfinished] at h
    | false =>
      rw [Transaction.isFinished, hfinished] at h
      rw [isOpen, hfinished]
      exact isOpen_of_ok (s := inner) h

end Session

/-! ## What the log shows of a transaction -/

/-- The request of a transaction that an event shows, and whether it was accepted. -/
def Event.by? (t : Transaction) : Event → Option (Query × Bool)
  | sent sender r accepted => if sender.goesThrough t then some (r.sent, accepted) else none
  | _ => none

/-- What a message sends, and whether it was accepted. -/
def Message.sent (m : Message) : Query × Bool := (m.request.sent, m.failure?.isNone)

@[simp]
theorem Message.sent_answered {α : Type} (r : Request) (x : Except Error α) :
    (answered r x).sent = (r.sent, x.isOk) := by
  cases x <;> rfl

namespace Transaction

variable {t u : Transaction} {b b₁ : Backend}

/-- What the log shows of a transaction: the requests that came from it, in order, and whether the
database accepted them. -/
def logged (t : Transaction) (b : Backend) : List (Query × Bool) := b.log.filterMap (Event.by? t)

/-- A request that comes from a transaction shows in what is logged of it if it reaches the
database; no other request does. -/
theorem logged_deliver (t : Transaction) (p : Purpose) (s sender : Session) (r : Request)
    (b : Backend) : t.logged (s.deliver p sender r b).2 = t.logged b ++
      if s.isOpen b && sender.goesThrough t then [(r.sent, (s.deliver p sender r b).1.isOk)]
      else [] := by
  rw [logged, Session.log_deliver, List.filterMap_append, ← logged]
  cases s.isOpen b <;> cases h : sender.goesThrough t <;> simp [Event.by?, h]

/-- What a transaction sends by itself comes from it. -/
@[simp]
theorem goesThrough_session_self (t : Transaction) : t.session.goesThrough t = true := by
  simp [session, Session.goesThrough]

/-- To enter a call is to log nothing. -/
@[simp]
theorem Call.logged_enter (c : Call) (b : Backend) : t.logged (c.enter u b).2 = t.logged b := by
  rw [enter_apply]
  split
  · rfl
  · cases c.request.ends <;> rfl

/-- A transaction was begun, and the log shows its messages after what it had shown before. -/
def Shown (t : Transaction) (before : List (Query × Bool)) (b : Backend) : Prop :=
  ∃ s, t.state? b = some s ∧ t.logged b = before ++ s.messages.map Message.sent

namespace Shown

variable {before : List (Query × Bool)}

/-- The log shows what the transaction keeps. -/
theorem logged_eq (h : t.Shown before b) :
    t.logged b = before ++ (t.messages b).map Message.sent := by
  obtain ⟨s, hs, hlog⟩ := h
  rw [hlog, messages_eq hs]

/-- What neither the transaction nor the log shows. -/
theorem congr (hstate : t.state? b₁ = t.state? b) (hlog : t.logged b₁ = t.logged b)
    (h : t.Shown before b) : t.Shown before b₁ := by
  obtain ⟨s, hs, hshown⟩ := h
  exact ⟨s, hstate.trans hs, hlog.trans hshown⟩

/-- A transaction keeps what it sends, and an open session passes it on. -/
theorem sending {p : Purpose} {sender : Session} {q r : Request} (ht : t.Proper)
    (hsender : sender.goesThrough t = true) (hopen : t.inner.isOpen b = true)
    (hq : q.sent = r.sent) (h : t.Shown before b) :
    t.Shown before (t.sending q (t.inner.deliver p sender r) b).2 := by
  obtain ⟨s, hs, hshown⟩ := h
  have hanswer : t.state? (t.inner.deliver p sender r b).2 = some s := by
    rw [state?, Session.getElem?_deliver p ht]
    exact hs
  have hlog : t.logged (t.sending q (t.inner.deliver p sender r) b).2 =
      t.logged b ++ [(q.sent, (t.inner.deliver p sender r b).1.isOk)] := by
    rw [hq]
    exact (logged_deliver t p t.inner sender r b).trans (by simp [hopen, hsender])
  refine ⟨_, state?_sending q hanswer, ?_⟩
  simp [hlog, hshown]

/-- To enter a call is to send nothing yet. -/
theorem enter (c : Call) (h : t.Shown before b) : t.Shown before (c.enter t b).2 := by
  cases hfinished : t.isFinished b with
  | true => rwa [c.enter_of_finished b hfinished]
  | false =>
    obtain ⟨s, hs, hshown⟩ := h
    exact ⟨_, (c.enter_of_open b hs (by rw [← isFinished_eq hs, hfinished])).2, by simpa⟩

variable (ht : t.Proper) (c : Call) (hsender : (c.sender t).goesThrough t = true)
  (hopen : t.inner.isOpen b = true)
include ht hsender hopen

theorem send (h : t.Shown before b) : t.Shown before (c.send t b).2 := by
  obtain ⟨p, r, hsent, hsend⟩ := c.send_eq t
  rw [hsend]
  exact h.sending ht hsender hopen hsent

/-- A call that finds the session below open leaves its message in the log, too. -/
theorem make (h : t.Shown before b) : t.Shown before (c.make t b).2 := by
  cases hfinished : t.isFinished b with
  | true => rwa [c.make_of_finished b hfinished]
  | false =>
    -- entering may end the transaction itself, but no session that it was begun on
    have hbelow : ∀ i < t.id, (c.enter t b).2.transactions[i]? = b.transactions[i]? := by
      intro i hi
      rw [c.enter_apply, hfinished]
      cases c.request.ends with
      | false => rfl
      | true => exact (b.getElem?_finish t.id i).trans (if_neg (Nat.ne_of_gt hi))
    rw [c.make_of_open b hfinished]
    exact (h.enter c).send ht c hsender (by rw [Session.Below.isOpen_congr hbelow ht, hopen])

end Shown

end Transaction

end RowMapper
