import RowMapper.Proofs.Session.History

/-!
# Following a transaction

What sessions do is for each transaction a history, and a logged one if the transaction is on a
database: `Transaction.Follows`. There is one lemma for each thing that sessions can do, about any
transaction, whichever session does it. It only has to know the transaction by its number, or not at
all: `Session.Respects`.
-/

namespace RowMapper

namespace Backend

@[simp]
theorem length_finish (b : Backend) (id : ℕ) :
    (b.finish id).transactions.length = b.transactions.length :=
  List.length_modify ..

@[simp]
theorem length_keep (b : Backend) (id : ℕ) (m : Message) :
    (b.keep id m).transactions.length = b.transactions.length :=
  List.length_modify ..

end Backend

namespace Session

/-- A session goes through no other transaction of the number of a given one. -/
def Respects : Session → Transaction → Prop
  | database _, _ => True
  | transaction id inner, t => (id = t.id → inner = t.inner) ∧ inner.Respects t

variable {n : ℕ} {t : Transaction}

/-- A session that could go through any transaction with a new number goes through none of these. -/
theorem below_of_respects : ∀ {s : Session}, (∀ t : Transaction, n ≤ t.id → s.Respects t) →
    s.Below n
  | database _, _ => trivial
  | transaction id inner, h => by
    refine ⟨Nat.lt_of_not_le fun hid => ?_, below_of_respects fun t ht => (h t ht).2⟩
    -- no session is begun on itself
    have hinner : inner = .transaction id inner := (h ⟨id, _⟩ hid).1 rfl
    cases hinner

end Session

namespace Transaction

variable {α : Type} {t u : Transaction} {b b₁ b₂ : Backend}

/-- From one state to another, a transaction is used by calls, and if it is one on a database, the
log shows these calls and nothing else of it. -/
structure Follows (t : Transaction) (b b₁ : Backend) : Prop where
  history : ∃ us, t.History us b b₁
  logged : ∀ name, t.inner = .database name → ∃ us, t.LoggedHistory us b b₁

namespace Follows

/-- What follows what is followed. -/
theorem trans (h : t.Follows b b₁) (h' : t.Follows b₁ b₂) : t.Follows b b₂ where
  history := by
    obtain ⟨us, hus⟩ := h.history
    obtain ⟨vs, hvs⟩ := h'.history
    exact ⟨us ++ vs, hus.append hvs⟩
  logged name hinner := by
    obtain ⟨us, hus⟩ := h.logged name hinner
    obtain ⟨vs, hvs⟩ := h'.logged name hinner
    exact ⟨us ++ vs, hus.append hvs⟩

protected theorem refl : t.Follows b b := ⟨⟨[], .nil b⟩, fun _ _ => ⟨[], .nil b⟩⟩

/-- What shows neither in a transaction nor in the log. -/
theorem of_quiet (hstate : t.state? b₁ = t.state? b) (hlog : t.logged b₁ = t.logged b) :
    t.Follows b b₁ :=
  ⟨⟨[], .elsewhere hstate (.nil b₁)⟩, fun _ _ => ⟨[], .elsewhere hstate hlog (.nil b₁)⟩⟩

/-- The end of another transaction. -/
theorem finish (hu : u.id ≠ t.id) : t.Follows b (b.finish u.id) :=
  .of_quiet (by rw [state?, Backend.getElem?_finish, if_neg hu, state?]) rfl

/-- A message of another transaction. -/
theorem keep (hu : u.id ≠ t.id) (m : Message) : t.Follows b (b.keep u.id m) :=
  .of_quiet (by rw [state?, Backend.getElem?_keep, if_neg hu, state?]) rfl

/-- What another transaction sends is what its session is asked, as far as a transaction knows. -/
theorem sending {r : Request} {answer : Run α} (hu : u.id ≠ t.id)
    (h : t.Follows b (answer b).2) : t.Follows b (u.sending r answer b).2 :=
  h.trans (keep hu _)

end Follows

/-! ## Calls on any transaction -/

theorem length_sending (r : Request) (answer : Run α) (b : Backend) :
    (u.sending r answer b).2.transactions.length = (answer b).2.transactions.length :=
  Backend.length_keep ..

/-- No request begins a transaction: `BEGIN` as a statement is a text like any other. -/
theorem length_deliver (p : Purpose) (r : Request) : ∀ (s sender : Session) (b : Backend),
    (s.deliver p sender r b).2.transactions.length = b.transactions.length
  | .database _, _, _ => by simp [Session.deliver]
  | .transaction id inner, sender, b => by
    rw [Session.deliver, ensureActive_bind]
    split
    · rfl
    · rw [length_sending, length_deliver]

/-- The session of a transaction goes through it and through all that its inner session goes
through. -/
theorem goesThrough_session : u.session.goesThrough t = (u.id == t.id || u.inner.goesThrough t) :=
  rfl

@[simp]
theorem Call.length_enter (c : Call) (b : Backend) :
    (c.enter u b).2.transactions.length = b.transactions.length := by
  rw [enter_apply]
  split
  · rfl
  · cases c.request.ends <;> simp

/-- Nor does any call. -/
theorem Call.length_make (c : Call) (u : Transaction) (b : Backend) :
    (c.make u b).2.transactions.length = b.transactions.length := by
  cases hfinished : u.isFinished b with
  | true => rw [c.make_of_finished b hfinished]
  | false =>
    obtain ⟨p, r, -, hsend⟩ := c.send_eq u
    rw [c.make_of_open b hfinished, hsend, length_sending, length_deliver, c.length_enter]

/-- Only to begin one adds a transaction, and it adds one even if the database refuses. -/
theorem length_begin (s : Session) (b : Backend) :
    (begin s b).2.transactions.length = b.transactions.length + 1 := by
  rw [begin_apply]
  simp [length_sending, length_deliver, Backend.addTransaction]

theorem length_conclude (u : Transaction) (ending : Ending α) (b : Backend) :
    (u.conclude ending b).2.transactions.length = b.transactions.length := by
  obtain ⟨c, -, hconclude⟩ := conclude_eq u ending
  rw [hconclude]
  split
  · rfl
  · exact c.length_make u b

namespace Follows

/-- A call on the transaction itself. -/
theorem call_own (c : Call) (hsender : (c.sender t).goesThrough t = true) :
    t.Follows b (c.make t b).2 where
  history := ⟨_, .call c (.nil _)⟩
  logged name hinner := ⟨_, .call c hsender (by rw [hinner, Session.isOpen]) (.nil _)⟩

/-- A call that enters another transaction at most ends that one. -/
theorem enter (c : Call) (hu : u.id ≠ t.id) : t.Follows b (c.enter u b).2 := by
  rw [Call.enter_apply]
  split
  · exact .refl
  · cases c.request.ends with
    | false => exact .refl
    | true => exact .finish hu

/-- A call on another transaction: what is followed is what its inner session is asked. -/
theorem call_other (c : Call) (hu : u.id ≠ t.id) (ht : t.id < b.transactions.length)
    (hdeliver : ∀ p r (b' : Backend), t.id < b'.transactions.length →
      t.Follows b' (u.inner.deliver p (c.sender u) r b').2) : t.Follows b (c.make u b).2 := by
  cases hfinished : u.isFinished b with
  | true =>
    rw [c.make_of_finished b hfinished]
    exact .refl
  | false =>
    obtain ⟨p, r, -, hsend⟩ := c.send_eq u
    rw [c.make_of_open b hfinished, hsend]
    exact (enter c hu).trans (sending hu (hdeliver p r _ (by simpa using ht)))

/-- A call on any transaction is one on a transaction that its session goes through, or none. -/
theorem call (c : Call) (hu : u.session.Respects t)
    (hsender : (c.sender u).goesThrough t = u.session.goesThrough t)
    (ht : t.id < b.transactions.length)
    (hdeliver : ∀ p r (b' : Backend), (c.sender u).goesThrough t = u.inner.goesThrough t →
      t.id < b'.transactions.length → t.Follows b' (u.inner.deliver p (c.sender u) r b').2) :
    t.Follows b (c.make u b).2 := by
  rw [goesThrough_session] at hsender
  -- numbers decide which transaction it is, as the session agrees about them
  by_cases hid : u.id = t.id
  · obtain rfl : u = t := by
      cases u
      cases t
      simp_all [session, Session.Respects]
    exact call_own c (by simpa using hsender)
  · have hinner : (c.sender u).goesThrough t = u.inner.goesThrough t := by
      simpa [beq_eq_false_iff_ne.mpr hid] using hsender
    exact call_other c hid ht fun p r b' => hdeliver p r b' hinner

/-- What any session delivers. -/
theorem deliver (p : Purpose) (r : Request) : ∀ {s : Session}, s.Respects t →
    ∀ {sender : Session}, sender.goesThrough t = s.goesThrough t →
    ∀ {b : Backend}, t.id < b.transactions.length → t.Follows b (s.deliver p sender r b).2
  | .database name, _, sender, hsender, b, _ => by
    refine .of_quiet (by simp [state?, Session.deliver]) ?_
    have hnot : sender.goesThrough t = false := hsender
    simp [logged_deliver, hnot]
  -- to be asked is a call on this transaction, and what it asks for goes on inwards
  | .transaction id inner, hs, sender, hsender, b, ht =>
    call (u := ⟨id, inner⟩) (.run p sender r) hs hsender ht fun p' r' b' hinner ht' =>
      deliver p' r' hs.2 hinner ht'

/-- Commits and rollbacks of any transaction. -/
theorem close {c : Call} (hc : c.request.ends = true) (hu : u.session.Respects t)
    (ht : t.id < b.transactions.length) : t.Follows b (c.make u b).2 := by
  have hsender : c.sender u = u.session := c.sender_of_ends hc u
  refine call c hu (by rw [hsender]) ht fun p r b' hinner ht' => ?_
  exact deliver p r hu.2 hinner ht'

/-- Another transaction that begins has a new number, and may go through the one that is
followed. -/
theorem begin {s : Session} (hs : s.Respects t) (ht : t.id < b.transactions.length) :
    t.Follows b (begin s b).2 := by
  have hfresh : t.Follows b b.addTransaction :=
    .of_quiet (by rw [state?, Backend.addTransaction, List.getElem?_append_left ht, state?]) rfl
  have hother : b.transactions.length ≠ t.id := Nat.ne_of_gt ht
  rw [begin_apply]
  refine hfresh.trans (sending hother (deliver _ _ hs ?_ ?_))
  · simp [goesThrough_session, hother]
  · simp [Backend.addTransaction]
    omega

/-- The end of a transaction after its callback, whichever transaction it is. -/
theorem conclude (ending : Ending α) (hu : u.session.Respects t)
    (ht : t.id < b.transactions.length) : t.Follows b (u.conclude ending b).2 := by
  obtain ⟨c, hc, hconclude⟩ := conclude_eq u ending
  rw [hconclude]
  split
  · exact .refl
  · exact close hc hu ht

end Follows

end Transaction

end RowMapper
