import RowMapper.Proofs.Session.History

/-!
# Callbacks in transactions

`Transaction.transact` runs a callback inside a transaction. A callback may be anything that uses
the transaction by calls: what it did is a history. `conclude_concluded` says how the transaction is
ended after it, and from that `transact_concluded` says what a whole run sends and gives.

If the history of the callback is a logged one, then what the transaction sent over the whole run is
also what the log of the database shows of it (`logged_conclude`).
-/

namespace RowMapper

/-- The failure that a callback ended with, if it did. -/
def Ending.failure? {α : Type} : Ending α → Option Error
  | value _ => none
  | error e => some e
  | abrupt message? => some (.callbackFailed (.unknown (Transaction.abruptMessage message?)))

namespace Transaction

variable {α σ : Type} {t : Transaction}

/-- The messages that end a transaction: its commits and rollbacks. -/
def endings (t : Transaction) (b : Backend) : List Message :=
  (t.messages b).filter (·.request.ends)

/-- How the transaction of a callback is concluded: by how the callback ended and whether it had
ended the transaction, what is sent and what the result is. -/
inductive Concluded : Ending α → Bool → List Message → Except Error α → Prop
  | kept (a : α) : Concluded (.value a) true [] (.ok a)
  | committed (a : α) : Concluded (.value a) false [⟨.commit, none⟩] (.ok a)
  | commitFailed (a : α) (e : Error) :
      Concluded (.value a) false [⟨.commit, some e⟩] (.error (.commitFailed e))
  | failed {ending : Ending α} {cause : Error} (h : ending.failure? = some cause) :
      Concluded ending true [] (.error cause)
  | rolledBack {ending : Ending α} {cause : Error} (h : ending.failure? = some cause) :
      Concluded ending false [⟨.rollback, none⟩] (.error cause)
  | rollbackFailed {ending : Ending α} {cause : Error} (h : ending.failure? = some cause)
      (e : Error) :
      Concluded ending false [⟨.rollback, some e⟩] (.error (.rollbackFailed e cause))

/-- Only an open transaction is ended after its callback, by one message. -/
theorem Concluded.sent_eq {ending : Ending α} {finished : Bool} {sent : List Message}
    {result : Except Error α} (h : Concluded ending finished sent result) :
    if finished then sent = [] else ∃ m : Message, m.request.ends = true ∧ sent = [m] := by
  cases h with
  | kept | failed => rfl
  | committed | commitFailed | rolledBack | rollbackFailed => exact ⟨_, rfl, rfl⟩

/-! ## Ending a transaction after its callback -/

section Conclude

variable {b : Backend} {s : TransactionState} (ht : t.Proper) (hs : t.state? b = some s)
include ht hs

theorem commitFor_concluded (a : α) : ∃ sent,
    t.state? (t.commitFor a b).2 = some ⟨true, s.messages ++ sent⟩ ∧
      Concluded (.value a) s.finished sent (t.commitFor a b).1 := by
  obtain ⟨finished, messages⟩ := s
  have hfinished : t.isFinished b = finished := isFinished_eq hs
  cases finished with
  | true =>
    rw [commitFor, if_pos hfinished]
    exact ⟨[], by simpa using hs, .kept a⟩
  | false =>
    have hsent : t.state? (t.commit b).2 =
        some ⟨true, messages ++ [.answered .commit (t.commit b).1]⟩ :=
      Call.commit.state?_make b ht hs rfl
    rw [commitFor, if_neg (by simp [hfinished])]
    rcases hcommit : t.commit b with ⟨e | _, b'⟩
    · rw [hcommit] at hsent
      exact ⟨_, hsent, .commitFailed a e⟩
    · rw [hcommit] at hsent
      exact ⟨_, hsent, .committed a⟩

theorem rollbackFor_concluded {ending : Ending α} {cause : Error}
    (hcause : ending.failure? = some cause) : ∃ sent,
    t.state? (t.rollbackFor cause b : Except Error α × Backend).2 =
        some ⟨true, s.messages ++ sent⟩ ∧
      Concluded ending s.finished sent (t.rollbackFor cause b).1 := by
  obtain ⟨finished, messages⟩ := s
  have hfinished : t.isFinished b = finished := isFinished_eq hs
  cases finished with
  | true =>
    rw [rollbackFor, if_pos hfinished]
    exact ⟨[], by simpa using hs, .failed hcause⟩
  | false =>
    -- the transaction ends and keeps its message, whatever the database answers
    have hsent : t.state? (t.rollback b).2 =
        some ⟨true, messages ++ [.answered .rollback (t.rollback b).1]⟩ :=
      Call.rollback.state?_make b ht hs rfl
    rw [rollbackFor, if_neg (by simp [hfinished])]
    rcases hrollback : t.rollback b with ⟨e | _, b'⟩
    · rw [hrollback] at hsent
      exact ⟨_, hsent, .rollbackFailed hcause e⟩
    · rw [hrollback] at hsent
      exact ⟨_, hsent, .rolledBack hcause⟩

/-- After its callback a transaction has ended, by what the callback sent or by one more message. -/
theorem conclude_concluded (ending : Ending α) : ∃ sent,
    t.state? (t.conclude ending b).2 = some ⟨true, s.messages ++ sent⟩ ∧
      Concluded ending s.finished sent (t.conclude ending b).1 := by
  cases ending with
  | value a => exact commitFor_concluded ht hs a
  | error e => exact rollbackFor_concluded ht hs rfl
  | abrupt message? => exact rollbackFor_concluded ht hs rfl

end Conclude

/-! ## What ends a transaction -/

/-- Of the messages that a transaction sends, the last one ends it, if any does. -/
theorem endings_live (us : List Use) :
    us.any Use.ends = false ∧
        ((Use.live us).filterMap Use.message?).filter (·.request.ends) = [] ∨
      us.any Use.ends = true ∧
        ∃ m, ((Use.live us).filterMap Use.message?).filter (·.request.ends) = [m] := by
  induction us with
  | nil => exact .inl ⟨rfl, rfl⟩
  | cons u us ih =>
    rw [Use.live_cons, List.any_cons]
    cases u with
    | call c result =>
      cases hends : c.request.ends with
      | true => exact .inr ⟨by simp [hends], .answered c.request result, by simp [hends]⟩
      | false => simpa [hends] using ih
    | isFinished flag => simpa [List.filterMap_cons] using ih

/-- A transaction in use is open and has sent nothing that ends it, or it has ended by one
message. -/
theorem endings_history {s : Session} {b b₀ b₁ : Backend} {us : List Use}
    (hs : s.Below b.transactions.length) (hbegin : begin s b = (.ok t, b₀))
    (h : t.History us b₀ b₁) :
    t.isFinished b₁ = false ∧ t.endings b₁ = [] ∨
      t.isFinished b₁ = true ∧ ∃ m, t.endings b₁ = [m] := by
  obtain ⟨ht, hstate⟩ := state?_of_begin hs hbegin
  obtain ⟨hused, -, -⟩ := h.state?_of_open ht hstate rfl
  rw [isFinished_eq hused, endings, messages_eq hused]
  exact endings_live us

/-- However a callback used its transaction and ended, one message ends the transaction. -/
theorem conclude_history {s : Session} {b b₀ b₁ : Backend} {us : List Use}
    (hs : s.Below b.transactions.length) (hbegin : begin s b = (.ok t, b₀))
    (h : t.History us b₀ b₁) (ending : Ending α) : ∃ sent,
      t.messages (t.conclude ending b₁).2 = t.messages b₁ ++ sent ∧
        Concluded ending (t.isFinished b₁) sent (t.conclude ending b₁).1 ∧
        ∃ m, t.endings (t.conclude ending b₁).2 = [m] := by
  obtain ⟨ht, hstate⟩ := state?_of_begin hs hbegin
  obtain ⟨hused, -, -⟩ := h.state?_of_open ht hstate rfl
  obtain ⟨sent, hafter, hconcluded⟩ := conclude_concluded ht hused ending
  have hmessages : t.messages (t.conclude ending b₁).2 = t.messages b₁ ++ sent := by
    rw [messages_eq hafter, messages_eq hused]
  have hfinished : t.isFinished b₁ = us.any Use.ends := isFinished_eq hused
  rw [← hfinished] at hconcluded
  refine ⟨sent, hmessages, hconcluded, ?_⟩
  have hsent := hconcluded.sent_eq
  rw [endings, hmessages, List.filter_append, ← endings]
  rcases endings_history hs hbegin h with ⟨hopen, hnone⟩ | ⟨hended, m, hone⟩
  -- nothing has ended it yet, so the call after the callback does
  · rw [hopen] at hsent
    -- nothing has ended it yet, so the call after the callback does
    obtain ⟨m, hends, rfl⟩ := hsent
    exact ⟨m, by simp [hnone, hends]⟩
  · rw [hended] at hsent
    obtain rfl : sent = [] := hsent
    exact ⟨m, by simpa using hone⟩

/-- After a logged history, the log shows the message after the callback as well, if there is
one. -/
theorem logged_conclude {s : Session} {b b₀ b₁ : Backend} {us : List Use}
    (hs : s.Below b.transactions.length) (hbegin : begin s b = (.ok t, b₀))
    (h : t.LoggedHistory us b₀ b₁) (hopen : s.isOpen b₁ = true) (ending : Ending α) :
    t.logged (t.conclude ending b₁).2 =
      t.logged b ++ (t.messages (t.conclude ending b₁).2).map Message.sent := by
  obtain ⟨ht, -⟩ := state?_of_begin hs hbegin
  have hshown : t.Shown (t.logged b) b₁ := h.shown ht (shown_of_begin hs hbegin)
  have hinner : t.inner.isOpen b₁ = true := by rw [eq_of_begin hbegin, hopen]
  obtain ⟨c, hends, hconclude⟩ := conclude_eq t ending
  have hsender : (c.sender t).goesThrough t = true := by simp [c.sender_of_ends hends]
  rw [hconclude]
  split
  · exact hshown.logged_eq
  · exact (hshown.make ht c hsender hinner).logged_eq

/-! ## Whole runs -/

section Transact

variable {s : Session} {callback : Transaction → σ → Backend → Ending α × σ × Backend}
  {st : σ} {b b₀ : Backend}

theorem transact_of_begin_error {e : Error} (h : begin s b = (.error e, b₀)) :
    transact s callback st b = (.error e, st, b₀) := by
  rw [transact, h]

theorem transact_of_begin (h : begin s b = (.ok t, b₀)) : transact s callback st b =
    let (ending, st₁, b₁) := callback t st b₀
    ((t.conclude ending b₁).1, st₁, (t.conclude ending b₁).2) := by
  rw [transact, h]

/-- A run in a transaction. If the transaction cannot begin, the callback is not run and nothing
else is sent. If it can, it is ended by one message, of the callback or after it, and the result
says how the callback ended and what became of the message after it. As long as the session below is
open, what is sent is what the log of the database shows. -/
theorem transact_concluded (hs : s.Below b.transactions.length)
    (hcallback : ∀ t b₀, begin s b = (.ok t, b₀) →
      ∃ us, t.History us b₀ (callback t st b₀).2.2) :
    (∀ e b₀, begin s b = (.error e, b₀) →
      (∀ callback' : Transaction → σ → Backend → Ending α × σ × Backend,
        transact s callback' st b = (.error e, st, b₀)) ∧
        (⟨b.transactions.length, s⟩ : Transaction).messages b₀ = [⟨.begin, some e⟩] ∧
        (s.isOpen b = true → (⟨b.transactions.length, s⟩ : Transaction).logged b₀ =
          (⟨b.transactions.length, s⟩ : Transaction).logged b ++ [(Request.begin.sent, false)])) ∧
    ∀ t b₀, begin s b = (.ok t, b₀) → ∀ ending st₁ b₁, callback t st b₀ = (ending, st₁, b₁) →
      ∃ result b₂ sent, transact s callback st b = (result, st₁, b₂) ∧
        t.messages b₂ = t.messages b₁ ++ sent ∧
        Concluded ending (t.isFinished b₁) sent result ∧ (∃ m, t.endings b₂ = [m]) ∧
        ∀ us, t.LoggedHistory us b₀ b₁ → s.isOpen b₁ = true →
          t.logged b₂ = t.logged b ++ (t.messages b₂).map Message.sent := by
  refine ⟨fun e b₀ hbegin => ⟨fun _ => transact_of_begin_error hbegin, ?_⟩, ?_⟩
  · have hstate := state?_begin hs
    rw [hbegin] at hstate
    refine ⟨messages_eq hstate, fun hopen => ?_⟩
    have hshown := (shown_begin hs hopen).logged_eq
    rw [hbegin, messages_eq hstate] at hshown
    exact hshown
  · intro t b₀ hbegin ending st₁ b₁ hrun
    obtain ⟨us, h⟩ := hcallback t b₀ hbegin
    rw [hrun] at h
    obtain ⟨sent, hmessages, hconcluded, hends⟩ := conclude_history hs hbegin h ending
    exact ⟨_, _, sent, by rw [transact_of_begin hbegin, hrun], hmessages, hconcluded, hends,
      fun _ hlogged hopen => logged_conclude hs hbegin hlogged hopen ending⟩

/-- The callback that makes one call on its transaction, whatever it gives, and ends. -/
def Call.thenEnd (c : Call) (ending : Ending α) :
    Transaction → σ → Backend → Ending α × σ × Backend :=
  fun t st b => (ending, st, (c.make t b).2)

theorem Call.history_thenEnd (c : Call) (ending : Ending α) (t : Transaction) (st : σ)
    (b₀ : Backend) : ∃ us, t.History us b₀ (c.thenEnd ending t st b₀).2.2 :=
  ⟨_, .call c (.nil _)⟩

/-- A callback ends abruptly, and then the rollback fails. The log shows both that it was tried and
that it was refused. -/
theorem transact_concluded_abrupt :
    let run := transact Ledger.transaction.inner
      (Ledger.insert.thenEnd (.abrupt (some "boom") : Ending ℕ)) () (Ledger.backend "ROLLBACK")
    run.1 = .error (.rollbackFailed (.unknown "disk full") (.callbackFailed (.unknown "boom"))) ∧
      (∃ m, Ledger.transaction.endings run.2.2 = [m]) ∧
      Ledger.transaction.logged run.2.2 = [(⟨"BEGIN", []⟩, true),
        (Ledger.insert.request.sent, true), (⟨"ROLLBACK", []⟩, false)] := by
  intro run
  have hs : Ledger.transaction.inner.Below (Ledger.backend "ROLLBACK").transactions.length :=
    trivial
  obtain ⟨-, hbegun⟩ := transact_concluded hs fun t b₀ _ =>
    Ledger.insert.history_thenEnd (.abrupt (some "boom") : Ending ℕ) t () b₀
  obtain ⟨_, b₂, _, hrun, -, -, hends, hlogged⟩ := hbegun Ledger.transaction _ rfl _ _ _ rfl
  change run = _ at hrun
  obtain rfl : run.2.2 = b₂ := by rw [hrun]
  exact ⟨rfl, hends, hlogged _ (.call Ledger.insert rfl rfl (.nil _)) rfl⟩

/-- A success stands for committed work if and only if the callback sent no rollback and no commit
that failed. As long as the session below is open, what was sent is what the log of the database
shows. -/
theorem transact_ok_committed_iff (hs : s.Below b.transactions.length)
    (hcallback : ∀ t b₀, begin s b = (.ok t, b₀) →
      ∃ us, t.History us b₀ (callback t st b₀).2.2) {a : α} {st₂ : σ} {b₂ : Backend}
    (h : transact s callback st b = (.ok a, st₂, b₂)) :
    ∃ t b₀, begin s b = (.ok t, b₀) ∧ (callback t st b₀).1 = .value a ∧
      (t.endings b₂ = [⟨.commit, none⟩] ↔
        ∀ m ∈ t.endings (callback t st b₀).2.2, m = ⟨.commit, none⟩) ∧
      ∀ us, t.LoggedHistory us b₀ (callback t st b₀).2.2 →
        s.isOpen (callback t st b₀).2.2 = true →
        t.logged b₂ = t.logged b ++ (t.messages b₂).map Message.sent := by
  rcases hbegin : begin s b with ⟨e | t, b₀⟩
  · rw [transact_of_begin_error hbegin] at h
    simp at h
  obtain ⟨us, hused⟩ := hcallback t b₀ hbegin
  rcases hrun : callback t st b₀ with ⟨ending, st₁, b₁⟩
  rw [transact_of_begin hbegin, hrun] at h
  rw [hrun] at hused
  obtain ⟨hresult, -, rfl⟩ : _ ∧ st₁ = st₂ ∧ _ = b₂ := by simpa using h
  obtain ⟨sent, hmessages, hconcluded, -⟩ := conclude_history hs hbegin hused ending
  rw [hresult] at hconcluded
  -- the callback has ended the transaction itself, or the one ending is the commit after it
  have hvalue : ending = .value a ∧ (t.endings (t.conclude ending b₁).2 = [⟨.commit, none⟩] ↔
      ∀ m ∈ t.endings b₁, m = ⟨.commit, none⟩) := by
    rw [endings, hmessages, List.filter_append, ← endings]
    rcases endings_history hs hbegin hused with ⟨hopen, hnone⟩ | ⟨hended, m, hone⟩
    · rw [hopen] at hconcluded
      cases hconcluded
      simp [hnone, Request.ends]
    · rw [hended] at hconcluded
      cases hconcluded
      simp [hone]
  refine ⟨t, b₀, rfl, ?_⟩
  rw [hrun]
  exact ⟨hvalue.1, hvalue.2, fun _ hlogged hopen => logged_conclude hs hbegin hlogged hopen ending⟩

/-- A callback that commits by itself leaves committed work, and nothing is sent after it. -/
theorem transact_ok_committed_iff_own_commit :
    let run := transact Ledger.transaction.inner (Call.commit.thenEnd (.value 7)) ()
      (Ledger.backend "ROLLBACK")
    run.1 = .ok 7 ∧ Ledger.transaction.endings run.2.2 = [⟨.commit, none⟩] ∧
      Ledger.transaction.logged run.2.2 = [(⟨"BEGIN", []⟩, true), (⟨"COMMIT", []⟩, true)] := by
  intro run
  have hs : Ledger.transaction.inner.Below (Ledger.backend "ROLLBACK").transactions.length :=
    trivial
  have hrun : run = (.ok 7, (), run.2.2) := rfl
  obtain ⟨t, b₀, hbegin, -, hiff, hlogged⟩ := transact_ok_committed_iff hs
    (fun t b₀ _ => Call.commit.history_thenEnd (.value 7) t () b₀) hrun
  obtain rfl : t = Ledger.transaction := eq_of_begin hbegin
  obtain rfl : (begin Ledger.transaction.inner (Ledger.backend "ROLLBACK")).2 = b₀ := by
    rw [hbegin]
  refine ⟨rfl, hiff.mpr ?_, hlogged _ (.call .commit rfl rfl (.nil _)) rfl⟩
  decide

/-- Two successes without committed work: a callback rolls back, or its commit fails, and it gives
a value nevertheless. The log of the database shows no commit that it accepted. -/
theorem transact_ok_uncommitted :
    let run (c : Call) := transact Ledger.transaction.inner (c.thenEnd (.value 7)) ()
      (Ledger.backend "COMMIT")
    let endings (c : Call) := Ledger.transaction.endings (run c).2.2
    let logged (c : Call) := Ledger.transaction.logged (run c).2.2
    ((run .rollback).1 = .ok 7 ∧ endings .rollback = [⟨.rollback, none⟩] ∧
        logged .rollback = [(⟨"BEGIN", []⟩, true), (⟨"ROLLBACK", []⟩, true)]) ∧
      (run .commit).1 = .ok 7 ∧ endings .commit = [⟨.commit, some (.unknown "disk full")⟩] ∧
        logged .commit = [(⟨"BEGIN", []⟩, true), (⟨"COMMIT", []⟩, false)] :=
  ⟨⟨rfl, rfl, rfl⟩, rfl, rfl, rfl⟩

end Transact

end Transaction

end RowMapper
