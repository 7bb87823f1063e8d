import RowMapper.Proofs.Session.Requests

/-!
# Histories of a transaction

`Transaction.History` is what happens from one state to another as far as one transaction is
concerned: whole calls on it, through any of its copies, and in between whatever leaves it alone.
What lies in between may change what any session answers next, so the calls of a history may fail in
every pattern.

`History.state?_of_open` says what is left of a history: the messages of the uses up to the first
one that ends the transaction. `state?_history` starts where a transaction does.

A history may be logged (`Transaction.LoggedHistory`): the session that the transaction was begun on
is open whenever it is asked, and nothing else shows in the log as a request of the transaction.
Then the log of the database shows exactly the messages of the transaction, in order, each with
whether it was accepted.
-/

namespace RowMapper.Transaction

/-- A use of a transaction: a call and its result, or the answer whether the transaction has
ended. -/
inductive Use where
  | call (c : Call) (result : Except Error c.Result)
  | isFinished (flag : Bool)

namespace Use

/-- Whether a use ends an open transaction. -/
def ends : Use → Bool
  | call c _ => c.request.ends
  | isFinished _ => false

/-- The message that a use of an open transaction sends. -/
def message? : Use → Option Message
  | call c result => some (.answered c.request result)
  | isFinished _ => none

@[simp]
theorem ends_call (c : Call) (result : Except Error c.Result) :
    (call c result).ends = c.request.ends := rfl

@[simp]
theorem ends_isFinished (flag : Bool) : (isFinished flag).ends = false := rfl

@[simp]
theorem message?_call (c : Call) (result : Except Error c.Result) :
    (call c result).message? = some (.answered c.request result) := rfl

@[simp]
theorem message?_isFinished (flag : Bool) : (isFinished flag).message? = none := rfl

/-- What a use of a transaction gives by whether the transaction has ended. Calls on an open
transaction may give anything. -/
def Fits (finished : Bool) : Use → Prop
  | call _ result => finished = true → result = .error .transactionFinished
  | isFinished flag => flag = finished

/-- The uses up to the first one that ends the transaction, and that one. -/
def live (us : List Use) : List Use :=
  us.takeWhile (!·.ends) ++ (us.dropWhile (!·.ends)).take 1

/-- The uses after the first one that ends the transaction. -/
def late (us : List Use) : List Use := (us.dropWhile (!·.ends)).drop 1

variable {u : Use} {us : List Use}

/-- The uses that count go on up to one that ends the transaction. -/
theorem live_cons : live (u :: us) = u :: if u.ends then [] else live us := by
  cases h : u.ends <;> simp [live, h]

/-- The uses that come too late are all those after one that ends the transaction. -/
theorem late_cons : late (u :: us) = if u.ends then us else late us := by
  cases h : u.ends <;> simp [late, h]

end Use

/-- What happens from one state to another, seen from a transaction. -/
inductive History (t : Transaction) : List Use → Backend → Backend → Prop
  | nil (b : Backend) : History t [] b b
  | elsewhere {us : List Use} {b b₁ b₂ : Backend} : t.state? b₁ = t.state? b →
      History t us b₁ b₂ → History t us b b₂
  | call {us : List Use} {b b₂ : Backend} (c : Call) : History t us (c.make t b).2 b₂ →
      History t (.call c (c.make t b).1 :: us) b b₂
  | isFinished {us : List Use} {b b₂ : Backend} : History t us b b₂ →
      History t (.isFinished (t.isFinished b) :: us) b b₂

/-- A history during which the log shows nothing of the transaction but its calls: each of them
comes from the transaction and finds the session that the transaction was begun on open, and what
lies between them logs nothing that comes from the transaction. -/
inductive LoggedHistory (t : Transaction) : List Use → Backend → Backend → Prop
  | nil (b : Backend) : LoggedHistory t [] b b
  | elsewhere {us : List Use} {b b₁ b₂ : Backend} : t.state? b₁ = t.state? b →
      t.logged b₁ = t.logged b → LoggedHistory t us b₁ b₂ → LoggedHistory t us b b₂
  | call {us : List Use} {b b₂ : Backend} (c : Call) : (c.sender t).goesThrough t = true →
      t.inner.isOpen b = true → LoggedHistory t us (c.make t b).2 b₂ →
      LoggedHistory t (.call c (c.make t b).1 :: us) b b₂
  | isFinished {us : List Use} {b b₂ : Backend} : LoggedHistory t us b b₂ →
      LoggedHistory t (.isFinished (t.isFinished b) :: us) b b₂

namespace History

variable {t : Transaction} {us vs : List Use} {b b₁ b₂ : Backend} {s : TransactionState}

/-- Histories follow each other. -/
theorem append (h : t.History us b b₁) (h' : t.History vs b₁ b₂) : t.History (us ++ vs) b b₂ := by
  induction h with
  | nil => exact h'
  | elsewhere hstate _ ih => exact .elsewhere hstate (ih h')
  | call c _ ih => exact .call c (ih h')
  | isFinished _ ih => exact .isFinished (ih h')

/-- A transaction that has ended stays as it is, and its uses tell so. -/
theorem state?_of_finished (h : t.History us b b₁) (hs : t.state? b = some s)
    (hfinished : s.finished = true) : t.state? b₁ = some s ∧ ∀ u ∈ us, u.Fits true := by
  induction h with
  | nil => exact ⟨hs, by simp⟩
  | elsewhere hstate _ ih => exact ih (hstate.trans hs)
  | @call us b b₂ c _ ih =>
    have hended : t.isFinished b = true := by rw [isFinished_eq hs, hfinished]
    rw [c.make_of_finished b hended] at ih ⊢
    obtain ⟨hstate, hlate⟩ := ih hs
    exact ⟨hstate, List.forall_mem_cons.mpr ⟨fun _ => rfl, hlate⟩⟩
  | @isFinished us b b₂ _ ih =>
    have hended : t.isFinished b = true := by rw [isFinished_eq hs, hfinished]
    obtain ⟨hstate, hlate⟩ := ih hs
    exact ⟨hstate, List.forall_mem_cons.mpr ⟨hended, hlate⟩⟩

/-- What a history of an open transaction leaves of it. -/
theorem state?_of_open (ht : t.Proper) (h : t.History us b b₁) (hs : t.state? b = some s)
    (hopen : s.finished = false) :
    t.state? b₁ = some ⟨us.any Use.ends, s.messages ++ (Use.live us).filterMap Use.message?⟩ ∧
      (∀ u ∈ Use.live us, u.Fits false) ∧ ∀ u ∈ Use.late us, u.Fits true := by
  induction h generalizing s with
  | nil b =>
    obtain ⟨finished, messages⟩ := s
    obtain rfl : finished = false := hopen
    exact ⟨by simpa [Use.live] using hs, by simp [Use.live], by simp [Use.late]⟩
  | elsewhere hstate _ ih => exact ih (hstate.trans hs) hopen
  | @call us b b₂ c hrest ih =>
    have hmade := c.state?_make b ht hs hopen
    rw [Use.live_cons, Use.late_cons, List.any_cons, Use.ends_call]
    cases hends : c.request.ends with
    | true =>
      rw [hends] at hmade
      -- a commit or rollback ends the live part, also if the database refuses it
      obtain ⟨hstate, hlate⟩ := hrest.state?_of_finished hmade rfl
      exact ⟨hstate, by simp [Use.Fits], hlate⟩
    | false =>
      obtain ⟨hstate, hlive, hlate⟩ := ih hmade hends
      refine ⟨?_, List.forall_mem_cons.mpr ⟨by simp [Use.Fits], hlive⟩, hlate⟩
      simpa using hstate
  | @isFinished us b b₂ _ ih =>
    have hactive : t.isFinished b = false := by rw [isFinished_eq hs, hopen]
    obtain ⟨hstate, hlive, hlate⟩ := ih hs hopen
    rw [Use.live_cons, Use.late_cons]
    refine ⟨?_, List.forall_mem_cons.mpr ⟨hactive, hlive⟩, hlate⟩
    simpa [List.filterMap_cons] using hstate

end History

namespace LoggedHistory

variable {t : Transaction} {us vs : List Use} {b b₁ b₂ : Backend}

/-- A logged history is a history. -/
theorem history (h : t.LoggedHistory us b b₁) : t.History us b b₁ := by
  induction h with
  | nil b => exact .nil b
  | elsewhere hstate _ _ ih => exact .elsewhere hstate ih
  | call c _ _ _ ih => exact .call c ih
  | isFinished _ ih => exact .isFinished ih

/-- Logged histories follow each other. -/
theorem append (h : t.LoggedHistory us b b₁) (h' : t.LoggedHistory vs b₁ b₂) :
    t.LoggedHistory (us ++ vs) b b₂ := by
  induction h with
  | nil => exact h'
  | elsewhere hstate hlog _ ih => exact .elsewhere hstate hlog (ih h')
  | call c hsender hopen _ ih => exact .call c hsender hopen (ih h')
  | isFinished _ ih => exact .isFinished (ih h')

/-- In a logged history, the log goes on showing the messages of the transaction. -/
theorem shown (ht : t.Proper) {before : List (Query × Bool)} (h : t.LoggedHistory us b b₁)
    (hb : t.Shown before b) : t.Shown before b₁ := by
  induction h with
  | nil => exact hb
  | elsewhere hstate hlog _ ih => exact ih (hb.congr hstate hlog)
  | call c hsender hopen _ ih => exact ih (hb.make ht c hsender hopen)
  | isFinished _ ih => exact ih hb

end LoggedHistory

/-! ## Histories from the beginning -/

variable {s : Session} {b b₀ : Backend}

/-- To begin a transaction is to add it to the others and then to send its first message. -/
theorem begin_apply (s : Session) (b : Backend) : begin s b =
    let t : Transaction := ⟨b.transactions.length, s⟩
    let answered := t.sending .begin (s.deliver .outcome t.session .begin) b.addTransaction
    (answered.1.map fun _ => t, answered.2) :=
  Run.bind_pure_apply _ _ _

/-- Beginning a transaction sends one message. -/
theorem state?_begin (hs : s.Below b.transactions.length) :
    (⟨b.transactions.length, s⟩ : Transaction).state? (begin s b).2 =
      some ⟨false, [.answered .begin (begin s b).1]⟩ := by
  generalize ht : (⟨b.transactions.length, s⟩ : Transaction) = t
  have hid : t.id = b.transactions.length := by rw [← ht]
  have hfresh : t.state? (s.deliver .outcome t.session .begin b.addTransaction).2 =
      some .fresh := by
    rw [state?, hid, Session.getElem?_deliver _ hs]
    simp [Backend.addTransaction]
  have hsent := state?_sending .begin hfresh
  rw [begin_apply, Message.answered_map, ht]
  exact hsent

/-- A transaction that was begun has the next number. -/
theorem eq_of_begin {t : Transaction} (h : begin s b = (.ok t, b₀)) :
    t = ⟨b.transactions.length, s⟩ := by
  have hmap {α β : Type} {y z : β} : ∀ {x : Except Error α}, x.map (fun _ => y) = .ok z → z = y
    | .ok _, rfl => rfl
  rw [begin_apply] at h
  exact hmap (Prod.mk.inj h).1

/-- A transaction that was just begun is open, and has sent its first message. -/
theorem state?_of_begin {t : Transaction} (hs : s.Below b.transactions.length)
    (h : begin s b = (.ok t, b₀)) : t.Proper ∧ t.state? b₀ = some ⟨false, [⟨.begin, none⟩]⟩ := by
  have hstate := state?_begin hs
  rw [h, ← eq_of_begin h] at hstate
  exact ⟨eq_of_begin h ▸ hs, hstate⟩

/-- A transaction that is about to begin is not yet one that an older session goes through. -/
theorem isOpen_addTransaction (hs : s.Below b.transactions.length) :
    s.isOpen b.addTransaction = s.isOpen b :=
  Session.Below.isOpen_congr (fun _ hi => List.getElem?_append_left hi) hs

/-- The first message of a transaction on an open session is in the log, whether it is accepted or
not. -/
theorem shown_begin (hs : s.Below b.transactions.length) (hopen : s.isOpen b = true) :
    let t : Transaction := ⟨b.transactions.length, s⟩
    t.Shown (t.logged b) (begin s b).2 := by
  intro t
  have hfresh : t.Shown (t.logged b) b.addTransaction :=
    ⟨.fresh, by simp [t, state?, Backend.addTransaction], (List.append_nil _).symm⟩
  rw [begin_apply]
  exact hfresh.sending hs t.goesThrough_session_self (by rwa [isOpen_addTransaction hs]) rfl

/-- A transaction only begins on an open session, and then its first message is in the log. -/
theorem shown_of_begin {t : Transaction} (hs : s.Below b.transactions.length)
    (h : begin s b = (.ok t, b₀)) : t.Shown (t.logged b) b₀ := by
  have hopen : s.isOpen b = true := by
    rw [← isOpen_addTransaction hs]
    have hok := congrArg Prod.fst h
    rw [begin_apply] at hok
    cases hanswer : (s.deliver .outcome (session ⟨b.transactions.length, s⟩) .begin
      b.addTransaction).1 with
    | ok a => exact Session.isOpen_of_ok hanswer
    | error e => simp [sending, hanswer, Except.map] at hok
  have hshown := shown_begin hs hopen
  rwa [h, ← eq_of_begin h] at hshown

/-- The messages of a transaction: that it begins, then one for every call up to the first commit or
rollback, whatever the answers. Every later call fails and sends nothing, and the transaction counts
as ended from that commit or rollback on, even if it failed itself. If the history is logged, these
messages are also what the log of the database shows of the transaction. -/
theorem state?_history {t : Transaction} {us : List Use} {b₁ : Backend}
    (hs : s.Below b.transactions.length) (hbegin : begin s b = (.ok t, b₀))
    (h : t.History us b₀ b₁) :
    t.state? b₁ =
        some ⟨us.any Use.ends, ⟨.begin, none⟩ :: (Use.live us).filterMap Use.message?⟩ ∧
      (∀ u ∈ Use.live us, u.Fits false) ∧ (∀ u ∈ Use.late us, u.Fits true) ∧
      (t.LoggedHistory us b₀ b₁ →
        t.logged b₁ = t.logged b ++ (t.messages b₁).map Message.sent) := by
  obtain ⟨ht, hstate⟩ := state?_of_begin hs hbegin
  obtain ⟨hused, hlive, hlate⟩ := h.state?_of_open ht hstate rfl
  exact ⟨hused, hlive, hlate, fun hlogged =>
    (hlogged.shown ht (shown_of_begin hs hbegin)).logged_eq⟩

/-! A database that refuses one text, and a transaction on it. -/

namespace Ledger

def backend (refused : String) : Backend :=
  (Backend.initial (fun name => ⟨.sqlite, .byName, name⟩) fun _ => .empty).setScript "ledger"
    (Script.empty.failOn refused (.unknown "disk full"))

def transaction : Transaction := ⟨0, .database "ledger"⟩

def insert : Call :=
  .run .outcome transaction.session (.exec ⟨"INSERT INTO `entry` VALUES(?);", [.integer 1]⟩)

end Ledger

/-- A commit that fails ends a transaction, too. The log shows what was sent up to it, and nothing
of the call after it. -/
theorem state?_history_refused_commit :
    let t := Ledger.transaction
    let b₀ := (begin t.inner (Ledger.backend "COMMIT")).2
    let b₁ := (Ledger.insert.make t b₀).2
    let b₂ := (Call.commit.make t b₁).2
    let b₃ := (Ledger.insert.make t b₂).2
    t.state? b₃ = some ⟨true, [⟨.begin, none⟩, ⟨Ledger.insert.request, none⟩,
        ⟨.commit, some (.unknown "disk full")⟩]⟩ ∧
      t.isFinished b₁ = false ∧ t.isFinished b₂ = true ∧
      (Ledger.insert.make t b₂).1 = .error .transactionFinished ∧
      t.logged b₃ = [(⟨"BEGIN", []⟩, true), (Ledger.insert.request.sent, true),
        (⟨"COMMIT", []⟩, false)] := by
  intro t b₀ b₁ b₂ b₃
  have h : t.LoggedHistory _ b₀ b₃ :=
    .call Ledger.insert rfl rfl (.isFinished (.call .commit rfl rfl
      (.isFinished (.call Ledger.insert rfl rfl (.nil b₃)))))
  have hs : t.inner.Below (Ledger.backend "COMMIT").transactions.length := trivial
  obtain ⟨hstate, hlive, hlate, hlogged⟩ := state?_history hs rfl h.history
  exact ⟨hstate, hlive _ (.tail _ (.head _)), hlate _ (.head _), hlate _ (.tail _ (.head _)) rfl,
    hlogged h⟩

end RowMapper.Transaction
