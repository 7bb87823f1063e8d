import Mathlib.Data.List.Forall2
import Mathlib.Logic.Function.Basic
import Mathlib.Logic.Relation
import RowMapper.Proofs.Session.Transact

/-!
# Copies of a transaction side by side

Copies of a transaction may be in use at the same time. A call then takes its two steps one by one,
and any steps of other copies may lie in between: `Copies.Step`. The step that enters a commit or a
rollback can succeed once only, so at most one of them is ever sent (`Copies.Phase`). A statement is
different: it may have entered before the transaction ended and be sent after that.

`late_messages` says what is sent after the commit or rollback: the statements of the calls that had
entered when it was sent, and nothing at all if and only if there were none. As long as the session
below is open and nothing else is logged in the name of the transaction (`Copies.LoggedStep`), what
is sent is what the log of the database shows, in the order in which it was sent.
-/

namespace RowMapper.Transaction

/-- Copies of a transaction: the calls that they have entered and not yet sent, and the state of all
sessions. -/
structure Copies (ι : Type) where
  entered : ι → Option Call
  backend : Backend

namespace Copies

variable {ι : Type} [DecidableEq ι] {t : Transaction} {x y z : Copies ι}

/-- Copies that are not in the middle of a call. -/
def idle (b : Backend) : Copies ι := ⟨fun _ => none, b⟩

/-- The copies after one of them entered a call. -/
def enter (t : Transaction) (x : Copies ι) (i : ι) (c : Call) : Copies ι :=
  ⟨Function.update x.entered i (some c), (c.enter t x.backend).2⟩

/-- The copies after one of them sent what it had entered. -/
def send (t : Transaction) (x : Copies ι) (i : ι) (c : Call) : Copies ι :=
  ⟨Function.update x.entered i none, (c.send t x.backend).2⟩

/-- One step of one copy, or something else that leaves the transaction alone. -/
inductive Step (t : Transaction) : Copies ι → Copies ι → Prop
  | enter (x : Copies ι) (i : ι) (c : Call) : x.entered i = none →
      (c.enter t x.backend).1 = .ok () → Step t x (x.enter t i c)
  | refused (x : Copies ι) (i : ι) (c : Call) (e : Error) : x.entered i = none →
      (c.enter t x.backend).1 = .error e → Step t x ⟨x.entered, (c.enter t x.backend).2⟩
  | send (x : Copies ι) (i : ι) (c : Call) : x.entered i = some c → Step t x (x.send t i c)
  | elsewhere (x : Copies ι) (b : Backend) : t.state? b = t.state? x.backend →
      Step t x ⟨x.entered, b⟩

/-- The states that copies come to in any number of steps. -/
abbrev Reaches (t : Transaction) : Copies ι → Copies ι → Prop := Relation.ReflTransGen (Step t)

/-- A step during which the log shows nothing of the transaction but what its copies send: their
calls come from the transaction, the session that it was begun on is open, and what else happens
logs nothing that comes from the transaction. -/
structure LoggedStep (t : Transaction) (x y : Copies ι) : Prop where
  step : Step t x y
  senders : ∀ i c, x.entered i = some c → (c.sender t).goesThrough t = true
  isOpen : t.inner.isOpen x.backend = true
  elsewhere : y.entered = x.entered → t.logged y.backend = t.logged x.backend

/-- The states that copies come to in any number of steps of that kind. -/
abbrev ReachesLogged (t : Transaction) : Copies ι → Copies ι → Prop :=
  Relation.ReflTransGen (LoggedStep t)

/-- Whole calls are made by taking both steps in a row, so a history is one way to interleave. -/
theorem reaches_of_history (i : ι) {us : List Use} {b b₁ : Backend} (h : t.History us b b₁) :
    Reaches t (idle b : Copies ι) (idle b₁) := by
  induction h with
  | nil => exact .refl
  | elsewhere hstate _ ih => exact .head (.elsewhere _ _ hstate) ih
  | @call us b b₂ c _ ih =>
    cases hfinished : t.isFinished b with
    | true =>
      rw [c.make_of_finished b hfinished] at ih
      exact ih
    | false =>
      have hok : (c.enter t b).1 = .ok () := by rw [c.enter_apply, hfinished]; rfl
      -- a call by one user is the two steps of one copy in a row
      have hsent : ((idle b : Copies ι).enter t i c).send t i c = idle (c.make t b).2 := by
        rw [c.make_of_open b hfinished]
        simp [send, enter, idle]
      rw [← hsent] at ih
      have hentered : ((idle b : Copies ι).enter t i c).entered i = some c := by simp [enter]
      exact .head (.enter _ i c rfl hok) (.head (.send _ i c hentered) ih)
  | isFinished _ ih => exact ih

/-- A step leaves the log showing the messages of the transaction. -/
theorem LoggedStep.shown {before : List (Query × Bool)} (ht : t.Proper) (h : LoggedStep t x y)
    (hx : t.Shown before x.backend) : t.Shown before y.backend := by
  obtain ⟨hstep, hsenders, hopen, helsewhere⟩ := h
  cases hstep with
  | enter i c | refused i c => exact hx.enter c
  | send i c hi => exact hx.send ht c (hsenders i c hi) hopen
  | elsewhere b hb => exact hx.congr hb (helsewhere rfl)

/-- However the copies take their steps, the log goes on showing what they send. -/
theorem shown_of_reachesLogged {before : List (Query × Bool)} (ht : t.Proper)
    (h : ReachesLogged t x y) (hx : t.Shown before x.backend) : t.Shown before y.backend := by
  induction h with
  | refl => exact hx
  | tail _ hstep ih => exact hstep.shown ht ih

/-! ## At most one commit or rollback -/

/-- A copy has entered a commit or rollback. -/
def Ending (entered : ι → Option Call) (i : ι) : Prop :=
  ∃ c, entered i = some c ∧ c.request.ends = true

/-- A transaction is open, or a copy is about to send what ends it, or that was sent. -/
inductive Phase (entered : ι → Option Call) (s : TransactionState) : Prop
  | active (hopen : s.finished = false) (hnobody : ∀ i, ¬ Ending entered i)
      (hsent : s.messages.filter (·.request.ends) = [])
  | ending (hended : s.finished = true) (i : ι) (honly : ∀ j, Ending entered j ↔ j = i)
      (hsent : s.messages.filter (·.request.ends) = [])
  | ended (hended : s.finished = true) (hnobody : ∀ i, ¬ Ending entered i) (m : Message)
      (hsent : s.messages.filter (·.request.ends) = [m])

section Phase

variable {entered : ι → Option Call} {i j : ι} {c : Call} {s : TransactionState}

theorem ending_update_some (hi : entered i = none) :
    Ending (Function.update entered i (some c)) j ↔
      Ending entered j ∨ j = i ∧ c.request.ends = true := by
  by_cases hj : j = i
  · subst hj
    simp [Ending, hi]
  · simp [Ending, hj]

theorem ending_update_none :
    Ending (Function.update entered i none) j ↔ j ≠ i ∧ Ending entered j := by
  by_cases hj : j = i
  · subst hj
    simp [Ending]
  · simp [Ending, hj]

theorem Phase.enter (hi : entered i = none) (hopen : s.finished = false) (h : Phase entered s) :
    Phase (Function.update entered i (some c)) { s with finished := c.request.ends } := by
  cases h with
  | active _ hnobody hsent =>
    cases hends : c.request.ends with
    | false =>
      exact .active rfl (fun j => by simp [ending_update_some hi, hnobody, hends]) hsent
    | true =>
      exact .ending rfl i (fun j => by simp [ending_update_some hi, hnobody, hends]) hsent
  | ending hended | ended hended => simp [hopen] at hended

theorem Phase.send {m : Message} (hi : entered i = some c) (hm : m.request = c.request)
    (h : Phase entered s) :
    Phase (Function.update entered i none) { s with messages := s.messages ++ [m] } := by
  have hend : Ending entered i ↔ c.request.ends = true := by simp [Ending, hi]
  cases h with
  | active hopen hnobody hsent =>
    have hstatement : c.request.ends = false := by simpa using mt hend.mpr (hnobody i)
    exact .active hopen (fun j => by simp [ending_update_none, hnobody])
      (by simp [hsent, hm, hstatement])
  | ending hended k honly hsent =>
    rw [honly] at hend
    by_cases hk : i = k
    · subst hk
      exact .ended hended (fun j => by simp [ending_update_none, honly]) m
        (by simp [hsent, hm, hend.mp rfl])
    · have hstatement : c.request.ends = false := by simpa [hk] using hend
      refine .ending hended k (fun j => ?_) (by simp [hsent, hm, hstatement])
      -- another copy sends its statement while the one that ends is inside
      rw [ending_update_none, honly, and_iff_right_iff_imp]
      rintro rfl
      exact Ne.symm hk
  | ended hended hnobody m' hsent =>
    have hstatement : c.request.ends = false := by simpa using mt hend.mpr (hnobody i)
    exact .ended hended (fun j => by simp [ending_update_none, hnobody]) m'
      (by simp [hsent, hm, hstatement])

omit [DecidableEq ι] in
theorem Phase.of_ending (h : Phase entered s) (hi : Ending entered i) :
    s.finished = true ∧ ∀ j, Ending entered j ↔ j = i := by
  cases h with
  | active _ hnobody | ended _ hnobody => exact absurd hi (hnobody i)
  | ending hended k honly =>
    obtain rfl : i = k := (honly i).mp hi
    exact ⟨hended, honly⟩

end Phase

/-- A transaction was begun and is in one of its phases. -/
def InPhase (t : Transaction) (x : Copies ι) : Prop :=
  ∃ s, t.state? x.backend = some s ∧ Phase x.entered s

theorem InPhase.step (ht : t.Proper) (h : Step t x y) (hx : InPhase t x) : InPhase t y := by
  obtain ⟨s, hs, hphase⟩ := hx
  have hfinished : t.isFinished x.backend = s.finished := isFinished_eq hs
  cases h with
  | enter i c hi hok =>
    have hopen : s.finished = false := by
      by_contra hended
      rw [c.enter_of_finished _ (by simpa [hfinished] using hended)] at hok
      simp at hok
    exact ⟨_, (c.enter_of_open _ hs hopen).2, hphase.enter hi hopen⟩
  | refused i c e hi he =>
    have hended : t.isFinished x.backend = true := by
      by_contra hopen
      rw [(c.enter_of_open _ hs (by simpa [hfinished] using hopen)).1] at he
      simp at he
    rw [c.enter_of_finished _ hended]
    exact ⟨s, hs, hphase⟩
  | send i c hi => exact ⟨_, c.state?_send x.backend ht hs, hphase.send hi (by simp)⟩
  | elsewhere b hb => exact ⟨s, hb.trans hs, hphase⟩

theorem InPhase.reaches (ht : t.Proper) (h : Reaches t x y) (hx : InPhase t x) : InPhase t y := by
  induction h with
  | refl => exact hx
  | tail _ hstep ih => exact ih.step ht hstep

/-! ## What is sent after it -/

/-- Once a transaction has ended, copies can only send what they have entered, each at most once. -/
theorem late_of_reaches {s : TransactionState} (ht : t.Proper)
    (hs : t.state? y.backend = some s) (hended : s.finished = true) (h : Reaches t y z) :
    ∃ (is : List ι) (late : List Message), is.Nodup ∧
      t.state? z.backend = some { s with messages := s.messages ++ late } ∧
      List.Forall₂ (fun i m => ∃ c, y.entered i = some c ∧ m.request = c.request) is late ∧
      ∀ i, z.entered i = if i ∈ is then none else y.entered i := by
  induction h with
  | refl => exact ⟨[], [], List.nodup_nil, by simpa using hs, .nil, by simp⟩
  | @tail x z _ hstep ih =>
    obtain ⟨is, late, hnodup, hstate, hlate, hentered⟩ := ih
    have hfinished : t.isFinished x.backend = true := by rw [isFinished_eq hstate, hended]
    cases hstep with
    | enter i c hi hok =>
      rw [c.enter_of_finished _ hfinished] at hok
      simp at hok
    | refused i c e hi he =>
      rw [c.enter_of_finished _ hfinished]
      exact ⟨is, late, hnodup, hstate, hlate, hentered⟩
    | send i c hi =>
      -- a copy that has sent is outside and does not enter again, so it is a new one
      have hnew : i ∉ is ∧ y.entered i = some c := by simpa [hentered] using hi
      refine ⟨is ++ [i], late ++ [.answered c.request (c.send t x.backend).1], ?_, ?_, ?_, ?_⟩
      · simpa [List.nodup_append, hnodup] using fun j hj => ne_of_mem_of_not_mem hj hnew.1
      · rw [← List.append_assoc]
        exact c.state?_send x.backend ht hstate
      · exact List.rel_append hlate (.cons ⟨c, hnew.2, by simp⟩ .nil)
      · intro j
        by_cases hj : j = i
        · simp [send, hj]
        · simp [send, hj, hentered]
    | elsewhere b hb => exact ⟨is, late, hnodup, hb.trans hstate, hlate, hentered⟩

/-- Of all copies of a transaction, at most one sends a commit or rollback. After that, only the
statements of calls that had entered by then are sent, each at most once, and so nothing at all if
and only if no copy was in the middle of a call. Wherever the copies come to by logged steps, the
log of the database shows what they have sent. -/
theorem late_messages {s : Session} {b b₀ : Backend} (hs : s.Below b.transactions.length)
    (hbegin : begin s b = (.ok t, b₀)) (hx : Reaches t (idle b₀) x) :
    (t.endings x.backend).length ≤ 1 ∧
    (ReachesLogged t (idle b₀) x →
      t.logged x.backend = t.logged b ++ (t.messages x.backend).map Message.sent) ∧
    ∀ i c y, x.entered i = some c → c.request.ends = true → y = x.send t i c →
      (∀ z, Reaches t y z → ∃ (js : List ι) (late : List Message), js.Nodup ∧
        t.messages z.backend = t.messages y.backend ++ late ∧
        List.Forall₂ (fun j m => ∃ c', y.entered j = some c' ∧ c'.request.ends = false ∧
          m.request = c'.request) js late) ∧
      ((∀ z, Reaches t y z → t.messages z.backend = t.messages y.backend) ↔
        ∀ j, y.entered j = none) := by
  obtain ⟨ht, hstart⟩ := state?_of_begin hs hbegin
  have hidle : InPhase t (idle b₀ : Copies ι) :=
    ⟨_, hstart, .active rfl (fun i => by simp [Ending, idle]) rfl⟩
  obtain ⟨state, hstate, hphase⟩ := hidle.reaches ht hx
  have hlogged (h : ReachesLogged t (idle b₀) x) : t.Shown (t.logged b) x.backend :=
    shown_of_reachesLogged ht h (shown_of_begin hs hbegin)
  refine ⟨?_, fun h => (hlogged h).logged_eq, fun i c y hi hends hy => ?_⟩
  · rw [endings, messages_eq hstate]
    cases hphase with
    | active _ _ hsent | ending _ _ _ hsent | ended _ _ _ hsent => simp [hsent]
  -- from here on no copy enters; the copies inside are all that can still send
  · obtain ⟨hended, honly⟩ := hphase.of_ending ⟨c, hi, hends⟩
    subst hy
    have hsent : t.state? (x.send t i c).backend = some { state with
        messages := state.messages ++ [.answered c.request (c.send t x.backend).1] } :=
      c.state?_send x.backend ht hstate
    have hstatement {j : ι} {c' : Call} (hj : (x.send t i c).entered j = some c') :
        c'.request.ends = false := by
      by_contra hends'
      have hending := ending_update_none.mp ⟨c', hj, by simpa using hends'⟩
      exact hending.1 ((honly j).mp hending.2)
    refine ⟨fun z hz => ?_, fun hnothing j => ?_, fun hnobody z hz => ?_⟩
    · obtain ⟨js, late, hnodup, hz, hlate, -⟩ := late_of_reaches ht hsent hended hz
      refine ⟨js, late, hnodup, by rw [messages_eq hz, messages_eq hsent], ?_⟩
      refine hlate.imp fun j m hentered => ?_
      obtain ⟨c', hj, hm⟩ := hentered
      exact ⟨c', hj, hstatement hj, hm⟩
    · by_contra hj
      obtain ⟨c', hj⟩ := Option.ne_none_iff_exists'.mp hj
      -- a copy that is inside could send next, and its message would be kept
      have hlate := hnothing _ (.single (.send _ j c' hj))
      have hmore : t.state? ((x.send t i c).send t j c').backend = _ :=
        c'.state?_send _ ht hsent
      rw [messages_eq hsent, messages_eq hmore] at hlate
      simp at hlate
    · obtain ⟨js, late, -, hz, hlate, -⟩ := late_of_reaches ht hsent hended hz
      cases hlate with
      | nil => rw [messages_eq hz, messages_eq hsent, List.append_nil]
      | cons hj _ =>
        obtain ⟨c', hj, -⟩ := hj
        simp [hnobody] at hj

/-- Two copies: one has entered a statement when the other commits. -/
def crossing : Copies Bool :=
  ((idle (begin Ledger.transaction.inner (Ledger.backend "ROLLBACK")).2).enter Ledger.transaction
    true Ledger.insert).enter Ledger.transaction false .commit

/-- The statement of a copy that entered before the commit is still to come. So far, only that the
transaction begins is in the log. -/
theorem late_messages_crossing :
    let y := crossing.send Ledger.transaction false .commit
    (Ledger.transaction.endings crossing.backend).length ≤ 1 ∧
      Ledger.transaction.logged crossing.backend = [(⟨"BEGIN", []⟩, true)] ∧
      ¬ ∀ z, Reaches Ledger.transaction y z →
        Ledger.transaction.messages z.backend = Ledger.transaction.messages y.backend := by
  intro y
  have hs : Ledger.transaction.inner.Below (Ledger.backend "ROLLBACK").transactions.length :=
    trivial
  let b := (begin Ledger.transaction.inner (Ledger.backend "ROLLBACK")).2
  let x := (idle b : Copies Bool).enter Ledger.transaction true Ledger.insert
  have hstatement : LoggedStep Ledger.transaction (idle b) x :=
    ⟨.enter _ true Ledger.insert rfl rfl, nofun, rfl, fun _ => rfl⟩
  have hsenders : ∀ i c, x.entered i = some c →
      (c.sender Ledger.transaction).goesThrough Ledger.transaction = true
    | true, _, rfl => rfl
  have hcommit : LoggedStep Ledger.transaction x crossing :=
    ⟨.enter _ false .commit rfl rfl, hsenders, rfl, fun _ => rfl⟩
  have hx : Reaches Ledger.transaction (idle _) crossing :=
    .tail (.single hstatement.step) hcommit.step
  obtain ⟨hone, hlogged, hlate⟩ := late_messages hs rfl hx
  obtain ⟨-, hiff⟩ := hlate false .commit y rfl rfl rfl
  refine ⟨hone, hlogged (.tail (.single hstatement) hcommit), fun hnothing => ?_⟩
  have hentered : y.entered true = some Ledger.insert := rfl
  rw [hiff.mp hnothing true] at hentered
  simp at hentered

/-- A statement is sent after the commit, and so it stands in the log. So it is without any copies
if the commit is that of a transaction that was begun on this one. -/
theorem statement_after_commit :
    let t := Ledger.transaction
    let b := (begin t.inner (Ledger.backend "ROLLBACK")).2
    let z := (crossing.send t false .commit).send t true Ledger.insert
    let u : Transaction := ⟨1, t.session⟩
    let b₁ := (t.commit (Ledger.insert.make t (u.commit (begin t.session b).2).2).2).2
    Reaches t (idle b) z ∧
      t.messages z.backend = [⟨.begin, none⟩, ⟨.commit, none⟩, ⟨Ledger.insert.request, none⟩] ∧
      t.logged z.backend = [(⟨"BEGIN", []⟩, true), (⟨"COMMIT", []⟩, true),
        (Ledger.insert.request.sent, true)] ∧
      t.messages b₁ = [⟨.begin, none⟩, ⟨.exec ⟨"BEGIN", []⟩, none⟩, ⟨.exec ⟨"COMMIT", []⟩, none⟩,
        ⟨Ledger.insert.request, none⟩, ⟨.commit, none⟩] := by
  refine ⟨?_, by decide +kernel, by decide +kernel, by decide +kernel⟩
  calc Reaches Ledger.transaction (idle _) _ := .single (.enter _ true Ledger.insert rfl rfl)
    Reaches Ledger.transaction _ crossing := .single (.enter _ false .commit rfl rfl)
    Reaches Ledger.transaction crossing _ := .single (.send _ false .commit rfl)
    Reaches Ledger.transaction _ _ := .single (.send _ true Ledger.insert rfl)

end Copies

end RowMapper.Transaction
