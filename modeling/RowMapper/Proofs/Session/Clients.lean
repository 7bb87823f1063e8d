import RowMapper.Proofs.Session.Runs
import RowMapper.Proofs.Session.Transact
import RowMapper.Session.Client

/-!
# Transactions of clients

Clients use transactions by calls only, also in callbacks, through middlewares and under names that
they gave in the meantime: `Step.sound` and `Callback.sound`. So what is said of callbacks that use
their transaction by calls is said of the callbacks of clients (`Callback.follows_inside`).

A client may know a transaction under several names, and several transactions over one session. It
only has to agree with itself about numbers (`Client.Respects`), and it always does: a transaction
that it begins has a new number (`Client.after_upTo`).
-/

namespace RowMapper

variable {A : Transaction → Prop} {b b' : Backend} {α β : Type}

namespace Client

/-- A client knows no other transaction of the number of a given one. -/
structure Respects (c : Client) (t : Transaction) : Prop where
  directory : c.directory.Respects t
  held : ∀ entry ∈ c.held, entry.2.directory.Respects t

variable {c : Client}

theorem Respects.find {t : Transaction} (h : c.Respects t) (name : String) :
    (c.directory.find name).Respects t :=
  h.directory.find name

/-- A client that gives a session a name knows one more session. -/
theorem respects_bind {name : String} {s : Session} {t : Transaction} :
    (c.bind name s).Respects t ↔ s.Respects t ∧ c.Respects t where
  mp h := ⟨h.directory _ (.head _), fun _ hentry => h.directory _ (.tail _ hentry), h.held⟩
  mpr h := ⟨List.forall_mem_cons.mpr ⟨h.1, h.2.directory⟩, h.2.held⟩

/-- A job that is held for later has no session but those that the client knows. -/
theorem respects_hold {name : String} {d : Draft} {t : Transaction} :
    (c.hold name (c.job d)).Respects t ↔ c.Respects t where
  mp h := ⟨h.directory, fun _ hentry => h.held _ (.tail _ hentry)⟩
  mpr h := ⟨h.directory, List.forall_mem_cons.mpr ⟨h.directory, h.held⟩⟩

/-- To prepare what a database will answer asks it nothing. -/
theorem within_prepare (name : String) (f : Script → Script) : (c.prepare name f).Within A :=
  .modify fun _ => ⟨rfl, fun _ => rfl⟩

/-- Nor does it to register a model. -/
theorem within_register (name : String) (T : EntityType) (options : List ModelOption) :
    (c.register name T options).Within A :=
  .of_quiet fun _ => ⟨rfl, fun _ => rfl⟩

/-- A query in text is run, and its rows are read to the end. -/
theorem within_readSql {s : Session} (hs : ∀ t, A t → s.Respects t) (q : Query) :
    (readSql s q).Within A :=
  .bind (Session.within_query hs q) fun cursor =>
    .bind (Session.within_readAll cursor.rows) fun _ => .pure _

/-- A commit or rollback under a name ends the transaction that has the name; on a database it does
nothing. -/
theorem within_endWith (name : String) (k : Transaction.Call) (hk : k.request.ends = true)
    {f : Transaction → Run Unit} (hf : ∀ u b, (f u b).2 = (k.make u b).2) :
    (c.endWith name f).Within c.Respects := by
  intro b
  rw [endWith]
  cases hfound : c.directory.find name with
  | database name => exact .refl
  | transaction id inner =>
    have hu (t : Transaction) (ht : c.Respects t) :
        (Transaction.session ⟨id, inner⟩).Respects t := by
      have := ht.find name
      rwa [hfound] at this
    have h := Transaction.within_close hk hu b
    rwa [← hf] at h

end Client

/-- What a made step did to the transactions that the client knows. -/
def Made.Sound (m : Made α) (c : Client) (b : Backend) : Prop :=
  Advances c.Respects m.client.Respects b m.backend

/-- A step that is a run, and changes nothing that the client knows. -/
theorem Made.sound_ofRun {x : Run β} {c : Client} (hx : x.Within c.Respects) (b : Backend)
    (answer : β → Answer α) : (ofRun b c x answer).Sound c b := by
  have h := hx b
  rw [ofRun, ofRunWith, Sound]
  rcases hxb : x b with ⟨_ | _, _⟩
  · rwa [hxb] at h
  · rwa [hxb] at h

/-- A transaction that a client begins is one more session that it knows. As its number is new, it
is in dispute with none. -/
theorem Client.advances_begin {c : Client} {s : Session} (hs : ∀ t, c.Respects t → s.Respects t)
    (as : String) {t : Transaction} (hbegin : Transaction.begin s b = (.ok t, b')) :
    Advances c.Respects (c.bind as t.session).Respects b b' := by
  have h : Advances c.Respects (c.bind as t.session).Respects b (Transaction.begin s b).2 := by
    refine RowMapper.advances_begin hs (fun u hu hnew => ?_) fun u hu => (respects_bind.mp hu).2
    rw [Transaction.eq_of_begin hbegin]
    exact respects_bind.mpr ⟨⟨fun h => absurd h.symm hnew, hs u hu⟩, hu⟩
  rwa [hbegin] at h

/-- If it cannot begin, the client knows what it did, though the number is taken. -/
theorem Client.advances_begin_error {c : Client} {s : Session}
    (hs : ∀ t, c.Respects t → s.Respects t) {e : Error}
    (hbegin : Transaction.begin s b = (.error e, b')) :
    Advances c.Respects c.Respects b b' := by
  have h : Advances c.Respects c.Respects b (Transaction.begin s b).2 :=
    RowMapper.advances_begin hs (fun _ hu _ => hu) fun _ hu => hu
  rwa [hbegin] at h

/-- A callback of a client, as `transact` runs it under a name. -/
def Callback.inside (ms : Middlewares) (callback : Callback α) (as : String) (t : Transaction)
    (p : Passage α) (b : Backend) : Ending α × Passage α × Backend :=
  let f := callback.make ms (p.client.bind as t.session) b
  (f.ending, ⟨f.client, f.reports, some (b.log.length, f.backend.log.length)⟩, f.backend)

theorem Step.make_transact (ms : Middlewares) (on as : String) (callback : Callback α) (c : Client)
    (b : Backend) : (Step.transact on as callback).make ms c b =
      let (result, p, b') := Transaction.transact (c.directory.find on) (callback.inside ms as)
        ⟨c, [], none⟩ b
      ⟨.mk (result.map .value) (p.ownEvents b.log.length b'.log) (some p.reports), p.client, b'⟩ :=
    by rw [Step.make]; rfl

/-- A callback that leaves the transactions to calls does so inside a transaction that begins before
it and ends after it. -/
theorem Step.sound_transact {ms : Middlewares} {callback : Callback α}
    (hcallback : ∀ c b, Advances c.Respects (callback.make ms c b).client.Respects b
      (callback.make ms c b).backend) (on as : String) (c : Client) (b : Backend) :
    ((Step.transact on as callback).make ms c b).Sound c b := by
  have hs (t : Transaction) (ht : c.Respects t) : (c.directory.find on).Respects t := ht.find on
  rw [Step.make_transact]
  rcases hbegin : Transaction.begin (c.directory.find on) b with ⟨e | t, b₀⟩
  · rw [Transaction.transact_of_begin_error hbegin]
    exact Client.advances_begin_error hs hbegin
  · rw [Transaction.transact_of_begin hbegin]
    have hrun := hcallback (c.bind as t.session) b₀
    -- the beginning, then the callback, and then the end of the transaction
    refine ((Client.advances_begin hs as hbegin).trans hrun).trans ?_
    refine Transaction.within_conclude _ (fun u hu => ?_) _
    exact (Client.respects_bind.mp (hrun.remembers u hu)).1

mutual

/-- A step leaves the transactions to calls. -/
theorem Step.sound {ms : Middlewares} (hms : ∀ name, ∀ m ∈ ms name, m.Proper) :
    ∀ (s : Step α) (c : Client) (b : Backend), (s.make ms c b).Sound c b
  | .pushRows on r, c, b => by
    rw [Step.make]
    exact Made.sound_ofRun (c.within_prepare _ _) b _
  | .pushExec on r, c, b => by
    rw [Step.make]
    exact Made.sound_ofRun (c.within_prepare _ _) b _
  | .failExec on sql e, c, b => by
    rw [Step.make]
    exact Made.sound_ofRun (c.within_prepare _ _) b _
  | .cancel token, c, b => by
    rw [Step.make]
    exact Made.sound_ofRun (.of_quiet fun _ => ⟨rfl, fun _ => rfl⟩) b _
  | .register on T options, c, b => by
    rw [Step.make]
    exact Made.sound_ofRun (c.within_register _ _ _) b _
  | .core on, c, b => by
    rw [Step.make]
    exact Made.sound_ofRun (.look _) b _
  | .build d, c, b => by
    rw [Step.make]
    exact Made.sound_ofRun (.build _) b _
  | .hold as d, c, b => by
    rw [Step.make]
    exact ⟨Nat.le_refl _, fun _ _ _ => .refl, fun _ ht _ => Client.respects_hold.mpr ht,
      fun _ ht => Client.respects_hold.mp ht⟩
  | .buildHeld name, c, b => by
    rw [Step.make]
    split
    · exact Made.sound_ofRun (.build _) b _
    · exact .refl
  | .exec d, c, b => by
    rw [Step.make]
    exact Made.sound_ofRun (Job.within_exec hms fun t ht => ht.directory) b _
  | .get d, c, b => by
    rw [Step.make]
    exact Made.sound_ofRun (Job.within_get hms fun t ht => ht.directory) b _
  | .getAll d, c, b => by
    rw [Step.make]
    exact Made.sound_ofRun (Job.within_getAll hms fun t ht => ht.directory) b _
  | .execSql on q, c, b => by
    rw [Step.make]
    exact Made.sound_ofRun (Session.within_exec (fun t ht => ht.find on) q) b _
  | .querySql on q, c, b => by
    rw [Step.make]
    exact Made.sound_ofRun (Client.within_readSql (fun t ht => ht.find on) q) b _
  | .begin on as, c, b => by
    -- the one step that makes a new transaction, which the client then holds
    have hs (t : Transaction) (ht : c.Respects t) := ht.find on
    rw [Step.make, Made.ofRunWith]
    rcases hbegin : Transaction.begin (c.directory.find on) b with ⟨e | t, b₀⟩
    · exact Client.advances_begin_error hs hbegin
    · exact Client.advances_begin hs as hbegin
  | .commit on, c, b => by
    rw [Step.make]
    exact Made.sound_ofRun (c.within_endWith on .commit rfl fun _ _ => rfl) b _
  | .rollback on, c, b => by
    rw [Step.make]
    exact Made.sound_ofRun (c.within_endWith on .rollback rfl fun _ _ => rfl) b _
  | .isFinished on, c, b => by
    rw [Step.make]
    exact Made.sound_ofRun (.look _) b _
  | .transact on as callback, c, b => Step.sound_transact (Callback.sound hms callback) on as c b
  | .unwritten e, c, b => by
    rw [Step.make]
    exact Made.sound_ofRun (.fail e) b _

/-- A callback leaves the transactions to calls. -/
theorem Callback.sound {ms : Middlewares} (hms : ∀ name, ∀ m ∈ ms name, m.Proper) :
    ∀ (callback : Callback α) (c : Client) (b : Backend), Advances c.Respects
      (callback.make ms c b).client.Respects b (callback.make ms c b).backend
  | .finish ending, c, b => by
    rw [Callback.make]
    exact .refl
  | .step s next, c, b => by
    have hstep := Step.sound hms s c b
    rw [Callback.make]
    exact hstep.trans (Callback.sound hms (next _) _ _)

end

/-! ## Callbacks -/

/-- A client knows transactions with numbers below a bound only. -/
def Client.UpTo (c : Client) (n : ℕ) : Prop := ∀ t : Transaction, n ≤ t.id → c.Respects t

/-- At first a client knows no transaction. -/
theorem Client.upTo_initial (n : ℕ) : initial.UpTo n :=
  fun _ _ => ⟨List.forall_mem_nil _, List.forall_mem_nil _⟩

/-- What steps leave. -/
def Client.after (ms : Middlewares) : List (Step α) → Client → Backend → Client × Backend
  | [], c, b => (c, b)
  | s :: rest, c, b => after ms rest (s.make ms c b).client (s.make ms c b).backend

section Callbacks

variable {ms : Middlewares} (hms : ∀ name, ∀ m ∈ ms name, m.Proper) {c : Client}

/-- A transaction that was just begun is known under its name. -/
theorem Client.respects_of_begin {on : String} (as : String) {t : Transaction}
    (hc : c.UpTo b.transactions.length)
    (hbegin : Transaction.begin (c.directory.find on) b = (.ok t, b')) :
    t.id < b'.transactions.length ∧ (c.bind as t.session).Respects t := by
  have hlength := Transaction.length_begin (c.directory.find on) b
  obtain rfl := Transaction.eq_of_begin hbegin
  rw [hbegin] at hlength
  have hknown := hc ⟨b.transactions.length, c.directory.find on⟩ (Nat.le_refl _)
  exact ⟨hlength ▸ Nat.lt_succ_self _, respects_bind.mpr ⟨⟨fun _ => rfl, hknown.find on⟩, hknown⟩⟩

include hms

/-- After a step, the client still knows none that is yet to begin. -/
theorem Step.upTo_make (s : Step α) (hc : c.UpTo b.transactions.length) :
    (s.make ms c b).client.UpTo (s.make ms c b).backend.transactions.length := by
  have h := s.sound hms c b
  exact fun t ht => h.knows t (hc t (Nat.le_trans h.grows ht)) (.inr ht)

/-- No client ever knows a transaction by a number that is still to be given. -/
theorem Client.after_upTo (steps : List (Step α)) (hc : c.UpTo b.transactions.length) :
    (after ms steps c b).1.UpTo (after ms steps c b).2.transactions.length := by
  induction steps generalizing c b with
  | nil => exact hc
  | cons s steps ih => exact ih (s.upTo_make hms hc)

variable {callback : Callback α} {on as : String}

/-- What the callback of a client does is a history of its transaction, and a logged one if the
transaction is on a database. -/
theorem Callback.follows_inside (hc : c.UpTo b.transactions.length) :
    (c.directory.find on).Below b.transactions.length ∧
      ∀ t b₀, Transaction.begin (c.directory.find on) b = (.ok t, b₀) →
        t.Follows b₀ (callback.inside ms as t ⟨c, [], none⟩ b₀).2.2 := by
  refine ⟨Session.below_of_respects fun t ht => (hc t ht).find on, fun t b₀ hbegin => ?_⟩
  obtain ⟨hlt, hknown⟩ := Client.respects_of_begin as hc hbegin
  exact (callback.sound hms _ b₀).follows t hknown hlt

/-- So it is for every callback that a client comes to after steps of any kind. -/
theorem Client.follows_after (steps : List (Step α)) (b : Backend) :
    ∀ c b', after ms steps initial b = (c, b') →
      (c.directory.find on).Below b'.transactions.length ∧
        ∀ t b₀, Transaction.begin (c.directory.find on) b' = (.ok t, b₀) →
          t.Follows b₀ (callback.inside ms as t ⟨c, [], none⟩ b₀).2.2 := by
  intro c b' hafter
  have hc := after_upTo hms steps (upTo_initial b.transactions.length)
  rw [hafter] at hc
  exact Callback.follows_inside hms hc

/-- Over a whole run in a transaction on a database, the log of the database shows the messages of
the transaction. -/
theorem Step.logged_transact (hc : c.UpTo b.transactions.length) {name : String}
    (hname : c.directory.find on = .database name) {t : Transaction} {b₀ : Backend}
    (hbegin : Transaction.begin (c.directory.find on) b = (.ok t, b₀)) :
    t.logged ((Step.transact on as callback).make ms c b).backend = t.logged b ++
      (t.messages ((Step.transact on as callback).make ms c b).backend).map Message.sent := by
  have hfollows : t.Follows b₀ ((Step.transact on as callback).make ms c b).backend := by
    obtain ⟨hlt, hknown⟩ := Client.respects_of_begin as hc hbegin
    have hrun := callback.sound hms (c.bind as t.session) b₀
    rw [Step.make_transact, Transaction.transact_of_begin hbegin]
    refine (hrun.follows t hknown hlt).trans (.conclude _ (Client.respects_bind.mp hknown).1 ?_)
    exact Nat.lt_of_lt_of_le hlt hrun.grows
  have hinner : t.inner = .database name := by rw [Transaction.eq_of_begin hbegin, hname]
  obtain ⟨us, hlogged⟩ := hfollows.logged name hinner
  have hs : (c.directory.find on).Below b.transactions.length := hname ▸ trivial
  obtain ⟨ht, -⟩ := Transaction.state?_of_begin hs hbegin
  exact (hlogged.shown ht (Transaction.shown_of_begin hs hbegin)).logged_eq

end Callbacks

end RowMapper
