import RowMapper.Proofs.Session.Asides

/-!
# Runs

A run is made of other runs, up to what sessions deliver and what touches neither transactions nor
the log. `Advances` says what it does to the transactions that its sessions agree on; there is one
lemma for each way to make a run, and so one for each thing that a library user can run. Middlewares
are the user's own: `Middleware.Proper` says what they may not do by themselves, and all that come
with the library are proper.
-/

namespace RowMapper

/-- From one state to another, with the transactions that are agreed on before and after: those that
had begun are followed, all that were not begun meanwhile are still agreed on, and nothing that was
in dispute is settled. -/
structure Advances (A A' : Transaction → Prop) (b b' : Backend) : Prop where
  grows : b.transactions.length ≤ b'.transactions.length
  follows : ∀ t, A t → t.id < b.transactions.length → t.Follows b b'
  knows : ∀ t, A t → t.id < b.transactions.length ∨ b'.transactions.length ≤ t.id → A' t
  remembers : ∀ t, A' t → A t

/-- What shows neither in the transactions nor in the log. -/
structure Backend.Quiet (b b' : Backend) : Prop where
  transactions : b'.transactions = b.transactions
  logged : ∀ t : Transaction, t.logged b' = t.logged b

variable {A A' A'' : Transaction → Prop} {b b' b'' : Backend} {α β : Type}

namespace Advances

/-- A transaction that begins on the way is still agreed on before the second part, and so it is
followed through it. -/
theorem trans (h : Advances A A' b b') (h' : Advances A' A'' b' b'') : Advances A A'' b b'' where
  grows := Nat.le_trans h.grows h'.grows
  follows t ht hlt := (h.follows t ht hlt).trans
    (h'.follows t (h.knows t ht (.inl hlt)) (Nat.lt_of_lt_of_le hlt h.grows))
  knows t ht
    | .inl hlt => h'.knows t (h.knows t ht (.inl hlt)) (.inl (Nat.lt_of_lt_of_le hlt h.grows))
    -- a number that is not given in the end was not given in the middle either
    | .inr hle => h'.knows t (h.knows t ht (.inr (Nat.le_trans h'.grows hle))) (.inr hle)
  remembers t ht := h.remembers t (h'.remembers t ht)

/-- What shows nowhere leaves the transactions as they are. -/
theorem of_quiet (h : b.Quiet b') : Advances A A b b' where
  grows := h.transactions ▸ Nat.le_refl _
  follows t _ _ := .of_quiet (by rw [Transaction.state?, h.transactions, Transaction.state?])
    (h.logged t)
  knows _ ht _ := ht
  remembers _ ht := ht

protected theorem refl : Advances A A b b := of_quiet ⟨rfl, fun _ => rfl⟩

end Advances

/-! ## Runs -/

/-- A run that advances in every state. -/
def Run.Within (A : Transaction → Prop) (x : Run α) : Prop := ∀ b, Advances A A b (x b).2

namespace Run.Within

/-- A run that shows nowhere. -/
theorem of_quiet {x : Run α} (h : ∀ b : Backend, b.Quiet (x b).2) : Within A x :=
  fun b => .of_quiet (h b)

/-- A run that begins no transaction only has to be followed by each of those that there are. -/
theorem of_follows {x : Run α}
    (hlength : ∀ b, (x b).2.transactions.length = b.transactions.length)
    (h : ∀ t, A t → ∀ b : Backend, t.id < b.transactions.length → t.Follows b (x b).2) :
    Within A x := fun b =>
  { grows := Nat.le_of_eq (hlength b).symm
    follows := fun t ht hlt => h t ht b hlt
    knows := fun _ ht _ => ht
    remembers := fun _ ht => ht }

protected theorem pure (a : α) : Within A (pure a : Run α) :=
  of_quiet fun _ => ⟨rfl, fun _ => rfl⟩

/-- One run after another. -/
protected theorem bind {x : Run α} {f : α → Run β} (hx : Within A x) (hf : ∀ a, Within A (f a)) :
    Within A (x >>= f) :=
  rel_bind .trans hx hf

theorem ofExcept (r : Except Error α) : Within A (ofExcept r) :=
  of_quiet fun _ => ⟨rfl, fun _ => rfl⟩

theorem fail (e : Error) : Within A (fail e : Run α) := ofExcept (.error e)

theorem look (f : Backend → α) : Within A (look f) := of_quiet fun _ => ⟨rfl, fun _ => rfl⟩

/-- An event may be noted if it is no request of a transaction. -/
theorem note {e : Event} (he : ∀ t, e.by? t = none) : Within A (note e) :=
  of_quiet fun b => ⟨rfl, fun t => by
    simp [Run.note, modify, Backend.note, Transaction.logged, he]⟩

theorem attempt {x : Run α} (hx : Within A x) : Within A x.attempt := hx

/-- A run that is not made once a token is cancelled. -/
theorem unlessCancelled (token : CancelToken) {x : Run α} (hx : Within A x) :
    Within A (unlessCancelled token x) :=
  rel_unlessCancelled (fun _ => .refl) token hx

theorem modify {f : Backend → Backend} (hf : ∀ b : Backend, b.Quiet (f b)) :
    Within A (modify f) :=
  of_quiet hf

/-- What is set aside from the sessions shows in no transaction. -/
theorem of_aside {x : Run α} (hx : x.Aside []) : Within A x :=
  of_quiet fun b => ⟨(hx b).transactions, (hx b).logged⟩

/-- To build a statement takes in models and does nothing else. -/
theorem build (compile : Cores → Compiled Query) : Within A (build compile) :=
  of_aside (.build compile)

end Run.Within

/-! ## Middlewares -/

namespace Middleware

/-- A middleware that only uses transactions as the next handler does. -/
def Proper (m : Middleware) : Prop :=
  ∀ (A : Transaction → Prop) (next : Handler), (∀ c, (next c).Within A) → ∀ c, (m next c).Within A

/-- A middleware that passes each statement to a log is as proper as the log. -/
theorem proper_queryLog {log : Query → Run Unit} (hlog : ∀ A q, (log q).Within A) :
    (queryLog log).Proper :=
  fun A _ hnext c => .bind (.build c.compile) fun q => .bind (hlog A q) fun _ => hnext c

theorem proper_noted : noted.Proper := proper_queryLog fun _ _ => .note fun _ => rfl

theorem proper_unnoted : unnoted.Proper := proper_queryLog fun _ _ => .pure ()

/-- Its two notes are no requests. -/
theorem proper_record (name : String) : (record name).Proper := fun _ _ hnext c =>
  .bind (.look _) fun _ => .bind (.note fun _ => rfl) fun _ => .bind (.attempt (hnext c)) fun _ =>
    .bind (.note fun _ => rfl) fun _ => .ofExcept _

theorem proper_prebuild : prebuild.Proper := fun _ _ hnext c =>
  .bind (.attempt (.build c.compile)) fun _ => .bind (.note fun _ => rfl) fun _ => hnext c

theorem proper_refuse (e : Error) : (refuse e).Proper := fun _ _ _ _ => .fail e

/-- It never calls the next handler, so there is nothing that it could do wrong. -/
theorem proper_answer (output : Except Error Output) : (answer output).Proper :=
  fun _ _ _ _ => .ofExcept output

/-- A token that is cancelled shows in no transaction. -/
theorem proper_cancelling : cancelling.Proper := fun _ _ hnext c =>
  .bind (.modify fun _ => ⟨rfl, fun _ => rfl⟩) fun _ => hnext c

/-- It calls the next handler twice, each time in the context that it was given. -/
theorem proper_twice : twice.Proper := fun _ _ hnext c =>
  .bind (.attempt (hnext c)) fun _ => hnext c

theorem proper_recover (output : Except Error Output) : (recover output).Proper :=
  fun _ _ hnext c => .bind (.attempt (hnext c)) fun
    | .ok o => .pure o
    | .error _ => .ofExcept output

/-- Another statement in the context asks the session for something else, but as the next handler
does. -/
theorem proper_swap (q : Query) : (swap q).Proper := fun _ _ hnext _ => hnext _

/-- A chain of proper middlewares is as good as the innermost handler. -/
theorem within_chain {ms : List Middleware} (hms : ∀ m ∈ ms, m.Proper) {terminal : Handler}
    (hterminal : ∀ c, (terminal c).Within A) (c : Context) : (chain ms terminal c).Within A := by
  induction ms generalizing c with
  | nil => exact hterminal c
  | cons m ms ih =>
    exact hms m (.head _) A _ (ih fun m hm => hms m (.tail _ hm)) c

end Middleware

/-! ## Statements -/

namespace Session

/-- What a session is asked for by another one that goes through the same transactions. -/
theorem within_deliver (p : Purpose) {s sender : Session} (r : Request)
    (hs : ∀ t, A t → s.Respects t) (hsender : ∀ t, sender.goesThrough t = s.goesThrough t) :
    (s.deliver p sender r).Within A :=
  .of_follows (Transaction.length_deliver p r s sender) fun t ht _ hlt =>
    .deliver p r (hs t ht) (hsender t) hlt

variable {s : Session} (hs : ∀ t, A t → s.Respects t)

theorem within_read (row : Reply (List Value)) : (s.read row).Within A :=
  .of_aside (s.aside_read row)

theorem within_readEnd : s.readEnd.Within A := .of_aside s.aside_readEnd

/-- Rows are read one by one and then it is found that there are no more. -/
theorem within_readAll (rows : List (Reply (List Value))) : (s.readAll rows).Within A := by
  induction rows with
  | nil => exact .bind within_readEnd fun _ => .pure _
  | cons row rows ih => exact .bind (within_read row) fun _ => .bind ih fun _ => .pure _

/-- To bind rows is aside from the sessions, as the rows are there already. -/
theorem within_bindAll (c : Context) (T : EntityType) (columns : List String)
    (rows : List (Reply (List Value))) : (s.bindAll c T columns rows).Within A :=
  .of_aside (s.aside_bindAll c T columns rows)

include hs

/-- A statement of a session for its outcome. -/
theorem within_exec (q : Query) : (s.exec q).Within A := within_deliver _ _ hs fun _ => rfl

theorem within_query (q : Query) : (s.query q).Within A := within_deliver _ _ hs fun _ => rfl

/-- A statement is built first, and only run if the token is not cancelled by then. -/
theorem within_fetch (c : Context) : (s.fetch c).Within A :=
  .bind (.build c.compile) fun q => .unlessCancelled _ (within_query hs q)

theorem within_fetchAll (T : EntityType) (c : Context) : (s.fetchAll T c).Within A :=
  .bind (within_fetch hs c) fun cursor => within_bindAll c T cursor.columns cursor.rows

/-- Of the rows that a statement gives, one at most is read. -/
theorem within_fetchOne (T : EntityType) (c : Context) : (s.fetchOne T c).Within A := by
  refine .bind (within_fetch hs c) fun cursor => ?_
  cases cursor.rows with
  | nil => exact .bind (.unlessCancelled _ within_readEnd) fun _ => .fail _
  | cons row rows =>
    exact .bind (.unlessCancelled _ (within_read row)) fun _ => .bind (.look _) fun _ =>
      .ofExcept _

theorem within_execute (c : Context) : (s.execute c).Within A :=
  .bind (.build c.compile) fun q => .unlessCancelled _ (within_exec hs q)

end Session

/-- No session of a directory goes through another transaction of the number of a given one. -/
def Directory.Respects (d : Directory) (t : Transaction) : Prop := ∀ entry ∈ d, entry.2.Respects t

/-- A name that stands for no session of the directory is that of a database. -/
theorem Directory.Respects.find {d : Directory} {t : Transaction} (h : d.Respects t)
    (name : String) : (d.find name).Respects t := by
  rw [Directory.find]
  cases hfound : d.lookup name with
  | none => trivial
  | some s =>
    -- the entry that was found is one of those that respect the transaction
    obtain ⟨l, l', rfl, -⟩ := List.lookup_eq_some_iff.mp hfound
    exact h (name, s) (by simp)

namespace Job

variable {ms : Middlewares} (hms : ∀ name, ∀ m ∈ ms name, m.Proper) {j : Job}
  (hj : ∀ t, A t → j.directory.Respects t)

/-- To take the model and the token of a job is aside from the sessions. -/
theorem within_context : j.context.Within A := .of_aside j.aside_context

include hms in
/-- A job goes through the middlewares of its session, which have to be proper. -/
theorem within_through {terminal : Handler} (hterminal : ∀ c, (terminal c).Within A) :
    (j.through ms terminal).Within A :=
  .bind within_context fun c => Middleware.within_chain (hms _) hterminal c

include hms hj

/-- A whole job, run for its outcome. -/
theorem within_exec : (j.exec ms).Within A :=
  .bind (within_through hms fun c =>
    .bind (Session.within_execute (fun t ht => (hj t ht).find _) c) fun _ => .pure _) fun _ =>
      .ofExcept _

/-- A whole job, run for its first row. -/
theorem within_get : (j.get ms).Within A :=
  .bind (within_through hms fun c =>
    .bind (Session.within_fetchOne (fun t ht => (hj t ht).find _) _ c) fun _ => .pure _) fun _ =>
      .ofExcept _

/-- A whole job, run for all its rows. -/
theorem within_getAll : (j.getAll ms).Within A :=
  .bind (within_through hms fun c =>
    .bind (Session.within_fetchAll (fun t ht => (hj t ht).find _) _ c) fun _ => .pure _) fun _ =>
      .ofExcept _

end Job

/-! ## Transactions -/

namespace Transaction

/-- The commit or rollback of any transaction that is agreed on. -/
theorem within_close {u : Transaction} {c : Call} (hc : c.request.ends = true)
    (hu : ∀ t, A t → u.session.Respects t) : (c.make u).Within A :=
  .of_follows (c.length_make u) fun t ht _ hlt => .close hc (hu t ht) hlt

/-- What ends a transaction after its callback is a commit, a rollback, or nothing. -/
theorem within_conclude {u : Transaction} (ending : Ending α)
    (hu : ∀ t, A t → u.session.Respects t) : (u.conclude ending).Within A :=
  .of_follows (length_conclude u ending) fun t ht _ hlt => .conclude ending (hu t ht) hlt

end Transaction

/-- Beginning a transaction is in dispute with nothing that was agreed on, as its number is new. -/
theorem advances_begin {s : Session} (hs : ∀ t, A t → s.Respects t)
    (hknows : ∀ t, A t → t.id ≠ b.transactions.length → A' t) (hremembers : ∀ t, A' t → A t) :
    Advances A A' b (Transaction.begin s b).2 where
  grows := by simp [Transaction.length_begin]
  follows t ht hlt := .begin (hs t ht) hlt
  knows t ht h := hknows t ht (by rw [Transaction.length_begin] at h; omega)
  remembers := hremembers

end RowMapper
