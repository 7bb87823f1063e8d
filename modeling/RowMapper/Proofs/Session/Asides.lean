import RowMapper.Proofs.Session.Builds
import RowMapper.Proofs.Session.Following

/-!
# What happens beside the sessions

Much of what happens in a run does not reach a session: models are taken in, tokens are cancelled,
rows are read, events are noted. `Backend.Aside` says so of two states: nothing was asked of a
database or transaction between them, and the registries only took in default models. There is one
lemma for each way to make such a run.

Middlewares should be of this kind. `Middleware.Plan` is a middleware that calls the next handler at
most once, in the context that it was given itself; it is set aside from the sessions if what it
does before and after that call is (`Plan.Aside`). All that come with the library are, but for those
that call the next handler twice or in another context.
-/

namespace RowMapper

/-- What can be seen of a run: a middleware that is entered or left, and a request that a session
sent to its database, with whether it was accepted. -/
inductive Mark where
  | enters (name : String)
  | leaves (name : String)
  | sends (sender : Session) (r : Request) (accepted : Bool)

/-- The mark of an event, if it is a request, or of a middleware with a name that is watched. -/
def Event.mark? (names : List String) : Event → Option Mark
  | sent sender r accepted => some (.sends sender r accepted)
  | entered name _ _ => if name ∈ names then some (.enters name) else none
  | left name _ => if name ∈ names then some (.leaves name) else none
  | read _ | logged _ | built _ => none

variable {names : List String} {b b' b'' : Backend} {α β : Type}

namespace Backend

/-- The marks of all that happened. -/
def marks (names : List String) (b : Backend) : List Mark := b.log.filterMap (Event.mark? names)

/-- From one state to another, no session was asked for anything and no middleware with a name that
is watched was entered or left; and the registries only took in default models. -/
structure Aside (names : List String) (b b' : Backend) : Prop where
  grows : b.Grows b'
  scripts : b'.scripts = b.scripts
  transactions : b'.transactions = b.transactions
  marks : b'.marks names = b.marks names

namespace Aside

protected theorem refl (b : Backend) : b.Aside names b := ⟨.refl b, rfl, rfl, rfl⟩

theorem trans (h : b.Aside names b') (h' : b'.Aside names b'') : b.Aside names b'' where
  grows := h.grows.trans h'.grows
  scripts := h'.scripts.trans h.scripts
  transactions := h'.transactions.trans h.transactions
  marks := h'.marks.trans h.marks

/-- What is aside with some middlewares watched is aside with none watched. -/
theorem unwatched (h : b.Aside names b') : b.Aside [] b' := by
  have hmarks (b : Backend) : b.marks [] = (b.marks names).filterMap fun
      | .sends sender r accepted => some (.sends sender r accepted)
      | _ => none := by
    -- the requests among the marks do not depend on which names are watched
    rw [Backend.marks, Backend.marks, List.filterMap_filterMap]
    refine congrArg (List.filterMap · b.log) (funext fun e => ?_)
    cases e with
    | entered name | left name => by_cases hname : name ∈ names <;> simp [Event.mark?, hname]
    | _ => rfl
  exact ⟨h.grows, h.scripts, h.transactions, by rw [hmarks, hmarks, h.marks]⟩

/-- What is aside does not show in the messages of a transaction either. -/
theorem logged (h : b.Aside names b') (t : Transaction) : t.logged b' = t.logged b := by
  have hlogged (b : Backend) : t.logged b = (b.marks names).filterMap fun
      | .sends sender r accepted => (Event.sent sender r accepted).by? t
      | _ => none := by
    rw [Transaction.logged, Backend.marks, List.filterMap_filterMap]
    refine congrArg (List.filterMap · b.log) (funext fun e => ?_)
    cases e with
    | entered name | left name =>
      by_cases hname : name ∈ names <;> simp [Event.mark?, hname, Event.by?]
    | _ => rfl
  rw [hlogged, hlogged, h.marks]

/-- What is noted may not be a request, nor come from a middleware that is watched. -/
theorem note {e : Event} (he : e.mark? names = none) (b : Backend) : b.Aside names (b.note e) :=
  ⟨⟨rfl, fun _ => .refl _⟩, rfl, rfl, by simp [Backend.marks, Backend.note, he]⟩

/-- To cancel a token is seen by no session. -/
theorem cancel (b : Backend) (t : CancelToken) : b.Aside names (b.cancel t) :=
  ⟨⟨rfl, fun _ => .refl _⟩, rfl, rfl, rfl⟩

theorem cancelFor (b : Backend) (token? : Option String) : b.Aside names (b.cancelFor token?) := by
  cases token? with
  | none => exact .refl b
  | some name => exact cancel b _

/-- Models that are taken in do not show. -/
theorem of_registries {registries : String → Registry}
    (h : b.Grows { b with registries }) : b.Aside names { b with registries } :=
  ⟨h, rfl, rfl, rfl⟩

/-- To take in models changes registries only. -/
theorem takeAll (es : List (String × EntityType)) (b : Backend) :
    b.Aside names (es.foldl takeIn b) := by
  have hgrows := Grows.takeAll es b
  rw [takeAll_eq] at hgrows ⊢
  exact of_registries hgrows

end Aside

end Backend

/-! ## Runs -/

/-- A run that is set aside from the sessions. -/
def Run.Aside (names : List String) (x : Run α) : Prop := ∀ b : Backend, b.Aside names (x b).2

namespace Run.Aside

protected theorem pure (a : α) : Aside names (pure a : Run α) := .refl

/-- One run after another. -/
protected theorem bind {x : Run α} {f : α → Run β} (hx : Aside names x)
    (hf : ∀ a, Aside names (f a)) : Aside names (x >>= f) :=
  rel_bind .trans hx hf

theorem ofExcept (r : Except Error α) : Aside names (ofExcept r) := .refl

theorem look (f : Backend → α) : Aside names (look f) := .refl

/-- What is noted may not be a request, nor come from a middleware that is watched. -/
theorem note {e : Event} (he : e.mark? names = none) : Aside names (note e) :=
  Backend.Aside.note he

theorem attempt {x : Run α} (hx : Aside names x) : Aside names x.attempt := hx

/-- To build a statement takes in models and sends nothing. -/
theorem build (compile : Cores → Compiled Query) : Aside names (build compile) := fun b =>
  .takeAll _ b

/-- A run that is not made once a token is cancelled. -/
theorem unlessCancelled (token : CancelToken) {x : Run α} (hx : Aside names x) :
    Aside names (unlessCancelled token x) :=
  rel_unlessCancelled .refl token hx

end Run.Aside

namespace Session

variable (s : Session)

/-- The rows are there already: to read one is no request. -/
theorem aside_read (row : Reply (List Value)) : (s.read row).Aside names := fun b =>
  (Backend.Aside.note rfl b).trans (.cancelFor _ _)

theorem aside_readEnd : s.readEnd.Aside names := .note rfl

/-- Nor is it to read and bind all rows. -/
theorem aside_bindAll (c : Context) (T : EntityType) (columns : List String)
    (rows : List (Reply (List Value))) : (s.bindAll c T columns rows).Aside names := by
  induction rows with
  | nil => exact .bind (.unlessCancelled _ s.aside_readEnd) fun _ => .pure _
  | cons row rows ih =>
    exact .bind (.unlessCancelled _ (s.aside_read row)) fun _ => .bind (.look _) fun _ =>
      .bind (.ofExcept _) fun _ => .bind ih fun _ => .pure _

end Session

namespace Job

/-- The model of a job is taken in if it is not yet there. -/
theorem aside_takeModel (j : Job) : j.takeModel.Aside names := fun b =>
  .of_registries (.setRegistry_get b j.session.base j.entity)

/-- A job without a shared token has a new one made for it. -/
theorem aside_takeToken (j : Job) : j.takeToken.Aside names := by
  intro b
  -- a new token changes the number of tokens and nothing that is looked at
  cases h : j.cancel <;> simp only [takeToken, h]
  · exact ⟨⟨rfl, fun _ => .refl _⟩, rfl, rfl, rfl⟩
  · exact .refl b

/-- The context of a job is its model and its token. -/
theorem aside_context (j : Job) : j.context.Aside names :=
  .bind j.aside_takeModel fun _ => .bind j.aside_takeToken fun _ => .pure _

end Job

/-! ## Middlewares -/

namespace Middleware

/-- What a middleware does that calls the next handler at most once, in the context that it was
given: before that call it may come to an output of its own, and not make the call, or to what it
does with the result of the call. -/
structure Plan where
  before : Context → Run (Output ⊕ (Except Error Output → Run Output))

namespace Plan

/-- The middleware of a plan. -/
def middleware (p : Plan) : Middleware := fun next c => do
  match ← p.before c with
  | .inl output => return output
  | .inr after => after (← Run.attempt (next c))

/-- A plan in a state: it fails, has an output of its own, or hands over to the next handler and
goes on with its result. -/
theorem middleware_apply (p : Plan) (next : Handler) (c : Context) (b : Backend) :
    p.middleware next c b = match p.before c b with
      | (.error e, b) => (.error e, b)
      | (.ok (.inl output), b) => (.ok output, b)
      | (.ok (.inr after), b) => after (next c b).1 (next c b).2 := by
  rw [middleware, Run.bind_apply]
  rcases p.before c b with ⟨_ | _ | _, _⟩ <;> rfl

/-- A plan that is set aside from the sessions, before and after the call of the next handler. -/
structure Aside (names : List String) (p : Plan) : Prop where
  before : ∀ c, (p.before c).Aside names
  after : ∀ c b after b', p.before c b = (.ok (.inr after), b') → ∀ r, (after r).Aside names

theorem Aside.unwatched {p : Plan} (hp : p.Aside names) : p.Aside [] where
  before c b := (hp.before c b).unwatched
  after c b after b' h r b₁ := (hp.after c b after b' h r b₁).unwatched

/-- The plan of a middleware that only does something before the next handler. -/
def first (x : Context → Run Unit) : Plan where
  before c := do
    x c
    return .inr Run.ofExcept

/-- Such a middleware leaves the result of the next handler as it is. -/
theorem middleware_first (x : Context → Run Unit) :
    (first x).middleware = fun next c => (do x c; next c) := by
  funext next c b
  simp only [middleware_apply, first, Run.bind_apply]
  rcases x c b with ⟨_ | _, _⟩ <;> rfl

/-- It is aside from the sessions if what it does beforehand is. -/
theorem Aside.first {x : Context → Run Unit} (hx : ∀ c, (x c).Aside names) :
    (first x).Aside names where
  before c := .bind (hx c) fun _ => .pure _
  after c b after b' h r := by
    simp only [Plan.first, Run.bind_apply] at h
    split at h
    · obtain rfl := Sum.inr.inj (Except.ok.inj (Prod.mk.inj h).1)
      exact .ofExcept r
    · simp at h

/-- The plan of a middleware that has an output of its own. -/
def own (output : Except Error Output) : Plan where
  before _ := do return .inl (← Run.ofExcept output)

/-- The plan of a middleware that notes what happens before and after the next handler. -/
def record (name : String) : Plan where
  before c := do
    let text ← Run.look c.outline
    Run.note (.entered name c.kind text)
    return .inr fun result => do
      Run.note (.left name (result.map Output.outline))
      Run.ofExcept result

/-- A name that is not watched may be noted. -/
theorem Aside.record {name : String} (hname : name ∉ names) : (record name).Aside names where
  before c := .bind (.look _) fun _ => .bind (.note (by simp [Event.mark?, hname])) fun _ => .pure _
  after c b after b' h r := by
    obtain rfl := Sum.inr.inj (Except.ok.inj (Prod.mk.inj h).1)
    exact .bind (.note (by simp [Event.mark?, hname])) fun _ => .ofExcept r

end Plan

/-- A middleware that has a plan which is set aside from the sessions. -/
def Planned (names : List String) (m : Middleware) : Prop :=
  ∃ p : Plan, p.Aside names ∧ m = p.middleware

/-- A middleware that passes each statement to a log has the plan to do that first. -/
theorem planned_queryLog {log : Query → Run Unit} (hlog : ∀ q, (log q).Aside names) :
    (queryLog log).Planned names := by
  refine ⟨.first fun c => do log (← c.build), .first fun c => .bind (.build _) hlog, ?_⟩
  rw [Plan.middleware_first]
  funext next c b
  simp only [queryLog, Run.bind_apply]
  rcases c.build b with ⟨_ | _, _⟩ <;> rfl

theorem planned_noted : noted.Planned names := planned_queryLog fun _ => .note rfl

theorem planned_unnoted : unnoted.Planned names := planned_queryLog fun _ => .pure _

/-- It only adds the building of the statement, which takes in models. -/
theorem planned_prebuild : prebuild.Planned names := by
  refine ⟨.first fun c => do Run.note (.built (← Run.attempt c.build)),
    .first fun c => .bind (.attempt (.build _)) fun _ => .note rfl, ?_⟩
  rw [Plan.middleware_first]
  rfl

/-- To cancel the token of the run is no request, though it may keep the next handler from making
one. -/
theorem planned_cancelling : cancelling.Planned names :=
  ⟨.first fun c => Run.modify (·.cancel c.token), .first fun _ b => .cancel b _,
    (Plan.middleware_first _).symm⟩

/-- Its plan never hands over. -/
theorem planned_answer (output : Except Error Output) : (answer output).Planned names := by
  refine ⟨.own output, ⟨fun _ => .bind (.ofExcept _) fun _ => .pure _, ?_⟩, ?_⟩
  · intro c b after b' h
    cases output <;> exact nomatch h
  · funext next c b
    rw [Plan.middleware_apply]
    cases output <;> rfl

theorem planned_refuse (e : Error) : (refuse e).Planned names := planned_answer (.error e)

/-- Its plan always hands over, and puts an output of its own in the place of a failure. -/
theorem planned_recover (output : Except Error Output) : (recover output).Planned names := by
  refine ⟨⟨fun _ => return .inr fun r => Run.ofExcept (r.tryCatch fun _ => output)⟩,
    ⟨fun _ => .pure _, ?_⟩, ?_⟩
  · intro c b after b' h r
    obtain rfl := Sum.inr.inj (Except.ok.inj (Prod.mk.inj h).1)
    exact .ofExcept _
  · funext next c b
    have hattempt : (next c).attempt b = (.ok (next c b).1, (next c b).2) := rfl
    rw [Plan.middleware_apply, recover, Run.bind_of_ok hattempt]
    change _ = Run.ofExcept ((next c b).1.tryCatch fun _ => output) (next c b).2
    cases (next c b).1 <;> rfl

/-- Its notes show as marks if its name is watched, so it may not be. -/
theorem planned_record {name : String} (hname : name ∉ names) : (record name).Planned names :=
  ⟨.record name, .record hname, rfl⟩

end Middleware

end RowMapper
