import RowMapper.Proofs.Session.Cancellation

/-!
# Rows of a run

A run for all records and a run for the first one are written separately, and are two dialogues with
the session that begin with the same question. The answer is a cursor, if it is no error
(`Session.reply`). `Binding.bound` is what a row of it is bound to on its own, onto the initial
record. A dialogue for all records gives these results in order, up to the first failure, after
which no row is read (`Dialogue.uninterrupted_rows`); one for the first record gives the first of
them and reads nothing else (`Dialogue.uninterrupted_firstRow`). `Job.rows_bound` says this of whole
runs without middlewares whose token is never cancelled, and relates the two.
-/

namespace RowMapper

variable {α β : Type}

/-! ## The answer to a query -/

namespace Session

/-- What a session answers to a query: the error of a transaction that has ended, or else what the
database has prepared. -/
def reply (s : Session) (b : Backend) : Except Error Cursor :=
  if s.isOpen b then (b.scripts s.base).query.1.outcome else .error .transactionFinished

theorem deliver_rows (sender : Session) (r : Request) : ∀ (s : Session) (b : Backend),
    (s.deliver .rows sender r b).1 = s.reply b
  | database _, _ => rfl
  | transaction id inner, b => by
    have hinner := deliver_rows sender r inner b
    rw [deliver, Transaction.ensureActive_bind, reply, isOpen]
    cases h : b.isFinished id with
    | true =>
      rw [Transaction.isFinished, h]
      rfl
    | false =>
      rw [Transaction.isFinished, h]
      exact hinner

theorem reply_congr {s : Session} {b b' : Backend}
    (htransactions : b'.transactions = b.transactions) (hscripts : b'.scripts = b.scripts) :
    s.reply b' = s.reply b := by
  rw [reply, reply, isOpen_congr htransactions, hscripts]

/-- A session that answers with rows has sent the query. -/
theorem isOpen_of_reply {s : Session} {b : Backend} {cursor : Cursor}
    (h : s.reply b = .ok cursor) : s.isOpen b = true := by
  by_contra hclosed
  rw [reply, if_neg hclosed] at h
  cases h

end Session

namespace Question

variable {s : Session} {q : Query} {b : Backend}

theorem events_query : (statement .rows q).events s b =
    if s.isOpen b then [.sent s (.query q) (s.reply b).isOk] else [] := by
  rw [events, Session.deliver_rows]
  rfl

theorem events_of_reply {cursor : Cursor} (h : s.reply b = .ok cursor) :
    (statement .rows q).events s b = [.sent s (.query q) true] := by
  rw [events_query, if_pos (Session.isOpen_of_reply h), h]
  rfl

end Question

/-! ## Rows of a dialogue -/

namespace Binding

/-- What a row is bound to on its own, unless the reading of it fails. -/
def bound (strategy : Strategy) (m : Model) (T : EntityType) (columns : List String)
    (row : Reply (List Value)) : Except Error T.Record :=
  row.outcome >>= bindRow strategy m T columns

end Binding

namespace Dialogue

variable {s : Session} {b : Backend} {strategy : Strategy} {m : Model} {T : EntityType}
  {columns : List String}

theorem uninterrupted_map (f : α → β) : ∀ (d : Dialogue α) (b : Backend),
    (d.map f).uninterrupted s b = ((d.uninterrupted s b).1.map f, (d.uninterrupted s b).2)
  | finish _, _ => rfl
  | asks k rest, b => by
    rw [map, uninterrupted, uninterrupted]
    rcases hk : k.ask s b with ⟨e | a, b'⟩
    · rw [Run.bind_of_error hk, Run.bind_of_error hk]
      rfl
    · rw [Run.bind_of_ok hk, Run.bind_of_ok hk]
      exact uninterrupted_map f (rest a) b'

/-- A dialogue that begins with a query goes on with the cursor, if there is one. -/
theorem uninterrupted_query (q : Query) (d : Cursor → Dialogue α) (b : Backend) :
    ∃ b', b'.log = b.log ++ (Question.statement .rows q).events s b ∧
      (asks (.statement .rows q) d).uninterrupted s b = match s.reply b with
        | .error e => (.error e, b')
        | .ok cursor => (d cursor).uninterrupted s b' := by
  have hreply := Session.deliver_rows s (.query q) s b
  have hlog := (Question.statement .rows q).log_ask s b
  rcases hask : (Question.statement .rows q).ask s b with ⟨e | cursor, b'⟩ <;> rw [hask] at hlog
  · have he : s.reply b = .error e := hreply.symm.trans (congrArg Prod.fst hask)
    rw [he]
    exact ⟨b', hlog, Run.bind_of_error hask _⟩
  · have hcursor : s.reply b = .ok cursor := hreply.symm.trans (congrArg Prod.fst hask)
    rw [hcursor]
    exact ⟨b', hlog, Run.bind_of_ok hask _⟩

theorem bound_of_ask {row : Reply (List Value)} {values : Except Error (List Value)} {b' : Backend}
    (h : (Question.row row).ask s b = (values, b')) :
    Binding.bound strategy m T columns row = values >>= Binding.bindRow strategy m T columns :=
  congrArg (fun p => p.1 >>= Binding.bindRow strategy m T columns) h

/-- All rows are bound in order, each on its own; after the first one that fails no row is read. -/
theorem uninterrupted_rows : ∀ (rest : List (Reply (List Value))) (b : Backend),
    ((rows strategy m T columns rest).uninterrupted s b).1 =
        rest.mapM (Binding.bound strategy m T columns) ∧
      ((rows strategy m T columns rest).uninterrupted s b).2.log = b.log ++ List.replicate
        ((rest.takeWhile fun row => (Binding.bound strategy m T columns row).isOk).length + 1)
        (.read s)
  | [], _ => ⟨rfl, rfl⟩
  | row :: rest, b => by
    have hlog := (Question.row row).log_ask s b
    rw [rows, List.mapM_cons, List.takeWhile_cons]
    rcases hrow : (Question.row row).ask s b with ⟨e | values, b'⟩ <;> rw [hrow] at hlog
    -- a row that cannot be read is one that cannot be bound, and nothing is read after it
    · have hbound : Binding.bound strategy m T columns row = .error e := bound_of_ask hrow
      rw [uninterrupted, Run.bind_of_error hrow, hbound]
      exact ⟨rfl, hlog⟩
    · have hbound : Binding.bound strategy m T columns row =
          Binding.bindRow strategy m T columns values := bound_of_ask hrow
      rw [uninterrupted, Run.bind_of_ok hrow, hbound]
      cases Binding.bindRow strategy m T columns values with
      | error e => exact ⟨rfl, hlog⟩
      | ok r =>
        obtain ⟨hresult, hrest⟩ := uninterrupted_rows rest b'
        rw [uninterrupted_map, hresult, hrest, hlog, List.append_assoc]
        refine ⟨?_, congrArg (b.log ++ ·) (List.replicate_succ ..).symm⟩
        cases rest.mapM (Binding.bound strategy m T columns) <;> rfl

/-- The first row is bound, and no other is read. -/
theorem uninterrupted_firstRow (rest : List (Reply (List Value))) (b : Backend) :
    ((firstRow strategy m T columns rest).uninterrupted s b).1 = (match rest.head? with
        | none => .error .noRows
        | some row => Binding.bound strategy m T columns row) ∧
      ((firstRow strategy m T columns rest).uninterrupted s b).2.log = b.log ++ [.read s] := by
  cases rest with
  | nil => exact ⟨rfl, rfl⟩
  | cons row rest =>
    have hlog := (Question.row row).log_ask s b
    rw [firstRow]
    rcases hrow : (Question.row row).ask s b with ⟨e | values, b'⟩ <;> rw [hrow] at hlog
    · rw [uninterrupted, Run.bind_of_error hrow]
      exact ⟨(bound_of_ask hrow).symm, hlog⟩
    · rw [uninterrupted, Run.bind_of_ok hrow]
      exact ⟨(bound_of_ask hrow).symm, hlog⟩

end Dialogue

/-! ## Rows of a run -/

namespace Job

/-- The token of a run is not cancelled when it asks its session, neither the own token of a single
run nor a shared one. -/
def Uncancelled (j : Job) (b : Backend) : Prop := match j.cancel with
  | none => b.isCancelled (.own b.tokens) = false
  | some name => ∀ w : Way, ∀ m ∈ w.moments j b, m.before.isCancelled (.named name) = false

variable {ms : Middlewares} {j : Job} {b : Backend}

namespace Way

/-- A run without middlewares whose token is never cancelled is its talk. -/
theorem run_uncancelled (hms : ms j.session.base = []) (h : j.Uncancelled b) (w : Way) :
    (w.run ms j b).1 = ((w.talk j b).1.uninterrupted j.session (w.talk j b).2).1 ∧
      (w.run ms j b).2.log = ((w.talk j b).1.uninterrupted j.session (w.talk j b).2).2.log := by
  rw [Uncancelled] at h
  cases hname : j.cancel with
  | none =>
    rw [hname] at h
    obtain ⟨n, hrun⟩ := run_own hms h w
    have hj : { j with cancel := none } = j := by rw [← hname]
    rw [hj] at hrun
    rw [hrun]
    exact ⟨rfl, rfl⟩
  | some name =>
    rw [hname] at h
    rw [run_named hms hname, Dialogue.run_of_uncancelled (h w)]
    exact ⟨rfl, rfl⟩

/-- What is taken out of a run, which is made an output with `f`. -/
structure Takes (w : Way) (ms : Middlewares) (j : Job) (x : Run α) (f : α → Output) : Prop where
  run : ∀ b, w.run ms j b = ((x b).1.map f, (x b).2)
  injective : Function.Injective f

theorem takes_get : first.Takes ms j (j.get ms) (.one j.entity) where
  run := Run.bind_pure_apply _ _
  injective _ _ h := eq_of_heq (Output.one.inj h).2

theorem takes_getAll : all.Takes ms j (j.getAll ms) (.many j.entity) where
  run := Run.bind_pure_apply _ _
  injective _ _ h := eq_of_heq (Output.many.inj h).2

namespace Takes

variable {w : Way} {x : Run α} {f : α → Output}

/-- What is taken out of a run is the result of its talk. -/
theorem eq_uninterrupted (h : w.Takes ms j x f) (hms : ms j.session.base = [])
    (huncancelled : j.Uncancelled b) {d : Dialogue α} (hd : (w.talk j b).1 = d.map f) :
    (x b).1 = (d.uninterrupted j.session (w.talk j b).2).1 ∧
      (x b).2.log = (d.uninterrupted j.session (w.talk j b).2).2.log := by
  obtain ⟨hresult, hlog⟩ := run_uncancelled hms huncancelled w
  rw [h.run, hd, Dialogue.uninterrupted_map] at hresult hlog
  exact ⟨Results.map_injective h.injective hresult, hlog⟩

/-- A run whose entity has no model fails, and nothing is sent. -/
theorem of_error (h : w.Takes ms j x f) (hms : ms j.session.base = [])
    (huncancelled : j.Uncancelled b) {e : Error}
    (he : (b.registry j.session.base).model j.entity = .error e) :
    (x b).1 = .error e ∧ (x b).2.log = b.log := by
  have hd : (w.talk j b).1 = (Dialogue.finish (.error e)).map f := talk_of_error he w
  obtain ⟨hresult, hlog⟩ := h.eq_uninterrupted hms huncancelled hd
  exact ⟨hresult, hlog.trans (by rw [talk_before]; rfl)⟩

/-- A run that begins with a query fails as the query does, or goes on with the cursor. -/
theorem of_query (h : w.Takes ms j x f) (hms : ms j.session.base = [])
    (huncancelled : j.Uncancelled b) {q : Query} {d : Cursor → Dialogue α}
    (hd : (w.talk j b).1 = (Dialogue.asks (.statement .rows q) d).map f) :
    (∀ e, j.session.reply b = .error e → (x b).1 = .error e ∧
      (x b).2.log = b.log ++ (Question.statement .rows q).events j.session b) ∧
    ∀ cursor, j.session.reply b = .ok cursor → ∃ b',
      b'.log = b.log ++ [.sent j.session (.query q) true] ∧
      (x b).1 = ((d cursor).uninterrupted j.session b').1 ∧
      (x b).2.log = ((d cursor).uninterrupted j.session b').2.log := by
  obtain ⟨hresult, hlog⟩ := h.eq_uninterrupted hms huncancelled hd
  -- taking in models changes neither what the session answers nor what it has sent
  obtain ⟨b', hsent, hquery⟩ := Dialogue.uninterrupted_query (s := j.session) q d (w.talk j b).2
  have htransactions : (w.talk j b).2.transactions = b.transactions := by rw [talk_before]
  have hscripts : (w.talk j b).2.scripts = b.scripts := by rw [talk_before]
  have hbefore : (w.talk j b).2.log = b.log := by rw [talk_before]
  have hreply : j.session.reply (w.talk j b).2 = j.session.reply b :=
    Session.reply_congr htransactions hscripts
  have hevents : (Question.statement .rows q).events j.session (w.talk j b).2 =
      (Question.statement .rows q).events j.session b := by
    rw [Question.events_query, Question.events_query, hreply, Session.isOpen_congr htransactions]
  rw [hevents, hbefore] at hsent
  rw [hquery, hreply] at hresult hlog
  constructor
  · intro e he
    rw [he] at hresult hlog
    exact ⟨hresult, hlog.trans hsent⟩
  · intro cursor hcursor
    rw [hcursor] at hresult hlog
    rw [Question.events_of_reply hcursor] at hsent
    exact ⟨b', hsent, hresult, hlog⟩

end Takes

end Way

/-- What the runs of a job for all records and for the first one give, if the query is answered by
a cursor and `bound` is what a row of it is bound to. Either all rows are bound, each on its own and
in order, or the first failure is the result and no later row is read. The first record needs one
reading, of the first row or of the end. -/
structure BindsRows (ms : Middlewares) (j : Job) (b : Backend) (q : Query)
    (rows : List (Reply (List Value)))
    (bound : Reply (List Value) → Except Error j.entity.Record) : Prop where
  all_ok : ∀ rs, (j.getAll ms b).1 = .ok rs ↔ List.Forall₂ (fun row r => bound row = .ok r) rows rs
  all_error : ∀ e, (j.getAll ms b).1 = .error e ↔ ∃ before row after,
    rows = before ++ row :: after ∧ (∀ row' ∈ before, ∃ r, bound row' = .ok r) ∧
      bound row = .error e
  all_log : (j.getAll ms b).2.log = b.log ++ .sent j.session (.query q) true :: List.replicate
    ((rows.takeWhile fun row => (bound row).isOk).length + 1) (.read j.session)
  first_none : rows = [] → (j.get ms b).1 = .error .noRows
  first_some : ∀ row rest, rows = row :: rest → (j.get ms b).1 = bound row
  first_log : (j.get ms b).2.log =
    b.log ++ [.sent j.session (.query q) true, .read j.session]

variable {q : Query}

/-- The first of all records is what a run for the first one gives. -/
theorem BindsRows.first_of_all {rows : List (Reply (List Value))}
    {bound : Reply (List Value) → Except Error j.entity.Record}
    (h : j.BindsRows ms b q rows bound) {rs : List j.entity.Record}
    (hrs : (j.getAll ms b).1 = .ok rs) : (j.get ms b).1 = match rs.head? with
      | none => .error .noRows
      | some r => .ok r := by
  cases (h.all_ok rs).mp hrs with
  | nil => exact h.first_none rfl
  | cons hr _ => exact (h.first_some _ _ rfl).trans hr

/-- The answer to the query decides what both runs of a job give. -/
theorem bindsRows_of_reply (hms : ms j.session.base = []) (hbuild : (j.build b).1 = .ok q)
    (huncancelled : j.Uncancelled b) {m : Model}
    (hm : (b.registry j.session.base).model j.entity = .ok m) :
    (∀ e, j.session.reply b = .error e →
      let sent := (Question.statement .rows q).events j.session b
      ((j.getAll ms b).1 = .error e ∧ (j.getAll ms b).2.log = b.log ++ sent) ∧
      (j.get ms b).1 = .error e ∧ (j.get ms b).2.log = b.log ++ sent) ∧
    ∀ cursor, j.session.reply b = .ok cursor → j.BindsRows ms b q cursor.rows
      (Binding.bound (b.settings j.session.base).strategy m j.entity cursor.columns) := by
  have htalk (w : Way) :
      (w.talk j b).1 = w.dialogue j (b.settings j.session.base).strategy m q := by
    rw [Way.talk_of_build hm, hbuild]
  obtain ⟨herror, hall⟩ := Way.takes_getAll.of_query hms huncancelled (htalk .all)
  obtain ⟨herror', hfirst⟩ := Way.takes_get.of_query hms huncancelled (htalk .first)
  refine ⟨fun e he => ⟨herror e he, herror' e he⟩, fun cursor hcursor => ?_⟩
  obtain ⟨b₁, hsent, hresult, hlog⟩ := hall cursor hcursor
  obtain ⟨b₂, hsent', hresult', hlog'⟩ := hfirst cursor hcursor
  have hrows := hresult.trans (Dialogue.uninterrupted_rows cursor.rows b₁).1
  -- both ways get the same answer, so they bind the same rows; the one stops after the first
  have hrow := hresult'.trans (Dialogue.uninterrupted_firstRow cursor.rows b₂).1
  exact {
    all_ok := fun rs => by
      rw [hrows]
      exact Results.mapM_eq_ok
    all_error := fun e => by
      rw [hrows]
      exact Results.mapM_eq_error
    all_log := by
      rw [hlog, (Dialogue.uninterrupted_rows cursor.rows b₁).2, hsent, List.append_assoc]
      rfl
    first_none := fun h => by rw [hrow, h]; rfl
    first_some := fun row rest h => by rw [hrow, h]; rfl
    first_log := by
      rw [hlog', (Dialogue.uninterrupted_firstRow cursor.rows b₂).2, hsent', List.append_assoc]
      rfl }

/-- Rows are bound independently of each other, in order, and all or nothing. Take a job whose
statement can be built, without middlewares, whose token is never cancelled. If its entity has no
model, that is the result and nothing is sent; if the query is answered with an error, that is the
result and nothing is read. If the answer is a cursor, `BindsRows` says what becomes of its rows,
each bound onto the initial record whatever the other rows are. So whenever a run for all records
gives some, a run for the first one in the same state gives the first of them, or finds that there
is none. -/
theorem rows_bound (ms : Middlewares) (j : Job) (b : Backend) (q : Query)
    (hms : ms j.session.base = []) (hbuild : (j.build b).1 = .ok q)
    (huncancelled : j.Uncancelled b) :
    (∀ e, (b.registry j.session.base).model j.entity = .error e →
      ((j.getAll ms b).1 = .error e ∧ (j.getAll ms b).2.log = b.log) ∧
      (j.get ms b).1 = .error e ∧ (j.get ms b).2.log = b.log) ∧
    (∀ m, (b.registry j.session.base).model j.entity = .ok m →
      (∀ e, j.session.reply b = .error e →
        let sent := (Question.statement .rows q).events j.session b
        ((j.getAll ms b).1 = .error e ∧ (j.getAll ms b).2.log = b.log ++ sent) ∧
        (j.get ms b).1 = .error e ∧ (j.get ms b).2.log = b.log ++ sent) ∧
      ∀ cursor, j.session.reply b = .ok cursor → j.BindsRows ms b q cursor.rows
        (Binding.bound (b.settings j.session.base).strategy m j.entity cursor.columns)) ∧
    ∀ rs, (j.getAll ms b).1 = .ok rs → (j.get ms b).1 = match rs.head? with
      | none => .error .noRows
      | some r => .ok r := by
  refine ⟨fun e he => ⟨Way.takes_getAll.of_error hms huncancelled he,
    Way.takes_get.of_error hms huncancelled he⟩,
    fun m hm => bindsRows_of_reply hms hbuild huncancelled hm, fun rs hrs => ?_⟩
  cases hm : (b.registry j.session.base).model j.entity with
  | error e =>
    have hfails := (Way.takes_getAll.of_error hms huncancelled hm).1
    rw [hrs] at hfails
    cases hfails
  | ok m =>
    obtain ⟨herror, hcursor⟩ := bindsRows_of_reply hms hbuild huncancelled hm
    cases hreply : j.session.reply b with
    | error e =>
      have hfails := (herror e hreply).1.1
      rw [hrs] at hfails
      cases hfails
    | ok cursor => exact (hcursor cursor hreply).first_of_all hrs

/-- All accounts, with a token of its own. -/
def allAccounts : Job :=
  { statement := .select (Select.all "db" account)
    directory := []
    cancel := none }

/-- Four accounts without balance, the second without identifier too and the third one lost. -/
def partialAccounts : Cursor where
  columns := ["owner", "id"]
  rows := [.plain (.ok [.integer 7, .integer 1]), .plain (.ok [.integer 8]),
    .plain (.error (.unknown "connection lost")), .plain (.ok [.integer 9, .integer 4])]

/-- The database that gives these accounts. -/
def interrupted : Backend :=
  Way.plain.setScript "db" (Script.empty.pushCursor (.plain (.ok partialAccounts)))

/-- The row that is lost makes all of them fail, though two were bound before, and is the last to be
read; the first one is not affected. -/
theorem rows_bound_interrupted :
    ((allAccounts.getAll (fun _ => []) interrupted).1 = .error (.unknown "connection lost") ∧
      (allAccounts.getAll (fun _ => []) interrupted).2.log =
        [.sent (.database "db") (.query ⟨"SELECT * FROM \x60account\x60;", []⟩) true,
          .read (.database "db"), .read (.database "db"), .read (.database "db")]) ∧
    ∃ r, (allAccounts.get (fun _ => []) interrupted).1 = .ok r ∧
      r.read? "owner" = some (.integer 7) := by
  obtain ⟨-, hbinds, -⟩ := rows_bound (fun _ => []) allAccounts interrupted
    ⟨"SELECT * FROM \x60account\x60;", []⟩ rfl rfl rfl
  have h := (hbinds _ rfl).2 partialAccounts rfl
  refine ⟨⟨(h.all_error _).mpr ⟨[_, _], _, _, rfl, ?_, rfl⟩, h.all_log⟩,
    _, h.first_some _ _ rfl, rfl⟩
  exact List.forall_mem_cons.mpr ⟨⟨_, rfl⟩, List.forall_mem_cons.mpr ⟨⟨_, rfl⟩, nofun⟩⟩

end Job

end RowMapper
