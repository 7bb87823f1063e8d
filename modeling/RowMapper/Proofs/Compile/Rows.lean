import RowMapper.Proofs.Binding.RoundTrip
import RowMapper.Proofs.Compile.Dialects

/-!
# The rows of an insert

An insert writes one column for each listed field and, for each of its rows, as many placeholders;
the value bound to a placeholder is what the record of its row is stored as in the field of its
column. What a conflict clause binds comes after all rows. `Insert.compile_rectangular` says so, and
that an insert of some rows fails only where it has to: if the entity has no model, if a listed name
cannot be read, or if the conflict clause does not compile.

The text is told by `Token.joined`, one lemma for each way to put tokens together. The values are
found by `Binding.field_eq_ok`: whatever the strategy, reading a field gives the cell at its place.
-/

namespace RowMapper

open Token (word sign)

/-! ## Texts -/

namespace Token

/-- The text of tokens in a row. -/
def joined (ts : List Token) : String := String.join (ts.map text)

@[simp]
theorem joined_nil : joined [] = "" := rfl

@[simp]
theorem joined_cons (t : Token) (ts : List Token) : joined (t :: ts) = t.text ++ joined ts := by
  rw [joined, List.map_cons, String.join_cons]
  rfl

@[simp]
theorem joined_append (ts us : List Token) : joined (ts ++ us) = joined ts ++ joined us := by
  rw [joined, List.map_append, String.join_append]
  rfl

@[simp]
theorem joined_parenthesized (ts : List Token) :
    joined (parenthesized ts) = "(" ++ joined ts ++ ")" := by
  simp [parenthesized, text, Sign.text, String.append_assoc]

@[simp]
theorem joined_commaSeparated : ∀ tss : List (List Token),
    joined (commaSeparated tss) = ",".intercalate (tss.map joined)
  | [] => rfl
  | [ts] => by simp [commaSeparated]
  | ts :: us :: rest => by
    have hrest := joined_commaSeparated (us :: rest)
    show joined (ts ++ sign .comma :: commaSeparated (us :: rest)) = _
    rw [joined_append, joined_cons, hrest]
    simp only [List.map_cons, String.intercalate_cons_cons, String.append_assoc]
    rfl

end Token

namespace Insert

/-- The text of a row of placeholders. -/
def rowText (k : ℕ) : String := "(" ++ ",".intercalate (List.replicate k "?") ++ ")"

/-- The text of an insert up to the end of its rows: `n` rows for the given columns of a table. -/
def headText (quote : Char) (table : String) (columns : List String) (n : ℕ) : String :=
  "INSERT INTO " ++ (Token.name quote table).text ++
    "(" ++ ",".intercalate (columns.map fun column => (Token.name quote column).text) ++
    ") VALUES" ++ ",".intercalate (List.replicate n (rowText columns.length))

theorem joined_rowTokens (vs : List Value) : Token.joined (rowTokens vs) = rowText vs.length := by
  have hplaceholder (v : Value) : Token.joined [.bound v] = "?" := by simp [Token.text]
  simp only [rowTokens, Token.joined_parenthesized, Token.joined_commaSeparated, List.map_map,
    Function.comp_def, hplaceholder, List.map_const', rowText]

/-- The text of an insert whose rows have a value for each column. -/
theorem joined_phrase {cores : Cores} {scope : Scope} {columns : List String}
    {rows : List (List Value)} (hlength : ∀ vs ∈ rows, vs.length = columns.length)
    (conflict : List Token) :
    Token.joined (phrase cores scope (columns.map (scope.name cores)) rows conflict) =
      headText (cores scope.session).dialect.quote scope.model.tableName columns rows.length ++
        Token.joined conflict := by
  have hrows : (rows.map rowTokens).map Token.joined =
      List.replicate rows.length (rowText columns.length) := by
    rw [List.map_map, ← List.map_const']
    refine List.map_congr_left fun vs hvs => ?_
    rw [Function.comp_apply, joined_rowTokens, hlength vs hvs]
  have hcolumns : ((columns.map (scope.name cores)).map ([·])).map Token.joined =
      columns.map fun column => (Token.name (cores scope.session).dialect.quote column).text := by
    simp [Scope.name, Function.comp_def]
  unfold headText
  simp only [phrase, Token.joined_cons, Token.joined_append, Token.joined_parenthesized,
    Token.joined_commaSeparated, hrows, hcolumns, String.append_assoc]
  rfl

end Insert

/-! ## Cells -/

/-- A name is that of a field of the model that can be read from records: by place in any case, by
name if its declaration does not hide it. -/
def Model.Readable (m : Model) (strategy : Strategy) (name : String) : Prop :=
  ∃ f, m.field? name = some f ∧
    (strategy = .byName → ∀ d, m.owner.fields[f.index]? = some d → d.hidden = false)

/-- A record is stored under a name as a value: that in the cell of the model's field. -/
def Model.Stores (m : Model) {T : EntityType} (r : T.Record) (name : String) (v : Value) : Prop :=
  ∃ f, m.field? name = some f ∧ r.cells[f.index]? = some v

namespace Binding

variable {T : EntityType} {m : Model} (hnames : (T.fields.map (·.name)).Nodup)
  (hm : m.Describes T) (hindexed : m.Indexed)

include hm hindexed

/-- Every record has a cell for each field of the model. -/
theorem exists_cell (r : T.Record) {name : String} {f : ModelField}
    (hf : m.field? name = some f) : ∃ v, r.cells[f.index]? = some v := by
  obtain ⟨i, hi, -⟩ := hindexed.field?_eq_some.mp hf
  have hlt : f.index < r.cells.length := by
    rw [hm.place hi, Fields.length_cells, ← hm.length_eq]
    exact (List.getElem?_eq_some_iff.mp hi).1
  exact ⟨_, List.getElem?_eq_getElem hlt⟩

include hnames

/-- Reading a field gives the cell at its place, if the field can be read at all. -/
theorem field_eq_ok (strategy : Strategy) (r : T.Record) {name : String} {v : Value} :
    field strategy m r name = .ok v ↔ m.Readable strategy name ∧ m.Stores r name v := by
  unfold field Model.Readable Model.Stores
  rw [check_eq_ok hm, hm.owner]
  cases hf : m.field? name with
  | none => simp [bind, Except.bind, throw, throwThe, MonadExceptOf.throw]
  | some f =>
    obtain ⟨u, hu⟩ := exists_cell hm hindexed r hf
    obtain ⟨i, hi, rfl⟩ := hindexed.field?_eq_some.mp hf
    obtain ⟨rfl, d, hd, hname⟩ := hm.field? hi
    have hbyName := Fields.read?_eq_ite hnames r hd
    rw [hname, Fields.readAt?_eq, hu] at hbyName
    cases strategy with
    | byPlace => simp [bind, Except.bind, Fields.readAt?_eq, hu, pure, Except.pure]
    | byName =>
      -- a hidden field is not found by its name
      cases hhidden : d.hidden with
      | true =>
        simp [bind, Except.bind, hbyName, hhidden, hd, throw, throwThe, MonadExceptOf.throw]
      | false => simp [bind, Except.bind, hbyName, hhidden, hd, hu, pure, Except.pure]

/-- What can be read has a value in every record. -/
theorem exists_field_eq_ok {strategy : Strategy} (r : T.Record) {name : String}
    (hname : m.Readable strategy name) : ∃ v, field strategy m r name = .ok v := by
  obtain ⟨f, hf, -⟩ := id hname
  obtain ⟨v, hv⟩ := exists_cell hm hindexed r hf
  exact ⟨v, (field_eq_ok hnames hm hindexed strategy r).mpr ⟨hname, f, hf, hv⟩⟩

end Binding

/-! ## Inserts -/

/-- Lists that are related entry by entry are related at every place. -/
theorem exists_getElem?_of_forall₂ {α β : Type} {R : α → β → Prop} {as : List α} {bs : List β}
    (h : List.Forall₂ R as bs) : ∀ {i : ℕ} {a : α}, as[i]? = some a →
      ∃ b, bs[i]? = some b ∧ R a b := by
  induction h with
  | nil => simp
  | @cons a b as bs hR _ ih =>
    intro i a' ha'
    cases i with
    | zero =>
      obtain rfl : a = a' := Option.some.inj ha'
      exact ⟨b, rfl, hR⟩
    | succ i => exact ih ha'

theorem getElem?_flatten_rows {k : ℕ} {rows : List (List Value)}
    (hlength : ∀ vs ∈ rows, vs.length = k) {i j : ℕ} {vs : List Value} (hvs : rows[i]? = some vs)
    (hj : j < k) : rows.flatten[i * k + j]? = vs[j]? := by
  rw [← take_drop_flatten hlength hvs, List.getElem?_take, if_pos hj, List.getElem?_drop]

theorem Scope.columns_eq_ok {cores : Cores} {scope : Scope} {fields : List String}
    {names : List Token} : (scope.columns cores fields).result = .ok names ↔ ∃ columns,
      List.Forall₂ (fun field column => scope.model.columnOf field = .ok column) fields columns ∧
        names = columns.map (scope.name cores) := by
  rw [Scope.columns_eq_mapM, Compiled.result_map, Compiled.result_ofExcept]
  constructor
  · intro h
    cases hcolumns : fields.mapM scope.model.columnOf with
    | error e => simp [hcolumns, Except.map] at h
    | ok columns =>
      rw [hcolumns] at h
      exact ⟨columns, Results.mapM_eq_ok.mp hcolumns, (Except.ok.inj h).symm⟩
  · rintro ⟨columns, hcolumns, rfl⟩
    rw [Results.mapM_eq_ok.mpr hcolumns]
    rfl

namespace Insert

variable {cores : Cores} {s : Insert}

/-- What an insert compiles to: a column for each listed field, the values of the fields in each
row, and the conflict clause. -/
theorem compile_eq_ok {q : Query} : ((Statement.insert s).compile cores).result = .ok q ↔
    s.rows ≠ [] ∧ ∃ m columns rows conflict, (cores s.session).registry.model s.entity = .ok m ∧
      List.Forall₂ (fun name column => m.columnOf name = .ok column) (s.listedFields m) columns ∧
      List.Forall₂ (fun r vs => List.Forall₂ (fun name v =>
        Binding.field (cores s.session).strategy m r name = .ok v) (s.listedFields m) vs)
          s.rows rows ∧
      (s.conflictTokens cores ⟨s.session, m⟩).result = .ok conflict ∧
      q = .ofTokens (phrase cores ⟨s.session, m⟩ (columns.map (Scope.name cores ⟨s.session, m⟩))
        rows conflict ++ [sign .semicolon]) := by
  have hcells (m : Model) (rows : List (List Value)) :
      cells (cores s.session).strategy m (s.listedFields m) s.rows = .ok rows ↔
        List.Forall₂ (fun r vs => List.Forall₂ (fun name v =>
          Binding.field (cores s.session).strategy m r name = .ok v) (s.listedFields m) vs)
            s.rows rows := by
    simp only [cells_eq_ok, rowValues_eq_ok]
  simp only [Statement.compile, Statement.tokens, Compiled.result_bind, Compiled.result_pure,
    Results.bind_eq_ok, tokens_eq_ok, Scope.columns_eq_ok, hcells, Except.ok.injEq]
  constructor
  · rintro ⟨_, ⟨_, ⟨hrows, m, _, rows, conflict, hm, ⟨columns, hcolumns, rfl⟩, hvalues, hconflict,
      rfl⟩, rfl⟩, rfl⟩
    exact ⟨hrows, m, columns, rows, conflict, hm, hcolumns, hvalues, hconflict, rfl⟩
  · rintro ⟨hrows, m, columns, rows, conflict, hm, hcolumns, hvalues, hconflict, rfl⟩
    exact ⟨_, ⟨_, ⟨hrows, m, _, rows, conflict, hm, ⟨columns, hcolumns, rfl⟩, hvalues, hconflict,
      rfl⟩, rfl⟩, rfl⟩

/-- What an insert of some rows needs to compile: a model of its entity, fields that can be read
under the listed names, and a clause for conflicts that compiles. -/
def Compilable (cores : Cores) (s : Insert) : Prop :=
  ∃ m, (cores s.session).registry.model s.entity = .ok m ∧
    (∀ name ∈ s.listedFields m, m.Readable (cores s.session).strategy name) ∧
    ∃ conflict, (s.conflictTokens cores ⟨s.session, m⟩).result = .ok conflict

/-- A query inserts rows cell by cell: it has a column for each listed field, for each row as many
placeholders, bound to the cells of the row's record, and the clause for conflicts after them. -/
structure Rectangular (cores : Cores) (s : Insert) (m : Model) (columns : List String)
    (conflict : List Token) (q : Query) : Prop where
  model : (cores s.session).registry.model s.entity = .ok m
  stored : List.Forall₂ (fun name column => m.columnOf name = .ok column) (s.listedFields m) columns
  clause : (s.conflictTokens cores ⟨s.session, m⟩).result = .ok conflict
  sql : q.sql = headText (cores s.session).dialect.quote m.tableName columns s.rows.length ++
    Token.joined conflict ++ ";"
  cell : ∀ {i j : ℕ} {r : s.entity.Record} {name : String}, s.rows[i]? = some r →
    (s.listedFields m)[j]? = some name →
      ∃ v, m.Stores r name v ∧ q.args[i * columns.length + j]? = some v
  rest : q.args.drop (s.rows.length * columns.length) = conflict.flatMap Token.args

section

variable (hnames : (s.entity.fields.map (·.name)).Nodup)
  (hsound : (cores s.session).registry.Sound)

include hnames hsound

/-- An insert of some rows compiles if and only if it has what it needs. -/
theorem exists_compile_iff (hrows : s.rows ≠ []) :
    (∃ q, ((Statement.insert s).compile cores).result = .ok q) ↔ s.Compilable cores := by
  constructor
  · rintro ⟨q, hq⟩
    obtain ⟨-, m, columns, rows, conflict, hm, -, hvalues, hconflict, -⟩ := compile_eq_ok.mp hq
    refine ⟨m, hm, fun name hname => ?_, conflict, hconflict⟩
    -- there is a row, and the name was read from it
    obtain ⟨r, hr⟩ := List.exists_mem_of_ne_nil _ hrows
    obtain ⟨i, hi⟩ := List.mem_iff_getElem?.mp hr
    obtain ⟨j, hj⟩ := List.mem_iff_getElem?.mp hname
    obtain ⟨vs, -, hvs⟩ := exists_getElem?_of_forall₂ hvalues hi
    obtain ⟨v, -, hv⟩ := exists_getElem?_of_forall₂ hvs hj
    have hmade := hsound.model hm
    exact ((Binding.field_eq_ok hnames hmade.describes (hmade.indexed hnames) _ r).mp hv).1
  · rintro ⟨m, hm, hreadable, conflict, hconflict⟩
    have hmade := hsound.model hm
    have hindexed := hmade.indexed hnames
    obtain ⟨columns, hcolumns⟩ : ∃ columns, (s.listedFields m).mapM m.columnOf = .ok columns := by
      refine Results.exists_mapM_eq_ok fun name hname => ?_
      obtain ⟨f, hf, -⟩ := hreadable name hname
      exact Model.exists_columnOf_eq_ok.mpr ⟨f, hf⟩
    obtain ⟨rows, hvalues⟩ : ∃ rows, cells (cores s.session).strategy m (s.listedFields m) s.rows =
        .ok rows := by
      rw [cells_eq_mapM]
      refine Results.exists_mapM_eq_ok fun r _ => ?_
      rw [rowValues_eq_mapM]
      exact Results.exists_mapM_eq_ok fun name hname =>
        Binding.exists_field_eq_ok hnames hmade.describes hindexed r (hreadable name hname)
    simp only [cells_eq_ok, rowValues_eq_ok] at hvalues
    exact ⟨_, compile_eq_ok.mpr ⟨hrows, m, columns, rows, conflict, hm,
      Results.mapM_eq_ok.mp hcolumns, hvalues, hconflict, rfl⟩⟩

/-- An insert that compiles is rectangular. -/
theorem rectangular_of_compile {q : Query}
    (hq : ((Statement.insert s).compile cores).result = .ok q) :
    ∃ m columns conflict, s.Rectangular cores m columns conflict q := by
  obtain ⟨hrows, m, columns, rows, conflict, hm, hcolumns, hvalues, hconflict, rfl⟩ :=
    compile_eq_ok.mp hq
  have hmade := hsound.model hm
  have hindexed := hmade.indexed hnames
  -- a row has a cell for each listed field, as there is a column for each
  have hlength : ∀ vs ∈ rows, vs.length = columns.length := by
    intro vs hvs
    obtain ⟨i, hi⟩ := List.mem_iff_getElem?.mp hvs
    obtain ⟨r, -, hr⟩ := exists_getElem?_of_forall₂ hvalues.flip hi
    exact hr.length_eq.symm.trans hcolumns.length_eq
  have hargs : (Query.ofTokens (phrase cores ⟨s.session, m⟩
      (columns.map (Scope.name cores ⟨s.session, m⟩)) rows conflict ++ [sign .semicolon])).args =
        rows.flatten ++ conflict.flatMap Token.args := by
    have hsilent : ∀ c ∈ columns.map (Scope.name cores ⟨s.session, m⟩), c.Silent := by
      intro c hc
      obtain ⟨column, -, rfl⟩ := List.mem_map.mp hc
      rfl
    rw [Query.ofTokens, List.flatMap_append, args_phrase hsilent]
    simp [Token.args]
  have hsize : rows.flatten.length = s.rows.length * columns.length := by
    rw [length_flatten_rows hlength, hvalues.length_eq]
  refine ⟨m, columns, conflict, hm, hcolumns, hconflict, ?_, ?_, ?_⟩
  · show Token.joined _ = _
    rw [Token.joined_append, joined_phrase hlength, hvalues.length_eq]
    rfl
  · intro i j r name hr hname
    obtain ⟨vs, hvs, hr⟩ := exists_getElem?_of_forall₂ hvalues hr
    obtain ⟨v, hv, hread⟩ := exists_getElem?_of_forall₂ hr hname
    have hj : j < columns.length := by
      rw [← hlength vs (List.mem_of_getElem? hvs)]
      exact (List.getElem?_eq_some_iff.mp hv).1
    -- as all rows are equally long, the place of a cell in all of them is known
    have hcell : rows.flatten[i * columns.length + j]? = some v := by
      rw [getElem?_flatten_rows hlength hvs hj, hv]
    refine ⟨v, ((Binding.field_eq_ok hnames hmade.describes hindexed _ r).mp hread).2, ?_⟩
    rw [hargs, List.getElem?_append_left (List.getElem?_eq_some_iff.mp hcell).1, hcell]
  · rw [hargs, ← hsize, List.drop_left]

end

/-- An insert writes its rows cell by cell. Without rows it fails. With rows, it compiles if and
only if its entity has a model, the listed names are those of fields that can be read, and its
clause for conflicts compiles. Its text then is that of the model's table, the stored columns of the
listed fields and one row of placeholders for each row, the arguments are the cells of the records
in this order, and those of the clause for conflicts follow. -/
theorem compile_rectangular (hnames : (s.entity.fields.map (·.name)).Nodup)
    (hsound : (cores s.session).registry.Sound) :
    (s.rows = [] → ((Statement.insert s).compile cores).result = .error .noRowsToInsert) ∧
      (s.rows ≠ [] → ((∃ q, ((Statement.insert s).compile cores).result = .ok q) ↔
        s.Compilable cores)) ∧
      ∀ q, ((Statement.insert s).compile cores).result = .ok q →
        ∃ m columns conflict, s.Rectangular cores m columns conflict q := by
  refine ⟨fun hrows => ?_, exists_compile_iff hnames hsound, fun q =>
    rectangular_of_compile hnames hsound⟩
  rw [Statement.compile, Statement.tokens, tokens, if_pos (List.isEmpty_iff.mpr hrows)]
  rfl

/-- Two transfers, from accounts 3 and 4; a transfer that is there already is cleared. -/
def payments : Insert :=
  let first : BoundedInt .int64 × BoundedInt .int64 × Unit :=
    (⟨3, by decide, by decide⟩, ⟨50, by decide, by decide⟩, ())
  let second : BoundedInt .int64 × BoundedInt .int64 × Unit :=
    (⟨4, by decide, by decide⟩, ⟨60, by decide, by decide⟩, ())
  { session := "db", entity := transfer, rows := [first, second], fields := ["amount", "accountId"]
    upsert? := some ⟨["accountId"], [.value "amount" (.value (.integer 0))]⟩ }

/-- The fields of two transfers in another order than they are declared. -/
theorem compile_rectangular_payments :
    payments.Compilable (fun _ => .default) ∧
      ∃ q, ((Statement.insert payments).compile fun _ => .default).result = .ok q ∧
        q.sql = "INSERT INTO `transfer`(`amount`,`account_id`) VALUES(?,?),(?,?) " ++
          "ON CONFLICT(`account_id`) DO UPDATE SET `amount`=?;" ∧
        q.args[1 * 2 + 0]? = some (.integer 60) ∧ q.args.drop (2 * 2) = [.integer 0] := by
  obtain ⟨-, hiff, hrectangular⟩ := @compile_rectangular (fun _ => .default) payments (by decide)
    Registry.sound_empty
  obtain ⟨m, columns, conflict, h⟩ := hrectangular _ rfl
  obtain rfl := Except.ok.inj h.model
  have hclause := Except.ok.inj h.clause
  have hcolumns : columns.length = 2 := h.stored.length_eq.symm
  refine ⟨(hiff (by decide)).mp ⟨_, rfl⟩, _, rfl, by decide, ?_, ?_⟩
  · obtain ⟨v, ⟨f, hf, hv⟩, harg⟩ := h.cell (i := 1) (j := 0) rfl rfl
    obtain rfl := Option.some.inj hf
    obtain rfl := Option.some.inj hv
    rwa [hcolumns] at harg
  · have hrest := h.rest
    rw [hcolumns, ← hclause] at hrest
    exact hrest

end Insert

end RowMapper
