import RowMapper.Proofs.Binding.Strategies
import RowMapper.Proofs.Compile.Checks
import RowMapper.Proofs.Compile.Placeholders
import RowMapper.Proofs.Field.RoundTrip
import RowMapper.Proofs.Model.Renaming

/-!
# Rows inserted and read back

`Insert.rows_read_back`: an insert of records of an entity with a default model compiles, and its
arguments, cut into rows and bound with the model's columns, are the same records again.

There are two halves. `Binding.setColumns_cells` binds what a record is stored as; the invariant is
the record that is new up to the field being written. `Insert.tokens_eq_ok` says what an insert
compiles to, and `Insert.args_phrase` that its arguments are the values of its rows in order.
-/

namespace RowMapper

/-! ## Binding a stored record -/

namespace Model

/-- In a default model with different columns every field is found by its column. -/
theorem fieldByColumn?_of_nodup {T : EntityType} {m : Model}
    (hnames : (T.fields.map (·.name)).Nodup) (hm : ofEntity T = .ok m)
    (hcolumns : (m.fields.map (·.column)).Nodup) {f : ModelField} (hf : f ∈ m.fields) :
    m.fieldByColumn? f.column = some f := by
  rw [← (indexed_ofEntity hnames hm).found_name_iff hf]
  exact found_of_alone_ofEntity hnames hm (List.mem_map_of_mem hf) (alone_of_nodup hcolumns)

end Model

namespace Binding

variable {T : EntityType} {m : Model}

/-- Assigning cells one after the other by place makes one field new with each of them. -/
theorem assignAll_byPlace_cells (htypes : ∀ f ∈ T.fields, f.type.Basic) {r : T.Record}
    (hr : r.Faithful) (old : T.Record) : ∀ {cells : List (ModelField × Value)} {n : ℕ},
    (∀ i c, cells[i]? = some c → c.1.index = n + i ∧ r.cells[n + i]? = some c.2) →
      assignAll .byPlace (Fields.blend n r old) cells =
        (.ok (), Fields.blend (n + cells.length) r old)
  | [], n, _ => rfl
  | (f, v) :: cells, n, hcells => by
    obtain ⟨hplace, hv⟩ : f.index = n ∧ r.cells[n]? = some v := hcells 0 (f, v) rfl
    have hassign : assign .byPlace (Fields.blend n r old) f v =
        .ok (Fields.blend (n + 1) r old) := by
      rw [assign, hplace, Fields.writeAt?_blend htypes hr old hv]
      rfl
    -- one more field is new, and the rest of the cells starts one place later
    have hrest : ∀ i c, cells[i]? = some c →
        c.1.index = n + 1 + i ∧ r.cells[n + 1 + i]? = some c.2 := by
      intro i c hc
      rw [Nat.add_assoc, Nat.add_comm 1 i]
      exact hcells (i + 1) c hc
    rw [assignAll, hassign, List.length_cons, Nat.add_comm cells.length 1, ← Nat.add_assoc]
    exact assignAll_byPlace_cells htypes hr old hrest

/-- What a record is stored as is bound to the record. -/
theorem setColumns_cells (hT : T.WellFormed) (htypes : ∀ f ∈ T.fields, f.type.Basic)
    (hm : Model.ofEntity T = .ok m) (hcolumns : (m.fields.map (·.column)).Nodup)
    (strategy : Strategy) {r : T.Record} (hr : r.Faithful) (old : T.Record) :
    setColumns strategy m old (m.fields.map (·.column)) r.cells = (.ok (), r) := by
  have hdescribes := Model.describes_ofEntity hm
  have hresolve : resolveColumns m (m.fields.map (·.column)) = .ok m.fields := by
    refine resolveColumns_eq_ok.mpr ⟨by simp, ?_⟩
    rw [List.forall₂_map_left_iff, List.forall₂_same]
    exact fun f hf => Model.fieldByColumn?_of_nodup hT.distinct hm hcolumns hf
  have hcells : ∀ i c, (m.fields.zip r.cells)[i]? = some c →
      c.1.index = 0 + i ∧ r.cells[0 + i]? = some c.2 := by
    intro i c hc
    obtain ⟨hfield, hcell⟩ := List.getElem?_zip_eq_some.mp hc
    rw [Nat.zero_add]
    exact ⟨hdescribes.place hfield, hcell⟩
  -- the cells are written in the order of the fields, so the record becomes new from the front
  have hassign := assignAll_byPlace_cells htypes hr old hcells
  have hlength : (m.fields.zip r.cells).length = T.fields.length := by
    rw [List.length_zip, Fields.length_cells, hdescribes.length_eq, Nat.min_self]
  rw [Fields.blend_zero, hlength, Nat.zero_add, Fields.blend_length] at hassign
  rw [setColumns_eq hT hdescribes strategy .byPlace, setColumns, check_eq_ok hdescribes]
  simp only [bind, Except.bind, hresolve]
  exact hassign

/-- The value read for the field at a place is the cell there. -/
theorem field_cell (hT : T.WellFormed) (hm : m.Describes T) (hindexed : m.Indexed)
    (strategy : Strategy) (r : T.Record) {i : ℕ} {f : ModelField} {v : Value}
    (hf : m.fields[i]? = some f) (hv : r.cells[i]? = some v) :
    field strategy m r f.name = .ok v := by
  rw [field_eq hT hm strategy .byPlace, field, check_eq_ok hm, hindexed.field?_self hf]
  simp only [bind, Except.bind, hm.place hf, Fields.readAt?_eq, hv]
  rfl

end Binding

/-! ## What an insert binds -/

variable {cores : Cores}

theorem Token.args_bound (vs : List Value) :
    (vs.map fun v => [bound v]).flatMap (·.flatMap args) = vs := by
  simp [List.flatMap_map, args]

namespace Insert

/-- What an insert compiles to. -/
def phrase (cores : Cores) (scope : Scope) (names : List Token) (rows : List (List Value))
    (conflict : List Token) : List Token :=
  Token.word .insertInto :: blank :: scope.name cores scope.model.tableName ::
    (parenthesized (commaSeparated (names.map ([·]))) ++ blank :: Token.word .values ::
      (commaSeparated (rows.map rowTokens) ++ conflict))

/-- An insert compiles if it has rows, its entity has a model, the listed fields are fields of the
model and can be read from every row, and its conflict clause compiles. -/
theorem tokens_eq_ok {s : Insert} {ts : List Token} : (s.tokens cores).result = .ok ts ↔
    s.rows ≠ [] ∧ ∃ m names rows conflict, (cores s.session).registry.model s.entity = .ok m ∧
      (Scope.columns cores ⟨s.session, m⟩ (s.listedFields m)).result = .ok names ∧
      cells (cores s.session).strategy m (s.listedFields m) s.rows = .ok rows ∧
      (s.conflictTokens cores ⟨s.session, m⟩).result = .ok conflict ∧
      ts = phrase cores ⟨s.session, m⟩ names rows conflict := by
  cases hempty : s.rows.isEmpty with
  | true => simp [tokens, List.isEmpty_iff.mp hempty]
  | false =>
    have hrows : s.rows ≠ [] := by simpa using hempty
    rw [tokens_eq cores s hempty, and_iff_right hrows]
    simp only [Compiled.result_bind, Compiled.result_model, Compiled.result_ofExcept,
      Results.bind_eq_ok, Compiled.result_pure, Except.ok.injEq, phrase, eq_comm (a := ts)]
    constructor
    · rintro ⟨m, hm, names, hnames, rows, hrows, conflict, hconflict, h⟩
      exact ⟨m, names, rows, conflict, hm, hnames, hrows, hconflict, h⟩
    · rintro ⟨m, names, rows, conflict, hm, hnames, hrows, hconflict, h⟩
      exact ⟨m, hm, names, hnames, rows, hrows, conflict, hconflict, h⟩

theorem args_rowTokens (vs : List Value) : (rowTokens vs).flatMap Token.args = vs := by
  rw [rowTokens, Token.args_parenthesized, Token.args_commaSeparated, Token.args_bound]

/-- The arguments of an insert are the values of its rows, then those of the conflict clause. -/
theorem args_phrase {scope : Scope} {names : List Token} (hnames : ∀ c ∈ names, c.Silent)
    (rows : List (List Value)) (conflict : List Token) :
    (phrase cores scope names rows conflict).flatMap Token.args =
      rows.flatten ++ conflict.flatMap Token.args := by
  have hlist : (commaSeparated (names.map ([·]))).flatMap Token.args = [] := by
    simp only [Token.args_commaSeparated, List.flatMap_map, List.flatMap_singleton]
    exact List.flatMap_eq_nil_iff.mpr hnames
  have hrows : (commaSeparated (rows.map rowTokens)).flatMap Token.args = rows.flatten := by
    simp [Token.args_commaSeparated, List.flatMap_map, args_rowTokens, List.flatMap_id']
  simp only [phrase, List.flatMap_cons, List.flatMap_append, Token.args_parenthesized, hlist, hrows]
  rfl

/-- The values of a row in the order of the model's fields are what the record is stored as. -/
theorem rowValues_eq_cells {T : EntityType} (hT : T.WellFormed) {m : Model} (hm : m.Describes T)
    (hindexed : m.Indexed) (strategy : Strategy) (r : T.Record) :
    rowValues strategy m r (m.fields.map (·.name)) = .ok r.cells := by
  rw [rowValues_eq_ok, List.forall₂_map_left_iff, List.forall₂_iff_get]
  refine ⟨by rw [hm.length_eq, Fields.length_cells], fun i hi hi' => ?_⟩
  exact Binding.field_cell hT hm hindexed strategy r (List.getElem?_eq_getElem hi)
    (List.getElem?_eq_getElem hi')

end Insert

theorem length_flatten_rows {k : ℕ} {rows : List (List Value)}
    (hlength : ∀ vs ∈ rows, vs.length = k) : rows.flatten.length = rows.length * k := by
  rw [List.length_flatten, List.map_congr_left hlength, List.map_const', List.sum_replicate_nat]

/-- The part of a concatenation of lists of one length that comes from the list at a place. -/
theorem take_drop_flatten {k : ℕ} : ∀ {rows : List (List Value)}, (∀ vs ∈ rows, vs.length = k) →
    ∀ {i : ℕ} {vs : List Value}, rows[i]? = some vs → (rows.flatten.drop (i * k)).take k = vs
  | [], _, i, vs, hvs => by simp at hvs
  | us :: rows, hlength, i, vs, hvs => by
    have hus : us.length = k := hlength us (.head _)
    cases i with
    | zero =>
      obtain rfl : us = vs := Option.some.inj hvs
      rw [List.flatten_cons, Nat.zero_mul, List.drop_zero, List.take_left' hus]
    | succ i =>
      rw [List.flatten_cons, Nat.succ_mul, Nat.add_comm, ← List.drop_drop, List.drop_left' hus]
      exact take_drop_flatten (fun vs hvs => hlength vs (.tail _ hvs)) hvs

/-- An insert of records of an entity that has its default model compiles, and binds the cells of
the records. -/
theorem Insert.compile_rows {session : String} {T : EntityType} {m : Model} {rows : List T.Record}
    (hT : T.WellFormed) (hdefault : Model.ofEntity T = .ok m)
    (hmodel : (cores session).registry.model T = .ok m) (hne : rows ≠ []) :
    ∃ q, ((Statement.insert { Insert.into session T with rows }).compile cores).result = .ok q ∧
      q.args = (rows.map Fields.cells).flatten := by
  have hindexed := Model.indexed_ofEntity hT.distinct hdefault
  have hm := Model.describes_ofEntity hdefault
  let s : Insert := { Insert.into session T with rows }
  let scope : Scope := ⟨session, m⟩
  -- every name of the model's own fields resolves
  have hscope : (cores scope.session).registry.model T = .ok scope.model := hmodel
  obtain ⟨names, hnames⟩ :
      ∃ names, (scope.columns cores (s.listedFields m)).result = .ok names := by
    refine (Scope.columns_tests hscope _).exists_ok_iff.mpr fun c hc => ?_
    obtain ⟨name, hname, rfl⟩ := List.mem_map.mp hc
    obtain ⟨f, hf, rfl⟩ := List.mem_map.mp hname
    obtain ⟨i, hi⟩ := List.mem_iff_getElem?.mp hf
    exact ⟨m, f, hmodel, hindexed.field?_self hi⟩
  have hcells : cells (cores session).strategy m (s.listedFields m) rows =
      .ok (rows.map Fields.cells) := by
    rw [cells_eq_ok, List.forall₂_map_right_iff, List.forall₂_same]
    exact fun r _ => rowValues_eq_cells hT hm hindexed _ r
  have htokens : (s.tokens cores).result =
      .ok (phrase cores scope names (rows.map Fields.cells) []) :=
    tokens_eq_ok.mpr ⟨hne, m, names, rows.map Fields.cells, [], hmodel, hnames, hcells, rfl, rfl⟩
  have hsilent : ∀ c ∈ names, c.Silent :=
    Scope.columns_silent (M := fun _ => True) scope _ (fun _ _ => trivial) names hnames
  refine ⟨.ofTokens (phrase cores scope names (rows.map Fields.cells) [] ++ [.sign .semicolon]),
    ?_, ?_⟩
  · simp only [Statement.compile, Statement.tokens, Compiled.result_bind]
    rw [htokens]
    rfl
  · rw [Query.ofTokens, List.flatMap_append, args_phrase hsilent]
    simp [Token.args]

/-- Records that are inserted come back. Where an entity has its default model, with different
columns and basic types, an insert of records that hold nothing stored as null compiles with either
strategy; its arguments are as many as the rows have fields, and those of the `i`-th row, bound with
the columns of the model to a fresh record, make the `i`-th record. -/
theorem Insert.rows_read_back (cores : Cores) (session : String) (T : EntityType) (m : Model)
    (rows : List T.Record) (strategy : Strategy) (hT : T.WellFormed)
    (htypes : ∀ f ∈ T.fields, f.type.Basic) (hdefault : Model.ofEntity T = .ok m)
    (hmodel : (cores session).registry.model T = .ok m)
    (hcolumns : (m.fields.map (·.column)).Nodup) (hne : rows ≠ [])
    (hrows : ∀ r ∈ rows, r.Faithful) :
    ∃ q, ((Statement.insert { Insert.into session T with rows }).compile cores).result = .ok q ∧
      q.args.length = rows.length * m.fields.length ∧
      ∀ i r, rows[i]? = some r →
        Binding.setColumns strategy m T.initial (m.fields.map (·.column))
          ((q.args.drop (i * m.fields.length)).take m.fields.length) = (.ok (), r) := by
  obtain ⟨q, hq, hargs⟩ := compile_rows hT hdefault hmodel hne
  have hlength : ∀ vs ∈ rows.map Fields.cells, vs.length = m.fields.length := by
    intro vs hvs
    obtain ⟨r, -, rfl⟩ := List.mem_map.mp hvs
    rw [Fields.length_cells, (Model.describes_ofEntity hdefault).length_eq]
  refine ⟨q, hq, ?_, fun i r hr => ?_⟩
  · rw [hargs, length_flatten_rows hlength, List.length_map]
  · have hcells : (rows.map Fields.cells)[i]? = some r.cells := by
      rw [List.getElem?_map, hr, Option.map_some]
    rw [hargs, take_drop_flatten hlength hcells]
    exact Binding.setColumns_cells hT htypes hdefault hcolumns strategy
      (hrows r (List.mem_of_getElem? hr)) T.initial

/-- A measurement: one column has a name of its own, and two fields may be absent. -/
def measurement : EntityType :=
  { path := "Measurement", name := "Measurement", shape := .record, tableName := none
    fields := [.int64 "id", .ofWritten "takenBy" (some "column = observer")
        (.path [] "Option" [.simple "String"]) (.optional .text),
      .ofWritten "level" none (.simple "f64") (.float .double),
      .ofWritten "raw" none (.path [] "Vec" [.simple "u8"]) .blob,
      .ofWritten "remark" none (.path [] "Option" [.simple "Value"]) (.optional .value),
      .ofWritten "valid" none (.simple "bool") .bool] }

/-- A measurement with all fields given, and one without those that may be absent. -/
def measurements : List measurement.Record :=
  let given : BoundedInt .int64 × Option String × Floating .double × List UInt8 × Option Value ×
      Bool × Unit :=
    (⟨-7, by decide, by decide⟩, some "ann", .ofBits .double 4607182418800017408, [0, 255],
      some (.text "late"), true, ())
  let bare : BoundedInt .int64 × Option String × Floating .double × List UInt8 × Option Value ×
      Bool × Unit :=
    (⟨8, by decide, by decide⟩, none, .zero .double, [], none, false, ())
  [given, bare]

/-- Two measurements that are inserted on a session binding by name come back by place. -/
theorem Insert.rows_read_back_measurements :
    ∃ m q, ((Statement.insert { Insert.into "db" measurement with rows := measurements }).compile
        fun _ => .default).result = .ok q ∧
      q.args = [.integer (-7), .text "ann", .real (.ofBits .double 4607182418800017408),
        .blob [0, 255], .text "late", .integer 1,
        .integer 8, .null, .real (.zero .double), .blob [], .null, .integer 0] ∧
      m.fields.map (·.column) = ["id", "observer", "level", "raw", "remark", "valid"] ∧
      ∀ i r, measurements[i]? = some r →
        Binding.setColumns .byPlace m measurement.initial (m.fields.map (·.column))
          ((q.args.drop (i * m.fields.length)).take m.fields.length) = (.ok (), r) := by
  have hT : measurement.WellFormed := ⟨by decide, by decide⟩
  have htypes : ∀ f ∈ measurement.fields, f.type.Basic := by
    simp only [measurement, List.forall_mem_cons]
    exact ⟨.integer _, .optional .text, .double, .blob, .optional .value, .bool,
      List.forall_mem_nil _⟩
  have hrows : ∀ r ∈ measurements, Fields.Faithful r := by
    refine List.forall_mem_cons.mpr ⟨?_, List.forall_mem_cons.mpr ⟨?_, List.forall_mem_nil _⟩⟩
    · exact ⟨trivial, nofun, trivial, trivial, nofun, trivial, trivial⟩
    · exact ⟨trivial, trivial, trivial, trivial, trivial, trivial, trivial⟩
  obtain ⟨q, hq, -, hback⟩ := rows_read_back (fun _ => .default) "db" measurement _ measurements
    .byPlace hT htypes rfl rfl (by decide) (by decide) hrows
  obtain rfl := Except.ok.inj (hq.symm.trans rfl)
  exact ⟨_, _, hq, by decide, by decide, hback⟩

end RowMapper
