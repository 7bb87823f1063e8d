import RowMapper.Proofs.Binding.RoundTrip
import RowMapper.Proofs.Sql.Assignments
import RowMapper.Proofs.Sql.Leaves

/-!
# Two ways to update from a record

Fields of a record are updated either by giving the record to the statement and listing their
columns, or by assigning their values. The first way reads each field through the model, with the
strategy of the session; the second reads it by the names of the declaration and compiles its value
like any expression. `Update.compile_takingFrom` says that both make the same query, or fail with
the same error, whichever fields a filter on name and value accepts.

One field at a time this is `FieldValue.updateTokens_eq`, as the value that is read through a model
of the declaration is what the field is stored as (`Binding.field_entry`).
-/

namespace RowMapper

variable {cores : Cores}

/-- The fields of a record that a filter on name and value accepts. -/
def Fields.accepted {fs : List FieldDecl} (r : Fields fs) (accepts : String → Value → Bool) :
    List String :=
  (r.entries.filter fun e => accepts e.name e.stored).map (·.name)

/-- A field of a record is read as what it is stored as. -/
theorem Binding.field_entry {T : EntityType} {m : Model} (hT : T.WellFormed) (hm : m.Describes T)
    (hindexed : m.Indexed) (strategy : Strategy) (r : T.Record) {e : FieldValue}
    (he : e ∈ r.entries) : field strategy m r e.name = .ok e.stored := by
  obtain ⟨i, hi⟩ := List.mem_iff_getElem?.mp he
  have hcell : r.cells[i]? = some e.stored := by
    rw [← r.map_stored_entries, List.getElem?_map, hi, Option.map_some]
  have hname : (m.fields.map (·.name))[i]? = some e.name := by
    rw [hm.names, ← r.map_decl_entries, List.getElem?_map, List.getElem?_map, hi]
    rfl
  rw [List.getElem?_map, Option.map_eq_some_iff] at hname
  obtain ⟨f, hf, hname⟩ := hname
  rw [← hname]
  exact field_cell hT hm hindexed strategy r hf hcell

/-- A field listed by its column is the same item as its assignment, if it is read as what it is
stored as. -/
theorem FieldValue.updateTokens_eq {scope : Scope} {T : EntityType} {r r' : T.Record}
    {e : FieldValue}
    (hread : Binding.field (cores scope.session).strategy scope.model r e.name = .ok e.stored) :
    (Assignment.column (.own e.name)).updateTokens cores scope r =
      e.assignment.updateTokens cores scope r' := by
  simp only [Assignment.updateTokens, assignment, Column.own, Column.field, hread, Expr.tokens,
    Compiled.ofExcept_ok, pure_bind]

theorem Assignment.listTokens_congr {compile compile' : Assignment → Compiled (List Token)}
    {α : Type} {a a' : α → Assignment} : ∀ {es : List α},
    (∀ e ∈ es, compile (a e) = compile' (a' e)) →
      listTokens compile (es.map a) = listTokens compile' (es.map a')
  | [], _ => rfl
  | e :: es, h => by
    rw [List.map_cons, List.map_cons, listTokens, listTokens, h e (.head _),
      listTokens_congr fun e he => h e (.tail _ he)]

namespace Update

/-- The update that takes the values of fields from a record. -/
def takingFrom (s : Update) (r : s.entity.Record) (fields : List String) : Update :=
  { s with record := r, assignments := fields.map fun name => .column (.own name) }

/-- The update with other assignments. -/
def withAssignments (s : Update) (assignments : List Assignment) : Update := { s with assignments }

/-- Both ways give the same tokens. -/
theorem tokens_takingFrom {s : Update} (hT : s.entity.WellFormed)
    (hsound : (cores s.session).registry.Sound) (r : s.entity.Record)
    (accepts : String → Value → Bool) :
    (s.takingFrom r (r.accepted accepts)).tokens cores =
      (s.withAssignments (Assignment.ofRecord s.entity r accepts)).tokens cores := by
  have hcolumns : (s.takingFrom r (r.accepted accepts)).assignments =
      (r.entries.filter fun e => accepts e.name e.stored).map fun e => .column (.own e.name) := by
    rw [takingFrom, Fields.accepted, List.map_map]
    rfl
  have hvalues : (s.withAssignments (Assignment.ofRecord s.entity r accepts)).assignments =
      (r.entries.filter fun e => accepts e.name e.stored).map (·.assignment) :=
    Assignment.ofRecord_eq hT r accepts
  unfold tokens
  rw [hcolumns, hvalues, List.isEmpty_map, List.isEmpty_map]
  split
  · rfl
  · refine Compiled.bind_congr fun m hm => ?_
    have hmade := hsound.model hm
    -- a column takes its value from the record, which is the value that is assigned otherwise
    have hitems : Assignment.listTokens (Assignment.updateTokens cores ⟨s.session, m⟩ r)
          ((r.entries.filter fun e => accepts e.name e.stored).map fun e => .column (.own e.name)) =
        Assignment.listTokens (Assignment.updateTokens cores ⟨s.session, m⟩ s.record)
          ((r.entries.filter fun e => accepts e.name e.stored).map (·.assignment)) := by
      refine Assignment.listTokens_congr fun e he => FieldValue.updateTokens_eq ?_
      exact Binding.field_entry hT hmade.describes (hmade.indexed hT.distinct) _ r
        (List.mem_of_mem_filter he)
    simp only [takingFrom, withAssignments] at hitems ⊢
    rw [hitems]

/-- Taking fields from a record and assigning their values are the same, whatever record the other
update holds. Both fail where no field is accepted. -/
theorem compile_takingFrom {s : Update} (hT : s.entity.WellFormed)
    (hsound : (cores s.session).registry.Sound) (r : s.entity.Record)
    (accepts : String → Value → Bool) :
    (Statement.update (s.takingFrom r (r.accepted accepts))).compile cores =
        (Statement.update (s.withAssignments (Assignment.ofRecord s.entity r accepts))).compile
          cores ∧
      (r.accepted accepts = [] →
        ((Statement.update (s.takingFrom r (r.accepted accepts))).compile cores).result =
          .error .nothingToUpdate) := by
  constructor
  · simp only [Statement.compile, Statement.tokens, tokens_takingFrom hT hsound]
  · intro hnone
    rw [hnone]
    rfl

/-- An account of owner 5 with nothing left. -/
def emptyAccount : account.Record :=
  let fields : BoundedInt .int64 × BoundedInt .int64 × BoundedInt .int64 × Unit :=
    (⟨2, by decide, by decide⟩, ⟨5, by decide, by decide⟩, .zero .int64, ())
  fields

/-- All fields but the first are updated from an account, by columns and by values. -/
theorem compile_takingFrom_emptyAccount :
    emptyAccount.accepted (fun name _ => name != "id") = ["owner", "balance"] ∧
      ∃ q, ((Statement.update ((Update.of "db" account).withAssignments
          (Assignment.ofRecord account emptyAccount fun name _ => name != "id"))).compile
            fun _ => .default).result = .ok q ∧
        q = ⟨"UPDATE `account` SET `owner`=?,`balance`=?;", [.integer 5, .integer 0]⟩ := by
  have hT : account.WellFormed := ⟨by decide, by decide⟩
  obtain ⟨hsame, -⟩ := @compile_takingFrom (fun _ => .default) (Update.of "db" account) hT
    Registry.sound_empty emptyAccount fun name _ => name != "id"
  exact ⟨by decide, _, (congrArg Compiled.result hsame).symm.trans rfl, rfl⟩

end Update

end RowMapper
