import Mathlib.Tactic.Tauto
import RowMapper.Proofs.Compile.Checks
import RowMapper.Proofs.Compile.Sources

/-!
# Shared columns of joins

A join may name fields by whose columns its sides are joined. These fields are the statement's own:
their columns are those of the model of its entity, whatever the models of the joined tables are
(`Select.shared_columns`).
-/

namespace RowMapper

open Token (sign)

namespace Source

/-- The fields that each join names for its sides to share, the joins in the order in which they are
closed. -/
def sharedFields : Source → List (List String)
  | .table _ => []
  | .joinOn _ left right _ => left.sharedFields ++ right.sharedFields ++ [[]]
  | .joinUsing _ left right fields => left.sharedFields ++ right.sharedFields ++ [fields]
  | .subquery _ => []

/-- The source whose joins name no fields. -/
def unshared : Source → Source
  | .table t => .table t
  | .joinOn kind left right on => .joinOn kind left.unshared right.unshared on
  | .joinUsing kind left right _ => .joinUsing kind left.unshared right.unshared []
  | .subquery s => .subquery s

variable {cores : Cores} {scope : Scope}

/-- The shared columns of a tree are the columns of the fields in the statement's own model. -/
theorem sharedColumns_tree : ∀ (s : Source) (tree : JoinTree), s.tree cores scope = .ok tree →
    List.Forall₂ (List.Forall₂ fun field column => scope.model.columnOf field = .ok column)
      s.sharedFields tree.sharedColumns
  | .table t => by
    intro tree h
    obtain ⟨m, -, rfl⟩ := Results.map_eq_ok.mp h
    exact .nil
  | .joinOn kind left right on => by
    intro tree h
    obtain ⟨l, hl, h⟩ := Results.bind_eq_ok.mp h
    obtain ⟨r, hr, h⟩ := Results.bind_eq_ok.mp h
    obtain ⟨condition?, -, h⟩ := Results.bind_eq_ok.mp h
    obtain rfl := Except.ok.inj h
    exact List.rel_append (List.rel_append (left.sharedColumns_tree l hl)
      (right.sharedColumns_tree r hr)) (.cons .nil .nil)
  | .joinUsing kind left right fields => by
    intro tree h
    obtain ⟨l, hl, h⟩ := Results.bind_eq_ok.mp h
    obtain ⟨r, hr, h⟩ := Results.bind_eq_ok.mp h
    obtain ⟨columns, hcolumns, h⟩ := Results.bind_eq_ok.mp h
    obtain rfl := Except.ok.inj h
    exact List.rel_append (List.rel_append (left.sharedColumns_tree l hl)
      (right.sharedColumns_tree r hr)) (.cons (Results.mapM_eq_ok.mp hcolumns) .nil)
  | .subquery s => by
    intro tree h
    obtain ⟨s, alias?⟩ := s
    obtain ⟨ts, -, rfl⟩ := Results.map_eq_ok.mp h
    exact .nil

/-- The checks of a source are those of the source without shared fields, and one for each shared
field. -/
theorem mem_checks (session : String) (T : EntityType) (c : Check) : ∀ s : Source,
    c ∈ s.checks session T ↔ c ∈ s.unshared.checks session T ∨
      c ∈ s.sharedFields.flatten.map (.field session T)
  | .table t => by simp [unshared, sharedFields]
  | .joinOn kind left right on => by
    have hl := left.mem_checks session T c
    have hr := right.mem_checks session T c
    simp only [checks, unshared, sharedFields, List.flatten_append, List.flatten_singleton,
      List.map_append, List.append_nil, List.mem_append, hl, hr]
    tauto
  | .joinUsing kind left right fields => by
    have hl := left.mem_checks session T c
    have hr := right.mem_checks session T c
    simp only [checks, unshared, sharedFields, List.flatten_append, List.flatten_singleton,
      List.map_append, List.map_nil, List.append_nil, List.mem_append, hl, hr]
    tauto
  | .subquery s => by simp [unshared, sharedFields]

end Source

namespace Select

variable {cores : Cores}

/-- What a select from a source compiles to: the source stands after its word. -/
theorem tokens_withSource_eq_ok {s : Select} {src : Source} {ts : List Token}
    (h : ((s.withSource src).tokens cores).result = .ok ts) :
    ∃ m items rows rest, (cores s.session).registry.model s.entity = .ok m ∧
      (src.tokens cores ⟨s.session, m⟩).result = .ok rows ∧
      ts = Token.word .select :: blank :: (items ++ (clause .from rows ++ rest)) := by
  obtain ⟨session, T, projection, source, filters, groupBy, having, orderBy, limit, offset⟩ := s
  rw [withSource, Select.tokens] at h
  simp only [Compiled.result_bind, Results.bind_eq_ok, Compiled.result_model, sourceTokens,
    Compiled.result_pure, Except.ok.injEq] at h
  obtain ⟨m, hm, items, -, rows, hrows, filter, -, groups, -, groupFilter, -, orders, -, h⟩ := h
  exact ⟨m, items, rows, _, hm, hrows, by simpa only [List.append_assoc] using h.symm⟩

/-- The checks of a select from a source are those of the select from the source without shared
fields, and one for each shared field. -/
theorem mem_checks_withSource (s : Select) (src : Source) (c : Check) :
    c ∈ (s.withSource src).checks ↔ c ∈ (s.withSource src.unshared).checks ∨
      c ∈ src.sharedFields.flatten.map (.field s.session s.entity) := by
  obtain ⟨session, T, projection, source, filters, groupBy, having, orderBy, limit, offset⟩ := s
  simp only [withSource, checks, sourceChecks, Select.session, Select.entity, List.mem_cons,
    List.mem_append, src.mem_checks session T c]
  tauto

/-- If a select from a source compiles, the text of the tree of the source stands after its word. -/
theorem sql_withSource {s : Select} {src : Source} {q : Query}
    (hq : ((Statement.select (s.withSource src)).compile cores).result = .ok q) :
    ∃ m tree before after, (cores s.session).registry.model s.entity = .ok m ∧
      src.tree cores ⟨s.session, m⟩ = .ok tree ∧
      q.sql.toList = before ++ (Word.from.spaced ++
        (tree.chars (cores s.session).dialect.quote ++ after)) := by
  rw [Statement.compile, Compiled.result_bind] at hq
  obtain ⟨ts, hts, hq⟩ := Results.bind_eq_ok.mp hq
  rw [Statement.tokens, Compiled.result_bind] at hts
  obtain ⟨body, hbody, hts⟩ := Results.bind_eq_ok.mp hts
  obtain rfl := Except.ok.inj hts
  obtain rfl := Except.ok.inj hq
  obtain ⟨m, items, rows, rest, hm, hrows, rfl⟩ := tokens_withSource_eq_ok hbody
  have htree := src.chars_tokens cores ⟨s.session, m⟩
  rw [hrows] at htree
  obtain ⟨tree, htree, hchars⟩ := Results.map_eq_ok.mp htree.symm
  refine ⟨m, tree, Token.chars (Token.word .select :: blank :: items),
    Token.chars (rest ++ [sign .semicolon]), hm, htree, ?_⟩
  rw [Query.ofTokens_sql, hchars]
  simp only [Token.chars_append, Token.chars_cons, Token.chars_clause, List.append_assoc]

theorem compile_tests (s : Select) :
    ((Statement.select s).compile cores).Tests cores s.checks :=
  Statement.compile_tests (.select s) nofun

/-- A select from a source compiles exactly if it does without the shared fields and each of them is
a field of the statement's own model. -/
theorem builds_withSource_iff (s : Select) (src : Source) :
    (∃ q, ((Statement.select (s.withSource src)).compile cores).result = .ok q) ↔
      (∃ q, ((Statement.select (s.withSource src.unshared)).compile cores).result = .ok q) ∧
        ∀ field ∈ src.sharedFields.flatten, (Check.field s.session s.entity field).Holds cores := by
  rw [(compile_tests _).exists_ok_iff, (compile_tests _).exists_ok_iff]
  constructor
  · intro h
    refine ⟨fun c hc => h c ((s.mem_checks_withSource src c).mpr (.inl hc)), ?_⟩
    intro field hfield
    exact h _ ((s.mem_checks_withSource src _).mpr (.inr (List.mem_map_of_mem hfield)))
  · rintro ⟨hrest, hshared⟩ c hc
    rcases (s.mem_checks_withSource src c).mp hc with hc | hc
    · exact hrest c hc
    · obtain ⟨field, hfield, rfl⟩ := List.mem_map.mp hc
      exact hshared field hfield

/-- A select that compiles without its shared fields fails for one of them only. -/
theorem error_withSource {s : Select} {src : Source} {q : Query} {e : Error}
    (hq : ((Statement.select (s.withSource src.unshared)).compile cores).result = .ok q)
    (he : ((Statement.select (s.withSource src)).compile cores).result = .error e) :
    ∃ field ∈ src.sharedFields.flatten,
      ¬(Check.field s.session s.entity field).Holds cores ∧ e = .unknownField field := by
  obtain ⟨m, -, -, -, hm, -⟩ := sql_withSource hq
  have hrest := (compile_tests (s.withSource src.unshared)).exists_ok_iff.mp ⟨q, hq⟩
  obtain ⟨c, hc, hfault⟩ := (compile_tests (s.withSource src)).exists_of_error he
  have hfails : ¬c.Holds cores := by
    rw [Check.holds_iff, hfault]
    nofun
  rcases (s.mem_checks_withSource src c).mp hc with hc | hc
  · exact absurd (hrest c hc) hfails
  · obtain ⟨field, hfield, rfl⟩ := List.mem_map.mp hc
    exact ⟨field, hfield, hfails, Check.eq_of_fault?_field hm hfault⟩

/-- The columns that joins share are the statement's own. If a select from a source compiles, the
text after its `FROM` is that of the tree of the source, and the shared columns of every join in it
are the columns of the given fields in the model of the statement's own entity, whatever the models
of its sides are. A shared field makes the statement fail exactly if that model does not have it:
the statement compiles if and only if it does without its shared fields and each of them is a field
of the model; and if it only fails with them, the error is that one of them is unknown. -/
theorem shared_columns (cores : Cores) (s : Select) (src : Source) :
    (∀ q, ((Statement.select (s.withSource src)).compile cores).result = .ok q →
      ∃ m tree before after, (cores s.session).registry.model s.entity = .ok m ∧
        src.tree cores ⟨s.session, m⟩ = .ok tree ∧
        q.sql.toList = before ++ (Word.from.spaced ++
          (tree.chars (cores s.session).dialect.quote ++ after)) ∧
        List.Forall₂ (List.Forall₂ fun field column => m.columnOf field = .ok column)
          src.sharedFields tree.sharedColumns) ∧
    ((∃ q, ((Statement.select (s.withSource src)).compile cores).result = .ok q) ↔
      (∃ q, ((Statement.select (s.withSource src.unshared)).compile cores).result = .ok q) ∧
        ∀ field ∈ src.sharedFields.flatten, (Check.field s.session s.entity field).Holds cores) ∧
    ∀ q, ((Statement.select (s.withSource src.unshared)).compile cores).result = .ok q →
      ∀ e, ((Statement.select (s.withSource src)).compile cores).result = .error e →
        ∃ field ∈ src.sharedFields.flatten,
          ¬(Check.field s.session s.entity field).Holds cores ∧ e = .unknownField field := by
  refine ⟨fun q hq => ?_, s.builds_withSource_iff src, fun q hq e he => error_withSource hq he⟩
  obtain ⟨m, tree, before, after, hm, htree, hsql⟩ := sql_withSource hq
  exact ⟨m, tree, before, after, hm, htree, hsql, src.sharedColumns_tree tree htree⟩

/-- The members of clubs. -/
def membership : EntityType := .integers "Membership" ["owner", "club"]

/-- The holders of accounts, who are stored in a column of another name. -/
def holder : EntityType := .integers "Holder" ["owner"]

/-- A core at which holders are registered with the name of their column. -/
def holderCore : Core :=
  { Core.default with
    registry := (Registry.empty.register holder [.columnName "owner" "holder"]).2 }

/-- The accounts and the clubs of their owners. -/
def ownerships : Source :=
  .joinUsing .inner (.table ⟨account, none⟩) (.table ⟨membership, none⟩) ["owner"]

/-- Both accounts and memberships store their owners in `owner`. In a select of holders they are
joined by `holder`, which is a column of neither, and a select of transfers from them fails, as
transfers have no owner. -/
theorem shared_columns_foreign :
    (∃ m, holderCore.registry.model account = .ok m ∧ m.columnOf "owner" = .ok "owner") ∧
    (∃ m, holderCore.registry.model membership = .ok m ∧ m.columnOf "owner" = .ok "owner") ∧
    ((Statement.select ((Select.all "db" holder).withSource ownerships)).compile
        fun _ => holderCore).result = .ok
      ⟨"SELECT * FROM (`account` JOIN `membership` USING (`holder`));", []⟩ ∧
    ((Statement.select ((Select.all "db" transfer).withSource ownerships)).compile
      fun _ => holderCore).result = .error (.unknownField "owner") :=
  ⟨⟨_, rfl, rfl⟩, ⟨_, rfl, rfl⟩, by decide, rfl⟩

end Select

end RowMapper
