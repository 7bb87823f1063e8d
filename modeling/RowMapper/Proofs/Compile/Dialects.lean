import RowMapper.Proofs.Compile.Phrase
import RowMapper.Proofs.Compile.Requoting
import RowMapper.Proofs.Sql.Leaves

/-!
# One statement in two dialects

MySQL and SQLite quote names alike, so nothing tells them apart but the words of a conflict clause.
Any other statement is the same query in both. An insert with a conflict clause has the same text up
to the end of its rows; after it, each dialect writes the same settings in its own words, with the
same arguments. If one fails, so does the other, with the same error, provided that the fields of
the conflict are fields of the model: MySQL does not look at them.

The two clauses are compiled by one chain of steps, to settings that know no dialect
(`Upsert.settings`); the words of a dialect are put in afterwards
(`ConflictStyle.result_onConflict`, `ConflictStyle.tokens_onDuplicateKey`).
-/

namespace RowMapper

open Token (sign)

/-! ## Settings -/

/-- What an assignment of a conflict clause sets: a column, and the expression that it takes;
without one, the value of the inserted row. -/
structure Setting where
  column : String
  value? : Option (List Token)

namespace Setting

/-- The entry of a clause. `proposed` are the words for a value of the inserted row. -/
def tokens (quote : Char) (proposed : Token → List Token) (e : Setting) : List Token :=
  .name quote e.column :: sign .eq :: e.value?.getD (proposed (.name quote e.column))

/-- The arguments of an entry. A value of the inserted row needs none. -/
def args (e : Setting) : List Value := (e.value?.getD []).flatMap Token.args

/-- The arguments of an entry do not depend on the words of its dialect, since these bind
nothing. -/
theorem args_tokens {quote : Char} {proposed : Token → List Token}
    (hproposed : ∀ n, (proposed (.name quote n)).flatMap Token.args = []) (e : Setting) :
    (e.tokens quote proposed).flatMap Token.args = e.args := by
  obtain ⟨column, value?⟩ := e
  cases value? with
  | none => exact hproposed column
  | some ts => rfl

end Setting

/-- What an assignment of a conflict clause sets, in whatever words. -/
def Assignment.setting (cores : Cores) (scope : Scope) : Assignment → Compiled Setting
  | column c => do
    let column ← Compiled.ofExcept (scope.model.columnOf c.field)
    return ⟨column, none⟩
  | value field e => do
    let column ← Compiled.ofExcept (scope.model.columnOf field)
    let ts ← e.tokens cores scope
    return ⟨column, some ts⟩
  | fragment f => Compiled.fail (.unsupportedAssignment (fragment f).outline)

/-- What a conflict clause sets. -/
def Upsert.settings (cores : Cores) (scope : Scope) (u : Upsert) : Compiled (List Setting) :=
  if u.assignments.isEmpty then Compiled.fail .nothingToUpdate
  else u.assignments.mapM (·.setting cores scope)

/-- A clause that compiles sets something for each of its assignments, in order. -/
theorem Upsert.settings_eq_ok {cores : Cores} {scope : Scope} {u : Upsert}
    {settings : List Setting} (h : (u.settings cores scope).result = .ok settings) :
    List.Forall₂ (fun a e => (a.setting cores scope).result = .ok e) u.assignments settings := by
  unfold Upsert.settings at h
  split at h
  · simp at h
  · rwa [Compiled.result_mapM, Results.mapM_eq_ok] at h

namespace ConflictStyle

/-- The clause of SQLite for the columns of a conflict and what is set. -/
def onConflictTokens (quote : Char) (columns : List String) (settings : List Setting) :
    List Token :=
  blank :: Token.word .onConflict ::
    ((if columns.isEmpty then []
      else parenthesized (commaSeparated (columns.map fun n => [.name quote n]))) ++
      clause .doUpdateSet (commaSeparated (settings.map (·.tokens quote excludedTokens))))

/-- The clause of MySQL for what is set. -/
def onDuplicateKeyTokens (quote : Char) (settings : List Setting) : List Token :=
  clause .onDuplicateKeyUpdate (commaSeparated (settings.map (·.tokens quote valuesTokens)))

end ConflictStyle

section

variable (cores : Cores) (scope : Scope)

/-- An entry of the clause in a dialect is its setting, put in the words of the dialect. -/
theorem Assignment.upsertTokens_eq (proposed : Token → List Token) (a : Assignment) :
    a.upsertTokens cores scope proposed =
      (·.tokens (cores scope.session).dialect.quote proposed) <$> a.setting cores scope := by
  cases a <;> simp [upsertTokens, setting, Setting.tokens, Scope.column, Scope.name]

theorem Assignment.listTokens_upsertTokens (proposed : Token → List Token) :
    ∀ as : List Assignment, listTokens (upsertTokens cores scope proposed) as =
      List.map (·.tokens (cores scope.session).dialect.quote proposed) <$>
        as.mapM (·.setting cores scope)
  | [] => by simp [listTokens]
  | a :: as => by simp [listTokens, upsertTokens_eq, listTokens_upsertTokens proposed as]

namespace ConflictStyle

/-- MySQL's clause fails as its settings do: it does not look at the fields of the conflict. -/
theorem tokens_onDuplicateKey (u : Upsert) : onDuplicateKey.tokens cores scope u =
    onDuplicateKeyTokens (cores scope.session).dialect.quote <$> u.settings cores scope := by
  rw [tokens, Upsert.settings]
  split
  · rfl
  · rw [Assignment.listTokens_upsertTokens, bind_map_left, bind_pure_comp]
    rfl

/-- Where the fields of the conflict have columns, SQLite's clause fails as its settings do. -/
theorem result_onConflict {u : Upsert} {columns : List String}
    (hcolumns : u.conflict.mapM scope.model.columnOf = .ok columns) :
    (onConflict.tokens cores scope u).result = (u.settings cores scope).result.map
      (onConflictTokens (cores scope.session).dialect.quote columns) := by
  have hempty : u.conflict.isEmpty = columns.isEmpty := by
    have hlength := (Results.mapM_eq_ok.mp hcolumns).length_eq
    rw [Bool.eq_iff_iff, List.isEmpty_iff_length_eq_zero, List.isEmpty_iff_length_eq_zero, hlength]
  rw [tokens, Upsert.settings]
  split
  · rfl
  · rw [Scope.columns_eq_mapM, hcolumns, Compiled.ofExcept_ok, map_pure, pure_bind,
      Assignment.listTokens_upsertTokens, ← Compiled.result_map]
    simp only [hempty, bind_pure_comp, Functor.map_map, List.map_map]
    rfl

end ConflictStyle

end

/-! ## Arguments of clauses -/

theorem Setting.args_commaSeparated {quote : Char} {proposed : Token → List Token}
    (hproposed : ∀ n, (proposed (.name quote n)).flatMap Token.args = [])
    (settings : List Setting) :
    (commaSeparated (settings.map (·.tokens quote proposed))).flatMap Token.args =
      settings.flatMap args := by
  rw [Token.args_commaSeparated, List.flatMap_map]
  exact congrArg (settings.flatMap ·) (funext (args_tokens hproposed))

/-- SQLite's clause has the arguments of what is set. Its columns of the conflict bind nothing. -/
theorem ConflictStyle.args_onConflictTokens (quote : Char) (columns : List String)
    (settings : List Setting) :
    (onConflictTokens quote columns settings).flatMap Token.args =
      settings.flatMap Setting.args := by
  have htarget : (if columns.isEmpty then []
      else parenthesized (commaSeparated (columns.map fun n => [.name quote n]))).flatMap
        Token.args = [] := by
    split
    · rfl
    · simp [Token.args_parenthesized, Token.args_commaSeparated, Token.args]
  have hsettings : (commaSeparated (settings.map (·.tokens quote excludedTokens))).flatMap
      Token.args = settings.flatMap Setting.args :=
    Setting.args_commaSeparated (fun _ => rfl) settings
  simp only [onConflictTokens, clause, List.flatMap_cons, List.flatMap_append, htarget, hsettings]
  rfl

/-- MySQL's clause has the same arguments. -/
theorem ConflictStyle.args_onDuplicateKeyTokens (quote : Char) (settings : List Setting) :
    (onDuplicateKeyTokens quote settings).flatMap Token.args = settings.flatMap Setting.args :=
  Setting.args_commaSeparated (fun _ => rfl) settings

/-! ## Inserts -/

namespace Insert

/-- An insert up to the end of its rows. -/
def rowsTokens (cores : Cores) (m : Model) (s : Insert) : Compiled (List Token) := do
  let scope : Scope := ⟨s.session, m⟩
  let names ← scope.columns cores (s.listedFields m)
  let rows ← Compiled.ofExcept (cells (cores s.session).strategy m (s.listedFields m) s.rows)
  return Token.word .insertInto :: blank :: scope.name cores m.tableName ::
    (parenthesized (commaSeparated (names.map ([·]))) ++ blank :: Token.word .values ::
      commaSeparated (rows.map rowTokens))

/-- An insert is its text up to the end of its rows, and the clause for conflicts. -/
theorem tokens_eq_rowsTokens (cores : Cores) (s : Insert) (hrows : s.rows.isEmpty = false) :
    s.tokens cores = (do
      let m ← Compiled.model cores s.session s.entity
      let head ← s.rowsTokens cores m
      let conflict ← s.conflictTokens cores ⟨s.session, m⟩
      return head ++ conflict) := by
  rw [tokens_eq _ _ hrows]
  simp [rowsTokens]

/-- The insert without its clause for conflicts. -/
def plain (s : Insert) : Insert := { s with upsert? := none }

/-- Without a clause for conflicts, an insert is its text up to the end of its rows. -/
theorem plain_tokens (cores : Cores) (s : Insert) (hrows : s.rows.isEmpty = false) :
    s.plain.tokens cores = (do
      let m ← Compiled.model cores s.session s.entity
      s.rowsTokens cores m) := by
  rw [tokens_eq_rowsTokens cores s.plain hrows]
  refine Compiled.bind_congr fun m _ => ?_
  show (s.rowsTokens cores m >>= fun head => pure [] >>= fun ts => pure (head ++ ts)) = _
  simp

section

variable {cores : Cores} {s : Insert} {u : Upsert} {m : Model}

/-- The rows are compiled before the clause, so it is their error that an insert fails with if both
fail. -/
theorem result_compile (hrows : s.rows.isEmpty = false)
    (hm : (cores s.session).registry.model s.entity = .ok m) :
    ((Statement.insert s).compile cores).result = (s.rowsTokens cores m).result >>= fun head =>
      (s.conflictTokens cores ⟨s.session, m⟩).result.map fun conflict =>
        .ofTokens (head ++ conflict ++ [sign .semicolon]) := by
  rw [Statement.compile, Statement.tokens, tokens_eq_rowsTokens cores s hrows]
  simp only [Compiled.result_bind, Compiled.result_model, Compiled.result_pure, bind_assoc, hm]
  rfl

/-- Without a model, an insert fails before it comes to its rows. -/
theorem result_compile_error {e : Error} (hrows : s.rows.isEmpty = false)
    (hm : (cores s.session).registry.model s.entity = .error e) :
    ((Statement.insert s).compile cores).result = .error e := by
  rw [Statement.compile, Statement.tokens, tokens_eq_rowsTokens cores s hrows]
  simp only [Compiled.result_bind, Compiled.result_model, hm]
  rfl

/-- The clause of SQLite fails as its settings do, if the fields of the conflict have columns. -/
theorem result_conflictTokens_sqlite (hu : s.upsert? = some u)
    (hsqlite : (cores s.session).dialect = .sqlite) {columns : List String}
    (hcolumns : u.conflict.mapM m.columnOf = .ok columns) :
    (s.conflictTokens cores ⟨s.session, m⟩).result =
      (u.settings cores ⟨s.session, m⟩).result.map
        (ConflictStyle.onConflictTokens '\x60' columns) := by
  have hclause : s.conflictTokens cores ⟨s.session, m⟩ =
      ConflictStyle.onConflict.tokens cores ⟨s.session, m⟩ u := by
    rw [conflictTokens, hu, hsqlite]
    rfl
  rw [hclause, ConflictStyle.result_onConflict cores ⟨s.session, m⟩ hcolumns, hsqlite]
  rfl

/-- The clause of MySQL fails as its settings do. -/
theorem result_conflictTokens_mysql (hu : s.upsert? = some u)
    (hmysql : (cores s.session).dialect = .mysql) :
    (s.conflictTokens cores ⟨s.session, m⟩).result =
      (u.settings cores ⟨s.session, m⟩).result.map
        (ConflictStyle.onDuplicateKeyTokens '\x60') := by
  have hclause : s.conflictTokens cores ⟨s.session, m⟩ =
      ConflictStyle.onDuplicateKey.tokens cores ⟨s.session, m⟩ u := by
    rw [conflictTokens, hu, hmysql]
    rfl
  rw [hclause, ConflictStyle.tokens_onDuplicateKey, Compiled.result_map, hmysql]
  rfl

end

/-- What an insert with a clause for conflicts is made of, by its model: its text up to the end of
its rows, the columns of the conflict, and one setting for each assignment. -/
structure Parts (cores : Cores) (s : Insert) (u : Upsert) (m : Model) (head : List Token)
    (columns : List String) (settings : List Setting) : Prop where
  model : (cores s.session).registry.model s.entity = .ok m
  head : (s.plain.tokens cores).result = .ok head
  columns : List.Forall₂ (fun field column => m.columnOf field = .ok column) u.conflict columns
  settings : List.Forall₂ (fun a e => (a.setting cores ⟨s.session, m⟩).result = .ok e)
    u.assignments settings

end Insert

/-! ## Cores of two dialects -/

/-- The cores are the same, except that MySQL may stand in the second where SQLite stands in the
first. -/
def Cores.Translates (cores cores' : Cores) : Prop :=
  ∀ session, cores' session = cores session ∨
    (cores session).dialect = .sqlite ∧
      cores' session = { cores session with dialect := .mysql }

/-- The clause for conflicts of a statement. -/
def Statement.upsert? : Statement → Option Upsert
  | insert s => s.upsert?
  | _ => none

namespace Cores.Translates

variable {cores cores' : Cores} (h : cores.Translates cores')
include h

/-- The two dialects quote alike, so the second cores are the first ones with the same quotes. -/
theorem requoted : cores.Requoted id cores' where
  quote session := by
    rcases h session with heq | ⟨hsqlite, heq⟩
    · rw [heq, id]
    · rw [heq, hsqlite]
      rfl
  model session T := by
    rcases h session with heq | ⟨-, heq⟩ <;> rw [heq]

theorem strategy (session : String) : (cores' session).strategy = (cores session).strategy := by
  rcases h session with heq | ⟨-, heq⟩ <;> rw [heq]

/-- What an assignment sets knows no dialect: its expression is compiled as anywhere else. -/
theorem setting (scope : Scope) (a : Assignment) :
    a.setting cores' scope = a.setting cores scope := by
  have hexpr (e : Expr) : e.tokens cores' scope = e.tokens cores scope := by
    rw [h.requoted.exprTokens, Token.requotedAll_id, id_map]
  cases a <;> simp only [Assignment.setting, hexpr]

theorem settings (scope : Scope) (u : Upsert) :
    u.settings cores' scope = u.settings cores scope := by
  simp only [Upsert.settings, h.setting]

/-- The text up to the end of the rows knows no dialect. -/
theorem rowsTokens (m : Model) (s : Insert) : s.rowsTokens cores' m = s.rowsTokens cores m := by
  have hcolumns (fields : List String) : (⟨s.session, m⟩ : Scope).columns cores' fields =
      (⟨s.session, m⟩ : Scope).columns cores fields := by
    rw [h.requoted.columns, Token.requotedAll_id, id_map]
  simp only [Insert.rowsTokens, hcolumns, h.strategy, h.requoted.name, Token.requoted_id, id]

/-- Apart from the words of a conflict clause, a statement compiles alike in both dialects. A
statement without such a clause is the same query, or fails with the same error. An insert whose
conflict is about fields of the model either fails in both with the same error, or succeeds in both,
with the same arguments, the same text up to the end of its rows, and clauses for the same
settings. -/
theorem compile_alike : (∀ s : Statement, s.upsert? = none → s.compile cores' = s.compile cores) ∧
    ∀ (s : Insert) (u : Upsert), s.upsert? = some u → (cores s.session).dialect = .sqlite →
      (cores' s.session).dialect = .mysql →
      (∀ m, (cores s.session).registry.model s.entity = .ok m → ∀ field ∈ u.conflict,
        ∃ column, m.columnOf field = .ok column) →
      (∃ e, ((Statement.insert s).compile cores).result = .error e ∧
        ((Statement.insert s).compile cores').result = .error e) ∨
      ∃ m head columns settings q q', s.Parts cores u m head columns settings ∧
        ((Statement.insert s).compile cores).result = .ok q ∧
        ((Statement.insert s).compile cores').result = .ok q' ∧
        q = .ofTokens (head ++ ConflictStyle.onConflictTokens '\x60' columns settings ++
          [sign .semicolon]) ∧
        q' = .ofTokens (head ++ ConflictStyle.onDuplicateKeyTokens '\x60' settings ++
          [sign .semicolon]) ∧
        q.args = head.flatMap Token.args ++ settings.flatMap Setting.args ∧ q'.args = q.args := by
  refine ⟨fun s hs => ?_, fun s u hu hsqlite hmysql hfields => ?_⟩
  -- without the clause, the cores differ in nothing that a statement looks at
  · have hread : s.ReadsAlike cores cores' := fun _ _ _ _ => by rw [h.strategy]
    have hstyle : s.ConflictsAlike cores cores' := by
      cases s with
      | insert s => exact fun hsome => by simp [show s.upsert? = none from hs] at hsome
      | _ => trivial
    rw [Statement.compile, Statement.compile, s.tokens_requoted h.requoted hread hstyle,
      Token.requotedAll_id, id_map]
  cases hrows : s.rows.isEmpty with
  | true =>
    refine .inl ⟨.noRowsToInsert, ?_, ?_⟩ <;>
      rw [Statement.compile, Statement.tokens, Insert.tokens, if_pos hrows] <;> rfl
  | false =>
    cases hm : (cores s.session).registry.model s.entity with
    | error e =>
      have hm' := (h.requoted.model s.session s.entity).trans hm
      exact .inl ⟨e, s.result_compile_error hrows hm, s.result_compile_error hrows hm'⟩
    | ok m =>
      have hm' := (h.requoted.model s.session s.entity).trans hm
      -- the one use of the condition on the fields of the conflict
      obtain ⟨columns, hcolumns⟩ := Results.exists_mapM_eq_ok (hfields m hm)
      rw [Insert.result_compile hrows hm, Insert.result_compile hrows hm', h.rowsTokens,
        Insert.result_conflictTokens_sqlite hu hsqlite hcolumns,
        Insert.result_conflictTokens_mysql hu hmysql, h.settings]
      -- from here on, both are the same two steps: the rows, then the settings
      cases hhead : (s.rowsTokens cores m).result with
      | error e => exact .inl ⟨e, rfl, rfl⟩
      | ok head =>
        cases hsettings : (u.settings cores ⟨s.session, m⟩).result with
        | error e => exact .inl ⟨e, rfl, rfl⟩
        | ok settings =>
          refine .inr ⟨m, head, columns, settings, _, _, ⟨hm, ?_, Results.mapM_eq_ok.mp hcolumns,
            Upsert.settings_eq_ok hsettings⟩, rfl, rfl, rfl, rfl, ?_, ?_⟩
          · rw [s.plain_tokens cores hrows, Compiled.result_bind, Compiled.result_model, hm]
            exact hhead
          · simp [Query.ofTokens, ConflictStyle.args_onConflictTokens, Token.args]
          · simp [Query.ofTokens, ConflictStyle.args_onConflictTokens,
              ConflictStyle.args_onDuplicateKeyTokens, Token.args]

end Cores.Translates

/-- A deposit of ten into an account that may be there already. -/
def deposit : Insert :=
  { session := "db", entity := account, rows := [EntityType.initial _]
    fields := ["id", "owner", "balance"]
    upsert? := some ⟨["id"], [.column (.own "owner"),
      .value "balance" (.math .add (.column (.own "balance")) (.value (.integer 10)))]⟩ }

/-- The deposit in both dialects. -/
theorem Cores.Translates.compile_alike_deposit :
    ∃ q q', ((Statement.insert deposit).compile fun _ => .default).result = .ok q ∧
      ((Statement.insert deposit).compile
        fun _ => { Core.default with dialect := .mysql }).result = .ok q' ∧
      q.sql = "INSERT INTO `account`(`id`,`owner`,`balance`) VALUES(?,?,?) " ++
        "ON CONFLICT(`id`) DO UPDATE SET `owner`=excluded.`owner`,`balance`=`balance` + ?;" ∧
      q'.sql = "INSERT INTO `account`(`id`,`owner`,`balance`) VALUES(?,?,?) " ++
        "ON DUPLICATE KEY UPDATE `owner`=VALUES(`owner`),`balance`=`balance` + ?;" ∧
      q'.args = q.args := by
  have htranslates : Cores.Translates (fun _ => .default)
      fun _ => { Core.default with dialect := .mysql } := fun _ => .inr ⟨rfl, rfl⟩
  have hfields : ∀ m, Core.default.registry.model account = .ok m → ∀ field ∈ ["id"],
      ∃ column, m.columnOf field = .ok column := by
    intro m hm field hfield
    obtain rfl := Except.ok.inj hm
    obtain rfl := List.mem_singleton.mp hfield
    exact ⟨_, rfl⟩
  rcases htranslates.compile_alike.2 deposit _ rfl rfl rfl hfields with
    ⟨e, he, -⟩ | ⟨m, head, columns, settings, q, q', -, hq, hq', -, -, -, hargs⟩
  · cases he
  · obtain rfl := Except.ok.inj hq
    obtain rfl := Except.ok.inj hq'
    exact ⟨_, _, rfl, rfl, rfl, rfl, hargs⟩

end RowMapper
