import Mathlib.Tactic.Tauto
import RowMapper.Proofs.Compile.Checks
import RowMapper.Proofs.Model.Declared

/-!
# Columns of subqueries

A column of a subquery is named twice: by the subquery's own text, and by the statement that refers
to it. With a projection the two names agree (`Subquery.column_outputs`), whichever tables and
subqueries the items come from. The outer statement asks its own registry for the models, the inner
one that of its session, so the two have to be the same registry.

Without a projection a subquery gives all columns of its source, while a reference is resolved in
the model of its entity. `Subquery.star_column_outputs` says when these agree: exactly if the source
gives every column of the entity's model, and so if its rows come from the table of the entity
(`Select.StarsOf`).
-/

namespace RowMapper

/-- The name of the last column that a text names: its last token, if that is a name. -/
def Token.outputName? (ts : List Token) : Option String :=
  match ts.getLast? with
  | some (.name _ s) => some s
  | _ => none

/-- A column under the alias of a table or subquery. -/
def Scope.qualified (cores : Cores) (scope : Scope) (alias? : Option String) (column : String) :
    List Token :=
  match alias? with
  | none => [scope.name cores column]
  | some a => [scope.name cores a, Token.sign .dot, scope.name cores column]

variable {cores : Cores}

/-- A text that ends in a name outputs it. -/
@[simp]
theorem Token.outputName?_append (ts : List Token) (quote : Char) (s : String) :
    outputName? (ts ++ [.name quote s]) = some s := by
  simp [outputName?]

/-- A column outputs its own name, not that of its table. -/
theorem Scope.outputName?_qualified (scope : Scope) (alias? : Option String) (column : String) :
    Token.outputName? (scope.qualified cores alias? column) = some column := by
  cases alias? <;> rfl

/-- What has an alias outputs the alias. -/
theorem Scope.outputName?_aliased (scope : Scope) (ts : List Token) (a : String) :
    Token.outputName? (ts ++ scope.aliasTokens cores (some a)) = some a := by
  show Token.outputName? (ts ++ ([blank, .word .as, blank] ++ [scope.name cores a])) = some a
  rw [← List.append_assoc]
  exact Token.outputName?_append _ _ _

/-- A column is written under the alias it resolves to. -/
theorem Column.result_tokens (scope : Scope) (c : Column) : (c.tokens cores scope).result =
    (c.qualifier.resolve cores scope.session scope.model c.field).result.map
      fun resolved => scope.qualified cores resolved.1 resolved.2 := by
  rw [tokens, Compiled.result_bind]
  cases (c.qualifier.resolve cores scope.session scope.model c.field).result <;> rfl

/-! ## Names resolved through one registry -/

/-- Two sessions use the same registry. -/
def Cores.Share (cores : Cores) (session session' : String) : Prop :=
  (cores session).registry = (cores session').registry

theorem Cores.Share.model {session session' : String} (h : cores.Share session session')
    (T : EntityType) : (cores session).registry.model T = (cores session').registry.model T :=
  congrArg (Registry.model · T) h

mutual

/-- What a column resolves to depends on the session by its registry only. -/
theorem Qualifier.result_resolve_congr {session session' : String}
    (h : cores.Share session session') (own : Model) (field : String) : ∀ q : Qualifier,
    (q.resolve cores session own field).result = (q.resolve cores session' own field).result
  | .own => rfl
  | .table t => by
    simp only [Qualifier.resolve, Compiled.result_bind, Compiled.result_model, h.model]
  | .subquery s => s.result_resolve_congr h field

/-- So does what a column of a subquery resolves to, at any depth. -/
theorem Subquery.result_resolve_congr {session session' : String}
    (h : cores.Share session session') (field : String) : ∀ s : Subquery,
    (s.resolve cores session field).result = (s.resolve cores session' field).result
  | .mk (.mk _ _ [] _ _ _ _ _ _ _) _ => by
    simp only [Subquery.resolve, Compiled.result_bind, Compiled.result_model, h.model]
  | .mk (.mk _ _ (item :: items) _ _ _ _ _ _ _) _ => by
    simp only [Subquery.resolve, Compiled.result_bind, Compiled.result_model, h.model,
      result_exposedName_congr h _ field (item :: items)]

/-- And so does the name under which a projection exposes a field. -/
theorem result_exposedName_congr {session session' : String} (h : cores.Share session session')
    (inner : Model) (field : String) : ∀ items : List Selectable,
    (exposedName cores session inner field items).result =
      (exposedName cores session' inner field items).result
  | [] => rfl
  | .column (.mk q name alias?) :: items => by
    simp only [exposedName]
    split_ifs
    · rfl
    · simp only [Compiled.result_bind, q.result_resolve_congr h inner field]
    · exact result_exposedName_congr h inner field items
  | .aggregate a :: items => by
    simp only [exposedName]
    split_ifs
    · rfl
    · exact result_exposedName_congr h inner field items
  | .fragment _ :: items => result_exposedName_congr h inner field items

end

/-! ## Items of a projection -/

/-- Items that do not expose a field are passed over. -/
theorem exposedName_append {session : String} {inner : Model} {field : String} :
    ∀ {before : List Selectable}, (∀ i ∈ before, i.exposes field = false) →
      ∀ items, exposedName cores session inner field (before ++ items) =
        exposedName cores session inner field items
  | [], _, _ => rfl
  | i :: before, h, items => by
    have hi := h i (.head _)
    rw [List.cons_append, ← exposedName_append (fun j hj => h j (.tail _ hj)) items]
    cases i with
    | column c =>
      obtain ⟨q, name, alias?⟩ := c
      simp only [Selectable.exposes, Bool.or_eq_false_iff, decide_eq_false_iff_not,
        Bool.and_eq_false_iff] at hi
      have hname : ¬(alias? = none ∧ name = field) := by tauto
      rw [exposedName, if_neg hi.1, if_neg hname]
    | aggregate a =>
      have halias : ¬a.alias? = some field := by simpa [Selectable.exposes] using hi
      rw [exposedName, if_neg halias]
    | fragment f => rfl

/-- A projection that does not expose a field has no name for it. -/
theorem exposedName_eq_error {session : String} {inner : Model} {field : String}
    {items : List Selectable} (h : ∀ i ∈ items, i.exposes field = false) :
    (exposedName cores session inner field items).result = .error (.unknownField field) := by
  rw [← List.append_nil items, exposedName_append h]
  rfl

/-- Where a projection gives a name for a field there is a first item that exposes the field. -/
theorem exists_first_of_exposedName {session : String} {inner : Model} {field column : String}
    {items : List Selectable}
    (h : (exposedName cores session inner field items).result = .ok column) :
    ∃ before i after, items = before ++ i :: after ∧ (∀ j ∈ before, j.exposes field = false) ∧
      i.exposes field = true := by
  cases hfind : items.find? (·.exposes field) with
  | none =>
    rw [exposedName_eq_error (by simpa using hfind)] at h
    simp at h
  | some i =>
    obtain ⟨hexposes, before, after, hsplit, hbefore⟩ := List.find?_eq_some_iff_append.mp hfind
    exact ⟨before, i, after, hsplit, by simpa using hbefore, hexposes⟩

/-- An item that exposes a field is written with the name that it exposes it under. -/
theorem Selectable.outputName?_tokens {session : String} {inner : Model} {field : String}
    {i : Selectable} (hexposes : i.exposes field = true) {ts : List Token}
    (hts : (i.tokens cores ⟨session, inner⟩).result = .ok ts) (after : List Selectable) :
    ∃ column, Token.outputName? ts = some column ∧
      (exposedName cores session inner field (i :: after)).result = .ok column := by
  cases i with
  | column c =>
    obtain ⟨q, name, alias?⟩ := c
    rw [tokens, Compiled.result_bind, Column.result_tokens] at hts
    obtain ⟨us, hus, hts⟩ := Results.bind_eq_ok.mp hts
    obtain rfl := Except.ok.inj hts
    cases alias? with
    | some a =>
      obtain rfl : a = field := by simpa [Selectable.exposes] using hexposes
      exact ⟨a, Scope.outputName?_aliased _ us a, by simp [exposedName]⟩
    | none =>
      obtain rfl : name = field := by simpa [Selectable.exposes] using hexposes
      have hresolve :
          (exposedName cores session inner name (.column (.mk q name none) :: after)).result =
            (q.resolve cores session inner name).result.map (·.2) := by
        simp only [exposedName, reduceCtorEq, if_false, and_self, if_true, Compiled.result_bind]
        cases (q.resolve cores session inner name).result <;> rfl
      cases hq : (q.resolve cores session inner name).result with
      | error e => simp [Column.qualifier, Column.field, hq, Except.map] at hus
      | ok resolved =>
        simp only [Column.qualifier, Column.field, hq, Except.map, Except.ok.injEq] at hus
        subst hus
        refine ⟨resolved.2, ?_, by rw [hresolve, hq]; rfl⟩
        simp only [Column.alias?, Scope.aliasTokens, List.append_nil]
        exact Scope.outputName?_qualified _ _ _
  | aggregate a =>
    have halias : a.alias? = some field := by simpa [Selectable.exposes] using hexposes
    rw [tokens, Compiled.result_bind] at hts
    obtain ⟨us, -, hts⟩ := Results.bind_eq_ok.mp hts
    obtain rfl := Except.ok.inj hts
    exact ⟨field, by rw [halias]; exact Scope.outputName?_aliased _ us field,
      by simp [exposedName, halias]⟩
  | fragment f => simp [Selectable.exposes] at hexposes

/-- The list of a compiled select statement: what each item of its projection is written as. -/
def Select.Lists (cores : Cores) (s : Select) (pieces : List (List Token)) (ts : List Token) :
    Prop :=
  ∃ m rest, (cores s.session).registry.model s.entity = .ok m ∧
    List.Forall₂ (fun i piece => (i.tokens cores ⟨s.session, m⟩).result = .ok piece) s.projection
      pieces ∧
    ts = Token.word .select :: blank :: (commaSeparated pieces ++ clause .from rest)

/-- Each item of a projection that compiles is written as it would be alone. -/
theorem Selectable.listTokens_eq_ok {scope : Scope} : ∀ {is : List Selectable}
    {pieces : List (List Token)}, (listTokens cores scope is).result = .ok pieces →
      List.Forall₂ (fun i piece => (i.tokens cores scope).result = .ok piece) is pieces
  | [], pieces, h => by
    obtain rfl : [] = pieces := Except.ok.inj h
    exact .nil
  | i :: is, pieces, h => by
    rw [listTokens, Compiled.result_bind] at h
    obtain ⟨piece, hpiece, h⟩ := Results.bind_eq_ok.mp h
    rw [Compiled.result_bind] at h
    obtain ⟨rest, hrest, h⟩ := Results.bind_eq_ok.mp h
    obtain rfl : piece :: rest = pieces := Except.ok.inj h
    exact .cons hpiece (listTokens_eq_ok hrest)

/-- A select statement with a projection that compiles is written with its list. -/
theorem Select.exists_lists : ∀ {s : Select}, s.projection ≠ [] → ∀ {ts : List Token},
    (s.tokens cores).result = .ok ts → ∃ pieces, s.Lists cores pieces ts
  | .mk session T [] source filters groupBy having orderBy limit offset, h, ts, hts =>
    absurd rfl h
  | .mk session T (item :: items) source filters groupBy having orderBy limit offset, h, ts,
      hts => by
    rw [Select.tokens] at hts
    simp only [Compiled.result_bind, Results.bind_eq_ok, Compiled.result_model,
      Selectable.projectionTokens, Compiled.result_pure, Except.ok.injEq] at hts
    obtain ⟨m, hm, _, ⟨pieces, hpieces, rfl⟩, rows, -, filter, -, groups, -, groupFilter, -, orders,
      -, hts⟩ := hts
    exact ⟨pieces, m, _, hm, Selectable.listTokens_eq_ok hpieces, by
      simpa only [clause, List.append_assoc, List.cons_append] using hts.symm⟩

/-- The piece that is written for an item of the projection. -/
theorem Select.Lists.piece {s : Select} {pieces : List (List Token)} {ts : List Token}
    (h : s.Lists cores pieces ts) {before after : List Selectable} {i : Selectable}
    (hsplit : s.projection = before ++ i :: after) :
    ∃ m piece, (cores s.session).registry.model s.entity = .ok m ∧
      pieces[before.length]? = some piece ∧ (i.tokens cores ⟨s.session, m⟩).result = .ok piece := by
  obtain ⟨m, -, hm, hpieces, -⟩ := h
  rw [hsplit] at hpieces
  have hi : before.length < (before ++ i :: after).length := by simp
  have hlt : before.length < pieces.length := hpieces.length_eq ▸ hi
  refine ⟨m, pieces[before.length], hm, List.getElem?_eq_getElem hlt, ?_⟩
  simpa using hpieces.get hi hlt

/-! ## References to a subquery with a projection -/

/-- A column of a subquery with a projection is looked up there, after the model of its entity. -/
theorem Subquery.result_resolve (session field : String) : ∀ {s : Subquery},
    s.select.projection ≠ [] → (s.resolve cores session field).result = (do
      let inner ← (cores session).registry.model s.select.entity
      let column ← (exposedName cores session inner field s.select.projection).result
      return (s.alias?, column))
  | .mk (.mk _ _ [] _ _ _ _ _ _ _) _, h => absurd rfl h
  | .mk (.mk _ _ (item :: items) _ _ _ _ _ _ _) _, _ => by
    simp only [Subquery.resolve, Compiled.result_bind]
    rfl

/-- A column of a subquery with a projection is one that the projection exposes. -/
theorem Subquery.result_column {scope : Scope} {s : Subquery} (field : String)
    (hprojection : s.select.projection ≠ []) :
    ((s.column field).tokens cores scope).result = (do
      let inner ← (cores scope.session).registry.model s.select.entity
      let column ← (exposedName cores scope.session inner field s.select.projection).result
      return scope.qualified cores s.alias? column) := by
  rw [Column.result_tokens]
  show (s.resolve cores scope.session field).result.map _ = _
  rw [result_resolve _ _ hprojection, Results.map_bind]
  refine congrArg _ (funext fun inner => ?_)
  rw [Results.map_bind]
  rfl

/-- References to a subquery name what it outputs. Where the statement that refers to a subquery
with a projection and the subquery itself use the same registry, a reference only compiles if an
item exposes its field, and the column it names is the one that the compiled subquery writes for the
first such item. If no item exposes the field the reference fails: as a field that is unknown, or,
if the entity of the subquery has no model, with the error of that. -/
theorem Subquery.column_outputs (cores : Cores) (scope : Scope) (s : Subquery) (field : String)
    (hprojection : s.select.projection ≠ [])
    (hshared : cores.Share scope.session s.select.session) :
    (∀ ts, ((s.column field).tokens cores scope).result = .ok ts →
      ∃ before i after column, s.select.projection = before ++ i :: after ∧
        (∀ j ∈ before, j.exposes field = false) ∧ i.exposes field = true ∧
        ts = scope.qualified cores s.alias? column ∧
        ∀ inner, (s.select.tokens cores).result = .ok inner →
          ∃ pieces piece, s.select.Lists cores pieces inner ∧
            pieces[before.length]? = some piece ∧ Token.outputName? piece = some column) ∧
    ((∀ i ∈ s.select.projection, i.exposes field = false) →
      ((s.column field).tokens cores scope).result =
        match (cores scope.session).registry.model s.select.entity with
        | .ok _ => .error (.unknownField field)
        | .error e => .error e) := by
  rw [result_column field hprojection]
  constructor
  · intro ts hts
    obtain ⟨m, hm, hts⟩ := Results.bind_eq_ok.mp hts
    obtain ⟨column, hcolumn, hts⟩ := Results.bind_eq_ok.mp hts
    obtain rfl := Except.ok.inj hts
    obtain ⟨before, i, after, hsplit, hbefore, hexposes⟩ := exists_first_of_exposedName hcolumn
    refine ⟨before, i, after, column, hsplit, hbefore, hexposes, rfl, fun inner hinner => ?_⟩
    obtain ⟨pieces, hlists⟩ := Select.exists_lists hprojection hinner
    obtain ⟨m', piece, hm', hpiece, hi⟩ := hlists.piece hsplit
    obtain ⟨output, houtput, hname⟩ := Selectable.outputName?_tokens hexposes hi after
    -- the outer statement finds the same model, and the same name in it
    obtain rfl : m' = m := Except.ok.inj (hm'.symm.trans ((hshared.model _).symm.trans hm))
    rw [hsplit, exposedName_append hbefore, result_exposedName_congr hshared, hname] at hcolumn
    obtain rfl := Except.ok.inj hcolumn
    exact ⟨pieces, piece, hlists, hpiece, houtput⟩
  · intro h
    cases (cores scope.session).registry.model s.select.entity with
    | error e => rfl
    | ok m => simp only [bind, Except.bind, exposedName_eq_error h]

/-- The accounts of transfers, by way of another subquery. -/
def payers : Subquery :=
  let transfers : Subquery :=
    .mk ((Select.all "db" transfer).withProjection [.column (.own "accountId")]) (some "t")
  .mk (((Select.all "db" account).withProjection
    [.aggregate ⟨.count, "id", some "n"⟩, .column (transfers.column "accountId")]).withSource
      (.subquery transfers)) (some "p")

/-- A column that passes two subqueries is named like the inner subquery's output. -/
theorem Subquery.column_outputs_payers :
    ∃ inner pieces piece, ∃ place : ℕ, ((payers.column "accountId").tokens (fun _ => .default)
        accountScope).result = .ok [.name '\x60' "p", .sign .dot, .name '\x60' "account_id"] ∧
      (payers.select.tokens fun _ => .default).result = .ok inner ∧
      payers.select.Lists (fun _ => .default) pieces inner ∧
      pieces[place]? = some piece ∧ Token.outputName? piece = some "account_id" := by
  obtain ⟨before, i, after, column, -, -, -, hts, hinner⟩ :=
    (column_outputs (fun _ => .default) accountScope payers "accountId" (by decide) rfl).1 _ rfl
  obtain ⟨pieces, piece, hlists, hpiece, houtput⟩ := hinner _ rfl
  obtain rfl : column = "account_id" := by
    have hname := congrArg Token.outputName? hts
    rw [Scope.outputName?_qualified] at hname
    exact (Option.some.inj hname).symm
  exact ⟨_, pieces, piece, _, rfl, rfl, hlists, hpiece, houtput⟩

/-- A declaration that is no record. -/
def pair : EntityType := { EntityType.integers "Pair" ["first", "second"] with shape := .tuple }

/-- The number one for each pair. -/
def pairOnes : Subquery :=
  .mk ((Select.all "db" pair).withProjection [.fragment ⟨"1", []⟩]) (some "ones")

/-- A field that no item exposes is not reported as unknown where the entity of the subquery has no
model. -/
theorem Subquery.column_without_model :
    pairOnes.select.projection ≠ [] ∧
      (∀ session session', Cores.Share (fun _ => .default) session session') ∧
      (∀ i ∈ pairOnes.select.projection, i.exposes "x" = false) ∧
      ((pairOnes.column "x").tokens (fun _ => .default) accountScope).result =
        .error (.notARecord "Pair") ∧
      ((pairOnes.column "x").tokens (fun _ => .default) accountScope).result ≠
        .error (.unknownField "x") :=
  ⟨by decide, fun _ _ => rfl, by decide, rfl, by decide⟩

/-! ## References to a subquery without a projection -/

/-- An item of a projection is written with a name for its column. -/
def Selectable.Outputs (cores : Cores) (scope : Scope) (column : String) (i : Selectable) : Prop :=
  ∃ ts, (i.tokens cores scope).result = .ok ts ∧ Token.outputName? ts = some column

/-- An entity's table has a column. -/
def EntityType.Stores (cores : Cores) (session : String) (T : EntityType) (column : String) :
    Prop :=
  ∃ m, (cores session).registry.model T = .ok m ∧ column ∈ m.fields.map (·.column)

mutual

/-- The columns of a source: those of its tables, and those that its subqueries give. -/
def Source.Outputs (cores : Cores) (session column : String) : Source → Prop
  | .table t => t.entity.Stores cores session column
  | .joinOn _ left right _ =>
    left.Outputs cores session column ∨ right.Outputs cores session column
  | .joinUsing _ left right _ =>
    left.Outputs cores session column ∨ right.Outputs cores session column
  | .subquery s => s.Outputs cores column

/-- The columns of a nested statement. Its alias does not change their names. -/
def Subquery.Outputs (cores : Cores) (column : String) : Subquery → Prop
  | .mk s _ => s.Outputs cores column

/-- The columns of a select statement: those of its items, or else all of its source. -/
def Select.Outputs (cores : Cores) (column : String) : Select → Prop
  | .mk session T [] source _ _ _ _ _ _ => sourceOutputs cores session T column source
  | .mk session T (item :: items) _ _ _ _ _ _ _ =>
    ∃ m, (cores session).registry.model T = .ok m ∧
      ∃ i ∈ item :: items, i.Outputs cores ⟨session, m⟩ column

/-- The columns of the source of a statement: its own table where there is no other. -/
def sourceOutputs (cores : Cores) (session : String) (T : EntityType) (column : String) :
    Option Source → Prop
  | none => T.Stores cores session column
  | some s => s.Outputs cores session column

end

mutual

/-- The rows of a source have all columns of an entity's table, as they come from it. -/
def Source.StarsOf (T : EntityType) : Source → Prop
  | .table t => t.entity = T
  | .joinOn _ left right _ => left.StarsOf T ∨ right.StarsOf T
  | .joinUsing _ left right _ => left.StarsOf T ∨ right.StarsOf T
  | .subquery s => s.StarsOf T

/-- The rows of a nested statement come through under any alias. -/
def Subquery.StarsOf (T : EntityType) : Subquery → Prop
  | .mk s _ => s.StarsOf T

/-- Without a projection all columns of the source come through; with one, none is taken for
granted. -/
def Select.StarsOf (T : EntityType) : Select → Prop
  | .mk _ U [] source _ _ _ _ _ _ => sourceStarsOf T U source
  | .mk _ _ (_ :: _) _ _ _ _ _ _ _ => False

def sourceStarsOf (T U : EntityType) : Option Source → Prop
  | none => U = T
  | some s => s.StarsOf T

end

section

variable {T : EntityType} {column : String}

mutual

/-- Where the rows of an entity's table come through, its columns do. -/
theorem Source.StarsOf.outputs (h : ∀ session, T.Stores cores session column) (session : String) :
    ∀ s : Source, s.StarsOf T → s.Outputs cores session column
  | .table _, hs => by
    obtain rfl := hs
    exact h session
  | .joinOn _ left right _, hs =>
    hs.imp (Source.StarsOf.outputs h session left) (Source.StarsOf.outputs h session right)
  | .joinUsing _ left right _, hs =>
    hs.imp (Source.StarsOf.outputs h session left) (Source.StarsOf.outputs h session right)
  | .subquery s, hs => Subquery.StarsOf.outputs h s hs

theorem Subquery.StarsOf.outputs (h : ∀ session, T.Stores cores session column) :
    ∀ s : Subquery, s.StarsOf T → s.Outputs cores column
  | .mk s _, hs => Select.StarsOf.outputs h s hs

/-- A statement gives the columns of its source unless it has a projection. -/
theorem Select.StarsOf.outputs (h : ∀ session, T.Stores cores session column) :
    ∀ s : Select, s.StarsOf T → s.Outputs cores column
  | .mk session _ [] source _ _ _ _ _ _, hs => sourceOutputs_of_starsOf h session source hs
  | .mk _ _ (_ :: _) _ _ _ _ _ _ _, hs => hs.elim

theorem sourceOutputs_of_starsOf (h : ∀ session, T.Stores cores session column) (session : String)
    {U : EntityType} : ∀ s : Option Source, sourceStarsOf T U s →
      sourceOutputs cores session U column s
  | none, hs => by
    obtain rfl := hs
    exact h session
  | some s, hs => Source.StarsOf.outputs h session s hs

end

end

/-- A column of a subquery without a projection is looked up in the model of its entity, whatever
its source is. -/
theorem Subquery.result_resolve_star (session field : String) : ∀ {s : Subquery},
    s.select.projection = [] → (s.resolve cores session field).result = (do
      let inner ← (cores session).registry.model s.select.entity
      let column ← inner.columnOf field
      return (s.alias?, column))
  | .mk (.mk _ _ (_ :: _) _ _ _ _ _ _ _) _, h => absurd h (List.cons_ne_nil _ _)
  | .mk (.mk _ _ [] _ _ _ _ _ _ _) _, _ => by
    simp only [Subquery.resolve, Compiled.result_bind]
    rfl

/-- A column of a subquery without a projection is one of its entity's model. -/
theorem Subquery.result_star_column {scope : Scope} {s : Subquery} {m : Model} (field : String)
    (hstar : s.select.projection = [])
    (hm : (cores scope.session).registry.model s.select.entity = .ok m) :
    ((s.column field).tokens cores scope).result =
      (m.columnOf field).map (scope.qualified cores s.alias?) := by
  rw [Column.result_tokens]
  show (s.resolve cores scope.session field).result.map _ = _
  rw [result_resolve_star _ _ hstar, hm]
  show ((m.columnOf field).bind fun column => .ok (s.alias?, column)).map _ = _
  cases m.columnOf field <;> rfl

/-- References to a subquery without a projection. On one registry, a reference compiles exactly if
its field is one of the model of the subquery's entity, and it names the column of that field,
whatever the source of the subquery is. So all references name columns that the subquery gives if
and only if its source gives every column of the model; the source does so where its rows come from
the table of the entity itself. -/
theorem Subquery.star_column_outputs (cores : Cores) (scope : Scope) (s : Subquery) (m : Model)
    (hstar : s.select.projection = []) (hshared : ∀ session session', cores.Share session session')
    (hsound : (cores scope.session).registry.Sound) (hT : s.select.entity.WellFormed)
    (hm : (cores scope.session).registry.model s.select.entity = .ok m) :
    (∀ field, ((s.column field).tokens cores scope).result =
      (m.columnOf field).map (scope.qualified cores s.alias?)) ∧
    ((∀ field ts, ((s.column field).tokens cores scope).result = .ok ts →
        ∃ column, Token.outputName? ts = some column ∧ s.Outputs cores column) ↔
      ∀ f ∈ m.fields, s.Outputs cores f.column) ∧
    (s.StarsOf s.select.entity → ∀ f ∈ m.fields, s.Outputs cores f.column) := by
  -- every field of a sound model is found by its own name
  have hindexed := (hsound.model hm).indexed hT.distinct
  refine ⟨fun field => result_star_column field hstar hm,
    ⟨fun h f hf => ?_, fun h field ts hts => ?_⟩, fun hs f hf => ?_⟩
  · obtain ⟨i, hi⟩ := List.mem_iff_getElem?.mp hf
    have hcolumn : m.columnOf f.name = .ok f.column := by
      rw [Model.columnOf, hindexed.field?_self hi]
    have hts : ((s.column f.name).tokens cores scope).result =
        .ok (scope.qualified cores s.alias? f.column) := by
      rw [result_star_column f.name hstar hm, hcolumn]
      rfl
    obtain ⟨column, hname, houtput⟩ := h f.name _ hts
    rw [Scope.outputName?_qualified] at hname
    exact Option.some.inj hname ▸ houtput
  · rw [result_star_column field hstar hm] at hts
    cases hfield : m.field? field with
    | none => simp [Model.columnOf, hfield, Except.map] at hts
    | some f =>
      simp only [Model.columnOf, hfield, Except.map, Except.ok.injEq] at hts
      subst hts
      exact ⟨f.column, Scope.outputName?_qualified _ _ _, h f (Model.field?_mem hfield)⟩
  · have hstores (session : String) : s.select.entity.Stores cores session f.column :=
      ⟨m, ((hshared _ _).model _).trans hm, List.mem_map_of_mem hf⟩
    exact StarsOf.outputs hstores s hs

/-- The accounts, by way of another subquery that gives all of them. -/
def allAccounts : Subquery :=
  .mk ((Select.all "db" account).withSource (.subquery (.mk (Select.all "db" account) (some "a"))))
    (some "b")

/-- What is asked of a subquery that gives all accounts is given by the one within. -/
theorem Subquery.star_column_outputs_allAccounts :
    ((allAccounts.column "owner").tokens (fun _ => .default) accountScope).result =
        .ok [.name '\x60' "b", .sign .dot, .name '\x60' "owner"] ∧
      ∀ field ts, ((allAccounts.column field).tokens (fun _ => .default) accountScope).result =
        .ok ts → ∃ column, Token.outputName? ts = some column ∧
          allAccounts.Outputs (fun _ => .default) column := by
  obtain ⟨hcolumn, hall, hstars⟩ := star_column_outputs (fun _ => .default) accountScope allAccounts
    _ rfl (fun _ _ => rfl) Registry.sound_empty ⟨by decide, by decide⟩ rfl
  exact ⟨(hcolumn "owner").trans rfl, hall.mpr (hstars rfl)⟩

/-- Accounts whose rows are taken from the table of transfers. -/
def accountsOfTransfers : Subquery :=
  .mk ((Select.all "db" account).withSource (.table ⟨transfer, none⟩)) (some "s")

/-- The owners of these accounts. -/
def ownersOfTransfers : Select :=
  ((Select.all "db" account).withProjection
    [.column (accountsOfTransfers.column "owner")]).withSource (.subquery accountsOfTransfers)

/-- The owner of an account can be asked of a subquery over transfers, which have no owner. -/
theorem Subquery.star_column_foreign :
    (∃ q, ((Statement.select ownersOfTransfers).compile fun _ => .default).result = .ok q) ∧
      ((accountsOfTransfers.column "owner").tokens (fun _ => .default) accountScope).result =
        .ok [.name '\x60' "s", .sign .dot, .name '\x60' "owner"] ∧
      ¬accountsOfTransfers.Outputs (fun _ => .default) "owner" := by
  refine ⟨⟨_, rfl⟩, rfl, ?_⟩
  rintro ⟨m, hm, hcolumn⟩
  obtain rfl := Except.ok.inj hm
  exact absurd hcolumn (by decide)

end RowMapper
