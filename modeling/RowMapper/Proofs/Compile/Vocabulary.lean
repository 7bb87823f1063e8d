import Mathlib.Tactic.SplitIfs
import Mathlib.Tactic.Tauto
import RowMapper.Proofs.Compile.Ensures
import RowMapper.Proofs.Compile.Phrase
import RowMapper.Proofs.Sql.Leaves

/-!
# What compiled statements consist of

Every compiled statement is a phrase (`Statement.phrase`), for every `P` that holds of the
compiler's words and operators, of placeholders, of the names in scope and of the caller's fragments
(`Vocabulary`). Names are those of the models that the compilation asked for and the aliases in the
tree.
-/

namespace RowMapper

open Token (sign)

/-- What holds of every token that a compiled statement may have, apart from the signs that put
texts together. -/
structure Vocabulary (cores : Cores) (P : Token → Prop) (I : String → Prop) (F : Fragment → Prop) :
    Prop where
  word : ∀ w, P (.word w)
  operator : ∀ s ∈ Sign.operators, P (.sign s)
  bound : ∀ v, P (.bound v)
  name : ∀ session n, I n → P (.name (cores session).dialect.quote n)
  fragment : ∀ f, F f → P (.fragment f.sql f.args)

/-- Every name that a model gives to a table or column has `I`. -/
structure Model.NamesSatisfy (I : String → Prop) (m : Model) : Prop where
  table : I m.tableName
  column : ∀ f ∈ m.fields, I f.column

/-- The names of the model that a registry has for an entity type have `I`. -/
def Cores.NamesSatisfy (cores : Cores) (I : String → Prop) (e : String × EntityType) : Prop :=
  ∀ m, (cores e.1).registry.model e.2 = .ok m → m.NamesSatisfy I

/-- So does the column that a model has for a field. -/
theorem Model.NamesSatisfy.columnOf {I : String → Prop} {m : Model} (hm : m.NamesSatisfy I)
    {name column : String} (h : m.columnOf name = .ok column) : I column := by
  unfold Model.columnOf at h
  split at h
  case h_1 f hf =>
    obtain rfl : f.column = column := by simpa using h
    exact hm.column f (Model.field?_mem hf)
  case h_2 => simp at h

variable {cores : Cores} {P : Token → Prop} {I : String → Prop} {F : Fragment → Prop}

/-! ## Names in scope -/

mutual

/-- What a qualified column resolves to is an alias of the tree and a column of some model that was
asked for, or a name that an inner select gives. -/
theorem Qualifier.resolve_names {session : String} {own : Model} (hown : own.NamesSatisfy I)
    (field : String) : ∀ (q : Qualifier), q.UsesOnly I F →
    (q.resolve cores session own field).Ensures (cores.NamesSatisfy I)
      fun r => (∀ a ∈ r.1, I a) ∧ I r.2
  | .own, _ => by
    refine .bind (.ofExcept fun c hc => ?_) fun c hc => .pure ⟨by simp, hc⟩
    exact hown.columnOf hc
  | .table t, h => by
    refine .bind (.model fun hM m hm => hM m hm) fun m hm => ?_
    refine .bind (.ofExcept fun c hc => hm.columnOf hc) fun c hc => .pure ⟨h, hc⟩
  | .subquery s, h => s.resolve_names field h

/-- The same for a column of a subquery. -/
theorem Subquery.resolve_names {session : String} (field : String) : ∀ (s : Subquery),
    s.UsesOnly I F → (s.resolve cores session field).Ensures (cores.NamesSatisfy I)
      fun r => (∀ a ∈ r.1, I a) ∧ I r.2
  | .mk (.mk _ T [] _ _ _ _ _ _ _) alias?, h => by
    refine .bind (.model fun hM m hm => hM m hm) fun m hm => ?_
    exact .bind (.ofExcept fun c hc => hm.columnOf hc) fun c hc => .pure ⟨h.2, hc⟩
  | .mk (.mk _ T (item :: items) _ _ _ _ _ _ _) alias?, h => by
    refine .bind (.model fun hM m hm => hM m hm) fun m hm => ?_
    exact .bind (exposedName_names hm field (item :: items) h.1.1) fun c hc => .pure ⟨h.2, hc⟩

/-- The name that a select list exposes a field under is an alias of the list or a column of a
model. -/
theorem exposedName_names {session : String} {inner : Model} (hinner : inner.NamesSatisfy I)
    (field : String) : ∀ (items : List Selectable), selectablesUseOnly I F items →
    (exposedName cores session inner field items).Ensures (cores.NamesSatisfy I) I
  | [], _ => .fail _
  | .column (.mk q name alias?) :: items, h => by
    simp only [exposedName]
    split_ifs with ha hn
    · exact .pure (h.1.2 field (by simp [ha]))
    · exact .bind (q.resolve_names hinner field h.1.1) fun r hr => .pure hr.2
    · exact exposedName_names hinner field items h.2
  | .aggregate a :: items, h => by
    simp only [exposedName]
    split_ifs with ha
    · exact .pure (h.1 field (by simp [ha]))
    · exact exposedName_names hinner field items h.2
  | .fragment _ :: items, h => exposedName_names hinner field items h.2

end

/-! ## Parts -/

namespace Vocabulary

variable (V : Vocabulary cores P I F)
include V

/-- An alias goes after a phrase and leaves it one. -/
theorem aliasTokens {alias? : Option String} (scope : Scope) (h : ∀ n ∈ alias?, I n) :
    Tail P (scope.aliasTokens cores alias?) := by
  cases alias? with
  | none => exact .nil
  | some n => exact .spaced (.before (V.word _) (.leaf (V.name _ n (h n rfl))))

/-- A column in scope is a single token. -/
theorem column {scope : Scope} (hscope : scope.model.NamesSatisfy I) (field : String) :
    (scope.column cores field).Ensures (cores.NamesSatisfy I) P :=
  .bind (.ofExcept fun _ hc => hscope.columnOf hc) fun _ hc => .pure (V.name _ _ hc)

theorem columns {scope : Scope} (hscope : scope.model.NamesSatisfy I) : ∀ fields : List String,
    (scope.columns cores fields).Ensures (cores.NamesSatisfy I) fun cs => ∀ c ∈ cs, P c
  | [] => .pure (by simp)
  | field :: fields => .bind (V.column hscope field) fun c hc =>
      .bind (columns hscope fields) fun cs hcs => .pure (by simpa using ⟨hc, hcs⟩)

/-- A column is a name, or an alias, a dot and a name. -/
theorem columnTokens {scope : Scope} (hscope : scope.model.NamesSatisfy I) :
    ∀ c : Column, c.UsesOnly I F →
      (c.tokens cores scope).Ensures (cores.NamesSatisfy I) (Phrase P)
  | .mk q field _, h => by
    refine .bind (q.resolve_names hscope field h.1) fun r hr => .pure ?_
    obtain ⟨alias?, column⟩ := r
    cases alias? with
    | none => exact .leaf (V.name _ _ hr.2)
    | some a =>
      exact .separated (by decide) (.leaf (V.name _ _ (hr.1 a rfl))) (.leaf (V.name _ _ hr.2))

/-- An aggregate is a word applied to a column. -/
theorem aggregateTokens {scope : Scope} (hscope : scope.model.NamesSatisfy I) (a : Aggregate) :
    (a.tokens cores scope).Ensures (cores.NamesSatisfy I) (Phrase P) :=
  .bind (V.column hscope a.field) fun _ hc =>
    .pure (.apply (V.word _) (.leaf hc))

/-- A table is a name, with an alias or without. -/
theorem tableTokens {scope : Scope} {t : Table} (h : t.UsesOnly I) :
    (t.tokens cores scope).Ensures (cores.NamesSatisfy I) (Phrase P) :=
  .bind (.model fun hM m hm => hM m hm) fun _ hm =>
    .pure (V.aliasTokens scope h _ (.leaf (V.name _ _ hm.table)))

theorem selectableTokens {scope : Scope} (hscope : scope.model.NamesSatisfy I) :
    ∀ i : Selectable, i.UsesOnly I F →
      (i.tokens cores scope).Ensures (cores.NamesSatisfy I) (Phrase P)
  | .column (.mk _ _ _), h => .bind (V.columnTokens hscope _ h) fun _ hts =>
      .pure (V.aliasTokens scope h.2 _ hts)
  | .aggregate a, h => .bind (V.aggregateTokens hscope a) fun _ hts =>
      .pure (V.aliasTokens scope h _ hts)
  | .fragment f, h => .pure (.leaf (V.fragment f h))

/-- Every item of a select list is a phrase, so separating them by commas makes one. -/
theorem selectableListTokens {scope : Scope} (hscope : scope.model.NamesSatisfy I) :
    ∀ is : List Selectable, selectablesUseOnly I F is →
      (Selectable.listTokens cores scope is).Ensures (cores.NamesSatisfy I)
        fun tss => ∀ ts ∈ tss, Phrase P ts
  | [], _ => .pure (by simp)
  | i :: is, h => .bind (V.selectableTokens hscope i h.1) fun ts hts =>
      .bind (selectableListTokens hscope is h.2) fun tss htss => .pure (by simpa using ⟨hts, htss⟩)

theorem projectionTokens {scope : Scope} (hscope : scope.model.NamesSatisfy I) :
    ∀ is : List Selectable, selectablesUseOnly I F is →
      (Selectable.projectionTokens cores scope is).Ensures (cores.NamesSatisfy I) (Phrase P)
  | [], _ => .pure (.leaf (V.operator .star (by decide)))
  | i :: is, h => .bind (V.selectableListTokens hscope (i :: is) h) fun _ htss =>
      .pure (.commaSeparated htss)

theorem orderTokens {scope : Scope} (hscope : scope.model.NamesSatisfy I) :
    ∀ os : List (Direction × String),
      (orderTokens cores scope os).Ensures (cores.NamesSatisfy I)
        fun tss => ∀ ts ∈ tss, Phrase P ts
  | [] => .pure (by simp)
  | (d, field) :: os => .bind (V.column hscope field) fun c hc =>
      .bind (orderTokens hscope os) fun tss htss => .pure (by
        have horder : Phrase P [c, blank, .word d.word] := .before hc (.leaf (V.word _))
        simpa using ⟨horder, htss⟩)

theorem countTokens (w : Word) (n : UInt64) : Tail P (countTokens w n) := by
  unfold RowMapper.countTokens
  exact .ite (.clause (V.word w) (.leaf (V.bound _)))

/-! ## Expressions, conditions, sources and statements -/

omit V in
/-- The side of a condition is a phrase as the operand is. -/
theorem sideTokens {M : String × EntityType → Prop} {scope : Scope} {e : Expr}
    (h : (e.tokens cores scope).Ensures M (Phrase P)) :
    (e.sideTokens cores scope).Ensures M (Phrase P) := by
  rw [Expr.sideTokens_eq]
  refine .bind h fun ts hts => .pure ?_
  cases e with
  | predicate p => exact .group hts
  | _ => exact hts

omit V in
/-- A subquery is a phrase as its statement is. -/
theorem subqueryTokens {M : String × EntityType → Prop} {s : Select} {alias? : Option String}
    (h : (s.tokens cores).Ensures M (Phrase P)) :
    ((Subquery.mk s alias?).tokens cores).Ensures M (Phrase P) :=
  .bind h fun _ hts => .pure (.group hts)

mutual

/-- The parts of a select are phrases by one induction over the tree, as subqueries take expressions
back to statements. -/
theorem exprTokens {scope : Scope} (hscope : scope.model.NamesSatisfy I) :
    ∀ e : Expr, e.UsesOnly I F →
      (e.tokens cores scope).Ensures (cores.NamesSatisfy I) (Phrase P)
  | .column c, h => V.columnTokens hscope c h
  | .value v, _ => .pure (.leaf (V.bound v))
  | .predicate p, h => predicateTokens hscope p h
  | .aggregate a, _ => V.aggregateTokens hscope a
  | .math op left right, h => by
    refine .bind (exprTokens hscope left h.1) fun l hl => ?_
    refine .bind (exprTokens hscope right h.2) fun r hr => .pure (.binary ?_ hl hr)
    exact V.operator _ (by cases op <;> decide)
  | .fragment f, h => .pure (.leaf (V.fragment f h))
  | .subquery (.mk s _), h => subqueryTokens (selectTokens s h.1)
  | .quantified _ (.mk s _), h => .bind (subqueryTokens (selectTokens s h.1)) fun _ hts =>
      .pure (.before (V.word _) hts)

theorem predicateTokens {scope : Scope} (hscope : scope.model.NamesSatisfy I) :
    ∀ p : Predicate, p.UsesOnly I F →
      (p.tokens cores scope).Ensures (cores.NamesSatisfy I) (Phrase P)
  | .compare op left right, h => by
    refine .bind (sideTokens (exprTokens hscope left h.1)) fun l hl => ?_
    refine .bind (sideTokens (exprTokens hscope right h.2)) fun r hr => .pure (.binary ?_ hl hr)
    exact V.operator _ (by cases op <;> decide)
  | .and p q, h => .bind (predicateTokens hscope p h.1) fun _ hl =>
      .bind (predicateTokens hscope q h.2) fun _ hr =>
        .pure (.binary (V.word _) (.group hl) (.group hr))
  | .or p q, h => .bind (predicateTokens hscope p h.1) fun _ hl =>
      .bind (predicateTokens hscope q h.2) fun _ hr =>
        .pure (.binary (V.word _) (.group hl) (.group hr))
  | .not p, h => .bind (predicateTokens hscope p h) fun _ hts =>
      .pure (.before (V.word _) (.group hts))
  | .inList _ [], _ => .fail _
  | .inList c (v :: vs), h => .bind (V.columnTokens hscope c h) fun _ hl => .pure (by
      refine .binary (V.word _) hl (.group (.commaSeparated fun ts hts => ?_))
      obtain ⟨v, -, rfl⟩ := List.mem_map.mp hts
      exact .leaf (V.bound v))
  | .inQuery c (.mk s _), h => .bind (V.columnTokens hscope c h.1) fun _ hl =>
      .bind (subqueryTokens (selectTokens s h.2.1)) fun _ hr => .pure (.binary (V.word _) hl hr)
  | .exists (.mk s _), h => .bind (subqueryTokens (selectTokens s h.1)) fun _ hts =>
      .pure (.before (V.word _) hts)
  | .fragment f, h => .pure (.leaf (V.fragment f h))

/-- Both sides of each conjunction are put in parentheses, so the conjunction of any number of
predicates is a phrase. -/
theorem conjoinedTokens {scope : Scope} (hscope : scope.model.NamesSatisfy I) :
    ∀ (ps : List Predicate) (left : List Token), predicatesUseOnly I F ps → Phrase P left →
      (conjoinedTokens cores scope left ps).Ensures (cores.NamesSatisfy I) (Phrase P)
  | [], _, _, hleft => .pure hleft
  | p :: ps, _, h, hleft => .bind (predicateTokens hscope p h.1) fun _ hr =>
      conjoinedTokens hscope ps _ h.2
        (.binary (V.word _) (.group hleft) (.group hr))

/-- A clause of conditions goes after a phrase, if there are any. -/
theorem conditionTokens {scope : Scope} (hscope : scope.model.NamesSatisfy I) (w : Word) :
    ∀ ps : List Predicate, predicatesUseOnly I F ps →
      (conditionTokens cores scope w ps).Ensures (cores.NamesSatisfy I) (Tail P)
  | [], _ => .pure .nil
  | p :: ps, h => .bind (predicateTokens hscope p h.1) fun _ hts =>
      .bind (conjoinedTokens hscope ps _ h.2 hts) fun _ hts => .pure (.clause (V.word w) hts)

/-- A join is a group of its own: its sides are phrases, and what it joins them on goes after
them. -/
theorem sourceTokens {scope : Scope} (hscope : scope.model.NamesSatisfy I) :
    ∀ s : Source, s.UsesOnly I F →
      (s.tokens cores scope).Ensures (cores.NamesSatisfy I) (Phrase P)
  | .table _, h => V.tableTokens h
  | .joinOn _ left right on, h => .bind (sourceTokens hscope left h.1) fun _ hl =>
      .bind (sourceTokens hscope right h.2.1) fun _ hr =>
        .bind (conditionTokens hscope .on on h.2.2) fun _ hon =>
          .pure (.group (.binary (V.word _) hl (hon _ hr)))
  | .joinUsing _ left right fields, h => .bind (sourceTokens hscope left h.1) fun _ hl =>
      .bind (sourceTokens hscope right h.2) fun _ hr =>
        .bind (V.columns hscope fields) fun cs hcs => .pure (by
          have hshared := Tail.clause (V.word .using) (.group (.names hcs))
          exact .group (.binary (V.word _) hl (hshared.ite _ hr)))
  | .subquery (.mk s _), h => .bind (selectTokens s h.1) fun _ hts =>
      .pure (V.aliasTokens scope h.2 _ (.group hts))

/-- Where a select takes its rows from, which is its own table if it does not say. -/
theorem rowsTokens {scope : Scope} (hscope : scope.model.NamesSatisfy I) :
    ∀ s : Option Source, sourceUsesOnly I F s →
      (RowMapper.sourceTokens cores scope s).Ensures (cores.NamesSatisfy I) (Phrase P)
  | none, _ => .pure (.leaf (V.name _ _ hscope.table))
  | some s, h => sourceTokens hscope s h

/-- A select is its word, its items, and the clauses after them, each of which may be absent. -/
theorem selectTokens : ∀ s : Select, s.UsesOnly I F →
    (s.tokens cores).Ensures (cores.NamesSatisfy I) (Phrase P)
  | .mk _ _ projection source filters groupBy having orderBy limit offset, h => by
    refine .bind (.model fun hM m hm => hM m hm) fun m hm => ?_
    refine .bind (V.projectionTokens hm projection h.1) fun items hitems => ?_
    refine .bind (rowsTokens hm source h.2.1) fun rows hrows => ?_
    refine .bind (conditionTokens hm .where filters h.2.2.1) fun filter hfilter => ?_
    refine .bind (V.columns hm groupBy) fun groups hgroups => ?_
    refine .bind (conditionTokens hm .having having h.2.2.2) fun groupFilter hgroupFilter => ?_
    refine .bind (V.orderTokens hm orderBy) fun orders horders => .pure ?_
    -- the clauses after the items, each as what may go after a phrase; they are put together at the
    -- end
    have hgroup := Tail.ite (c := groupBy.isEmpty) (.clause (V.word .groupBy) (.names hgroups))
    have horder := Tail.ite (c := orderBy.isEmpty)
      (.clause (V.word .orderBy) (.commaSeparated horders))
    -- in the order of the text
    have htail := ((((((Tail.clause (V.word .from) hrows).append hfilter).append hgroup).append
      hgroupFilter).append horder).append (V.countTokens .limit limit)).append
        (V.countTokens .offset offset)
    have hbody := htail _ hitems
    simp only [← List.append_assoc] at hbody
    exact .before (V.word _) hbody

end

/-- The conjunction of at least one predicate. -/
theorem conjunctionTokens {scope : Scope} (hscope : scope.model.NamesSatisfy I) (p : Predicate)
    (ps : List Predicate) (h : predicatesUseOnly I F (p :: ps)) :
    (RowMapper.conjunctionTokens cores scope (p :: ps)).Ensures (cores.NamesSatisfy I) (Phrase P) :=
  .bind (V.predicateTokens hscope p h.1) fun _ hts => V.conjoinedTokens hscope ps _ h.2 hts

/-! ## Statements that change rows -/

/-- The table that a statement changes. -/
theorem targetTokens {scope : Scope} (hscope : scope.model.NamesSatisfy I) :
    ∀ t? : Option Table, (∀ t ∈ t?, t.UsesOnly I) →
      (targetTokens cores scope t?).Ensures (cores.NamesSatisfy I) (Phrase P)
  | none, _ => .pure (.leaf (V.name _ _ hscope.table))
  | some t, h => V.tableTokens (h t rfl)

omit V in
/-- If each assignment compiles to a phrase, then all of them do. -/
theorem assignmentListTokens {compile : Assignment → Compiled (List Token)} :
    ∀ as : List Assignment,
      (∀ a ∈ as, (compile a).Ensures (cores.NamesSatisfy I) (Phrase P)) →
      (Assignment.listTokens compile as).Ensures (cores.NamesSatisfy I)
        fun tss => ∀ ts ∈ tss, Phrase P ts
  | [], _ => .pure (by simp)
  | a :: as, h => .bind (h a (by simp)) fun ts hts =>
      .bind (assignmentListTokens as fun b hb => h b (by simp [hb])) fun tss htss =>
        .pure (by simpa using ⟨hts, htss⟩)

/-- The column of an assignment and the equals sign after it. -/
theorem assignedColumn {scope : Scope} (hscope : scope.model.NamesSatisfy I) (field : String) :
    (scope.column cores field).Ensures (cores.NamesSatisfy I)
      fun name => P name ∧ ∀ ts, Phrase P ts → Phrase P (name :: .sign .eq :: ts) :=
  .bind (.ofExcept fun _ hc => hscope.columnOf hc) fun _ hc =>
    .pure ⟨V.name _ _ hc, fun _ hts => .assigned (V.name _ _ hc) hts⟩

theorem updateTokens {scope : Scope} (hscope : scope.model.NamesSatisfy I) {T : EntityType}
    (r : T.Record) : ∀ a : Assignment, a.UsesOnly I F →
      (a.updateTokens cores scope r).Ensures (cores.NamesSatisfy I) (Phrase P)
  | .column c, _ => .bind (V.assignedColumn hscope c.field) fun _ hname =>
      .bind (.ofExcept fun _ _ => trivial) fun v _ => .pure (hname.2 _ (.leaf (V.bound v)))
  | .value field e, h => .bind (V.assignedColumn hscope field) fun _ hname =>
      .bind (V.exprTokens hscope e h) fun _ hts => .pure (hname.2 _ hts)
  | .fragment f, h => .pure (.leaf (V.fragment f h))

/-- In a conflict clause, the proposed value of a column is written as the style has it. -/
theorem upsertTokens {scope : Scope} (hscope : scope.model.NamesSatisfy I)
    {proposed : Token → List Token} (hproposed : ∀ name, P name → Phrase P (proposed name)) :
    ∀ a : Assignment, a.UsesOnly I F →
      (a.upsertTokens cores scope proposed).Ensures (cores.NamesSatisfy I) (Phrase P)
  | .column c, _ => .bind (V.assignedColumn hscope c.field) fun _ hname =>
      .pure (hname.2 _ (hproposed _ hname.1))
  | .value field e, h => .bind (V.assignedColumn hscope field) fun _ hname =>
      .bind (V.exprTokens hscope e h) fun _ hts => .pure (hname.2 _ hts)
  | .fragment _, _ => .fail _

/-- In every style, a conflict clause goes after the rows of an insert. -/
theorem conflictTokens {scope : Scope} (hscope : scope.model.NamesSatisfy I) {u : Upsert}
    (h : ∀ a ∈ u.assignments, a.UsesOnly I F) (style : ConflictStyle) :
    (style.tokens cores scope u).Ensures (cores.NamesSatisfy I) (Tail P) := by
  cases style with
  | onConflict =>
    have hexcluded : ∀ name, P name → Phrase P (ConflictStyle.excludedTokens name) :=
      fun name hname => .separated (by decide) (.leaf (V.word _)) (.leaf hname)
    rw [ConflictStyle.tokens]
    split
    · exact .fail _
    refine .bind (V.columns hscope u.conflict) fun names hnames => ?_
    refine .bind (assignmentListTokens _ fun a ha =>
      V.upsertTokens hscope hexcluded a (h a ha)) fun items hitems => .pure ?_
    have htarget : Phrase P (.word .onConflict :: if u.conflict.isEmpty then []
        else parenthesized (commaSeparated (names.map ([·])))) := by
      split
      · exact .leaf (V.word _)
      · exact .apply (V.word _) (.names hnames)
    exact (Tail.spaced htarget).append (.clause (V.word _) (.commaSeparated hitems))
  | onDuplicateKey =>
    have hvalues : ∀ name, P name → Phrase P (ConflictStyle.valuesTokens name) :=
      fun name hname => .apply (V.word _) (.leaf hname)
    rw [ConflictStyle.tokens]
    split
    · exact .fail _
    exact .bind (assignmentListTokens _ fun a ha => V.upsertTokens hscope hvalues a (h a ha))
      fun items hitems => .pure (.clause (V.word _) (.commaSeparated hitems))
  | counted =>
    refine .bind (V.columns hscope u.conflict) fun names hnames => .pure ?_
    have hlist : ∀ cs : List Token, (∀ c ∈ cs, P c) →
        Tail P (cs.flatMap fun name => [blank, name]) := by
      intro cs hcs
      induction cs with
      | nil => exact .nil
      | cons c cs ih =>
        exact (Tail.spaced (.leaf (hcs c (by simp)))).append (ih fun d hd => hcs d (by simp [hd]))
    exact (((Tail.clause (V.word _) (.leaf (V.name _ _ hscope.table))).append
      (hlist names hnames)).append (.clause (V.word _) (.leaf (V.bound _)))).append
        (.clause (V.word _) (.leaf (V.bound _)))
  | omitted => exact .pure .nil

theorem rowValues (values : List Value) :
    Phrase P (commaSeparated (values.map fun v => [Token.bound v])) := by
  refine .commaSeparated fun ts hts => ?_
  obtain ⟨v, -, rfl⟩ := List.mem_map.mp hts
  exact .leaf (V.bound v)

/-- An insert consists of its table with a list of columns, a list of rows, and a conflict
clause. -/
theorem insertTokens (s : Insert) (h : ∀ u ∈ s.upsert?, ∀ a ∈ u.assignments, a.UsesOnly I F) :
    (s.tokens cores).Ensures (cores.NamesSatisfy I) (Phrase P) := by
  cases hempty : s.rows.isEmpty with
  | true =>
    rw [Insert.tokens, if_pos hempty]
    exact .fail _
  | false =>
    rw [Insert.tokens_eq _ _ hempty]
    refine .bind (.model fun hM m hm => hM m hm) fun m hm => ?_
    refine .bind (V.columns hm _) fun names hnames => ?_
    refine .bind (.ofExcept fun _ _ => trivial) fun rows _ => ?_
    -- what comes before the conflict clause needs to know of it only that it goes after a phrase
    refine .bind (R := Tail P) ?_ fun conflict hconflict => .pure ?_
    · unfold Insert.conflictTokens
      split
      · exact .pure .nil
      · next u hu => exact V.conflictTokens hm (h u hu) _
    · have hcells : ∀ ts ∈ rows.map fun vs => commaSeparated (vs.map fun v => [Token.bound v]),
          Phrase P ts := by
        intro ts hts
        obtain ⟨values, -, rfl⟩ := List.mem_map.mp hts
        exact V.rowValues values
      have hrows : Phrase P (.word .values :: commaSeparated (rows.map Insert.rowTokens)) := by
        have hlist := Phrase.applyEach (V.word .values) hcells
        rwa [List.map_map] at hlist
      have htable : Phrase P (.name (cores s.session).dialect.quote m.tableName ::
          parenthesized (commaSeparated (names.map ([·])))) :=
        .apply (V.name _ _ hm.table) (.names hnames)
      exact .before (V.word _) ((Tail.spaced hrows).append hconflict _ htable)

/-- An update consists of its table, its assignments, and its conditions. -/
theorem updateStatementTokens (s : Update) (ht : ∀ t ∈ s.table?, t.UsesOnly I)
    (ha : ∀ a ∈ s.assignments, a.UsesOnly I F) (hp : predicatesUseOnly I F s.filters) :
    (s.tokens cores).Ensures (cores.NamesSatisfy I) (Phrase P) := by
  rw [Update.tokens]
  split
  · exact .fail _
  refine .bind (.model fun hM m hm => hM m hm) fun m hm => ?_
  refine .bind (V.targetTokens hm s.table? ht) fun target htarget => ?_
  refine .bind (assignmentListTokens _ fun a h => V.updateTokens hm s.record a (ha a h))
    fun items hitems => ?_
  refine .bind (V.conditionTokens hm .where s.filters hp) fun filter hfilter => .pure ?_
  have hset := Tail.clause (V.word .set) (.commaSeparated hitems)
  exact .before (V.word _) (hfilter _ (hset _ htarget))

/-- A delete consists of its table and its conditions. -/
theorem deleteTokens (s : Delete) (ht : ∀ t ∈ s.table?, t.UsesOnly I)
    (hp : predicatesUseOnly I F s.filters) :
    (s.tokens cores).Ensures (cores.NamesSatisfy I) (Phrase P) := by
  refine .bind (.model fun hM m hm => hM m hm) fun m hm => ?_
  refine .bind (V.targetTokens hm s.table? ht) fun target htarget => ?_
  refine .bind (V.conditionTokens hm .where s.filters hp) fun filter hfilter => .pure ?_
  exact .before (V.word _) (hfilter _ htarget)

end Vocabulary

/-- What a statement ends in: a semicolon, unless the caller wrote it. -/
def Statement.terminator : Statement → List Token
  | .raw _ => []
  | _ => [sign .semicolon]

/-- Every compiled statement is a phrase of its vocabulary, up to the semicolon at its end. -/
theorem Statement.phrase (V : Vocabulary cores P I F) :
    ∀ s : Statement, s.UsesOnly I F → (s.tokens cores).Ensures (cores.NamesSatisfy I)
      fun ts => ∃ body, Phrase P body ∧ ts = body ++ s.terminator
  | .select s, h => .bind (V.selectTokens s h) fun ts hts => .pure ⟨ts, hts, rfl⟩
  | .insert s, h => .bind (V.insertTokens s h) fun ts hts => .pure ⟨ts, hts, rfl⟩
  | .update s, h => .bind (V.updateStatementTokens s h.1 h.2.1 h.2.2) fun ts hts =>
      .pure ⟨ts, hts, rfl⟩
  | .delete s, h => .bind (V.deleteTokens s h.1 h.2) fun ts hts => .pure ⟨ts, hts, rfl⟩
  | .raw s, h => .pure ⟨_, .leaf (V.fragment ⟨s.sql, s.args⟩ h), (List.append_nil _).symm⟩

end RowMapper
