import Mathlib.Data.List.FinRange
import Mathlib.Data.List.Forall2
import RowMapper.Proofs.Compile.Vocabulary

/-!
# Placeholders and arguments

A statement binds values from many places: operands, elements of lists, the arguments of fragments,
fields of records, limits and offsets, and all of these again in the statements nested in it.
`Statement.items` lists them in the order in which a reader of the tree meets them, clause by
clause, each nested statement where it stands. `Statement.tokens_binds` says that the compiled
tokens bind exactly these items in this order.

For the text this gives `Statement.marks_items`: where no name has a question mark and every
fragment has as many as it has arguments, the `k`-th question mark of the text is the one that was
written for the `k`-th item, and the `k`-th argument is the value of that item.
-/

namespace RowMapper

/-! ## The items of a statement -/

/-- A place in a statement that a value is taken from. -/
inductive Item where
  | operand (v : Value)
  | element (v : Value)
  | argument (f : Fragment) (i : Fin f.args.length)
  | cell {T : EntityType} (strategy : Strategy) (m : Model) (r : T.Record) (field : String)
  | limit (n : UInt64)
  | offset (n : UInt64)
  | dialect (v : Value)

namespace Item

/-- The value of an item, if it can be read. -/
def value : Item → Except Error Value
  | operand v => .ok v
  | element v => .ok v
  | argument f i => .ok f.args[i]
  | cell strategy m r field => Binding.field strategy m r field
  | limit n => .ok (rowCount n)
  | offset n => .ok (rowCount n)
  | dialect v => .ok v

/-- An item is written as the `j`-th placeholder of a token. A fragment has a placeholder for each
of its arguments, every other item a token of its own. -/
def WrittenAs (item : Item) (t : Token) (j : ℕ) : Prop :=
  match item with
  | argument f i => t = .fragment f.sql f.args ∧ j = i
  | item => ∃ v, item.value = .ok v ∧ t = .bound v ∧ j = 0

end Item

/-- The items of a fragment: its arguments, in order. -/
def Fragment.items (f : Fragment) : List Item := (List.finRange f.args.length).map (.argument f)

mutual

/-- The items of an expression, from left to right. Columns and aggregates bind nothing. -/
def Expr.items : Expr → List Item
  | .column _ => []
  | .value v => [.operand v]
  | .predicate p => p.items
  | .aggregate _ => []
  | .math _ left right => left.items ++ right.items
  | .fragment f => f.items
  | .subquery s => s.items
  | .quantified _ s => s.items

/-- The items of a predicate: the column stands before the list or subquery that it is looked up
in. -/
def Predicate.items : Predicate → List Item
  | .compare _ left right => left.items ++ right.items
  | .and p q => p.items ++ q.items
  | .or p q => p.items ++ q.items
  | .not p => p.items
  | .inList _ vs => vs.map .element
  | .inQuery _ s => s.items
  | .exists s => s.items
  | .fragment f => f.items

/-- The items of a source: those of its sides, and then what they are joined on. -/
def Source.items : Source → List Item
  | .table _ => []
  | .joinOn _ left right on => left.items ++ (right.items ++ predicateItems on)
  | .joinUsing _ left right _ => left.items ++ right.items
  | .subquery s => s.items

def Subquery.items : Subquery → List Item
  | .mk s _ => s.items

/-- The items of a select, clause by clause. The groups and the order are columns only, and a count
of zero is not written. -/
def Select.items : Select → List Item
  | .mk _ _ projection source filters _ having _ limit offset =>
    projection.flatMap Selectable.items ++ sourceItems source ++ predicateItems filters ++
      predicateItems having ++ (if limit = 0 then [] else [.limit limit]) ++
      (if offset = 0 then [] else [.offset offset])

/-- The items of an entry of a projection: only fragments bind values there. -/
def Selectable.items : Selectable → List Item
  | .column _ => []
  | .aggregate _ => []
  | .fragment f => f.items

/-- The items of a clause of conditions. -/
def predicateItems : List Predicate → List Item
  | [] => []
  | p :: ps => p.items ++ predicateItems ps

def sourceItems : Option Source → List Item
  | none => []
  | some s => s.items

end

namespace Assignment

/-- The items of an assignment of an update: a plain column takes the field of the record. -/
def updateItems (strategy : Strategy) (m : Model) {T : EntityType} (r : T.Record) :
    Assignment → List Item
  | column c => [.cell strategy m r c.field]
  | value _ e => e.items
  | fragment f => f.items

/-- The items of an assignment of a conflict clause: a plain column takes no value. -/
def upsertItems : Assignment → List Item
  | column _ => []
  | value _ e => e.items
  | fragment f => f.items

end Assignment

/-- The items of a conflict clause. -/
def Upsert.items (u : Upsert) : ConflictStyle → List Item
  | .onConflict => u.assignments.flatMap Assignment.upsertItems
  | .onDuplicateKey => u.assignments.flatMap Assignment.upsertItems
  | .counted => [.dialect (.integer (Int64.ofNat u.assignments.length)), .dialect (.text "x")]
  | .omitted => []

/-- The items of an insert: the listed fields of every row, then the conflict clause. -/
def Insert.items (s : Insert) (core : Core) (m : Model) : List Item :=
  s.rows.flatMap (fun r => (s.listedFields m).map (.cell core.strategy m r)) ++
    (s.upsert?.map (·.items core.dialect.conflict)).getD []

/-- The items of an update: its assignments, and then its conditions. -/
def Update.items (s : Update) (core : Core) (m : Model) : List Item :=
  s.assignments.flatMap (Assignment.updateItems core.strategy m s.record) ++
    predicateItems s.filters

/-- The items of a statement in reading order. The fields that are written are those of the model
which the statement's registry has for its entity type. -/
def Statement.items (cores : Cores) (s : Statement) : List Item :=
  match s, (cores s.session).registry.model s.entity with
  | .select s, _ => s.items
  | .insert s, .ok m => s.items (cores s.session) m
  | .update s, .ok m => s.items (cores s.session) m
  | .delete s, _ => predicateItems s.filters
  | .raw s, _ => Fragment.items ⟨s.sql, s.args⟩
  | _, .error _ => []

/-! ## Tokens that bind items -/

/-- The placeholders of a token. -/
def Token.places (t : Token) : List (Token × ℕ) := (List.range t.args.length).map (t, ·)

/-- The placeholders of a text are those of the items, in order. -/
def Binds (items : List Item) (ts : List Token) : Prop :=
  List.Forall₂ (fun item place => item.WrittenAs place.1 place.2) items (ts.flatMap Token.places)

/-- A token that binds nothing. -/
def Token.Silent (t : Token) : Prop := t.args = []

namespace Binds

theorem nil : Binds [] [] := List.Forall₂.nil

/-- One text after another binds the items of the first, then those of the second. -/
theorem append {items items' : List Item} {ts ts' : List Token} (h : Binds items ts)
    (h' : Binds items' ts') : Binds (items ++ items') (ts ++ ts') := by
  unfold Binds
  rw [List.flatMap_append]
  exact List.rel_append h h'

/-- A silent token may come before. -/
theorem skip {items : List Item} {t : Token} {ts : List Token} (ht : t.Silent)
    (h : Binds items ts) : Binds items (t :: ts) := by
  unfold Binds
  rw [List.flatMap_cons, Token.places, ht]
  exact h

/-- A text of silent tokens binds nothing. -/
theorem silent {ts : List Token} (h : ∀ t ∈ ts, t.Silent) : Binds [] ts := by
  induction ts with
  | nil => exact nil
  | cons t ts ih => exact (ih fun u hu => h u (by simp [hu])).skip (h t (by simp))

/-- Parentheses bind nothing by themselves. -/
theorem parenthesized {items : List Item} {ts : List Token} (h : Binds items ts) :
    Binds items (parenthesized ts) := by
  have hclose : Binds [] [Token.sign .closeParen] := nil.skip rfl
  -- the brackets are silent tokens around the text
  have := (h.append hclose).skip (t := Token.sign .openParen) rfl
  rwa [List.append_nil] at this

/-- The word of a clause binds nothing by itself. -/
theorem clause {items : List Item} {ts : List Token} (w : Word) (h : Binds items ts) :
    Binds items (clause w ts) :=
  .skip rfl (.skip rfl (.skip rfl h))

/-- Two texts with a silent token between them. -/
theorem binary {items items' : List Item} {l r : List Token} {t : Token} (ht : t.Silent)
    (hl : Binds items l) (hr : Binds items' r) :
    Binds (items ++ items') (l ++ blank :: t :: blank :: r) :=
  hl.append (.skip rfl (.skip ht (.skip rfl hr)))

/-- A silent text and a silent token before another text. -/
theorem before {items : List Item} {l r : List Token} {t : Token} (hl : Binds [] l)
    (ht : t.Silent) (hr : Binds items r) : Binds items (l ++ blank :: t :: blank :: r) :=
  binary ht hl hr

/-- A list binds the items of its entries in order. -/
theorem commaSeparated : ∀ {itemss : List (List Item)} {tss : List (List Token)},
    List.Forall₂ Binds itemss tss → Binds itemss.flatten (commaSeparated tss)
  | _, _, .nil => nil
  | _, _, .cons h .nil => by simpa [RowMapper.commaSeparated] using h
  | _, _, .cons h (.cons h' hs) => h.append (.skip rfl (commaSeparated (.cons h' hs)))

/-- A silent text may come after. -/
theorem appendSilent {items : List Item} {ts us : List Token} (h : Binds items ts)
    (hu : Binds [] us) : Binds items (ts ++ us) := by
  simpa using h.append hu

theorem commaSeparatedSilent {tss : List (List Token)} (h : ∀ ts ∈ tss, Binds [] ts) :
    Binds [] (RowMapper.commaSeparated tss) := by
  have htss : List.Forall₂ Binds (tss.map fun _ => []) tss := by
    simpa only [List.forall₂_map_left_iff, List.forall₂_same] using h
  simpa using commaSeparated htss

/-- A list of names binds nothing. -/
theorem names {cs : List Token} (h : ∀ c ∈ cs, c.Silent) :
    Binds [] (RowMapper.commaSeparated (cs.map ([·]))) := by
  refine commaSeparatedSilent fun ts hts => ?_
  obtain ⟨c, hc, rfl⟩ := List.mem_map.mp hts
  exact nil.skip (h c hc)

/-- One placeholder for an item other than the argument of a fragment. -/
theorem single {item : Item} {v : Value} (hitem : item.WrittenAs (.bound v) 0) :
    Binds [item] [.bound v] :=
  .cons hitem .nil

/-- A fragment is one token with a placeholder for each of its arguments. -/
theorem fragment (f : Fragment) : Binds f.items f.tokens := by
  -- the places of the one token are numbered as its arguments are
  have hplaces : f.tokens.flatMap Token.places =
      (List.finRange f.args.length).map fun i => (.fragment f.sql f.args, i.val) := by
    rw [Fragment.tokens, List.flatMap_singleton, Token.places]
    show (List.range f.args.length).map _ = _
    rw [← List.map_coe_finRange_eq_range, List.map_map]
    rfl
  unfold Binds
  rw [hplaces, Fragment.items]
  simp only [List.forall₂_map_left_iff, List.forall₂_map_right_iff, List.forall₂_same]
  exact fun i _ => ⟨rfl, rfl⟩

/-- The elements of a list are bound one by one. -/
theorem elements (vs : List Value) :
    Binds (vs.map .element) (RowMapper.commaSeparated (vs.map fun v => [.bound v])) := by
  have hvs : List.Forall₂ Binds (vs.map fun v => [.element v]) (vs.map fun v => [.bound v]) := by
    simp only [List.forall₂_map_left_iff, List.forall₂_map_right_iff, List.forall₂_same]
    exact fun v _ => single ⟨v, rfl, rfl, rfl⟩
  have := commaSeparated hvs
  rwa [← List.flatMap_def, ← List.map_eq_flatMap] at this

end Binds

variable {cores : Cores} {M : String × EntityType → Prop}

/-! ## Names bind nothing -/

/-- A column that is written is a name. -/
theorem Scope.column_silent (scope : Scope) (field : String) :
    (scope.column cores field).Ensures M Token.Silent :=
  .bind .any fun _ _ => .pure rfl

theorem Scope.columns_silent (scope : Scope) : ∀ fields : List String,
    (scope.columns cores fields).Ensures M fun cs => ∀ c ∈ cs, c.Silent
  | [] => .pure (by simp)
  | field :: fields => .bind (scope.column_silent field) fun c hc =>
      .bind (columns_silent scope fields) fun cs hcs => .pure (by simpa using ⟨hc, hcs⟩)

theorem Scope.aliasTokens_silent (scope : Scope) (alias? : Option String) :
    Binds [] (scope.aliasTokens cores alias?) := by
  cases alias? with
  | none => exact .nil
  | some n => exact .silent (by simp [Scope.aliasTokens, Token.Silent, Scope.name, Token.args])

/-- A column is a name, or two with a dot between them. -/
theorem Column.tokens_silent (scope : Scope) (c : Column) :
    (c.tokens cores scope).Ensures M (Binds []) := by
  refine .bind .any fun r _ => .pure ?_
  obtain ⟨alias?, column⟩ := r
  cases alias? with
  | none => exact .skip rfl .nil
  | some a => exact .skip rfl (.skip rfl (.skip rfl .nil))

theorem Aggregate.tokens_silent (scope : Scope) (a : Aggregate) :
    (a.tokens cores scope).Ensures M (Binds []) :=
  .bind (scope.column_silent a.field) fun _ hc => .pure (.skip rfl (.parenthesized (.skip hc .nil)))

theorem Table.tokens_silent (scope : Scope) (t : Table) :
    (t.tokens cores scope).Ensures M (Binds []) :=
  .bind .any fun _ _ => .pure (.skip rfl (scope.aliasTokens_silent t.alias?))

/-- What rows are ordered by is columns only. -/
theorem orderTokens_silent (scope : Scope) : ∀ os : List (Direction × String),
    (orderTokens cores scope os).Ensures M fun tss => ∀ ts ∈ tss, Binds [] ts
  | [] => .pure (by simp)
  | (d, field) :: os => .bind (scope.column_silent field) fun c hc =>
      .bind (orderTokens_silent scope os) fun tss htss => .pure (by
        have horder : Binds [] [c, blank, .word d.word] := .skip hc (.skip rfl (.skip rfl .nil))
        simpa using ⟨horder, htss⟩)

/-! ## Every item is written where it stands -/

theorem Selectable.tokens_binds (scope : Scope) : ∀ i : Selectable,
    (i.tokens cores scope).Ensures M (Binds i.items)
  | .column c => .bind (c.tokens_silent scope) fun _ hts =>
      .pure (hts.appendSilent (scope.aliasTokens_silent c.alias?))
  | .aggregate a => .bind (a.tokens_silent scope) fun _ hts =>
      .pure (hts.appendSilent (scope.aliasTokens_silent a.alias?))
  | .fragment f => .pure (.fragment f)

/-- The entries of a projection bind their own items each. -/
theorem Selectable.listTokens_binds (scope : Scope) : ∀ is : List Selectable,
    (listTokens cores scope is).Ensures M (List.Forall₂ Binds (is.map items))
  | [] => .pure .nil
  | i :: is => .bind (i.tokens_binds scope) fun _ hts =>
      .bind (listTokens_binds scope is) fun _ htss => .pure (.cons hts htss)

theorem Selectable.projectionTokens_binds (scope : Scope) : ∀ is : List Selectable,
    (projectionTokens cores scope is).Ensures M (Binds (is.flatMap items))
  | [] => .pure (.skip rfl .nil)
  | i :: is => .bind (listTokens_binds scope (i :: is)) fun _ htss =>
      .pure (by simpa only [List.flatMap_def] using Binds.commaSeparated htss)

/-- A limit or offset is bound unless it is zero, and then it is not written. -/
theorem countTokens_binds (item : UInt64 → Item)
    (hitem : ∀ n, (item n).WrittenAs (.bound (rowCount n)) 0) (w : Word) (n : UInt64) :
    Binds (if n = 0 then [] else [item n]) (countTokens w n) := by
  unfold countTokens
  split
  · exact .nil
  · exact .clause w (.single (hitem n))

/-- The parentheses around a side of a condition make no difference. -/
theorem Expr.sideTokens_binds {items : List Item} {scope : Scope} {e : Expr}
    (h : (e.tokens cores scope).Ensures M (Binds items)) :
    (e.sideTokens cores scope).Ensures M (Binds items) := by
  rw [sideTokens_eq]
  refine .bind h fun ts hts => .pure ?_
  cases e with
  | predicate p => exact hts.parenthesized
  | _ => exact hts

mutual

/-- The text and the items follow the same recursion on the tree, so this is one induction over all
parts of a select. -/
theorem Expr.tokens_binds (scope : Scope) : ∀ e : Expr,
    (e.tokens cores scope).Ensures M (Binds e.items)
  | .column c => c.tokens_silent scope
  | .value v => .pure (.single ⟨v, rfl, rfl, rfl⟩)
  | .predicate p => p.tokens_binds scope
  | .aggregate a => a.tokens_silent scope
  | .math _ left right => .bind (left.tokens_binds scope) fun _ hl =>
      .bind (right.tokens_binds scope) fun _ hr => .pure (.binary rfl hl hr)
  | .fragment f => .pure (.fragment f)
  | .subquery s => s.tokens_binds
  | .quantified _ s => .bind s.tokens_binds fun _ hts => .pure (.skip rfl (.skip rfl hts))

theorem Predicate.tokens_binds (scope : Scope) : ∀ p : Predicate,
    (p.tokens cores scope).Ensures M (Binds p.items)
  | .compare _ left right => by
    refine .bind (Expr.sideTokens_binds (left.tokens_binds scope)) fun _ hl => ?_
    refine .bind (Expr.sideTokens_binds (right.tokens_binds scope)) fun _ hr => .pure ?_
    exact .binary rfl hl hr
  | .and p q => by
    refine .bind (p.tokens_binds scope) fun _ hl => ?_
    refine .bind (q.tokens_binds scope) fun _ hr => .pure ?_
    exact .binary rfl hl.parenthesized hr.parenthesized
  | .or p q => by
    refine .bind (p.tokens_binds scope) fun _ hl => ?_
    refine .bind (q.tokens_binds scope) fun _ hr => .pure ?_
    exact .binary rfl hl.parenthesized hr.parenthesized
  | .not p => .bind (p.tokens_binds scope) fun _ hts =>
      .pure (.skip rfl (.skip rfl hts.parenthesized))
  | .inList _ [] => .fail _
  | .inList c (v :: vs) => .bind (c.tokens_silent scope) fun _ hl =>
      .pure (hl.before rfl (Binds.elements (v :: vs)).parenthesized)
  | .inQuery c s => .bind (c.tokens_silent scope) fun _ hl =>
      .bind s.tokens_binds fun _ hr => .pure (hl.before rfl hr)
  | .exists s => .bind s.tokens_binds fun _ hts => .pure (.skip rfl (.skip rfl hts))
  | .fragment f => .pure (.fragment f)

/-- A further predicate comes after those that are joined already, in the text as in the items. -/
theorem conjoinedTokens_binds (scope : Scope) : ∀ (ps : List Predicate) (items : List Item)
    (left : List Token), Binds items left →
    (conjoinedTokens cores scope left ps).Ensures M (Binds (items ++ predicateItems ps))
  | [], items, _, hleft => .pure (by simpa [predicateItems] using hleft)
  | p :: ps, items, left, hleft => .bind (p.tokens_binds scope) fun r hr => by
      have hboth : Binds (items ++ p.items)
          (parenthesized left ++ blank :: .word .and :: blank :: parenthesized r) :=
        .binary rfl hleft.parenthesized hr.parenthesized
      have := conjoinedTokens_binds scope ps _ _ hboth
      rwa [List.append_assoc] at this

theorem conditionTokens_binds (scope : Scope) (w : Word) : ∀ ps : List Predicate,
    (conditionTokens cores scope w ps).Ensures M (Binds (predicateItems ps))
  | [] => .pure .nil
  | p :: ps => .bind (p.tokens_binds scope) fun _ hts =>
      .bind (conjoinedTokens_binds scope ps _ _ hts) fun _ hts => .pure (.clause w hts)

/-- A join has its left side first, then its right side, then what it joins them on. -/
theorem Source.tokens_binds (scope : Scope) : ∀ s : Source,
    (s.tokens cores scope).Ensures M (Binds s.items)
  | .table t => t.tokens_silent scope
  | .joinOn _ left right on => .bind (left.tokens_binds scope) fun _ hl =>
      .bind (right.tokens_binds scope) fun _ hr =>
        .bind (conditionTokens_binds scope .on on) fun _ hon =>
          .pure (.parenthesized (.binary rfl hl (hr.append hon)))
  | .joinUsing _ left right fields => .bind (left.tokens_binds scope) fun _ hl =>
      .bind (right.tokens_binds scope) fun _ hr =>
        .bind (scope.columns_silent fields) fun cs hcs => .pure (by
          refine .parenthesized (.binary rfl hl (hr.appendSilent ?_))
          split
          · exact .nil
          · exact .clause _ (Binds.names hcs).parenthesized)
  | .subquery (.mk s alias?) => .bind s.tokens_binds fun _ hts =>
      .pure (hts.parenthesized.appendSilent (scope.aliasTokens_silent alias?))

theorem Subquery.tokens_binds : ∀ s : Subquery, (s.tokens cores).Ensures M (Binds s.items)
  | .mk s _ => .bind s.tokens_binds fun _ hts => .pure hts.parenthesized

theorem sourceTokens_binds (scope : Scope) : ∀ s : Option Source,
    (sourceTokens cores scope s).Ensures M (Binds (sourceItems s))
  | none => .pure (.skip rfl .nil)
  | some s => s.tokens_binds scope

/-- The clauses of a select are written in the order in which its items are listed. -/
theorem Select.tokens_binds : ∀ s : Select, (s.tokens cores).Ensures M (Binds s.items)
  | .mk session _ projection source filters groupBy having orderBy limit offset => by
    refine .bind .any fun m _ => ?_
    let scope : Scope := ⟨session, m⟩
    refine .bind (Selectable.projectionTokens_binds scope projection) fun items hitems => ?_
    refine .bind (sourceTokens_binds scope source) fun rows hrows => ?_
    refine .bind (conditionTokens_binds scope .where filters) fun filter hfilter => ?_
    refine .bind (scope.columns_silent groupBy) fun groups hgroups => ?_
    refine .bind (conditionTokens_binds scope .having having) fun groupFilter hgroupFilter => ?_
    refine .bind (orderTokens_silent scope orderBy) fun orders horders => .pure ?_
    -- groups and orders bind nothing; the marks are those of the other clauses, in the order of the
    -- text
    refine .skip rfl (.skip rfl (.append (.append ?_
      (countTokens_binds .limit (fun n => ⟨_, rfl, rfl, rfl⟩) .limit limit))
      (countTokens_binds .offset (fun n => ⟨_, rfl, rfl, rfl⟩) .offset offset)))
    refine Binds.appendSilent (.append (.appendSilent (.append (hitems.append (.clause .from hrows))
      hfilter) ?_) hgroupFilter) ?_
    · split
      · exact .nil
      · exact .clause _ (Binds.names hgroups)
    · split
      · exact .nil
      · exact .clause _ (.commaSeparatedSilent horders)

end

theorem targetTokens_silent (scope : Scope) : ∀ t? : Option Table,
    (targetTokens cores scope t?).Ensures M (Binds [])
  | none => .pure (.skip rfl .nil)
  | some t => t.tokens_silent scope

/-- If each assignment binds its items, then so does their list. -/
theorem Assignment.listTokens_binds {compile : Assignment → Compiled (List Token)}
    {items : Assignment → List Item} (h : ∀ a, (compile a).Ensures M (Binds (items a))) :
    ∀ as : List Assignment,
      (listTokens compile as).Ensures M (List.Forall₂ Binds (as.map items))
  | [] => .pure .nil
  | a :: as => .bind (h a) fun _ hts =>
      .bind (listTokens_binds h as) fun _ htss => .pure (.cons hts htss)

/-- A plain column is followed by the value of its field in the record, any other assignment by its
own. -/
theorem Assignment.updateTokens_binds (scope : Scope) {T : EntityType} (r : T.Record) :
    ∀ a : Assignment, (a.updateTokens cores scope r).Ensures M
      (Binds (a.updateItems (cores scope.session).strategy scope.model r))
  | .column c => by
    refine .bind (scope.column_silent c.field) fun name hname => ?_
    refine .bind (.ofExcept fun v hv => hv) fun v hv => .pure ?_
    exact .skip hname (.skip rfl (.single ⟨v, hv, rfl, rfl⟩))
  | .value field e => .bind (scope.column_silent field) fun _ hname =>
      .bind (e.tokens_binds scope) fun _ hts => .pure (.skip hname (.skip rfl hts))
  | .fragment f => .pure (.fragment f)

/-- In a conflict clause, a plain column takes the proposed value, which binds nothing. -/
theorem Assignment.upsertTokens_binds (scope : Scope) {proposed : Token → List Token}
    (hproposed : ∀ name, Token.Silent name → Binds [] (proposed name)) : ∀ a : Assignment,
      (a.upsertTokens cores scope proposed).Ensures M (Binds a.upsertItems)
  | .column c => .bind (scope.column_silent c.field) fun _ hname =>
      .pure (.skip hname (.skip rfl (hproposed _ hname)))
  | .value field e => .bind (scope.column_silent field) fun _ hname =>
      .bind (e.tokens_binds scope) fun _ hts => .pure (.skip hname (.skip rfl hts))
  | .fragment _ => .fail _

/-- One style counts the assignments instead of writing them, and binds what it counts. -/
theorem ConflictStyle.tokens_binds (scope : Scope) (u : Upsert) (style : ConflictStyle) :
    (style.tokens cores scope u).Ensures M (Binds (u.items style)) := by
  cases style with
  | onConflict =>
    have hexcluded : ∀ name, Token.Silent name → Binds [] (excludedTokens name) :=
      fun name hname => .skip rfl (.skip rfl (.skip hname .nil))
    rw [tokens]
    split
    · exact .fail _
    refine .bind (scope.columns_silent u.conflict) fun names hnames => ?_
    refine .bind (Assignment.listTokens_binds (Assignment.upsertTokens_binds scope hexcluded) _)
      fun items hitems => .pure (.skip rfl (.skip rfl ?_))
    have htarget : Binds [] (if u.conflict.isEmpty then []
        else parenthesized (commaSeparated (names.map ([·])))) := by
      split
      · exact .nil
      · exact (Binds.names hnames).parenthesized
    exact htarget.append (.clause _ (Binds.commaSeparated hitems))
  | onDuplicateKey =>
    have hvalues : ∀ name, Token.Silent name → Binds [] (valuesTokens name) :=
      fun name hname => .skip rfl (.parenthesized (.skip hname .nil))
    rw [tokens]
    split
    · exact .fail _
    exact .bind (Assignment.listTokens_binds (Assignment.upsertTokens_binds scope hvalues) _)
      fun items hitems => .pure (.clause _ (Binds.commaSeparated hitems))
  | counted =>
    refine .bind (scope.columns_silent u.conflict) fun names hnames => .pure ?_
    have htable : Binds [] (clause .upsert [scope.name cores scope.model.tableName]) :=
      .clause _ (.skip rfl .nil)
    have hnames : Binds [] (names.flatMap fun name => [blank, name]) := by
      refine .silent fun t ht => ?_
      obtain ⟨name, hname, ht⟩ := List.mem_flatMap.mp ht
      simp only [List.mem_cons, List.not_mem_nil, or_false] at ht
      rcases ht with rfl | rfl
      · rfl
      · exact hnames _ hname
    have hcount : Item.WrittenAs (.dialect (.integer (Int64.ofNat u.assignments.length)))
        (.bound (.integer (Int64.ofNat u.assignments.length))) 0 := ⟨_, rfl, rfl, rfl⟩
    exact ((htable.append hnames).append (.clause _ (.single hcount))).append
      (.clause _ (.single ⟨_, rfl, rfl, rfl⟩))
  | omitted => exact .pure .nil

namespace Insert

/-- A row binds the fields of its record in the listed order. -/
theorem rowTokens_binds {strategy : Strategy} {m : Model} {T : EntityType} {r : T.Record}
    {fields : List String} {vs : List Value} (h : rowValues strategy m r fields = .ok vs) :
    Binds (fields.map (.cell strategy m r)) (rowTokens vs) := by
  have hcells : List.Forall₂ Binds (fields.map fun field => [.cell strategy m r field])
      (vs.map fun v => [.bound v]) := by
    simp only [List.forall₂_map_left_iff, List.forall₂_map_right_iff]
    exact (rowValues_eq_ok.mp h).imp fun field v hv => .single ⟨v, hv, rfl, rfl⟩
  have := (Binds.commaSeparated hcells).parenthesized
  rwa [← List.flatMap_def, ← List.map_eq_flatMap] at this

/-- Row after row, as the records are listed. -/
theorem rowsTokens_binds {strategy : Strategy} {m : Model} {T : EntityType}
    {fields : List String} {rs : List T.Record} {vss : List (List Value)}
    (h : cells strategy m fields rs = .ok vss) :
    Binds (rs.flatMap fun r => fields.map (.cell strategy m r))
      (commaSeparated (vss.map rowTokens)) := by
  have hrows : List.Forall₂ Binds (rs.map fun r => fields.map (.cell strategy m r))
      (vss.map rowTokens) := by
    simp only [List.forall₂_map_left_iff, List.forall₂_map_right_iff]
    exact (cells_eq_ok.mp h).imp fun r vs hvs => rowTokens_binds hvs
  simpa only [List.flatMap_def] using Binds.commaSeparated hrows

/-- An insert binds the cells of its rows, and then what its conflict clause does. -/
theorem tokens_binds (s : Insert) :
    (s.tokens cores).Ensures M (Binds ((Statement.insert s).items cores)) := by
  cases hempty : s.rows.isEmpty with
  | true =>
    rw [tokens, if_pos hempty]
    exact .fail _
  | false =>
    rw [tokens_eq _ _ hempty]
    refine .bind (.model fun _ m hm => hm) fun m hm => ?_
    -- which fields a row has is known once the model is
    have hitems : (Statement.insert s).items cores = s.items (cores s.session) m := by
      simp only [Statement.items, Statement.session, Statement.entity, hm]
    rw [hitems]
    refine .bind (Scope.columns_silent _ _) fun names hnames => ?_
    refine .bind (.ofExcept fun rows hrows => rowsTokens_binds hrows) fun rows hrows => ?_
    refine .bind (R := Binds ((s.upsert?.map
        (·.items (cores s.session).dialect.conflict)).getD []))
      ?_ fun conflict hconflict => .pure ?_
    · unfold conflictTokens
      split
      · next hu => rw [hu]; exact .pure .nil
      · next u hu => rw [hu]; exact ConflictStyle.tokens_binds _ u _
    · refine .skip rfl (.skip rfl (.skip rfl ?_))
      refine (Binds.names hnames).parenthesized.append ?_
      exact .skip rfl (.skip rfl (hrows.append hconflict))

end Insert

/-- An update binds its assignments and then its conditions. -/
theorem Update.tokens_binds (s : Update) :
    (s.tokens cores).Ensures M (Binds ((Statement.update s).items cores)) := by
  rw [tokens]
  split
  · exact .fail _
  refine .bind (.model fun _ m hm => hm) fun m hm => ?_
  have hitems : (Statement.update s).items cores = s.items (cores s.session) m := by
    simp only [Statement.items, Statement.session, Statement.entity, hm]
  rw [hitems]
  refine .bind (targetTokens_silent _ s.table?) fun target htarget => ?_
  refine .bind (Assignment.listTokens_binds (Assignment.updateTokens_binds _ s.record) _)
    fun assigned hassigned => ?_
  refine .bind (conditionTokens_binds _ .where s.filters) fun filter hfilter => .pure ?_
  have hset := Binds.clause .set (Binds.commaSeparated hassigned)
  exact .skip rfl (.skip rfl ((htarget.append hset).append hfilter))

theorem Delete.tokens_binds (s : Delete) :
    (s.tokens cores).Ensures M (Binds (predicateItems s.filters)) := by
  refine .bind .any fun m _ => ?_
  refine .bind (targetTokens_silent _ s.table?) fun target htarget => ?_
  refine .bind (conditionTokens_binds _ .where s.filters) fun filter hfilter => .pure ?_
  exact .skip rfl (.skip rfl (htarget.append hfilter))

/-- The compiled tokens of a statement bind its items in order. -/
theorem Statement.tokens_binds : ∀ s : Statement,
    (s.tokens cores).Ensures M (Binds (s.items cores))
  | .select s => .bind s.tokens_binds fun _ hts => .pure (hts.appendSilent (.skip rfl .nil))
  | .insert s => .bind s.tokens_binds fun _ hts => .pure (hts.appendSilent (.skip rfl .nil))
  | .update s => .bind s.tokens_binds fun _ hts => .pure (hts.appendSilent (.skip rfl .nil))
  | .delete s => .bind s.tokens_binds fun _ hts => .pure (hts.appendSilent (.skip rfl .nil))
  | .raw s => .pure (.fragment ⟨s.sql, s.args⟩)

/-! ## Question marks in the text -/

/-- A token has as many question marks as it binds values. -/
def Token.Balanced (t : Token) : Prop := t.text.toList.count '?' = t.args.length

instance (t : Token) : Decidable t.Balanced := inferInstanceAs (Decidable (_ = _))

/-- The `k`-th question mark of a text stands in a token that is written for an item, and is the
placeholder of that item there. -/
def Item.MarkedAt (item : Item) (ts : List Token) (k : ℕ) : Prop :=
  ∃ before t after pre post, ts = before ++ t :: after ∧ t.text.toList = pre ++ '?' :: post ∧
    item.WrittenAs t (pre.count '?') ∧ (Token.chars before ++ pre).count '?' = k

/-- A text of balanced tokens has as many question marks as arguments. -/
theorem Token.count_chars {ts : List Token} (h : ∀ t ∈ ts, t.Balanced) :
    (chars ts).count '?' = (ts.flatMap args).length := by
  induction ts with
  | nil => rfl
  | cons t ts ih =>
    have ht : t.text.toList.count '?' = t.args.length := h t (by simp)
    have hts := ih fun u hu => h u (by simp [hu])
    rw [chars, List.flatMap_cons, List.count_append, ht, List.flatMap_cons, List.length_append]
    exact congrArg _ hts

/-- The `k`-th placeholder of a text is one of a token before which the text has the rest of `k`. -/
theorem Token.places_eq_some {t : Token} {j : ℕ} : ∀ {ts : List Token} {k : ℕ},
    (ts.flatMap places)[k]? = some (t, j) →
      ∃ before after, ts = before ++ t :: after ∧ (before.flatMap args).length + j = k ∧
        j < t.args.length
  | [], k, h => by simp at h
  | u :: us, k, h => by
    have hlength : (places u).length = u.args.length := by simp [places]
    rw [List.flatMap_cons, List.getElem?_append, hlength] at h
    split at h
    · next hk =>
      have hu : u = t ∧ k = j := by simpa [places, hk] using h
      obtain ⟨rfl, rfl⟩ := hu
      exact ⟨[], us, rfl, by simp, hk⟩
    · next hk =>
      obtain ⟨before, after, rfl, hcount, hj⟩ := places_eq_some h
      refine ⟨u :: before, after, rfl, ?_, hj⟩
      rw [List.flatMap_cons, List.length_append]
      omega

/-- A list with more than `j` occurrences of an element can be cut before the `j`-th of them. -/
theorem exists_cut_of_lt_count {c : Char} : ∀ {cs : List Char} {j : ℕ}, j < cs.count c →
    ∃ pre post, cs = pre ++ c :: post ∧ pre.count c = j
  | [], j, h => by simp at h
  | d :: ds, j, h => by
    by_cases hd : d = c
    · subst hd
      cases j with
      | zero => exact ⟨[], ds, rfl, rfl⟩
      | succ j =>
        have hds : j < ds.count d := by
          rw [List.count_cons_self] at h
          omega
        obtain ⟨pre, post, rfl, hpre⟩ := exists_cut_of_lt_count hds
        exact ⟨d :: pre, post, rfl, by rw [List.count_cons_self, hpre]⟩
    · rw [List.count_cons_of_ne hd] at h
      obtain ⟨pre, post, rfl, hpre⟩ := exists_cut_of_lt_count h
      exact ⟨d :: pre, post, rfl, by rwa [List.count_cons_of_ne hd]⟩

/-- Where an item is written, its value is bound. -/
theorem Item.WrittenAs.value_eq {item : Item} {t : Token} {j : ℕ} (h : item.WrittenAs t j)
    (hj : j < t.args.length) : item.value = .ok t.args[j] := by
  cases item with
  | argument f i =>
    obtain ⟨rfl, rfl⟩ := h
    rfl
  | _ =>
    obtain ⟨v, hv, rfl, rfl⟩ := h
    exact hv

/-- In a balanced text that binds items, the `k`-th question mark and the `k`-th argument are those
of the `k`-th item. -/
theorem Binds.markedAt {items : List Item} {ts : List Token} (hbinds : Binds items ts)
    (hts : ∀ t ∈ ts, t.Balanced) {k : ℕ} (hk : k < (ts.flatMap Token.args).length) :
    ∃ item, items[k]? = some item ∧ item.MarkedAt ts k ∧
      item.value = .ok (ts.flatMap Token.args)[k] := by
  have hplaces : (ts.flatMap Token.places).length = (ts.flatMap Token.args).length := by
    simp [List.length_flatMap, Token.places]
  have hkp : k < (ts.flatMap Token.places).length := by omega
  have hki : k < items.length := by rw [hbinds.length_eq]; exact hkp
  have hwritten := hbinds.get hki hkp
  generalize hplace : (ts.flatMap Token.places).get ⟨k, hkp⟩ = place at hwritten
  obtain ⟨t, j⟩ := place
  -- the `k`-th placeholder is the `j`-th of the token `t`; the tokens before it have the others
  obtain ⟨before, after, rfl, hcount, hj⟩ := Token.places_eq_some
    (List.getElem?_eq_some_iff.mpr ⟨hkp, hplace⟩)
  have ht : t.text.toList.count '?' = t.args.length := hts t (by simp)
  obtain ⟨pre, post, htext, hpre⟩ := exists_cut_of_lt_count (by rw [ht]; exact hj)
  have hbefore : (Token.chars before).count '?' = (before.flatMap Token.args).length :=
    Token.count_chars fun u hu => hts u (by simp [hu])
  refine ⟨items[k], List.getElem?_eq_getElem hki, ?_, ?_⟩
  · refine ⟨before, t, after, pre, post, rfl, htext, by rwa [hpre], ?_⟩
    rw [List.count_append, hbefore, hpre, hcount]
  · have harg : ((before ++ t :: after).flatMap Token.args)[k] = t.args[j] := by
      simp only [List.flatMap_append, List.flatMap_cons, ← hcount]
      rw [List.getElem_append_right (by omega), List.getElem_append_left (by omega)]
      simp
    rw [harg]
    exact hwritten.value_eq hj

theorem Token.balanced_sign (s : Sign) : (Token.sign s).Balanced := by
  cases s <;> decide

/-- Under the conditions on names and fragments, every token that a statement may have is
balanced. -/
theorem Token.balanced_vocabulary (cores : Cores)
    (hquote : ∀ session, (cores session).dialect.quote ≠ '?') :
    Vocabulary cores Token.Balanced (fun n => '?' ∉ n.toList)
      (fun f => f.sql.toList.count '?' = f.args.length) where
  word w := show w.text.toList.count '?' = 0 by cases w <;> decide
  operator s _ := Token.balanced_sign s
  bound _ := show "?".toList.count '?' = 1 by decide
  name session n hn := by
    have hchars : (text (.name (cores session).dialect.quote n)).toList =
        (cores session).dialect.quote :: (n.toList ++ [(cores session).dialect.quote]) := by
      simp [text]
    show (text (.name (cores session).dialect.quote n)).toList.count '?' = 0
    rw [hchars, List.count_cons_of_ne (hquote session), List.count_append,
      List.count_eq_zero.mpr hn, List.count_cons_of_ne (hquote session), List.count_nil]
  fragment _ hf := hf

/-- Placeholders and arguments line up. Where no name of a statement has a question mark and every
fragment has as many as it has arguments, the text has as many as there are arguments, and the
`k`-th question mark is the one written for the `k`-th item of the statement, whose value is the
`k`-th argument. -/
theorem Statement.marks_items (cores : Cores) (s : Statement) (q : Query)
    (hquote : ∀ session, (cores session).dialect.quote ≠ '?')
    (huses : s.UsesOnly (fun n => '?' ∉ n.toList) fun f => f.sql.toList.count '?' = f.args.length)
    (hmodels : ∀ e ∈ (s.compile cores).consulted, cores.NamesSatisfy (fun n => '?' ∉ n.toList) e)
    (hq : (s.compile cores).result = .ok q) :
    q.sql.toList.count '?' = q.args.length ∧ (s.items cores).length = q.args.length ∧
      ∃ ts, (s.tokens cores).result = .ok ts ∧ q = .ofTokens ts ∧
        ∀ k, (hk : k < q.args.length) → ∃ item, (s.items cores)[k]? = some item ∧
          item.MarkedAt ts k ∧ item.value = .ok q.args[k] := by
  rw [compile, Compiled.result_bind] at hq
  rw [compile, Compiled.consulted_bind_pure] at hmodels
  obtain ⟨ts, hts, hquery⟩ := Results.bind_eq_ok.mp hq
  obtain rfl : Query.ofTokens ts = q := Except.ok.inj hquery
  have hbinds : Binds (s.items cores) ts := s.tokens_binds hmodels ts hts
  obtain ⟨body, hbody, hterminator⟩ :=
    s.phrase (Token.balanced_vocabulary cores hquote) huses hmodels ts hts
  have hbalanced : ∀ t ∈ ts, t.Balanced := by
    intro t ht
    -- the semicolon at the end is no part of the phrase
    rw [hterminator, List.mem_append] at ht
    rcases ht with ht | ht
    · exact hbody.forall_mem Token.balanced_sign t ht
    · obtain rfl : t = .sign .semicolon := by
        cases s with
        | raw s => simp [terminator] at ht
        | _ => simpa [terminator] using ht
      decide
  have hlength : (s.items cores).length = (ts.flatMap Token.args).length := by
    rw [hbinds.length_eq]
    simp [List.length_flatMap, Token.places]
  refine ⟨?_, hlength, ts, hts, rfl, fun k hk => hbinds.markedAt hbalanced hk⟩
  rw [Query.ofTokens_sql, Token.count_chars hbalanced]
  rfl

/-! ## A nested statement -/

/-- An update that takes values from a record, a fragment, a list and two nested statements. -/
def settlement : Update :=
  { session := "db", entity := account
    record := EntityType.initial _
    assignments := [.column (.own "owner"), .value "balance" (.math .add
      (.fragment ⟨"COALESCE(?, ?)", [.integer 1, .integer 2]⟩) (.subquery largeAmounts))]
    filters := [.inList (.own "id") [.integer 4, .integer 5],
      .not (.inQuery (.own "balance") largeAmounts)]
    table? := none }

/-- The placeholders of a nested update and its arguments line up. -/
theorem Statement.marks_items_settlement :
    ∃ q ts, ((Statement.update settlement).compile fun _ => .default).result = .ok q ∧
      q.args = [.integer 0, .integer 1, .integer 2, .integer 10, .integer 3, .integer 1,
        .integer 4, .integer 5, .integer 10, .integer 3, .integer 1] ∧
      ∀ k, (hk : k < q.args.length) →
        ∃ item, ((Statement.update settlement).items fun _ => .default)[k]? = some item ∧
          item.MarkedAt ts k ∧ item.value = .ok q.args[k] := by
  have huses : (Statement.update settlement).UsesOnly (fun n => '?' ∉ n.toList)
      fun f => f.sql.toList.count '?' = f.args.length := by
    simp [settlement, largeAmounts, Statement.UsesOnly, Assignment.UsesOnly, Column.UsesOnly,
      Column.own, Expr.UsesOnly, Qualifier.UsesOnly, Subquery.UsesOnly, Select.UsesOnly,
      selectablesUseOnly, Selectable.UsesOnly, sourceUsesOnly, predicatesUseOnly,
      Predicate.UsesOnly]
  have hmodels : ∀ e ∈ ((Statement.update settlement).compile fun _ => .default).consulted,
      Cores.NamesSatisfy (fun _ => .default) (fun n => '?' ∉ n.toList) e := by
    have hconsulted : ((Statement.update settlement).compile fun _ => .default).consulted =
        [("db", settlement.entity), ("db", largeAmounts.select.entity),
          ("db", largeAmounts.select.entity)] := rfl
    rw [hconsulted]
    intro e he m hm
    simp only [List.mem_cons, List.not_mem_nil, or_false, or_self] at he
    rcases he with rfl | rfl
    · obtain rfl := Except.ok.inj hm
      exact ⟨by decide, by decide⟩
    · obtain rfl := Except.ok.inj hm
      exact ⟨by decide, by decide⟩
  obtain ⟨-, -, ts, -, -, hmarks⟩ := marks_items (fun _ => .default) (.update settlement) _
    (fun _ => by decide) huses hmodels rfl
  exact ⟨_, ts, rfl, rfl, hmarks⟩

end RowMapper
