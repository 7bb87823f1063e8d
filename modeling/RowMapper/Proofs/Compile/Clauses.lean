import Mathlib.Data.Int.Notation
import Mathlib.Data.Nat.Notation
import RowMapper.Proofs.Compile.Ensures
import RowMapper.Proofs.Compile.Phrase
import RowMapper.Proofs.Sql.Leaves

/-!
# Clauses of select statements

`readClauses` cuts the text of a select statement into clauses and their items. It knows which words
begin a clause and that commas stand between items; what is in parentheses belongs to an item
whatever it is, and blanks are left out. The reader knows nothing of the compiler.

Everything that the compiler writes as one item stays together when it is read (`Entry`): its words
and commas are either no clause words at all or in parentheses, however deep statements are nested.
So a compiled select statement is read as the clauses that its tree has, in the order of SQL's
grammar (`Select.clauses_read`). A limit or offset of zero is no clause. The grammar lets an offset
only follow a limit, so the text follows it exactly if there is no offset or there is a limit too.
-/

namespace RowMapper

open Token (word sign bound)

/-! ## A reader of clauses -/

/-- A clause as it is read: its word, and its items without their blanks. -/
structure Clause where
  word : Word
  items : List (List Token)

/-- The words that begin a clause of a select statement. -/
def Word.clauses : List Word :=
  [.select, .from, .where, .groupBy, .having, .orderBy, .limit, .offset]

/-- A text that is read from within a clause on: the rest of the item, the other items of the
clause, and the clauses after it. -/
structure Reading where
  item : List Token
  items : List (List Token)
  clauses : List Clause

namespace Reading

/-- The reading with more tokens before the item. -/
def prepend (ts : List Token) (r : Reading) : Reading := { r with item := ts ++ r.item }

/-- The reading after a comma. -/
def next (r : Reading) : Reading := ⟨[], r.item :: r.items, r.clauses⟩

/-- The reading after the word of a clause. -/
def begin (w : Word) (r : Reading) : Reading := ⟨[], [], ⟨w, r.item :: r.items⟩ :: r.clauses⟩

end Reading

/-- Reads a text up to the semicolon, inside of a number of parentheses. -/
def readFrom : ℕ → List Token → Option Reading
  | _, [] => none
  | depth, .sign .blank :: ts => readFrom depth ts
  | depth, .sign .openParen :: ts =>
    (readFrom (depth + 1) ts).map (·.prepend [.sign .openParen])
  | 0, .sign .closeParen :: _ => none
  | depth + 1, .sign .closeParen :: ts => (readFrom depth ts).map (·.prepend [.sign .closeParen])
  | 0, .sign .semicolon :: ts => if ts.isEmpty then some ⟨[], [], []⟩ else none
  | 0, .sign .comma :: ts => (readFrom 0 ts).map (·.next)
  | 0, .word w :: ts =>
    if w ∈ Word.clauses then (readFrom 0 ts).map (·.begin w)
    else (readFrom 0 ts).map (·.prepend [.word w])
  | depth, t :: ts => (readFrom depth ts).map (·.prepend [t])

/-- Reads a text as clauses. -/
def readClauses (ts : List Token) : Option (List Clause) :=
  match readFrom 0 ts with
  | some ⟨[], [], clauses⟩ => some clauses
  | _ => none

/-- The order of clauses that SQL requires: an offset stands right after a limit. -/
def Grammatical (ws : List Word) : Prop :=
  ∃ conditions rows, ws = .select :: .from :: (conditions ++ rows) ∧
    conditions.Sublist [.where, .groupBy, .having, .orderBy] ∧
    rows ∈ [[], [.limit], [.limit, .offset]]

/-- An offset needs a limit. -/
theorem Grammatical.limit_mem {ws : List Word} (h : Grammatical ws) (hoffset : .offset ∈ ws) :
    .limit ∈ ws := by
  obtain ⟨conditions, rows, rfl, hconditions, hrows⟩ := h
  have hnone : .offset ∉ conditions := fun hmem => by simpa using hconditions.subset hmem
  have hlast : .offset ∈ rows := by simpa [hnone] using hoffset
  simp only [List.mem_cons, List.not_mem_nil, or_false] at hrows
  rcases hrows with rfl | rfl | rfl
  · simp at hlast
  · simp at hlast
  · simp

/-! ## Texts that stay together -/

/-- A text without its blanks. -/
def unspaced (ts : List Token) : List Token := ts.filter (· ≠ blank)

/-- A text that stays together inside of at least some number of parentheses: all of it belongs to
the item that it is in. -/
def Together (low : ℕ) (ts : List Token) : Prop :=
  ∀ depth, low ≤ depth → ∀ rest,
    readFrom depth (ts ++ rest) = (readFrom depth rest).map (·.prepend (unspaced ts))

namespace Reading

@[simp]
theorem prepend_nil (r : Reading) : r.prepend [] = r := rfl

@[simp]
theorem prepend_prepend (ts us : List Token) (r : Reading) :
    (r.prepend us).prepend ts = r.prepend (ts ++ us) := by
  simp [prepend]

end Reading

theorem unspaced_append (ts us : List Token) : unspaced (ts ++ us) = unspaced ts ++ unspaced us :=
  List.filter_append ..

namespace Together

variable {low : ℕ} {ts us : List Token}

theorem nil : Together low [] := fun depth _ rest => by
  cases h : readFrom depth rest <;> simp [h, unspaced]

/-- What stays together anywhere stays together in parentheses. -/
theorem mono (h : Together 0 ts) : Together low ts := fun depth _ rest =>
  h depth (Nat.zero_le depth) rest

/-- Two texts that stay together do so one after the other. -/
theorem append (ht : Together low ts) (hu : Together low us) : Together low (ts ++ us) := by
  intro depth hlow rest
  rw [List.append_assoc, ht depth hlow, hu depth hlow, Option.map_map, unspaced_append]
  exact congrArg (Option.map · _) (funext fun r => Reading.prepend_prepend ..)

theorem blank (h : Together low ts) : Together low (RowMapper.blank :: ts) := by
  intro depth hlow rest
  rw [List.cons_append, readFrom, h depth hlow]
  rfl

/-- In parentheses a text only has to stay together there. -/
theorem parenthesized (h : Together 1 ts) : Together low (RowMapper.parenthesized ts) := by
  intro depth _ rest
  have hcut : RowMapper.parenthesized ts ++ rest =
      .sign .openParen :: (ts ++ .sign .closeParen :: rest) := by
    simp [RowMapper.parenthesized]
  have hitem : unspaced (RowMapper.parenthesized ts) =
      .sign .openParen :: (unspaced ts ++ [.sign .closeParen]) := by
    simp [RowMapper.parenthesized, unspaced]
  rw [hcut, hitem, readFrom, h (depth + 1) (by omega), readFrom, Option.map_map, Option.map_map]
  exact congrArg (Option.map · _) (funext fun r => by simp)

end Together

/-- The tokens that belong to an item wherever they stand. -/
def Token.inert : Token → Bool
  | .word w => w ∉ Word.clauses
  | .sign s => s ∈ Sign.dot :: Sign.operators
  | _ => true

/-- Dots and operators stay together with the rest, and so do words that begin no clause. -/
theorem Together.leaf {t : Token} (ht : t.inert) : Together 0 [t] := by
  intro depth _ rest
  cases t with
  | word w =>
    cases depth with
    | zero =>
      have hw : w ∉ Word.clauses := of_decide_eq_true ht
      rw [List.singleton_append, readFrom, if_neg hw]
      rfl
    | succ depth => rfl
  | sign s =>
    simp only [Token.inert, List.mem_cons, Sign.mem_operators, decide_eq_true_eq] at ht
    rcases ht with rfl | rfl | rfl | rfl | rfl | rfl | rfl | rfl | rfl | rfl <;>
      cases depth <;> rfl
  | name quote s => cases depth <;> rfl
  | bound v => cases depth <;> rfl
  | fragment sql args => cases depth <;> rfl

/-- In parentheses, words of clauses and commas stay together with the rest. -/
theorem Together.word (w : Word) : Together 1 [.word w] := by
  intro depth hlow rest
  obtain ⟨depth, rfl⟩ := Nat.exists_eq_add_one.mpr hlow
  rfl

/-- Only outside of all parentheses does a comma end an item. -/
theorem Together.comma : Together 1 [.sign .comma] := by
  intro depth hlow rest
  obtain ⟨depth, rfl⟩ := Nat.exists_eq_add_one.mpr hlow
  rfl

/-- The text of an item of a clause. -/
structure Entry (ts : List Token) : Prop where
  together : Together 0 ts
  written : unspaced ts ≠ []

namespace Entry

variable {ts us : List Token}

theorem leaf {t : Token} (ht : t.inert) : Entry [t] := by
  refine ⟨.leaf ht, ?_⟩
  have hblank : t ≠ blank := by
    rintro rfl
    exact absurd ht (by decide)
  simp [unspaced, hblank]

/-- An item goes on with whatever stays together. -/
theorem append (ht : Entry ts) (hu : Together 0 us) : Entry (ts ++ us) where
  together := ht.together.append hu
  written := by simp [unspaced_append, ht.written]

theorem cons {t : Token} (ht : t.inert) (h : Together 0 ts) : Entry (t :: ts) := (leaf ht).append h

/-- Parentheses make an item of clauses as well, and of items with commas between them. -/
theorem parenthesized (h : Together 1 ts) : Entry (RowMapper.parenthesized ts) where
  together := h.parenthesized
  written := by simp [RowMapper.parenthesized, unspaced]

/-- An item in parentheses. -/
theorem enclosed (h : Entry ts) : Entry (RowMapper.parenthesized ts) :=
  parenthesized h.together.mono

/-- Two items with an operator between them. -/
theorem binary {t : Token} (ht : t.inert) (hl : Entry ts) (hr : Entry us) :
    Entry (ts ++ blank :: t :: blank :: us) :=
  hl.append (cons ht hr.together.blank).together.blank

/-- A word before an item. -/
theorem before {t : Token} (ht : t.inert) (h : Entry ts) : Entry (t :: blank :: ts) :=
  cons ht h.together.blank

end Entry

/-- Items with commas between them stay together in parentheses. -/
theorem Together.commaSeparated : ∀ {tss : List (List Token)}, (∀ ts ∈ tss, Entry ts) →
    Together 1 (RowMapper.commaSeparated tss)
  | [], _ => .nil
  | [ts], h => (h ts (by simp)).together.mono
  | ts :: us :: rest, h =>
    (h ts (by simp)).together.mono.append
      (Together.comma.append (commaSeparated fun vs hvs => h vs (.tail _ hvs)))

/-! ## Clauses as they are written -/

/-- A clause and its items as they are written; nothing for no items. -/
def clauseOf (c : Word × List (List Token)) : List Token :=
  if c.2.isEmpty then [] else clause c.1 (commaSeparated c.2)

/-- A clause stays together inside of parentheses, although it begins with its word. -/
theorem Together.clauseOf {c : Word × List (List Token)} (h : ∀ ts ∈ c.2, Entry ts) :
    Together 1 (RowMapper.clauseOf c) := by
  unfold RowMapper.clauseOf
  split
  · exact .nil
  · exact ((Together.word c.1).append (Together.commaSeparated h).blank).blank

/-- The clauses that are read where some are written: those with items. -/
def clausesOf (cs : List (Word × List (List Token))) : List Clause :=
  (cs.filter fun c => !c.2.isEmpty).map fun c => ⟨c.1, c.2.map unspaced⟩

/-- A clause that is left out where a list is empty, with as many items as the list has. -/
theorem clauseOf_of_length {α : Type} {as : List α} (w : Word) {tss : List (List Token)}
    (h : tss.length = as.length) :
    (if as.isEmpty then [] else clause w (commaSeparated tss)) = clauseOf (w, tss) := by
  have hempty : tss.isEmpty = as.isEmpty := by cases tss <;> cases as <;> simp_all
  rw [clauseOf, hempty]

/-- Items with commas between them, before a text that begins with a clause. -/
theorem readFrom_commaSeparated {rest : List Token} {clauses : List Clause}
    (hrest : readFrom 0 rest = some ⟨[], [], clauses⟩) : ∀ {ts : List Token}
    {tss : List (List Token)}, (∀ us ∈ ts :: tss, Entry us) →
      readFrom 0 (commaSeparated (ts :: tss) ++ rest) =
        some ⟨unspaced ts, tss.map unspaced, clauses⟩
  | ts, [], h => by
    have hts := (h ts (by simp)).together 0 (Nat.le_refl 0) rest
    simpa [commaSeparated, hrest, Reading.prepend] using hts
  | ts, us :: tss, h => by
    have htail := readFrom_commaSeparated hrest fun vs hvs => h vs (.tail _ hvs)
    have hts := (h ts (by simp)).together 0 (Nat.le_refl 0)
      (.sign .comma :: (commaSeparated (us :: tss) ++ rest))
    simpa [commaSeparated, readFrom, htail, Reading.next, Reading.prepend] using hts

/-- Clauses that are written one after another are read one after another. -/
theorem readFrom_clauses : ∀ {cs : List (Word × List (List Token))},
    (∀ c ∈ cs, c.1 ∈ Word.clauses ∧ ∀ ts ∈ c.2, Entry ts) →
      readFrom 0 (cs.flatMap clauseOf ++ [.sign .semicolon]) = some ⟨[], [], clausesOf cs⟩
  | [], _ => rfl
  | (w, tss) :: cs, h => by
    obtain ⟨hw, hitems⟩ := h (w, tss) (by simp)
    have hrest := readFrom_clauses fun c hc => h c (.tail _ hc)
    cases tss with
    | nil => simpa [clauseOf, clausesOf] using hrest
    | cons ts tss =>
      have hclause := readFrom_commaSeparated hrest hitems
      simp only [clauseOf, clause, List.flatMap_cons, List.isEmpty_cons, List.cons_append,
        List.append_assoc, Bool.false_eq_true, if_false]
      rw [readFrom, readFrom, if_pos hw, readFrom, hclause]
      simp [clausesOf, Reading.begin]

/-! ## Parts of statements -/

variable {cores : Cores} {M : String × EntityType → Prop}

/-- An alias belongs to the item that it names. -/
theorem Scope.aliasTokens_together (scope : Scope) (alias? : Option String) :
    Together 0 (scope.aliasTokens cores alias?) := by
  cases alias? with
  | none => exact .nil
  | some a => exact (Entry.before (by decide) (.leaf rfl)).together.blank

theorem Scope.column_entry (scope : Scope) (field : String) :
    (scope.column cores field).Ensures M fun c => Entry [c] :=
  .bind .any fun _ _ => .pure (.leaf rfl)

/-- One item for each field, in order. -/
theorem Scope.columns_entries (scope : Scope) : ∀ fields : List String,
    (scope.columns cores fields).Ensures M fun cs =>
      (cs.map ([·])).length = fields.length ∧ ∀ ts ∈ cs.map ([·]), Entry ts
  | [] => .pure ⟨rfl, by simp⟩
  | field :: fields => .bind (scope.column_entry field) fun c hc =>
      .bind (columns_entries scope fields) fun cs hcs =>
        .pure ⟨by simpa using hcs.1, by simpa using ⟨hc, by simpa using hcs.2⟩⟩

/-- A qualified name is one item: the dot is no boundary. -/
theorem Column.tokens_entry (scope : Scope) (c : Column) :
    (c.tokens cores scope).Ensures M Entry := by
  refine .bind .any fun r _ => .pure ?_
  obtain ⟨alias?, column⟩ := r
  cases alias? with
  | none => exact .leaf rfl
  | some a => exact .cons rfl (Entry.cons (by decide) (.leaf rfl)).together

theorem Aggregate.tokens_entry (scope : Scope) (a : Aggregate) :
    (a.tokens cores scope).Ensures M Entry := by
  refine .bind (scope.column_entry a.field) fun c hc => .pure ?_
  exact .cons (by cases a.function <;> decide) hc.enclosed.together

theorem Table.tokens_entry (scope : Scope) (t : Table) : (t.tokens cores scope).Ensures M Entry :=
  .bind .any fun _ _ => .pure (.cons rfl (scope.aliasTokens_together t.alias?))

theorem Selectable.tokens_entry (scope : Scope) : ∀ i : Selectable,
    (i.tokens cores scope).Ensures M Entry
  | .column c => .bind (c.tokens_entry scope) fun _ hts =>
      .pure (hts.append (scope.aliasTokens_together c.alias?))
  | .aggregate a => .bind (a.tokens_entry scope) fun _ hts =>
      .pure (hts.append (scope.aliasTokens_together a.alias?))
  | .fragment _ => .pure (.leaf rfl)

/-- One item for each one of the projection, in order. -/
theorem Selectable.listTokens_entries (scope : Scope) : ∀ is : List Selectable,
    (listTokens cores scope is).Ensures M fun tss =>
      tss.length = is.length ∧ ∀ ts ∈ tss, Entry ts
  | [] => .pure ⟨rfl, by simp⟩
  | i :: is => .bind (i.tokens_entry scope) fun ts hts =>
      .bind (listTokens_entries scope is) fun tss htss =>
        .pure ⟨by simp [htss.1], by simpa using ⟨hts, htss.2⟩⟩

/-- A projection has an item for each of its own, and one if it has none. -/
theorem Selectable.projectionTokens_entries (scope : Scope) : ∀ is : List Selectable,
    (projectionTokens cores scope is).Ensures M fun ts =>
      ∃ tss, ts = commaSeparated tss ∧ tss.length = max 1 is.length ∧ ∀ us ∈ tss, Entry us
  | [] => .pure ⟨[[sign .star]], rfl, rfl, by
      simpa using Entry.leaf (t := sign .star) (by decide)⟩
  | i :: is => .bind (listTokens_entries scope (i :: is)) fun tss htss =>
      .pure ⟨tss, rfl, by simp [htss.1], htss.2⟩

/-- One item for each order, with its direction. -/
theorem orderTokens_entries (scope : Scope) : ∀ os : List (Direction × String),
    (orderTokens cores scope os).Ensures M fun tss =>
      tss.length = os.length ∧ ∀ ts ∈ tss, Entry ts
  | [] => .pure ⟨rfl, by simp⟩
  | (d, field) :: os => .bind (scope.column_entry field) fun c hc =>
      .bind (orderTokens_entries scope os) fun tss htss => .pure (by
        have horder : Entry [c, blank, word d.word] :=
          hc.append (Together.leaf (by cases d <;> decide)).blank
        exact ⟨by simp [htss.1], by simpa using ⟨horder, htss.2⟩⟩)

/-- The items of the clause for a number of rows. -/
def countItems (n : UInt64) : List (List Token) := if n = 0 then [] else [[bound (rowCount n)]]

/-- A number of rows is bound, so it is one placeholder. -/
theorem countItems_entry {n : UInt64} : ∀ ts ∈ countItems n, Entry ts := by
  intro ts hts
  unfold countItems at hts
  split at hts
  · simp at hts
  · obtain rfl := List.mem_singleton.mp hts
    exact .leaf rfl

/-- Zero rows are written as no clause at all. -/
theorem countTokens_eq (w : Word) (n : UInt64) : countTokens w n = clauseOf (w, countItems n) := by
  by_cases h : n = 0 <;> simp [countTokens, clauseOf, countItems, commaSeparated, h]

/-! ## Expressions, conditions, sources and statements -/

/-- The number of rows to give; zero for all. -/
def Select.limit : Select → UInt64
  | .mk _ _ _ _ _ _ _ _ n _ => n

/-- The number of rows to skip. -/
def Select.offset : Select → UInt64
  | .mk _ _ _ _ _ _ _ _ _ n => n

/-- The number of items in the clauses between the source and the limit. -/
def Select.middleSizes : Select → List (Word × ℕ)
  | .mk _ _ _ _ filters groupBy having orderBy _ _ =>
    [(.where, min 1 filters.length), (.groupBy, groupBy.length), (.having, min 1 having.length),
      (.orderBy, orderBy.length)]

/-- The number of items in each clause of a select statement, in the order of SQL. -/
def Select.sizes (s : Select) : List (Word × ℕ) :=
  (.select, max 1 s.projection.length) :: (.from, 1) :: (s.middleSizes ++
    [(.limit, (countItems s.limit).length), (.offset, (countItems s.offset).length)])

/-- Clauses with as many items as those of a select statement have. -/
structure Select.Clauses (s : Select) (cs : List (Word × List (List Token))) : Prop where
  sizes : cs.map (fun c => (c.1, c.2.length)) = s.sizes
  items : ∀ c ∈ cs, ∀ ts ∈ c.2, Entry ts
  limit : ∀ c ∈ cs, c.1 = .limit → c.2 = countItems s.limit
  offset : ∀ c ∈ cs, c.1 = .offset → c.2 = countItems s.offset

/-- The text of a select statement: its clauses one after another. The blank before the first one is
left out. -/
def Select.Text (s : Select) (ts : List Token) : Prop :=
  ∃ cs, s.Clauses cs ∧ blank :: ts = cs.flatMap clauseOf

/-- Conditions that are written as one item of a clause, if there are any. -/
def Conditional (w : Word) (ps : List Predicate) (ts : List Token) : Prop :=
  ∃ tss, ts = clauseOf (w, tss) ∧ tss.length = min 1 ps.length ∧ ∀ us ∈ tss, Entry us

/-- The side of a condition is an item as the operand is. -/
theorem Expr.sideTokens_entry {scope : Scope} {e : Expr}
    (h : (e.tokens cores scope).Ensures M Entry) : (e.sideTokens cores scope).Ensures M Entry := by
  rw [Expr.sideTokens_eq]
  refine .bind h fun ts hts => .pure ?_
  cases e with
  | predicate p => exact hts.enclosed
  | _ => exact hts

/-- Clauses stay together in parentheses. -/
theorem Together.clauses : ∀ {cs : List (Word × List (List Token))},
    (∀ c ∈ cs, ∀ ts ∈ c.2, Entry ts) → Together 1 (cs.flatMap RowMapper.clauseOf)
  | [], _ => .nil
  | c :: _, h => (Together.clauseOf (h c (.head _))).append (clauses fun d hd => h d (.tail _ hd))

/-- A select statement stays together where it is nested: its words and commas are in parentheses
there. -/
theorem Select.Text.together {s : Select} {ts : List Token} (h : s.Text ts) : Together 1 ts := by
  obtain ⟨cs, hcs, hts⟩ := h
  intro depth hlow rest
  -- nothing is read from the blank before the first clause
  have hblank := Together.clauses hcs.items depth hlow rest
  rw [← hts] at hblank
  exact hblank

/-- A subquery is in parentheses. -/
theorem Subquery.tokens_entry {s : Select} {alias? : Option String}
    (h : (s.tokens cores).Ensures M s.Text) :
    ((Subquery.mk s alias?).tokens cores).Ensures M Entry :=
  .bind h fun _ hts => .pure (.parenthesized hts.together)

mutual

/-- An expression is one item, whatever statements are nested in it. -/
theorem Expr.tokens_entry (scope : Scope) : ∀ e : Expr, (e.tokens cores scope).Ensures M Entry
  | .column c => c.tokens_entry scope
  | .value _ => .pure (.leaf rfl)
  | .predicate p => p.tokens_entry scope
  | .aggregate a => a.tokens_entry scope
  | .math op left right => .bind (left.tokens_entry scope) fun _ hl =>
      .bind (right.tokens_entry scope) fun _ hr => .pure (.binary (by cases op <;> decide) hl hr)
  | .fragment _ => .pure (.leaf rfl)
  | .subquery (.mk s _) => Subquery.tokens_entry s.tokens_text
  | .quantified q (.mk s _) => .bind (Subquery.tokens_entry s.tokens_text) fun _ hts =>
      .pure (.before (by cases q <;> decide) hts)

/-- A condition is one item: its operators begin no clause, and its lists are in parentheses. -/
theorem Predicate.tokens_entry (scope : Scope) : ∀ p : Predicate,
    (p.tokens cores scope).Ensures M Entry
  | .compare op left right => .bind (Expr.sideTokens_entry (left.tokens_entry scope)) fun _ hl =>
      .bind (Expr.sideTokens_entry (right.tokens_entry scope)) fun _ hr =>
        .pure (.binary (by cases op <;> decide) hl hr)
  | .and p q => .bind (p.tokens_entry scope) fun _ hl => .bind (q.tokens_entry scope) fun _ hr =>
      .pure (.binary (by decide) hl.enclosed hr.enclosed)
  | .or p q => .bind (p.tokens_entry scope) fun _ hl => .bind (q.tokens_entry scope) fun _ hr =>
      .pure (.binary (by decide) hl.enclosed hr.enclosed)
  | .not p => .bind (p.tokens_entry scope) fun _ hts =>
      .pure (.before (by decide) hts.enclosed)
  -- an empty list is refused, so nothing is written for it
  | .inList _ [] => .fail _
  | .inList c (v :: vs) => .bind (c.tokens_entry scope) fun _ hl => .pure (by
      refine .binary (by decide) hl (.parenthesized (.commaSeparated fun ts hts => ?_))
      obtain ⟨v, -, rfl⟩ := List.mem_map.mp hts
      exact .leaf rfl)
  | .inQuery c (.mk s _) => .bind (c.tokens_entry scope) fun _ hl =>
      .bind (Subquery.tokens_entry s.tokens_text) fun _ hr => .pure (.binary (by decide) hl hr)
  | .exists (.mk s _) => .bind (Subquery.tokens_entry s.tokens_text) fun _ hts =>
      .pure (.before (by decide) hts)
  | .fragment _ => .pure (.leaf rfl)

/-- Conditions joined by `AND` are still one item. -/
theorem conjoinedTokens_entry (scope : Scope) : ∀ (ps : List Predicate) (left : List Token),
    Entry left → (conjoinedTokens cores scope left ps).Ensures M Entry
  | [], _, hleft => .pure hleft
  | p :: ps, _, hleft => .bind (p.tokens_entry scope) fun _ hr =>
      conjoinedTokens_entry scope ps _ (.binary (by decide) hleft.enclosed hr.enclosed)

/-- All conditions of a clause are its one item; without conditions, there is no clause. -/
theorem conditionTokens_entries (scope : Scope) (w : Word) : ∀ ps : List Predicate,
    (conditionTokens cores scope w ps).Ensures M (Conditional w ps)
  | [] => .pure ⟨[], rfl, rfl, by simp⟩
  | p :: ps => .bind (p.tokens_entry scope) fun _ hts =>
      .bind (conjoinedTokens_entry scope ps _ hts) fun ts hts =>
        .pure ⟨[ts], rfl, by simp, by simpa using hts⟩

/-- A source is one item. The condition of a join begins with a word of its own, but stands in
parentheses with the join. -/
theorem Source.tokens_entry (scope : Scope) : ∀ s : Source, (s.tokens cores scope).Ensures M Entry
  | .table t => t.tokens_entry scope
  | .joinOn kind left right on => .bind (left.tokens_entry scope) fun _ hl =>
      .bind (right.tokens_entry scope) fun _ hr =>
        .bind (conditionTokens_entries scope .on on) fun _ hon => .pure (by
          obtain ⟨condition, rfl, -, hitems⟩ := hon
          have hjoin := Entry.binary (t := word kind.word) (by cases kind <;> decide) hl hr
          have hcondition := Together.clauseOf (c := (.on, condition)) hitems
          simpa using Entry.parenthesized (hjoin.together.mono.append hcondition))
  | .joinUsing kind left right fields => .bind (left.tokens_entry scope) fun _ hl =>
      .bind (right.tokens_entry scope) fun _ hr =>
        .bind (scope.columns_entries fields) fun cs hcs => .pure (by
          have hjoin := Entry.binary (t := word kind.word) (by cases kind <;> decide) hl hr
          have hshared : Together 1 (if fields.isEmpty then []
              else clause .using (parenthesized (commaSeparated (cs.map ([·]))))) := by
            split
            · exact .nil
            · exact ((Together.word .using).append
                (Together.parenthesized (.commaSeparated hcs.2)).blank).blank
          simpa using Entry.parenthesized (hjoin.together.mono.append hshared))
  | .subquery (.mk s alias?) => .bind s.tokens_text fun _ hts =>
      .pure ((Entry.parenthesized hts.together).append (scope.aliasTokens_together alias?))

theorem sourceTokens_entry (scope : Scope) : ∀ s? : Option Source,
    (sourceTokens cores scope s?).Ensures M Entry
  | none => .pure (.leaf rfl)
  | some s => s.tokens_entry scope

/-- A select statement is written clause by clause. -/
theorem Select.tokens_text : ∀ s : Select, (s.tokens cores).Ensures M s.Text
  | .mk session _ projection source filters groupBy having orderBy limit offset => by
    -- clause by clause, in the order in which they are compiled
    refine .bind .any fun m _ => ?_
    refine .bind (Selectable.projectionTokens_entries ⟨session, m⟩ projection) fun _ hlist => ?_
    refine .bind (sourceTokens_entry ⟨session, m⟩ source) fun rows hrows => ?_
    refine .bind (conditionTokens_entries ⟨session, m⟩ .where filters) fun _ hfilter => ?_
    refine .bind (Scope.columns_entries ⟨session, m⟩ groupBy) fun groups hgroups => ?_
    refine .bind (conditionTokens_entries ⟨session, m⟩ .having having) fun _ hgroupFilter => ?_
    refine .bind (orderTokens_entries ⟨session, m⟩ orderBy) fun orders horders => .pure ?_
    obtain ⟨list, rfl, hlist, hlistItems⟩ := hlist
    obtain ⟨filter, rfl, hfilter, hfilterItems⟩ := hfilter
    obtain ⟨groupFilter, rfl, hgroupFilter, hgroupFilterItems⟩ := hgroupFilter
    refine ⟨[(.select, list), (.from, [rows]), (.where, filter), (.groupBy, groups.map ([·])),
      (.having, groupFilter), (.orderBy, orders), (.limit, countItems limit),
      (.offset, countItems offset)], ⟨?_, ?_, by simp [Select.limit], by simp [Select.offset]⟩, ?_⟩
    -- as many items as the tree has in every clause
    · simp [Select.sizes, Select.middleSizes, Select.projection, Select.limit, Select.offset, hlist,
        hfilter, hgroups.1, hgroupFilter, horders.1]
    · simpa using ⟨hlistItems, hrows, hfilterItems, by simpa using hgroups.2, hgroupFilterItems,
        horders.2, countItems_entry, countItems_entry⟩
    · have hlistOf : clauseOf (.select, list) = clause .select (commaSeparated list) := by
        cases list with
        | nil => rw [List.length_nil] at hlist; omega
        | cons => rfl
      have hrowsOf : clauseOf (.from, [rows]) = clause .from rows := rfl
      have hgroup := clauseOf_of_length .groupBy hgroups.1
      have horder := clauseOf_of_length .orderBy horders.1
      rw [hgroup, horder, countTokens_eq, countTokens_eq]
      simp only [List.flatMap_cons, List.flatMap_nil, List.append_nil, hlistOf, hrowsOf]
      simp only [clause, List.append_assoc, List.cons_append]

end

/-! ## The clauses of a compiled statement -/

/-- A clause that is read was written, with items. -/
theorem mem_clausesOf {cs : List (Word × List (List Token))} {c : Clause} (h : c ∈ clausesOf cs) :
    ∃ tss, (c.word, tss) ∈ cs ∧ tss ≠ [] ∧ c.items = tss.map unspaced := by
  simp only [clausesOf, List.mem_map, List.mem_filter] at h
  obtain ⟨⟨w, tss⟩, ⟨hmem, htss⟩, rfl⟩ := h
  exact ⟨tss, hmem, by simpa using htss, rfl⟩

/-- No clause is read where there are no items, and no item is lost or cut in two. -/
theorem sizes_clausesOf (cs : List (Word × List (List Token))) :
    (clausesOf cs).map (fun c => (c.word, c.items.length)) =
      (cs.map fun c => (c.1, c.2.length)).filter (·.2 ≠ 0) := by
  simp only [clausesOf, List.filter_map, List.map_map, Function.comp_def, List.length_map]
  refine congrArg _ (List.filter_congr fun c _ => ?_)
  cases c.2 <;> rfl

/-- The words of the clauses that a select statement has. -/
theorem Select.Clauses.words {s : Select} {cs : List (Word × List (List Token))}
    (h : s.Clauses cs) :
    ∀ c ∈ cs, c.1 ∈ Word.clauses := by
  intro c hc
  have hword : c.1 ∈ s.sizes.map (·.1) := by
    rw [← h.sizes, List.map_map]
    exact List.mem_map_of_mem hc
  cases s
  exact hword

/-- A text with the clauses of a select statement is read as them. -/
theorem Select.Text.readClauses_eq {s : Select} {ts : List Token} (h : s.Text ts) :
    ∃ cs, s.Clauses cs ∧ readClauses (ts ++ [sign .semicolon]) = some (clausesOf cs) := by
  obtain ⟨cs, hcs, hts⟩ := h
  have hread := readFrom_clauses fun c hc => ⟨hcs.words c hc, hcs.items c hc⟩
  rw [← hts, List.cons_append, readFrom] at hread
  exact ⟨cs, hcs, by rw [readClauses, hread]⟩

/-- A number of rows is bound as it is, up to the greatest integer of 64 bits. -/
theorem rowCount_eq (n : UInt64) : ∃ k : Int64, rowCount n = .integer k ∧
    k.toInt = min (n.toNat : ℤ) 9223372036854775807 ∧ 0 ≤ k.toInt := by
  have hn : (0 : ℤ) ≤ n.toNat := Int.natCast_nonneg _
  have hk := Int64.toInt_ofInt_of_le (n := min (n.toNat : ℤ) 9223372036854775807) (by omega)
    (by omega)
  exact ⟨_, rfl, hk, by omega⟩

/-- The clause has one placeholder and nothing else, with a number of rows bound to it. -/
def Clause.Counts (n : UInt64) (c : Clause) : Prop :=
  ∃ k : Int64, c.items = [[bound (.integer k)]] ∧
    k.toInt = min (n.toNat : ℤ) 9223372036854775807 ∧ 0 ≤ k.toInt

/-- A limit or offset that is written is bound as its one item. -/
theorem Clause.counts_of_items {n : UInt64} {c : Clause} {tss : List (List Token)}
    (htss : tss = countItems n) (hne : tss ≠ []) (hc : c.items = tss.map unspaced) :
    c.Counts n := by
  obtain ⟨k, hk, hmin, hnonneg⟩ := rowCount_eq n
  have hitems : tss = [[bound (rowCount n)]] := by
    rw [htss, countItems] at hne ⊢
    exact if_neg fun h => hne (if_pos h)
  exact ⟨k, by rw [hc, hitems, hk]; rfl, hmin, hnonneg⟩

/-- The words of the clauses that a select statement has: some of those in the middle in their
order, then those of a limit and an offset that are not zero. -/
theorem Select.words_sizes (s : Select) : ∃ middle : List Word,
    middle.Sublist [.where, .groupBy, .having, .orderBy] ∧
    (s.sizes.filter (·.2 ≠ 0)).map (·.1) = .select :: .from :: (middle ++
      ((if s.limit = 0 then [] else [.limit]) ++ if s.offset = 0 then [] else [.offset])) := by
  have hcount (n : UInt64) : (countItems n).length = 0 ↔ n = 0 := by
    by_cases h : n = 0 <;> simp [countItems, h]
  have hlist : max 1 s.projection.length ≠ 0 := by omega
  refine ⟨(s.middleSizes.filter (·.2 ≠ 0)).map (·.1), ?_, ?_⟩
  · have hsub := (List.filter_sublist (p := (·.2 ≠ 0)) (l := s.middleSizes)).map (·.1)
    cases s
    exact hsub
  · by_cases hl : s.limit = 0 <;> by_cases ho : s.offset = 0 <;>
      simp [Select.sizes, hcount, hl, ho, hlist]

/-- The clauses of a select statement follow the grammar unless it has an offset alone. -/
theorem Select.grammatical_sizes (s : Select) :
    Grammatical ((s.sizes.filter (·.2 ≠ 0)).map (·.1)) ↔ s.offset = 0 ∨ s.limit ≠ 0 := by
  obtain ⟨middle, hmiddle, hwords⟩ := s.words_sizes
  rw [hwords]
  constructor
  · intro h
    by_contra hboth
    obtain ⟨hoffset, hlimit⟩ : s.offset ≠ 0 ∧ s.limit = 0 := by simpa using hboth
    -- the grammar asks for a limit before the offset, and none is among the clauses
    have hnone : .limit ∉ middle := fun hmem => by simpa using hmiddle.subset hmem
    have hmem := h.limit_mem (by simp [hoffset])
    simp [hlimit, hoffset, hnone] at hmem
  · intro h
    refine ⟨middle, _, rfl, hmiddle, ?_⟩
    by_cases hl : s.limit = 0 <;> by_cases ho : s.offset = 0 <;> simp_all

/-- Select statements and the grammar of SQL. The text of every select statement that compiles is
read as the clauses that the statement has, in SQL's order. Each has as many items as there are in
the tree, none is without items, and no item is empty. A limit and an offset are one placeholder
each, bound to the number of rows up to the greatest integer of 64 bits. The clauses follow the
grammar exactly if the statement has no offset or has a limit: an offset alone is written too, and
then no limit stands before it. -/
theorem Select.clauses_read (cores : Cores) (s : Select) (q : Query)
    (h : ((Statement.select s).compile cores).result = .ok q) :
    ∃ ts clauses, ((Statement.select s).tokens cores).result = .ok ts ∧ q = Query.ofTokens ts ∧
      readClauses ts = some clauses ∧
      clauses.map (fun c => (c.word, c.items.length)) = s.sizes.filter (·.2 ≠ 0) ∧
      (∀ c ∈ clauses, c.items ≠ [] ∧ ∀ item ∈ c.items, item ≠ []) ∧
      (∀ c ∈ clauses, (c.word = .limit → c.Counts s.limit) ∧
        (c.word = .offset → c.Counts s.offset)) ∧
      (Grammatical (clauses.map (·.word)) ↔ s.offset = 0 ∨ s.limit ≠ 0) := by
  rw [Statement.compile, Compiled.result_bind] at h
  obtain ⟨ts, hts, hq⟩ := Results.bind_eq_ok.mp h
  have hstatement := hts
  rw [Statement.tokens, Compiled.result_bind] at hstatement
  obtain ⟨body, hbody, heq⟩ := Results.bind_eq_ok.mp hstatement
  obtain rfl := Except.ok.inj heq
  have htext : s.Text body := s.tokens_text (M := fun _ => True) (fun _ _ => trivial) body hbody
  obtain ⟨cs, hcs, hread⟩ := htext.readClauses_eq
  have hsizes := (sizes_clausesOf cs).trans (congrArg (List.filter (·.2 ≠ 0)) hcs.sizes)
  refine ⟨_, clausesOf cs, hts, (Except.ok.inj hq).symm, hread, hsizes, ?_, ?_, ?_⟩
  · intro c hc
    obtain ⟨tss, hmem, hne, hitems⟩ := mem_clausesOf hc
    rw [hitems]
    refine ⟨by simpa using hne, fun item hitem => ?_⟩
    obtain ⟨us, hus, rfl⟩ := List.mem_map.mp hitem
    exact (hcs.items _ hmem us hus).written
  · intro c hc
    obtain ⟨tss, hmem, hne, hitems⟩ := mem_clausesOf hc
    exact ⟨fun hword => Clause.counts_of_items (hcs.limit _ hmem hword) hne hitems,
      fun hword => Clause.counts_of_items (hcs.offset _ hmem hword) hne hitems⟩
  · rw [← s.grammatical_sizes, ← hsizes, List.map_map]
    rfl

/-- The owners of accounts with large transfers, the greatest first, a page of five from the tenth
on. -/
def largestOwners : Select :=
  .mk "db" account [.column (.own "owner"), .aggregate ⟨.sum, "balance", some "total"⟩] none
    [.inQuery (.own "id") largeAmounts] ["owner", "id"]
    [.compare .gt (.aggregate ⟨.sum, "balance", none⟩) (.value (.integer 0))]
    [(.descending, "owner")] 5 10

/-- A page with everything around it is read clause by clause, and what the subquery limits is not
mistaken for its own limit. -/
theorem Select.clauses_read_largestOwners :
    ∃ q ts clauses, ((Statement.select largestOwners).compile fun _ => .default).result = .ok q ∧
      q = Query.ofTokens ts ∧ readClauses ts = some clauses ∧
      clauses.map (fun c => (c.word, c.items.length)) = [(.select, 2), (.from, 1), (.where, 1),
        (.groupBy, 2), (.having, 1), (.orderBy, 1), (.limit, 1), (.offset, 1)] ∧
      Grammatical (clauses.map (·.word)) := by
  obtain ⟨ts, clauses, -, hq, hread, hsizes, -, -, hgrammar⟩ :=
    clauses_read (fun _ => .default) largestOwners _ rfl
  exact ⟨_, ts, clauses, rfl, hq, hread, hsizes, hgrammar.mpr (.inr (by decide))⟩

/-- All accounts from the sixth on. -/
def laterAccounts : Select := (Select.all "db" account).offsetBy 5

/-- An offset without a limit is written, and stands where the grammar has no place for it. -/
theorem Select.offset_without_limit :
    ((Statement.select laterAccounts).compile fun _ => .default).result =
        .ok ⟨"SELECT * FROM \x60account\x60 OFFSET ?;", [.integer 5]⟩ ∧
      ∃ ts clauses, ((Statement.select laterAccounts).tokens fun _ => .default).result = .ok ts ∧
        readClauses ts = some clauses ∧ ¬Grammatical (clauses.map (·.word)) := by
  refine ⟨by decide, _, _, rfl, rfl, fun h => ?_⟩
  have hlimit := h.limit_mem (by decide)
  exact absurd hlimit (by decide)

end RowMapper
