import Mathlib.Data.Nat.Notation
import RowMapper.Proofs.Compile.Lexing

/-!
# A reader of conditions

`readCondition` reads lexemes as a condition by the precedence of SQL. `OR` binds least, then `AND`,
`NOT`, comparisons and `IN`, sums and differences, and products bind most. Operators of one level go
from the left. A statement in parentheses is read as a whole: it ends at the parenthesis that closes
it.

The reader knows nothing of the compiler. It is the usual one for a table of precedences: an
operand, then as many operators as bind at least as much as the level it was called with. Its fuel
is the number of lexemes and never runs out, as every step takes one.

`Reads n ls t` says that the lexemes `ls` are the text of the tree `t` at level `n`, in any context
that leaves them together. There is one rule for each way to write a condition, and the rules
compose (`Reads.between`, `Reads.not`, `Reads.group`, ...).
-/

namespace RowMapper

/-- A condition or an operand as it is read: columns with their qualifiers, the values of
placeholders, and the lexemes of nested statements. -/
inductive Term where
  | column (qualifier? : Option String) (name : String)
  | value (v : Value)
  | aggregate (f : AggregateFunction) (column : String)
  | query (statement : List Lexeme)
  | quantified (q : Quantifier) (statement : List Lexeme)
  | math (op : Arithmetic) (left right : Term)
  | compare (op : Comparison) (left right : Term)
  | and (left right : Term)
  | or (left right : Term)
  | not (t : Term)
  | inList (t : Term) (values : List Value)
  | inQuery (t : Term) (statement : List Lexeme)
  | exists (statement : List Lexeme)

/-- The operators that stand between two operands. -/
inductive Infix where
  | or
  | and
  | compare (op : Comparison)
  | math (op : Arithmetic)
  deriving DecidableEq

/-- How much an operation of arithmetic binds. -/
def Arithmetic.level : Arithmetic → ℕ
  | add => 5
  | sub => 5
  | mul => 6

namespace Infix

/-- How much an operator binds. `NOT` stands between `AND` and the comparisons at level 3. -/
def level : Infix → ℕ
  | or => 1
  | and => 2
  | compare _ => 4
  | math op => op.level

/-- The tree of an operator with its operands. -/
def apply : Infix → Term → Term → Term
  | or => .or
  | and => .and
  | compare op => .compare op
  | math op => .math op

/-- The operator that a lexeme is. -/
def ofLexeme? : Lexeme → Option Infix
  | .word s => if s = "OR" then some or else if s = "AND" then some and else none
  | .sign .eq => some (compare .eq)
  | .sign .ne => some (compare .ne)
  | .sign .lt => some (compare .lt)
  | .sign .le => some (compare .le)
  | .sign .gt => some (compare .gt)
  | .sign .ge => some (compare .ge)
  | .sign .plus => some (math .add)
  | .sign .minus => some (math .sub)
  | .sign .star => some (math .mul)
  | _ => none

end Infix

/-- The quantifier that a word is. -/
def Quantifier.ofWord? (s : String) : Option Quantifier :=
  [any, all, some].find? fun q => q.word.text = s

/-- The function that a word is. -/
def AggregateFunction.ofWord? (s : String) : Option AggregateFunction :=
  [avg, max, min, count, sum].find? fun f => f.word.text = s

/-- The lexemes up to the parenthesis that closes the current one, and those after it. The number
counts the parentheses that were opened in between. -/
def nested : ℕ → List Lexeme → Option (List Lexeme × List Lexeme)
  | _, [] => none
  | 0, .sign .closeParen :: ls => some ([], ls)
  | depth + 1, .sign .closeParen :: ls =>
    (nested depth ls).map fun (inside, ls) => (.sign .closeParen :: inside, ls)
  | depth, .sign .openParen :: ls =>
    (nested (depth + 1) ls).map fun (inside, ls) => (.sign .openParen :: inside, ls)
  | depth, l :: ls => (nested depth ls).map fun (inside, ls) => (l :: inside, ls)

/-- Reads a statement after the parenthesis before it. -/
def readQuery (ls : List Lexeme) : Option (List Lexeme × List Lexeme) :=
  if ls.head? = some (.word "SELECT") then nested 0 ls else none

/-- Reads values with commas between them, up to a parenthesis. -/
def readValues : List Lexeme → Option (List Value × List Lexeme)
  | .value v :: .sign .comma :: ls => (readValues ls).map fun (vs, ls) => (v :: vs, ls)
  | .value v :: .sign .closeParen :: ls => some ([v], ls)
  | _ => none

/-- Reads what follows `IN`. -/
def readIn (t : Term) : List Lexeme → Option (Term × List Lexeme)
  | .sign .openParen :: ls => match readQuery ls with
    | some (statement, ls) => some (.inQuery t statement, ls)
    | none => (readValues ls).map fun (vs, ls) => (.inList t vs, ls)
  | _ => none

/-- Reads the column that a function is applied to, and the parenthesis after it. -/
def readArgument (f : AggregateFunction) : List Lexeme → Option (Term × List Lexeme)
  | .name column :: .sign .closeParen :: ls => some (.aggregate f column, ls)
  | _ => none

/-- Reads what stands in parentheses after a word. -/
def readCall (s : String) : List Lexeme → Option (Term × List Lexeme)
  | .sign .openParen :: ls =>
    if s = "EXISTS" then (readQuery ls).map fun (statement, ls) => (.exists statement, ls)
    else match Quantifier.ofWord? s with
      | some q => (readQuery ls).map fun (statement, ls) => (.quantified q statement, ls)
      | none => (AggregateFunction.ofWord? s).bind fun f => readArgument f ls
  | _ => none

/-- Reads an operand, with a reader for what stands inside of it. -/
def readOperand (read : ℕ → List Lexeme → Option (Term × List Lexeme)) :
    List Lexeme → Option (Term × List Lexeme)
  | .value v :: ls => some (.value v, ls)
  | .name q :: .sign .dot :: .name column :: ls => some (.column (some q) column, ls)
  | .name column :: ls => some (.column none column, ls)
  | .sign .openParen :: ls =>
    if ls.head? = some (.word "SELECT") then
      (readQuery ls).map fun (statement, ls) => (.query statement, ls)
    else match read 0 ls with
      | some (t, .sign .closeParen :: ls) => some (t, ls)
      | _ => none
  | .word s :: ls =>
    if s = "NOT" then (read 3 ls).map fun (t, ls) => (.not t, ls) else readCall s ls
  | _ => none

mutual

/-- Reads an operand, and operators that bind at least as much as a level. -/
def read : ℕ → ℕ → List Lexeme → Option (Term × List Lexeme)
  | 0, _, _ => none
  | fuel + 1, level, ls =>
    (readOperand (read fuel) ls).bind fun (t, ls) => readOn fuel level t ls

/-- Reads operators that bind at least as much as a level, after their first operand. -/
def readOn : ℕ → ℕ → Term → List Lexeme → Option (Term × List Lexeme)
  | 0, _, _, _ => none
  | _ + 1, _, t, [] => some (t, [])
  | fuel + 1, level, t, l :: ls =>
    if l = .word "IN" then
      if level ≤ 4 then (readIn t ls).bind fun (t, ls) => readOn fuel level t ls
      else some (t, l :: ls)
    else match Infix.ofLexeme? l with
      | none => some (t, l :: ls)
      | some op =>
        if level ≤ op.level then
          (read fuel (op.level + 1) ls).bind fun (u, ls) => readOn fuel level (op.apply t u) ls
        else some (t, l :: ls)

end

/-- Reads lexemes as one condition. -/
def readCondition (ls : List Lexeme) : Option Term :=
  match read (ls.length + 1) 0 ls with
  | some (t, []) => some t
  | _ => none

/-- A text in parentheses and what follows it, as it is read. -/
theorem enclosed_append (ls rest : List Lexeme) :
    .sign .openParen :: (ls ++ [.sign .closeParen]) ++ rest =
      .sign .openParen :: (ls ++ .sign .closeParen :: rest) := by
  simp

/-! ## What leaves a text together -/

/-- Lexemes that take nothing away from a text of level `n` before them: they begin with no dot and
with no operator that binds more. -/
def Follows (n : ℕ) (rest : List Lexeme) : Prop :=
  ∀ l ∈ rest.head?, l ≠ .sign .dot ∧ (l = .word "IN" → 4 ≤ n) ∧
    ∀ op, Infix.ofLexeme? l = some op → op.level ≤ n

/-- The lexemes of a text of level `n`, with its tree. Reading them in a context that leaves them
together gives the tree, as the operand of what follows. -/
structure Reads (n : ℕ) (ls : List Lexeme) (t : Term) : Prop where
  head : ∃ l tail, ls = l :: tail ∧ l ≠ .word "SELECT"
  read : ∀ {fuel level rest}, level ≤ n → Follows n rest → (ls ++ rest).length < fuel →
    ∃ fuel', rest.length < fuel' ∧ read fuel level (ls ++ rest) = readOn fuel' level t rest

theorem Follows.mono {m n : ℕ} {rest : List Lexeme} (h : Follows m rest) (hmn : m ≤ n) :
    Follows n rest := by
  intro l hl
  obtain ⟨hdot, hin, hop⟩ := h l hl
  exact ⟨hdot, fun heq => Nat.le_trans (hin heq) hmn, fun op hl => Nat.le_trans (hop op hl) hmn⟩

theorem follows_nil (n : ℕ) : Follows n [] := by simp [Follows]

theorem follows_closeParen (n : ℕ) (rest : List Lexeme) :
    Follows n (.sign .closeParen :: rest) := by
  intro l hl
  obtain rfl : .sign .closeParen = l := by simpa using hl
  exact ⟨by simp, by simp, by simp [Infix.ofLexeme?]⟩

/-- Reading stops before lexemes that bind less than the level. -/
theorem readOn_of_follows {n fuel level : ℕ} {t : Term} {rest : List Lexeme} (h : Follows n rest)
    (hlevel : n < level) (hfuel : rest.length < fuel) :
    readOn fuel level t rest = some (t, rest) := by
  obtain ⟨fuel, rfl⟩ := Nat.exists_eq_add_one.mpr (Nat.zero_lt_of_lt hfuel)
  cases rest with
  | nil => rw [readOn]
  | cons l ls =>
    obtain ⟨-, hin, hop⟩ := h l rfl
    rw [readOn]
    split
    · next heq =>
      have := hin heq
      rw [if_neg (by omega)]
    · split
      · rfl
      · next op heq =>
        have := hop op heq
        rw [if_neg (by omega)]

namespace Reads

/-- The whole of a text is read as its tree. -/
theorem readCondition_eq {n : ℕ} {ls : List Lexeme} {t : Term} (h : Reads n ls t) :
    readCondition ls = some t := by
  have hlength : (ls ++ []).length < ls.length + 1 := by simp
  obtain ⟨fuel, hfuel, hread⟩ := h.read (Nat.zero_le n) (follows_nil n) hlength
  obtain ⟨fuel, rfl⟩ := Nat.exists_eq_add_one.mpr (Nat.zero_lt_of_lt hfuel)
  rw [List.append_nil, readOn] at hread
  rw [readCondition, hread]

/-- A text is read up to lexemes that bind less than the level of the reader. -/
theorem read_eq {n level fuel : ℕ} {ls rest : List Lexeme} {t : Term} (h : Reads n ls t)
    (hlevel : level ≤ n) {m : ℕ} (hrest : Follows m rest) (hmn : m ≤ n) (hm : m < level)
    (hfuel : (ls ++ rest).length < fuel) :
    RowMapper.read fuel level (ls ++ rest) = some (t, rest) := by
  obtain ⟨fuel', hfuel', hread⟩ := h.read hlevel (hrest.mono hmn) hfuel
  rw [hread, readOn_of_follows hrest hm hfuel']

/-- What is read as an operand, whatever the reader of its inside does. -/
theorem operand {ls : List Lexeme} {t : Term}
    (hhead : ∃ l tail, ls = l :: tail ∧ l ≠ .word "SELECT")
    (h : ∀ read rest, Follows 7 rest → readOperand read (ls ++ rest) = some (t, rest)) :
    Reads 7 ls t where
  head := hhead
  read {fuel level rest} _ hrest hfuel := by
    obtain ⟨fuel, rfl⟩ := Nat.exists_eq_add_one.mpr (Nat.zero_lt_of_lt hfuel)
    obtain ⟨l, tail, rfl, -⟩ := hhead
    refine ⟨fuel, ?_, ?_⟩
    · rw [List.length_append, List.length_cons] at hfuel
      omega
    · rw [RowMapper.read, h _ _ hrest]
      rfl

theorem value (v : Value) : Reads 7 [.value v] (.value v) :=
  operand ⟨_, _, rfl, by simp⟩ fun _ _ _ => rfl

theorem column (name : String) : Reads 7 [.name name] (.column none name) := by
  refine operand ⟨_, _, rfl, by simp⟩ fun read rest hrest => ?_
  cases rest with
  | nil => rfl
  | cons l ls =>
    obtain ⟨hdot, -, -⟩ := hrest l rfl
    rw [List.singleton_append, readOperand]
    rintro column ls' heq
    exact hdot (List.cons.inj heq).1

theorem qualifiedColumn (qualifier name : String) :
    Reads 7 [.name qualifier, .sign .dot, .name name] (.column (some qualifier) name) :=
  operand ⟨_, _, rfl, by simp⟩ fun _ _ _ => rfl

theorem aggregate (f : AggregateFunction) (name : String) :
    Reads 7 [.word f.word.text, .sign .openParen, .name name, .sign .closeParen]
      (.aggregate f name) := by
  refine operand ⟨_, _, rfl, by cases f <;> decide⟩ fun _ _ _ => ?_
  cases f <;> rfl

/-- Two texts with an operator between them. The left one may have operators of the same level, the
right one may not. -/
theorem between {m n : ℕ} {l r : List Lexeme} {t u : Term} {sep : Lexeme} {op : Infix}
    (hsep : Infix.ofLexeme? sep = some op) (hl : Reads m l t) (hr : Reads n r u)
    (hm : op.level ≤ m) (hn : op.level < n) : Reads op.level (l ++ sep :: r) (op.apply t u) where
  head := by
    obtain ⟨first, tail, rfl, hfirst⟩ := hl.head
    exact ⟨first, tail ++ sep :: r, rfl, hfirst⟩
  read {fuel level rest} hlevel hrest hfuel := by
    have hin : sep ≠ .word "IN" := by
      rintro rfl
      simp [Infix.ofLexeme?] at hsep
    have hdot : sep ≠ .sign .dot := by
      rintro rfl
      simp [Infix.ofLexeme?] at hsep
    have hfollows : Follows m (sep :: (r ++ rest)) := by
      intro x hx
      obtain rfl : sep = x := by simpa using hx
      refine ⟨hdot, fun heq => absurd heq hin, fun op' hop' => ?_⟩
      obtain rfl : op = op' := by simpa [hsep] using hop'
      exact hm
    have hcut : (l ++ sep :: r) ++ rest = l ++ sep :: (r ++ rest) := by simp
    rw [hcut] at hfuel ⊢
    -- the left text is read as if the operator and the right text merely followed it
    obtain ⟨fuel₁, hfuel₁, hread⟩ := hl.read (Nat.le_trans hlevel hm) hfollows hfuel
    obtain ⟨fuel₁, rfl⟩ := Nat.exists_eq_add_one.mpr (Nat.zero_lt_of_lt hfuel₁)
    have hfuel₂ : (r ++ rest).length < fuel₁ := by
      rw [List.length_cons] at hfuel₁
      omega
    -- the right text is read one level up, so an operator of this level in `rest` stays outside
    have hright := hr.read_eq hn hrest (by omega) (Nat.lt_succ_self _) hfuel₂
    refine ⟨fuel₁, by rw [List.length_append] at hfuel₂; omega, ?_⟩
    rw [hread, readOn, if_neg hin, hsep]
    simp only [if_pos hlevel, hright, Option.bind_some]

/-- A negated text. -/
theorem not {n : ℕ} {ls : List Lexeme} {t : Term} (h : Reads n ls t) (hn : 3 ≤ n) :
    Reads 3 (.word "NOT" :: ls) (.not t) where
  head := ⟨_, _, rfl, by simp⟩
  read {fuel level rest} hlevel hrest hfuel := by
    obtain ⟨fuel, rfl⟩ := Nat.exists_eq_add_one.mpr (Nat.zero_lt_of_lt hfuel)
    have hfuel' : (ls ++ rest).length < fuel := by
      rw [List.cons_append, List.length_cons] at hfuel
      omega
    -- no operator has level 3, so what may follow a negation stops the reading at that level
    have hbelow : Follows 2 rest := by
      intro l hl
      obtain ⟨hdot, hin, hop⟩ := hrest l hl
      refine ⟨hdot, fun heq => absurd (hin heq) (by omega), fun op heq => ?_⟩
      have := hop op heq
      cases op with
      | math op => cases op <;> simp [Infix.level, Arithmetic.level] at this
      | compare op => simp [Infix.level] at this
      | _ => simp [Infix.level]
    have hinside := h.read_eq hn hbelow (by omega) (by omega) hfuel'
    refine ⟨fuel, by rw [List.length_append] at hfuel'; omega, ?_⟩
    rw [List.cons_append, RowMapper.read, readOperand, if_pos rfl, hinside]
    rfl

example : readCondition [.name "a", .sign .eq, .name "b", .word "OR", .word "NOT", .name "c",
    .word "AND", .name "d"] = some (.or (.compare .eq (.column none "a") (.column none "b"))
      (.and (.not (.column none "c")) (.column none "d"))) := by
  rfl

/-- A text in parentheses. -/
theorem group {n : ℕ} {ls : List Lexeme} {t : Term} (h : Reads n ls t) :
    Reads 7 (.sign .openParen :: (ls ++ [.sign .closeParen])) t where
  head := ⟨_, _, rfl, by simp⟩
  read {fuel level rest} _ hrest hfuel := by
    obtain ⟨fuel, rfl⟩ := Nat.exists_eq_add_one.mpr (Nat.zero_lt_of_lt hfuel)
    rw [enclosed_append] at hfuel ⊢
    have hfuel' : (ls ++ .sign .closeParen :: rest).length < fuel := by
      rw [List.length_cons] at hfuel
      omega
    obtain ⟨first, tail, rfl, hfirst⟩ := h.head
    obtain ⟨fuel₁, hfuel₁, hinside⟩ := h.read (Nat.zero_le n) (follows_closeParen n rest) hfuel'
    obtain ⟨fuel₁, rfl⟩ := Nat.exists_eq_add_one.mpr (Nat.zero_lt_of_lt hfuel₁)
    have hselect : (first :: tail ++ .sign .closeParen :: rest).head? ≠ some (.word "SELECT") := by
      simpa using hfirst
    -- at level 0 no operator ends the reading inside, only the parenthesis does
    have hclose : readOn (fuel₁ + 1) 0 t (.sign .closeParen :: rest) =
        some (t, .sign .closeParen :: rest) := rfl
    rw [hclose] at hinside
    refine ⟨fuel, ?_, ?_⟩
    · rw [List.length_append, List.length_cons, List.length_cons] at hfuel'
      omega
    · rw [RowMapper.read, readOperand, if_neg hselect, hinside]
      rfl

/-- What follows a text and `IN` makes a test of membership. -/
theorem membership {m : ℕ} {l r : List Lexeme} {t u : Term} (hl : Reads m l t) (hm : 4 ≤ m)
    (hr : ∀ rest, readIn t (r ++ rest) = some (u, rest)) :
    Reads 4 (l ++ .word "IN" :: r) u where
  head := by
    obtain ⟨first, tail, rfl, hfirst⟩ := hl.head
    exact ⟨first, tail ++ .word "IN" :: r, rfl, hfirst⟩
  read {fuel level rest} hlevel hrest hfuel := by
    have hfollows : Follows m (.word "IN" :: (r ++ rest)) := by
      intro x hx
      obtain rfl : .word "IN" = x := by simpa using hx
      exact ⟨by simp, fun _ => hm, by simp [Infix.ofLexeme?]⟩
    have hcut : (l ++ .word "IN" :: r) ++ rest = l ++ .word "IN" :: (r ++ rest) := by simp
    rw [hcut] at hfuel ⊢
    obtain ⟨fuel₁, hfuel₁, hread⟩ := hl.read (Nat.le_trans hlevel hm) hfollows hfuel
    obtain ⟨fuel₁, rfl⟩ := Nat.exists_eq_add_one.mpr (Nat.zero_lt_of_lt hfuel₁)
    rw [List.length_cons, List.length_append] at hfuel₁
    refine ⟨fuel₁, by omega, ?_⟩
    rw [hread, readOn, if_pos rfl, if_pos hlevel, hr, Option.bind_some]

end Reads

/-! ## Nested statements -/

/-- A token whose lexemes are no parentheses. -/
def Token.Unnested (t : Token) : Prop :=
  ∀ l ∈ t.lexemes, l ≠ .sign .openParen ∧ l ≠ .sign .closeParen

theorem lexemes_parenthesized (ts : List Token) : (parenthesized ts).flatMap Token.lexemes =
    .sign .openParen :: (ts.flatMap Token.lexemes ++ [.sign .closeParen]) := by
  simp [parenthesized, Token.lexemes]

/-- A text that is passed over as a part of a nested statement. -/
def PassedOver (ls : List Lexeme) : Prop :=
  ∀ depth rest, nested depth (ls ++ rest) = (nested depth rest).map fun p => (ls ++ p.1, p.2)

namespace PassedOver

theorem ofForall {ls : List Lexeme}
    (h : ∀ l ∈ ls, l ≠ .sign .openParen ∧ l ≠ .sign .closeParen) : PassedOver ls := by
  intro depth rest
  induction ls with
  | nil => simp
  | cons l ls ih =>
    obtain ⟨hopen, hclose⟩ := h l (by simp)
    rw [List.cons_append, nested, ih fun x hx => h x (by simp [hx]), Option.map_map]
    · rfl
    · exact hopen
    · exact fun _ => hclose
    · exact fun _ _ => hclose

theorem append {ls ls' : List Lexeme} (h : PassedOver ls) (h' : PassedOver ls') :
    PassedOver (ls ++ ls') := by
  intro depth rest
  rw [List.append_assoc, h, h', Option.map_map]
  simp [Function.comp_def]

theorem parenthesized {ls : List Lexeme} (h : PassedOver ls) :
    PassedOver (.sign .openParen :: (ls ++ [.sign .closeParen])) := by
  intro depth rest
  rw [enclosed_append, nested, h, nested, Option.map_map, Option.map_map]
  simp [Function.comp_def]

/-- A text that is passed over ends at the parenthesis after it. -/
theorem nested_eq {ls : List Lexeme} (h : PassedOver ls) (rest : List Lexeme) :
    nested 0 (ls ++ .sign .closeParen :: rest) = some (ls, rest) := by
  rw [h, nested]
  simp

end PassedOver

/-- The parentheses of a phrase close in order. -/
theorem Phrase.passedOver {ts : List Token} (h : Phrase Token.Unnested ts) :
    PassedOver (ts.flatMap Token.lexemes) := by
  induction h with
  | nil => exact .ofForall (by simp)
  | leaf ht => exact .ofForall (by simpa [Token.Unnested] using ht)
  | group _ ih =>
    rw [lexemes_parenthesized]
    exact ih.parenthesized
  | call _ _ iht ihu =>
    rw [List.flatMap_append, lexemes_parenthesized]
    exact iht.append ihu.parenthesized
  | separated hs _ _ iht ihu =>
    rw [List.flatMap_append, List.flatMap_cons]
    refine iht.append (.append (.ofForall ?_) ihu)
    rcases Sign.mem_separators.mp hs with rfl | rfl | rfl <;> simp [Token.lexemes]
  | assigned hname _ ih =>
    rw [List.flatMap_cons, List.flatMap_cons]
    exact .append (.ofForall hname) (.append (.ofForall (by simp [Token.lexemes])) ih)

namespace Reads

variable {statement : List Lexeme} (hpassed : PassedOver statement)
  (hselect : statement.head? = some (.word "SELECT"))
include hpassed hselect

theorem readQuery_eq (rest : List Lexeme) :
    readQuery (statement ++ .sign .closeParen :: rest) = some (statement, rest) := by
  have hhead : (statement ++ .sign .closeParen :: rest).head? = some (.word "SELECT") := by
    rw [List.head?_append, hselect]
    rfl
  rw [readQuery, if_pos hhead, hpassed.nested_eq]

/-- A statement in parentheses. -/
theorem query :
    Reads 7 (.sign .openParen :: (statement ++ [.sign .closeParen])) (.query statement) := by
  refine operand ⟨_, _, rfl, by simp⟩ fun read rest _ => ?_
  have hhead : (statement ++ .sign .closeParen :: rest).head? = some (.word "SELECT") := by
    rw [List.head?_append, hselect]
    rfl
  rw [enclosed_append, readOperand, if_pos hhead, readQuery_eq hpassed hselect]
  rfl

/-- A quantified statement. -/
theorem quantified (q : Quantifier) :
    Reads 7 (.word q.word.text :: .sign .openParen :: (statement ++ [.sign .closeParen]))
      (.quantified q statement) := by
  refine operand ⟨_, _, rfl, by cases q <;> decide⟩ fun read rest _ => ?_
  have hnot : q.word.text ≠ "NOT" := by cases q <;> decide
  have hexists : q.word.text ≠ "EXISTS" := by cases q <;> decide
  have hword : Quantifier.ofWord? q.word.text = some q := by cases q <;> rfl
  rw [List.cons_append, enclosed_append, readOperand, if_neg hnot, readCall, if_neg hexists, hword]
  simp only [readQuery_eq hpassed hselect]
  rfl

/-- A test whether a statement has rows. -/
theorem existence :
    Reads 7 (.word "EXISTS" :: .sign .openParen :: (statement ++ [.sign .closeParen]))
      (.exists statement) := by
  refine operand ⟨_, _, rfl, by simp⟩ fun read rest _ => ?_
  rw [List.cons_append, enclosed_append, readOperand, if_neg (by decide), readCall, if_pos rfl,
    readQuery_eq hpassed hselect]
  rfl

/-- Membership in the rows of a statement. -/
theorem inQuery {m : ℕ} {l : List Lexeme} {t : Term} (hl : Reads m l t) (hm : 4 ≤ m) :
    Reads 4 (l ++ .word "IN" :: .sign .openParen :: (statement ++ [.sign .closeParen]))
      (.inQuery t statement) := by
  refine hl.membership hm fun rest => ?_
  rw [enclosed_append, readIn, readQuery_eq hpassed hselect]

end Reads

/-! ## Lists of values -/

/-- The lexemes of values with commas between them. -/
def valueLexemes (vs : List Value) : List Lexeme :=
  (commaSeparated (vs.map fun v => [.bound v])).flatMap Token.lexemes

theorem readValues_eq (rest : List Lexeme) : ∀ {vs : List Value}, vs ≠ [] →
    readValues (valueLexemes vs ++ .sign .closeParen :: rest) = some (vs, rest)
  | [], h => absurd rfl h
  | [v], _ => rfl
  | v :: w :: vs, _ => by
    have hcut : valueLexemes (v :: w :: vs) ++ .sign .closeParen :: rest =
        .value v :: .sign .comma :: (valueLexemes (w :: vs) ++ .sign .closeParen :: rest) := by
      simp [valueLexemes, commaSeparated, Token.lexemes]
    rw [hcut, readValues, readValues_eq rest (by simp)]
    rfl

/-- Membership in a list of values. -/
theorem Reads.inList {m : ℕ} {l : List Lexeme} {t : Term} (hl : Reads m l t) (hm : 4 ≤ m)
    {vs : List Value} (hvs : vs ≠ []) :
    Reads 4 (l ++ .word "IN" :: .sign .openParen :: (valueLexemes vs ++ [.sign .closeParen]))
      (.inList t vs) := by
  refine hl.membership hm fun rest => ?_
  have hhead : (valueLexemes vs ++ .sign .closeParen :: rest).head? ≠ some (.word "SELECT") := by
    match vs with
    | [] => exact absurd rfl hvs
    | [v] => simp [valueLexemes, commaSeparated, Token.lexemes]
    | v :: w :: vs => simp [valueLexemes, commaSeparated, Token.lexemes]
  have hquery : readQuery (valueLexemes vs ++ .sign .closeParen :: rest) = none := if_neg hhead
  rw [enclosed_append, readIn, hquery]
  simp only [readValues_eq rest hvs]
  rfl

end RowMapper
