import RowMapper.Compile.Statement

/-!
# How compiled texts are put together

`Phrase P ts` says that a text consists of tokens with `P`, and that the compiler put them together
in one of a few ways: in parentheses, in parentheses right after another text, with a blank, comma
or dot between two texts, or as an assignment. So two words never stand side by side, and the
parentheses of a phrase close in order. A `Tail` is what may follow any phrase: a clause, an alias,
or nothing.

Most facts about the text of a statement are an induction on its phrase with a suitable `P`.
-/

namespace RowMapper

open Token (word sign)

/-- The characters of a text. -/
def Token.chars (ts : List Token) : List Char := ts.flatMap fun t => t.text.toList

theorem Token.chars_append (ts us : List Token) : chars (ts ++ us) = chars ts ++ chars us :=
  List.flatMap_append

theorem Token.chars_cons (t : Token) (ts : List Token) :
    chars (t :: ts) = t.text.toList ++ chars ts := rfl

/-- Parentheses are two more characters. -/
theorem Token.chars_parenthesized (ts : List Token) :
    chars (parenthesized ts) = '(' :: (chars ts ++ [')']) := by
  rw [parenthesized, chars_cons, chars_append]
  rfl

/-- A name stands between two quotes, as it is. -/
theorem Token.toList_text_name (quote : Char) (s : String) :
    (name quote s).text.toList = quote :: (s.toList ++ [quote]) := by
  simp [text, Char.toString]

/-- The commas of a list have no arguments. -/
theorem Token.args_commaSeparated : ∀ tss : List (List Token),
    (commaSeparated tss).flatMap args = tss.flatMap (·.flatMap args)
  | [] => rfl
  | [ts] => by simp [commaSeparated]
  | ts :: us :: rest => by
    have hrest := args_commaSeparated (us :: rest)
    show (ts ++ sign .comma :: commaSeparated (us :: rest)).flatMap args = _
    rw [List.flatMap_append, List.flatMap_cons, hrest]
    rfl

/-- Nor have parentheses. -/
theorem Token.args_parenthesized (ts : List Token) :
    (parenthesized ts).flatMap args = ts.flatMap args := by
  simp [parenthesized, args]

/-- The text of a query consists of the texts of its tokens. -/
theorem Query.ofTokens_sql (ts : List Token) : (ofTokens ts).sql.toList = Token.chars ts := by
  rw [ofTokens, String.toList_join, List.flatMap_map]
  rfl

namespace Sign

/-- The signs that stand between two texts. -/
def separators : List Sign := [.blank, .comma, .dot]

/-- The signs that stand as tokens of their own: operators, and the star for every column. -/
def operators : List Sign := [.star, .plus, .minus, .eq, .ne, .lt, .le, .gt, .ge]

theorem mem_separators {s : Sign} : s ∈ separators ↔ s = blank ∨ s = comma ∨ s = dot := by
  simp [separators]

theorem mem_operators {s : Sign} : s ∈ operators ↔ s = star ∨ s = plus ∨ s = minus ∨ s = eq ∨
    s = ne ∨ s = lt ∨ s = le ∨ s = gt ∨ s = ge := by
  simp [operators]

end Sign

/-- A text of tokens with `P` that the compiler may put together. -/
inductive Phrase (P : Token → Prop) : List Token → Prop where
  | nil : Phrase P []
  | leaf {t : Token} : P t → Phrase P [t]
  | group {ts : List Token} : Phrase P ts → Phrase P (parenthesized ts)
  | call {ts us : List Token} : Phrase P ts → Phrase P us → Phrase P (ts ++ parenthesized us)
  | separated {s : Sign} {ts us : List Token} :
      s ∈ Sign.separators → Phrase P ts → Phrase P us → Phrase P (ts ++ sign s :: us)
  | assigned {quote : Char} {n : String} {ts : List Token} :
      P (.name quote n) → Phrase P ts → Phrase P (.name quote n :: sign .eq :: ts)

/-- What may follow any phrase. -/
def Tail (P : Token → Prop) (us : List Token) : Prop := ∀ ts, Phrase P ts → Phrase P (ts ++ us)

variable {P : Token → Prop}

namespace Phrase

/-- Two phrases with an operator between them. -/
theorem binary {l r : List Token} {t : Token} (ht : P t) (hl : Phrase P l) (hr : Phrase P r) :
    Phrase P (l ++ blank :: t :: blank :: r) :=
  .separated (by decide) hl (.separated (by decide) (.leaf ht) hr)

/-- A word before a phrase. -/
theorem before {ts : List Token} {t : Token} (ht : P t) (h : Phrase P ts) :
    Phrase P (t :: blank :: ts) :=
  .separated (by decide) (.leaf ht) h

/-- A word right before a phrase in parentheses. -/
theorem apply {ts : List Token} {t : Token} (ht : P t) (h : Phrase P ts) :
    Phrase P (t :: parenthesized ts) :=
  .call (.leaf ht) h

/-- A list of phrases with commas between them. -/
theorem commaSeparated : ∀ {tss : List (List Token)}, (∀ ts ∈ tss, Phrase P ts) →
    Phrase P (RowMapper.commaSeparated tss)
  | [], _ => .nil
  | [ts], h => h ts (by simp)
  | ts :: us :: rest, h =>
    .separated (by decide) (h ts (by simp)) (commaSeparated fun vs hvs => h vs (.tail _ hvs))

/-- A word right before a list of phrases in parentheses. -/
theorem applyEach {t : Token} (ht : P t) : ∀ {tss : List (List Token)}, (∀ ts ∈ tss, Phrase P ts) →
    Phrase P (t :: RowMapper.commaSeparated (tss.map parenthesized))
  | [], _ => .leaf ht
  | [ts], h => .apply ht (h ts (by simp))
  | ts :: us :: rest, h => by
    have hrest : Phrase P (RowMapper.commaSeparated ((us :: rest).map parenthesized)) := by
      refine commaSeparated fun vs hvs => ?_
      obtain ⟨ws, hws, rfl⟩ := List.mem_map.mp hvs
      exact .group (h ws (.tail _ hws))
    exact .separated (by decide) (.apply ht (h ts (by simp))) hrest

/-- A list of single tokens. -/
theorem names {cs : List Token} (h : ∀ c ∈ cs, P c) :
    Phrase P (RowMapper.commaSeparated (cs.map ([·]))) := by
  refine commaSeparated fun ts hts => ?_
  obtain ⟨c, hc, rfl⟩ := List.mem_map.mp hts
  exact .leaf (h c hc)

/-- Where the signs between tokens have `P` as well, every token does. -/
theorem forall_mem (hsign : ∀ s, P (sign s)) {ts : List Token} (h : Phrase P ts) :
    ∀ t ∈ ts, P t := by
  have hgroup : ∀ {us : List Token}, (∀ t ∈ us, P t) → ∀ t ∈ parenthesized us, P t := by
    intro us hus t ht
    simp only [parenthesized, List.mem_cons, List.mem_append, List.not_mem_nil, or_false] at ht
    rcases ht with rfl | ht | rfl
    · exact hsign _
    · exact hus t ht
    · exact hsign _
  induction h with
  | nil => simp
  | leaf ht => simpa using ht
  | group _ ih => exact hgroup ih
  | call _ _ iht ihu =>
    intro t ht
    rcases List.mem_append.mp ht with ht | ht
    · exact iht t ht
    · exact hgroup ihu t ht
  | separated _ _ _ iht ihu =>
    intro t ht
    rw [List.mem_append, List.mem_cons] at ht
    rcases ht with ht | rfl | ht
    · exact iht t ht
    · exact hsign _
    · exact ihu t ht
  | assigned hname _ ih =>
    intro t ht
    rw [List.mem_cons, List.mem_cons] at ht
    rcases ht with rfl | rfl | ht
    · exact hname
    · exact hsign _
    · exact ih t ht

/-- A phrase is one of whatever holds of the tokens that stand in it. -/
theorem imp_of_mem {Q : Token → Prop} {ts : List Token} (h : Phrase P ts)
    (himp : ∀ t ∈ ts, P t → Q t) : Phrase Q ts := by
  induction h with
  | nil => exact .nil
  | leaf ht => exact .leaf (himp _ (by simp) ht)
  | group _ ih => exact .group (ih fun t ht => himp t (by simp [parenthesized, ht]))
  | call _ _ iht ihu =>
    exact .call (iht fun t ht => himp t (by simp [ht]))
      (ihu fun t ht => himp t (by simp [parenthesized, ht]))
  | separated hs _ _ iht ihu =>
    exact .separated hs (iht fun t ht => himp t (by simp [ht]))
      (ihu fun t ht => himp t (by simp [ht]))
  | assigned hname _ ih =>
    exact .assigned (himp _ (by simp) hname) (ih fun t ht => himp t (by simp [ht]))

end Phrase

namespace Tail

theorem nil : Tail P [] := fun ts h => by rwa [List.append_nil]

/-- What follows a phrase may be followed by the next. -/
theorem append {us vs : List Token} (hu : Tail P us) (hv : Tail P vs) : Tail P (us ++ vs) := by
  intro ts h
  rw [← List.append_assoc]
  exact hv _ (hu ts h)

/-- A phrase may follow another after a blank. -/
theorem spaced {us : List Token} (h : Phrase P us) : Tail P (blank :: us) :=
  fun _ hts => .separated (by decide) hts h

/-- So may a clause: a blank, its word, a blank and a phrase. -/
theorem clause {us : List Token} {w : Word} (hw : P (word w)) (h : Phrase P us) :
    Tail P (RowMapper.clause w us) :=
  spaced (.before hw h)

/-- A clause that is left out under some condition. -/
theorem ite {c : Prop} [Decidable c] {us : List Token} (h : Tail P us) :
    Tail P (if c then [] else us) := by
  split
  · exact nil
  · exact h

end Tail

end RowMapper
