import RowMapper.Model.Tag
import RowMapper.Proofs.Compile.Vocabulary

/-!
# Lexemes of compiled text

A reader of SQL does not see tokens. It sees a text and a list of arguments, knows which characters
put names in quotes, and cuts the text into lexemes: words, signs, names, and a value for each
placeholder, taken from the arguments in order. `lex` does that, and `Phrase.lex_eq` says that it
finds in a compiled text the lexemes of its tokens and nothing else.

That needs that a name does not contain its quote, and that a quote is none of the characters which
the compiler writes itself.
-/

namespace RowMapper

/-- A piece of SQL as a reader sees it, with the value of a placeholder in its place. -/
inductive Lexeme where
  | word (s : String)
  | sign (s : Sign)
  | name (s : String)
  | value (v : Value)
  deriving DecidableEq

namespace Lexeme

/-- The sign that a character is on its own. -/
def signOf? : Char → Option Sign
  | '(' => some .openParen
  | ')' => some .closeParen
  | ',' => some .comma
  | '.' => some .dot
  | ';' => some .semicolon
  | '*' => some .star
  | '+' => some .plus
  | '-' => some .minus
  | '=' => some .eq
  | '<' => some .lt
  | '>' => some .gt
  | _ => none

/-- The sign of a character that the equals sign follows, for those characters where the two are one
sign. -/
def withEq? : Char → Option Sign
  | '!' => some .ne
  | '<' => some .le
  | '>' => some .ge
  | _ => none

/-- Puts a letter before lexemes. It belongs to the first word if the character after it is a letter
too. -/
def consLetter (c : Char) (next? : Option Char) : List Lexeme → List Lexeme
  | .word s :: ls =>
    if next?.any Char.isAlpha then .word (String.ofList (c :: s.toList)) :: ls
    else .word (String.ofList [c]) :: .word s :: ls
  | ls => .word (String.ofList [c]) :: ls

/-- Puts a character of a sign before lexemes. It makes one sign with an equals sign right after
it. -/
def consSign (c : Char) (next? : Option Char) : List Lexeme → Option (List Lexeme)
  | .sign .eq :: ls => match (if next? = some '=' then withEq? c else none) with
    | some s => some (.sign s :: ls)
    | none => (signOf? c).map fun s => .sign s :: .sign .eq :: ls
  | ls => (signOf? c).map fun s => .sign s :: ls

/-- Puts a character of a name before lexemes. -/
def consName (c : Char) : List Lexeme → Option (List Lexeme)
  | .name s :: ls => some (.name (String.ofList (c :: s.toList)) :: ls)
  | _ => none

/-- Puts the value of a placeholder before lexemes, if there is one. -/
def consValue (v? : Option Value) (ls : List Lexeme) : Option (List Lexeme) :=
  v?.map fun v => .value v :: ls

end Lexeme

open Lexeme

/-- The lexemes of a text, and of the rest of a name whose quote is given. `isQuote` says which
characters put names in quotes. -/
def lex (isQuote : Char → Bool) : Option Char → List Value → List Char → Option (List Lexeme)
  | none, args, [] => if args.isEmpty then some [] else none
  | some _, _, [] => none
  | some quote, args, c :: cs =>
    if c = quote then (lex isQuote none args cs).map (.name "" :: ·)
    else (lex isQuote (some quote) args cs).bind (consName c)
  | none, args, c :: cs =>
    if isQuote c then lex isQuote (some c) args cs
    else if c = ' ' then lex isQuote none args cs
    else if c = '?' then (lex isQuote none args.tail cs).bind (consValue args.head?)
    else if c.isAlpha then (lex isQuote none args cs).map (consLetter c cs.head?)
    else (lex isQuote none args cs).bind (consSign c cs.head?)

/-- The pieces of a word: some words of the compiler are two or three words of SQL. -/
def Word.pieces (w : Word) : List (List Char) := splitAt ' ' w.text.toList

/-- The lexemes of a token. A fragment has none: it is not the compiler's text. -/
def Token.lexemes : Token → List Lexeme
  | .word w => w.pieces.map fun cs => .word (String.ofList cs)
  | .sign .blank => []
  | .sign s => [.sign s]
  | .name _ s => [.name s]
  | .bound v => [.value v]
  | .fragment _ _ => []

/-- Quotes are none of the characters that the compiler writes by itself. -/
def QuotesApart (isQuote : Char → Bool) : Prop :=
  ∀ c, isQuote c = true → c.isAlpha = false ∧ c ∉ " ?(),.;*+-=!<>".toList

/-- What may follow a lexeme without belonging to it. -/
def Boundary (rest : List Char) : Prop := ∀ c ∈ rest.head?, c.isAlpha = false ∧ c ≠ '='

/-- A token that a lexer can tell from what stands around it. -/
def Token.Lexable (isQuote : Char → Bool) : Token → Prop
  | .word _ => True
  | .sign s => s ∈ Sign.operators
  | .name quote s => isQuote quote = true ∧ quote ∉ s.toList
  | .bound _ => True
  | .fragment _ _ => False

/-- A text is cut into its own lexemes, whatever follows it. -/
def LexesTo (isQuote : Char → Bool) (ts : List Token) : Prop :=
  ∀ args rest, Boundary rest →
    lex isQuote none (ts.flatMap Token.args ++ args) (Token.chars ts ++ rest) =
      (lex isQuote none args rest).map (ts.flatMap Token.lexemes ++ ·)

section

variable {isQuote : Char → Bool} (hquote : QuotesApart isQuote)

/-! ## Single lexemes -/

/-- A name goes on up to its quote. -/
theorem lex_name {quote : Char} {args : List Value} {rest : List Char} : ∀ {cs : List Char},
    quote ∉ cs → lex isQuote (some quote) args (cs ++ quote :: rest) =
      (lex isQuote none args rest).map (.name (String.ofList cs) :: ·)
  | [], _ => by
    rw [List.nil_append, lex, if_pos rfl]
  | c :: cs, h => by
    have hne : c ≠ quote := fun heq => h (by simp [heq])
    rw [List.cons_append, lex, if_neg hne, lex_name fun hmem => h (List.mem_cons_of_mem c hmem)]
    cases lex isQuote none args rest <;> simp [consName]

include hquote

/-- What the compiler writes itself is not taken for a quote. -/
theorem QuotesApart.eq_false {c : Char} (hc : c.isAlpha = true ∨ c ∈ " ?(),.;*+-=!<>".toList) :
    isQuote c = false := by
  rw [← Bool.not_eq_true]
  intro h
  obtain ⟨halpha, hsign⟩ := hquote c h
  rcases hc with hc | hc
  · simp [hc] at halpha
  · exact hsign hc

/-- A blank belongs to no lexeme. -/
theorem lex_blank (args : List Value) (cs : List Char) :
    lex isQuote none args (' ' :: cs) = lex isQuote none args cs := by
  rw [lex, if_neg (by simp [hquote.eq_false (c := ' ') (by decide)]), if_pos rfl]

/-- A placeholder takes the next argument. -/
theorem lex_placeholder (v : Value) (args : List Value) (cs : List Char) :
    lex isQuote none (v :: args) ('?' :: cs) = (lex isQuote none args cs).map (.value v :: ·) := by
  rw [lex, if_neg (by simp [hquote.eq_false (c := '?') (by decide)]), if_neg (by decide),
    if_pos rfl, List.tail_cons, List.head?_cons]
  cases lex isQuote none args cs <;> rfl

/-- A letter begins a word, or belongs to the word that begins after it. -/
theorem lex_letter {c : Char} (hc : c.isAlpha = true) (args : List Value) (cs : List Char) :
    lex isQuote none args (c :: cs) = (lex isQuote none args cs).map (consLetter c cs.head?) := by
  have hblank : c ≠ ' ' := by
    rintro rfl
    exact absurd hc (by decide)
  have hmark : c ≠ '?' := by
    rintro rfl
    exact absurd hc (by decide)
  rw [lex, if_neg (by simp [hquote.eq_false (.inl hc)]), if_neg hblank, if_neg hmark, if_pos hc]

/-- Letters up to a boundary are one word. -/
theorem lex_letters {args : List Value} {rest : List Char} (hrest : Boundary rest) :
    ∀ {cs : List Char}, cs ≠ [] → (∀ c ∈ cs, c.isAlpha = true) →
      lex isQuote none args (cs ++ rest) =
        (lex isQuote none args rest).map (.word (String.ofList cs) :: ·)
  | [], h, _ => absurd rfl h
  | [c], _, h => by
    -- no letter follows the last one, so it does not join a word after it
    have hlast : ∀ ls, consLetter c rest.head? ls = .word (String.ofList [c]) :: ls := by
      intro ls
      have hnext : rest.head?.any Char.isAlpha = false := by
        cases hhead : rest.head? with
        | none => rfl
        | some d => exact (hrest d hhead).1
      unfold consLetter
      split <;> simp [hnext]
    rw [List.singleton_append, lex_letter hquote (h c (by simp))]
    exact congrArg (Option.map · _) (funext hlast)
  | c :: d :: cs, _, h => by
    have hd : d.isAlpha = true := h d (by simp)
    have hcs : ∀ e ∈ d :: cs, e.isAlpha = true := fun e he => h e (List.mem_cons_of_mem c he)
    rw [List.cons_append, lex_letter hquote (h c (by simp)), lex_letters hrest (by simp) hcs,
      List.cons_append, List.head?_cons, Option.map_map]
    refine congrArg (Option.map · _) (funext fun ls => ?_)
    simp [consLetter, hd]

/-- A character of a sign is put before what follows it. -/
theorem lex_signChar {c : Char} (hc : c ∈ "(),.;*+-=!<>".toList) (args : List Value)
    (cs : List Char) :
    lex isQuote none args (c :: cs) = (lex isQuote none args cs).bind (consSign c cs.head?) := by
  have hwritten : c ∈ " ?(),.;*+-=!<>".toList := List.mem_cons_of_mem _ (List.mem_cons_of_mem _ hc)
  have hapart : "(),.;*+-=!<>".toList.all (fun c => c != ' ' && c != '?' && !c.isAlpha) = true :=
    rfl
  have hother : c ≠ ' ' ∧ c ≠ '?' ∧ ¬c.isAlpha = true := by
    simpa [and_assoc] using List.all_eq_true.mp hapart c hc
  rw [lex, if_neg (by simp [hquote.eq_false (.inr hwritten)]), if_neg hother.1, if_neg hother.2.1,
    if_neg hother.2.2]

omit hquote in
/-- The characters that are signs. -/
theorem signOf?_mem {c : Char} {s : Sign} (hs : signOf? c = some s) :
    c ∈ "(),.;*+-=!<>".toList := by
  unfold signOf? at hs
  split at hs <;> simp at hs ⊢

omit hquote in
/-- The characters that may make one sign with an equals sign. -/
theorem withEq?_mem {c : Char} {s : Sign} (hs : withEq? c = some s) :
    c ∈ "(),.;*+-=!<>".toList := by
  unfold withEq? at hs
  split at hs <;> simp at hs ⊢

/-- A character that is a sign, and does not make another one with what follows. -/
theorem lex_sign {c : Char} {s : Sign} (hs : signOf? c = some s) {args : List Value}
    {cs : List Char} (hnext : cs.head? = some '=' → withEq? c = none) :
    lex isQuote none args (c :: cs) = (lex isQuote none args cs).map (.sign s :: ·) := by
  have hcons : ∀ ls, consSign c cs.head? ls = some (.sign s :: ls) := by
    intro ls
    have hseparate : (if cs.head? = some '=' then withEq? c else none) = none := by
      split
      · exact hnext ‹_›
      · rfl
    unfold consSign
    split
    · simp [hseparate, hs]
    · simp [hs]
  rw [lex_signChar hquote (signOf?_mem hs)]
  cases lex isQuote none args cs with
  | none => rfl
  | some ls => exact hcons ls

/-- A character that makes one sign with the equals sign after it. -/
theorem lex_signEq {c : Char} {s : Sign} (hs : withEq? c = some s) {args : List Value}
    {cs : List Char} :
    lex isQuote none args (c :: '=' :: cs) = (lex isQuote none args cs).map (.sign s :: ·) := by
  have heq : lex isQuote none args ('=' :: cs) =
      (lex isQuote none args cs).map (.sign .eq :: ·) :=
    lex_sign hquote rfl fun _ => rfl
  rw [lex_signChar hquote (withEq?_mem hs), heq]
  cases lex isQuote none args cs with
  | none => rfl
  | some ls => simp [consSign, hs]

/-! ## Tokens and phrases -/

omit hquote in
/-- A word of the compiler is words of letters, with blanks between them. -/
theorem Word.pieces_spec (w : Word) : w.text.toList = [' '].intercalate w.pieces ∧
    w.pieces ≠ [] ∧ ∀ cs ∈ w.pieces, cs ≠ [] ∧ ∀ c ∈ cs, c.isAlpha = true := by
  have hletters : w.pieces.all (fun cs => !cs.isEmpty && cs.all Char.isAlpha) = true := by
    cases w <;> rfl
  refine ⟨by cases w <;> rfl, by cases w <;> decide, fun cs hcs => ?_⟩
  simpa using List.all_eq_true.mp hletters cs hcs

omit hquote in
/-- A character that neither goes on with a word nor makes a sign with what is before it. -/
theorem boundary_cons {c : Char} (h : c.isAlpha = false ∧ c ≠ '=') (cs : List Char) :
    Boundary (c :: cs) := by
  intro d hd
  obtain rfl : c = d := by simpa using hd
  exact h

/-- Words of letters with blanks between them. -/
theorem lex_pieces {args : List Value} {rest : List Char} (hrest : Boundary rest) :
    ∀ {pieces : List (List Char)}, pieces ≠ [] →
      (∀ cs ∈ pieces, cs ≠ [] ∧ ∀ c ∈ cs, c.isAlpha = true) →
      lex isQuote none args ([' '].intercalate pieces ++ rest) = (lex isQuote none args rest).map
        ((pieces.map fun cs => .word (String.ofList cs)) ++ ·)
  | [], h, _ => absurd rfl h
  | [cs], _, h => by
    obtain ⟨hne, hcs⟩ := h cs (by simp)
    have hone : [' '].intercalate [cs] = cs := by simp [List.intercalate]
    rw [hone, lex_letters hquote hrest hne hcs]
    rfl
  | cs :: ds :: pieces, _, h => by
    obtain ⟨hne, hcs⟩ := h cs (by simp)
    have hpieces : ∀ es ∈ ds :: pieces, es ≠ [] ∧ ∀ c ∈ es, c.isAlpha = true :=
      fun es hes => h es (List.mem_cons_of_mem cs hes)
    have hcut : [' '].intercalate (cs :: ds :: pieces) ++ rest =
        cs ++ ' ' :: ([' '].intercalate (ds :: pieces) ++ rest) := by
      simp [List.intercalate]
    rw [hcut, lex_letters hquote (boundary_cons (by decide) _) hne hcs, lex_blank hquote,
      lex_pieces hrest (by simp) hpieces, Option.map_map]
    rfl

/-- An operator is one lexeme: at a boundary no equals sign follows that would make another sign of
it. -/
theorem lexesTo_operator {s : Sign} (hs : s ∈ Sign.operators) :
    LexesTo isQuote [.sign s] := by
  intro args rest hrest
  have hnext : ∀ {c : Char}, rest.head? = some '=' → withEq? c = none :=
    fun hhead => absurd rfl (hrest '=' hhead).2
  rcases Sign.mem_operators.mp hs with rfl | rfl | rfl | rfl | rfl | rfl | rfl | rfl | rfl
  · exact lex_sign hquote rfl hnext
  · exact lex_sign hquote rfl hnext
  · exact lex_sign hquote rfl hnext
  · exact lex_sign hquote rfl hnext
  · exact lex_signEq hquote rfl
  · exact lex_sign hquote rfl hnext
  · exact lex_signEq hquote rfl
  · exact lex_sign hquote rfl hnext
  · exact lex_signEq hquote rfl

omit hquote in
/-- A name ends at its quote, whatever follows. -/
theorem lex_nameToken {quote : Char} {n : String} (hn : isQuote quote = true ∧ quote ∉ n.toList)
    (args : List Value) (rest : List Char) :
    lex isQuote none args ((Token.name quote n).text.toList ++ rest) =
      (lex isQuote none args rest).map (.name n :: ·) := by
  have htext : (Token.name quote n).text.toList ++ rest =
      quote :: (n.toList ++ quote :: rest) := by
    simp [Token.text]
  rw [htext, lex, if_pos hn.1, lex_name hn.2, String.ofList_toList]

/-- Every token of a phrase is cut into its own lexemes. -/
theorem lexesTo_leaf {t : Token} (ht : t.Lexable isQuote) : LexesTo isQuote [t] := by
  cases t with
  | word w =>
    intro args rest hrest
    obtain ⟨htext, hne, hpieces⟩ := w.pieces_spec
    have hchars : Token.chars [.word w] = [' '].intercalate w.pieces := by
      simpa [Token.chars, Token.text] using htext
    rw [hchars]
    simpa [Token.args, Token.lexemes] using lex_pieces hquote hrest hne hpieces
  | sign s => exact lexesTo_operator hquote ht
  | name quote n =>
    intro args rest _
    simpa [Token.chars, Token.args, Token.lexemes] using lex_nameToken ht args rest
  | bound v =>
    intro args rest _
    simpa [Token.chars, Token.text, Token.args, Token.lexemes] using
      lex_placeholder hquote v args rest
  | fragment sql values => exact absurd ht id

theorem lex_separator {s : Sign} (hs : s ∈ Sign.separators) (args : List Value) (cs : List Char) :
    lex isQuote none args (s.text.toList ++ cs) =
      (lex isQuote none args cs).map ((Token.sign s).lexemes ++ ·) := by
  rcases Sign.mem_separators.mp hs with rfl | rfl | rfl
  · show lex isQuote none args (' ' :: cs) = _
    rw [lex_blank hquote]
    simp [Token.lexemes]
  · exact lex_sign hquote rfl fun _ => rfl
  · exact lex_sign hquote rfl fun _ => rfl

theorem lexesTo_parenthesized {ts : List Token} (h : LexesTo isQuote ts) :
    LexesTo isQuote (parenthesized ts) := by
  intro args rest _
  have hchars : Token.chars (parenthesized ts) ++ rest =
      '(' :: (Token.chars ts ++ ')' :: rest) := by
    simp [Token.chars, parenthesized, Token.text, Sign.text]
  have hargs : (parenthesized ts).flatMap Token.args = ts.flatMap Token.args := by
    simp [parenthesized, Token.args]
  have hclose : lex isQuote none args (')' :: rest) =
      (lex isQuote none args rest).map (.sign .closeParen :: ·) :=
    lex_sign hquote rfl fun _ => rfl
  rw [hchars, hargs, lex_sign hquote (s := .openParen) rfl fun _ => rfl,
    h _ _ (boundary_cons (by decide) _), hclose]
  cases lex isQuote none args rest with
  | none => rfl
  | some ls => simp [parenthesized, Token.lexemes]

/-- A phrase is cut into the lexemes of its tokens. -/
theorem Phrase.lexesTo {ts : List Token} (h : Phrase (Token.Lexable isQuote) ts) :
    LexesTo isQuote ts := by
  induction h with
  | nil =>
    intro args rest _
    simp [Token.chars]
  | leaf ht => exact lexesTo_leaf hquote ht
  | group _ ih => exact lexesTo_parenthesized hquote ih
  | @call ts us _ _ iht ihu =>
    intro args rest hrest
    have hopen : Boundary (Token.chars (parenthesized us) ++ rest) := boundary_cons (by decide) _
    have hgroup := lexesTo_parenthesized hquote ihu args rest hrest
    rw [Token.chars_append, List.append_assoc, List.flatMap_append, List.append_assoc,
      iht _ _ hopen, hgroup]
    simp [Function.comp_def]
  | @separated s ts us hs _ _ iht ihu =>
    intro args rest hrest
    have hboundary : ∀ cs, Boundary (s.text.toList ++ cs) := by
      intro cs
      rcases Sign.mem_separators.mp hs with rfl | rfl | rfl <;> exact boundary_cons (by decide) _
    have hchars : Token.chars (ts ++ .sign s :: us) ++ rest =
        Token.chars ts ++ (s.text.toList ++ (Token.chars us ++ rest)) := by
      simp [Token.chars, Token.text]
    rw [hchars, List.flatMap_append, List.append_assoc, iht _ _ (hboundary _),
      lex_separator hquote hs]
    -- the separator has no arguments, so those after it belong to `us`
    show ((lex isQuote none (us.flatMap Token.args ++ args) _).map _).map _ = _
    rw [ihu _ _ hrest]
    simp [Function.comp_def]
  | @assigned quote n ts hname _ ih =>
    intro args rest hrest
    have hchars : Token.chars (.name quote n :: .sign .eq :: ts) ++ rest =
        (Token.name quote n).text.toList ++ '=' :: (Token.chars ts ++ rest) := by
      simp [Token.chars, Token.text, Sign.text]
    rw [hchars]
    show lex isQuote none (ts.flatMap Token.args ++ args) _ = _
    rw [lex_nameToken hname, lex_sign hquote (s := .eq) rfl fun _ => rfl, ih _ _ hrest]
    simp [Function.comp_def, Token.lexemes]

/-- A text that stands alone is cut into the lexemes of its tokens, with their values. -/
theorem Phrase.lex_eq {ts : List Token} (h : Phrase (Token.Lexable isQuote) ts) :
    lex isQuote none (ts.flatMap Token.args) (Token.chars ts) =
      some (ts.flatMap Token.lexemes) := by
  have htext := h.lexesTo hquote [] [] (by simp [Boundary])
  simpa [lex] using htext

end

end RowMapper
