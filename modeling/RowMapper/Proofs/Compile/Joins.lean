import RowMapper.Proofs.Compile.Balance
import RowMapper.Proofs.Compile.Quotes
import RowMapper.Proofs.Compile.Sources

/-!
# Trees of joins read back

Whoever knows which characters put names in quotes can read the tree of joins in the text of a
source (`JoinTree.ofText?`). What begins with a quote is a table; what begins with a parenthesis is
a nested statement if the word of one follows, and otherwise a join. A name ends at its quote. The
texts of a nested statement and of a condition end at the parenthesis that closes them, since a
phrase closes the parentheses that it opens, and those in names are in quotes
(`Phrase.enclosable`). What follows each part tells how to go on, so the text of a tree is read back
as the tree (`JoinTree.readTree_chars`, by induction on the tree).

So a source determines its tree by its text (`Source.tree_determined`): no join is flattened, turned
around or robbed of a clause. This needs names that are free of quotes, and no fragments.
-/

namespace RowMapper

namespace JoinTree

/-! ## Reading -/

section

variable (isQuote : Char → Bool)

/-- Reads a name in quotes. -/
def readName : List Char → Option (String × List Char)
  | [] => none
  | quote :: cs =>
    if isQuote quote then
      match cs.dropWhile (· != quote) with
      | [] => none
      | _ :: rest => some (String.ofList (cs.takeWhile (· != quote)), rest)
    else none

/-- Reads a word with the blanks around it. -/
def readSpaced (w : Word) (cs : List Char) : Option (List Char) := w.spaced.isPrefixOf? cs

/-- Reads an alias, if there is one. -/
def readAlias (cs : List Char) : Option (Option String × List Char) :=
  match readSpaced .as cs with
  | some cs => (readName isQuote cs).map fun (n, rest) => (some n, rest)
  | none => some (none, cs)

/-- Reads names with commas between them, and the parenthesis after them. -/
def readNames : Nat → List Char → Option (List String × List Char)
  | 0, _ => none
  | fuel + 1, cs => do
    let (n, cs) ← readName isQuote cs
    match cs with
    | ',' :: cs => (readNames fuel cs).map fun (ns, rest) => (n :: ns, rest)
    | ')' :: rest => some ([n], rest)
    | _ => none

/-- Reads a text up to the parenthesis that closes it. Inside it `depth` parentheses are open, and
perhaps a name in quotes. -/
def readEnclosed : Option Char → Nat → List Char → Option (List Char × List Char)
  | _, _, [] => none
  | some quote, depth, c :: cs =>
    (readEnclosed (if c = quote then none else some quote) depth cs).map (Prod.map (c :: ·) id)
  | none, depth, c :: cs =>
    if isQuote c then (readEnclosed (some c) depth cs).map (Prod.map (c :: ·) id)
    else if c = '(' then (readEnclosed none (depth + 1) cs).map (Prod.map (c :: ·) id)
    else if c = ')' then
      if depth = 0 then some ([], cs)
      else (readEnclosed none (depth - 1) cs).map (Prod.map (c :: ·) id)
    else (readEnclosed none depth cs).map (Prod.map (c :: ·) id)

/-- Reads the words of a kind of join. -/
def readKind (cs : List Char) : Option (JoinKind × List Char) :=
  [JoinKind.inner, .left, .right].findSome? fun kind =>
    (readSpaced kind.word cs).map fun rest => (kind, rest)

/-- Reads the clause for shared columns, if there is one. -/
def readShared (fuel : Nat) (cs : List Char) : Option (List String × List Char) :=
  match readSpaced .using cs with
  | some ('(' :: cs) => readNames isQuote fuel cs
  | some _ => none
  | none => some ([], cs)

/-- Reads the end of a join: the clause for a condition, if there is one, and the parenthesis. -/
def readEnd : List Char → Option (Option (List Char) × List Char)
  | ')' :: rest => some (none, rest)
  | cs => do
    let cs ← readSpaced .on cs
    let (condition, rest) ← readEnclosed isQuote none 0 cs
    return (some condition, rest)

/-- Reads a tree at the front of a text. What stands in parentheses is a nested statement if it
begins with the word of one, and otherwise a join. -/
def readTree : Nat → List Char → Option (JoinTree × List Char)
  | 0, _ => none
  | fuel + 1, '(' :: cs =>
    if Word.select.text.toList.isPrefixOf cs then do
      let (statement, cs) ← readEnclosed isQuote none 0 cs
      let (alias?, cs) ← readAlias isQuote cs
      return (query statement alias?, cs)
    else do
      let (left, cs) ← readTree fuel cs
      let (kind, cs) ← readKind cs
      let (right, cs) ← readTree fuel cs
      let (shared, cs) ← readShared isQuote fuel cs
      let (condition?, cs) ← readEnd isQuote cs
      return (join kind left right shared condition?, cs)
  | _ + 1, cs => do
    let (n, cs) ← readName isQuote cs
    let (alias?, cs) ← readAlias isQuote cs
    return (table n alias?, cs)

/-- The tree that a whole text stands for. -/
def ofText? (sql : String) : Option JoinTree :=
  match readTree isQuote sql.length sql.toList with
  | some (tree, []) => some tree
  | _ => none

end

/-! ## Texts in parentheses -/

/-- In parentheses a text is read up to the one that closes it: those in it are its own. -/
def Enclosable (isQuote : Char → Bool) (cs : List Char) : Prop :=
  ∀ depth rest, readEnclosed isQuote none depth (cs ++ rest) =
    (readEnclosed isQuote none depth rest).map (Prod.map (cs ++ ·) id)

namespace Enclosable

variable {isQuote : Char → Bool} {cs ds : List Char}

theorem nil : Enclosable isQuote [] := by
  intro depth rest
  exact Option.map_id'.symm

theorem append (hc : Enclosable isQuote cs) (hd : Enclosable isQuote ds) :
    Enclosable isQuote (cs ++ ds) := by
  intro depth rest
  rw [List.append_assoc, hc, hd, Option.map_map, Prod.map_comp_map]
  simp only [Function.comp_def, List.append_assoc]
  rfl

theorem singleton {c : Char} (hquote : isQuote c = false) (hopen : c ≠ '(') (hclose : c ≠ ')') :
    Enclosable isQuote [c] := by
  intro depth rest
  rw [List.singleton_append, readEnclosed, if_neg (by simp [hquote]), if_neg hopen, if_neg hclose]
  rfl

/-- A text without quotes and parentheses. -/
theorem of_flat (hflat : Flat cs) (hquote : ∀ c ∈ cs, isQuote c = false) :
    Enclosable isQuote cs := by
  obtain ⟨-, hopen, hclose⟩ := hflat
  induction cs with
  | nil => exact nil
  | cons c cs ih =>
    rw [List.mem_cons, not_or] at hopen hclose
    exact (singleton (hquote c (.head _)) (Ne.symm hopen.1) (Ne.symm hclose.1)).append
      (ih (fun d hd => hquote d (.tail _ hd)) hopen.2 hclose.2)

/-- A text in parentheses. -/
theorem wrap (hopen : isQuote '(' = false) (hclose : isQuote ')' = false)
    (hc : Enclosable isQuote cs) : Enclosable isQuote ('(' :: (cs ++ [')'])) := by
  intro depth rest
  have hend : readEnclosed isQuote none (depth + 1) (')' :: rest) =
      (readEnclosed isQuote none depth rest).map (Prod.map (')' :: ·) id) := by
    rw [readEnclosed, if_neg (by simp [hclose]), if_neg (by decide), if_pos rfl,
      if_neg (Nat.succ_ne_zero depth), Nat.add_sub_cancel]
  rw [List.cons_append, readEnclosed, if_neg (by simp [hopen]), if_pos rfl, List.append_assoc, hc,
    List.singleton_append, hend, Option.map_map, Option.map_map]
  simp only [Function.comp_def, List.cons_append, List.append_assoc]
  rfl

/-- A name in quotes, whatever is in it. -/
theorem quoted {quote : Char} {n : String} (hquote : isQuote quote = true)
    (hn : quote ∉ n.toList) : Enclosable isQuote (quoted quote n) := by
  have hinside : ∀ ds : List Char, quote ∉ ds → ∀ depth rest,
      readEnclosed isQuote (some quote) depth (ds ++ quote :: rest) =
        (readEnclosed isQuote none depth rest).map (Prod.map (ds ++ [quote] ++ ·) id) := by
    intro ds hds depth rest
    induction ds with
    | nil =>
      rw [List.nil_append, readEnclosed, if_pos rfl]
      rfl
    | cons d ds ih =>
      rw [List.mem_cons, not_or] at hds
      rw [List.cons_append, readEnclosed, if_neg (Ne.symm hds.1), ih hds.2, Option.map_map]
      rfl
  intro depth rest
  rw [JoinTree.quoted, List.cons_append, List.append_assoc, List.singleton_append, readEnclosed,
    if_pos hquote, hinside _ hn, Option.map_map]
  rfl

/-- Followed by its parenthesis, the text is read and the parenthesis with it. -/
theorem readEnclosed_eq (hclose : isQuote ')' = false) (hc : Enclosable isQuote cs)
    (rest : List Char) : readEnclosed isQuote none 0 (cs ++ ')' :: rest) = some (cs, rest) := by
  rw [hc, readEnclosed, if_neg (by simp [hclose]), if_neg (by decide), if_pos rfl, if_pos rfl]
  simp

end Enclosable

/-! ## Reading back -/

section

variable {isQuote : Char → Bool} {quote : Char}

/-- The characters that the compiler writes itself are no quotes. -/
theorem isQuote_eq_false (hwritten : ∀ c, isQuote c = true → ¬Written c) {c : Char}
    (hc : Written c) : isQuote c = false :=
  Bool.eq_false_iff.mpr fun h => hwritten c h hc

theorem readSpaced_eq (w : Word) (rest : List Char) : readSpaced w (w.spaced ++ rest) = some rest :=
  List.isPrefixOf?_eq_some_iff_append_eq.mpr rfl

/-- A name is read back, whatever follows it. -/
theorem readName_quoted (hquote : isQuote quote = true) {n : String} (hn : Unquoted isQuote n)
    (rest : List Char) : readName isQuote (quoted quote n ++ rest) = some (n, rest) := by
  have hne : ∀ c ∈ n.toList, (c != quote) = true := by
    intro c hc
    have hfree := hn c hc
    rw [bne_iff_ne]
    rintro rfl
    rw [hquote] at hfree
    cases hfree
  rw [quoted, List.cons_append, readName, if_pos hquote, List.append_assoc, List.singleton_append,
    List.dropWhile_append_of_pos hne, List.takeWhile_append_of_pos hne]
  simp

/-- An alias is read back, and no alias if none follows. -/
theorem readAlias_aliasText (hquote : isQuote quote = true) {alias? : Option String}
    (halias : ∀ n ∈ alias?, Unquoted isQuote n) {rest : List Char}
    (hrest : readSpaced .as rest = none) :
    readAlias isQuote (aliasText quote alias? ++ rest) = some (alias?, rest) := by
  cases alias? with
  | none => rw [aliasText, List.nil_append, readAlias, hrest]
  | some n =>
    rw [aliasText, List.append_assoc, readAlias, readSpaced_eq]
    simp [readName_quoted hquote (halias n rfl)]

theorem length_le_namesText (quote : Char) :
    ∀ ns : List String, ns.length ≤ (namesText quote ns).length
  | [] => Nat.le_refl _
  | [n] => by simp [namesText, quoted]
  | n :: m :: ns => by
    have hrest := length_le_namesText quote (m :: ns)
    simp only [namesText, List.length_append, List.length_cons] at hrest ⊢
    omega

theorem readNames_namesText (hquote : isQuote quote = true) (rest : List Char) :
    ∀ {fuel : Nat} {ns : List String}, ns ≠ [] → (∀ n ∈ ns, Unquoted isQuote n) →
      ns.length ≤ fuel →
      readNames isQuote fuel (namesText quote ns ++ ')' :: rest) = some (ns, rest)
  | _, [], h, _, _ => absurd rfl h
  | 0, n :: ns, _, _, hfuel => absurd hfuel (Nat.not_succ_le_zero _)
  | fuel + 1, [n], _, hns, _ => by
    rw [namesText, readNames, readName_quoted hquote (hns n (.head _))]
    rfl
  | fuel + 1, n :: m :: ns, _, hns, hfuel => by
    have hrest := readNames_namesText hquote rest (List.cons_ne_nil m ns)
      (fun k hk => hns k (.tail _ hk)) (Nat.le_of_succ_le_succ hfuel)
    have hcut : namesText quote (n :: m :: ns) ++ ')' :: rest =
        quoted quote n ++ ',' :: (namesText quote (m :: ns) ++ ')' :: rest) := by
      simp [namesText]
    rw [hcut, readNames, readName_quoted hquote (hns n (.head _))]
    simp [hrest]

theorem readKind_spaced (kind : JoinKind) (rest : List Char) :
    readKind (kind.word.spaced ++ rest) = some (kind, rest) := by
  cases kind <;> rfl

/-- The clause for shared columns is read back, and no columns if no such clause follows. -/
theorem readShared_sharedText (hquote : isQuote quote = true) {ns : List String}
    (hns : ∀ n ∈ ns, Unquoted isQuote n) {fuel : Nat}
    (hfuel : (sharedText quote ns).length ≤ fuel) {rest : List Char}
    (hrest : readSpaced .using rest = none) :
    readShared isQuote fuel (sharedText quote ns ++ rest) = some (ns, rest) := by
  cases ns with
  | nil => rw [sharedText, List.nil_append, readShared, hrest]
  | cons n ns =>
    have hlength := length_le_namesText quote (n :: ns)
    simp only [sharedText, List.length_append, List.length_cons] at hfuel
    rw [sharedText, List.append_assoc, readShared, readSpaced_eq]
    simp only [List.cons_append, List.append_assoc]
    exact readNames_namesText hquote rest (List.cons_ne_nil n ns) hns (by
      simp only [List.length_cons] at hlength ⊢
      omega)

/-- The clause for a condition is read back with the parenthesis after it. -/
theorem readEnd_conditionText (hclose : isQuote ')' = false) {condition? : Option (List Char)}
    (hcondition : ∀ cs ∈ condition?, Enclosable isQuote cs) (rest : List Char) :
    readEnd isQuote (conditionText condition? ++ ')' :: rest) = some (condition?, rest) := by
  cases condition? with
  | none => rfl
  | some cs =>
    have hread : readEnd isQuote (Word.on.spaced ++ (cs ++ ')' :: rest)) = (do
        let ds ← readSpaced .on (Word.on.spaced ++ (cs ++ ')' :: rest))
        let (condition, rest) ← readEnclosed isQuote none 0 ds
        return (some condition, rest)) := rfl
    rw [conditionText, List.append_assoc, hread, readSpaced_eq]
    simp [(hcondition cs rfl).readEnclosed_eq hclose]

/-- A tree whose text can be read: its names are free of quotes, its statements begin with the word
of one, and its texts close the parentheses that they open. -/
def Readable (isQuote : Char → Bool) : JoinTree → Prop
  | table n alias? => Unquoted isQuote n ∧ ∀ a ∈ alias?, Unquoted isQuote a
  | query statement alias? => Word.select.text.toList <+: statement ∧
      Enclosable isQuote statement ∧ ∀ a ∈ alias?, Unquoted isQuote a
  | join _ left right shared condition? => left.Readable isQuote ∧ right.Readable isQuote ∧
      (∀ n ∈ shared, Unquoted isQuote n) ∧ ∀ cs ∈ condition?, Enclosable isQuote cs

/-- What is written first: a quote or a parenthesis. -/
theorem chars_eq_cons (quote : Char) (tree : JoinTree) :
    ∃ c cs, tree.chars quote = c :: cs ∧ (c = quote ∨ c = '(') := by
  cases tree with
  | table n alias? => exact ⟨_, _, rfl, .inl rfl⟩
  | query statement alias? => exact ⟨_, _, rfl, .inr rfl⟩
  | join kind left right shared condition? => exact ⟨_, _, rfl, .inr rfl⟩

/-- No tree begins like a statement. -/
theorem not_isPrefixOf_chars (hwritten : ∀ c, isQuote c = true → ¬Written c)
    (hquote : isQuote quote = true) (tree : JoinTree) (cs : List Char) :
    ¬Word.select.text.toList.isPrefixOf (tree.chars quote ++ cs) = true := by
  obtain ⟨c, ds, hchars, hc⟩ := tree.chars_eq_cons quote
  rw [hchars, List.isPrefixOf_iff_prefix]
  intro hprefix
  obtain rfl : 'S' = c := (List.cons_prefix_cons.mp hprefix).1
  rcases hc with rfl | hc
  · exact hwritten 'S' hquote (.inl ⟨.select, by decide⟩)
  · exact absurd hc (by decide)

/-- What stands between the sides of a join and after them is no alias. -/
theorem readSpaced_as_word (kind : JoinKind) (rest : List Char) :
    readSpaced .as (kind.word.spaced ++ rest) = none := by
  cases kind <;> rfl

theorem readSpaced_as_following (shared : List String) (condition? : Option (List Char))
    (rest : List Char) : readSpaced .as (sharedText quote shared ++
      (conditionText condition? ++ ')' :: rest)) = none := by
  cases shared with
  | nil => cases condition? <;> rfl
  | cons n ns => rfl

theorem readSpaced_using_following (condition? : Option (List Char)) (rest : List Char) :
    readSpaced .using (conditionText condition? ++ ')' :: rest) = none := by
  cases condition? <;> rfl

theorem exists_eq_succ_of_length_le {tree : JoinTree} {fuel : Nat}
    (h : (tree.chars quote).length ≤ fuel) : ∃ k, fuel = k + 1 := by
  obtain ⟨c, cs, hchars, -⟩ := tree.chars_eq_cons quote
  rw [hchars, List.length_cons] at h
  exact ⟨fuel - 1, by omega⟩

theorem readTree_of_ne {c : Char} (hc : c ≠ '(') (fuel : Nat) (cs : List Char) :
    readTree isQuote (fuel + 1) (c :: cs) = (do
      let (n, cs) ← readName isQuote (c :: cs)
      let (alias?, cs) ← readAlias isQuote cs
      return (table n alias?, cs)) := by
  rw [readTree]
  intro ds h
  exact hc (List.cons.inj h).1

/-- The text of a tree is read back as the tree, whatever follows it, unless that is an alias. -/
theorem readTree_chars (hwritten : ∀ c, isQuote c = true → ¬Written c)
    (hquote : isQuote quote = true) : ∀ {tree : JoinTree}, tree.Readable isQuote →
      ∀ {fuel : Nat}, (tree.chars quote).length ≤ fuel → ∀ {rest : List Char},
        readSpaced .as rest = none →
        readTree isQuote fuel (tree.chars quote ++ rest) = some (tree, rest) := by
  have hopen : isQuote '(' = false :=
    isQuote_eq_false hwritten (.inr (.inl ⟨.openParen, by decide⟩))
  have hclose : isQuote ')' = false :=
    isQuote_eq_false hwritten (.inr (.inl ⟨.closeParen, by decide⟩))
  intro tree
  induction tree with
  | table n alias? =>
    intro htree fuel hfuel rest hrest
    obtain ⟨fuel, rfl⟩ := exists_eq_succ_of_length_le hfuel
    have hne : quote ≠ '(' := by
      rintro rfl
      rw [hopen] at hquote
      cases hquote
    -- a table is told apart by its first character: neither of the other two begins with a quote
    have hread := readName_quoted hquote htree.1 (aliasText quote alias? ++ rest)
    have hcut : (table n alias?).chars quote ++ rest =
        quote :: (n.toList ++ [quote] ++ (aliasText quote alias? ++ rest)) := by
      simp [chars, quoted]
    rw [hcut, readTree_of_ne hne]
    rw [quoted, List.cons_append] at hread
    simp only [hread, Option.bind_eq_bind, Option.bind_some,
      readAlias_aliasText hquote htree.2 hrest]
    rfl
  | query statement alias? =>
    intro htree fuel hfuel rest hrest
    obtain ⟨fuel, rfl⟩ := exists_eq_succ_of_length_le hfuel
    obtain ⟨hselect, hstatement, halias⟩ := htree
    have hcut : (query statement alias?).chars quote ++ rest =
        '(' :: (statement ++ ')' :: (aliasText quote alias? ++ rest)) := by
      simp [chars]
    -- a parenthesis is followed by a statement or by a tree, and no tree begins with this word
    have hbegins : Word.select.text.toList.isPrefixOf
        (statement ++ ')' :: (aliasText quote alias? ++ rest)) = true :=
      List.isPrefixOf_iff_prefix.mpr (hselect.trans (List.prefix_append _ _))
    rw [hcut, readTree, if_pos hbegins]
    simp only [hstatement.readEnclosed_eq hclose, Option.bind_eq_bind, Option.bind_some,
      readAlias_aliasText hquote halias hrest]
    rfl
  | join kind left right shared condition? ihleft ihright =>
    intro htree fuel hfuel rest hrest
    obtain ⟨fuel, rfl⟩ := exists_eq_succ_of_length_le hfuel
    obtain ⟨hleft, hright, hshared, hcondition⟩ := htree
    have hcut : (join kind left right shared condition?).chars quote ++ rest =
        '(' :: (left.chars quote ++ (kind.word.spaced ++ (right.chars quote ++
          (sharedText quote shared ++ (conditionText condition? ++ ')' :: rest))))) := by
      simp [chars, joinText]
    -- each part is read up to what follows it: a word of a join, a clause, or the parenthesis
    simp only [chars, joinText, List.length_cons, List.length_append] at hfuel
    rw [hcut, readTree, if_neg (left.not_isPrefixOf_chars hwritten hquote _),
      ihleft hleft (by omega) (readSpaced_as_word kind _)]
    simp only [Option.bind_eq_bind, Option.bind_some, readKind_spaced,
      ihright hright (by omega : _ ≤ fuel) (readSpaced_as_following shared condition? rest),
      readShared_sharedText hquote hshared (by omega : _ ≤ fuel)
        (readSpaced_using_following condition? rest),
      readEnd_conditionText hclose hcondition]
    rfl

end

end JoinTree

/-! ## Compiled sources -/

variable {cores : Cores} {scope : Scope} {isQuote : Char → Bool}

section

variable (hwritten : ∀ c, isQuote c = true → ¬Written c)
include hwritten

theorem Sign.enclosable {s : Sign} (hflat : Flat s.text.toList) :
    JoinTree.Enclosable isQuote s.text.toList :=
  .of_flat hflat fun _ hc => JoinTree.isQuote_eq_false hwritten (.inr (.inl ⟨s, hc⟩))

/-- The text of a phrase closes the parentheses that it opens. -/
theorem Phrase.enclosable {ts : List Token}
    (h : Phrase (fun t => JoinTree.Enclosable isQuote t.text.toList) ts) :
    JoinTree.Enclosable isQuote (Token.chars ts) := by
  have hopen : isQuote '(' = false :=
    JoinTree.isQuote_eq_false hwritten (.inr (.inl ⟨.openParen, by decide⟩))
  have hclose : isQuote ')' = false :=
    JoinTree.isQuote_eq_false hwritten (.inr (.inl ⟨.closeParen, by decide⟩))
  have hwrap : ∀ us : List Token, JoinTree.Enclosable isQuote (Token.chars us) →
      JoinTree.Enclosable isQuote (Token.chars (parenthesized us)) := by
    intro us hus
    rw [Token.chars_parenthesized]
    exact hus.wrap hopen hclose
  induction h with
  | nil => exact .nil
  | leaf ht => simpa [Token.chars] using ht
  | group _ ih => exact hwrap _ ih
  | call _ _ iht ihu =>
    rw [Token.chars_append]
    exact iht.append (hwrap _ ihu)
  | separated hs _ _ iht ihu =>
    rw [Token.chars_append, Token.chars_cons]
    exact iht.append ((Sign.enclosable hwritten (Sign.flat_separator hs)).append ihu)
  | assigned hname _ ih =>
    have heq : JoinTree.Enclosable isQuote (Token.sign .eq).text.toList :=
      Sign.enclosable hwritten (by decide)
    rw [Token.chars_cons, Token.chars_cons]
    exact hname.append (heq.append ih)

/-- What the compiler writes has no quotes and parentheses of its own; names are in quotes. -/
theorem Vocabulary.enclosable
    (hquotes : ∀ session, isQuote (cores session).dialect.quote = true) :
    Vocabulary cores (fun t => JoinTree.Enclosable isQuote t.text.toList) (Unquoted isQuote)
      fun _ => False where
  word w := .of_flat w.flat fun _ hc => JoinTree.isQuote_eq_false hwritten (.inl ⟨w, hc⟩)
  operator _ hs := Sign.enclosable hwritten (Sign.flat_operator hs)
  bound v := by
    have hmark : ∀ c ∈ (Token.bound v).text.toList, Written c := by
      intro c hc
      exact .inr (.inr (by simpa [Token.text] using hc))
    have hflat : Flat "?".toList := by decide
    exact .of_flat hflat fun c hc => JoinTree.isQuote_eq_false hwritten (hmark c hc)
  name session n hn := by
    rw [Token.toList_text_name]
    refine .quoted (hquotes session) fun hmem => ?_
    have hfree := hn _ hmem
    rw [hquotes session] at hfree
    exact absurd hfree (by decide)
  fragment _ hf := hf.elim

end

/-- A select statement begins with its word. -/
theorem Select.tokens_begin {M : String × EntityType → Prop} (s : Select) :
    (s.tokens cores).Ensures M fun ts => Word.select.text.toList <+: Token.chars ts := by
  cases s
  exact .bind .any fun _ _ => .bind .any fun _ _ => .bind .any fun _ _ => .bind .any fun _ _ =>
    .bind .any fun _ _ => .bind .any fun _ _ => .bind .any fun _ _ =>
      .pure (List.prefix_append _ _)

theorem conjunctionTokens_names {M : String × EntityType → Prop} (scope : Scope) (p : Predicate)
    (ps : List Predicate) : (conjunctionTokens cores scope (p :: ps)).Ensures M
      fun ts => Token.names ts = predicatesNames cores scope (p :: ps) :=
  .bind (p.tokens_names scope) fun _ hp => .mono (conjoinedTokens_names scope ps _) fun _ hps => by
    rw [hps, hp, predicatesNames]

/-- The columns of fields are the names that they stand for. -/
theorem Model.columnNames_of_mapM {m : Model} {fields columns : List String}
    (h : fields.mapM m.columnOf = .ok columns) : m.columnNames fields = columns := by
  have hcolumns := Results.mapM_eq_ok.mp h
  clear h
  induction hcolumns with
  | nil => rfl
  | cons hfield _ ih => rw [columnNames_cons, columnNames_of_ok hfield, ih, List.singleton_append]

/-- The names in a source are free of quotes, every session quotes names with one, and there are no
fragments by the caller. -/
structure Source.Legible (isQuote : Char → Bool) (cores : Cores) (scope : Scope) (s : Source) :
    Prop where
  quotes : ∀ session, isQuote (cores session).dialect.quote = true
  names : ∀ n ∈ s.names cores scope, Unquoted isQuote n
  fragments : s.UsesOnly (fun _ => True) fun _ => False

section

variable (hwritten : ∀ c, isQuote c = true → ¬Written c)
  (hquotes : ∀ session, isQuote (cores session).dialect.quote = true)
include hwritten hquotes

/-- The text of a nested statement is one that is read as a whole. -/
theorem Select.readable_chars {s : Select} (hnames : ∀ n ∈ s.names cores, Unquoted isQuote n)
    (hfragments : s.UsesOnly (fun _ => True) fun _ => False) {ts : List Token}
    (hts : (s.tokens cores).result = .ok ts) : Word.select.text.toList <+: Token.chars ts ∧
      JoinTree.Enclosable isQuote (Token.chars ts) := by
  have hall := fun e (_ : e ∈ (s.tokens cores).consulted) => cores.namesSatisfy_true e
  have V := Vocabulary.enclosable hwritten hquotes
  have hphrase := V.quotedOr.selectTokens s hfragments hall ts hts
  refine ⟨s.tokens_begin hall ts hts, Phrase.enclosable hwritten
    (V.phrase_of_quotedOr hphrase ?_)⟩
  rwa [s.tokens_names hall ts hts]

/-- So is the text of conditions. -/
theorem enclosable_conditionText? {ps : List Predicate}
    (hnames : ∀ n ∈ predicatesNames cores scope ps, Unquoted isQuote n)
    (hfragments : predicatesUseOnly (fun _ => True) (fun _ => False) ps)
    {condition? : Option (List Char)} (h : conditionText? cores scope ps = .ok condition?) :
    ∀ cs ∈ condition?, JoinTree.Enclosable isQuote cs := by
  cases ps with
  | nil =>
    obtain rfl : none = condition? := Except.ok.inj h
    exact nofun
  | cons p ps =>
    obtain ⟨ts, hts, rfl⟩ := Results.map_eq_ok.mp h
    intro cs hcs
    obtain rfl := Option.some.inj hcs
    have hscope : scope.model.NamesSatisfy fun _ => True := ⟨trivial, fun _ _ => trivial⟩
    have hall := fun e (_ : e ∈ (conjunctionTokens cores scope (p :: ps)).consulted) =>
      cores.namesSatisfy_true e
    have V := Vocabulary.enclosable hwritten hquotes
    -- a phrase with any names first; the names that are in it are free of quotes
    have hphrase := V.quotedOr.conjunctionTokens hscope p ps hfragments hall ts hts
    refine Phrase.enclosable hwritten (V.phrase_of_quotedOr hphrase ?_)
    rwa [conjunctionTokens_names scope p ps hall ts hts]

end

/-- The tree of a legible source can be read. -/
theorem Source.readable_tree (hwritten : ∀ c, isQuote c = true → ¬Written c) :
    ∀ s : Source, s.Legible isQuote cores scope → ∀ {tree : JoinTree},
      s.tree cores scope = .ok tree → tree.Readable isQuote
  | .table t => by
    rintro ⟨-, hnames, -⟩ tree htree
    obtain ⟨m, hm, rfl⟩ := Results.map_eq_ok.mp htree
    simp only [Source.names, Table.names, hm] at hnames
    exact ⟨hnames _ (.head _), fun a ha => hnames a (.tail _ (Option.mem_toList.mpr ha))⟩
  | .joinOn kind left right on => by
    rintro ⟨hquotes, hnames, hfragments⟩ tree htree
    simp only [Source.names, List.forall_mem_append] at hnames
    obtain ⟨⟨hl, hr⟩, hon⟩ := hnames
    rw [Source.tree] at htree
    obtain ⟨l, hleft, htree⟩ := Results.bind_eq_ok.mp htree
    obtain ⟨r, hright, htree⟩ := Results.bind_eq_ok.mp htree
    obtain ⟨condition?, hcondition, htree⟩ := Results.bind_eq_ok.mp htree
    obtain rfl := Except.ok.inj htree
    exact ⟨left.readable_tree hwritten ⟨hquotes, hl, hfragments.1⟩ hleft,
      right.readable_tree hwritten ⟨hquotes, hr, hfragments.2.1⟩ hright, by simp,
      enclosable_conditionText? hwritten hquotes hon hfragments.2.2 hcondition⟩
  | .joinUsing kind left right fields => by
    rintro ⟨hquotes, hnames, hfragments⟩ tree htree
    simp only [Source.names, List.forall_mem_append] at hnames
    obtain ⟨⟨hl, hr⟩, hfields⟩ := hnames
    rw [Source.tree] at htree
    obtain ⟨l, hleft, htree⟩ := Results.bind_eq_ok.mp htree
    obtain ⟨r, hright, htree⟩ := Results.bind_eq_ok.mp htree
    obtain ⟨columns, hcolumns, htree⟩ := Results.bind_eq_ok.mp htree
    obtain rfl := Except.ok.inj htree
    rw [Model.columnNames_of_mapM hcolumns] at hfields
    exact ⟨left.readable_tree hwritten ⟨hquotes, hl, hfragments.1⟩ hleft,
      right.readable_tree hwritten ⟨hquotes, hr, hfragments.2⟩ hright, hfields, by simp⟩
  | .subquery s => by
    rintro ⟨hquotes, hnames, hfragments⟩ tree htree
    obtain ⟨s, alias?⟩ := s
    simp only [Source.names, List.forall_mem_append] at hnames
    obtain ⟨ts, hts, rfl⟩ := Results.map_eq_ok.mp htree
    obtain ⟨hbegins, hstatement⟩ :=
      Select.readable_chars hwritten hquotes hnames.1 hfragments.1 hts
    exact ⟨hbegins, hstatement, fun a ha => hnames.2 a (Option.mem_toList.mpr ha)⟩

/-- The text of a legible source is read as its tree. -/
theorem Source.Legible.ofText?_eq (hwritten : ∀ c, isQuote c = true → ¬Written c) {s : Source}
    (h : s.Legible isQuote cores scope) {ts : List Token}
    (hts : (s.tokens cores scope).result = .ok ts) : ∃ tree, s.tree cores scope = .ok tree ∧
      JoinTree.ofText? isQuote (Query.ofTokens ts).sql = some tree := by
  have hchars := s.chars_tokens cores scope
  rw [hts] at hchars
  obtain ⟨tree, htree, htext⟩ := Results.map_eq_ok.mp hchars.symm
  have hend : JoinTree.readSpaced .as [] = none := rfl
  have hread := JoinTree.readTree_chars hwritten (h.quotes scope.session)
    (s.readable_tree hwritten h htree) (Nat.le_refl _) hend
  rw [List.append_nil, htext, ← Query.ofTokens_sql] at hread
  refine ⟨tree, htree, ?_⟩
  rw [JoinTree.ofText?, ← String.length_toList, hread]

/-- A source determines its tree by its text. If a legible source compiles, its text is read as its
tree, and no legible source with another tree compiles to the same text, in whatever scope. -/
theorem Source.tree_determined (hwritten : ∀ c, isQuote c = true → ¬Written c) {s : Source}
    (h : s.Legible isQuote cores scope) {ts : List Token}
    (hts : (s.tokens cores scope).result = .ok ts) :
    ∃ tree, s.tree cores scope = .ok tree ∧
      JoinTree.ofText? isQuote (Query.ofTokens ts).sql = some tree ∧
      ∀ (cores' : Cores) (scope' : Scope) (s' : Source) (ts' : List Token),
        s'.Legible isQuote cores' scope' → (s'.tokens cores' scope').result = .ok ts' →
          (Query.ofTokens ts').sql = (Query.ofTokens ts).sql →
            s'.tree cores' scope' = .ok tree := by
  obtain ⟨tree, htree, hread⟩ := h.ofText?_eq hwritten hts
  refine ⟨tree, htree, hread, fun cores' scope' s' ts' h' hts' hsql => ?_⟩
  obtain ⟨tree', htree', hread'⟩ := h'.ofText?_eq hwritten hts'
  rw [hsql, hread] at hread'
  rw [htree', Option.some.inj hread']

/-- The accounts, with large amounts by the number of an account, and the transfers from them. -/
def accountJoins : Source :=
  .joinOn .right
    (.joinUsing .left (.table ⟨account, some "a"⟩)
      (.subquery (.mk largeAmounts.select (some "l"))) ["id"])
    (.table payments) [.compare .eq (.column (.own "id")) (.column (payments.column "accountId"))]

/-- The tree of a join in a join, with a nested statement. -/
def accountTree : JoinTree :=
  .join .right
    (.join .left (.table "account" (some "a"))
      (.query ("SELECT \x60amount\x60 FROM \x60transfer\x60 WHERE \x60amount\x60 > ?" ++
        " ORDER BY \x60amount\x60 DESC LIMIT ? OFFSET ?").toList (some "l")) ["id"] none)
    (.table "transfer" (some "t")) [] (some "\x60id\x60 = \x60t\x60.\x60account_id\x60".toList)

/-- The text of the two joins is read as their tree, and no source with another tree has it. -/
theorem Source.tree_determined_accountJoins :
    ∃ ts, (accountJoins.tokens (fun _ => .default) accountScope).result = .ok ts ∧
      JoinTree.ofText? (· == '\x60') (Query.ofTokens ts).sql = some accountTree ∧
      ∀ (s : Source) (ts' : List Token),
        s.Legible (· == '\x60') (fun _ => .default) accountScope →
        (s.tokens (fun _ => .default) accountScope).result = .ok ts' →
        (Query.ofTokens ts').sql = (Query.ofTokens ts).sql →
          s.tree (fun _ => .default) accountScope = .ok accountTree := by
  have hwritten : ∀ c, (c == '\x60') = true → ¬Written c := by
    intro c hc
    obtain rfl : c = '\x60' := by simpa using hc
    exact not_written_backquote
  have hfragments : accountJoins.UsesOnly (fun _ => True) fun _ => False := by
    simp [accountJoins, payments, largeAmounts, Source.UsesOnly, Subquery.UsesOnly,
      Subquery.select, Select.UsesOnly, selectablesUseOnly, Selectable.UsesOnly, sourceUsesOnly,
      predicatesUseOnly, Predicate.UsesOnly, Expr.UsesOnly, Column.UsesOnly, Column.own,
      Table.column, Table.UsesOnly, Qualifier.UsesOnly]
  have hlegible : accountJoins.Legible (· == '\x60') (fun _ => .default) accountScope :=
    ⟨fun _ => rfl, by decide, hfragments⟩
  obtain ⟨tree, htree, hread, hunique⟩ := Source.tree_determined hwritten hlegible rfl
  obtain rfl : accountTree = tree := Except.ok.inj htree
  exact ⟨_, rfl, hread, hunique _ _⟩

end RowMapper
