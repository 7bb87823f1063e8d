import RowMapper.Model.Tag

/-!
# What tags say

A tag is cut into pieces at its commas, and a piece is a pair if it has one `=`.
`Tag.pairs_eq` says what a tag is read as in these terms: the first piece that is no pair is the
error, and without one the pairs are the trimmed texts before and after the `=` of each piece.
-/

namespace RowMapper

/-! ## Pieces -/

section

variable {separator : Char} {cs : List Char}

theorem splitAt_ne_nil (separator : Char) (cs : List Char) : splitAt separator cs ≠ [] := by
  cases cs with
  | nil => simp [splitAt]
  | cons c cs =>
    rw [splitAt]
    split
    · simp
    · split <;> simp

/-- A text without the separator belongs to the piece before the first one. -/
theorem splitAt_append (h : separator ∉ cs) {ds piece : List Char} {pieces : List (List Char)}
    (hds : splitAt separator ds = piece :: pieces) :
    splitAt separator (cs ++ ds) = (cs ++ piece) :: pieces := by
  induction cs with
  | nil => exact hds
  | cons c cs ih =>
    rw [List.mem_cons, not_or] at h
    rw [List.cons_append, splitAt, if_neg (Ne.symm h.1), ih h.2]
    rfl

/-- There is one piece more than there are separators. -/
theorem length_splitAt (separator : Char) (cs : List Char) :
    (splitAt separator cs).length = cs.count separator + 1 := by
  induction cs with
  | nil => rfl
  | cons c cs ih =>
    obtain ⟨piece, pieces, hcs⟩ := List.exists_cons_of_ne_nil (splitAt_ne_nil separator cs)
    rw [hcs, List.length_cons] at ih
    rw [splitAt, hcs]
    by_cases hc : c = separator
    · rw [if_pos hc, hc, List.count_cons_self, List.length_cons, List.length_cons, ih]
    · rw [if_neg hc, List.count_cons_of_ne hc, List.length_cons, ih]

theorem splitAt_of_not_mem (h : separator ∉ cs) : splitAt separator cs = [cs] := by
  have hnil : splitAt separator [] = [[]] := rfl
  simpa using splitAt_append h hnil

/-- A text with one separator is cut into what stands before it and what stands after it. -/
theorem splitAt_of_count_eq_one (h : cs.count separator = 1) :
    splitAt separator cs =
      [cs.takeWhile (· ≠ separator), (cs.dropWhile (· ≠ separator)).tail] := by
  have hmem : separator ∈ cs := List.count_pos_iff.mp (by omega)
  obtain ⟨before, after, rfl, hbefore⟩ := List.eq_append_cons_of_mem hmem
  have hafter : separator ∉ after := by
    rw [← List.count_eq_zero]
    rw [List.count_append, List.count_eq_zero.mpr hbefore, List.count_cons_self] at h
    omega
  have hne : ∀ c ∈ before, decide (c ≠ separator) = true := by
    intro c hc
    exact decide_eq_true fun heq : c = separator => hbefore (heq ▸ hc)
  have hcut : splitAt separator (separator :: after) = [[], after] := by
    rw [splitAt, if_pos rfl, splitAt_of_not_mem hafter]
  rw [splitAt_append hbefore hcut, List.takeWhile_append_of_pos hne,
    List.dropWhile_append_of_pos hne]
  simp

end

namespace Tag

/-- The pieces of a tag, between its commas. A tag without text has none. -/
def pieces : Option String → List (List Char)
  | none => []
  | some tag => if tag.isEmpty then [] else splitAt ',' tag.toList

/-- The trimmed text of a piece before its first `=`. -/
def keyOf (piece : List Char) : String := String.ofList (Text.trim (piece.takeWhile (· ≠ '=')))

/-- The trimmed text of a piece after its first `=`. -/
def valueOf (piece : List Char) : String :=
  String.ofList (Text.trim (piece.dropWhile (· ≠ '=')).tail)

/-- The failure of a tag: its first piece that has not got one `=`. -/
def fault? (tag : Option String) : Option Error :=
  ((pieces tag).find? (·.count '=' ≠ 1)).map fun piece => .invalidTag (String.ofList piece)

/-- The values that the pieces of a tag give a key, in order. -/
def values (key : String) (tag : Option String) : List String :=
  ((pieces tag).filter (keyOf · == key)).map valueOf

theorem pairOf?_eq (piece : List Char) : pairOf? piece =
    if piece.count '=' = 1 then some (keyOf piece, valueOf piece) else none := by
  have hlength := length_splitAt '=' piece
  split
  · next h => rw [pairOf?, splitAt_of_count_eq_one h, keyOf, valueOf]
  · next h =>
    unfold pairOf?
    split
    · next key value hpiece =>
      rw [hpiece] at hlength
      simp only [List.length_cons, List.length_nil] at hlength
      omega
    · rfl

/-- The pairs of pieces, if each is one. -/
theorem pairsOf_eq (ps : List (List Char)) : pairsOf ps =
    match ps.find? (·.count '=' ≠ 1) with
    | some piece => .error (.invalidTag (String.ofList piece))
    | none => .ok (ps.map fun piece => (keyOf piece, valueOf piece)) := by
  induction ps with
  | nil => rfl
  | cons piece ps ih =>
    rw [pairsOf, pairOf?_eq]
    by_cases h : piece.count '=' = 1
    · rw [if_pos h, List.find?_cons_of_neg (by simpa using h)]
      dsimp only
      rw [ih]
      split <;> rfl
    · rw [if_neg h, List.find?_cons_of_pos (by simpa using h)]

/-- What a tag is read as. -/
theorem pairs_eq (tag : Option String) : pairs tag =
    match fault? tag with
    | some e => .error e
    | none => .ok ((pieces tag).map fun piece => (keyOf piece, valueOf piece)) := by
  have hpairs : pairs tag = pairsOf (pieces tag) := by
    cases tag with
    | none => rfl
    | some tag =>
      rw [pairs, pieces]
      split <;> rfl
  rw [hpairs, pairsOf_eq, fault?]
  cases (pieces tag).find? (·.count '=' ≠ 1) <;> rfl

/-- The last pair with a key gives it its value. -/
theorem lookup?_eq (key : String) (tag : Option String) :
    lookup? key ((pieces tag).map fun piece => (keyOf piece, valueOf piece)) =
      (values key tag).getLast? := by
  rw [lookup?, ← List.head?_filter, List.filter_reverse, List.head?_reverse, List.filter_map,
    List.getLast?_map, Option.map_map, values, List.getLast?_map]
  rfl

theorem fault?_eq_none {tag : Option String} :
    fault? tag = none ↔ ∀ piece ∈ pieces tag, piece.count '=' = 1 := by
  simp [fault?]

end Tag

end RowMapper
