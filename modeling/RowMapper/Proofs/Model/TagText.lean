import Mathlib.Data.List.Nodup
import Mathlib.Data.List.TakeWhile
import RowMapper.Proofs.Model.Tags

/-!
# The texts that are tags

Which texts can be read as tags, and what they say, in terms of the pieces between their commas
(`Tag.pairs_grammar`): a text is a tag if it is empty or each of its pieces has one `=`, and
otherwise its first other piece is the error. The last piece with a key gives the key its value. So
pairs that are written into a tag with any blanks around their keys and values come back as they
were.

What was written is read in two steps: the pieces of the text are the pairs as they were written
(`Tag.pieces_written`), and a piece says its pair without the blanks
(`Tag.Entry.Legible.keyOf_chars`, `Tag.Entry.Legible.valueOf_chars`).
-/

namespace RowMapper

/-- The pieces of a text as the library cuts it. -/
theorem splitAt_eq_splitOn (separator : Char) (cs : List Char) :
    splitAt separator cs = cs.splitOn separator := by
  induction cs with
  | nil => rfl
  | cons c cs ih =>
    have hcons : (c :: cs).splitOn separator =
        if c = separator then [] :: cs.splitOn separator
        else (cs.splitOn separator).modifyHead (List.cons c) := by
      simp only [List.splitOn_eq_splitOnP, List.splitOnP_cons_eq_if_modifyHead, beq_iff_eq]
    rw [splitAt, ih, hcons]
    by_cases hc : c = separator
    · rw [if_pos hc, if_pos hc]
    · rw [if_neg hc, if_neg hc]
      cases h : cs.splitOn separator with
      | nil => exact absurd (ih.trans h) (splitAt_ne_nil separator cs)
      | cons piece pieces => rfl

/-! ## Blanks around a text -/

namespace Text

/-- A text neither begins nor ends with a blank. -/
structure Trimmed (cs : List Char) : Prop where
  first : ∀ c ∈ cs.head?, isBlank c = false
  last : ∀ c ∈ cs.getLast?, isBlank c = false

/-- Nothing is taken from a text that does not begin with a blank. -/
theorem trimStart_of_head {cs : List Char} (h : ∀ c ∈ cs.head?, isBlank c = false) :
    trimStart cs = cs := by
  cases cs with
  | nil => rfl
  | cons c cs => exact List.dropWhile_cons_of_neg (by simp [h c rfl])

/-- Blanks at the beginning are taken away, however many there are. -/
theorem trimStart_append {before cs : List Char} (hbefore : ∀ c ∈ before, isBlank c = true) :
    trimStart (before ++ cs) = trimStart cs :=
  List.dropWhile_append_of_pos hbefore

/-- Trimming takes the blanks around a text away, and no more. -/
theorem trim_padded {before cs after : List Char} (h : Trimmed cs)
    (hbefore : ∀ c ∈ before, isBlank c = true) (hafter : ∀ c ∈ after, isBlank c = true) :
    trim (before ++ cs ++ after) = cs := by
  have hback : ∀ c ∈ after.reverse, isBlank c = true := by simpa using hafter
  rw [trim, List.append_assoc, trimStart_append hbefore]
  cases cs with
  | nil =>
    have hnil : trimStart after = [] := List.dropWhile_eq_nil_iff.mpr hafter
    rw [List.nil_append, hnil]
    rfl
  | cons c cs =>
    have hfront : trimStart (c :: cs ++ after) = c :: cs ++ after := trimStart_of_head h.first
    rw [hfront, List.reverse_append, trimStart_append hback, trimStart_of_head,
      List.reverse_reverse]
    rw [List.head?_reverse]
    exact h.last

end Text

namespace Tag

/-! ## What pairs say -/

/-- The value of a key is that of the last pair with the key. -/
theorem lookup?_eq_some {key value : String} {ps : List (String × String)} :
    lookup? key ps = some value ↔ ∃ before after, ps = before ++ (key, value) :: after ∧
      ∀ p ∈ after, p.1 ≠ key := by
  rw [lookup?, Option.map_eq_some_iff]
  constructor
  · rintro ⟨⟨key', value'⟩, hfind, rfl⟩
    -- the pairs are searched from the end
    obtain ⟨hkey, after, before, hps, hafter⟩ := List.find?_eq_some_iff_append.mp hfind
    obtain rfl : key' = key := by simpa using hkey
    refine ⟨before.reverse, after.reverse, ?_, by simpa using hafter⟩
    simpa using List.reverse_eq_append_iff.mp hps
  · rintro ⟨before, after, rfl, hafter⟩
    refine ⟨(key, value), List.find?_eq_some_iff_append.mpr
      ⟨beq_self_eq_true key, after.reverse, before.reverse, by simp, by simpa using hafter⟩, rfl⟩

/-- If the keys are different, each has the value of its pair. -/
theorem lookup?_eq_some_of_nodup {key value : String} {ps : List (String × String)}
    (h : (ps.map Prod.fst).Nodup) : lookup? key ps = some value ↔ (key, value) ∈ ps := by
  rw [lookup?_eq_some]
  constructor
  · rintro ⟨before, after, rfl, -⟩
    simp
  · intro hmem
    obtain ⟨before, after, rfl⟩ := List.append_of_mem hmem
    refine ⟨before, after, rfl, fun p hp hkey => ?_⟩
    rw [List.map_append, List.map_cons] at h
    have hrest := (List.nodup_cons.mp h.of_append_right).1
    exact hrest (List.mem_map.mpr ⟨p, hp, hkey⟩)

/-! ## Pairs as they are written -/

/-- A pair as it is written in a tag, with blanks around its key and its value. -/
structure Entry where
  key : String
  value : String
  beforeKey : List Char
  afterKey : List Char
  beforeValue : List Char
  afterValue : List Char

namespace Entry

/-- The text of a pair. -/
def chars (e : Entry) : List Char :=
  (e.beforeKey ++ e.key.toList ++ e.afterKey) ++
    '=' :: (e.beforeValue ++ e.value.toList ++ e.afterValue)

/-- The key and the value are trimmed and hold neither commas nor `=`; what stands around them is
blank. -/
structure Legible (e : Entry) : Prop where
  key_trimmed : Text.Trimmed e.key.toList
  value_trimmed : Text.Trimmed e.value.toList
  key_free : ',' ∉ e.key.toList ∧ '=' ∉ e.key.toList
  value_free : ',' ∉ e.value.toList ∧ '=' ∉ e.value.toList
  beforeKey : ∀ c ∈ e.beforeKey, Text.isBlank c = true
  afterKey : ∀ c ∈ e.afterKey, Text.isBlank c = true
  beforeValue : ∀ c ∈ e.beforeValue, Text.isBlank c = true
  afterValue : ∀ c ∈ e.afterValue, Text.isBlank c = true

/-- What is not blank stands in a padded text only if it stands in the text. -/
theorem notMem_padded {c : Char} {before cs after : List Char} (hc : Text.isBlank c = false)
    (hbefore : ∀ c ∈ before, Text.isBlank c = true) (h : c ∉ cs)
    (hafter : ∀ c ∈ after, Text.isBlank c = true) : c ∉ before ++ cs ++ after := by
  rw [List.mem_append, List.mem_append]
  rintro ((hmem | hmem) | hmem)
  · simp [hbefore c hmem] at hc
  · exact h hmem
  · simp [hafter c hmem] at hc

namespace Legible

variable {e : Entry} (h : e.Legible)
include h

/-- The blanks around a key hold no `=` either. -/
theorem equals_notMem_key : '=' ∉ e.beforeKey ++ e.key.toList ++ e.afterKey :=
  notMem_padded (by decide) h.beforeKey h.key_free.2 h.afterKey

/-- The blanks around a value hold no `=` either. -/
theorem equals_notMem_value : '=' ∉ e.beforeValue ++ e.value.toList ++ e.afterValue :=
  notMem_padded (by decide) h.beforeValue h.value_free.2 h.afterValue

/-- A pair is not cut in two by a comma. -/
theorem comma_notMem_chars : ',' ∉ e.chars := by
  have hkey := notMem_padded (by decide) h.beforeKey h.key_free.1 h.afterKey
  have hvalue := notMem_padded (by decide) h.beforeValue h.value_free.1 h.afterValue
  rw [chars, List.mem_append, List.mem_cons]
  rintro (hmem | hmem | hmem)
  · exact hkey hmem
  · exact absurd hmem (by decide)
  · exact hvalue hmem

/-- The one `=` of a pair is that between its key and its value. -/
theorem count_chars : e.chars.count '=' = 1 := by
  rw [chars, List.count_append, List.count_cons_self,
    List.count_eq_zero.mpr h.equals_notMem_key, List.count_eq_zero.mpr h.equals_notMem_value]

theorem ne_equals_of_mem_key :
    ∀ c ∈ e.beforeKey ++ e.key.toList ++ e.afterKey, decide (c ≠ '=') = true :=
  fun _ hc => decide_eq_true fun heq => h.equals_notMem_key (heq ▸ hc)

/-- What stands before the `=` of a pair is its key with blanks around it. -/
theorem takeWhile_chars :
    e.chars.takeWhile (· ≠ '=') = e.beforeKey ++ e.key.toList ++ e.afterKey := by
  rw [chars, List.takeWhile_append_of_pos h.ne_equals_of_mem_key]
  simp

/-- What stands after the `=` of a pair is its value with blanks around it. -/
theorem dropWhile_chars : (e.chars.dropWhile (· ≠ '=')).tail =
    e.beforeValue ++ e.value.toList ++ e.afterValue := by
  rw [chars, List.dropWhile_append_of_pos h.ne_equals_of_mem_key]
  simp

/-- The key of a pair that was written is read without its blanks. -/
theorem keyOf_chars : keyOf e.chars = e.key := by
  rw [keyOf, h.takeWhile_chars, Text.trim_padded h.key_trimmed h.beforeKey h.afterKey,
    String.ofList_toList]

/-- The value of a pair that was written is read without its blanks. -/
theorem valueOf_chars : valueOf e.chars = e.value := by
  rw [valueOf, h.dropWhile_chars, Text.trim_padded h.value_trimmed h.beforeValue h.afterValue,
    String.ofList_toList]

end Legible

end Entry

/-- The tag of some pairs, with commas between them. -/
def written (es : List Entry) : String :=
  String.ofList ([','].intercalate (es.map Entry.chars))

/-- The pieces of a tag that was written are its pairs, since none has a comma. -/
theorem pieces_written {es : List Entry} (h : ∀ e ∈ es, e.Legible) :
    pieces (some (written es)) = es.map Entry.chars := by
  cases es with
  | nil => rfl
  | cons e es =>
    have hcomma : ∀ cs ∈ (e :: es).map Entry.chars, ',' ∉ cs := by
      intro cs hcs
      obtain ⟨e', he', rfl⟩ := List.mem_map.mp hcs
      exact (h e' he').comma_notMem_chars
    have hsplit : (written (e :: es)).toList.splitOn ',' = (e :: es).map Entry.chars := by
      rw [written, String.toList_ofList]
      exact List.splitOn_intercalate ',' hcomma (by simp)
    have hne : (written (e :: es)).isEmpty = false := by
      rw [Bool.eq_false_iff, ne_eq, String.isEmpty_iff]
      intro hempty
      -- the empty text has one piece, and that is no pair
      rw [hempty] at hsplit
      have hcount := (h e (.head _)).count_chars
      rw [← (List.cons.inj hsplit).1] at hcount
      cases hcount
    rw [pieces, hne, splitAt_eq_splitOn]
    exact hsplit

/-- Pairs come back from the tag that they are written into. -/
theorem pairs_written {es : List Entry} (h : ∀ e ∈ es, e.Legible) :
    pairs (some (written es)) = .ok (es.map fun e => (e.key, e.value)) := by
  have hnone : fault? (some (written es)) = none := by
    rw [fault?_eq_none, pieces_written h]
    intro piece hpiece
    obtain ⟨e, he, rfl⟩ := List.mem_map.mp hpiece
    exact (h e he).count_chars
  rw [pairs_eq, hnone, pieces_written h, List.map_map]
  refine congrArg Except.ok (List.map_congr_left fun e he => ?_)
  rw [Function.comp_apply, (h e he).keyOf_chars, (h e he).valueOf_chars]

/-! ## Pieces of a text -/

/-- A text that is not empty is cut at its commas. The empty text has no piece at all. -/
theorem pieces_of_ne {s : String} (h : s ≠ "") : pieces (some s) = s.toList.splitOn ',' := by
  rw [pieces, if_neg (by simpa using h), splitAt_eq_splitOn]

/-- A text is a tag if it is empty or each piece of it has one `=`. -/
theorem exists_pairs_iff (s : String) : (∃ ps, pairs (some s) = .ok ps) ↔
    s = "" ∨ ∀ piece ∈ s.toList.splitOn ',', piece.count '=' = 1 := by
  by_cases hs : s = ""
  · rw [hs]
    exact iff_of_true ⟨[], rfl⟩ (.inl rfl)
  · rw [or_iff_right hs, ← pieces_of_ne hs, ← fault?_eq_none, pairs_eq]
    cases fault? (some s) <;> simp

/-- The error of a text that is no tag is its first piece that has not got one `=`. -/
theorem pairs_eq_error (s : String) (e : Error) : pairs (some s) = .error e ↔
    s ≠ "" ∧ ∃ before piece after, s.toList.splitOn ',' = before ++ piece :: after ∧
      (∀ p ∈ before, p.count '=' = 1) ∧ piece.count '=' ≠ 1 ∧
      e = .invalidTag (String.ofList piece) := by
  by_cases hs : s = ""
  · rw [hs]
    exact iff_of_false nofun fun h => h.1 rfl
  · have hfault : pairs (some s) = .error e ↔ fault? (some s) = some e := by
      rw [pairs_eq]
      cases fault? (some s) <;> simp
    rw [hfault, fault?, pieces_of_ne hs, Option.map_eq_some_iff]
    constructor
    · rintro ⟨piece, hfind, rfl⟩
      obtain ⟨hpiece, before, after, heq, hbefore⟩ := List.find?_eq_some_iff_append.mp hfind
      exact ⟨hs, before, piece, after, heq, by simpa using hbefore, by simpa using hpiece, rfl⟩
    · rintro ⟨-, before, piece, after, heq, hbefore, hpiece, rfl⟩
      exact ⟨piece, List.find?_eq_some_iff_append.mpr
        ⟨by simpa using hpiece, before, after, heq, by simpa using hbefore⟩, rfl⟩

/-- The value of a key is what stands after the `=` of the last piece with the key before it. -/
theorem lookup?_eq_some_iff {s : String} {ps : List (String × String)}
    (h : pairs (some s) = .ok ps) (key value : String) : lookup? key ps = some value ↔
      s ≠ "" ∧ ∃ before piece after, s.toList.splitOn ',' = before ++ piece :: after ∧
        keyOf piece = key ∧ valueOf piece = value ∧ ∀ p ∈ after, keyOf p ≠ key := by
  by_cases hs : s = ""
  · subst hs
    obtain rfl : [] = ps := Except.ok.inj h
    exact iff_of_false nofun fun h => h.1 rfl
  · have hps : ps = (s.toList.splitOn ',').map fun piece => (keyOf piece, valueOf piece) := by
      rw [← pieces_of_ne hs]
      rw [pairs_eq] at h
      cases hfault : fault? (some s) with
      | some e =>
        rw [hfault] at h
        cases h
      | none =>
        rw [hfault] at h
        exact (Except.ok.inj h).symm
    rw [hps, lookup?_eq_some]
    constructor
    · rintro ⟨before, after, heq, hafter⟩
      obtain ⟨before', rest, hpieces, -, hrest⟩ := List.map_eq_append_iff.mp heq
      obtain ⟨piece, after', rfl, hpiece, rfl⟩ := List.map_eq_cons_iff.mp hrest
      obtain ⟨hkey, hvalue⟩ := Prod.mk.inj hpiece
      refine ⟨hs, before', piece, after', hpieces, hkey, hvalue, fun p hp => ?_⟩
      exact hafter _ (List.mem_map_of_mem hp)
    · rintro ⟨-, before, piece, after, hpieces, rfl, rfl, hafter⟩
      refine ⟨_, _, by rw [hpieces, List.map_append, List.map_cons], fun p hp => ?_⟩
      obtain ⟨p', hp', rfl⟩ := List.mem_map.mp hp
      exact hafter p' hp'

/-- Which texts are tags, what the error is otherwise, and what a tag says. Pairs with different
keys that are written into a tag come back, with the blanks around them taken away. -/
theorem pairs_grammar :
    (∀ s : String, (∃ ps, pairs (some s) = .ok ps) ↔
      s = "" ∨ ∀ piece ∈ s.toList.splitOn ',', piece.count '=' = 1) ∧
    (∀ (s : String) (e : Error), pairs (some s) = .error e ↔
      s ≠ "" ∧ ∃ before piece after, s.toList.splitOn ',' = before ++ piece :: after ∧
        (∀ p ∈ before, p.count '=' = 1) ∧ piece.count '=' ≠ 1 ∧
        e = .invalidTag (String.ofList piece)) ∧
    (∀ (s : String) (ps : List (String × String)), pairs (some s) = .ok ps →
      ∀ key value, lookup? key ps = some value ↔
        s ≠ "" ∧ ∃ before piece after, s.toList.splitOn ',' = before ++ piece :: after ∧
          keyOf piece = key ∧ valueOf piece = value ∧ ∀ p ∈ after, keyOf p ≠ key) ∧
    ∀ es : List Entry, (∀ e ∈ es, e.Legible) → (es.map (·.key)).Nodup →
      ∃ ps, pairs (some (written es)) = .ok ps ∧
        ∀ key value, lookup? key ps = some value ↔ ∃ e ∈ es, e.key = key ∧ e.value = value := by
  refine ⟨exists_pairs_iff, pairs_eq_error, fun _ _ => lookup?_eq_some_iff, fun es h hkeys => ?_⟩
  refine ⟨_, pairs_written h, fun key value => ?_⟩
  have hnodup : ((es.map fun e => (e.key, e.value)).map Prod.fst).Nodup := by
    rwa [List.map_map]
  rw [lookup?_eq_some_of_nodup hnodup, List.mem_map]
  simp only [Prod.mk.injEq]

/-- A tag with a column in two words, an empty value and blanks of several kinds. -/
theorem pairs_grammar_columnAndSize :
    ∃ ps, pairs (some " column = full name\t,size=\n") = .ok ps ∧
      ∀ key value, lookup? key ps = some value ↔
        key = "column" ∧ value = "full name" ∨ key = "size" ∧ value = "" := by
  have hcolumn : Entry.Legible ⟨"column", "full name", [' '], [' '], [' '], ['\t']⟩ :=
    { key_trimmed := ⟨by simp [Text.isBlank], by simp [Text.isBlank]⟩
      value_trimmed := ⟨by simp [Text.isBlank], by simp [Text.isBlank]⟩
      key_free := by simp
      value_free := by simp
      beforeKey := by simp [Text.isBlank]
      afterKey := by simp [Text.isBlank]
      beforeValue := by simp [Text.isBlank]
      afterValue := by simp [Text.isBlank] }
  have hsize : Entry.Legible ⟨"size", "", [], [], [], ['\n']⟩ :=
    { key_trimmed := ⟨by simp [Text.isBlank], by simp [Text.isBlank]⟩
      value_trimmed := ⟨by simp, by simp⟩
      key_free := by simp
      value_free := by simp
      beforeKey := by simp
      afterKey := by simp
      beforeValue := by simp
      afterValue := by simp [Text.isBlank] }
  obtain ⟨ps, hps, hlookup⟩ := pairs_grammar.2.2.2 [_, _]
    (List.forall_mem_cons.mpr ⟨hcolumn, List.forall_mem_singleton.mpr hsize⟩) (by simp)
  refine ⟨ps, hps, fun key value => ?_⟩
  rw [hlookup]
  simp [eq_comm]

end Tag

end RowMapper
