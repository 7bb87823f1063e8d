import Mathlib.Algebra.Group.Nat.Defs
import RowMapper.Field.Codec

/-!
# Dates and timestamps written and read back

A date is read from its own text, whatever its year is (`Calendar.readDate_dateText`). A timestamp
that is stored and read back is the timestamp without its fraction of a second, and so is an
instant (`Timestamp.decode_encode_wholeSeconds`): all else comes back, leap seconds too, but the
text has no place for the fraction.
-/

namespace RowMapper

namespace Calendar

/-! ## Numbers -/

/-- Digits that follow are added to the value of those before. -/
theorem digitsValue_append (cs ds : List Char) :
    digitsValue (cs ++ ds) = Nat.ofDigitChars 10 ds (digitsValue cs) := by
  simp [digitsValue, Nat.ofDigitChars, Nat.mul_comm]

/-- Zeros in front do not count. -/
theorem digitsValue_zeros (k : Nat) : digitsValue (List.replicate k '0') = 0 := by
  induction k with
  | zero => rfl
  | succ k ih =>
    rw [List.replicate_succ', digitsValue_append, ih]
    rfl

/-- A padded number has the value of the number. -/
theorem digitsValue_padded (width n : Nat) : digitsValue (padded width n) = n := by
  simp only [padded]
  rw [digitsValue_append, digitsValue_zeros]
  exact Nat.ofDigitChars_toDigits (by decide) (by decide)

/-- It consists of digits, the zeros included. -/
theorem isDigit_of_mem_padded {width n : Nat} {c : Char} (h : c ∈ padded width n) :
    c.isDigit = true := by
  rcases List.mem_append.mp h with hzero | hdigit
  · rw [(List.mem_replicate.mp hzero).2]
    decide
  · exact Nat.isDigit_of_mem_toDigits (by decide) (by decide) hdigit

theorem padded_ne_nil (width n : Nat) : padded width n ≠ [] :=
  List.append_ne_nil_of_right_ne_nil _ Nat.toDigits_ne_nil

/-- A number that fits is padded to its width exactly. -/
theorem length_padded {width n : Nat} (hwidth : 0 < width) (hn : n < 10 ^ width) :
    (padded width n).length = width := by
  have hle := (Nat.length_toDigits_le_iff (by decide : 1 < 10) hwidth).mpr hn
  simp only [padded, List.length_append, List.length_replicate]
  omega

theorem isBlank_of_isDigit {c : Char} (h : c.isDigit = true) : Text.isBlank c = false := by
  simp only [Char.isDigit, Bool.and_eq_true, decide_eq_true_eq, UInt32.le_iff_toNat_le,
    ge_iff_le] at h
  have hleast : 48 ≤ c.toNat := h.1
  have hgreatest : c.toNat ≤ 57 := h.2
  simp only [Text.isBlank, Bool.or_eq_false_iff, Bool.and_eq_false_iff, decide_eq_false_iff_not,
    beq_eq_false_iff_ne]
  omega

/-- Digits are read up to the width, or up to something that is no digit. -/
theorem readDigits_append {width : Nat} {ds rest : List Char} (hne : ds ≠ [])
    (hdigits : ∀ c ∈ ds, c.isDigit = true) (hwidth : ds.length ≤ width)
    (hstop : ds.length = width ∨ ∀ c ∈ rest.head?, c.isDigit = false) :
    readDigits width (ds ++ rest) = some (digitsValue ds, rest) := by
  have hrest : (rest.take (width - ds.length)).takeWhile Char.isDigit = [] := by
    rcases hstop with hfull | hend
    · simp [hfull]
    · cases rest with
      | nil => simp
      | cons c cs =>
        have hc := hend c rfl
        cases width - ds.length <;> simp [hc]
  have hread : ((ds ++ rest).take width).takeWhile Char.isDigit = ds := by
    rw [List.take_append, List.take_of_length_le hwidth, List.takeWhile_append_of_pos hdigits,
      hrest, List.append_nil]
  simp [readDigits, hread, hne]

/-- A padded number begins with a digit. -/
theorem padded_eq_cons (width n : Nat) :
    ∃ c cs, padded width n = c :: cs ∧ c.isDigit = true := by
  obtain ⟨c, cs, h⟩ := List.exists_cons_of_ne_nil (padded_ne_nil width n)
  exact ⟨c, cs, h, isDigit_of_mem_padded (h ▸ List.mem_cons_self)⟩

theorem trimStart_of_isDigit {c : Char} (hc : c.isDigit = true) (cs : List Char) :
    Text.trimStart (c :: cs) = c :: cs := by
  simp [Text.trimStart, isBlank_of_isDigit hc]

/-- A number that fits into its width is read back, whatever follows it. -/
theorem readDigits_padded {width n : Nat} (hwidth : 0 < width) (hn : n < 10 ^ width)
    (rest : List Char) : readDigits width (padded width n ++ rest) = some (n, rest) := by
  have hlength := length_padded hwidth hn
  rw [readDigits_append (padded_ne_nil width n) (fun _ => isDigit_of_mem_padded)
    (Nat.le_of_eq hlength) (.inl hlength), digitsValue_padded]

/-- As it has no blank in front, nothing is trimmed. -/
theorem readNumber_padded {width n : Nat} (hwidth : 0 < width) (hn : n < 10 ^ width)
    (rest : List Char) : readNumber width (padded width n ++ rest) = some (n, rest) := by
  obtain ⟨c, cs, hpadded, hc⟩ := padded_eq_cons width n
  have hstart := trimStart_of_isDigit hc (cs ++ rest)
  rw [← List.cons_append, ← hpadded] at hstart
  rw [readNumber, hstart, readDigits_padded hwidth hn]

/-! ## Dates -/

/-- A year without a sign has four digits at most. -/
theorem readYear_of_isDigit {c : Char} (hc : c.isDigit = true) (cs : List Char) :
    readYear (c :: cs) = (readDigits 4 (c :: cs)).map fun (n, rest) => ((n : Int), rest) := by
  rw [readYear, trimStart_of_isDigit hc]
  split
  · next heq =>
    obtain ⟨rfl, -⟩ := List.cons.inj heq
    exact absurd hc (by decide)
  · next heq =>
    obtain ⟨rfl, -⟩ := List.cons.inj heq
    exact absurd hc (by decide)
  · rfl

/-- A year is read back up to something that is no digit, with or without a sign. -/
theorem readYear_yearText (year : Int) {rest : List Char}
    (hrest : ∀ c ∈ rest.head?, c.isDigit = false) :
    readYear (yearText year ++ rest) = some (year, rest) := by
  -- behind a sign the digits go on up to what follows the year
  have hsigned : readDigits (padded 4 year.natAbs ++ rest).length (padded 4 year.natAbs ++ rest) =
      some (year.natAbs, rest) := by
    rw [readDigits_append (padded_ne_nil _ _) (fun _ => isDigit_of_mem_padded) (by simp)
      (.inr hrest), digitsValue_padded]
  by_cases hplain : 0 ≤ year ∧ year ≤ 9999
  · obtain ⟨c, cs, hpadded, hc⟩ := padded_eq_cons 4 year.toNat
    have hread := readYear_of_isDigit hc (cs ++ rest)
    rw [← List.cons_append, ← hpadded, readDigits_padded (by decide) (by omega)] at hread
    rw [yearText, if_pos hplain, hread]
    simp [Int.toNat_of_nonneg hplain.1]
  · by_cases hnegative : year < 0
    · have hread : readYear ('-' :: (padded 4 year.natAbs ++ rest)) =
          (readDigits _ (padded 4 year.natAbs ++ rest)).map fun (n, rest) => (-(n : Int), rest) :=
        rfl
      have hvalue : -(year.natAbs : Int) = year := by omega
      rw [yearText, if_neg hplain, if_pos hnegative, List.cons_append, hread, hsigned]
      simp only [Option.map_some, hvalue]
    · have hread : readYear ('+' :: (padded 4 year.natAbs ++ rest)) =
          (readDigits _ (padded 4 year.natAbs ++ rest)).map fun (n, rest) => ((n : Int), rest) :=
        rfl
      have hvalue : (year.natAbs : Int) = year := by omega
      rw [yearText, if_neg hplain, if_neg hnegative, List.cons_append, hread, hsigned]
      simp only [Option.map_some, hvalue]

/-- The month and the day of a date have two digits at most. -/
theorem month_day_lt (d : Date) : d.month < 100 ∧ d.day < 100 := by
  have hvalid := d.valid
  simp only [isDate, Bool.and_eq_true, decide_eq_true_eq] at hvalid
  obtain ⟨⟨-, hleast⟩, hday⟩ := hvalid
  unfold daysInMonth at hday
  -- every number of a month is a number below thirteen, and no month has more than 31 days
  split at hday
  case h_12 => split at hday <;> omega
  all_goals omega

theorem readMark_self (mark : Char) (rest : List Char) : readMark mark (mark :: rest) = some rest :=
  if_pos rfl

/-- A date is found by its own year, month and day. -/
theorem of?_self (d : Date) : Date.of? d.year d.month d.day = some d := dif_pos d.valid

/-- A date is read back, whatever follows it. -/
theorem readDate_dateText (d : Date) (rest : List Char) :
    readDate (dateText d ++ rest) = some (d, rest) := by
  obtain ⟨hmonth, hday⟩ := month_day_lt d
  have hcut : dateText d ++ rest = yearText d.year ++
      '-' :: (padded 2 d.month ++ '-' :: (padded 2 d.day ++ rest)) := by
    simp [dateText]
  have hyear : ∀ cs : List Char, ∀ c ∈ ('-' :: cs).head?, c.isDigit = false := by
    intro cs c hc
    obtain rfl : '-' = c := Option.some.inj hc
    decide
  rw [hcut, readDate, readYear_yearText d.year (hyear _)]
  simp only [Option.bind_eq_bind, Option.bind_some, readMark_self,
    readNumber_padded (by decide : 0 < 2) hmonth, readNumber_padded (by decide : 0 < 2) hday,
    of?_self]
  rfl

end Calendar

/-! ## Timestamps -/

namespace Timestamp

/-- The timestamp without its fraction of a second. The nanoseconds of a leap second count from a
thousand million on, and those that make it one stay. -/
def wholeSeconds (t : Timestamp) : Timestamp where
  date := t.date
  hour := t.hour
  minute := t.minute
  second := t.second
  nanosecond := t.nanosecond / 1000000000 * 1000000000
  valid := by
    have hvalid := t.valid
    simp only [Calendar.isTime, Bool.and_eq_true, Bool.or_eq_true, decide_eq_true_eq,
      beq_iff_eq] at hvalid ⊢
    omega

theorem of?_wholeSeconds (t : Timestamp) :
    of? t.date t.hour t.minute t.second (t.nanosecond / 1000000000 * 1000000000) =
      some t.wholeSeconds :=
  dif_pos t.wholeSeconds.valid

/-- A timestamp that has no fraction of a second is its whole seconds, and only such a one. -/
theorem wholeSeconds_eq_self_iff (t : Timestamp) :
    t.wholeSeconds = t ↔ t.nanosecond % 1000000000 = 0 := by
  cases t
  simp only [wholeSeconds, mk.injEq, true_and]
  omega

end Timestamp

namespace Calendar

/-- A time of day is read back; a second of sixty is the leap second after the fifty-ninth. -/
theorem readTime_padded (date : Date) {hour minute second : Nat} (hhour : hour < 100)
    (hminute : minute < 100) (hsecond : second < 100) :
    readTime date (padded 2 hour ++ ':' :: (padded 2 minute ++ ':' :: padded 2 second)) =
      if second = 60 then Timestamp.of? date hour minute 59 1000000000
      else Timestamp.of? date hour minute second 0 := by
  have hlast := readNumber_padded (by decide : 0 < 2) hsecond []
  rw [List.append_nil] at hlast
  simp only [readTime, Option.bind_eq_bind, Option.bind_some, readMark_self, hlast,
    readNumber_padded (by decide : 0 < 2) hhour, readNumber_padded (by decide : 0 < 2) hminute]
  rfl

/-- A leap second is written as second 60 and read as one, any other second as it is. -/
theorem readTime_timeText (t : Timestamp) :
    readTime t.date (timeText t) = some t.wholeSeconds := by
  have hvalid := t.valid
  simp only [isTime, Bool.and_eq_true, Bool.or_eq_true, decide_eq_true_eq, beq_iff_eq] at hvalid
  obtain ⟨⟨⟨hhour, hminute⟩, hsecond⟩, hnanosecond⟩ := hvalid
  rw [← t.of?_wholeSeconds, timeText]
  by_cases hleap : t.nanosecond < 1000000000
  · have hwhole : t.nanosecond / 1000000000 * 1000000000 = 0 := by omega
    rw [if_pos hleap, readTime_padded t.date (by omega) (by omega) (by omega),
      if_neg (by omega), hwhole]
  · have hlast : t.second = 59 := by omega
    have hwhole : t.nanosecond / 1000000000 * 1000000000 = 1000000000 := by omega
    rw [if_neg hleap, hlast, readTime_padded t.date (by omega) (by omega) (by decide),
      if_pos rfl, hwhole]

/-- A timestamp is read back without its fraction of a second. -/
theorem timestampOfText?_timestampText (t : Timestamp) :
    timestampOfText? (timestampText t) = some t.wholeSeconds := by
  obtain ⟨c, cs, htime, hc⟩ : ∃ c cs, timeText t = c :: cs ∧ c.isDigit = true := by
    obtain ⟨c, cs, hpadded, hc⟩ := padded_eq_cons 2 t.hour
    exact ⟨c, _, by rw [timeText, hpadded, List.cons_append], hc⟩
  have hblank : Text.trimStart (' ' :: timeText t) = timeText t := by
    rw [htime]
    exact trimStart_of_isDigit hc cs
  simp only [timestampOfText?, timestampText, readDate_dateText, Option.bind_eq_bind,
    Option.bind_some, hblank, readTime_timeText]
  rfl

end Calendar

namespace Timestamp

/-- What is read back from the text of a timestamp is all but its fraction. -/
theorem decode_encode_text (t : Timestamp) :
    decode (.text (String.ofList (Calendar.timestampText t))) = .ok t.wholeSeconds := by
  simp only [decode, String.toList_ofList, Calendar.timestampOfText?_timestampText]

/-- A timestamp that is stored and read back is the timestamp without its fraction of a second, as
an instant too: it is the same exactly if it has no fraction. -/
theorem decode_encode_wholeSeconds (t : Timestamp) :
    FieldType.timestamp.decode (FieldType.timestamp.encode t) = .ok t.wholeSeconds ∧
      FieldType.instant.decode (FieldType.instant.encode t) = .ok t.wholeSeconds ∧
      (t.wholeSeconds = t ↔ t.nanosecond % 1000000000 = 0) :=
  ⟨decode_encode_text t, decode_encode_text t, wholeSeconds_eq_self_iff t⟩

/-- Half a second after the start of 1970. -/
def halfSecond : Timestamp := ⟨.epoch, 0, 0, 0, 500000000, by decide⟩

/-- Half a second after the start of 1970 is stored, and read back, as the start of 1970. -/
theorem fraction_lost :
    FieldType.timestamp.encode halfSecond = .text "1970-01-01 00:00:00" ∧
      FieldType.timestamp.decode (FieldType.timestamp.encode halfSecond) = .ok epoch ∧
      FieldType.instant.decode (FieldType.instant.encode halfSecond) = .ok epoch ∧
      halfSecond ≠ epoch :=
  ⟨rfl, decode_encode_text halfSecond, decode_encode_text halfSecond, by decide⟩

end Timestamp

end RowMapper
