import Mathlib.Tactic.Common
import RowMapper.Number.Floating

/-!
# Zero in both precisions

A number of single precision that is stored with double precision is zero only if it was zero
before (`Floating.isZero_convert`): the smallest numbers of single precision are far from the
smallest ones of double precision, so the conversion keeps a leading bit of every finite number that
is not zero (`Floating.patternOfRatio_pos`).
-/

namespace RowMapper

namespace Precision

theorem signBit_pos (p : Precision) : 0 < p.signBit := by cases p <;> decide

theorem infinityBits_pos (p : Precision) : 0 < p.infinityBits := by cases p <;> decide

/-- The sign is the highest bit, above the pattern of infinity. -/
theorem infinityBits_lt_signBit (p : Precision) : p.infinityBits < p.signBit := by
  cases p <;> decide

theorem topExponent_pos (p : Precision) : 0 < p.topExponent := by cases p <;> decide

end Precision

namespace Floating

variable {p : Precision}

/-- A number is zero if no bit but its sign is set. -/
theorem isZero_iff (x : Floating p) : x.isZero = true ↔ x.bits % p.signBit = 0 := by
  have hlt := x.bits_lt
  have hpos := p.signBit_pos
  simp only [isZero, Bool.or_eq_true, beq_iff_eq]
  constructor
  · rintro (h | h)
    · rw [h, Nat.zero_mod]
    · rw [h, Nat.mod_self]
  · intro h
    obtain ⟨k, hk⟩ := Nat.dvd_of_mod_eq_zero h
    -- there are two multiples below the double of the sign bit
    have hk2 : k < 2 := by
      rw [hk, Nat.mul_comm] at hlt
      exact Nat.lt_of_mul_lt_mul_right hlt
    rcases Nat.lt_succ_iff_lt_or_eq.mp hk2 with h0 | rfl
    · left
      rw [hk, Nat.lt_one_iff.mp h0, Nat.mul_zero]
    · right
      rw [hk, Nat.mul_one]

/-- Not a number is no zero. -/
theorem isZero_nan (p : Precision) : (nan p).isZero = false := by cases p <;> decide

/-- Taking the sign off a pattern gives what it was put on. -/
theorem signed_mod (negative : Bool) {n : ℕ} (hn : n < p.signBit) :
    ((if negative then p.signBit else 0) + n) % p.signBit = n := by
  cases negative with
  | false => simp [Nat.mod_eq_of_lt hn]
  | true => simp [Nat.mod_eq_of_lt hn]

/-- A pattern up to infinity, with a sign, is the pattern of a number. -/
theorem bits_ofBits (negative : Bool) {n : ℕ} (hn : n ≤ p.infinityBits) :
    (ofBits p ((if negative then p.signBit else 0) + n)).bits =
      (if negative then p.signBit else 0) + n := by
  have hlt : n < p.signBit := Nat.lt_of_le_of_lt hn p.infinityBits_lt_signBit
  rw [ofBits, dif_pos]
  refine ⟨?_, ?_⟩
  · split <;> omega
  · rw [Precision.isNaNBits, signed_mod negative hlt]
    exact decide_eq_false (Nat.not_lt.mpr hn)

/-- A pattern up to infinity, with a sign, stands for zero if it is zero without the sign. -/
theorem isZero_ofBits (negative : Bool) {n : ℕ} (hn : n ≤ p.infinityBits) :
    (ofBits p ((if negative then p.signBit else 0) + n)).isZero = true ↔ n = 0 := by
  have hlt : n < p.signBit := Nat.lt_of_le_of_lt hn p.infinityBits_lt_signBit
  rw [isZero_iff, bits_ofBits negative hn, signed_mod negative hlt]

/-- A finite number is zero if its significand is, and its exponent is not below the least one. -/
theorem isZero_of_finite {x : Floating p} {m : ℕ} {e : Int} (h : x.magnitude = .finite m e) :
    (x.isZero = true ↔ m = 0) ∧ p.leastExponent ≤ e := by
  have hpow : 0 < Nat.pow 2 p.fractionBits := Nat.pow_pos (by decide)
  have hdiv := Nat.div_add_mod (x.bits % p.signBit) (Nat.pow 2 p.fractionBits)
  rw [isZero_iff]
  simp only [magnitude] at h
  split at h
  · split at h <;> cases h
  · split at h
    · next hexponent =>
      obtain ⟨rfl, rfl⟩ := Magnitude.finite.inj h
      rw [hexponent, Nat.mul_zero, Nat.zero_add] at hdiv
      rw [hdiv]
      exact ⟨Iff.rfl, Int.le_refl _⟩
    · next hexponent =>
      obtain ⟨rfl, rfl⟩ := Magnitude.finite.inj h
      refine ⟨⟨fun hzero => ?_, fun hzero => ?_⟩, ?_⟩
      · rw [hzero, Nat.zero_div] at hexponent
        exact absurd rfl hexponent
      · omega
      · have hpos := Nat.pos_of_ne_zero hexponent
        omega

/-- What is not finite is not zero. -/
theorem isZero_of_not_finite {x : Floating p} (h : ∀ m e, x.magnitude ≠ .finite m e) :
    x.isZero = false := by
  rw [Bool.eq_false_iff]
  intro hzero
  rw [isZero_iff] at hzero
  have htop := p.topExponent_pos
  apply h 0 p.leastExponent
  simp [magnitude, hzero, Nat.ne_of_lt htop]

/-- Rounding to the nearest never falls below the quotient. -/
theorem div_le_nearest (n d : ℕ) : n / d ≤ nearest n d := by
  unfold nearest
  dsimp only
  split
  · exact Nat.le_succ _
  · exact Nat.le_refl _

/-- The logarithm of an integer, as that of a ratio. -/
theorem ratioLog2_one {m : ℕ} (hm : m ≠ 0) : ratioLog2 m 1 = m.log2 := by
  have hlog : Nat.log2 1 = 0 := by decide
  have hle : 2 ^ m.log2 ≤ m := Nat.log2_self_le hm
  simp only [ratioLog2, hlog, Nat.pow_eq]
  rw [if_neg]
  · simp
  · simpa using hle

/-- Ratios that are too large become infinity, and nothing lies above it. -/
theorem patternOfRatio_le (p : Precision) (n d : ℕ) (e : Int) :
    patternOfRatio p n d e ≤ p.infinityBits := by
  have hpow : Nat.pow 2 p.fractionBits ≤ p.infinityBits :=
    Nat.le_mul_of_pos_left _ p.topExponent_pos
  unfold patternOfRatio
  split
  · exact Nat.zero_le _
  · dsimp only
    split
    · next hq => exact Nat.le_trans (Nat.le_of_lt hq) hpow
    · exact Nat.min_le_left _ _

/-- A number with a leading bit far enough above the smallest numbers does not become zero. -/
theorem patternOfRatio_pos {m : ℕ} (hm : m ≠ 0) {e : Int}
    (he : p.leastExponent + p.fractionBits ≤ e) : 0 < patternOfRatio p m 1 e := by
  have hlog : 2 ^ m.log2 ≤ m := Nat.log2_self_le hm
  have hunit : max p.leastExponent (m.log2 + e - p.fractionBits) = m.log2 + e - p.fractionBits := by
    omega
  have hshift : e - (m.log2 + e - p.fractionBits) = p.fractionBits - m.log2 := by omega
  -- shifted to the unit, the number fills all bits of the fraction
  have hquotient : 2 ^ p.fractionBits ≤
      m * 2 ^ ((p.fractionBits : Int) - m.log2).toNat /
        (1 * 2 ^ (-((p.fractionBits : Int) - m.log2)).toNat) := by
    rw [Nat.one_mul, Nat.le_div_iff_mul_le (Nat.pow_pos (by decide))]
    have hexponents : p.fractionBits + (-((p.fractionBits : Int) - m.log2)).toNat =
        m.log2 + ((p.fractionBits : Int) - m.log2).toNat := by omega
    calc 2 ^ p.fractionBits * 2 ^ (-((p.fractionBits : Int) - m.log2)).toNat
        = 2 ^ m.log2 * 2 ^ ((p.fractionBits : Int) - m.log2).toNat := by
          rw [← Nat.pow_add, hexponents, Nat.pow_add]
      _ ≤ m * 2 ^ ((p.fractionBits : Int) - m.log2).toNat := Nat.mul_le_mul_right _ hlog
  have hkept := Nat.le_trans hquotient (div_le_nearest _ _)
  simp only [patternOfRatio, ratioLog2_one hm, hunit, hshift, Nat.pow_eq, if_neg hm]
  rw [if_neg (Nat.not_lt.mpr hkept), Nat.lt_min]
  refine ⟨p.infinityBits_pos, Nat.add_pos_left (Nat.mul_pos ?_ (Nat.pow_pos (by decide))) _⟩
  omega

/-- A number of single precision is zero if and only if it is with double precision. -/
theorem isZero_convert (x : Floating .single) : (x.convert .double).isZero = x.isZero := by
  have hinfinity := Precision.infinityBits_pos .double
  rw [Bool.eq_iff_iff, convert]
  cases h : x.magnitude with
  | nan =>
    have hx : x.isZero = false := isZero_of_not_finite (by simp [h])
    rw [hx]
    simp [isZero_nan]
  | infinite =>
    have hx : x.isZero = false := isZero_of_not_finite (by simp [h])
    rw [hx, isZero_ofBits _ (Nat.le_refl _)]
    simp [Nat.ne_of_gt hinfinity]
  | finite m e =>
    obtain ⟨hzero, hleast⟩ := isZero_of_finite h
    -- no number is too small for a double, so none is rounded to zero
    have he : Precision.double.leastExponent + Precision.double.fractionBits ≤ e :=
      Int.le_trans (by decide) hleast
    show (ofRatio .double x.isNegative m 1 e).isZero = true ↔ _
    rw [hzero, ofRatio, isZero_ofBits _ (patternOfRatio_le _ _ _ _)]
    constructor
    · intro hpattern
      by_contra hm
      exact absurd hpattern (Nat.ne_of_gt (patternOfRatio_pos hm he))
    · rintro rfl
      rfl

end Floating

end RowMapper
