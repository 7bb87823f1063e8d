import Mathlib.Algebra.Group.Nat.Defs
import RowMapper.Proofs.Number.Widening

/-!
# Widened numbers come back

A number of single precision that is stored with double precision and narrowed again is the number
that it was (`Floating.convert_convert`).

Both steps round, and neither changes anything: every number of single precision is one of double
precision too, with a longer significand (`Finite.widen`), and a number that a precision has is
rounded to its own pattern, whatever powers of two stand between its significand and its exponent
(`Finite.patternOfRatio_eq`).
-/

namespace RowMapper

namespace Floating

variable {p : Precision}

/-- The pattern without a sign, the significand and the exponent of a finite number. Either there is
no leading bit and the exponent is the least one, or the exponent is written before the rest of the
significand. -/
inductive Finite (p : Precision) : ℕ → ℕ → Int → Prop
  | small {m : ℕ} (hm : m < 2 ^ p.fractionBits) : Finite p m m p.leastExponent
  | leading {k fraction : ℕ} (hk : k + 1 < p.topExponent)
      (hfraction : fraction < 2 ^ p.fractionBits) :
      Finite p ((k + 1) * 2 ^ p.fractionBits + fraction) (2 ^ p.fractionBits + fraction)
        (p.leastExponent + k)

/-! ## Exact rounding -/

/-- A ratio that is a whole number is rounded to it. -/
theorem nearest_mul (m : ℕ) {d : ℕ} (hd : 0 < d) : nearest (m * d) d = m := by
  simp [nearest, Nat.mul_div_cancel m hd, Nat.ne_of_gt hd]

/-- A power of two moves the leading bit. -/
theorem log2_mul_two_pow {m : ℕ} (hm : m ≠ 0) (k : ℕ) : (m * 2 ^ k).log2 = m.log2 + k := by
  have hpow : m * 2 ^ k ≠ 0 := Nat.mul_ne_zero hm (Nat.ne_of_gt (Nat.two_pow_pos k))
  obtain ⟨hle, hlt⟩ := (Nat.log2_eq_iff hm).mp rfl
  refine (Nat.log2_eq_iff hpow).mpr ⟨?_, ?_⟩
  · rw [Nat.pow_add]
    exact Nat.mul_le_mul_right _ hle
  · rw [Nat.add_right_comm, Nat.pow_add]
    exact Nat.mul_lt_mul_of_pos_right hlt (Nat.two_pow_pos k)

/-- A product with a power of two, divided by a power of two, is rounded to the quotient if that is
exact. -/
theorem nearest_two_pow {a m i k : ℕ} (h : a * 2 ^ i = m * 2 ^ k) :
    nearest (a * 2 ^ ((i : Int) - k).toNat) (2 ^ ((k : Int) - i).toNat) = m := by
  suffices hexact : a * 2 ^ ((i : Int) - k).toNat = m * 2 ^ ((k : Int) - i).toNat by
    rw [hexact, nearest_mul m (Nat.two_pow_pos _)]
  refine Nat.eq_of_mul_eq_mul_right (Nat.two_pow_pos (min i k)) ?_
  have hi : ((i : Int) - k).toNat + min i k = i := by omega
  have hk : ((k : Int) - i).toNat + min i k = k := by omega
  rw [Nat.mul_assoc, Nat.mul_assoc, ← Nat.pow_add, ← Nat.pow_add, hi, hk, h]

namespace Finite

variable {n m : ℕ} {e : Int}

/-- The exponent of a number that is not zero is as low as its leading bit allows, but not below the
least one. -/
theorem max_exponent (h : Finite p n m e) (hm : m ≠ 0) :
    max p.leastExponent (m.log2 + e - p.fractionBits) = e := by
  cases h with
  | small hlt =>
    have hlog := (Nat.log2_lt hm).mpr hlt
    omega
  | @leading k fraction _ hfraction =>
    have hlog : (2 ^ p.fractionBits + fraction).log2 = p.fractionBits :=
      (Nat.log2_eq_iff hm).mpr ⟨Nat.le_add_right _ _, by rw [Nat.pow_succ]; omega⟩
    omega

/-- The patterns of finite numbers are below that of infinity. -/
theorem lt_infinityBits (h : Finite p n m e) : n < p.infinityBits := by
  have htop : p.infinityBits = p.topExponent * 2 ^ p.fractionBits := rfl
  rw [htop]
  cases h with
  | small hm => exact Nat.lt_of_lt_of_le hm (Nat.le_mul_of_pos_left _ p.topExponent_pos)
  | @leading k fraction hk hfraction =>
    calc (k + 1) * 2 ^ p.fractionBits + fraction
        < (k + 1) * 2 ^ p.fractionBits + 2 ^ p.fractionBits := Nat.add_lt_add_left hfraction _
      _ = (k + 1 + 1) * 2 ^ p.fractionBits := (Nat.succ_mul _ _).symm
      _ ≤ p.topExponent * 2 ^ p.fractionBits := Nat.mul_le_mul_right _ hk

/-- The significand and the exponent are in the ranges of the precision. -/
theorem bounds (h : Finite p n m e) :
    m < 2 ^ (p.fractionBits + 1) ∧ p.leastExponent ≤ e ∧ e < p.leastExponent + p.topExponent := by
  have htop := p.topExponent_pos
  rw [Nat.pow_succ]
  cases h with
  | small hm => omega
  | leading => omega

/-- Putting a significand behind its exponent gives the pattern. -/
theorem pattern_eq (h : Finite p n m e) :
    (if m < 2 ^ p.fractionBits then m
      else min p.infinityBits ((e - p.leastExponent + 1).toNat * 2 ^ p.fractionBits +
        (m - 2 ^ p.fractionBits))) = n := by
  have hlt := h.lt_infinityBits
  cases h with
  | small hm => rw [if_pos hm]
  | @leading k fraction =>
    have hexponent : (p.leastExponent + k - p.leastExponent + 1).toNat = k + 1 := by omega
    rw [if_neg (by omega), hexponent, Nat.add_sub_cancel_left]
    exact Nat.min_eq_right (Nat.le_of_lt hlt)

/-- A number that a precision has is rounded to its own pattern. -/
theorem patternOfRatio_eq (h : Finite p n m e) {a i k : ℕ} (ha : a * 2 ^ i = m * 2 ^ k) :
    patternOfRatio p a 1 (e - k + i) = n := by
  have hpattern := h.pattern_eq
  by_cases hm : m = 0
  · subst hm
    have hzero : a = 0 := by
      rw [Nat.zero_mul] at ha
      exact (Nat.mul_eq_zero.mp ha).resolve_right (Nat.ne_of_gt (Nat.two_pow_pos i))
    rw [if_pos (Nat.two_pow_pos _)] at hpattern
    rw [patternOfRatio, if_pos hzero, hpattern]
  have hne : a ≠ 0 := by
    rintro rfl
    rw [Nat.zero_mul] at ha
    exact absurd ha.symm (Nat.mul_ne_zero hm (Nat.ne_of_gt (Nat.two_pow_pos k)))
  have hlog : a.log2 + i = m.log2 + k := by
    rw [← log2_mul_two_pow hne, ha, log2_mul_two_pow hm]
  -- the exponent follows from the leading bit alone, wherever the powers of two stand
  have hunit : max p.leastExponent (a.log2 + (e - k + i) - p.fractionBits) = e := by
    have hsame : (a.log2 : Int) + (e - k + i) - p.fractionBits = m.log2 + e - p.fractionBits := by
      omega
    rw [hsame, h.max_exponent hm]
  have hshift : e - k + i - e = (i : Int) - k := by omega
  have hback : -((i : Int) - k) = (k : Int) - i := by omega
  simp only [patternOfRatio, if_neg hne, ratioLog2_one hne, hunit, hshift, hback, Nat.pow_eq,
    Nat.one_mul, nearest_two_pow ha]
  exact hpattern

/-- A number of single precision is one of double precision, with a longer significand. -/
theorem widen (h : Finite .single n m e) :
    ∃ n' j : ℕ, Finite .double n' (m * 2 ^ j) (e - j) := by
  obtain ⟨hlt, hleast, hgreatest⟩ := h.bounds
  simp only [Precision.fractionBits, Precision.leastExponent] at hlt hleast
  have htop : Precision.single.topExponent = 255 := by decide
  rw [htop, Precision.leastExponent] at hgreatest
  by_cases hm : m = 0
  · -- zero has the least exponent in both precisions
    cases h with
    | small =>
      obtain ⟨j, hj⟩ : ∃ j : ℕ, Precision.single.leastExponent - j =
          Precision.double.leastExponent := ⟨925, rfl⟩
      refine ⟨0, j, ?_⟩
      rw [hm, Nat.zero_mul, hj]
      exact .small (by decide)
    | leading => omega
  -- the leading bit moves to where double precision has it; its exponents reach far enough down
  have hlog : m.log2 < 24 := (Nat.log2_lt hm).mpr hlt
  have hlead := (Nat.log2_eq_iff (Nat.mul_ne_zero hm (Nat.ne_of_gt (Nat.two_pow_pos
    (52 - m.log2))))).mp (log2_mul_two_pow hm (52 - m.log2))
  have hsum : m.log2 + (52 - m.log2) = 52 := by omega
  rw [hsum] at hlead
  obtain ⟨fraction, hfraction⟩ := Nat.exists_eq_add_of_le hlead.1
  obtain ⟨k, hk⟩ := Int.eq_ofNat_of_zero_le
    (show 0 ≤ e - (52 - m.log2 : ℕ) + 1074 by omega)
  have hexponent : e - (52 - m.log2 : ℕ) = Precision.double.leastExponent + k := by
    rw [Precision.leastExponent]
    omega
  refine ⟨(k + 1) * 2 ^ 52 + fraction, 52 - m.log2, ?_⟩
  rw [hfraction, hexponent]
  refine .leading ?_ ?_
  · have hdouble : Precision.double.topExponent = 2047 := by decide
    rw [hdouble]
    omega
  · show fraction < 2 ^ 52
    omega

end Finite

/-! ## Numbers -/

/-- The exponent of a pattern without a sign is one that the precision has. -/
theorem exponent_le {n : ℕ} (hn : n < p.signBit) : n / 2 ^ p.fractionBits ≤ p.topExponent := by
  have hsign : p.signBit = 2 ^ p.fractionBits * (p.topExponent + 1) := by cases p <;> rfl
  rw [hsign] at hn
  exact Nat.le_of_lt_succ (Nat.div_lt_of_lt_mul hn)

/-- A number is finite if its pattern without the sign is that of a finite number. -/
theorem magnitude_eq_finite {x : Floating p} {m : ℕ} {e : Int} :
    x.magnitude = .finite m e ↔ Finite p (x.bits % p.signBit) m e := by
  have hpow : 0 < 2 ^ p.fractionBits := Nat.two_pow_pos _
  have htop := p.topExponent_pos
  have hle := exponent_le (Nat.mod_lt x.bits p.signBit_pos)
  simp only [magnitude, Nat.pow_eq]
  generalize x.bits % p.signBit = plain at hle ⊢
  have hdiv := Nat.div_add_mod plain (2 ^ p.fractionBits)
  have hmod := Nat.mod_lt plain hpow
  constructor
  · intro h
    split at h
    · split at h <;> cases h
    · next hfinite =>
      split at h
      · next hexponent =>
        obtain ⟨rfl, rfl⟩ := Magnitude.finite.inj h
        rw [hexponent, Nat.mul_zero, Nat.zero_add] at hdiv
        rw [hdiv] at hmod ⊢
        exact .small hmod
      · next hexponent =>
        obtain ⟨rfl, rfl⟩ := Magnitude.finite.inj h
        obtain ⟨k, hk⟩ := Nat.exists_eq_succ_of_ne_zero hexponent
        rw [hk] at hdiv hle hfinite ⊢
        have hwritten := Finite.leading (p := p) (k := k) (by omega) hmod
        rw [Nat.mul_comm, hdiv] at hwritten
        have he : p.leastExponent + ((k.succ : ℕ) : Int) - 1 = p.leastExponent + k := by omega
        rw [he]
        exact hwritten
  · intro h
    cases h with
    | small hm =>
      simp only [Nat.div_eq_of_lt hm, Nat.mod_eq_of_lt hm, if_neg (Nat.ne_of_lt htop), if_true]
    | @leading k fraction hk hfraction =>
      have hexponent : ((k + 1) * 2 ^ p.fractionBits + fraction) / 2 ^ p.fractionBits = k + 1 := by
        rw [Nat.add_comm, Nat.add_mul_div_right _ _ hpow, Nat.div_eq_of_lt hfraction, Nat.zero_add]
      have hrest : ((k + 1) * 2 ^ p.fractionBits + fraction) % 2 ^ p.fractionBits = fraction := by
        rw [Nat.add_comm, Nat.add_mul_mod_self_right, Nat.mod_eq_of_lt hfraction]
      have he : p.leastExponent + ((k + 1 : ℕ) : Int) - 1 = p.leastExponent + k := by omega
      simp only [hexponent, hrest, if_neg (Nat.ne_of_lt hk), if_neg (Nat.succ_ne_zero k), he]

/-- There is one pattern for what is no number. -/
theorem eq_nan_of_magnitude {x : Floating p} (h : x.magnitude = .nan) : x = nan p := by
  have hdiv := Nat.div_add_mod (x.bits % p.signBit) (2 ^ p.fractionBits)
  simp only [magnitude, Nat.pow_eq] at h
  split at h
  · next htop =>
    split at h
    · cases h
    · next hfraction =>
      have hinfinity : p.infinityBits = 2 ^ p.fractionBits * p.topExponent := Nat.mul_comm _ _
      rw [htop, ← hinfinity] at hdiv
      have hnan : p.isNaNBits x.bits = true := decide_eq_true (by omega)
      obtain ⟨bits, hlt, hcanonical⟩ := x
      obtain rfl := hcanonical hnan
      rfl
  · split at h <;> cases h

/-- Without its sign, infinity has one pattern. -/
theorem magnitude_eq_infinite {x : Floating p} :
    x.magnitude = .infinite ↔ x.bits % p.signBit = p.infinityBits := by
  have hdiv := Nat.div_add_mod (x.bits % p.signBit) (2 ^ p.fractionBits)
  have hinfinity : p.infinityBits = 2 ^ p.fractionBits * p.topExponent := Nat.mul_comm _ _
  simp only [magnitude, Nat.pow_eq]
  constructor
  · intro h
    split at h
    · next htop =>
      split at h
      · next hfraction =>
        rw [htop, ← hinfinity, hfraction] at hdiv
        exact hdiv.symm
      · cases h
    · split at h <;> cases h
  · intro h
    have htop := Nat.mul_div_cancel_left p.topExponent (Nat.two_pow_pos p.fractionBits)
    simp only [h, hinfinity, htop, Nat.mul_mod_right, if_true]

/-- The magnitude of a number is that of its pattern without the sign. -/
theorem mod_ofBits (negative : Bool) {n : ℕ} (hn : n ≤ p.infinityBits) :
    (ofBits p ((if negative then p.signBit else 0) + n)).bits % p.signBit = n := by
  rw [bits_ofBits negative hn, signed_mod negative]
  exact Nat.lt_of_le_of_lt hn p.infinityBits_lt_signBit

/-- The sign of a pattern is that of the number, zero included. -/
theorem isNegative_ofBits (negative : Bool) {n : ℕ} (hn : n ≤ p.infinityBits) :
    (ofBits p ((if negative then p.signBit else 0) + n)).isNegative = negative := by
  have hlt : n < p.signBit := Nat.lt_of_le_of_lt hn p.infinityBits_lt_signBit
  rw [isNegative, bits_ofBits negative hn]
  cases negative with
  | false => simp [Nat.not_le.mpr hlt]
  | true => simp

/-- A number is its pattern without the sign, and its sign. -/
theorem ofBits_signed {x : Floating p} (hx : x.bits % p.signBit ≤ p.infinityBits) :
    ofBits p ((if x.isNegative then p.signBit else 0) + x.bits % p.signBit) = x := by
  have hlt := x.bits_lt
  have hbits : (if x.isNegative then p.signBit else 0) + x.bits % p.signBit = x.bits := by
    simp only [isNegative, decide_eq_true_eq]
    split
    · next h =>
      rw [Nat.mod_eq_sub_mod h, Nat.mod_eq_of_lt (by omega)]
      omega
    · next h => rw [Nat.mod_eq_of_lt (by omega), Nat.zero_add]
  have hpattern := bits_ofBits x.isNegative hx
  rw [hbits] at hpattern ⊢
  cases x
  exact (mk.injEq ..).mpr hpattern

/-- A number of single precision survives being stored with double precision. -/
theorem convert_convert (x : Floating .single) : (x.convert .double).convert .single = x := by
  cases h : x.magnitude with
  | nan =>
    rw [eq_nan_of_magnitude h]
    decide
  | infinite =>
    have hbits := magnitude_eq_infinite.mp h
    have hwide : x.convert .double = ofBits .double
        ((if x.isNegative then Precision.double.signBit else 0) +
          Precision.double.infinityBits) := by
      rw [convert, h]
    have hinfinite := magnitude_eq_infinite.mpr (mod_ofBits (p := .double) x.isNegative
      (Nat.le_refl _))
    rw [hwide, convert, hinfinite]
    simp only [isNegative_ofBits x.isNegative (Nat.le_refl _)]
    rw [← hbits]
    exact ofBits_signed (Nat.le_of_eq hbits)
  | finite m e =>
    have hnarrow := magnitude_eq_finite.mp h
    obtain ⟨n', j, hwider⟩ := hnarrow.widen
    -- widening is exact
    have hpattern : patternOfRatio .double m 1 e = n' := by
      have hexact := hwider.patternOfRatio_eq (a := m) (i := j) (k := 0) (by simp)
      simpa using hexact
    have hwide : x.convert .double =
        ofBits .double ((if x.isNegative then Precision.double.signBit else 0) + n') := by
      rw [convert, h, ← hpattern]
      rfl
    have hle := Nat.le_of_lt hwider.lt_infinityBits
    have hfinite : (x.convert .double).magnitude = .finite (m * 2 ^ j) (e - j) := by
      rw [magnitude_eq_finite, hwide, mod_ofBits _ hle]
      exact hwider
    have hsign : (x.convert .double).isNegative = x.isNegative := by
      rw [hwide, isNegative_ofBits _ hle]
    -- and so is narrowing
    have hback : patternOfRatio .single (m * 2 ^ j) 1 (e - j) =
        x.bits % Precision.single.signBit := by
      have hexact := hnarrow.patternOfRatio_eq (a := m * 2 ^ j) (i := 0) (k := j) (by simp)
      simpa using hexact
    rw [convert, hfinite]
    simp only [hsign, ofRatio, hback]
    exact ofBits_signed (Nat.le_of_lt hnarrow.lt_infinityBits)

end Floating

end RowMapper
