import Stylesheet.Number.Binary32
import Stylesheet.Number.Decimal
import Stylesheet.Proofs.Number.Nearest

/-! The bits of a number as its sign and its magnitude.

Significand and scale of every number are in the normal form of the format. From a sign
and a finite magnitude of the format the bits are rebuilt, and they give both back. So the
number that a decimal rounds to is known by its sign and by being nearest. -/
namespace Stylesheet

attribute [local instance(2000)] instPowNat

/-- A decimal is the quotient of two natural numbers. -/
def Decimal.num (d : Decimal) : Nat := d.digits * 10 ^ d.exponent.toNat

/-- A negative exponent makes the denominator. -/
def Decimal.den (d : Decimal) : Nat := 10 ^ (-d.exponent).toNat

theorem Decimal.den_pos (d : Decimal) : 0 < d.den := Nat.pow_pos (by omega)

namespace Binary32

variable {x y : Binary32} {negative : Bool} {d : Decimal}

/-! ### Fields -/

/-- The fields have as many bits as the format gives them. -/
theorem fractionField_lt (x : Binary32) : x.fractionField < 2 ^ (23 : Nat) :=
  Nat.mod_lt _ (Nat.two_pow_pos 23)

/-- The largest exponent is left for what is not finite. -/
theorem exponentField_lt (h : x.isFinite) : x.exponentField < 255 := by
  have hlt : x.exponentField < 2 ^ (8 : Nat) := Nat.mod_lt _ (Nat.two_pow_pos 8)
  have hne : x.exponentField ≠ 255 := by simpa [isFinite] using h
  omega

/-- **The bits are the three fields side by side.** -/
theorem bits_eq (x : Binary32) :
    x.bits.toNat = (if x.negative then 2 ^ (31 : Nat) else 0) +
      x.exponentField * 2 ^ (23 : Nat) + x.fractionField := by
  have hlt := x.bits.toNat_lt
  unfold negative exponentField fractionField
  split
  case isTrue h =>
    have := of_decide_eq_true h
    omega
  case isFalse h =>
    have : ¬ 2 ^ (31 : Nat) ≤ x.bits.toNat := fun hle => h (decide_eq_true hle)
    omega

/-- The significand has a leading bit unless the number is subnormal. -/
theorem normal (x : Binary32) : BinaryFormat.single.Normal x.significand x.scale := by
  have hfraction := x.fractionField_lt
  unfold significand scale BinaryFormat.single
  split
  case isTrue h => exact ⟨by simp only; omega, by simp only; omega⟩
  case isFalse h => exact ⟨by simp only; omega, by simp only; omega⟩

/-- A finite number has a scale of 253 at most. -/
theorem scale_le (h : x.isFinite) : x.scale ≤ 253 := by
  have := exponentField_lt h
  unfold scale
  omega

theorem significand_ne_zero (h : x.magnitude ≠ 0) : x.significand ≠ 0 := by
  intro hzero
  exact h (by rw [magnitude, hzero, Nat.zero_mul])

/-- A finite number is less than the infinity would be. -/
theorem magnitude_lt (h : x.isFinite) : x.magnitude < infinityMagnitude := by
  have hscale := scale_le h
  unfold infinityMagnitude magnitude
  calc x.significand * 2 ^ x.scale < 2 ^ (24 : Nat) * 2 ^ x.scale :=
        Nat.mul_lt_mul_of_pos_right x.normal.lt (Nat.two_pow_pos _)
    _ ≤ 2 ^ (24 : Nat) * 2 ^ (253 : Nat) :=
        Nat.mul_le_mul_left _ (Nat.pow_le_pow_right (by omega) hscale)
    _ = 2 ^ (23 : Nat) * 2 ^ (254 : Nat) := rfl

/-! ### Building -/

/-- The scale and the significand stand side by side in the bits: where the significand is
full, its leading one adds the missing one to the exponent. -/
theorem ofMagnitude_normal {s k : Nat} (negative : Bool) (h : BinaryFormat.single.Normal s k)
    (hlt : s * 2 ^ k < infinityMagnitude) :
    ofMagnitude negative (s * 2 ^ k) =
      ⟨.ofNat ((if negative then 2 ^ (31 : Nat) else 0) + k * 2 ^ (23 : Nat) + s)⟩ := by
  have hprecision : 1 < BinaryFormat.single.precision := by decide
  unfold ofMagnitude
  simp only [Nat.min_eq_left (Nat.le_of_lt hlt), h.spareBits_eq hprecision,
    Nat.mul_div_cancel _ (Nat.two_pow_pos k)]

/-- The sign and the magnitude give back a finite number. -/
theorem ofMagnitude_magnitude (h : x.isFinite) : ofMagnitude x.negative x.magnitude = x := by
  rw [magnitude, ofMagnitude_normal _ x.normal (magnitude_lt h)]
  have hbits : (if x.negative then 2 ^ (31 : Nat) else 0) + x.scale * 2 ^ (23 : Nat) + x.significand
      = x.bits.toNat := by
    rw [x.bits_eq, scale, significand]
    by_cases h : x.exponentField = 0
    · rw [if_pos h, h]
    · rw [if_neg h]
      omega
  rw [hbits, UInt32.ofNat_toNat]

/-- A magnitude below that of infinity has a scale that fits. -/
theorem scale_le_of_lt {s k : Nat} (h : BinaryFormat.single.Normal s k)
    (hlt : s * 2 ^ k < infinityMagnitude) : k ≤ 253 := by
  have hfull : k = 0 ∨ 2 ^ (24 : Nat) ≤ 2 * s := h.full
  rcases hfull with rfl | hfull
  · omega
  · have hpow : 2 ^ (23 : Nat) * 2 ^ k < 2 ^ (23 : Nat) * 2 ^ (254 : Nat) :=
      Nat.lt_of_le_of_lt (Nat.mul_le_mul_right _ (by omega)) hlt
    have := (Nat.pow_lt_pow_iff_right (by omega)).mp (Nat.lt_of_mul_lt_mul_left hpow)
    omega

/-- The bits read field by field, when they hold a scale and a significand. -/
theorem fields_of_bits {s k : Nat} {negative : Bool}
    (hbits : x.bits.toNat = (if negative then 2 ^ (31 : Nat) else 0) + k * 2 ^ (23 : Nat) + s)
    (h : BinaryFormat.single.Normal s k) (hk : k ≤ 253) :
    x.isFinite ∧ x.negative = negative ∧ x.significand = s ∧ x.scale = k := by
  have hs : s < 2 ^ (24 : Nat) := h.lt
  have hfull : k = 0 ∨ 2 ^ (24 : Nat) ≤ 2 * s := h.full
  have hexponent : x.exponentField = k + s / 2 ^ (23 : Nat) := by
    unfold exponentField
    split at hbits <;> omega
  have hfraction : x.fractionField = s % 2 ^ (23 : Nat) := by
    unfold fractionField
    split at hbits <;> omega
  refine ⟨?_, ?_, ?_, ?_⟩
  · simp only [isFinite, bne_iff_ne]
    omega
  · unfold Binary32.negative
    cases negative with
    | false => exact decide_eq_false (by simp only [Bool.false_eq_true, if_false] at hbits; omega)
    | true => exact decide_eq_true (by simp only [if_true] at hbits; omega)
  · unfold significand
    split <;> omega
  · unfold scale
    omega

/-- **Every magnitude that the format holds is made** with its sign, if it is below that of
infinity. -/
theorem ofMagnitude_spec {n : Nat} (negative : Bool) (hn : BinaryFormat.single.Holds n)
    (hlt : n < infinityMagnitude) :
    (ofMagnitude negative n).isFinite ∧ (ofMagnitude negative n).negative = negative ∧
      (ofMagnitude negative n).magnitude = n := by
  obtain ⟨s, k, h, rfl⟩ := hn.normal
  have hk := scale_le_of_lt h hlt
  have hs : s < 2 ^ (24 : Nat) := h.lt
  rw [ofMagnitude_normal negative h hlt]
  have hbits :
      (UInt32.ofNat ((if negative then 2 ^ (31 : Nat) else 0) + k * 2 ^ (23 : Nat) + s)).toNat
        = (if negative then 2 ^ (31 : Nat) else 0) + k * 2 ^ (23 : Nat) + s := by
    rw [UInt32.toNat_ofNat']
    refine Nat.mod_eq_of_lt ?_
    cases negative <;> simp <;> omega
  generalize
    UInt32.ofNat ((if negative then 2 ^ (31 : Nat) else 0) + k * 2 ^ (23 : Nat) + s) = bits at *
  obtain ⟨hfinite, hsign, hsignificand, hscale⟩ := fields_of_bits (x := ⟨bits⟩) hbits h hk
  exact ⟨hfinite, hsign, by rw [magnitude, hsignificand, hscale]⟩

/-! ### Rounding -/

/-- The signed decimal, as an exact quotient, rounds to the finite number `x`: no number is
nearer, and of two as near `x` is the even one. -/
structure Rounds (negative : Bool) (d : Decimal) (x : Binary32) : Prop where
  finite : x.isFinite
  sign : x.negative = negative
  nearest : BinaryFormat.single.IsNearest d.num d.den x.magnitude

theorem isFinite_infinity (negative : Bool) : (infinity negative).isFinite = false := by
  cases negative <;> decide

/-- Whatever is too large becomes the infinity. -/
theorem ofMagnitude_of_le {n : Nat} (h : infinityMagnitude ≤ n) :
    ofMagnitude negative n = infinity negative := by
  unfold infinity ofMagnitude
  simp only [Nat.min_eq_right h, Nat.min_self]

/-- **Rounding as it is computed**, an overflow left aside. -/
theorem rounds_iff : Rounds negative d x ↔
    x.isFinite ∧ ofRatio negative d.num d.den = x := by
  have hprecision : 1 < BinaryFormat.single.precision := by decide
  have hnearest := BinaryFormat.nearest_isNearest d.num hprecision d.den_pos
  unfold ofRatio
  constructor
  · intro h
    refine ⟨h.finite, ?_⟩
    rw [hnearest.unique hprecision d.den_pos h.nearest, ← h.sign]
    exact ofMagnitude_magnitude h.finite
  · rintro ⟨hfinite, rfl⟩
    by_cases hlt : BinaryFormat.single.nearest d.num d.den < infinityMagnitude
    · obtain ⟨-, hsign, hmagnitude⟩ := ofMagnitude_spec negative hnearest.holds hlt
      exact ⟨hfinite, hsign, hmagnitude.symm ▸ hnearest⟩
    · rw [ofMagnitude_of_le (Nat.le_of_not_lt hlt), isFinite_infinity] at hfinite
      exact nomatch hfinite

/-- A decimal rounds to one number. -/
theorem Rounds.unique (hx : Rounds negative d x) (hy : Rounds negative d y) : x = y :=
  (rounds_iff.mp hx).2.symm.trans (rounds_iff.mp hy).2

/-- **A number survives the way through a double**, as which numbers are often read first: the
finer format holds it, and it comes back from there. -/
theorem ofRatio_nearest_double (h : x.isFinite) :
    ofRatio x.negative
      (BinaryFormat.double.nearest x.magnitude (2 ^ BinaryFormat.single.fineness))
      (2 ^ BinaryFormat.double.fineness) = x := by
  have hfiner : BinaryFormat.double.fineness = BinaryFormat.single.fineness + 925 := rfl
  have hholds : BinaryFormat.single.Holds x.magnitude := x.normal.holds
  rw [ofRatio, BinaryFormat.nearest_nearest (by decide) (by decide) hfiner hholds]
  exact ofMagnitude_magnitude h

end Binary32
end Stylesheet
