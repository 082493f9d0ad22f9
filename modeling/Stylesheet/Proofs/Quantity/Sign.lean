import Stylesheet.Proofs.Reading.Quantity

/-! The sign of a quantity, as a number and as a text.

Below zero are the finite numbers less than zero and the lower infinity; NaN, which has no
sign, and both zeros are not. An integer keeps its sign when it is rounded. A quantity that
is not below zero is written without any minus sign, also where its text is a formula, and a
number below zero with a unit is written with one. -/
namespace Stylesheet

attribute [local instance(2000)] instPowNat

namespace Binary32
variable {x : Binary32}

/-! ### Numbers below zero -/

/-- Less than zero as a number, so that the negative zero and the undefined numbers are not. -/
def BelowZero (x : Binary32) : Prop := x = infinity true ∨ (x.isFinite ∧ x.units < 0)

/-- The check goes by the units, which zeros have none of. -/
theorem isNegative_eq (x : Binary32) :
    x.isNegative = (!x.isNaN && decide (x.units < 0)) := by
  have hnan : (0 : Binary32).isNaN = false := by decide
  have hunits : (0 : Binary32).units = 0 := by decide
  rw [isNegative, lt, hnan, hunits, Bool.not_false, Bool.and_true]

/-- A sign and something to it. -/
theorem units_neg_iff (x : Binary32) : x.units < 0 ↔ x.negative ∧ x.magnitude ≠ 0 := by
  unfold units
  cases x.negative with
  | true => simp; omega
  | false => simp

/-- The check that is made finds exactly the numbers below zero. -/
theorem isNegative_iff (x : Binary32) : x.isNegative ↔ x.BelowZero := by
  rw [isNegative_eq, Bool.and_eq_true, Bool.not_eq_true', decide_eq_true_iff]
  constructor
  · rintro ⟨hnan, hunits⟩
    cases hfinite : x.isFinite with
    | true => exact .inr ⟨hfinite, hunits⟩
    | false =>
      have hinfinity := eq_infinity hfinite hnan
      rw [((units_neg_iff x).mp hunits).1] at hinfinity
      exact .inl hinfinity
  · rintro (rfl | ⟨hfinite, hunits⟩)
    · decide
    · exact ⟨isNaN_of_isFinite hfinite, hunits⟩

theorem isNegative_eq_false_iff (x : Binary32) : x.isNegative = false ↔ ¬ x.BelowZero := by
  rw [← isNegative_iff, Bool.not_eq_true]

/-- What passes: NaN, the zeros, the upper infinity and the finite numbers above zero. -/
theorem not_belowZero_iff (x : Binary32) : ¬ x.BelowZero ↔
    x.isNaN ∨ x.magnitude = 0 ∨ x = infinity false ∨ (x.isFinite ∧ 0 < x.units) := by
  rw [← isNegative_eq_false_iff, isNegative_eq]
  cases hnan : x.isNaN with
  | true => simp
  | false =>
    have hmagnitude := natAbs_units x
    cases hfinite : x.isFinite with
    | true =>
      have hne : x ≠ infinity false := by
        rintro rfl
        exact absurd hfinite (by decide)
      simp [hne]
      omega
    | false =>
      have hunits := units_of_infinite hfinite hnan
      have hinfinity := eq_infinity hfinite hnan
      cases hsign : x.negative with
      | true =>
        have hne : x ≠ infinity false := by
          rintro rfl
          exact absurd hsign (by decide)
        simp [hne, hunits, hsign, infinityMagnitude] at hmagnitude ⊢
        omega
      | false =>
        rw [hsign] at hinfinity
        simp [hinfinity.symm, hunits, hsign, infinityMagnitude]

/-! ### Integers -/

/-- No number but zero rounds to zero when it is an integer: one unit is nearer. -/
theorem nearest_ne_zero {n : Nat} (h : n ≠ 0) : BinaryFormat.single.nearest n 1 ≠ 0 := by
  intro hzero
  have hnearest := BinaryFormat.single.nearest_isNearest n (by decide) Nat.one_pos
  rw [hzero] at hnearest
  have hclosest := hnearest.closest 1 ⟨1, 0, by decide, rfl⟩
  have hscaled : n * 2 ^ BinaryFormat.single.fineness ≠ 0 :=
    Nat.mul_ne_zero h (Nat.ne_of_gt (Nat.two_pow_pos _))
  unfold BinaryFormat.distance at hclosest
  omega

/-- **Rounding keeps the sign of an integer.** -/
theorem belowZero_ofInt_iff (i : Int) : (ofInt i).BelowZero ↔ i < 0 := by
  have hnearest := BinaryFormat.single.nearest_isNearest i.natAbs (by decide) Nat.one_pos
  unfold ofInt ofRatio
  by_cases hlt : BinaryFormat.single.nearest i.natAbs 1 < infinityMagnitude
  · obtain ⟨hfinite, hsign, hmagnitude⟩ :=
      ofMagnitude_spec (decide (i < 0)) hnearest.holds hlt
    have hnan := isNaN_of_isFinite hfinite
    rw [← isNegative_iff, isNegative_eq, hnan, Bool.not_false, Bool.true_and, decide_eq_true_iff,
      units_neg_iff, hsign, hmagnitude, decide_eq_true_iff]
    refine ⟨And.left, fun hneg => ⟨hneg, nearest_ne_zero ?_⟩⟩
    omega
  · rw [ofMagnitude_of_le (Nat.le_of_not_lt hlt)]
    by_cases hneg : i < 0
    · rw [decide_eq_true hneg]
      exact iff_of_true (.inl rfl) hneg
    · rw [decide_eq_false hneg]
      exact iff_of_false ((not_belowZero_iff _).mpr (.inr (.inr (.inl rfl)))) hneg

end Binary32

/-! ### Texts without a minus sign -/

theorem not_isDigit_minus : ¬ '-'.isDigit := by decide

theorem minus_not_mem_positional (d : Decimal) : '-' ∉ d.positional := by
  rw [Decimal.positional_eq, List.mem_append]
  rintro (h | h)
  · exact not_isDigit_minus (Decimal.isDigit_of_mem_whole h)
  split at h
  · exact absurd h List.not_mem_nil
  · rcases List.mem_cons.mp h with hpoint | h
    · exact absurd hpoint (by decide)
    · exact not_isDigit_minus (Decimal.isDigit_of_mem_fraction h)

/-- A number that is not below zero has no minus in its digits. -/
theorem minus_not_mem_digits {x : Binary32} (hfinite : x.isFinite) (h : ¬ x.BelowZero) :
    '-' ∉ x.digits := by
  unfold Binary32.digits
  split
  case isTrue => decide
  case isFalse hmagnitude =>
    split
    case isTrue hsign => exact absurd (.inr ⟨hfinite, x.units_neg_iff.mpr ⟨hsign, hmagnitude⟩⟩) h
    case isFalse => exact minus_not_mem_positional _

/-- Nor in its name. -/
theorem minus_not_mem_keyword {x : Binary32} (hfinite : x.isFinite = false) (h : ¬ x.BelowZero) :
    '-' ∉ x.keyword := by
  unfold Binary32.keyword
  split
  case isTrue => decide
  case isFalse hnan =>
    split
    case isTrue hsign =>
      have hinfinity := Binary32.eq_infinity hfinite (Bool.eq_false_iff.mpr hnan)
      rw [hsign] at hinfinity
      exact absurd (.inl hinfinity) h
    case isFalse => decide

/-- **Nor in its text with a unit.** -/
theorem minus_not_mem_dimensionText {x : Binary32} {unit : List Char} (h : ¬ x.BelowZero)
    (hunit : '-' ∉ unit) : '-' ∉ dimensionText x unit := by
  unfold dimensionText
  split
  case isTrue hfinite => simp [minus_not_mem_digits hfinite h, hunit]
  case isFalse hfinite =>
    have hkeyword := minus_not_mem_keyword (Bool.eq_false_iff.mpr hfinite) h
    simp [call, hkeyword, hunit]

/-- The sign of what is below zero is written, with a number as in a formula. -/
theorem minus_mem_dimensionText {x : Binary32} {unit : List Char} (h : x.BelowZero) :
    '-' ∈ dimensionText x unit := by
  rcases h with rfl | ⟨hfinite, hunits⟩
  · have hkeyword : '-' ∈ (Binary32.infinity true).keyword := by decide
    rw [dimensionText, if_neg (by decide)]
    simp [call, hkeyword]
  · obtain ⟨hsign, hmagnitude⟩ := x.units_neg_iff.mp hunits
    rw [dimensionText, if_pos hfinite, Binary32.digits, if_neg hmagnitude, if_pos hsign]
    exact List.mem_cons_self ..

/-- Quantities whose sign shows in their text. -/
class ShowsSign (α : Type) [ToCss α] [Signed α] : Prop where
  minus_not_mem {a : α} : ¬ (Signed.amount a).BelowZero → '-' ∉ css a

instance : ShowsSign Binary32 where
  minus_not_mem {x} (h : ¬ x.BelowZero) := by
    show '-' ∉ numberText x
    unfold numberText
    split
    case isTrue hfinite => exact minus_not_mem_digits hfinite h
    case isFalse hfinite =>
      have hkeyword := minus_not_mem_keyword (Bool.eq_false_iff.mpr hfinite) h
      simp [call, hkeyword]

instance : ShowsSign Int where
  minus_not_mem {i} h := by
    show '-' ∉ integerText i
    rw [integerText, if_neg fun hneg => h ((Binary32.belowZero_ofInt_iff i).mpr hneg)]
    exact fun hminus => not_isDigit_minus (isDigit_of_mem_decimalDigits hminus)

instance : ShowsSign Percentage := ⟨fun h => minus_not_mem_dimensionText h (by decide)⟩

instance : ShowsSign Length where
  minus_not_mem {l} h := by
    refine minus_not_mem_dimensionText h ?_
    cases l.unit <;> decide

instance : ShowsSign Angle where
  minus_not_mem {a} h := by
    refine minus_not_mem_dimensionText h ?_
    cases a.unit <;> decide

instance : ShowsSign Time where
  minus_not_mem {t} h := by
    refine minus_not_mem_dimensionText h ?_
    cases t.unit <;> decide

instance : ShowsSign Resolution where
  minus_not_mem {r} h := by
    refine minus_not_mem_dimensionText h ?_
    cases r.unit <;> decide

instance : ShowsSign LengthPercentage where
  minus_not_mem {a} h := by
    cases a with
    | length l => exact ShowsSign.minus_not_mem (a := l) h
    | percentage p => exact ShowsSign.minus_not_mem (a := p) h

end Stylesheet
