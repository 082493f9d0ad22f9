import Stylesheet.Quantity.Number
import Stylesheet.Proofs.Number.DecimalText
import Stylesheet.Proofs.Number.Shortest

/-! The text of a finite number is its canonical form: the shortest decimal that rounds to
the number, laid out without an exponent, a sign of zero or a needless zero. -/
namespace Stylesheet.Binary32

attribute [local instance(2000)] instPowNat

variable {x y : Binary32} {d : Decimal} {t : List Char} {negative : Bool}

/-- The number itself, and the positive zero for either zero. -/
def oneZero (x : Binary32) : Binary32 := if x.magnitude = 0 then 0 else x

/-- What is asked of the text of a number: its shape, no sign for zero, that it rounds to the
number, and that no other decimal does so in fewer digits. -/
structure CanonicalText (x : Binary32) (t : List Char) : Prop where
  shape : NumberShape t
  unsigned_zero : x.magnitude = 0 → '-' ∉ t
  rounds : ∃ negative d, readNumber t = some (negative, d) ∧ Rounds negative d x.oneZero
  shortest : ∀ negative d, Rounds negative d x →
    significantDigits t ≤ significantDigits (decimalDigits d.digits)

/-! ### The shortest decimal among all -/

/-- Zero does not round to anything else. -/
theorem digits_ne_zero (h : x.magnitude ≠ 0)
    (hd : BinaryFormat.single.IsNearest d.num d.den x.magnitude) : d.digits ≠ 0 := by
  intro hzero
  have hclosest := hd.closest 0 ⟨0, 0, by decide, rfl⟩
  have hmagnitude : x.magnitude * d.den ≠ 0 := Nat.mul_ne_zero h (Nat.ne_of_gt d.den_pos)
  unfold BinaryFormat.distance Decimal.num at hclosest
  rw [hzero, Nat.zero_mul, Nat.zero_mul, Nat.zero_mul] at hclosest
  omega

/-- Zeros at the end of the competing decimal do not count: they go into its exponent. -/
theorem shortest_significant (hfinite : x.isFinite) (h : x.magnitude ≠ 0)
    (hd : BinaryFormat.single.IsNearest d.num d.den x.magnitude) :
    (decimalDigits x.shortest.digits).length ≤ significantDigits (decimalDigits d.digits) := by
  obtain ⟨a, zeros, hdigits, hlength⟩ := exists_significant (digits_ne_zero h hd)
  let stripped : Decimal := ⟨a, d.exponent + zeros⟩
  have hquotient : d.num * stripped.den = stripped.num * d.den := by
    show d.digits * 10 ^ d.exponent.toNat * 10 ^ (-(d.exponent + zeros)).toNat
      = a * 10 ^ (d.exponent + zeros).toNat * 10 ^ (-d.exponent).toNat
    rw [hdigits, Nat.mul_assoc, Nat.mul_assoc, Nat.mul_assoc, ← Nat.pow_add, ← Nat.pow_add,
      ← Nat.pow_add]
    congr 2
    omega
  rw [hlength]
  exact shortest_length_le hfinite h
    (hd.congr (by decide) d.den_pos stripped.den_pos hquotient)

/-! ### The text of a number -/

/-- Either zero is written as one digit. -/
theorem css_of_zero (hfinite : x.isFinite) (h : x.magnitude = 0) : css x = ['0'] := by
  show numberText x = _
  rw [numberText, if_pos hfinite, digits, if_pos h]

/-- Any other finite number is written with its sign and the shortest decimal. -/
theorem css_of_ne_zero (hfinite : x.isFinite) (h : x.magnitude ≠ 0) :
    css x = if x.negative then '-' :: x.shortest.positional else x.shortest.positional := by
  show numberText x = _
  rw [numberText, if_pos hfinite, digits, if_neg h]

/-- For zeros, where there is nothing to round. -/
theorem canonicalText_of_zero (hfinite : x.isFinite) (h : x.magnitude = 0) :
    CanonicalText x (css x) := by
  rw [css_of_zero hfinite h]
  refine ⟨.positive .zero .none, fun _ => by decide, ⟨false, ⟨0, 0⟩, rfl, ?_⟩, fun _ _ _ => ?_⟩
  · rw [oneZero, if_pos h]
    exact rounds_iff.mpr ⟨by decide, rfl⟩
  · exact Nat.zero_le _

/-- The decimal that the layout reads as is the same quotient. -/
theorem rounds_read (h : Rounds negative d x) :
    Rounds negative ⟨d.digits * 10 ^ d.exponent.toNat, -((-d.exponent).toNat : Int)⟩ x := by
  refine ⟨h.finite, h.sign, ?_⟩
  have hnum : Decimal.num ⟨d.digits * 10 ^ d.exponent.toNat, -((-d.exponent).toNat : Int)⟩
      = d.num := by
    rw [Decimal.num, Int.toNat_neg_natCast, Nat.pow_zero, Nat.mul_one, Decimal.num]
  have hden : Decimal.den ⟨d.digits * 10 ^ d.exponent.toNat, -((-d.exponent).toNat : Int)⟩
      = d.den := by
    rw [Decimal.den, Int.neg_neg, Int.toNat_natCast, Decimal.den]
  rw [hnum, hden]
  exact h.nearest

/-- For all other numbers, by what the search finds. -/
theorem canonicalText_of_ne_zero (hfinite : x.isFinite) (h : x.magnitude ≠ 0) :
    CanonicalText x (css x) := by
  have hten := shortest_digits_mod_ten hfinite h
  have hread := x.shortest.readUnsigned_positional
  have hrounds := rounds_read (shortest_rounds hfinite h)
  have hwhole := x.shortest.wholeShape (by omega)
  have hfraction := x.shortest.fractionShape hten
  have hsignificant := Decimal.significantDigits_positional hten
  rw [css_of_ne_zero hfinite h]
  refine ⟨?_, fun hzero => absurd hzero h, ?_, fun _ d hd => ?_⟩
  · rw [Decimal.positional_eq]
    split
    · exact .negative hwhole hfraction
    · exact .positive hwhole hfraction
  · rw [oneZero, if_neg h]
    refine ⟨x.negative, _, ?_, hrounds⟩
    cases hsign : x.negative
    · rw [if_neg Bool.false_ne_true, Decimal.readNumber_positional, hread, Option.map_some]
    · rw [if_pos rfl, readNumber, hread, Option.map_some]
  · have hsigned : significantDigits
        (if x.negative then '-' :: x.shortest.positional else x.shortest.positional)
          = significantDigits x.shortest.positional := by
      split
      · exact significantDigits_minus _
      · rfl
    rw [hsigned, hsignificant]
    exact shortest_significant hfinite h hd.nearest

/-- **The text of a finite number is canonical.** -/
theorem canonicalText_css (hfinite : x.isFinite) : CanonicalText x (css x) := by
  by_cases h : x.magnitude = 0
  · exact canonicalText_of_zero hfinite h
  · exact canonicalText_of_ne_zero hfinite h

/-! ### Equal numbers -/

/-- The zeros have the same units. -/
theorem units_oneZero (x : Binary32) : x.oneZero.units = x.units := by
  unfold oneZero
  split
  case isTrue h =>
    unfold units
    rw [h]
    cases x.negative <;> rfl
  case isFalse => rfl

theorem oneZero_eq_of_units (hx : x.isFinite) (hy : y.isFinite) (h : x.units = y.units) :
    x.oneZero = y.oneZero := by
  unfold units at h
  have hmagnitude : x.magnitude = y.magnitude := by
    split at h <;> split at h <;> omega
  unfold oneZero
  rw [← hmagnitude]
  split
  case isTrue => rfl
  case isFalse hne =>
    have hsign : x.negative = y.negative := by
      cases hxs : x.negative <;> cases hys : y.negative <;> simp [hxs, hys] at h ⊢ <;> omega
    rw [← ofMagnitude_magnitude hx, ← ofMagnitude_magnitude hy, hmagnitude, hsign]

/-- Finite numbers are equal when they are the same but for the sign of zero. -/
theorem eq_iff (hx : x.isFinite) (hy : y.isFinite) : x.eq y ↔ x.oneZero = y.oneZero := by
  have hnan : ∀ z : Binary32, z.isFinite → z.isNaN = false := by
    intro z hz
    have := exponentField_lt hz
    simp only [isNaN, Bool.and_eq_false_imp, beq_iff_eq]
    omega
  unfold eq
  rw [hnan x hx, hnan y hy, Bool.not_false, Bool.true_and, Bool.true_and, beq_iff_eq]
  constructor
  · exact oneZero_eq_of_units hx hy
  · intro h
    rw [← units_oneZero x, h, units_oneZero]

theorem css_oneZero (hfinite : x.isFinite) : css x.oneZero = css x := by
  unfold oneZero
  split
  case isTrue h => rw [css_of_zero hfinite h, css_of_zero (by decide) (by decide)]
  case isFalse => rfl

/-- **Finite numbers have one text exactly when they are equal.** -/
theorem css_eq_iff (hx : x.isFinite) (hy : y.isFinite) : css x = css y ↔ x.eq y := by
  rw [eq_iff hx hy]
  constructor
  · intro heq
    obtain ⟨negative, d, hread, hrounds⟩ := (canonicalText_css hx).rounds
    obtain ⟨negative', d', hread', hrounds'⟩ := (canonicalText_css hy).rounds
    rw [heq, hread'] at hread
    cases hread
    exact hrounds.unique hrounds'
  · intro heq
    rw [← css_oneZero hx, heq, css_oneZero hy]

/-- **The text of a finite number is canonical**, and tells unequal numbers apart. -/
theorem css_canonical :
    (∀ x : Binary32, x.isFinite → CanonicalText x (css x)) ∧
      ∀ x y : Binary32, x.isFinite → y.isFinite → (css x = css y ↔ x.eq y) :=
  ⟨fun _ hx => canonicalText_css hx, fun _ _ hx hy => css_eq_iff hx hy⟩

/-- The largest finite number, and the two zeros. -/
theorem css_canonical_largest : (⟨0x7f7fffff⟩ : Binary32).isFinite ∧
    CanonicalText ⟨0x7f7fffff⟩ (css (⟨0x7f7fffff⟩ : Binary32)) ∧
      css (⟨0x80000000⟩ : Binary32) = css (⟨0⟩ : Binary32) := by
  have hfinite : (⟨0x7f7fffff⟩ : Binary32).isFinite := by decide
  refine ⟨hfinite, css_canonical.1 _ hfinite, ?_⟩
  exact (css_canonical.2 ⟨0x80000000⟩ ⟨0⟩ (by decide) (by decide)).mpr (by decide)

/-- The power of two with the narrower half below it, written with eight of the nine digits
that always suffice. -/
example : css (⟨0x4c000000⟩ : Binary32) = "33554432".toList := by decide +kernel

end Stylesheet.Binary32
