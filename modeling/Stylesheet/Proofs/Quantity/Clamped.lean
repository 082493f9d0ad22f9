import Stylesheet.Font.Style
import Stylesheet.Motion.Keyframes
import Stylesheet.Motion.Easing
import Stylesheet.Paint.Color
import Stylesheet.Proofs.Quantity.Sign

/-! Numbers kept inside a range, and their texts.

A number below or above a range becomes the end that is nearer, and NaN the fallback. Inside
the range the shortest decimal never steps over an end: the ends are numbers themselves, so a
decimal beyond one of them would be nearer to it, and an end is written with its own digits. -/
namespace Stylesheet

attribute [local instance(2000)] instPowNat

/-! ### Decimals between whole numbers -/

namespace BinaryFormat
variable {f : BinaryFormat} {num den m e : Nat}

/-- A decimal is less than a number of the format if its nearest one is. -/
theorem lt_of_isNearest (h : f.IsNearest num den m) (hden : 0 < den) (he : f.Holds e)
    (hlt : m < e) : num * 2 ^ f.fineness < e * den := by
  have hclosest := h.closest e he
  have hmul : m * den < e * den := Nat.mul_lt_mul_of_pos_right hlt hden
  unfold distance at hclosest
  omega

/-- And greater if its nearest one is. -/
theorem gt_of_isNearest (h : f.IsNearest num den m) (hden : 0 < den) (he : f.Holds e)
    (hlt : e < m) : e * den < num * 2 ^ f.fineness := by
  have hclosest := h.closest e he
  have hmul : e * den < m * den := Nat.mul_lt_mul_of_pos_right hlt hden
  unfold distance at hclosest
  omega

end BinaryFormat

/-- A decimal without a sign, a point at most in it, with a value between two whole numbers. -/
structure ReadsWithin (low high : Nat) (t : List Char) : Prop where
  shape : NumberShape t
  unsigned : '-' ∉ t
  reads : ∃ d, readNumber t = some (false, d) ∧ low * d.den ≤ d.num ∧ d.num ≤ high * d.den

/-- A numeral reads back as a decimal without an exponent. -/
theorem readNumber_decimalDigits (n : Nat) :
    readNumber (decimalDigits n) = some (false, ⟨n, 0⟩) := by
  have hpositional : (⟨n, 0⟩ : Decimal).positional = decimalDigits n := by
    simp [Decimal.positional]
  rw [← hpositional, Decimal.readNumber_positional, Decimal.readUnsigned_positional]
  simp

namespace Binary32
variable {x y : Binary32} {low high n : Nat}

/-- A number between two whole numbers. -/
def Within (low high : Nat) (x : Binary32) : Prop :=
  x.isNaN = false ∧ (low * 2 ^ (149 : Nat) : Nat) ≤ x.units ∧
    x.units ≤ (high * 2 ^ (149 : Nat) : Nat)

/-- The format has the whole number, which is written with its digits. -/
structure IsWhole (n : Nat) : Prop where
  lt : n < 2 ^ (24 : Nat)
  isFinite : (ofInt n).isFinite
  units_eq : (ofInt n).units = (n * 2 ^ (149 : Nat) : Nat)
  css_eq : css (ofInt n) = decimalDigits n

/-- The ends of ranges, and what they fall back on. -/
def rangeNumbers : List Nat := [0, 1, 100, 400, 1000]

/-- Checked for each of the ends that ranges have. -/
theorem isWhole_of_mem (h : n ∈ rangeNumbers) : IsWhole n := by
  have hlt : ∀ n ∈ rangeNumbers, n < 2 ^ (24 : Nat) := by decide
  have hfinite : ∀ n ∈ rangeNumbers, (ofInt n).isFinite := by decide +kernel
  have hunits : ∀ n ∈ rangeNumbers, (ofInt n).units = (n * 2 ^ (149 : Nat) : Nat) := by
    decide +kernel
  have htext : ∀ n ∈ rangeNumbers, css (ofInt n) = decimalDigits n := by decide +kernel
  exact ⟨hlt n h, hfinite n h, hunits n h, htext n h⟩

theorem IsWhole.holds (h : IsWhole n) : BinaryFormat.single.Holds (n * 2 ^ (149 : Nat)) :=
  ⟨n, 149, h.lt, rfl⟩

/-- Infinity is in none of the ranges. -/
theorem isFinite_of_within (hhigh : high < 2 ^ (24 : Nat)) (h : x.Within low high) :
    x.isFinite := by
  obtain ⟨hnan, hlow, hle⟩ := h
  cases hfinite : x.isFinite with
  | true => rfl
  | false =>
    have hmagnitude := magnitude_of_infinite hfinite hnan
    have hunits := x.natAbs_units
    unfold infinityMagnitude at hmagnitude
    omega

/-- The text of a whole number, and of either zero. -/
theorem css_of_units (hn : IsWhole n) (hfinite : x.isFinite)
    (h : x.units = (n * 2 ^ (149 : Nat) : Nat)) : css x = decimalDigits n := by
  rw [← hn.css_eq]
  refine (css_eq_iff hfinite hn.isFinite).mpr ?_
  rw [eq, isNaN_of_isFinite hfinite, isNaN_of_isFinite hn.isFinite, h, hn.units_eq]
  simp

theorem magnitude_oneZero (x : Binary32) : x.oneZero.magnitude = x.magnitude := by
  rw [← natAbs_units, units_oneZero, natAbs_units]

theorem units_eq_magnitude (h : 0 ≤ x.units) : x.units = x.magnitude := by
  have := x.natAbs_units
  omega

/-- The decimal that the text of a number reads as, which the number is nearest to. -/
structure WrittenAs (x : Binary32) (d : Decimal) : Prop where
  reads : readNumber (css x) = some (false, d)
  nearest : BinaryFormat.single.IsNearest d.num d.den x.magnitude

/-- A number of at least zero is written without a sign. -/
theorem exists_writtenAs (hfinite : x.isFinite) (h : 0 ≤ x.units) : ∃ d, x.WrittenAs d := by
  obtain ⟨negative, d, hread, hrounds⟩ := (canonicalText_css hfinite).rounds
  have hsign : negative = false := by
    rw [← hrounds.sign, oneZero]
    split
    case isTrue => decide
    case isFalse hne =>
      refine Bool.eq_false_iff.mpr fun hnegative => ?_
      have hbelow := x.units_neg_iff.mpr ⟨hnegative, hne⟩
      omega
  exact ⟨d, hsign ▸ hread, x.magnitude_oneZero ▸ hrounds.nearest⟩

namespace WrittenAs
variable {d : Decimal}

/-- A whole number has no other decimal than its digits. -/
theorem eq_whole (h : x.WrittenAs d) (hn : IsWhole n) (hfinite : x.isFinite)
    (hunits : x.units = (n * 2 ^ (149 : Nat) : Nat)) : d = ⟨n, 0⟩ := by
  have hread := h.reads
  rw [css_of_units hn hfinite hunits, readNumber_decimalDigits] at hread
  exact (Prod.mk.inj (Option.some.inj hread)).2.symm

/-- A decimal below the whole number would be nearer to that. -/
theorem whole_le (h : x.WrittenAs d) (hn : IsWhole n) (hfinite : x.isFinite)
    (hle : (n * 2 ^ (149 : Nat) : Nat) ≤ x.units) : n * d.den ≤ d.num := by
  have hunits := x.units_eq_magnitude (by omega)
  rcases Nat.lt_or_eq_of_le (show n * 2 ^ (149 : Nat) ≤ x.magnitude by omega) with hlt | heq
  · have hnum := BinaryFormat.gt_of_isNearest h.nearest d.den_pos hn.holds hlt
    rw [Nat.mul_right_comm] at hnum
    exact Nat.le_of_mul_le_mul_right (Nat.le_of_lt hnum) (Nat.two_pow_pos 149)
  · rw [h.eq_whole hn hfinite (by omega)]
    simp [Decimal.num, Decimal.den]

/-- A number up to a whole one is written as a decimal up to it. -/
theorem le_whole (h : x.WrittenAs d) (hn : IsWhole n) (hfinite : x.isFinite)
    (hpos : 0 ≤ x.units) (hle : x.units ≤ (n * 2 ^ (149 : Nat) : Nat)) : d.num ≤ n * d.den := by
  have hunits := x.units_eq_magnitude hpos
  rcases Nat.lt_or_eq_of_le (show x.magnitude ≤ n * 2 ^ (149 : Nat) by omega) with hlt | heq
  · have hnum := BinaryFormat.lt_of_isNearest h.nearest d.den_pos hn.holds hlt
    rw [Nat.mul_right_comm n] at hnum
    exact Nat.le_of_mul_le_mul_right (Nat.le_of_lt hnum) (Nat.two_pow_pos 149)
  · rw [h.eq_whole hn hfinite (by omega)]
    simp [Decimal.num, Decimal.den]

end WrittenAs

/-- **A number inside a range is written as a decimal inside of it.** -/
theorem readsWithin_css (hlow : IsWhole low) (hhigh : IsWhole high) (hx : x.Within low high) :
    ReadsWithin low high (css x) := by
  have hfinite := isFinite_of_within hhigh.lt hx
  obtain ⟨-, hle, hle'⟩ := hx
  have hpos : 0 ≤ x.units := by omega
  have hminus : '-' ∉ css x := by
    rw [css_of_isFinite hfinite]
    refine minus_not_mem_digits hfinite ?_
    rw [← isNegative_eq_false_iff, isNegative_eq, isNaN_of_isFinite hfinite]
    simpa using hpos
  obtain ⟨d, hd⟩ := exists_writtenAs hfinite hpos
  exact ⟨(canonicalText_css hfinite).shape, hminus, d, hd.reads, hd.whole_le hlow hfinite hle,
    hd.le_whole hhigh hfinite hpos hle'⟩

end Binary32

open Binary32

/-! ### Clamping -/

/-- A range between whole numbers, which the format all has. -/
structure Range.HasEnds (r : Range) (low high fallback : Nat) : Prop where
  low_eq : r.low = .ofInt low
  high_eq : r.high = .ofInt high
  fallback_eq : r.fallback = .ofInt fallback
  low_whole : IsWhole low
  high_whole : IsWhole high
  fallback_whole : IsWhole fallback
  low_le : low ≤ fallback
  le_high : fallback ≤ high

/-- For ranges that are written with whole numbers. -/
theorem Range.HasEnds.of_mem {r : Range} {low high fallback : Nat}
    (heq : r = ⟨.ofInt low, .ofInt high, .ofInt fallback⟩)
    (hmem : ∀ n ∈ [low, high, fallback], n ∈ rangeNumbers) (hlow : low ≤ fallback)
    (hhigh : fallback ≤ high) : r.HasEnds low high fallback := by
  simp only [List.forall_mem_cons] at hmem
  subst heq
  exact ⟨rfl, rfl, rfl, isWhole_of_mem hmem.1, isWhole_of_mem hmem.2.1, isWhole_of_mem hmem.2.2.1,
    hlow, hhigh⟩

theorem unitRange_ends : unitRange.HasEnds 0 1 0 := .of_mem rfl (by decide) (by decide) (by decide)

theorem percentRange_ends : percentRange.HasEnds 0 100 0 :=
  .of_mem rfl (by decide) (by decide) (by decide)

theorem weightRange_ends : weightRange.HasEnds 1 1000 400 :=
  .of_mem rfl (by decide) (by decide) (by decide)

namespace Range.HasEnds
variable {r : Range} {low high fallback : Nat} {x y : Binary32}

/-- A number kept inside the range. -/
abbrev kept (r : Range) (x : Binary32) : Binary32 := x.clamp r.low r.high r.fallback

/-- A whole number of the range. -/
theorem within_ofInt {n : Nat} (hn : IsWhole n) (hlow : low ≤ n) (hhigh : n ≤ high) :
    (ofInt n).Within low high := by
  refine ⟨isNaN_of_isFinite hn.isFinite, ?_, ?_⟩
  · rw [hn.units_eq]
    exact Int.ofNat_le.mpr (Nat.mul_le_mul_right _ hlow)
  · rw [hn.units_eq]
    exact Int.ofNat_le.mpr (Nat.mul_le_mul_right _ hhigh)

section
variable (h : r.HasEnds low high fallback)
include h

/-- To be less than the lower end is to have fewer units. -/
theorem lt_low_iff : x.lt r.low ↔ x.isNaN = false ∧ x.units < (low * 2 ^ (149 : Nat) : Nat) := by
  rw [lt, h.low_eq, isNaN_of_isFinite h.low_whole.isFinite, h.low_whole.units_eq]
  simp

theorem high_lt_iff : r.high.lt x ↔ x.isNaN = false ∧ (high * 2 ^ (149 : Nat) : Nat) < x.units := by
  rw [lt, h.high_eq, isNaN_of_isFinite h.high_whole.isFinite, h.high_whole.units_eq]
  simp

/-- A range contains what is within its ends. -/
theorem contains_iff : r.Contains x ↔ x.Within low high := by
  unfold Range.Contains Within
  rw [← Bool.not_eq_true (x.lt _), ← Bool.not_eq_true (r.high.lt _), h.lt_low_iff, h.high_lt_iff]
  constructor
  · rintro ⟨hnan, hlow, hhigh⟩
    simp only [hnan, true_and] at hlow hhigh
    exact ⟨hnan, by omega, by omega⟩
  · rintro ⟨hnan, hlow, hhigh⟩
    exact ⟨hnan, by omega, by omega⟩

theorem kept_of_isNaN (hnan : x.isNaN) : kept r x = .ofInt fallback := by
  rw [kept, clamp, if_pos hnan, h.fallback_eq]

/-- What is below becomes the lower end. -/
theorem kept_of_below (hnan : x.isNaN = false) (hlt : x.units < (low * 2 ^ (149 : Nat) : Nat)) :
    kept r x = .ofInt low := by
  rw [kept, clamp, if_neg (by simp [hnan]), if_pos (h.lt_low_iff.mpr ⟨hnan, hlt⟩), h.low_eq]

theorem kept_of_above (hnan : x.isNaN = false) (hlt : (high * 2 ^ (149 : Nat) : Nat) < x.units) :
    kept r x = .ofInt high := by
  have hle := Nat.mul_le_mul_right (2 ^ (149 : Nat)) (Nat.le_trans h.low_le h.le_high)
  have hlow : ¬x.lt r.low := by
    rw [h.lt_low_iff]
    omega
  rw [kept, clamp, if_neg (by simp [hnan]), if_neg hlow, if_pos (h.high_lt_iff.mpr ⟨hnan, hlt⟩),
    h.high_eq]

/-- What is within stays. -/
theorem kept_of_within (hx : x.Within low high) : kept r x = x := by
  obtain ⟨hnan, hlow, hhigh⟩ := h.contains_iff.mpr hx
  rw [kept, clamp, if_neg (by simp [hnan]), if_neg (by simp [hlow]), if_neg (by simp [hhigh])]

/-- Below, above or inside. -/
theorem within_kept (x : Binary32) : (kept r x).Within low high := by
  cases hnan : x.isNaN with
  | true =>
    rw [h.kept_of_isNaN hnan]
    exact within_ofInt h.fallback_whole h.low_le h.le_high
  | false =>
    have hle := Nat.le_trans h.low_le h.le_high
    by_cases hlow : x.units < (low * 2 ^ (149 : Nat) : Nat)
    · rw [h.kept_of_below hnan hlow]
      exact within_ofInt h.low_whole (Nat.le_refl _) hle
    by_cases hhigh : (high * 2 ^ (149 : Nat) : Nat) < x.units
    · rw [h.kept_of_above hnan hhigh]
      exact within_ofInt h.high_whole hle (Nat.le_refl _)
    · have hx : x.Within low high := ⟨hnan, by omega, by omega⟩
      rwa [h.kept_of_within hx]

/-- The nearer end, put as a minimum and a maximum. -/
theorem units_kept (hnan : x.isNaN = false) :
    (kept r x).units =
      max (low * 2 ^ (149 : Nat) : Int) (min x.units (high * 2 ^ (149 : Nat))) := by
  have hle := Nat.mul_le_mul_right (2 ^ (149 : Nat)) (Nat.le_trans h.low_le h.le_high)
  by_cases hlow : x.units < (low * 2 ^ (149 : Nat) : Nat)
  · rw [h.kept_of_below hnan hlow, h.low_whole.units_eq]
    omega
  by_cases hhigh : (high * 2 ^ (149 : Nat) : Nat) < x.units
  · rw [h.kept_of_above hnan hhigh, h.high_whole.units_eq]
    omega
  · have hx : x.Within low high := ⟨hnan, by omega, by omega⟩
    rw [h.kept_of_within hx]
    omega

end
end Range.HasEnds

/-- What building a value makes of a number, which the value holds and writes in front of the
suffix. -/
structure Clamps {α : Type} [ToCss α] (low high fallback : Nat) (suffix : List Char)
    (held : α → Binary32) (make : Binary32 → α) : Prop where
  within (x : Binary32) : (held (make x)).Within low high
  of_within (x : Binary32) : x.Within low high → held (make x) = x
  of_below (x : Binary32) : x.isNaN = false → x.units < (low * 2 ^ (149 : Nat) : Nat) →
    held (make x) = .ofInt low
  of_above (x : Binary32) : x.isNaN = false → (high * 2 ^ (149 : Nat) : Nat) < x.units →
    held (make x) = .ofInt high
  of_isNaN (x : Binary32) : x.isNaN → held (make x) = .ofInt fallback
  again (x : Binary32) : make (held (make x)) = make x
  monotone (x y : Binary32) : x.isNaN = false → y.isNaN = false → x.units ≤ y.units →
    (held (make x)).units ≤ (held (make y)).units
  text (x : Binary32) : ∃ t, css (make x) = t ++ suffix ∧ ReadsWithin low high t

open Range.HasEnds in
/-- **A constructor that clamps follows the policy**, whatever it wraps the number in. -/
theorem Range.HasEnds.clamps {α : Type} [ToCss α] {r : Range} {low high fallback : Nat}
    {suffix : List Char} {held : α → Binary32} {make : Binary32 → α}
    (h : r.HasEnds low high fallback) (hheld : ∀ x, held (make x) = kept r x)
    (hmake : ∀ x y, kept r x = kept r y → make x = make y)
    (htext : ∀ x, (kept r x).isFinite → css (make x) = (kept r x).digits ++ suffix) :
    Clamps low high fallback suffix held make where
  within x := by
    rw [hheld]
    exact h.within_kept x
  of_within x hx := by
    rw [hheld]
    exact h.kept_of_within hx
  of_below x hnan hlt := by
    rw [hheld]
    exact h.kept_of_below hnan hlt
  of_above x hnan hlt := by
    rw [hheld]
    exact h.kept_of_above hnan hlt
  of_isNaN x hnan := by
    rw [hheld]
    exact h.kept_of_isNaN hnan
  again x := by
    rw [hheld]
    exact hmake _ _ (h.kept_of_within (h.within_kept x))
  monotone x y hx hy hle := by
    rw [hheld, hheld, h.units_kept hx, h.units_kept hy]
    omega
  text x := by
    have hwithin := h.within_kept x
    have hfinite := isFinite_of_within h.high_whole.lt hwithin
    refine ⟨css (kept r x), ?_, readsWithin_css h.low_whole h.high_whole hwithin⟩
    rw [htext x hfinite, css_of_isFinite hfinite]

theorem Clamped.clamps {r : Range} {low high fallback : Nat} (valid : r.Valid)
    (h : r.HasEnds low high fallback) :
    Clamps low high fallback [] Clamped.value (Clamped.of valid) := by
  refine h.clamps (fun _ => rfl) (fun x y heq => ?_) fun x hfinite => ?_
  · show Clamped.mk _ _ = Clamped.mk _ _
    congr 1
  · rw [List.append_nil, ← css_of_isFinite hfinite]
    rfl

/-- The number in a percentage that is kept between the ends. -/
def ClampedPercentage.held (p : ClampedPercentage) : Binary32 := p.amount.value

theorem ClampedPercentage.clamps :
    Clamps 0 100 0 ['%'] ClampedPercentage.held ClampedPercentage.of := by
  refine percentRange_ends.clamps (fun _ => rfl) (fun x y heq => ?_) fun x hfinite => ?_
  · show ClampedPercentage.mk (Clamped.mk _ _) = ClampedPercentage.mk (Clamped.mk _ _)
    congr 2
  · exact if_pos hfinite

/-- **Every number that is clamped ends up inside its range and is written as a plain decimal
inside of it**: alpha, the two portions of a color, the offset of a keyframe, the weight of a
font and the times of a curve, whose other coordinates are kept. -/
theorem clamping :
    Clamps 0 1 0 [] Clamped.value Alpha.of ∧
    (∃ saturation lightness, Clamps 0 100 0 ['%'] ClampedPercentage.held saturation ∧
      Clamps 0 100 0 ['%'] ClampedPercentage.held lightness ∧ ∀ hue s l alpha,
        Color.ofHsl hue s l alpha = .hsl ⟨hue, saturation s, lightness l, alpha.map Alpha.of⟩) ∧
    (∃ whiteness blackness, Clamps 0 100 0 ['%'] ClampedPercentage.held whiteness ∧
      Clamps 0 100 0 ['%'] ClampedPercentage.held blackness ∧ ∀ hue w b alpha,
        Color.ofHwb hue w b alpha = .hwb ⟨hue, whiteness w, blackness b, alpha.map Alpha.of⟩) ∧
    (∃ offset, Clamps 0 100 0 ['%'] ClampedPercentage.held offset ∧
      ∀ x, KeyframeOffset.ofPercent x = .percent (offset x)) ∧
    (∃ weight, Clamps 1 1000 400 [] Clamped.value weight ∧
      ∀ x, FontWeight.ofNumber x = .number (weight x)) ∧
    ∃ time, Clamps 0 1 0 [] Clamped.value time ∧ ∀ x₁ y₁ x₂ y₂,
      Easing.ofCubicBezier x₁ y₁ x₂ y₂ = .cubicBezier ⟨time x₁, y₁, time x₂, y₂⟩ := by
  have hunit := Clamped.clamps unitRange_valid unitRange_ends
  have hweight := Clamped.clamps weightRange_valid weightRange_ends
  have hpercent := ClampedPercentage.clamps
  exact ⟨hunit, ⟨_, _, hpercent, hpercent, fun _ _ _ _ => rfl⟩,
    ⟨_, _, hpercent, hpercent, fun _ _ _ _ => rfl⟩, ⟨_, hpercent, fun _ => rfl⟩,
    ⟨_, hweight, fun _ => rfl⟩, ⟨_, hunit, fun _ _ _ _ => rfl⟩⟩

/-- The number just below an end is not written as the end. -/
example : css (Alpha.of ⟨0x3f7fffff⟩) = "0.99999994".toList := by decide +kernel

end Stylesheet
