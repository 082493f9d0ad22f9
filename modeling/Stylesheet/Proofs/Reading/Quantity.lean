import Stylesheet.Proofs.Equality.Number
import Stylesheet.Proofs.Selector.Nth

/-! Reading quantities back.

A text does not tell the two zeros apart, nor one NaN from another. What it does tell is the
`canonical` number: the positive zero for either zero and a single NaN, every other number
being itself. A type is `Readable` if its texts are read back with each number in canonical
form. -/
namespace Stylesheet

/-! ### Canonical numbers -/

namespace Binary32
variable {x y : Binary32} {w : List Char}

/-- The number itself, but for the sign of zero and the payload of NaN. -/
def canonical (x : Binary32) : Binary32 := if x.isNaN then nan else x.oneZero

theorem canonical_of_isNaN (h : x.isNaN) : x.canonical = nan := if_pos h

/-- A defined number keeps its value, and the negative zero loses its sign. -/
theorem canonical_of_not_isNaN (h : x.isNaN = false) : x.canonical = x.oneZero :=
  if_neg (Bool.not_eq_true _ ▸ h)

theorem isNaN_oneZero (h : x.isNaN = false) : x.oneZero.isNaN = false := by
  unfold oneZero
  split
  · decide
  · exact h

/-- Only undefined numbers have an undefined canonical form. -/
theorem isNaN_canonical (x : Binary32) : x.canonical.isNaN = x.isNaN := by
  cases h : x.isNaN with
  | true =>
    rw [canonical_of_isNaN h]
    decide
  | false => rw [canonical_of_not_isNaN h, isNaN_oneZero h]

/-- Defined numbers are equal when they have the same units. -/
theorem eq_iff_units (hx : x.isNaN = false) (hy : y.isNaN = false) :
    x.eq y ↔ x.units = y.units := by
  simp [eq, hx, hy]

/-- There is one infinity of either sign. -/
theorem eq_infinity (hfinite : x.isFinite = false) (hnan : x.isNaN = false) :
    x = infinity x.negative := by
  have hexponent : x.exponentField = 255 := by simpa [isFinite] using hfinite
  have hfraction : x.fractionField = 0 := by simpa [isNaN, hexponent] using hnan
  have hbits : x.bits.toNat = (infinity x.negative).bits.toNat := by
    rw [x.bits_eq, hexponent, hfraction]
    cases x.negative <;> rfl
  exact congrArg Binary32.mk (UInt32.toNat_inj.mp hbits)

/-- An infinity is not zero. -/
theorem oneZero_of_infinite (hfinite : x.isFinite = false) (hnan : x.isNaN = false) :
    x.oneZero = x := by
  refine if_neg ?_
  rw [magnitude_of_infinite hfinite hnan]
  decide

/-- Equal numbers are the same once the zeros are. -/
theorem oneZero_eq_of_eq (h : x.eq y) : x.oneZero = y.oneZero := by
  obtain ⟨hnx, hny, hunits⟩ := not_isNaN_of_eq h
  have hfinite := isFinite_of_eq h
  cases hy : y.isFinite with
  | true => exact oneZero_eq_of_units (hfinite.trans hy) hy hunits
  | false =>
    have hx := hfinite.trans hy
    rw [oneZero_of_infinite hx hnx, oneZero_of_infinite hy hny, eq_infinity hx hnx,
      eq_infinity hy hny, negative_eq_of_eq h hy]

/-- **Numbers have one canonical form** if they are equal or both NaN. -/
theorem canonical_eq_iff (x y : Binary32) :
    x.canonical = y.canonical ↔ x.eq y ∨ x.isNaN ∧ y.isNaN := by
  constructor
  · intro h
    have hnan : x.isNaN = y.isNaN := by rw [← isNaN_canonical, h, isNaN_canonical]
    cases hy : y.isNaN with
    | true => exact .inr ⟨hnan.trans hy, rfl⟩
    | false =>
      have hx := hnan.trans hy
      rw [canonical_of_not_isNaN hx, canonical_of_not_isNaN hy] at h
      refine .inl ((eq_iff_units hx hy).mpr ?_)
      rw [← units_oneZero, h, units_oneZero]
  · rintro (h | ⟨hx, hy⟩)
    · obtain ⟨hx, hy, -⟩ := not_isNaN_of_eq h
      rw [canonical_of_not_isNaN hx, canonical_of_not_isNaN hy, oneZero_eq_of_eq h]
    · rw [canonical_of_isNaN hx, canonical_of_isNaN hy]

/-- The canonical form of a number is equal to it. -/
theorem canonical_eq (h : x.isNaN = false) : x.canonical.eq x := by
  rw [eq_iff_units (x.isNaN_canonical.trans h) h, canonical_of_not_isNaN h, units_oneZero]

/-- The canonical number is written as the number is. -/
theorem dimensionText_canonical (x : Binary32) (w : List Char) :
    dimensionText x.canonical w = dimensionText x w := by
  cases h : x.isNaN with
  | true =>
    have hfinite : x.isFinite = false := by
      rw [isNaN, Bool.and_eq_true] at h
      rw [isFinite, bne, h.1]
      rfl
    have hnan : nan.isFinite = false := by decide
    have hkeyword : nan.keyword = x.keyword := by
      rw [keyword, keyword, if_pos h]
      exact if_pos (by decide)
    simp only [canonical_of_isNaN h, dimensionText, hnan, hfinite, Bool.false_eq_true, if_false,
      hkeyword]
  | false => exact dimensionText_congr (canonical_eq h)

/-! ### Reading numbers -/

/-- The number that the decimal is rounded to. -/
def ofDigits? (w : List Char) : Option Binary32 :=
  (readNumber w).map fun (negative, d) => ofRatio negative d.num d.den

/-- The three names of numbers without digits. -/
def ofKeyword? (w : List Char) : Option Binary32 :=
  if w = "NaN".toList then some nan
  else if w = "infinity".toList then some (infinity false)
  else if w = "-infinity".toList then some (infinity true)
  else none

theorem isNaN_of_isFinite (h : x.isFinite) : x.isNaN = false := by
  have hexponent := exponentField_lt h
  simp only [isNaN, Bool.and_eq_false_imp, beq_iff_eq]
  omega

/-- **A finite number reads back from its digits**, which are exact. -/
theorem ofDigits?_digits (h : x.isFinite) : ofDigits? x.digits = some x.canonical := by
  obtain ⟨negative, d, hread, hrounds⟩ := (canonicalText_css h).rounds
  rw [css_of_isFinite h] at hread
  rw [ofDigits?, hread, Option.map_some, canonical_of_not_isNaN (isNaN_of_isFinite h)]
  exact congrArg some (rounds_iff.mp hrounds).2

/-- The other numbers read back from their names. -/
theorem ofKeyword?_keyword (h : x.isFinite = false) : ofKeyword? x.keyword = some x.canonical := by
  cases hnan : x.isNaN with
  | true =>
    rw [canonical_of_isNaN hnan, keyword, if_pos hnan]
    rfl
  | false =>
    have hx := eq_infinity h hnan
    rw [canonical_of_not_isNaN hnan, oneZero_of_infinite h hnan]
    cases hsign : x.negative with
    | true =>
      rw [hsign] at hx
      rw [hx]
      rfl
    | false =>
      rw [hsign] at hx
      rw [hx]
      rfl

end Binary32

/-! ### Reading a number and its unit -/

namespace Reader

/-- Digits and the letters of a unit. -/
def measured : Reader (Binary32 × List Char) := do
  let x ← (span isNumberChar).pick Binary32.ofDigits?
  (x, ·) <$> span Char.isAlpha

/-- A number without digits, times one of a unit. -/
def formula : Reader (Binary32 × List Char) := do
  expect "calc(".toList
  let x ← (span (· != ' ')).pick Binary32.ofKeyword?
  expect " * 1".toList
  let w ← span Char.isAlpha
  expect [')']
  return (x, w)

end Reader

/-- The canonical number and the unit of a quantity. -/
def readMeasure (t : List Char) : Option (Binary32 × List Char) :=
  if OwnText.startsNumber t then Reader.measured.whole t else Reader.formula.whole t

section
variable {x : Binary32} {w : List Char}

/-- The unit is what is left after the digits. -/
theorem reads_measured (hx : x.isFinite) (hw : w.all Char.isAlpha) :
    Reads Reader.measured (x.digits ++ w) (x.canonical, w) (· = []) := by
  have hdigits : x.digits.all isNumberChar :=
    List.all_eq_true.mpr fun _ => isNumberChar_of_mem_digits
  refine ((Reads.span hdigits).pick (Binary32.ofDigits?_digits hx)).bind
    (((Reads.span hw).map _).mono ?_) ?_
  · rintro _ rfl
    exact .nil
  · rintro _ rfl
    rw [List.append_nil]
    exact ends_of_isAlpha hw

theorem reads_formula (hx : x.isFinite = false) (hw : w.all Char.isAlpha) :
    Reads Reader.formula (call "calc" (x.keyword ++ " * 1".toList ++ w)) (x.canonical, w)
      Anything := by
  have hkeyword : x.keyword.all (· != ' ') := by
    have hliteral := Binary32.all_not_space_literal hx
    rwa [Binary32.literal, if_neg (by simp [hx])] at hliteral
  have hunit : Reads (do
      let w ← Reader.span Char.isAlpha
      Reader.expect [')']
      return (x.canonical, w)) (w ++ [')']) (x.canonical, w) Anything :=
    (Reads.span hw).before (x.canonical, ·) fun _ => .cons rfl
  have htext : call "calc" (x.keyword ++ " * 1".toList ++ w) =
      "calc(".toList ++ (x.keyword ++ (" * 1".toList ++ (w ++ [')']))) := by
    simp [call]
  rw [htext]
  exact .after _ (((Reads.span hkeyword).pick (Binary32.ofKeyword?_keyword hx)).bind
    (hunit.after _) fun _ _ => .cons rfl)

/-- **A quantity is read back as its canonical number and its unit.** -/
theorem readMeasure_dimensionText (x : Binary32) (hw : w.all Char.isAlpha) :
    readMeasure (dimensionText x w) = some (x.canonical, w) := by
  rw [readMeasure, Binary32.startsNumber_dimensionText, dimensionText]
  cases hx : x.isFinite with
  | true => exact (reads_measured hx hw).whole rfl
  | false => exact (reads_formula hx hw).whole trivial

end

/-! ### Types that are read back -/

/-- Types whose texts are read back, and whose canonical values are written alike. -/
class Readable (α : Type) [ToCss α] where
  read? : List Char → Option α
  canonical : α → α
  read?_css (a : α) : read? (css a) = some (canonical a)
  css_canonical (a : α) : css (canonical a) = css a

export Readable (read? canonical read?_css css_canonical)

/-- Values are written alike if they have one canonical form, and only then. -/
theorem canonical_inj {α : Type} [ToCss α] [Readable α] {a b : α} :
    canonical a = canonical b ↔ css a = css b := by
  constructor
  · intro h
    rw [← css_canonical a, h, css_canonical]
  · intro h
    have hread := read?_css a
    rw [h, read?_css] at hread
    exact (Option.some.inj hread).symm

/-- A list is written as its canonical form is. -/
theorem map_css_canonical {α : Type} [ToCss α] [Readable α] (as : List α) :
    (as.map canonical).map css = as.map css := by
  rw [List.map_map]
  exact List.map_congr_left fun a _ => css_canonical a

theorem optional_css_canonical {α : Type} [ToCss α] [Readable α] (a : Option α) :
    (a.map canonical).map css = a.map css := by
  cases a with
  | none => rfl
  | some a => exact congrArg some (css_canonical a)

/-- Every item reads back. -/
theorem mapM_read?_css {α : Type} [ToCss α] [Readable α] (as : List α) :
    (as.map css).mapM read? = some (as.map canonical) := by
  induction as with
  | nil => rfl
  | cons a as ih =>
    rw [List.map_cons, List.mapM_cons, read?_css, ih]
    rfl

/-- One value or none. -/
def atMostOne? {α : Type} [ToCss α] [Readable α] : List (List Char) → Option (Option α)
  | [] => some none
  | [t] => (read? t).map some
  | _ => none

/-- So does an optional part. -/
theorem atMostOne?_css {α : Type} [ToCss α] [Readable α] (a : Option α) :
    atMostOne? (a.map css).toList = some (a.map canonical) := by
  cases a with
  | none => rfl
  | some a => exact congrArg (Option.map some) (read?_css a)

instance {α : Type} [Keyword α] [LawfulKeyword α] : Readable α where
  read? := Reader.spelled? α
  canonical := id
  read?_css := spelled?_css
  css_canonical _ := rfl

instance : Readable Nat where
  read? := naturalOf?
  canonical := id
  read?_css := naturalOf?_decimalDigits
  css_canonical _ := rfl

namespace Dimension
variable {Unit : Type}

/-- The unit has to be one of the type. -/
def ofMeasure? [Keyword Unit] (m : Binary32 × List Char) : Option (Dimension Unit) :=
  (Reader.spelled? Unit m.2).map fun u => ⟨m.1, u⟩

/-- The unit of a quantity spells itself. -/
theorem ofMeasure?_css [Keyword Unit] [LawfulKeyword Unit] (x : Binary32) (u : Unit) :
    ofMeasure? (x, css u) = some ⟨x, u⟩ := by
  rw [ofMeasure?, spelled?_css]
  rfl

instance [Keyword Unit] [LawfulUnit Unit] : Readable (Dimension Unit) where
  read? t := (readMeasure t).bind ofMeasure?
  canonical d := {d with value := d.value.canonical}
  read?_css d := by
    show (readMeasure (dimensionText d.value (css d.unit))).bind _ = _
    rw [readMeasure_dimensionText _ (LawfulUnit.all_isAlpha d.unit), Option.bind_some]
    exact ofMeasure?_css ..
  css_canonical d := Binary32.dimensionText_canonical ..

end Dimension
end Stylesheet
