import Stylesheet.Proofs.Equality.Argument
import Stylesheet.Proofs.Number.Canonical
import Stylesheet.Proofs.Property.Own

/-! Equal quantities and equal texts.

Apart from NaN, which is equal to nothing, numbers are equal exactly when they are written
alike: the finite ones by their digits, the infinities by their names. A unit begins with
no character of a number, so that the digits and the unit of a quantity can be told apart;
where a number has a name, the unit stands in a formula. -/
namespace Stylesheet

/-! ### What is compared -/

/-- The numbers that a value holds. -/
class HasNumbers (α : Type) where
  numbers : α → List Binary32

export HasNumbers (numbers)

/-- None of the numbers in the value is undefined. -/
def NaNFree {α : Type} [HasNumbers α] (a : α) : Prop := ∀ x ∈ numbers a, x.isNaN = false

instance {α : Type} [HasNumbers α] (a : α) : Decidable (NaNFree a) :=
  inferInstanceAs (Decidable (∀ x ∈ numbers a, x.isNaN = false))

/-- Equal values have the same text, and values without NaN are equal if their texts are. -/
class Faithful (α : Type) [ToCss α] [BEq α] [HasNumbers α] : Prop where
  css_eq {a b : α} : a == b → css a = css b
  beq {a b : α} : NaNFree a → NaNFree b → css a = css b → a == b

/-! ### Numbers -/

namespace Binary32
variable {x y : Binary32} {u w w' : List Char}

/-- The digits or the name of a number. -/
def literal (x : Binary32) : List Char := if x.isFinite then x.digits else x.keyword

/-- The units of a number are its magnitude with a sign. -/
theorem natAbs_units (x : Binary32) : x.units.natAbs = x.magnitude := by
  unfold units
  split <;> omega

/-- An infinity has the magnitude that would come after the largest. -/
theorem magnitude_of_infinite (hfinite : x.isFinite = false) (hnan : x.isNaN = false) :
    x.magnitude = infinityMagnitude := by
  have hexponent : x.exponentField = 255 := by simpa [isFinite] using hfinite
  have hfraction : x.fractionField = 0 := by simpa [isNaN, hexponent] using hnan
  rw [magnitude, significand, scale, hexponent, hfraction]
  rfl

/-- Equal numbers are defined, and have the same units. -/
theorem not_isNaN_of_eq (h : x.eq y) : x.isNaN = false ∧ y.isNaN = false ∧ x.units = y.units := by
  simpa [eq, and_assoc] using h

/-- Infinity is equal to no finite number. -/
theorem isFinite_of_eq (h : x.eq y) : x.isFinite = y.isFinite := by
  obtain ⟨hx, hy, hunits⟩ := not_isNaN_of_eq h
  have hmagnitude : x.magnitude = y.magnitude := by
    rw [← natAbs_units, hunits, natAbs_units]
  cases hfx : x.isFinite <;> cases hfy : y.isFinite
  · rfl
  · have hlt := magnitude_lt hfy
    rw [← hmagnitude, magnitude_of_infinite hfx hx] at hlt
    exact absurd hlt (Nat.lt_irrefl _)
  · have hlt := magnitude_lt hfx
    rw [hmagnitude, magnitude_of_infinite hfy hy] at hlt
    exact absurd hlt (Nat.lt_irrefl _)
  · rfl

theorem css_of_isFinite (h : x.isFinite) : css x = x.digits := if_pos h

/-- Either infinity is told by its sign. -/
theorem units_of_infinite (hfinite : x.isFinite = false) (hnan : x.isNaN = false) :
    x.units = if x.negative then -(infinityMagnitude : Int) else infinityMagnitude := by
  rw [units, magnitude_of_infinite hfinite hnan]

theorem negative_eq_of_eq (h : x.eq y) (hfinite : y.isFinite = false) :
    x.negative = y.negative := by
  obtain ⟨hnx, hny, hunits⟩ := not_isNaN_of_eq h
  rw [units_of_infinite ((isFinite_of_eq h).trans hfinite) hnx,
    units_of_infinite hfinite hny] at hunits
  cases hx : x.negative <;> cases hy : y.negative <;>
    simp [hx, hy, infinityMagnitude] at hunits ⊢

/-- **Equal numbers have the same literal**, the two zeros among them. -/
theorem literal_eq_of_eq (h : x.eq y) : x.literal = y.literal := by
  have hfinite := isFinite_of_eq h
  unfold literal
  rw [hfinite]
  split
  case isTrue hy =>
    have hx : x.isFinite := hfinite.trans hy
    rw [← css_of_isFinite hx, ← css_of_isFinite hy]
    exact (css_eq_iff hx hy).mpr h
  case isFalse hy =>
    rw [Bool.not_eq_true] at hy
    obtain ⟨hnx, hny, -⟩ := not_isNaN_of_eq h
    rw [keyword, keyword, hnx, hny, negative_eq_of_eq h hy]

/-- Digits begin like a number, and names do not. -/
theorem startsNumber_literal (x : Binary32) : OwnText.startsNumber x.literal = x.isFinite := by
  unfold literal
  cases hx : x.isFinite with
  | true =>
    have hstarts := OwnText.startsNumber_digits (u := []) x
    rwa [List.append_nil] at hstarts
  | false =>
    show OwnText.startsNumber x.keyword = false
    unfold keyword
    split
    · decide
    split
    · decide
    · decide

/-- **Numbers with the same literal are equal.** Finite ones are read back from it, and the
infinities have names of their own. -/
theorem eq_of_literal (hx : x.isNaN = false) (hy : y.isNaN = false) (h : x.literal = y.literal) :
    x.eq y := by
  have hfinite : x.isFinite = y.isFinite := by
    rw [← startsNumber_literal, h, startsNumber_literal]
  unfold literal at h
  rw [hfinite] at h
  cases hfy : y.isFinite with
  | true =>
    rw [hfy] at h
    have hfx := hfinite.trans hfy
    refine (css_eq_iff hfx hfy).mp ?_
    rw [css_of_isFinite hfx, css_of_isFinite hfy]
    exact h
  | false =>
    rw [hfy] at h
    have hsign : x.negative = y.negative := by
      simp only [Bool.false_eq_true, if_false, keyword, hx, hy] at h
      cases hnx : x.negative <;> cases hny : y.negative <;> simp [hnx, hny] at h ⊢
    rw [eq, hx, hy, units_of_infinite (hfinite.trans hfy) hx, units_of_infinite hfy hy, hsign]
    simp

/-! ### Quantities -/

/-- The text of a number is its literal, in `calc` if it has no digits. -/
theorem numberText_eq (x : Binary32) :
    numberText x = if x.isFinite then x.literal else call "calc" x.literal := by
  unfold numberText literal
  split <;> rfl

/-- The same with a unit. -/
theorem dimensionText_eq (x : Binary32) (w : List Char) :
    dimensionText x w =
      if x.isFinite then x.literal ++ w else call "calc" (x.literal ++ (" * 1".toList ++ w)) := by
  unfold dimensionText literal
  split
  · rfl
  · rw [List.append_assoc]

/-- A formula does not begin like a number. -/
theorem startsNumber_quantity (x : Binary32) (w t : List Char) :
    OwnText.startsNumber (if x.isFinite then x.literal ++ w else call "calc" t) = x.isFinite := by
  cases hx : x.isFinite with
  | true =>
    rw [if_pos rfl, literal, if_pos hx]
    exact OwnText.startsNumber_digits x
  | false => rfl

/-- The first character tells whether the number has digits. -/
theorem startsNumber_numberText (x : Binary32) :
    OwnText.startsNumber (numberText x) = x.isFinite := by
  have hquantity := startsNumber_quantity x [] x.literal
  rwa [List.append_nil, ← numberText_eq] at hquantity

/-- The same with a unit. -/
theorem startsNumber_dimensionText (x : Binary32) (w : List Char) :
    OwnText.startsNumber (dimensionText x w) = x.isFinite := by
  rw [dimensionText_eq]
  exact startsNumber_quantity ..

/-- Texts of numbers are equal only if the literals are. -/
theorem numberText_inj (h : numberText x = numberText y) : x.literal = y.literal := by
  have hfinite : x.isFinite = y.isFinite := by
    rw [← startsNumber_numberText, h, startsNumber_numberText]
  rw [numberText_eq, numberText_eq, hfinite] at h
  split at h
  · exact h
  · exact call_cancel h

theorem eq_of_css (hx : x.isNaN = false) (hy : y.isNaN = false) (h : css x = css y) : x.eq y :=
  eq_of_literal hx hy (numberText_inj h)

/-- A finite literal has digits, a sign and a point, and nothing else. -/
theorem all_isNumberChar_literal (hx : x.isFinite) : x.literal.all isNumberChar := by
  rw [literal, if_pos hx]
  exact List.all_eq_true.mpr fun _ => isNumberChar_of_mem_digits

/-- A name ends before the space in a formula. -/
theorem all_not_space_literal (hx : x.isFinite = false) : x.literal.all (· != ' ') := by
  rw [literal, if_neg (by simp [hx]), keyword]
  split
  · decide
  split
  · decide
  · decide

/-- A unit that begins with none of these can be told from the number in front. -/
theorem dimensionText_inj (hw : Ends (!isNumberChar ·) w) (hw' : Ends (!isNumberChar ·) w')
    (h : dimensionText x w = dimensionText y w') : x.literal = y.literal ∧ w = w' := by
  have hfinite : x.isFinite = y.isFinite := by
    rw [← startsNumber_dimensionText x w, h, startsNumber_dimensionText]
  rw [dimensionText_eq, dimensionText_eq, hfinite] at h
  split at h
  case isTrue hy =>
    exact span_inj (all_isNumberChar_literal (hfinite.trans hy)) (all_isNumberChar_literal hy)
      hw hw' h
  case isFalse hy =>
    rw [Bool.not_eq_true] at hy
    have hspace : ∀ w, Ends (fun c => !(c != ' ')) (" * 1".toList ++ w) := fun _ => .cons rfl
    obtain ⟨hliteral, hfactor⟩ := span_inj (all_not_space_literal (hfinite.trans hy))
      (all_not_space_literal hy) (hspace w) (hspace w') (call_cancel h)
    exact ⟨hliteral, List.append_cancel_left hfactor⟩

theorem numberText_congr (h : x.eq y) : numberText x = numberText y := by
  rw [numberText_eq, numberText_eq, isFinite_of_eq h, literal_eq_of_eq h]

/-- The text depends on the literal and the unit. -/
theorem dimensionText_congr (h : x.eq y) : dimensionText x w = dimensionText y w := by
  rw [dimensionText_eq, dimensionText_eq, isFinite_of_eq h, literal_eq_of_eq h]

/-! ### Quantities as arguments -/

theorem isArgument_of_isNumberChar {t : List Char} (h : ∀ c ∈ t, isNumberChar c) :
    IsArgument t := by
  refine .of_allPlain fun c hc => ?_
  have hplain := wordChar_of_isNumberChar (h c hc)
  rw [Bool.and_eq_true] at hplain
  refine ⟨hplain.1, ?_⟩
  rw [argumentEnd, Bool.or_eq_false_iff, beq_eq_false_iff_ne, beq_eq_false_iff_ne]
  constructor <;> rintro rfl <;> exact absurd hplain.2 (by decide)

/-- A quantity has no space or comma outside of its parentheses. -/
theorem isArgument_dimensionText (hw : IsArgument.AllPlain w) :
    IsArgument (dimensionText x w) := by
  have hnested : Nested anyChar w := by
    refine .of_all (List.all_eq_true.mpr fun c hc => ?_)
    rw [(hw c hc).1]
    rfl
  unfold dimensionText
  split
  · exact (isArgument_of_isNumberChar fun _ => isNumberChar_of_mem_digits).append
      (IsArgument.of_allPlain hw)
  · exact .call rfl (((nested_keyword x).any.append .word).append hnested)

end Binary32

open Binary32

variable {α : Type} [ToCss α]

/-! ### Quantities among words -/

/-- A number or the formula of one. -/
def isQuantity (t : List Char) : Bool := OwnText.startsNumber t || "calc(".toList.isPrefixOf t

/-- Both forms of a quantity are told by how they begin. -/
theorem isQuantity_append {x : Binary32} {w t : List Char} :
    isQuantity (if x.isFinite then x.literal ++ w else call "calc" t) := by
  have hstarts := startsNumber_quantity x w t
  rw [isQuantity]
  cases hx : x.isFinite with
  | true =>
    rw [hx] at hstarts
    rw [hstarts]
    rfl
  | false => rfl

/-- Types whose values are written as quantities. -/
class Quantity (α : Type) [ToCss α] : Prop where
  isQuantity_css (a : α) : isQuantity (css a)

/-- A quantity is no word. -/
theorem quantity_ne [Quantity α] (a : α) {w : List Char} (hw : isQuantity w = false) :
    css a ≠ w := by
  rintro rfl
  rw [Quantity.isQuantity_css a] at hw
  exact nomatch hw

theorem isQuantity_dimensionText (x : Binary32) (w : List Char) :
    isQuantity (dimensionText x w) := by
  rw [dimensionText_eq]
  exact isQuantity_append

/-! ### Numbers -/

instance : HasNumbers Binary32 := ⟨fun x => [x]⟩

instance : Faithful Binary32 where
  css_eq h := numberText_congr h
  beq ha hb h :=
    eq_of_css (ha _ (List.mem_singleton_self _)) (hb _ (List.mem_singleton_self _)) h

instance : Argument Binary32 where
  isArgument x := by
    show IsArgument (numberText x)
    unfold numberText
    split
    · exact isArgument_of_isNumberChar fun _ => isNumberChar_of_mem_digits
    · exact .call rfl (nested_keyword x).any

instance {r : Range} : HasNumbers (Clamped r) := ⟨fun x => [x.value]⟩

instance {r : Range} : Faithful (Clamped r) where
  css_eq {a b} h := Faithful.css_eq (a := a.value) (b := b.value) h
  beq {a b} ha hb h := Faithful.beq (a := a.value) (b := b.value) ha hb h

instance {r : Range} : Argument (Clamped r) := ⟨fun x => isArgument x.value⟩

instance : Argument Nat where
  isArgument _ := isArgument_of_isNumberChar fun _ => isNumberChar_of_mem_decimalDigits

/-- Numerals are read back. -/
theorem decimalDigits_inj {m n : Nat} (h : decimalDigits m = decimalDigits n) : m = n := by
  rw [← Nat.ofDigitChars_ten_toDigits (n := m), ← Nat.ofDigitChars_ten_toDigits (n := n)]
  exact congrArg (Nat.ofDigitChars 10 · 0) h

/-! ### Percentages -/

instance : HasNumbers Percentage := ⟨fun p => [p.value]⟩

/-- The percent sign is no part of the number. -/
theorem ends_percent : Ends (!isNumberChar ·) ['%'] := .cons rfl

instance : Faithful Percentage where
  css_eq h := dimensionText_congr h
  beq ha hb h := eq_of_literal (ha _ (List.mem_singleton_self _)) (hb _ (List.mem_singleton_self _))
    (dimensionText_inj ends_percent ends_percent h).1

instance : Quantity Percentage := ⟨fun _ => isQuantity_dimensionText ..⟩

instance : Argument Percentage where
  isArgument _ := isArgument_dimensionText (List.forall_mem_singleton.mpr (by decide))

instance : HasNumbers ClampedPercentage := ⟨fun p => numbers p.percentage⟩

instance : Faithful ClampedPercentage where
  css_eq {a b} h := Faithful.css_eq (a := a.percentage) (b := b.percentage) h
  beq {a b} ha hb h := Faithful.beq (a := a.percentage) (b := b.percentage) ha hb h

instance : Argument ClampedPercentage := ⟨fun p => isArgument p.percentage⟩

/-! ### Dimensions -/

/-- Letters are no part of numbers, so that a unit ends the digits. -/
theorem not_isNumberChar_of_isAlpha {c : Char} (h : c.isAlpha) : isNumberChar c = false := by
  cases hc : isNumberChar c with
  | false => rfl
  | true =>
    simp only [isNumberChar, Bool.or_eq_true, beq_iff_eq] at hc
    obtain (hdigit | rfl) | rfl := hc
    · have hstart := OwnText.not_isNameStart_of_isDigit hdigit
      simp [isNameStart, h] at hstart
    · exact absurd h (by decide)
    · exact absurd h (by decide)

theorem ends_of_isAlpha {w : List Char} (hw : w.all Char.isAlpha) :
    Ends (!isNumberChar ·) w := by
  intro c hc
  have halpha := List.all_eq_true.mp hw c (List.mem_of_mem_head? hc)
  simp [not_isNumberChar_of_isAlpha halpha]

/-- Units are spelled with letters, and no two are spelled alike. -/
class LawfulUnit (Unit : Type) [Keyword Unit] : Prop extends LawfulKeyword Unit where
  all_isAlpha (u : Unit) : (css u).all Char.isAlpha

instance : LawfulUnit LengthUnit where
  find_keyword u := by cases u <;> rfl
  all_isAlpha u := by cases u <;> exact all_toList rfl

instance : LawfulUnit AngleUnit where
  find_keyword u := by cases u <;> rfl
  all_isAlpha u := by cases u <;> exact all_toList rfl

instance : LawfulUnit TimeUnit where
  find_keyword u := by cases u <;> rfl
  all_isAlpha u := by cases u <;> exact all_toList rfl

instance : LawfulUnit ResolutionUnit where
  find_keyword u := by cases u <;> rfl
  all_isAlpha u := by cases u <;> exact all_toList rfl

/-- Dimensions are equal if the numbers and the units are; no unit is converted. -/
theorem Dimension.beq_iff {Unit : Type} [DecidableEq Unit] {a b : Dimension Unit} :
    a == b ↔ a.value.eq b.value ∧ a.unit = b.unit := by
  obtain ⟨x, u⟩ := a
  obtain ⟨y, v⟩ := b
  show (x.eq y && u == v) = true ↔ _
  rw [Bool.and_eq_true, beq_iff_eq]

section
variable {Unit : Type} [Keyword Unit] [LawfulUnit Unit]

theorem ends_unit (u : Unit) : Ends (!isNumberChar ·) (css u) :=
  ends_of_isAlpha (LawfulUnit.all_isAlpha u)

/-- A unit is a word of letters. -/
theorem all_isNameChar_unit (u : Unit) : (css u).all isNameChar := by
  refine List.all_eq_true.mpr fun c hc => ?_
  have halpha := List.all_eq_true.mp (LawfulUnit.all_isAlpha u) c hc
  simp [isNameChar, Char.isAlphanum, halpha]

instance : HasNumbers (Dimension Unit) := ⟨fun d => [d.value]⟩

instance : Quantity (Dimension Unit) := ⟨fun _ => isQuantity_dimensionText ..⟩

instance : Argument (Dimension Unit) where
  isArgument d := isArgument_dimensionText (.of_isNameChar (all_isNameChar_unit d.unit))

instance [DecidableEq Unit] : Faithful (Dimension Unit) where
  css_eq {a b} h := by
    obtain ⟨hvalue, hunit⟩ := Dimension.beq_iff.mp h
    show dimensionText a.value (css a.unit) = dimensionText b.value (css b.unit)
    rw [hunit]
    exact dimensionText_congr hvalue
  beq {a b} ha hb h := by
    obtain ⟨hliteral, hunit⟩ := dimensionText_inj (ends_unit a.unit) (ends_unit b.unit) h
    refine Dimension.beq_iff.mpr ⟨eq_of_literal ?_ ?_ hliteral, keyword_inj hunit⟩
    · exact ha _ (List.mem_singleton_self _)
    · exact hb _ (List.mem_singleton_self _)

end

/-! ### Lengths and percentages -/

instance : HasNumbers LengthPercentage := ⟨fun a => [a.value]⟩

instance : Quantity LengthPercentage where
  isQuantity_css
    | .length l => Quantity.isQuantity_css l
    | .percentage p => Quantity.isQuantity_css p

instance : Argument LengthPercentage where
  isArgument
    | .length l => isArgument l
    | .percentage p => isArgument p

/-- No unit of length is the percent sign. -/
theorem unit_ne_percent (u : LengthUnit) : css u ≠ ['%'] := by
  intro h
  have halpha := LawfulUnit.all_isAlpha u
  rw [h] at halpha
  exact absurd halpha (by decide)

instance : Faithful LengthPercentage where
  css_eq {a b} h := by
    cases a with
    | length l =>
      cases b with
      | length m => exact Faithful.css_eq (a := l) (b := m) h
      | percentage => exact nomatch h
    | percentage p =>
      cases b with
      | length => exact nomatch h
      | percentage q => exact Faithful.css_eq (a := p) (b := q) h
  beq {a b} ha hb h := by
    cases a with
    | length l =>
      cases b with
      | length m => exact Faithful.beq (a := l) (b := m) ha hb h
      | percentage =>
        exact absurd (dimensionText_inj (ends_unit _) ends_percent h).2 (unit_ne_percent l.unit)
    | percentage p =>
      cases b with
      | length m =>
        have hunit := (dimensionText_inj ends_percent (ends_unit _) h).2
        exact absurd hunit.symm (unit_ne_percent m.unit)
      | percentage q => exact Faithful.beq (a := p) (b := q) ha hb h

/-! ### Quantities of at least zero -/

instance [Signed α] [HasNumbers α] : HasNumbers (NonNegative α) := ⟨fun a => numbers a.value⟩

instance [Signed α] [Quantity α] : Quantity (NonNegative α) :=
  ⟨fun a => Quantity.isQuantity_css a.value⟩

instance [Signed α] [BEq α] [HasNumbers α] [Faithful α] : Faithful (NonNegative α) where
  css_eq {a b} h := Faithful.css_eq (a := a.value) (b := b.value) h
  beq {a b} ha hb h := Faithful.beq (a := a.value) (b := b.value) ha hb h

end Stylesheet
