import Stylesheet.Proofs.Quantity.Sign
import Stylesheet.Proofs.Reading.Quantity

/-! Reading numbers and percentages back, and what is restricted to some of them.

A number has no unit, so that the formula for one that has no digits is shorter than that of
a quantity. A percentage is told from a length by its sign. The canonical number lies in
every range that the number lies in, and is negative only if the number is. -/
namespace Stylesheet
open Binary32

/-! ### Numbers -/

namespace Reader

/-- A number without digits in `calc`. -/
def numberFormula : Reader Binary32 := do
  expect "calc(".toList
  let x ← (span (· != ')')).pick Binary32.ofKeyword?
  expect [')']
  return x

/-- Digits and a percent sign. -/
def percentage : Reader Binary32 := do
  let x ← (span isNumberChar).pick Binary32.ofDigits?
  expect ['%']
  return x

/-- A percentage without digits, times one percent in `calc`. -/
def percentageFormula : Reader Binary32 := do
  expect "calc(".toList
  let x ← (span (· != ' ')).pick Binary32.ofKeyword?
  expect (' ' :: "* 1%)".toList)
  return x

end Reader

/-- Finite numbers read back up to their last digit. -/
theorem reads_digits {x : Binary32} (hx : x.isFinite) :
    Reads ((Reader.span isNumberChar).pick ofDigits?) x.digits x.canonical
      (Ends (!isNumberChar ·)) :=
  (Reads.span (List.all_eq_true.mpr fun _ => isNumberChar_of_mem_digits)).pick
    (ofDigits?_digits hx)

/-- The three names, checked for one class of characters at a time. -/
theorem all_keyword {p : Char → Bool} (x : Binary32)
    (hp : ("NaN".toList ++ '-' :: "infinity".toList).all p) : x.keyword.all p := by
  rw [List.all_append, List.all_cons, Bool.and_eq_true, Bool.and_eq_true] at hp
  obtain ⟨hnan, hminus, hinfinity⟩ := hp
  have hnegative : "-infinity".toList = '-' :: "infinity".toList := by decide
  unfold keyword
  split
  · exact hnan
  split
  · rw [hnegative, List.all_cons, hminus, hinfinity]
    rfl
  · exact hinfinity

/-- The names of numbers without digits read back. -/
theorem reads_keyword {x : Binary32} {p : Char → Bool} (hx : x.isFinite = false)
    (hp : ("NaN".toList ++ '-' :: "infinity".toList).all p) :
    Reads ((Reader.span p).pick ofKeyword?) x.keyword x.canonical (Ends (!p ·)) :=
  (Reads.span (all_keyword x hp)).pick (ofKeyword?_keyword hx)

instance : Readable Binary32 where
  read? t :=
    if OwnText.startsNumber t then ((Reader.span isNumberChar).pick ofDigits?).whole t
    else Reader.numberFormula.whole t
  canonical := Binary32.canonical
  read?_css x := by
    have hstarts : OwnText.startsNumber (css x) = x.isFinite := startsNumber_numberText x
    rw [hstarts]
    cases hx : x.isFinite with
    | true =>
      have htext : css x = x.digits := if_pos hx
      rw [htext]
      exact (reads_digits hx).whole .nil
    | false =>
      have htext : css x = "calc(".toList ++ (x.keyword ++ [')']) := by
        show numberText x = _
        simp [numberText, hx, call]
      have hread : Reads Reader.numberFormula _ x.canonical Anything :=
        .after _ ((reads_keyword hx (by decide)).before id fun _ => .cons rfl)
      rw [htext]
      exact hread.whole trivial
  css_canonical x := by
    have hliteral : x.canonical.literal = x.literal :=
      (dimensionText_inj .nil .nil (dimensionText_canonical x [])).1
    have hfinite : x.canonical.isFinite = x.isFinite := by
      rw [← startsNumber_literal, hliteral, startsNumber_literal]
    show numberText x.canonical = numberText x
    rw [numberText_eq, numberText_eq, hfinite, hliteral]

/-! ### Ranges -/

/-- A range holds a number in its canonical form as well, for only zeros and undefined numbers
change. -/
theorem Range.Contains.canonical {r : Range} {x : Binary32} (h : r.Contains x) :
    r.Contains x.canonical := by
  obtain ⟨hnan, hlow, hhigh⟩ := h
  have hunits : x.canonical.units = x.units := by
    rw [canonical_of_not_isNaN hnan, units_oneZero]
  have hnan' : x.canonical.isNaN = false := x.isNaN_canonical.trans hnan
  refine ⟨hnan', ?_, ?_⟩
  · rw [lt, hnan', hunits]
    rwa [lt, hnan] at hlow
  · rw [lt, hnan', hunits]
    rwa [lt, hnan] at hhigh

instance {r : Range} : Readable (Clamped r) where
  read? t := (read? t).bind fun x => if h : r.Contains x then some ⟨x, h⟩ else none
  canonical x := ⟨canonical x.value, x.contains.canonical⟩
  read?_css x := by
    show (read? (css x.value)).bind _ = _
    rw [read?_css, Option.bind_some]
    exact dif_pos x.contains.canonical
  css_canonical x := css_canonical x.value

/-- The sign of zero is no sign. -/
theorem isNegative_canonical (x : Binary32) : x.canonical.isNegative = x.isNegative := by
  rw [isNegative_eq, isNegative_eq, isNaN_canonical]
  cases h : x.isNaN with
  | true => rfl
  | false => rw [canonical_of_not_isNaN h, units_oneZero]

/-! ### Percentages -/

instance : Readable Percentage where
  read? t :=
    (if OwnText.startsNumber t then Reader.percentage.whole t
      else Reader.percentageFormula.whole t).map .mk
  canonical p := ⟨p.value.canonical⟩
  read?_css p := by
    obtain ⟨x⟩ := p
    have hstarts : OwnText.startsNumber (css (⟨x⟩ : Percentage)) = x.isFinite :=
      startsNumber_dimensionText ..
    rw [hstarts]
    cases hx : x.isFinite with
    | true =>
      have htext : css (⟨x⟩ : Percentage) = x.digits ++ ['%'] := if_pos hx
      have hread : Reads Reader.percentage (x.digits ++ ['%']) x.canonical Anything :=
        (reads_digits hx).before id fun _ => .cons rfl
      rw [htext]
      exact congrArg (Option.map _) (hread.whole trivial)
    | false =>
      have htext : css (⟨x⟩ : Percentage) =
          "calc(".toList ++ (x.keyword ++ ' ' :: "* 1%)".toList) := by
        show dimensionText x ['%'] = _
        simp [dimensionText, hx, call]
      have hread : Reads Reader.percentageFormula _ x.canonical Anything :=
        .after _ ((reads_keyword hx (by decide)).before id fun _ => .cons rfl)
      rw [htext]
      exact congrArg (Option.map _) (hread.whole trivial)
  css_canonical p := dimensionText_canonical ..

instance : Readable ClampedPercentage where
  read? t :=
    (read? t).bind fun p : Percentage =>
      if h : percentRange.Contains p.value then some ⟨⟨p.value, h⟩⟩ else none
  canonical p := ⟨canonical p.amount⟩
  read?_css p := by
    show (read? (css p.percentage)).bind _ = _
    rw [read?_css, Option.bind_some]
    exact dif_pos p.amount.contains.canonical
  css_canonical p := css_canonical p.percentage

/-! ### Lengths and percentages -/

/-- The characters of a quantity are those of a number, of a formula and of the unit. -/
theorem not_mem_dimensionText {d : Char} {w : List Char} (x : Binary32) (hw : w.all Char.isAlpha)
    (halpha : d.isAlpha = false) (hnumber : isNumberChar d = false)
    (hname : ("NaN".toList ++ '-' :: "infinity".toList).all (· != d))
    (hformula : ("calc(".toList ++ " * 1)".toList).all (· != d)) : d ∉ dimensionText x w := by
  have hne {p : Char → Bool} (hp : p d = false) (c : Char) (hc : p c) : (c != d) = true := by
    rw [bne_iff_ne]
    rintro rfl
    exact Bool.eq_false_iff.mp hp hc
  have hdigits : x.digits.all (· != d) :=
    List.all_eq_true.mpr fun c hc => hne hnumber c (isNumberChar_of_mem_digits hc)
  have hunit : w.all (· != d) :=
    List.all_eq_true.mpr fun c hc => hne halpha c (List.all_eq_true.mp hw c hc)
  have hkeyword := all_keyword x hname
  have hall : (dimensionText x w).all (· != d) := by
    unfold dimensionText
    split
    · rw [List.all_append, hdigits, hunit]
      rfl
    · simp_all [call]
  exact fun h => absurd (List.all_eq_true.mp hall d h) (by simp)

/-- A percentage is told from a length by its sign. -/
theorem percent_mem_css (p : Percentage) : '%' ∈ css p := by
  show '%' ∈ dimensionText p.value ['%']
  unfold dimensionText
  split <;> simp [call]

theorem percent_not_mem_css (l : Length) : '%' ∉ css l :=
  not_mem_dimensionText l.value (LawfulUnit.all_isAlpha l.unit) rfl rfl rfl rfl

instance : Readable LengthPercentage where
  read? t := if '%' ∈ t then (read? t).map .percentage else (read? t).map .length
  canonical
    | .length l => .length (canonical l)
    | .percentage p => .percentage (canonical p)
  read?_css
    | .length l => (if_neg (percent_not_mem_css l)).trans (congrArg _ (read?_css l))
    | .percentage p => (if_pos (percent_mem_css p)).trans (congrArg _ (read?_css p))
  css_canonical
    | .length l => css_canonical l
    | .percentage p => css_canonical p

/-! ### Lengths of at least zero -/

theorem isNegative_canonical_length (l : NonNegative Length) :
    (canonical l.value).value.isNegative = false :=
  (isNegative_canonical _).trans l.not_negative

instance : Readable (NonNegative Length) where
  read? t := (read? t).bind fun l => (NonNegative.of l).toOption
  canonical l := ⟨canonical l.value, isNegative_canonical_length l⟩
  read?_css l := by
    show (read? (css l.value)).bind _ = _
    rw [read?_css, Option.bind_some]
    exact congrArg Except.toOption (dif_pos (isNegative_canonical_length l))
  css_canonical l := css_canonical l.value

/-! ### Equality -/

/-- Types whose canonical values hold the canonical numbers. -/
class CanonicalNumbers (α : Type) [ToCss α] [Readable α] [HasNumbers α] : Prop where
  numbers_canonical (a : α) : numbers (canonical a) = (numbers a).map Binary32.canonical

export CanonicalNumbers (numbers_canonical)

instance : CanonicalNumbers Binary32 := ⟨fun _ => rfl⟩

instance {r : Range} : CanonicalNumbers (Clamped r) := ⟨fun _ => rfl⟩

instance : CanonicalNumbers ClampedPercentage := ⟨fun _ => rfl⟩

instance {Unit : Type} [Keyword Unit] [LawfulUnit Unit] : CanonicalNumbers (Dimension Unit) :=
  ⟨fun _ => rfl⟩

instance : CanonicalNumbers (NonNegative Length) := ⟨fun _ => rfl⟩

/-- **Without NaN the canonical value is equal to the value.** -/
theorem canonical_beq {α : Type} [ToCss α] [Readable α] [BEq α] [HasNumbers α] [Faithful α]
    [CanonicalNumbers α] {a : α} (h : NaNFree a) : canonical a == a := by
  refine Faithful.beq (fun x hx => ?_) h (css_canonical a)
  rw [numbers_canonical] at hx
  obtain ⟨y, hy, rfl⟩ := List.mem_map.mp hx
  rw [isNaN_canonical, h y hy]

end Stylesheet
