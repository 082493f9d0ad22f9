import Stylesheet.Proofs.Nesting.Prelude
import Stylesheet.Proofs.Reading.Cut
import Stylesheet.Proofs.Reading.Number

/-! Reading ranges back.

A range is three or five words, none of which has a space outside of brackets. Its ends are
lengths, ratios and resolutions: the solidus shows a ratio, and the unit tells the other two
apart. -/
namespace Stylesheet

instance : LawfulKeyword RangeFeature := ⟨by intro f; cases f <;> rfl⟩

instance : LawfulKeyword Comparison := ⟨by intro c; cases c <;> rfl⟩

/-! ### Ratios -/

namespace Reader

/-- A numeral without a sign. -/
def natural : Reader Nat := (span Char.isDigit).pick naturalOf?

/-- Two numerals with a solidus, the second of which is not zero. -/
def ratio : Reader Ratio :=
  pick (do let n ← natural; expect ['/']; return (n, ← natural))
    fun (n, d) => (Ratio.of n d).toOption

end Reader

theorem reads_natural (n : Nat) : Reads Reader.natural (css n) n (Ends fun c => !c.isDigit) :=
  (Reads.span (List.all_eq_true.mpr fun _ hc => isDigit_of_mem_decimalDigits hc)).pick
    (naturalOf?_decimalDigits n)

/-- A ratio reads back, since it is made only with a denominator that is not zero. -/
theorem reads_ratio (r : Ratio) : Reads Reader.ratio (css r) r (Ends fun c => !c.isDigit) := by
  have hof : (Ratio.of r.numerator r.denominator).toOption = some r := by
    rw [Ratio.of, dif_neg r.ne_zero]
    rfl
  refine Reads.pick (a := (r.numerator, r.denominator))
    (.bind (reads_natural r.numerator) ?_ fun _ _ => .cons rfl) hof
  exact .after ['/'] ((reads_natural r.denominator).map (r.numerator, ·))

instance : Readable Ratio where
  read? := Reader.ratio.whole
  canonical := id
  read?_css r := (reads_ratio r).whole .nil
  css_canonical _ := rfl

instance : Argument Ratio where
  isArgument r := by
    obtain ⟨c, cs, htext, hc⟩ := head_decimalDigits r.denominator
    have hne : c ≠ '*' := by
      rintro rfl
      exact absurd hc (by decide)
    have hdenominator : IsArgument (decimalDigits r.denominator) := isArgument r.denominator
    show IsArgument (css r.numerator ++ '/' :: decimalDigits r.denominator)
    rw [htext] at hdenominator ⊢
    exact (isArgument r.numerator).append (.cons rfl rfl (.solidus hne hdenominator))

/-! ### Ranges -/

/-- No quantity has a solidus in it. -/
theorem solidus_not_mem_dimensionText {x : Binary32} {w : List Char} (hw : w.all Char.isAlpha) :
    '/' ∉ dimensionText x w :=
  not_mem_dimensionText x hw rfl rfl rfl rfl

/-- No unit of resolution is one of length. -/
theorem spelled?_length_resolution (u : ResolutionUnit) :
    Reader.spelled? LengthUnit (css u) = none := by
  cases u <;> rfl

namespace RangeValue

/-- Only a ratio has a solidus. -/
def ofText? (t : List Char) : Option RangeValue :=
  if '/' ∈ t then (read? t).map ratio
  else (readMeasure t).bind fun m =>
    ((Dimension.ofMeasure? m).map length).or ((Dimension.ofMeasure? m).map resolution)

/-- The value with its numbers as they are read back. -/
def canonicalNumbers : RangeValue → RangeValue
  | length l => length (canonical l)
  | ratio r => ratio r
  | resolution r => resolution (canonical r)

/-- What has a unit is tried as a length first and as a resolution then. -/
theorem ofText?_dimensionText {Unit : Type} [Keyword Unit] [LawfulUnit Unit] (x : Binary32)
    (u : Unit) : ofText? (dimensionText x (css u)) =
      ((Dimension.ofMeasure? (x.canonical, css u)).map length).or
        ((Dimension.ofMeasure? (x.canonical, css u)).map resolution) := by
  have halpha := LawfulUnit.all_isAlpha u
  rw [ofText?, if_neg (solidus_not_mem_dimensionText halpha), readMeasure_dimensionText _ halpha,
    Option.bind_some]

/-- **A value reads back as what it is**: only a ratio has a solidus, and the units of the
others differ. -/
theorem ofText?_css (v : RangeValue) : ofText? (css v) = some v.canonicalNumbers := by
  cases v with
  | length l =>
    show ofText? (dimensionText l.value (css l.unit)) = _
    rw [ofText?_dimensionText, Dimension.ofMeasure?_css]
    rfl
  | ratio r =>
    have hmem : '/' ∈ css r := by
      show '/' ∈ css r.numerator ++ '/' :: css r.denominator
      simp
    show ofText? (css r) = _
    rw [ofText?, if_pos hmem, read?_css]
    rfl
  | resolution r =>
    have hlength : (Dimension.ofMeasure? (r.value.canonical, css r.unit) :
        Option Length) = none := by
      rw [Dimension.ofMeasure?, spelled?_length_resolution]
      rfl
    show ofText? (dimensionText r.value (css r.unit)) = _
    rw [ofText?_dimensionText, hlength, Dimension.ofMeasure?_css]
    rfl

instance : Readable RangeValue where
  read? := ofText?
  canonical := canonicalNumbers
  read?_css := ofText?_css
  css_canonical
    | length l => css_canonical l
    | ratio _ => rfl
    | resolution r => css_canonical r

instance : Argument RangeValue where
  isArgument
    | length l => isArgument l
    | ratio r => isArgument r
    | resolution r => isArgument r

end RangeValue

instance : Argument RangeFeature where
  isArgument f := .of_isNameChar (by cases f <;> exact all_toList rfl)

instance : Argument Comparison where
  isArgument c := by
    have hall : (css c).all fun d => isPlain d && !argumentEnd d := by
      cases c <;> exact all_toList rfl
    refine .of_allPlain fun d hd => ?_
    simpa using List.all_eq_true.mp hall d hd

namespace RangeTest

/-- Three words compare a feature from one side, and five from both. -/
def ofWords? : List (List Char) → Option RangeTest
  | [feature, comparison, value] => do
    return compare (← read? feature) (← read? comparison) (← read? value)
  | [lower, fromLower, feature, toUpper, upper] => do
    return interval (← read? lower) (← read? fromLower) (← read? feature) (← read? toUpper)
      (← read? upper)
  | _ => none

/-- Only the bounds are numbers. -/
def canonicalNumbers : RangeTest → RangeTest
  | compare feature comparison value => compare feature comparison (canonical value)
  | interval lower fromLower feature toUpper upper =>
    interval (canonical lower) fromLower feature toUpper (canonical upper)

/-- **A range reads back from its words.** -/
theorem ofWords?_words (t : RangeTest) : ofWords? t.words = some t.canonicalNumbers := by
  cases t with
  | compare => simp only [words, ofWords?, read?_css]; rfl
  | interval => simp only [words, ofWords?, read?_css]; rfl

/-- Reading back keeps the words. -/
theorem words_canonicalNumbers (t : RangeTest) : t.canonicalNumbers.words = t.words := by
  cases t with
  | compare => simp only [canonicalNumbers, words, css_canonical]
  | interval => simp only [canonicalNumbers, words, css_canonical]

/-- The words are cut where they were put together, since none has a space outside of
parentheses. -/
theorem cutAt_words (t : RangeTest) : (cutAt ' ' (joined [' '] t.words)).toList = t.words := by
  cases t with
  | compare feature comparison value =>
    refine Stylesheet.cutAt_words ?_
    simp only [List.forall_mem_cons]
    exact ⟨isArgument feature, isArgument comparison, isArgument value, List.forall_mem_nil _⟩
  | interval lower fromLower feature toUpper upper =>
    refine Stylesheet.cutAt_words ?_
    simp only [List.forall_mem_cons]
    exact ⟨isArgument lower, isArgument fromLower, isArgument feature, isArgument toUpper,
      isArgument upper, List.forall_mem_nil _⟩

end RangeTest

/-! ### The first word of a range -/

/-- What comes behind the first name in a range, but never behind that of a named test. -/
def isRangeBreak (c : Char) : Bool := oneOf [' ', '.', '(', '/'] c

theorem ends_of_isRangeBreak {c : Char} {t : List Char} (hc : isRangeBreak c) :
    Ends (fun c => !isNameChar c) (c :: t) :=
  .cons (of_oneOf (p := fun c => !isNameChar c) hc (by decide))

/-- The text begins with a name and goes on as only a range does. -/
def BreaksName (t : List Char) : Prop :=
  ∃ name c rest, t = name ++ c :: rest ∧ name.all isNameChar ∧ isRangeBreak c

namespace BreaksName
variable {t u : List Char}

/-- A character of a name before the break. -/
theorem cons {c : Char} (hc : isNameChar c) (h : BreaksName t) : BreaksName (c :: t) := by
  obtain ⟨name, d, rest, rfl, hname, hd⟩ := h
  exact ⟨c :: name, d, rest, rfl, by rw [List.all_cons, hc, hname]; rfl, hd⟩

theorem of_break {c : Char} (hc : isRangeBreak c) : BreaksName (c :: t) := ⟨[], c, t, rfl, rfl, hc⟩

/-- A word of such characters with a space behind it. -/
theorem of_word (h : ∀ c ∈ t, isNameChar c ∨ isRangeBreak c) : BreaksName (t ++ ' ' :: u) := by
  induction t with
  | nil => exact of_break rfl
  | cons c t ih =>
    rw [List.forall_mem_cons] at h
    obtain hc | hc := h.1
    · exact cons hc (ih h.2)
    · exact of_break hc

theorem of_digit {c : Char} (h : c.isDigit) : isNameChar c ∨ isRangeBreak c :=
  .inl (isNameChar_of_isDigit h)

/-- A quantity ends a name at its point or its parenthesis, or else at the space behind. -/
theorem dimensionText (x : Binary32) {w : List Char} (hw : w.all Char.isAlpha) :
    BreaksName (dimensionText x w ++ ' ' :: u) := by
  unfold Stylesheet.dimensionText
  split
  case isTrue =>
    refine of_word fun c hc => ?_
    rcases List.mem_append.mp hc with hc | hc
    · have hnumber := isNumberChar_of_mem_digits hc
      simp only [isNumberChar, Bool.or_eq_true, beq_iff_eq] at hnumber
      obtain (hdigit | rfl) | rfl := hnumber
      · exact of_digit hdigit
      · exact .inl (by decide)
      · exact .inr rfl
    · have halpha := List.all_eq_true.mp hw c hc
      exact .inl (by simp [isNameChar, Char.isAlphanum, halpha])
  case isFalse => exact ⟨"calc".toList, '(', _, rfl, by decide, rfl⟩

theorem value (v : RangeValue) : BreaksName (css v ++ ' ' :: u) := by
  cases v with
  | length l => exact dimensionText l.value (LawfulUnit.all_isAlpha l.unit)
  | ratio r =>
    refine of_word fun c hc => ?_
    rcases List.mem_append.mp hc with hc | hc
    · exact of_digit (isDigit_of_mem_decimalDigits hc)
    rcases List.mem_cons.mp hc with rfl | hc
    · exact .inr rfl
    · exact of_digit (isDigit_of_mem_decimalDigits hc)
  | resolution r => exact dimensionText r.value (LawfulUnit.all_isAlpha r.unit)

/-- So the first word of a range is no name with a colon behind. -/
theorem range (t : RangeTest) : BreaksName (joined [' '] t.words) := by
  have hfirst : ∀ (w u : List Char) (us : List (List Char)),
      joined [' '] (w :: u :: us) = w ++ ' ' :: joined [' '] (u :: us) :=
    fun w u us => List.append_assoc w [' '] _
  cases t with
  | compare feature comparison value =>
    have hname : (css feature).all isNameChar := by cases feature <;> exact all_toList rfl
    rw [RangeTest.words, hfirst]
    exact of_word fun c hc => .inl (List.all_eq_true.mp hname c hc)
  | interval lower fromLower feature toUpper upper =>
    rw [RangeTest.words, hfirst]
    exact value lower

end BreaksName
end Stylesheet
