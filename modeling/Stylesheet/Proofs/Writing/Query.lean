import Stylesheet.Proofs.Writing.Property
import Stylesheet.Proofs.Writing.Selector
import Stylesheet.Writing.Query

/-! Conditions are written as their texts. -/
namespace Stylesheet
open Writer

/-! ### Features -/

instance : WritesText Ratio := ⟨fun r => (appends r.numerator).seq <| .cons (appends r.denominator)⟩

instance : WritesText RangeValue where
  appends
    | .length l => appends l
    | .ratio r => appends r
    | .resolution r => appends r

/-- The words of a range, written with the spaces between them. -/
theorem RangeTest.appends_inner (t : RangeTest) : t.writeInner.Appends (joined [' '] t.words) := by
  cases t with
  | compare feature comparison value =>
    exact .assoc <| (appends feature).seq <| .cons <| .assoc <| (appends comparison).seq <|
      .cons (appends value)
  | interval lower fromLower feature toUpper upper =>
    exact .assoc <| (appends lower).seq <| .cons <| .assoc <| (appends fromLower).seq <| .cons <|
      .assoc <| (appends feature).seq <| .cons <| .assoc <| (appends toUpper).seq <|
        .cons (appends upper)

instance : WritesText RangeTest := ⟨fun t => .cons (t.appends_inner.seq .char)⟩

section Named
variable {α : Type} [ToCss α] [Writes α] [WritesText α]

/-- A feature is tested for by its name alone, or with a value behind a colon. -/
theorem appends_feature (name : List Char) (value : Option α) :
    (writeFeature name (value.map write)).Appends (css (⟨name, value.map css⟩ : NamedTest)) := by
  cases value with
  | none => exact .assoc <| .cons <| .seq .text <| .seq .done .char
  | some a => exact .assoc <| .cons <| .seq .text <| .seq (.seq .word (appends a)) .char

/-- The bound is part of the name that is written. -/
theorem appends_bounded {bound : Bound} {name : String} {value : α} :
    (bound.writeFeature name value).Appends (css (NamedTest.bounded bound name value)) :=
  appends_feature _ (some value)

end Named

instance : WritesText ContainerFeature where
  appends
    | .width .. => appends_bounded
    | .height .. => appends_bounded
    | .inlineSize .. => appends_bounded
    | .blockSize .. => appends_bounded
    | .aspectRatio _ => appends_bounded
    | .orientation _ => appends_bounded
    | .range test => appends test

instance : WritesText MediaFeature where
  appends
    | .width .. => appends_bounded
    | .height .. => appends_bounded
    | .aspectRatio .. => appends_bounded
    | .resolution .. => appends_bounded
    | .orientation _ => appends_bounded
    | .color bits => appends_feature _ bits
    | .minColor _ => appends_bounded
    | .monochrome bits => appends_feature _ bits
    | .hover _ => appends_bounded
    | .anyHover _ => appends_bounded
    | .pointer _ => appends_bounded
    | .anyPointer _ => appends_bounded
    | .prefersColorScheme _ => appends_bounded
    | .prefersReducedMotion _ => appends_bounded
    | .prefersReducedTransparency _ => appends_bounded
    | .prefersReducedData _ => appends_bounded
    | .prefersContrast _ => appends_bounded
    | .forcedColors _ => appends_bounded
    | .displayMode _ => appends_bounded
    | .range test => appends test

/-! ### Media -/

/-- The kind of device, and what is between it and the features if there are any. -/
theorem MediaQuery.appends_terms (type : Option MediaType) (features : List MediaFeature) :
    Appends
      (do
        type.forM fun type => do
          write type
          writeIf (!features.isEmpty) (writeWord " and ")
        writeSeparated " and " features)
      (joined " and ".toList ((type.map css).toList ++ features.map css)) := by
  cases type with
  | none => exact .seq .done appends_separated
  | some type =>
    cases features with
    | nil =>
      refine .congr (.seq ((appends type).seq .done) appends_separated) ?_
      simp only [List.append_nil]
      exact List.append_nil _
    | cons f fs => exact .seq ((appends type).seq .word) appends_separated

instance : WritesText MediaQuery where
  appends q :=
    .seq (.forM fun modifier _ => (appends modifier).seq .char)
      (MediaQuery.appends_terms q.type q.features)

theorem Media.appends_list (m : Media) : m.writeList.Appends m.list := appends_commaSeparated

instance : WritesText Media := ⟨fun m => .seq .word m.appends_list⟩

/-! ### Conditions -/

namespace Condition
variable {Test : Type}

/-- A writer within an operator puts parentheses around the same conditions as the text. -/
theorem appends_enclosed (c : Condition Test) {w : Writer} {t : List Char} (hw : w.Appends t) :
    (c.writeEnclosed w).Appends (c.enclose t) := by
  cases c with
  | test => exact hw
  | _ => exact .cons (hw.seq .char)

/-- The writers of the terms, made by recursion beside those of conditions. -/
theorem termWriters_eq_map [Writes Test] (cs : List (Condition Test)) :
    termWriters cs = cs.map fun c => c.writeEnclosed c.write := by
  induction cs with
  | nil => rfl
  | cons c cs ih => exact congrArg (c.writeEnclosed c.write :: ·) ih

theorem termTexts_eq_map [ToCss Test] (cs : List (Condition Test)) :
    termTexts cs = cs.map fun c => c.enclose c.text := by
  induction cs with
  | nil => rfl
  | cons c cs ih => exact congrArg (c.enclose c.text :: ·) ih

variable [ToCss Test] [Writes Test]

/-- A chain of conditions with an operator between them. It is stated from the terms, which the
induction below has one at a time. -/
theorem appends_junction {operator separator : String} {cs : List (Condition Test)}
    (hsep : (writeOperator operator).Appends separator.toList)
    (hcs : ∀ c ∈ cs, (c.writeEnclosed c.write).Appends (c.enclose c.text)) :
    (writeBetween (writeOperator operator) (termWriters cs)).Appends
      (joined separator.toList (termTexts cs)) := by
  rw [termWriters_eq_map, termTexts_eq_map]
  exact .between hsep hcs

theorem appends_and : (writeOperator "and").Appends " and ".toList :=
  .congr (.cons (.seq .word .char)) rfl

theorem appends_or : (writeOperator "or").Appends " or ".toList :=
  .congr (.cons (.seq .word .char)) rfl

mutual

/-- **A condition is written as its text**, at any depth. -/
theorem appends_condition [WritesText Test] : ∀ c : Condition Test, c.write.Appends c.text
  | test t => appends t
  | not c => .seq .word (appends_enclosed c (appends_condition c))
  | and cs => appends_junction appends_and (appends_terms cs)
  | or cs => appends_junction appends_or (appends_terms cs)

theorem appends_terms [WritesText Test] : ∀ cs : List (Condition Test),
    ∀ c ∈ cs, (c.writeEnclosed c.write).Appends (c.enclose c.text)
  | [] => List.forall_mem_nil _
  | c :: cs =>
    List.forall_mem_cons.mpr ⟨appends_enclosed c (appends_condition c), appends_terms cs⟩

end

instance [WritesText Test] : WritesText (Condition Test) := ⟨appends_condition⟩

end Condition

/-! ### Support -/

instance : WritesText SupportsTest where
  appends
    | .declaration d => .call (appends d)
    | .selector s => .call (appends s)
    | .fontTech t => .call (appends t)
    | .fontFormat f => .call (appends f)

instance : WritesText Supports := ⟨fun s => .seq .word (appends s.condition)⟩

/-- The writer looks for a single declaration as the text does. -/
theorem Supports.appends_argument (s : Supports) : s.writeArgument.Appends s.argument := by
  unfold writeArgument argument
  cases s.condition.test? with
  | none => exact appends s.condition
  | some t =>
    cases t with
    | declaration d => exact appends d
    | _ => exact appends s.condition

/-! ### Containers -/

instance : WritesText ContainerTest where
  appends
    | .size feature => appends feature
    | .style d => .call (appends d)

instance : WritesText Container where
  appends c :=
    .assoc <| .seq .word <| .seq (.option fun name => (appends name).seq .char)
      (appends c.condition)

end Stylesheet
