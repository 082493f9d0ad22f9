import Stylesheet.Property.Grammar
import Stylesheet.Proofs.Equality.Value
import Stylesheet.Proofs.Functional.Transform
import Stylesheet.Proofs.Quantity.Sign

/-! What the properties of transformations are written with.

An origin is any position, so it has two words, or four where it is given by distances from
sides. A perspective is any length, so its text has a minus sign if it is below zero. -/
namespace Stylesheet

/-! ### Origins -/

namespace Position

/-- Distances from two sides that are named. -/
def IsOffsets : Position → Prop
  | offsets .. => True
  | _ => False

instance : DecidablePred IsOffsets
  | offsets .. => .isTrue trivial
  | keywords .. => .isFalse id
  | values .. => .isFalse id

/-- Offsets are written with four words and everything else with two. -/
theorem length_words (p : Position) : p.words.toList.length = if p.IsOffsets then 4 else 2 := by
  cases p <;> rfl

/-- The words are cut at the spaces. -/
theorem cutAt_css (p : Position) : (cutAt ' ' (css p)).toList = p.words.toList := by
  rw [css_eq_joined]
  exact cutAt_words p.isArgument_words

end Position

/-! ### Perspectives -/

/-- The argument of a word, if it is a call of the function. -/
def argumentOf? (name word : List Char) : Option (List Char) :=
  (readCall word).bind fun call => if call.1 = name then some call.2 else none

/-- The arguments of the calls of a function among the words of a text. -/
def argumentsOf (name t : List Char) : List (List Char) :=
  (cutAt ' ' t).toList.filterMap (argumentOf? name)

namespace TransformFunction

def perspective? : TransformFunction → Option Length
  | perspective distance => some distance
  | _ => none

/-- Only a perspective has the name of one. -/
theorem argumentOf?_css (f : TransformFunction) :
    argumentOf? "perspective".toList (css f) = f.perspective?.map css := by
  have hread : argumentOf? "perspective".toList (css f) =
      if css f.name = css TransformName.perspective then
        some (joined ", ".toList f.arguments.toList) else none := by
    rw [argumentOf?, css_eq_call, readCall_ofList (all_ne_round f.name.all_isNameChar)]
    rfl
  have hother (h : f.name ≠ .perspective) : argumentOf? "perspective".toList (css f) = none :=
    hread.trans (if_neg (mt keyword_inj h))
  cases f with
  | perspective distance => exact hread.trans (if_pos rfl)
  | _ => exact hother nofun

end TransformFunction

/-- The arguments of all the calls of one name, in order. -/
theorem argumentsOf_perspective (l : TransformList) :
    argumentsOf "perspective".toList (css l) =
      (l.items.filterMap TransformFunction.perspective?).map css := by
  by_cases h : l.items = []
  · have htext : css l = "none".toList := ListOrNone.css_eq_none_iff.mpr h
    rw [htext, h]
    rfl
  · rw [argumentsOf, ListOrNone.cutAt_css h, List.filterMap_map, List.map_filterMap]
    exact congrArg (List.filterMap · l.items) (funext TransformFunction.argumentOf?_css)

/-- **A minus is written exactly for lengths below zero.** -/
theorem minus_mem_length_iff (l : Length) : '-' ∈ css l ↔ l.value.BelowZero := by
  refine ⟨fun hminus => ?_, minus_mem_dimensionText⟩
  by_cases h : l.value.BelowZero
  · exact h
  · exact absurd hminus (ShowsSign.minus_not_mem (a := l) h)

/-! ### Both properties -/

/-- **When the properties of transformations keep to their grammar.** An origin is written
with two words, or with four if the position is given by distances from sides. What stands in
the brackets of the perspectives are their lengths, in order, and these have a minus sign if
they are below zero: no perspective has one exactly if none is below zero. -/
theorem transform_properties_written (p : Position) (l : TransformList) :
    let words := (cutAt ' ' (css (⟨.transformOrigin, .own p⟩ : Property))).toList
    let distances := l.items.filterMap TransformFunction.perspective?
    let arguments := argumentsOf "perspective".toList (css (⟨.transform, .own l⟩ : Property))
    (words = p.words.toList ∧ words.length = if p.IsOffsets then 4 else 2) ∧
    arguments = distances.map css ∧
    (∀ d ∈ distances, '-' ∈ css d ↔ d.value.BelowZero) ∧
    ((∀ t ∈ arguments, '-' ∉ t) ↔ ∀ d ∈ distances, ¬d.value.BelowZero) := by
  intro words distances arguments
  have hwords : words = p.words.toList := p.cutAt_css
  have harguments : arguments = distances.map css := argumentsOf_perspective l
  refine ⟨⟨hwords, hwords ▸ p.length_words⟩, harguments, fun d _ => minus_mem_length_iff d, ?_⟩
  rw [harguments, List.forall_mem_map]
  simp only [minus_mem_length_iff]

/-- An origin of four words, and a perspective with a minus sign. -/
theorem transform_properties_outside_grammar :
    (∃ p : Position, css (⟨.transformOrigin, .own p⟩ : Property) = "left 10px top 20px".toList ∧
      (cutAt ' ' (css (⟨.transformOrigin, .own p⟩ : Property))).toList.length ≠ 2) ∧
    ∃ l : TransformList, css (⟨.transform, .own l⟩ : Property) = "perspective(-1px)".toList ∧
      ¬∀ t ∈ argumentsOf "perspective".toList (css (⟨.transform, .own l⟩ : Property)),
        '-' ∉ t := by
  let minusOne : Binary32 := ⟨0xbf800000⟩
  let origin : Position := .offsets .left (.length (.px 10)) .top (.length (.px 20))
  refine ⟨⟨origin, by decide +kernel, by decide +kernel⟩, ⟨[.perspective (.px minusOne)]⟩,
    by decide +kernel, by decide +kernel⟩

end Stylesheet
