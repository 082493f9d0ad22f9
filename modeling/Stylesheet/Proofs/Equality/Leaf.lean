import Stylesheet.Proofs.Equality.Color
import Stylesheet.Proofs.Equality.Value

/-! What is compared as a value is compared as a text.

Sides of a rectangle are left out, and keyframes replaced, when values are equal; style
sheets compare texts. For the values at the leaves it is the same. -/
namespace Stylesheet

/-- A type whose values are compared, have a text, and hold numbers. -/
structure ComparedType where
  Value : Type
  [toCss : ToCss Value]
  [beq : BEq Value]
  [hasNumbers : HasNumbers Value]

attribute [instance] ComparedType.toCss ComparedType.beq ComparedType.hasNumbers

/-- The types that are compared by `==` as values. -/
def comparedTypes : List ComparedType := [
  ⟨Binary32⟩, ⟨Length⟩, ⟨Angle⟩, ⟨Time⟩, ⟨Resolution⟩, ⟨Percentage⟩, ⟨LengthPercentage⟩,
  ⟨LengthPercentageOrAuto⟩, ⟨LineWidth⟩, ⟨Size⟩, ⟨MaxSize⟩, ⟨Color⟩, ⟨Easing⟩, ⟨Position⟩]

/-- Instance search finds for each type why equality of values is equality of texts. -/
theorem faithful_compared : ∀ T ∈ comparedTypes, Faithful T.Value := by
  simp only [comparedTypes, List.forall_mem_cons]
  repeat' apply And.intro
  all_goals first | infer_instance | exact List.forall_mem_nil _

/-- **Values are equal exactly when they are written alike**, zeros of both signs being
equal. A value with NaN is equal to none, but never are equal values written differently. -/
theorem ComparedType.beq_iff_css_eq {T : ComparedType} (hT : T ∈ comparedTypes) (a b : T.Value) :
    (a == b → css a = css b) ∧ (NaNFree a → NaNFree b → (a == b ↔ css a = css b)) := by
  have hfaithful := faithful_compared T hT
  exact ⟨Faithful.css_eq, fun ha hb => ⟨Faithful.css_eq, Faithful.beq ha hb⟩⟩

/-- Hues of nought with either sign. -/
theorem ComparedType.beq_iff_css_eq_hue :
    ∃ T ∈ comparedTypes, ∃ a b : T.Value, NaNFree a ∧ NaNFree b ∧ a == b ∧
      css a = "hsl(0, 0%, 100%)".toList ∧ css b = "hsl(0, 0%, 100%)".toList := by
  let white (hue : Binary32) : Color := .ofHsl hue 0 100 none
  have hT : (⟨Color⟩ : ComparedType) ∈ comparedTypes := by simp [comparedTypes]
  have hzero : NaNFree (white 0) := by decide
  have hnegative : NaNFree (white ⟨0x80000000⟩) := by decide
  have htext : css (white 0) = "hsl(0, 0%, 100%)".toList := by decide
  have hiff := (beq_iff_css_eq hT (white 0) (white ⟨0x80000000⟩)).2 hzero hnegative
  have hsame : css (white 0) = css (white ⟨0x80000000⟩) := by decide
  exact ⟨⟨Color⟩, hT, white 0, white ⟨0x80000000⟩, hzero, hnegative, hiff.mpr hsame, htext,
    hsame ▸ htext⟩

end Stylesheet
