import Stylesheet.Box.Sides
import Stylesheet.Proofs.Equality.Leaf
import Stylesheet.Proofs.Property.Wide
import Stylesheet.Proofs.Reading.Cut

/-! The shortest form of four sides.

A form has one to four parts, and what each side gets from it is a rule of its own. The
sides left out are those that would get the same anyway, so that the form gives each side
its text; and no shorter form does, because sides with the same text are equal. -/
namespace Stylesheet
open Sides

/-! ### Sides as arguments -/

section
variable {α : Type} [ToCss α] [Argument α]

/-- A keyword of characters of names ends where a space begins. -/
theorem argument_orKeyword {word : List Char} (h : word.all isNameChar) :
    Argument (OrKeyword (String.ofList word) α) where
  isArgument
    | .keyword => .of_isNameChar (all_toList h)
    | .value a => isArgument a

instance : Argument (OrAuto α) := argument_orKeyword rfl

instance [Signed α] : Argument (NonNegative α) := ⟨fun a => isArgument a.value⟩

end

instance : Argument LineStyle where
  isArgument s := by cases s <;> exact .of_isNameChar (all_toList rfl)

instance : Argument LineWidth where
  isArgument
    | .thin => .of_isNameChar (all_toList rfl)
    | .medium => .of_isNameChar (all_toList rfl)
    | .thick => .of_isNameChar (all_toList rfl)
    | .length value => isArgument value

namespace Color

theorem isArgument_of_isAlpha {t : List Char} (h : t.all Char.isAlpha) : IsArgument t := by
  refine .of_isNameChar (List.all_eq_true.mpr fun c hc => ?_)
  simp [isNameChar, Char.isAlphanum, List.all_eq_true.mp h c hc]

theorem isArgument_hexText (channels : List UInt8) : IsArgument (hexText channels) := by
  have hdigits : ((nibbles channels).map fun n => Nat.digitChar n.toNat).all isNameChar := by
    rw [List.all_map]
    exact List.all_eq_true.mpr fun n hn =>
      isNameChar_of_isHexDigit (isHexDigit_digitChar (lt_of_mem_nibbles hn))
  rw [hexText_eq]
  exact .plain rfl (fun _ => rfl) (IsArgument.of_isNameChar hdigits)

theorem isArgument_hslText (c : Hsl) : IsArgument (hslText c) := by
  unfold hslText
  split
  · exact .call rfl (nested_hslArguments c)
  · exact .call rfl (nested_hslArguments c)

instance : Argument Color where
  isArgument
    | currentColor => .of_isNameChar (all_toList rfl)
    | transparent => .of_isNameChar (all_toList rfl)
    | named name => isArgument_of_isAlpha (all_isAlpha_named name)
    | system name => isArgument_of_isAlpha (all_isAlpha_system name)
    | hex r g b a => isArgument_hexText ([r, g, b] ++ a.toList)
    | rgb r g b => .call rfl (nested_channels r g b)
    | rgba r g b alpha => .call rfl (((nested_channels r g b).append .word).append (nested alpha))
    | hsl c => isArgument_hslText c
    | hwb c => .call rfl (nested_hwbArguments c)

end Color

/-! ### Line styles -/

instance : LawfulKeyword LineStyle := ⟨by intro s; cases s <;> rfl⟩

instance : HasNumbers LineStyle := ⟨fun _ => []⟩

instance : Faithful LineStyle where
  css_eq h := by rw [eq_of_beq h]
  beq {a b} _ _ h := by
    obtain rfl := keyword_inj h
    exact beq_self_eq_true a

/-! ### Forms -/

namespace Sides
variable {α β : Type} {s : Sides α} {f : α → β} {form : List α}

/-- What the sides get from a form. -/
def expand? : List α → Option (Sides α)
  | [top] => some ⟨top, top, top, top⟩
  | [top, right] => some ⟨top, right, top, right⟩
  | [top, right, bottom] => some ⟨top, right, bottom, right⟩
  | [top, right, bottom, left] => some ⟨top, right, bottom, left⟩
  | _ => none

/-- There are one to four parts. -/
theorem length_of_expand? (h : expand? form = some s) : 1 ≤ form.length ∧ form.length ≤ 4 := by
  unfold expand? at h
  split at h
  all_goals cases h
  all_goals simp

/-- What a form of few parts cannot tell apart. -/
structure Agrees (s : Sides α) (parts : Nat) : Prop where
  left_eq : parts < 4 → s.left = s.right
  bottom_eq : parts < 3 → s.bottom = s.top
  right_eq : parts < 2 → s.right = s.top

/-- What expands to four sides agrees where parts are left out. -/
theorem agrees_of_expand? (h : expand? form = some s) : s.Agrees form.length := by
  unfold expand? at h
  split at h
  all_goals cases h
  all_goals constructor <;> intro hlt <;> first | rfl | simp at hlt

/-- The sides that are written give each side what it has. -/
theorem expand?_shortest [BEq α] (hf : ∀ a b, a == b → f a = f b) (s : Sides α) :
    expand? (s.shortest.map f) = some (s.map f) := by
  unfold shortest
  split
  case isFalse => rfl
  case isTrue hleft =>
    split
    case isFalse => simp [expand?, map, hf _ _ hleft]
    case isTrue hbottom =>
      split
      case isFalse => simp [expand?, map, hf _ _ hleft, hf _ _ hbottom]
      case isTrue hright => simp [expand?, map, hf _ _ hleft, ← hf _ _ hbottom, ← hf _ _ hright]

/-- **Which parts are left out depends on equality alone.** -/
theorem shortest_map [BEq α] [BEq β] (hf : ∀ a b, (f a == f b) = (a == b)) (s : Sides α) :
    (s.map f).shortest = s.shortest.map f := by
  simp only [shortest, map, hf]
  repeat' split
  all_goals rfl

variable [ToCss α]

instance [HasNumbers α] : HasNumbers (Sides α) :=
  ⟨fun s => numbers s.top ++ numbers s.right ++ numbers s.bottom ++ numbers s.left⟩

/-- Only sides with different texts are written apart. -/
theorem length_shortest_le [BEq α] [HasNumbers α] [Faithful α] {form : List (List Char)}
    (hs : NaNFree s) (h : expand? form = some (s.map css)) : s.shortest.length ≤ form.length := by
  have hagrees := agrees_of_expand? h
  simp only [NaNFree, numbers, List.forall_mem_append] at hs
  obtain ⟨⟨⟨htop, hright⟩, hbottom⟩, hleft⟩ := hs
  unfold shortest
  split
  case isFalse hne =>
    exact Nat.le_of_not_lt fun hlt => hne (Faithful.beq hleft hright (hagrees.left_eq hlt))
  split
  case isFalse hne =>
    exact Nat.le_of_not_lt fun hlt => hne (Faithful.beq htop hbottom (hagrees.bottom_eq hlt).symm)
  split
  case isFalse hne =>
    exact Nat.le_of_not_lt fun hlt => hne (Faithful.beq htop hright (hagrees.right_eq hlt).symm)
  exact (length_of_expand? h).1

/-- The text comes apart into the sides that were written. -/
theorem cutAt_css [BEq α] [Argument α] (s : Sides α) :
    (cutAt ' ' (css s)).toList = s.shortest.map css := by
  have hargument : ∀ t ∈ s.shortest.map css, IsArgument t := by
    intro t ht
    obtain ⟨a, _, rfl⟩ := List.mem_map.mp ht
    exact isArgument a
  show (cutAt ' ' (joined " ".toList (s.shortest.map css))).toList = _
  obtain ⟨a, rest, hshortest⟩ := List.exists_cons_of_ne_nil s.shortest_ne_nil
  rw [hshortest, List.map_cons] at hargument ⊢
  exact cutAt_words hargument

end Sides

/-! ### What has four sides -/

/-- The values that sides are given. -/
def sideTypes : List ComparedType := [
  ⟨Length⟩, ⟨LengthPercentageOrAuto⟩, ⟨NonNegative LengthPercentage⟩, ⟨Color⟩, ⟨LineStyle⟩,
  ⟨LineWidth⟩]

theorem sideTypes_lawful : ∀ T ∈ sideTypes, Faithful T.Value ∧ Argument T.Value := by
  simp only [sideTypes, List.forall_mem_cons]
  repeat' apply And.intro
  all_goals first | infer_instance | exact List.forall_mem_nil _

/-- **Sides are written in the shortest form that gives each of them its text.** The text,
cut at the spaces outside of brackets, is a form, with NaN among the sides or not; without
NaN no form with fewer parts gives the sides their texts. Lengths and percentages have the
same text among values that could be `auto`. -/
theorem Sides.css_shortest :
    (∀ T ∈ sideTypes, ∀ s : Sides T.Value,
      let parts := (cutAt ' ' (css s)).toList
      (1 ≤ parts.length ∧ parts.length ≤ 4) ∧ expand? parts = some (s.map css) ∧
        (NaNFree s → ∀ form, expand? form = some (s.map css) → parts.length ≤ form.length)) ∧
    ∀ s : Sides LengthPercentage, css (s.map .value : Sides LengthPercentageOrAuto) = css s := by
  refine ⟨fun T hT s => ?_, fun s => ?_⟩
  · obtain ⟨hfaithful, hargument⟩ := sideTypes_lawful T hT
    have hexpand : expand? (s.shortest.map css) = some (s.map css) :=
      expand?_shortest (fun _ _ => Faithful.css_eq) s
    intro parts
    have hparts : parts = s.shortest.map css := cutAt_css s
    rw [hparts, List.length_map]
    refine ⟨?_, hexpand, fun hs form hform => length_shortest_le hs hform⟩
    have hlength := length_of_expand? hexpand
    rwa [List.length_map] at hlength
  · have hshortest :
        (s.map .value : Sides LengthPercentageOrAuto).shortest = s.shortest.map .value :=
      shortest_map (f := OrKeyword.value) (fun _ _ => rfl) s
    show joined _ ((s.map OrKeyword.value).shortest.map css) = joined _ (s.shortest.map css)
    rw [hshortest, List.map_map]
    rfl

/-- Borders in two colors with spaces in their texts, one of them with hues of nought with
either sign. -/
theorem Sides.css_shortest_colors :
    ∃ s : Sides Color, NaNFree s ∧ css s = "rgb(0, 0, 0) hsl(0, 0%, 100%)".toList ∧
      (cutAt ' ' (css s)).toList.length = 2 ∧
      ∀ form, expand? form = some (s.map css) → 2 ≤ form.length := by
  let white (hue : Binary32) : Color := .ofHsl hue 0 100 none
  let s : Sides Color := ⟨.rgb 0 0 0, white 0, .rgb 0 0 0, white ⟨0x80000000⟩⟩
  have hT : (⟨Color⟩ : ComparedType) ∈ sideTypes := by simp [sideTypes]
  obtain ⟨-, -, hleast⟩ := css_shortest.1 ⟨Color⟩ hT s
  have hnumbers : NaNFree s := by decide
  have htext : css s = "rgb(0, 0, 0) hsl(0, 0%, 100%)".toList := by decide
  have hlength : (cutAt ' ' (css s)).toList.length = 2 := by
    rw [htext]
    decide
  exact ⟨s, hnumbers, htext, hlength, fun form hform => hlength ▸ hleast hnumbers form hform⟩

end Stylesheet
