import Stylesheet.Box.Border
import Stylesheet.Box.Extent
import Stylesheet.Box.Position
import Stylesheet.Motion.Easing
import Stylesheet.Proofs.Equality.Shape

/-! Equal boxes, positions and timings, and equal texts. -/
namespace Stylesheet
open Binary32

variable {α : Type} [ToCss α]

/-! ### A keyword or a value -/

instance {word : String} [HasNumbers α] : HasNumbers (OrKeyword word α) where
  numbers
    | .keyword => []
    | .value a => numbers a

/-- A keyword beside values that are never written like it. -/
theorem faithful_orKeyword {word : String} [BEq α] [HasNumbers α] [Faithful α]
    (hword : ∀ a : α, css a ≠ word.toList) : Faithful (OrKeyword word α) where
  css_eq {a b} h := by
    cases a with
    | keyword =>
      cases b with
      | keyword => rfl
      | value => exact nomatch h
    | value a =>
      cases b with
      | keyword => exact nomatch h
      | value b => exact Faithful.css_eq (a := a) (b := b) h
  beq {a b} ha hb h := by
    cases a with
    | keyword =>
      cases b with
      | keyword => rfl
      | value b => exact absurd h.symm (hword b)
    | value a =>
      cases b with
      | keyword => exact absurd h (hword a)
      | value b => exact Faithful.beq (a := a) (b := b) ha hb h

instance [BEq α] [HasNumbers α] [Faithful α] [Quantity α] : Faithful (OrAuto α) :=
  faithful_orKeyword fun a => quantity_ne a rfl

/-! ### Boxes -/

instance : HasNumbers LineWidth where
  numbers
    | .length value => numbers value
    | _ => []

instance : Shaped LineWidth where
  shape
    | .thin => .word "thin".toList
    | .medium => .word "medium".toList
    | .thick => .word "thick".toList
    | .length value => .quantity (css value)
  text_shape w := by cases w <;> rfl
  valid
    | .length value => .quantity (Quantity.isQuantity_css value)
    | .thin => .word (by decide) rfl
    | .medium => .word (by decide) rfl
    | .thick => .word (by decide) rfl

instance : Faithful LineWidth where
  css_eq {a b} h := by
    cases a <;> cases b
    case length.length a b => exact Faithful.css_eq (a := a) (b := b) h
    all_goals first | exact absurd h Bool.false_ne_true | rfl
  beq {a b} ha hb h := by
    have hshape := shape_inj h
    cases a <;> cases b
    case length.length a b =>
      exact Faithful.beq (a := a) (b := b) ha hb (TextShape.quantity.inj hshape)
    all_goals first | rfl | exact absurd hshape (by decide) | exact absurd hshape nofun

instance : HasNumbers Extent where
  numbers
    | .size value => numbers value
    | .fitContentUpTo limit => numbers limit
    | _ => []

instance : Shaped Extent where
  shape
    | .size value => .quantity (css value)
    | .minContent => .word "min-content".toList
    | .maxContent => .word "max-content".toList
    | .fitContent => .word "fit-content".toList
    | .fitContentUpTo limit => .called "fit-content" (css limit)
  text_shape e := by cases e <;> rfl
  valid
    | .size value => .quantity (Quantity.isQuantity_css value)
    | .minContent => .word (by decide) rfl
    | .maxContent => .word (by decide) rfl
    | .fitContent => .word (by decide) rfl
    | .fitContentUpTo _ => .called (by decide) fun _ => rfl

instance : Faithful Extent where
  css_eq {a b} h := by
    cases a <;> cases b
    case size.size a b => exact Faithful.css_eq (a := a) (b := b) h
    case fitContentUpTo.fitContentUpTo a b =>
      exact congrArg (call "fit-content") (Faithful.css_eq (a := a) (b := b) h)
    all_goals first | exact absurd h Bool.false_ne_true | rfl
  beq {a b} ha hb h := by
    have hshape := shape_inj h
    cases a <;> cases b
    case size.size a b =>
      exact Faithful.beq (a := a) (b := b) ha hb (TextShape.quantity.inj hshape)
    case fitContentUpTo.fitContentUpTo a b =>
      exact Faithful.beq (a := a) (b := b) ha hb (TextShape.called.inj hshape).2
    all_goals first | rfl | exact absurd hshape (by decide) | exact absurd hshape nofun

/-- A word that no extent is written with. -/
theorem Extent.css_ne {w : List Char} (hw : (TextShape.word w).Valid)
    (h : ∀ e : Extent, shape e ≠ .word w) (e : Extent) : css e ≠ w := by
  intro heq
  exact h e ((Shaped.valid e).text_inj hw ((Shaped.text_shape e).trans heq))

instance : Faithful Size := by
  refine faithful_orKeyword (Extent.css_ne (.word (by decide) rfl) fun e => ?_)
  cases e <;> first | decide | exact nofun

instance : Faithful MaxSize := by
  refine faithful_orKeyword (Extent.css_ne (.word (by decide) rfl) fun e => ?_)
  cases e <;> first | decide | exact nofun

/-! ### Positions -/

instance : LawfulKeyword HorizontalKeyword := ⟨by intro k; cases k <;> rfl⟩

instance : LawfulKeyword VerticalKeyword := ⟨by intro k; cases k <;> rfl⟩

instance : LawfulKeyword HorizontalSide := ⟨by intro s; cases s <;> rfl⟩

instance : LawfulKeyword VerticalSide := ⟨by intro s; cases s <;> rfl⟩

instance : Argument HorizontalKeyword where
  isArgument k := by cases k <;> exact .of_isNameChar (all_toList rfl)

instance : Argument VerticalKeyword where
  isArgument k := by cases k <;> exact .of_isNameChar (all_toList rfl)

instance : Argument HorizontalSide where
  isArgument s := by cases s <;> exact .of_isNameChar (all_toList rfl)

instance : Argument VerticalSide where
  isArgument s := by cases s <;> exact .of_isNameChar (all_toList rfl)

namespace Position

/-- The parts of a position, with the first and the others. -/
def words : Position → NonEmpty (List Char)
  | keywords x y => ⟨css x, [css y]⟩
  | values x y => ⟨css x, [css y]⟩
  | offsets xSide x ySide y => ⟨css xSide, [css x, css ySide, css y]⟩

/-- The text of a position is its words with spaces between them. -/
theorem css_eq_joined (p : Position) : css p = joined [' '] p.words.toList := by
  cases p with
  | keywords x y => exact (List.append_assoc (css x) [' '] (css y)).symm
  | values x y => exact (List.append_assoc (css x) [' '] (css y)).symm
  | offsets xSide x ySide y =>
    rw [NonEmpty.toList, joined_cons]
    show css xSide ++ ' ' :: css x ++ ' ' :: css ySide ++ ' ' :: css y = _
    simp [words]

/-- Each word of a position ends at the next space. -/
theorem isArgument_words (p : Position) : ∀ w ∈ p.words.toList, IsArgument w := by
  cases p with
  | keywords x y =>
    simp only [NonEmpty.toList, words, List.forall_mem_cons]
    exact ⟨isArgument x, isArgument y, List.forall_mem_nil _⟩
  | values x y =>
    simp only [NonEmpty.toList, words, List.forall_mem_cons]
    exact ⟨isArgument x, isArgument y, List.forall_mem_nil _⟩
  | offsets xSide x ySide y =>
    simp only [NonEmpty.toList, words, List.forall_mem_cons]
    exact ⟨isArgument xSide, isArgument x, isArgument ySide, isArgument y, List.forall_mem_nil _⟩

/-- Positions with one text have the same words. -/
theorem words_inj {a b : Position} (h : css a = css b) : a.words.toList = b.words.toList := by
  rw [css_eq_joined, css_eq_joined] at h
  exact joined_inj rfl a.isArgument_words b.isArgument_words h

/-- Equal positions have the same words. -/
theorem words_congr {a b : Position} (h : a == b) : a.words = b.words := by
  cases a with
  | keywords x y =>
    cases b with
    | keywords x' y' =>
      obtain ⟨hx, hy⟩ := Bool.and_eq_true_iff.mp h
      rw [eq_of_beq hx, eq_of_beq hy]
    | _ => exact nomatch h
  | values x y =>
    cases b with
    | values x' y' =>
      obtain ⟨hx, hy⟩ := Bool.and_eq_true_iff.mp h
      rw [words, words, Faithful.css_eq hx, Faithful.css_eq hy]
    | _ => exact nomatch h
  | offsets xSide x ySide y =>
    cases b with
    | offsets xSide' x' ySide' y' =>
      obtain ⟨hxSide, hrest⟩ := Bool.and_eq_true_iff.mp h
      obtain ⟨hx, hrest⟩ := Bool.and_eq_true_iff.mp hrest
      obtain ⟨hySide, hy⟩ := Bool.and_eq_true_iff.mp hrest
      rw [words, words, eq_of_beq hxSide, eq_of_beq hySide, Faithful.css_eq hx, Faithful.css_eq hy]
    | _ => exact nomatch h

end Position

instance : HasNumbers Position where
  numbers
    | .keywords .. => []
    | .values x y => numbers x ++ numbers y
    | .offsets _ x _ y => numbers x ++ numbers y

/-- A keyword is not taken for a quantity. -/
theorem not_isQuantity_horizontal (k : HorizontalKeyword) : isQuantity (css k) = false := by
  cases k <;> rfl

instance : Faithful Position where
  css_eq h := by
    rw [Position.css_eq_joined, Position.css_eq_joined, Position.words_congr h]
  beq {a b} ha hb h := by
    have hwords := Position.words_inj h
    cases a with
    | keywords x y =>
      cases b with
      | keywords x' y' =>
        obtain ⟨hx, hrest⟩ := List.cons.inj hwords
        have hy := (List.cons.inj hrest).1
        rw [keyword_inj hx, keyword_inj hy]
        exact Bool.and_eq_true_iff.mpr ⟨beq_self_eq_true x', beq_self_eq_true y'⟩
      | values x' =>
        exact absurd (List.cons.inj hwords).1.symm (quantity_ne x' (not_isQuantity_horizontal x))
      | offsets => exact absurd (congrArg List.length hwords) (show 2 ≠ 4 by decide)
    | values x y =>
      obtain ⟨hax, hay⟩ := List.forall_mem_append.mp ha
      cases b with
      | keywords x' y' =>
        exact absurd (List.cons.inj hwords).1 (quantity_ne x (not_isQuantity_horizontal x'))
      | values x' y' =>
        obtain ⟨hbx, hby⟩ := List.forall_mem_append.mp hb
        obtain ⟨hx, hrest⟩ := List.cons.inj hwords
        have hy := (List.cons.inj hrest).1
        exact Bool.and_eq_true_iff.mpr ⟨Faithful.beq hax hbx hx, Faithful.beq hay hby hy⟩
      | offsets => exact absurd (congrArg List.length hwords) (show 2 ≠ 4 by decide)
    | offsets xSide x ySide y =>
      obtain ⟨hax, hay⟩ := List.forall_mem_append.mp ha
      cases b with
      | offsets xSide' x' ySide' y' =>
        obtain ⟨hbx, hby⟩ := List.forall_mem_append.mp hb
        obtain ⟨hxSide, hrest⟩ := List.cons.inj hwords
        obtain ⟨hx, hrest⟩ := List.cons.inj hrest
        obtain ⟨hySide, hrest⟩ := List.cons.inj hrest
        have hy := (List.cons.inj hrest).1
        rw [keyword_inj hxSide, keyword_inj hySide]
        show (xSide' == xSide' && (x == x' && (ySide' == ySide' && y == y'))) = true
        simp only [beq_self_eq_true, Faithful.beq hax hbx hx, Faithful.beq hay hby hy,
          Bool.and_self]
      | _ => exact absurd (congrArg List.length hwords) (show 4 ≠ 2 by decide)

/-! ### Timings -/

instance : HasNumbers CubicBezier := ⟨fun c => [c.x₁.value, c.y₁, c.x₂.value, c.y₂]⟩

instance : Faithful CubicBezier where
  css_eq {c d} h := by
    obtain ⟨hx₁, hrest⟩ := Bool.and_eq_true_iff.mp h
    obtain ⟨hy₁, hrest⟩ := Bool.and_eq_true_iff.mp hrest
    obtain ⟨hx₂, hy₂⟩ := Bool.and_eq_true_iff.mp hrest
    have hall : [css c.x₁, css c.y₁, css c.x₂, css c.y₂] =
        [css d.x₁, css d.y₁, css d.x₂, css d.y₂] := by
      rw [Faithful.css_eq hx₁, Faithful.css_eq hy₁, Faithful.css_eq hx₂, Faithful.css_eq hy₂]
    exact congrArg (fun ts => call "cubic-bezier" (joined ", ".toList ts)) hall
  beq {c d} hc hd h := by
    have hall := commaSeparated_inj (call_cancel h)
    simp only [List.map_cons, List.cons.injEq] at hall
    obtain ⟨hx₁, hy₁, hx₂, hy₂, -⟩ := hall
    simp only [NaNFree, numbers, List.forall_mem_cons] at hc hd
    obtain ⟨hcx₁, hcy₁, hcx₂, hcy₂, -⟩ := hc
    obtain ⟨hdx₁, hdy₁, hdx₂, hdy₂, -⟩ := hd
    refine Bool.and_eq_true_iff.mpr ⟨eq_of_css hcx₁ hdx₁ hx₁, ?_⟩
    refine Bool.and_eq_true_iff.mpr ⟨eq_of_css hcy₁ hdy₁ hy₁, ?_⟩
    exact Bool.and_eq_true_iff.mpr ⟨eq_of_css hcx₂ hdx₂ hx₂, eq_of_css hcy₂ hdy₂ hy₂⟩

instance : HasNumbers Steps := ⟨fun _ => []⟩

instance : LawfulKeyword StepPosition := ⟨by intro p; cases p <;> rfl⟩

instance : Faithful Steps where
  css_eq {a b} h := by
    rw [eq_of_beq h]
  beq {a b} _ _ h := by
    obtain ⟨count, position, hleast⟩ := a
    obtain ⟨count', position', hleast'⟩ := b
    obtain ⟨hcount, hposition⟩ := (isArgument count).append_inj (isArgument count')
      (ends_clause position) (ends_clause position') (call_cancel h)
    obtain rfl := decimalDigits_inj hcount
    have hne : [',', ' '] ≠ [] := nofun
    obtain rfl := Option.map_injective (fun _ _ => keyword_inj) (clause_inj hne hposition)
    exact beq_self_eq_true _

instance : HasNumbers Easing where
  numbers
    | .cubicBezier curve => numbers curve
    | _ => []

instance : Shaped Easing where
  shape
    | .linear => .word "linear".toList
    | .ease => .word "ease".toList
    | .easeIn => .word "ease-in".toList
    | .easeOut => .word "ease-out".toList
    | .easeInOut => .word "ease-in-out".toList
    | .stepStart => .word "step-start".toList
    | .stepEnd => .word "step-end".toList
    | .cubicBezier c =>
      .called "cubic-bezier" (commaSeparated [c.x₁.value, c.y₁, c.x₂.value, c.y₂])
    | .steps s => .called "steps" (css s.count ++ clause ", " s.position)
  text_shape e := by cases e <;> rfl
  valid
    | .linear => .word (by decide) rfl
    | .ease => .word (by decide) rfl
    | .easeIn => .word (by decide) rfl
    | .easeOut => .word (by decide) rfl
    | .easeInOut => .word (by decide) rfl
    | .stepStart => .word (by decide) rfl
    | .stepEnd => .word (by decide) rfl
    | .cubicBezier _ => .called (by decide) fun _ => rfl
    | .steps _ => .called (by decide) fun _ => rfl

instance : Faithful Easing where
  css_eq {a b} h := by
    cases a <;> cases b
    case cubicBezier.cubicBezier c d => exact Faithful.css_eq (a := c) (b := d) h
    case steps.steps s t => exact Faithful.css_eq (a := s) (b := t) h
    all_goals first | exact absurd h Bool.false_ne_true | rfl
  beq {a b} ha hb h := by
    have hshape := shape_inj h
    cases a <;> cases b
    case cubicBezier.cubicBezier c d => exact Faithful.beq (a := c) (b := d) ha hb h
    case steps.steps s t => exact Faithful.beq (a := s) (b := t) nofun nofun h
    case cubicBezier.steps => exact absurd (TextShape.called.inj hshape).1 (by decide)
    case steps.cubicBezier => exact absurd (TextShape.called.inj hshape).1 (by decide)
    all_goals first | rfl | exact absurd hshape (by decide) | exact absurd hshape nofun

end Stylesheet
