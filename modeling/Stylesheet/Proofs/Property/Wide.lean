import Stylesheet.Proofs.Nesting.Property
import Stylesheet.Proofs.Property.Own

/-! No value of a property is taken for a keyword of all properties.

Each property has such a keyword or a value of its own, and the text of a value of its own
is never read as one. -/
namespace Stylesheet

variable {α : Type} [ToCss α]

/-! ### Paint -/

instance : Owns NamedColor := ⟨fun c => by cases c <;> exact .word⟩

instance : Owns SystemColor := ⟨fun c => by cases c <;> exact .word⟩

/-- A color of digits begins with a number sign, which begins no identifier. -/
theorem own_hexText (channels : List UInt8) : OwnText (Color.hexText channels) := by
  unfold Color.hexText
  simp only
  split
  · exact .of_head (by decide)
  · exact .of_head (by decide)

instance : Owns Hsl where
  own c := by
    show OwnText (Color.hslText c)
    unfold Color.hslText
    split
    · exact .call
    · exact .call

instance : Owns Hwb := ⟨fun _ => .call⟩

instance : Owns Color where
  own
    | .currentColor => .word
    | .transparent => .word
    | .named name => own name
    | .system name => own name
    | .hex .. => own_hexText _
    | .rgb .. => .call
    | .rgba .. => .call
    | .hsl c => own c
    | .hwb c => own c

instance : Owns ColorStop := ⟨fun s => (own s.color).append (ends_clause s.position)⟩

instance : Owns GradientSide := ⟨fun s => by cases s <;> exact .word⟩

instance : Owns LinearGradient where
  own g := by
    show OwnText (call (if g.repeating then _ else _) _)
    split
    · exact .call
    · exact .call

instance : Owns Image where
  own
    | .none => .word
    | .url u => own u
    | .gradient g => own g

instance : Owns BackgroundSize where
  own
    | .cover => .word
    | .contain => .word
    | .explicit width height => (own width).append (ends_clause height)

instance : Owns TextShadow where
  own s :=
    (((own s.x).append (.cons (by decide))).append (ends_clause s.blur)).append
      (ends_clause s.color)

instance : Owns BoxShadow where
  own s := by
    have hlengths : OwnText (separated " " ([s.x, s.y] ++ s.extent)) := .separated nofun
    show OwnText ((if s.inset then "inset ".toList else []) ++ _ ++ clause " " s.color)
    split
    case isTrue =>
      rw [List.append_assoc]
      exact .lead
    case isFalse => exact hlengths.append (ends_clause s.color)

/-! ### Boxes -/

instance : Owns LineStyle := ⟨fun s => by cases s <;> exact .word⟩

instance : Owns LineWidth where
  own
    | .thin => .word
    | .medium => .word
    | .thick => .word
    | .length value => own value

instance : Owns BorderSide where
  own s := by
    show OwnText (if s.parts.isEmpty then css LineStyle.none else joined [' '] s.parts)
    split
    case isTrue => exact own LineStyle.none
    case isFalse h =>
      refine .joined (by decide) (by simpa using h) fun t ht => ?_
      simp only [BorderSide.parts, List.mem_append, Option.mem_toList, Option.map_eq_some_iff] at ht
      obtain (⟨width, _, rfl⟩ | ⟨style, _, rfl⟩) | ⟨color, _, rfl⟩ := ht
      · exact own width
      · exact own style
      · exact own color

instance : Owns Extent where
  own
    | .size value => own value
    | .minContent => .word
    | .maxContent => .word
    | .fitContent => .word
    | .fitContentUpTo _ => .call

instance : Owns FlexBasis := owns_orKeyword

instance : Owns HorizontalKeyword := ⟨fun k => by cases k <;> exact .word⟩

instance : Owns VerticalKeyword := ⟨fun k => by cases k <;> exact .word⟩

instance : Owns HorizontalSide := ⟨fun s => by cases s <;> exact .word⟩

instance : Owns VerticalSide := ⟨fun s => by cases s <;> exact .word⟩

instance : Owns Position where
  own
    | .keywords x _ => (own x).append (.cons (by decide))
    | .values x _ => (own x).append (.cons (by decide))
    | .offsets xSide .. => by
      show OwnText (css xSide ++ ' ' :: _ ++ ' ' :: _ ++ ' ' :: _)
      rw [List.append_assoc, List.append_assoc]
      exact (own xSide).append (.cons (by decide))

omit [ToCss α] in
/-- At least one side is written. -/
theorem Sides.shortest_ne_nil [BEq α] (s : Sides α) : s.shortest ≠ [] := by
  unfold shortest
  repeat' split
  all_goals exact nofun

instance [BEq α] [Owns α] : Owns (Sides α) := ⟨fun s => .separated s.shortest_ne_nil⟩

instance : Owns Gaps := ⟨fun g => (own g.row).append (ends_clause g.column)⟩

instance : Owns BorderSpacing := ⟨fun s => (own s.horizontal).append (ends_clause s.vertical)⟩

/-! ### Lines of text -/

/-- Lines that are not empty have a word. -/
theorem DecorationLines.words_ne_nil {d : DecorationLines} (h : d ≠ .empty) : d.words ≠ [] := by
  obtain ⟨underline, overline, lineThrough, blink⟩ := d
  cases underline <;> cases overline <;> cases lineThrough <;> cases blink <;>
    first | exact absurd rfl h | exact nofun

instance : Owns DecorationLines where
  own d := by
    show OwnText (if d = .empty then "none".toList else joined [' '] d.words)
    split
    case isTrue => exact .word
    case isFalse h =>
      refine .joined (by decide) (DecorationLines.words_ne_nil h) fun t ht => ?_
      have hwords : ∀ w ∈ ["underline", "overline", "line-through", "blink"],
          OwnText w.toList := by
        simp only [List.forall_mem_cons]
        exact ⟨.word, .word, .word, .word, nofun⟩
      obtain ⟨w, hw, rfl⟩ := DecorationLines.mem_words ht
      exact hwords w hw

instance : Owns VerticalAlignKeyword := ⟨fun k => by cases k <;> exact .word⟩

/-! ### Fonts -/

instance : Owns GenericFamily := ⟨fun f => by cases f <;> exact .word⟩

instance : Owns FamilyList := ⟨fun _ => .separated nofun⟩

instance : Owns AbsoluteFontSize := ⟨fun s => by cases s <;> exact .word⟩

instance : Owns RelativeFontSize := ⟨fun s => by cases s <;> exact .word⟩

instance : Owns FontSize where
  own
    | .absolute size => own size
    | .relative size => own size
    | .size value => own value
    | .math => .word

instance : Owns FontWeight where
  own
    | .normal => .word
    | .bold => .word
    | .bolder => .word
    | .lighter => .word
    | .number weight => own weight

instance : Owns FontStyle where
  own
    | .normal => .word
    | .italic => .word
    | .oblique angle => (OwnText.word).append (ends_clause angle)

instance : Owns FontWidth := ⟨fun w => by cases w <;> exact .word⟩

/-! ### Grids -/

instance : Owns GridLine where
  own
    | .auto => .word
    | .line i => own i.index
    | .named name => own name
    | .span _ => .lead

instance : Owns TrackBreadth where
  own
    | .size value => own value
    | .flex _ => .of_dimension ..
    | .minContent => .word
    | .maxContent => .word
    | .auto => .word

instance : Owns TrackSize where
  own
    | .breadth b => own b
    | .between .. => .call
    | .fitContent _ => .call

instance : Owns RepeatCount where
  own
    | .times n => own n
    | .autoFill => .word
    | .autoFit => .word

instance : Owns Repeat := ⟨fun _ => .call⟩

instance : Owns TrackItem where
  own
    | .track size => own size
    | .lineNames _ => .of_head (by decide)
    | .repeated tracks => own tracks

/-! ### Motion -/

instance : Owns StepPosition := ⟨fun p => by cases p <;> exact .word⟩

instance : Owns CubicBezier := ⟨fun _ => .call⟩

instance : Owns Steps := ⟨fun _ => .call⟩

instance : Owns Easing where
  own
    | .linear => .word
    | .ease => .word
    | .easeIn => .word
    | .easeOut => .word
    | .easeInOut => .word
    | .stepStart => .word
    | .stepEnd => .word
    | .cubicBezier c => own c
    | .steps s => own s

instance : Owns TransformFunction := ⟨fun f => by cases f <;> exact .call⟩

instance : Owns PropertyName := ⟨fun n => by cases n <;> exact .word⟩

instance : Owns TransitionTarget where
  own
    | .all => .word
    | .property name => own name
    | .custom name => own name

instance : Owns IterationCount := owns_orKeyword

/-! ### Any property -/

instance owns_grammar (name : PropertyName) : Owns name.grammar.Value := by
  cases name <;> first
    | infer_instance
    | exact owns_choice (by
        simp only [List.forall_mem_cons]
        repeat' apply And.intro
        all_goals first | exact .word | exact nofun)

/-- A keyword of all properties is read back as itself. -/
theorem readWide?_keyword (k : WideKeyword) : readWide? (css k) = some k := by
  have hspells : Spells isNameChar (css k) (css k) := by
    cases k <;> exact Spells.of_all (by decide)
  have hname := hspells.consumeName .nil
  rw [List.append_nil] at hname
  have hstart : startsIdentifier (css k) := by
    cases k <;> decide
  have hread : Reader.identToken.whole (css k) = some (css k) := by
    rw [Reader.whole, Reader.identToken, if_pos hstart, hname]
  rw [readWide?, hread]
  cases k <;> decide

/-- **A property's keyword for all properties is never confused with a value of its own**:
read as an identifier in any case of letters, the text of a value is that of such a keyword
exactly when the value is the keyword, and then it is spelled as the keyword is. Nor can an
author choose such a name. -/
theorem PropertyName.readWide?_css :
    (∀ (name : PropertyName) (v : name.Value) (k : WideKeyword),
      readWide? (css v) = some k ↔ v = .wide k) ∧
    (∀ (name : PropertyName) (k : WideKeyword),
      cssString (Specified.wide k : name.Value) = Keyword.keyword k) ∧
    ∀ i : CustomIdent, readWide? (css i) = none := by
  refine ⟨fun name v k => ?_, fun name k => String.ofList_toList, fun i => (own i).not_wide⟩
  cases v with
  | own a =>
    have hnone : readWide? (css (Specified.own a : name.Value)) = none := (own a).not_wide
    rw [hnone]
    exact ⟨nofun, nofun⟩
  | wide j =>
    have hread : readWide? (css (Specified.wide j : name.Value)) = some j := readWide?_keyword j
    rw [hread]
    constructor
    · rintro ⟨⟩
      rfl
    · rintro ⟨⟩
      rfl

end Stylesheet
