import Stylesheet.Proofs.Nesting.Value
import Stylesheet.Property.Basic

/-! The values of properties are nested.

Most values are single words or calls; those with parts have spaces between them, lists
have commas. -/
namespace Stylesheet

variable {α : Type} [ToCss α]

/-! ### Paint -/

instance : Nests wordChar NamedColor := ⟨fun c => by cases c <;> exact .word⟩

instance : Nests wordChar SystemColor := ⟨fun c => by cases c <;> exact .word⟩

/-- A number sign, and digits that are characters of names. -/
theorem nested_hexText (channels : List UInt8) : Nested wordChar (Color.hexText channels) := by
  have hdigit : ∀ n < 16, Nested wordChar [Nat.digitChar n] := fun n hn =>
    nested_nameChar (isNameChar_of_isHexDigit (isHexDigit_digitChar hn))
  have hlow : ∀ c : UInt8, (c % 16).toNat < 16 := by
    intro c
    rw [UInt8.toNat_mod]
    exact Nat.mod_lt _ (by decide)
  have hhigh : ∀ c : UInt8, (c / 16).toNat < 16 := by
    intro c
    have := c.toNat_lt
    rw [UInt8.toNat_div]
    exact Nat.div_lt_of_lt_mul this
  unfold Color.hexText
  simp only
  split
  · rw [List.map_eq_flatMap]
    exact .cons (.flatMap fun c _ => hdigit _ (hlow c))
  · exact .cons (.flatMap fun c _ => (hdigit _ (hhigh c)).append (hdigit _ (hlow c)))

/-- The three channels of a color without an alpha. -/
theorem nested_channels (r g b : UInt8) : Nested anyChar (Color.channels r g b) :=
  nested_separated [r.toNat, g.toNat, b.toNat]

/-- Arguments with commas, and the alpha behind another. -/
theorem nested_hslArguments (c : Hsl) : Nested anyChar (css c.hue ++ ", ".toList ++
    css c.saturation ++ ", ".toList ++ css c.lightness ++ clause ", " c.alpha) := by
  have hsep : Nested anyChar ", ".toList := .word
  exact (((((nested c.hue).append hsep).append (nested c.saturation)).append hsep).append
    (nested c.lightness)).append (nested_clause c.alpha)

theorem nested_hslText (c : Hsl) : Nested wordChar (Color.hslText c) := by
  unfold Color.hslText
  split
  · exact .call (nested_hslArguments c)
  · exact .call (nested_hslArguments c)

/-- Arguments with spaces, and the alpha behind a solidus. The solidus has a space on either
side, so that no comment begins. -/
theorem nested_hwbArguments (c : Hwb) : Nested anyChar (css c.hue ++ ' ' :: css c.whiteness ++
    ' ' :: css c.blackness ++ clause " / " c.alpha) := by
  have halpha : Nested anyChar (clause " / " c.alpha) := by
    cases c.alpha with
    | none => exact .nil
    | some alpha =>
      rw [clause, show " / ".toList = [' ', '/', ' '] from String.toList_ofList]
      exact .cons (.solidus rfl (by decide) (.cons (nested alpha)))
  exact (((nested c.hue).append (.cons
    (nested c.whiteness))).append (.cons (nested c.blackness))).append halpha

theorem nested_hwbText (c : Hwb) : Nested wordChar (Color.hwbText c) :=
  .call (nested_hwbArguments c)

instance : Nests wordChar Hsl := ⟨nested_hslText⟩

instance : Nests wordChar Hwb := ⟨nested_hwbText⟩

instance : Nests wordChar Color where
  nested
    | .currentColor => .word
    | .transparent => .word
    | .named name => nested name
    | .system name => nested name
    | .hex r g b a => nested_hexText ([r, g, b] ++ a.toList)
    | .rgb r g b => .call (nested_channels r g b)
    | .rgba r g b alpha =>
      .call (((nested_channels r g b).append .word).append (nested alpha))
    | .hsl c => nested c
    | .hwb c => nested c

instance : Nests phraseChar GradientSide := ⟨fun s => by cases s <;> exact .word⟩

instance : Nests phraseChar ColorStop :=
  ⟨fun s => (nested s.color).append (nested_clause s.position)⟩

instance : Nests wordChar LinearGradient where
  nested g := by
    have hitems : Nested anyChar
        (joined ", ".toList ((g.direction.map css).toList ++ g.stops.map css)) := by
      refine .joined .word fun t ht => ?_
      rcases List.mem_append.mp ht with ht | ht
      · obtain ⟨direction, _, rfl⟩ := Option.map_eq_some_iff.mp (Option.mem_toList.mp ht)
        exact nested direction
      · obtain ⟨stop, _, rfl⟩ := List.mem_map.mp ht
        exact nested stop
    show Nested wordChar (call (if g.repeating then _ else _) _)
    split
    · exact .call hitems
    · exact .call hitems

instance : Nests wordChar Image where
  nested
    | .none => .word
    | .url u => nested u
    | .gradient g => nested g

instance : Nests phraseChar BackgroundSize where
  nested
    | .cover => .word
    | .contain => .word
    | .explicit width height => (nested width).append (nested_clause height)

instance : Nests phraseChar TextShadow where
  nested s :=
    (((nested s.x).append (.cons (nested s.y))).append
      (nested_clause s.blur)).append (nested_clause s.color)

instance : Nests phraseChar BoxShadow where
  nested s := by
    have hinset : Nested phraseChar (if s.inset then "inset ".toList else []) := by
      split
      · exact .word
      · exact .nil
    exact (hinset.append (nested_separated ([s.x, s.y] ++ s.extent))).append
      (nested_clause s.color)

/-! ### Boxes -/

instance : Nests wordChar LineStyle := ⟨fun s => by cases s <;> exact .word⟩

instance : Nests wordChar LineWidth where
  nested
    | .thin => .word
    | .medium => .word
    | .thick => .word
    | .length value => nested value

instance : Nests phraseChar BorderSide where
  nested s := by
    show Nested phraseChar (if s.parts.isEmpty then css LineStyle.none else joined [' '] s.parts)
    split
    · exact nested LineStyle.none
    · refine .joined .of_all fun t ht => ?_
      simp only [BorderSide.parts, List.mem_append, Option.mem_toList, Option.map_eq_some_iff] at ht
      obtain (⟨width, _, rfl⟩ | ⟨style, _, rfl⟩) | ⟨color, _, rfl⟩ := ht
      · exact nested width
      · exact nested style
      · exact nested color

instance : Nests wordChar Extent where
  nested
    | .size value => nested value
    | .minContent => .word
    | .maxContent => .word
    | .fitContent => .word
    | .fitContentUpTo limit => .call (nested limit)

instance : Nests wordChar FlexBasis := nests_orKeyword

instance : Nests wordChar HorizontalKeyword := ⟨fun k => by cases k <;> exact .word⟩

instance : Nests wordChar VerticalKeyword := ⟨fun k => by cases k <;> exact .word⟩

instance : Nests wordChar HorizontalSide := ⟨fun s => by cases s <;> exact .word⟩

instance : Nests wordChar VerticalSide := ⟨fun s => by cases s <;> exact .word⟩

instance : Nests phraseChar Position where
  nested
    | .keywords x y => (nested x).append (.cons (nested y))
    | .values x y => (nested x).append (.cons (nested y))
    | .offsets xSide x ySide y =>
      (((nested xSide).append (.cons (nested x))).append (.cons
        (nested ySide))).append (.cons (nested y))

instance [BEq α] [Nests phraseChar α] : Nests phraseChar (Sides α) :=
  ⟨fun s => nested_separated s.shortest⟩

instance : Nests phraseChar Gaps :=
  ⟨fun g => (nested g.row).append (nested_clause g.column)⟩

instance : Nests phraseChar BorderSpacing :=
  ⟨fun s => (nested s.horizontal).append (nested_clause s.vertical)⟩

/-! ### Lines of text -/

/-- Each of the lines that are set is one of four words. -/
theorem DecorationLines.mem_words {d : DecorationLines} {t : List Char} (ht : t ∈ d.words) :
    ∃ w ∈ ["underline", "overline", "line-through", "blink"], t = w.toList := by
  simp only [words, List.mem_filterMap] at ht
  obtain ⟨⟨set, w⟩, hw, ht⟩ := ht
  refine ⟨w, ?_, ?_⟩
  · simp only [List.mem_cons, Prod.mk.injEq] at hw ⊢
    grind
  · simp only at ht
    split at ht
    · exact (Option.some.inj ht).symm
    · exact absurd ht (by simp)

instance : Nests phraseChar DecorationLines where
  nested d := by
    show Nested phraseChar (if d = .empty then "none".toList else joined [' '] d.words)
    split
    · exact .word
    · refine .joined .of_all fun t ht => ?_
      have hwords : ∀ w ∈ ["underline", "overline", "line-through", "blink"],
          Nested phraseChar w.toList := by
        simp only [List.forall_mem_cons]
        exact ⟨.word, .word, .word, .word, nofun⟩
      obtain ⟨w, hw, rfl⟩ := DecorationLines.mem_words ht
      exact hwords w hw

instance : Nests wordChar VerticalAlignKeyword := ⟨fun k => by cases k <;> exact .word⟩

/-! ### Fonts -/

instance : Nests wordChar GenericFamily := ⟨fun f => by cases f <;> exact .word⟩

instance : Nests listChar FamilyList :=
  ⟨fun l => nested_separated l.families.toList⟩

instance : Nests wordChar AbsoluteFontSize := ⟨fun s => by cases s <;> exact .word⟩

instance : Nests wordChar RelativeFontSize := ⟨fun s => by cases s <;> exact .word⟩

instance : Nests wordChar FontSize where
  nested
    | .absolute size => nested size
    | .relative size => nested size
    | .size value => nested value
    | .math => .word

instance : Nests wordChar FontWeight where
  nested
    | .normal => .word
    | .bold => .word
    | .bolder => .word
    | .lighter => .word
    | .number weight => nested weight

instance : Nests phraseChar FontStyle where
  nested
    | .normal => .word
    | .italic => .word
    | .oblique angle => (Nested.word).append (nested_clause angle)

instance : Nests wordChar FontWidth := ⟨fun w => by cases w <;> exact .word⟩

/-! ### Grids -/

instance : Nests phraseChar GridLine where
  nested
    | .auto => .word
    | .line i => nested i.index
    | .named name => nested name
    | .span n => (Nested.word).append (nested n.count)

instance : Nests wordChar TrackBreadth where
  nested
    | .size value => nested value
    | .flex _ => nested_dimensionText .word
    | .minContent => .word
    | .maxContent => .word
    | .auto => .word

instance : Nests wordChar TrackSize where
  nested
    | .breadth b => nested b
    | .between least most => .call (nested_separated [least, most])
    | .fitContent limit => .call (nested limit)

instance : Nests wordChar RepeatCount where
  nested
    | .times n => nested n
    | .autoFill => .word
    | .autoFit => .word

instance : Nests wordChar Repeat where
  nested r :=
    .call (((nested r.count).append .word).append
      (nested_separated r.tracks.toList))

instance : Nests wordChar TrackItem where
  nested
    | .track size => nested size
    | .lineNames names => .enclosed .square (nested_separated names)
    | .repeated tracks => nested tracks

/-! ### Motion -/

instance : Nests wordChar StepPosition := ⟨fun p => by cases p <;> exact .word⟩

instance : Nests wordChar CubicBezier :=
  ⟨fun c => .call (nested_separated [c.x₁.value, c.y₁, c.x₂.value, c.y₂])⟩

instance : Nests wordChar Steps :=
  ⟨fun s => .call ((nested s.count).append (nested_clause s.position))⟩

instance : Nests wordChar Easing where
  nested
    | .linear => .word
    | .ease => .word
    | .easeIn => .word
    | .easeOut => .word
    | .easeInOut => .word
    | .stepStart => .word
    | .stepEnd => .word
    | .cubicBezier c => nested c
    | .steps s => nested s

instance : Nests wordChar TransformFunction where
  nested
    | .translate x y =>
      .call ((nested x).append (nested_clause y))
    | .translateX x => .call (nested x)
    | .translateY y => .call (nested y)
    | .scale x y => .call ((nested x).append (nested_clause y))
    | .scaleX x => .call (nested x)
    | .scaleY y => .call (nested y)
    | .rotate angle => .call (nested angle)
    | .skew x y => .call ((nested x).append (nested_clause y))
    | .skewX x => .call (nested x)
    | .skewY y => .call (nested y)
    | .matrix a b c d e f =>
      .call (nested_separated [a, b, c, d, e, f])
    | .perspective distance => .call (nested distance)

instance : Nests wordChar PropertyName := ⟨fun n => by cases n <;> exact .word⟩

instance : Nests wordChar TransitionTarget where
  nested
    | .all => .word
    | .property name => nested name
    | .custom name => nested name

instance : Nests wordChar IterationCount := nests_orKeyword

/-! ### Any property -/

instance nests_grammar (name : PropertyName) : Nests listChar name.grammar.Value := by
  cases name <;> first
    | infer_instance
    | exact nests_choice (by
        simp only [List.forall_mem_cons]
        repeat' apply And.intro
        all_goals first | exact .word | exact nofun)

instance [Nests top α] [Nests top WideKeyword] : Nests top (Specified α) where
  nested
    | .own value => nested value
    | .wide keyword => nested keyword

/-- **The value of any property is nested**, whichever the property is, since every grammar has
values that nest. -/
theorem nested_property (p : Property) : Nested listChar (css p) := nested p.value

end Stylesheet
