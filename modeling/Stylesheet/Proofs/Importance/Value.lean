import Stylesheet.Proofs.Importance.Quiet
import Stylesheet.Proofs.Nesting.Property

/-! The values of properties are quiet.

Words and numbers hold no exclamation mark at all; the author's names and strings may, and
have it behind a backslash or between quotes. -/
namespace Stylesheet

/-- Types all of whose values have quiet text. -/
class IsQuiet (α : Type) [ToCss α] : Prop where
  quiet (a : α) : Quiet (css a)

export IsQuiet (quiet)

variable {α β : Type} [ToCss α] [ToCss β]

/-! ### Putting texts together -/

/-- What introduces the part has no exclamation mark in it either. -/
theorem quiet_clause {lead : List Char} [IsQuiet α] (a : Option α)
    (hlead : lead.all isQuietChar := by decide) : Quiet (clause (String.ofList lead) a) := by
  cases a with
  | none => exact .nil
  | some a => exact (Quiet.word hlead).append (quiet a)

/-- Quiet items with a separator between them. -/
theorem quiet_separated {separator : List Char} [IsQuiet α] (items : List α)
    (hsep : separator.all isQuietChar := by decide) :
    Quiet (separated (String.ofList separator) items) := by
  refine .joined (.word hsep) fun t ht => ?_
  obtain ⟨a, _, rfl⟩ := List.mem_map.mp ht
  exact quiet a

instance [IsQuiet α] [IsQuiet β] : IsQuiet (α ⊕ β) where
  quiet
    | .inl a => quiet a
    | .inr b => quiet b

theorem isQuiet_orKeyword {word : List Char} [IsQuiet α]
    (hword : word.all isQuietChar := by decide) : IsQuiet (OrKeyword (String.ofList word) α) := by
  constructor
  intro a
  cases a with
  | keyword => exact .word hword
  | value a => exact quiet a

instance [IsQuiet α] : IsQuiet (OrAuto α) := isQuiet_orKeyword

instance [IsQuiet α] : IsQuiet (OrNone α) := isQuiet_orKeyword

instance [IsQuiet α] : IsQuiet (OrNormal α) := isQuiet_orKeyword

theorem isQuiet_listOrNone {separator : List Char} [IsQuiet α]
    (hsep : separator.all isQuietChar := by decide) :
    IsQuiet (ListOrNone (String.ofList separator) α) := by
  constructor
  rintro ⟨items⟩
  cases items with
  | nil => exact .word
  | cons a items => exact quiet_separated (a :: items) hsep

instance [IsQuiet α] : IsQuiet (ListOrNone " " α) := isQuiet_listOrNone

instance [IsQuiet α] : IsQuiet (ListOrNone ", " α) := isQuiet_listOrNone

/-- A choice of words, checked word by word. -/
theorem isQuiet_choice {words : List String} (h : ∀ w ∈ words, Quiet w.toList) :
    IsQuiet (Choice words) :=
  ⟨fun c => h c.word c.word_mem⟩

/-! ### Numbers -/

/-- Digits, signs and points are quiet. -/
theorem quiet_of_number {t : List Char} (h : ∀ c ∈ t, isNumberChar c) : Quiet t :=
  .of_forall fun c hc => isQuietChar_of (by decide) (h c hc)

theorem quiet_keyword (x : Binary32) : Quiet x.keyword := by
  unfold Binary32.keyword
  split
  · exact .word
  split
  · exact .word
  · exact .word

/-- A number without digits stands in `calc` with its unit. -/
theorem quiet_dimensionText {x : Binary32} {unit : List Char} (h : Quiet unit) :
    Quiet (dimensionText x unit) := by
  unfold dimensionText
  split
  · exact (quiet_of_number fun _ => isNumberChar_of_mem_digits).append h
  · exact .call (((quiet_keyword x).append .word).append h)

instance : IsQuiet Binary32 where
  quiet x := by
    show Quiet (numberText x)
    unfold numberText
    split
    · exact quiet_of_number fun _ => isNumberChar_of_mem_digits
    · exact .call (quiet_keyword x)

instance : IsQuiet Nat := ⟨fun _ => quiet_of_number fun _ => isNumberChar_of_mem_decimalDigits⟩

instance : IsQuiet Int where
  quiet i := by
    show Quiet (integerText i)
    unfold integerText
    split
    · exact .cons (quiet i.natAbs)
    · exact quiet i.natAbs

instance {r : Range} : IsQuiet (Clamped r) := ⟨fun x => quiet x.value⟩

instance : IsQuiet Percentage := ⟨fun _ => quiet_dimensionText .of_all⟩

instance : IsQuiet ClampedPercentage := ⟨fun p => quiet p.percentage⟩

instance {Unit : Type} [Keyword Unit] [IsQuiet Unit] : IsQuiet (Dimension Unit) :=
  ⟨fun d => quiet_dimensionText (quiet d.unit)⟩

instance : IsQuiet LengthUnit := ⟨fun u => by cases u <;> exact .word⟩

instance : IsQuiet AngleUnit := ⟨fun u => by cases u <;> exact .word⟩

instance : IsQuiet TimeUnit := ⟨fun u => by cases u <;> exact .word⟩

instance : IsQuiet ResolutionUnit := ⟨fun u => by cases u <;> exact .word⟩

instance : IsQuiet LengthPercentage where
  quiet
    | .length l => quiet l
    | .percentage p => quiet p

instance [Signed α] [IsQuiet α] : IsQuiet (NonNegative α) := ⟨fun a => quiet a.value⟩

/-! ### Names and strings -/

theorem quiet_of_hexDigits {t : List Char} (h : ∀ c ∈ t, isHexDigit c) : Quiet t :=
  .of_forall fun c hc => isQuietChar_of (by decide) (h c hc)

/-- The backslash protects the first digit, and the other digits are quiet without it. -/
theorem quiet_hexEscape (c : Char) : Quiet (hexEscape c) := by
  obtain ⟨d, ds, -, htext, -, hds⟩ := exists_hexDigits c
  rw [htext]
  exact .escape ((quiet_of_hexDigits hds).append .of_all)

/-- An exclamation mark in a name is escaped, as is everything that is no character of names. -/
theorem quiet_escapeNameChar (c : Char) : Quiet (escapeNameChar c) := by
  unfold escapeNameChar
  split
  · exact .of_all
  split
  · rename_i hname
    exact .char (isQuietChar_of (by decide) hname) .nil
  split
  · exact quiet_hexEscape c
  · exact .escape .nil

theorem quiet_escapeName (text : List Char) : Quiet (escapeName text) :=
  .flatMap fun c _ => quiet_escapeNameChar c

theorem quiet_escapeNameStart (text : List Char) : Quiet (escapeNameStart text) := by
  cases text with
  | nil => exact .nil
  | cons c rest =>
    simp only [escapeNameStart]
    split
    · exact (quiet_hexEscape c).append (quiet_escapeName rest)
    · exact (quiet_escapeNameChar c).append (quiet_escapeName rest)

/-- The cases of escaping are the dashes in front, and each is quiet. -/
theorem quiet_escapeIdentifier (text : List Char) : Quiet (escapeIdentifier text) := by
  unfold escapeIdentifier
  split
  · exact .cons (.cons (quiet_escapeName _))
  · exact .escape .nil
  · exact .cons (quiet_escapeNameStart _)
  · exact quiet_escapeNameStart _

/-- What is written between the quotes is the body of a string, whatever the text. -/
theorem stringBody_of_text (text : List Char) : StringBody (text.flatMap escapeStringChar) := by
  induction text with
  | nil => exact .nil
  | cons c text ih => exact (stringBody_escapeStringChar c).append ih

/-- A string may have exclamation marks in it, since they are between its quotes. -/
theorem quiet_quoteString (text : List Char) : Quiet (quoteString text) :=
  .string (stringBody_of_text text) .nil

instance : IsQuiet Identifier := ⟨fun i => quiet_escapeIdentifier i.name.toList⟩

instance : IsQuiet CustomIdent := ⟨fun i => quiet i.toIdentifier⟩

instance {words : List String} : IsQuiet (IdentExcept words) := ⟨fun i => quiet i.toCustomIdent⟩

instance : IsQuiet DashedIdent := ⟨fun i => quiet_escapeIdentifier i.name.toList⟩

instance : IsQuiet (NonEmpty CustomIdent) := ⟨fun names => quiet_separated names.toList⟩

instance : IsQuiet WideKeyword := ⟨fun k => by cases k <;> exact .word⟩

instance : IsQuiet CssString := ⟨fun s => quiet_quoteString s.text.toList⟩

instance : IsQuiet Url := ⟨fun u => .call (quiet_quoteString u.address.toList)⟩

/-! ### Paint -/

instance : IsQuiet NamedColor := ⟨fun c => by cases c <;> exact .word⟩

instance : IsQuiet SystemColor := ⟨fun c => by cases c <;> exact .word⟩

/-- The digits of a color. -/
theorem quiet_hexText (channels : List UInt8) : Quiet (Color.hexText channels) := by
  have hlow : ∀ c : UInt8, isHexDigit (c % 16).toNat.digitChar := by
    intro c
    refine isHexDigit_digitChar ?_
    rw [UInt8.toNat_mod]
    exact Nat.mod_lt _ (by decide)
  have hhigh : ∀ c : UInt8, isHexDigit (c / 16).toNat.digitChar := by
    intro c
    have := c.toNat_lt
    refine isHexDigit_digitChar ?_
    rw [UInt8.toNat_div]
    exact Nat.div_lt_of_lt_mul this
  unfold Color.hexText
  simp only
  split
  · exact .cons (quiet_of_hexDigits (List.forall_mem_map.mpr fun c _ => hlow c))
  · refine .cons (.flatMap fun c _ => quiet_of_hexDigits ?_)
    exact List.forall_mem_cons.mpr ⟨hhigh c, List.forall_mem_singleton.mpr (hlow c)⟩

theorem quiet_channels (r g b : UInt8) : Quiet (Color.channels r g b) :=
  quiet_separated [r.toNat, g.toNat, b.toNat]

instance : IsQuiet Hsl where
  quiet c := by
    have hsep : Quiet ", ".toList := .word
    have harguments : Quiet (css c.hue ++ ", ".toList ++ css c.saturation ++ ", ".toList ++
        css c.lightness ++ clause ", " c.alpha) :=
      (((((quiet c.hue).append hsep).append (quiet c.saturation)).append hsep).append
        (quiet c.lightness)).append (quiet_clause c.alpha)
    show Quiet (Color.hslText c)
    unfold Color.hslText
    split
    · exact .call harguments
    · exact .call harguments

instance : IsQuiet Hwb where
  quiet c :=
    .call ((((quiet c.hue).append (.cons (quiet c.whiteness))).append
      (.cons (quiet c.blackness))).append (quiet_clause c.alpha))

instance : IsQuiet Color where
  quiet
    | .currentColor => .word
    | .transparent => .word
    | .named name => quiet name
    | .system name => quiet name
    | .hex r g b a => quiet_hexText ([r, g, b] ++ a.toList)
    | .rgb r g b => .call (quiet_channels r g b)
    | .rgba r g b alpha => .call (((quiet_channels r g b).append .word).append (quiet alpha))
    | .hsl c => quiet c
    | .hwb c => quiet c

instance : IsQuiet GradientSide := ⟨fun s => by cases s <;> exact .word⟩

instance : IsQuiet ColorStop := ⟨fun s => (quiet s.color).append (quiet_clause s.position)⟩

instance : IsQuiet LinearGradient where
  quiet g := by
    have hitems : Quiet (joined ", ".toList ((g.direction.map css).toList ++ g.stops.map css)) := by
      refine .joined .word fun t ht => ?_
      rcases List.mem_append.mp ht with ht | ht
      · obtain ⟨direction, _, rfl⟩ := Option.map_eq_some_iff.mp (Option.mem_toList.mp ht)
        exact quiet direction
      · obtain ⟨stop, _, rfl⟩ := List.mem_map.mp ht
        exact quiet stop
    show Quiet (call (if g.repeating then _ else _) _)
    split
    · exact .call hitems
    · exact .call hitems

instance : IsQuiet Image where
  quiet
    | .none => .word
    | .url u => quiet u
    | .gradient g => quiet g

instance : IsQuiet BackgroundSize where
  quiet
    | .cover => .word
    | .contain => .word
    | .explicit width height => (quiet width).append (quiet_clause height)

instance : IsQuiet TextShadow where
  quiet s :=
    (((quiet s.x).append (.cons (quiet s.y))).append (quiet_clause s.blur)).append
      (quiet_clause s.color)

instance : IsQuiet BoxShadow where
  quiet s := by
    have hinset : Quiet (if s.inset then "inset ".toList else []) := by
      split
      · exact .word
      · exact .nil
    exact (hinset.append (quiet_separated ([s.x, s.y] ++ s.extent))).append (quiet_clause s.color)

/-! ### Boxes -/

instance : IsQuiet LineStyle := ⟨fun s => by cases s <;> exact .word⟩

instance : IsQuiet LineWidth where
  quiet
    | .thin => .word
    | .medium => .word
    | .thick => .word
    | .length value => quiet value

instance : IsQuiet BorderSide where
  quiet s := by
    show Quiet (if s.parts.isEmpty then css LineStyle.none else joined [' '] s.parts)
    split
    · exact quiet LineStyle.none
    · refine .joined .of_all fun t ht => ?_
      simp only [BorderSide.parts, List.mem_append, Option.mem_toList, Option.map_eq_some_iff] at ht
      obtain (⟨width, _, rfl⟩ | ⟨style, _, rfl⟩) | ⟨color, _, rfl⟩ := ht
      · exact quiet width
      · exact quiet style
      · exact quiet color

instance : IsQuiet Extent where
  quiet
    | .size value => quiet value
    | .minContent => .word
    | .maxContent => .word
    | .fitContent => .word
    | .fitContentUpTo limit => .call (quiet limit)

instance : IsQuiet FlexBasis := isQuiet_orKeyword

instance : IsQuiet HorizontalKeyword := ⟨fun k => by cases k <;> exact .word⟩

instance : IsQuiet VerticalKeyword := ⟨fun k => by cases k <;> exact .word⟩

instance : IsQuiet HorizontalSide := ⟨fun s => by cases s <;> exact .word⟩

instance : IsQuiet VerticalSide := ⟨fun s => by cases s <;> exact .word⟩

instance : IsQuiet Position where
  quiet
    | .keywords x y => (quiet x).append (.cons (quiet y))
    | .values x y => (quiet x).append (.cons (quiet y))
    | .offsets xSide x ySide y =>
      (((quiet xSide).append (.cons (quiet x))).append (.cons (quiet ySide))).append
        (.cons (quiet y))

instance [BEq α] [IsQuiet α] : IsQuiet (Sides α) := ⟨fun s => quiet_separated s.shortest⟩

instance : IsQuiet Gaps := ⟨fun g => (quiet g.row).append (quiet_clause g.column)⟩

instance : IsQuiet BorderSpacing :=
  ⟨fun s => (quiet s.horizontal).append (quiet_clause s.vertical)⟩

/-! ### Lines of text -/

instance : IsQuiet DecorationLines where
  quiet d := by
    show Quiet (if d = .empty then "none".toList else joined [' '] d.words)
    split
    · exact .word
    · refine .joined .of_all fun t ht => ?_
      have hwords : ∀ w ∈ ["underline", "overline", "line-through", "blink"], Quiet w.toList := by
        simp only [List.forall_mem_cons]
        exact ⟨.word, .word, .word, .word, nofun⟩
      obtain ⟨w, hw, rfl⟩ := DecorationLines.mem_words ht
      exact hwords w hw

instance : IsQuiet VerticalAlignKeyword := ⟨fun k => by cases k <;> exact .word⟩

/-! ### Fonts -/

instance : IsQuiet GenericFamily := ⟨fun f => by cases f <;> exact .word⟩

instance : IsQuiet FamilyList := ⟨fun l => quiet_separated l.families.toList⟩

instance : IsQuiet AbsoluteFontSize := ⟨fun s => by cases s <;> exact .word⟩

instance : IsQuiet RelativeFontSize := ⟨fun s => by cases s <;> exact .word⟩

instance : IsQuiet FontSize where
  quiet
    | .absolute size => quiet size
    | .relative size => quiet size
    | .size value => quiet value
    | .math => .word

instance : IsQuiet FontWeight where
  quiet
    | .normal => .word
    | .bold => .word
    | .bolder => .word
    | .lighter => .word
    | .number weight => quiet weight

instance : IsQuiet FontStyle where
  quiet
    | .normal => .word
    | .italic => .word
    | .oblique angle => (Quiet.word).append (quiet_clause angle)

instance : IsQuiet FontWidth := ⟨fun w => by cases w <;> exact .word⟩

/-! ### Grids -/

instance : IsQuiet GridLine where
  quiet
    | .auto => .word
    | .line i => quiet i.index
    | .named name => quiet name
    | .span n => (Quiet.word).append (quiet n.count)

instance : IsQuiet TrackBreadth where
  quiet
    | .size value => quiet value
    | .flex _ => quiet_dimensionText .word
    | .minContent => .word
    | .maxContent => .word
    | .auto => .word

instance : IsQuiet TrackSize where
  quiet
    | .breadth b => quiet b
    | .between least most => .call (quiet_separated [least, most])
    | .fitContent limit => .call (quiet limit)

instance : IsQuiet RepeatCount where
  quiet
    | .times n => quiet n
    | .autoFill => .word
    | .autoFit => .word

instance : IsQuiet Repeat where
  quiet r := .call (((quiet r.count).append .word).append (quiet_separated r.tracks.toList))

instance : IsQuiet TrackItem where
  quiet
    | .track size => quiet size
    | .lineNames names => .enclosed .square (quiet_separated names)
    | .repeated tracks => quiet tracks

/-! ### Motion -/

instance : IsQuiet StepPosition := ⟨fun p => by cases p <;> exact .word⟩

instance : IsQuiet CubicBezier :=
  ⟨fun c => .call (quiet_separated [c.x₁.value, c.y₁, c.x₂.value, c.y₂])⟩

instance : IsQuiet Steps := ⟨fun s => .call ((quiet s.count).append (quiet_clause s.position))⟩

instance : IsQuiet Easing where
  quiet
    | .linear => .word
    | .ease => .word
    | .easeIn => .word
    | .easeOut => .word
    | .easeInOut => .word
    | .stepStart => .word
    | .stepEnd => .word
    | .cubicBezier c => quiet c
    | .steps s => quiet s

instance : IsQuiet TransformFunction where
  quiet
    | .translate x y => .call ((quiet x).append (quiet_clause y))
    | .translateX x => .call (quiet x)
    | .translateY y => .call (quiet y)
    | .scale x y => .call ((quiet x).append (quiet_clause y))
    | .scaleX x => .call (quiet x)
    | .scaleY y => .call (quiet y)
    | .rotate angle => .call (quiet angle)
    | .skew x y => .call ((quiet x).append (quiet_clause y))
    | .skewX x => .call (quiet x)
    | .skewY y => .call (quiet y)
    | .matrix a b c d e f => .call (quiet_separated [a, b, c, d, e, f])
    | .perspective distance => .call (quiet distance)

instance : IsQuiet PropertyName := ⟨fun n => by cases n <;> exact .word⟩

instance : IsQuiet TransitionTarget where
  quiet
    | .all => .word
    | .property name => quiet name
    | .custom name => quiet name

instance : IsQuiet IterationCount := isQuiet_orKeyword

/-! ### Any property -/

instance isQuiet_grammar (name : PropertyName) : IsQuiet name.grammar.Value := by
  cases name <;> first
    | infer_instance
    | exact isQuiet_choice (by
        simp only [List.forall_mem_cons]
        repeat' apply And.intro
        all_goals first | exact .word | exact nofun)

instance [IsQuiet α] : IsQuiet (Specified α) where
  quiet
    | .own value => quiet value
    | .wide keyword => quiet keyword

end Stylesheet
