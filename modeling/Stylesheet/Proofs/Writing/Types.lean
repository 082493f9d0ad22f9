import Stylesheet.Proofs.Writing.Inside
import Stylesheet.Proofs.Writing.Rule

/-! Writing only appends.

This holds for all that has a text, so that a value is written alike on its own, behind any
other text and deep inside of rules. -/
namespace Stylesheet

/-! ### What is written -/

/-- A type of values that have a text and are written. -/
structure WritableType where
  Value : Type
  [toCss : ToCss Value]
  [writes : Writes Value]

attribute [instance] WritableType.toCss WritableType.writes

/-- Quantities, names, and what properties are made of. -/
def valueWriters : List WritableType := [
  ⟨Binary32⟩, ⟨Int⟩, ⟨Nat⟩, ⟨Percentage⟩, ⟨ClampedPercentage⟩, ⟨Alpha⟩, ⟨FontWeightNumber⟩,
  ⟨LengthUnit⟩, ⟨AngleUnit⟩, ⟨TimeUnit⟩, ⟨ResolutionUnit⟩, ⟨Length⟩, ⟨Angle⟩, ⟨Time⟩,
  ⟨Resolution⟩, ⟨LengthPercentage⟩, ⟨LengthPercentageOrAuto⟩, ⟨Identifier⟩, ⟨CustomIdent⟩,
  ⟨DashedIdent⟩, ⟨ContainerName⟩, ⟨CounterStyleName⟩, ⟨KeyframesName⟩, ⟨NonEmpty CustomIdent⟩,
  ⟨CssString⟩, ⟨Url⟩, ⟨WideKeyword⟩, ⟨PropertyName⟩, ⟨NamedColor⟩, ⟨SystemColor⟩, ⟨Hsl⟩, ⟨Hwb⟩,
  ⟨Color⟩, ⟨GradientSide⟩, ⟨GradientDirection⟩, ⟨ColorStop⟩, ⟨LinearGradient⟩, ⟨Image⟩,
  ⟨BackgroundLength⟩, ⟨BackgroundSize⟩, ⟨TextShadow⟩, ⟨BoxShadow⟩, ⟨LineStyle⟩, ⟨LineWidth⟩,
  ⟨BorderSide⟩, ⟨Extent⟩, ⟨Size⟩, ⟨MaxSize⟩, ⟨FlexBasis⟩, ⟨HorizontalKeyword⟩, ⟨VerticalKeyword⟩,
  ⟨HorizontalSide⟩, ⟨VerticalSide⟩, ⟨Position⟩, ⟨GapValue⟩, ⟨Gaps⟩, ⟨BorderSpacing⟩,
  ⟨DecorationLines⟩, ⟨LineHeight⟩, ⟨TextSpacing⟩, ⟨VerticalAlignKeyword⟩, ⟨VerticalAlign⟩,
  ⟨GenericFamily⟩, ⟨FamilyName⟩, ⟨FamilyList⟩, ⟨AbsoluteFontSize⟩, ⟨RelativeFontSize⟩, ⟨FontSize⟩,
  ⟨FontWeight⟩, ⟨FontStyle⟩, ⟨FontWidth⟩, ⟨FontStretch⟩, ⟨GridLine⟩, ⟨TrackBreadth⟩, ⟨TrackSize⟩,
  ⟨RepeatCount⟩, ⟨Repeat⟩, ⟨TrackItem⟩, ⟨TrackList⟩, ⟨StepPosition⟩, ⟨CubicBezier⟩, ⟨Steps⟩,
  ⟨Easing⟩, ⟨TransformFunction⟩, ⟨TransformList⟩, ⟨TransitionTarget⟩, ⟨TransitionTargets⟩,
  ⟨AnimationName⟩, ⟨IterationCount⟩]

/-- Properties, selectors, and conditions. -/
def partWriters : List WritableType := [
  ⟨Property⟩, ⟨Declaration⟩, ⟨DeclarationBlock⟩, ⟨Descriptors⟩, ⟨AttributeMatcher⟩, ⟨CaseFlag⟩,
  ⟨AttributeSelector⟩, ⟨Nth⟩, ⟨PseudoClassKeyword⟩, ⟨TextDirection⟩, ⟨PseudoClass⟩,
  ⟨PseudoElement⟩, ⟨TypeSelector⟩, ⟨Filter⟩, ⟨Combinator⟩, ⟨Compound⟩, ⟨Selector⟩,
  ⟨RelativeSelector⟩, ⟨SelectorList⟩, ⟨Ratio⟩, ⟨Orientation⟩, ⟨RangeFeature⟩, ⟨Comparison⟩,
  ⟨RangeValue⟩, ⟨RangeTest⟩, ⟨MediaType⟩, ⟨MediaModifier⟩, ⟨Hover⟩, ⟨Pointer⟩, ⟨ColorScheme⟩,
  ⟨ReducePreference⟩, ⟨ContrastPreference⟩, ⟨ForcedColors⟩, ⟨DisplayMode⟩, ⟨MediaFeature⟩,
  ⟨MediaQuery⟩, ⟨Media⟩, ⟨SupportsTest⟩, ⟨Supports⟩, ⟨ContainerFeature⟩, ⟨ContainerTest⟩,
  ⟨Container⟩]

/-- At-rules, what they are made of, and rules of any kind. -/
def ruleWriters : List WritableType := [
  ⟨FontFormat⟩, ⟨FontTech⟩, ⟨FontDisplay⟩, ⟨FontSource⟩, ⟨UnicodeRange⟩, ⟨FontFaceRule⟩,
  ⟨FeatureKind⟩, ⟨FeatureBlock⟩, ⟨FontFeatureValuesRule⟩, ⟨CounterSystem⟩, ⟨CounterSymbol⟩,
  ⟨WeightedSymbol⟩, ⟨AdditiveSymbols⟩, ⟨CounterBound⟩, ⟨CounterSpan⟩, ⟨CounterRange⟩,
  ⟨SpeakAsKeyword⟩, ⟨SpeakAs⟩, ⟨CounterStyleRule⟩, ⟨PagePseudo⟩, ⟨PageSelector⟩, ⟨PaperSize⟩,
  ⟨PageSize⟩, ⟨MarginBox⟩, ⟨MarginRule⟩, ⟨PageRule⟩, ⟨DataType⟩, ⟨Multiplier⟩, ⟨GrammarTerm⟩,
  ⟨ValueGrammar⟩, ⟨Inherits⟩, ⟨PropertyRule⟩, ⟨KeyframeOffset⟩, ⟨Keyframe⟩, ⟨KeyframesRule⟩,
  ⟨LayerName⟩, ⟨ImportLayer⟩, ⟨ImportRule⟩, ⟨NamespaceRule⟩, ⟨CharsetRule⟩, ⟨StyleRule⟩, ⟨Rule⟩]

/-- The types listed, and whatever is made of such types. -/
inductive Writable : WritableType → Prop where
  | listed {T} : T ∈ valueWriters ++ partWriters ++ ruleWriters → Writable T
  | own (name : PropertyName) : Writable ⟨name.grammar.Value⟩
  | specified {T : WritableType} : Writable T → Writable ⟨Specified T.Value⟩
  | nonNegative {T : WritableType} [Signed T.Value] : Writable T → Writable ⟨NonNegative T.Value⟩
  | sides {T : WritableType} [BEq T.Value] : Writable T → Writable ⟨Sides T.Value⟩
  | shadows {T : WritableType} : Writable T → Writable ⟨ShadowList T.Value⟩
  | condition {T : WritableType} : Writable T → Writable ⟨Condition T.Value⟩
  | several (separator : String) {T : WritableType} :
      Writable T → Writable ⟨Listed separator T.Value⟩
  | pair {T : WritableType} : Writable T → Writable ⟨Pair T.Value⟩

theorem writesText_value : ∀ T ∈ valueWriters, WritesText T.Value := by
  simp only [valueWriters, List.forall_mem_cons]
  repeat' apply And.intro
  all_goals first | infer_instance | exact List.forall_mem_nil _

theorem writesText_part : ∀ T ∈ partWriters, WritesText T.Value := by
  simp only [partWriters, List.forall_mem_cons]
  repeat' apply And.intro
  all_goals first | infer_instance | exact List.forall_mem_nil _

theorem writesText_rule : ∀ T ∈ ruleWriters, WritesText T.Value := by
  simp only [ruleWriters, List.forall_mem_cons]
  repeat' apply And.intro
  all_goals first | infer_instance | exact List.forall_mem_nil _

/-- Every type that is listed, or made of such types, is written as its text. -/
theorem Writable.writesText {T : WritableType} (h : Writable T) : WritesText T.Value := by
  induction h with
  | listed hT =>
    rcases List.mem_append.mp hT with hT | hT
    · rcases List.mem_append.mp hT with hT | hT
      · exact writesText_value _ hT
      · exact writesText_part _ hT
    · exact writesText_rule _ hT
  | own name => exact inferInstance
  | specified => exact inferInstance
  | nonNegative => exact inferInstance
  | sides => exact inferInstance
  | shadows => exact inferInstance
  | condition => exact inferInstance
  | several => exact inferInstance
  | pair => exact inferInstance

/-! ### What a writer leaves -/

/-- The parts of a side with spaces between them, or else a word in their place. -/
theorem BorderSide.cssString_eq (side : BorderSide) :
    cssString side =
      if side.parts.isEmpty then "none" else String.ofList (joined [' '] side.parts) := by
  show String.ofList (if side.parts.isEmpty then "none".toList else joined [' '] side.parts) = _
  split
  · exact String.ofList_toList
  · rfl

/-- A declaration in a rule is written as on its own, whatever else the rule holds. -/
theorem Rule.Declares.writeOnto_eq {d : Declaration} {r : Rule} (h : r.Declares d) :
    ∃ before after, ∀ buffer,
      writeOnto buffer r = buffer ++ before ++ writeString d ++ after := by
  obtain ⟨before, after, htext⟩ := h.infix_text
  refine ⟨String.ofList before, String.ofList after, fun buffer => ?_⟩
  rw [Stylesheet.writeOnto_eq, writeString_eq, writeString_eq, cssString, ← htext]
  simp only [cssString, String.ofList_append, String.append_assoc]

/-- Its value has been written into a buffer of its own. -/
theorem Property.writeString_declaration (p : Property) (important : Bool) :
    writeString {p.declaration with important} =
      writeString p.name ++ ":" ++ writeString p ++ if important then "!important" else "" := by
  have hmark : (if important then "!important" else "") =
      String.ofList (if important then "!important".toList else []) := by
    split
    · exact String.ofList_toList.symm
    · rfl
  have hcss : css {p.declaration with important} =
      css p.name ++ ':' :: css p ++ if important then "!important".toList else [] := rfl
  have hcolon : ":" = String.ofList [':'] := rfl
  rw [writeString_eq, writeString_eq, writeString_eq, cssString, hcss, hmark, hcolon,
    List.append_cons]
  simp only [cssString, String.ofList_append]

/-- **Writing only appends.** Whatever is written, the buffer is what it was with the text
of the value behind it. So it is with the sides of boxes, whose writer looks at the length
of the buffer, with a declaration in a rule, and with a property in a declaration. -/
theorem writing_only_appends :
    (∀ T, Writable T → ∀ (a : T.Value) (buffer : String),
      writeOnto buffer a = buffer ++ writeString a ∧ writeString a = cssString a) ∧
    (∀ (side : BorderSide) (buffer : String),
      writeOnto buffer side = buffer ++
        if side.parts.isEmpty then "none" else String.ofList (joined [' '] side.parts)) ∧
    (∀ (r : Rule) (d : Declaration), r.Declares d →
      ∃ before after, ∀ buffer,
        writeOnto buffer r = buffer ++ before ++ writeString d ++ after) ∧
    ∀ (p : Property) (important : Bool),
      writeString {p.declaration with important} =
        writeString p.name ++ ":" ++ writeString p ++ if important then "!important" else "" := by
  refine ⟨fun T hT a buffer => ?_, fun side buffer => ?_, fun r d h => h.writeOnto_eq,
    Property.writeString_declaration⟩
  · have := hT.writesText
    exact ⟨writeOnto_eq buffer a, writeString_eq a⟩
  · rw [writeOnto_eq, writeString_eq, side.cssString_eq]

/-- Sides without any part and with two, behind a text and deep in a rule. -/
theorem writing_only_appends_border :
    let plain : BorderSide := .empty
    let red : BorderSide := BorderSide.empty.withStyle .solid |>.withColor (.named .red)
    let p : Property := ⟨.border, .own red⟩
    let style : StyleRule := ⟨.single (.compound .universal), ⟨[p.declaration.withImportance]⟩⟩
    let rule : Rule := .layer none [.media (.ofType .print) [.style style]]
    Writable ⟨BorderSide⟩ ∧ rule.Declares p.declaration.withImportance ∧
    writeOnto "outline:" plain = "outline:none" ∧
    writeOnto "border:" red = "border:solid red" ∧
    ∃ before after, ∀ buffer,
      writeOnto buffer rule = buffer ++ before ++ "border:solid red!important" ++ after := by
  intro plain red p style rule
  have hlisted : Writable ⟨BorderSide⟩ := .listed (by simp [valueWriters])
  have hinner : (Rule.style style).Declares p.declaration.withImportance :=
    .own (List.mem_singleton_self _)
  have hrule : rule.Declares p.declaration.withImportance :=
    .inside rfl (List.mem_singleton_self _) (.inside rfl (List.mem_singleton_self _) hinner)
  obtain ⟨happends, -, hinside, hvalue⟩ := writing_only_appends
  refine ⟨hlisted, hrule, ?_, ?_, ?_⟩
  · rw [(happends ⟨BorderSide⟩ hlisted plain "outline:").1]
    rfl
  · rw [(happends ⟨BorderSide⟩ hlisted red "border:").1]
    rfl
  · have htext : writeString p.declaration.withImportance = "border:solid red!important" := by
      rw [Declaration.withImportance, hvalue p true]
      rfl
    exact htext ▸ hinside rule _ hrule

end Stylesheet
