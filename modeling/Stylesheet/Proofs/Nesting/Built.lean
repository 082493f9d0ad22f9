import Stylesheet.Rule.Basic

/-! What can be built.

Rules are reached only through their constructors and builders, and so are the
declarations in them. `N` tells which names a block of descriptors may be handed, and `V`
which texts a property of the author's own may have as its value. The text of anything
that can be built is such a text in turn: `ValueText`. -/
namespace Stylesheet

/-! ### Declarations -/

section Declarations
variable (N V : List Char → Prop)

/-- A property, or a name of the author's own with a value that satisfies `V`; either may be
marked. -/
inductive Declaration.Built : Declaration → Prop where
  | property (p : Property) : Built p.declaration
  | custom {α : Type} [ToCss α] (name : DashedIdent) (value : α) : V (css value) →
      Built (.custom name value)
  /-- As a block of descriptors holds it. -/
  | descriptor {name value : List Char} : N name → V value → Built ⟨name, value, false⟩
  | important {d} : Built d → Built d.withImportance

def DeclarationBlock.Built (b : DeclarationBlock) : Prop := ∀ d ∈ b.declarations, d.Built N V

/-- Values that are `set` are the author's own, while those that are declared come with a
property. -/
inductive Descriptors.Built : Descriptors → Prop where
  | empty : Built .empty
  | set {α : Type} [ToCss α] {ds} (name : String) (value : α) : Built ds → N name.toList →
      V (css value) → Built (ds.set name value)
  | declare {ds} (p : Property) : Built ds → Built (ds.declare p)
  | insert {ds d} : Built ds → d.Built N V → Built (ds.insert d)

def Keyframe.Built (k : Keyframe) : Prop := k.declarations.Built N V

/-- There is no rule when its name is refused. -/
inductive KeyframesRule.Built : KeyframesRule → Prop where
  | of {name r} : KeyframesRule.of name = .ok r → Built r
  | withKeyframe {r k} : Built r → k.Built N V → Built (r.withKeyframe k)

/-- Only the initial value is the author's own text. -/
inductive PropertyRule.Built : PropertyRule → Prop where
  | of (name : DashedIdent) (grammar : ValueGrammar) (inherits : Bool) :
      Built (.of name grammar inherits)
  | withInitialValue {α : Type} [ToCss α] {r} (value : α) : Built r → V (css value) →
      Built (r.withInitialValue value)

end Declarations

/-! ### Rules about fonts, pages and counters -/

/-- The family and the sources come first, then any descriptors in any order. -/
inductive FontFaceRule.Built : FontFaceRule → Prop where
  | of {family sources r} : FontFaceRule.of family sources = .ok r → Built r
  | withStyle {r} (style : FontStyle) : Built r → Built (r.withStyle style)
  | withWeight {r} (weight : FontWeight) : Built r → Built (r.withWeight weight)
  | withWeightRange {r} (least most : FontWeight) : Built r → Built (r.withWeightRange least most)
  | withStretch {r} (stretch : FontStretch) : Built r → Built (r.withStretch stretch)
  | withDisplay {r} (display : FontDisplay) : Built r → Built (r.withDisplay display)
  | withUnicodeRange {r r' ranges} : Built r → r.withUnicodeRange ranges = .ok r' → Built r'
  | withSizeAdjust {r} (p : NonNegative Percentage) : Built r → Built (r.withSizeAdjust p)
  | withAscentOverride {r} (p : NonNegative Percentage) : Built r → Built (r.withAscentOverride p)
  | withDescentOverride {r} (p : NonNegative Percentage) : Built r → Built (r.withDescentOverride p)
  | withLineGapOverride {r} (p : NonNegative Percentage) : Built r → Built (r.withLineGapOverride p)

inductive FeatureBlock.Built : FeatureBlock → Prop where
  | of (kind : FeatureKind) : Built (.of kind)
  | withValue {b b' name indices} : Built b → b.withValue name indices = .ok b' → Built b'

/-- A rule takes only feature blocks that were built in turn. -/
inductive FontFeatureValuesRule.Built : FontFeatureValuesRule → Prop where
  | of {families r} : FontFeatureValuesRule.of families = .ok r → Built r
  | withDisplay {r} (display : FontDisplay) : Built r → Built (r.withDisplay display)
  | withBlock {r b} : Built r → b.Built → Built (r.withBlock b)

inductive MarginRule.Built : MarginRule → Prop where
  | of (box : MarginBox) : Built (.of box)
  | declare {r} (p : Property) : Built r → Built (r.declare p)

inductive PageRule.Built : PageRule → Prop where
  | empty : Built .empty
  | withSelector {r} (s : PageSelector) : Built r → Built (r.withSelector s)
  | withSize {r} (size : PageSize) : Built r → Built (r.withSize size)
  | declare {r} (p : Property) : Built r → Built (r.declare p)
  | withMargin {r m} : Built r → m.Built → Built (r.withMargin m)

/-- Four of the builders may refuse their argument, and what counts is the rule they return. -/
inductive CounterStyleRule.Built : CounterStyleRule → Prop where
  | of {name r} : CounterStyleRule.of name = .ok r → Built r
  | withSystem {r} (system : CounterSystem) : Built r → Built (r.withSystem system)
  | withSymbols {r r' symbols} : Built r → r.withSymbols symbols = .ok r' → Built r'
  | withAdditiveSymbols {r r' tuples} : Built r → r.withAdditiveSymbols tuples = .ok r' → Built r'
  | withNegative {r} (lead : CounterSymbol) (trail : Option CounterSymbol) : Built r →
      Built (r.withNegative lead trail)
  | withPrefix {r} (symbol : CounterSymbol) : Built r → Built (r.withPrefix symbol)
  | withSuffix {r} (symbol : CounterSymbol) : Built r → Built (r.withSuffix symbol)
  | withAutoRange {r} : Built r → Built r.withAutoRange
  | withRange {r r' spans} : Built r → r.withRange spans = .ok r' → Built r'
  | withPad {r} (pad : WeightedSymbol) : Built r → Built (r.withPad pad)
  | withFallback {r} (style : CustomIdent) : Built r → Built (r.withFallback style)
  | withSpeakAs {r} (speakAs : SpeakAs) : Built r → Built (r.withSpeakAs speakAs)

/-! ### Conditions -/

/-- Every test of a condition satisfies `P`. -/
inductive Condition.Forall {Test : Type} (P : Test → Prop) : Condition Test → Prop where
  | test {t} : P t → Forall P (.test t)
  | not {c} : Forall P c → Forall P (.not c)
  | and {cs} : (∀ c ∈ cs, Forall P c) → Forall P (.and cs)
  | or {cs} : (∀ c ∈ cs, Forall P c) → Forall P (.or cs)

/-- The tests satisfy `P`, and a junction has at least two terms. -/
inductive Condition.Formed {Test : Type} (P : Test → Prop) : Condition Test → Prop where
  | test {t} : P t → Formed P (.test t)
  | not {c} : Formed P c → Formed P (.not c)
  | and {cs} : 2 ≤ cs.length → (∀ c ∈ cs, Formed P c) → Formed P (.and cs)
  | or {cs} : 2 ≤ cs.length → (∀ c ∈ cs, Formed P c) → Formed P (.or cs)

section Rules
variable (N V : List Char → Prop)

inductive SupportsTest.Built : SupportsTest → Prop where
  | declaration {d} : d.Built N V → Built (.declaration d)
  | selector (s : Selector) : Built (.selector s)
  | fontTech (t : FontTech) : Built (.fontTech t)
  | fontFormat (f : FontFormat) : Built (.fontFormat f)

/-- The tests, and what the operators make of conditions already built. -/
inductive Supports.Built : Supports → Prop where
  | ofProperty (p : Property) : Built (.ofProperty p)
  | ofDeclaration {d} : d.Built N V → Built (.ofDeclaration d)
  | selector (s : Selector) : Built (.ofTest (.selector s))
  | fontTech (t : FontTech) : Built (.ofTest (.fontTech t))
  | fontFormat (f : FontFormat) : Built (.ofTest (.fontFormat f))
  | and {a b} : Built a → Built b → Built (a.and b)
  | or {a b} : Built a → Built b → Built (a.or b)
  | not {a} : Built a → Built a.not

inductive ContainerTest.Built : ContainerTest → Prop where
  | size (feature : ContainerFeature) : Built (.size feature)
  | style {d} : d.Built N V → Built (.style d)

/-- As for `@supports`, and with a name that may be refused. -/
inductive Container.Built : Container → Prop where
  | ofSize (feature : ContainerFeature) : Built (.ofSize feature)
  | ofProperty (p : Property) : Built (.ofProperty p)
  | ofDeclaration {d} : d.Built N V → Built (.ofDeclaration d)
  | named {c c' name} : Built c → c.named name = .ok c' → Built c'
  | and {a b} : Built a → Built b → Built (a.and b)
  | or {a b} : Built a → Built b → Built (a.or b)
  | not {a} : Built a → Built a.not

/-! ### Rules -/

/-- The clauses may be set in any order, and again. -/
inductive ImportRule.Built : ImportRule → Prop where
  | of (address : String) : Built (.of address)
  | withLayer {r} (layer : ImportLayer) : Built r → Built (r.withLayer layer)
  | withSupports {r s} : Built r → s.Built N V → Built (r.withSupports s)
  | withMedia {r} (media : Media) : Built r → Built (r.withMedia media)

def StyleRule.Built (r : StyleRule) : Prop := r.declarations.Built N V

/-- Rules of every kind, to any depth. -/
inductive Rule.Built : Rule → Prop where
  | style {r} : r.Built N V → Built (.style r)
  | media (m : Media) {rules} : (∀ r ∈ rules, Built r) → Built (.media m rules)
  | supports {s rules} : s.Built N V → (∀ r ∈ rules, Built r) → Built (.supports s rules)
  | container {c rules} : c.Built N V → (∀ r ∈ rules, Built r) → Built (.container c rules)
  | layerOrder (names : NonEmpty LayerName) : Built (.layerOrder names)
  | layer (name : Option LayerName) {rules} : (∀ r ∈ rules, Built r) → Built (.layer name rules)
  | fontFace {r} : r.Built → Built (.fontFace r)
  | page {r} : r.Built → Built (.page r)
  | counterStyle {r} : r.Built → Built (.counterStyle r)
  | property {r} : r.Built V → Built (.property r)
  | fontFeatureValues {r} : r.Built → Built (.fontFeatureValues r)
  | keyframes {r} : r.Built N V → Built (.keyframes r)
  | importRule {r} : r.Built N V → Built (.importRule r)
  | namespaceRule (r : NamespaceRule) : Built (.namespaceRule r)
  | charset (r : CharsetRule) : Built (.charset r)

/-! ### Values -/

/-- The texts of values that hold declarations or other values. -/
inductive ComposedText : List Char → Prop where
  | sides {α : Type} [ToCss α] [BEq α] (s : Sides α) :
      V (css s.top) → V (css s.right) → V (css s.bottom) → V (css s.left) → ComposedText (css s)
  | shadows {α : Type} [ToCss α] (list : ShadowList α) : (∀ a ∈ list.items, V (css a)) →
      ComposedText (css list)
  | condition {Test : Type} [ToCss Test] {c : Condition Test} : c.Forall (fun t => V (css t)) →
      ComposedText (css c)
  | declaration {d : Declaration} : d.Built N V → ComposedText (css d)
  | declarations {b : DeclarationBlock} : b.Built N V → ComposedText (css b)
  | descriptors {ds : Descriptors} : ds.Built N V → ComposedText (css ds)
  | keyframe {k : Keyframe} : k.Built N V → ComposedText (css k)
  | featureBlock {b : FeatureBlock} : b.Built → ComposedText (css b)
  | margin {r : MarginRule} : r.Built → ComposedText (css r)
  | supportsTest {t : SupportsTest} : t.Built N V → ComposedText (css t)
  | supports {s : Supports} : s.Built N V → ComposedText (css s)
  | containerTest {t : ContainerTest} : t.Built N V → ComposedText (css t)
  | container {c : Container} : c.Built N V → ComposedText (css c)
  | rule {r : Rule} : r.Built N V → ComposedText (css r)

end Rules

/-- A type with a text. -/
structure CssType where
  Value : Type
  [toCss : ToCss Value]

attribute [instance] CssType.toCss

/-- The types of values that hold no declarations, but for those of the properties. -/
def plainTypes : List CssType := [
  ⟨Binary32⟩, ⟨Int⟩, ⟨Percentage⟩, ⟨ClampedPercentage⟩, ⟨Alpha⟩, ⟨FontWeightNumber⟩,
  ⟨LengthUnit⟩, ⟨AngleUnit⟩, ⟨TimeUnit⟩, ⟨ResolutionUnit⟩, ⟨Length⟩, ⟨Angle⟩, ⟨Time⟩,
  ⟨Resolution⟩, ⟨LengthPercentage⟩, ⟨LengthPercentageOrAuto⟩, ⟨NonNegative Binary32⟩,
  ⟨NonNegative Int⟩, ⟨NonNegative Percentage⟩, ⟨NonNegative Length⟩, ⟨NonNegative Angle⟩,
  ⟨NonNegative Time⟩, ⟨NonNegative Resolution⟩, ⟨NonNegative LengthPercentage⟩,
  ⟨Identifier⟩, ⟨CustomIdent⟩, ⟨DashedIdent⟩, ⟨NonEmpty CustomIdent⟩, ⟨CssString⟩, ⟨Url⟩,
  ⟨WideKeyword⟩, ⟨NamedColor⟩, ⟨SystemColor⟩, ⟨Color⟩, ⟨GradientSide⟩, ⟨GradientDirection⟩,
  ⟨ColorStop⟩, ⟨LinearGradient⟩, ⟨Image⟩, ⟨BackgroundLength⟩, ⟨TextShadow⟩, ⟨BoxShadow⟩,
  ⟨LineStyle⟩, ⟨LineWidth⟩, ⟨BorderSide⟩, ⟨Extent⟩, ⟨Size⟩, ⟨MaxSize⟩, ⟨HorizontalKeyword⟩,
  ⟨VerticalKeyword⟩, ⟨HorizontalSide⟩, ⟨VerticalSide⟩, ⟨Position⟩, ⟨GapValue⟩, ⟨Gaps⟩,
  ⟨BorderSpacing⟩, ⟨DecorationLines⟩, ⟨LineHeight⟩, ⟨VerticalAlignKeyword⟩, ⟨VerticalAlign⟩,
  ⟨GenericFamily⟩, ⟨FamilyName⟩, ⟨FamilyList⟩, ⟨AbsoluteFontSize⟩, ⟨RelativeFontSize⟩,
  ⟨FontSize⟩, ⟨FontWeight⟩, ⟨FontStyle⟩, ⟨FontWidth⟩, ⟨FontStretch⟩, ⟨GridLine⟩,
  ⟨TrackBreadth⟩, ⟨TrackSize⟩, ⟨RepeatCount⟩, ⟨Repeat⟩, ⟨TrackItem⟩, ⟨TrackList⟩,
  ⟨StepPosition⟩, ⟨Easing⟩, ⟨TransformFunction⟩, ⟨TransformList⟩, ⟨TransitionTarget⟩,
  ⟨TransitionTargets⟩, ⟨AnimationName⟩, ⟨IterationCount⟩,
  ⟨AttributeMatcher⟩, ⟨CaseFlag⟩, ⟨AttributeSelector⟩, ⟨Nth⟩, ⟨PseudoClassKeyword⟩,
  ⟨TextDirection⟩, ⟨PseudoClass⟩, ⟨PseudoElement⟩, ⟨TypeSelector⟩, ⟨Combinator⟩, ⟨Compound⟩,
  ⟨Selector⟩, ⟨RelativeSelector⟩, ⟨SelectorList⟩,
  ⟨Ratio⟩, ⟨Orientation⟩, ⟨RangeFeature⟩, ⟨Comparison⟩, ⟨RangeValue⟩, ⟨RangeTest⟩,
  ⟨MediaType⟩, ⟨MediaModifier⟩, ⟨Hover⟩, ⟨Pointer⟩, ⟨ColorScheme⟩, ⟨ReducePreference⟩,
  ⟨ContrastPreference⟩, ⟨ForcedColors⟩, ⟨DisplayMode⟩, ⟨MediaFeature⟩, ⟨MediaQuery⟩, ⟨Media⟩,
  ⟨FontTech⟩, ⟨FontFormat⟩, ⟨ContainerFeature⟩, ⟨ContainerName⟩,
  ⟨FontDisplay⟩, ⟨FontSource⟩, ⟨UnicodeRange⟩, ⟨FeatureKind⟩, ⟨PagePseudo⟩, ⟨PageSelector⟩,
  ⟨PaperSize⟩, ⟨PageSize⟩, ⟨MarginBox⟩, ⟨CounterSystem⟩, ⟨CounterSymbol⟩, ⟨WeightedSymbol⟩,
  ⟨AdditiveSymbols⟩, ⟨CounterBound⟩, ⟨CounterSpan⟩, ⟨CounterRange⟩, ⟨SpeakAsKeyword⟩, ⟨SpeakAs⟩,
  ⟨DataType⟩, ⟨Multiplier⟩, ⟨GrammarTerm⟩, ⟨ValueGrammar⟩, ⟨KeyframeOffset⟩, ⟨LayerName⟩,
  ⟨ImportLayer⟩]

/-- The texts of all values, however deep they hold others. -/
inductive ValueText (N : List Char → Prop) : List Char → Prop where
  | plain {T : CssType} : T ∈ plainTypes → (a : T.Value) → ValueText N (css a)
  | own {name : PropertyName} (a : name.grammar.Value) : ValueText N (css a)
  | property (p : Property) : ValueText N (css p)
  | composed {V : List Char → Prop} {t} : (∀ u, V u → ValueText N u) → ComposedText N V t →
      ValueText N t

end Stylesheet
