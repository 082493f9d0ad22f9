import Stylesheet.Box.Border
import Stylesheet.Box.Extent
import Stylesheet.Box.Position
import Stylesheet.Box.Sides
import Stylesheet.Box.Spacing
import Stylesheet.Font.Family
import Stylesheet.Font.Style
import Stylesheet.Grid.Line
import Stylesheet.Grid.Track
import Stylesheet.Inline.Decoration
import Stylesheet.Inline.Line
import Stylesheet.Motion.Easing
import Stylesheet.Motion.Transform
import Stylesheet.Motion.Transition
import Stylesheet.Paint.Background
import Stylesheet.Paint.Image
import Stylesheet.Paint.Shadow

/-! What each property takes as a value of its own. -/
namespace Stylesheet

/-- A type of values that can be written and compared. -/
structure Grammar where
  Value : Type
  [toCss : ToCss Value]
  [beq : BEq Value]

attribute [instance] Grammar.toCss Grammar.beq

/-- The grammar of a property that takes keywords only. -/
@[reducible] def Grammar.words (ws : List String) : Grammar := ⟨Choice ws⟩

open Grammar in
@[reducible] def PropertyName.grammar : PropertyName → Grammar
  | .alignContent => words ["normal", "start", "end", "flex-start", "flex-end", "center",
      "space-between", "space-around", "space-evenly", "stretch", "baseline"]
  | .alignItems => words ["normal", "stretch", "start", "end", "flex-start", "flex-end",
      "self-start", "self-end", "center", "baseline"]
  | .alignSelf => words ["auto", "normal", "stretch", "start", "end", "flex-start", "flex-end",
      "self-start", "self-end", "center", "baseline"]
  | .animationDelay => ⟨Time⟩
  | .animationDirection => words ["normal", "reverse", "alternate", "alternate-reverse"]
  | .animationDuration => ⟨NonNegative Time⟩
  | .animationFillMode => words ["none", "forwards", "backwards", "both"]
  | .animationIterationCount => ⟨IterationCount⟩
  | .animationName => ⟨AnimationName⟩
  | .animationPlayState => words ["running", "paused"]
  | .animationTimingFunction => ⟨Easing⟩
  | .backgroundAttachment => words ["scroll", "fixed", "local"]
  | .backgroundClip => words ["border-box", "padding-box", "content-box", "text"]
  | .backgroundColor => ⟨Color⟩
  | .backgroundImage => ⟨Image⟩
  | .backgroundOrigin => words ["border-box", "padding-box", "content-box"]
  | .backgroundPosition => ⟨Position⟩
  | .backgroundRepeat => words ["repeat", "repeat-x", "repeat-y", "no-repeat", "space",
      "round"]
  | .backgroundSize => ⟨BackgroundSize⟩
  | .border => ⟨BorderSide⟩
  | .borderBottom => ⟨BorderSide⟩
  | .borderBottomColor => ⟨Color⟩
  | .borderBottomLeftRadius => ⟨NonNegative LengthPercentage⟩
  | .borderBottomRightRadius => ⟨NonNegative LengthPercentage⟩
  | .borderBottomStyle => ⟨LineStyle⟩
  | .borderBottomWidth => ⟨LineWidth⟩
  | .borderCollapse => words ["separate", "collapse"]
  | .borderColor => ⟨Sides Color⟩
  | .borderLeft => ⟨BorderSide⟩
  | .borderLeftColor => ⟨Color⟩
  | .borderLeftStyle => ⟨LineStyle⟩
  | .borderLeftWidth => ⟨LineWidth⟩
  | .borderRadius => ⟨Sides (NonNegative LengthPercentage)⟩
  | .borderRight => ⟨BorderSide⟩
  | .borderRightColor => ⟨Color⟩
  | .borderRightStyle => ⟨LineStyle⟩
  | .borderRightWidth => ⟨LineWidth⟩
  | .borderSpacing => ⟨BorderSpacing⟩
  | .borderStyle => ⟨Sides LineStyle⟩
  | .borderTop => ⟨BorderSide⟩
  | .borderTopColor => ⟨Color⟩
  | .borderTopLeftRadius => ⟨NonNegative LengthPercentage⟩
  | .borderTopRightRadius => ⟨NonNegative LengthPercentage⟩
  | .borderTopStyle => ⟨LineStyle⟩
  | .borderTopWidth => ⟨LineWidth⟩
  | .borderWidth => ⟨Sides LineWidth⟩
  | .bottom => ⟨LengthPercentageOrAuto⟩
  | .boxShadow => ⟨ShadowList BoxShadow⟩
  | .boxSizing => words ["content-box", "border-box"]
  | .clear => words ["none", "left", "right", "both", "inline-start", "inline-end"]
  | .color => ⟨Color⟩
  | .columnGap => ⟨GapValue⟩
  | .cursor => words ["auto", "default", "none", "context-menu", "help", "pointer", "progress",
      "wait", "cell", "crosshair", "text", "vertical-text", "alias", "copy", "move", "no-drop",
      "not-allowed", "grab", "grabbing", "all-scroll", "col-resize", "row-resize", "n-resize",
      "e-resize", "s-resize", "w-resize", "ne-resize", "nw-resize", "se-resize", "sw-resize",
      "ew-resize", "ns-resize", "nesw-resize", "nwse-resize", "zoom-in", "zoom-out"]
  | .direction => words ["ltr", "rtl"]
  | .display => words ["block", "inline", "inline-block", "flex", "inline-flex", "grid",
      "inline-grid", "flow-root", "contents", "none", "list-item", "table", "inline-table",
      "table-row-group", "table-header-group", "table-footer-group", "table-row", "table-cell",
      "table-column-group", "table-column", "table-caption"]
  | .flexBasis => ⟨FlexBasis⟩
  | .flexDirection => words ["row", "row-reverse", "column", "column-reverse"]
  | .flexGrow => ⟨NonNegative Binary32⟩
  | .flexShrink => ⟨NonNegative Binary32⟩
  | .flexWrap => words ["nowrap", "wrap", "wrap-reverse"]
  | .float => words ["left", "right", "none", "inline-start", "inline-end"]
  | .fontFamily => ⟨FamilyList⟩
  | .fontKerning => words ["auto", "normal", "none"]
  | .fontSize => ⟨FontSize⟩
  | .fontStretch => ⟨FontStretch⟩
  | .fontStyle => ⟨FontStyle⟩
  | .fontVariantCaps => words ["normal", "small-caps", "all-small-caps", "petite-caps",
      "all-petite-caps", "unicase", "titling-caps"]
  | .fontWeight => ⟨FontWeight⟩
  | .gap => ⟨Gaps⟩
  | .gridAutoColumns => ⟨TrackSize⟩
  | .gridAutoFlow => words ["row", "column", "dense", "row dense", "column dense"]
  | .gridAutoRows => ⟨TrackSize⟩
  | .gridColumnEnd => ⟨GridLine⟩
  | .gridColumnStart => ⟨GridLine⟩
  | .gridRowEnd => ⟨GridLine⟩
  | .gridRowStart => ⟨GridLine⟩
  | .gridTemplateColumns => ⟨TrackList⟩
  | .gridTemplateRows => ⟨TrackList⟩
  | .height => ⟨Size⟩
  | .hyphens => words ["none", "manual", "auto"]
  | .inset => ⟨Sides LengthPercentageOrAuto⟩
  | .justifyContent => words ["normal", "start", "end", "flex-start", "flex-end", "center",
      "left", "right", "space-between", "space-around", "space-evenly", "stretch"]
  | .justifyItems => words ["normal", "stretch", "start", "end", "center", "left", "right",
      "baseline"]
  | .justifySelf => words ["auto", "normal", "stretch", "start", "end", "center", "left",
      "right", "baseline"]
  | .left => ⟨LengthPercentageOrAuto⟩
  | .letterSpacing => ⟨TextSpacing⟩
  | .lineHeight => ⟨LineHeight⟩
  | .listStyleImage => ⟨Image⟩
  | .listStylePosition => words ["inside", "outside"]
  | .listStyleType => words ["none", "disc", "circle", "square", "decimal",
      "decimal-leading-zero", "lower-roman", "upper-roman", "lower-alpha", "upper-alpha",
      "lower-latin", "upper-latin", "lower-greek", "disclosure-open", "disclosure-closed"]
  | .margin => ⟨Sides LengthPercentageOrAuto⟩
  | .marginBottom => ⟨LengthPercentageOrAuto⟩
  | .marginLeft => ⟨LengthPercentageOrAuto⟩
  | .marginRight => ⟨LengthPercentageOrAuto⟩
  | .marginTop => ⟨LengthPercentageOrAuto⟩
  | .maxHeight => ⟨MaxSize⟩
  | .maxWidth => ⟨MaxSize⟩
  | .minHeight => ⟨Size⟩
  | .minWidth => ⟨Size⟩
  | .mixBlendMode => words ["normal", "multiply", "screen", "overlay", "darken", "lighten",
      "color-dodge", "color-burn", "hard-light", "soft-light", "difference", "exclusion",
      "hue", "saturation", "color", "luminosity", "plus-lighter"]
  | .objectFit => words ["fill", "contain", "cover", "none", "scale-down"]
  | .objectPosition => ⟨Position⟩
  | .opacity => ⟨Alpha⟩
  | .order => ⟨Int⟩
  | .outline => ⟨BorderSide⟩
  | .outlineColor => ⟨Color⟩
  | .outlineOffset => ⟨Length⟩
  | .outlineStyle => ⟨LineStyle⟩
  | .outlineWidth => ⟨LineWidth⟩
  | .overflow => words ["visible", "hidden", "clip", "scroll", "auto"]
  | .overflowWrap => words ["normal", "break-word", "anywhere"]
  | .overflowX => words ["visible", "hidden", "clip", "scroll", "auto"]
  | .overflowY => words ["visible", "hidden", "clip", "scroll", "auto"]
  | .padding => ⟨Sides (NonNegative LengthPercentage)⟩
  | .paddingBottom => ⟨NonNegative LengthPercentage⟩
  | .paddingLeft => ⟨NonNegative LengthPercentage⟩
  | .paddingRight => ⟨NonNegative LengthPercentage⟩
  | .paddingTop => ⟨NonNegative LengthPercentage⟩
  | .pointerEvents => words ["auto", "none"]
  | .position => words ["static", "relative", "absolute", "fixed", "sticky"]
  | .right => ⟨LengthPercentageOrAuto⟩
  | .rowGap => ⟨GapValue⟩
  | .textAlign => words ["start", "end", "left", "right", "center", "justify", "match-parent"]
  | .textDecorationColor => ⟨Color⟩
  | .textDecorationLine => ⟨DecorationLines⟩
  | .textDecorationStyle => words ["solid", "double", "dotted", "dashed", "wavy"]
  | .textIndent => ⟨LengthPercentage⟩
  | .textOverflow => words ["clip", "ellipsis"]
  | .textShadow => ⟨ShadowList TextShadow⟩
  | .textTransform => words ["none", "capitalize", "uppercase", "lowercase", "full-width",
      "full-size-kana"]
  | .top => ⟨LengthPercentageOrAuto⟩
  | .transform => ⟨TransformList⟩
  | .transformOrigin => ⟨Position⟩
  | .transitionDelay => ⟨Time⟩
  | .transitionDuration => ⟨NonNegative Time⟩
  | .transitionProperty => ⟨TransitionTargets⟩
  | .transitionTimingFunction => ⟨Easing⟩
  | .userSelect => words ["auto", "text", "none", "contain", "all"]
  | .verticalAlign => ⟨VerticalAlign⟩
  | .visibility => words ["visible", "hidden", "collapse"]
  | .whiteSpace => words ["normal", "pre", "nowrap", "pre-wrap", "break-spaces", "pre-line"]
  | .width => ⟨Size⟩
  | .wordBreak => words ["normal", "break-all", "keep-all", "break-word"]
  | .wordSpacing => ⟨TextSpacing⟩
  | .writingMode => words ["horizontal-tb", "vertical-rl", "vertical-lr", "sideways-rl",
      "sideways-lr"]
  | .zIndex => ⟨OrAuto Int⟩

end Stylesheet
