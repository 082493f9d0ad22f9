import Stylesheet.Keyword

/-! The names of the properties. -/
namespace Stylesheet

/-- The properties that are known by name. Those that the author defines are not among them. -/
inductive PropertyName where
  | alignContent | alignItems | alignSelf | animationDelay | animationDirection
  | animationDuration | animationFillMode | animationIterationCount | animationName
  | animationPlayState | animationTimingFunction | backgroundAttachment | backgroundClip
  | backgroundColor | backgroundImage | backgroundOrigin | backgroundPosition
  | backgroundRepeat | backgroundSize | border | borderBottom | borderBottomColor
  | borderBottomLeftRadius | borderBottomRightRadius | borderBottomStyle | borderBottomWidth
  | borderCollapse | borderColor | borderLeft | borderLeftColor | borderLeftStyle
  | borderLeftWidth | borderRadius | borderRight | borderRightColor | borderRightStyle
  | borderRightWidth | borderSpacing | borderStyle | borderTop | borderTopColor
  | borderTopLeftRadius | borderTopRightRadius | borderTopStyle | borderTopWidth | borderWidth
  | bottom | boxShadow | boxSizing | clear | color | columnGap | cursor | direction | display
  | flexBasis | flexDirection | flexGrow | flexShrink | flexWrap | float | fontFamily
  | fontKerning | fontSize | fontStretch | fontStyle | fontVariantCaps | fontWeight | gap
  | gridAutoColumns | gridAutoFlow | gridAutoRows | gridColumnEnd | gridColumnStart
  | gridRowEnd | gridRowStart | gridTemplateColumns | gridTemplateRows | height | hyphens
  | inset | justifyContent | justifyItems | justifySelf | left | letterSpacing | lineHeight
  | listStyleImage | listStylePosition | listStyleType | margin | marginBottom | marginLeft
  | marginRight | marginTop | maxHeight | maxWidth | minHeight | minWidth | mixBlendMode
  | objectFit | objectPosition | opacity | order | outline | outlineColor | outlineOffset
  | outlineStyle | outlineWidth | overflow | overflowWrap | overflowX | overflowY | padding
  | paddingBottom | paddingLeft | paddingRight | paddingTop | pointerEvents | position | right
  | rowGap | textAlign | textDecorationColor | textDecorationLine | textDecorationStyle
  | textIndent | textOverflow | textShadow | textTransform | top | transform | transformOrigin
  | transitionDelay | transitionDuration | transitionProperty | transitionTimingFunction
  | userSelect | verticalAlign | visibility | whiteSpace | width | wordBreak | wordSpacing
  | writingMode | zIndex
  deriving DecidableEq

instance : Keyword PropertyName where
  all := [.alignContent, .alignItems, .alignSelf, .animationDelay, .animationDirection,
    .animationDuration, .animationFillMode, .animationIterationCount, .animationName,
    .animationPlayState, .animationTimingFunction, .backgroundAttachment, .backgroundClip,
    .backgroundColor, .backgroundImage, .backgroundOrigin, .backgroundPosition,
    .backgroundRepeat, .backgroundSize, .border, .borderBottom, .borderBottomColor,
    .borderBottomLeftRadius, .borderBottomRightRadius, .borderBottomStyle, .borderBottomWidth,
    .borderCollapse, .borderColor, .borderLeft, .borderLeftColor, .borderLeftStyle,
    .borderLeftWidth, .borderRadius, .borderRight, .borderRightColor, .borderRightStyle,
    .borderRightWidth, .borderSpacing, .borderStyle, .borderTop, .borderTopColor,
    .borderTopLeftRadius, .borderTopRightRadius, .borderTopStyle, .borderTopWidth,
    .borderWidth, .bottom, .boxShadow, .boxSizing, .clear, .color, .columnGap, .cursor,
    .direction, .display, .flexBasis, .flexDirection, .flexGrow, .flexShrink, .flexWrap,
    .float, .fontFamily, .fontKerning, .fontSize, .fontStretch, .fontStyle, .fontVariantCaps,
    .fontWeight, .gap, .gridAutoColumns, .gridAutoFlow, .gridAutoRows, .gridColumnEnd,
    .gridColumnStart, .gridRowEnd, .gridRowStart, .gridTemplateColumns, .gridTemplateRows,
    .height, .hyphens, .inset, .justifyContent, .justifyItems, .justifySelf, .left,
    .letterSpacing, .lineHeight, .listStyleImage, .listStylePosition, .listStyleType, .margin,
    .marginBottom, .marginLeft, .marginRight, .marginTop, .maxHeight, .maxWidth, .minHeight,
    .minWidth, .mixBlendMode, .objectFit, .objectPosition, .opacity, .order, .outline,
    .outlineColor, .outlineOffset, .outlineStyle, .outlineWidth, .overflow, .overflowWrap,
    .overflowX, .overflowY, .padding, .paddingBottom, .paddingLeft, .paddingRight, .paddingTop,
    .pointerEvents, .position, .right, .rowGap, .textAlign, .textDecorationColor,
    .textDecorationLine, .textDecorationStyle, .textIndent, .textOverflow, .textShadow,
    .textTransform, .top, .transform, .transformOrigin, .transitionDelay, .transitionDuration,
    .transitionProperty, .transitionTimingFunction, .userSelect, .verticalAlign, .visibility,
    .whiteSpace, .width, .wordBreak, .wordSpacing, .writingMode, .zIndex]
  keyword
    | .alignContent => "align-content"
    | .alignItems => "align-items"
    | .alignSelf => "align-self"
    | .animationDelay => "animation-delay"
    | .animationDirection => "animation-direction"
    | .animationDuration => "animation-duration"
    | .animationFillMode => "animation-fill-mode"
    | .animationIterationCount => "animation-iteration-count"
    | .animationName => "animation-name"
    | .animationPlayState => "animation-play-state"
    | .animationTimingFunction => "animation-timing-function"
    | .backgroundAttachment => "background-attachment"
    | .backgroundClip => "background-clip"
    | .backgroundColor => "background-color"
    | .backgroundImage => "background-image"
    | .backgroundOrigin => "background-origin"
    | .backgroundPosition => "background-position"
    | .backgroundRepeat => "background-repeat"
    | .backgroundSize => "background-size"
    | .border => "border"
    | .borderBottom => "border-bottom"
    | .borderBottomColor => "border-bottom-color"
    | .borderBottomLeftRadius => "border-bottom-left-radius"
    | .borderBottomRightRadius => "border-bottom-right-radius"
    | .borderBottomStyle => "border-bottom-style"
    | .borderBottomWidth => "border-bottom-width"
    | .borderCollapse => "border-collapse"
    | .borderColor => "border-color"
    | .borderLeft => "border-left"
    | .borderLeftColor => "border-left-color"
    | .borderLeftStyle => "border-left-style"
    | .borderLeftWidth => "border-left-width"
    | .borderRadius => "border-radius"
    | .borderRight => "border-right"
    | .borderRightColor => "border-right-color"
    | .borderRightStyle => "border-right-style"
    | .borderRightWidth => "border-right-width"
    | .borderSpacing => "border-spacing"
    | .borderStyle => "border-style"
    | .borderTop => "border-top"
    | .borderTopColor => "border-top-color"
    | .borderTopLeftRadius => "border-top-left-radius"
    | .borderTopRightRadius => "border-top-right-radius"
    | .borderTopStyle => "border-top-style"
    | .borderTopWidth => "border-top-width"
    | .borderWidth => "border-width"
    | .bottom => "bottom"
    | .boxShadow => "box-shadow"
    | .boxSizing => "box-sizing"
    | .clear => "clear"
    | .color => "color"
    | .columnGap => "column-gap"
    | .cursor => "cursor"
    | .direction => "direction"
    | .display => "display"
    | .flexBasis => "flex-basis"
    | .flexDirection => "flex-direction"
    | .flexGrow => "flex-grow"
    | .flexShrink => "flex-shrink"
    | .flexWrap => "flex-wrap"
    | .float => "float"
    | .fontFamily => "font-family"
    | .fontKerning => "font-kerning"
    | .fontSize => "font-size"
    | .fontStretch => "font-stretch"
    | .fontStyle => "font-style"
    | .fontVariantCaps => "font-variant-caps"
    | .fontWeight => "font-weight"
    | .gap => "gap"
    | .gridAutoColumns => "grid-auto-columns"
    | .gridAutoFlow => "grid-auto-flow"
    | .gridAutoRows => "grid-auto-rows"
    | .gridColumnEnd => "grid-column-end"
    | .gridColumnStart => "grid-column-start"
    | .gridRowEnd => "grid-row-end"
    | .gridRowStart => "grid-row-start"
    | .gridTemplateColumns => "grid-template-columns"
    | .gridTemplateRows => "grid-template-rows"
    | .height => "height"
    | .hyphens => "hyphens"
    | .inset => "inset"
    | .justifyContent => "justify-content"
    | .justifyItems => "justify-items"
    | .justifySelf => "justify-self"
    | .left => "left"
    | .letterSpacing => "letter-spacing"
    | .lineHeight => "line-height"
    | .listStyleImage => "list-style-image"
    | .listStylePosition => "list-style-position"
    | .listStyleType => "list-style-type"
    | .margin => "margin"
    | .marginBottom => "margin-bottom"
    | .marginLeft => "margin-left"
    | .marginRight => "margin-right"
    | .marginTop => "margin-top"
    | .maxHeight => "max-height"
    | .maxWidth => "max-width"
    | .minHeight => "min-height"
    | .minWidth => "min-width"
    | .mixBlendMode => "mix-blend-mode"
    | .objectFit => "object-fit"
    | .objectPosition => "object-position"
    | .opacity => "opacity"
    | .order => "order"
    | .outline => "outline"
    | .outlineColor => "outline-color"
    | .outlineOffset => "outline-offset"
    | .outlineStyle => "outline-style"
    | .outlineWidth => "outline-width"
    | .overflow => "overflow"
    | .overflowWrap => "overflow-wrap"
    | .overflowX => "overflow-x"
    | .overflowY => "overflow-y"
    | .padding => "padding"
    | .paddingBottom => "padding-bottom"
    | .paddingLeft => "padding-left"
    | .paddingRight => "padding-right"
    | .paddingTop => "padding-top"
    | .pointerEvents => "pointer-events"
    | .position => "position"
    | .right => "right"
    | .rowGap => "row-gap"
    | .textAlign => "text-align"
    | .textDecorationColor => "text-decoration-color"
    | .textDecorationLine => "text-decoration-line"
    | .textDecorationStyle => "text-decoration-style"
    | .textIndent => "text-indent"
    | .textOverflow => "text-overflow"
    | .textShadow => "text-shadow"
    | .textTransform => "text-transform"
    | .top => "top"
    | .transform => "transform"
    | .transformOrigin => "transform-origin"
    | .transitionDelay => "transition-delay"
    | .transitionDuration => "transition-duration"
    | .transitionProperty => "transition-property"
    | .transitionTimingFunction => "transition-timing-function"
    | .userSelect => "user-select"
    | .verticalAlign => "vertical-align"
    | .visibility => "visibility"
    | .whiteSpace => "white-space"
    | .width => "width"
    | .wordBreak => "word-break"
    | .wordSpacing => "word-spacing"
    | .writingMode => "writing-mode"
    | .zIndex => "z-index"

end Stylesheet
