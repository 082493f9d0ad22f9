import Stylesheet.Keyword

/-! The colors that have names, and those that the system chooses. -/
namespace Stylesheet

/-- Colors with a fixed value. -/
inductive NamedColor where
  | aliceBlue | antiqueWhite | aqua | aquaMarine | azure | beige | bisque | black
  | blanchedAlmond | blue | blueViolet | brown | burlyWood | cadetBlue | chartreuse | chocolate
  | coral | cornflowerBlue | cornsilk | crimson | cyan | darkBlue | darkCyan | darkGoldenrod
  | darkGray | darkGreen | darkGrey | darkKhaki | darkMagenta | darkOliveGreen | darkOrange
  | darkOrchid | darkRed | darkSalmon | darkSeaGreen | darkSlateBlue | darkSlateGray
  | darkSlateGrey | darkTurquoise | darkViolet | deepPink | deepSkyBlue | dimGray | dimGrey
  | dodgerBlue | fireBrick | floralWhite | forestGreen | fuchsia | gainsboro | ghostWhite
  | gold | goldenrod | gray | green | greenYellow | grey | honeydew | hotPink | indianRed
  | indigo | ivory | khaki | lavender | lavenderBlush | lawnGreen | lemonChiffon | lightBlue
  | lightCoral | lightCyan | lightGoldenrodYellow | lightGray | lightGreen | lightGrey
  | lightPink | lightSalmon | lightSeaGreen | lightSkyBlue | lightSlateGray | lightSlateGrey
  | lightSteelBlue | lightYellow | lime | limeGreen | linen | magenta | maroon
  | mediumAquaMarine | mediumBlue | mediumOrchid | mediumPurple | mediumSeaGreen
  | mediumSlateBlue | mediumSpringGreen | mediumTurquoise | mediumVioletRed | midnightBlue
  | mintCream | mistyRose | moccasin | navajoWhite | navy | oldLace | olive | oliveDrab
  | orange | orangeRed | orchid | paleGoldenrod | paleGreen | paleTurquoise | paleVioletRed
  | papayaWhip | peachPuff | peru | pink | plum | powderBlue | purple | rebeccaPurple | red
  | rosyBrown | royalBlue | saddleBrown | salmon | sandyBrown | seaGreen | seaShell | sienna
  | silver | skyBlue | slateBlue | slateGray | slateGrey | snow | springGreen | steelBlue | tan
  | teal | thistle | tomato | turquoise | violet | wheat | white | whiteSmoke | yellow
  | yellowGreen
  deriving DecidableEq

instance : Keyword NamedColor where
  all := [.aliceBlue, .antiqueWhite, .aqua, .aquaMarine, .azure, .beige, .bisque, .black,
    .blanchedAlmond, .blue, .blueViolet, .brown, .burlyWood, .cadetBlue, .chartreuse,
    .chocolate, .coral, .cornflowerBlue, .cornsilk, .crimson, .cyan, .darkBlue, .darkCyan,
    .darkGoldenrod, .darkGray, .darkGreen, .darkGrey, .darkKhaki, .darkMagenta,
    .darkOliveGreen, .darkOrange, .darkOrchid, .darkRed, .darkSalmon, .darkSeaGreen,
    .darkSlateBlue, .darkSlateGray, .darkSlateGrey, .darkTurquoise, .darkViolet, .deepPink,
    .deepSkyBlue, .dimGray, .dimGrey, .dodgerBlue, .fireBrick, .floralWhite, .forestGreen,
    .fuchsia, .gainsboro, .ghostWhite, .gold, .goldenrod, .gray, .green, .greenYellow, .grey,
    .honeydew, .hotPink, .indianRed, .indigo, .ivory, .khaki, .lavender, .lavenderBlush,
    .lawnGreen, .lemonChiffon, .lightBlue, .lightCoral, .lightCyan, .lightGoldenrodYellow,
    .lightGray, .lightGreen, .lightGrey, .lightPink, .lightSalmon, .lightSeaGreen,
    .lightSkyBlue, .lightSlateGray, .lightSlateGrey, .lightSteelBlue, .lightYellow, .lime,
    .limeGreen, .linen, .magenta, .maroon, .mediumAquaMarine, .mediumBlue, .mediumOrchid,
    .mediumPurple, .mediumSeaGreen, .mediumSlateBlue, .mediumSpringGreen, .mediumTurquoise,
    .mediumVioletRed, .midnightBlue, .mintCream, .mistyRose, .moccasin, .navajoWhite, .navy,
    .oldLace, .olive, .oliveDrab, .orange, .orangeRed, .orchid, .paleGoldenrod, .paleGreen,
    .paleTurquoise, .paleVioletRed, .papayaWhip, .peachPuff, .peru, .pink, .plum, .powderBlue,
    .purple, .rebeccaPurple, .red, .rosyBrown, .royalBlue, .saddleBrown, .salmon, .sandyBrown,
    .seaGreen, .seaShell, .sienna, .silver, .skyBlue, .slateBlue, .slateGray, .slateGrey,
    .snow, .springGreen, .steelBlue, .tan, .teal, .thistle, .tomato, .turquoise, .violet,
    .wheat, .white, .whiteSmoke, .yellow, .yellowGreen]
  keyword
    | .aliceBlue => "aliceblue"
    | .antiqueWhite => "antiquewhite"
    | .aqua => "aqua"
    | .aquaMarine => "aquamarine"
    | .azure => "azure"
    | .beige => "beige"
    | .bisque => "bisque"
    | .black => "black"
    | .blanchedAlmond => "blanchedalmond"
    | .blue => "blue"
    | .blueViolet => "blueviolet"
    | .brown => "brown"
    | .burlyWood => "burlywood"
    | .cadetBlue => "cadetblue"
    | .chartreuse => "chartreuse"
    | .chocolate => "chocolate"
    | .coral => "coral"
    | .cornflowerBlue => "cornflowerblue"
    | .cornsilk => "cornsilk"
    | .crimson => "crimson"
    | .cyan => "cyan"
    | .darkBlue => "darkblue"
    | .darkCyan => "darkcyan"
    | .darkGoldenrod => "darkgoldenrod"
    | .darkGray => "darkgray"
    | .darkGreen => "darkgreen"
    | .darkGrey => "darkgrey"
    | .darkKhaki => "darkkhaki"
    | .darkMagenta => "darkmagenta"
    | .darkOliveGreen => "darkolivegreen"
    | .darkOrange => "darkorange"
    | .darkOrchid => "darkorchid"
    | .darkRed => "darkred"
    | .darkSalmon => "darksalmon"
    | .darkSeaGreen => "darkseagreen"
    | .darkSlateBlue => "darkslateblue"
    | .darkSlateGray => "darkslategray"
    | .darkSlateGrey => "darkslategrey"
    | .darkTurquoise => "darkturquoise"
    | .darkViolet => "darkviolet"
    | .deepPink => "deeppink"
    | .deepSkyBlue => "deepskyblue"
    | .dimGray => "dimgray"
    | .dimGrey => "dimgrey"
    | .dodgerBlue => "dodgerblue"
    | .fireBrick => "firebrick"
    | .floralWhite => "floralwhite"
    | .forestGreen => "forestgreen"
    | .fuchsia => "fuchsia"
    | .gainsboro => "gainsboro"
    | .ghostWhite => "ghostwhite"
    | .gold => "gold"
    | .goldenrod => "goldenrod"
    | .gray => "gray"
    | .green => "green"
    | .greenYellow => "greenyellow"
    | .grey => "grey"
    | .honeydew => "honeydew"
    | .hotPink => "hotpink"
    | .indianRed => "indianred"
    | .indigo => "indigo"
    | .ivory => "ivory"
    | .khaki => "khaki"
    | .lavender => "lavender"
    | .lavenderBlush => "lavenderblush"
    | .lawnGreen => "lawngreen"
    | .lemonChiffon => "lemonchiffon"
    | .lightBlue => "lightblue"
    | .lightCoral => "lightcoral"
    | .lightCyan => "lightcyan"
    | .lightGoldenrodYellow => "lightgoldenrodyellow"
    | .lightGray => "lightgray"
    | .lightGreen => "lightgreen"
    | .lightGrey => "lightgrey"
    | .lightPink => "lightpink"
    | .lightSalmon => "lightsalmon"
    | .lightSeaGreen => "lightseagreen"
    | .lightSkyBlue => "lightskyblue"
    | .lightSlateGray => "lightslategray"
    | .lightSlateGrey => "lightslategrey"
    | .lightSteelBlue => "lightsteelblue"
    | .lightYellow => "lightyellow"
    | .lime => "lime"
    | .limeGreen => "limegreen"
    | .linen => "linen"
    | .magenta => "magenta"
    | .maroon => "maroon"
    | .mediumAquaMarine => "mediumaquamarine"
    | .mediumBlue => "mediumblue"
    | .mediumOrchid => "mediumorchid"
    | .mediumPurple => "mediumpurple"
    | .mediumSeaGreen => "mediumseagreen"
    | .mediumSlateBlue => "mediumslateblue"
    | .mediumSpringGreen => "mediumspringgreen"
    | .mediumTurquoise => "mediumturquoise"
    | .mediumVioletRed => "mediumvioletred"
    | .midnightBlue => "midnightblue"
    | .mintCream => "mintcream"
    | .mistyRose => "mistyrose"
    | .moccasin => "moccasin"
    | .navajoWhite => "navajowhite"
    | .navy => "navy"
    | .oldLace => "oldlace"
    | .olive => "olive"
    | .oliveDrab => "olivedrab"
    | .orange => "orange"
    | .orangeRed => "orangered"
    | .orchid => "orchid"
    | .paleGoldenrod => "palegoldenrod"
    | .paleGreen => "palegreen"
    | .paleTurquoise => "paleturquoise"
    | .paleVioletRed => "palevioletred"
    | .papayaWhip => "papayawhip"
    | .peachPuff => "peachpuff"
    | .peru => "peru"
    | .pink => "pink"
    | .plum => "plum"
    | .powderBlue => "powderblue"
    | .purple => "purple"
    | .rebeccaPurple => "rebeccapurple"
    | .red => "red"
    | .rosyBrown => "rosybrown"
    | .royalBlue => "royalblue"
    | .saddleBrown => "saddlebrown"
    | .salmon => "salmon"
    | .sandyBrown => "sandybrown"
    | .seaGreen => "seagreen"
    | .seaShell => "seashell"
    | .sienna => "sienna"
    | .silver => "silver"
    | .skyBlue => "skyblue"
    | .slateBlue => "slateblue"
    | .slateGray => "slategray"
    | .slateGrey => "slategrey"
    | .snow => "snow"
    | .springGreen => "springgreen"
    | .steelBlue => "steelblue"
    | .tan => "tan"
    | .teal => "teal"
    | .thistle => "thistle"
    | .tomato => "tomato"
    | .turquoise => "turquoise"
    | .violet => "violet"
    | .wheat => "wheat"
    | .white => "white"
    | .whiteSmoke => "whitesmoke"
    | .yellow => "yellow"
    | .yellowGreen => "yellowgreen"

/-- Colors that are taken from the reader's system. -/
inductive SystemColor where
  | accentColor | accentColorText | activeText | buttonBorder | buttonFace | buttonText
  | canvas | canvasText | field | fieldText | grayText | highlight | highlightText | linkText
  | mark | markText | selectedItem | selectedItemText | visitedText
  deriving DecidableEq

instance : Keyword SystemColor where
  all := [.accentColor, .accentColorText, .activeText, .buttonBorder, .buttonFace, .buttonText,
    .canvas, .canvasText, .field, .fieldText, .grayText, .highlight, .highlightText, .linkText,
    .mark, .markText, .selectedItem, .selectedItemText, .visitedText]
  keyword
    | .accentColor => "accentcolor"
    | .accentColorText => "accentcolortext"
    | .activeText => "activetext"
    | .buttonBorder => "buttonborder"
    | .buttonFace => "buttonface"
    | .buttonText => "buttontext"
    | .canvas => "canvas"
    | .canvasText => "canvastext"
    | .field => "field"
    | .fieldText => "fieldtext"
    | .grayText => "graytext"
    | .highlight => "highlight"
    | .highlightText => "highlighttext"
    | .linkText => "linktext"
    | .mark => "mark"
    | .markText => "marktext"
    | .selectedItem => "selecteditem"
    | .selectedItemText => "selecteditemtext"
    | .visitedText => "visitedtext"

end Stylesheet
