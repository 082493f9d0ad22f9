import Stylesheet.Declaration.Descriptors
import Stylesheet.Font.Resource

/-! Font faces and where they come from. -/
namespace Stylesheet

/-- What is shown while a font is on its way. -/
inductive FontDisplay where
  | auto | block | swap | fallback | optional
  deriving DecidableEq

instance : Keyword FontDisplay where
  all := [.auto, .block, .swap, .fallback, .optional]
  keyword
    | .auto => "auto"
    | .block => "block"
    | .swap => "swap"
    | .fallback => "fallback"
    | .optional => "optional"

/-- Where the files of a font are found. -/
inductive FontSource where
  | url (url : Url) (format : Option FontFormat) (tech : List FontTech)
  /-- A font of the reader's own. -/
  | installed (name : CssString)
  deriving DecidableEq

namespace FontSource

/-- An address alone, without a hint what is found there. -/
def ofUrl (address : String) : FontSource := url ⟨address⟩ none []

/-- An installed font needs no hint and takes none. -/
def withFormat : FontSource → FontFormat → FontSource
  | url u _ tech, format => url u (some format) tech
  | installed name, _ => installed name

/-- An installed font needs no hint and takes none. -/
def withTech : FontSource → FontTech → FontSource
  | url u format tech, t => url u format (tech ++ [t])
  | installed name, _ => installed name

/-- The format stands in quotes, although it is a keyword. -/
def formatText (f : FontFormat) : List Char := " format(".toList ++ quoteString (css f) ++ [')']

/-- Without technologies there is no hint at all. -/
def techText : List FontTech → List Char
  | [] => []
  | tech => " tech(".toList ++ commaSeparated tech ++ [')']

instance : ToCss FontSource where
  css
    | url u format tech => css u ++ (format.map formatText).getD [] ++ techText tech
    | installed name => call "local" (css name)

end FontSource

/-- The characters from `first` to `last`. -/
structure UnicodeRange where
  first : Nat
  last : Nat
  first_le_last : first ≤ last
  last_le : last ≤ 0x10ffff
  deriving DecidableEq

namespace UnicodeRange

/-- The code points of a range have to be in order and within Unicode. -/
def of (first last : Nat) : Result UnicodeRange :=
  if h : first ≤ last ∧ last ≤ 0x10ffff then .ok ⟨first, last, h.1, h.2⟩
  else .error (.invalidUnicodeRange first last)

/-- One code point, as the range from it to itself. -/
def single (c : Nat) : Result UnicodeRange := of c c

/-- A range of one code point is written without its end. -/
instance : ToCss UnicodeRange where
  css r :=
    "U+".toList ++ upperHex r.first ++ if r.last = r.first then [] else '-' :: upperHex r.last

end UnicodeRange

/-- A rule that makes a font known under a name. Its descriptors hold one value each. -/
structure FontFaceRule where
  descriptors : Descriptors
  deriving DecidableEq

namespace FontFaceRule

def set {α : Type} [ToCss α] (r : FontFaceRule) (name : String) (value : α) : FontFaceRule :=
  ⟨r.descriptors.set name value⟩

/-- A descriptor whose value is a list. -/
def setList {α : Type} [ToCss α] (r : FontFaceRule) (name : String) (values : List α) :
    FontFaceRule :=
  r.set name (⟨values⟩ : Listed ", " α)

/-- A font needs a family and at least one source, and has both from the start. -/
def of (family : String) : List FontSource → Result FontFaceRule
  | [] => .error (.emptyList "@font-face src")
  | sources => .ok (((⟨.empty⟩ : FontFaceRule).set "font-family" (⟨family⟩ : CssString)).setList
      "src" sources)

def withStyle (r : FontFaceRule) (style : FontStyle) : FontFaceRule := r.set "font-style" style

def withWeight (r : FontFaceRule) (weight : FontWeight) : FontFaceRule :=
  r.set "font-weight" weight

/-- The weights that a variable font covers. -/
def withWeightRange (r : FontFaceRule) (least most : FontWeight) : FontFaceRule :=
  r.set "font-weight" (⟨least, most⟩ : Pair FontWeight)

def withStretch (r : FontFaceRule) (stretch : FontStretch) : FontFaceRule :=
  r.set "font-stretch" stretch

def withDisplay (r : FontFaceRule) (display : FontDisplay) : FontFaceRule :=
  r.set "font-display" display

def withUnicodeRange (r : FontFaceRule) : List UnicodeRange → Result FontFaceRule
  | [] => .error (.emptyList "unicode-range")
  | ranges => .ok (r.setList "unicode-range" ranges)

def withSizeAdjust (r : FontFaceRule) (p : NonNegative Percentage) : FontFaceRule :=
  r.set "size-adjust" p

def withAscentOverride (r : FontFaceRule) (p : NonNegative Percentage) : FontFaceRule :=
  r.set "ascent-override" p

def withDescentOverride (r : FontFaceRule) (p : NonNegative Percentage) : FontFaceRule :=
  r.set "descent-override" p

def withLineGapOverride (r : FontFaceRule) (p : NonNegative Percentage) : FontFaceRule :=
  r.set "line-gap-override" p

instance : ToCss FontFaceRule := ⟨fun r => "@font-face ".toList ++ css r.descriptors⟩

end FontFaceRule
end Stylesheet
