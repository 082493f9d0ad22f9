import Stylesheet.NonEmpty
import Stylesheet.Query.Feature

/-! Media queries.

A query names a kind of device, features that it must have, or both, behind any number
of modifiers. Queries are listed as alternatives. A feature is added to the last query
of a list, a modifier in front of the first. -/
namespace Stylesheet

/-- The kind of device. -/
inductive MediaType where
  | all | screen | print
  deriving DecidableEq

instance : Keyword MediaType where
  all := [.all, .screen, .print]
  keyword
    | .all => "all"
    | .screen => "screen"
    | .print => "print"

/-- A word in front of a query. It may be put there more than once. -/
inductive MediaModifier where
  | not | only
  deriving DecidableEq

instance : Keyword MediaModifier where
  all := [.not, .only]
  keyword
    | .not => "not"
    | .only => "only"

/-- Whether the reader can point without pressing. -/
inductive Hover where
  | none | hover
  deriving DecidableEq

instance : Keyword Hover where
  all := [.none, .hover]
  keyword
    | .none => "none"
    | .hover => "hover"

/-- How well the reader can point. -/
inductive Pointer where
  | none | coarse | fine
  deriving DecidableEq

instance : Keyword Pointer where
  all := [.none, .coarse, .fine]
  keyword
    | .none => "none"
    | .coarse => "coarse"
    | .fine => "fine"

/-- Whether the reader wants a bright page or a dark one. -/
inductive ColorScheme where
  | light | dark
  deriving DecidableEq

instance : Keyword ColorScheme where
  all := [.light, .dark]
  keyword
    | .light => "light"
    | .dark => "dark"

/-- Whether the reader wants less of something. -/
inductive ReducePreference where
  | noPreference | reduce
  deriving DecidableEq

instance : Keyword ReducePreference where
  all := [.noPreference, .reduce]
  keyword
    | .noPreference => "no-preference"
    | .reduce => "reduce"

/-- How much contrast the reader wants. -/
inductive ContrastPreference where
  | noPreference | more | less | custom
  deriving DecidableEq

instance : Keyword ContrastPreference where
  all := [.noPreference, .more, .less, .custom]
  keyword
    | .noPreference => "no-preference"
    | .more => "more"
    | .less => "less"
    | .custom => "custom"

/-- Whether the system chooses the colors. -/
inductive ForcedColors where
  | none | active
  deriving DecidableEq

instance : Keyword ForcedColors where
  all := [.none, .active]
  keyword
    | .none => "none"
    | .active => "active"

/-- How the page is shown: in a browser, or as a program of its own. -/
inductive DisplayMode where
  | fullscreen | standalone | minimalUi | browser | pictureInPicture
  deriving DecidableEq

instance : Keyword DisplayMode where
  all := [.fullscreen, .standalone, .minimalUi, .browser, .pictureInPicture]
  keyword
    | .fullscreen => "fullscreen"
    | .standalone => "standalone"
    | .minimalUi => "minimal-ui"
    | .browser => "browser"
    | .pictureInPicture => "picture-in-picture"

/-- What a device may be asked. -/
inductive MediaFeature where
  | width (bound : Bound) (value : Length)
  | height (bound : Bound) (value : Length)
  | aspectRatio (bound : Bound) (value : Ratio)
  | resolution (bound : Bound) (value : Resolution)
  | orientation (value : Orientation)
  /-- Bits per color component. -/
  | color (bits : Option Nat)
  | minColor (bits : Nat)
  | monochrome (bits : Option Nat)
  | hover (value : Hover)
  | anyHover (value : Hover)
  | pointer (value : Pointer)
  | anyPointer (value : Pointer)
  | prefersColorScheme (value : ColorScheme)
  | prefersReducedMotion (value : ReducePreference)
  | prefersReducedTransparency (value : ReducePreference)
  | prefersReducedData (value : ReducePreference)
  | prefersContrast (value : ContrastPreference)
  | forcedColors (value : ForcedColors)
  | displayMode (value : DisplayMode)
  | range (test : RangeTest)
  deriving BEq

namespace MediaFeature

/-- What is tested: a feature by its name, or a range. -/
def content : MediaFeature → NamedTest ⊕ RangeTest
  | width bound value => .inl (.bounded bound "width" value)
  | height bound value => .inl (.bounded bound "height" value)
  | aspectRatio bound value => .inl (.bounded bound "aspect-ratio" value)
  | resolution bound value => .inl (.bounded bound "resolution" value)
  | orientation value => .inl (.exact "orientation" value)
  | color bits => .inl ⟨"color".toList, bits.map css⟩
  | minColor bits => .inl (.bounded .atLeast "color" bits)
  | monochrome bits => .inl ⟨"monochrome".toList, bits.map css⟩
  | hover value => .inl (.exact "hover" value)
  | anyHover value => .inl (.exact "any-hover" value)
  | pointer value => .inl (.exact "pointer" value)
  | anyPointer value => .inl (.exact "any-pointer" value)
  | prefersColorScheme value => .inl (.exact "prefers-color-scheme" value)
  | prefersReducedMotion value => .inl (.exact "prefers-reduced-motion" value)
  | prefersReducedTransparency value => .inl (.exact "prefers-reduced-transparency" value)
  | prefersReducedData value => .inl (.exact "prefers-reduced-data" value)
  | prefersContrast value => .inl (.exact "prefers-contrast" value)
  | forcedColors value => .inl (.exact "forced-colors" value)
  | displayMode value => .inl (.exact "display-mode" value)
  | range test => .inr test

/-- Range tests have no name. -/
def name? (f : MediaFeature) : Option (List Char) := f.content.getLeft?.map NamedTest.name

instance : ToCss MediaFeature := ⟨fun f => css f.content⟩

end MediaFeature

/-- A query. It names a device or a feature, or both. -/
structure MediaQuery where
  modifiers : List MediaModifier
  type : Option MediaType
  features : List MediaFeature
  deriving BEq

namespace MediaQuery

/-- The kind of device and the features, in the order in which they are written. -/
def terms (q : MediaQuery) : List (List Char) :=
  (q.type.map css).toList ++ q.features.map css

instance : ToCss MediaQuery where
  css q := q.modifiers.flatMap (css · ++ [' ']) ++ joined " and ".toList q.terms

end MediaQuery

/-- Alternatives, of which there is always one. -/
structure Media where
  queries : NonEmpty MediaQuery
  deriving BEq

namespace Media

/-- A query for a kind of device. -/
def ofType (type : MediaType) : Media := ⟨.single ⟨[], some type, []⟩⟩

/-- A query for a feature alone. -/
def ofFeature (feature : MediaFeature) : Media := ⟨.single ⟨[], none, [feature]⟩⟩

/-- One more feature for the last alternative. -/
def and (m : Media) (feature : MediaFeature) : Media :=
  ⟨m.queries.modifyLast fun q => {q with features := q.features ++ [feature]}⟩

/-- The alternatives of both. -/
def or (m n : Media) : Media := ⟨m.queries.append n.queries⟩

/-- A word in front of the first alternative, before those that are there. -/
def modify (m : Media) (modifier : MediaModifier) : Media :=
  ⟨m.queries.modifyFirst fun q => {q with modifiers := modifier :: q.modifiers}⟩

def not (m : Media) : Media := m.modify .not

def only (m : Media) : Media := m.modify .only

/-! The operators `m &&& feature`, `m ||| n` and `~~~m`. -/

instance : HAnd Media MediaFeature Media := ⟨and⟩

instance : OrOp Media := ⟨or⟩

instance : Complement Media := ⟨fun m => m.modify .not⟩

/-- The list of queries, as it stands behind the name of a rule. -/
def list (m : Media) : List Char := commaSeparated m.queries.toList

instance : ToCss Media := ⟨fun m => "@media ".toList ++ m.list⟩

end Media
end Stylesheet
