import Stylesheet.Declaration.Descriptors

/-! Registering a property that the author defines. -/
namespace Stylesheet

/-- The types a registered value can have. -/
inductive DataType where
  | length | number | percentage | lengthPercentage | color | image | url | integer | angle
  | time | resolution | transformFunction | transformList | customIdent | string
  deriving DecidableEq

instance : Keyword DataType where
  all := [.length, .number, .percentage, .lengthPercentage, .color, .image, .url, .integer,
    .angle, .time, .resolution, .transformFunction, .transformList, .customIdent, .string]
  keyword
    | .length => "<length>"
    | .number => "<number>"
    | .percentage => "<percentage>"
    | .lengthPercentage => "<length-percentage>"
    | .color => "<color>"
    | .image => "<image>"
    | .url => "<url>"
    | .integer => "<integer>"
    | .angle => "<angle>"
    | .time => "<time>"
    | .resolution => "<resolution>"
    | .transformFunction => "<transform-function>"
    | .transformList => "<transform-list>"
    | .customIdent => "<custom-ident>"
    | .string => "<string>"

/-- Whether a value is a list, and how its items are separated. -/
inductive Multiplier where
  | spaceList | commaList
  deriving DecidableEq

instance : Keyword Multiplier where
  all := [.spaceList, .commaList]
  keyword
    | .spaceList => "+"
    | .commaList => "#"

inductive GrammarTerm where
  | type (type : DataType) (multiplier : Option Multiplier)
  | ident (name : CustomIdent) (multiplier : Option Multiplier)
  deriving DecidableEq

instance : ToCss GrammarTerm where
  css
    | .type type multiplier => css type ++ clause "" multiplier
    | .ident name multiplier => css name ++ clause "" multiplier

/-- What a registered property accepts: anything at all, or one of some alternatives. -/
inductive ValueGrammar where
  | universal
  | alternatives (terms : NonEmpty GrammarTerm)
  deriving BEq

namespace ValueGrammar

def ofTerms (terms : List GrammarTerm) : Result ValueGrammar :=
  return alternatives (← NonEmpty.ofList "syntax" terms)

/-- The grammar before it is quoted. -/
def plain : ValueGrammar → List Char
  | universal => ['*']
  | alternatives terms => separated " | " terms.toList

instance : ToCss ValueGrammar := ⟨fun g => quoteString g.plain⟩

end ValueGrammar

/-- Whether a value is passed on to the elements inside. -/
structure Inherits where
  inherits : Bool

instance : ToCss Inherits := ⟨fun i => if i.inherits then "true".toList else "false".toList⟩

structure PropertyRule where
  name : DashedIdent
  descriptors : Descriptors
  deriving DecidableEq

namespace PropertyRule

def of (name : DashedIdent) (grammar : ValueGrammar) (inherits : Bool) : PropertyRule :=
  ⟨name, (Descriptors.empty.set "syntax" grammar).set "inherits" (⟨inherits⟩ : Inherits)⟩

def withInitialValue {α : Type} [ToCss α] (r : PropertyRule) (value : α) : PropertyRule :=
  {r with descriptors := r.descriptors.set "initial-value" value}

instance : ToCss PropertyRule where
  css r := "@property ".toList ++ css r.name ++ ' ' :: css r.descriptors

end PropertyRule
end Stylesheet
