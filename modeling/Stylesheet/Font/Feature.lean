import Stylesheet.Font.Face

/-! Names for the features of a font family. -/
namespace Stylesheet

/-- The kinds of glyph variants that a font may number. -/
inductive FeatureKind where
  | stylistic | historicalForms | styleset | characterVariant | swash | ornaments
  | annotationForms
  deriving DecidableEq

instance : Keyword FeatureKind where
  all := [.stylistic, .historicalForms, .styleset, .characterVariant, .swash, .ornaments,
    .annotationForms]
  keyword
    | .stylistic => "stylistic"
    | .historicalForms => "historical-forms"
    | .styleset => "styleset"
    | .characterVariant => "character-variant"
    | .swash => "swash"
    | .ornaments => "ornaments"
    | .annotationForms => "annotation"

/-- Names for the variants of one kind, each with its numbers. -/
structure FeatureBlock where
  kind : FeatureKind
  values : Descriptors
  deriving DecidableEq

namespace FeatureBlock

/-- A block without names yet. -/
def of (kind : FeatureKind) : FeatureBlock := ⟨kind, .empty⟩

/-- Gives a name to feature indices. -/
def withValue (b : FeatureBlock) (name : CustomIdent) : List Nat → Result FeatureBlock
  | [] => .error (.emptyList "feature value indices")
  | indices => .ok {b with values := b.values.setText (css name) (css (⟨indices⟩ : Listed " " Nat))}

instance : ToCss FeatureBlock := ⟨fun b => '@' :: css b.kind ++ ' ' :: css b.values⟩

end FeatureBlock

/-- What the blocks say holds for the families at the head of the rule. -/
structure FontFeatureValuesRule where
  families : NonEmpty CssString
  descriptors : Descriptors
  blocks : List FeatureBlock
  deriving BEq

namespace FontFeatureValuesRule

/-- The list of families has to have a first member. -/
def of (families : List String) : Result FontFeatureValuesRule :=
  return ⟨← NonEmpty.ofList "@font-feature-values family list" (families.map CssString.mk),
    .empty, []⟩

def withDisplay (r : FontFeatureValuesRule) (display : FontDisplay) : FontFeatureValuesRule :=
  {r with descriptors := r.descriptors.set "font-display" display}

/-- A block takes the place of one of its kind. -/
def withBlock (r : FontFeatureValuesRule) (b : FeatureBlock) : FontFeatureValuesRule :=
  {r with blocks := replaceOrAppend (·.kind == b.kind) b r.blocks}

instance : ToCss FontFeatureValuesRule where
  css r :=
    "@font-feature-values ".toList ++ commaSeparated r.families.toList ++
      ' ' :: blockText (r.descriptors.parts ++ r.blocks.map css)

end FontFeatureValuesRule
end Stylesheet
