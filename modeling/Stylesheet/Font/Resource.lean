import Stylesheet.Keyword

/-! The formats of font files and what a font may need from the system. -/
namespace Stylesheet

/-- The container that the file of a font comes in. -/
inductive FontFormat where
  | collection | embeddedOpentype | opentype | svg | truetype | woff | woff2
  deriving DecidableEq

instance : Keyword FontFormat where
  all := [.collection, .embeddedOpentype, .opentype, .svg, .truetype, .woff, .woff2]
  keyword
    | .collection => "collection"
    | .embeddedOpentype => "embedded-opentype"
    | .opentype => "opentype"
    | .svg => "svg"
    | .truetype => "truetype"
    | .woff => "woff"
    | .woff2 => "woff2"

/-- What a font may need beyond its format. The names of color fonts keep the spelling of their
tables. -/
inductive FontTech where
  | featuresOpentype | featuresAat | featuresGraphite | colorColrv0 | colorColrv1 | colorSvg
  | colorSbix | colorCbdt | variations | palettes | incremental
  deriving DecidableEq

instance : Keyword FontTech where
  all := [.featuresOpentype, .featuresAat, .featuresGraphite, .colorColrv0, .colorColrv1,
    .colorSvg, .colorSbix, .colorCbdt, .variations, .palettes, .incremental]
  keyword
    | .featuresOpentype => "features-opentype"
    | .featuresAat => "features-aat"
    | .featuresGraphite => "features-graphite"
    | .colorColrv0 => "color-COLRv0"
    | .colorColrv1 => "color-COLRv1"
    | .colorSvg => "color-SVG"
    | .colorSbix => "color-sbix"
    | .colorCbdt => "color-CBDT"
    | .variations => "variations"
    | .palettes => "palettes"
    | .incremental => "incremental"

end Stylesheet
