import Stylesheet.Keyword
import Stylesheet.Name.Quoted
import Stylesheet.NonEmpty

/-! Font families. -/
namespace Stylesheet

inductive GenericFamily where
  | serif | sansSerif | monospace | cursive | fantasy | systemUi | uiSerif | uiSansSerif
  | uiMonospace | uiRounded | math | emoji | fangsong
  deriving DecidableEq

instance : Keyword GenericFamily where
  all := [.serif, .sansSerif, .monospace, .cursive, .fantasy, .systemUi, .uiSerif,
    .uiSansSerif, .uiMonospace, .uiRounded, .math, .emoji, .fangsong]
  keyword
    | .serif => "serif"
    | .sansSerif => "sans-serif"
    | .monospace => "monospace"
    | .cursive => "cursive"
    | .fantasy => "fantasy"
    | .systemUi => "system-ui"
    | .uiSerif => "ui-serif"
    | .uiSansSerif => "ui-sans-serif"
    | .uiMonospace => "ui-monospace"
    | .uiRounded => "ui-rounded"
    | .math => "math"
    | .emoji => "emoji"
    | .fangsong => "fangsong"

/-- A family that the system chooses, or one by its name. -/
abbrev FamilyName := GenericFamily ⊕ CssString

/-- Families in the order in which they are tried. -/
structure FamilyList where
  families : NonEmpty FamilyName
  deriving BEq

namespace FamilyList

def of (families : List FamilyName) : Result FamilyList :=
  return ⟨← NonEmpty.ofList "font-family" families⟩

instance : ToCss FamilyList := ⟨fun l => commaSeparated l.families.toList⟩

end FamilyList
end Stylesheet
