import Stylesheet.Text.Css

/-! Closed vocabularies. -/
namespace Stylesheet

/-- A type whose values are keywords; `all` lists them in their standard order. -/
class Keyword (α : Type) where
  all : List α
  keyword : α → String

instance {α : Type} [Keyword α] : ToCss α := ⟨fun a => (Keyword.keyword a).toList⟩

/-- One of the given words. -/
structure Choice (words : List String) where
  word : String
  word_mem : word ∈ words
  deriving DecidableEq

instance {words : List String} : ToCss (Choice words) := ⟨fun c => c.word.toList⟩

/-- The keyword `word`, or a value. -/
inductive OrKeyword (word : String) (α : Type) where
  | keyword
  | value (a : α)
  deriving BEq

instance {word : String} {α : Type} [ToCss α] : ToCss (OrKeyword word α) where
  css
    | .keyword => word.toList
    | .value a => css a

abbrev OrAuto := OrKeyword "auto"

abbrev OrNone := OrKeyword "none"

abbrev OrNormal := OrKeyword "normal"

/-- Items with `separator` between them, or the word `none` when there are none. -/
structure ListOrNone (separator : String) (α : Type) where
  items : List α
  deriving BEq

instance {separator : String} {α : Type} [ToCss α] : ToCss (ListOrNone separator α) where
  css
    | ⟨[]⟩ => "none".toList
    | ⟨items⟩ => separated separator items

end Stylesheet
