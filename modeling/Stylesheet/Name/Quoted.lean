import Stylesheet.Text.Css
import Stylesheet.Text.Escape

/-! Strings and addresses, which are written in quotes. -/
namespace Stylesheet

/-- Any text, which is written in quotes with what needs it escaped. -/
structure CssString where
  text : String
  deriving DecidableEq

instance : ToCss CssString := ⟨fun s => quoteString s.text.toList⟩

/-- An address, which is quoted as a string is. -/
structure Url where
  address : String
  deriving DecidableEq

instance : ToCss Url := ⟨fun u => call "url" (quoteString u.address.toList)⟩

end Stylesheet
