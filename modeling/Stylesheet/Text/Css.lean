/-! Values and their CSS text.

A text is a list of characters, and the text of a value is put together from the texts
of its parts. -/
namespace Stylesheet

/-- Values that have a CSS text. -/
class ToCss (α : Type) where
  css : α → List Char

export ToCss (css)

variable {α β : Type}

def cssString [ToCss α] (a : α) : String := String.ofList (css a)

/-- The texts in order, with `separator` between neighbours. -/
def joined (separator : List Char) : List (List Char) → List Char
  | [] => []
  | [text] => text
  | text :: texts => text ++ separator ++ joined separator texts

def separated [ToCss α] (separator : String) (items : List α) : List Char :=
  joined separator.toList (items.map css)

def commaSeparated [ToCss α] (items : List α) : List Char := separated ", " items

/-- Functional notation, `name(arguments)`. -/
def call (name : String) (arguments : List Char) : List Char :=
  name.toList ++ '(' :: arguments ++ [')']

/-- A part that may be missing, after what introduces it. -/
def clause [ToCss α] (lead : String) : Option α → List Char
  | some a => lead.toList ++ css a
  | none => []

instance [ToCss α] [ToCss β] : ToCss (α ⊕ β) := ⟨Sum.elim css css⟩

end Stylesheet
