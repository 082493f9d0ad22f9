import Stylesheet.Property.Basic

/-! Declarations and the blocks that hold them.

A declaration holds the texts of its name and value. A block keeps every declaration it
is given, in order and with repetitions, since a later one may be there as a fallback. -/
namespace Stylesheet

/-- The texts of a name and of a value, and whether the declaration is important. -/
structure Declaration where
  name : List Char
  value : List Char
  important : Bool
  deriving DecidableEq

namespace Declaration

/-- A declaration of a property that the author defines, with any value. -/
def custom {α : Type} [ToCss α] (name : DashedIdent) (value : α) : Declaration :=
  ⟨css name, css value, false⟩

/-- The same declaration, marked as important. -/
def withImportance (d : Declaration) : Declaration := {d with important := true}

/-- The same declaration without the mark. -/
def withoutImportance (d : Declaration) : Declaration := {d with important := false}

instance : ToCss Declaration where
  css d := d.name ++ ':' :: d.value ++ if d.important then "!important".toList else []

end Declaration

/-- A property as a declaration, which is not important until it is said to be. -/
def Property.declaration (p : Property) : Declaration := ⟨css p.name, css p.value, false⟩

/-- Parts between braces, each behind a space. -/
def blockText (parts : List (List Char)) : List Char :=
  '\x7b' :: parts.flatMap (' ' :: ·) ++ " \x7d".toList

/-- A declaration as a part of a block. -/
def Declaration.entry (d : Declaration) : List Char := css d ++ [';']

/-- Declarations in the order in which they were added. -/
structure DeclarationBlock where
  declarations : List Declaration
  deriving DecidableEq

namespace DeclarationBlock

/-- A block of nothing, which is a pair of braces as a text. -/
def empty : DeclarationBlock := ⟨[]⟩

/-- A declaration of any kind at the end. -/
def push (b : DeclarationBlock) (d : Declaration) : DeclarationBlock := ⟨b.declarations ++ [d]⟩

/-- A property at the end. -/
def declare (b : DeclarationBlock) (p : Property) : DeclarationBlock := b.push p.declaration

instance : ToCss DeclarationBlock := ⟨fun b => blockText (b.declarations.map Declaration.entry)⟩

end DeclarationBlock
end Stylesheet
