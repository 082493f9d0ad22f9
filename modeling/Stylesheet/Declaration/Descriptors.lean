import Stylesheet.Declaration.Basic

/-! Blocks in which every name stands once.

An entry under a name that is already there takes the place of the one before it; an
entry under a new name comes last. -/
namespace Stylesheet

/-- Puts `a` in the place of the first item that it `replaces`, or at the end. -/
def replaceOrAppend {α : Type} (replaces : α → Bool) (a : α) : List α → List α
  | [] => [a]
  | b :: bs => if replaces b then a :: bs else b :: replaceOrAppend replaces a bs

/-- A block with one entry for a name. Only building it by `insert` keeps it so. -/
structure Descriptors where
  entries : List Declaration
  deriving DecidableEq

namespace Descriptors

/-- A block without entries. -/
def empty : Descriptors := ⟨[]⟩

/-- Replaces the entry of the same name, or adds one. -/
def insert (ds : Descriptors) (d : Declaration) : Descriptors :=
  ⟨replaceOrAppend (·.name == d.name) d ds.entries⟩

/-- An entry from the texts of a name and a value. The name is taken as it is. -/
def setText (ds : Descriptors) (name value : List Char) : Descriptors :=
  ds.insert ⟨name, value, false⟩

/-- An entry from a value, by its text. -/
def set {α : Type} [ToCss α] (ds : Descriptors) (name : String) (value : α) : Descriptors :=
  ds.setText name.toList (css value)

/-- An entry from a property, under the name of the property. -/
def declare (ds : Descriptors) (p : Property) : Descriptors := ds.insert p.declaration

/-- The entry under a name, if there is one. -/
def get? (ds : Descriptors) (name : List Char) : Option Declaration :=
  ds.entries.find? (·.name == name)

/-- How many names there are. -/
def length (ds : Descriptors) : Nat := ds.entries.length

/-- The entries as parts of a block. -/
def parts (ds : Descriptors) : List (List Char) := ds.entries.map Declaration.entry

instance : ToCss Descriptors := ⟨fun ds => blockText ds.parts⟩

end Descriptors

/-! ### Values of several parts -/

/-- Items with `separator` between them, as the value of one descriptor. -/
structure Listed (separator : String) (α : Type) where
  items : List α

instance {separator : String} {α : Type} [ToCss α] : ToCss (Listed separator α) :=
  ⟨fun l => separated separator l.items⟩

/-- Two values of one kind with a space between them. -/
structure Pair (α : Type) where
  first : α
  second : α

instance {α : Type} [ToCss α] : ToCss (Pair α) := ⟨fun p => separated " " [p.first, p.second]⟩

end Stylesheet
