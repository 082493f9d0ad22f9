import Stylesheet.Error
import Stylesheet.Keyword
import Stylesheet.NonEmpty
import Stylesheet.Text.Escape

/-! Names that authors choose.

Any text but the empty one can be a name, since it is escaped when written. A custom
identifier is moreover none of the keywords that every property takes, whatever their
case; a dashed identifier begins with two dashes and has something after them. -/
namespace Stylesheet

/-- The keywords every property takes in place of a value of its own. -/
inductive WideKeyword where
  | inherit | initial | unset | revert | revertLayer
  deriving DecidableEq

instance : Keyword WideKeyword where
  all := [.inherit, .initial, .unset, .revert, .revertLayer]
  keyword
    | .inherit => "inherit"
    | .initial => "initial"
    | .unset => "unset"
    | .revert => "revert"
    | .revertLayer => "revert-layer"

/-- The same ASCII letters whatever their case, and otherwise the same characters. -/
def equalsIgnoringCase (text word : String) : Bool :=
  text.toList.map Char.toLower == word.toList.map Char.toLower

def isOneOf (words : List String) (text : String) : Bool := words.any (equalsIgnoringCase text)

/-- The keywords no custom identifier may spell: those of every property, and
`default`, which is set aside for one. -/
def reservedWords : List String :=
  Keyword.all.map (Keyword.keyword (α := WideKeyword)) ++ ["default"]

structure Identifier where
  name : String
  ne_empty : name ≠ ""
  deriving DecidableEq

def Identifier.of (name : String) : Result Identifier :=
  if h : name = "" then .error .emptyIdentifier else .ok ⟨name, h⟩

instance : ToCss Identifier := ⟨fun i => escapeIdentifier i.name.toList⟩

structure CustomIdent extends Identifier where
  not_reserved : isOneOf reservedWords name = false
  deriving DecidableEq

def CustomIdent.of (name : String) : Result CustomIdent := do
  let identifier ← Identifier.of name
  if h : isOneOf reservedWords identifier.name = false then return ⟨identifier, h⟩
  else throw (.reservedIdentifier name)

instance : ToCss CustomIdent := ⟨fun i => css i.toIdentifier⟩

/-- A custom identifier other than the words that a grammar keeps for itself. -/
structure IdentExcept (words : List String) extends CustomIdent where
  allowed : isOneOf words name = false
  deriving DecidableEq

def IdentExcept.of {words : List String} (ident : CustomIdent) : Result (IdentExcept words) :=
  if h : isOneOf words ident.name = false then .ok ⟨ident, h⟩
  else .error (.reservedIdentifier ident.name)

instance {words : List String} : ToCss (IdentExcept words) := ⟨fun i => css i.toCustomIdent⟩

/-- Several names in one place have single spaces between them. -/
instance : ToCss (NonEmpty CustomIdent) := ⟨fun names => separated " " names.toList⟩

def isDashed (name : String) : Bool :=
  match name.toList with
  | '-' :: '-' :: _ :: _ => true
  | _ => false

structure DashedIdent where
  name : String
  dashed : isDashed name = true
  deriving DecidableEq

def DashedIdent.of (name : String) : Result DashedIdent :=
  if h : isDashed name = true then .ok ⟨name, h⟩ else .error (.invalidDashedIdentifier name)

instance : ToCss DashedIdent := ⟨fun i => escapeIdentifier i.name.toList⟩

end Stylesheet
