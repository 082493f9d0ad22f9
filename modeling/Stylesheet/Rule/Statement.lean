import Stylesheet.Name.Quoted
import Stylesheet.Query.Media
import Stylesheet.Query.Supports
import Stylesheet.Rule.Layer

/-! Rules without a block: imports, namespaces and the character set. -/
namespace Stylesheet

/-- `@name content;` -/
def statementText (name : String) (content : List Char) : List Char :=
  '@' :: name.toList ++ ' ' :: content ++ [';']

/-- The layer that the imported rules go to: one without a name, or a named one. -/
inductive ImportLayer where
  | anonymous
  | named (name : LayerName)
  deriving BEq

instance : ToCss ImportLayer where
  css
    | .anonymous => "layer".toList
    | .named name => call "layer" (css name)

/-- Clauses are written in this order, whatever the order in which they were set. -/
structure ImportRule where
  url : Url
  layer : Option ImportLayer
  supports : Option Supports
  media : Option Media
  deriving BEq

namespace ImportRule

/-- An import of everything, under no condition. -/
def of (address : String) : ImportRule := ⟨⟨address⟩, none, none, none⟩

/-- Each clause is there once. Setting it again replaces it. -/
def withLayer (r : ImportRule) (layer : ImportLayer) : ImportRule :=
  {r with layer := some layer}

def withSupports (r : ImportRule) (condition : Supports) : ImportRule :=
  {r with supports := some condition}

def withMedia (r : ImportRule) (media : Media) : ImportRule := {r with media := some media}

/-- The condition stands in parentheses, and a lone declaration without others. -/
def supportsText (s : Supports) : List Char := ' ' :: call "supports" s.argument

/-- The list of queries closes the rule and has no parentheses. -/
def mediaText (m : Media) : List Char := ' ' :: m.list

instance : ToCss ImportRule where
  css r :=
    statementText "import" (css r.url ++ clause " " r.layer ++
      (r.supports.map supportsText).getD [] ++ (r.media.map mediaText).getD [])

end ImportRule

/-- Without a label, the default namespace. -/
structure NamespaceRule where
  label : Option CustomIdent
  url : Url
  deriving DecidableEq

instance : ToCss NamespaceRule where
  css r := statementText "namespace" ((r.label.map (css · ++ [' '])).getD [] ++ css r.url)

/-- The encoding that a file says of itself. -/
structure CharsetRule where
  encoding : String
  deriving DecidableEq

/-- The encoding that every new file should have. -/
def CharsetRule.utf8 : CharsetRule := ⟨"UTF-8"⟩

instance : ToCss CharsetRule := ⟨fun r => statementText "charset" (quoteString r.encoding.toList)⟩

end Stylesheet
