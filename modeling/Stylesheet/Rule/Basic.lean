import Stylesheet.Font.Feature
import Stylesheet.Motion.Keyframes
import Stylesheet.Query.Container
import Stylesheet.Rule.CounterStyle
import Stylesheet.Rule.Page
import Stylesheet.Rule.Registration
import Stylesheet.Rule.Statement

/-! Rules, which may hold rules in turn. -/
namespace Stylesheet

/-- Declarations for what the selectors select. -/
structure StyleRule where
  selectors : SelectorList
  declarations : DeclarationBlock
  deriving BEq

namespace StyleRule

/-- One more declaration. -/
def declare (r : StyleRule) (p : Property) : StyleRule :=
  {r with declarations := r.declarations.declare p}

instance : ToCss StyleRule where
  css r := css r.selectors ++ ' ' :: css r.declarations

end StyleRule

/-- A rule of a style sheet. -/
inductive Rule where
  | style (rule : StyleRule)
  | media (media : Media) (rules : List Rule)
  | supports (supports : Supports) (rules : List Rule)
  | container (container : Container) (rules : List Rule)
  /-- Puts layers in order. -/
  | layerOrder (names : NonEmpty LayerName)
  /-- Without a name, a layer that nothing can refer to. -/
  | layer (name : Option LayerName) (rules : List Rule)
  | fontFace (rule : FontFaceRule)
  | page (rule : PageRule)
  | counterStyle (rule : CounterStyleRule)
  | property (rule : PropertyRule)
  | fontFeatureValues (rule : FontFeatureValuesRule)
  | keyframes (rule : KeyframesRule)
  | importRule (rule : ImportRule)
  | namespaceRule (rule : NamespaceRule)
  | charset (rule : CharsetRule)

namespace Rule

mutual

/-- The text of a rule. Those with rules inside are written around them. -/
def text : Rule → List Char
  | style rule => css rule
  | media condition rules => css condition ++ ' ' :: blockText (texts rules)
  | supports condition rules => css condition ++ ' ' :: blockText (texts rules)
  | container condition rules => css condition ++ ' ' :: blockText (texts rules)
  | layerOrder names => statementText "layer" (commaSeparated names.toList)
  | layer name rules => "@layer".toList ++ clause " " name ++ ' ' :: blockText (texts rules)
  | fontFace rule => css rule
  | page rule => css rule
  | counterStyle rule => css rule
  | property rule => css rule
  | fontFeatureValues rule => css rule
  | keyframes rule => css rule
  | importRule rule => css rule
  | namespaceRule rule => css rule
  | charset rule => css rule
termination_by structural r => r

/-- The texts of the rules in a block. -/
def texts : List Rule → List (List Char)
  | [] => []
  | r :: rs => r.text :: texts rs
termination_by structural rs => rs

end

instance : ToCss Rule := ⟨text⟩

mutual

/-- Rules are equal when their parts are, down to the rules inside. -/
def beq : Rule → Rule → Bool
  | style a, style b => a == b
  | media a as, media b bs => a == b && beqs as bs
  | supports a as, supports b bs => a == b && beqs as bs
  | container a as, container b bs => a == b && beqs as bs
  | layerOrder a, layerOrder b => a == b
  | layer a as, layer b bs => a == b && beqs as bs
  | fontFace a, fontFace b => a == b
  | page a, page b => a == b
  | counterStyle a, counterStyle b => a == b
  | property a, property b => a == b
  | fontFeatureValues a, fontFeatureValues b => a == b
  | keyframes a, keyframes b => a == b
  | importRule a, importRule b => a == b
  | namespaceRule a, namespaceRule b => a == b
  | charset a, charset b => a == b
  | _, _ => false
termination_by structural r => r

/-- The same for the rules of a block. -/
def beqs : List Rule → List Rule → Bool
  | [], [] => true
  | a :: as, b :: bs => a.beq b && beqs as bs
  | _, _ => false
termination_by structural rs => rs

end

instance : BEq Rule := ⟨beq⟩

end Rule
end Stylesheet
