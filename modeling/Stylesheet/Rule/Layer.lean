import Stylesheet.Name.Identifier

/-! The names of cascade layers. -/
namespace Stylesheet

/-- A layer by its path, from the outermost layer inwards. -/
structure LayerName where
  path : NonEmpty CustomIdent
  deriving BEq

namespace LayerName

def of (path : List CustomIdent) : Result LayerName :=
  return ⟨← NonEmpty.ofList "layer name" path⟩

def single (name : CustomIdent) : LayerName := ⟨.single name⟩

def sublayer (l : LayerName) (name : CustomIdent) : LayerName := ⟨l.path.push name⟩

instance : ToCss LayerName := ⟨fun l => separated "." l.path.toList⟩

end LayerName

/-- The layers of a statement that puts layers in order. -/
def layerOrder (names : List LayerName) : Result (NonEmpty LayerName) :=
  NonEmpty.ofList "@layer statement" names

end Stylesheet
