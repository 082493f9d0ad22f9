import Stylesheet.Declaration.Basic
import Stylesheet.Query.Condition
import Stylesheet.Query.Feature

/-! Conditions on the container around an element. -/
namespace Stylesheet

/-- What a container may be asked about its size. -/
inductive ContainerFeature where
  | width (bound : Bound) (value : Length)
  | height (bound : Bound) (value : Length)
  | inlineSize (bound : Bound) (value : Length)
  | blockSize (bound : Bound) (value : Length)
  | aspectRatio (value : Ratio)
  | orientation (value : Orientation)
  | range (test : RangeTest)
  deriving BEq

namespace ContainerFeature

/-- What is tested: a feature by its name, or a range. -/
def content : ContainerFeature → NamedTest ⊕ RangeTest
  | width bound value => .inl (.bounded bound "width" value)
  | height bound value => .inl (.bounded bound "height" value)
  | inlineSize bound value => .inl (.bounded bound "inline-size" value)
  | blockSize bound value => .inl (.bounded bound "block-size" value)
  | aspectRatio value => .inl (.exact "aspect-ratio" value)
  | orientation value => .inl (.exact "orientation" value)
  | range test => .inr test

instance : ToCss ContainerFeature := ⟨fun f => css f.content⟩

end ContainerFeature

/-- A test of the size of a container, or of a value that a property has in it. -/
inductive ContainerTest where
  | size (feature : ContainerFeature)
  | style (d : Declaration)
  deriving BEq

instance : ToCss ContainerTest where
  css
    | .size feature => css feature
    | .style d => call "style" (css d)

/-- A name could not be told from these words of the condition after it. -/
abbrev ContainerName := IdentExcept ["none", "and", "not", "or"]

/-- A condition, and the name of the container that it is about if not the nearest one. -/
structure Container where
  name : Option ContainerName
  condition : Condition ContainerTest
  deriving BEq

namespace Container

def ofTest (t : ContainerTest) : Container := ⟨none, .test t⟩

def ofSize (feature : ContainerFeature) : Container := ofTest (.size feature)

def ofProperty (p : Property) : Container := ofTest (.style p.declaration)

/-- Importance is no part of a condition and is dropped. -/
def ofDeclaration (d : Declaration) : Container := ofTest (.style d.withoutImportance)

/-- Sets the name, or replaces it. A name that the condition could begin with is refused. -/
def named (c : Container) (name : CustomIdent) : Result Container :=
  return {c with name := some (← IdentExcept.of name)}

/-- A name changes nothing about the condition. -/
theorem condition_named {c c' : Container} {name : CustomIdent} (h : c.named name = .ok c') :
    c'.condition = c.condition := by
  obtain ⟨n, -, h⟩ := Result.of_bind_eq_ok h
  cases h
  rfl

/-- The name on the left is kept. -/
def and (a b : Container) : Container := {a with condition := a.condition.conjoin b.condition}

/-- The name on the left is kept. -/
def or (a b : Container) : Container := {a with condition := a.condition.disjoin b.condition}

def not (a : Container) : Container := {a with condition := .not a.condition}

/-! The operators `a &&& b`, `a ||| b` and `~~~a`. -/

instance : AndOp Container := ⟨and⟩

instance : OrOp Container := ⟨or⟩

instance : Complement Container := ⟨fun a => {a with condition := .not a.condition}⟩

instance : ToCss Container where
  css c :=
    "@container ".toList ++ (c.name.map (css · ++ [' '])).getD [] ++ css c.condition

end Container
end Stylesheet
