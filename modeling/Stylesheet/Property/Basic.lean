import Stylesheet.Name.Identifier
import Stylesheet.Property.Grammar

/-! Properties with a value. -/
namespace Stylesheet

/-- A value of a property's own, or a keyword that every property takes. -/
inductive Specified (α : Type) where
  | own (value : α)
  | wide (keyword : WideKeyword)
  deriving BEq

instance {α : Type} [ToCss α] : ToCss (Specified α) where
  css
    | .own value => css value
    | .wide keyword => css keyword

/-- The values of a property. -/
abbrev PropertyName.Value (name : PropertyName) : Type := Specified name.grammar.Value

structure Property where
  name : PropertyName
  value : name.Value

instance : ToCss Property := ⟨fun p => css p.value⟩

end Stylesheet
