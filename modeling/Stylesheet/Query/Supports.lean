import Stylesheet.Declaration.Basic
import Stylesheet.Font.Resource
import Stylesheet.Query.Condition
import Stylesheet.Selector.Equality
import Stylesheet.Selector.Text

/-! Conditions on what the system supports. -/
namespace Stylesheet

/-- What a system may be asked. -/
inductive SupportsTest where
  | declaration (d : Declaration)
  | selector (s : Selector)
  | fontTech (t : FontTech)
  | fontFormat (f : FontFormat)
  deriving BEq

instance : ToCss SupportsTest where
  css
    | .declaration d => call "" (css d)
    | .selector s => call "selector" (css s)
    | .fontTech t => call "font-tech" (css t)
    | .fontFormat f => call "font-format" (css f)

/-- A condition over what the system supports. -/
structure Supports where
  condition : Condition SupportsTest
  deriving BEq

namespace Supports

/-- A test as a condition. -/
def ofTest (t : SupportsTest) : Supports := ⟨.test t⟩

/-- Whether the system knows a property with this value. -/
def ofProperty (p : Property) : Supports := ofTest (.declaration p.declaration)

/-- Importance is no part of a condition and is dropped. -/
def ofDeclaration (d : Declaration) : Supports := ofTest (.declaration d.withoutImportance)

/-- Both conditions. -/
def and (a b : Supports) : Supports := ⟨a.condition.conjoin b.condition⟩

/-- Either condition. -/
def or (a b : Supports) : Supports := ⟨a.condition.disjoin b.condition⟩

/-- The opposite condition. -/
def not (a : Supports) : Supports := ⟨.not a.condition⟩

/-! The operators `a &&& b`, `a ||| b` and `~~~a`. -/

instance : AndOp Supports := ⟨and⟩

instance : OrOp Supports := ⟨or⟩

instance : Complement Supports := ⟨fun a => ⟨.not a.condition⟩⟩

/-- The condition as the argument of a function, whose parentheses serve a declaration
that stands alone. -/
def argument (s : Supports) : List Char :=
  match s.condition.test? with
  | some (.declaration d) => css d
  | _ => css s.condition

instance : ToCss Supports := ⟨fun s => "@supports ".toList ++ css s.condition⟩

end Supports
end Stylesheet
