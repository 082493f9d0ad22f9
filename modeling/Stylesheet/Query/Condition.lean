import Stylesheet.Text.Css

/-! Conditions: tests combined with `not`, `and` and `or`.

The two junctions never meet at one level, since everything inside an operator but a
single test stands in parentheses; a test brings its own. Joining a condition to another
extends the one on the left when that is a junction of the same kind. -/
namespace Stylesheet

/-- A condition over tests of one kind. -/
inductive Condition (Test : Type) where
  | test (t : Test)
  | not (inner : Condition Test)
  | and (terms : List (Condition Test))
  | or (terms : List (Condition Test))

namespace Condition
variable {Test : Type}

/-- Both conditions. A conjunction on the right stays a term of its own. -/
def conjoin : Condition Test → Condition Test → Condition Test
  | and terms, c => and (terms ++ [c])
  | b, c => and [b, c]

/-- Either condition. A disjunction on the right stays a term of its own. -/
def disjoin : Condition Test → Condition Test → Condition Test
  | or terms, c => or (terms ++ [c])
  | b, c => or [b, c]

/-- The test that a condition is, if it is a single one. -/
def test? : Condition Test → Option Test
  | test t => some t
  | _ => none

/-- A condition that is a single test is that test. -/
theorem eq_test {c : Condition Test} {t : Test} (h : c.test? = some t) : c = test t := by
  cases c with
  | test u => rw [Option.some.inj h]
  | not _ | and _ | or _ => exact nomatch h

/-- A condition inside an operator: all but a single test in parentheses. -/
def enclose (c : Condition Test) (text : List Char) : List Char :=
  match c with
  | test _ => text
  | _ => '(' :: text ++ [')']

/-! ### Text -/

section Text
variable [ToCss Test]

mutual

/-- The text of a condition. Only what stands inside an operator is enclosed. -/
def text : Condition Test → List Char
  | test t => css t
  | not c => "not ".toList ++ c.enclose c.text
  | and cs => joined " and ".toList (termTexts cs)
  | or cs => joined " or ".toList (termTexts cs)
termination_by structural c => c

/-- The texts of the terms of a junction. -/
def termTexts : List (Condition Test) → List (List Char)
  | [] => []
  | c :: cs => c.enclose c.text :: termTexts cs
termination_by structural cs => cs

end

instance : ToCss (Condition Test) := ⟨text⟩

end Text

/-! ### Equality -/

section Equality
variable [BEq Test]

mutual

/-- Conditions are equal when they are built in the same way from equal tests. -/
def beq : Condition Test → Condition Test → Bool
  | test a, test b => a == b
  | not a, not b => a.beq b
  | and as, and bs => beqs as bs
  | or as, or bs => beqs as bs
  | _, _ => false
termination_by structural c => c

/-- The same for lists of conditions. -/
def beqs : List (Condition Test) → List (Condition Test) → Bool
  | [], [] => true
  | a :: as, b :: bs => a.beq b && beqs as bs
  | _, _ => false
termination_by structural cs => cs

end

instance : BEq (Condition Test) := ⟨beq⟩

end Equality
end Condition
end Stylesheet
