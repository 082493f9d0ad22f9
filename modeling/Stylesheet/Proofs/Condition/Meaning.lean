import Stylesheet.Query.Container
import Stylesheet.Query.Supports

/-! What a condition means.

A condition is put together by calls, and the calls are a Boolean combination of tests.
The condition has another shape than the calls, since a junction takes up the terms of
one of its kind on the left, but it has the same truth. -/
namespace Stylesheet

namespace Condition
variable {Test Leaf : Type}

mutual

/-- The truth of a condition, when `σ` tells that of every test. -/
def eval (σ : Test → Bool) : Condition Test → Bool
  | test t => σ t
  | not c => !c.eval σ
  | and cs => allTrue σ cs
  | or cs => anyTrue σ cs
termination_by structural c => c

/-- What `and` means, for the conditions of a chain. -/
def allTrue (σ : Test → Bool) : List (Condition Test) → Bool
  | [] => true
  | c :: cs => c.eval σ && allTrue σ cs
termination_by structural cs => cs

/-- What `or` means. -/
def anyTrue (σ : Test → Bool) : List (Condition Test) → Bool
  | [] => false
  | c :: cs => c.eval σ || anyTrue σ cs
termination_by structural cs => cs

end

mutual

/-- The same condition on other tests. -/
def map (f : Test → Leaf) : Condition Test → Condition Leaf
  | test t => test (f t)
  | not c => not (c.map f)
  | and cs => and (maps f cs)
  | or cs => or (maps f cs)
termination_by structural c => c

/-- The conditions of a chain, each with its tests replaced. -/
def maps (f : Test → Leaf) : List (Condition Test) → List (Condition Leaf)
  | [] => []
  | c :: cs => c.map f :: maps f cs
termination_by structural cs => cs

end

/-! ### Truth -/

variable {σ : Test → Bool} {b c : Condition Test} {cs : List (Condition Test)}

theorem allTrue_append : allTrue σ (cs ++ [c]) = (allTrue σ cs && c.eval σ) := by
  induction cs with
  | nil => simp [allTrue]
  | cons d cs ih => simp only [List.cons_append, allTrue, ih, Bool.and_assoc]

theorem anyTrue_append : anyTrue σ (cs ++ [c]) = (anyTrue σ cs || c.eval σ) := by
  induction cs with
  | nil => simp [anyTrue]
  | cons d cs ih => simp only [List.cons_append, anyTrue, ih, Bool.or_assoc]

/-- Both are true, whether the chain is made longer or begun. -/
theorem eval_conjoin (b c : Condition Test) : (b.conjoin c).eval σ = (b.eval σ && c.eval σ) := by
  cases b with
  | and terms => exact allTrue_append
  | _ => simp [conjoin, eval, allTrue]

/-- One of both is true. -/
theorem eval_disjoin (b c : Condition Test) : (b.disjoin c).eval σ = (b.eval σ || c.eval σ) := by
  cases b with
  | or terms => exact anyTrue_append
  | _ => simp [disjoin, eval, anyTrue]

mutual

/-- Replacing tests and then asking is asking about the replaced tests. -/
theorem eval_map (f : Test → Leaf) (σ : Leaf → Bool) :
    ∀ c : Condition Test, (c.map f).eval σ = c.eval fun t => σ (f t)
  | test _ => rfl
  | not c => congrArg (!·) (eval_map f σ c)
  | and cs => allTrue_maps f σ cs
  | or cs => anyTrue_maps f σ cs

theorem allTrue_maps (f : Test → Leaf) (σ : Leaf → Bool) :
    ∀ cs : List (Condition Test), allTrue σ (maps f cs) = allTrue (fun t => σ (f t)) cs
  | [] => rfl
  | c :: cs => by rw [maps, allTrue, allTrue, eval_map f σ c, allTrue_maps f σ cs]

theorem anyTrue_maps (f : Test → Leaf) (σ : Leaf → Bool) :
    ∀ cs : List (Condition Test), anyTrue σ (maps f cs) = anyTrue (fun t => σ (f t)) cs
  | [] => rfl
  | c :: cs => by rw [maps, anyTrue, anyTrue, eval_map f σ c, anyTrue_maps f σ cs]

end

end Condition

/-! ### Calls -/

/-- How a condition is put together from tests. -/
inductive Calls (Test : Type) where
  | test (t : Test)
  | not (a : Calls Test)
  | and (a b : Calls Test)
  | or (a b : Calls Test)

namespace Calls
variable {Test : Type}

/-- The condition that the calls build. -/
def condition : Calls Test → Condition Test
  | test t => .test t
  | not a => .not a.condition
  | and a b => a.condition.conjoin b.condition
  | or a b => a.condition.disjoin b.condition

/-- What the calls say, when `σ` tells the truth of every test. -/
def eval (σ : Test → Bool) : Calls Test → Bool
  | test t => σ t
  | not a => !a.eval σ
  | and a b => a.eval σ && b.eval σ
  | or a b => a.eval σ || b.eval σ

/-- Every test in the calls satisfies `P`. -/
def Forall (P : Test → Prop) : Calls Test → Prop
  | test t => P t
  | not a => a.Forall P
  | and a b => a.Forall P ∧ b.Forall P
  | or a b => a.Forall P ∧ b.Forall P

/-- **A condition is true as the calls say.** -/
theorem eval_condition (σ : Test → Bool) (a : Calls Test) : a.condition.eval σ = a.eval σ := by
  induction a with
  | test t => rfl
  | not a ih => exact congrArg (!·) ih
  | and a b iha ihb => rw [condition, Condition.eval_conjoin, iha, ihb, eval]
  | or a b iha ihb => rw [condition, Condition.eval_disjoin, iha, ihb, eval]

/-- The same calls on conditions of support. -/
def supports : Calls SupportsTest → Supports
  | test t => .ofTest t
  | not a => a.supports.not
  | and a b => a.supports.and b.supports
  | or a b => a.supports.or b.supports

theorem supports_condition (a : Calls SupportsTest) : a.supports.condition = a.condition := by
  induction a with
  | test t => rfl
  | not a ih => exact congrArg Condition.not ih
  | and a b iha ihb => rw [condition, ← iha, ← ihb, supports, Supports.and]
  | or a b iha ihb => rw [condition, ← iha, ← ihb, supports, Supports.or]

/-- The same calls on conditions on a container. -/
def container : Calls ContainerTest → Container
  | test t => .ofTest t
  | not a => a.container.not
  | and a b => a.container.and b.container
  | or a b => a.container.or b.container

theorem container_condition (a : Calls ContainerTest) : a.container.condition = a.condition := by
  induction a with
  | test t => rfl
  | not a ih => exact congrArg Condition.not ih
  | and a b iha ihb => rw [condition, ← iha, ← ihb, container, Container.and]
  | or a b iha ihb => rw [condition, ← iha, ← ihb, container, Container.or]

/-- Operators leave no name. -/
theorem container_name (a : Calls ContainerTest) : a.container.name = none := by
  induction a with
  | test t => rfl
  | not a ih => exact ih
  | and a b ih _ => exact ih
  | or a b ih _ => exact ih

end Calls
end Stylesheet
