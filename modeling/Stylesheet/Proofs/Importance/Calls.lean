import Stylesheet.Query.Container
import Stylesheet.Query.Supports

/-! What becomes of the tests that a condition is made of.

However a condition is put together, its tests are those that were handed in, from left to
right, and a declaration among them has lost its importance and nothing else. -/
namespace Stylesheet

/-! ### The tests of a condition -/

namespace Condition
variable {Test : Type}

mutual

/-- The tests of a condition at any depth, from left to right. -/
def tests : Condition Test → List Test
  | test t => [t]
  | not c => c.tests
  | and cs => testsOf cs
  | or cs => testsOf cs
termination_by structural c => c

/-- The tests of all the conditions of a chain. -/
def testsOf : List (Condition Test) → List Test
  | [] => []
  | c :: cs => c.tests ++ testsOf cs
termination_by structural cs => cs

end

theorem testsOf_append {cs : List (Condition Test)} {c : Condition Test} :
    testsOf (cs ++ [c]) = testsOf cs ++ c.tests := by
  induction cs with
  | nil => exact List.append_nil _
  | cons d cs ih => rw [List.cons_append, testsOf, ih, testsOf, List.append_assoc]

/-- A chain that is made longer and one that is begun have the same tests, in order. -/
theorem tests_conjoin (b c : Condition Test) : (b.conjoin c).tests = b.tests ++ c.tests := by
  cases b with
  | and terms => exact testsOf_append
  | _ => simp [conjoin, tests, testsOf]

theorem tests_disjoin (b c : Condition Test) : (b.disjoin c).tests = b.tests ++ c.tests := by
  cases b with
  | or terms => exact testsOf_append
  | _ => simp [disjoin, tests, testsOf]

/-- The test that a condition consists of is one of its tests. -/
theorem mem_tests_of_test? {c : Condition Test} {t : Test} (h : c.test? = some t) :
    t ∈ c.tests := by
  cases c with
  | test u =>
    obtain rfl : u = t := Option.some.inj h
    exact List.mem_singleton_self u
  | not c => exact nomatch h
  | and cs => exact nomatch h
  | or cs => exact nomatch h

end Condition

/-! ### Calls -/

/-- The test as it stands in a condition: without importance, and otherwise as given. -/
def SupportsTest.unimportant : SupportsTest → SupportsTest
  | .declaration d => .declaration ⟨d.name, d.value, false⟩
  | t => t

/-- The same for conditions on containers. -/
def ContainerTest.unimportant : ContainerTest → ContainerTest
  | .style d => .style ⟨d.name, d.value, false⟩
  | t => t

/-- A declaration without importance was a declaration before, with the name and the value it
has. -/
theorem SupportsTest.unimportant_eq {t : SupportsTest} {d : Declaration}
    (h : t.unimportant = .declaration d) :
    ∃ e, t = .declaration e ∧ d = ⟨e.name, e.value, false⟩ := by
  cases t with
  | declaration e =>
    cases h
    exact ⟨e, rfl, rfl⟩
  | selector s => exact nomatch h
  | fontTech t => exact nomatch h
  | fontFormat f => exact nomatch h

theorem ContainerTest.unimportant_eq {t : ContainerTest} {d : Declaration}
    (h : t.unimportant = .style d) : ∃ e, t = .style e ∧ d = ⟨e.name, e.value, false⟩ := by
  cases t with
  | size feature => exact nomatch h
  | style e =>
    cases h
    exact ⟨e, rfl, rfl⟩

/-- The calls, and the operators, that make a condition of support. -/
inductive SupportsCalls where
  | property (p : Property)
  | declaration (d : Declaration)
  | selector (s : Selector)
  | fontTech (t : FontTech)
  | fontFormat (f : FontFormat)
  | and (a b : SupportsCalls)
  | or (a b : SupportsCalls)
  | not (a : SupportsCalls)
  | ampersand (a b : SupportsCalls)
  | bar (a b : SupportsCalls)
  | exclamation (a : SupportsCalls)

namespace SupportsCalls

/-- The condition that the calls make. -/
def supports : SupportsCalls → Supports
  | property p => .ofProperty p
  | declaration d => .ofDeclaration d
  | selector s => .ofTest (.selector s)
  | fontTech t => .ofTest (.fontTech t)
  | fontFormat f => .ofTest (.fontFormat f)
  | and a b => a.supports.and b.supports
  | or a b => a.supports.or b.supports
  | not a => a.supports.not
  | ampersand a b => a.supports &&& b.supports
  | bar a b => a.supports ||| b.supports
  | exclamation a => ~~~a.supports

/-- The tests that are handed in, from left to right. -/
def given : SupportsCalls → List SupportsTest
  | property p => [.declaration p.declaration]
  | declaration d => [.declaration d]
  | selector s => [.selector s]
  | fontTech t => [.fontTech t]
  | fontFormat f => [.fontFormat f]
  | and a b | or a b | ampersand a b | bar a b => a.given ++ b.given
  | not a | exclamation a => a.given

/-- **The tests of the condition are the tests handed in**, each without importance, and in the
order of the calls. -/
theorem tests_eq (a : SupportsCalls) :
    a.supports.condition.tests = a.given.map SupportsTest.unimportant := by
  induction a with
  | property p => rfl
  | declaration d => rfl
  | selector s => rfl
  | fontTech t => rfl
  | fontFormat f => rfl
  | and a b iha ihb | ampersand a b iha ihb =>
    show (a.supports.condition.conjoin b.supports.condition).tests = _
    rw [Condition.tests_conjoin, iha, ihb, given, List.map_append]
  | or a b iha ihb | bar a b iha ihb =>
    show (a.supports.condition.disjoin b.supports.condition).tests = _
    rw [Condition.tests_disjoin, iha, ihb, given, List.map_append]
  | not a ih | exclamation a ih => exact ih

/-- A declaration in the condition was handed in, with importance or without. -/
theorem exists_given {a : SupportsCalls} {d : Declaration}
    (h : .declaration d ∈ a.supports.condition.tests) :
    ∃ e, .declaration e ∈ a.given ∧ d = ⟨e.name, e.value, false⟩ := by
  rw [a.tests_eq] at h
  obtain ⟨t, ht, heq⟩ := List.mem_map.mp h
  obtain ⟨e, rfl, hd⟩ := SupportsTest.unimportant_eq heq
  exact ⟨e, ht, hd⟩

end SupportsCalls

/-- The calls, and the operators, that make a condition on a container. -/
inductive ContainerCalls where
  | size (f : ContainerFeature)
  | property (p : Property)
  | declaration (d : Declaration)
  | named (a : ContainerCalls) (name : CustomIdent)
  | and (a b : ContainerCalls)
  | or (a b : ContainerCalls)
  | not (a : ContainerCalls)
  | ampersand (a b : ContainerCalls)
  | bar (a b : ContainerCalls)
  | exclamation (a : ContainerCalls)

namespace ContainerCalls

/-- A reserved name makes the calls fail. -/
def container : ContainerCalls → Result Container
  | size f => return .ofSize f
  | property p => return .ofProperty p
  | declaration d => return .ofDeclaration d
  | named a name => do (← a.container).named name
  | and a b => return (← a.container).and (← b.container)
  | or a b => return (← a.container).or (← b.container)
  | not a => return (← a.container).not
  | ampersand a b => return (← a.container) &&& (← b.container)
  | bar a b => return (← a.container) ||| (← b.container)
  | exclamation a => return ~~~(← a.container)

/-- The tests that are handed in, from left to right. -/
def given : ContainerCalls → List ContainerTest
  | size f => [.size f]
  | property p => [.style p.declaration]
  | declaration d => [.style d]
  | named a _ | not a | exclamation a => a.given
  | and a b | or a b | ampersand a b | bar a b => a.given ++ b.given

/-- The calls succeed and make the container. -/
inductive Makes : ContainerCalls → Container → Prop where
  | size (f) : Makes (size f) (.ofSize f)
  | property (p) : Makes (property p) (.ofProperty p)
  | declaration (d) : Makes (declaration d) (.ofDeclaration d)
  | named {a name c c'} : Makes a c → c.named name = .ok c' → Makes (named a name) c'
  | and {a b c d} : Makes a c → Makes b d → Makes (and a b) (c.and d)
  | or {a b c d} : Makes a c → Makes b d → Makes (or a b) (c.or d)
  | not {a c} : Makes a c → Makes (not a) c.not
  | ampersand {a b c d} : Makes a c → Makes b d → Makes (ampersand a b) (c &&& d)
  | bar {a b c d} : Makes a c → Makes b d → Makes (bar a b) (c ||| d)
  | exclamation {a c} : Makes a c → Makes (exclamation a) (~~~c)

/-- Calls that succeed have succeeded at every step. -/
theorem makes_of_eq_ok {a : ContainerCalls} {c : Container} (h : a.container = .ok c) :
    a.Makes c := by
  induction a generalizing c with
  | size f =>
    cases h
    exact .size f
  | property p =>
    cases h
    exact .property p
  | declaration d =>
    cases h
    exact .declaration d
  | named a name ih =>
    obtain ⟨c', hc', h⟩ := Result.of_bind_eq_ok h
    exact .named (ih hc') h
  | and a b iha ihb =>
    obtain ⟨c, d, hc, hd, rfl⟩ := Result.of_pair_eq_ok h
    exact .and (iha hc) (ihb hd)
  | or a b iha ihb =>
    obtain ⟨c, d, hc, hd, rfl⟩ := Result.of_pair_eq_ok h
    exact .or (iha hc) (ihb hd)
  | not a ih =>
    obtain ⟨c, hc, h⟩ := Result.of_bind_eq_ok h
    cases h
    exact .not (ih hc)
  | ampersand a b iha ihb =>
    obtain ⟨c, d, hc, hd, rfl⟩ := Result.of_pair_eq_ok h
    exact .ampersand (iha hc) (ihb hd)
  | bar a b iha ihb =>
    obtain ⟨c, d, hc, hd, rfl⟩ := Result.of_pair_eq_ok h
    exact .bar (iha hc) (ihb hd)
  | exclamation a ih =>
    obtain ⟨c, hc, h⟩ := Result.of_bind_eq_ok h
    cases h
    exact .exclamation (ih hc)

/-- **The tests of the condition are the tests handed in**, each without importance. -/
theorem Makes.tests_eq {a : ContainerCalls} {c : Container} (h : a.Makes c) :
    c.condition.tests = a.given.map ContainerTest.unimportant := by
  induction h with
  | size f | property p | declaration d => rfl
  | named _ hname ih => exact (congrArg Condition.tests (Container.condition_named hname)).trans ih
  | @and a b c d _ _ iha ihb | @ampersand a b c d _ _ iha ihb =>
    show (c.condition.conjoin d.condition).tests = _
    rw [Condition.tests_conjoin, iha, ihb, given, List.map_append]
  | @or a b c d _ _ iha ihb | @bar a b c d _ _ iha ihb =>
    show (c.condition.disjoin d.condition).tests = _
    rw [Condition.tests_disjoin, iha, ihb, given, List.map_append]
  | not _ ih | exclamation _ ih => exact ih

/-- A declaration in the condition was handed in, with importance or without. -/
theorem Makes.exists_given {a : ContainerCalls} {c : Container} {d : Declaration}
    (hc : a.Makes c) (h : .style d ∈ c.condition.tests) :
    ∃ e, .style e ∈ a.given ∧ d = ⟨e.name, e.value, false⟩ := by
  rw [hc.tests_eq] at h
  obtain ⟨t, ht, heq⟩ := List.mem_map.mp h
  obtain ⟨e, rfl, hd⟩ := ContainerTest.unimportant_eq heq
  exact ⟨e, ht, hd⟩

end ContainerCalls
end Stylesheet
