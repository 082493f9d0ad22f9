import Stylesheet.Proofs.Minimum.Values
import Stylesheet.Proofs.Reading.Token

/-! The name of a container, in front of the condition on it.

A condition begins with a parenthesis, with the name of a function or with `not`. So a name
is any identifier other than `not` that has no parenthesis behind it, and with that rule the
name and the condition are read off the text, because the words that a condition could have
in that place are refused as names. -/
namespace Stylesheet

/-! ### The reader -/

namespace Reader

/-- A name with its space, or nothing in front of a condition. -/
def containerName : Reader (Option (List Char)) := fun t =>
  match identToken t with
  | none => some (none, t)
  | some (name, rest) =>
    if equalsIgnoringCase (String.ofList name) "not" ∨ rest.head? = some '(' then some (none, t)
    else (do expect [' ']; return some name) rest

/-- The name of a container; what is left is the condition. -/
def container : Reader (Option (List Char)) := do expect "@container ".toList; containerName

end Reader

/-! ### Where a condition begins -/

namespace ContainerTest

/-- A test begins with a parenthesis or the name of a function. -/
theorem exists_css (t : ContainerTest) :
    (∃ u, css t = '(' :: u) ∨ ∃ u, css t = "style".toList ++ '(' :: u := by
  cases t with
  | size f =>
    refine .inl ?_
    show ∃ u, css f.content = '(' :: u
    cases f.content with
    | inl test => exact ⟨_, rfl⟩
    | inr test => exact ⟨_, rfl⟩
  | style d => exact .inr ⟨css d ++ [')'], call_ofList ['s', 't', 'y', 'l', 'e'] (css d)⟩

end ContainerTest

/-- The text cannot be taken for a name with a condition behind it. -/
def NoName (t : List Char) : Prop := Reader.containerName t = some (none, t)

namespace NoName
variable {t u : List Char}

theorem parenthesis : NoName ('(' :: t) := rfl

theorem function {c : Char} {w : List Char} (hc : isNameStart c) (hw : (c :: w).all isNameChar) :
    NoName (c :: w ++ '(' :: t) := by
  have hread := reads_word hc hw ('(' :: t) (.cons (by decide))
  rw [NoName, Reader.containerName, hread]
  exact if_pos (.inr rfl)

theorem negation : NoName ("not ".toList ++ t) := by
  have hread := reads_word (c := 'n') (w := ['o', 't']) (by decide) (by decide) (' ' :: t)
    (.cons (by decide))
  show Reader.containerName (['n', 'o', 't'] ++ ' ' :: t) = _
  rw [Reader.containerName, hread]
  exact if_pos (.inl (by decide))

theorem test (test : ContainerTest) : NoName (css test ++ u) := by
  obtain ⟨v, htext⟩ | ⟨v, htext⟩ := test.exists_css
  · rw [htext]
    exact parenthesis
  · rw [htext, List.append_assoc]
    exact function (by decide) (by decide)

/-- What is in parentheses, or a single test. -/
theorem enclosed (c : Condition ContainerTest) : NoName (c.enclose c.text ++ u) := by
  cases c with
  | test t => exact test t
  | not _ | and _ | or _ => exact parenthesis

theorem junction {cs : List (Condition ContainerTest)} (operator : List Char)
    (h : 2 ≤ cs.length) : NoName (joined operator (Condition.termTexts cs)) := by
  match cs, h with
  | c :: cs, _ =>
    rw [Condition.termTexts, joined_cons]
    exact enclosed c

/-- No condition begins with a name, at any depth. -/
theorem condition {P : ContainerTest → Prop} {c : Condition ContainerTest} (h : c.Formed P) :
    NoName (css c) := by
  cases h with
  | @test t _ =>
    have hnone : NoName (css t ++ []) := test t
    rwa [List.append_nil] at hnone
  | not _ => exact negation
  | and hlength _ => exact junction _ hlength
  | or hlength _ => exact junction _ hlength

end NoName

/-! ### The name that the calls leave -/

namespace Container

/-- The words that are refused as the name of a container, besides those of every name. -/
abbrev nameWords : List String := ["none", "and", "not", "or"]

/-- A refused name is the error, and any other replaces the name and nothing else. -/
theorem named_eq (c : Container) (name : CustomIdent) :
    (isOneOf nameWords name.name = true ∧
      c.named name = .error (.reservedIdentifier name.name)) ∨
    ∃ h : isOneOf nameWords name.name = false,
      c.named name = .ok {c with name := some ⟨name, h⟩} := by
  by_cases h : isOneOf nameWords name.name = false
  · have hof : (IdentExcept.of name : Result ContainerName) = .ok ⟨name, h⟩ := dif_pos h
    refine .inr ⟨h, ?_⟩
    rw [named, hof]
    rfl
  · have hof : (IdentExcept.of name : Result ContainerName) = .error _ := dif_neg h
    refine .inl ⟨Bool.not_eq_false _ ▸ h, ?_⟩
    rw [named, hof]
    rfl

end Container

namespace ContainerCalls

/-- The names that are given in the calls, wherever they are. -/
def names : ContainerCalls → List CustomIdent
  | size _ | property _ | declaration _ => []
  | named a name => a.names ++ [name]
  | and a b | or a b | ampersand a b | bar a b => a.names ++ b.names
  | not a | exclamation a => a.names

/-- The name given last along the left operands. -/
def name : ContainerCalls → Option CustomIdent
  | size _ | property _ | declaration _ => none
  | named _ name => some name
  | and a _ | or a _ | ampersand a _ | bar a _ => a.name
  | not a | exclamation a => a.name

variable {a : ContainerCalls} {c : Container}

/-- The condition has the name that the calls tell. -/
theorem Makes.name_eq (h : a.Makes c) : c.name.map (·.toCustomIdent) = a.name := by
  induction h with
  | size f | property p | declaration d => rfl
  | @named a name c c' _ hnamed _ =>
    obtain ⟨-, herror⟩ | ⟨hallowed, hok⟩ := c.named_eq name
    · rw [herror] at hnamed
      exact nomatch hnamed
    · cases hok.symm.trans hnamed
      rfl
  | and _ _ iha _ | or _ _ iha _ | ampersand _ _ iha _ | bar _ _ iha _ => exact iha
  | not _ ih | exclamation _ ih => exact ih

/-- The calls fail only for a name that is refused. -/
theorem exists_container_iff (a : ContainerCalls) :
    (∃ c, a.container = .ok c) ↔ ∀ n ∈ a.names, isOneOf Container.nameWords n.name = false := by
  induction a with
  | size f | property p | declaration d => exact ⟨fun _ => nofun, fun _ => ⟨_, rfl⟩⟩
  | named a name ih =>
    -- The name is looked at after the condition that it is given to has been built.
    rw [names, List.forall_mem_append, List.forall_mem_singleton, ← ih]
    constructor
    · rintro ⟨d, hd⟩
      obtain ⟨c, hc, hnamed⟩ := Result.of_bind_eq_ok hd
      obtain ⟨-, herror⟩ | ⟨hallowed, -⟩ := c.named_eq name
      · rw [herror] at hnamed
        exact nomatch hnamed
      · exact ⟨⟨c, hc⟩, hallowed⟩
    · rintro ⟨⟨c, hc⟩, hallowed⟩
      obtain ⟨hrefused, -⟩ | ⟨_, hok⟩ := c.named_eq name
      · rw [hallowed] at hrefused
        exact nomatch hrefused
      · exact ⟨_, by rw [container, hc]; exact hok⟩
  | and a b iha ihb | or a b iha ihb | ampersand a b iha ihb | bar a b iha ihb =>
    rw [names, List.forall_mem_append, ← iha, ← ihb]
    constructor
    · rintro ⟨d, hd⟩
      obtain ⟨c, c', hc, hc', -⟩ := Result.of_pair_eq_ok hd
      exact ⟨⟨c, hc⟩, c', hc'⟩
    · rintro ⟨⟨c, hc⟩, c', hc'⟩
      exact ⟨_, by rw [container, hc, hc']; rfl⟩
  | not a ih | exclamation a ih =>
    rw [names, ← ih]
    constructor
    · rintro ⟨d, hd⟩
      obtain ⟨c, hc, -⟩ := Result.of_bind_eq_ok hd
      exact ⟨c, hc⟩
    · rintro ⟨c, hc⟩
      exact ⟨_, by rw [container, hc]; rfl⟩

end ContainerCalls

/-! ### Reading the name -/

/-- A name with its space is read, since `not` is refused as a name. -/
theorem reads_containerName (n : ContainerName) :
    Reads Reader.containerName (css n ++ [' ']) (some (n.name.toList.map replaced)) Anything := by
  intro rest _
  have hread := n.reads_token (' ' :: rest) (.cons (by decide))
  have hwords : isOneOf Container.nameWords (String.ofList (n.name.toList.map replaced)) = false :=
    isOneOf_replaced (by decide) n.allowed
  have hnot := List.any_eq_false.mp hwords "not" (by decide)
  rw [List.append_assoc]
  show Reader.containerName (css n.toIdentifier ++ ' ' :: rest) = _
  rw [Reader.containerName, hread]
  exact if_neg (by simp [hnot])

/-- In front of a condition the name is read off the text, or that there is none. -/
theorem Container.reads_name (c : Container) :
    Reads Reader.container ("@container ".toList ++ (c.name.map (css · ++ [' '])).getD [])
      (c.name.map fun n => n.name.toList.map replaced) NoName := by
  refine Reads.after _ ?_
  cases c.name with
  | none => exact fun rest h => h
  | some n => exact (reads_containerName n).of_anything

/-- **A name is never mistaken for the condition.** Calls that make a condition on a container
succeed unless they give a name that is one of four words, whatever its case; the name is
then the one given last along the left operands, and it is read off the text with what is
left as the condition. Naming changes the name only, and joining and negating the condition
only, whatever the name on the right. -/
theorem container_name_reads_back :
    (∀ a : ContainerCalls,
      (∃ c, a.container = .ok c) ↔
        ∀ n ∈ a.names, isOneOf Container.nameWords n.name = false) ∧
    (∀ (a : ContainerCalls) (c : Container), a.container = .ok c →
      c.name.map (·.toCustomIdent) = a.name ∧
      (∀ n ∈ c.name, n.name ≠ "" ∧ isOneOf reservedWords n.name = false ∧
        isOneOf Container.nameWords n.name = false) ∧
      Reader.container (css c) =
        some (c.name.map fun n => n.name.toList.map replaced, css c.condition)) ∧
    (∀ (c : Container) (name : CustomIdent),
      (isOneOf Container.nameWords name.name = true ∧
        c.named name = .error (.reservedIdentifier name.name)) ∨
      ∃ h : isOneOf Container.nameWords name.name = false,
        c.named name = .ok {c with name := some ⟨name, h⟩}) ∧
    ∀ (a b : Container) (n : Option ContainerName),
      a.and b = ⟨a.name, a.condition.conjoin b.condition⟩ ∧ (a &&& b) = a.and b ∧
      a.or b = ⟨a.name, a.condition.disjoin b.condition⟩ ∧ (a ||| b) = a.or b ∧
      a.not = ⟨a.name, .not a.condition⟩ ∧ (~~~a) = a.not ∧
      a.and {b with name := n} = a.and b ∧ a.or {b with name := n} = a.or b := by
  refine ⟨ContainerCalls.exists_container_iff, fun a c h => ?_, Container.named_eq,
    fun a b n => ⟨rfl, rfl, rfl, rfl, rfl, rfl, rfl, rfl⟩⟩
  have hmakes := ContainerCalls.makes_of_eq_ok h
  exact ⟨hmakes.name_eq, fun n _ => ⟨n.ne_empty, n.not_reserved, n.allowed⟩,
    c.reads_name (css c.condition) (.condition hmakes.formed)⟩

/-- The name `style` in front of the function of that name. -/
theorem container_name_reads_back_style :
    ∃ (a : ContainerCalls) (c : Container), a.container = .ok c ∧
      css c = "@container style style(--x:a)".toList ∧
      Reader.container (css c) = some (some "style".toList, "style(--x:a)".toList) := by
  let style : CustomIdent := ⟨⟨"style", by decide⟩, by decide⟩
  let d : Declaration := ⟨"--x".toList, ['a'], true⟩
  let a : ContainerCalls := .named (.declaration d) style
  let c : Container := ⟨some ⟨style, by decide⟩, (Container.ofDeclaration d).condition⟩
  obtain ⟨-, hreads, hnamed, -⟩ := container_name_reads_back
  have hmade : a.container = .ok c := by
    obtain ⟨hrefused, -⟩ | ⟨_, hmade⟩ := hnamed (.ofDeclaration d) style
    · exact absurd hrefused (by decide)
    · exact hmade
  exact ⟨a, c, hmade, by decide, (hreads a c hmade).2.2.trans (by decide)⟩

end Stylesheet
