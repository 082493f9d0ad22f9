import Stylesheet.Proofs.Condition.Reading

/-! The condition of an import and that of a rule.

A condition is written twice: behind the name of a rule, and as the argument of `supports`
in an import. The two differ for a single declaration only, which leaves its parentheses to
the function. Nor can the reader of an argument take a condition for a declaration, since a
declaration has a colon outside of its brackets and a condition has none. -/
namespace Stylesheet

namespace Supports
variable {s : Supports} {d : Declaration}

/-- A single declaration goes without parentheses of its own. -/
theorem argument_of_declaration (h : s.condition = .test (.declaration d)) :
    s.argument = css d := by
  rw [argument, h]
  rfl

/-- As a rule, the declaration has them. -/
theorem css_condition_of_declaration (h : s.condition = .test (.declaration d)) :
    css s.condition = '(' :: (s.argument ++ [')']) := by
  rw [argument_of_declaration h, h]
  rfl

/-- Everything else is written alike in both places. -/
theorem argument_of_not_declaration (h : ∀ d, s.condition ≠ .test (.declaration d)) :
    s.argument = css s.condition := by
  unfold argument
  split
  · rename_i d htest
    exact absurd (Condition.eq_test htest) (h d)
  · rfl

section Built
variable {N V : List Char → Prop}

variable (hN : ∀ t, N t → Nested anyChar t) (hV : ∀ t, V t → Nested anyChar t)
include hN hV

/-- A condition has no colon outside of its brackets. -/
theorem Built.passes_condition (hs : s.Built N V) :
    Scan.Passes testMark .start (css s.condition) .start := by
  obtain ⟨p, htext, -⟩ := hs.formed.exists_parse
  have hpasses := p.passes <| by
    rintro _ ⟨t, ht, rfl⟩
    exact ht.testGroup hN hV
  rwa [htext] at hpasses

/-- The argument shows whether it is a declaration. -/
theorem Built.argument_iff (hs : s.Built N V) :
    (∃ d : Declaration, d.Built N V ∧ s.argument = css d) ↔
      ∃ d, s.condition = .test (.declaration d) := by
  constructor
  · rintro ⟨d, hd, heq⟩
    refine Classical.byContradiction fun hnot => ?_
    have hlone : ∀ d, s.condition ≠ .test (.declaration d) := fun d h => hnot ⟨d, h⟩
    have hmarks := (hs.passes_condition hN hV).marks_eq
    rw [← argument_of_not_declaration hlone, heq] at hmarks
    exact marks_declaration (hd.nested_parts hN hV).1 hmarks
  · rintro ⟨d, hd⟩
    exact ⟨d, hs.declaration hd, argument_of_declaration hd⟩

end Built

/-- How the argument of `supports` in an import and the condition of a rule compare. -/
structure WritersAgree (s : Supports) : Prop where
  lone : ∀ d, s.condition = .test (.declaration d) →
    s.argument = css d ∧ css s = "@supports ".toList ++ '(' :: (s.argument ++ [')'])
  other : (∀ d, s.condition ≠ .test (.declaration d)) → css s = "@supports ".toList ++ s.argument
  bare_iff : s.argument ≠ css s.condition ↔ ∃ d, s.condition = .test (.declaration d)
  /-- As far as blocks of descriptors have closed names, the text alone tells them apart. -/
  declaration_iff : s.Built Closed (ValueText Closed) →
    ((∃ d : Declaration, d.Built Closed (ValueText Closed) ∧ s.argument = css d) ↔
      ∃ d, s.condition = .test (.declaration d))

/-- **The two places differ by one pair of parentheses at most.** -/
theorem writersAgree (s : Supports) : s.WritersAgree where
  lone d h := by
    refine ⟨argument_of_declaration h, ?_⟩
    rw [← css_condition_of_declaration h]
    rfl
  other h := by
    rw [argument_of_not_declaration h]
    rfl
  bare_iff := by
    constructor
    · intro hne
      refine Classical.byContradiction fun hnot => hne ?_
      exact argument_of_not_declaration fun d h => hnot ⟨d, h⟩
    · rintro ⟨d, h⟩ heq
      have hlength := congrArg List.length (heq.trans (css_condition_of_declaration h))
      rw [List.length_cons, List.length_append] at hlength
      omega
  declaration_iff hs := hs.argument_iff (fun _ => nested_of_closed)
    fun _ ht => ht.nested fun _ => nested_of_closed

end Supports

end Stylesheet
