import Stylesheet.Proofs.Condition.Reading
import Stylesheet.Proofs.Declaration.Leaf
import Stylesheet.Proofs.Importance.Calls
import Stylesheet.Proofs.Importance.Test

/-! Conditions know nothing of importance.

A declaration in a condition is never important, so that with quiet values no exclamation
mark is left in the text of a condition, nor in the rules that have it in front. -/
namespace Stylesheet

/-! ### Unmarked text -/

namespace Scan
variable {s s' : Scan} {n : List Bracket} {u v : List Char}

/-- The characters outside of strings in two texts, one after the other. -/
theorem unprotected_append (h : s.run u = some s') :
    s.unprotected (u ++ v) = s.unprotected u ++ s'.unprotected v := by
  induction u generalizing s with
  | nil =>
    obtain rfl := Option.some.inj h
    rfl
  | cons c u ih =>
    obtain ⟨s₁, hstep, hrun⟩ := Option.bind_eq_some_iff.mp h
    simp only [List.cons_append, unprotected, hstep, Option.map_some, Option.getD_some, ih hrun]
    split
    · rfl
    · rfl

/-- What brackets were open before makes no difference. -/
theorem unprotected_frame (h : s.run u = some s') :
    unprotected ⟨s.mode, s.opened ++ n⟩ u = s.unprotected u := by
  induction u generalizing s with
  | nil => rfl
  | cons c u ih =>
    obtain ⟨s₁, hstep, hrun⟩ := Option.bind_eq_some_iff.mp h
    simp only [unprotected, hstep, step_frame hstep n, Option.map_some, Option.getD_some, ih hrun]
    rfl

end Scan

/-- The scan reads all of the text, leaves nothing open and meets no exclamation mark. -/
def Unmarked (t : List Char) : Prop := Closed t ∧ '!' ∉ Scan.start.unprotected t

namespace Unmarked
variable {s t : List Char}

/-- A quiet text that leaves nothing open is unmarked. -/
theorem of_quiet {top : Char → Bool} (hnested : Nested top t) (hquiet : Quiet t) : Unmarked t :=
  ⟨hnested.is_closed, hquiet.not_mem_unprotected rfl⟩

/-- Closed texts do not change what the scan sees of each other. -/
theorem append (hs : Unmarked s) (ht : Unmarked t) : Unmarked (s ++ t) := by
  constructor
  · rw [Closed, Scan.run_append hs.1, ht.1]
  · rw [Scan.unprotected_append hs.1, List.mem_append, not_or]
    exact ⟨hs.2, ht.2⟩

/-- A list of unmarked texts. -/
theorem flatMap {α : Type} {f : α → List Char} {items : List α}
    (h : ∀ a ∈ items, Unmarked (f a)) : Unmarked (items.flatMap f) := by
  induction items with
  | nil => exact ⟨rfl, List.not_mem_nil⟩
  | cons a items ih =>
    obtain ⟨ha, hitems⟩ := List.forall_mem_cons.mp h
    exact ha.append (ih hitems)

/-- A block is unmarked when its body is, since brackets around a text do not matter to what is
outside of strings. -/
theorem block (ht : Unmarked t) : Unmarked ('\x7b' :: (t ++ ['\x7d'])) := by
  have hpasses : Scan.Passes Scan.ruleMark ⟨.bare, [.curly]⟩ t ⟨.bare, [.curly]⟩ :=
    .of_closed nofun ht.1
  have hframe : Scan.unprotected ⟨.bare, [.curly]⟩ t = Scan.start.unprotected t :=
    Scan.unprotected_frame (n := [.curly]) ht.1
  constructor
  · show Scan.run ⟨.bare, [.curly]⟩ (t ++ ['\x7d']) = _
    rw [Scan.run_append hpasses.run_eq]
    rfl
  · show '!' ∉ '\x7b' :: Scan.unprotected ⟨.bare, [.curly]⟩ (t ++ ['\x7d'])
    rw [Scan.unprotected_append hpasses.run_eq, hframe, List.mem_cons, List.mem_append, not_or,
      not_or]
    exact ⟨by decide, ht.2, by decide⟩

theorem space : Unmarked [' '] := ⟨rfl, by decide⟩

/-- A block of rules is unmarked when the rules are. -/
theorem rules {lead : List Char} {list : List Rule} (hlead : Unmarked lead)
    (hlist : ∀ r ∈ list, Unmarked (css r)) :
    Unmarked (lead ++ ' ' :: blockText (Rule.texts list)) := by
  have hparts : Unmarked ((Rule.texts list).flatMap (' ' :: ·) ++ [' ']) :=
    .append (.flatMap (Rule.forall_texts fun r hr => space.append (hlist r hr))) space
  rw [blockText_eq]
  exact hlead.append (space.append hparts.block)

end Unmarked

/-! ### The text of conditions -/

namespace Condition
variable {Test : Type}

/-- Parentheses are quiet. -/
theorem quiet_enclose {c : Condition Test} {text : List Char} (h : Quiet text) :
    Quiet (c.enclose text) := by
  cases c with
  | test t => exact h
  | not c => exact h.enclosed .round
  | and cs => exact h.enclosed .round
  | or cs => exact h.enclosed .round

mutual

/-- **A condition is quiet when its tests are**, at any depth. -/
theorem quiet_text [ToCss Test] : ∀ c : Condition Test, (∀ t ∈ c.tests, Quiet (css t)) →
    Quiet c.text
  | test t, h => h t (List.mem_singleton_self t)
  | not c, h => (Quiet.word).append (quiet_enclose (quiet_text c h))
  | and cs, h => .joined .word (quiet_termTexts cs h)
  | or cs, h => .joined .word (quiet_termTexts cs h)

/-- The terms of a chain, each with the tests that are its own. -/
theorem quiet_termTexts [ToCss Test] : ∀ cs : List (Condition Test),
    (∀ t ∈ testsOf cs, Quiet (css t)) → ∀ t ∈ termTexts cs, Quiet t
  | [], _ => List.forall_mem_nil _
  | c :: cs, h => by
    obtain ⟨hc, hcs⟩ := List.forall_mem_append.mp h
    exact List.forall_mem_cons.mpr
      ⟨quiet_enclose (quiet_text c hc), quiet_termTexts cs hcs⟩

end

end Condition

/-- For each of the types listed, instance search finds that its values are quiet. -/
theorem isQuiet_value : ∀ T ∈ valueTypes, IsQuiet T.Value := by
  simp only [valueTypes, List.forall_mem_cons]
  repeat' apply And.intro
  all_goals first | infer_instance | exact List.forall_mem_nil _

/-- Values that are no blocks are quiet, by induction on how they are made of others. -/
theorem LeafText.quiet {t : List Char} (h : LeafText t) : Quiet t := by
  induction h with
  | value hT a =>
    have := isQuiet_value _ hT
    exact IsQuiet.quiet a
  | own a => exact IsQuiet.quiet a
  | property a => exact IsQuiet.quiet a
  | sides s _ _ _ _ htop hright hbottom hleft =>
    refine .joined .word fun t ht => ?_
    obtain ⟨a, ha, rfl⟩ := List.mem_map.mp ht
    rcases Sides.mem_shortest ha with rfl | rfl | rfl | rfl
    · exact htop
    · exact hright
    · exact hbottom
    · exact hleft
  | shadows list _ ih =>
    obtain ⟨items⟩ := list
    cases items with
    | nil => exact .word
    | cons a items => exact .joined .word (List.forall_mem_map.mpr ih)

/-- The name and the value are quiet, whether the declaration is important or not. -/
theorem Declaration.Leaf.quiet {d : Declaration} (h : d.Leaf) : Quiet d.name ∧ Quiet d.value := by
  induction h with
  | property p => exact ⟨IsQuiet.quiet p.name, IsQuiet.quiet p.value⟩
  | custom name value hvalue => exact ⟨IsQuiet.quiet name, hvalue.quiet⟩
  | descriptor hname => exact hname.elim
  | important _ ih => exact ih

/-- As a condition writes it. -/
theorem Declaration.Leaf.quiet_unimportant {d : Declaration} (h : d.Leaf) :
    Quiet (css (⟨d.name, d.value, false⟩ : Declaration)) :=
  (h.quiet.1.append (.cons h.quiet.2)).append .nil

/-- Of a test only the declaration could be important. -/
theorem SupportsTest.quiet_unimportant {t : SupportsTest}
    (h : ∀ d, t = .declaration d → d.Leaf) : Quiet (css t.unimportant) := by
  cases t with
  | declaration d => exact .call (h d rfl).quiet_unimportant
  | selector s => exact .call (IsQuiet.quiet s)
  | fontTech t => exact .call (IsQuiet.quiet t)
  | fontFormat f => exact .call (IsQuiet.quiet f)

theorem ContainerTest.quiet_unimportant {t : ContainerTest}
    (h : ∀ d, t = .style d → d.Leaf) : Quiet (css t.unimportant) := by
  cases t with
  | size feature => exact IsQuiet.quiet feature
  | style d => exact .call (h d rfl).quiet_unimportant

/-- The tests of the condition are those handed in, each quiet once it is unmarked. -/
theorem SupportsCalls.quiet_condition {a : SupportsCalls}
    (h : ∀ d, .declaration d ∈ a.given → d.Leaf) : Quiet (css a.supports.condition) := by
  refine Condition.quiet_text _ fun t ht => ?_
  rw [a.tests_eq] at ht
  obtain ⟨given, hgiven, rfl⟩ := List.mem_map.mp ht
  exact SupportsTest.quiet_unimportant fun d hd => h d (hd ▸ hgiven)

/-- In the clause of an import a single declaration stands without parentheses. -/
theorem SupportsCalls.quiet_argument {a : SupportsCalls}
    (h : ∀ d, .declaration d ∈ a.given → d.Leaf) : Quiet a.supports.argument := by
  unfold Supports.argument
  split
  · rename_i d htest
    obtain ⟨e, he, rfl⟩ := exists_given (Condition.mem_tests_of_test? htest)
    exact (h e he).quiet_unimportant
  · exact quiet_condition h

theorem ContainerCalls.Makes.quiet_condition {a : ContainerCalls} {c : Container}
    (hc : a.Makes c) (h : ∀ d, .style d ∈ a.given → d.Leaf) : Quiet (css c.condition) := by
  refine Condition.quiet_text _ fun t ht => ?_
  rw [hc.tests_eq] at ht
  obtain ⟨given, hgiven, rfl⟩ := List.mem_map.mp ht
  exact ContainerTest.quiet_unimportant fun d hd => h d (hd ▸ hgiven)

/-! ### What the calls build -/

/-- The calls build a condition in the sense of `Supports.Built`, with values that are no blocks
and no names of descriptors. -/
theorem SupportsCalls.built {a : SupportsCalls} (h : ∀ d, .declaration d ∈ a.given → d.Leaf) :
    a.supports.Built (fun _ => False) LeafText := by
  induction a with
  | property p => exact .ofProperty p
  | declaration d => exact .ofDeclaration (h d (List.mem_singleton_self _))
  | selector s => exact .selector s
  | fontTech t => exact .fontTech t
  | fontFormat f => exact .fontFormat f
  | and a b iha ihb | ampersand a b iha ihb =>
    exact .and (iha fun d hd => h d (List.mem_append_left _ hd))
      (ihb fun d hd => h d (List.mem_append_right _ hd))
  | or a b iha ihb | bar a b iha ihb =>
    exact .or (iha fun d hd => h d (List.mem_append_left _ hd))
      (ihb fun d hd => h d (List.mem_append_right _ hd))
  | not a ih | exclamation a ih => exact .not (ih h)

/-- The same for conditions on containers, which may fail for their names. -/
theorem ContainerCalls.Makes.built {a : ContainerCalls} {c : Container} (hc : a.Makes c)
    (h : ∀ d, .style d ∈ a.given → d.Leaf) : c.Built (fun _ => False) LeafText := by
  induction hc with
  | size f => exact .ofSize f
  | property p => exact .ofProperty p
  | declaration d => exact .ofDeclaration (h d (List.mem_singleton_self _))
  | named _ hname ih => exact .named (ih h) hname
  | and _ _ iha ihb | ampersand _ _ iha ihb =>
    exact .and (iha fun d hd => h d (List.mem_append_left _ hd))
      (ihb fun d hd => h d (List.mem_append_right _ hd))
  | or _ _ iha ihb | bar _ _ iha ihb =>
    exact .or (iha fun d hd => h d (List.mem_append_left _ hd))
      (ihb fun d hd => h d (List.mem_append_right _ hd))
  | not _ ih | exclamation _ ih => exact .not (ih h)

theorem nested_of_false (t : List Char) (h : False) : Nested anyChar t := h.elim

theorem LeafText.nested_any (t : List Char) (h : LeafText t) : Nested anyChar t := h.clean.1.any

/-- The whole condition, with the word in front of it. -/
theorem SupportsCalls.unmarked {a : SupportsCalls} (h : ∀ d, .declaration d ∈ a.given → d.Leaf) :
    Unmarked (css a.supports) := by
  have hnested := (built h).nested_condition nested_of_false LeafText.nested_any
  exact .of_quiet ((Nested.word rfl).append hnested) ((Quiet.word).append (quiet_condition h))

/-- The clause of an import. -/
theorem SupportsCalls.unmarked_supportsText {a : SupportsCalls}
    (h : ∀ d, .declaration d ∈ a.given → d.Leaf) :
    Unmarked (ImportRule.supportsText a.supports) := by
  have hargument := (built h).nested_argument nested_of_false LeafText.nested_any
  have hnested : Nested preludeChar (ImportRule.supportsText a.supports) :=
    .cons (.call hargument rfl rfl) rfl
  exact .of_quiet hnested (.cons (.call (quiet_argument h)))

/-- A name in front of the condition is an identifier, and quiet. -/
theorem ContainerCalls.Makes.unmarked {a : ContainerCalls} {c : Container} (hc : a.Makes c)
    (h : ∀ d, .style d ∈ a.given → d.Leaf) : Unmarked (css c) := by
  have hnested := (hc.built h).nested_condition nested_of_false LeafText.nested_any
  have hname : Nested preludeChar ((c.name.map (css · ++ [' '])).getD []) ∧
      Quiet ((c.name.map (css · ++ [' '])).getD []) := by
    cases c.name with
    | none => exact ⟨.nil, .nil⟩
    | some name =>
      exact ⟨(nested name).append (.of_all rfl), (IsQuiet.quiet name).append .of_all⟩
  exact .of_quiet (((Nested.word rfl).append hname.1).append hnested)
    (((Quiet.word).append hname.2).append (hc.quiet_condition h))

/-! ### No importance -/

end Stylesheet
