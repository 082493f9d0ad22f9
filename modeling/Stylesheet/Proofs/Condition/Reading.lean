import Stylesheet.Proofs.Condition.Grammar
import Stylesheet.Proofs.Condition.Meaning
import Stylesheet.Proofs.Nesting.Rule
import Stylesheet.Proofs.Reading.Reader

/-! Reading a condition back.

The text of a condition has one parse, which is the condition itself with the texts of
its tests, and which means what the calls say. -/
namespace Stylesheet

/-! ### The text of a condition has a parse -/

/-- **Whatever the calls are, the condition they make is well formed.** -/
theorem Calls.formed {Test : Type} {P : Test → Prop} {a : Calls Test} (h : a.Forall P) :
    a.condition.Formed P := by
  induction a with
  | test t => exact .test h
  | not a ih => exact .not (ih h)
  | and a b iha ihb => exact (iha h.1).conjoin (ihb h.2)
  | or a b iha ihb => exact (iha h.1).disjoin (ihb h.2)

/-- The texts of the values that satisfy `P`. -/
def TextOf {Test : Type} [ToCss Test] (P : Test → Prop) (t : List Char) : Prop :=
  ∃ a, P a ∧ css a = t

section Parses
variable {Test : Type} [ToCss Test] {P : Test → Prop} {c : Condition Test}

/-- A parse of a condition, as an operand. -/
theorem exists_operand (hc : c.Formed P)
    (h : ∃ p : Parse (TextOf P), p.text = c.text ∧ p.condition = c.map css) :
    ∃ p : Operand (TextOf P), p.text = c.enclose c.text ∧ p.condition = c.map css := by
  obtain ⟨p, htext, hcondition⟩ := h
  cases hc with
  | @test t ht => exact ⟨.leaf (css t) ⟨t, ht, rfl⟩, rfl, rfl⟩
  | not _ | and _ _ | or _ _ =>
    refine ⟨.parens p, ?_, hcondition⟩
    rw [Operand.text, htext]
    rfl

/-- Each condition of a chain is an operand. -/
theorem exists_operands {cs : List (Condition Test)}
    (h : ∀ c ∈ cs, ∃ p : Operand (TextOf P), p.text = c.enclose c.text ∧ p.condition = c.map css)
    (operator : List Char) :
    ∃ ps : List (Operand (TextOf P)),
      Operand.tail operator ps = (Condition.termTexts cs).flatMap (operator ++ ·) ∧
        Operand.conditions ps = Condition.maps css cs := by
  induction cs with
  | nil => exact ⟨[], rfl, rfl⟩
  | cons c cs ih =>
    obtain ⟨p, htext, hcondition⟩ := h c (List.mem_cons_self ..)
    obtain ⟨ps, htail, hconditions⟩ := ih fun d hd => h d (List.mem_cons_of_mem _ hd)
    refine ⟨p :: ps, ?_, ?_⟩
    · rw [Operand.tail, htext, htail, Condition.termTexts, List.flatMap_cons]
    · rw [Operand.conditions, hcondition, hconditions, Condition.maps]

/-- The operands of a junction. -/
theorem exists_junction {cs : List (Condition Test)} (hlength : 2 ≤ cs.length)
    (h : ∀ c ∈ cs, ∃ p : Operand (TextOf P), p.text = c.enclose c.text ∧ p.condition = c.map css)
    (operator : List Char) :
    ∃ (p q : Operand (TextOf P)) (rest : List (Operand (TextOf P))),
      p.text ++ operator ++ q.text ++ Operand.tail operator rest =
        joined operator (Condition.termTexts cs) ∧
      p.condition :: q.condition :: Operand.conditions rest = Condition.maps css cs := by
  obtain ⟨ps, htail, hconditions⟩ := exists_operands h operator
  match cs, hlength with
  | c :: d :: cs, _ =>
    match ps with
    | p :: q :: rest =>
      refine ⟨p, q, rest, ?_, hconditions⟩
      have hfront : operator ++ (p.text ++ operator ++ q.text ++ Operand.tail operator rest) =
          operator ++ joined operator (Condition.termTexts (c :: d :: cs)) := by
        simp only [Operand.tail, Condition.termTexts, List.flatMap_cons, joined_cons,
          List.append_assoc] at htail ⊢
        exact htail
      exact List.append_cancel_left hfront
    | [p] => simp [Operand.conditions, Condition.maps] at hconditions
    | [] => simp [Operand.conditions, Condition.maps] at hconditions

/-- **A well-formed condition has a parse**, which has its text and stands for it. -/
theorem Condition.Formed.exists_parse (hc : c.Formed P) :
    ∃ p : Parse (TextOf P), p.text = c.text ∧ p.condition = c.map css := by
  induction hc with
  | @test t ht => exact ⟨.leaf (css t) ⟨t, ht, rfl⟩, rfl, rfl⟩
  | not hc ih =>
    obtain ⟨p, htext, hcondition⟩ := exists_operand hc ih
    refine ⟨.not p, ?_, ?_⟩
    · rw [Parse.text, htext, Condition.text]
    · rw [Parse.condition, hcondition, Condition.map]
  | and hlength hcs ih =>
    obtain ⟨p, q, rest, htext, hconditions⟩ :=
      exists_junction hlength (fun c hc => exists_operand (hcs c hc) (ih c hc)) " and ".toList
    exact ⟨.and p q rest, htext, congrArg Condition.and hconditions⟩
  | or hlength hcs ih =>
    obtain ⟨p, q, rest, htext, hconditions⟩ :=
      exists_junction hlength (fun c hc => exists_operand (hcs c hc) (ih c hc)) " or ".toList
    exact ⟨.or p q rest, htext, congrArg Condition.or hconditions⟩

end Parses

/-! ### Tests are groups -/

/-- Nested text leaves nothing open. -/
theorem Nested.is_closed {top : Char → Bool} {t : List Char} (ht : Nested top t) : Closed t := by
  have h : Scan.Passes (fun _ => false) .start t .start :=
    ht.passes fun _ => ⟨fun _ => rfl, fun _ => rfl, fun _ => rfl, fun _ => rfl⟩
  exact h.run_eq

/-- A mark behind closed text is met. -/
theorem Scan.marks_ne_nil {isMark : Char → Bool} {c : Char} {u v : List Char} (hu : Closed u)
    (hc : isPlain c) (hmark : isMark c) : Scan.start.marks isMark (u ++ c :: v) ≠ [] := by
  have hstep : Scan.start.step c = some .start := stepBare_plain hc
  rw [marks_append hu, marks, hstep, hmark]
  simp [outer, start, isBare]

/-- A declaration has its colon outside of brackets. -/
theorem marks_declaration {d : Declaration} (hname : Nested anyChar d.name) :
    Scan.start.marks testMark (css d) ≠ [] := by
  have htext : css d =
      d.name ++ ':' :: (d.value ++ if d.important then "!important".toList else []) := by
    show d.name ++ ':' :: d.value ++ _ = _
    rw [List.append_assoc, List.cons_append]
  rw [htext]
  exact Scan.marks_ne_nil hname.is_closed (by decide) rfl

/-- A function is a test by its name, which has no mark of an operator. -/
theorem testGroup_call {name t : List Char} (ht : Nested anyChar t) (hne : name ≠ [])
    (hname : name.all isLetter) : TestGroup (call (String.ofList name) t) := by
  rw [call_ofList]
  exact .named hne (List.all_eq_true.mp hname) ht.is_closed

/-- A test in parentheses has a colon in it, and so is no condition in parentheses. -/
theorem testGroup_named {t : NamedTest} (hname : Nested anyChar t.name) {value : List Char}
    (hvalue : t.value = some value) (hnested : Nested anyChar value) : TestGroup (css t) := by
  have htext : css t = '(' :: ((t.name ++ ':' :: ' ' :: value) ++ [')']) := by
    show '(' :: t.name ++ (t.value.map (": ".toList ++ ·)).getD [] ++ [')'] = _
    simp [hvalue]
  rw [htext]
  exact .marked (hname.append (.cons (.cons hnested rfl) rfl)).is_closed
    (Scan.marks_ne_nil hname.is_closed (by decide) rfl)

theorem testGroup_bounded {α : Type} [ToCss α] [Nests anyChar α] {name : List Char}
    (bound : Bound) (a : α) (hname : areAll anyChar name) :
    TestGroup (css (NamedTest.bounded bound (String.ofList name) a)) :=
  testGroup_named ((nested_bound bound).append (.word hname)) rfl (nested a)

theorem exists_comparison (c : Comparison) : ∃ d t, css c = d :: t ∧ isPlain d ∧ testMark d := by
  cases c with
  | less => exact ⟨'<', [], by decide, by decide, by decide⟩
  | lessEqual => exact ⟨'<', ['='], by decide, by decide, by decide⟩
  | greater => exact ⟨'>', [], by decide, by decide, by decide⟩
  | greaterEqual => exact ⟨'>', ['='], by decide, by decide, by decide⟩
  | equal => exact ⟨'=', [], by decide, by decide, by decide⟩

/-- A range has its first comparison outside of brackets. -/
theorem testGroup_range (t : RangeTest) : TestGroup (css t) := by
  have hmark : ∀ {u v : List Char} (c : Comparison), Closed u →
      Scan.start.marks testMark (u ++ [' '] ++ (css c ++ v)) ≠ [] := by
    intro u v c hu
    obtain ⟨d, w, htext, hplain, hmark⟩ := exists_comparison c
    have hspaced : Closed (u ++ [' ']) := by
      rw [Closed, Scan.run_append hu]
      rfl
    rw [htext]
    exact Scan.marks_ne_nil hspaced hplain hmark
  refine .marked (nested_rangeWords t).is_closed ?_
  cases t with
  | compare feature comparison value =>
    have htext : joined [' '] (RangeTest.compare feature comparison value).words =
        css feature ++ [' '] ++ (css comparison ++ ([' '] ++ css value)) := by
      simp [RangeTest.words, joined]
    have hfeature : Nested wordChar (css feature) := nested feature
    rw [htext]
    exact hmark comparison hfeature.is_closed
  | interval lower fromLower feature toUpper upper =>
    have htext : joined [' '] (RangeTest.interval lower fromLower feature toUpper upper).words =
        css lower ++ [' '] ++ (css fromLower ++
          ([' '] ++ css feature ++ [' '] ++ css toUpper ++ [' '] ++ css upper)) := by
      simp [RangeTest.words, joined]
    have hlower : Nested preludeChar (css lower) := nested lower
    rw [htext]
    exact hmark fromLower hlower.is_closed

section Built
variable {N V : List Char → Prop} (hN : ∀ t, N t → Nested anyChar t)
  (hV : ∀ t, V t → Nested anyChar t)
include hN hV

/-- Every test of a condition of support may stand between operators. -/
theorem SupportsTest.Built.testGroup {t : SupportsTest} (ht : t.Built N V) : TestGroup (css t) := by
  cases ht with
  | declaration hd =>
    exact .marked (hd.nested hN hV).is_closed (marks_declaration (hd.nested_parts hN hV).1)
  | selector s => exact testGroup_call (Stylesheet.nested s) nofun rfl
  | fontTech t => exact testGroup_call (Stylesheet.nested t) nofun rfl
  | fontFormat f => exact testGroup_call (Stylesheet.nested f) nofun rfl

theorem ContainerTest.Built.testGroup {t : ContainerTest} (ht : t.Built N V) :
    TestGroup (css t) := by
  cases ht with
  | size feature =>
    cases feature with
    | width bound value => exact testGroup_bounded bound value rfl
    | height bound value => exact testGroup_bounded bound value rfl
    | inlineSize bound value => exact testGroup_bounded bound value rfl
    | blockSize bound value => exact testGroup_bounded bound value rfl
    | aspectRatio value => exact testGroup_bounded .exactly value rfl
    | orientation value => exact testGroup_bounded .exactly value rfl
    | range test => exact testGroup_range test
  | style hd => exact testGroup_call (hd.nested hN hV) nofun rfl

end Built

/-! ### Reading -/

/-- The text of the condition that the calls build has exactly one parse, which is that
condition and means what the calls say, however true the tests are. -/
def Calls.ReadsBack {Test : Type} [ToCss Test] (P : Test → Prop) (a : Calls Test) : Prop :=
  ∃ p : Parse (TextOf P), p.text = css a.condition ∧
    (∀ q : Parse (TextOf P), q.text = css a.condition → q = p) ∧
    p.condition = a.condition.map css ∧
    ∀ σ : List Char → Bool, p.condition.eval σ = a.eval fun t => σ (css t)

/-- There is one parse, it is of the condition, and it means what the calls say. -/
theorem Calls.readsBack {Test : Type} [ToCss Test] {P : Test → Prop}
    (hP : ∀ t, P t → TestGroup (css t)) {a : Calls Test} (h : a.Forall P) : a.ReadsBack P := by
  have hLeaf : ∀ t, TextOf P t → TestGroup t := by
    rintro _ ⟨test, htest, rfl⟩
    exact hP test htest
  obtain ⟨p, htext, hcondition⟩ := (Calls.formed h).exists_parse
  refine ⟨p, htext, fun q hq => ?_, hcondition, fun σ => ?_⟩
  · exact Parse.text_inj hLeaf q p (hq.trans htext.symm)
  · rw [hcondition, Condition.eval_map, Calls.eval_condition]

end Stylesheet
