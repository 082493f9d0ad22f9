import Stylesheet.Proofs.Nesting.Basic
import Stylesheet.Query.Condition

/-! The grammar of conditions, and that no text has two parses in it.

A condition is a single test, the negation of an operand, or a junction of one kind of at
least two operands; an operand is a test or a condition in parentheses. The texts of
tests are given by `Leaf`. When each is a group, in parentheses of its own, then a text
has one parse at most: where an operand ends is where its group closes, and a group that
is a test has a mark outside of inner brackets which no condition has. -/
namespace Stylesheet

/-! ### Parses -/

section Parses
variable (Leaf : List Char → Prop)

mutual

/-- A parse of a condition. -/
inductive Parse where
  | leaf (t : List Char) (isLeaf : Leaf t)
  | not (p : Operand)
  | and (first second : Operand) (rest : List Operand)
  | or (first second : Operand) (rest : List Operand)

/-- A parse of what stands beside an operator. -/
inductive Operand where
  | leaf (t : List Char) (isLeaf : Leaf t)
  | parens (p : Parse)

end

end Parses

variable {Leaf : List Char → Prop}

mutual

/-- The text that is parsed. -/
def Parse.text : Parse Leaf → List Char
  | .leaf t _ => t
  | .not p => "not ".toList ++ p.text
  | .and p q rest => p.text ++ " and ".toList ++ q.text ++ Operand.tail " and ".toList rest
  | .or p q rest => p.text ++ " or ".toList ++ q.text ++ Operand.tail " or ".toList rest

def Operand.text : Operand Leaf → List Char
  | .leaf t _ => t
  | .parens p => '(' :: (p.text ++ [')'])

/-- Operands, each behind an operator. -/
def Operand.tail (operator : List Char) : List (Operand Leaf) → List Char
  | [] => []
  | p :: ps => operator ++ p.text ++ Operand.tail operator ps

end

mutual

/-- The condition that is read off a parse. -/
def Parse.condition : Parse Leaf → Condition (List Char)
  | .leaf t _ => .test t
  | .not p => .not p.condition
  | .and p q rest => .and (p.condition :: q.condition :: Operand.conditions rest)
  | .or p q rest => .or (p.condition :: q.condition :: Operand.conditions rest)

def Operand.condition : Operand Leaf → Condition (List Char)
  | .leaf t _ => .test t
  | .parens p => p.condition

def Operand.conditions : List (Operand Leaf) → List (Condition (List Char))
  | [] => []
  | p :: ps => p.condition :: Operand.conditions ps

end

/-! ### Groups -/

/-- The characters of operators and of the names of functions. -/
def isLetter (c : Char) : Bool := c.isAlpha || c == '-'

/-- The characters that a test has outside of its inner brackets, and no condition has. -/
def testMark (c : Char) : Bool := [':', '<', '=', '>'].contains c

/-- Text in parentheses that close each other, behind a name or none. -/
inductive Group : List Char → Prop where
  | mk {name inner} : (∀ c ∈ name, isLetter c) → Closed inner →
      Group (name ++ '(' :: (inner ++ [')']))

/-- A group that is a test: it has a name, or a mark inside. -/
inductive TestGroup : List Char → Prop where
  | named {name inner} : name ≠ [] → (∀ c ∈ name, isLetter c) → Closed inner →
      TestGroup (name ++ '(' :: (inner ++ [')']))
  | marked {inner} : Closed inner → Scan.start.marks testMark inner ≠ [] →
      TestGroup ('(' :: (inner ++ [')']))

theorem Group.parens {inner : List Char} (h : Closed inner) : Group ('(' :: (inner ++ [')'])) :=
  show Group ([] ++ '(' :: (inner ++ [')'])) from .mk nofun h

/-- What one test may be is among what stands between operators. -/
theorem TestGroup.group {t : List Char} (h : TestGroup t) : Group t := by
  cases h with
  | named _ hname hinner => exact .mk hname hinner
  | marked hinner _ => exact .parens hinner

/-- The parenthesis that closes a group is where its content ends. -/
theorem Closed.append_inj {s t u v : List Char} (hs : Closed s) (ht : Closed t)
    (h : s ++ ')' :: u = t ++ ')' :: v) : s = t ∧ u = v := by
  -- a closed text cannot go on behind a parenthesis that it did not open
  have hlonger : ∀ {s t mid : List Char}, Closed s → Closed t → t = s ++ ')' :: mid → False := by
    intro s t mid hs ht h
    rw [Closed, h, Scan.run_append hs] at ht
    exact nomatch ht
  rcases List.append_eq_append_iff.mp h with ⟨mid, hmid, hrest⟩ | ⟨mid, hmid, hrest⟩
  · cases mid with
    | nil =>
      rw [List.nil_append] at hrest
      exact ⟨by rw [hmid, List.append_nil], (List.cons.inj hrest).2⟩
    | cons c mid =>
      obtain ⟨rfl, -⟩ := List.cons.inj hrest
      exact (hlonger hs ht hmid).elim
  · cases mid with
    | nil =>
      rw [List.nil_append] at hrest
      exact ⟨by rw [hmid, List.append_nil], (List.cons.inj hrest).2.symm⟩
    | cons c mid =>
      obtain ⟨rfl, -⟩ := List.cons.inj hrest
      exact (hlonger ht hs hmid).elim

/-- The name of a function has letters only. -/
theorem not_mem_of_isLetter {name : List Char} (h : ∀ c ∈ name, isLetter c) {c : Char}
    (hc : isLetter c = false) : c ∉ name := by
  intro hmem
  rw [h c hmem] at hc
  exact nomatch hc

/-- Two texts that agree, each with its first `c` in a known place. -/
theorem append_cons_inj {c : Char} {s t u v : List Char} (hs : c ∉ s) (ht : c ∉ t)
    (h : s ++ c :: u = t ++ c :: v) : s = t ∧ u = v := by
  induction s generalizing t with
  | nil =>
    cases t with
    | nil => exact ⟨rfl, (List.cons.inj h).2⟩
    | cons d t => exact absurd (List.cons.inj h).1.symm (List.ne_of_not_mem_cons ht).symm
  | cons d s ih =>
    cases t with
    | nil => exact absurd (List.cons.inj h).1 (List.ne_of_not_mem_cons hs).symm
    | cons e t =>
      obtain ⟨rfl, hrest⟩ := List.cons.inj h
      obtain ⟨rfl, rfl⟩ :=
        ih (List.not_mem_of_not_mem_cons hs) (List.not_mem_of_not_mem_cons ht) hrest
      exact ⟨rfl, rfl⟩

/-- **A group ends in one place only.** -/
theorem Group.append_inj {s t u v : List Char} (hs : Group s) (ht : Group t)
    (h : s ++ u = t ++ v) : s = t ∧ u = v := by
  obtain @⟨name, inner, hname, hinner⟩ := hs
  obtain @⟨name', inner', hname', hinner'⟩ := ht
  simp only [List.append_assoc, List.cons_append, List.nil_append] at h
  obtain ⟨rfl, hrest⟩ := append_cons_inj (not_mem_of_isLetter hname (by decide))
    (not_mem_of_isLetter hname' (by decide)) h
  obtain ⟨rfl, rfl⟩ := hinner.append_inj hinner' hrest
  exact ⟨rfl, rfl⟩

/-- No group begins with the operator of a negation. -/
theorem Group.ne_not {s t u v : List Char} (hs : Group s) (ht : Group t) :
    s ++ u ≠ "not ".toList ++ t ++ v := by
  intro h
  obtain @⟨name, inner, hname, -⟩ := hs
  obtain @⟨name', inner', hname', -⟩ := ht
  have hspace : ' ' ∉ name := not_mem_of_isLetter hname (by decide)
  have hround : '(' ∉ "not ".toList ++ name' := by
    rw [show "not ".toList = ['n', 'o', 't', ' '] from String.toList_ofList, List.mem_append]
    exact fun hmem => hmem.elim (by decide) (not_mem_of_isLetter hname' (by decide))
  simp only [List.append_assoc, List.cons_append] at h
  rw [← List.append_assoc] at h
  obtain ⟨rfl, -⟩ := append_cons_inj (not_mem_of_isLetter hname (by decide)) hround h
  rw [show "not ".toList = ['n', 'o', 't', ' '] from String.toList_ofList] at hspace
  simp at hspace

/-- What conditions have outside of brackets. -/
def conditionChar (c : Char) : Bool := isLetter c || c == ' ' || c == '('

theorem apart_conditionChar : Scan.Apart testMark conditionChar where
  of_top {c} h := by
    unfold testMark
    exact not_contains_of (by decide) h
  of_opening {b} _ := by cases b <;> rfl
  lexical {c} h := by
    simp only [List.mem_cons, List.not_mem_nil, or_false] at h
    obtain rfl | rfl | rfl := h <;> rfl
  hexDigit {c} h := by
    unfold testMark
    exact not_contains_of (by decide) h

theorem passes_word {cs : List Char} (h : areAll conditionChar cs := by decide) :
    Scan.Passes testMark .start (String.ofList cs).toList .start :=
  (Nested.word h).passes fun _ => apart_conditionChar

theorem passes_parens {t : List Char} (h : Closed t) :
    Scan.Passes testMark .start ('(' :: (t ++ [')'])) .start :=
  .opening .round (fun _ => rfl)
    (.append (.of_closed nofun h) (.closing .round (fun _ => rfl) .nil))

/-- No mark of the operators stands outside of a group. -/
theorem Group.passes {t : List Char} (h : Group t) : Scan.Passes testMark .start t .start := by
  obtain @⟨name, inner, hname, hinner⟩ := h
  have hletters : Nested conditionChar name := by
    refine .of_all (List.all_eq_true.mpr fun c hc => ?_)
    have hletter := hname c hc
    rw [isPlain_of (by decide) hletter, conditionChar, hletter]
    rfl
  exact (hletters.passes fun _ => apart_conditionChar).append (passes_parens hinner)

/-! ### Unique reading -/

mutual

theorem Parse.passes (hLeaf : ∀ t, Leaf t → TestGroup t) :
    ∀ p : Parse Leaf, Scan.Passes testMark .start p.text .start
  | .leaf t ht => (hLeaf t ht).group.passes
  | .not p => .append passes_word (Operand.passes hLeaf p)
  | .and p q rest =>
    (((Operand.passes hLeaf p).append passes_word).append
      (Operand.passes hLeaf q)).append (Operand.passes_tail hLeaf passes_word rest)
  | .or p q rest =>
    (((Operand.passes hLeaf p).append passes_word).append
      (Operand.passes hLeaf q)).append (Operand.passes_tail hLeaf passes_word rest)

theorem Operand.passes (hLeaf : ∀ t, Leaf t → TestGroup t) :
    ∀ p : Operand Leaf, Scan.Passes testMark .start p.text .start
  | .leaf t ht => (hLeaf t ht).group.passes
  | .parens p => passes_parens (Parse.passes hLeaf p).run_eq

theorem Operand.passes_tail (hLeaf : ∀ t, Leaf t → TestGroup t) {operator : List Char}
    (hoperator : Scan.Passes testMark .start operator .start) :
    ∀ ps : List (Operand Leaf), Scan.Passes testMark .start (Operand.tail operator ps) .start
  | [] => .nil
  | p :: ps =>
    (hoperator.append (Operand.passes hLeaf p)).append (Operand.passes_tail hLeaf hoperator ps)

end

section Unique
variable (hLeaf : ∀ t, Leaf t → TestGroup t)
include hLeaf

/-- An operand is a group, whatever condition it holds. -/
theorem Operand.group (p : Operand Leaf) : Group p.text := by
  cases p with
  | leaf t ht => exact (hLeaf t ht).group
  | parens p => exact .parens (p.passes hLeaf).run_eq

/-- A test is no condition in parentheses. -/
theorem leaf_ne_parens {t : List Char} (ht : Leaf t) (p : Parse Leaf) :
    t ≠ '(' :: (p.text ++ [')']) := by
  rintro rfl
  have hp := p.passes hLeaf
  generalize htext : '(' :: (p.text ++ [')']) = t at ht
  cases hLeaf _ ht with
  | @named name inner hne hname _ =>
    cases name with
    | nil => exact hne rfl
    | cons c name =>
      obtain ⟨rfl, -⟩ := List.cons.inj htext
      exact absurd (hname '(' (List.mem_cons_self ..)) (by decide)
  | @marked inner _ hmarks =>
    obtain ⟨-, htext⟩ := List.cons.inj htext
    rw [← List.append_cancel_right htext, hp.marks_eq] at hmarks
    exact hmarks rfl

/-- No test begins with the word `not`. -/
theorem leaf_ne_not {t : List Char} (ht : Leaf t) (p : Operand Leaf) :
    t ≠ "not ".toList ++ p.text := by
  have := (hLeaf t ht).group.ne_not (p.group hLeaf) (u := []) (v := [])
  rwa [List.append_nil, List.append_nil] at this

variable {operator u : List Char} (hne : operator ≠ [])

include hne in
/-- No test is two operands with an operator between. -/
theorem leaf_ne_junction {t : List Char} (ht : Leaf t) (p q : Operand Leaf) :
    t ≠ p.text ++ operator ++ q.text ++ u := by
  intro h
  rw [← List.append_nil t, List.append_assoc, List.append_assoc] at h
  have := ((hLeaf t ht).group.append_inj (p.group hLeaf) h).2
  exact hne (List.append_eq_nil_iff.mp this.symm).1

/-- Nor is a negation. -/
theorem not_ne_junction (r p q : Operand Leaf) :
    "not ".toList ++ r.text ≠ p.text ++ operator ++ q.text ++ u := by
  intro h
  rw [List.append_assoc, List.append_assoc, ← List.append_nil ("not ".toList ++ r.text)] at h
  exact (p.group hLeaf).ne_not (r.group hLeaf) h.symm

/-- An operand ends where its group closes, so the operands of two junctions agree. -/
theorem junction_inj {p q p' q' : Operand Leaf} {u' : List Char}
    (h : p.text ++ operator ++ q.text ++ u = p'.text ++ operator ++ q'.text ++ u') :
    p.text = p'.text ∧ q.text = q'.text ∧ u = u' := by
  simp only [List.append_assoc] at h
  obtain ⟨hp, hrest⟩ := (p.group hLeaf).append_inj (p'.group hLeaf) h
  obtain ⟨hq, hu⟩ := (q.group hLeaf).append_inj (q'.group hLeaf) (List.append_cancel_left hrest)
  exact ⟨hp, hq, hu⟩

/-- Nor is a conjunction a disjunction, since the first operand ends before the operator. -/
theorem and_ne_or (p q p' q' : Operand Leaf) (u' : List Char) :
    p.text ++ " and ".toList ++ q.text ++ u ≠ p'.text ++ " or ".toList ++ q'.text ++ u' := by
  intro h
  simp only [List.append_assoc] at h
  have hrest := ((p.group hLeaf).append_inj (p'.group hLeaf) h).2
  rw [show " and ".toList = [' ', 'a', 'n', 'd', ' '] from String.toList_ofList,
    show " or ".toList = [' ', 'o', 'r', ' '] from String.toList_ofList] at hrest
  exact absurd (List.cons.inj (List.cons.inj hrest).2).1 (by decide)

end Unique

mutual

/-- **A text has one parse at most.** -/
theorem Parse.text_inj (hLeaf : ∀ t, Leaf t → TestGroup t) :
    ∀ p q : Parse Leaf, p.text = q.text → p = q
  -- Trees with different roots have different texts, those with one root have equal parts.
  | .leaf t ht, q, h => by
    cases q with
    | leaf u hu =>
      cases h
      rfl
    | not q => exact absurd h (leaf_ne_not hLeaf ht q)
    | and q₁ q₂ qs => exact absurd h (leaf_ne_junction hLeaf (by decide) ht q₁ q₂)
    | or q₁ q₂ qs => exact absurd h (leaf_ne_junction hLeaf (by decide) ht q₁ q₂)
  | .not p, q, h => by
    cases q with
    | leaf u hu => exact absurd h.symm (leaf_ne_not hLeaf hu p)
    | not q => rw [Operand.text_inj hLeaf p q (List.append_cancel_left h)]
    | and q₁ q₂ qs => exact absurd h (not_ne_junction hLeaf p q₁ q₂)
    | or q₁ q₂ qs => exact absurd h (not_ne_junction hLeaf p q₁ q₂)
  | .and p₁ p₂ ps, q, h => by
    cases q with
    | leaf u hu => exact absurd h.symm (leaf_ne_junction hLeaf (by decide) hu p₁ p₂)
    | not q => exact absurd h.symm (not_ne_junction hLeaf q p₁ p₂)
    | and q₁ q₂ qs =>
      obtain ⟨h₁, h₂, hs⟩ := junction_inj hLeaf h
      rw [Operand.text_inj hLeaf p₁ q₁ h₁, Operand.text_inj hLeaf p₂ q₂ h₂,
        Operand.tail_inj hLeaf (by decide) ps qs hs]
    | or q₁ q₂ qs => exact absurd h (and_ne_or hLeaf p₁ p₂ q₁ q₂ _)
  | .or p₁ p₂ ps, q, h => by
    cases q with
    | leaf u hu => exact absurd h.symm (leaf_ne_junction hLeaf (by decide) hu p₁ p₂)
    | not q => exact absurd h.symm (not_ne_junction hLeaf q p₁ p₂)
    | and q₁ q₂ qs => exact absurd h.symm (and_ne_or hLeaf q₁ q₂ p₁ p₂ _)
    | or q₁ q₂ qs =>
      obtain ⟨h₁, h₂, hs⟩ := junction_inj hLeaf h
      rw [Operand.text_inj hLeaf p₁ q₁ h₁, Operand.text_inj hLeaf p₂ q₂ h₂,
        Operand.tail_inj hLeaf (by decide) ps qs hs]

theorem Operand.text_inj (hLeaf : ∀ t, Leaf t → TestGroup t) :
    ∀ p q : Operand Leaf, p.text = q.text → p = q
  | .leaf t ht, .leaf _ _, h => by
    cases h
    rfl
  | .leaf t ht, .parens q, h => (leaf_ne_parens hLeaf ht q h).elim
  | .parens p, .leaf _ ht, h => (leaf_ne_parens hLeaf ht p h.symm).elim
  | .parens p, .parens q, h => by
    have htext := List.append_cancel_right (List.cons.inj h).2
    rw [Parse.text_inj hLeaf p q htext]

theorem Operand.tail_inj (hLeaf : ∀ t, Leaf t → TestGroup t) {operator : List Char}
    (hne : operator ≠ []) :
    ∀ ps qs : List (Operand Leaf), Operand.tail operator ps = Operand.tail operator qs → ps = qs
  | [], [], _ => rfl
  | [], q :: qs, h => by simp [Operand.tail, hne] at h
  | p :: ps, [], h => by simp [Operand.tail, hne] at h
  | p :: ps, q :: qs, h => by
    simp only [Operand.tail, List.append_assoc] at h
    obtain ⟨hp, hps⟩ :=
      (p.group hLeaf).append_inj (q.group hLeaf) (List.append_cancel_left h)
    rw [Operand.text_inj hLeaf p q hp, Operand.tail_inj hLeaf hne ps qs hps]

end

end Stylesheet
