import Stylesheet.Selector.Basic
import Stylesheet.Proofs.Reading.Escape
import Stylesheet.Proofs.Selector.Nth

/-! The parts of a selector that hold no selector: attributes and pseudo-elements. -/
namespace Stylesheet

/-! ### What a part reads back as -/

/-- The test as it reads back: null characters in its value are replaced. -/
def AttributeTest.normal (t : AttributeTest) : AttributeTest :=
  {t with value := String.ofList (t.value.toList.map replaced)}

/-- The same for its name. -/
def AttributeSelector.normal (a : AttributeSelector) : AttributeSelector :=
  ⟨a.name.normal, a.test.map .normal⟩

/-- Of the pseudo-elements only `::part` has names. -/
def PseudoElement.normal : PseudoElement → PseudoElement
  | .part names => .part ⟨names.first.normal, names.rest.map .normal⟩
  | e => e

/-! ### Attributes -/

/-- What the keywords of selectors are spelled with. -/
def isWordChar (c : Char) : Bool := c.isAlpha || c == '-'

/-- What an operator on attributes is written with. -/
def isMatcherChar (c : Char) : Bool := ['=', '~', '|', '^', '$', '*'].contains c

namespace Reader

/-- An operator, a string, and a flag behind a space. -/
def attributeTest : Reader AttributeTest := do
  let matcher ← keyword isMatcherChar
  let value ← string
  let flag ← opt (· == ' ') (do expect [' ']; keyword isWordChar)
  return ⟨matcher, String.ofList value, flag⟩

/-- A name in square brackets, with a test or without. -/
def attributeSelector : Reader AttributeSelector := do
  expect ['[']
  let name ← identifier
  let test ← opt (· != ']') attributeTest
  expect [']']
  return ⟨name, test⟩

/-- The pseudo-elements that are a name alone. -/
def plainElements : List PseudoElement :=
  [.before, .after, .firstLine, .firstLetter, .marker, .placeholder, .selection, .backdrop,
    .fileSelectorButton]

/-- The word `part` needs names, and all the others must have none. -/
def elementOf? (word : List Char) : Option (NonEmpty CustomIdent) → Option PseudoElement
  | some names => if word = "part".toList then some (.part names) else none
  | none => plainElements.find? fun e => css e == ':' :: ':' :: word

def partNames (limit : Nat) : Reader (NonEmpty CustomIdent) :=
  inBrackets (listOf [' '] customIdent limit)

/-- The word that names a pseudo-element, and its arguments if it has any. -/
def elementParts (limit : Nat) : Reader (List Char × Option (NonEmpty CustomIdent)) := do
  expect [':', ':']
  let word ← span isWordChar
  let names ← opt (· == '(') (partNames limit)
  return (word, names)

def pseudoElement (limit : Nat) : Reader PseudoElement :=
  (elementParts limit).pick fun (word, names) => elementOf? word names

end Reader

instance : LawfulKeyword AttributeMatcher := ⟨by intro m; cases m <;> rfl⟩

instance : LawfulKeyword CaseFlag := ⟨by intro f; cases f <;> rfl⟩

theorem all_isMatcherChar (m : AttributeMatcher) : (css m).all isMatcherChar := by
  cases m <;> exact all_toList rfl

theorem reads_matcher (m : AttributeMatcher) :
    Reads (Reader.keyword isMatcherChar) (css m) m (Ends fun c => !isMatcherChar c) :=
  .keyword (all_isMatcherChar m)

/-- Behind the string comes a flag or the bracket. -/
theorem reads_flag (flag : Option CaseFlag) :
    Reads (Reader.opt (· == ' ') (do Reader.expect [' ']; Reader.keyword isWordChar))
      (clause " " flag) flag (Ends (oneOf [']'])) := by
  cases flag with
  | none => exact Reads.opt_none.at_oneOf (by decide)
  | some flag =>
    have hflag : Reads (Reader.keyword isWordChar) (css flag) flag (Ends fun c => !isWordChar c) :=
      .keyword (by cases flag <;> exact all_toList rfl)
    exact .opt_some ((hflag.at_oneOf (by decide)).after [' ']) rfl

/-- A test reads back with its flag. -/
theorem reads_attributeTest (t : AttributeTest) :
    Reads Reader.attributeTest (AttributeSelector.testText t) t.normal (Ends (oneOf [']'])) := by
  unfold AttributeSelector.testText
  rw [List.append_assoc]
  refine (reads_matcher t.matcher).bind ?_ fun _ _ => .cons (by decide)
  exact (reads_string t.value.toList).bind ((reads_flag t.flag).map _) fun _ _ => trivial

/-- A test begins with its operator, by which the reader knows it is there. -/
theorem head_testText (t : AttributeTest) :
    ∃ c cs, AttributeSelector.testText t = c :: cs ∧ isMatcherChar c := by
  have hne : css t.matcher ≠ [] := by cases t.matcher <;> decide
  obtain ⟨c, cs, heq⟩ := List.exists_cons_of_ne_nil hne
  refine ⟨c, cs ++ (quoteString t.value.toList ++ clause " " t.flag), ?_, ?_⟩
  · rw [AttributeSelector.testText, heq, List.append_assoc, List.cons_append]
  · exact List.all_eq_true.mp (all_isMatcherChar t.matcher) c (heq ▸ List.mem_cons_self ..)

/-- An attribute ends with its own bracket, so that anything may follow it. -/
theorem reads_attributeSelector (a : AttributeSelector) :
    Reads Reader.attributeSelector (css a) a.normal Anything := by
  obtain ⟨name, test⟩ := a
  have htest : Reads (Reader.opt (· != ']') Reader.attributeTest)
      ((test.map AttributeSelector.testText).getD []) (test.map .normal) (Ends (oneOf [']'])) := by
    cases test with
    | none => exact Reads.opt_none.at_oneOf (by decide)
    | some t =>
      have ht := reads_attributeTest t
      obtain ⟨c, cs, heq, hc⟩ := head_testText t
      rw [heq] at ht
      show Reads _ (AttributeSelector.testText t) _ _
      rw [heq]
      exact .opt_some ht (of_oneOf (p := (· != ']')) hc (by decide))
  have hend : ∀ rest,
      Ends nameEnd ((test.map AttributeSelector.testText).getD [] ++ [']'] ++ rest) := by
    cases test with
    | none => exact fun _ => .cons (by decide)
    | some t =>
      obtain ⟨c, cs, heq, hc⟩ := head_testText t
      show ∀ rest, Ends nameEnd (AttributeSelector.testText t ++ [']'] ++ rest)
      rw [heq]
      exact fun _ => .cons (of_oneOf hc (by decide))
  show Reads _ ('[' :: css name ++ (test.map AttributeSelector.testText).getD [] ++ [']']) _ _
  rw [List.append_assoc]
  refine Reads.after ['['] ?_
  refine (reads_identifier name).bind (htest.before (AttributeSelector.mk name.normal) ?_) ?_
  · exact fun _ => .cons rfl
  · exact fun rest _ => hend rest

/-! ### Pseudo-elements -/

/-- What follows a compound selector. -/
def compoundEnd : Char → Bool := oneOf [' ', ',', ')']

/-- A pseudo-element without names. -/
theorem reads_plainElement {w : List Char} {e : PseudoElement} (limit : Nat)
    (hw : w.all isWordChar) (he : Reader.elementOf? w none = some e) :
    Reads (Reader.pseudoElement limit) (String.ofList (':' :: ':' :: w)).toList e
      (Ends compoundEnd) := by
  have hspan : Reads (Reader.span isWordChar) w w (Ends compoundEnd) :=
    (Reads.span hw).at_oneOf (by decide)
  have hnone : Reads (Reader.opt (· == '(') (Reader.partNames limit)) [] none (Ends compoundEnd) :=
    Reads.opt_none.at_oneOf (by decide)
  have hparts : Reads (Reader.elementParts limit) ([':', ':'] ++ (w ++ [])) (w, none)
      (Ends compoundEnd) :=
    .after _ (hspan.bind (hnone.map (Prod.mk w)) fun _ hrest => hrest)
  rw [List.append_nil] at hparts
  rw [String.toList_ofList]
  exact hparts.pick he

/-- Names with spaces between them, up to the limit of their number. -/
theorem reads_partNames (names : NonEmpty CustomIdent) {limit : Nat}
    (h : names.rest.length ≤ limit) :
    Reads (Reader.partNames limit) ('(' :: (css names ++ [')']))
      ⟨names.first.normal, names.rest.map .normal⟩ Anything := by
  have hlist : Reads (Reader.listOf [' '] Reader.customIdent limit) (css names)
      ⟨names.first.normal, names.rest.map .normal⟩ (Ends (oneOf [')'])) :=
    reads_customIdents names h (by decide) (by decide)
  exact hlist.inBrackets fun _ => .cons rfl

/-- **Pseudo-elements read back.** -/
theorem reads_pseudoElement (e : PseudoElement) {limit : Nat} (h : (css e).length ≤ limit) :
    Reads (Reader.pseudoElement limit) (css e) e.normal (Ends compoundEnd) := by
  cases e with
  | part names =>
    have htext : css (PseudoElement.part names) =
        [':', ':'] ++ (['p', 'a', 'r', 't'] ++ '(' :: (css names ++ [')'])) :=
      call_ofList [':', ':', 'p', 'a', 'r', 't'] (css names)
    have hlength : names.rest.length ≤ (css names).length := by
      have := length_le_joined ' ' [] (css names.first) (names.rest.map css)
      rwa [List.length_map] at this
    rw [htext] at h ⊢
    simp only [List.length_append, List.length_cons] at h
    have hrest : names.rest.length ≤ limit := by omega
    have hnames := (reads_partNames names hrest).of_anything (F := Ends compoundEnd)
    have hspan := Reads.span (q := isWordChar) (t := ['p', 'a', 'r', 't']) (by decide)
    refine Reads.pick (Reads.after [':', ':'] (hspan.bind ((hnames.opt_some rfl).map _) ?_)) rfl
    exact fun _ _ => .cons (by decide)
  | before => exact reads_plainElement limit (by decide) rfl
  | after => exact reads_plainElement limit (by decide) rfl
  | firstLine => exact reads_plainElement limit (by decide) rfl
  | firstLetter => exact reads_plainElement limit (by decide) rfl
  | marker => exact reads_plainElement limit (by decide) rfl
  | placeholder => exact reads_plainElement limit (by decide) rfl
  | selection => exact reads_plainElement limit (by decide) rfl
  | backdrop => exact reads_plainElement limit (by decide) rfl
  | fileSelectorButton => exact reads_plainElement limit (by decide) rfl

end Stylesheet
