import Stylesheet.Proofs.Importance.Value
import Stylesheet.Query.Container
import Stylesheet.Query.Supports

/-! What conditions test is quiet: selectors, fonts and the features of a container. -/
namespace Stylesheet

/-! ### Selectors -/

instance : IsQuiet AttributeMatcher := ⟨fun m => by cases m <;> exact .word⟩

instance : IsQuiet CaseFlag := ⟨fun f => by cases f <;> exact .word⟩

/-- The value of an attribute is quoted, and so protected. -/
theorem quiet_testText (t : AttributeTest) : Quiet (AttributeSelector.testText t) :=
  ((quiet t.matcher).append (quiet_quoteString t.value.toList)).append (quiet_clause t.flag)

instance : IsQuiet AttributeSelector where
  quiet a := by
    have htest : Quiet ((a.test.map AttributeSelector.testText).getD []) := by
      cases a.test with
      | none => exact .nil
      | some t => exact quiet_testText t
    exact .enclosed .square ((quiet a.name).append htest)

instance : IsQuiet Nth where
  quiet
    | .odd => .word
    | .even => .word
    | .steps a b => by
      have hstep : Quiet (Nth.stepText a) := by
        unfold Nth.stepText
        split
        · exact .of_all
        split
        · exact .of_all
        · exact (quiet a).append .of_all
      have hoffset : Quiet (Nth.offsetText b) := by
        unfold Nth.offsetText
        split
        · exact .cons (quiet b)
        split
        · exact quiet b
        · exact .nil
      show Quiet (if a = 0 then integerText b else Nth.stepText a ++ Nth.offsetText b)
      split
      · exact quiet b
      · exact hstep.append hoffset

instance : IsQuiet Combinator := ⟨fun c => by cases c <;> exact .of_all⟩

instance : IsQuiet TypeSelector where
  quiet
    | .universal => .of_all
    | .element name => quiet name

instance : IsQuiet PseudoClassKeyword := ⟨fun k => by cases k <;> exact .word⟩

instance : IsQuiet TextDirection := ⟨fun d => by cases d <;> exact .word⟩

instance : IsQuiet PseudoElement where
  quiet
    | .before => .word
    | .after => .word
    | .firstLine => .word
    | .firstLetter => .word
    | .marker => .word
    | .placeholder => .word
    | .selection => .word
    | .backdrop => .word
    | .fileSelectorButton => .word
    | .part names => .call (quiet names)

/-- Texts with commas between them. -/
theorem Quiet.list {first : List Char} {rest : List (List Char)} (hfirst : Quiet first)
    (hrest : ∀ t ∈ rest, Quiet t) : Quiet (Stylesheet.joined ", ".toList (first :: rest)) :=
  .joined .word (List.forall_mem_cons.mpr ⟨hfirst, hrest⟩)

/-- Quiet texts one after the other. -/
theorem Quiet.flatten {texts : List (List Char)} (h : ∀ t ∈ texts, Quiet t) :
    Quiet texts.flatten := by
  have hflat : Quiet (texts.flatMap id) := .flatMap h
  rwa [List.flatMap_id] at hflat

mutual

/-- **The text of a selector is quiet**, by one induction over the parts of selectors. -/
theorem quiet_filterText : ∀ f : Filter, Quiet f.text
  | .id name => .cons (quiet name)
  | .class name => .cons (quiet name)
  | .attribute selector => quiet selector
  | .pseudo pseudo => quiet_pseudoText pseudo

/-- Pseudo-classes with selectors inside are quiet as those are. -/
theorem quiet_pseudoText : ∀ p : PseudoClass, Quiet p.text
  | .keyword keyword => .cons (quiet keyword)
  | .not ⟨s, ss⟩ => .call (.list (quiet_selectorText s) (quiet_selectorTexts ss))
  | .is ⟨s, ss⟩ => .call (.list (quiet_selectorText s) (quiet_selectorTexts ss))
  | .whereAny ⟨s, ss⟩ => .call (.list (quiet_selectorText s) (quiet_selectorTexts ss))
  | .has ⟨s, ss⟩ => .call (.list (quiet_relativeText s) (quiet_relativeTexts ss))
  | .nthChild nth none => .call (quiet nth)
  | .nthChild nth (some ⟨s, ss⟩) =>
    .call (((quiet nth).append .word).append
      (.list (quiet_selectorText s) (quiet_selectorTexts ss)))
  | .nthLastChild nth none => .call (quiet nth)
  | .nthLastChild nth (some ⟨s, ss⟩) =>
    .call (((quiet nth).append .word).append
      (.list (quiet_selectorText s) (quiet_selectorTexts ss)))
  | .nthOfType nth => .call (quiet nth)
  | .nthLastOfType nth => .call (quiet nth)
  | .lang ranges => .call (quiet_separated ranges.toList)
  | .dir direction => .call (quiet direction)

theorem quiet_compoundText : ∀ c : Compound, Quiet c.text
  | .mk none [] none => .of_all
  | .mk none [] (some element) => quiet element
  | .mk none (f :: fs) element =>
    (Quiet.nil.append (.flatten (quiet_filterTexts (f :: fs)))).append (quiet_clause element)
  | .mk (some type) filters element =>
    ((quiet type).append (.flatten (quiet_filterTexts filters))).append (quiet_clause element)

theorem quiet_selectorText : ∀ s : Selector, Quiet s.text
  | .compound c => quiet_compoundText c
  | .combined left combinator right =>
    ((quiet_selectorText left).append (quiet combinator)).append (quiet_compoundText right)

theorem quiet_relativeText : ∀ s : RelativeSelector, Quiet s.text
  | .mk combinator selector => by
    refine .append ?_ (quiet_selectorText selector)
    cases combinator <;> exact .of_all

theorem quiet_filterTexts : ∀ fs : List Filter, ∀ t ∈ Filter.texts fs, Quiet t
  | [] => List.forall_mem_nil _
  | f :: fs => List.forall_mem_cons.mpr ⟨quiet_filterText f, quiet_filterTexts fs⟩

/-- The selectors of a list, one by one. -/
theorem quiet_selectorTexts : ∀ ss : List Selector, ∀ t ∈ Selector.texts ss, Quiet t
  | [] => List.forall_mem_nil _
  | s :: ss => List.forall_mem_cons.mpr ⟨quiet_selectorText s, quiet_selectorTexts ss⟩

theorem quiet_relativeTexts : ∀ ss : List RelativeSelector,
    ∀ t ∈ RelativeSelector.texts ss, Quiet t
  | [] => List.forall_mem_nil _
  | s :: ss => List.forall_mem_cons.mpr ⟨quiet_relativeText s, quiet_relativeTexts ss⟩

end

instance : IsQuiet Filter := ⟨quiet_filterText⟩

instance : IsQuiet PseudoClass := ⟨quiet_pseudoText⟩

instance : IsQuiet Compound := ⟨quiet_compoundText⟩

instance : IsQuiet Selector := ⟨quiet_selectorText⟩

instance : IsQuiet RelativeSelector := ⟨quiet_relativeText⟩

instance : IsQuiet SelectorList := ⟨fun l => quiet_separated l.toList⟩

/-! ### Fonts -/

instance : IsQuiet FontFormat := ⟨fun f => by cases f <;> exact .word⟩

instance : IsQuiet FontTech := ⟨fun t => by cases t <;> exact .word⟩

/-! ### Features of a container -/

instance : IsQuiet Ratio := ⟨fun r => (quiet r.numerator).append (.cons (quiet r.denominator))⟩

instance : IsQuiet Orientation := ⟨fun o => by cases o <;> exact .word⟩

theorem quiet_bound (b : Bound) : Quiet b.text := by
  cases b with
  | exactly => exact .nil
  | atLeast => exact .word
  | atMost => exact .word

/-- A feature and its value, with or without a bound. -/
theorem quiet_bounded {α : Type} [ToCss α] [IsQuiet α] {name : List Char} (bound : Bound) (a : α)
    (hname : name.all isQuietChar := by decide) :
    Quiet (css (NamedTest.bounded bound (String.ofList name) a)) :=
  .enclosed .round (((quiet_bound bound).append (.word hname)).append
    ((Quiet.word).append (quiet a)))

instance : IsQuiet RangeFeature := ⟨fun f => by cases f <;> exact .word⟩

instance : IsQuiet Comparison := ⟨fun c => by cases c <;> exact .word⟩

instance : IsQuiet RangeValue where
  quiet
    | .length l => quiet l
    | .ratio r => quiet r
    | .resolution r => quiet r

instance : IsQuiet RangeTest where
  quiet t := by
    refine .enclosed .round (.joined .of_all ?_)
    cases t with
    | compare feature comparison value =>
      simp only [RangeTest.words, List.forall_mem_cons]
      exact ⟨quiet feature, quiet comparison, quiet value, List.forall_mem_nil _⟩
    | interval lower fromLower feature toUpper upper =>
      simp only [RangeTest.words, List.forall_mem_cons]
      exact ⟨quiet lower, quiet fromLower, quiet feature, quiet toUpper, quiet upper,
        List.forall_mem_nil _⟩

instance : IsQuiet ContainerFeature where
  quiet
    | .width bound value => quiet_bounded bound value
    | .height bound value => quiet_bounded bound value
    | .inlineSize bound value => quiet_bounded bound value
    | .blockSize bound value => quiet_bounded bound value
    | .aspectRatio value => quiet_bounded .exactly value
    | .orientation value => quiet_bounded .exactly value
    | .range test => quiet test

end Stylesheet
