import Stylesheet.Proofs.Nesting.Value
import Stylesheet.Query.Container
import Stylesheet.Query.Media
import Stylesheet.Selector.Text
import Stylesheet.Rule.Layer

/-! What stands in front of a block is nested: selectors, the tests of queries, media
queries and the names of layers. -/
namespace Stylesheet

/-! ### Selectors -/

instance : Nests preludeChar AttributeMatcher := ⟨fun m => by cases m <;> exact .word⟩

instance : Nests wordChar CaseFlag := ⟨fun f => by cases f <;> exact .word⟩

/-- Inside of the square brackets anything may stand. -/
theorem nested_testText (t : AttributeTest) : Nested anyChar (AttributeSelector.testText t) :=
  ((nested t.matcher).append (nested_quoteString t.value.toList)).append
    (nested_clause t.flag)

instance : Nests wordChar AttributeSelector where
  nested a := by
    have htest : Nested anyChar ((a.test.map AttributeSelector.testText).getD []) := by
      cases a.test with
      | none => exact .nil
      | some t => exact nested_testText t
    exact .enclosed .square ((nested a.name).append htest)

instance : Nests wordChar Nth where
  nested
    | .odd => .word
    | .even => .word
    | .steps a b => by
      have hstep : Nested wordChar (Nth.stepText a) := by
        unfold Nth.stepText
        split
        · exact .of_all
        split
        · exact .of_all
        · exact (nested a).append .of_all
      have hoffset : Nested wordChar (Nth.offsetText b) := by
        unfold Nth.offsetText
        split
        · exact .cons (nested b)
        split
        · exact nested b
        · exact .nil
      show Nested wordChar (if a = 0 then integerText b else Nth.stepText a ++ Nth.offsetText b)
      split
      · exact nested b
      · exact hstep.append hoffset

instance : Nests preludeChar Combinator :=
  ⟨fun c => by cases c <;> exact .of_all⟩

instance : Nests preludeChar TypeSelector where
  nested
    | .universal => .of_all
    | .element name => nested name

instance : Nests wordChar PseudoClassKeyword := ⟨fun k => by cases k <;> exact .word⟩

instance : Nests wordChar TextDirection := ⟨fun d => by cases d <;> exact .word⟩

instance : Nests preludeChar PseudoElement where
  nested
    | .before => .word
    | .after => .word
    | .firstLine => .word
    | .firstLetter => .word
    | .marker => .word
    | .placeholder => .word
    | .selection => .word
    | .backdrop => .word
    | .fileSelectorButton => .word
    | .part names => .call (nested names)

section Calls
variable {name first : List Char} {rest : List (List Char)}

/-- Texts with commas between them as the arguments of a function. -/
theorem Nested.listCall (hfirst : Nested preludeChar first)
    (hrest : ∀ t ∈ rest, Nested preludeChar t) (hname : areAll preludeChar name := by decide) :
    Nested preludeChar
      (Stylesheet.call (String.ofList name) (Stylesheet.joined ", ".toList (first :: rest))) :=
  .call (Nested.joined .word (List.forall_mem_cons.mpr ⟨hfirst, hrest⟩)).any hname

/-- A position, and the selectors that it counts among. -/
theorem Nested.nthCall {nth : Nth} (hfirst : Nested preludeChar first)
    (hrest : ∀ t ∈ rest, Nested preludeChar t) (hname : areAll preludeChar name := by decide) :
    Nested preludeChar (Stylesheet.call (String.ofList name)
      (css nth ++ " of ".toList ++ Stylesheet.joined ", ".toList (first :: rest))) := by
  have hlist : Nested preludeChar (Stylesheet.joined ", ".toList (first :: rest)) :=
    .joined .word (List.forall_mem_cons.mpr ⟨hfirst, hrest⟩)
  exact .call (((nested nth).append .word).append hlist.any) hname

end Calls

mutual

/-- **The text of a selector is nested.** One induction over all the parts that selectors are
made of. -/
theorem nested_filterText : ∀ f : Filter, Nested preludeChar f.text
  | .id name => .cons (nested name)
  | .class name => .cons (nested name)
  | .attribute selector => nested selector
  | .pseudo pseudo => nested_pseudoText pseudo

/-- Selectors inside of a pseudo-class stand in its parentheses. -/
theorem nested_pseudoText : ∀ p : PseudoClass, Nested preludeChar p.text
  | .keyword keyword => .cons (nested keyword)
  | .not ⟨s, ss⟩ => .listCall (nested_selectorText s) (nested_selectorTexts ss)
  | .is ⟨s, ss⟩ => .listCall (nested_selectorText s) (nested_selectorTexts ss)
  | .whereAny ⟨s, ss⟩ => .listCall (nested_selectorText s) (nested_selectorTexts ss)
  | .has ⟨s, ss⟩ => .listCall (nested_relativeText s) (nested_relativeTexts ss)
  | .nthChild nth none => .call (nested nth)
  | .nthChild _ (some ⟨s, ss⟩) =>
    .nthCall (nested_selectorText s) (nested_selectorTexts ss)
  | .nthLastChild nth none => .call (nested nth)
  | .nthLastChild _ (some ⟨s, ss⟩) =>
    .nthCall (nested_selectorText s) (nested_selectorTexts ss)
  | .nthOfType nth => .call (nested nth)
  | .nthLastOfType nth => .call (nested nth)
  | .lang ranges => .call (nested_separated ranges.toList)
  | .dir direction => .call (nested direction)

/-- The star of an empty compound is a plain character. -/
theorem nested_compoundText : ∀ c : Compound, Nested preludeChar c.text
  | .mk none [] none => .of_all
  | .mk none [] (some element) => nested element
  | .mk none (f :: fs) element =>
    (Nested.nil.append (.flatten (nested_filterTexts (f :: fs)))).append
      (nested_clause element)
  | .mk (some type) filters element =>
    ((nested type).append (.flatten (nested_filterTexts filters))).append
      (nested_clause element)

theorem nested_selectorText : ∀ s : Selector, Nested preludeChar s.text
  | .compound c => nested_compoundText c
  | .combined left combinator right =>
    ((nested_selectorText left).append (nested combinator)).append (nested_compoundText right)

theorem nested_relativeText : ∀ s : RelativeSelector, Nested preludeChar s.text
  | .mk combinator selector => by
    refine .append ?_ (nested_selectorText selector)
    cases combinator <;> exact .of_all

theorem nested_filterTexts : ∀ fs : List Filter, ∀ t ∈ Filter.texts fs, Nested preludeChar t
  | [] => List.forall_mem_nil _
  | f :: fs => List.forall_mem_cons.mpr ⟨nested_filterText f, nested_filterTexts fs⟩

/-- The selectors of a list, one by one. -/
theorem nested_selectorTexts : ∀ ss : List Selector, ∀ t ∈ Selector.texts ss, Nested preludeChar t
  | [] => List.forall_mem_nil _
  | s :: ss => List.forall_mem_cons.mpr ⟨nested_selectorText s, nested_selectorTexts ss⟩

theorem nested_relativeTexts : ∀ ss : List RelativeSelector,
    ∀ t ∈ RelativeSelector.texts ss, Nested preludeChar t
  | [] => List.forall_mem_nil _
  | s :: ss => List.forall_mem_cons.mpr ⟨nested_relativeText s, nested_relativeTexts ss⟩

end

instance : Nests preludeChar Filter := ⟨nested_filterText⟩

instance : Nests preludeChar PseudoClass := ⟨nested_pseudoText⟩

instance : Nests preludeChar Compound := ⟨nested_compoundText⟩

instance : Nests preludeChar Selector := ⟨nested_selectorText⟩

instance : Nests preludeChar RelativeSelector := ⟨nested_relativeText⟩

instance : Nests preludeChar SelectorList := ⟨fun l => nested_separated l.toList⟩

/-! ### Features -/

instance : Nests preludeChar Ratio where
  nested r := by
    have hdigits : ∀ c ∈ decimalDigits r.denominator, isNumberChar c :=
      fun _ => isNumberChar_of_mem_decimalDigits
    show Nested preludeChar (css r.numerator ++ '/' :: decimalDigits r.denominator)
    refine (nested r.numerator).append ?_
    -- the denominator begins with a digit, so that the solidus begins no comment
    cases htext : decimalDigits r.denominator with
    | nil => exact absurd htext Nat.toDigits_ne_nil
    | cons c t =>
      rw [htext] at hdigits
      refine .solidus (by decide) ?_ ((nested_of_number hdigits).mono fun _ h => ?_)
      · rintro rfl
        exact absurd (hdigits '*' (List.mem_cons_self ..)) (by decide)
      · exact preludeChar_of_listChar (listChar_of_phraseChar (phraseChar_of_wordChar h))

/-- A bound is `min-`, `max-` or nothing. -/
theorem nested_bound (b : Bound) : Nested anyChar b.text := by
  cases b with
  | exactly => exact .nil
  | atLeast => exact .word
  | atMost => exact .word

/-- A test in parentheses: a name, and a value behind a colon. -/
theorem nested_namedTest {t : NamedTest} (hname : Nested anyChar t.name)
    (hvalue : ∀ v ∈ t.value, Nested anyChar v) : Nested preludeChar (css t) := by
  have hrest : Nested anyChar ((t.value.map (": ".toList ++ ·)).getD []) := by
    cases hv : t.value with
    | none => exact .nil
    | some v => exact (Nested.word).append (hvalue v hv)
  exact .enclosed .round (hname.append hrest)

/-- A feature that may be bounded from below or from above. -/
theorem nested_bounded {α : Type} [ToCss α] [Nests anyChar α] {name : List Char} (bound : Bound)
    (a : α) (hname : areAll anyChar name := by decide) :
    Nested preludeChar (css (NamedTest.bounded bound (String.ofList name) a)) :=
  nested_namedTest ((nested_bound bound).append (.word hname)) fun _ hv =>
    Option.some.inj hv ▸ nested a

/-- A feature that stands alone or with the number of its bits. -/
theorem nested_bits {name : List Char} (bits : Option Nat)
    (hname : areAll anyChar name := by decide) :
    Nested preludeChar (css (⟨(String.ofList name).toList, bits.map css⟩ : NamedTest)) := by
  refine nested_namedTest (.word hname) fun v hv => ?_
  obtain ⟨n, _, rfl⟩ := Option.map_eq_some_iff.mp hv
  exact nested n

instance : Nests wordChar RangeFeature := ⟨fun f => by cases f <;> exact .word⟩

instance : Nests preludeChar Comparison := ⟨fun c => by cases c <;> exact .word⟩

instance : Nests preludeChar RangeValue where
  nested
    | .length l => nested l
    | .ratio r => nested r
    | .resolution r => nested r

/-- The words of a range with spaces between them, before the parentheses around them. -/
theorem nested_rangeWords (t : RangeTest) : Nested preludeChar (joined [' '] t.words) := by
  refine .joined .of_all ?_
  cases t with
  | compare feature comparison value =>
    simp only [RangeTest.words, List.forall_mem_cons]
    exact ⟨nested feature, nested comparison, nested value, List.forall_mem_nil _⟩
  | interval lower fromLower feature toUpper upper =>
    simp only [RangeTest.words, List.forall_mem_cons]
    exact ⟨nested lower, nested fromLower, nested feature, nested toUpper, nested upper,
      List.forall_mem_nil _⟩

instance : Nests preludeChar RangeTest :=
  ⟨fun t => .enclosed .round (nested_rangeWords t).any⟩

instance : Nests wordChar Orientation := ⟨fun o => by cases o <;> exact .word⟩

instance : Nests wordChar Hover := ⟨fun h => by cases h <;> exact .word⟩

instance : Nests wordChar Pointer := ⟨fun p => by cases p <;> exact .word⟩

instance : Nests wordChar ColorScheme := ⟨fun s => by cases s <;> exact .word⟩

instance : Nests wordChar ReducePreference := ⟨fun p => by cases p <;> exact .word⟩

instance : Nests wordChar ContrastPreference := ⟨fun p => by cases p <;> exact .word⟩

instance : Nests wordChar ForcedColors := ⟨fun f => by cases f <;> exact .word⟩

instance : Nests wordChar DisplayMode := ⟨fun m => by cases m <;> exact .word⟩

instance : Nests preludeChar MediaFeature where
  nested
    | .width bound value => nested_bounded bound value
    | .height bound value => nested_bounded bound value
    | .aspectRatio bound value => nested_bounded bound value
    | .resolution bound value => nested_bounded bound value
    | .orientation value => nested_bounded .exactly value
    | .color bits => nested_bits bits
    | .minColor bits => nested_bounded .atLeast bits
    | .monochrome bits => nested_bits bits
    | .hover value => nested_bounded .exactly value
    | .anyHover value => nested_bounded .exactly value
    | .pointer value => nested_bounded .exactly value
    | .anyPointer value => nested_bounded .exactly value
    | .prefersColorScheme value => nested_bounded .exactly value
    | .prefersReducedMotion value => nested_bounded .exactly value
    | .prefersReducedTransparency value => nested_bounded .exactly value
    | .prefersReducedData value => nested_bounded .exactly value
    | .prefersContrast value => nested_bounded .exactly value
    | .forcedColors value => nested_bounded .exactly value
    | .displayMode value => nested_bounded .exactly value
    | .range test => nested test

instance : Nests preludeChar ContainerFeature where
  nested
    | .width bound value => nested_bounded bound value
    | .height bound value => nested_bounded bound value
    | .inlineSize bound value => nested_bounded bound value
    | .blockSize bound value => nested_bounded bound value
    | .aspectRatio value => nested_bounded .exactly value
    | .orientation value => nested_bounded .exactly value
    | .range test => nested test

/-! ### Media queries and layers -/

instance : Nests wordChar MediaType := ⟨fun t => by cases t <;> exact .word⟩

instance : Nests wordChar MediaModifier := ⟨fun m => by cases m <;> exact .word⟩

instance : Nests preludeChar MediaQuery where
  nested q := by
    refine .append (.flatMap fun m _ => (nested m).append .of_all)
      (.joined .word fun t ht => ?_)
    rcases List.mem_append.mp ht with ht | ht
    · obtain ⟨type, _, rfl⟩ := Option.map_eq_some_iff.mp (Option.mem_toList.mp ht)
      exact nested type
    · obtain ⟨feature, _, rfl⟩ := List.mem_map.mp ht
      exact nested feature

/-- Media queries with commas between them. -/
theorem nested_mediaList (m : Media) : Nested preludeChar m.list :=
  nested_separated m.queries.toList

instance : Nests preludeChar Media := ⟨fun m => (Nested.word).append (nested_mediaList m)⟩

instance : Nests wordChar LayerName := ⟨fun l => nested_separated l.path.toList⟩

end Stylesheet
