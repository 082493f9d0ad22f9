import Stylesheet.Proofs.Selector.Reader

/-! One layer of a selector read back.

Each lemma is about one reader, and takes for granted that what is a level further in reads
back. What may follow a text depends on the layer: another filter after a filter, a
combinator after a compound, a comma after a selector, and a closing bracket after each. -/
namespace Stylesheet

/-! ### Where the layers end -/

/-- What may come behind a filter: another one, a combinator, a comma, or the end of an
argument. -/
def filterEnd : Char → Bool := oneOf ['#', '.', '[', ':', ' ', ',', ')']

/-- Behind a selector comes another one or the end of an argument. -/
def selectorEnd : Char → Bool := oneOf [',', ')']

def listEnd : Char → Bool := oneOf [')']

/-- What follows all filters of a compound. -/
def FiltersEnd (t : List Char) : Prop := beginsFilter t = false ∧ Ends filterEnd t

/-- What is none of the marks begins no filter. -/
theorem beginsFilter_cons {c : Char} {t : List Char} (h : !filterMarks.contains c) :
    beginsFilter (c :: t) = false := by
  unfold beginsFilter
  split
  case h_1 => rfl
  case h_2 hhead =>
    rw [← (List.cons.inj hhead).1]
    simpa using h
  case h_3 => rfl

theorem all_isWordChar (k : PseudoClassKeyword) : (css k).all isWordChar := by
  cases k <;> exact all_toList rfl

/-- A pseudo-class has one colon, and so is no pseudo-element. -/
theorem head_pseudoText (p : PseudoClass) : ∃ c cs, p.text = ':' :: c :: cs ∧ c ≠ ':' := by
  cases p with
  | keyword k =>
    have hne : ∃ c cs, css k = c :: cs := by cases k <;> exact ⟨_, _, String.toList_ofList⟩
    obtain ⟨c, cs, heq⟩ := hne
    refine ⟨c, cs, by rw [PseudoClass.text, heq], ?_⟩
    rintro rfl
    have hall := all_isWordChar k
    rw [heq] at hall
    exact absurd hall (by simp [isWordChar])
  | nthChild _ ss => cases ss <;> exact ⟨_, _, call_ofList _ _, by decide⟩
  | nthLastChild _ ss => cases ss <;> exact ⟨_, _, call_ofList _ _, by decide⟩
  | _ => exact ⟨_, _, call_ofList _ _, by decide⟩

/-- Every filter begins as the reader expects of one. -/
theorem beginsFilter_text (f : Filter) (rest : List Char) : beginsFilter (f.text ++ rest) := by
  cases f with
  | pseudo p =>
    obtain ⟨c, cs, heq, hc⟩ := head_pseudoText p
    rw [Filter.text, heq]
    show beginsFilter (':' :: c :: (cs ++ rest)) = true
    unfold beginsFilter
    split
    case h_1 hcolons => exact absurd (List.cons.inj (List.cons.inj hcolons).2).1 hc
    case h_2 hhead => rw [← (List.cons.inj hhead).1]; rfl
    case h_3 => exact nomatch ‹_ :: _ = []›
  | _ => rfl

theorem filter_begins (f : Filter) (rest : List Char) :
    Ends (oneOf filterMarks) (f.text ++ rest) := by
  cases f with
  | pseudo p =>
    obtain ⟨c, cs, heq, -⟩ := head_pseudoText p
    rw [Filter.text, heq]
    exact .cons rfl
  | _ => exact .cons rfl

/-! ### Compounds -/

/-- A star, or the name of an element up to what ends a name. -/
theorem reads_typeSelector (t : TypeSelector) :
    Reads Reader.typeSelector (css t) t.normal (Ends nameEnd) := by
  cases t with
  | universal => exact fun _ _ => rfl
  | element name =>
    intro rest hrest
    obtain ⟨d, ds, heq, hd⟩ := head_identifier name
    have hname := (reads_identifier name).map TypeSelector.element rest hrest
    have hstar : d ≠ '*' := by
      rintro rfl
      exact absurd hd (by decide)
    show Reader.typeSelector (css name ++ rest) = _
    rw [heq, List.cons_append] at hname ⊢
    unfold Reader.typeSelector
    split
    case h_1 hhead => exact absurd (List.cons.inj hhead).1 hstar
    case h_2 => exact hname

theorem head_typeSelector (t : TypeSelector) : ∃ d ds, css t = d :: ds ∧ beginsType d := by
  cases t with
  | universal => exact ⟨_, _, rfl, rfl⟩
  | element name =>
    obtain ⟨d, ds, heq, hd⟩ := head_identifier name
    exact ⟨d, ds, heq, by simp [beginsType, hd]⟩

/-- A type that is missing is not mistaken for one. -/
theorem reads_type (type : Option TypeSelector) :
    Reads (Reader.opt beginsType Reader.typeSelector) (clause "" type)
      (type.map .normal) (Ends filterEnd) := by
  cases type with
  | none => exact Reads.opt_none.at_oneOf (by decide)
  | some t =>
    have ht : Reads Reader.typeSelector (css t) t.normal (Ends filterEnd) :=
      (reads_typeSelector t).at_oneOf (by decide)
    obtain ⟨d, ds, heq, hd⟩ := head_typeSelector t
    show Reads _ (css t) _ _
    rw [heq] at ht ⊢
    exact ht.opt_some hd

section
variable {pseudo : Reader PseudoClass} {limit : Nat} {texts : List (List Char)}

/-- A filter that is none of the others is a pseudo-class. -/
theorem reads_pseudoFilter {p : PseudoClass} {t : List Char} {F : List Char → Prop}
    (h : Reads pseudo (':' :: t) p F) : Reads (Reader.filter pseudo) (':' :: t) (.pseudo p) F :=
  fun rest hrest => h.map Filter.pseudo rest hrest

/-- The reader adds one filter after the other, which leaves them in order. -/
theorem foldl_filter (type : Option TypeSelector) (fs gs : List Filter) :
    gs.foldl Compound.filter (.mk type fs none) = .mk type (fs ++ gs) none := by
  induction gs generalizing fs with
  | nil => simp
  | cons g gs ih => simp [Compound.filter, ih]

theorem mem_filterTexts {t : List Char} : ∀ {fs : List Filter}, t ∈ Filter.texts fs →
    ∃ f : Filter, t = f.text
  | f :: fs, h => by
    rw [Filter.texts] at h
    rcases List.mem_cons.mp h with rfl | h
    · exact ⟨f, rfl⟩
    · exact mem_filterTexts h

/-- What comes after the filters may be a pseudo-element, which begins like a filter. -/
theorem reads_filters {fs gs : List Filter} (hlimit : (Filter.texts fs).length ≤ limit)
    (h : ReadsEach (Reader.filter pseudo) (Ends filterEnd) (Filter.texts fs) gs)
    (type : Option TypeSelector) :
    Reads (Reader.loop beginsFilter (Reader.withFilter pseudo) limit (Compound.mk type [] none))
      (Filter.texts fs).flatten (Compound.mk type gs none) FiltersEnd := by
  have hstart : gs.foldl Compound.filter (.mk type [] none) = .mk type gs none :=
    foldl_filter type [] gs
  have hflat : (Filter.texts fs).flatten = (Filter.texts fs).flatMap ([] ++ ·) := by
    simp [List.flatMap]
  rw [hflat, ← hstart]
  refine h.loop _ hlimit ?_ ?_ ?_ ?_ ?_
  · intro c t f hf
    exact hf.map c.filter
  · intro t ht rest
    obtain ⟨f, rfl⟩ := mem_filterTexts ht
    exact beginsFilter_text f rest
  · intro t ht rest
    obtain ⟨f, rfl⟩ := mem_filterTexts ht
    exact (filter_begins f rest).of_oneOf (by decide)
  · exact fun rest hrest => hrest.1
  · exact fun rest hrest => hrest.2

theorem head_pseudoElement (e : PseudoElement) : ∃ cs, css e = ':' :: ':' :: cs := by
  cases e with
  | part => exact ⟨_, rfl⟩
  | _ => exact ⟨_, String.toList_ofList⟩

/-- Two colons tell a pseudo-element from the filters before it. -/
theorem reads_element {element : Option PseudoElement}
    (hlimit : (clause "" element).length ≤ limit) :
    Reads (Reader.opt (· == ':') (Reader.pseudoElement limit)) (clause "" element)
      (element.map .normal) (Ends compoundEnd) := by
  cases element with
  | none => exact Reads.opt_none.at_oneOf (by decide)
  | some e =>
    have he := reads_pseudoElement e hlimit
    obtain ⟨cs, heq⟩ := head_pseudoElement e
    show Reads _ (css e) _ _
    rw [heq] at he ⊢
    exact he.opt_some rfl

/-- What follows the filters ends them. -/
theorem element_ends {element : Option PseudoElement} {rest : List Char}
    (hrest : Ends compoundEnd rest) : FiltersEnd (clause "" element ++ rest) := by
  cases element with
  | none =>
    have hmark : Ends (fun c => !filterMarks.contains c) rest := hrest.of_oneOf (by decide)
    refine ⟨?_, hrest.of_oneOf (by decide)⟩
    cases rest with
    | nil => rfl
    | cons c rest => exact beginsFilter_cons (hmark c rfl)
  | some e =>
    obtain ⟨cs, heq⟩ := head_pseudoElement e
    show FiltersEnd (css e ++ rest)
    rw [heq]
    exact ⟨rfl, .cons rfl⟩

/-- **A compound reads back once its filters do.** The limit is on the number of filters and on
what is inside of `::part`. -/
theorem reads_parts {fs gs : List Filter} {element : Option PseudoElement}
    (hfilters : (Filter.texts fs).length ≤ limit) (helement : (clause "" element).length ≤ limit)
    (h : ReadsEach (Reader.filter pseudo) (Ends filterEnd) (Filter.texts fs) gs)
    (type : Option TypeSelector) :
    Reads (Reader.parts pseudo limit)
      (clause "" type ++ (Filter.texts fs).flatten ++ clause "" element)
      (.mk (type.map .normal) gs (element.map .normal)) (Ends compoundEnd) := by
  have hvalue : (Compound.mk (type.map .normal) gs none).ending (element.map .normal) =
      .mk (type.map .normal) gs (element.map .normal) := by
    cases element <;> rfl
  rw [List.append_assoc, ← hvalue]
  refine (reads_type type).bind ((reads_filters hfilters h (type.map .normal)).bind
    ((reads_element helement).map (Compound.mk (type.map .normal) gs none).ending) ?_) ?_
  · exact fun _ => element_ends
  · intro rest hrest
    cases fs with
    | nil => exact (element_ends hrest).2
    | cons f fs =>
      rw [Filter.texts, List.flatten_cons, List.append_assoc, List.append_assoc]
      exact (filter_begins f _).of_oneOf (by decide)

/-! ### Combinators -/

/-- A combinator's text, without the space in front. -/
def Combinator.lead (k : Combinator) : List Char :=
  (k.symbol?.map fun symbol => symbol.toList ++ [' ']).getD []

/-- The space in front of a combinator is the same for all. -/
theorem Combinator.css_eq (k : Combinator) : css k = ' ' :: k.lead := by
  cases k <;> rfl

/-- No compound begins as a combinator does. -/
def beginsCompound (c : Char) : Bool := beginsType c || filterMarks.contains c

/-- The space of a descendant is told from a combinator by what begins behind it. -/
theorem reads_combinator (k : Combinator) :
    Reads Reader.combinator k.lead k (Ends beginsCompound) := by
  intro rest hrest
  cases k with
  -- a space is all that it has, and the next compound begins as no combinator does
  | descendant =>
    show Reader.combinator rest = _
    unfold Reader.combinator
    split
    case h_5 => rfl
    all_goals exact absurd (hrest _ rfl) (by decide)
  | _ => rfl

/-- One more compound of a selector. -/
theorem reads_step {left : Selector} {k : Combinator} {t : List Char} {c : Compound}
    (h : Reads (Reader.compound pseudo limit) t c (Ends compoundEnd))
    (hhead : ∀ rest, Ends beginsCompound (t ++ rest)) :
    Reads (Reader.step pseudo limit left) (css k ++ t) (.combined left k c) (Ends compoundEnd) := by
  rw [k.css_eq]
  refine Reads.after [' '] ((reads_combinator k).bind (h.map (Selector.combined left k)) ?_)
  exact fun rest _ => hhead rest

theorem reads_relative {k : Combinator} {t : List Char} {s : Selector}
    (h : Reads (Reader.selector pseudo limit) t s (Ends selectorEnd))
    (hhead : ∀ rest, Ends beginsCompound (t ++ rest)) :
    Reads (Reader.relative pseudo limit) (k.lead ++ t) (.mk k s) (Ends selectorEnd) :=
  (reads_combinator k).bind (h.map (RelativeSelector.mk k)) fun rest _ => hhead rest

/-- The star of an empty compound begins it as well. -/
theorem compound_begins : ∀ (c : Compound) (rest : List Char),
    Ends beginsCompound (c.text ++ rest)
  | .mk none [] none, _ => .cons rfl
  | .mk (some t) fs e, rest => by
    obtain ⟨d, ds, heq, hd⟩ := head_typeSelector t
    show Ends beginsCompound (css t ++ (Filter.texts fs).flatten ++ clause "" e ++ rest)
    rw [heq]
    exact .cons (by simp [beginsCompound, hd])
  | .mk none (f :: fs) e, rest => by
    show Ends beginsCompound (([] ++ (f.text ++ (Filter.texts fs).flatten)) ++ clause "" e ++ rest)
    rw [List.nil_append, List.append_assoc, List.append_assoc]
    exact (filter_begins f _).of_oneOf (by decide)
  | .mk none [] (some e), rest => by
    obtain ⟨cs, heq⟩ := head_pseudoElement e
    show Ends beginsCompound (css e ++ rest)
    rw [heq]
    exact .cons rfl

theorem selector_begins : ∀ (s : Selector) (rest : List Char),
    Ends beginsCompound (s.text ++ rest)
  | .compound c, rest => compound_begins c rest
  | .combined left k right, rest => by
    rw [Selector.text, List.append_assoc, List.append_assoc]
    exact selector_begins left _

/-! ### Lists -/

/-- A text is no longer than a list that has it. -/
theorem length_le_joined_of_mem {separator t : List Char} : ∀ {ts : List (List Char)},
    t ∈ ts → t.length ≤ (joined separator ts).length
  | [u], h => by
    rw [List.mem_singleton.mp h]
    exact Nat.le_refl _
  | u :: v :: vs, h => by
    show t.length ≤ (u ++ separator ++ joined separator (v :: vs)).length
    simp only [List.length_append]
    rcases List.mem_cons.mp h with rfl | h
    · omega
    · have htail : t.length ≤ (joined separator (v :: vs)).length := length_le_joined_of_mem h
      omega

/-- **Items with commas between them read back once each of them does.** The whole being short
enough is what makes the items so. -/
theorem reads_commaList {α : Type} {p : Reader α} {first : List Char} {a : α} {as : List α}
    (hlimit : (joined ", ".toList (first :: texts)).length ≤ limit)
    (hfirst : first.length ≤ limit → Reads p first a (Ends selectorEnd))
    (hrest : (∀ t ∈ texts, t.length ≤ limit) → ReadsEach p (Ends selectorEnd) texts as) :
    Reads (Reader.listOf [',', ' '] p limit) (joined ", ".toList (first :: texts)) ⟨a, as⟩
      (Ends listEnd) := by
  have hlengths : ∀ t ∈ first :: texts, t.length ≤ limit :=
    fun t ht => Nat.le_trans (length_le_joined_of_mem ht) hlimit
  rw [List.forall_mem_cons] at hlengths
  have hcount : texts.length ≤ limit :=
    Nat.le_trans (length_le_joined ',' [' '] first texts) hlimit
  refine (hrest hlengths.2).listOf (hfirst hlengths.1) hcount rfl ?_ ?_
  · exact fun c hc => bne_iff_ne.mp (of_oneOf (p := (· != ',')) hc (by decide))
  · exact fun c hc => of_oneOf hc (by decide)

/-! ### Arguments -/

section
variable (n : Nth) (f : Nth → Option SelectorList → PseudoClass)

theorem reads_position :
    Reads (Reader.positions pseudo limit f) (css n) (f n none) (Ends listEnd) := by
  have hnth : Reads Reader.nth (css n) n (Ends listEnd) := (reads_nth n).at_oneOf (by decide)
  have hnone : Reads (Reader.opt (· == ' ')
      (do Reader.expect [' ', 'o', 'f', ' ']; Reader.selectors pseudo limit)) [] none
      (Ends listEnd) :=
    Reads.opt_none.at_oneOf (by decide)
  rw [← List.append_nil (css n)]
  exact hnth.bind (hnone.map (f n)) fun _ hrest => hrest

/-- The word `of` has a space on either side, which no position has. -/
theorem reads_positionAmong {t : List Char} {l : SelectorList}
    (h : Reads (Reader.selectors pseudo limit) t l (Ends listEnd)) :
    Reads (Reader.positions pseudo limit f) (css n ++ " of ".toList ++ t) (f n (some l))
      (Ends listEnd) := by
  rw [List.append_assoc]
  refine (reads_nth n).bind (((h.after [' ', 'o', 'f', ' ']).opt_some rfl).map (f n)) ?_
  exact fun _ _ => .cons (by decide)

end

theorem reads_ranges (ranges : NonEmpty Identifier)
    (h : (commaSeparated ranges.toList).length ≤ limit) :
    Reads (Reader.listOf [',', ' '] Reader.identifier limit) (commaSeparated ranges.toList)
      ⟨ranges.first.normal, ranges.rest.map .normal⟩ (Ends listEnd) := by
  have hname (i : Identifier) : Reads Reader.identifier (css i) i.normal (Ends selectorEnd) :=
    (reads_identifier i).at_oneOf (by decide)
  refine reads_commaList h (fun _ => hname ranges.first) fun _ => ?_
  induction ranges.rest with
  | nil => exact .nil
  | cons i is ih => exact .cons (hname i) ih

end

instance : LawfulKeyword TextDirection := ⟨by intro d; cases d <;> rfl⟩

theorem reads_direction (d : TextDirection) :
    Reads (Reader.keyword isWordChar) (css d) d (Ends listEnd) :=
  (Reads.keyword (by cases d <;> exact all_toList rfl)).at_oneOf (by decide)

/-! ### Pseudo-classes -/

instance : LawfulKeyword PseudoClassKeyword := ⟨by intro k; cases k <;> rfl⟩

/-- A pseudo-class that takes no arguments. -/
theorem reads_pseudoKeyword (k : PseudoClassKeyword) (n : Nat) :
    Reads (Reader.pseudoClass (n + 1)) (':' :: css k) (.keyword k) (Ends filterEnd) := by
  have hspan : Reads (Reader.span isWordChar) (css k) (css k) (Ends filterEnd) :=
    (Reads.span (all_isWordChar k)).at_oneOf (by decide)
  have hplain : Reads (Reader.orFail ((Reader.spelled? PseudoClassKeyword (css k)).map
      fun k => pure (PseudoClass.keyword k))) [] (.keyword k) Anything := by
    rw [spelled?_css]
    exact .pure
  refine Reads.after [':'] ?_
  rw [← List.append_nil (css k)]
  exact hspan.bind ((Reads.fork_right hplain).at_oneOf (by decide)) fun _ hrest => hrest

/-- **A pseudo-class with arguments reads back once they do**, with a limit less by one. -/
theorem reads_function (f : PseudoFunction) {n : Nat} {body : List Char} {p : PseudoClass}
    (h : Reads (Reader.arguments (Reader.pseudoClass n) n f) body p (Ends listEnd)) :
    Reads (Reader.pseudoClass (n + 1)) (':' :: (css f ++ '(' :: (body ++ [')']))) p Anything := by
  have hspan : Reads (Reader.span isWordChar) (css f) (css f) (Ends (oneOf ['('])) :=
    (Reads.span (by cases f <;> exact all_toList rfl)).at_oneOf (by decide)
  have hbrackets : Reads (Reader.orFail ((Reader.spelled? PseudoFunction (css f)).map
      fun f => Reader.inBrackets (Reader.arguments (Reader.pseudoClass n) n f)))
      ('(' :: (body ++ [')'])) p Anything := by
    rw [spelled?_css]
    exact h.inBrackets fun _ => .cons rfl
  refine Reads.after [':'] (hspan.bind (hbrackets.fork_left rfl) ?_)
  exact fun _ _ => .cons rfl

end Stylesheet
