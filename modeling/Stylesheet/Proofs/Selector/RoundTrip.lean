import Stylesheet.Proofs.Selector.Layer

/-! Selectors read back from their text.

The readers are given a limit, and what they enter is shorter than what holds it, so a limit
of the text's length is enough all the way down. The induction is on the selector and its
parts together. -/
namespace Stylesheet

/-- A pseudo-class reads back once its arguments do, which are shorter. -/
theorem reads_call (f : PseudoFunction) {name : String} {n : Nat} {body : List Char}
    {p : PseudoClass} (hlimit : (call name body).length ≤ n)
    (h : ∀ m, body.length ≤ m →
      Reads (Reader.arguments (Reader.pseudoClass m) m f) body p (Ends listEnd))
    (hname : name.toList = ':' :: css f := by rfl) :
    Reads (Reader.pseudoClass n) (call name body) p (Ends filterEnd) := by
  have htext : call name body = ':' :: (css f ++ '(' :: (body ++ [')'])) := by
    rw [call, hname]
    simp
  rw [htext] at hlimit ⊢
  cases n with
  | zero => exact absurd hlimit (Nat.not_succ_le_zero _)
  | succ m =>
    have hbody : body.length ≤ m := by
      simp only [List.length_cons, List.length_append] at hlimit
      omega
    exact (reads_function f (h m hbody)).of_anything

/-- No filter is empty, so that there are no more of them than characters. -/
theorem length_filterTexts_le (fs : List Filter) :
    (Filter.texts fs).length ≤ (Filter.texts fs).flatten.length := by
  induction fs with
  | nil => exact Nat.le_refl _
  | cons f fs ih =>
    have hne : 0 < f.text.length := by
      refine List.length_pos_iff.mpr fun hnil => ?_
      have hbegins := beginsFilter_text f []
      rw [hnil] at hbegins
      exact absurd hbegins Bool.false_ne_true
    simp only [Filter.texts, List.length_cons, List.flatten_cons, List.length_append]
    omega

/-- An empty compound is written, and so read, as the universal one. -/
theorem Compound.text_eq : ∀ (type : Option TypeSelector) (fs : List Filter)
    (element : Option PseudoElement), ∃ written,
      (Compound.mk type fs element).text =
        clause "" written ++ (Filter.texts fs).flatten ++ clause "" element ∧
      (Compound.mk type fs element).normal =
        .mk (written.map .normal) (Filter.normals fs) (element.map .normal) ∧
      (Compound.mk type fs element).normal.isEmpty = false
  | none, [], none => ⟨some .universal, rfl, rfl, rfl⟩
  | some t, _, _ => ⟨some t, rfl, rfl, rfl⟩
  | none, _ :: _, _ => ⟨none, rfl, rfl, rfl⟩
  | none, [], some _ => ⟨none, rfl, rfl, rfl⟩

/-- The reader has read the selector and may go on with its next compound. -/
def ReadsFront (n : Nat) (s : Selector) : Prop :=
  ∃ m, n ≤ m + s.text.length ∧ ∀ rest, Ends compoundEnd rest →
    Reader.selector (Reader.pseudoClass n) n (s.text ++ rest) =
      Reader.loop (headIs ' ') (Reader.step (Reader.pseudoClass n) n) m s.normal rest

namespace ReadsFront

variable {n : Nat}

/-- The first compound has been read. -/
theorem compound {c : Compound}
    (h : Reads (Reader.compound (Reader.pseudoClass n) n) c.text c.normal (Ends compoundEnd)) :
    ReadsFront n (.compound c) := by
  refine ⟨n, Nat.le_add_right _ _, fun rest hrest => ?_⟩
  show (Reader.compound (Reader.pseudoClass n) n (c.text ++ rest)).bind _ = _
  rw [h rest hrest]
  rfl

/-- One more round of the loop reads the combinator and the compound behind it. -/
theorem combined {left : Selector} {k : Combinator} {right : Compound}
    (hleft : ReadsFront n left)
    (hright : Reads (Reader.compound (Reader.pseudoClass n) n) right.text right.normal
      (Ends compoundEnd))
    (hlimit : (Selector.combined left k right).text.length ≤ n) :
    ReadsFront n (.combined left k right) := by
  obtain ⟨m, hm, hleft⟩ := hleft
  have htext : (Selector.combined left k right).text =
      left.text ++ ' ' :: (k.lead ++ right.text) := by
    rw [Selector.text, k.css_eq, List.append_assoc, List.cons_append]
  rw [htext, List.length_append, List.length_cons] at hlimit
  -- the loop has a round left, since what is still to be read has some length
  obtain ⟨m, rfl⟩ := Nat.exists_eq_succ_of_ne_zero (show m ≠ 0 by omega)
  have hstep : Reads (Reader.step (Reader.pseudoClass n) n left.normal) (css k ++ right.text)
      (.combined left.normal k right.normal) (Ends compoundEnd) :=
    reads_step hright (compound_begins right)
  rw [k.css_eq, List.cons_append] at hstep
  refine ⟨m, ?_, fun rest hrest => ?_⟩
  · rw [htext, List.length_append, List.length_cons]
    omega
  · rw [htext, List.append_assoc]
    refine (hleft (' ' :: (k.lead ++ right.text) ++ rest) (.cons rfl)).trans ?_
    show (Reader.step (Reader.pseudoClass n) n left.normal
      (' ' :: (k.lead ++ right.text) ++ rest)).bind _ = _
    rw [hstep rest hrest]
    rfl

/-- The loop ends where no space follows. -/
theorem reads {s : Selector} (h : ReadsFront n s) :
    Reads (Reader.selector (Reader.pseudoClass n) n) s.text s.normal (Ends selectorEnd) := by
  obtain ⟨m, -, hfront⟩ := h
  intro rest hrest
  rw [hfront rest (hrest.of_oneOf (by decide))]
  refine Reads.loop_nil (F := Ends selectorEnd) (fun rest hrest => ?_) rest hrest
  have hspace : Ends (· != ' ') rest := hrest.of_oneOf (by decide)
  cases rest with
  | nil => rfl
  | cons c rest => simpa [headIs] using hspace c rfl

end ReadsFront

mutual

/-- **Every part of a selector reads back as its normal form** when the limit is at least the
length of its text. The induction is over all the parts together. -/
theorem Filter.reads_text : ∀ (f : Filter) (n : Nat), f.text.length ≤ n →
    Reads (Reader.filter (Reader.pseudoClass n)) f.text f.normal (Ends filterEnd)
  | .id name, _, _ => ((reads_identifier name).at_oneOf (by decide)).map Filter.id
  | .class name, _, _ => ((reads_identifier name).at_oneOf (by decide)).map Filter.class
  | .attribute a, _, _ => (reads_attributeSelector a).of_anything.map Filter.attribute
  | .pseudo p, n, h => by
    have hp := PseudoClass.reads_text p n h
    obtain ⟨c, cs, heq, -⟩ := head_pseudoText p
    rw [Filter.text]
    rw [heq] at hp ⊢
    exact reads_pseudoFilter hp

/-- The arguments of a function are shorter than the whole by its name and the parentheses. -/
theorem PseudoClass.reads_text : ∀ (p : PseudoClass) (n : Nat), p.text.length ≤ n →
    Reads (Reader.pseudoClass n) p.text p.normal (Ends filterEnd)
  | .keyword k, n + 1, _ => reads_pseudoKeyword k n
  | .not ⟨s, ss⟩, _, h => reads_call .not h fun m hm =>
    (reads_commaList hm (fun hs => (Selector.reads_front s m hs).reads)
      (Selector.reads_texts ss m)).map PseudoClass.not
  | .is ⟨s, ss⟩, _, h => reads_call .is h fun m hm =>
    (reads_commaList hm (fun hs => (Selector.reads_front s m hs).reads)
      (Selector.reads_texts ss m)).map PseudoClass.is
  | .whereAny ⟨s, ss⟩, _, h => reads_call .whereAny h fun m hm =>
    (reads_commaList hm (fun hs => (Selector.reads_front s m hs).reads)
      (Selector.reads_texts ss m)).map PseudoClass.whereAny
  | .has ⟨s, ss⟩, _, h => reads_call .has h fun m hm =>
    (reads_commaList hm (RelativeSelector.reads_text s m)
      (RelativeSelector.reads_texts ss m)).map PseudoClass.has
  | .nthChild nth none, _, h => reads_call .nthChild h fun _ _ =>
    reads_position nth PseudoClass.nthChild
  | .nthChild nth (some ⟨s, ss⟩), _, h => reads_call .nthChild h fun m hm =>
    reads_positionAmong nth PseudoClass.nthChild
      (reads_commaList (by rw [List.length_append] at hm; omega)
        (fun hs => (Selector.reads_front s m hs).reads) (Selector.reads_texts ss m))
  | .nthLastChild nth none, _, h => reads_call .nthLastChild h fun _ _ =>
    reads_position nth PseudoClass.nthLastChild
  | .nthLastChild nth (some ⟨s, ss⟩), _, h => reads_call .nthLastChild h fun m hm =>
    reads_positionAmong nth PseudoClass.nthLastChild
      (reads_commaList (by rw [List.length_append] at hm; omega)
        (fun hs => (Selector.reads_front s m hs).reads) (Selector.reads_texts ss m))
  | .nthOfType nth, _, h => reads_call .nthOfType h fun _ _ =>
    ((reads_nth nth).at_oneOf (by decide)).map PseudoClass.nthOfType
  | .nthLastOfType nth, _, h => reads_call .nthLastOfType h fun _ _ =>
    ((reads_nth nth).at_oneOf (by decide)).map PseudoClass.nthLastOfType
  | .lang ranges, _, h => reads_call .lang h fun _ hm =>
    (reads_ranges ranges hm).map PseudoClass.lang
  | .dir d, _, h => reads_call .dir h fun _ _ => (reads_direction d).map PseudoClass.dir

/-- An empty compound is read as the star that it is written as. -/
theorem Compound.reads_text : ∀ (c : Compound) (n : Nat), c.text.length ≤ n →
    Reads (Reader.compound (Reader.pseudoClass n) n) c.text c.normal (Ends compoundEnd)
  | .mk type fs element, n, h => by
    obtain ⟨written, htext, hnormal, hempty⟩ := Compound.text_eq type fs element
    rw [htext] at h ⊢
    simp only [List.length_append] at h
    have hcount := length_filterTexts_le fs
    have hfilters := Filter.reads_texts fs n (by omega)
    have hparts := reads_parts (show _ ≤ n by omega)
      (show (clause "" element).length ≤ n by omega) hfilters written
    rw [← hnormal] at hparts
    exact hparts.pick (by simp [hempty])

/-- A selector is read from its first compound on, as the loop of the reader goes. -/
theorem Selector.reads_front : ∀ (s : Selector) (n : Nat), s.text.length ≤ n → ReadsFront n s
  | .compound c, n, h => .compound (Compound.reads_text c n h)
  | .combined left k right, n, h => by
    have hlength := h
    simp only [Selector.text, List.length_append] at hlength
    exact .combined (Selector.reads_front left n (by omega))
      (Compound.reads_text right n (by omega)) h

theorem RelativeSelector.reads_text : ∀ (s : RelativeSelector) (n : Nat), s.text.length ≤ n →
    Reads (Reader.relative (Reader.pseudoClass n) n) s.text s.normal (Ends selectorEnd)
  | .mk k s, n, h => by
    rw [RelativeSelector.text, List.length_append] at h
    exact reads_relative (Selector.reads_front s n (by omega)).reads (selector_begins s)

/-- The filters of a compound, each ended by the next. -/
theorem Filter.reads_texts : ∀ (fs : List Filter) (n : Nat),
    (Filter.texts fs).flatten.length ≤ n →
    ReadsEach (Reader.filter (Reader.pseudoClass n)) (Ends filterEnd) (Filter.texts fs)
      (Filter.normals fs)
  | [], _, _ => .nil
  | f :: fs, n, h => by
    rw [Filter.texts, List.flatten_cons, List.length_append] at h
    exact .cons (Filter.reads_text f n (by omega)) (Filter.reads_texts fs n (by omega))

theorem Selector.reads_texts : ∀ (ss : List Selector) (n : Nat),
    (∀ t ∈ Selector.texts ss, t.length ≤ n) →
    ReadsEach (Reader.selector (Reader.pseudoClass n) n) (Ends selectorEnd) (Selector.texts ss)
      (Selector.normals ss)
  | [], _, _ => .nil
  | s :: ss, n, h => by
    rw [Selector.texts, List.forall_mem_cons] at h
    exact .cons (Selector.reads_front s n h.1).reads (Selector.reads_texts ss n h.2)

theorem RelativeSelector.reads_texts : ∀ (ss : List RelativeSelector) (n : Nat),
    (∀ t ∈ RelativeSelector.texts ss, t.length ≤ n) →
    ReadsEach (Reader.relative (Reader.pseudoClass n) n) (Ends selectorEnd)
      (RelativeSelector.texts ss) (RelativeSelector.normals ss)
  | [], _, _ => .nil
  | s :: ss, n, h => by
    rw [RelativeSelector.texts, List.forall_mem_cons] at h
    exact .cons (RelativeSelector.reads_text s n h.1) (RelativeSelector.reads_texts ss n h.2)

end
end Stylesheet
