import Stylesheet.Proofs.Selector.Reader

/-! What a selector reads back as has the selector's own text. -/
namespace Stylesheet

/-! ### Names and strings -/

/-- Whatever takes the two characters alike. -/
theorem apply_replaced {α : Type} {f : Char → α} (h : f '\ufffd' = f '\x00') (c : Char) :
    f (replaced c) = f c := by
  by_cases hc : c = '\x00'
  · rw [hc]
    exact h
  · rw [replaced_of_ne hc]

/-- The escapes of a digit are left alone, since only the null character is replaced. -/
theorem hexEscape_replaced {c : Char} (h : c.isDigit) : hexEscape (replaced c) = hexEscape c := by
  have hne : c ≠ '\x00' := by
    rintro rfl
    exact absurd h (by decide)
  rw [replaced_of_ne hne]

/-- No character becomes a dash, so that the cases of an identifier stay apart. -/
theorem replaced_ne_dash {c : Char} (h : c ≠ '-') : replaced c ≠ '-' := by
  unfold replaced
  split
  · decide
  · exact h

/-- Escaping goes character by character, and the null character is escaped as what replaces it. -/
theorem flatMap_replaced {f : Char → List Char} (h : f '\ufffd' = f '\x00') (cs : List Char) :
    (cs.map replaced).flatMap f = cs.flatMap f := by
  simp [List.flatMap_map, apply_replaced h]

/-- Inside a name. -/
theorem escapeName_replaced (cs : List Char) : escapeName (cs.map replaced) = escapeName cs :=
  flatMap_replaced rfl cs

/-- At the start of a name a digit is escaped too, and it is the same digit after the
replacement. -/
theorem escapeNameStart_replaced (cs : List Char) :
    escapeNameStart (cs.map replaced) = escapeNameStart cs := by
  cases cs with
  | nil => rfl
  | cons c cs =>
    have hdigit : (replaced c).isDigit = c.isDigit := apply_replaced rfl c
    have hchar : escapeNameChar (replaced c) = escapeNameChar c := apply_replaced rfl c
    rw [List.map_cons, escapeNameStart, escapeNameStart, hdigit, hchar, escapeName_replaced]
    by_cases h : c.isDigit
    · rw [hexEscape_replaced h]
    · simp [h]

/-- An identifier that does not begin with a dash is escaped as a name from its start. -/
theorem escapeIdentifier_of_ne {c : Char} (h : c ≠ '-') (cs : List Char) :
    escapeIdentifier (c :: cs) = escapeNameStart (c :: cs) := by
  unfold escapeIdentifier
  split
  case h_4 => rfl
  all_goals exact absurd (List.cons.inj ‹_›).1 h

/-- Behind a single dash comes the start of a name. -/
theorem escapeIdentifier_dash {c : Char} (h : c ≠ '-') (cs : List Char) :
    escapeIdentifier ('-' :: c :: cs) = '-' :: escapeNameStart (c :: cs) := by
  unfold escapeIdentifier
  split
  case h_1 hcs => exact absurd (List.cons.inj (List.cons.inj hcs).2).1 h
  case h_2 hcs => exact nomatch hcs
  case h_3 hcs => rw [(List.cons.inj hcs).2]
  case h_4 hdash => exact absurd rfl (hdash _)

/-- **An identifier has the same text after the null characters are replaced.** The cases follow
the dashes in front, which are all that escaping looks ahead for. -/
theorem escapeIdentifier_replaced : ∀ cs : List Char,
    escapeIdentifier (cs.map replaced) = escapeIdentifier cs
  | [] => rfl
  | c :: cs => by
    by_cases hc : c = '-'
    · subst hc
      cases cs with
      | nil => rfl
      | cons d ds =>
        by_cases hd : d = '-'
        · subst hd
          show '-' :: '-' :: escapeName (ds.map replaced) = _
          rw [escapeName_replaced]
          rfl
        · show escapeIdentifier ('-' :: replaced d :: ds.map replaced) = _
          rw [escapeIdentifier_dash hd, escapeIdentifier_dash (replaced_ne_dash hd),
            ← List.map_cons, escapeNameStart_replaced]
    · rw [List.map_cons, escapeIdentifier_of_ne hc, escapeIdentifier_of_ne (replaced_ne_dash hc),
        ← List.map_cons, escapeNameStart_replaced]

/-- Strings replace the null character when they are written, so that it makes no difference
before. -/
theorem quoteString_replaced (cs : List Char) : quoteString (cs.map replaced) = quoteString cs := by
  rw [quoteString, quoteString, flatMap_replaced rfl]

/-- A name and its normal form are written alike; a reader only ever sees the latter. -/
@[simp]
theorem Identifier.css_normal (i : Identifier) : css i.normal = css i := by
  show escapeIdentifier (String.ofList (i.name.toList.map replaced)).toList = _
  rw [String.toList_ofList, escapeIdentifier_replaced]
  rfl

@[simp]
theorem CustomIdent.css_normal (i : CustomIdent) : css i.normal = css i :=
  i.toIdentifier.css_normal

/-! ### The parts of a selector -/

/-- The matcher and the flag are kept, and the value is written as before. -/
@[simp]
theorem AttributeSelector.testText_normal (t : AttributeTest) : testText t.normal = testText t := by
  show css t.matcher ++ quoteString (String.ofList (t.value.toList.map replaced)).toList ++
    clause " " t.flag = _
  rw [String.toList_ofList, quoteString_replaced]
  rfl

/-- The name in front of the test is an identifier like others. -/
@[simp]
theorem AttributeSelector.css_normal : ∀ a : AttributeSelector, css a.normal = css a
  | ⟨name, none⟩ => by
    show '[' :: css name.normal ++ [] ++ [']'] = '[' :: css name ++ [] ++ [']']
    rw [name.css_normal]
  | ⟨name, some t⟩ => by
    show '[' :: css name.normal ++ testText t.normal ++ [']'] =
      '[' :: css name ++ testText t ++ [']']
    rw [name.css_normal, testText_normal]

/-- The items of a list may each be replaced by one of the same text. -/
theorem separated_congr {α : Type} [ToCss α] {f : α → α} (h : ∀ a, css (f a) = css a)
    (separator : String) (a : α) (as : List α) :
    separated separator (f a :: as.map f) = separated separator (a :: as) := by
  simp [separated, h, Function.comp_def]

@[simp]
theorem PseudoElement.css_normal (e : PseudoElement) : css e.normal = css e := by
  cases e with
  | part names =>
    obtain ⟨first, rest⟩ := names
    show call "::part" (separated " " (first.normal :: rest.map .normal)) = _
    rw [separated_congr CustomIdent.css_normal]
    rfl
  | _ => rfl

@[simp]
theorem TypeSelector.css_normal (t : TypeSelector) : css t.normal = css t := by
  cases t with
  | universal => rfl
  | element name => exact name.css_normal

/-- What introduces an optional part stays, whether the part is there or not. -/
theorem clause_normal {α : Type} [ToCss α] {f : α → α} (h : ∀ a, css (f a) = css a)
    (lead : String) (o : Option α) : clause lead (o.map f) = clause lead o := by
  cases o with
  | none => rfl
  | some a =>
    show lead.toList ++ css (f a) = _
    rw [h]
    rfl

/-! ### Selectors -/

/-- Two compounds have one text when their filters have the same texts and their types and
elements differ by the normal form at most. -/
theorem Compound.text_congr {c d : Compound} (type : Option TypeSelector)
    (element : Option PseudoElement) {fs gs : List Filter} (h : Filter.texts gs = Filter.texts fs)
    (hc : c.text = clause "" (type.map TypeSelector.normal) ++ (Filter.texts gs).flatten ++
      clause "" (element.map PseudoElement.normal))
    (hd : d.text = clause "" type ++ (Filter.texts fs).flatten ++ clause "" element) :
    c.text = d.text := by
  rw [hc, hd, h, clause_normal TypeSelector.css_normal, clause_normal PseudoElement.css_normal]

mutual

/-- **A selector and its normal form have the same text.** One induction over all the parts that
selectors are made of. -/
theorem Filter.text_normal : ∀ f : Filter, f.normal.text = f.text
  | .id name => congrArg ('#' :: ·) name.css_normal
  | .class name => congrArg ('.' :: ·) name.css_normal
  | .attribute a => a.css_normal
  | .pseudo p => PseudoClass.text_normal p

theorem PseudoClass.text_normal : ∀ p : PseudoClass, p.normal.text = p.text
  | .keyword _ | .nthOfType _ | .nthLastOfType _ | .dir _ => rfl
  | .nthChild _ none | .nthLastChild _ none => rfl
  | .not ⟨s, ss⟩ | .is ⟨s, ss⟩ | .whereAny ⟨s, ss⟩ => by
    simp only [PseudoClass.normal, PseudoClass.text, Selector.text_normal s,
      Selector.texts_normals ss]
  | .has ⟨s, ss⟩ => by
    simp only [PseudoClass.normal, PseudoClass.text, RelativeSelector.text_normal s,
      RelativeSelector.texts_normals ss]
  | .nthChild _ (some ⟨s, ss⟩) | .nthLastChild _ (some ⟨s, ss⟩) => by
    simp only [PseudoClass.normal, PseudoClass.text, Selector.text_normal s,
      Selector.texts_normals ss]
  | .lang ⟨first, rest⟩ => by
    show call ":lang" (separated ", " (first.normal :: rest.map .normal)) = _
    rw [separated_congr Identifier.css_normal]
    rfl

/-- A compound of nothing is a star before and after. -/
theorem Compound.text_normal : ∀ c : Compound, c.normal.text = c.text
  | .mk none [] none => rfl
  | .mk (some t) fs e => Compound.text_congr (some t) e (Filter.texts_normals fs) rfl rfl
  | .mk none (f :: fs) e => Compound.text_congr none e (Filter.texts_normals (f :: fs)) rfl rfl
  | .mk none [] (some e) => Compound.text_congr none (some e) rfl rfl rfl

theorem Selector.text_normal : ∀ s : Selector, s.normal.text = s.text
  | .compound c => Compound.text_normal c
  | .combined left k right => by
    simp only [Selector.normal, Selector.text, Selector.text_normal left,
      Compound.text_normal right]

/-- The combinator in front of a relative selector has no names in it. -/
theorem RelativeSelector.text_normal : ∀ s : RelativeSelector, s.normal.text = s.text
  | .mk k s => by
    simp only [RelativeSelector.normal, RelativeSelector.text, Selector.text_normal s]

theorem Filter.texts_normals : ∀ fs : List Filter,
    Filter.texts (Filter.normals fs) = Filter.texts fs
  | [] => rfl
  | f :: fs => by
    simp only [Filter.normals, Filter.texts, Filter.text_normal f, Filter.texts_normals fs]

theorem Selector.texts_normals : ∀ ss : List Selector,
    Selector.texts (Selector.normals ss) = Selector.texts ss
  | [] => rfl
  | s :: ss => by
    simp only [Selector.normals, Selector.texts, Selector.text_normal s, Selector.texts_normals ss]

theorem RelativeSelector.texts_normals : ∀ ss : List RelativeSelector,
    RelativeSelector.texts (RelativeSelector.normals ss) = RelativeSelector.texts ss
  | [] => rfl
  | s :: ss => by
    simp only [RelativeSelector.normals, RelativeSelector.texts, RelativeSelector.text_normal s,
      RelativeSelector.texts_normals ss]

end

end Stylesheet
