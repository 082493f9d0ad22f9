import Stylesheet.Proofs.Media.Range

/-! Reading the features of media back.

Between its parentheses a feature has a name and perhaps a value, or it is a range. The
character behind the first name tells the two apart, and the name tells of which type the
value is. -/
namespace Stylesheet

instance : LawfulKeyword Orientation := ⟨by intro o; cases o <;> rfl⟩

instance : LawfulKeyword Hover := ⟨by intro h; cases h <;> rfl⟩

instance : LawfulKeyword Pointer := ⟨by intro p; cases p <;> rfl⟩

instance : LawfulKeyword ColorScheme := ⟨by intro s; cases s <;> rfl⟩

instance : LawfulKeyword ReducePreference := ⟨by intro p; cases p <;> rfl⟩

instance : LawfulKeyword ContrastPreference := ⟨by intro p; cases p <;> rfl⟩

instance : LawfulKeyword ForcedColors := ⟨by intro f; cases f <;> rfl⟩

instance : LawfulKeyword DisplayMode := ⟨by intro m; cases m <;> rfl⟩

/-! ### Names -/

/-- What is tested by name, whatever the bound. -/
inductive TestName where
  | width | height | aspectRatio | resolution | orientation | color | monochrome
  | hover | anyHover | pointer | anyPointer
  | prefersColorScheme | prefersReducedMotion | prefersReducedTransparency | prefersReducedData
  | prefersContrast | forcedColors | displayMode

instance : Keyword TestName where
  all := [.width, .height, .aspectRatio, .resolution, .orientation, .color, .monochrome,
    .hover, .anyHover, .pointer, .anyPointer, .prefersColorScheme, .prefersReducedMotion,
    .prefersReducedTransparency, .prefersReducedData, .prefersContrast, .forcedColors,
    .displayMode]
  keyword
    | .width => "width"
    | .height => "height"
    | .aspectRatio => "aspect-ratio"
    | .resolution => "resolution"
    | .orientation => "orientation"
    | .color => "color"
    | .monochrome => "monochrome"
    | .hover => "hover"
    | .anyHover => "any-hover"
    | .pointer => "pointer"
    | .anyPointer => "any-pointer"
    | .prefersColorScheme => "prefers-color-scheme"
    | .prefersReducedMotion => "prefers-reduced-motion"
    | .prefersReducedTransparency => "prefers-reduced-transparency"
    | .prefersReducedData => "prefers-reduced-data"
    | .prefersContrast => "prefers-contrast"
    | .forcedColors => "forced-colors"
    | .displayMode => "display-mode"

instance : LawfulKeyword TestName := ⟨by intro k; cases k <;> rfl⟩

/-- The bound is the beginning of the name. -/
def Bound.split : List Char → Bound × List Char
  | 'm' :: 'i' :: 'n' :: '-' :: name => (.atLeast, name)
  | 'm' :: 'a' :: 'x' :: '-' :: name => (.atMost, name)
  | name => (.exactly, name)

/-- No name begins like a bound. -/
theorem Bound.split_text (b : Bound) (k : TestName) :
    Bound.split (b.text ++ css k) = (b, css k) := by
  cases b with
  | exactly => cases k <;> rfl
  | atLeast => rfl
  | atMost => rfl

/-- A name with its bound is a name. -/
theorem Bound.all_isNameChar (b : Bound) (k : TestName) :
    (b.text ++ css k).all isNameChar := by
  rw [List.all_append, Bool.and_eq_true]
  constructor
  · cases b <;> decide
  · cases k <;> exact all_toList rfl

/-! ### Features by name -/

namespace MediaFeature

/-- The feature with its numbers as they are read back. -/
def canonicalNumbers : MediaFeature → MediaFeature
  | width bound value => width bound (canonical value)
  | height bound value => height bound (canonical value)
  | resolution bound value => resolution bound (canonical value)
  | range test => range test.canonicalNumbers
  | f => f

/-- The feature of a name, with the text of its value. -/
def ofName? : Bound → TestName → Option (List Char) → Option MediaFeature
  | bound, .width, some t => (read? t).map (width bound)
  | bound, .height, some t => (read? t).map (height bound)
  | bound, .aspectRatio, some t => (read? t).map (aspectRatio bound)
  | bound, .resolution, some t => (read? t).map (resolution bound)
  | .exactly, .orientation, some t => (read? t).map orientation
  | .exactly, .color, none => some (color none)
  | .exactly, .color, some t => (read? t).map fun bits => color (some bits)
  | .atLeast, .color, some t => (read? t).map minColor
  | .exactly, .monochrome, none => some (monochrome none)
  | .exactly, .monochrome, some t => (read? t).map fun bits => monochrome (some bits)
  | .exactly, .hover, some t => (read? t).map hover
  | .exactly, .anyHover, some t => (read? t).map anyHover
  | .exactly, .pointer, some t => (read? t).map pointer
  | .exactly, .anyPointer, some t => (read? t).map anyPointer
  | .exactly, .prefersColorScheme, some t => (read? t).map prefersColorScheme
  | .exactly, .prefersReducedMotion, some t => (read? t).map prefersReducedMotion
  | .exactly, .prefersReducedTransparency, some t => (read? t).map prefersReducedTransparency
  | .exactly, .prefersReducedData, some t => (read? t).map prefersReducedData
  | .exactly, .prefersContrast, some t => (read? t).map prefersContrast
  | .exactly, .forcedColors, some t => (read? t).map forcedColors
  | .exactly, .displayMode, some t => (read? t).map displayMode
  | _, _, _ => none

/-- What a feature tests by name, and that it is read back from there. -/
structure Named (f : MediaFeature) (bound : Bound) (k : TestName) (value : Option (List Char)) :
    Prop where
  content_eq : f.content = .inl ⟨bound.text ++ css k, value⟩
  ofName?_eq : ofName? bound k value = some f.canonicalNumbers
  nested_value : ∀ t ∈ value, Nested anyChar t

/-- A constructor with a value, which the reader applies to what it reads. -/
theorem exists_named {α : Type} [ToCss α] [Readable α] [Nests anyChar α] (bound : Bound)
    (k : TestName) (make : α → MediaFeature) (a : α)
    (hcontent : (make a).content = .inl ⟨bound.text ++ css k, some (css a)⟩ := by rfl)
    (hread : ∀ t, ofName? bound k (some t) = (read? t).map make := by intro t; rfl)
    (hcanonical : (make a).canonicalNumbers = make (canonical a) := by rfl) :
    ∃ bound k value, (make a).Named bound k value := by
  refine ⟨bound, k, some (css a), hcontent, ?_, fun t ht => ?_⟩
  · rw [hread, read?_css, hcanonical]
    rfl
  · obtain rfl := Option.some.inj ht
    exact nested a

/-- **Every feature is a test of a name or a range.** -/
theorem named_or_range (f : MediaFeature) :
    (∃ bound k value, f.Named bound k value) ∨ ∃ t, f = range t := by
  cases f with
  | width bound v => exact .inl (exists_named bound .width (width bound) v)
  | height bound v => exact .inl (exists_named bound .height (height bound) v)
  | aspectRatio bound v => exact .inl (exists_named bound .aspectRatio (aspectRatio bound) v)
  | resolution bound v => exact .inl (exists_named bound .resolution (resolution bound) v)
  | orientation v => exact .inl (exists_named .exactly .orientation orientation v)
  | color bits =>
    -- without a value there is nothing to read
    cases bits with
    | none => exact .inl ⟨.exactly, .color, none, rfl, rfl, nofun⟩
    | some n => exact .inl (exists_named .exactly .color (fun n => color (some n)) n)
  | minColor n => exact .inl (exists_named .atLeast .color minColor n)
  | monochrome bits =>
    cases bits with
    | none => exact .inl ⟨.exactly, .monochrome, none, rfl, rfl, nofun⟩
    | some n => exact .inl (exists_named .exactly .monochrome (fun n => monochrome (some n)) n)
  | hover v => exact .inl (exists_named .exactly .hover hover v)
  | anyHover v => exact .inl (exists_named .exactly .anyHover anyHover v)
  | pointer v => exact .inl (exists_named .exactly .pointer pointer v)
  | anyPointer v => exact .inl (exists_named .exactly .anyPointer anyPointer v)
  | prefersColorScheme v =>
    exact .inl (exists_named .exactly .prefersColorScheme prefersColorScheme v)
  | prefersReducedMotion v =>
    exact .inl (exists_named .exactly .prefersReducedMotion prefersReducedMotion v)
  | prefersReducedTransparency v =>
    exact .inl (exists_named .exactly .prefersReducedTransparency prefersReducedTransparency v)
  | prefersReducedData v =>
    exact .inl (exists_named .exactly .prefersReducedData prefersReducedData v)
  | prefersContrast v => exact .inl (exists_named .exactly .prefersContrast prefersContrast v)
  | forcedColors v => exact .inl (exists_named .exactly .forcedColors forcedColors v)
  | displayMode v => exact .inl (exists_named .exactly .displayMode displayMode v)
  | range t => exact .inr ⟨t, rfl⟩

/-! ### Between the parentheses -/

/-- The feature of a name with the bound in front and the value as it is. -/
def named? (name : List Char) (value : Option (List Char)) : Option MediaFeature :=
  let (bound, name) := Bound.split name
  (Reader.spelled? TestName name).bind fun k => ofName? bound k value

/-- Between the parentheses stands a name alone, a name and a value behind a colon, or a range. -/
def ofBody? (t : List Char) : Option MediaFeature :=
  match Reader.span isNameChar t with
  | some (name, []) => named? name none
  | some (name, ':' :: ' ' :: value) => named? name (some value)
  | _ => (RangeTest.ofWords? (cutAt ' ' t).toList).map range

/-- What stands behind the name of a test. -/
def valueText (value : Option (List Char)) : List Char := (value.map (": ".toList ++ ·)).getD []

/-- A colon ends a name. -/
theorem ends_valueText (value : Option (List Char)) :
    Ends (fun c => !isNameChar c) (valueText value) := by
  cases value with
  | none => exact .nil
  | some t => exact .cons rfl

namespace Named
variable {f : MediaFeature} {bound : Bound} {k : TestName} {value : Option (List Char)}

/-- The text of a test by name. -/
theorem css_eq (h : f.Named bound k value) :
    css f = '(' :: (bound.text ++ css k ++ valueText value ++ [')']) := by
  show css f.content = _
  rw [h.content_eq]
  rfl

/-- The name is written with its bound. -/
theorem name?_eq (h : f.Named bound k value) : f.name? = some (bound.text ++ css k) := by
  rw [name?, h.content_eq]
  rfl

/-- What is between the parentheses closes all that it opens. -/
theorem nested_body (h : f.Named bound k value) :
    Nested anyChar (bound.text ++ css k ++ valueText value) := by
  have hname : Nested anyChar (bound.text ++ css k) := by
    refine .of_all (List.all_eq_true.mpr fun c hc => ?_)
    have hc := List.all_eq_true.mp (bound.all_isNameChar k) c hc
    rw [isPlain_of_isNameChar hc]
    rfl
  refine hname.append ?_
  cases value with
  | none => exact .nil
  | some t => exact (Nested.word).append (h.nested_value t rfl)

/-- **A test by name reads back.** -/
theorem ofBody?_eq (h : f.Named bound k value) :
    ofBody? (bound.text ++ css k ++ valueText value) = some f.canonicalNumbers := by
  have hspan := Reads.span (bound.all_isNameChar k) _ (ends_valueText value)
  have hnamed : named? (bound.text ++ css k) value = some f.canonicalNumbers := by
    rw [named?, Bound.split_text]
    simp only [spelled?_css, Option.bind_some]
    exact h.ofName?_eq
  rw [ofBody?, hspan]
  cases value with
  | none => exact hnamed
  | some t => exact hnamed

end Named

theorem css_range (t : RangeTest) :
    css (range t) = '(' :: (joined [' '] t.words ++ [')']) :=
  rfl

/-- **So does a range**, for it is no name with a value behind. -/
theorem ofBody?_range (t : RangeTest) :
    ofBody? (joined [' '] t.words) = some (range t).canonicalNumbers := by
  have hwords : (RangeTest.ofWords? (cutAt ' ' (joined [' '] t.words)).toList).map range =
      some (range t).canonicalNumbers := by
    rw [t.cutAt_words, t.ofWords?_words]
    rfl
  obtain ⟨name, c, rest, htext, hname, hc⟩ := BreaksName.range t
  have hspan := Reads.span hname (c :: rest) (ends_of_isRangeBreak hc)
  rw [← htext] at hspan
  rw [ofBody?, hspan]
  split
  case h_1 heq => cases heq
  case h_2 heq =>
    cases heq
    exact absurd hc (by decide)
  case h_3 => exact hwords

/-- Canonical numbers are written as before. -/
theorem bounded_canonical {α : Type} [ToCss α] [Readable α] (bound : Bound) (name : String)
    (a : α) : NamedTest.bounded bound name (canonical a) = NamedTest.bounded bound name a := by
  rw [NamedTest.bounded, css_canonical]
  rfl

theorem css_eq_of_content {f g : MediaFeature} (h : f.content = g.content) : css f = css g :=
  congrArg (fun c : NamedTest ⊕ RangeTest => css c) h

/-- Reading back keeps the text. -/
theorem css_canonicalNumbers (f : MediaFeature) : css f.canonicalNumbers = css f := by
  cases f with
  | width => exact css_eq_of_content (congrArg Sum.inl (bounded_canonical ..))
  | height => exact css_eq_of_content (congrArg Sum.inl (bounded_canonical ..))
  | resolution => exact css_eq_of_content (congrArg Sum.inl (bounded_canonical ..))
  | range t =>
    show '(' :: joined [' '] t.canonicalNumbers.words ++ [')'] = _
    rw [t.words_canonicalNumbers]
    rfl
  | _ => rfl

/-- **A feature is read back as the same test of the same value.** -/
instance : Readable MediaFeature where
  read? t := (unwrap? '(' ')' t).bind ofBody?
  canonical := canonicalNumbers
  read?_css f := by
    obtain ⟨bound, k, value, h⟩ | ⟨t, rfl⟩ := f.named_or_range
    · rw [h.css_eq, unwrap?_enclosed]
      exact h.ofBody?_eq
    · rw [css_range, unwrap?_enclosed]
      exact ofBody?_range t
  css_canonical := css_canonicalNumbers

instance : Argument MediaFeature where
  isArgument f := by
    have henclosed : ∀ t, Nested anyChar t → IsArgument ('(' :: (t ++ [')'])) := by
      intro t ht
      have hcall : IsArgument (call (String.ofList []) t) := .call rfl ht
      rwa [call_ofList] at hcall
    obtain ⟨bound, k, value, h⟩ | ⟨t, rfl⟩ := f.named_or_range
    · rw [h.css_eq]
      exact henclosed _ h.nested_body
    · exact henclosed _ (nested_rangeWords t).any

/-! ### The name of a feature -/

/-- Only a range has no name. -/
theorem name?_eq_none_iff (f : MediaFeature) : f.name? = none ↔ ∃ t, f = range t := by
  constructor
  · intro hname
    obtain ⟨bound, k, value, h⟩ | hrange := f.named_or_range
    · rw [h.name?_eq] at hname
      exact nomatch hname
    · exact hrange
  · rintro ⟨t, rfl⟩
    rfl

/-- **The name of a feature stands in its text**, alone or in front of its value, and no other
name stands there. -/
theorem name?_eq_some_iff (f : MediaFeature) (n : List Char) :
    f.name? = some n ↔
      n.all isNameChar ∧ ∃ value, css f = '(' :: (n ++ valueText value ++ [')']) := by
  obtain ⟨bound, k, value, h⟩ | ⟨t, rfl⟩ := f.named_or_range
  · rw [h.name?_eq, h.css_eq]
    constructor
    · rintro ⟨⟩
      exact ⟨bound.all_isNameChar k, value, rfl⟩
    · rintro ⟨hn, value', htext⟩
      have hbody := List.append_cancel_right (List.cons.inj htext).2
      exact congrArg some (span_inj (bound.all_isNameChar k) hn (ends_valueText value)
        (ends_valueText value') hbody).1
  · refine iff_of_false nofun ?_
    rintro ⟨hn, value, htext⟩
    rw [css_range] at htext
    have hbody := List.append_cancel_right (List.cons.inj htext).2
    obtain ⟨name, c, rest, hwords, hname, hc⟩ := BreaksName.range t
    rw [hwords] at hbody
    have hrest := (span_inj hname hn (ends_of_isRangeBreak hc) (ends_valueText value)
      hbody).2
    cases value with
    | none => exact nomatch hrest
    | some v =>
      rw [(List.cons.inj hrest).1] at hc
      exact absurd hc (by decide)

end MediaFeature
end Stylesheet
