import Stylesheet.Proofs.Nesting.RuleValue

/-! Declarations and blocks are nested, whatever builder wrote them. -/
namespace Stylesheet

/-! ### Blocks -/

/-- A block is its braces and the text between them, which begins and ends with a space. -/
theorem blockText_eq (parts : List (List Char)) :
    blockText parts = '\x7b' :: ((parts.flatMap (' ' :: ·) ++ [' ']) ++ ['\x7d']) := by
  simp [blockText]

/-- Between the braces, each part has its space in front. -/
theorem nested_blockBody {parts : List (List Char)} (h : ∀ p ∈ parts, Nested anyChar p) :
    Nested anyChar (parts.flatMap (' ' :: ·) ++ [' ']) :=
  .append (.flatMap fun p hp => .cons (h p hp) rfl) (.of_all rfl)

theorem nested_blockText {parts : List (List Char)} (h : ∀ p ∈ parts, Nested anyChar p) :
    Nested anyChar (blockText parts) := by
  rw [blockText_eq]
  exact .enclosed .curly (nested_blockBody h) rfl

/-! ### Declarations -/

/-- The mark of importance is made of plain characters, so that only the name and the value
matter. -/
theorem nested_declaration {d : Declaration} (hname : Nested anyChar d.name)
    (hvalue : Nested anyChar d.value) : Nested anyChar (css d) := by
  refine (hname.append (.cons hvalue rfl)).append ?_
  split
  · exact .word rfl
  · exact .nil

section Declarations
variable {N V : List Char → Prop} (hN : ∀ t, N t → Nested anyChar t)
  (hV : ∀ t, V t → Nested anyChar t)
include hN hV

/-- However a declaration came about, its name and its value are nested apart from each other. A
mark set later changes neither. -/
theorem Declaration.Built.nested_parts {d : Declaration} (hd : d.Built N V) :
    Nested anyChar d.name ∧ Nested anyChar d.value := by
  induction hd with
  | property p => exact ⟨nested p.name, (nested_property p).any⟩
  | custom name value hvalue => exact ⟨nested name, hV _ hvalue⟩
  | descriptor hname hvalue => exact ⟨hN _ hname, hV _ hvalue⟩
  -- The mark is no part of the name or the value.
  | important _ ih => exact ih

theorem Declaration.Built.nested {d : Declaration} (hd : d.Built N V) : Nested anyChar (css d) :=
  nested_declaration (hd.nested_parts hN hV).1 (hd.nested_parts hN hV).2

/-- A block is nested if every declaration in it was built from nested texts. -/
theorem DeclarationBlock.Built.nested {b : DeclarationBlock} (hb : b.Built N V) :
    Nested anyChar (css b) := by
  refine nested_blockText fun p hp => ?_
  obtain ⟨d, hd, rfl⟩ := List.mem_map.mp hp
  exact ((hb d hd).nested hN hV).append (.of_all rfl)

end Declarations

/-- The property has a typed value, of which nothing need be asked. -/
theorem nested_propertyDeclaration (p : Property) : Nested anyChar (css p.declaration) :=
  nested_declaration (nested p.name) (nested_property p).any

/-! ### Descriptors -/

/-- A list changed in one place has no items but its own and the new one. -/
theorem mem_replaceOrAppend {α : Type} {replaces : α → Bool} {a b : α} {list : List α}
    (h : b ∈ replaceOrAppend replaces a list) : b = a ∨ b ∈ list := by
  induction list with
  | nil => exact .inl (List.mem_singleton.mp h)
  | cons c list ih =>
    unfold replaceOrAppend at h
    split at h
    · rcases List.mem_cons.mp h with rfl | h
      · exact .inl rfl
      · exact .inr (List.mem_cons_of_mem _ h)
    · rcases List.mem_cons.mp h with rfl | h
      · exact .inr (List.mem_cons_self ..)
      · exact (ih h).imp id (List.mem_cons_of_mem _)

/-- Every entry is nested. -/
def Descriptors.AllNested (ds : Descriptors) : Prop := ∀ d ∈ ds.entries, Nested anyChar (css d)

namespace Descriptors.AllNested
variable {ds : Descriptors} {α : Type} [ToCss α]

theorem empty : Descriptors.empty.AllNested := nofun

/-- What a descriptor replaces is gone, and the others stay as they were. -/
theorem insert (hds : ds.AllNested) {d : Declaration} (hd : Nested anyChar (css d)) :
    (ds.insert d).AllNested := by
  intro e he
  rcases mem_replaceOrAppend he with rfl | he
  · exact hd
  · exact hds e he

theorem setText (hds : ds.AllNested) {name value : List Char} (hname : Nested anyChar name)
    (hvalue : Nested anyChar value) : (ds.setText name value).AllNested :=
  hds.insert (nested_declaration hname hvalue)

/-- Descriptors of the library have fixed names and values of a type. -/
theorem set (hds : ds.AllNested) {name : List Char} [Nests anyChar α] (a : α)
    (hname : areAll anyChar name) : (ds.set (String.ofList name) a).AllNested :=
  hds.setText (.word hname) (nested a)

theorem declare (hds : ds.AllNested) (p : Property) : (ds.declare p).AllNested :=
  hds.insert (nested_propertyDeclaration p)

theorem nested_parts (hds : ds.AllNested) : ∀ p ∈ ds.parts, Nested anyChar p := by
  intro p hp
  obtain ⟨d, hd, rfl⟩ := List.mem_map.mp hp
  exact (hds d hd).append (.of_all rfl)

theorem nested (hds : ds.AllNested) : Nested anyChar (css ds) := nested_blockText hds.nested_parts

end Descriptors.AllNested

/-- A run of changes keeps all entries nested if the texts that it is given are. -/
theorem Descriptors.Built.allNested {N V : List Char → Prop} (hN : ∀ t, N t → Nested anyChar t)
    (hV : ∀ t, V t → Nested anyChar t) {ds : Descriptors} (hds : ds.Built N V) :
    ds.AllNested := by
  induction hds with
  | empty => exact .empty
  | set name value _ hname hvalue ih => exact ih.setText (hN _ hname) (hV _ hvalue)
  | declare p _ ih => exact ih.declare p
  | insert _ hd ih => exact ih.insert (hd.nested hN hV)

/-! ### Rules about fonts, pages and counters -/

/-- Font faces take no text of the author's own but the family and the sources, which are
quoted. -/
theorem FontFaceRule.Built.allNested {r : FontFaceRule} (hr : r.Built) :
    r.descriptors.AllNested := by
  induction hr with
  | @of family sources r h =>
    cases sources with
    | nil => exact nomatch h
    | cons s ss =>
      cases h
      exact (Descriptors.AllNested.empty.set (⟨family⟩ : CssString) rfl).setText
        (.word rfl) (nested_separated (s :: ss) rfl)
  | withStyle style _ ih => exact ih.set style rfl
  | withWeight weight _ ih => exact ih.set weight rfl
  | withWeightRange least most _ ih =>
    exact ih.setText (.word rfl) (nested_separated [least, most] rfl)
  | withStretch stretch _ ih => exact ih.set stretch rfl
  | withDisplay display _ ih => exact ih.set display rfl
  | @withUnicodeRange _ _ ranges _ h ih =>
    cases ranges with
    | nil => exact nomatch h
    | cons range ranges =>
      cases h
      exact ih.setText (.word rfl) (nested_separated (range :: ranges) rfl)
  | withSizeAdjust p _ ih => exact ih.set p rfl
  | withAscentOverride p _ ih => exact ih.set p rfl
  | withDescentOverride p _ ih => exact ih.set p rfl
  | withLineGapOverride p _ ih => exact ih.set p rfl

theorem FeatureBlock.Built.allNested {b : FeatureBlock} (hb : b.Built) : b.values.AllNested := by
  induction hb with
  | of => exact .empty
  | @withValue _ _ name indices _ h ih =>
    cases indices with
    | nil => exact nomatch h
    | cons i is =>
      cases h
      exact ih.setText (nested name) (nested_separated (i :: is) rfl)

theorem FeatureBlock.Built.nested {b : FeatureBlock} (hb : b.Built) : Nested anyChar (css b) :=
  (Nested.cons (Stylesheet.nested b.kind) rfl).append (.cons hb.allNested.nested rfl)

/-- Feature blocks of one kind replace each other, and what is replaced does no harm. -/
theorem FontFeatureValuesRule.Built.nested_parts {r : FontFeatureValuesRule} (hr : r.Built) :
    r.descriptors.AllNested ∧ ∀ b ∈ r.blocks, Nested anyChar (css b) := by
  induction hr with
  | of h =>
    obtain ⟨families, -, h⟩ := Result.of_bind_eq_ok h
    cases h
    exact ⟨.empty, nofun⟩
  | withDisplay display _ ih => exact ⟨ih.1.set display rfl, ih.2⟩
  | withBlock _ hb ih =>
    refine ⟨ih.1, fun c hc => ?_⟩
    rcases mem_replaceOrAppend hc with rfl | hc
    · exact hb.nested
    · exact ih.2 c hc

theorem MarginRule.Built.allNested {r : MarginRule} (hr : r.Built) : r.declarations.AllNested := by
  induction hr with
  | of => exact .empty
  | declare p _ ih => exact ih.declare p

theorem MarginRule.Built.nested {r : MarginRule} (hr : r.Built) : Nested anyChar (css r) :=
  (Nested.cons (Stylesheet.nested r.box) rfl).append (.cons hr.allNested.nested rfl)

/-- The descriptors of a page and its margins come from typed values only. The selectors stand
outside of the block and are dealt with in the prelude. -/
theorem PageRule.Built.nested_parts {r : PageRule} (hr : r.Built) :
    r.descriptors.AllNested ∧ ∀ m ∈ r.margins, Nested anyChar (css m) := by
  induction hr with
  | empty => exact ⟨.empty, nofun⟩
  | withSelector s _ ih => exact ih
  | withSize size _ ih => exact ⟨ih.1.set size rfl, ih.2⟩
  | declare p _ ih => exact ⟨ih.1.declare p, ih.2⟩
  | withMargin _ hm ih =>
    refine ⟨ih.1, fun n hn => ?_⟩
    rcases mem_replaceOrAppend hn with rfl | hn
    · exact hm.nested
    · exact ih.2 n hn

/-- The symbols of a counter style are strings, names and images. -/
theorem CounterStyleRule.allNested_setSymbols {r : CounterStyleRule} (hr : r.descriptors.AllNested)
    {name : List Char} (symbols : List CounterSymbol) (hname : areAll anyChar name) :
    (r.setSymbols (String.ofList name) symbols).descriptors.AllNested :=
  hr.setText (.word hname) (nested_separated symbols rfl)

/-- The name is checked when the rule is made and is no descriptor. -/
theorem CounterStyleRule.Built.allNested {r : CounterStyleRule} (hr : r.Built) :
    r.descriptors.AllNested := by
  induction hr with
  | of h =>
    obtain ⟨n, -, h⟩ := Result.of_bind_eq_ok h
    cases h
    exact .empty
  | withSystem system _ ih => exact ih.set system rfl
  | @withSymbols _ _ symbols _ h ih =>
    cases symbols with
    | nil => exact nomatch h
    | cons s ss =>
      cases h
      exact allNested_setSymbols ih (s :: ss) rfl
  | withAdditiveSymbols _ h ih =>
    obtain ⟨symbols, -, h⟩ := Result.of_bind_eq_ok h
    cases h
    exact ih.set symbols rfl
  | withNegative lead trail _ ih => exact allNested_setSymbols ih (lead :: trail.toList) rfl
  | withPrefix symbol _ ih => exact ih.set symbol rfl
  | withSuffix symbol _ ih => exact ih.set symbol rfl
  | withAutoRange _ ih => exact ih.set CounterRange.auto rfl
  | withRange _ h ih =>
    obtain ⟨range, -, h⟩ := Result.of_bind_eq_ok h
    cases h
    exact ih.set range rfl
  | withPad pad _ ih => exact ih.set pad rfl
  | withFallback style _ ih => exact ih.set style rfl
  | withSpeakAs speakAs _ ih => exact ih.set speakAs rfl

/-! ### Rules that hold values of the author's own -/

/-- The initial value is the author's own text. The rest is typed. -/
theorem PropertyRule.Built.allNested {V : List Char → Prop} (hV : ∀ t, V t → Nested anyChar t)
    {r : PropertyRule} (hr : r.Built V) : r.descriptors.AllNested := by
  induction hr with
  | of name grammar inherits =>
    refine (Descriptors.AllNested.empty.set grammar rfl).setText (.word rfl) ?_
    show Nested anyChar (if inherits then "true".toList else "false".toList)
    split
    · exact .word rfl
    · exact .word rfl
  | withInitialValue value _ hvalue ih => exact ih.setText (.word rfl) (hV _ hvalue)

section Keyframes
variable {N V : List Char → Prop} (hN : ∀ t, N t → Nested anyChar t)
  (hV : ∀ t, V t → Nested anyChar t)
include hN hV

theorem Keyframe.Built.nested {k : Keyframe} (hk : k.Built N V) : Nested anyChar (css k) :=
  (nested_separated k.offsets.toList rfl).append
    (.cons (DeclarationBlock.Built.nested hN hV hk) rfl)

/-- A keyframe that replaces another of the same offset is itself nested. -/
theorem KeyframesRule.Built.nested_keyframes {r : KeyframesRule} (hr : r.Built N V) :
    ∀ k ∈ r.keyframes, Nested anyChar (css k) := by
  induction hr with
  -- The name may be refused, and then no rule was built.
  | of h =>
    obtain ⟨n, -, h⟩ := Result.of_bind_eq_ok h
    cases h
    exact nofun
  | withKeyframe _ hk ih =>
    intro k' hk'
    rcases mem_replaceOrAppend hk' with rfl | hk'
    · exact hk.nested hN hV
    · exact ih k' hk'

end Keyframes
end Stylesheet
