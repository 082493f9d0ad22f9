import Stylesheet.Proofs.Box.Sides
import Stylesheet.Proofs.Equality.Value
import Stylesheet.Proofs.Functional.ItemList
import Stylesheet.Proofs.Keyed.Run

/-! Reading one side of a border back.

The parts of a side may be missing, and no part is introduced by anything. So a word has to
tell what it is: widths are quantities or one of three words, styles are words, and no color
is a quantity or one of these words. A side is then read by making it again from its words. -/
namespace Stylesheet

/-! ### Making a side -/

/-- What a step sets, and what one word is read as. -/
inductive BorderPart where
  | width (width : LineWidth)
  | style (style : LineStyle)
  | color (color : Color)

namespace BorderPart

instance : ToCss BorderPart where
  css
    | width w => css w
    | style s => css s
    | color c => css c

/-- One call sets one part. -/
def apply (side : BorderSide) : BorderPart → BorderSide
  | width w => side.withWidth w
  | style s => side.withStyle s
  | color c => side.withColor c

/-- The width that a call sets. -/
def width? : BorderPart → Option LineWidth
  | width w => some w
  | _ => none

def style? : BorderPart → Option LineStyle
  | style s => some s
  | _ => none

def color? : BorderPart → Option Color
  | color c => some c
  | _ => none

/-- A step sets one part and leaves the others alone. -/
theorem apply_eq (side : BorderSide) (step : BorderPart) :
    step.apply side =
      ⟨step.width?.or side.width, step.style?.or side.style, step.color?.or side.color⟩ := by
  cases step <;> rfl

end BorderPart

namespace BorderSide

def build (steps : List BorderPart) : BorderSide := steps.foldl BorderPart.apply empty

/-- **Each part is what was set last**, or what it was before any call. -/
theorem foldl_apply_eq (side : BorderSide) (steps : List BorderPart) :
    steps.foldl BorderPart.apply side = ⟨(lastSet BorderPart.width? steps).or side.width,
      (lastSet BorderPart.style? steps).or side.style,
      (lastSet BorderPart.color? steps).or side.color⟩ := by
  induction steps generalizing side with
  | nil => rfl
  | cons step steps ih =>
    rw [List.foldl_cons, ih, BorderPart.apply_eq]
    simp only [lastSet_cons, Option.or_assoc]

/-- **A side is what was set last**, in whatever order it was set. -/
theorem build_eq (steps : List BorderPart) :
    build steps = ⟨lastSet BorderPart.width? steps, lastSet BorderPart.style? steps,
      lastSet BorderPart.color? steps⟩ := by
  rw [build, foldl_apply_eq]
  simp only [empty, Option.or_none]

end BorderSide

/-! ### Widths -/

namespace LineWidth

/-- The widths that are keywords. -/
def words : List LineWidth := [thin, medium, thick]

def ofText? (t : List Char) : Option LineWidth :=
  if isQuantity t then (read? t).map length else words.find? (css · == t)

instance : Readable LineWidth where
  read? := ofText?
  canonical
    | length l => length (canonical l)
    | w => w
  read?_css w := by
    cases w with
    | length l => exact (if_pos (Quantity.isQuantity_css l)).trans (congrArg _ (read?_css l))
    | _ => rfl
  css_canonical
    | length l => css_canonical l
    | thin | medium | thick => rfl

instance : CanonicalNumbers LineWidth where
  numbers_canonical w := by cases w <;> rfl

/-- What is neither a quantity nor one of the words is no width. -/
theorem ofText?_eq_none {t : List Char} (hquantity : isQuantity t = false)
    (hwords : ∀ w ∈ words, css w ≠ t) : ofText? t = none := by
  rw [ofText?, if_neg (Bool.eq_false_iff.mp hquantity)]
  exact List.find?_eq_none.mpr fun w hw => mt eq_of_beq (hwords w hw)

end LineWidth

/-! ### Parts -/

theorem spelled?_eq_none {α : Type} [Keyword α] {t : List Char} (h : ∀ a : α, css a ≠ t) :
    Reader.spelled? α t = none := by
  refine List.find?_eq_none.mpr fun a _ => ?_
  rw [beq_iff_eq]
  intro heq
  exact h a ((congrArg String.toList heq).trans String.toList_ofList)

/-- A style is a word. -/
theorem LineStyle.not_isQuantity (s : LineStyle) : isQuantity (css s) = false := by
  cases s <;> rfl

/-- Widths and styles are words of their own. -/
theorem LineStyle.width_ne (s : LineStyle) : ∀ w ∈ LineWidth.words, css w ≠ css s := by
  cases s <;> decide

namespace Color

/-- A word of letters that is not in the list is no color. -/
theorem css_ne_word {w : String} (halpha : w.toList.all Char.isAlpha) (hw : w ∉ words)
    (c : Color) : css c ≠ w.toList := by
  intro h
  have hform : c.form = .word := by
    rw [← read_css, h]
    exact Form.read_of_isAlpha halpha
  have hmem : css c ∈ words.map String.toList :=
    map_css_keywords ▸ List.mem_map_of_mem (mem_keywords hform)
  obtain ⟨v, hv, htext⟩ := List.mem_map.mp hmem
  exact hw (String.toList_injective (htext.trans h) ▸ hv)

/-- The words for widths and for styles. -/
def lineWords : List String :=
  ["thin", "medium", "thick"] ++ (Keyword.all : List LineStyle).map Keyword.keyword

/-- No color is called like a width or a style. -/
theorem css_ne_of_mem_lineWords {w : String} (h : w ∈ lineWords) (c : Color) :
    css c ≠ w.toList := by
  have halpha : ∀ w ∈ lineWords, w.toList.all Char.isAlpha := by decide
  have hnumbers : ∀ w ∈ lineWords, wordNumber w ∉ words.map wordNumber := by decide +kernel
  exact c.css_ne_word (halpha w h) fun hmem => hnumbers w h (List.mem_map_of_mem hmem)

/-- Widths and colors are told apart. -/
theorem width_ne (c : Color) : ∀ w ∈ LineWidth.words, css w ≠ css c := by
  have hword {w : String} (h : w ∈ lineWords) : w.toList ≠ css c :=
    (c.css_ne_of_mem_lineWords h).symm
  refine List.forall_mem_cons.mpr ⟨hword (w := "thin") (by decide), ?_⟩
  refine List.forall_mem_cons.mpr ⟨hword (w := "medium") (by decide), ?_⟩
  exact List.forall_mem_singleton.mpr (hword (w := "thick") (by decide))

/-- So are styles and colors. -/
theorem style_ne (c : Color) (s : LineStyle) : css s ≠ css c := by
  have hword : Keyword.keyword s ∈ lineWords := by
    refine List.mem_append_right _ (List.mem_map_of_mem ?_)
    exact List.mem_of_find?_eq_some (LawfulKeyword.find_keyword s)
  exact (c.css_ne_of_mem_lineWords hword).symm

end Color

namespace BorderPart

/-- What one word is: a width if it can be one, or else a style, or else a color. -/
def ofText? (t : List Char) : Option BorderPart :=
  ((read? t).map width).or (((read? t).map style).or ((read? t).map color))

/-- The same part with every number in canonical form. -/
def canonicalNumbers : BorderPart → BorderPart
  | width w => width (canonical w)
  | style s => style s
  | color c => color (canonical c)

/-- A part reads back, and as a part of its own kind. -/
theorem ofText?_css (p : BorderPart) : ofText? (css p) = some p.canonicalNumbers := by
  have hwidth {t : List Char} (hquantity : isQuantity t = false)
      (hwords : ∀ w ∈ LineWidth.words, css w ≠ t) : (read? t : Option LineWidth) = none :=
    LineWidth.ofText?_eq_none hquantity hwords
  cases p with
  | width w =>
    show ((read? (css w)).map width).or _ = _
    rw [read?_css]
    rfl
  | style s =>
    show ((read? (css s)).map width).or (((read? (css s)).map style).or _) = _
    rw [hwidth s.not_isQuantity s.width_ne, read?_css]
    rfl
  | color c =>
    -- a color is read last, so neither of the others may take it
    have hstyle : (read? (css c) : Option LineStyle) = none := spelled?_eq_none c.style_ne
    show ((read? (css c)).map width).or (((read? (css c)).map style).or
      ((read? (css c)).map color)) = _
    rw [hwidth c.not_isQuantity_css c.width_ne, hstyle, read?_css]
    rfl

theorem css_canonicalNumbers (p : BorderPart) : css p.canonicalNumbers = css p := by
  cases p with
  | width w => exact css_canonical w
  | style s => rfl
  | color c => exact css_canonical c

instance : Readable BorderPart := ⟨ofText?, canonicalNumbers, ofText?_css, css_canonicalNumbers⟩

instance : Argument BorderPart where
  isArgument
    | width w => isArgument w
    | style s => isArgument s
    | color c => isArgument c

end BorderPart

/-! ### Sides -/

namespace BorderSide

/-- The parts that are there, in the order in which they are written. -/
def components (s : BorderSide) : List BorderPart :=
  (s.width.map .width).toList ++ (s.style.map .style).toList ++ (s.color.map .color).toList

theorem map_css_components (s : BorderSide) : s.components.map css = s.parts := by
  obtain ⟨width, style, color⟩ := s
  cases width <;> cases style <;> cases color <;> rfl

/-- A side is what its parts build. -/
theorem build_components (s : BorderSide) : build s.components = s := by
  obtain ⟨width, style, color⟩ := s
  cases width <;> cases style <;> cases color <;> rfl

/-- The same side with every number in canonical form. -/
def canonicalNumbers (s : BorderSide) : BorderSide :=
  ⟨s.width.map canonical, s.style, s.color.map canonical⟩

/-- The canonical form has the canonical parts. -/
theorem components_canonicalNumbers (s : BorderSide) :
    s.canonicalNumbers.components = s.components.map canonical := by
  obtain ⟨width, style, color⟩ := s
  cases width <;> cases style <;> cases color <;> rfl

/-- The side that is written: one without any part is written as one without a line. -/
def shown (s : BorderSide) : BorderSide := if s.components = [] then noLine else s

/-- Something is always shown. -/
theorem components_shown_ne_nil (s : BorderSide) : s.shown.components ≠ [] := by
  unfold shown
  split
  case isTrue => exact List.cons_ne_nil _ _
  case isFalse h => exact h

/-- **A side is the parts it shows, with spaces between them.** -/
theorem css_eq_joined (s : BorderSide) : css s = joined [' '] (s.shown.components.map css) := by
  show (if s.parts.isEmpty then _ else joined [' '] s.parts) = _
  rw [← map_css_components, List.isEmpty_map]
  unfold shown
  split
  case isTrue h =>
    rw [if_pos (List.isEmpty_iff.mp h)]
    rfl
  case isFalse h => rw [if_neg (mt List.isEmpty_iff.mpr h)]

/-- The parts are cut at the spaces. -/
theorem cutAt_css (s : BorderSide) : (cutAt ' ' (css s)).toList = s.shown.components.map css := by
  have hwords : ∀ t ∈ s.shown.components.map css, IsArgument t :=
    List.forall_mem_map.mpr fun p _ => isArgument p
  obtain ⟨p, ps, hcomponents⟩ := List.exists_cons_of_ne_nil s.components_shown_ne_nil
  rw [css_eq_joined]
  rw [hcomponents] at hwords ⊢
  exact cutAt_words hwords

def ofText? (t : List Char) : Option BorderSide := ((cutAt ' ' t).toList.mapM read?).map build

theorem ofText?_css (s : BorderSide) : ofText? (css s) = some s.shown.canonicalNumbers := by
  rw [ofText?, cutAt_css, mapM_read?_css, Option.map_some, ← components_canonicalNumbers,
    build_components]

theorem css_shown_canonicalNumbers (s : BorderSide) : css s.shown.canonicalNumbers = css s := by
  have hne : s.shown.canonicalNumbers.components ≠ [] := by
    rw [components_canonicalNumbers]
    exact mt List.map_eq_nil_iff.mp s.components_shown_ne_nil
  rw [css_eq_joined, shown, if_neg hne, components_canonicalNumbers, map_css_canonical,
    ← css_eq_joined]

instance : Readable BorderSide where
  read? := ofText?
  canonical s := s.shown.canonicalNumbers
  read?_css := ofText?_css
  css_canonical := css_shown_canonicalNumbers

instance : HasNumbers BorderSide := ⟨fun s => numbers s.width ++ numbers s.color⟩

/-- Without NaN what is read back is equal to the side. -/
theorem canonicalNumbers_beq {s : BorderSide} (h : NaNFree s) : s.canonicalNumbers == s := by
  obtain ⟨hwidth, hcolor⟩ := List.forall_mem_append.mp h
  show (s.width.map canonical == s.width && (s.style == s.style &&
    s.color.map canonical == s.color)) = true
  rw [map_canonical_beq hwidth, map_canonical_beq hcolor, beq_self_eq_true]
  rfl

theorem shown_of_ne {s : BorderSide} (h : s ≠ empty) : s.shown = s := by
  refine if_neg fun hnil => h ?_
  rw [← s.build_components, hnil]
  rfl

theorem nanFree_shown {s : BorderSide} (h : NaNFree s) : NaNFree s.shown := by
  unfold shown
  split
  case isTrue => exact nofun
  case isFalse => exact h

/-- What the text of a side shows: the words of its parts, and the side itself. -/
structure ReadsBack (s : BorderSide) : Prop where
  words_eq : (cutAt ' ' (css s)).toList = (s.shown.width.map css).toList ++
    (s.shown.style.map css).toList ++ (s.shown.color.map css).toList
  read_eq : ofText? (css s) =
    some ⟨s.shown.width.map canonical, s.shown.style, s.shown.color.map canonical⟩
  read_beq : NaNFree s → ∃ r, ofText? (css s) = some r ∧ r == s.shown

theorem readsBack (s : BorderSide) : s.ReadsBack where
  words_eq := s.cutAt_css.trans s.shown.map_css_components
  read_eq := s.ofText?_css
  read_beq h := ⟨_, s.ofText?_css, canonicalNumbers_beq (nanFree_shown h)⟩

end BorderSide

/-- What is owed of sides: what steps make, what a word alone and a whole text show, and which
sides are written alike. -/
structure BorderSidesReadBack : Prop where
  build_eq (steps : List BorderPart) :
    BorderSide.build steps = ⟨lastSet BorderPart.width? steps,
      lastSet BorderPart.style? steps, lastSet BorderPart.color? steps⟩
  readsBack (s : BorderSide) : s.ReadsBack
  shown_eq {s : BorderSide} (h : s ≠ .empty) : s.shown = s
  shown_empty : BorderSide.empty.shown = .noLine
  part_eq (p : BorderPart) : BorderPart.ofText? (css p) = some p.canonicalNumbers
  kinds_differ (w : LineWidth) (s : LineStyle) (c : Color) :
    css w ≠ css s ∧ css w ≠ css c ∧ css s ≠ css c
  css_eq_iff (s s' : BorderSide) :
    css s = css s' ↔ s.shown.canonicalNumbers = s'.shown.canonicalNumbers
  canonical_eq_iff (x y : Binary32) :
    x.canonical = y.canonical ↔ x.eq y ∨ x.isNaN ∧ y.isNaN

/-- **Sides of borders read back from their parts.** Whatever steps make a side, it holds
what was set last of each part, and its words are those of its width, its style and its color.
No two parts of different kinds have a text in common, so that a word alone tells which part
it is. The side is read back but for the sign of zero and the payload of NaN; only the side
without any part reads as one with the style `none`. -/
theorem border_sides_read_back : BorderSidesReadBack where
  build_eq := BorderSide.build_eq
  readsBack := BorderSide.readsBack
  shown_eq := BorderSide.shown_of_ne
  shown_empty := rfl
  part_eq := BorderPart.ofText?_css
  kinds_differ w s c := by
    have hkind {p q : BorderPart} (h : css p = css q) : p.canonicalNumbers = q.canonicalNumbers :=
      canonical_inj.mpr h
    refine ⟨fun h => ?_, fun h => ?_, c.style_ne s⟩
    · exact nomatch hkind (p := .width w) (q := .style s) h
    · exact nomatch hkind (p := .width w) (q := .color c) h
  css_eq_iff _ _ := canonical_inj.symm
  canonical_eq_iff := Binary32.canonical_eq_iff

/-- The parts are written in an order of their own, and of two widths the last one stands. -/
theorem border_sides_read_back_none : ∃ (steps : List BorderPart) (r : BorderSide),
    let s := BorderSide.build steps
    css s = "1px none rgb(0, 0, 0)".toList ∧ s ≠ .empty ∧ s.shown = s ∧ NaNFree s ∧
    BorderSide.ofText? (css s) = some r ∧ r == s := by
  let steps : List BorderPart :=
    [.color (.rgb 0 0 0), .width .thick, .style .none, .width (.length ⟨.px 1, by decide⟩)]
  have hne : BorderSide.build steps ≠ .empty := fun h => nomatch congrArg BorderSide.style h
  have hnumbers : NaNFree (BorderSide.build steps) := by decide +kernel
  have hshown := border_sides_read_back.shown_eq hne
  obtain ⟨r, hr, hbeq⟩ := (border_sides_read_back.readsBack _).read_beq hnumbers
  rw [hshown] at hbeq
  exact ⟨steps, r, by decide +kernel, hne, hshown, hnumbers, hr, hbeq⟩

end Stylesheet
