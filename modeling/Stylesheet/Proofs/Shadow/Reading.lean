import Stylesheet.Paint.Shadow
import Stylesheet.Proofs.Color.Reading
import Stylesheet.Proofs.Keyed.Run
import Stylesheet.Proofs.Quantity.Checked

/-! Reading shadows back.

A shadow is cut into its words at the spaces that stand outside of brackets: maybe the word
`inset`, then lengths and then maybe a color, which is never read as a length. What a length
means is its place among them, so a shadow with a spread reads back with a blur even where it
was given none. The shadow of a text is written as that of a box with the same parts. -/
namespace Stylesheet

/-! ### Building -/

inductive ShadowField where
  | inset | blur | spread | color
  deriving DecidableEq

inductive BoxShadowStep where
  | blur (radius : Length)
  | spread (distance : Length)
  | color (color : Color)
  | inset

inductive TextShadowStep where
  | blur (radius : Length)
  | color (color : Color)

namespace BoxShadowStep

/-- A blur that is refused leaves the shadow as it was. -/
def apply (s : BoxShadow) : BoxShadowStep → BoxShadow
  | blur radius => (s.withBlur radius).toOption.getD s
  | spread distance => s.withSpread distance
  | color c => s.withColor c
  | inset => s.inside

def field : BoxShadowStep → ShadowField
  | blur _ => .blur
  | spread _ => .spread
  | color _ => .color
  | inset => .inset

def blur? : BoxShadowStep → Option (NonNegative Length)
  | blur radius => (NonNegative.of radius).toOption
  | _ => none

def spread? : BoxShadowStep → Option Length
  | spread distance => some distance
  | _ => none

def color? : BoxShadowStep → Option Color
  | color c => some c
  | _ => none

def inset? : BoxShadowStep → Option Bool
  | inset => some true
  | _ => none

/-- A step sets one field and leaves the others alone. -/
theorem apply_eq (s : BoxShadow) (step : BoxShadowStep) :
    step.apply s = ⟨step.inset?.getD s.inset, s.x, s.y, step.blur?.or s.blur,
      step.spread?.or s.spread, step.color?.or s.color⟩ := by
  cases step with
  | blur radius =>
    show (do return {s with blur := some (← NonNegative.of radius)} :
      Result BoxShadow).toOption.getD s =
        ⟨s.inset, s.x, s.y, (NonNegative.of radius).toOption.or s.blur, s.spread, s.color⟩
    cases (NonNegative.of radius) <;> rfl
  | _ => rfl

/-- **Steps on different fields may change places.** -/
theorem apply_comm {a b : BoxShadowStep} (h : a.field ≠ b.field) (s : BoxShadow) :
    b.apply (a.apply s) = a.apply (b.apply s) := by
  simp only [apply_eq]
  cases a <;> cases b <;> first | rfl | exact absurd rfl h

end BoxShadowStep

namespace BoxShadow

def build (x y : Length) (steps : List BoxShadowStep) : BoxShadow :=
  steps.foldl BoxShadowStep.apply (offset x y)

theorem foldl_eq (s : BoxShadow) (steps : List BoxShadowStep) :
    steps.foldl BoxShadowStep.apply s = ⟨(lastSet BoxShadowStep.inset? steps).getD s.inset, s.x,
      s.y, (lastSet BoxShadowStep.blur? steps).or s.blur,
      (lastSet BoxShadowStep.spread? steps).or s.spread,
      (lastSet BoxShadowStep.color? steps).or s.color⟩ := by
  induction steps generalizing s with
  | nil => rfl
  | cons step steps ih =>
    rw [List.foldl_cons, ih, BoxShadowStep.apply_eq]
    simp only [lastSet_cons, Option.or_assoc, Option.getD_or]

/-- **A shadow is its offsets and what was set last**, in whatever order it was set. -/
theorem build_eq (x y : Length) (steps : List BoxShadowStep) :
    build x y steps = ⟨(lastSet BoxShadowStep.inset? steps).getD false, x, y,
      lastSet BoxShadowStep.blur? steps, lastSet BoxShadowStep.spread? steps,
      lastSet BoxShadowStep.color? steps⟩ := by
  rw [build, foldl_eq]
  simp only [offset, Option.or_none]

/-! ### The reader -/

/-- The third length is the blur and the fourth one the spread. -/
def ofLengths? (inset : Bool) (color : Option Color) : List Length → Option BoxShadow
  | [x, y] => some ⟨inset, x, y, none, none, color⟩
  | [x, y, blur] => return ⟨inset, x, y, some (← (NonNegative.of blur).toOption), none, color⟩
  | [x, y, blur, spread] =>
    return ⟨inset, x, y, some (← (NonNegative.of blur).toOption), some spread, color⟩
  | _ => none

/-- The words that are quantities come first, and then maybe a color. -/
def ofWords? (inset : Bool) (ws : List (List Char)) : Option BoxShadow := do
  let lengths ← (ws.takeWhile isQuantity).mapM read?
  let color ← atMostOne? (ws.dropWhile isQuantity)
  ofLengths? inset color lengths

def ofText? (t : List Char) : Option BoxShadow :=
  match (cutAt ' ' t).toList with
  | w :: ws => if w = "inset".toList then ofWords? true ws else ofWords? false (w :: ws)
  | [] => none

/-! ### Words -/

def zeroBlur : NonNegative Length := ⟨.px 0, by decide⟩

/-- The blur that is written: before a spread there always is one. -/
def shownBlur (s : BoxShadow) : Option (NonNegative Length) :=
  s.blur.or (s.spread.map fun _ => zeroBlur)

def lengths (s : BoxShadow) : List Length := [s.x, s.y] ++ s.extent

theorem length_lengths (s : BoxShadow) : 2 ≤ s.lengths.length ∧ s.lengths.length ≤ 4 := by
  rw [lengths, extent]
  cases s.blur <;> cases s.spread <;> simp

/-- The words behind `inset`. -/
def measures (s : BoxShadow) : List (List Char) := s.lengths.map css ++ (s.color.map css).toList

def words (s : BoxShadow) : List (List Char) :=
  (if s.inset then ["inset".toList] else []) ++ s.measures

theorem isArgument_measures (s : BoxShadow) : ∀ w ∈ s.measures, IsArgument w := by
  refine List.forall_mem_append.mpr ⟨List.forall_mem_map.mpr fun l _ => isArgument l, ?_⟩
  cases s.color with
  | none => exact List.forall_mem_nil _
  | some c => exact List.forall_mem_singleton.mpr (isArgument c)

theorem isArgument_words (s : BoxShadow) : ∀ w ∈ s.words, IsArgument w := by
  refine List.forall_mem_append.mpr ⟨?_, s.isArgument_measures⟩
  cases s.inset with
  | true => exact List.forall_mem_singleton.mpr (.of_isNameChar (all_toList rfl))
  | false => exact List.forall_mem_nil _

theorem css_eq_joined (s : BoxShadow) : css s = joined [' '] s.words := by
  have hspace : " ".toList = [' '] := rfl
  have hmeasures : separated " " s.lengths ++ clause " " s.color = joined [' '] s.measures := by
    rw [separated, measures, hspace]
    cases s.color with
    | none => rw [clause, Option.map_none, Option.toList_none, List.append_nil, List.append_nil]
    | some c => exact (joined_concat [' '] (css s.x) (css c) _).symm
  show (if s.inset then "inset ".toList else []) ++ separated " " s.lengths ++
    clause " " s.color = _
  rw [List.append_assoc, hmeasures, words]
  cases s.inset with
  | true => rfl
  | false => rfl

theorem cutAt_css (s : BoxShadow) : (cutAt ' ' (css s)).toList = s.words := by
  have hwords := s.isArgument_words
  rw [css_eq_joined]
  unfold words at hwords ⊢
  cases hinset : s.inset with
  | true =>
    rw [hinset] at hwords
    exact cutAt_words hwords
  | false =>
    rw [hinset] at hwords
    exact cutAt_words hwords

/-! ### Reading -/

theorem ofLengths?_canonical (s : BoxShadow) (color : Option Color) :
    ofLengths? s.inset color (s.lengths.map canonical) =
      some ⟨s.inset, canonical s.x, canonical s.y, s.shownBlur.map canonical,
        s.spread.map canonical, color⟩ := by
  have hblur (b : NonNegative Length) :
      (NonNegative.of (canonical b.value)).toOption = some (canonical b) :=
    congrArg Except.toOption (dif_pos (canonical b).not_negative)
  obtain ⟨inset, x, y, blur, spread, _⟩ := s
  let extended (spread : Option Length) (b : NonNegative Length) : Option BoxShadow :=
    some ⟨inset, canonical x, canonical y, some b, spread.map canonical, color⟩
  cases blur with
  | none =>
    cases spread with
    | none => rfl
    | some d => exact congrArg (Option.bind · (extended (some d))) (hblur zeroBlur)
  | some b =>
    cases spread with
    | none => exact congrArg (Option.bind · (extended none)) (hblur b)
    | some d => exact congrArg (Option.bind · (extended (some d))) (hblur b)

/-- What is read back: a blur of nothing before a spread, and canonical numbers. -/
def canonicalNumbers (s : BoxShadow) : BoxShadow :=
  ⟨s.inset, canonical s.x, canonical s.y, s.shownBlur.map canonical, s.spread.map canonical,
    s.color.map canonical⟩

theorem ofWords?_measures (s : BoxShadow) :
    ofWords? s.inset s.measures = some s.canonicalNumbers := by
  have hlengths : ∀ w ∈ s.lengths.map css, isQuantity w :=
    List.forall_mem_map.mpr fun l _ => Quantity.isQuantity_css l
  have hcolor : ∀ w ∈ (s.color.map css).toList.head?, isQuantity w = false := by
    cases s.color with
    | none => exact nofun
    | some c =>
      rintro _ ⟨⟩
      exact c.not_isQuantity_css
  rw [ofWords?, measures, takeWhile_append_of_head hlengths hcolor,
    dropWhile_append_of_head hlengths hcolor, mapM_read?_css, atMostOne?_css]
  exact s.ofLengths?_canonical _

/-- **A shadow is read back from its words.** -/
theorem ofText?_css (s : BoxShadow) : ofText? (css s) = some s.canonicalNumbers := by
  have hread := s.ofWords?_measures
  rw [ofText?, cutAt_css, words]
  cases hinset : s.inset with
  | true =>
    rw [hinset] at hread
    exact (if_pos rfl).trans hread
  | false =>
    rw [hinset] at hread
    have hne : css s.x ≠ "inset".toList := quantity_ne s.x (by decide)
    exact (if_neg hne).trans hread

instance : HasNumbers BoxShadow where
  numbers s := numbers s.x ++ (numbers s.y ++ (numbers s.blur ++
    (numbers s.spread ++ numbers s.color)))

/-- Without NaN what is read back is equal to the shadow with the blur that is written. -/
theorem canonicalNumbers_beq {s : BoxShadow} (h : NaNFree s) :
    s.canonicalNumbers == {s with blur := s.shownBlur} := by
  change ∀ x ∈ numbers s.x ++ _, _ at h
  simp only [List.forall_mem_append] at h
  obtain ⟨hx, hy, hblur, hspread, hcolor⟩ := h
  have hshown : NaNFree s.shownBlur := by
    unfold shownBlur
    cases hs : s.blur with
    | some b =>
      rw [hs] at hblur
      exact hblur
    | none =>
      cases s.spread with
      | none => exact nofun
      | some d => exact (by decide : NaNFree (some zeroBlur))
  show (s.inset == s.inset && (canonical s.x == s.x && (canonical s.y == s.y &&
    (s.shownBlur.map canonical == s.shownBlur && (s.spread.map canonical == s.spread &&
      s.color.map canonical == s.color))))) = true
  rw [beq_self_eq_true, canonical_beq hx, canonical_beq hy, map_canonical_beq hshown,
    map_canonical_beq hspread, map_canonical_beq hcolor]
  rfl

end BoxShadow

/-! ### Shadows of text -/

namespace TextShadowStep

/-- A blur that is refused leaves the shadow as it was. -/
def apply (s : TextShadow) : TextShadowStep → TextShadow
  | blur radius => (s.withBlur radius).toOption.getD s
  | color c => s.withColor c

def field : TextShadowStep → ShadowField
  | blur _ => .blur
  | color _ => .color

def blur? : TextShadowStep → Option (NonNegative Length)
  | blur radius => (NonNegative.of radius).toOption
  | _ => none

def color? : TextShadowStep → Option Color
  | color c => some c
  | _ => none

/-- A step sets one field and leaves the others alone. -/
theorem apply_eq (s : TextShadow) (step : TextShadowStep) :
    step.apply s = ⟨s.x, s.y, step.blur?.or s.blur, step.color?.or s.color⟩ := by
  cases step with
  | blur radius =>
    show (do return {s with blur := some (← NonNegative.of radius)} :
      Result TextShadow).toOption.getD s =
        ⟨s.x, s.y, (NonNegative.of radius).toOption.or s.blur, s.color⟩
    cases NonNegative.of radius <;> rfl
  | color c => rfl

/-- **Steps on different fields may change places.** -/
theorem apply_comm {a b : TextShadowStep} (h : a.field ≠ b.field) (s : TextShadow) :
    b.apply (a.apply s) = a.apply (b.apply s) := by
  simp only [apply_eq]
  cases a <;> cases b <;> first | rfl | exact absurd rfl h

end TextShadowStep

namespace TextShadow

def build (x y : Length) (steps : List TextShadowStep) : TextShadow :=
  steps.foldl TextShadowStep.apply (offset x y)

theorem foldl_eq (s : TextShadow) (steps : List TextShadowStep) :
    steps.foldl TextShadowStep.apply s = ⟨s.x, s.y,
      (lastSet TextShadowStep.blur? steps).or s.blur,
      (lastSet TextShadowStep.color? steps).or s.color⟩ := by
  induction steps generalizing s with
  | nil => rfl
  | cons step steps ih =>
    rw [List.foldl_cons, ih, TextShadowStep.apply_eq]
    simp only [lastSet_cons, Option.or_assoc]

/-- **A shadow is its offsets and what was set last**, in whatever order it was set. -/
theorem build_eq (x y : Length) (steps : List TextShadowStep) :
    build x y steps = ⟨x, y, lastSet TextShadowStep.blur? steps,
      lastSet TextShadowStep.color? steps⟩ := by
  rw [build, foldl_eq]
  simp only [offset, Option.or_none]

/-- The shadow of a box with the same parts. -/
def box (s : TextShadow) : BoxShadow := ⟨false, s.x, s.y, s.blur, none, s.color⟩

def ofBox? (b : BoxShadow) : Option TextShadow :=
  if b.inset || b.spread.isSome then none else some ⟨b.x, b.y, b.blur, b.color⟩

def ofText? (t : List Char) : Option TextShadow := (BoxShadow.ofText? t).bind ofBox?

theorem css_box (s : TextShadow) : css s.box = css s := by
  obtain ⟨x, y, blur, color⟩ := s
  show separated " " ([x, y] ++ BoxShadow.extent ⟨false, x, y, blur, none, color⟩) ++
    clause " " color = css x ++ ' ' :: css y ++ clause " " blur ++ clause " " color
  cases blur with
  | none => simp [BoxShadow.extent, separated, joined, clause]
  | some b =>
    simp [BoxShadow.extent, separated, joined, clause]
    rfl

/-- The same shadow with every number in canonical form. -/
def canonicalNumbers (s : TextShadow) : TextShadow :=
  ⟨canonical s.x, canonical s.y, s.blur.map canonical, s.color.map canonical⟩

theorem shownBlur_box (s : TextShadow) : s.box.shownBlur = s.blur := Option.or_none

theorem ofText?_css (s : TextShadow) : ofText? (css s) = some s.canonicalNumbers := by
  rw [ofText?, ← css_box, BoxShadow.ofText?_css, BoxShadow.canonicalNumbers, shownBlur_box]
  rfl

instance : HasNumbers TextShadow := ⟨fun s => numbers s.box⟩

/-- Without NaN what is read back is equal to the shadow. -/
theorem canonicalNumbers_beq {s : TextShadow} (h : NaNFree s) : s.canonicalNumbers == s := by
  change ∀ x ∈ numbers s.x ++ (numbers s.y ++ (numbers s.blur ++ ([] ++ numbers s.color))), _ at h
  simp only [List.forall_mem_append] at h
  obtain ⟨hx, hy, hblur, -, hcolor⟩ := h
  show (canonical s.x == s.x && (canonical s.y == s.y && (s.blur.map canonical == s.blur &&
    s.color.map canonical == s.color))) = true
  rw [canonical_beq hx, canonical_beq hy, map_canonical_beq hblur, map_canonical_beq hcolor]
  rfl

end TextShadow

/-! ### Layers -/

/-- Types whose texts have no outer comma, and more words than one. -/
class ShadowLayer (α : Type) [ToCss α] : Prop where
  passes (a : α) : Scan.Passes (· == ',') .start (css a) .start
  two_le (a : α) : 2 ≤ (cutAt ' ' (css a)).toList.length

instance : ShadowLayer BoxShadow where
  passes s := by
    rw [BoxShadow.css_eq_joined]
    exact Scan.passes_space.joined fun w hw => (s.isArgument_words w hw).passes rfl
  two_le s := by
    rw [BoxShadow.cutAt_css, BoxShadow.words, BoxShadow.measures, List.length_append,
      List.length_append, List.length_map]
    exact Nat.le_trans s.length_lengths.1 (by omega)

instance : ShadowLayer TextShadow where
  passes s := s.css_box ▸ ShadowLayer.passes s.box
  two_le s := s.css_box ▸ ShadowLayer.two_le s.box

namespace ShadowList
variable {α : Type} [ToCss α] [ShadowLayer α]

theorem cutAt_css (a : α) (as : List α) :
    cutAt ',' (css (⟨a :: as⟩ : ShadowList α)) = ⟨css a, as.map (' ' :: css ·)⟩ :=
  cutAt_commaSeparated fun b _ => ShadowLayer.passes b

/-- No list of layers is written as the word for an empty one. -/
theorem css_eq_none_iff (l : ShadowList α) : css l = "none".toList ↔ l.items = [] := by
  obtain ⟨items⟩ := l
  cases items with
  | nil => exact iff_of_true rfl rfl
  | cons a as =>
    refine iff_of_false (fun h => ?_) (List.cons_ne_nil a as)
    have hcut := cutAt_css a as
    rw [h] at hcut
    have hword : "none".toList = css a := congrArg NonEmpty.first hcut
    have htwo := ShadowLayer.two_le a
    rw [← hword] at htwo
    exact absurd htwo (by decide)

end ShadowList

/-- What a list of layers is written as, with the text of each layer between outer commas. -/
structure ShadowList.CutsBack (α : Type) [ToCss α] : Prop where
  none_iff (l : ShadowList α) : css l = "none".toList ↔ l.items = []
  cutAt_css (a : α) (as : List α) :
    cutAt ',' (css (⟨a :: as⟩ : ShadowList α)) = ⟨css a, as.map (' ' :: css ·)⟩

theorem ShadowList.cutsBack {α : Type} [ToCss α] [ShadowLayer α] : CutsBack α where
  none_iff := css_eq_none_iff
  cutAt_css := cutAt_css

/-! ### Blurs -/

/-- How a shadow takes a blur: a negative radius is refused, which leaves the shadow as it was
in a run of steps, and any other one is set. -/
structure TakesBlur {α : Type} (withBlur : α → Length → Result α) (step : α → Length → α)
    (blurred : α → NonNegative Length → α) : Prop where
  refused (s : α) {radius : Length} (h : radius.value.BelowZero) :
    withBlur s radius = .error (.negative "Length" radius.value) ∧ step s radius = s
  taken (s : α) {radius : Length} (h : ¬ radius.value.BelowZero) :
    ∃ b : NonNegative Length, b.value = radius ∧ withBlur s radius = .ok (blurred s b)

theorem TakesBlur.of_check {α : Type} (blurred : α → NonNegative Length → α) :
    TakesBlur (fun s radius => do return blurred s (← NonNegative.of radius))
      (fun s radius => (do return blurred s (← NonNegative.of radius) : Result α).toOption.getD s)
      blurred where
  refused s radius h := by
    rw [NonNegative.of_eq_error h]
    exact ⟨rfl, rfl⟩
  taken s radius h := by
    obtain ⟨b, hof, hb⟩ := NonNegative.exists_of_eq_ok (a := radius) h
    refine ⟨b, hb, ?_⟩
    rw [hof]
    rfl

theorem BoxShadow.takesBlur :
    TakesBlur BoxShadow.withBlur (fun s radius => BoxShadowStep.apply s (.blur radius))
      fun s b => {s with blur := some b} :=
  .of_check _

theorem TextShadow.takesBlur :
    TakesBlur TextShadow.withBlur (fun s radius => TextShadowStep.apply s (.blur radius))
      fun s b => {s with blur := some b} :=
  .of_check _

/-! ### Shadows read back -/

/-- The words of a shadow, and what is read from them by their places. -/
structure BoxShadow.ReadsBack (s : BoxShadow) : Prop where
  words_eq : (cutAt ' ' (css s)).toList = (if s.inset then ["inset".toList] else []) ++
    (s.lengths.map css ++ (s.color.map css).toList)
  length_lengths : 2 ≤ s.lengths.length ∧ s.lengths.length ≤ 4
  read_eq : ofText? (css s) = some ⟨s.inset, canonical s.x, canonical s.y,
    (s.blur.or (s.spread.map fun _ => zeroBlur)).map canonical, s.spread.map canonical,
    s.color.map canonical⟩
  read_beq : NaNFree s → ∃ r, ofText? (css s) = some r ∧
    r == {s with blur := s.blur.or (s.spread.map fun _ => zeroBlur)}

structure TextShadow.ReadsBack (s : TextShadow) : Prop where
  words_eq : (cutAt ' ' (css s)).toList =
    ([s.x, s.y] ++ (s.blur.map NonNegative.value).toList).map css ++ (s.color.map css).toList
  read_eq : ofText? (css s) =
    some ⟨canonical s.x, canonical s.y, s.blur.map canonical, s.color.map canonical⟩
  read_beq : NaNFree s → ∃ r, ofText? (css s) = some r ∧ r == s

theorem BoxShadow.readsBack (s : BoxShadow) : s.ReadsBack where
  words_eq := s.cutAt_css
  length_lengths := s.length_lengths
  read_eq := s.ofText?_css
  read_beq h := ⟨_, s.ofText?_css, canonicalNumbers_beq h⟩

theorem TextShadow.readsBack (s : TextShadow) : s.ReadsBack where
  words_eq := by
    rw [← css_box, BoxShadow.cutAt_css]
    obtain ⟨x, y, blur, color⟩ := s
    cases blur <;> rfl
  read_eq := s.ofText?_css
  read_beq h := ⟨_, s.ofText?_css, canonicalNumbers_beq h⟩

/-- What is owed of the shadows of boxes, and in the same way of those of text: what steps
build, what it reads back as, which steps may change places, and the lists of layers. -/
structure ShadowsReadBack : Prop where
  box_build_eq (x y : Length) (steps : List BoxShadowStep) :
    BoxShadow.build x y steps = ⟨(lastSet BoxShadowStep.inset? steps).getD false, x, y,
      lastSet BoxShadowStep.blur? steps, lastSet BoxShadowStep.spread? steps,
      lastSet BoxShadowStep.color? steps⟩
  box_readsBack (x y : Length) (steps : List BoxShadowStep) :
    (BoxShadow.build x y steps).ReadsBack
  box_apply_comm (s : BoxShadow) {a b : BoxShadowStep} (h : a.field ≠ b.field) :
    b.apply (a.apply s) = a.apply (b.apply s)
  box_takesBlur : TakesBlur BoxShadow.withBlur
    (fun s radius => BoxShadowStep.apply s (.blur radius)) fun s b => {s with blur := some b}
  box_layers : ShadowList.CutsBack BoxShadow
  text_build_eq (x y : Length) (steps : List TextShadowStep) :
    TextShadow.build x y steps = ⟨x, y, lastSet TextShadowStep.blur? steps,
      lastSet TextShadowStep.color? steps⟩
  text_readsBack (x y : Length) (steps : List TextShadowStep) :
    (TextShadow.build x y steps).ReadsBack
  text_apply_comm (s : TextShadow) {a b : TextShadowStep} (h : a.field ≠ b.field) :
    b.apply (a.apply s) = a.apply (b.apply s)
  text_takesBlur : TakesBlur TextShadow.withBlur
    (fun s radius => TextShadowStep.apply s (.blur radius)) fun s b => {s with blur := some b}
  text_layers : ShadowList.CutsBack TextShadow

/-- **Shadows read back by the places of their lengths.** Whatever steps build a shadow, it
holds what was set last in each of its fields, and is read back from its words but for the
sign of zero and the payload of NaN; a blur that is missing before a spread reads as one of
nothing. Steps on different fields may change places, and a negative blur is refused. A list
of layers is `none` when there are none, and otherwise it is cut at its outer commas. -/
theorem shadows_read_back : ShadowsReadBack where
  box_build_eq := BoxShadow.build_eq
  box_readsBack _ _ _ := BoxShadow.readsBack _
  box_apply_comm s _ _ h := BoxShadowStep.apply_comm h s
  box_takesBlur := BoxShadow.takesBlur
  box_layers := ShadowList.cutsBack
  text_build_eq := TextShadow.build_eq
  text_readsBack _ _ _ := TextShadow.readsBack _
  text_apply_comm s _ _ h := TextShadowStep.apply_comm h s
  text_takesBlur := TextShadow.takesBlur
  text_layers := ShadowList.cutsBack

/-- A blur that is refused leaves a spread without one. -/
theorem shadows_read_back_spread :
    ∃ (x y radius distance : Length) (color : Color),
      let spread := BoxShadowStep.spread distance
      let black := BoxShadowStep.color color
      let s := BoxShadow.build x y [spread, .blur radius, black]
      css s = "0px 1px 0px -2px black".toList ∧
      spread.field ≠ black.field ∧ black.apply (spread.apply s) = spread.apply (black.apply s) ∧
      radius.value.BelowZero ∧ BoxShadowStep.apply s (.blur radius) = s ∧
      ¬x.value.BelowZero ∧ (∃ b : NonNegative Length, b.value = x ∧
        s.withBlur x = .ok {s with blur := some b}) ∧
      NaNFree s ∧ ∃ r, BoxShadow.ofText? (css s) = some r ∧
        r == {s with blur := s.blur.or (s.spread.map fun _ => BoxShadow.zeroBlur)} := by
  let minusTwo : Binary32 := ⟨0xc0000000⟩
  have hbelow : minusTwo.BelowZero := .inr ⟨by decide, by decide⟩
  have hzero : ¬(0 : Binary32).BelowZero := (Binary32.isNegative_eq_false_iff 0).mp (by decide)
  have hblur := shadows_read_back.box_takesBlur
  have hfield : (BoxShadowStep.spread (.px minusTwo)).field ≠
      (BoxShadowStep.color (.named .black)).field := nofun
  refine ⟨.px 0, .px 1, .px minusTwo, .px minusTwo, .named .black, by decide +kernel, hfield,
    shadows_read_back.box_apply_comm _ hfield, hbelow, (hblur.refused _ hbelow).2, hzero,
    hblur.taken _ hzero, ?_, ?_⟩
  · decide +kernel
  · exact (shadows_read_back.box_readsBack _ _ _).read_beq (by decide +kernel)

end Stylesheet
