import Stylesheet.Paint.Image
import Stylesheet.Proofs.Color.Reading

/-! Reading linear gradients back.

The arguments are cut at the commas between them. A direction is a quantity or begins with
`to`, and no color does, so that the text of the first argument shows whether it is the
direction or a stop. The position of a stop stands behind the space after its color. -/
namespace Stylesheet

/-! ### Directions -/

instance : LawfulKeyword GradientSide := ⟨fun s => by cases s <;> rfl⟩

/-- A side is a word. -/
theorem not_isQuantity_side (s : GradientSide) : isQuantity (css s) = false := by
  cases s <;> decide

instance : Readable GradientDirection where
  read? t := if isQuantity t then (read? t).map .inl else (read? t).map .inr
  canonical := Sum.map canonical id
  read?_css
    | .inl a => (if_pos (Quantity.isQuantity_css a)).trans (congrArg _ (read?_css a))
    | .inr s => by
      refine (if_neg ?_).trans (congrArg _ (read?_css s))
      have hs : isQuantity (css s) = false := not_isQuantity_side s
      exact Bool.eq_false_iff.mp hs
  css_canonical
    | .inl a => css_canonical a
    | .inr _ => rfl

/-- An angle, or a side behind `to`. -/
def isDirection (t : List Char) : Bool := isQuantity t || "to ".toList.isPrefixOf t

/-- Every direction begins in one of the two ways. -/
theorem isDirection_css (d : GradientDirection) : isDirection (css d) := by
  cases d with
  | inl a =>
    have ha : isQuantity (css a) := Quantity.isQuantity_css a
    exact Bool.or_eq_true_iff.mpr (.inl ha)
  | inr s => cases s <;> decide

/-! ### Stops -/

namespace ColorStop

/-- The color of a stop, and its position if it has one. -/
def words (s : ColorStop) : List (List Char) := css s.color :: (s.position.map css).toList

theorem isArgument_words (s : ColorStop) : ∀ w ∈ s.words, IsArgument w := by
  refine List.forall_mem_cons.mpr ⟨isArgument s.color, ?_⟩
  cases s.position with
  | none => exact List.forall_mem_nil _
  | some p => exact List.forall_mem_singleton.mpr (isArgument p)

theorem css_eq_joined (s : ColorStop) : css s = joined [' '] s.words := by
  obtain ⟨color, position⟩ := s
  cases position with
  | none => exact List.append_nil _
  | some p =>
    show css color ++ (" ".toList ++ css p) = css color ++ [' '] ++ css p
    rw [List.append_assoc]
    rfl

/-- A stop is cut into its words. -/
theorem cutAt_css (s : ColorStop) : (cutAt ' ' (css s)).toList = s.words := by
  rw [css_eq_joined]
  exact cutAt_words s.isArgument_words

instance : Readable ColorStop where
  read? t := do return ⟨← read? (cutAt ' ' t).first, ← atMostOne? (cutAt ' ' t).rest⟩
  canonical s := ⟨canonical s.color, s.position.map canonical⟩
  read?_css s := by
    obtain ⟨hfirst, hrest⟩ := List.cons.inj s.cutAt_css
    rw [hfirst, hrest, read?_css, atMostOne?_css]
    rfl
  css_canonical s := by
    show css (canonical s.color) ++ clause " " (s.position.map canonical) = _
    rw [css_canonical, clause_canonical]
    rfl

end ColorStop

/-- No color is called `to`. -/
theorem Color.css_ne_to (c : Color) : css c ≠ "to".toList := by
  intro h
  have hread : Color.ofText? (css c) = some c.canonicalNumbers := c.ofText?_css
  have hnone : (Color.ofText? "to".toList).isNone := by decide +kernel
  rw [← h, hread] at hnone
  exact nomatch hnone

/-- **A stop is not taken for a direction.** -/
theorem not_isDirection_css (s : ColorStop) : isDirection (css s) = false := by
  have hends : Ends argumentEnd (clause (String.ofList [' ']) s.position) :=
    ends_clause s.position rfl
  have hquantity : isQuantity (css s) = false := s.color.not_isQuantity hends
  rw [isDirection, hquantity, Bool.false_or]
  refine Bool.eq_false_iff.mpr fun hprefix => s.color.css_ne_to ?_
  obtain ⟨v, hv⟩ := List.isPrefixOf_iff_prefix.mp hprefix
  have hto : IsArgument "to".toList := .of_isNameChar (by decide)
  have hcut : (cutAt ' ' ("to".toList ++ ' ' :: v)).toList = s.words := by
    rw [← s.cutAt_css, ← hv]
    rfl
  rw [cutAt_cons (hto.passes rfl) (by decide)] at hcut
  exact (List.cons.inj hcut).1.symm

/-! ### Gradients -/

/-- An argument has no comma outside of its brackets. -/
theorem passes_direction (d : GradientDirection) :
    Scan.Passes (· == ',') .start (css d) .start := by
  cases d with
  | inl a => exact (isArgument a).passes rfl
  | inr s => cases s <;> exact ⟨rfl, rfl⟩

/-- A stop has no comma outside of its parentheses. -/
theorem passes_stop (s : ColorStop) : Scan.Passes (· == ',') .start (css s) .start := by
  rw [s.css_eq_joined]
  exact Scan.passes_space.joined fun w hw => (s.isArgument_words w hw).passes rfl

namespace LinearGradient

/-- The name tells whether the gradient repeats. -/
def function (repeating : Bool) : List Char :=
  if repeating then "repeating-linear-gradient".toList else "linear-gradient".toList

/-- The direction, if there is one, and the stops. -/
def arguments (g : LinearGradient) : List (List Char) :=
  (g.direction.map css).toList ++ g.stops.map css

/-- The first argument is the direction if it looks like one. -/
def ofArguments? (repeating : Bool) (ts : List (List Char)) : Option LinearGradient := do
  let direction ← atMostOne? (ts.takeWhile isDirection)
  let stops ← (ts.dropWhile isDirection).mapM read?
  if h : 2 ≤ stops.length then return ⟨repeating, direction, stops, h⟩ else none

/-- A call with one of the two names. -/
def ofText? (t : List Char) : Option LinearGradient :=
  (readCall t).bind fun (name, t) =>
    if name = function false then ofArguments? false (cutArguments t)
    else if name = function true then ofArguments? true (cutArguments t)
    else none

/-- The same gradient with every number in canonical form. -/
def canonicalNumbers (g : LinearGradient) : LinearGradient where
  repeating := g.repeating
  direction := g.direction.map canonical
  stops := g.stops.map canonical
  two_le_length := by
    rw [List.length_map]
    exact g.two_le_length

theorem css_eq_call (g : LinearGradient) :
    css g = call (String.ofList (function g.repeating)) (joined [',', ' '] g.arguments) := by
  have hname : String.ofList (function g.repeating) =
      if g.repeating then "repeating-linear-gradient" else "linear-gradient" := by
    unfold function
    split <;> exact String.ofList_toList
  rw [hname]
  rfl

/-- The arguments in front are the direction, and the others the stops. -/
theorem ofArguments?_arguments (g : LinearGradient) :
    ofArguments? g.repeating g.arguments = some g.canonicalNumbers := by
  have hdirection : ∀ t ∈ (g.direction.map css).toList, isDirection t := by
    cases g.direction with
    | none => exact List.forall_mem_nil _
    | some d => exact List.forall_mem_singleton.mpr (isDirection_css d)
  have hstops : ∀ t ∈ (g.stops.map css).head?, isDirection t = false := by
    intro t ht
    obtain ⟨s, -, rfl⟩ := List.mem_map.mp (List.mem_of_mem_head? ht)
    exact not_isDirection_css s
  rw [ofArguments?, arguments, takeWhile_append_of_head hdirection hstops,
    dropWhile_append_of_head hdirection hstops, atMostOne?_css, mapM_read?_css]
  exact dif_pos g.canonicalNumbers.two_le_length

theorem arguments_ne_nil (g : LinearGradient) : g.arguments ≠ [] := by
  intro h
  have htwo := g.two_le_length
  rw [(List.map_eq_nil_iff.mp (List.append_eq_nil_iff.mp h).2)] at htwo
  exact absurd htwo (by decide)

/-- No argument has a comma outside. -/
theorem passes_arguments (g : LinearGradient) :
    ∀ t ∈ g.arguments, Scan.Passes (· == ',') .start t .start := by
  refine List.forall_mem_append.mpr ⟨?_, List.forall_mem_map.mpr fun s _ => passes_stop s⟩
  cases g.direction with
  | none => exact List.forall_mem_nil _
  | some d => exact List.forall_mem_singleton.mpr (passes_direction d)

/-- So the arguments are cut where they were put together. -/
theorem cutArguments_arguments (g : LinearGradient) :
    cutArguments (joined [',', ' '] g.arguments) = g.arguments := by
  have hpasses := g.passes_arguments
  obtain ⟨t, ts, h⟩ := List.exists_cons_of_ne_nil g.arguments_ne_nil
  rw [h] at hpasses ⊢
  exact cutArguments_joined hpasses

theorem readCall_css (g : LinearGradient) :
    readCall (css g) = some (function g.repeating, joined [',', ' '] g.arguments) := by
  have hfunction : (function g.repeating).all (· != '(') := by
    cases g.repeating <;> decide
  rw [css_eq_call, call_ofList, readCall_call hfunction]

/-- **A gradient is read back from its arguments.** -/
theorem ofText?_css (g : LinearGradient) : ofText? (css g) = some g.canonicalNumbers := by
  have hread := g.ofArguments?_arguments
  rw [ofText?, readCall_css, Option.bind_some]
  simp only [cutArguments_arguments]
  cases hrepeating : g.repeating with
  | false =>
    rw [hrepeating] at hread
    exact (if_pos rfl).trans hread
  | true =>
    rw [hrepeating] at hread
    exact (if_neg (by decide)).trans ((if_pos rfl).trans hread)

/-- Reading back keeps the text. -/
theorem css_canonicalNumbers (g : LinearGradient) : css g.canonicalNumbers = css g := by
  rw [css_eq_call, css_eq_call]
  show call _ (joined _ (((g.direction.map canonical).map css).toList ++
    (g.stops.map canonical).map css)) = _
  rw [optional_css_canonical, map_css_canonical]
  rfl

end LinearGradient

instance : Readable LinearGradient where
  read? := LinearGradient.ofText?
  canonical := LinearGradient.canonicalNumbers
  read?_css := LinearGradient.ofText?_css
  css_canonical := LinearGradient.css_canonicalNumbers

end Stylesheet
