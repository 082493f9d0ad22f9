import Stylesheet.Proofs.Color.Reading

/-! Lists of items with spaces between them.

An item is read back by itself and has no space outside of its brackets, so that a list is
cut into its items and read back from them. Only the empty list is written with the word for
it, for no item is that word. -/
namespace Stylesheet

variable {α : Type}

/-! ### Quantities of at least zero -/

/-- Quantities that are negative in canonical form only if they are negative. -/
class KeepsSign (α : Type) [Signed α] [ToCss α] [Readable α] : Prop where
  isNegative_canonical (a : α) :
    (Signed.amount (canonical a)).isNegative = (Signed.amount a).isNegative

instance : KeepsSign Binary32 := ⟨Stylesheet.isNegative_canonical⟩

instance : KeepsSign LengthPercentage where
  isNegative_canonical
    | .length l => Stylesheet.isNegative_canonical l.value
    | .percentage p => Stylesheet.isNegative_canonical p.value

instance [Signed α] [ToCss α] [Readable α] [KeepsSign α] : Readable (NonNegative α) where
  read? t := (read? t).bind fun a => (NonNegative.of a).toOption
  canonical a := ⟨canonical a.value, (KeepsSign.isNegative_canonical a.value).trans a.not_negative⟩
  read?_css a := by
    show (read? (css a.value)).bind _ = _
    rw [read?_css, Option.bind_some]
    exact congrArg Except.toOption
      (dif_pos ((KeepsSign.isNegative_canonical a.value).trans a.not_negative))
  css_canonical a := css_canonical a.value

/-! ### Functions -/

/-- No name has a parenthesis in it. -/
theorem all_ne_round {name : List Char} (h : name.all isNameChar) : name.all (· != '(') := by
  refine List.all_eq_true.mpr fun c hc => bne_iff_ne.mpr ?_
  rintro rfl
  exact absurd (List.all_eq_true.mp h '(' hc) (by decide)

/-- A call reads back as its name and its arguments. -/
theorem readCall_ofList {name t : List Char} (hname : name.all (· != '(')) :
    readCall (call (String.ofList name) t) = some (name, t) := by
  rw [call_ofList, readCall_call hname]

/-- Arguments are cut where the commas were put. -/
theorem cutArguments_commaSeparated [ToCss α] [Argument α] (a : α) (as : List α) :
    cutArguments (commaSeparated (a :: as)) = (a :: as).map css :=
  cutArguments_of_passes fun b _ => (isArgument b).passes rfl

/-! ### Lists -/

/-- Items are cut where the spaces were put. -/
theorem cutAt_separated [ToCss α] [Argument α] (a : α) (as : List α) :
    (cutAt ' ' (separated " " (a :: as))).toList = (a :: as).map css := by
  have hspace : " ".toList = [' '] := String.toList_ofList
  have hwords : ∀ t ∈ (a :: as).map css, IsArgument t :=
    List.forall_mem_map.mpr fun a _ => isArgument a
  rw [separated, hspace]
  exact cutAt_words hwords

variable [ToCss α] [Readable α]

/-- What does not read back is the text of nothing. -/
theorem css_ne_of_read?_eq_none {t : List Char} (h : (read? t : Option α) = none) (a : α) :
    css a ≠ t := by
  rintro rfl
  exact nomatch (read?_css a).symm.trans h

/-- The canonical items have the same text. -/
theorem separated_canonical (separator : String) (as : List α) :
    separated separator (as.map canonical) = separated separator as := by
  rw [separated, map_css_canonical]
  rfl

/-- Types whose values stand in lists with spaces between them. -/
class ListItem (α : Type) [ToCss α] [Readable α] : Prop extends Argument α where
  read?_none : (read? "none".toList : Option α) = none

namespace ListOrNone

theorem css_map_canonical (l : ListOrNone " " α) :
    css (⟨l.items.map canonical⟩ : ListOrNone " " α) = css l := by
  obtain ⟨items⟩ := l
  cases items with
  | nil => rfl
  | cons a as => exact separated_canonical " " (a :: as)

variable [ListItem α] {l l' : ListOrNone " " α}

/-- **The items are what stands between the outer spaces.** -/
theorem cutAt_css (h : l.items ≠ []) : (cutAt ' ' (css l)).toList = l.items.map css := by
  obtain ⟨items⟩ := l
  cases items with
  | nil => exact absurd rfl h
  | cons a as => exact cutAt_separated a as

theorem css_eq_none_iff : css l = "none".toList ↔ l.items = [] := by
  constructor
  · intro h
    obtain ⟨items⟩ := l
    cases items with
    | nil => rfl
    | cons a as =>
      have hcut := cutAt_separated a as
      have htext : separated " " (a :: as) = "none".toList := h
      have hword : "none".toList = css a := (List.cons.inj (htext ▸ hcut)).1
      exact absurd hword.symm (css_ne_of_read?_eq_none ListItem.read?_none a)
  · intro h
    obtain ⟨_⟩ := l
    obtain rfl := h
    rfl

/-- A list is cut into its items, and these are read back. -/
instance : Readable (ListOrNone " " α) where
  read? t :=
    if t = "none".toList then some ⟨[]⟩ else ((cutAt ' ' t).toList.mapM read?).map .mk
  canonical l := ⟨l.items.map canonical⟩
  read?_css l := by
    by_cases h : l.items = []
    · have htext : css l = "none".toList := css_eq_none_iff.mpr h
      rw [if_pos htext, h]
      rfl
    · rw [if_neg (mt css_eq_none_iff.mp h), cutAt_css h, mapM_read?_css]
      rfl
  css_canonical := css_map_canonical

/-- Lists are written alike if their items are, one by one. -/
theorem css_eq_iff :
    css l = css l' ↔ l.items.map canonical = l'.items.map canonical := by
  rw [← canonical_inj]
  exact mk.injEq _ _ ▸ Iff.rfl

end ListOrNone
end Stylesheet
