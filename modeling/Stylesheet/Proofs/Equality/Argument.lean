import Stylesheet.Proofs.Nesting.Value
import Stylesheet.Proofs.Reading.Reader

/-! Where the parts of a text end.

Two texts made of parts are equal only if their parts are. A part ends before a space or a
comma when it has neither of them outside of brackets, so that a text falls into its parts
in one way. -/
namespace Stylesheet

variable {t t' u v w : List Char} {α : Type}

/-! ### One end -/

/-- What a reader takes off does not depend on what follows. -/
theorem Reads.append_inj {p : Reader α} {a b : α} {F : List Char → Prop} (h : Reads p t a F)
    (h' : Reads p t' b F) (hu : F u) (hv : F v) (heq : t ++ u = t' ++ v) : a = b ∧ u = v := by
  have hread := h u hu
  rw [heq, h' v hv] at hread
  cases hread
  exact ⟨rfl, rfl⟩

/-- Where a class of characters ends is where both first texts end. -/
theorem span_inj {q : Char → Bool} (ht : t.all q) (ht' : t'.all q) (hu : Ends (!q ·) u)
    (hv : Ends (!q ·) v) (h : t ++ u = t' ++ v) : t = t' ∧ u = v :=
  (Reads.span ht).append_inj (Reads.span ht') hu hv h

/-- The same function was called with the same arguments. -/
theorem call_cancel {name : String} (h : call name t = call name t') : t = t' := by
  unfold call at h
  rw [List.append_left_inj, List.append_right_inj] at h
  exact (List.cons.inj h).2

/-- A call shows its name up to the bracket. -/
theorem call_inj {name name' : String} (hname : name.toList.all (· != '('))
    (hname' : name'.toList.all (· != '(')) (h : call name t = call name' t') :
    name = name' ∧ t = t' := by
  have hround : ∀ t, Ends (fun c => !(c != '(')) ('(' :: (t ++ [')'])) := fun _ => .cons rfl
  have hspan : name.toList ++ '(' :: (t ++ [')']) = name'.toList ++ '(' :: (t' ++ [')']) := by
    simpa [call] using h
  obtain ⟨heq, -⟩ := span_inj hname hname' (hround t) (hround t') hspan
  obtain rfl := String.toList_injective heq
  exact ⟨rfl, call_cancel h⟩

/-- A word has no parenthesis in it, and a call has. -/
theorem word_ne_call {name : String} (hw : w.all (· != '(')) : w ≠ call name t := by
  rintro rfl
  simp [call] at hw

/-- Keywords that are written alike are the same. -/
theorem keyword_inj [Keyword α] [LawfulKeyword α] {a b : α} (h : css a = css b) : a = b := by
  have ha := spelled?_css a
  rw [h, spelled?_css] at ha
  exact (Option.some.inj ha).symm

/-- An optional part is there or not as the texts say, if something introduces it. -/
theorem clause_inj [ToCss α] {lead : List Char} {a b : Option α} (hne : lead ≠ [])
    (h : clause (String.ofList lead) a = clause (String.ofList lead) b) :
    a.map css = b.map css := by
  cases a <;> cases b
  · rfl
  · simp [clause, hne] at h
  · simp [clause, hne] at h
  · simpa [clause] using h

/-! ### Arguments -/

/-- What stands between arguments. -/
def argumentEnd (c : Char) : Bool := c == ' ' || c == ','

/-- A text with no end of an argument outside of its brackets. -/
abbrev IsArgument (t : List Char) : Prop := Scan.Passes argumentEnd .start t .start

namespace IsArgument

/-- An argument cannot go on after something that ends it. -/
theorem eq_nil_of_append (h : IsArgument t) (h' : IsArgument (t ++ w))
    (hw : Ends argumentEnd (w ++ v)) : w = [] := by
  cases w with
  | nil => rfl
  | cons c w =>
    have hc : argumentEnd c := hw c rfl
    have houter : Scan.start.outer c = true := rfl
    have hmarks := h'.marks_eq
    rw [Scan.marks_append h.run_eq, h.marks_eq, List.nil_append, Scan.marks, houter, hc] at hmarks
    exact absurd hmarks (List.cons_ne_nil _ _)

/-- **An argument ends in one place.** -/
theorem append_inj (h : IsArgument t) (h' : IsArgument t') (hu : Ends argumentEnd u)
    (hv : Ends argumentEnd v) (heq : t ++ u = t' ++ v) : t = t' ∧ u = v := by
  rcases List.append_eq_append_iff.mp heq with ⟨w, rfl, rfl⟩ | ⟨w, rfl, rfl⟩
  · obtain rfl := eq_nil_of_append h h' hu
    simp
  · obtain rfl := eq_nil_of_append h' h hv
    simp

/-- Plain characters other than spaces and commas. -/
def AllPlain (t : List Char) : Prop := ∀ c ∈ t, isPlain c ∧ argumentEnd c = false

/-- No character of a name ends an argument. -/
theorem AllPlain.of_isNameChar (h : t.all isNameChar) : AllPlain t := by
  intro c hc
  have hname := List.all_eq_true.mp h c hc
  refine ⟨isPlain_of_isNameChar hname, ?_⟩
  rw [argumentEnd, Bool.or_eq_false_iff, beq_eq_false_iff_ne, beq_eq_false_iff_ne]
  constructor <;> rintro rfl <;> exact absurd hname (by decide)

/-- Plain text is passed over whatever else happens. -/
theorem of_allPlain (h : AllPlain t) : IsArgument t := by
  induction t with
  | nil => exact .nil
  | cons c t ih =>
    rw [AllPlain, List.forall_mem_cons] at h
    exact .plain h.1.1 (fun _ => h.1.2) (ih h.2)

theorem of_isNameChar (h : t.all isNameChar) : IsArgument t := of_allPlain (.of_isNameChar h)

/-- Inside brackets anything that is nested may stand. -/
theorem call {name : List Char} (hname : name.all isNameChar) (ht : Nested anyChar t) :
    IsArgument (call (String.ofList name) t) := by
  rw [call_ofList]
  have hinner : Scan.Passes argumentEnd ⟨.bare, [.round]⟩ t ⟨.bare, [.round]⟩ := ht.passes nofun
  refine (of_isNameChar hname).append ?_
  exact .opening .round (fun _ => rfl) (hinner.append (.closing .round (fun _ => rfl) .nil))

end IsArgument

/-- Types whose values have arguments as texts. -/
class Argument (α : Type) [ToCss α] : Prop where
  isArgument (a : α) : IsArgument (css a)

export Argument (isArgument)

variable [ToCss α]

/-- Each text has the separator in front, so that the first of them ends what came before. -/
theorem ends_flatMap {c : Char} {separator : List Char} (hc : argumentEnd c)
    (ts : List (List Char)) : Ends argumentEnd (ts.flatMap ((c :: separator) ++ ·)) := by
  cases ts with
  | nil => exact .nil
  | cons => exact .cons hc

/-- Texts that are arguments can be taken off one by one. -/
theorem flatMap_inj {c : Char} {separator : List Char} (hc : argumentEnd c)
    {ts us : List (List Char)} (ht : ∀ t ∈ ts, IsArgument t) (hu : ∀ u ∈ us, IsArgument u)
    (h : ts.flatMap ((c :: separator) ++ ·) = us.flatMap ((c :: separator) ++ ·)) : ts = us := by
  induction ts generalizing us with
  | nil =>
    cases us with
    | nil => rfl
    | cons => exact nomatch h
  | cons t ts ih =>
    cases us with
    | nil => exact nomatch h
    | cons u us =>
      rw [List.forall_mem_cons] at ht hu
      rw [List.flatMap_cons, List.flatMap_cons, List.append_assoc, List.append_assoc,
        List.append_right_inj] at h
      obtain ⟨rfl, hrest⟩ := ht.1.append_inj hu.1 (ends_flatMap hc ts) (ends_flatMap hc us) h
      rw [ih ht.2 hu.2 hrest]

/-- **Joined arguments are told apart one by one.** -/
theorem joined_inj {c : Char} {separator : List Char} {ts us : List (List Char)}
    (hc : argumentEnd c) (ht : ∀ s ∈ t :: ts, IsArgument s) (hu : ∀ s ∈ u :: us, IsArgument s)
    (h : joined (c :: separator) (t :: ts) = joined (c :: separator) (u :: us)) :
    t :: ts = u :: us := by
  rw [List.forall_mem_cons] at ht hu
  rw [joined_cons, joined_cons] at h
  obtain ⟨rfl, hrest⟩ := ht.1.append_inj hu.1 (ends_flatMap hc ts) (ends_flatMap hc us) h
  rw [flatMap_inj hc ht.2 hu.2 hrest]

/-- As many arguments on both sides, in front of what no argument goes on with. -/
theorem joined_append_inj {c : Char} {separator : List Char} {ts us : List (List Char)}
    (hc : argumentEnd c) (hlength : ts.length = us.length) (ht : ∀ s ∈ t :: ts, IsArgument s)
    (hu : ∀ s ∈ u :: us, IsArgument s) (hv : Ends argumentEnd v) (hw : Ends argumentEnd w)
    (h : joined (c :: separator) (t :: ts) ++ v = joined (c :: separator) (u :: us) ++ w) :
    t :: ts = u :: us ∧ v = w := by
  rw [joined_cons, joined_cons, List.append_assoc, List.append_assoc] at h
  rw [List.forall_mem_cons] at ht hu
  induction ts generalizing t u us with
  | nil =>
    obtain rfl := List.eq_nil_of_length_eq_zero hlength.symm
    obtain ⟨rfl, hrest⟩ := ht.1.append_inj hu.1 hv hw h
    exact ⟨rfl, hrest⟩
  | cons t' ts ih =>
    cases us with
    | nil => exact nomatch hlength
    | cons u' us =>
      rw [List.flatMap_cons, List.flatMap_cons] at h
      obtain ⟨rfl, hrest⟩ := ht.1.append_inj hu.1 (.cons hc) (.cons hc) h
      have hnext := (List.append_right_inj (c :: separator)).mp (by simpa using hrest)
      obtain ⟨heq, hrest⟩ := ih (Nat.succ.inj hlength) (List.forall_mem_cons.mp ht.2)
        (List.forall_mem_cons.mp hu.2) (by simpa using hnext)
      exact ⟨by rw [heq], hrest⟩

/-- Lists of arguments with the same text have items with the same texts. -/
theorem commaSeparated_inj [Argument α] {a b : α} {as bs : List α}
    (h : commaSeparated (a :: as) = commaSeparated (b :: bs)) :
    (a :: as).map css = (b :: bs).map css := by
  have hargument : ∀ items : List α, ∀ t ∈ items.map css, IsArgument t := by
    intro items t ht
    obtain ⟨a, _, rfl⟩ := List.mem_map.mp ht
    exact isArgument a
  have hcomma : ", ".toList = [',', ' '] := String.toList_ofList
  rw [commaSeparated, commaSeparated, separated, separated, hcomma] at h
  exact joined_inj rfl (hargument (a :: as)) (hargument (b :: bs)) h

end Stylesheet
