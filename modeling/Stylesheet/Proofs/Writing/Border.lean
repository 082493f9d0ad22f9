import Stylesheet.Proofs.Property.Wide
import Stylesheet.Proofs.Writing.Value

/-! The lines around boxes, whose writer looks at the buffer.

It tells by the length of the buffer alone whether a part came before, and at the end
whether there was any part at all. This goes well since no part is empty: as soon as one
has been written the buffer is longer than at the start, whatever was in it. -/
namespace Stylesheet

namespace Writer
variable {v w : Writer} {start : String} {s t u : List Char}

/-- Where `before` stands behind `start`, the writer leaves `after` there. -/
def Turns (w : Writer) (start : String) (before after : List Char) : Prop :=
  (w.run (start ++ String.ofList before)).2 = start ++ String.ofList after

/-- The second writer begins with what the first one made of the buffer. -/
theorem Turns.seq (hv : v.Turns start s t) (hw : w.Turns start t u) :
    Turns (do v; w) start s u := by
  show (w.run (v.run (start ++ String.ofList s)).2).2 = _
  rw [hv, hw]

/-- Appending does not depend on what is in the buffer. -/
theorem Appends.turns (hw : w.Appends t) : w.Turns start s (s ++ t) := by
  show (w.run _).2 = _
  rw [hw, String.append_assoc, ← String.ofList_append]

variable (start s)

/-- The buffer is as long as its start exactly when there is nothing behind it. -/
theorem utf8ByteSize_eq_iff :
    (start ++ String.ofList s).utf8ByteSize = start.utf8ByteSize ↔ s = [] := by
  rw [← String.ofList_eq_empty_iff, ← String.utf8ByteSize_eq_zero_iff, String.utf8ByteSize_append]
  omega

/-- A separator is written if anything stands behind `start`. -/
theorem turns_separator :
    (writeSeparator start.utf8ByteSize).Turns start s (if s = [] then [] else s ++ [' ']) := by
  have hrun : ((writeSeparator start.utf8ByteSize).run (start ++ String.ofList s)).2 =
      ((if (start ++ String.ofList s).utf8ByteSize > start.utf8ByteSize then writeChar ' '
        else pure () : Writer).run (start ++ String.ofList s)).2 := rfl
  have hsize : (start ++ String.ofList s).utf8ByteSize > start.utf8ByteSize ↔ s ≠ [] := by
    rw [Ne, ← utf8ByteSize_eq_iff, String.utf8ByteSize_append]
    omega
  by_cases h : s = []
  · rw [Turns, hrun, if_neg fun hlt => hsize.mp hlt h, if_pos h, h]
    rfl
  · rw [Turns, hrun, if_pos (hsize.mpr h), if_neg h]
    exact Appends.char.turns

/-- The word `none` is written if nothing stands there. -/
theorem turns_fallback :
    Turns (do if (← get).utf8ByteSize == start.utf8ByteSize then writeWord "none") start s
      (if s = [] then "none".toList else s) := by
  have hrun : ((do if (← get).utf8ByteSize == start.utf8ByteSize then writeWord "none" : Writer).run
        (start ++ String.ofList s)).2 =
      ((if (start ++ String.ofList s).utf8ByteSize == start.utf8ByteSize then writeWord "none"
        else pure () : Writer).run (start ++ String.ofList s)).2 := rfl
  have hsize := beq_iff_eq.trans (utf8ByteSize_eq_iff start s)
  by_cases h : s = []
  · rw [Turns, hrun, if_pos (hsize.mpr h), if_pos h, h]
    exact Appends.word.turns
  · rw [Turns, hrun, if_neg fun heq => h (hsize.mp heq), if_neg h]
    rfl

variable {s}

/-! ### Parts with a space between them -/

/-- One more part, with a space if there is one before it. -/
theorem turns_part {parts : List (List Char)} (hparts : ∀ t ∈ parts, t ≠ [])
    (hw : w.Appends t) :
    Turns (do writeSeparator start.utf8ByteSize; w) start (joined [' '] parts)
      (joined [' '] (parts ++ [t])) := by
  have hseparator := turns_separator start (joined [' '] parts)
  cases parts with
  | nil => exact hseparator.seq hw.turns
  | cons p ps =>
    have hjoined : joined [' '] (p :: ps) ++ [' '] ++ t = joined [' '] (p :: ps ++ [t]) := by
      simp [joined_cons]
    rw [if_neg (joined_ne_nil hparts nofun)] at hseparator
    exact hjoined ▸ hseparator.seq hw.turns

/-- A part that is missing leaves the buffer as it is. -/
theorem turns_option {α : Type} [ToCss α] [Writes α] [WritesText α] {parts : List (List Char)}
    (hparts : ∀ t ∈ parts, t ≠ []) (part : Option α) :
    Turns
      (part.forM fun a => do
        writeSeparator start.utf8ByteSize
        write a)
      start (joined [' '] parts) (joined [' '] (parts ++ (part.map css).toList)) := by
  cases part with
  | none => exact (List.append_nil parts).symm ▸ rfl
  | some a => exact turns_part start hparts (appends a)

end Writer

/-- No part has an empty text, so that the length of the buffer tells whether there is one. -/
theorem ne_nil_of_mem_part {α : Type} [ToCss α] [Owns α] (part : Option α) :
    ∀ t ∈ (part.map css).toList, t ≠ [] := by
  intro t ht
  obtain ⟨a, -, rfl⟩ := Option.map_eq_some_iff.mp (Option.mem_toList.mp ht)
  exact (own a).ne_nil

open Writer in
instance : WritesText BorderSide where
  appends s := by
    intro start
    have hwidth : Turns (s.width.forM write) start [] (joined [' '] (s.width.map css).toList) := by
      cases s.width with
      | none => rfl
      | some width => exact (appends width).turns
    have hfirst :=
      List.forall_mem_append.mpr ⟨ne_nil_of_mem_part s.width, ne_nil_of_mem_part s.style⟩
    have hparts : ∀ t ∈ s.parts, t ≠ [] :=
      List.forall_mem_append.mpr ⟨hfirst, ne_nil_of_mem_part s.color⟩
    have hstyle := turns_option start (ne_nil_of_mem_part s.width) s.style
    have hcolor := turns_option start hfirst s.color
    have hall := hwidth.seq (hstyle.seq (hcolor.seq (turns_fallback start _)))
    have hempty : start ++ String.ofList [] = start := by
      rw [String.ofList_nil, String.append_empty]
    have hcss : (if joined [' '] s.parts = [] then "none".toList else joined [' '] s.parts) =
        css s := by
      show _ = if s.parts.isEmpty then "none".toList else joined [' '] s.parts
      by_cases h : s.parts = []
      · rw [h]
        rfl
      · rw [if_neg (joined_ne_nil hparts h), if_neg (mt List.isEmpty_iff.mp h)]
    rw [Turns, hempty] at hall
    rw [← hcss]
    exact hall

end Stylesheet
