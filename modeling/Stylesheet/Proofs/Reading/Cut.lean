import Stylesheet.Proofs.Declaration.Reading
import Stylesheet.Proofs.Equality.Argument

/-! Cutting a text at the marks that stand outside.

Texts that have no such mark themselves come apart again when they were joined by one. -/
namespace Stylesheet

variable {isMark isMark' : Char → Bool} {mark : Char} {s s' : Scan} {t u : List Char}
  {ts : List (List Char)}

/-- The texts between the outer marks. -/
def cutAt (mark : Char) (t : List Char) : NonEmpty (List Char) := Scan.start.split (· == mark) t

namespace Scan

/-- Fewer characters are marks. -/
theorem Passes.mono (h : Passes isMark s u s') (hsub : ∀ c, isMark' c → isMark c) :
    Passes isMark' s u s' := by
  refine ⟨h.run_eq, ?_⟩
  have hmarks := h.marks_eq
  clear h
  induction u generalizing s with
  | nil => rfl
  | cons c u ih =>
    rw [marks] at hmarks ⊢
    by_cases hc : s.outer c && isMark c
    · rw [if_pos hc] at hmarks
      exact absurd hmarks (List.cons_ne_nil _ _)
    · have hc' : ¬(s.outer c && isMark' c) := fun h => hc (by simp_all)
      rw [if_neg hc] at hmarks
      rw [if_neg hc']
      cases hstep : s.step c with
      | none => rfl
      | some s₁ =>
        rw [hstep] at hmarks
        exact ih hmarks

/-- No mark stands in the texts or in the separator. -/
theorem Passes.joined {separator : List Char} (hsep : Passes isMark s separator s)
    (h : ∀ t ∈ ts, Passes isMark s t s) : Passes isMark s (joined separator ts) s := by
  cases ts with
  | nil => exact .nil
  | cons t ts =>
    rw [joined_cons]
    rw [List.forall_mem_cons] at h
    refine h.1.append ?_
    have hrest := h.2
    clear h
    induction ts with
    | nil => exact .nil
    | cons u us ih =>
      rw [List.forall_mem_cons] at hrest
      exact (hsep.append hrest.1).append (ih hrest.2)

theorem passes_space : Passes (· == ',') .start [' '] .start :=
  .plain (by decide) (fun _ => rfl) .nil

/-- A mark ends the first part. -/
theorem split_mark (hmark : isPlain mark) (t : List Char) :
    Scan.start.split (· == mark) (mark :: t) = ⟨[], (Scan.start.split (· == mark) t).toList⟩ := by
  have hstep : Scan.start.step mark = some .start := stepBare_plain hmark
  have houter : Scan.start.outer mark = true := rfl
  rw [split, hstep]
  simp only [houter, beq_self_eq_true, Bool.and_self, if_true]

end Scan

/-- A text without a mark is not cut. -/
theorem cutAt_of_passes (h : Scan.Passes (· == mark) .start t .start) : cutAt mark t = ⟨t, []⟩ := by
  have hsplit := h.split_append (t := [])
  rw [List.append_nil] at hsplit
  rw [cutAt, hsplit]
  simp [Scan.split, NonEmpty.single, NonEmpty.modifyFirst]

/-- **A text is cut at its first mark**, and the rest as if it stood alone. -/
theorem cutAt_cons (h : Scan.Passes (· == mark) .start t .start) (hmark : isPlain mark)
    (u : List Char) : cutAt mark (t ++ mark :: u) = ⟨t, (cutAt mark u).toList⟩ := by
  rw [cutAt, h.split_append, Scan.split_mark hmark]
  simp [cutAt, NonEmpty.modifyFirst]

theorem joined_concat (separator t u : List Char) (ts : List (List Char)) :
    joined separator (t :: ts ++ [u]) = joined separator (t :: ts) ++ (separator ++ u) := by
  rw [List.cons_append, joined_cons, joined_cons, List.flatMap_append, List.append_assoc]
  simp

/-- What cuts off each text that is whole up to the mark behind it cuts texts where a mark
joins them, and leaves the lead behind the mark. -/
theorem split_joined {split : List Char → NonEmpty (List Char)} {IsWhole : List Char → Prop}
    (lead : List Char) (hend : ∀ u, IsWhole u → split u = ⟨u, []⟩)
    (hmark : ∀ u v, IsWhole u → split (u ++ mark :: v) = ⟨u, (split v).toList⟩)
    (hlead : ∀ u, IsWhole u → IsWhole (lead ++ u)) (h : ∀ u ∈ t :: ts, IsWhole u) :
    split (joined (mark :: lead) (t :: ts)) = ⟨t, ts.map (lead ++ ·)⟩ := by
  rw [List.forall_mem_cons] at h
  rw [joined_cons]
  induction ts generalizing t with
  | nil =>
    rw [List.flatMap_nil, List.append_nil]
    exact hend t h.1
  | cons u us ih =>
    -- what is cut next begins with the lead, which has no mark either
    have hu := List.forall_mem_cons.mp h.2
    have hnext := ih ⟨hlead u hu.1, hu.2⟩
    rw [List.append_assoc] at hnext
    rw [List.flatMap_cons, List.cons_append, List.cons_append, hmark t _ h.1,
      List.append_assoc, hnext]
    rfl

/-- **Texts joined by a mark are cut where they were joined.** -/
theorem cutAt_joined (lead : List Char) (hmark : isPlain mark)
    (hlead : Scan.Passes (· == mark) .start lead .start)
    (h : ∀ u ∈ t :: ts, Scan.Passes (· == mark) .start u .start) :
    cutAt mark (joined (mark :: lead) (t :: ts)) = ⟨t, ts.map (lead ++ ·)⟩ :=
  split_joined lead (fun _ hu => cutAt_of_passes hu) (fun _ v hu => cutAt_cons hu hmark v)
    (fun _ hu => hlead.append hu) h

/-- Behind each comma that separates two texts stands one space. -/
theorem cutAt_commas (h : ∀ u ∈ t :: ts, Scan.Passes (· == ',') .start u .start) :
    cutAt ',' (joined [',', ' '] (t :: ts)) = ⟨t, ts.map (' ' :: ·)⟩ :=
  cutAt_joined [' '] (by decide) Scan.passes_space h

theorem cutAt_commaSeparated {α : Type} [ToCss α] {a : α} {as : List α}
    (h : ∀ b ∈ a :: as, Scan.Passes (· == ',') .start (css b) .start) :
    cutAt ',' (commaSeparated (a :: as)) = ⟨css a, as.map fun b => ' ' :: css b⟩ := by
  have hcomma : ", ".toList = [',', ' '] := String.toList_ofList
  have htexts : ∀ t ∈ (a :: as).map css, Scan.Passes (· == ',') .start t .start :=
    List.forall_mem_map.mpr h
  rw [commaSeparated, separated, hcomma]
  refine (cutAt_commas htexts).trans ?_
  rw [List.map_map]
  rfl

theorem IsArgument.passes (h : IsArgument t) (hmark : argumentEnd mark) :
    Scan.Passes (· == mark) .start t .start :=
  h.mono fun c hc => by rwa [eq_of_beq hc]

/-- Words come apart at the spaces between them. -/
theorem cutAt_words (h : ∀ u ∈ t :: ts, IsArgument u) :
    (cutAt ' ' (joined [' '] (t :: ts))).toList = t :: ts := by
  rw [cutAt_joined [] (by decide) .nil fun u hu => (h u hu).passes rfl]
  simp [NonEmpty.toList]

end Stylesheet
