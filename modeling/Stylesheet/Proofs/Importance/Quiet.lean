import Stylesheet.Proofs.Nesting.Escape

/-! Text that says nothing of importance.

A declaration is important by an exclamation mark at its end. Text is `Quiet` when no such
mark stands in it but inside strings and escapes, where a scan does not look. Texts are
joined, called and separated without leaving `Quiet`. -/
namespace Stylesheet

/-- The characters outside of all strings and escapes, inside of brackets or not. -/
def Scan.unprotected (s : Scan) : List Char → List Char
  | [] => []
  | c :: t =>
    let rest := ((s.step c).map fun s' => s'.unprotected t).getD []
    if s.isBare then c :: rest else rest

/-- A character that begins neither a string nor an escape, and is not the mark itself. -/
def isQuietChar (c : Char) : Bool := !(['"', '\\', '!'].contains c)

/-- Text in which every exclamation mark is behind a backslash or between quotes. -/
inductive Quiet : List Char → Prop where
  | nil : Quiet []
  | char {c t} : isQuietChar c → Quiet t → Quiet (c :: t)
  | escape {c t} : Quiet t → Quiet ('\\' :: c :: t)
  | string {body t} : StringBody body → Quiet t → Quiet ('"' :: (body ++ '"' :: t))

/-- A class of characters that has none of the three. -/
theorem isQuietChar_of {p : Char → Bool} (h : ['"', '\\', '!'].all fun c => !p c) {c : Char}
    (hc : p c) : isQuietChar c := by
  unfold isQuietChar
  rw [not_contains_of h hc]
  rfl

namespace Quiet
variable {s t : List Char}

/-! ### Putting texts together -/

/-- A string or an escape that begins in the first text also ends there. -/
theorem append (hs : Quiet s) (ht : Quiet t) : Quiet (s ++ t) := by
  induction hs with
  | nil => exact ht
  | char hc _ ih => exact .char hc ih
  | escape _ ih => exact .escape ih
  | string hb _ ih => simpa using .string hb ih

theorem cons {c : Char} (ht : Quiet t) (hc : isQuietChar c := by decide) : Quiet (c :: t) :=
  .char hc ht

/-- Text without strings and escapes. -/
theorem of_forall (h : ∀ c ∈ t, isQuietChar c) : Quiet t := by
  induction t with
  | nil => exact .nil
  | cons c t ih =>
    obtain ⟨hc, ht⟩ := List.forall_mem_cons.mp h
    exact .char hc (ih ht)

theorem of_all (h : t.all isQuietChar := by decide) : Quiet t :=
  of_forall (List.all_eq_true.mp h)

theorem word {cs : List Char} (h : cs.all isQuietChar := by decide) :
    Quiet (String.ofList cs).toList := by
  rw [String.toList_ofList]
  exact of_all h

/-- Brackets are quiet characters. -/
theorem enclosed (b : Bracket) (ht : Quiet t) : Quiet (b.opening :: (t ++ [b.closing])) := by
  have hopening : isQuietChar b.opening := by cases b <;> decide
  have hclosing : isQuietChar b.closing := by cases b <;> decide
  exact .char hopening (ht.append (.char hclosing .nil))

theorem call {name : List Char} (ht : Quiet t) (hname : name.all isQuietChar := by decide) :
    Quiet (Stylesheet.call (String.ofList name) t) := by
  rw [call_ofList]
  exact (of_all hname).append (ht.enclosed .round)

/-- Quiet texts with a quiet separator. -/
theorem joined {separator : List Char} {texts : List (List Char)} (hsep : Quiet separator)
    (h : ∀ t ∈ texts, Quiet t) : Quiet (Stylesheet.joined separator texts) := by
  induction texts with
  | nil => exact .nil
  | cons a rest ih =>
    obtain ⟨ha, hrest⟩ := List.forall_mem_cons.mp h
    cases rest with
    | nil => exact ha
    | cons b rest => exact (ha.append hsep).append (ih hrest)

theorem flatMap {α : Type} {f : α → List Char} {items : List α} (h : ∀ a ∈ items, Quiet (f a)) :
    Quiet (items.flatMap f) := by
  induction items with
  | nil => exact .nil
  | cons a items ih =>
    obtain ⟨ha, hitems⟩ := List.forall_mem_cons.mp h
    exact ha.append (ih hitems)

/-! ### Scanning -/

/-- Outside of strings and escapes there may have been a solidus. -/
theorem mode_of_isBare {mode : Mode} {n : List Bracket} (h : Scan.isBare ⟨mode, n⟩) :
    mode = .bare ∨ mode = .solidus := by
  cases mode with
  | bare => exact .inl rfl
  | solidus => exact .inr rfl
  | _ => cases h

/-- A character other than the mark, and a rest without it. -/
theorem unprotected_cons {s : Scan} {c : Char} (hbare : s.isBare) (hc : '!' ≠ c)
    (ht : ∀ s', s.step c = some s' → '!' ∉ s'.unprotected t) : '!' ∉ s.unprotected (c :: t) := by
  rw [Scan.unprotected]
  simp only [hbare, if_true, List.mem_cons, not_or]
  refine ⟨hc, ?_⟩
  cases hstep : s.step c with
  | none => exact List.not_mem_nil
  | some s' => exact ht s' hstep

/-- In the body of a string nothing is outside, and the closing quote gives back what the scan
had. -/
theorem unprotected_string {body : List Char} {n : List Bracket} (hbody : StringBody body)
    (ht : '!' ∉ Scan.unprotected ⟨.bare, n⟩ t) :
    '!' ∉ Scan.unprotected ⟨.string, n⟩ (body ++ '"' :: t) := by
  induction hbody with
  | nil => exact ht
  | @char c t hquote hescape _ ih =>
    have hstep : Scan.step ⟨.string, n⟩ c = some ⟨.string, n⟩ := by
      simp [Scan.step, hquote, hescape]
    rw [List.cons_append, Scan.unprotected, hstep]
    exact ih
  | escape _ ih => exact ih

/-- A quiet character leaves the scan outside of strings and escapes. -/
theorem isBare_stepBare {s : Scan} {n : List Bracket} {c : Char} (hc : isQuietChar c)
    (h : Scan.stepBare n c = some s) : s.isBare := by
  have hquote : c ≠ '"' := by
    rintro rfl
    exact absurd hc (by decide)
  have hescape : c ≠ '\\' := by
    rintro rfl
    exact absurd hc (by decide)
  rw [Scan.stepBare, if_neg hquote, if_neg hescape] at h
  split at h
  · cases h
    rfl
  split at h
  · cases h
    rfl
  · cases h
    rfl
  · split at h
    · cases h
      rfl
    · cases h

/-- **Quiet text has no exclamation mark** where a scan would take it for one. -/
theorem not_mem_unprotected (ht : Quiet t) {s : Scan} (hbare : s.isBare) :
    '!' ∉ s.unprotected t := by
  obtain ⟨mode, n⟩ := s
  -- The induction follows the text, and the scan may begin with any brackets open or behind a
  -- solidus.
  induction ht generalizing mode n with
  | nil => exact List.not_mem_nil
  | @char c t hc _ ih =>
    have hne : '!' ≠ c := by
      rintro rfl
      exact absurd hc (by decide)
    refine unprotected_cons hbare hne fun s' hstep => ih _ _ ?_
    obtain rfl | rfl := mode_of_isBare hbare
    · exact isBare_stepBare hc hstep
    · have hcomment : c ≠ '*' := by
        rintro rfl
        exact nomatch hstep
      rw [Scan.step_solidus hcomment] at hstep
      exact isBare_stepBare hc hstep
  | escape _ ih =>
    refine unprotected_cons hbare (by decide) fun s' hstep => ?_
    obtain rfl | rfl := mode_of_isBare hbare
    · cases hstep
      exact ih .bare n rfl
    · cases hstep
      exact ih .bare n rfl
  | string hbody _ ih =>
    refine unprotected_cons hbare (by decide) fun s' hstep => ?_
    obtain rfl | rfl := mode_of_isBare hbare
    · cases hstep
      exact unprotected_string hbody (ih .bare n rfl)
    · cases hstep
      exact unprotected_string hbody (ih .bare n rfl)

end Quiet
end Stylesheet
