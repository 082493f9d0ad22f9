import Stylesheet.Proofs.Reading.Reader
import Stylesheet.Writing.Buffer

/-! Writers that only append.

A writer has the whole buffer before it and could change any of it. One that `Appends` a
text leaves what is there as it is and puts the text behind it, and writers that do so one
after another append their texts in that order. -/
namespace Stylesheet

/-- The writer puts `text` behind whatever the buffer holds. -/
def Writer.Appends (w : Writer) (text : List Char) : Prop :=
  ∀ buffer, (w.run buffer).2 = buffer ++ String.ofList text

namespace Writer.Appends
variable {v w : Writer} {s t u : List Char} {c : Char}

/-- The text may be put in another form. -/
theorem congr (h : w.Appends s) (hst : s = t) : w.Appends t := hst ▸ h

/-! ### One after another -/

/-- A writer that does nothing. -/
theorem done : Writer.Appends (pure ()) [] := by
  intro buffer
  show buffer = _
  rw [String.ofList_nil, String.append_empty]

/-- Two writers in order append their texts in order. -/
theorem seq (hv : v.Appends s) (hw : w.Appends t) :
    Writer.Appends (do v; w) (s ++ t) := by
  intro buffer
  show (w.run (v.run buffer).2).2 = _
  rw [hv, hw, String.ofList_append, String.append_assoc]

/-- Texts associate to the left and writers to the right. -/
theorem assoc (h : w.Appends (s ++ (t ++ u))) : w.Appends (s ++ t ++ u) :=
  h.congr (List.append_assoc s t u).symm

theorem char : (writeChar c).Appends [c] := by
  intro buffer
  show buffer.push c = _
  rw [String.push_eq_append]
  rfl

theorem cons (hw : w.Appends t) : Writer.Appends (do writeChar c; w) (c :: t) := char.seq hw

theorem word {word : String} : (writeWord word).Appends word.toList := by
  intro buffer
  show buffer ++ word = _
  rw [String.ofList_toList]

/-- A text is written character by character. -/
theorem text : (writeText t).Appends t := by
  induction t with
  | nil => exact done
  | cons c t ih => exact cons ih

/-! ### Parts -/

/-- A writer under a condition appends nothing when it fails. -/
theorem onlyIf {b : Bool} (hw : w.Appends t) : (writeIf b w).Appends (if b then t else []) := by
  cases b with
  | false => exact done
  | true => exact hw

variable {α : Type} {f : α → Writer} {g : α → List Char}

/-- A part that may be missing. -/
theorem option {part : Option α} (h : ∀ a, (f a).Appends (g a)) :
    Writer.Appends (part.forM f) ((part.map g).getD []) := by
  cases part with
  | none => exact done
  | some a => exact h a

/-- The writers of a list, one after the other. -/
theorem forM {items : List α} (h : ∀ a ∈ items, (f a).Appends (g a)) :
    Writer.Appends (items.forM f) (items.flatMap g) := by
  induction items with
  | nil => exact done
  | cons a items ih =>
    obtain ⟨ha, hitems⟩ := List.forall_mem_cons.mp h
    exact ha.seq (ih hitems)

/-- Behind the first writer, every one has the separator in front of it. -/
theorem zipIdx_forM {separator : Writer} {items : List α} (hs : separator.Appends s)
    (h : ∀ a ∈ items, (f a).Appends (g a)) (i : Nat) :
    Writer.Appends
      (((items.map f).zipIdx (i + 1)).forM fun (writer, i) => do
        writeIf (0 < i) separator
        writer)
      ((items.map g).flatMap (s ++ ·)) := by
  induction items generalizing i with
  | nil => exact done
  | cons a items ih =>
    obtain ⟨ha, hitems⟩ := List.forall_mem_cons.mp h
    have hseparator : (writeIf (decide (0 < i + 1)) separator).Appends s := by
      rw [decide_eq_true i.succ_pos]
      exact hs
    exact (hseparator.seq ha).seq (ih hitems (i + 1))

/-- The writers with a separator between them, which the first one knows by its index. -/
theorem between {separator : Writer} {items : List α} (hs : separator.Appends s)
    (h : ∀ a ∈ items, (f a).Appends (g a)) :
    (writeBetween separator (items.map f)).Appends (joined s (items.map g)) := by
  cases items with
  | nil => exact done
  | cons a items =>
    obtain ⟨ha, hitems⟩ := List.forall_mem_cons.mp h
    have hfirst : Writer.Appends (do writeIf (decide (0 < 0)) separator; f a) (g a) := done.seq ha
    exact (hfirst.seq (zipIdx_forM hs hitems 0)).congr (joined_cons s (g a) (items.map g)).symm

theorem call {name : String} (hw : w.Appends t) :
    (writeCall name w).Appends (Stylesheet.call name t) :=
  assoc (word.seq (cons (hw.seq char)))

end Writer.Appends

/-! ### Values -/

/-- Types whose values are written as the text that they have. -/
class WritesText (α : Type) [ToCss α] [Writes α] : Prop where
  appends (a : α) : (write a).Appends (css a)

export WritesText (appends)

variable {α β : Type} [ToCss α] [Writes α] [WritesText α] [ToCss β] [Writes β] [WritesText β]

/-- **Writing such a value only appends**, and what it appends does not depend on the
buffer. -/
theorem writeOnto_eq (buffer : String) (a : α) : writeOnto buffer a = buffer ++ writeString a := by
  rw [writeString, writeOnto, writeOnto, appends a, appends a, String.empty_append]

/-- On its own such a value is written as its text. -/
theorem writeString_eq (a : α) : writeString a = cssString a := by
  rw [writeString, writeOnto, appends a, String.empty_append]
  rfl

/-- A part that may be missing, with what introduces it. -/
theorem appends_clause {lead : String} {part : Option α} :
    (writeClause lead part).Appends (clause lead part) := by
  cases part with
  | none => exact .done
  | some a => exact .seq .word (appends a)

/-- A part that nothing introduces. -/
theorem appends_part {part : Option α} : Writer.Appends (part.forM write) (clause "" part) := by
  cases part with
  | none => exact .done
  | some a => exact appends a

theorem appends_separated {separator : String} {items : List α} :
    (writeSeparated separator items).Appends (separated separator items) :=
  .between .word fun a _ => appends a

theorem appends_commaSeparated {items : List α} :
    (writeCommaSeparated items).Appends (commaSeparated items) :=
  appends_separated

instance : WritesText (α ⊕ β) where
  appends
    | .inl a => appends a
    | .inr b => appends b

/-! ### Words -/

instance {κ : Type} [Keyword κ] : WritesText κ := ⟨fun _ => .word⟩

instance {words : List String} : WritesText (Choice words) := ⟨fun _ => .word⟩

instance {word : String} : WritesText (OrKeyword word α) where
  appends
    | .keyword => .word
    | .value a => appends a

instance {separator : String} : WritesText (ListOrNone separator α) where
  appends
    | ⟨[]⟩ => .word
    | ⟨_ :: _⟩ => appends_separated

/-! ### Names and strings -/

instance : WritesText Identifier := ⟨fun _ => .text⟩

instance : WritesText CustomIdent := ⟨fun _ => .text⟩

instance {words : List String} : WritesText (IdentExcept words) :=
  ⟨fun i => appends i.toCustomIdent⟩

instance : WritesText (NonEmpty CustomIdent) := ⟨fun _ => appends_separated⟩

instance : WritesText DashedIdent := ⟨fun _ => .text⟩

instance : WritesText CssString := ⟨fun _ => .text⟩

instance : WritesText Url := ⟨fun _ => .call .text⟩

end Stylesheet
