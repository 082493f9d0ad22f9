import Stylesheet.Name.Identifier
import Stylesheet.Name.Quoted
import Stylesheet.Proofs.Nesting.Escape
import Stylesheet.Quantity.NonNegative

/-! Types all of whose values have nested text.

`Nests top α` is found by instance search: the numbers, names and strings are its leaves,
and a type former passes it on from its parts. What nests with few characters at the top
nests with more. -/
namespace Stylesheet

/-- Every value of the type has a nested text, with nothing but `top` outside of brackets. -/
class Nests (top : Char → Bool) (α : Type) [ToCss α] : Prop where
  nested (a : α) : Nested top (css a)

export Nests (nested)

variable {top : Char → Bool} {α β : Type} [ToCss α] [ToCss β]

instance (priority := low) [Nests wordChar α] : Nests phraseChar α :=
  ⟨fun a => .mono (fun _ => phraseChar_of_wordChar) (nested a)⟩

instance (priority := low) [Nests phraseChar α] : Nests listChar α :=
  ⟨fun a => .mono (fun _ => listChar_of_phraseChar) (nested a)⟩

instance (priority := low) [Nests listChar α] : Nests preludeChar α :=
  ⟨fun a => .mono (fun _ => preludeChar_of_listChar) (nested a)⟩

instance (priority := low) [Nests preludeChar α] : Nests anyChar α :=
  ⟨fun a => (nested a : Nested preludeChar (css a)).any⟩

/-! ### Putting texts together -/

/-- What introduces the part is made of plain characters of `top`, and nothing is written when
the part is missing. -/
theorem nested_clause {lead : List Char} [Nests top α] (a : Option α)
    (hlead : areAll top lead := by decide) : Nested top (clause (String.ofList lead) a) := by
  cases a with
  | none => exact .nil
  | some a => exact (Nested.word hlead).append (nested a)

/-- A part that nothing introduces. -/
theorem nested_optional [Nests top α] (a : Option α) : Nested top (clause "" a) := by
  cases a with
  | none => exact .nil
  | some a => exact nested a

/-- Items that nest, with plain characters of `top` between them. -/
theorem nested_separated {separator : List Char} [Nests top α] (items : List α)
    (hsep : areAll top separator := by decide) :
    Nested top (separated (String.ofList separator) items) := by
  refine .joined (.word hsep) fun t ht => ?_
  obtain ⟨a, _, rfl⟩ := List.mem_map.mp ht
  exact nested a

instance [Nests top α] [Nests top β] : Nests top (α ⊕ β) where
  nested
    | .inl a => nested a
    | .inr b => nested b

theorem nests_orKeyword {word : List Char} [Nests top α]
    (hword : areAll top word := by decide) : Nests top (OrKeyword (String.ofList word) α) := by
  constructor
  intro a
  cases a with
  | keyword => exact .word hword
  | value a => exact nested a

instance [Nests wordChar α] : Nests wordChar (OrAuto α) := nests_orKeyword

instance [Nests wordChar α] : Nests wordChar (OrNone α) := nests_orKeyword

instance [Nests wordChar α] : Nests wordChar (OrNormal α) := nests_orKeyword

/-- The empty list is written as a word, whose letters `top` has to allow as well. -/
theorem nests_listOrNone {separator : List Char} [Nests top α]
    (hsep : areAll top separator := by decide)
    (hnone : areAll top ['n', 'o', 'n', 'e'] := by decide) :
    Nests top (ListOrNone (String.ofList separator) α) := by
  constructor
  rintro ⟨items⟩
  cases items with
  | nil => exact .word hnone
  | cons a items => exact nested_separated (a :: items) hsep

instance [Nests phraseChar α] : Nests phraseChar (ListOrNone " " α) := nests_listOrNone

instance [Nests listChar α] : Nests listChar (ListOrNone ", " α) := nests_listOrNone

/-- A choice of words, checked word by word. -/
theorem nests_choice {words : List String} (h : ∀ w ∈ words, Nested top w.toList) :
    Nests top (Choice words) :=
  ⟨fun c => h c.word c.word_mem⟩

/-! ### Numbers -/

/-- What numbers are written with, before any unit. -/
def isNumberChar (c : Char) : Bool := c.isDigit || c == '-' || c == '.'

theorem isNumberChar_of_isDigit {c : Char} (h : c.isDigit) : isNumberChar c := by
  simp [isNumberChar, h]

/-- A number is a word, so that it may stand wherever a word may. -/
theorem wordChar_of_isNumberChar {c : Char} (h : isNumberChar c) : isPlain c && wordChar c := by
  simp only [isNumberChar, Bool.or_eq_true, beq_iff_eq] at h
  obtain (h | rfl) | rfl := h
  · have hname := isNameChar_of_isDigit h
    rw [isPlain_of_isNameChar hname, wordChar_of_isNameChar hname]
    rfl
  · decide
  · decide

/-- Nothing in a number opens a bracket or a string. -/
theorem nested_of_number {t : List Char} (h : ∀ c ∈ t, isNumberChar c) : Nested wordChar t :=
  .of_all (List.all_eq_true.mpr fun c hc => wordChar_of_isNumberChar (h c hc))

theorem isNumberChar_of_mem_decimalDigits {n : Nat} {c : Char} (h : c ∈ decimalDigits n) :
    isNumberChar c :=
  isNumberChar_of_isDigit (Nat.isDigit_of_mem_toDigits (by decide) (by decide) h)

theorem isNumberChar_of_mem_replicate {n : Nat} {c : Char} (h : c ∈ List.replicate n '0') :
    isNumberChar c := by
  rw [List.eq_of_mem_replicate h]
  decide

/-- A decimal is written with its digits, zeros in front or behind, and one point. -/
theorem isNumberChar_of_mem_positional {d : Decimal} {c : Char} (h : c ∈ d.positional) :
    isNumberChar c := by
  unfold Decimal.positional at h
  simp only at h
  split at h
  · rcases List.mem_append.mp h with h | h
    · exact isNumberChar_of_mem_decimalDigits h
    · exact isNumberChar_of_mem_replicate h
  split at h
  · rcases List.mem_append.mp h with h | h
    · exact isNumberChar_of_mem_decimalDigits (List.mem_of_mem_take h)
    · rcases List.mem_cons.mp h with rfl | h
      · decide
      · exact isNumberChar_of_mem_decimalDigits (List.mem_of_mem_drop h)
  · rcases List.mem_cons.mp h with rfl | h
    · decide
    rcases List.mem_cons.mp h with rfl | h
    · decide
    rcases List.mem_append.mp h with h | h
    · exact isNumberChar_of_mem_replicate h
    · exact isNumberChar_of_mem_decimalDigits h

/-- The digits of a finite number, with its sign. -/
theorem isNumberChar_of_mem_digits {x : Binary32} {c : Char} (h : c ∈ x.digits) :
    isNumberChar c := by
  unfold Binary32.digits at h
  split at h
  · obtain rfl := List.mem_singleton.mp h
    decide
  split at h
  · rcases List.mem_cons.mp h with rfl | h
    · decide
    · exact isNumberChar_of_mem_positional h
  · exact isNumberChar_of_mem_positional h

theorem nested_digits (x : Binary32) : Nested wordChar x.digits :=
  nested_of_number fun _ => isNumberChar_of_mem_digits

/-- The numbers without digits are called `infinity`, `-infinity` and `NaN`. -/
theorem nested_keyword (x : Binary32) : Nested wordChar x.keyword := by
  unfold Binary32.keyword
  split
  · exact .word
  split
  · exact .word
  · exact .word

/-- A number without digits is multiplied by its unit inside of `calc`, where anything may
stand. -/
theorem nested_dimensionText {x : Binary32} {unit : List Char} (h : Nested wordChar unit) :
    Nested wordChar (dimensionText x unit) := by
  unfold dimensionText
  split
  · exact (nested_digits x).append h
  · exact .call (((nested_keyword x).any.append .word).append h.any)

instance : Nests wordChar Binary32 where
  nested x := by
    show Nested wordChar (numberText x)
    unfold numberText
    split
    · exact nested_digits x
    · exact .call (nested_keyword x).any

/-- The sign of an integer is the one character that is no digit. -/
theorem nested_integerText (i : Int) : Nested wordChar (integerText i) := by
  refine nested_of_number fun c hc => ?_
  unfold integerText at hc
  split at hc
  · rcases List.mem_cons.mp hc with rfl | hc
    · decide
    · exact isNumberChar_of_mem_decimalDigits hc
  · exact isNumberChar_of_mem_decimalDigits hc

instance : Nests wordChar Int := ⟨nested_integerText⟩

instance : Nests wordChar Nat :=
  ⟨fun _ => nested_of_number fun _ => isNumberChar_of_mem_decimalDigits⟩

instance {r : Range} : Nests wordChar (Clamped r) := ⟨fun x => nested x.value⟩

instance : Nests wordChar Percentage := ⟨fun _ => nested_dimensionText .of_all⟩

instance : Nests wordChar ClampedPercentage := ⟨fun p => nested p.percentage⟩

instance {Unit : Type} [Keyword Unit] [Nests wordChar Unit] : Nests wordChar (Dimension Unit) :=
  ⟨fun d => nested_dimensionText (nested d.unit)⟩

instance : Nests wordChar LengthUnit := ⟨fun u => by cases u <;> exact .word⟩

instance : Nests wordChar AngleUnit := ⟨fun u => by cases u <;> exact .word⟩

instance : Nests wordChar TimeUnit := ⟨fun u => by cases u <;> exact .word⟩

instance : Nests wordChar ResolutionUnit := ⟨fun u => by cases u <;> exact .word⟩

instance : Nests wordChar LengthPercentage where
  nested
    | .length l => nested l
    | .percentage p => nested p

instance [Signed α] [Nests top α] : Nests top (NonNegative α) := ⟨fun a => nested a.value⟩

/-! ### Names and strings -/

instance : Nests wordChar Identifier := ⟨fun i => nested_escapeIdentifier i.name.toList⟩

instance : Nests wordChar CustomIdent := ⟨fun i => nested i.toIdentifier⟩

instance {words : List String} : Nests wordChar (IdentExcept words) :=
  ⟨fun i => nested i.toCustomIdent⟩

instance : Nests wordChar DashedIdent := ⟨fun i => nested_escapeIdentifier i.name.toList⟩

instance : Nests phraseChar (NonEmpty CustomIdent) :=
  ⟨fun names => nested_separated names.toList⟩

instance : Nests wordChar WideKeyword := ⟨fun k => by cases k <;> exact .word⟩

instance : Nests wordChar CssString := ⟨fun s => nested_quoteString s.text.toList⟩

instance : Nests wordChar Url :=
  ⟨fun u => .call (nested_quoteString u.address.toList)⟩

end Stylesheet
