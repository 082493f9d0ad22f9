import Stylesheet.Proofs.Nesting.Value
import Stylesheet.Proofs.Number.DecimalText
import Stylesheet.Proofs.Reading.Token

/-! Texts that no property takes for a keyword of all properties.

Such a text is read as one identifier and compared whatever the case of its letters. A text
is a value's own if it is not one of those keywords, alone or with more text after something
that ends a name; then a value has a text of its own because its first part has one. -/
namespace Stylesheet

/-! ### Keywords of every property -/

/-- The keyword that a text is, read as one identifier whatever the case of its letters. -/
def readWide? (t : List Char) : Option WideKeyword :=
  (Reader.identToken.whole t).bind fun cs =>
    Keyword.all.find? fun k => equalsIgnoringCase (String.ofList cs) (Keyword.keyword k)

/-- The letters of those keywords. -/
def wideSpellings : List (List Char) :=
  [['i', 'n', 'h', 'e', 'r', 'i', 't'], ['i', 'n', 'i', 't', 'i', 'a', 'l'],
    ['u', 'n', 's', 'e', 't'], ['r', 'e', 'v', 'e', 'r', 't'],
    ['r', 'e', 'v', 'e', 'r', 't', '-', 'l', 'a', 'y', 'e', 'r']]

/-- Whatever the case of the letters. -/
def isWide (cs : List Char) : Bool := wideSpellings.contains (cs.map Char.toLower)

variable {c : Char} {t u w cs : List Char}

/-- The keywords are spelled in lower case. -/
theorem lower_mem_wideSpellings (k : WideKeyword) :
    (css k).map Char.toLower ∈ wideSpellings := by
  cases k <;> decide

/-- What is equal to a keyword but for case has its letters. -/
theorem isWide_of_equalsIgnoringCase {k : WideKeyword}
    (h : equalsIgnoringCase (String.ofList cs) (Keyword.keyword k)) : isWide cs := by
  rw [equalsIgnoringCase, String.toList_ofList, beq_iff_eq] at h
  rw [isWide, h]
  exact List.contains_iff_mem.mpr (lower_mem_wideSpellings k)

/-- Unless a name is read to the very end, there is no keyword. -/
theorem readWide?_eq_none (h : startsIdentifier t → (consumeName t).2 = [] →
    isWide (consumeName t).1 = false) : readWide? t = none := by
  unfold readWide? Reader.whole Reader.identToken
  by_cases hstart : startsIdentifier t
  · rw [if_pos hstart]
    generalize consumeName t = name at h ⊢
    obtain ⟨cs, rest⟩ := name
    cases rest with
    | cons => rfl
    | nil =>
      have hcs := h hstart rfl
      refine List.find?_eq_none.mpr fun k _ hk => ?_
      rw [isWide_of_equalsIgnoringCase hk] at hcs
      exact nomatch hcs
  · rw [if_neg hstart]
    rfl

/-- The only reading of a text that spells a name is that name. -/
theorem readWide?_of_spells (h : Spells isNameChar t cs) (hcs : isWide cs = false) :
    readWide? t = none := by
  have hread := h.consumeName .nil
  rw [List.append_nil] at hread
  refine readWide?_eq_none fun _ _ => ?_
  rw [hread]
  exact hcs

/-- No identifier is left when a name ends before the text does. -/
theorem readWide?_of_longer (h : Spells isNameChar w cs) (hc : nameEnd c) :
    readWide? (w ++ c :: u) = none := by
  refine readWide?_eq_none fun _ hend => ?_
  rw [h.consumeName (.cons hc)] at hend
  exact nomatch hend

/-- A text that begins no identifier is no keyword. -/
theorem readWide?_of_not_startsIdentifier (h : startsIdentifier t = false) :
    readWide? t = none :=
  readWide?_eq_none fun hstart => by simp [h] at hstart

/-! ### Texts of a value's own -/

/-- A text that is not read as a keyword of all properties, nor the beginning of one that is:
more may follow after what ends a name. -/
structure OwnText (t : List Char) : Prop where
  ne_nil : t ≠ []
  not_wide : readWide? t = none
  not_wide_before : ∀ c u, nameEnd c → readWide? (t ++ c :: u) = none

namespace OwnText

/-- A name that is none of the keywords. -/
theorem of_spells (h : Spells isNameChar t cs) (hne : t ≠ []) (hcs : isWide cs = false) :
    OwnText t :=
  ⟨hne, readWide?_of_spells h hcs, fun _ _ => readWide?_of_longer h⟩

/-- More than a name. -/
theorem longer (h : Spells isNameChar w cs) (hc : nameEnd c) : OwnText (w ++ c :: u) where
  ne_nil := List.append_ne_nil_of_right_ne_nil _ nofun
  not_wide := readWide?_of_longer h hc
  not_wide_before _ _ _ := by
    rw [List.append_assoc]
    exact readWide?_of_longer h hc

/-- What ends a name may follow, and anything after it. -/
theorem append (h : OwnText t) (hu : Ends nameEnd u) : OwnText (t ++ u) := by
  cases u with
  | nil => rwa [List.append_nil]
  | cons c u =>
    have hc := hu c rfl
    refine ⟨List.append_ne_nil_of_left_ne_nil h.ne_nil _, h.not_wide_before _ _ hc,
      fun _ _ _ => ?_⟩
    rw [List.append_assoc]
    exact h.not_wide_before _ _ hc

/-- The first text decides, if the separator ends a name. -/
theorem joined {separator : List Char} {texts : List (List Char)} (hc : nameEnd c)
    (hne : texts ≠ []) (h : ∀ t ∈ texts, OwnText t) :
    OwnText (joined (c :: separator) texts) := by
  obtain ⟨t, ts, rfl⟩ := List.exists_cons_of_ne_nil hne
  rw [joined_cons]
  refine (h t (List.mem_cons_self ..)).append ?_
  cases ts with
  | nil => exact .nil
  | cons => exact .cons hc

/-! ### Words -/

/-- A name that is none of the keywords, or something after a name. -/
def isWord (t : List Char) : Bool :=
  match t.dropWhile isNameChar with
  | [] => !t.isEmpty && !isWide t
  | c :: _ => nameEnd c

/-- The check of a word is one of its characters, so that it can be evaluated. -/
theorem of_isWord (h : isWord t) : OwnText t := by
  have htake : (t.takeWhile isNameChar).all isNameChar := List.all_takeWhile
  have hsplit : t.takeWhile isNameChar ++ t.dropWhile isNameChar = t :=
    List.takeWhile_append_dropWhile
  unfold isWord at h
  cases hdrop : t.dropWhile isNameChar with
  | nil =>
    rw [hdrop, List.append_nil] at hsplit
    rw [hsplit] at htake
    rw [hdrop] at h
    simp only [Bool.and_eq_true, Bool.not_eq_true', List.isEmpty_eq_false_iff] at h
    exact of_spells (Spells.of_all htake) h.1 h.2
  | cons c u =>
    rw [hdrop] at h hsplit
    rw [← hsplit]
    exact longer (Spells.of_all htake) h

theorem word {cs : List Char} (h : isWord cs := by decide) : OwnText (String.ofList cs).toList := by
  rw [String.toList_ofList]
  exact of_isWord h

/-- Something after the name that a text begins with. -/
theorem lead {cs : List Char} (h : (cs.dropWhile isNameChar).head?.any nameEnd := by decide) :
    OwnText ((String.ofList cs).toList ++ u) := by
  have htake : (cs.takeWhile isNameChar).all isNameChar := List.all_takeWhile
  rw [String.toList_ofList, ← List.takeWhile_append_dropWhile (p := isNameChar) (l := cs)]
  cases hdrop : cs.dropWhile isNameChar with
  | nil =>
    rw [hdrop] at h
    exact nomatch h
  | cons c ds =>
    rw [hdrop] at h
    rw [List.append_assoc, List.cons_append]
    exact longer (Spells.of_all htake) h

/-- The parenthesis ends the name of a function. -/
theorem call {name arguments : List Char} (h : name.all isNameChar := by decide) :
    OwnText (call (String.ofList name) arguments) := by
  rw [call_ofList]
  exact longer (Spells.of_all h) (by decide)

/-! ### Numbers -/

/-- A digit, behind a sign or not. -/
def startsNumber : List Char → Bool
  | '-' :: t => t.head?.any Char.isDigit
  | t => t.head?.any Char.isDigit

/-- A digit begins no name. -/
theorem not_isNameStart_of_isDigit (h : c.isDigit) : isNameStart c = false := by
  simp only [Char.isDigit, Bool.and_eq_true, decide_eq_true_eq] at h
  have hlast : c.toNat ≤ 57 := h.2
  cases hstart : isNameStart c with
  | false => rfl
  | true =>
    simp only [isNameStart, isAlpha_iff, Bool.or_eq_true, decide_eq_true_eq, beq_iff_eq] at hstart
    obtain ((⟨hupper, -⟩ | ⟨hlower, -⟩) | rfl) | hwide := hstart
    · have : 65 ≤ c.toNat := hupper
      omega
    · have : 97 ≤ c.toNat := hlower
      omega
    · exact absurd hlast (by decide)
    · omega

theorem not_startsName_of_isDigit (h : c.isDigit) : startsName (c :: t) = false := by
  have hescape : startsEscape (c :: t) = false := by
    unfold startsEscape
    split
    case h_1 heq =>
      cases heq
      exact absurd h (by decide)
    case h_2 => rfl
  rw [startsName, hescape, List.head?_cons, Option.any_some, not_isNameStart_of_isDigit h]
  rfl

/-- **A number begins no identifier**, with a sign or without, and whatever follows it. -/
theorem not_startsIdentifier (h : startsNumber t) : startsIdentifier (t ++ u) = false := by
  unfold startsNumber at h
  split at h
  case h_1 t =>
    cases t with
    | nil => exact nomatch h
    | cons c t =>
      have hc : c.isDigit := h
      have hdash : (some c == some '-') = false := by
        rw [Option.some_beq_some, beq_eq_false_iff_ne]
        rintro rfl
        exact absurd hc (by decide)
      show (some c == some '-' || startsName (c :: (t ++ u))) = false
      rw [hdash, not_startsName_of_isDigit hc]
      rfl
  case h_2 hdash =>
    cases t with
    | nil => exact nomatch h
    | cons c t =>
      have hc : c.isDigit := h
      unfold startsIdentifier
      split
      case h_1 heq =>
        cases heq
        exact absurd rfl (hdash t)
      case h_2 => exact not_startsName_of_isDigit hc

/-- A number is read as no keyword since it is read as no identifier. -/
theorem of_number (h : startsNumber t) : OwnText t := by
  have hread : ∀ u, readWide? (t ++ u) = none := fun u =>
    readWide?_of_not_startsIdentifier (not_startsIdentifier h)
  refine ⟨?_, ?_, fun _ _ _ => hread _⟩
  · rintro rfl
    exact nomatch h
  · have := hread []
    rwa [List.append_nil] at this

theorem head_isDigit (hne : t ≠ []) (h : ∀ c ∈ t, c.isDigit) :
    (t ++ u).head?.any Char.isDigit := by
  obtain ⟨c, t, rfl⟩ := List.exists_cons_of_ne_nil hne
  exact h c (List.mem_cons_self ..)

theorem startsNumber_of_head (h : t.head?.any Char.isDigit) : startsNumber t := by
  unfold startsNumber
  split
  · exact nomatch h
  · exact h

theorem head_decimalDigits (n : Nat) : (decimalDigits n ++ u).head?.any Char.isDigit :=
  head_isDigit Nat.toDigits_ne_nil fun _ => isDigit_of_mem_decimalDigits

/-- A decimal begins with a digit, since the whole part is never left out. -/
theorem head_positional (d : Decimal) : (d.positional ++ u).head?.any Char.isDigit := by
  rw [Decimal.positional_eq, List.append_assoc]
  exact head_isDigit d.whole_ne_nil fun _ => Decimal.isDigit_of_mem_whole

/-- So does a number, behind its sign. -/
theorem startsNumber_digits (x : Binary32) : startsNumber (x.digits ++ u) := by
  unfold Binary32.digits
  split
  · rfl
  split
  · exact head_positional _
  · exact startsNumber_of_head (head_positional _)

theorem startsNumber_integerText (i : Int) : startsNumber (integerText i) := by
  have hhead := head_decimalDigits (u := []) i.natAbs
  rw [List.append_nil] at hhead
  unfold integerText
  split
  · exact hhead
  · exact startsNumber_of_head hhead

/-- A quantity is a number in front or a call of `calc`. -/
theorem of_dimension (x : Binary32) (unit : List Char) : OwnText (dimensionText x unit) := by
  unfold dimensionText
  split
  · exact of_number (startsNumber_digits x)
  · exact .call

/-! ### Names -/

/-- Strings and the like, which begin with what no name has in it. -/
theorem of_head (hc : nameEnd c) : OwnText (c :: u) := longer .nil hc

/-- The words that custom identifiers may not spell include all the keywords. -/
theorem isWide_of_reserved (h : isWide cs) : isOneOf reservedWords (String.ofList cs) := by
  have hwords : ∀ s ∈ wideSpellings, ∃ w ∈ reservedWords, s = w.toList.map Char.toLower := by
    simp [wideSpellings, reservedWords, Keyword.all, Keyword.keyword]
  obtain ⟨w, hw, heq⟩ := hwords _ (List.contains_iff_mem.mp h)
  refine List.any_eq_true.mpr ⟨w, hw, ?_⟩
  rw [equalsIgnoringCase, String.toList_ofList, heq]
  exact beq_self_eq_true _

/-- A custom identifier reads back as its name, which is none of the keywords by construction. -/
theorem of_customIdent (i : CustomIdent) : OwnText (css i) := by
  obtain ⟨c, t, htext, -⟩ := head_identifier i.toIdentifier
  refine of_spells (spells_escapeIdentifier i.name.toList) ?_ ?_
  · show css i.toIdentifier ≠ []
    rw [htext]
    exact nofun
  · refine Bool.eq_false_iff.mpr fun hwide => ?_
    have hreserved := isWide_of_reserved hwide
    rw [show String.ofList (i.name.toList.map replaced) = i.normal.name from rfl,
      i.normal.not_reserved] at hreserved
    exact nomatch hreserved

/-- No keyword begins with a hyphen. -/
theorem of_dashedIdent (i : DashedIdent) : OwnText (css i) := by
  have hdashed := i.dashed
  unfold isDashed at hdashed
  split at hdashed
  case h_1 c t heq =>
    have hspells := spells_escapeIdentifier i.name.toList
    refine of_spells hspells ?_ ?_
    · show escapeIdentifier i.name.toList ≠ []
      rw [heq]
      exact nofun
    · rw [heq]
      rfl
  case h_2 => exact nomatch hdashed

end OwnText

/-! ### Types whose values have texts of their own -/

/-- Types all of whose values have texts of their own. -/
class Owns (α : Type) [ToCss α] : Prop where
  own (a : α) : OwnText (css a)

export Owns (own)

variable {α β : Type} [ToCss α] [ToCss β]

/-- What introduces an optional part decides what comes first, if anything does. -/
theorem ends_clause {e : Char → Bool} {lead : List Char} (a : Option α)
    (hlead : lead.head?.any e := by decide) : Ends e (clause (String.ofList lead) a) := by
  cases a with
  | none => exact .nil
  | some a =>
    rw [clause, String.toList_ofList]
    cases lead with
    | nil => exact absurd hlead Bool.false_ne_true
    | cons c lead => exact .cons hlead

/-- A list that is not empty. -/
theorem OwnText.separated {separator : List Char} [Owns α] {items : List α} (hne : items ≠ [])
    (hc : nameEnd c := by decide) :
    OwnText (separated (String.ofList (c :: separator)) items) := by
  unfold Stylesheet.separated
  rw [String.toList_ofList]
  refine .joined hc (by simpa using hne) fun t ht => ?_
  obtain ⟨a, _, rfl⟩ := List.mem_map.mp ht
  exact own a

instance [Owns α] [Owns β] : Owns (α ⊕ β) where
  own
    | .inl a => own a
    | .inr b => own b

/-- The word has to be none of the keywords of all properties. -/
theorem owns_orKeyword {word : List Char} [Owns α] (hword : OwnText.isWord word := by decide) :
    Owns (OrKeyword (String.ofList word) α) := by
  constructor
  intro a
  cases a with
  | keyword => exact .word hword
  | value a => exact own a

instance [Owns α] : Owns (OrAuto α) := owns_orKeyword

instance [Owns α] : Owns (OrNone α) := owns_orKeyword

instance [Owns α] : Owns (OrNormal α) := owns_orKeyword

/-- The word `none` is a text of its own too. -/
theorem owns_listOrNone {separator : List Char} [Owns α] (hc : nameEnd c := by decide) :
    Owns (ListOrNone (String.ofList (c :: separator)) α) := by
  constructor
  rintro ⟨items⟩
  cases items with
  | nil => exact .word
  | cons a items => exact .separated nofun hc

instance [Owns α] : Owns (ListOrNone " " α) := owns_listOrNone

instance [Owns α] : Owns (ListOrNone ", " α) := owns_listOrNone

/-- A choice of words, checked word by word. -/
theorem owns_choice {words : List String} (h : ∀ w ∈ words, OwnText w.toList) :
    Owns (Choice words) :=
  ⟨fun c => h c.word c.word_mem⟩

instance : Owns Binary32 where
  own x := by
    show OwnText (numberText x)
    unfold numberText
    split
    · have hstarts := OwnText.startsNumber_digits (u := []) x
      rw [List.append_nil] at hstarts
      exact .of_number hstarts
    · exact .call

instance : Owns Int := ⟨fun i => .of_number (OwnText.startsNumber_integerText i)⟩

instance : Owns Nat where
  own n := by
    have hhead := OwnText.head_decimalDigits (u := []) n
    rw [List.append_nil] at hhead
    exact .of_number (OwnText.startsNumber_of_head hhead)

instance {r : Range} : Owns (Clamped r) := ⟨fun x => own x.value⟩

instance : Owns Percentage := ⟨fun _ => .of_dimension ..⟩

instance : Owns ClampedPercentage := ⟨fun p => own p.percentage⟩

instance {Unit : Type} [Keyword Unit] : Owns (Dimension Unit) := ⟨fun _ => .of_dimension ..⟩

instance : Owns LengthPercentage where
  own
    | .length l => own l
    | .percentage p => own p

instance [Signed α] [Owns α] : Owns (NonNegative α) := ⟨fun a => own a.value⟩

instance : Owns CustomIdent := ⟨OwnText.of_customIdent⟩

instance : Owns DashedIdent := ⟨OwnText.of_dashedIdent⟩

instance : Owns CssString := ⟨fun _ => .of_head (by decide)⟩

instance : Owns Url := ⟨fun _ => .call⟩

end Stylesheet
