import Stylesheet.Paint.HexNotation
import Stylesheet.Proofs.Equality.Color
import Stylesheet.Proofs.Reading.Escape

/-! Hexadecimal colors and their notation.

The notation is read exactly where the grammar has it, and what is written for a color is
the shortest of its notations. Reading by the positions of bytes comes to the same and never
halts: where all bytes are digits, every position is between characters. -/
namespace Stylesheet

variable {c : Char} {t digits : List Char}

/-! ### Digits -/

theorem toNat_lt_of_isHexDigit (h : isHexDigit c) : c.toNat < 128 := by
  simp only [isHexDigit, Char.isDigit, Bool.or_eq_true, Bool.and_eq_true, decide_eq_true_eq] at h
  obtain (⟨-, h⟩ | ⟨-, h⟩) | ⟨-, h⟩ := h
  all_goals exact Nat.lt_of_le_of_lt (UInt32.le_iff_toNat_le.mp h) (by decide)

/-- Checked for all characters of ASCII. -/
theorem hexValue_lt (h : isHexDigit c) : hexValue c < 16 :=
  of_ascii (p := fun c => isHexDigit c → hexValue c < 16) (by decide) (toNat_lt_of_isHexDigit h) h

theorem utf8Size_of_isHexDigit (h : isHexDigit c) : c.utf8Size = 1 :=
  of_ascii (p := fun c => isHexDigit c → c.utf8Size = 1) (by decide) (toNat_lt_of_isHexDigit h) h

namespace Color

/-- The value of a digit, as the byte that it is used as. -/
def nibble (c : Char) : UInt8 := UInt8.ofNat (hexValue c)

theorem toNat_nibble (h : isHexDigit c) : (nibble c).toNat = hexValue c := by
  have hlt := hexValue_lt h
  rw [nibble, UInt8.toNat_ofNat']
  omega

theorem hexDigit?_eq_some (h : isHexDigit c) : hexDigit? c = some (nibble c) :=
  of_ascii (p := fun c => isHexDigit c → hexDigit? c = some (nibble c)) (by decide)
    (toNat_lt_of_isHexDigit h) h

theorem hexDigit?_eq_none (h : isHexDigit c = false) : hexDigit? c = none := by
  have hdigit : c.isDigit = ('0' ≤ c && c ≤ '9') := rfl
  rw [isHexDigit, Bool.or_eq_false_iff, Bool.or_eq_false_iff, hdigit] at h
  rw [hexDigit?, h.1.1, h.1.2, h.2]
  rfl

/-- Digits are read if all of them are digits. -/
theorem mapM_hexDigit?_eq (t : List Char) :
    t.mapM hexDigit? = if t.all isHexDigit then some (t.map nibble) else none := by
  induction t with
  | nil => rfl
  | cons c t ih =>
    cases hc : isHexDigit c with
    | true =>
      rw [List.mapM_cons, hexDigit?_eq_some hc, ih, List.all_cons, hc]
      cases t.all isHexDigit <;> rfl
    | false =>
      rw [List.mapM_cons, hexDigit?_eq_none hc, List.all_cons, hc]
      rfl

end Color

/-! ### The grammar -/

/-- Three, four, six or eight digits, after a hash sign or not. -/
structure HexNotation (t digits : List Char) : Prop where
  text_eq : t = digits ∨ t = '#' :: digits
  all_isHexDigit : digits.all isHexDigit
  length_mem : digits.length ∈ [3, 4, 6, 8]

/-- The digits two by two. -/
def digitPairs : List Char → List (Char × Char)
  | high :: low :: digits => (high, low) :: digitPairs digits
  | _ => []

/-- The two digits of each channel, which are the same in the short forms. -/
def channelDigits (digits : List Char) : List (Char × Char) :=
  if digits.length ≤ 4 then digits.map fun c => (c, c) else digitPairs digits

/-- The digits give the channels, and there is alpha in the forms of four and eight. -/
structure HasChannels (digits : List Char) (r g b : UInt8) (a : Option UInt8) : Prop where
  channels_eq : ([r, g, b] ++ a.toList).map UInt8.toNat =
    (channelDigits digits).map fun (high, low) => 16 * hexValue high + hexValue low
  alpha_iff : a.isSome ↔ digits.length = 4 ∨ digits.length = 8

/-- Digits stand for one color. -/
theorem HasChannels.unique {r g b r' g' b' : UInt8} {a a' : Option UInt8}
    (h : HasChannels digits r g b a) (h' : HasChannels digits r' g' b' a') :
    Color.hex r g b a = .hex r' g' b' a' := by
  have hnat := h.channels_eq.trans h'.channels_eq.symm
  have heq := (List.map_inj_right fun _ _ => UInt8.toNat_inj.mp).mp hnat
  simp only [List.cons_append, List.nil_append, List.cons.injEq] at heq
  obtain ⟨rfl, rfl, rfl, ha⟩ := heq
  rw [← Option.head?_toList (o := a), ha, Option.head?_toList]

namespace Color
variable {r g b : UInt8} {a : Option UInt8}

/-- The text behind the first hash sign. -/
def digitsOf (t : List Char) : List Char :=
  match t with
  | '#' :: rest => rest
  | all => all

theorem digitsOf_eq (h : t = digits ∨ t = '#' :: digits) (hdigits : digits.all isHexDigit) :
    digitsOf t = digits := by
  obtain rfl | rfl := h
  · unfold digitsOf
    split
    case h_1 => exact absurd hdigits (by simp [isHexDigit])
    case h_2 => rfl
  · rfl

/-- What is left behind the number sign, which may be missing. -/
theorem eq_digitsOf (t : List Char) : t = digitsOf t ∨ t = '#' :: digitsOf t := by
  unfold digitsOf
  split
  case h_1 => exact .inr rfl
  case h_2 => exact .inl rfl

/-- **The grammar can be decided**: the digits are what is left, and only their kind and their
number matter. -/
theorem hexNotation_iff :
    HexNotation t digits ↔
      digits = digitsOf t ∧ digits.all isHexDigit ∧ digits.length ∈ [3, 4, 6, 8] := by
  constructor
  · rintro ⟨htext, hdigits, hlength⟩
    exact ⟨(digitsOf_eq htext hdigits).symm, hdigits, hlength⟩
  · rintro ⟨rfl, hdigits, hlength⟩
    exact ⟨eq_digitsOf t, hdigits, hlength⟩

/-- A digit of the short form stands twice. -/
theorem toNat_doubled (h : isHexDigit c) :
    (nibble c * 17).toNat = 16 * hexValue c + hexValue c := by
  have hlt := hexValue_lt h
  simp only [UInt8.toNat_mul, toNat_nibble h, UInt8.reduceToNat]
  omega

/-- Two digits make a byte. -/
theorem toNat_pair {high low : Char} (hhigh : isHexDigit high) (hlow : isHexDigit low) :
    (nibble high * 16 + nibble low).toNat = 16 * hexValue high + hexValue low := by
  have hlt := hexValue_lt hhigh
  have hlt' := hexValue_lt hlow
  simp only [UInt8.toNat_add, UInt8.toNat_mul, toNat_nibble hhigh, toNat_nibble hlow,
    UInt8.reduceToNat]
  omega

/-- Four lengths of notation, and no other. -/
theorem ofNibbles?_eq_none {ns : List UInt8} (h : ns.length ∉ [3, 4, 6, 8]) :
    ofNibbles? ns = none := by
  unfold ofNibbles?
  split
  all_goals first | rfl | exact absurd (by simp) h

/-- The four lengths, written out. -/
theorem exists_of_length (h : digits.length ∈ [3, 4, 6, 8]) :
    (∃ c₁ c₂ c₃, digits = [c₁, c₂, c₃]) ∨ (∃ c₁ c₂ c₃ c₄, digits = [c₁, c₂, c₃, c₄]) ∨
      (∃ c₁ d₁ c₂ d₂ c₃ d₃, digits = [c₁, d₁, c₂, d₂, c₃, d₃]) ∨
      ∃ c₁ d₁ c₂ d₂ c₃ d₃ c₄ d₄, digits = [c₁, d₁, c₂, d₂, c₃, d₃, c₄, d₄] := by
  match digits with
  | [c₁, c₂, c₃] => exact .inl ⟨c₁, c₂, c₃, rfl⟩
  | [c₁, c₂, c₃, c₄] => exact .inr (.inl ⟨c₁, c₂, c₃, c₄, rfl⟩)
  | [c₁, d₁, c₂, d₂, c₃, d₃] => exact .inr (.inr (.inl ⟨c₁, d₁, c₂, d₂, c₃, d₃, rfl⟩))
  | [c₁, d₁, c₂, d₂, c₃, d₃, c₄, d₄] =>
    exact .inr (.inr (.inr ⟨c₁, d₁, c₂, d₂, c₃, d₃, c₄, d₄, rfl⟩))
  | [] | [_] | [_, _] | [_, _, _, _, _] | [_, _, _, _, _, _, _]
  | _ :: _ :: _ :: _ :: _ :: _ :: _ :: _ :: _ :: _ => simp at h

/-- For each of the lengths there is a color, and it has the channels that the digits say. -/
theorem exists_ofNibbles? (hdigits : digits.all isHexDigit)
    (hlength : digits.length ∈ [3, 4, 6, 8]) :
    ∃ r g b a, ofNibbles? (digits.map nibble) = some (hex r g b a) ∧
      HasChannels digits r g b a := by
  rcases exists_of_length hlength with ⟨c₁, c₂, c₃, rfl⟩ | ⟨c₁, c₂, c₃, c₄, rfl⟩ |
    ⟨c₁, d₁, c₂, d₂, c₃, d₃, rfl⟩ | ⟨c₁, d₁, c₂, d₂, c₃, d₃, c₄, d₄, rfl⟩ <;>
    simp only [List.all_cons, Bool.and_eq_true] at hdigits
  · obtain ⟨h₁, h₂, h₃, -⟩ := hdigits
    refine ⟨_, _, _, _, rfl, ?_, by simp⟩
    simp [channelDigits, toNat_doubled, h₁, h₂, h₃, -UInt8.toNat_mul]
  · obtain ⟨h₁, h₂, h₃, h₄, -⟩ := hdigits
    refine ⟨_, _, _, _, rfl, ?_, by simp⟩
    simp [channelDigits, toNat_doubled, h₁, h₂, h₃, h₄, -UInt8.toNat_mul]
  · obtain ⟨h₁, h₁', h₂, h₂', h₃, h₃', -⟩ := hdigits
    refine ⟨_, _, _, _, rfl, ?_, by simp⟩
    simp [channelDigits, digitPairs, toNat_pair, h₁, h₁', h₂, h₂', h₃, h₃', -UInt8.toNat_add]
  · obtain ⟨h₁, h₁', h₂, h₂', h₃, h₃', h₄, h₄', -⟩ := hdigits
    refine ⟨_, _, _, _, rfl, ?_, by simp⟩
    simp [channelDigits, digitPairs, toNat_pair, h₁, h₁', h₂, h₂', h₃, h₃', h₄, h₄',
      -UInt8.toNat_add]

/-! ### What is read -/

theorem ofHex_eq (text : String) :
    ofHex text = match (digitsOf text.toList).mapM hexDigit? >>= ofNibbles? with
      | some color => .ok color
      | none => .error (.invalidHexColor text) := rfl

/-- Digits of the grammar are read as the channels. -/
theorem ofHex_wellFormed {text : String} (h : HexNotation text.toList digits) :
    ∃ r g b a, ofHex text = .ok (hex r g b a) ∧ HasChannels digits r g b a := by
  obtain ⟨rfl, hdigits, hlength⟩ := hexNotation_iff.mp h
  obtain ⟨r, g, b, a, hread, hchannels⟩ := exists_ofNibbles? hdigits hlength
  refine ⟨r, g, b, a, ?_, hchannels⟩
  rw [ofHex_eq, mapM_hexDigit?_eq, if_pos hdigits]
  simp [hread]

/-- Other texts are handed back. -/
theorem ofHex_malformed {text : String} (h : ¬∃ digits, HexNotation text.toList digits) :
    ofHex text = .error (.invalidHexColor text) := by
  rw [ofHex_eq, mapM_hexDigit?_eq]
  cases hdigits : (digitsOf text.toList).all isHexDigit with
  | false => rfl
  | true =>
    have hlength : ((digitsOf text.toList).map nibble).length ∉ [3, 4, 6, 8] := by
      rw [List.length_map]
      exact fun hlength => h ⟨_, hexNotation_iff.mpr ⟨rfl, hdigits, hlength⟩⟩
    simp [ofNibbles?_eq_none hlength]

theorem ofHex_eq_ok_iff {text : String} {color : Color} :
    ofHex text = .ok color ↔ ∃ digits r g b a, HexNotation text.toList digits ∧
      HasChannels digits r g b a ∧ color = hex r g b a := by
  constructor
  · intro h
    by_cases hform : ∃ digits, HexNotation text.toList digits
    case neg =>
      rw [ofHex_malformed hform] at h
      exact nomatch h
    obtain ⟨digits, hform⟩ := hform
    obtain ⟨r, g, b, a, hread, hchannels⟩ := ofHex_wellFormed hform
    exact ⟨digits, r, g, b, a, hform, hchannels, Except.ok.inj (h.symm.trans hread)⟩
  · rintro ⟨digits, r, g, b, a, hform, hchannels, rfl⟩
    obtain ⟨r', g', b', a', hread, hchannels'⟩ := ofHex_wellFormed hform
    rw [hread, hchannels.unique hchannels']

theorem ofHex_eq_error_iff {text : String} {e : Error} :
    ofHex text = .error e ↔
      (¬∃ digits, HexNotation text.toList digits) ∧ e = .invalidHexColor text := by
  constructor
  · intro h
    have hform : ¬∃ digits, HexNotation text.toList digits := by
      rintro ⟨digits, hform⟩
      obtain ⟨r, g, b, a, hread, -⟩ := ofHex_wellFormed hform
      rw [hread] at h
      exact nomatch h
    rw [ofHex_malformed hform] at h
    exact ⟨hform, (Except.error.inj h).symm⟩
  · rintro ⟨hform, rfl⟩
    exact ofHex_malformed hform

/-! ### What is written -/

/-- A channel has two digits at most. -/
theorem length_nibbles_le (channels : List UInt8) :
    (nibbles channels).length ≤ 2 * channels.length := by
  unfold nibbles
  split
  · rw [List.length_map]
    omega
  · simp [List.length_flatMap, List.map_const', Nat.mul_comm]

theorem length_nibbles_of_same {channels : List UInt8} (h : ∀ c ∈ channels, c / 16 = c % 16) :
    (nibbles channels).length = channels.length := by
  rw [nibbles, if_pos (List.all_eq_true.mpr fun c hc => beq_iff_eq.mpr (h c hc)), List.length_map]

/-- The digit of a channel in a short form is both of its digits. -/
theorem same_of_hasChannels (h : HasChannels digits r g b a) (hshort : digits.length ≤ 4) :
    ∀ c ∈ [r, g, b] ++ a.toList, c / 16 = c % 16 := by
  intro c hc
  have hmem := List.mem_map_of_mem (f := UInt8.toNat) hc
  rw [h.channels_eq, channelDigits, if_pos hshort, List.map_map] at hmem
  obtain ⟨d, -, hd⟩ := List.mem_map.mp hmem
  have hlt := c.toNat_lt
  apply UInt8.toNat_inj.mp
  simp only [Function.comp] at hd
  simp only [UInt8.toNat_div, UInt8.toNat_mod, UInt8.reduceToNat]
  omega

/-- There are one or two digits for each channel. -/
theorem length_of_hasChannels (h : HasChannels digits r g b a)
    (hlength : digits.length ∈ [3, 4, 6, 8]) :
    digits.length = ([r, g, b] ++ a.toList).length ∨
      digits.length = 2 * ([r, g, b] ++ a.toList).length := by
  have halpha := h.alpha_iff
  simp only [List.mem_cons, List.not_mem_nil, or_false] at hlength
  cases a with
  | none =>
    have hnone : ¬(digits.length = 4 ∨ digits.length = 8) := fun h => nomatch halpha.mpr h
    show _ = 3 ∨ _ = 2 * 3
    omega
  | some a =>
    have hsome : digits.length = 4 ∨ digits.length = 8 := halpha.mp rfl
    show _ = 4 ∨ _ = 2 * 4
    omega

/-- No notation of a color has fewer digits. -/
theorem length_nibbles_le_of_hasChannels (h : HasChannels digits r g b a)
    (hlength : digits.length ∈ [3, 4, 6, 8]) :
    (nibbles ([r, g, b] ++ a.toList)).length ≤ digits.length := by
  rcases length_of_hasChannels h hlength with hshort | hlong
  · have hcount : ([r, g, b] ++ a.toList).length ≤ 4 := by
      cases a <;> simp
    have hsame := length_nibbles_of_same (same_of_hasChannels h (hshort ▸ hcount))
    exact Nat.le_of_eq (hsame.trans hshort.symm)
  · rw [hlong]
    exact length_nibbles_le _

/-! ### Positions of bytes -/

/-- A character is a digit if its bytes are, since no longer character has such bytes. -/
theorem all_isHexByte (c : Char) : (String.utf8EncodeChar c).all isHexByte = isHexDigit c := by
  by_cases hascii : c.toNat < 128
  case pos =>
    exact of_ascii (p := fun c => (String.utf8EncodeChar c).all isHexByte = isHexDigit c)
      (by decide) hascii
  case neg =>
    -- more than one byte, the first of which is above all of ASCII
    have hdigit : isHexDigit c = false :=
      Bool.eq_false_iff.mpr fun h => hascii (toNat_lt_of_isHexDigit h)
    have hlarge : ∀ n < 256, 192 ≤ n → isHexByte (UInt8.ofNat n) = false := by decide +kernel
    have hsize : ¬c.val.toNat ≤ 127 := fun h => hascii (Nat.lt_succ_of_le h)
    rw [hdigit, String.utf8EncodeChar]
    simp only [if_neg hsize]
    split
    · rw [List.all_cons, hlarge _ (by omega) (by omega), Bool.false_and]
    split
    · rw [List.all_cons, hlarge _ (by omega) (by omega), Bool.false_and]
    · rw [List.all_cons, hlarge _ (by omega) (by omega), Bool.false_and]

theorem all_isHexByte_utf8Bytes (t : List Char) :
    (utf8Bytes t).all isHexByte = t.all isHexDigit := by
  rw [utf8Bytes, List.all_flatMap]
  exact congrArg t.all (funext all_isHexByte)

theorem length_utf8Bytes (h : t.all isHexDigit) : (utf8Bytes t).length = t.length := by
  induction t with
  | nil => rfl
  | cons c t ih =>
    rw [List.all_cons, Bool.and_eq_true] at h
    rw [utf8Bytes, List.flatMap_cons, List.length_append, String.length_utf8EncodeChar,
      utf8Size_of_isHexDigit h.1, List.length_cons, Nat.add_comm]
    exact congrArg (· + 1) (ih h.2)

/-- Among digits every position is between characters. -/
theorem splitAtByte?_eq {n : Nat} (h : t.all isHexDigit) (hn : n ≤ t.length) :
    splitAtByte? t n = some (t.take n, t.drop n) := by
  induction t generalizing n with
  | nil =>
    obtain rfl := Nat.le_zero.mp hn
    rfl
  | cons c t ih =>
    rw [List.all_cons, Bool.and_eq_true] at h
    cases n with
    | zero => rfl
    | succ n =>
      rw [splitAtByte?, utf8Size_of_isHexDigit h.1, if_pos (Nat.le_add_left 1 n),
        Nat.add_sub_cancel, ih h.2 (Nat.le_of_succ_le_succ hn)]
      rfl

/-- A slice by bytes is one by characters where all are digits. -/
theorem slice?_eq {start length : Nat} (h : digits.all isHexDigit)
    (hn : start + length ≤ digits.length) :
    slice? digits start length = some ((digits.drop start).take length) := by
  have hdrop : (digits.drop start).all isHexDigit := by
    rw [List.all_eq_true] at h ⊢
    exact fun c hc => h c (List.mem_of_mem_drop hc)
  have hlength : length ≤ (digits.drop start).length := by
    rw [List.length_drop]
    omega
  simp [slice?, splitAtByte?_eq h (Nat.le_trans (Nat.le_add_right ..) hn),
    splitAtByte?_eq hdrop hlength]

theorem byteOfNat?_eq {n : Nat} {byte : UInt8} (h : byte.toNat = n) :
    byteOfNat? n = some byte := by
  subst h
  rw [byteOfNat?, if_pos byte.toNat_lt]
  exact congrArg some (UInt8.ofNat_toNat)

/-- The sign that numbers may have is no digit. -/
theorem ne_plus_of_isHexDigit (h : isHexDigit c) : c ≠ '+' := by
  rintro rfl
  exact absurd h (by decide)

theorem hexNumber?_digit (h : isHexDigit c) : hexNumber? [c] = some (nibble c) := by
  simp [hexNumber?, ne_plus_of_isHexDigit h, hexDigit?_eq_some h, byteOfNat?_eq rfl]

/-- Two digits are read as one number. -/
theorem hexNumber?_pair {high low : Char} (hhigh : isHexDigit high) (hlow : isHexDigit low) :
    hexNumber? [high, low] = some (nibble high * 16 + nibble low) := by
  have hnumber : (nibble high * 16 + nibble low).toNat =
      (nibble high).toNat * 16 + (nibble low).toNat := by
    rw [toNat_pair hhigh hlow, toNat_nibble hhigh, toNat_nibble hlow, Nat.mul_comm]
  simp [hexNumber?, ne_plus_of_isHexDigit hhigh, hexDigit?_eq_some, hhigh, hlow,
    byteOfNat?_eq rfl, byteOfNat?_eq hnumber]

section
variable {text : String} {i : Nat}

/-- What is there is handed on. -/
theorem some_bind {α β : Type} (a : α) (f : α → Halting β) :
    (liftM (some a) : Halting α) >>= f = f a := rfl

theorem isHexDigit_of_getElem? (hdigits : digits.all isHexDigit) (hc : digits[i]? = some c) :
    isHexDigit c :=
  List.all_eq_true.mp hdigits c (List.mem_of_getElem? hc)

theorem byteAt_digit (hdigits : digits.all isHexDigit) (hc : digits[i]? = some c) :
    byteAt text digits i 1 = pure (nibble c) := by
  obtain ⟨hlt, rfl⟩ := List.getElem?_eq_some_iff.mp hc
  have hpart : slice? digits i 1 = some [digits[i]] := by
    rw [slice?_eq hdigits hlt, List.drop_eq_getElem_cons hlt]
    rfl
  rw [byteAt, hpart, some_bind, hexNumber?_digit (isHexDigit_of_getElem? hdigits hc)]

/-- So a slice of two digits is a byte. -/
theorem byteAt_pair {high low : Char} (hdigits : digits.all isHexDigit)
    (hhigh : digits[i]? = some high) (hlow : digits[i + 1]? = some low) :
    byteAt text digits i 2 = pure (nibble high * 16 + nibble low) := by
  obtain ⟨hlt, rfl⟩ := List.getElem?_eq_some_iff.mp hhigh
  obtain ⟨hlt', rfl⟩ := List.getElem?_eq_some_iff.mp hlow
  have hpart : slice? digits i 2 = some [digits[i], digits[i + 1]] := by
    rw [slice?_eq hdigits hlt', List.drop_eq_getElem_cons hlt, List.drop_eq_getElem_cons hlt']
    rfl
  rw [byteAt, hpart, some_bind, hexNumber?_pair (isHexDigit_of_getElem? hdigits hhigh)
    (isHexDigit_of_getElem? hdigits hlow)]

theorem doubledAt_digit (hdigits : digits.all isHexDigit) (hc : digits[i]? = some c) :
    doubledAt text digits i = pure (nibble c * 17) := by
  have hdigit := isHexDigit_of_getElem? hdigits hc
  have hnumber : (nibble c * 17).toNat = (nibble c).toNat * 17 := by
    rw [toNat_doubled hdigit, toNat_nibble hdigit]
    omega
  rw [doubledAt, byteAt_digit hdigits hc, pure_bind, byteOfNat?_eq hnumber]
  rfl

/-- **Reading by positions agrees with reading by digits.** All positions are at the ends of
characters, and nothing halts. -/
theorem ofDigitBytes_eq (hdigits : digits.all isHexDigit) :
    ofDigitBytes text digits = match ofNibbles? (digits.map nibble) with
      | some color => pure color
      | none => throw (.invalidHexColor text) := by
  have hlength := length_utf8Bytes hdigits
  -- Digits are one byte each, so that the number of bytes says which notation it is.
  by_cases hmem : digits.length ∈ [3, 4, 6, 8]
  case neg =>
    rw [ofNibbles?_eq_none (by rwa [List.length_map])]
    rw [← hlength] at hmem
    unfold ofDigitBytes
    split
    case h_5 => rfl
    all_goals
      rename_i heq
      simp [heq] at hmem
  unfold ofDigitBytes
  rw [hlength]
  rcases exists_of_length hmem with ⟨c₁, c₂, c₃, rfl⟩ | ⟨c₁, c₂, c₃, c₄, rfl⟩ |
    ⟨c₁, d₁, c₂, d₂, c₃, d₃, rfl⟩ | ⟨c₁, d₁, c₂, d₂, c₃, d₃, c₄, d₄, rfl⟩ <;>
    simp only [List.length_cons, List.length_nil, Nat.reduceAdd]
  · simp only [doubledAt_digit hdigits (i := 0) rfl, doubledAt_digit hdigits (i := 1) rfl,
      doubledAt_digit hdigits (i := 2) rfl, pure_bind]
    rfl
  · simp only [doubledAt_digit hdigits (i := 0) rfl, doubledAt_digit hdigits (i := 1) rfl,
      doubledAt_digit hdigits (i := 2) rfl, doubledAt_digit hdigits (i := 3) rfl, pure_bind]
    rfl
  · simp only [byteAt_pair hdigits (i := 0) rfl rfl, byteAt_pair hdigits (i := 2) rfl rfl,
      byteAt_pair hdigits (i := 4) rfl rfl, pure_bind]
    rfl
  · simp only [byteAt_pair hdigits (i := 0) rfl rfl, byteAt_pair hdigits (i := 2) rfl rfl,
      byteAt_pair hdigits (i := 4) rfl rfl, byteAt_pair hdigits (i := 6) rfl rfl, pure_bind]
    rfl

end

/-- **Reading by positions halts for no text** and reads what there is to read. -/
theorem ofHexBytes_run (text : String) : (ofHexBytes text).run = some (ofHex text) := by
  have hbytes : ofHexBytes text = if (utf8Bytes (digitsOf text.toList)).all isHexByte then
      ofDigitBytes text (digitsOf text.toList) else throw (.invalidHexColor text) := rfl
  rw [hbytes, all_isHexByte_utf8Bytes, ofHex_eq, mapM_hexDigit?_eq]
  cases hdigits : (digitsOf text.toList).all isHexDigit with
  | false => rfl
  | true =>
    rw [if_pos rfl, if_pos rfl, ofDigitBytes_eq hdigits, Option.bind_eq_bind, Option.bind_some]
    cases ofNibbles? ((digitsOf text.toList).map nibble) <;> rfl

/-! ### Notation and colors -/

/-- What is written is in lower case. -/
theorem map_toLower_hexText (channels : List UInt8) :
    (hexText channels).map Char.toLower = hexText channels := by
  have hlower : ∀ n < 16, (Nat.digitChar n).toLower = Nat.digitChar n := by decide
  rw [hexText_eq, List.map_cons, List.map_map]
  refine congrArg ('#' :: ·) (List.map_congr_left fun n hn => ?_)
  exact hlower n.toNat (lt_of_mem_nibbles hn)

/-- Nothing shorter begins with a hash sign and is read as the color. -/
theorem length_css_le {t : List Char}
    (h : ofHex (String.ofList ('#' :: t)) = .ok (hex r g b a)) :
    (css (hex r g b a)).length ≤ ('#' :: t).length := by
  obtain ⟨digits, r', g', b', a', hform, hchannels, heq⟩ := ofHex_eq_ok_iff.mp h
  obtain ⟨rfl, rfl, rfl, rfl⟩ := hex.inj heq
  rw [String.toList_ofList] at hform
  obtain ⟨rfl, -, hlength⟩ := hexNotation_iff.mp hform
  have hle := length_nibbles_le_of_hasChannels hchannels hlength
  show (hexText _).length ≤ _
  rw [hexText_eq, List.length_cons, List.length_map]
  exact Nat.succ_le_succ hle

/-- **Hexadecimal colors are read exactly where the grammar has them, and are written back in
the shortest way.** Reading takes parts of the text by the positions of bytes and never halts.
It gives the channels of the digits and alpha where there are four or eight; any other text is
handed back in an error. What is written is in lower case, reads as the same color, and no
text with a hash sign that does is shorter. -/
theorem ofHex_grammar :
    (∀ text, (ofHexBytes text).run = some (ofHex text)) ∧
    (∀ text color, ofHex text = .ok color ↔ ∃ digits r g b a, HexNotation text.toList digits ∧
      HasChannels digits r g b a ∧ color = hex r g b a) ∧
    (∀ text e, ofHex text = .error e ↔
      (¬∃ digits, HexNotation text.toList digits) ∧ e = .invalidHexColor text) ∧
    ∀ r g b a, ofHex (cssString (hex r g b a)) = .ok (hex r g b a) ∧
      (css (hex r g b a)).map Char.toLower = css (hex r g b a) ∧
      ∀ t, ofHex (String.ofList ('#' :: t)) = .ok (hex r g b a) →
        (css (hex r g b a)).length ≤ ('#' :: t).length :=
  ⟨ofHexBytes_run, fun _ _ => ofHex_eq_ok_iff, fun _ _ => ofHex_eq_error_iff,
    fun r g b a => ⟨ofHex_css r g b a, map_toLower_hexText _, fun _ => length_css_le⟩⟩

/-- Only alpha needs both of its digits. -/
theorem ofHex_grammar_alpha :
    ofHex "#FFFFFF0f" = .ok (hex 255 255 255 (some 15)) ∧
      cssString (hex 255 255 255 (some 15)) = "#ffffff0f" ∧
      (css (hex 255 255 255 (some 15))).length ≤ "#FFFFFF0f".length := by
  have hread : ofHex (String.ofList ('#' :: "FFFFFF0f".toList)) = .ok (hex 255 255 255 (some 15)) :=
    rfl
  have hleast := (ofHex_grammar.2.2.2 255 255 255 (some 15)).2.2 _ hread
  exact ⟨hread, rfl, hleast⟩

end Color
end Stylesheet
