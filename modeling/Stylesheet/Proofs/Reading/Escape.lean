import Stylesheet.Proofs.Reading.Reader
import Stylesheet.Proofs.Reading.Spelling

/-! Names and strings read back.

An escape is a backslash with one to six hexadecimal digits and at most one space after
them, or with any other character. Reading goes character by character; what an escape has
so far is its state. Escaped text reads as the text before, but for the null character,
which reads as the replacement character. -/
namespace Stylesheet

/-- The value of a hexadecimal digit, in either case. -/
def hexValue (c : Char) : Nat :=
  if c.isDigit then c.toNat - 48 else if 'a' ≤ c then c.toNat - 87 else c.toNat - 55

/-- The character of a code point, if it has one that can be escaped. -/
def escapedChar (n : Nat) : Char := if n ≠ 0 ∧ n.isValidChar then Char.ofNat n else '\ufffd'

/-- What may end an escape. -/
def isSpace (c : Char) : Bool := c == ' ' || c == '\t' || isNewline c

/-- Where a reader of escaped text stands. -/
inductive EscapeState where
  | plain
  | backslash
  | hex (count value : Nat)

/-- What the next character does: some output and a new state, or the end before it. -/
inductive EscapeStep where
  | go (out : List Char) (state : EscapeState)
  | stop (out : List Char)
  | fail

namespace EscapeStep

/-- Outside of an escape a character is taken, ends the text, or begins an escape. -/
def plain (accepts : Char → Bool) (c : Char) : EscapeStep :=
  if c = '\\' then go [] .backslash else if accepts c then go [c] .plain else stop []

/-- The same step, after the character of a finished escape. -/
def after (d : Char) : EscapeStep → EscapeStep
  | go out state => go (d :: out) state
  | stop out => stop (d :: out)
  | fail => fail

/-- One character, whatever has been read of an escape. -/
def next (accepts : Char → Bool) : EscapeState → Char → EscapeStep
  | .plain, c => plain accepts c
  | .backslash, c =>
    if isHexDigit c then go [] (.hex 1 (hexValue c))
    else if isNewline c then fail else go [c] .plain
  | .hex count value, c =>
    if isHexDigit c && decide (count < 6) then go [] (.hex (count + 1) (16 * value + hexValue c))
    else if isSpace c then go [escapedChar value] .plain
    else (plain accepts c).after (escapedChar value)

end EscapeStep

/-- An escape that the text ends in. -/
def EscapeState.finish : EscapeState → List Char
  | plain => []
  | backslash => ['\ufffd']
  | hex _ value => [escapedChar value]

/-- Reads escaped text as long as its bare characters are accepted. -/
def unescape (accepts : Char → Bool) :
    EscapeState → List Char → Option (List Char × List Char)
  | state, [] => some (state.finish, [])
  | state, c :: t =>
    match EscapeStep.next accepts state c with
    | .go out state => (unescape accepts state t).map fun (cs, rest) => (out ++ cs, rest)
    | .stop out => some (out, c :: t)
    | .fail => none

/-- The characters that a name spells. -/
def Reader.name : Reader (List Char) := fun t => unescape isNameChar .plain t

/-- Characters between quotes. -/
def Reader.string : Reader (List Char) := do
  expect ['"']
  let cs ← fun t => unescape isStringChar .plain t
  expect ['"']
  return cs

def Reader.identifier : Reader Identifier :=
  name.pick fun cs => (Identifier.of (String.ofList cs)).toOption

/-- A name that custom identifiers may have. -/
def Reader.customIdent : Reader CustomIdent :=
  name.pick fun cs => (CustomIdent.of (String.ofList cs)).toOption

/-- Where a name ends. -/
def nameEnd (c : Char) : Bool := !isNameChar c && c != '\\'

variable {accepts : Char → Bool} {t : List Char} {c : Char}

/-! ### Reading one escape -/

/-- A character that is taken in, and then the rest. -/
theorem unescape_go {state state' : EscapeState} {out : List Char}
    (h : EscapeStep.next accepts state c = .go out state') :
    unescape accepts state (c :: t) =
      (unescape accepts state' t).map fun (cs, rest) => (out ++ cs, rest) := by
  rw [unescape, h]

theorem hexValue_digitChar {n : Nat} (h : n < 16) : hexValue n.digitChar = n := by
  have hall : ∀ m ∈ List.range 16, hexValue m.digitChar = m := by decide
  exact hall n (List.mem_range.mpr h)

/-- The digits of a number read back as the number. -/
theorem foldl_hexValue (n : Nat) :
    (Nat.toDigits 16 n).foldl (fun value d => 16 * value + hexValue d) 0 = n := by
  induction n using Nat.strongRecOn with
  | ind n ih =>
    rw [Nat.toDigits_eq_if (by omega)]
    split
    case isTrue h => simp [hexValue_digitChar h]
    case isFalse h =>
      have hmod : n % 16 < 16 := Nat.mod_lt n (by omega)
      simp only [List.foldl_append, List.foldl_cons, List.foldl_nil, hexValue_digitChar hmod,
        ih (n / 16) (by omega)]
      omega

/-- The reader takes six digits at most, and the space behind them. -/
theorem unescape_hexDigits {ds : List Char} {count value : Nat} (hds : ∀ d ∈ ds, isHexDigit d)
    (hcount : count + ds.length ≤ 6) :
    unescape accepts (.hex count value) (ds ++ ' ' :: t) =
      (unescape accepts .plain t).map fun (cs, rest) =>
        (escapedChar (ds.foldl (fun value d => 16 * value + hexValue d) value) :: cs, rest) := by
  induction ds generalizing count value with
  | nil =>
    have hstep : EscapeStep.next accepts (.hex count value) ' ' =
        .go [escapedChar value] .plain := rfl
    exact unescape_go hstep
  | cons d ds ih =>
    rw [List.forall_mem_cons] at hds
    rw [List.length_cons] at hcount
    have hlt : count < 6 := by omega
    have hstep : EscapeStep.next accepts (.hex count value) d =
        .go [] (.hex (count + 1) (16 * value + hexValue d)) := by
      simp [EscapeStep.next, hds.1, hlt]
    rw [List.cons_append, unescape_go hstep, ih hds.2 (by omega), Option.map_map]
    rfl

/-- Only the null character does not read back from its code point. -/
theorem escapedChar_toNat (h : c ≠ '\x00') : escapedChar c.toNat = c := by
  have hne : c.toNat ≠ 0 := by
    intro hzero
    exact h (by rw [← Char.ofNat_toNat c, hzero])
  have hvalid : c.toNat.isValidChar := c.valid
  rw [escapedChar, if_pos ⟨hne, hvalid⟩, Char.ofNat_toNat]

/-- No character has more than six digits. -/
theorem length_toDigits_toNat_le (c : Char) : (Nat.toDigits 16 c.toNat).length ≤ 6 := by
  refine (Nat.length_toDigits_le_iff (by omega) (by omega)).mpr ?_
  have hvalid : c.toNat < 0xd800 ∨ 0xdfff < c.toNat ∧ c.toNat < 0x110000 := c.valid
  omega

/-- **An escaped character reads back**, with the space that ends the escape. -/
theorem unescape_hexEscape (h : c ≠ '\x00') :
    unescape accepts .plain (hexEscape c ++ t) =
      (unescape accepts .plain t).map fun (cs, rest) => (c :: cs, rest) := by
  have hvalue := foldl_hexValue c.toNat
  have hlength := length_toDigits_toNat_le c
  obtain ⟨d, ds, hdigits, htext, hd, hds⟩ := exists_hexDigits c
  rw [hdigits] at hvalue hlength
  have hstep : EscapeStep.next accepts .backslash d = .go [] (.hex 1 (hexValue d)) := by
    simp [EscapeStep.next, hd]
  have hbackslash : EscapeStep.next accepts .plain '\\' = .go [] .backslash := rfl
  have hcount : 1 + ds.length ≤ 6 := by
    rw [List.length_cons] at hlength
    omega
  have hchar : escapedChar (ds.foldl (fun value d => 16 * value + hexValue d) (hexValue d)) =
      c := by
    rw [List.foldl_cons, Nat.mul_zero, Nat.zero_add] at hvalue
    rw [hvalue, escapedChar_toNat h]
  rw [htext, List.cons_append, List.cons_append, List.append_assoc, List.singleton_append,
    unescape_go hbackslash, unescape_go hstep, unescape_hexDigits hds hcount, hchar,
    Option.map_map, Option.map_map]
  rfl

/-! ### Reading escaped text -/

/-- The text reads as these characters, and reading goes on plainly after it. -/
def Unescapes (accepts : Char → Bool) (text cs : List Char) : Prop :=
  ∀ t, unescape accepts .plain (text ++ t) =
    (unescape accepts .plain t).map fun (ds, rest) => (cs ++ ds, rest)

namespace Unescapes

variable {text text' cs cs' : List Char}

theorem nil : Unescapes accepts [] [] := by
  intro t
  simp

/-- Text that reads back can be cut anywhere between its characters. -/
theorem append (h : Unescapes accepts text cs) (h' : Unescapes accepts text' cs') :
    Unescapes accepts (text ++ text') (cs ++ cs') := by
  intro t
  rw [List.append_assoc, h, h', Option.map_map]
  simp only [Function.comp_def, List.append_assoc]

/-- A character that stands for itself. -/
theorem bare (hc : accepts c) (hbackslash : c ≠ '\\') : Unescapes accepts [c] [c] := by
  intro t
  refine unescape_go ?_
  simp [EscapeStep.next, EscapeStep.plain, hbackslash, hc]

/-- A character behind a backslash that is no digit and no line break. -/
theorem escaped (hhex : isHexDigit c = false) (hnewline : isNewline c = false) :
    Unescapes accepts ['\\', c] [c] := by
  intro t
  have hbackslash : EscapeStep.next accepts .plain '\\' = .go [] .backslash := rfl
  have hstep : EscapeStep.next accepts .backslash c = .go [c] .plain := by
    simp [EscapeStep.next, hhex, hnewline]
  rw [List.cons_append, List.singleton_append, unescape_go hbackslash, unescape_go hstep,
    Option.map_map]
  rfl

theorem hexEscape (h : c ≠ '\x00') : Unescapes accepts (Stylesheet.hexEscape c) [c] :=
  fun _ => unescape_hexEscape h

/-- The reader stops at what may not stand in such text. -/
theorem reads (h : Unescapes accepts text cs) :
    Reads (fun t => unescape accepts .plain t) text cs
      (Ends fun c => !accepts c && c != '\\') := by
  intro rest hrest
  have hstop : unescape accepts .plain rest = some ([], rest) := by
    cases rest with
    | nil => rfl
    | cons c rest =>
      have hc := hrest c rfl
      simp only [Bool.and_eq_true, Bool.not_eq_true', bne_iff_ne] at hc
      simp [unescape, EscapeStep.next, EscapeStep.plain, hc.1, hc.2]
  show unescape accepts .plain (text ++ rest) = _
  rw [h, hstop]
  simp

end Unescapes

/-- What a text spells is what the reader makes of it. -/
theorem Spells.unescapes {text cs : List Char} (h : Spells accepts text cs) :
    Unescapes accepts text cs := by
  induction h with
  | nil => exact .nil
  | bare hc hne _ ih => exact (Unescapes.bare hc hne).append ih
  | escaped hhex hnewline _ ih => exact (Unescapes.escaped hhex hnewline).append ih
  | hex hnull _ ih => exact (Unescapes.hexEscape hnull).append ih

/-! ### Names and strings -/

theorem head_escapeNameChar (c : Char) :
    ∃ d ds, escapeNameChar c = d :: ds ∧ nameEnd d = false := by
  unfold escapeNameChar
  split
  · exact ⟨_, _, rfl, by decide⟩
  split
  case isTrue hname => exact ⟨_, _, rfl, by simp [nameEnd, hname]⟩
  case isFalse =>
    split
    · exact ⟨_, _, rfl, by decide⟩
    · exact ⟨_, _, rfl, by decide⟩

/-- An identifier begins with a character that no name ends at. -/
theorem head_escapeIdentifier {cs : List Char} (h : cs ≠ []) :
    ∃ d ds, escapeIdentifier cs = d :: ds ∧ nameEnd d = false := by
  unfold escapeIdentifier
  split
  · exact ⟨_, _, rfl, by decide⟩
  · exact ⟨_, _, rfl, by decide⟩
  · exact ⟨_, _, rfl, by decide⟩
  · obtain ⟨c, cs, rfl⟩ := List.exists_cons_of_ne_nil h
    rw [escapeNameStart]
    split
    · exact ⟨_, _, rfl, by decide⟩
    · obtain ⟨d, ds, heq, hd⟩ := head_escapeNameChar c
      rw [heq]
      exact ⟨d, _, rfl, hd⟩

theorem Identifier.toList_ne_nil (i : Identifier) : i.name.toList ≠ [] :=
  fun h => i.ne_empty (String.toList_injective h)

theorem head_identifier (i : Identifier) : ∃ d ds, css i = d :: ds ∧ nameEnd d = false :=
  head_escapeIdentifier i.toList_ne_nil

/-- Any text reads back from its escaped form, with null characters replaced. -/
theorem reads_name (cs : List Char) :
    Reads Reader.name (escapeIdentifier cs) (cs.map replaced) (Ends nameEnd) :=
  (spells_escapeIdentifier cs).unescapes.reads

/-- **So does any text between quotes**, and anything may follow. -/
theorem reads_string (cs : List Char) :
    Reads Reader.string (quoteString cs) (cs.map replaced) Anything := by
  have hbody := (spells_stringBody cs).unescapes
  have hend := (Reads.expect ['"']).map fun _ => cs.map replaced
  have hrest := hbody.reads.bind (f := fun ds => (fun _ => ds) <$> Reader.expect ['"']) hend
    fun _ _ => .cons (by decide)
  exact (Reads.expect ['"']).bind hrest fun _ _ => trivial

/-- The name as it reads back. -/
def Identifier.normal (i : Identifier) : Identifier where
  name := String.ofList (i.name.toList.map replaced)
  ne_empty := by
    intro h
    have hnil := congrArg String.toList h
    rw [String.toList_ofList] at hnil
    have hname := List.map_eq_nil_iff.mp hnil
    exact i.ne_empty (String.toList_injective hname)

theorem Identifier.of_name (i : Identifier) : Identifier.of i.name = .ok i := dif_neg i.ne_empty

/-- An identifier reads back as its normal form. -/
theorem reads_identifier (i : Identifier) :
    Reads Reader.identifier (css i) i.normal (Ends nameEnd) := by
  refine (reads_name i.name.toList).pick ?_
  exact congrArg Except.toOption i.normal.of_name

/-! ### Custom identifiers -/

theorem map_replaced_of_not_mem {cs : List Char} (h : '\x00' ∉ cs) : cs.map replaced = cs := by
  refine (List.map_congr_left fun c hc => ?_).trans (List.map_id _)
  exact replaced_of_ne fun hnull => h (hnull ▸ hc)

/-- No reserved word holds the replacement character, so a name does not become one. -/
theorem isOneOf_replaced {words : List String} {name : String}
    (hwords : ∀ w ∈ words, '\ufffd' ∉ w.toList.map Char.toLower)
    (h : isOneOf words name = false) :
    isOneOf words (String.ofList (name.toList.map replaced)) = false := by
  by_cases hnull : '\x00' ∈ name.toList
  · refine List.any_eq_false.mpr fun w hw heq => ?_
    simp only [equalsIgnoringCase, String.toList_ofList, beq_iff_eq] at heq
    refine hwords w hw ?_
    rw [← heq]
    exact List.mem_map_of_mem (List.mem_map_of_mem hnull)
  · rw [map_replaced_of_not_mem hnull, String.ofList_toList, h]

/-- The replacement makes no reserved word of a name that was none. -/
def CustomIdent.normal (i : CustomIdent) : CustomIdent where
  toIdentifier := i.toIdentifier.normal
  not_reserved := isOneOf_replaced (by decide) i.not_reserved

theorem CustomIdent.of_name (i : CustomIdent) : CustomIdent.of i.name = .ok i := by
  show (Identifier.of i.name >>= fun identifier => _) = _
  rw [i.toIdentifier.of_name]
  exact dif_pos i.not_reserved

/-- So it does not keep a custom identifier from reading back. -/
theorem reads_customIdent (i : CustomIdent) :
    Reads Reader.customIdent (css i) i.normal (Ends nameEnd) := by
  refine (reads_name i.name.toList).pick ?_
  exact congrArg Except.toOption i.normal.of_name

/-- Names with a character between them that no name has bare. -/
theorem reads_customIdents (names : NonEmpty CustomIdent) {s : Char} {limit : Nat}
    (h : names.rest.length ≤ limit) (hname : nameEnd s) (hs : s ≠ ')') :
    Reads (Reader.listOf [s] Reader.customIdent limit) (joined [s] (names.toList.map css))
      ⟨names.first.normal, names.rest.map .normal⟩ (Ends (oneOf [')'])) := by
  have hrest : ReadsEach Reader.customIdent (Ends nameEnd) (names.rest.map css)
      (names.rest.map .normal) := by
    induction names.rest with
    | nil => exact .nil
    | cons i is ih => exact .cons (reads_customIdent i) ih
  refine hrest.listOf (reads_customIdent names.first) (by simpa using h) hname ?_ ?_
  · exact fun c hc => bne_iff_ne.mp (of_oneOf (p := (· != s)) hc (by simpa using hs.symm))
  · exact fun c hc => of_oneOf hc (by decide)

end Stylesheet
