import Stylesheet.Name.Quoted
import Stylesheet.Proofs.Reading.Escape
import Stylesheet.Selector.Text

/-! Identifiers and strings as the tokens that a style sheet is made of.

The readers here follow the tokenizer of style sheets rule by rule. An identifier is read
only where the first characters show that one starts, since a text such as `-1` would be a
number, and it goes on as long as there are name characters and escapes. A string has to be
closed, and a line break in it stands only behind a backslash. Every name that is written is
one identifier, and every string and every address in it one string. -/
namespace Stylesheet

/-! ### Reading tokens -/

/-- What a name may begin with. -/
def isNameStart (c : Char) : Bool := c.isAlpha || c == '_' || 0x80 ≤ c.toNat

/-- A backslash escapes anything but a line break, even the end of the text. -/
def startsEscape : List Char → Bool
  | '\\' :: t => !t.head?.any isNewline
  | _ => false

/-- A name begins so, or with an escape. -/
def startsName (t : List Char) : Bool := t.head?.any isNameStart || startsEscape t

/-- An identifier may have a dash in front, or two. -/
def startsIdentifier : List Char → Bool
  | '-' :: t => t.head? == some '-' || startsName t
  | t => startsName t

/-- One white space, for which a carriage return counts together with its line feed. -/
def skipSpace : List Char → List Char
  | [] => []
  | '\r' :: '\n' :: t => t
  | c :: t => if isSpace c then t else c :: t

/-- At most six hexadecimal digits, and a white space after them. -/
def hexDigits (t : List Char) : List Char := (t.take 6).takeWhile isHexDigit

/-- The character of an escape, behind its backslash. -/
def escapedCodePoint : List Char → Char × List Char
  | [] => ('\ufffd', [])
  | c :: t =>
    if isHexDigit c then
      let digits := hexDigits (c :: t)
      (escapedChar (digits.foldl (fun value d => 16 * value + hexValue d) 0),
        skipSpace ((c :: t).drop digits.length))
    else (c, t)

theorem length_skipSpace_le (t : List Char) : (skipSpace t).length ≤ t.length := by
  unfold skipSpace
  split
  · exact Nat.le_refl _
  · simp only [List.length_cons]
    omega
  · split
    · exact Nat.le_succ _
    · exact Nat.le_refl _

theorem length_escapedCodePoint_le (t : List Char) : (escapedCodePoint t).2.length ≤ t.length := by
  unfold escapedCodePoint
  split
  · exact Nat.le_refl _
  split
  · refine Nat.le_trans (length_skipSpace_le _) ?_
    rw [List.length_drop]
    exact Nat.sub_le ..
  · exact Nat.le_succ _

/-- Name characters and escapes, as many as there are. -/
def consumeName (t : List Char) : List Char × List Char :=
  match t with
  | [] => ([], [])
  | c :: t =>
    if isNameChar c then (consumeName t).map (c :: ·) id
    else if startsEscape (c :: t) then
      (consumeName (escapedCodePoint t).2).map ((escapedCodePoint t).1 :: ·) id
    else ([], c :: t)
termination_by t.length
decreasing_by
  · exact Nat.lt_succ_self _
  · exact Nat.lt_succ_of_le (length_escapedCodePoint_le _)

/-- The rest of a string up to the quote that closes it, if one does. -/
def consumeString (t : List Char) : Option (List Char × List Char) :=
  match t with
  | [] => none
  | c :: t =>
    if c = '"' then some ([], t)
    else if c = '\\' then
      -- behind a backslash the line goes on
      if t.head?.any isNewline then consumeString (skipSpace t)
      else (consumeString (escapedCodePoint t).2).map (·.map ((escapedCodePoint t).1 :: ·) id)
    else if isNewline c then none
    else (consumeString t).map (·.map (c :: ·) id)
termination_by t.length
decreasing_by
  · exact Nat.lt_succ_of_le (length_skipSpace_le _)
  · exact Nat.lt_succ_of_le (length_escapedCodePoint_le _)
  · exact Nat.lt_succ_self _

/-- An identifier, as a style sheet has it. -/
def Reader.identToken : Reader (List Char) := fun t =>
  if startsIdentifier t then some (consumeName t) else none

/-- A string, as a style sheet has it. -/
def Reader.stringToken : Reader (List Char) := fun
  | '"' :: t => consumeString t
  | _ => none

/-! ### Escapes -/

variable {c : Char} {t u cs rest : List Char}

theorem not_isNewline_of_isHexDigit (h : isHexDigit c) : isNewline c = false := by
  cases hc : isNewline c with
  | false => rfl
  | true =>
    simp only [isNewline, Bool.or_eq_true, beq_iff_eq] at hc
    obtain (rfl | rfl) | rfl := hc <;> exact absurd h (by decide)

theorem startsEscape_of_isHexDigit (h : isHexDigit c) : startsEscape ('\\' :: c :: t) := by
  simp [startsEscape, not_isNewline_of_isHexDigit h]

/-- The digits of a code point end at the space behind them. -/
theorem hexDigits_append {ds : List Char} (hds : ∀ d ∈ ds, isHexDigit d) (hlength : ds.length ≤ 6) :
    hexDigits (ds ++ ' ' :: t) = ds := by
  have hspace : ∀ n, ((' ' :: t).take n).takeWhile isHexDigit = [] := fun n => by cases n <;> rfl
  rw [hexDigits, List.take_append, List.take_of_length_le hlength,
    List.takeWhile_append_of_pos hds, hspace, List.append_nil]

/-- An escape begins with a digit, and the code point reads back unless it is zero. -/
theorem hexEscape_eq (c : Char) :
    ∃ d ds, isHexDigit d ∧ hexEscape c ++ t = '\\' :: d :: ds ∧
      (c ≠ '\x00' → escapedCodePoint (d :: ds) = (c, t)) := by
  have hvalue := foldl_hexValue c.toNat
  have hlength := length_toDigits_toNat_le c
  obtain ⟨d, ds, hdigits, htext, hd, hds⟩ := exists_hexDigits c
  rw [hdigits] at hvalue hlength
  refine ⟨d, ds ++ ' ' :: t, hd, by simp [htext], fun hnull => ?_⟩
  have hread : hexDigits (d :: (ds ++ ' ' :: t)) = d :: ds :=
    hexDigits_append (List.forall_mem_cons.mpr ⟨hd, hds⟩) hlength
  have hdrop : (d :: (ds ++ ' ' :: t)).drop (d :: ds).length = ' ' :: t :=
    List.drop_left
  simp only [escapedCodePoint, if_pos hd, hread, hdrop, hvalue, escapedChar_toNat hnull]
  rfl

theorem startsEscape_hexEscape (c : Char) : startsEscape (hexEscape c ++ t) := by
  obtain ⟨d, ds, hd, htext, -⟩ := hexEscape_eq (t := t) c
  rw [htext]
  exact startsEscape_of_isHexDigit hd

theorem escapedCodePoint_escaped (h : isHexDigit c = false) :
    escapedCodePoint (c :: t) = (c, t) :=
  if_neg (by simp [h])

/-! ### Names -/

/-- A name ends where no character of a name stands. -/
theorem consumeName_end (h : Ends nameEnd rest) : consumeName rest = ([], rest) := by
  cases rest with
  | nil => rw [consumeName]
  | cons c rest =>
    have hc := h c rfl
    simp only [nameEnd, Bool.and_eq_true, Bool.not_eq_true', bne_iff_ne] at hc
    have hescape : startsEscape (c :: rest) = false := by
      unfold startsEscape
      split
      · simp_all
      · rfl
    rw [consumeName, if_neg (by simp [hc.1]), if_neg (by simp [hescape])]

/-- Each step of the reader takes off what spells one character. -/
theorem Spells.consumeName (h : Spells isNameChar t cs) (hrest : Ends nameEnd rest) :
    consumeName (t ++ rest) = (cs, rest) := by
  induction h with
  | nil => exact consumeName_end hrest
  | bare hc _ _ ih =>
    rw [List.cons_append, Stylesheet.consumeName, if_pos hc, ih]
    rfl
  | escaped hhex hnewline _ ih =>
    have hescape : ∀ u, startsEscape ('\\' :: _ :: u) := fun u => by
      simpa [startsEscape] using hnewline
    rw [List.cons_append, List.cons_append, Stylesheet.consumeName,
      if_neg not_isNameChar_backslash, if_pos (hescape _), escapedCodePoint_escaped hhex, ih]
    rfl
  | @hex c t cs hnull _ ih =>
    obtain ⟨d, ds, hd, htext, hread⟩ := hexEscape_eq (t := t ++ rest) c
    rw [List.append_assoc, htext, Stylesheet.consumeName, if_neg not_isNameChar_backslash,
      if_pos (startsEscape_of_isHexDigit hd), hread hnull, ih]
    rfl

theorem startsName_escapeNameChar (hdigit : ¬c.isDigit) (hdash : c ≠ '-') :
    startsName (escapeNameChar c ++ t) := by
  unfold escapeNameChar
  split
  case isTrue => rfl
  split
  case isTrue hname =>
    have hstart : isNameStart c := by
      simp only [isNameChar, Char.isAlphanum, Bool.or_eq_true, beq_iff_eq] at hname
      simp only [isNameStart, Bool.or_eq_true, beq_iff_eq]
      obtain (((halpha | hdigit') | hunder) | hdash') | hwide := hname
      · exact .inl (.inl halpha)
      · exact absurd hdigit' hdigit
      · exact .inl (.inr hunder)
      · exact absurd hdash' hdash
      · exact .inr hwide
    simp [startsName, hstart]
  split
  case isTrue => rw [startsName, startsEscape_hexEscape, Bool.or_true]
  case isFalse hcontrol =>
    have hnewline := isNewline_of_not_isControl (Bool.eq_false_iff.mpr hcontrol)
    simp [startsName, startsEscape, hnewline]

/-- Escaped text begins a name, unless a dash does. -/
theorem startsName_escapeNameStart (hne : cs ≠ []) (hdash : cs.head? ≠ some '-') :
    startsName (escapeNameStart cs ++ t) := by
  obtain ⟨c, cs, rfl⟩ := List.exists_cons_of_ne_nil hne
  rw [escapeNameStart, List.append_assoc]
  split
  case isTrue => rw [startsName, startsEscape_hexEscape, Bool.or_true]
  case isFalse hdigit =>
    refine startsName_escapeNameChar hdigit ?_
    rintro rfl
    exact hdash rfl

theorem startsIdentifier_of_startsName (h : startsName t) : startsIdentifier t := by
  unfold startsIdentifier
  split
  · exact absurd h nofun
  · exact h

/-- What is written for a name is never taken for a number or a delimiter. -/
theorem startsIdentifier_escapeIdentifier (hne : cs ≠ []) :
    startsIdentifier (escapeIdentifier cs ++ t) := by
  unfold escapeIdentifier
  split
  case h_1 => rfl
  case h_2 => rfl
  case h_3 cs hdouble hsingle =>
    have hcs : cs ≠ [] := fun h => hsingle (by rw [h])
    have hhead : cs.head? ≠ some '-' := by
      intro h
      obtain ⟨cs, rfl⟩ := List.head?_eq_some_iff.mp h
      exact hdouble cs rfl
    have hname := startsName_escapeNameStart (t := t) hcs hhead
    show (_ == _ || startsName (escapeNameStart cs ++ t)) = true
    rw [hname, Bool.or_true]
  case h_4 hdouble hsingle hdash =>
    have hhead : cs.head? ≠ some '-' := by
      intro h
      obtain ⟨ds, rfl⟩ := List.head?_eq_some_iff.mp h
      exact hdash ds rfl
    exact startsIdentifier_of_startsName (startsName_escapeNameStart hne hhead)

/-! ### Strings -/

/-- **A string is read as what its body spells.** -/
theorem Spells.consumeString (h : Spells isStringChar t cs) :
    consumeString (t ++ '"' :: rest) = some (cs, rest) := by
  induction h with
  | nil =>
    rw [List.nil_append, Stylesheet.consumeString]
    rfl
  | bare hc hne _ ih =>
    simp only [isStringChar, Bool.and_eq_true, bne_iff_ne, Bool.not_eq_true'] at hc
    rw [List.cons_append, Stylesheet.consumeString, if_neg hc.1, if_neg hne,
      if_neg (by simp [hc.2]), ih]
    rfl
  | @escaped c t cs hhex hnewline _ ih =>
    have hescape : ¬(c :: (t ++ '"' :: rest)).head?.any isNewline := by simp [hnewline]
    rw [List.cons_append, List.cons_append, Stylesheet.consumeString, if_neg (by decide),
      if_pos rfl, if_neg hescape, escapedCodePoint_escaped hhex, ih]
    rfl
  | @hex c t cs hnull _ ih =>
    obtain ⟨d, ds, hd, htext, hread⟩ := hexEscape_eq (t := t ++ '"' :: rest) c
    have hescape : ¬(d :: ds).head?.any isNewline := by simp [not_isNewline_of_isHexDigit hd]
    rw [List.append_assoc, htext, Stylesheet.consumeString, if_neg (by decide), if_pos rfl,
      if_neg hescape, hread hnull, ih]
    rfl

/-! ### Names and strings as tokens -/

theorem reads_identToken (hne : cs ≠ []) :
    Reads Reader.identToken (escapeIdentifier cs) (cs.map replaced) (Ends nameEnd) := by
  intro rest hrest
  rw [Reader.identToken, if_pos (startsIdentifier_escapeIdentifier hne),
    (spells_escapeIdentifier cs).consumeName hrest]

theorem Identifier.reads_token (i : Identifier) :
    Reads Reader.identToken (css i) (i.name.toList.map replaced) (Ends nameEnd) :=
  reads_identToken i.toList_ne_nil

/-- Name characters after one that starts a name are one identifier. -/
theorem reads_word {c : Char} {w : List Char} (hc : isNameStart c) (hw : (c :: w).all isNameChar) :
    Reads Reader.identToken (c :: w) (c :: w) (Ends nameEnd) := by
  intro rest hrest
  have hstart : startsIdentifier (c :: (w ++ rest)) :=
    startsIdentifier_of_startsName (by simp [startsName, hc])
  exact (if_pos hstart).trans (congrArg some ((Spells.of_all hw).consumeName hrest))

/-- And so is any text between quotes. -/
theorem reads_stringToken (cs : List Char) :
    Reads Reader.stringToken (quoteString cs) (cs.map replaced) Anything := by
  intro rest _
  have hread : consumeString (cs.flatMap escapeStringChar ++ '"' :: rest) = _ :=
    (spells_stringBody cs).consumeString
  simpa [quoteString, Reader.stringToken] using hread

theorem not_isNewline_of_mem_hexEscape {d : Char} (h : d ∈ hexEscape c) : isNewline d = false := by
  rw [hexEscape] at h
  rcases List.mem_cons.mp h with rfl | h
  · rfl
  rcases List.mem_append.mp h with h | h
  · exact not_isNewline_of_isHexDigit (isHexDigit_of_mem_toDigits _ d h)
  · rw [List.mem_singleton.mp h]
    rfl

theorem Spells.not_isNewline (h : Spells isStringChar t cs) : ∀ d ∈ t, isNewline d = false := by
  induction h with
  | nil => exact nofun
  | bare hc _ _ ih =>
    simp only [isStringChar, Bool.and_eq_true, Bool.not_eq_true'] at hc
    exact List.forall_mem_cons.mpr ⟨hc.2, ih⟩
  | escaped _ hnewline _ ih =>
    exact List.forall_mem_cons.mpr ⟨rfl, List.forall_mem_cons.mpr ⟨hnewline, ih⟩⟩
  | hex _ _ ih =>
    exact List.forall_mem_append.mpr ⟨fun _ => not_isNewline_of_mem_hexEscape, ih⟩

theorem not_isNewline_of_mem_quoteString (cs : List Char) :
    ∀ d ∈ quoteString cs, isNewline d = false := by
  have hbody := (spells_stringBody cs).not_isNewline
  rw [quoteString, List.forall_mem_cons, List.forall_mem_append, List.forall_mem_singleton]
  exact ⟨rfl, hbody, rfl⟩

/-- The texts that are written for the names that authors choose. Those of filters stand
behind a character that tells what they name, and in front of what they are compared with. -/
inductive NameText : String → List Char → Prop where
  | custom {s i} : CustomIdent.of s = .ok i → NameText s (css i)
  | dashed {s i} : DashedIdent.of s = .ok i → NameText s (css i)
  /-- A language range. -/
  | range {s} {i : Identifier} : Identifier.of s = .ok i → NameText s (css i)
  | element {s c} : Compound.element s = .ok c → NameText s (css c)
  | id {s c f t} : Compound.withId c s = .ok (c.filter f) → f.text = '#' :: t → NameText s t
  | class {s c f t} : Compound.withClass c s = .ok (c.filter f) → f.text = '.' :: t → NameText s t
  | attribute {s a t} : AttributeSelector.present s = .ok a → css a = '[' :: (t ++ [']']) →
      NameText s t
  | attributeTest {s a m v flag t} : AttributeSelector.matching s m v = .ok a →
      css (Option.elim flag a a.withFlag) =
        '[' :: (t ++ (AttributeSelector.testText ⟨m, v, flag⟩ ++ [']'])) →
      NameText s t

/-- What is built of a name holds that name. -/
theorem Identifier.bind_eq_ok {α : Type} {s : String} {f : Identifier → Result α} {a : α}
    (h : (Identifier.of s >>= f) = .ok a) : ∃ i : Identifier, i.name = s ∧ f i = .ok a := by
  unfold Identifier.of at h
  split at h
  · exact nomatch h
  · exact ⟨_, rfl, h⟩

theorem Compound.filter_inj {c : Compound} {f g : Filter} (h : c.filter f = c.filter g) :
    f = g := by
  cases c
  simpa [Compound.filter] using h

/-- Behind what leads to it, every name is written by one function. -/
theorem NameText.eq_escapeIdentifier {s : String} (h : NameText s t) :
    s.toList ≠ [] ∧ t = escapeIdentifier s.toList := by
  have hname : ∀ i : Identifier, i.name.toList ≠ [] ∧ css i = escapeIdentifier i.name.toList :=
    fun i => ⟨i.toList_ne_nil, rfl⟩
  cases h with
  | custom h =>
    obtain ⟨i, rfl, hi⟩ := Identifier.bind_eq_ok h
    -- A reserved word is refused here. Any other name is written as the identifier.
    change (if h : _ then _ else _) = _ at hi
    split at hi
    · cases hi
      exact hname i
    · exact nomatch hi
  | dashed h =>
    unfold DashedIdent.of at h
    split at h
    case isTrue hdashed =>
      cases h
      refine ⟨fun hnil => ?_, rfl⟩
      rw [isDashed, hnil] at hdashed
      exact nomatch hdashed
    case isFalse => exact nomatch h
  | range h =>
    rw [← bind_pure (Identifier.of s)] at h
    obtain ⟨i, rfl, hi⟩ := Identifier.bind_eq_ok h
    cases hi
    exact hname _
  | element h =>
    obtain ⟨i, rfl, hi⟩ := Identifier.bind_eq_ok h
    cases hi
    exact ⟨(hname i).1, by simp [css, Compound.text, Filter.texts, clause]⟩
  | id h ht =>
    obtain ⟨i, rfl, hi⟩ := Identifier.bind_eq_ok h
    cases Compound.filter_inj (Except.ok.inj hi)
    exact ⟨(hname i).1, (List.cons.inj ht).2.symm⟩
  | «class» h ht =>
    obtain ⟨i, rfl, hi⟩ := Identifier.bind_eq_ok h
    cases Compound.filter_inj (Except.ok.inj hi)
    exact ⟨(hname i).1, (List.cons.inj ht).2.symm⟩
  | «attribute» h ht =>
    obtain ⟨i, rfl, hi⟩ := Identifier.bind_eq_ok h
    cases hi
    have htext : '[' :: (css i ++ [']']) = '[' :: (t ++ [']']) := by simpa [css] using ht
    exact ⟨(hname i).1, (List.append_cancel_right (List.cons.inj htext).2).symm⟩
  | @attributeTest _ m v flag _ h ht =>
    obtain ⟨i, rfl, hi⟩ := Identifier.bind_eq_ok h
    cases hi
    have hflag : Option.elim flag ⟨i, some ⟨m, v, none⟩⟩
        (AttributeSelector.withFlag ⟨i, some ⟨m, v, none⟩⟩) = ⟨i, some ⟨m, v, flag⟩⟩ := by
      cases flag <;> rfl
    have htext : '[' :: (css i ++ (AttributeSelector.testText ⟨m, v, flag⟩ ++ [']'])) =
        '[' :: (t ++ (AttributeSelector.testText ⟨m, v, flag⟩ ++ [']'])) := by
      rw [← ht, hflag]
      simp [css]
    exact ⟨(hname i).1, (List.append_cancel_right (List.cons.inj htext).2).symm⟩

/-- **Names and strings survive escaping.** What is written for a name is read as one
identifier wherever the text ends or something other than a name goes on, and what is
written for a string, an address's among them, as one string. Both give back the author's
text, but for the null character. -/
theorem names_and_strings_read_back :
    (∀ {s t}, NameText s t →
      Reads Reader.identToken t (s.toList.map replaced) (Ends nameEnd)) ∧
    ∀ s : String, ∃ t, css (CssString.mk s) = t ∧ css (Url.mk s) = call "url" t ∧
      (∀ d ∈ t, isNewline d = false) ∧
      Reads Reader.stringToken t (s.toList.map replaced) Anything := by
  constructor
  · intro s t h
    obtain ⟨hne, rfl⟩ := h.eq_escapeIdentifier
    exact reads_identToken hne
  · intro s
    exact ⟨_, rfl, rfl, not_isNewline_of_mem_quoteString _, reads_stringToken _⟩

/-- A digit behind a hyphen is written in hexadecimal, and so is the control after it. -/
theorem hyphen_digit_reads_back :
    NameText "-1\x01 " "-\\31 \\1 \\ ".toList ∧
      Reads Reader.identToken "-\\31 \\1 \\ ".toList ['-', '1', '\x01', ' '] (Ends nameEnd) := by
  have hname : NameText "-1\x01 " "-\\31 \\1 \\ ".toList :=
    .custom (i := ⟨⟨"-1\x01 ", by decide⟩, by decide⟩) rfl
  exact ⟨hname, names_and_strings_read_back.1 hname⟩

end Stylesheet
