import Stylesheet.Proofs.Functional.ItemList
import Stylesheet.Proofs.Image.Reading
import Stylesheet.Proofs.Keyed.Required
import Stylesheet.Proofs.Nesting.RuleValue

/-! Reading the sources of a font face and its ranges of characters back.

A source is a row of calls with spaces between them. The first says where the font is, and
each of the others gives hints. So the text is read by making the source again: from its
place, with one hint after the other. -/
namespace Stylesheet

instance : LawfulKeyword FontFormat := ⟨fun f => by cases f <;> rfl⟩

instance : LawfulKeyword FontTech := ⟨fun t => by cases t <;> rfl⟩

instance : Argument FontTech where
  isArgument t := by cases t <;> exact .of_isNameChar (all_toList rfl)

namespace FontSource

/-! ### Making a source -/

/-- What can be said about a source with an address. -/
inductive Hint where
  | format (format : FontFormat)
  | tech (tech : FontTech)

namespace Hint

/-- One call. -/
def apply (s : FontSource) : Hint → FontSource
  | format f => s.withFormat f
  | tech t => s.withTech t

def format? : Hint → Option FontFormat
  | format f => some f
  | tech _ => none

def tech? : Hint → Option FontTech
  | format _ => none
  | tech t => some t

end Hint

/-- The source with hints given after it. -/
def hinted (s : FontSource) (hints : List Hint) : FontSource := hints.foldl Hint.apply s

/-- An installed font takes no hints. -/
theorem hinted_installed (name : CssString) (hints : List Hint) :
    (installed name).hinted hints = installed name := by
  induction hints with
  | nil => rfl
  | cons hint hints ih => cases hint <;> exact ih

/-- The last format takes the place of the others, and technologies add up. -/
theorem hinted_url (u : Url) (format : Option FontFormat) (tech : List FontTech)
    (hints : List Hint) : (url u format tech).hinted hints =
      url u ((lastSet Hint.format? hints).or format) (tech ++ hints.filterMap Hint.tech?) := by
  induction hints generalizing format tech with
  | nil => exact congrArg (url u format) (List.append_nil tech).symm
  | cons hint hints ih =>
    -- a format counts only if none comes after it
    rw [lastSet_cons, Option.or_assoc]
    cases hint with
    | format f => exact ih (some f) tech
    | tech t =>
      refine (ih format (tech ++ [t])).trans ?_
      rw [List.append_assoc]
      rfl

/-- The calls that make a source. -/
inductive Calls where
  | url (address : String) (hints : List Hint)
  | installed (name : String) (hints : List Hint)

namespace Calls

/-- The source that the calls make. -/
def run : Calls → FontSource
  | url address hints => (ofUrl address).hinted hints
  | installed name hints => (FontSource.installed ⟨name⟩).hinted hints

/-- What the text tells of the calls: the address or the name with the replacement character
for null characters, and of hints that are taken the last format and all technologies. -/
def told : Calls → FontSource
  | url address hints =>
    .url ⟨replaceNull address⟩ (lastSet Hint.format? hints) (hints.filterMap Hint.tech?)
  | installed name _ => .installed ⟨replaceNull name⟩

end Calls

/-! ### The words of a source -/

/-- The hint of a format, as its name and its argument. -/
def formatWord (f : FontFormat) : List Char × List Char := ("format".toList, quoteString (css f))

def techWord (tech : NonEmpty FontTech) : List Char × List Char :=
  ("tech".toList, commaSeparated tech.toList)

def techWords : List FontTech → List (List Char × List Char)
  | [] => []
  | t :: ts => [techWord ⟨t, ts⟩]

/-- The calls in the text of a source, each a name and what stands in its brackets. -/
def words : FontSource → NonEmpty (List Char × List Char)
  | url u format tech =>
    ⟨("url".toList, quoteString u.address.toList),
      (format.map formatWord).toList ++ techWords tech⟩
  | installed name => .single ("local".toList, css name)

def wordText (word : List Char × List Char) : List Char := call (String.ofList word.1) word.2

/-- **A source is its words with spaces between them.** -/
theorem css_eq_joined (s : FontSource) : css s = joined [' '] (s.words.toList.map wordText) := by
  cases s with
  | installed name => rfl
  | url u format tech =>
    have hformat : (format.map formatText).getD [] =
        (format.map formatWord).toList.flatMap (' ' :: wordText ·) := by
      cases format with
      | none => rfl
      | some f => exact (formatText_eq f).trans (List.append_nil _).symm
    have htech : techText tech = (techWords tech).flatMap (' ' :: wordText ·) := by
      cases tech with
      | nil => rfl
      | cons t ts => exact (techText_cons t ts).trans (List.append_nil _).symm
    show css u ++ (format.map formatText).getD [] ++ techText tech =
      joined [' '] (css u :: ((format.map formatWord).toList ++ techWords tech).map wordText)
    rw [hformat, htech, joined_cons, List.flatMap_map, List.flatMap_append, List.append_assoc]
    rfl

/-- The name of a word is a name, and its brackets hold what is nested. -/
def IsWord (word : List Char × List Char) : Prop :=
  word.1.all isNameChar ∧ Nested anyChar word.2

/-- Each word is a call with a closed argument. -/
theorem isWord_words (s : FontSource) : ∀ word ∈ s.words.toList, IsWord word := by
  cases s with
  | installed name => exact List.forall_mem_singleton.mpr ⟨all_toList rfl, nested name⟩
  | url u format tech =>
    refine List.forall_mem_cons.mpr ⟨⟨all_toList rfl, nested_quoteString _⟩, ?_⟩
    refine List.forall_mem_append.mpr ⟨?_, ?_⟩
    · cases format with
      | none => exact List.forall_mem_nil _
      | some f => exact List.forall_mem_singleton.mpr ⟨all_toList rfl, nested_quoteString _⟩
    · cases tech with
      | nil => exact List.forall_mem_nil _
      | cons t ts =>
        exact List.forall_mem_singleton.mpr ⟨all_toList rfl, nested_separated (t :: ts)⟩

theorem isArgument_words (s : FontSource) :
    ∀ t ∈ s.words.toList.map wordText, IsArgument t :=
  List.forall_mem_map.mpr fun word hword =>
    .call (s.isWord_words word hword).1 (s.isWord_words word hword).2

/-- Outside of its brackets and strings a source has no comma. -/
theorem passes_comma (s : FontSource) : Scan.Passes (· == ',') .start (css s) .start := by
  rw [css_eq_joined]
  exact .joined Scan.passes_space fun t ht => (s.isArgument_words t ht).passes rfl

/-- The words are cut at the spaces. -/
theorem cutAt_css (s : FontSource) :
    (cutAt ' ' (css s)).toList = s.words.toList.map wordText := by
  rw [css_eq_joined]
  exact cutAt_words s.isArgument_words

theorem mapM_readCall {words : List (List Char × List Char)}
    (h : ∀ word ∈ words, IsWord word) : (words.map wordText).mapM readCall = some words := by
  induction words with
  | nil => rfl
  | cons word words ih =>
    rw [List.forall_mem_cons] at h
    rw [List.map_cons, List.mapM_cons, wordText, readCall_ofList (all_ne_round h.1.1), ih h.2]
    rfl

/-! ### Reading a source -/

/-- The place that the first word names. -/
def place? : List Char × List Char → Option FontSource
  | (name, t) =>
    if name = "url".toList then (read? t).map fun s : CssString => ofUrl s.text
    else if name = "local".toList then (read? t).map installed
    else none

/-- The hints that a word behind the first one gives. -/
def hints? : List Char × List Char → Option (List Hint)
  | (name, t) =>
    if name = "format".toList then
      ((read? t).bind fun s : CssString => Reader.spelled? FontFormat s.text.toList).map
        fun f => [.format f]
    else if name = "tech".toList then ((cutArguments t).mapM read?).map (·.map .tech)
    else none

def takeWord (s : FontSource) (word : List Char × List Char) : Option FontSource :=
  (hints? word).map s.hinted

def ofWords? : List (List Char × List Char) → Option FontSource
  | [] => none
  | word :: words => (place? word).bind (words.foldlM takeWord)

/-- Words, each a call, the first of which tells where the font is. -/
def ofText? (t : List Char) : Option FontSource :=
  ((cutAt ' ' t).toList.mapM readCall).bind ofWords?

/-- The source as it reads back, with the replacement character for null characters. -/
def normal : FontSource → FontSource
  | url u format tech => url ⟨replaceNull u.address⟩ format tech
  | installed name => installed ⟨replaceNull name.text⟩

theorem read?_quoteString (s : String) :
    read? (quoteString s.toList) = some (⟨replaceNull s⟩ : CssString) :=
  read?_css (⟨s⟩ : CssString)

theorem hints?_formatWord (f : FontFormat) : hints? (formatWord f) = some [.format f] := by
  have hword : Reader.spelled? FontFormat (replaceNull (Keyword.keyword f)).toList = some f := by
    cases f <;> rfl
  have hstring := read?_quoteString (Keyword.keyword f)
  show Option.map _ ((read? (quoteString (Keyword.keyword f).toList)).bind _) = _
  rw [hstring, Option.bind_some, hword]
  rfl

/-- Technologies read back in order. -/
theorem hints?_techWord (tech : NonEmpty FontTech) :
    hints? (techWord tech) = some (tech.toList.map .tech) := by
  have harguments : (cutArguments (commaSeparated tech.toList)).mapM read? =
      some (tech.toList.map id) := by
    rw [NonEmpty.toList, cutArguments_commaSeparated, mapM_read?_css]
    rfl
  show Option.map _ ((cutArguments (commaSeparated tech.toList)).mapM read?) = _
  rw [harguments, List.map_id]
  rfl

theorem foldlM_formatWord (u : Url) (format : Option FontFormat) :
    (format.map formatWord).toList.foldlM takeWord (url u none []) = some (url u format []) := by
  cases format with
  | none => rfl
  | some f =>
    show [formatWord f].foldlM takeWord _ = _
    rw [List.foldlM_cons, takeWord, hints?_formatWord]
    rfl

theorem foldlM_techWords (u : Url) (format : Option FontFormat) (tech : List FontTech) :
    (techWords tech).foldlM takeWord (url u format []) = some (url u format tech) := by
  cases tech with
  | nil => rfl
  | cons t ts =>
    -- one word gives all the technologies, and no format
    have hformat : lastSet Hint.format? ((t :: ts).map .tech) = none := by
      simp [lastSet, Hint.format?]
    have htech : ((t :: ts).map .tech).filterMap Hint.tech? = t :: ts := by
      rw [List.filterMap_map]
      exact List.filterMap_some
    show [techWord ⟨t, ts⟩].foldlM takeWord _ = _
    rw [List.foldlM_cons, takeWord, hints?_techWord, Option.map_some, NonEmpty.toList,
      hinted_url, hformat, htech]
    rfl

/-- An address reads back with null characters replaced. -/
theorem place?_url (address : String) :
    place? ("url".toList, quoteString address.toList) = some (ofUrl (replaceNull address)) := by
  rw [place?, if_pos rfl, read?_quoteString]
  rfl

theorem place?_installed (name : CssString) :
    place? ("local".toList, css name) = some (installed ⟨replaceNull name.text⟩) := by
  rw [place?, if_neg (by decide), if_pos rfl, read?_css]
  rfl

theorem ofWords?_words (s : FontSource) : ofWords? s.words.toList = some s.normal := by
  cases s with
  | installed name =>
    show (place? ("local".toList, css name)).bind _ = _
    rw [place?_installed]
    rfl
  | url u format tech =>
    show (place? ("url".toList, quoteString u.address.toList)).bind _ = _
    rw [place?_url, Option.bind_some, ofUrl, words, List.foldlM_append, foldlM_formatWord]
    exact foldlM_techWords ..

/-- **A source reads back.** -/
theorem ofText?_css (s : FontSource) : ofText? (css s) = some s.normal := by
  rw [ofText?, cutAt_css, mapM_readCall s.isWord_words, Option.bind_some, ofWords?_words]

end FontSource

/-! ### Ranges of characters -/

namespace Reader

/-- One to six hexadecimal digits. -/
def codePoint : Reader Nat :=
  (span isHexDigit).pick fun ds =>
    if ds ≠ [] ∧ ds.length ≤ 6 then some (ds.foldl (fun value d => 16 * value + hexValue d) 0)
    else none

/-- The first of the characters, and the last one if the text names it. -/
def codePoints : Reader (Nat × Option Nat) := do
  expect ['U', '+']
  let first ← codePoint
  let last ← opt (fun _ => true) (do expect ['-']; codePoint)
  return (first, last)

end Reader

theorem isHexDigit_of_mem_upperHex {n : Nat} : ∀ c ∈ upperHex n, isHexDigit c := by
  have hall : ∀ m ∈ List.range 16, isHexDigit m.digitChar.toUpper := by decide
  refine List.forall_mem_map.mpr fun d hd => ?_
  obtain ⟨m, hm, rfl⟩ := digitChar_of_mem_toDigits hd
  exact hall m (List.mem_range.mpr hm)

/-- Upper-case digits read back as well. -/
theorem foldl_hexValue_upperHex (n : Nat) :
    (upperHex n).foldl (fun value d => 16 * value + hexValue d) 0 = n := by
  have hall : ∀ m ∈ List.range 16, hexValue m.digitChar.toUpper = hexValue m.digitChar := by
    decide
  have hdigit : ∀ d ∈ Nat.toDigits 16 n, hexValue d.toUpper = hexValue d := by
    intro d hd
    obtain ⟨m, hm, rfl⟩ := digitChar_of_mem_toDigits hd
    exact hall m (List.mem_range.mpr hm)
  have hvalues : (upperHex n).map hexValue = (Nat.toDigits 16 n).map hexValue := by
    rw [upperHex, List.map_map]
    exact List.map_congr_left hdigit
  have hfold (ds : List Char) : ds.foldl (fun value d => 16 * value + hexValue d) 0 =
      (ds.map hexValue).foldl (fun value digit => 16 * value + digit) 0 := List.foldl_map.symm
  rw [hfold, hvalues, ← hfold, foldl_hexValue]

/-- A code point has six digits at most. -/
theorem reads_codePoint {n : Nat} (h : n ≤ 0x10ffff) :
    Reads Reader.codePoint (upperHex n) n (Ends fun c => !isHexDigit c) := by
  have hne : upperHex n ≠ [] := fun hnil =>
    Nat.toDigits_ne_nil (n := n) (b := 16) (List.map_eq_nil_iff.mp hnil)
  have hlength : (upperHex n).length ≤ 6 := by
    rw [upperHex, List.length_map]
    exact (Nat.length_toDigits_le_iff (by omega) (by omega)).mpr (by omega)
  refine (Reads.span (List.all_eq_true.mpr isHexDigit_of_mem_upperHex)).pick ?_
  rw [if_pos ⟨hne, hlength⟩, foldl_hexValue_upperHex]

namespace UnicodeRange

/-- The last character is named if it is not the first one, too. -/
def namedLast (r : UnicodeRange) : Option Nat := if r.first = r.last then none else some r.last

theorem reads_codePoints (r : UnicodeRange) :
    Reads Reader.codePoints (css r) (r.first, r.namedLast) (· = []) := by
  have hlast : Reads (Reader.opt (fun _ => true) (do Reader.expect ['-']; Reader.codePoint))
      (if r.last = r.first then [] else '-' :: upperHex r.last) r.namedLast (· = []) := by
    unfold namedLast
    split
    case isTrue h =>
      rw [if_pos h.symm]
      refine Reads.opt_none.mono ?_
      rintro _ rfl
      exact .nil
    case isFalse h =>
      rw [if_neg (Ne.symm h)]
      refine (Reads.opt_some ((reads_codePoint r.last_le).after ['-']) rfl).mono ?_
      rintro _ rfl
      exact .nil
  have hfirst := reads_codePoint (Nat.le_trans r.first_le_last r.last_le)
  show Reads _ (['U', '+'] ++ upperHex r.first ++ _) _ _
  rw [List.append_assoc]
  refine Reads.after ['U', '+'] (hfirst.bind (hlast.map fun last => (r.first, last)) ?_)
  rintro _ rfl
  split
  · exact .nil
  · exact .cons rfl

/-- A range has no comma in it. -/
theorem isArgument_css (r : UnicodeRange) : IsArgument (css r) := by
  have hdigits (n : Nat) : IsArgument.AllPlain (upperHex n) :=
    .of_isNameChar (List.all_eq_true.mpr fun c hc =>
      isNameChar_of_isHexDigit (isHexDigit_of_mem_upperHex c hc))
  have hlead : IsArgument.AllPlain ['U', '+'] :=
    List.forall_mem_cons.mpr ⟨⟨rfl, rfl⟩, List.forall_mem_singleton.mpr ⟨rfl, rfl⟩⟩
  refine .of_allPlain (List.forall_mem_append.mpr ⟨?_, ?_⟩)
  · exact List.forall_mem_append.mpr ⟨hlead, hdigits r.first⟩
  · split
    · exact List.forall_mem_nil _
    · exact List.forall_mem_cons.mpr ⟨by decide, hdigits r.last⟩

instance : Argument UnicodeRange := ⟨isArgument_css⟩

end UnicodeRange

/-! ### In a font face -/

namespace FontSource.Calls

/-- The last format and all technologies are kept. -/
theorem run_url (address : String) (hints : List Hint) : (url address hints).run =
    .url ⟨address⟩ (lastSet Hint.format? hints) (hints.filterMap Hint.tech?) := by
  rw [run, ofUrl, hinted_url, Option.or_none, List.nil_append]

theorem run_installed (name : String) (hints : List Hint) :
    (installed name hints).run = .installed ⟨name⟩ :=
  hinted_installed ..

/-- So the source reads back as what its calls told. -/
theorem ofText?_run (c : Calls) : ofText? (css c.run) = some c.told := by
  cases c with
  | url address hints => rw [ofText?_css, run_url, normal, told]
  | installed name hints => rw [ofText?_css, run_installed, normal, told]

end FontSource.Calls

namespace FontFaceRule

/-- The sources stay where they are, whatever else is set. -/
theorem get?_src (family : String) {sources : List FontSource} (h : sources ≠ [])
    (steps : List FontFaceStep) : ∃ start, of family sources = .ok start ∧
      (FontFaceStep.builder.build start steps).descriptors.get? "src".toList =
        some ⟨"src".toList, commaSeparated sources, false⟩ := by
  obtain ⟨start, hof, hfilled⟩ := filled_of family h steps
  have hmem := List.mem_of_getElem? hfilled.sources_eq
  exact ⟨start, hof, find?_key_of_mem hfilled.keepsLatest.nodup hmem⟩

/-- The descriptor holds the ranges in order. -/
theorem get?_withUnicodeRange (r : FontFaceRule) (u : UnicodeRange) (us : List UnicodeRange) :
    ∃ r', r.withUnicodeRange (u :: us) = .ok r' ∧ r'.descriptors.get? "unicode-range".toList =
      some ⟨"unicode-range".toList, commaSeparated (u :: us), false⟩ := by
  have hput (entries : List Declaration) (d : Declaration) :
      (put Declaration.name entries d).find? (·.name == d.name) = some d :=
    (find?_put d.name).trans (if_pos (beq_self_eq_true d.name))
  exact ⟨_, rfl, hput r.descriptors.entries ⟨"unicode-range".toList, _, false⟩⟩

/-- **Sources and ranges of characters read back.** The sources of a font face come apart at
the outer commas. Each one tells its address or its name, the last format that was set and
every technology in the order of the calls; an installed font has no hints. Ranges come apart
in the same way, and each one tells its first and its last character, or one character if
they are the same. -/
theorem sources_and_ranges_read_back :
    (∀ (family : String) (c : FontSource.Calls) (cs : List FontSource.Calls)
      (steps : List FontFaceStep), ∃ start src,
        of family ((c :: cs).map FontSource.Calls.run) = .ok start ∧
        (FontFaceStep.builder.build start steps).descriptors.get? "src".toList =
          some ⟨"src".toList, src, false⟩ ∧
        cutAt ',' src = ⟨css c.run, cs.map fun c => ' ' :: css c.run⟩ ∧
        (cutArguments src).map FontSource.ofText? = (c :: cs).map fun c => some c.told) ∧
    (∀ (r : FontFaceRule) (u : UnicodeRange) (us : List UnicodeRange), ∃ r' text,
        r.withUnicodeRange (u :: us) = .ok r' ∧
        r'.descriptors.get? "unicode-range".toList =
          some ⟨"unicode-range".toList, text, false⟩ ∧
        cutAt ',' text = ⟨css u, us.map fun u => ' ' :: css u⟩ ∧
        (cutArguments text).map Reader.codePoints.whole =
          (u :: us).map fun u => some (u.first, u.namedLast)) ∧
    ∀ r : FontFaceRule, r.withUnicodeRange [] = .error (.emptyList "unicode-range") := by
  refine ⟨fun family c cs steps => ?_, fun r u us => ?_, fun _ => rfl⟩
  · obtain ⟨start, hof, hsrc⟩ :=
      get?_src family (List.cons_ne_nil c.run (cs.map FontSource.Calls.run)) steps
    have hpasses : ∀ s ∈ c.run :: cs.map FontSource.Calls.run,
        Scan.Passes (· == ',') .start (css s) .start := fun s _ => s.passes_comma
    refine ⟨start, _, hof, hsrc, ?_, ?_⟩
    · rw [cutAt_commaSeparated hpasses, List.map_map]
      rfl
    · have hread : ∀ c : FontSource.Calls, FontSource.ofText? (css c.run) = some c.told :=
        FontSource.Calls.ofText?_run
      rw [cutArguments_of_passes hpasses]
      simp only [List.map_cons, List.map_map, Function.comp_def, hread]
  · obtain ⟨r', hwith, htext⟩ := r.get?_withUnicodeRange u us
    have hpasses : ∀ u' ∈ u :: us, Scan.Passes (· == ',') .start (css u') .start :=
      fun u' _ => (isArgument u').passes rfl
    refine ⟨r', _, hwith, htext, cutAt_commaSeparated hpasses, ?_⟩
    rw [cutArguments_commaSeparated, List.map_map]
    exact List.map_congr_left fun u' _ => u'.reads_codePoints.whole rfl

end FontFaceRule
end Stylesheet
