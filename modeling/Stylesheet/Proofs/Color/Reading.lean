import Stylesheet.Proofs.Box.Sides
import Stylesheet.Proofs.Media.Feature
import Stylesheet.Proofs.Reading.Number

/-! Reading colors back.

A function shows its name up to the bracket, and its arguments are cut at the commas or, in
the newest notation, at the spaces between them. Anything else is in hexadecimal notation or
a word, and no two words are alike. No color begins like a quantity. -/
namespace Stylesheet

/-! ### Functions and their arguments -/

/-- The name and the argument of a function. -/
def readCall (t : List Char) : Option (List Char × List Char) :=
  (unwrap? '(' ')' (t.dropWhile (· != '('))).map (t.takeWhile (· != '('), ·)

/-- A call is taken apart at its first parenthesis, which the name cannot have. -/
theorem readCall_call {name t : List Char} (hname : name.all (· != '(')) :
    readCall (name ++ '(' :: (t ++ [')'])) = some (name, t) := by
  have hspan := Reads.span hname ('(' :: (t ++ [')'])) (.cons rfl)
  obtain ⟨htake, hdrop⟩ := Prod.mk.inj (Option.some.inj hspan)
  rw [readCall, htake, hdrop, unwrap?_enclosed]
  rfl

/-- A text without a parenthesis is no call. -/
theorem readCall_of_all {t : List Char} (h : t.all (· != '(')) : readCall t = none := by
  have hspan := Reads.span h [] .nil
  rw [List.append_nil] at hspan
  rw [readCall, (Prod.mk.inj (Option.some.inj hspan)).2]
  rfl

/-- The texts between the outer commas, without the space behind each. -/
def cutArguments (t : List Char) : List (List Char) :=
  (cutAt ',' t).first :: (cutAt ',' t).rest.map (·.drop 1)

/-- Each argument but the first has a space in front, which is dropped. -/
theorem cutArguments_joined {t : List Char} {ts : List (List Char)}
    (h : ∀ u ∈ t :: ts, Scan.Passes (· == ',') .start u .start) :
    cutArguments (joined [',', ' '] (t :: ts)) = t :: ts := by
  rw [cutArguments, cutAt_commas h, List.map_map]
  exact congrArg (t :: ·) (List.map_id ts)

theorem cutArguments_of_passes {α : Type} [ToCss α] {a : α} {as : List α}
    (h : ∀ b ∈ a :: as, Scan.Passes (· == ',') .start (css b) .start) :
    cutArguments (commaSeparated (a :: as)) = (a :: as).map css := by
  rw [cutArguments, cutAt_commaSeparated h, List.map_map]
  rfl

theorem clause_canonical {α : Type} [ToCss α] [Readable α] (lead : String) (a : Option α) :
    clause lead (a.map canonical) = clause lead a := by
  cases a with
  | none => rfl
  | some a => exact congrArg (lead.toList ++ ·) (css_canonical a)

namespace Color

/-! ### The reader -/

/-- A numeral that fits into a byte. -/
def channel? (t : List Char) : Option UInt8 :=
  (read? t).bind fun n : Nat => if n < 256 then some n.toUInt8 else none

/-- Arguments that have commas between them. -/
def ofArguments? : List Char → List (List Char) → Option Color
  | ['r', 'g', 'b'], [r, g, b] => return rgb (← channel? r) (← channel? g) (← channel? b)
  | ['r', 'g', 'b', 'a'], [r, g, b, a] =>
    return rgba (← channel? r) (← channel? g) (← channel? b) (← read? a)
  | ['h', 's', 'l'], [h, s, l] => return hsl ⟨← read? h, ← read? s, ← read? l, none⟩
  | ['h', 's', 'l', 'a'], [h, s, l, a] =>
    return hsl ⟨← read? h, ← read? s, ← read? l, some (← read? a)⟩
  | _, _ => none

/-- Words that have spaces between them. -/
def ofHwb? : List (List Char) → Option Color
  | [h, w, b] => return hwb ⟨← read? h, ← read? w, ← read? b, none⟩
  | [h, w, b, ['/'], a] => return hwb ⟨← read? h, ← read? w, ← read? b, some (← read? a)⟩
  | _ => none

/-- Only `hwb` has spaces between its arguments. -/
def ofCall? (name t : List Char) : Option Color :=
  if name = ['h', 'w', 'b'] then ofHwb? (cutAt ' ' t).toList else ofArguments? name (cutArguments t)

/-- A call, digits behind a number sign, or a word. -/
def ofText? (t : List Char) : Option Color :=
  match readCall t with
  | some (name, t) => ofCall? name t
  | none =>
    if t.head? = some '#' then (ofHex (String.ofList t)).toOption
    else keywords.find? (css · == t)

/-- The same color with every number in canonical form. -/
def canonicalNumbers : Color → Color
  | rgba r g b alpha => rgba r g b (canonical alpha)
  | hsl c => hsl ⟨canonical c.hue, canonical c.saturation, canonical c.lightness,
      c.alpha.map canonical⟩
  | hwb c => hwb ⟨canonical c.hue, canonical c.whiteness, canonical c.blackness,
      c.alpha.map canonical⟩
  | c => c

/-! ### Reading -/

/-- A channel reads back. -/
theorem channel?_css (c : UInt8) : channel? (css c.toNat) = some c := by
  rw [channel?, read?_css, Option.bind_some]
  refine (if_pos c.toNat_lt).trans (congrArg some ?_)
  exact UInt8.ofNat_toNat

/-- The words are told apart, so the first with the text is the only one. -/
theorem find?_keywords {c : Color} (h : c.form = .word) :
    keywords.find? (css · == css c) = some c := by
  have hsome : (keywords.find? (css · == css c)).isSome :=
    List.find?_isSome.mpr ⟨c, mem_keywords h, beq_self_eq_true _⟩
  obtain ⟨d, hd⟩ := Option.isSome_iff_exists.mp hsome
  have hbeq : (css d == css c) = true := List.find?_some (p := (css · == css c)) hd
  have hcss := eq_of_beq hbeq
  rw [hd, keyword_inj ((form_inj hcss).trans h) h hcss]

theorem all_isAlpha_word {c : Color} (h : c.form = .word) : (css c).all Char.isAlpha := by
  cases c with
  | currentColor => exact all_toList rfl
  | transparent => exact all_toList rfl
  | named name => exact all_isAlpha_named name
  | system name => exact all_isAlpha_system name
  | _ => exact nomatch h

/-- A word is found in the list of those that are colors. -/
theorem ofText?_word {c : Color} (h : c.form = .word) : ofText? (css c) = some c := by
  have halpha := List.all_eq_true.mp (all_isAlpha_word h)
  have hround : (css c).all (· != '(') := by
    refine List.all_eq_true.mpr fun d hd => bne_iff_ne.mpr ?_
    rintro rfl
    exact absurd (halpha '(' hd) (by decide)
  have hhash : (css c).head? ≠ some '#' := fun hhead =>
    absurd (halpha '#' (List.mem_of_mem_head? hhead)) (by decide)
  rw [ofText?, readCall_of_all hround]
  exact (if_neg hhash).trans (find?_keywords h)

/-- Hexadecimal notation is read by the function that is there for it. -/
theorem ofText?_hex (r g b : UInt8) (a : Option UInt8) :
    ofText? (css (hex r g b a)) = some (hex r g b a) := by
  have htext : css (hex r g b a) = '#' :: _ := hexText_eq ([r, g, b] ++ a.toList)
  have hround : (css (hex r g b a)).all (· != '(') := by
    have hdigit : ∀ m < 16, Nat.digitChar m ≠ '(' := by decide
    rw [htext, List.all_cons, List.all_map]
    exact List.all_eq_true.mpr fun n hn => bne_iff_ne.mpr (hdigit _ (lt_of_mem_nibbles hn))
  rw [ofText?, readCall_of_all hround]
  refine (if_pos (by rw [htext]; rfl)).trans ?_
  rw [ofHex_css]
  rfl

theorem ofText?_call {w t : List Char} (hw : w.all (· != '(')) :
    ofText? (call (String.ofList w) t) = ofCall? w t := by
  rw [ofText?, call_ofList, readCall_call hw]

/-- The functions with commas are read by their name and their arguments. -/
theorem ofText?_arguments {w t : List Char} {ts : List (List Char)}
    (hround : w.all (· != '(')) (hname : w ≠ ['h', 'w', 'b'])
    (h : ∀ u ∈ t :: ts, IsArgument u) :
    ofText? (call (String.ofList w) (joined ", ".toList (t :: ts))) =
      ofArguments? w (t :: ts) := by
  have hcomma : ", ".toList = [',', ' '] := String.toList_ofList
  rw [ofText?_call hround, ofCall?, if_neg hname, hcomma,
    cutArguments_joined fun u hu => (h u hu).passes rfl]

theorem ofText?_rgb (r g b : UInt8) : ofText? (css (rgb r g b)) = some (rgb r g b) := by
  have hchannels : ∀ t ∈ [css r.toNat, css g.toNat, css b.toNat], IsArgument t := by
    simp only [List.forall_mem_cons]
    exact ⟨isArgument r.toNat, isArgument g.toNat, isArgument b.toNat, List.forall_mem_nil _⟩
  refine (ofText?_arguments (w := ['r', 'g', 'b']) rfl (by decide) hchannels).trans ?_
  simp only [ofArguments?, channel?_css]
  rfl

theorem ofText?_rgba (r g b : UInt8) (alpha : Alpha) :
    ofText? (css (rgba r g b alpha)) = some (rgba r g b (canonical alpha)) := by
  have hchannels : ∀ t ∈ [css r.toNat, css g.toNat, css b.toNat, css alpha], IsArgument t := by
    simp only [List.forall_mem_cons]
    exact ⟨isArgument r.toNat, isArgument g.toNat, isArgument b.toNat, isArgument alpha,
      List.forall_mem_nil _⟩
  have htext : css (rgba r g b alpha) = call (String.ofList ['r', 'g', 'b', 'a'])
      (joined ", ".toList [css r.toNat, css g.toNat, css b.toNat, css alpha]) := by
    show call "rgba" (channels r g b ++ ", ".toList ++ css alpha) = _
    simp [channels, commaSeparated, separated, joined]
  rw [htext, ofText?_arguments rfl (by decide) hchannels]
  simp only [ofArguments?, channel?_css, read?_css]
  rfl

/-- The name of `hsl` tells how many arguments there are. -/
theorem ofText?_hsl (c : Hsl) : ofText? (css (hsl c)) = some (hsl c).canonicalNumbers := by
  obtain ⟨hue, s, l, alpha⟩ := c
  have hportions := isArgument_portions hue s l
  cases alpha with
  | none =>
    have htext : css (hsl ⟨hue, s, l, none⟩) =
        call (String.ofList ['h', 's', 'l']) (joined ", ".toList (portions hue s l)) := by
      show css (⟨hue, s, l, none⟩ : Hsl) = _
      simp [Hsl.css_eq_call, Hsl.function, Hsl.arguments, clause]
    rw [htext, portions, ofText?_arguments rfl (by decide) hportions]
    simp only [ofArguments?, read?_css]
    rfl
  | some a =>
    have htext : css (hsl ⟨hue, s, l, some a⟩) = call (String.ofList ['h', 's', 'l', 'a'])
        (joined ", ".toList [css hue, css s, css l, css a]) := by
      show css (⟨hue, s, l, some a⟩ : Hsl) = _
      simp [Hsl.css_eq_call, Hsl.function, Hsl.arguments, clause, portions, joined]
    have hall : ∀ t ∈ [css hue, css s, css l, css a], IsArgument t := by
      simp only [List.forall_mem_cons]
      exact ⟨isArgument hue, isArgument s, isArgument l, isArgument a, List.forall_mem_nil _⟩
    rw [htext, ofText?_arguments rfl (by decide) hall]
    simp only [ofArguments?, read?_css]
    rfl

/-- What stands between the brackets of an hwb color: a solidus comes before the alpha. -/
def hwbWords (c : Hwb) : List (List Char) :=
  portions c.hue c.whiteness c.blackness ++ c.alpha.elim [] fun a => [['/'], css a]

theorem cutAt_hwbArguments (c : Hwb) : (cutAt ' ' c.arguments).toList = hwbWords c := by
  obtain ⟨hue, w, b, alpha⟩ := c
  cases alpha with
  | none =>
    rw [Hwb.arguments, clause, List.append_nil]
    exact (cutAt_words (isArgument_portions hue w b)).trans (List.append_nil _).symm
  | some a =>
    have htext : Hwb.arguments ⟨hue, w, b, some a⟩ =
        css hue ++ ' ' :: (css w ++ ' ' :: (css b ++ ' ' :: '/' :: ' ' :: css a)) := by
      simp [Hwb.arguments, portions, joined, clause]
    have hslash : cutAt ' ' ('/' :: ' ' :: css a) = ⟨['/'], (cutAt ' ' (css a)).toList⟩ := rfl
    rw [htext, cutAt_cons ((isArgument hue).passes rfl) (by decide),
      cutAt_cons ((isArgument w).passes rfl) (by decide),
      cutAt_cons ((isArgument b).passes rfl) (by decide), hslash,
      cutAt_of_passes ((isArgument a).passes rfl)]
    rfl

theorem ofText?_hwb (c : Hwb) : ofText? (css (hwb c)) = some (hwb c).canonicalNumbers := by
  have hread : ofText? (css (hwb c)) = ofHwb? (cutAt ' ' c.arguments).toList := by
    show ofText? (css c) = _
    rw [Hwb.css_eq_call]
    exact (ofText?_call (w := ['h', 'w', 'b']) rfl).trans (if_pos rfl)
  rw [hread, cutAt_hwbArguments]
  obtain ⟨hue, w, b, alpha⟩ := c
  cases alpha with
  | none =>
    simp only [hwbWords, portions, Option.elim, List.append_nil, ofHwb?, read?_css]
    rfl
  | some a =>
    simp only [hwbWords, portions, Option.elim, List.cons_append, List.nil_append, ofHwb?,
      read?_css]
    rfl

/-- **A color is read back in its own notation.** -/
theorem ofText?_css (c : Color) : ofText? (css c) = some c.canonicalNumbers := by
  cases c with
  | hex r g b a => exact ofText?_hex r g b a
  | rgb r g b => exact ofText?_rgb r g b
  | rgba r g b alpha => exact ofText?_rgba r g b alpha
  | hsl c => exact ofText?_hsl c
  | hwb c => exact ofText?_hwb c
  | _ => exact ofText?_word rfl

/-- Reading back keeps the text. -/
theorem css_canonicalNumbers (c : Color) : css c.canonicalNumbers = css c := by
  cases c with
  | rgba r g b alpha =>
    show call _ (_ ++ css (canonical alpha)) = call _ (_ ++ css alpha)
    rw [css_canonical]
  | hsl c =>
    show hslText _ = hslText _
    simp only [hslText, css_canonical, clause_canonical, Option.isSome_map]
  | hwb c =>
    show hwbText _ = hwbText _
    simp only [hwbText, css_canonical, clause_canonical]
  | _ => rfl

end Color

instance : Readable Color where
  read? := Color.ofText?
  canonical := Color.canonicalNumbers
  read?_css := Color.ofText?_css
  css_canonical := Color.css_canonicalNumbers

instance : CanonicalNumbers Color where
  numbers_canonical c := by
    cases c with
    | hsl c =>
      obtain ⟨_, _, _, alpha⟩ := c
      cases alpha <;> rfl
    | hwb c =>
      obtain ⟨_, _, _, alpha⟩ := c
      cases alpha <;> rfl
    | _ => rfl

theorem map_canonical_beq {α : Type} [ToCss α] [Readable α] [BEq α] [HasNumbers α] [Faithful α]
    [CanonicalNumbers α] {a : Option α} (h : NaNFree a) : a.map canonical == a := by
  cases a with
  | none => rfl
  | some a => exact canonical_beq (a := a) h

/-! ### Colors among quantities -/

theorem not_startsNumber {t : List Char} (h : Ends (!isNumberChar ·) t) :
    OwnText.startsNumber t = false := by
  cases t with
  | nil => rfl
  | cons c t =>
    have hc : isNumberChar c = false := by simpa using h c rfl
    simp only [isNumberChar, Bool.or_eq_false_iff, beq_eq_false_iff_ne] at hc
    unfold OwnText.startsNumber
    split
    case h_1 heq => exact absurd (List.cons.inj heq).1 (by simp [hc])
    case h_2 => simp [hc]

/-- Letters before the end of an argument do not begin a quantity. -/
theorem not_isQuantity_word {w u : List Char} (hw : w.all Char.isAlpha) (hu : Ends argumentEnd u) :
    isQuantity (w ++ u) = false := by
  have hends {p : Char → Bool} (hp : [' ', ','].all p) : Ends p u := by
    intro c hc
    have hmark : oneOf [' ', ','] c := by simpa [argumentEnd, oneOf] using hu c hc
    exact of_oneOf hmark hp
  have hnumber : Ends (!isNumberChar ·) (w ++ u) := by
    cases w with
    | nil => exact hends (by decide)
    | cons c w => exact fun d hd => ends_of_isAlpha hw d hd
  rw [isQuantity, not_startsNumber hnumber, Bool.false_or]
  refine Bool.eq_false_iff.mpr fun hprefix => ?_
  obtain ⟨v, hv⟩ := List.isPrefixOf_iff_prefix.mp hprefix
  have hcalc : "calc(".toList ++ v = ['c', 'a', 'l', 'c'] ++ '(' :: v := rfl
  obtain ⟨-, rfl⟩ := span_inj (q := Char.isAlpha) hw (by decide) (hends (by decide))
    (.cons (by decide)) (hv.symm.trans hcalc)
  exact absurd (hu '(' rfl) (by decide)

/-- No color begins like a quantity, whatever follows it. -/
theorem Color.not_isQuantity (c : Color) {u : List Char} (hu : Ends argumentEnd u) :
    isQuantity (css c ++ u) = false := by
  cases c with
  | rgb r g b => rfl
  | rgba r g b alpha => rfl
  | hsl c =>
    show isQuantity (css c ++ u) = _
    rw [Hsl.css_eq_call, Hsl.function]
    split <;> rfl
  | hwb c => rfl
  | hex r g b a =>
    show isQuantity (hexText _ ++ u) = _
    rw [hexText_eq]
    rfl
  | _ => exact not_isQuantity_word (all_isAlpha_word rfl) hu

/-- No color is a quantity, so that lengths and colors can be told apart. -/
theorem Color.not_isQuantity_css (c : Color) : isQuantity (css c) = false := by
  have h := c.not_isQuantity (u := []) .nil
  rwa [List.append_nil] at h

end Stylesheet
