import Stylesheet.Paint.Color
import Stylesheet.Proofs.Equality.Shape

/-! Equal colors and equal texts.

The notations of a color show by what its text begins with: a hash sign, the name of a
function, or neither. The digits after a hash sign are read back as the channels, and no two
words for colors are alike, whether they are names or stand for what the system chooses. -/
namespace Stylesheet
open Binary32

/-! ### An optional part -/

section
variable {α : Type} [ToCss α]

instance [HasNumbers α] : HasNumbers (Option α) := ⟨fun a => a.elim [] numbers⟩

/-- The text of an optional part depends on the text of the part alone. -/
theorem clause_congr {lead : String} {a b : Option α} (h : a.map css = b.map css) :
    clause lead a = clause lead b := by
  cases a <;> cases b
  · rfl
  · exact nomatch h
  · exact nomatch h
  · exact congrArg (lead.toList ++ ·) (Option.some.inj h)

variable [BEq α] [HasNumbers α] [Faithful α]

/-- Optional parts that are equal are both there or both missing. -/
theorem map_css_of_beq {a b : Option α} (h : a == b) :
    a.map css = b.map css := by
  cases a <;> cases b
  · rfl
  · exact nomatch h
  · exact nomatch h
  · exact congrArg some (Faithful.css_eq h)

/-- And the other way round, where no number is undefined. -/
theorem beq_of_map_css {a b : Option α} (ha : NaNFree a) (hb : NaNFree b)
    (h : a.map css = b.map css) : a == b := by
  cases a with
  | none =>
    cases b with
    | none => rfl
    | some => exact nomatch h
  | some a =>
    cases b with
    | none => exact nomatch h
    | some b => exact Faithful.beq (a := a) (b := b) ha hb (Option.some.inj h)

end

/-! ### Hexadecimal notation -/

namespace Color

/-- The hexadecimal digits of the channels. -/
def nibbles (channels : List UInt8) : List UInt8 :=
  if channels.all fun c => c / 16 == c % 16 then channels.map (· % 16)
  else channels.flatMap fun c => [c / 16, c % 16]

/-- **The text is one digit for each nibble**, whether the short form is used or not. -/
theorem hexText_eq (channels : List UInt8) :
    hexText channels = '#' :: (nibbles channels).map fun n => Nat.digitChar n.toNat := by
  unfold hexText nibbles
  split <;> simp [List.map_flatMap]

/-- A nibble is less than sixteen. -/
theorem lt_of_mem_nibbles {channels : List UInt8} {n : UInt8} (h : n ∈ nibbles channels) :
    n.toNat < 16 := by
  have hlow (c : UInt8) : (c % 16).toNat < 16 := by
    rw [UInt8.toNat_mod]
    exact Nat.mod_lt _ (by decide)
  have hhigh (c : UInt8) : (c / 16).toNat < 16 := by
    rw [UInt8.toNat_div]
    exact Nat.div_lt_of_lt_mul c.toNat_lt
  unfold nibbles at h
  split at h
  · obtain ⟨c, -, rfl⟩ := List.mem_map.mp h
    exact hlow c
  · obtain ⟨c, -, hc⟩ := List.mem_flatMap.mp h
    simp only [List.mem_cons, List.not_mem_nil, or_false] at hc
    obtain rfl | rfl := hc
    · exact hhigh c
    · exact hlow c

theorem hexDigit?_digitChar {n : UInt8} (h : n.toNat < 16) :
    hexDigit? (Nat.digitChar n.toNat) = some n := by
  have hall : ∀ m < 16, hexDigit? (Nat.digitChar m) = some (UInt8.ofNat m) := by decide
  rw [hall _ h, UInt8.ofNat_toNat]

/-- The digits read back as the nibbles they were written for. -/
theorem mapM_hexDigit? {ns : List UInt8} (h : ∀ n ∈ ns, n.toNat < 16) :
    (ns.map fun n => Nat.digitChar n.toNat).mapM hexDigit? = some ns := by
  induction ns with
  | nil => rfl
  | cons n ns ih =>
    rw [List.forall_mem_cons] at h
    simp [hexDigit?_digitChar h.1, ih h.2]

/-- A byte is made of its two nibbles. -/
theorem high_mul_add_low (c : UInt8) : c / 16 * 16 + c % 16 = c := by
  have hlt := c.toNat_lt
  apply UInt8.toNat_inj.mp
  simp only [UInt8.toNat_add, UInt8.toNat_mul, UInt8.toNat_div, UInt8.toNat_mod, UInt8.reduceToNat]
  omega

/-- A digit that is repeated. -/
theorem low_mul {c : UInt8} (h : c / 16 = c % 16) : c % 16 * 17 = c := by
  have hlt := c.toNat_lt
  have hnat := congrArg UInt8.toNat h
  apply UInt8.toNat_inj.mp
  simp only [UInt8.toNat_mul, UInt8.toNat_div, UInt8.toNat_mod, UInt8.reduceToNat] at hnat ⊢
  omega

/-- The nibbles make the channels, since a channel in the short form has the same nibble twice. -/
theorem ofNibbles?_nibbles (r g b : UInt8) (a : Option UInt8) :
    ofNibbles? (nibbles ([r, g, b] ++ a.toList)) = some (hex r g b a) := by
  unfold nibbles
  split
  case isTrue hsame =>
    cases a with
    | none =>
      simp at hsame
      simp [ofNibbles?, low_mul, hsame]
    | some a =>
      simp at hsame
      simp [ofNibbles?, low_mul, hsame]
  case isFalse =>
    cases a <;> simp [ofNibbles?, high_mul_add_low]

/-- **Hexadecimal notation is read back as the same color.** -/
theorem ofHex_css (r g b : UInt8) (a : Option UInt8) :
    ofHex (String.ofList (css (hex r g b a))) = .ok (hex r g b a) := by
  have hdigits := mapM_hexDigit? fun n (hn : n ∈ nibbles ([r, g, b] ++ a.toList)) =>
    lt_of_mem_nibbles hn
  have htext : css (hex r g b a) = _ := hexText_eq ([r, g, b] ++ a.toList)
  rw [htext]
  simp only [ofHex, String.toList_ofList, hdigits, Option.bind_eq_bind, Option.bind_some,
    ofNibbles?_nibbles]

/-- Hexadecimal colors with one text have the same channels. -/
theorem beq_of_hex {r g b r' g' b' : UInt8} {a a' : Option UInt8}
    (h : css (hex r g b a) = css (hex r' g' b' a')) : hex r g b a == hex r' g' b' a' := by
  have hread := ofHex_css r g b a
  rw [h, ofHex_css] at hread
  obtain ⟨rfl, rfl, rfl, rfl⟩ := hex.inj (Except.ok.inj hread)
  show (r' == r' && (g' == g' && (b' == b' && a' == a'))) = true
  simp only [beq_self_eq_true, Bool.and_self]

end Color

/-! ### A hue with two portions -/

section
variable {hue hue' : Binary32} {p p' q q' : ClampedPercentage} {alpha alpha' : Option Alpha}

/-- The arguments that `hsl` and `hwb` have in common. -/
def portions (hue : Binary32) (p q : ClampedPercentage) : List (List Char) :=
  [css hue, css p, css q]

theorem isArgument_portions (hue : Binary32) (p q : ClampedPercentage) :
    ∀ t ∈ portions hue p q, IsArgument t := by
  simp only [portions, List.forall_mem_cons]
  exact ⟨isArgument hue, isArgument p, isArgument q, List.forall_mem_nil _⟩

/-- Equal numbers are written alike, and so are the portions. -/
theorem portions_congr
    (h : (hue == hue' && (p == p' && (q == q' && alpha == alpha'))) = true) :
    portions hue p q = portions hue' p' q' ∧ alpha.map css = alpha'.map css := by
  simp only [Bool.and_eq_true] at h
  obtain ⟨hhue, hp, hq, halpha⟩ := h
  refine ⟨?_, map_css_of_beq halpha⟩
  rw [portions, portions, Faithful.css_eq hhue, Faithful.css_eq hp, Faithful.css_eq hq]

/-- And the other way round. The separator and what introduces the alpha end an argument, so
that each number can be taken off the text. -/
theorem portions_inj {c : Char} {separator lead : List Char} (hc : argumentEnd c)
    (hlead : lead.head?.any argumentEnd)
    (hn : ∀ x ∈ hue :: (numbers p ++ numbers q ++ numbers alpha), x.isNaN = false)
    (hn' : ∀ x ∈ hue' :: (numbers p' ++ numbers q' ++ numbers alpha'), x.isNaN = false)
    (h : joined (c :: separator) (portions hue p q) ++ clause (String.ofList lead) alpha =
      joined (c :: separator) (portions hue' p' q') ++ clause (String.ofList lead) alpha') :
    (hue == hue' && (p == p' && (q == q' && alpha == alpha'))) = true := by
  have hne : lead ≠ [] := by
    rintro rfl
    exact nomatch hlead
  obtain ⟨hportions, hclause⟩ := joined_append_inj hc (by rfl) (isArgument_portions hue p q)
    (isArgument_portions hue' p' q') (ends_clause alpha hlead) (ends_clause alpha' hlead) h
  simp only [List.cons.injEq] at hportions
  obtain ⟨hhue, hp, hq, -⟩ := hportions
  simp only [List.forall_mem_cons, List.forall_mem_append] at hn hn'
  obtain ⟨hnhue, ⟨hnp, hnq⟩, hnalpha⟩ := hn
  obtain ⟨hnhue', ⟨hnp', hnq'⟩, hnalpha'⟩ := hn'
  simp only [Bool.and_eq_true]
  exact ⟨eq_of_css hnhue hnhue' hhue, Faithful.beq hnp hnp' hp, Faithful.beq hnq hnq' hq,
    beq_of_map_css hnalpha hnalpha' (clause_inj hne hclause)⟩

end

instance : HasNumbers Hsl :=
  ⟨fun c => c.hue :: (numbers c.saturation ++ numbers c.lightness ++ numbers c.alpha)⟩

instance : HasNumbers Hwb :=
  ⟨fun c => c.hue :: (numbers c.whiteness ++ numbers c.blackness ++ numbers c.alpha)⟩

namespace Hsl

/-- The name tells whether there is an alpha. -/
def function (c : Hsl) : String := if c.alpha.isSome then "hsla" else "hsl"

def arguments (c : Hsl) : List Char :=
  joined ", ".toList (portions c.hue c.saturation c.lightness) ++ clause ", " c.alpha

/-- Written out as a call. -/
theorem css_eq_call (c : Hsl) : css c = call c.function c.arguments := by
  show call _ _ = _
  simp [function, arguments, portions, joined, List.append_assoc]

theorem all_function (c : Hsl) : c.function.toList.all (· != '(') := by
  unfold function
  split <;> decide

end Hsl

instance : Faithful Hsl where
  css_eq {c d} h := by
    obtain ⟨hportions, halpha⟩ := portions_congr h
    have hsome : c.alpha.isSome = d.alpha.isSome := by
      rw [← Option.isSome_map (f := css), halpha, Option.isSome_map]
    rw [Hsl.css_eq_call, Hsl.css_eq_call, Hsl.function, Hsl.function, hsome, Hsl.arguments,
      Hsl.arguments, hportions, clause_congr halpha]
  beq {c d} hc hd h := by
    rw [Hsl.css_eq_call, Hsl.css_eq_call] at h
    exact portions_inj rfl rfl hc hd (call_inj c.all_function d.all_function h).2

namespace Hwb

def arguments (c : Hwb) : List Char :=
  joined [' '] (portions c.hue c.whiteness c.blackness) ++ clause " / " c.alpha

theorem css_eq_call (c : Hwb) : css c = call "hwb" c.arguments := by
  show call _ _ = _
  simp [arguments, portions, joined, List.append_assoc]

end Hwb

instance : Faithful Hwb where
  css_eq {c d} h := by
    obtain ⟨hportions, halpha⟩ := portions_congr h
    rw [Hwb.css_eq_call, Hwb.css_eq_call, Hwb.arguments, Hwb.arguments, hportions,
      clause_congr halpha]
  beq {c d} hc hd h := by
    rw [Hwb.css_eq_call, Hwb.css_eq_call] at h
    exact portions_inj rfl rfl hc hd (call_cancel h)

/-! ### Words -/

namespace Color

/-- The words for colors. -/
def words : List String :=
  ["currentcolor", "transparent"] ++ (Keyword.all : List NamedColor).map Keyword.keyword ++
    (Keyword.all : List SystemColor).map Keyword.keyword

/-- The colors that are words, in the order of `words`. -/
def keywords : List Color :=
  [currentColor, transparent] ++ (Keyword.all : List NamedColor).map named ++
    (Keyword.all : List SystemColor).map system

/-- The bytes of a word as one number, so that words are compared as numbers are. -/
def wordNumber (s : String) : Nat :=
  s.toByteArray.data.toList.foldl (fun n b => n * 256 + b.toNat) 0

set_option maxRecDepth 2000 in
/-- No two colors share a word. The words are compared by number, for which the kernel is quick. -/
theorem nodup_words : words.Nodup := by
  have hnumbers : (words.map wordNumber).Nodup := by decide +kernel
  exact List.Pairwise.of_map wordNumber (fun _ _ hne heq => hne (congrArg wordNumber heq)) hnumbers

/-- The words are the texts of the colors that are keywords, in the same order. -/
theorem map_css_keywords : keywords.map css = words.map String.toList := by
  simp only [keywords, words, List.map_append, List.map_map]
  rfl

theorem mem_named (name : NamedColor) : name ∈ (Keyword.all : List NamedColor) := by
  cases name <;> decide

theorem mem_system (name : SystemColor) : name ∈ (Keyword.all : List SystemColor) := by
  cases name <;> decide

theorem all_isAlpha_named (name : NamedColor) : (css name).all Char.isAlpha := by
  cases name <;> exact all_toList rfl

theorem all_isAlpha_system (name : SystemColor) : (css name).all Char.isAlpha := by
  cases name <;> exact all_toList rfl

/-! ### Forms -/

/-- The notations of a color, with all words as one of them. -/
inductive Form where
  | word | hex | rgb | rgba | hsl | hwb
  deriving DecidableEq

/-- Which constructor made the color, with all keywords taken as one. -/
def form : Color → Form
  | currentColor | transparent | named _ | system _ => .word
  | hex .. => .hex
  | rgb .. => .rgb
  | rgba .. => .rgba
  | hsl _ => .hsl
  | hwb _ => .hwb

/-- The form that a text shows. -/
def Form.read (t : List Char) : Form :=
  if t.head? = some '#' then .hex
  else if t.all (· != '(') then .word
  else match t.takeWhile (· != '(') with
    | ['r', 'g', 'b'] => .rgb
    | ['r', 'g', 'b', 'a'] => .rgba
    | ['h', 'w', 'b'] => .hwb
    | _ => .hsl

theorem Form.read_of_isAlpha {t : List Char} (h : t.all Char.isAlpha) : Form.read t = .word := by
  have hne (c : Char) (hc : c.isAlpha = false) : c ∉ t := fun hmem => by
    rw [List.all_eq_true.mp h c hmem] at hc
    exact nomatch hc
  have hhash : t.head? ≠ some '#' := fun hhead => hne '#' rfl (List.mem_of_mem_head? hhead)
  have hround : t.all (· != '(') := by
    refine List.all_eq_true.mpr fun c hc => bne_iff_ne.mpr ?_
    rintro rfl
    exact hne '(' rfl hc
  rw [Form.read, if_neg hhash, if_pos hround]

/-- The form of a color is read off its text. -/
theorem read_css (c : Color) : Form.read (css c) = c.form := by
  cases c with
  | currentColor => decide
  | transparent => decide
  | named name => exact Form.read_of_isAlpha (all_isAlpha_named name)
  | system name => exact Form.read_of_isAlpha (all_isAlpha_system name)
  | hex r g b a =>
    show Form.read (hexText _) = _
    rw [hexText_eq]
    rfl
  | rgb => rfl
  | rgba => rfl
  | hsl c =>
    show Form.read (css c) = .hsl
    rw [Hsl.css_eq_call, Hsl.function]
    split <;> rfl
  | hwb => rfl

/-- Colors with one text have one form. -/
theorem form_inj {a b : Color} (h : css a = css b) : a.form = b.form := by
  rw [← read_css, h, read_css]

/-- A color that is a word is in the list. -/
theorem mem_keywords {c : Color} (h : c.form = .word) : c ∈ keywords := by
  cases c with
  | currentColor => exact .head _
  | transparent => exact .tail _ (.head _)
  | named name =>
    have hmem := List.mem_map_of_mem (f := named) (mem_named name)
    exact List.mem_append_left _ (List.mem_append_right _ hmem)
  | system name => exact List.mem_append_right _ (List.mem_map_of_mem (mem_system name))
  | _ => exact nomatch h

/-- **No two words for colors are alike.** -/
theorem keyword_inj {a b : Color} (ha : a.form = .word) (hb : b.form = .word)
    (h : css a = css b) : a = b := by
  have hnodup : (keywords.map css).Nodup := by
    rw [map_css_keywords]
    exact List.Pairwise.map _ (fun _ _ hne heq => hne (String.toList_injective heq)) nodup_words
  have hapart := List.pairwise_iff_getElem.mp (List.pairwise_map.mp hnodup)
  obtain ⟨i, hi, rfl⟩ := List.getElem_of_mem (mem_keywords ha)
  obtain ⟨j, hj, rfl⟩ := List.getElem_of_mem (mem_keywords hb)
  rcases Nat.lt_trichotomy i j with hlt | rfl | hlt
  · exact absurd h (hapart i j hi hj hlt)
  · rfl
  · exact absurd h.symm (hapart j i hj hi hlt)

/-- Words with one text are the same color. -/
theorem beq_of_word {a b : Color} (ha : a.form = .word) (hb : b.form = .word)
    (h : css a = css b) : a == b := by
  obtain rfl := keyword_inj ha hb h
  cases a with
  | currentColor => rfl
  | transparent => rfl
  | named name => exact beq_self_eq_true name
  | system name => exact beq_self_eq_true name
  | _ => exact nomatch ha

/-- Channels are numerals, which end where the commas begin. -/
theorem channels_inj {r g b r' g' b' : UInt8} {u v : List Char} (hu : Ends argumentEnd u)
    (hv : Ends argumentEnd v) (h : channels r g b ++ u = channels r' g' b' ++ v) :
    (r = r' ∧ g = g' ∧ b = b') ∧ u = v := by
  have hargument (r g b : UInt8) : ∀ t ∈ [r.toNat, g.toNat, b.toNat].map css, IsArgument t := by
    simp only [List.map_cons, List.forall_mem_cons]
    exact ⟨isArgument r.toNat, isArgument g.toNat, isArgument b.toNat, List.forall_mem_nil _⟩
  have hcomma : ", ".toList = [',', ' '] := String.toList_ofList
  rw [channels, channels, commaSeparated, commaSeparated, separated, separated, hcomma] at h
  obtain ⟨hall, hrest⟩ :=
    joined_append_inj rfl (by rfl) (hargument r g b) (hargument r' g' b') hu hv h
  simp only [List.map_cons, List.cons.injEq] at hall
  obtain ⟨hr, hg, hb, -⟩ := hall
  exact ⟨⟨UInt8.toNat_inj.mp (decimalDigits_inj hr), UInt8.toNat_inj.mp (decimalDigits_inj hg),
    UInt8.toNat_inj.mp (decimalDigits_inj hb)⟩, hrest⟩

theorem beq_of_rgb {r g b r' g' b' : UInt8} (h : css (rgb r g b) = css (rgb r' g' b')) :
    rgb r g b == rgb r' g' b' := by
  have hchannels : channels r g b ++ [] = channels r' g' b' ++ [] := by
    rw [List.append_nil, List.append_nil]
    exact call_cancel h
  obtain ⟨⟨rfl, rfl, rfl⟩, -⟩ := channels_inj .nil .nil hchannels
  show (r == r && (g == g && b == b)) = true
  simp only [beq_self_eq_true, Bool.and_self]

/-- The alpha is compared as a number, the channels as they are. -/
theorem beq_of_rgba {r g b r' g' b' : UInt8} {alpha alpha' : Alpha} (ha : NaNFree alpha)
    (ha' : NaNFree alpha') (h : css (rgba r g b alpha) = css (rgba r' g' b' alpha')) :
    rgba r g b alpha == rgba r' g' b' alpha' := by
  have hchannels : channels r g b ++ (", ".toList ++ css alpha) =
      channels r' g' b' ++ (", ".toList ++ css alpha') := by
    rw [← List.append_assoc, ← List.append_assoc]
    exact call_cancel h
  have hlead (alpha : Alpha) : Ends argumentEnd (", ".toList ++ css alpha) := .cons rfl
  obtain ⟨⟨rfl, rfl, rfl⟩, halpha⟩ := channels_inj (hlead alpha) (hlead alpha') hchannels
  have hbeq : alpha == alpha' := Faithful.beq ha ha' (List.append_cancel_left halpha)
  show (r == r && (g == g && (b == b && alpha == alpha'))) = true
  simp only [beq_self_eq_true, hbeq, Bool.and_self]

end Color

/-! ### Colors -/

instance : HasNumbers Color where
  numbers
    | .rgba _ _ _ alpha => numbers alpha
    | .hsl c => numbers c
    | .hwb c => numbers c
    | _ => []

instance : Faithful Color where
  css_eq {a b} h := by
    cases a <;> cases b
    case named.named n m => rw [eq_of_beq (a := n) (b := m) h]
    case system.system n m => rw [eq_of_beq (a := n) (b := m) h]
    case hex.hex r g b a r' g' b' a' =>
      obtain ⟨hr, hrest⟩ := Bool.and_eq_true_iff.mp h
      obtain ⟨hg, hrest⟩ := Bool.and_eq_true_iff.mp hrest
      obtain ⟨hb, ha⟩ := Bool.and_eq_true_iff.mp hrest
      rw [eq_of_beq hr, eq_of_beq hg, eq_of_beq hb, eq_of_beq ha]
    case rgb.rgb r g b r' g' b' =>
      obtain ⟨hr, hrest⟩ := Bool.and_eq_true_iff.mp h
      obtain ⟨hg, hb⟩ := Bool.and_eq_true_iff.mp hrest
      rw [eq_of_beq hr, eq_of_beq hg, eq_of_beq hb]
    case rgba.rgba r g b alpha r' g' b' alpha' =>
      obtain ⟨hr, hrest⟩ := Bool.and_eq_true_iff.mp h
      obtain ⟨hg, hrest⟩ := Bool.and_eq_true_iff.mp hrest
      obtain ⟨hb, halpha⟩ := Bool.and_eq_true_iff.mp hrest
      show call "rgba" (_ ++ _ ++ css alpha) = call "rgba" (_ ++ _ ++ css alpha')
      rw [eq_of_beq hr, eq_of_beq hg, eq_of_beq hb, Faithful.css_eq halpha]
    case hsl.hsl c d => exact Faithful.css_eq (a := c) (b := d) h
    case hwb.hwb c d => exact Faithful.css_eq (a := c) (b := d) h
    all_goals first | exact absurd h Bool.false_ne_true | rfl
  beq {a b} ha hb h := by
    have hform := Color.form_inj h
    cases a with
    | hex =>
      cases b with
      | hex => exact Color.beq_of_hex h
      | _ => exact nomatch hform
    | rgb =>
      cases b with
      | rgb => exact Color.beq_of_rgb h
      | _ => exact nomatch hform
    | rgba =>
      cases b with
      | rgba => exact Color.beq_of_rgba ha hb h
      | _ => exact nomatch hform
    | hsl c =>
      cases b with
      | hsl d => exact Faithful.beq (a := c) (b := d) ha hb h
      | _ => exact nomatch hform
    | hwb c =>
      cases b with
      | hwb d => exact Faithful.beq (a := c) (b := d) ha hb h
      | _ => exact nomatch hform
    | _ => exact Color.beq_of_word rfl hform.symm h

end Stylesheet
