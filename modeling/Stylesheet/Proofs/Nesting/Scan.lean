import Stylesheet.Text.Escape

/-! Scanning a text for the ends of its rules.

The scan goes from left to right and knows which brackets are open, whether it is inside
a string, and whether a backslash protects the next character. It stops at a closing
bracket that does not close the innermost open one, and at a comment. A text is cut
behind every end of a rule, and a text over which the scan `Passes` is never cut. -/
namespace Stylesheet

/-! ### Characters -/

/-- The three kinds of brackets of CSS. -/
inductive Bracket where
  | round | square | curly
  deriving DecidableEq

namespace Bracket

def opening : Bracket → Char
  | round => '('
  | square => '['
  | curly => '\x7b'

def closing : Bracket → Char
  | round => ')'
  | square => ']'
  | curly => '\x7d'

def opened? : Char → Option Bracket
  | '(' => some round
  | '[' => some square
  | '\x7b' => some curly
  | _ => none

def closed? : Char → Option Bracket
  | ')' => some round
  | ']' => some square
  | '\x7d' => some curly
  | _ => none

end Bracket

/-- Characters that begin or end a bracket, a string, an escape or a comment. -/
def specials : List Char := ['"', '\\', '/', '(', ')', '[', ']', '\x7b', '\x7d']

/-- A character that the scan takes no notice of. -/
def isPlain (c : Char) : Bool := !specials.contains c

/-- A class that is told by listing the characters outside. -/
theorem not_contains_of {p : Char → Bool} {outside : List Char}
    (h : outside.all fun c => !p c) {c : Char} (hc : p c) : outside.contains c = false := by
  cases hmem : outside.contains c with
  | false => rfl
  | true =>
    have hnot := List.all_eq_true.mp h c (List.contains_iff_mem.mp hmem)
    simp [hc] at hnot

/-- A class of characters that has none of the special ones. -/
theorem isPlain_of {p : Char → Bool} (h : specials.all fun c => !p c) {c : Char} (hc : p c) :
    isPlain c := by
  unfold isPlain
  rw [not_contains_of h hc]
  rfl

theorem ne_of_isPlain {c d : Char} (hc : isPlain c) (hd : d ∈ specials) : c ≠ d := by
  rintro rfl
  simp [isPlain, hd] at hc

/-! ### The scan -/

/-- What the next character means to the scan. -/
inductive Mode where
  | bare
  /-- After a solidus, which would begin a comment with an asterisk. -/
  | solidus
  | escape
  | string
  | stringEscape
  deriving DecidableEq

/-- The brackets that are open stand with the innermost first. -/
structure Scan where
  mode : Mode
  opened : List Bracket
  deriving DecidableEq

namespace Scan

/-- Nothing is open. -/
def start : Scan := ⟨.bare, []⟩

/-- A character outside of strings and escapes. -/
def stepBare (opened : List Bracket) (c : Char) : Option Scan :=
  if c = '"' then some ⟨.string, opened⟩
  else if c = '\\' then some ⟨.escape, opened⟩
  else if c = '/' then some ⟨.solidus, opened⟩
  else match Bracket.opened? c, Bracket.closed? c with
    | some b, _ => some ⟨.bare, b :: opened⟩
    | none, none => some ⟨.bare, opened⟩
    | none, some b => if opened.head? = some b then some ⟨.bare, opened.tail⟩ else none

/-- One character of the scan. It stops at a comment and at a bracket closed out of turn. -/
def step (s : Scan) (c : Char) : Option Scan :=
  match s.mode with
  | .bare => stepBare s.opened c
  | .solidus => if c = '*' then none else stepBare s.opened c
  | .escape => some ⟨.bare, s.opened⟩
  | .string =>
    if c = '"' then some ⟨.bare, s.opened⟩
    else if c = '\\' then some ⟨.stringEscape, s.opened⟩
    else some s
  | .stringEscape => some ⟨.string, s.opened⟩

/-- Nothing when the scan stops. -/
def run (s : Scan) : List Char → Option Scan
  | [] => some s
  | c :: t => (s.step c).bind fun s' => s'.run t

/-- Neither inside of a string nor behind a backslash. -/
def isBare (s : Scan) : Bool := s.mode = .bare || s.mode = .solidus

/-- Whether a character stands outside of all strings, escapes and brackets; the brackets
around what is inside them stand outside. -/
def outer (s : Scan) (c : Char) : Bool :=
  s.isBare && (s.opened = [] || s.opened.tail = [] && s.opened.head? = Bracket.closed? c)

/-- The characters that could end a rule or open its block. -/
def ruleMark (c : Char) : Bool := [';', '\x7b', '\x7d'].contains c

/-- The semicolon of a statement, or the brace that closes a block. -/
def endsRule (s : Scan) (c : Char) : Bool := s.outer c && (c = ';' || c = '\x7d')

/-- The outer characters of one kind. -/
def marks (isMark : Char → Bool) (s : Scan) : List Char → List Char
  | [] => []
  | c :: t =>
    let rest := ((s.step c).map fun s' => s'.marks isMark t).getD []
    if s.outer c && isMark c then c :: rest else rest

/-- Puts characters in front of the first text. -/
def extend (u : List Char) : List (List Char) → List (List Char)
  | [] => [u]
  | t :: ts => (u ++ t) :: ts

/-- The text cut behind every end of a rule; last comes what is left. -/
def cut (s : Scan) : List Char → List (List Char)
  | [] => [[]]
  | c :: t =>
    match s.step c with
    | none => [c :: t]
    | some s' => if s.endsRule c then [c] :: s'.cut t else extend [c] (s'.cut t)

end Scan

/-- Scanned on its own, the text leaves nothing open. -/
def Closed (t : List Char) : Prop := Scan.start.run t = some .start

namespace Scan
variable {s s' s'' : Scan} {c : Char} {n : List Bracket} {u v t : List Char}
  {isMark : Char → Bool}

/-! ### Single characters -/

theorem closed?_plain (h : isPlain c) : Bracket.closed? c = none := by
  have hc : ∀ d ∈ specials, c ≠ d := fun d hd => ne_of_isPlain h hd
  unfold Bracket.closed?
  split <;> first | rfl | exact absurd rfl (hc _ (by decide))

theorem opened?_plain (h : isPlain c) : Bracket.opened? c = none := by
  have hc : ∀ d ∈ specials, c ≠ d := fun d hd => ne_of_isPlain h hd
  unfold Bracket.opened?
  split <;> first | rfl | exact absurd rfl (hc _ (by decide))

theorem stepBare_plain (h : isPlain c) : stepBare n c = some ⟨.bare, n⟩ := by
  have hc : ∀ d ∈ specials, c ≠ d := fun d hd => ne_of_isPlain h hd
  unfold stepBare
  rw [if_neg (hc _ (by decide)), if_neg (hc _ (by decide)), if_neg (hc _ (by decide)),
    opened?_plain h, closed?_plain h]

theorem stepBare_opening (b : Bracket) : stepBare n b.opening = some ⟨.bare, b :: n⟩ := by
  cases b <;> rfl

/-- A closing bracket closes the innermost one if it is of its kind. -/
theorem stepBare_closing (b : Bracket) : stepBare (b :: n) b.closing = some ⟨.bare, n⟩ := by
  cases b <;> simp [stepBare, Bracket.closing, Bracket.opened?, Bracket.closed?]

/-- A solidus that begins no comment makes no difference. -/
theorem step_solidus (h : c ≠ '*') : step ⟨.solidus, n⟩ c = step ⟨.bare, n⟩ c := if_neg h

/-- With a bracket open, only the one that closes it can be outside. -/
theorem not_outer (h : s.opened ≠ []) (hclose : Bracket.closed? c = none) : s.outer c = false := by
  simp [outer, h, hclose]

/-- Inside of a string or an escape nothing is outside. -/
theorem not_outer_protected (h : s.isBare = false) : s.outer c = false := by simp [outer, h]

/-- No closing bracket, and no mark where a mark would count. -/
theorem not_mark (hclose : Bracket.closed? c = none) (h : s.opened = [] → isMark c = false) :
    (s.outer c && isMark c) = false := by
  cases hopened : s.opened with
  | nil => rw [h hopened, Bool.and_false]
  | cons b n => rw [not_outer (by simp [hopened]) hclose, Bool.false_and]

theorem not_mark_protected (h : s.isBare = false) : (s.outer c && isMark c) = false := by
  rw [not_outer_protected h, Bool.false_and]

/-- A closing bracket counts as outside only when it closes the last one that is open. -/
theorem not_mark_closing (b : Bracket) (h : n = [] → isMark b.closing = false) :
    (outer ⟨.bare, b :: n⟩ b.closing && isMark b.closing) = false := by
  cases n with
  | nil => rw [h rfl, Bool.and_false]
  | cons b' n => simp [outer]

/-! ### Passing over a text without meeting a mark -/

/-- The scan goes over `u` from `s` to `s'`, and no outer character of `u` is a mark. -/
structure Passes (isMark : Char → Bool) (s : Scan) (u : List Char) (s' : Scan) : Prop where
  run_eq : s.run u = some s'
  marks_eq : s.marks isMark u = []

theorem Passes.nil : Passes isMark s [] s := ⟨rfl, rfl⟩

/-- One character, and then the rest. -/
theorem Passes.cons (hstep : s.step c = some s') (hmark : (s.outer c && isMark c) = false)
    (h : Passes isMark s' t s'') : Passes isMark s (c :: t) s'' := by
  constructor
  · rw [run, hstep, Option.bind_some, h.run_eq]
  · simp only [marks, hstep, hmark, Option.map_some, Option.getD_some, h.marks_eq]
    rfl

/-- Where nothing is a mark, none is met. -/
theorem marks_eq_nil (h : ∀ c, isMark c = false) (s : Scan) (t : List Char) :
    s.marks isMark t = [] := by
  induction t generalizing s with
  | nil => rfl
  | cons c t ih =>
    simp only [marks, h c, Bool.and_false]
    cases s.step c with
    | none => rfl
    | some s' => exact ih s'

/-- The scan of two texts is that of the second, begun where the first leaves off. -/
theorem run_append (h : s.run u = some s') : s.run (u ++ v) = s'.run v := by
  induction u generalizing s with
  | nil =>
    obtain rfl := Option.some.inj h
    rfl
  | cons c u ih =>
    obtain ⟨s₁, hstep, hrun⟩ := Option.bind_eq_some_iff.mp h
    rw [List.cons_append, run, hstep]
    exact ih hrun

/-- The marks of two texts, in order. -/
theorem marks_append (h : s.run u = some s') :
    s.marks isMark (u ++ v) = s.marks isMark u ++ s'.marks isMark v := by
  induction u generalizing s with
  | nil =>
    obtain rfl := Option.some.inj h
    rfl
  | cons c u ih =>
    obtain ⟨s₁, hstep, hrun⟩ := Option.bind_eq_some_iff.mp h
    simp only [List.cons_append, marks, hstep, Option.map_some, Option.getD_some, ih hrun]
    split
    · rfl
    · rfl

/-- Passing over one text after the other. -/
theorem Passes.append (hu : Passes isMark s u s') (hv : Passes isMark s' v s'') :
    Passes isMark s (u ++ v) s'' := by
  constructor
  · rw [run_append hu.run_eq, hv.run_eq]
  · rw [marks_append hu.run_eq, hu.marks_eq, hv.marks_eq]
    rfl

/-- What holds without the solidus holds behind it, unless a comment begins. -/
theorem Passes.solidus (hc : c ≠ '*') (h : Passes isMark ⟨.bare, n⟩ (c :: t) s') :
    Passes isMark ⟨.solidus, n⟩ (c :: t) s' := by
  have hstep := step_solidus (n := n) hc
  constructor
  · rw [run, hstep]
    exact h.run_eq
  · rw [marks, hstep]
    exact h.marks_eq

theorem Passes.plain (hc : isPlain c) (hmark : n = [] → isMark c = false)
    (h : Passes isMark ⟨.bare, n⟩ t s') : Passes isMark ⟨.bare, n⟩ (c :: t) s' :=
  .cons (stepBare_plain hc) (not_mark (closed?_plain hc) hmark) h

/-- An opening bracket, with the rest passed over inside of it. -/
theorem Passes.opening (b : Bracket) (hmark : n = [] → isMark b.opening = false)
    (h : Passes isMark ⟨.bare, b :: n⟩ t s) : Passes isMark ⟨.bare, n⟩ (b.opening :: t) s := by
  refine .cons (stepBare_opening b) (not_mark ?_ hmark) h
  cases b <;> rfl

/-- A closing bracket, with the rest passed over outside of it. -/
theorem Passes.closing (b : Bracket) (hmark : n = [] → isMark b.closing = false)
    (h : Passes isMark ⟨.bare, n⟩ t s) : Passes isMark ⟨.bare, b :: n⟩ (b.closing :: t) s :=
  .cons (stepBare_closing b) (not_mark_closing b hmark) h

/-! ### Text that is closed by itself -/

/-! What a scan does to the brackets it opens, it does whatever was open before. -/

/-- Brackets that were open before stay below those that the scan opens. -/
theorem stepBare_frame {o : List Bracket} (h : stepBare o c = some s') (n : List Bracket) :
    stepBare (o ++ n) c = some ⟨s'.mode, s'.opened ++ n⟩ := by
  unfold stepBare at h ⊢
  by_cases hquote : c = '"'
  · rw [if_pos hquote] at h ⊢
    cases h
    rfl
  by_cases hescape : c = '\\'
  · rw [if_neg hquote, if_pos hescape] at h ⊢
    cases h
    rfl
  by_cases hsolidus : c = '/'
  · rw [if_neg hquote, if_neg hescape, if_pos hsolidus] at h ⊢
    cases h
    rfl
  rw [if_neg hquote, if_neg hescape, if_neg hsolidus] at h ⊢
  split at h
  · cases h
    rfl
  · cases h
    rfl
  · -- a closing bracket closes one of `o`, since it closes one when there is nothing else
    rename_i b _ _
    cases o with
    | nil => exact nomatch h
    | cons b' o =>
      rw [List.head?_cons, List.tail_cons] at h
      rw [List.cons_append, List.head?_cons, List.tail_cons]
      by_cases hb : some b' = some b
      · rw [if_pos hb] at h ⊢
        cases h
        rfl
      · rw [if_neg hb] at h
        exact nomatch h

/-- The same for any character. -/
theorem step_frame (h : s.step c = some s') (n : List Bracket) :
    step ⟨s.mode, s.opened ++ n⟩ c = some ⟨s'.mode, s'.opened ++ n⟩ := by
  obtain ⟨mode, o⟩ := s
  cases mode with
  | bare => exact stepBare_frame h n
  | solidus =>
    by_cases hc : c = '*'
    · subst hc
      exact nomatch h
    · rw [step_solidus hc] at h ⊢
      exact stepBare_frame h n
  | escape =>
    cases h
    rfl
  | string =>
    simp only [step] at h ⊢
    by_cases hquote : c = '"'
    · rw [if_pos hquote] at h ⊢
      cases h
      rfl
    by_cases hescape : c = '\\'
    · rw [if_neg hquote, if_pos hescape] at h ⊢
      cases h
      rfl
    · rw [if_neg hquote, if_neg hescape] at h ⊢
      cases h
      rfl
  | stringEscape =>
    cases h
    rfl

/-- With nothing open, a closing bracket would stop the scan. -/
theorem closed?_of_stepBare (h : stepBare [] c = some s') : Bracket.closed? c = none := by
  unfold Bracket.closed?
  split
  · exact nomatch h
  · exact nomatch h
  · exact nomatch h
  · rfl

/-- No character closes a bracket that was open before. -/
theorem not_outer_frame (hn : n ≠ []) (h : s.step c = some s') :
    outer ⟨s.mode, s.opened ++ n⟩ c = false := by
  obtain ⟨mode, o⟩ := s
  cases o with
  | cons b o => simp [outer, hn]
  | nil =>
    cases mode with
    | bare => exact not_outer hn (closed?_of_stepBare h)
    | solidus =>
      by_cases hc : c = '*'
      · subst hc
        exact nomatch h
      · rw [step_solidus hc] at h
        exact not_outer hn (closed?_of_stepBare h)
    | escape => exact not_outer_protected rfl
    | string => exact not_outer_protected rfl
    | stringEscape => exact not_outer_protected rfl

/-- A text that a scan gets over on its own is passed over inside of any bracket, where nothing
counts as a mark. -/
theorem passes_frame (hn : n ≠ []) (h : s.run t = some s') :
    Passes isMark ⟨s.mode, s.opened ++ n⟩ t ⟨s'.mode, s'.opened ++ n⟩ := by
  induction t generalizing s with
  | nil =>
    obtain rfl := Option.some.inj h
    exact .nil
  | cons c t ih =>
    obtain ⟨s₁, hstep, hrun⟩ := Option.bind_eq_some_iff.mp h
    refine .cons (step_frame hstep n) ?_ (ih hrun)
    rw [not_outer_frame hn hstep, Bool.false_and]

/-- A closed text inside of brackets. -/
theorem Passes.of_closed (hn : n ≠ []) (h : Closed t) : Passes isMark ⟨.bare, n⟩ t ⟨.bare, n⟩ :=
  passes_frame hn h

/-! ### Cutting -/

/-- Characters put in front one after the other. -/
theorem extend_extend (ts : List (List Char)) : extend u (extend v ts) = extend (u ++ v) ts := by
  cases ts with
  | nil => rfl
  | cons t ts => simp [extend]

theorem extend_ne_nil (u : List Char) (ts : List (List Char)) : extend u ts ≠ [] := by
  cases ts <;> simp [extend]

theorem cut_ne_nil (s : Scan) (t : List Char) : s.cut t ≠ [] := by
  cases t with
  | nil => simp [cut]
  | cons c t =>
    unfold cut
    split
    · simp
    split
    · simp
    · exact extend_ne_nil [c] _

/-- A text is cut behind the end of a rule, and a character that ends none joins what follows. -/
theorem cut_cons (hstep : s.step c = some s') :
    s.cut (c :: t) = if s.endsRule c then [c] :: s'.cut t else extend [c] (s'.cut t) := by
  rw [cut, hstep]

/-- A text that is passed over is never cut. -/
theorem Passes.cut_append (h : Passes ruleMark s u s') :
    s.cut (u ++ t) = extend u (s'.cut t) := by
  obtain ⟨hrun, hmarks⟩ := h
  induction u generalizing s with
  | nil =>
    obtain rfl := Option.some.inj hrun
    cases hcut : s.cut t with
    | nil => exact absurd hcut (cut_ne_nil s t)
    | cons _ _ => simpa [extend] using hcut
  | cons c u ih =>
    obtain ⟨s₁, hstep, hrun⟩ := Option.bind_eq_some_iff.mp hrun
    simp only [marks, hstep, Option.map_some, Option.getD_some] at hmarks
    split at hmarks
    · exact nomatch hmarks
    · rename_i hmark
      have hend : ¬s.endsRule c := by
        intro h
        simp only [endsRule, Bool.and_eq_true, Bool.or_eq_true, decide_eq_true_eq] at h
        obtain ⟨houter, rfl | rfl⟩ := h
        · exact hmark (by rw [houter]; rfl)
        · exact hmark (by rw [houter]; rfl)
      rw [List.cons_append, cut_cons hstep, if_neg hend, ih hrun hmarks, extend_extend]
      rfl

end Scan
end Stylesheet
