import Stylesheet.Keyword
import Stylesheet.NonEmpty

/-! Readers, which take a value off the front of a text.

A text is read back where it stands among other text, so what is proved of a reader is what
it does in front of any rest that may follow. Mostly the first character of that rest shows
where the text ends; readers one after the other are joined by showing that each text begins
with a character at which the one before may end. -/
namespace Stylesheet

/-- A function that takes a value off the front of a text, or fails. -/
def Reader (α : Type) := List Char → Option (α × List Char)

variable {α β : Type}

namespace Reader

instance : Monad Reader where
  pure a := fun t => some (a, t)
  bind p f := fun t => (p t).bind fun (a, t) => f a t

/-- The reader that accepts nothing. -/
def fail : Reader α := fun _ => none

/-- A fixed text. -/
def expect : List Char → Reader Unit
  | [] => fun t => some ((), t)
  | c :: cs => fun
    | [] => none
    | d :: t => if d = c then expect cs t else none

/-- The characters of a class, as many as there are. -/
def span (p : Char → Bool) : Reader (List Char) := fun t => some (t.takeWhile p, t.dropWhile p)

/-- What is read, if it stands for something. -/
def pick (p : Reader α) (f : α → Option β) : Reader β := do
  match f (← p) with
  | some b => pure b
  | none => fail

/-- A part that is there when the next character shows it. -/
def opt (more : Char → Bool) (p : Reader α) : Reader (Option α) := fun
  | [] => some (none, [])
  | c :: t => if more c then (some <$> p) (c :: t) else some (none, c :: t)

/-- Steps from `a` on as long as there is more, but not more than `limit` of them. -/
def loop (more : List Char → Bool) (step : α → Reader α) : (limit : Nat) → α → Reader α
  | 0, a => pure a
  | limit + 1, a => fun t => if more t then (step a >>= loop more step limit) t else some (a, t)

/-- Items with `separator` between them. -/
def listOf (separator : List Char) (item : Reader α) (limit : Nat) : Reader (NonEmpty α) := do
  let first ← item
  loop (fun t => separator.isPrefixOf t)
    (fun items => do expect separator; items.push <$> item) limit ⟨first, []⟩

/-- The keyword that a word spells. -/
def spelled? (α : Type) [Keyword α] (word : List Char) : Option α :=
  Keyword.all.find? fun a => Keyword.keyword a == String.ofList word

/-- A word of one class of characters that spells a keyword. -/
def keyword [Keyword α] (p : Char → Bool) : Reader α := (span p).pick (spelled? α)

/-- One of two readers, by the next character. -/
def fork (more : Char → Bool) (p q : Reader α) : Reader α := fun
  | [] => q []
  | c :: t => if more c then p (c :: t) else q (c :: t)

/-- What stands between parentheses. -/
def inBrackets (p : Reader α) : Reader α := do
  expect ['(']
  let a ← p
  expect [')']
  return a

/-- The whole text. -/
def whole (p : Reader α) (t : List Char) : Option α :=
  match p t with
  | some (a, []) => some a
  | _ => none

end Reader

/-! ### Keywords -/

/-- Every keyword is listed, and no two are spelled alike. -/
class LawfulKeyword (α : Type) [Keyword α] : Prop where
  find_keyword (a : α) :
    Keyword.all.find? (fun b => Keyword.keyword b == Keyword.keyword a) = some a

/-- A keyword is spelled by its text. -/
theorem spelled?_css [Keyword α] [LawfulKeyword α] (a : α) :
    Reader.spelled? α (css a) = some a := by
  show Keyword.all.find? (fun b => _ == String.ofList (Keyword.keyword a).toList) = _
  rw [String.ofList_toList]
  exact LawfulKeyword.find_keyword a

/-- The characters of a word that is written out. -/
theorem all_toList {p : Char → Bool} {cs : List Char} (h : cs.all p) :
    (String.ofList cs).toList.all p := by
  rwa [String.toList_ofList]

/-! ### What a list begins with -/

section
variable {p : α → Bool} {as bs : List α}

theorem takeWhile_append_of_head (has : ∀ a ∈ as, p a) (hbs : ∀ b ∈ bs.head?, p b = false) :
    (as ++ bs).takeWhile p = as := by
  rw [List.takeWhile_append_of_pos has]
  cases bs with
  | nil => exact List.append_nil as
  | cons b bs => rw [List.takeWhile_cons_of_neg (by simp [hbs b rfl]), List.append_nil]

theorem dropWhile_append_of_head (has : ∀ a ∈ as, p a) (hbs : ∀ b ∈ bs.head?, p b = false) :
    (as ++ bs).dropWhile p = bs := by
  rw [List.dropWhile_append_of_pos has]
  cases bs with
  | nil => rfl
  | cons b bs => rw [List.dropWhile_cons_of_neg (by simp [hbs b rfl])]

end

/-! ### What may follow -/

/-- The text ends here, or goes on with a character of the class. -/
def Ends (ends : Char → Bool) (t : List Char) : Prop := ∀ c ∈ t.head?, ends c

/-- Nothing is asked of what follows. -/
def Anything (_ : List Char) : Prop := True

def oneOf (cs : List Char) (c : Char) : Bool := cs.contains c

theorem of_oneOf {cs : List Char} {p : Char → Bool} {c : Char} (h : oneOf cs c)
    (hall : cs.all p) : p c :=
  List.all_eq_true.mp hall c (List.contains_iff_mem.mp h)

namespace Ends

variable {e f : Char → Bool} {c : Char} {t : List Char}

theorem nil : Ends e [] := nofun

theorem cons (h : e c) : Ends e (c :: t) := by
  rintro d ⟨⟩
  exact h

theorem mono (h : Ends e t) (hf : ∀ c, e c → f c) : Ends f t := fun c hc => hf c (h c hc)

theorem of_oneOf {cs : List Char} (h : Ends (oneOf cs) t) (hcs : cs.all e) : Ends e t :=
  h.mono fun _ hc => Stylesheet.of_oneOf hc hcs

end Ends

/-- `p` reads `a` off `text`, whatever follows that may follow. -/
def Reads (p : Reader α) (text : List Char) (a : α) (follow : List Char → Prop) : Prop :=
  ∀ rest, follow rest → p (text ++ rest) = some (a, rest)

namespace Reads

variable {p : Reader α} {f : α → Reader β} {t u : List Char} {a : α} {b : β}
  {F G : List Char → Prop} {e : Char → Bool}

/-- Less may be asked of a text that ends what came before. -/
theorem mono (h : Reads p t a F) (hG : ∀ rest, G rest → F rest) : Reads p t a G :=
  fun rest hrest => h rest (hG rest hrest)

theorem of_anything (h : Reads p t a Anything) : Reads p t a F := h.mono fun _ _ => trivial

/-- Before one of some characters, all of which end the text. -/
theorem at_oneOf (h : Reads p t a (Ends e)) {cs : List Char} (hcs : cs.all e) :
    Reads p t a (Ends (oneOf cs)) :=
  h.mono fun _ hrest => hrest.of_oneOf hcs

/-- A reader that may be followed by nothing reads a whole text. -/
theorem whole (h : Reads p t a F) (hF : F []) : p.whole t = some a := by
  have hread := h [] hF
  rw [List.append_nil] at hread
  simp [Reader.whole, hread]

/-- A text has one reading. -/
theorem unique {c : α} (h : Reads p t a F) (hc : Reads p t c F) (hF : F []) : a = c :=
  Option.some.inj ((h.whole hF).symm.trans (hc.whole hF))

theorem pure : Reads (Pure.pure a) [] a Anything := fun _ _ => rfl

/-- **One reader after another**: what follows the first text is the second one, which has to
end the first. -/
theorem bind (hp : Reads p t a F) (hf : Reads (f a) u b G)
    (hend : ∀ rest, G rest → F (u ++ rest)) : Reads (p >>= f) (t ++ u) b G := by
  intro rest hrest
  show (p (t ++ u ++ rest)).bind _ = _
  rw [List.append_assoc, hp _ (hend rest hrest)]
  exact hf rest hrest

theorem map (hp : Reads p t a F) (g : α → β) : Reads (g <$> p) t (g a) F := by
  intro rest hrest
  show (p (t ++ rest)).bind _ = _
  rw [hp rest hrest]
  rfl

/-- What is read may be refused. -/
theorem pick {g : α → Option β} (hp : Reads p t a F) (hg : g a = some b) :
    Reads (p.pick g) t b F := by
  intro rest hrest
  show (p (t ++ rest)).bind _ = _
  rw [hp rest hrest]
  show (match g a with | some b => Pure.pure b | none => Reader.fail) rest = _
  rw [hg]
  rfl

theorem expect (cs : List Char) : Reads (Reader.expect cs) cs () Anything := by
  intro rest _
  induction cs with
  | nil => rfl
  | cons c cs ih => exact (if_pos rfl).trans ih

theorem after (cs : List Char) (hp : Reads p t a F) :
    Reads (do Reader.expect cs; p) (cs ++ t) a F :=
  (expect cs).bind hp fun _ _ => trivial

theorem before {c : Char} {cs : List Char} (hp : Reads p t a F) (g : α → β)
    (hc : ∀ rest, F (c :: rest)) :
    Reads (do let a ← p; Reader.expect (c :: cs); return g a) (t ++ c :: cs) (g a) Anything :=
  hp.bind ((expect (c :: cs)).map fun _ => g a) fun _ _ => hc _

/-- The longest text of a class of characters. -/
theorem span {q : Char → Bool} (h : t.all q) :
    Reads (Reader.span q) t t (Ends fun c => !q c) := by
  intro rest hrest
  have hends : ∀ c ∈ rest.head?, q c = false := fun c hc => by simpa using hrest c hc
  show some (_, _) = _
  rw [takeWhile_append_of_head (List.all_eq_true.mp h) hends,
    dropWhile_append_of_head (List.all_eq_true.mp h) hends]

theorem keyword [Keyword α] [LawfulKeyword α] {q : Char → Bool} (ha : (css a).all q) :
    Reads (Reader.keyword q) (css a) a (Ends fun c => !q c) :=
  pick (span ha) (spelled?_css a)

/-- An optional part that is there. -/
theorem opt_some {more : Char → Bool} {c : Char} (hp : Reads p (c :: t) a F) (hmore : more c) :
    Reads (Reader.opt more p) (c :: t) (some a) F := by
  intro rest hrest
  show (if more c then (some <$> p) (c :: t ++ rest) else _) = _
  rw [if_pos hmore]
  exact hp.map some rest hrest

/-- And one that is not, as what follows shows. -/
theorem opt_none {more : Char → Bool} :
    Reads (Reader.opt more p) [] none (Ends fun c => !more c) := by
  intro rest hrest
  cases rest with
  | nil => rfl
  | cons c rest =>
    have hc : !more c := hrest c rfl
    show (if more c then _ else some (none, c :: rest)) = _
    rw [if_neg (by simpa using hc)]

theorem fork_left {q : Reader α} {more : Char → Bool} {c : Char} (hp : Reads p (c :: t) a F)
    (hmore : more c) : Reads (Reader.fork more p q) (c :: t) a F := by
  intro rest hrest
  show (if more c then p (c :: t ++ rest) else _) = _
  rw [if_pos hmore]
  exact hp rest hrest

theorem fork_right_cons {q : Reader α} {more : Char → Bool} {c : Char}
    (hq : Reads q (c :: t) a F) (hmore : more c = false) :
    Reads (Reader.fork more p q) (c :: t) a F := by
  intro rest hrest
  show (if more c then _ else q (c :: t ++ rest)) = _
  rw [if_neg (Bool.eq_false_iff.mp hmore)]
  exact hq rest hrest

/-- The other reader takes nothing here. -/
theorem fork_right {q : Reader α} {more : Char → Bool} (hq : Reads q [] a Anything) :
    Reads (Reader.fork more p q) [] a (Ends fun c => !more c) := by
  intro rest hrest
  cases rest with
  | nil => exact hq [] trivial
  | cons c rest =>
    have hc : !more c := hrest c rfl
    show (if more c then _ else q (c :: rest)) = _
    rw [if_neg (by simpa using hc)]
    exact hq (c :: rest) trivial

/-- The closing parenthesis ends what is inside. -/
theorem inBrackets (hp : Reads p t a F) (hend : ∀ rest, F (')' :: rest)) :
    Reads (Reader.inBrackets p) ('(' :: (t ++ [')'])) a Anything :=
  (hp.before id hend).after ['(']

/-! ### Loops -/

variable {more : List Char → Bool} {step : α → Reader α} {limit : Nat}

/-- The loop stops when there is no more. -/
theorem loop_nil (hmore : ∀ rest, F rest → more rest = false) :
    Reads (Reader.loop more step limit a) [] a F := by
  intro rest hrest
  cases limit with
  | zero => rfl
  | succ limit =>
    show (if more rest then _ else some (a, rest)) = _
    rw [hmore rest hrest, if_neg nofun]

end Reads

/-- Each text is read as the value beside it. -/
inductive ReadsEach (p : Reader α) (F : List Char → Prop) : List (List Char) → List α → Prop where
  | nil : ReadsEach p F [] []
  | cons {t ts a as} : Reads p t a F → ReadsEach p F ts as → ReadsEach p F (t :: ts) (a :: as)

theorem joined_cons (separator t : List Char) (ts : List (List Char)) :
    joined separator (t :: ts) = t ++ ts.flatMap (separator ++ ·) := by
  induction ts generalizing t with
  | nil => simp [joined]
  | cons u us ih =>
    show t ++ separator ++ joined separator (u :: us) = _
    rw [ih u, List.flatMap_cons, List.append_assoc, List.append_assoc]

/-- A list of texts is empty only if one of them is. -/
theorem joined_ne_nil {separator : List Char} {parts : List (List Char)}
    (hparts : ∀ t ∈ parts, t ≠ []) (hne : parts ≠ []) : joined separator parts ≠ [] := by
  obtain ⟨p, ps, rfl⟩ := List.exists_cons_of_ne_nil hne
  rw [joined_cons]
  exact List.append_ne_nil_of_left_ne_nil (hparts p (List.mem_cons_self ..)) _

/-- There are no more texts than characters, by which the limit of a loop is enough. -/
theorem length_le_joined (s : Char) (separator t : List Char) (ts : List (List Char)) :
    ts.length ≤ (joined (s :: separator) (t :: ts)).length := by
  rw [joined_cons, List.length_append]
  induction ts with
  | nil => exact Nat.zero_le _
  | cons u us ih =>
    rw [List.flatMap_cons, List.length_append, List.length_append, List.length_cons,
      List.length_cons]
    omega

/-- What cuts off each whole text at the separator behind it cuts texts where they were
joined. -/
theorem cut_joined {cut : List Char → NonEmpty (List Char)} {IsWhole : List Char → Prop}
    {separator t : List Char} {ts : List (List Char)} (hend : ∀ u, IsWhole u → cut u = ⟨u, []⟩)
    (hcut : ∀ u v, IsWhole u → cut (u ++ (separator ++ v)) = ⟨u, (cut v).toList⟩)
    (h : ∀ u ∈ t :: ts, IsWhole u) : cut (joined separator (t :: ts)) = ⟨t, ts⟩ := by
  rw [joined_cons]
  induction ts generalizing t with
  | nil =>
    rw [List.flatMap_nil, List.append_nil]
    exact hend t (h t (List.mem_cons_self ..))
  | cons u us ih =>
    rw [List.forall_mem_cons] at h
    rw [List.flatMap_cons, List.append_assoc, hcut t _ h.1, ih h.2]
    rfl

namespace ReadsEach

variable {p : Reader α} {F G : List Char → Prop} {ts : List (List Char)} {as : List α}
  {more : List Char → Bool} {limit : Nat} {lead : List Char}

/-- A loop reads item after item, each behind its lead, and adds it to what it has. The lead
shows that there is more, and an item may end where the next one begins. -/
theorem loop {step : β → Reader β} {add : β → α → β} (h : ReadsEach p F ts as) (b : β)
    (hlimit : ts.length ≤ limit)
    (hstep : ∀ b t a, Reads p t a F → Reads (step b) (lead ++ t) (add b a) F)
    (hmore : ∀ t ∈ ts, ∀ rest, more (lead ++ (t ++ rest)))
    (hnext : ∀ t ∈ ts, ∀ rest, F (lead ++ (t ++ rest)))
    (hstop : ∀ rest, G rest → more rest = false) (hend : ∀ rest, G rest → F rest) :
    Reads (Reader.loop more step limit b) (ts.flatMap (lead ++ ·)) (as.foldl add b) G := by
  induction h generalizing b limit with
  | nil => exact Reads.loop_nil hstop
  | @cons t ts a as ht hts ih =>
    obtain ⟨limit, rfl⟩ := Nat.exists_eq_succ_of_ne_zero (show limit ≠ 0 by
      intro hzero
      rw [hzero] at hlimit
      exact nomatch hlimit)
    rw [List.forall_mem_cons] at hmore hnext
    have htail := ih (add b a) (Nat.le_of_succ_le_succ hlimit) hmore.2 hnext.2
    -- What follows an item is the lead of the next one, or the end after the last.
    have hbind := (hstep b t a ht).bind htail fun rest hrest => by
      cases ts with
      | nil => exact hend rest hrest
      | cons u us =>
        rw [List.flatMap_cons, List.append_assoc, List.append_assoc]
        exact hnext.2 u (List.mem_cons_self ..) _
    intro rest hrest
    show (if more _ then _ else _) = _
    rw [List.flatMap_cons, List.append_assoc, List.append_assoc, if_pos (hmore.1 _),
      ← List.append_assoc t, ← List.append_assoc lead, ← List.append_assoc lead,
      List.foldl_cons]
    exact hbind rest hrest

/-- Pushing items one by one keeps their order. -/
theorem foldl_push (a : α) (as bs : List α) :
    as.foldl NonEmpty.push ⟨a, bs⟩ = ⟨a, bs ++ as⟩ := by
  induction as generalizing bs with
  | nil => simp
  | cons b as ih => simp [NonEmpty.push, ih]

/-- An item may end before a separator, and the list where no separator follows. -/
theorem listOf {e f : Char → Bool} {first : List Char} {a : α} {s : Char} {separator : List Char}
    (hfirst : Reads p first a (Ends e)) (h : ReadsEach p (Ends e) ts as)
    (hlimit : ts.length ≤ limit) (hsep : e s) (hstop : ∀ c, f c → c ≠ s)
    (hend : ∀ c, f c → e c) :
    Reads (Reader.listOf (s :: separator) p limit) (joined (s :: separator) (first :: ts))
      ⟨a, as⟩ (Ends f) := by
  rw [joined_cons, ← List.nil_append as, ← foldl_push a as []]
  have hlist : ∀ rest, Ends f rest → Ends e rest := fun _ hrest => hrest.mono hend
  refine hfirst.bind (h.loop (⟨a, []⟩ : NonEmpty α) hlimit ?_ ?_ ?_ ?_ hlist) ?_
  · intro items t b ht
    exact (Reads.expect _).bind (ht.map items.push) fun _ _ => trivial
  · intro t _ rest
    simp
  · intro t _ rest
    exact .cons hsep
  · intro rest hrest
    cases rest with
    | nil => rfl
    | cons c rest =>
      have hc := hstop c (hrest c rfl)
      simp [List.isPrefixOf, hc.symm]
  · intro rest hrest
    cases ts with
    | nil => exact hrest.mono hend
    | cons t ts => exact .cons hsep

end ReadsEach
end Stylesheet
