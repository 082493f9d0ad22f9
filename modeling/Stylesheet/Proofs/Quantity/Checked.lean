import Stylesheet.Box.Sides
import Stylesheet.Box.Spacing
import Stylesheet.Paint.Background
import Stylesheet.Proofs.Quantity.Sign
import Stylesheet.Rule.Page

/-! Making values of quantities that have to be at least zero.

A quantity is rejected exactly when it is below zero. What takes several of them checks
one after the other, so that its error is about the first one that is below zero. -/
namespace Stylesheet

variable {α β : Type} [Signed α] {a : α} {given : List α} {Holds : β → Prop}

/-! ### One quantity -/

/-- What the check does for a type of quantities, which messages call `kind`. -/
structure SignPolicy [ToCss α] (kind : String) (amount : α → Binary32) : Prop where
  error_iff (a : α) (e : Error) :
    NonNegative.of a = .error e ↔ (amount a).BelowZero ∧ e = .negative kind (amount a)
  ok_iff (a : α) (n : NonNegative α) :
    NonNegative.of a = .ok n ↔ ¬ (amount a).BelowZero ∧ n.value = a
  minus_not_mem (n : NonNegative α) : '-' ∉ css n

/-- A quantity below zero is refused, with its kind and its number. -/
theorem NonNegative.of_eq_error (h : (Signed.amount a).BelowZero) :
    NonNegative.of a = .error (.negative (Signed.kind α) (Signed.amount a)) :=
  dif_neg fun hpasses => (Binary32.isNegative_eq_false_iff _).mp hpasses h

/-- Any other is kept as it is. -/
theorem NonNegative.exists_of_eq_ok (h : ¬ (Signed.amount a).BelowZero) :
    ∃ n : NonNegative α, NonNegative.of a = .ok n ∧ n.value = a :=
  ⟨_, dif_pos ((Binary32.isNegative_eq_false_iff _).mpr h), rfl⟩

/-- What has been made is not below zero. -/
theorem NonNegative.not_belowZero (n : NonNegative α) : ¬ (Signed.amount n.value).BelowZero :=
  (Binary32.isNegative_eq_false_iff _).mp n.not_negative

theorem NonNegative.ext {m n : NonNegative α} (h : m.value = n.value) : m = n := by
  obtain ⟨m, _⟩ := m
  obtain ⟨n, _⟩ := n
  obtain rfl : m = n := h
  rfl

/-- Whatever is checked this way follows the policy for one quantity. -/
theorem signPolicy [ToCss α] [ShowsSign α] :
    SignPolicy (α := α) (Signed.kind α) Signed.amount where
  error_iff a e := by
    by_cases h : (Signed.amount a).BelowZero
    · rw [NonNegative.of_eq_error h, Except.error.injEq, eq_comm]
      exact (and_iff_right h).symm
    · obtain ⟨n, hok, -⟩ := NonNegative.exists_of_eq_ok h
      rw [hok]
      exact iff_of_false (fun heq => nomatch heq) fun hneg => h hneg.1
  ok_iff a n := by
    by_cases h : (Signed.amount a).BelowZero
    · rw [NonNegative.of_eq_error h]
      exact iff_of_false (fun heq => nomatch heq) fun hpasses => hpasses.1 h
    · obtain ⟨m, hok, hvalue⟩ := NonNegative.exists_of_eq_ok h
      rw [hok, Except.ok.injEq, and_iff_right h, ← hvalue, eq_comm]
      exact ⟨congrArg NonNegative.value, NonNegative.ext⟩
  minus_not_mem n := ShowsSign.minus_not_mem (a := n.value) n.not_belowZero

/-! ### Several quantities -/

/-- The first of the quantities that is below zero is `a`. -/
def FirstBelowZero (given : List α) (a : α) : Prop :=
  (Signed.amount a).BelowZero ∧ ∃ before after, given = before ++ a :: after ∧
    ∀ b ∈ before, ¬ (Signed.amount b).BelowZero

/-- The first quantity counts before all others. -/
theorem firstBelowZero_cons_of_belowZero {b : α} (h : (Signed.amount b).BelowZero) :
    FirstBelowZero (b :: given) a ↔ a = b := by
  constructor
  · rintro ⟨-, _ | ⟨c, before⟩, after, heq, hbefore⟩
    · exact (List.cons.inj heq).1.symm
    · obtain ⟨rfl, -⟩ := List.cons.inj heq
      exact absurd h (hbefore b (List.mem_cons_self ..))
  · rintro rfl
    exact ⟨h, [], given, rfl, List.forall_mem_nil _⟩

theorem firstBelowZero_cons {b : α} (h : ¬ (Signed.amount b).BelowZero) :
    FirstBelowZero (b :: given) a ↔ FirstBelowZero given a := by
  constructor
  · rintro ⟨ha, _ | ⟨c, before⟩, after, heq, hbefore⟩
    · obtain ⟨rfl, -⟩ := List.cons.inj heq
      exact absurd ha h
    · obtain ⟨rfl, rfl⟩ := List.cons.inj heq
      exact ⟨ha, before, after, rfl, fun c hc => hbefore c (List.mem_cons_of_mem _ hc)⟩
  · rintro ⟨ha, before, after, rfl, hbefore⟩
    exact ⟨ha, b :: before, after, rfl, List.forall_mem_cons.mpr ⟨h, hbefore⟩⟩

/-- What is made of the quantities `given`: it fails exactly when one of them is below zero,
with an error about the first such, and is otherwise a value that `Holds` them. -/
structure ChecksInOrder (given : List α) (Holds : β → Prop) (made : Result β) : Prop where
  error_iff (e : Error) : made = .error e ↔
    ∃ a, FirstBelowZero given a ∧ e = .negative (Signed.kind α) (Signed.amount a)
  ok_iff : (∃ v, made = .ok v ∧ Holds v) ↔ ∀ a ∈ given, ¬ (Signed.amount a).BelowZero

namespace ChecksInOrder

/-- With nothing left to check the value is made. -/
theorem done {v : β} (h : Holds v) : ChecksInOrder ([] : List α) Holds (pure v) where
  error_iff e := by
    refine iff_of_false (fun heq => nomatch heq) ?_
    rintro ⟨a, ⟨-, before, after, hnil, -⟩, -⟩
    simp at hnil
  ok_iff := iff_of_true ⟨v, rfl, h⟩ (List.forall_mem_nil _)

/-- One more quantity, checked before the rest. -/
theorem next {f : NonNegative α → Result β}
    (h : ∀ n : NonNegative α, n.value = a → ChecksInOrder given Holds (f n)) :
    ChecksInOrder (a :: given) Holds (NonNegative.of a >>= f) := by
  by_cases ha : (Signed.amount a).BelowZero
  · rw [NonNegative.of_eq_error ha]
    constructor
    · intro e
      simp only [firstBelowZero_cons_of_belowZero ha, exists_eq_left]
      show Except.error _ = Except.error e ↔ _
      rw [Except.error.injEq, eq_comm]
    · refine iff_of_false (fun ⟨v, heq, _⟩ => nomatch heq) fun hall => ?_
      exact hall a (List.mem_cons_self ..) ha
  · obtain ⟨n, hok, hvalue⟩ := NonNegative.exists_of_eq_ok ha
    rw [hok]
    show ChecksInOrder (a :: given) Holds (f n)
    constructor
    · intro e
      simp only [firstBelowZero_cons ha]
      exact (h n hvalue).error_iff e
    · rw [List.forall_mem_cons, and_iff_right ha]
      exact (h n hvalue).ok_iff

end ChecksInOrder

/-! ### What is made of several quantities -/

/-- The four sides are checked from the top around. -/
theorem Sides.checksInOrder (s : Sides α) :
    ChecksInOrder [s.top, s.right, s.bottom, s.left]
      (fun made : Sides (NonNegative α) => made.map NonNegative.value = s) s.nonNegative := by
  refine .next fun top htop => .next fun right hright => .next fun bottom hbottom =>
    .next fun left hleft => .done ?_
  rw [Sides.map, htop, hright, hbottom, hleft]

theorem Sides.checksInOrder_symmetric (vertical horizontal : α) :
    ChecksInOrder [vertical, horizontal]
      (fun made : Sides (NonNegative α) =>
        made.map NonNegative.value = .symmetric vertical horizontal)
      (Sides.nonNegativeSymmetric vertical horizontal) := by
  refine .next fun v hv => .next fun h hh => .done ?_
  rw [Sides.map, ← hv, ← hh]
  rfl

theorem Gaps.checksInOrder (row column : LengthPercentage) :
    ChecksInOrder [row, column]
      (fun g : Gaps => ∃ r c : NonNegative LengthPercentage,
        g = ⟨.value r, some (.value c)⟩ ∧ r.value = row ∧ c.value = column)
      (Gaps.rowColumn row column) :=
  .next fun r hr => .next fun c hc => .done ⟨r, c, rfl, hr, hc⟩

theorem BackgroundSize.checksInOrder (width height : LengthPercentage) :
    ChecksInOrder [width, height]
      (fun s => ∃ w h : NonNegative LengthPercentage,
        s = .explicit (.value w) (some (.value h)) ∧ w.value = width ∧ h.value = height)
      (BackgroundSize.dimensions width height) :=
  .next fun w hw => .next fun h hh => .done ⟨w, h, rfl, hw, hh⟩

theorem PageSize.checksInOrder (width height : Length) :
    ChecksInOrder [width, height]
      (fun s => ∃ w h : NonNegative Length,
        s = .dimensions w (some h) ∧ w.value = width ∧ h.value = height)
      (PageSize.ofLengths width height) :=
  .next fun w hw => .next fun h hh => .done ⟨w, h, rfl, hw, hh⟩

/-- The second distance may be missing. -/
theorem BorderSpacing.checksInOrder (horizontal : Length) (vertical : Option Length) :
    ChecksInOrder (horizontal :: vertical.toList)
      (fun s : BorderSpacing => s.horizontal.value = horizontal ∧
        s.vertical.map NonNegative.value = vertical)
      (BorderSpacing.of horizontal vertical) := by
  refine .next fun h hh => ?_
  cases vertical with
  | none => exact .done ⟨hh, rfl⟩
  | some vertical =>
    rw [Option.mapM_some, bind_map_left]
    exact .next fun v hv => .done ⟨hh, congrArg some hv⟩

/-! ### The policy -/

/-- The types that are checked, and everything that is made of several quantities. -/
structure NonNegativePolicy : Prop where
  passes_iff (x : Binary32) : ¬ x.BelowZero ↔
    x.isNaN ∨ x.magnitude = 0 ∨ x = .infinity false ∨ (x.isFinite ∧ 0 < x.units)
  /-- An integer is looked at as the number nearest to it, which has its sign. -/
  integer_iff (i : Int) : (Binary32.ofInt i).BelowZero ↔ i < 0
  numbers : SignPolicy "Number" fun x : Binary32 => x
  integers : SignPolicy "Integer" Binary32.ofInt
  percentages : SignPolicy "Percentage" Percentage.value
  lengths : SignPolicy "Length" fun l : Length => l.value
  lengthPercentages : SignPolicy "LengthPercentage" LengthPercentage.value
  times : SignPolicy "Time" fun t : Time => t.value
  angles : SignPolicy "Angle" fun a : Angle => a.value
  resolutions : SignPolicy "Resolution" fun r : Resolution => r.value
  /-- The four sides of a padding, and the four corners of a border. -/
  sides (s : Sides LengthPercentage) : ChecksInOrder [s.top, s.right, s.bottom, s.left]
    (fun made => made.map NonNegative.value = s) s.nonNegative
  symmetric (vertical horizontal : LengthPercentage) : ChecksInOrder [vertical, horizontal]
    (fun made => made.map NonNegative.value = .symmetric vertical horizontal)
    (Sides.nonNegativeSymmetric vertical horizontal)
  gaps (row column : LengthPercentage) : ChecksInOrder [row, column]
    (fun g : Gaps => ∃ r c : NonNegative LengthPercentage,
      g = ⟨.value r, some (.value c)⟩ ∧ r.value = row ∧ c.value = column)
    (Gaps.rowColumn row column)
  backgroundSizes (width height : LengthPercentage) : ChecksInOrder [width, height]
    (fun s => ∃ w h : NonNegative LengthPercentage,
      s = .explicit (.value w) (some (.value h)) ∧ w.value = width ∧ h.value = height)
    (BackgroundSize.dimensions width height)
  borderSpacings (horizontal : Length) (vertical : Option Length) :
    ChecksInOrder (horizontal :: vertical.toList)
      (fun s : BorderSpacing => s.horizontal.value = horizontal ∧
        s.vertical.map NonNegative.value = vertical)
      (BorderSpacing.of horizontal vertical)
  pageSizes (width height : Length) : ChecksInOrder [width, height]
    (fun s => ∃ w h : NonNegative Length,
      s = .dimensions w (some h) ∧ w.value = width ∧ h.value = height)
    (PageSize.ofLengths width height)

/-- **One policy for the sign of all quantities.** Exactly NaN, the zeros, the upper infinity
and the finite numbers above zero pass the check; an integer passes by its own sign. The
rejected number is in the error, with the name of its type, and what passes is written
without a minus sign. What is made of several quantities (padding and corner radii by four,
padding by two, gaps, background sizes, border spacing and page sizes) fails on account of
the first one that is below zero. -/
theorem nonNegative_policy : NonNegativePolicy where
  passes_iff := Binary32.not_belowZero_iff
  integer_iff := Binary32.belowZero_ofInt_iff
  numbers := signPolicy
  integers := signPolicy
  percentages := signPolicy
  lengths := signPolicy
  lengthPercentages := signPolicy
  times := signPolicy
  angles := signPolicy
  resolutions := signPolicy
  sides := Sides.checksInOrder
  symmetric := Sides.checksInOrder_symmetric
  gaps := Gaps.checksInOrder
  backgroundSizes := BackgroundSize.checksInOrder
  borderSpacings := BorderSpacing.checksInOrder
  pageSizes := PageSize.checksInOrder

end Stylesheet
