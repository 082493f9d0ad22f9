import Stylesheet.Declaration.Descriptors

/-! Lists in which every key stands once.

An item that is put into the list takes the place of the one with its key, and comes last if
there is none. So a run leaves the keys in the order in which they first came, and under
each of them the item that came last. -/
namespace Stylesheet

variable {α κ : Type} [BEq κ] [LawfulBEq κ]

/-- One step: the first item with the key of `a` gives way to it. -/
def put (key : α → κ) (items : List α) (a : α) : List α :=
  replaceOrAppend (fun b => key b == key a) a items

/-- The item that was given last under a key. -/
def lastUnder (key : α → κ) (given : List α) (k : κ) : Option α :=
  (given.filter (key · == k)).getLast?

/-- What stands for the items that were `given` one after the other: each key once, in the
order of first appearance, with the last item under it. -/
structure KeepsLatest (key : α → κ) (given items : List α) : Prop where
  nodup : (items.map key).Nodup
  keys_eq : items.map key = (given.map key).eraseDups
  find?_eq : ∀ k, items.find? (key · == k) = lastUnder key given k

variable {key : α → κ} {items given : List α} {a b : α}

/-! ### One step -/

omit [LawfulBEq κ] in
theorem put_cons (key : α → κ) (b : α) (items : List α) (a : α) :
    put key (b :: items) a = if key b == key a then a :: items else b :: put key items a := rfl

/-- A new key goes to the end. -/
theorem put_of_not_mem (h : key a ∉ items.map key) : put key items a = items ++ [a] := by
  induction items with
  | nil => rfl
  | cons b items ih =>
    rw [List.map_cons, List.mem_cons, not_or] at h
    rw [put_cons, if_neg (by simpa using Ne.symm h.1), ih h.2, List.cons_append]

/-- A known one stays where it is. -/
theorem map_key_put_of_mem (h : key a ∈ items.map key) :
    (put key items a).map key = items.map key := by
  induction items with
  | nil => exact nomatch h
  | cons b items ih =>
    rw [put_cons]
    by_cases hb : key b = key a
    · rw [if_pos (by simpa using hb), List.map_cons, List.map_cons, hb]
    · have hmem : key a ∈ items.map key := (List.mem_cons.mp h).resolve_left (Ne.symm hb)
      rw [if_neg (by simpa using hb), List.map_cons, List.map_cons, ih hmem]

/-- What an item is looked up by is its key. -/
theorem find?_put (k : κ) :
    (put key items a).find? (key · == k) =
      if key a == k then some a else items.find? (key · == k) := by
  induction items with
  | nil => cases h : key a == k <;> simp [put, replaceOrAppend, h]
  | cons b items ih =>
    rw [put_cons]
    by_cases hb : key b = key a
    · rw [if_pos (by simpa using hb), List.find?_cons, List.find?_cons, hb]
      cases key a == k <;> rfl
    · rw [if_neg (by simpa using hb), List.find?_cons, List.find?_cons, ih]
      by_cases hk : key b = k
      · have ha : (key a == k) = false := by simpa [← hk] using Ne.symm hb
        rw [ha, hk, beq_self_eq_true]
        rfl
      · have hk' : (key b == k) = false := by simpa using hk
        rw [hk']

/-- **Nothing else changes or moves.** -/
theorem getElem?_put {i : Nat} (h : items[i]? = some b) (hb : key b ≠ key a) :
    (put key items a)[i]? = some b := by
  induction items generalizing i with
  | nil => exact nomatch h
  | cons c items ih =>
    rw [put_cons]
    cases i with
    | zero =>
      obtain rfl : c = b := Option.some.inj h
      rw [if_neg (by simpa using hb)]
      rfl
    | succ i =>
      split
      case isTrue => exact h
      case isFalse => exact ih h

/-- Every item stays where it is, or gives its place to the new one. -/
theorem exists_getElem?_put (key : α → κ) {i : Nat} (h : items[i]? = some b) (a : α) :
    ∃ c, (put key items a)[i]? = some c ∧ key c = key b ∧ (c = b ∨ c = a) := by
  induction items generalizing i with
  | nil => exact nomatch h
  | cons d items ih =>
    rw [put_cons]
    cases i with
    | zero =>
      obtain rfl : d = b := Option.some.inj h
      split
      case isTrue hd => exact ⟨a, rfl, (beq_iff_eq.mp hd).symm, .inr rfl⟩
      case isFalse => exact ⟨d, rfl, rfl, .inl rfl⟩
    | succ i =>
      split
      case isTrue => exact ⟨b, h, rfl, .inl rfl⟩
      case isFalse => exact ih h

/-- Putting an item a second time changes nothing. -/
theorem put_put (key : α → κ) (items : List α) (a : α) :
    put key (put key items a) a = put key items a := by
  induction items with
  | nil => simp [put, replaceOrAppend]
  | cons b items ih =>
    rw [put_cons]
    split
    case isTrue => rw [put_cons, if_pos (beq_self_eq_true _)]
    case isFalse hb => rw [put_cons, if_neg hb, ih]

/-- Where both keys are there, the order of two steps does not matter. -/
theorem put_comm (hne : key a ≠ key b) (ha : key a ∈ items.map key)
    (hb : key b ∈ items.map key) :
    put key (put key items a) b = put key (put key items b) a := by
  induction items with
  | nil => exact nomatch ha
  | cons c items ih =>
    have hab : ¬(key a == key b) := by simpa using hne
    have hba : ¬(key b == key a) := by simpa using Ne.symm hne
    rw [put_cons, put_cons]
    by_cases hca : key c = key a
    · have hcb : ¬(key c == key b) := by simpa [hca] using hne
      rw [if_pos (by simpa using hca), if_neg hcb, put_cons, if_neg hab, put_cons,
        if_pos (by simpa using hca)]
    by_cases hcb : key c = key b
    · have hca : ¬(key c == key a) := by simpa using hca
      rw [if_neg hca, if_pos (by simpa using hcb), put_cons, if_pos (by simpa using hcb), put_cons,
        if_neg hba]
    · have hmem : ∀ {d}, key c ≠ key d → key d ∈ (c :: items).map key → key d ∈ items.map key :=
        fun h hd => (List.mem_cons.mp hd).resolve_left (Ne.symm h)
      have hca' : ¬(key c == key a) := by simpa using hca
      have hcb' : ¬(key c == key b) := by simpa using hcb
      rw [if_neg hca', if_neg hcb', put_cons, if_neg hcb', put_cons, if_neg hca',
        ih (hmem hca ha) (hmem hcb hb)]

/-! ### A run -/

/-- The keys of a run are those from before, and behind them the new ones. -/
theorem map_key_foldl_put (given items : List α) :
    (given.foldl (put key) items).map key =
      items.map key ++ ((given.map key).filter (!(items.map key).contains ·)).eraseDups := by
  induction given generalizing items with
  | nil => simp
  | cons a given ih =>
    rw [List.foldl_cons, ih, List.map_cons]
    by_cases h : key a ∈ items.map key
    · rw [map_key_put_of_mem h, List.filter_cons_of_neg (by simpa using h)]
    · -- the new key now counts as one from before
      have hfilter : (given.map key).filter (fun k => !((items ++ [a]).map key).contains k) =
          ((given.map key).filter (!(items.map key).contains ·)).filter (!· == key a) := by
        rw [List.filter_filter]
        refine List.filter_congr fun k _ => ?_
        rw [List.map_append, List.contains_append, List.map_singleton, List.contains_cons,
          List.contains_nil, Bool.or_false, Bool.not_or, Bool.and_comm]
      rw [put_of_not_mem h, List.filter_cons_of_pos (by simpa using h), List.eraseDups_cons,
        hfilter]
      simp

/-- **The last item of a key is what is found.** -/
theorem find?_foldl_put (given items : List α) (k : κ) :
    (given.foldl (put key) items).find? (key · == k) =
      (lastUnder key given k).or (items.find? (key · == k)) := by
  induction given generalizing items with
  | nil => rfl
  | cons a given ih =>
    rw [List.foldl_cons, ih, find?_put, lastUnder, lastUnder]
    by_cases ha : key a = k
    · rw [if_pos (by simpa using ha), List.filter_cons_of_pos (by simpa using ha),
        List.getLast?_cons]
      cases (given.filter (key · == k)).getLast? <;> rfl
    · rw [if_neg (by simpa using ha), List.filter_cons_of_neg (by simpa using ha)]

/-- No key comes to stand twice. -/
theorem nodup_map_key_put (h : (items.map key).Nodup) (a : α) :
    ((put key items a).map key).Nodup := by
  by_cases ha : key a ∈ items.map key
  · rwa [map_key_put_of_mem ha]
  · rw [put_of_not_mem ha, List.map_append, List.nodup_append]
    refine ⟨h, by simp, fun k hk l hl => ?_⟩
    rintro rfl
    rw [List.map_singleton, List.mem_singleton] at hl
    exact ha (hl ▸ hk)

theorem nodup_map_key_foldl_put (given : List α) (h : (items.map key).Nodup) :
    ((given.foldl (put key) items).map key).Nodup := by
  induction given generalizing items with
  | nil => exact h
  | cons a given ih => exact ih (nodup_map_key_put h a)

/-- **A run from nothing keeps the latest item under every key.** -/
theorem keepsLatest_foldl_put (key : α → κ) (given : List α) :
    KeepsLatest key given (given.foldl (put key) []) := by
  have hnodup : ((given.foldl (put key) []).map key).Nodup := nodup_map_key_foldl_put given .nil
  have hkeys : (given.foldl (put key) []).map key = (given.map key).eraseDups := by
    rw [map_key_foldl_put, List.map_nil, List.nil_append, List.filter_eq_self.mpr]
    exact fun _ _ => rfl
  refine ⟨hnodup, hkeys, fun k => ?_⟩
  rw [find?_foldl_put, List.find?_nil, Option.or_none]

/-- Items with different keys are what a run of them leaves. -/
theorem foldl_put_eq_append (h : ((items ++ given).map key).Nodup) :
    given.foldl (put key) items = items ++ given := by
  induction given generalizing items with
  | nil => exact (List.append_nil items).symm
  | cons a given ih =>
    have hsplit : (items ++ [a]) ++ given = items ++ a :: given := List.append_assoc ..
    have hnew : key a ∉ items.map key := by
      rw [List.map_append, List.nodup_append] at h
      exact fun hmem => h.2.2 _ hmem _ (List.mem_cons_self ..) rfl
    rw [List.foldl_cons, put_of_not_mem hnew, ih (hsplit ▸ h), hsplit]

/-- **A run from items with different keys** keeps the latest of these and its own. -/
theorem keepsLatest_foldl_put_append (given : List α) (h : (items.map key).Nodup) :
    KeepsLatest key (items ++ given) (given.foldl (put key) items) := by
  have hkeeps := keepsLatest_foldl_put key (items ++ given)
  have hitems : items.foldl (put key) [] = items := foldl_put_eq_append (by simpa using h)
  rwa [List.foldl_append, hitems] at hkeeps

theorem put_append_of_not_mem {rest : List α} (h : key a ∉ items.map key) :
    put key (items ++ rest) a = items ++ put key rest a := by
  induction items with
  | nil => rfl
  | cons b items ih =>
    rw [List.map_cons, List.mem_cons, not_or] at h
    rw [List.cons_append, put_cons, if_neg (by simpa using Ne.symm h.1), ih h.2, List.cons_append]

theorem foldl_put_append_toList {k : κ} {last : Option α} (hitems : k ∉ items.map key)
    (hlast : ∀ a ∈ last, key a = k) (hgiven : ∀ a ∈ given, key a = k) :
    given.foldl (put key) (items ++ last.toList) = items ++ (given.getLast?.or last).toList := by
  induction given generalizing last with
  | nil => rfl
  | cons a given ih =>
    rw [List.forall_mem_cons] at hgiven
    have hput : put key last.toList a = (some a).toList := by
      cases last with
      | none => rfl
      | some b =>
        have hb : key b == key a := beq_iff_eq.mpr ((hlast b rfl).trans hgiven.1.symm)
        exact if_pos hb
    have hlast' : ∀ b ∈ some a, key b = k := by
      rintro b ⟨⟩
      exact hgiven.1
    rw [List.foldl_cons, put_append_of_not_mem (hgiven.1 ▸ hitems), hput, ih hlast' hgiven.2,
      List.getLast?_cons]
    cases given.getLast? <;> rfl

/-- Of items under one new key the last stands behind what was there. -/
theorem foldl_put_eq_getLast? {k : κ} (hitems : k ∉ items.map key)
    (hgiven : ∀ a ∈ given, key a = k) :
    given.foldl (put key) items = items ++ given.getLast?.toList := by
  have hlast : given.foldl (put key) (items ++ (none : Option α).toList) = _ :=
    foldl_put_append_toList hitems nofun hgiven
  rwa [Option.toList_none, List.append_nil, Option.or_none] at hlast

/-! ### The items by their keys -/

theorem find?_key_of_mem (h : (items.map key).Nodup) (hb : b ∈ items) :
    items.find? (key · == key b) = some b := by
  induction items with
  | nil => exact nomatch hb
  | cons c items ih =>
    rw [List.map_cons, List.nodup_cons] at h
    rcases List.mem_cons.mp hb with rfl | hb
    · rw [List.find?_cons, beq_self_eq_true]
    · have hne : (key c == key b) = false := by
        rw [beq_eq_false_iff_ne]
        intro heq
        exact h.1 (heq ▸ List.mem_map_of_mem hb)
      rw [List.find?_cons, hne]
      exact ih h.2 hb

namespace KeepsLatest

/-- There are as many items as distinct keys, however those are listed. -/
theorem length_eq (h : KeepsLatest key given items) {ks : List κ} (hks : ks.Nodup)
    (hmem : ∀ k, k ∈ ks ↔ k ∈ given.map key) : items.length = ks.length := by
  have hperm : (items.map key).Perm ks := by
    rw [List.perm_ext_iff_of_nodup h.nodup hks]
    intro k
    rw [h.keys_eq, List.mem_eraseDups, hmem]
  rw [← hperm.length_eq, List.length_map]

/-- Each item that stands is the last one given under its key. -/
theorem lastUnder_eq (h : KeepsLatest key given items) (hb : b ∈ items) :
    lastUnder key given (key b) = some b := by
  rw [← h.find?_eq, find?_key_of_mem h.nodup hb]

/-- What stands can be told from what was given. -/
theorem eq_filterMap (h : KeepsLatest key given items) :
    items = (given.map key).eraseDups.filterMap (lastUnder key given) := by
  have hlast : (items.map key).map (lastUnder key given) = items.map some := by
    rw [List.map_map]
    exact List.map_congr_left fun b hb => h.lastUnder_eq hb
  calc items = (items.map some).filterMap id := by
        rw [List.filterMap_map]
        exact List.filterMap_some.symm
    _ = ((items.map key).map (lastUnder key given)).filterMap id := by rw [hlast]
    _ = (given.map key).eraseDups.filterMap (lastUnder key given) := by
      rw [List.filterMap_map, h.keys_eq]
      rfl

end KeepsLatest

/-! ### Calls that put items -/

section Calls
universe u v
variable {State : Type u} {Call : Type v}

/-- Every call puts one item at most into the list that is `shown`. -/
def Puts (key : α → κ) (shown : State → List α) (given? : Call → Option α)
    (run : State → Call → State) : Prop :=
  ∀ state call, shown (run state call) = (given? call).toList.foldl (put key) (shown state)

namespace Puts

variable {shown : State → List α} {given? : Call → Option α} {run : State → Call → State}
  {state : State}

omit [LawfulBEq κ] in
theorem foldl_eq (h : Puts key shown given? run) (calls : List Call) (state : State) :
    shown (calls.foldl run state) = (calls.filterMap given?).foldl (put key) (shown state) := by
  induction calls generalizing state with
  | nil => rfl
  | cons call calls ih =>
    rw [List.foldl_cons, ih, h, List.filterMap_cons]
    cases given? call <;> rfl

theorem keepsLatest (h : Puts key shown given? run) (calls : List Call)
    (hstart : shown state = []) :
    KeepsLatest key (calls.filterMap given?) (shown (calls.foldl run state)) := by
  rw [h.foldl_eq, hstart]
  exact keepsLatest_foldl_put ..

theorem keepsLatest_append (h : Puts key shown given? run) (calls : List Call)
    (hstart : ((shown state).map key).Nodup) :
    KeepsLatest key (shown state ++ calls.filterMap given?) (shown (calls.foldl run state)) := by
  rw [h.foldl_eq]
  exact keepsLatest_foldl_put_append _ hstart

theorem getElem?_run (h : Puts key shown given? run) {call : Call} {i : Nat}
    (hi : (shown state)[i]? = some b) (hb : ∀ a ∈ given? call, key b ≠ key a) :
    (shown (run state call))[i]? = some b := by
  rw [h]
  cases hgiven : given? call with
  | none => exact hi
  | some a => exact getElem?_put hi (hb a hgiven)

/-- What no call puts anything in the place of stays there. -/
theorem getElem?_foldl (h : Puts key shown given? run) {i : Nat}
    (hb : ∀ call, ∀ a ∈ given? call, key b ≠ key a) (calls : List Call) {state : State}
    (hi : (shown state)[i]? = some b) : (shown (calls.foldl run state))[i]? = some b := by
  induction calls generalizing state with
  | nil => exact hi
  | cons call calls ih => exact ih (h.getElem?_run hi (hb call))

end Puts
end Calls

/-! ### Fields

A record is a list of this kind whose keys are its fields. A step sets a field or leaves it
alone, and a run leaves in it what was set last. -/

section
variable {σ α : Type} {part : σ → Option α}

/-- What the last step that sets a part sets it to. -/
def lastSet (part : σ → Option α) (steps : List σ) : Option α := (steps.filterMap part).getLast?

theorem lastSet_cons (step : σ) (steps : List σ) :
    lastSet part (step :: steps) = (lastSet part steps).or (part step) := by
  unfold lastSet
  cases h : part step with
  | none => rw [List.filterMap_cons_none h, Option.or_none]
  | some a =>
    rw [List.filterMap_cons_some h, List.getLast?_cons]
    cases (steps.filterMap part).getLast? <;> rfl

theorem isSome_lastSet {step : σ} {steps : List σ} (h : step ∈ steps) (hpart : (part step).isSome) :
    (lastSet part steps).isSome := by
  rw [← Option.ne_none_iff_isSome, lastSet, Ne, List.getLast?_eq_none_iff,
    List.filterMap_eq_nil_iff]
  exact fun hnone => Option.ne_none_iff_isSome.mpr hpart (hnone step h)

/-- The last item under a key is what was set last by the steps that set it. -/
theorem lastUnder_append_filterMap {κ : Type} [BEq κ] {key : α → κ} {k : κ}
    {items : List α} {given? : σ → Option α} (hitems : ∀ a ∈ items, (key a == k) = false)
    (hpart : ∀ step, (given? step).filter (key · == k) = part step) (steps : List σ) :
    lastUnder key (items ++ steps.filterMap given?) k = lastSet part steps := by
  have hnone : items.filter (key · == k) = [] :=
    List.filter_eq_nil_iff.mpr fun a ha => Bool.eq_false_iff.mp (hitems a ha)
  rw [lastUnder, List.filter_append, hnone, List.nil_append, List.filter_filterMap, lastSet]
  exact congrArg (fun f => (steps.filterMap f).getLast?) (funext hpart)

/-- Nothing was set last when no step sets it. -/
theorem lastSet_eq_none {set : α → σ} {steps : List σ}
    (hset : ∀ step a, part step = some a ↔ step = set a) :
    lastSet part steps = none ↔ ∀ a, set a ∉ steps := by
  rw [lastSet, List.getLast?_eq_none_iff, List.filterMap_eq_nil_iff]
  constructor
  · intro h a ha
    have hnone := h _ ha
    rw [(hset _ a).mpr rfl] at hnone
    exact nomatch hnone
  · intro h step hstep
    cases hpart : part step with
    | none => rfl
    | some a => exact absurd ((hset step a).mp hpart ▸ hstep) (h a)

end

end Stylesheet
