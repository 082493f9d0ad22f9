import Stylesheet.Proofs.Keyed.Run

/-! A block of descriptors is an ordered map.

However it was filled, it holds one entry for each name, in the order in which the names
first came, and each entry is the last declaration under its name. -/
namespace Stylesheet

/-- What fills a block of descriptors. -/
inductive DescriptorCall where
  | set {α : Type} [ToCss α] (name : String) (value : α)
  | declare (p : Property)
  | insert (d : Declaration)

namespace DescriptorCall

/-- What a call puts into the block. -/
def declaration : DescriptorCall → Declaration
  | set name value => ⟨name.toList, css value, false⟩
  | declare p => p.declaration
  | insert d => d

/-- One call. -/
def run (ds : Descriptors) : DescriptorCall → Descriptors
  | set name value => ds.set name value
  | declare p => ds.declare p
  | insert d => ds.insert d

theorem run_eq (ds : Descriptors) (call : DescriptorCall) :
    call.run ds = ds.insert call.declaration := by
  cases call <;> rfl

/-- **Every call puts one declaration**, and nothing else happens. -/
theorem puts_run : Puts Declaration.name Descriptors.entries (some ∘ declaration) run := by
  intro ds call
  rw [run_eq]
  rfl

end DescriptorCall

namespace Descriptors

def ofCalls (calls : List DescriptorCall) : Descriptors := calls.foldl DescriptorCall.run empty

theorem keepsLatest_ofCalls (calls : List DescriptorCall) :
    KeepsLatest Declaration.name (calls.map DescriptorCall.declaration)
      (ofCalls calls).entries := by
  rw [← List.filterMap_eq_map]
  exact DescriptorCall.puts_run.keepsLatest calls rfl

/-- **A block of descriptors is an ordered map**: it has one entry for each name that was
given, in the order in which the names first came, with the last declaration under it;
adding to it changes and moves no entry of another name; and its text lists the entries. -/
theorem ordered_map (calls : List DescriptorCall) :
    KeepsLatest Declaration.name (calls.map DescriptorCall.declaration) (ofCalls calls).entries ∧
    (∀ names : List (List Char), names.Nodup →
      (∀ n, n ∈ names ↔ n ∈ calls.map (·.declaration.name)) →
        (ofCalls calls).length = names.length) ∧
    (∀ n, (ofCalls calls).get? n =
      lastUnder Declaration.name (calls.map DescriptorCall.declaration) n) ∧
    (∀ (d e : Declaration) (i : Nat), (ofCalls calls).entries[i]? = some e → e.name ≠ d.name →
      ((ofCalls calls).insert d).entries[i]? = some e) ∧
    (∀ d : Declaration, ((ofCalls calls).insert d).insert d = (ofCalls calls).insert d) ∧
    (∀ d e : Declaration, d.name ≠ e.name → ((ofCalls calls).get? d.name).isSome →
      ((ofCalls calls).get? e.name).isSome →
        ((ofCalls calls).insert d).insert e = ((ofCalls calls).insert e).insert d) ∧
    css (ofCalls calls) = blockText (((calls.map (·.declaration.name)).eraseDups.filterMap
      (lastUnder Declaration.name (calls.map DescriptorCall.declaration))).map
        Declaration.entry) := by
  have hkeeps := keepsLatest_ofCalls calls
  have hnames : calls.map (·.declaration.name) =
      (calls.map DescriptorCall.declaration).map Declaration.name := List.map_map.symm
  have hmem : ∀ d : Declaration, ((ofCalls calls).get? d.name).isSome →
      d.name ∈ (ofCalls calls).entries.map Declaration.name := by
    intro d hd
    obtain ⟨e, he, hname⟩ := List.find?_isSome.mp hd
    exact List.mem_map.mpr ⟨e, he, by simpa using hname⟩
  refine ⟨hkeeps, fun names hnodup h => ?_, hkeeps.find?_eq, fun d e i h hne => ?_, fun d => ?_,
    fun d e hne hd he => ?_, ?_⟩
  · exact hkeeps.length_eq hnodup (by rwa [← hnames])
  · exact getElem?_put h hne
  · exact congrArg Descriptors.mk (put_put ..)
  · exact congrArg Descriptors.mk (put_comm hne (hmem d hd) (hmem e he))
  · rw [hnames, ← hkeeps.eq_filterMap]
    rfl

/-- Two names in turn: the first keeps its place, and takes the later value. -/
theorem ordered_map_fonts :
    ∃ (calls : List DescriptorCall) (d e : Declaration), calls.length = 3 ∧ d.name ≠ e.name ∧
      (∀ n, n ∈ [d.name, e.name] ↔ n ∈ calls.map (·.declaration.name)) ∧
      (ofCalls calls).length = 2 ∧ (ofCalls calls).get? d.name = some d ∧
      ((ofCalls calls).insert d).insert e = ((ofCalls calls).insert e).insert d ∧
      ((ofCalls calls).insert d).entries[1]? = some e ∧
      css (ofCalls calls) = "\x7b font-family:\"Inter 2\"; --x:0!important; \x7d".toList := by
  let d : Declaration := ⟨"font-family".toList, "\"Inter 2\"".toList, false⟩
  let e : Declaration := ⟨"--x".toList, "0".toList, true⟩
  let calls : List DescriptorCall := [.set "font-family" (0 : Nat), .insert e, .insert d]
  have hnames : ∀ n, n ∈ [d.name, e.name] ↔ n ∈ calls.map (·.declaration.name) := by
    intro n
    show n ∈ [d.name, e.name] ↔ n ∈ [d.name, e.name, d.name]
    simp only [List.mem_cons, List.not_mem_nil, or_false]
    grind
  obtain ⟨-, hlength, hget, hkept, -, hcomm, htext⟩ := ordered_map calls
  have hd : (ofCalls calls).get? d.name = some d := (hget _).trans (by decide)
  have he : (ofCalls calls).get? e.name = some e := (hget _).trans (by decide)
  exact ⟨calls, d, e, rfl, by decide, hnames, hlength _ (by decide) hnames, hd,
    hcomm d e (by decide) (by rw [hd]; rfl) (by rw [he]; rfl),
    hkept d e 1 (by decide) (by decide), htext.trans (by decide)⟩

end Descriptors
end Stylesheet
