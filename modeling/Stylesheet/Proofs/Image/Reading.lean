import Stylesheet.Proofs.Image.Gradient
import Stylesheet.Proofs.Reading.Token
import Stylesheet.Proofs.Selector.Normal

/-! Reading strings, addresses and images back.

An image is a word or a function, and the name of the function tells an address from a
gradient. -/
namespace Stylesheet

/-! ### Strings and addresses -/

/-- The text as it reads back, with the replacement character for the null character. -/
def replaceNull (s : String) : String := String.ofList (s.toList.map replaced)

/-- Strings are written with the null characters replaced anyway. -/
theorem quoteString_replaceNull (s : String) :
    quoteString (replaceNull s).toList = quoteString s.toList := by
  rw [replaceNull, String.toList_ofList, quoteString_replaced]

instance : Readable CssString where
  read? t := (Reader.string.whole t).map fun s => ⟨String.ofList s⟩
  canonical s := ⟨replaceNull s.text⟩
  read?_css s := by
    have hread := (reads_string s.text.toList).whole trivial
    exact congrArg (Option.map _) hread
  css_canonical s := quoteString_replaceNull s.text

/-- The characters of a call, whose name is told by them up to the bracket. -/
theorem Url.css_eq (u : Url) :
    css u = "url".toList ++ '(' :: (css (⟨u.address⟩ : CssString) ++ [')']) :=
  call_ofList ['u', 'r', 'l'] _

/-! ### Images -/

namespace Image

/-- A word, an address, or else a gradient. -/
def ofText? (t : List Char) : Option Image :=
  match readCall t with
  | .none => if t = "none".toList then some .none else .none
  | some (name, u) =>
    if name = "url".toList then (read? u).map fun s : CssString => url ⟨s.text⟩
    else (read? t).map gradient

/-- The same image with its numbers in canonical form, and its address as it reads back. -/
def canonicalParts : Image → Image
  | .none => .none
  | url u => url ⟨replaceNull u.address⟩
  | gradient g => gradient (canonical g)

/-- **An image reads back as its canonical form.** -/
theorem ofText?_css (i : Image) : ofText? (css i) = some i.canonicalParts := by
  cases i with
  | none =>
    have hcall : readCall (css Image.none) = .none :=
      readCall_of_all (t := "none".toList) (by decide)
    rw [ofText?, hcall]
    exact if_pos rfl
  | url u =>
    have hcall : readCall (css (url u)) = some ("url".toList, css (⟨u.address⟩ : CssString)) :=
      (congrArg readCall u.css_eq).trans (readCall_call (by decide))
    rw [ofText?, hcall]
    show (if _ then _ else _) = _
    rw [if_pos rfl, read?_css]
    rfl
  | gradient g =>
    have hcall := g.readCall_css
    have hname : LinearGradient.function g.repeating ≠ "url".toList := by
      cases g.repeating <;> decide
    have htext : readCall (css (gradient g)) = _ := hcall
    rw [ofText?, htext]
    show (if _ then _ else Option.map gradient (read? (css g))) = _
    rw [if_neg hname, read?_css]
    rfl

instance : Readable Image where
  read? := ofText?
  canonical := canonicalParts
  read?_css := ofText?_css
  css_canonical
    | .none => rfl
    | url u => congrArg (call "url") (quoteString_replaceNull u.address)
    | gradient g => css_canonical g

end Image
end Stylesheet
