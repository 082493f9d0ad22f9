import Stylesheet.Name.Identifier
import Stylesheet.NonEmpty

/-! Pseudo-classes without selectors of their own, and pseudo-elements. -/
namespace Stylesheet

/-- The pseudo-classes that are a word. -/
inductive PseudoClassKeyword where
  | hover | active | focus | focusVisible | focusWithin | link | visited | anyLink | target
  | scope | root | empty | firstChild | lastChild | onlyChild | firstOfType | lastOfType
  | onlyOfType | checked | indeterminate | default | disabled | enabled | required | optional
  | valid | invalid | userValid | userInvalid | inRange | outOfRange | readOnly | readWrite
  | placeholderShown | autofill | defined | fullscreen | modal | popoverOpen
  deriving DecidableEq

instance : Keyword PseudoClassKeyword where
  all := [.hover, .active, .focus, .focusVisible, .focusWithin, .link, .visited, .anyLink,
    .target, .scope, .root, .empty, .firstChild, .lastChild, .onlyChild, .firstOfType,
    .lastOfType, .onlyOfType, .checked, .indeterminate, .default, .disabled, .enabled,
    .required, .optional, .valid, .invalid, .userValid, .userInvalid, .inRange, .outOfRange,
    .readOnly, .readWrite, .placeholderShown, .autofill, .defined, .fullscreen, .modal,
    .popoverOpen]
  keyword
    | .hover => "hover"
    | .active => "active"
    | .focus => "focus"
    | .focusVisible => "focus-visible"
    | .focusWithin => "focus-within"
    | .link => "link"
    | .visited => "visited"
    | .anyLink => "any-link"
    | .target => "target"
    | .scope => "scope"
    | .root => "root"
    | .empty => "empty"
    | .firstChild => "first-child"
    | .lastChild => "last-child"
    | .onlyChild => "only-child"
    | .firstOfType => "first-of-type"
    | .lastOfType => "last-of-type"
    | .onlyOfType => "only-of-type"
    | .checked => "checked"
    | .indeterminate => "indeterminate"
    | .default => "default"
    | .disabled => "disabled"
    | .enabled => "enabled"
    | .required => "required"
    | .optional => "optional"
    | .valid => "valid"
    | .invalid => "invalid"
    | .userValid => "user-valid"
    | .userInvalid => "user-invalid"
    | .inRange => "in-range"
    | .outOfRange => "out-of-range"
    | .readOnly => "read-only"
    | .readWrite => "read-write"
    | .placeholderShown => "placeholder-shown"
    | .autofill => "autofill"
    | .defined => "defined"
    | .fullscreen => "fullscreen"
    | .modal => "modal"
    | .popoverOpen => "popover-open"

/-- The direction that a text runs in. -/
inductive TextDirection where
  | ltr | rtl
  deriving DecidableEq

instance : Keyword TextDirection where
  all := [.ltr, .rtl]
  keyword
    | .ltr => "ltr"
    | .rtl => "rtl"

/-- Parts of an element that are none themselves. -/
inductive PseudoElement where
  | before
  | after
  | firstLine
  | firstLetter
  | marker
  | placeholder
  | selection
  | backdrop
  | fileSelectorButton
  | part (names : NonEmpty CustomIdent)
  deriving BEq

namespace PseudoElement

/-- An element has to have all the parts that are named, of which there is at least one. -/
def ofParts (names : List CustomIdent) : Result PseudoElement :=
  return part (← NonEmpty.ofList "::part()" names)

instance : ToCss PseudoElement where
  css
    | before => "::before".toList
    | after => "::after".toList
    | firstLine => "::first-line".toList
    | firstLetter => "::first-letter".toList
    | marker => "::marker".toList
    | placeholder => "::placeholder".toList
    | selection => "::selection".toList
    | backdrop => "::backdrop".toList
    | fileSelectorButton => "::file-selector-button".toList
    | part names => call "::part" (css names)

end PseudoElement
end Stylesheet
