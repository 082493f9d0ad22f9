import Stylesheet.Writing.Rule
import Stylesheet.Proofs.Nesting.Basic
import Stylesheet.Proofs.Nesting.Escape
import Stylesheet.Proofs.Nesting.Value
import Stylesheet.Proofs.Condition.Grammar
import Stylesheet.Proofs.Condition.Meaning
import Stylesheet.Proofs.Condition.Reading
import Stylesheet.Proofs.Declaration.Leaf
import Stylesheet.Proofs.Equality.Leaf
import Stylesheet.Proofs.Number.Bits
import Stylesheet.Proofs.Number.Canonical
import Stylesheet.Proofs.Property.Wide
import Stylesheet.Proofs.Reading.Escape
import Stylesheet.Proofs.Reading.Token
import Stylesheet.Proofs.Selector.Building
import Stylesheet.Proofs.Keyed.Descriptors
import Stylesheet.Proofs.Keyed.Rule
import Stylesheet.Proofs.Media.Reading
import Stylesheet.Proofs.Quantity.Checked
import Stylesheet.Proofs.Importance.Condition
import Stylesheet.Proofs.Minimum.Values
import Stylesheet.Proofs.Writing.Types
import Stylesheet.Proofs.Box.Sides
import Stylesheet.Proofs.Color.Hex
import Stylesheet.Proofs.Quantity.Clamped
import Stylesheet.Proofs.Import.Reading
import Stylesheet.Proofs.Condition.ContainerName
import Stylesheet.Proofs.Shadow.Reading
import Stylesheet.Proofs.Name.Keyword
import Stylesheet.Proofs.Registration.Reading
import Stylesheet.Proofs.Functional.Transform
import Stylesheet.Proofs.Image.Building
import Stylesheet.Proofs.Selector.Step
import Stylesheet.Proofs.Keyed.Required
import Stylesheet.Proofs.Font.Reading
import Stylesheet.Proofs.Box.Border
import Stylesheet.Proofs.Page.Reading
import Stylesheet.Proofs.Property.Transform
import Stylesheet.Proofs.Name.Listing
