import Stylesheet.Name.Identifier
import Stylesheet.Name.Quoted

/-! Writing values into a buffer.

A value is written piece by piece behind a text that is there already. What a writer does
may depend on that text, since it has the whole buffer before it. -/
namespace Stylesheet

/-- What is done to a buffer. -/
abbrev Writer := StateM String Unit

/-- Values that know how to write themselves. -/
class Writes (α : Type) where
  write : α → Writer

export Writes (write)

variable {α β : Type}

/-- The buffer after a value has been written into it. -/
def writeOnto [Writes α] (buffer : String) (a : α) : String := ((write a).run buffer).2

/-- A value written into a buffer of its own. -/
def writeString [Writes α] (a : α) : String := writeOnto "" a

/-! ### Pieces -/

def writeChar (c : Char) : Writer := modify (·.push c)

def writeWord (word : String) : Writer := modify (· ++ word)

/-- Characters one by one: the digits of a number, or the author's text once escaped. -/
def writeText (text : List Char) : Writer := text.forM writeChar

/-! ### Parts -/

/-- Writes only on a condition. -/
def writeIf (b : Bool) (writer : Writer) : Writer := if b then writer else pure ()

/-- A part that may be missing, after what introduces it. -/
def writeClause [Writes α] (lead : String) (part : Option α) : Writer :=
  part.forM fun a => do
    writeWord lead
    write a

/-- The writers in order, with `separator` in front of all but the first. -/
def writeBetween (separator : Writer) (writers : List Writer) : Writer :=
  writers.zipIdx.forM fun (writer, i) => do
    writeIf (0 < i) separator
    writer

def writeSeparated [Writes α] (separator : String) (items : List α) : Writer :=
  writeBetween (writeWord separator) (items.map write)

def writeCommaSeparated [Writes α] (items : List α) : Writer := writeSeparated ", " items

def writeCall (name : String) (arguments : Writer) : Writer := do
  writeWord name
  writeChar '('
  arguments
  writeChar ')'

instance [Writes α] [Writes β] : Writes (α ⊕ β) := ⟨Sum.elim write write⟩

/-! ### Words -/

instance [Keyword α] : Writes α := ⟨fun a => writeWord (Keyword.keyword a)⟩

instance {words : List String} : Writes (Choice words) := ⟨fun c => writeWord c.word⟩

instance {word : String} [Writes α] : Writes (OrKeyword word α) where
  write
    | .keyword => writeWord word
    | .value a => write a

instance {separator : String} [Writes α] : Writes (ListOrNone separator α) where
  write l := if l.items.isEmpty then writeWord "none" else writeSeparated separator l.items

/-! ### Names and strings -/

def writeIdentifier (name : String) : Writer := writeText (escapeIdentifier name.toList)

def writeQuoted (text : String) : Writer := writeText (quoteString text.toList)

instance : Writes Identifier := ⟨fun i => writeIdentifier i.name⟩

instance : Writes CustomIdent := ⟨fun i => writeIdentifier i.name⟩

instance {words : List String} : Writes (IdentExcept words) := ⟨fun i => write i.toCustomIdent⟩

instance : Writes (NonEmpty CustomIdent) := ⟨fun names => writeSeparated " " names.toList⟩

instance : Writes DashedIdent := ⟨fun i => writeIdentifier i.name⟩

instance : Writes CssString := ⟨fun s => writeQuoted s.text⟩

instance : Writes Url := ⟨fun u => writeCall "url" (writeQuoted u.address)⟩

end Stylesheet
