import ComponentPipeline.Path.Basic
import ComponentPipeline.Table
import ComponentPipeline.Text.Location

/-!
# Blocks of a component

A component document embeds blocks in other languages: markup, scripts and
styles.  A block knows its content, the attributes of its opening tag and
which part of the document its processed content replaces.
-/

namespace ComponentPipeline

/-- What a block is for. -/
inductive BlockKind
  | markup
  | script
  | style
  deriving DecidableEq, Repr

namespace BlockKind

/-- The name of a kind. -/
def name : BlockKind → Text
  | .markup => "markup"
  | .script => "script"
  | .style => "style"

/-- The language of a block that declares none. -/
def baseLanguage : BlockKind → Text
  | .markup => "html"
  | .script => "javascript"
  | .style => "css"

/-- The name of the element that holds a block. -/
def tagName : BlockKind → Text
  | .markup => "template"
  | .script => "script"
  | .style => "style"

/-- The kind with a name. -/
def ofName? (name : Text) : Option BlockKind :=
  [.markup, .script, .style].find? fun kind => kind.name == name

end BlockKind

/-- The value of an attribute. -/
inductive AttributeValue
  /-- An attribute written without a value is true. -/
  | flag (value : Bool)
  | text (value : Text)
  deriving DecidableEq, Repr

/-- The text of an attribute that has one. -/
def AttributeValue.text? : AttributeValue → Option Text
  | .flag _ => none
  | .text value => some value

/-- The attributes of an opening tag, in the order in which they were first
written. -/
abbrev Attributes := Table AttributeValue

/-- A part of a document, by byte offsets. -/
structure Span where
  /-- Offset of the first byte. -/
  start : Nat
  /-- Offset after the last byte. -/
  stop : Nat
  deriving DecidableEq, Repr, Inhabited

/-- A block of a component document. -/
structure Block where
  /-- What the block is for. -/
  kind : BlockKind
  /-- The text between the tags. -/
  content : Text
  /-- The attributes of the opening tag. -/
  attributes : Attributes
  /-- The component file. -/
  filename : Path
  /-- The part of the document that the processed content replaces. -/
  span : Span
  /-- Where the content starts in the document. -/
  contentStart : Location
  deriving DecidableEq, Repr

namespace Block

/-- A block that is not part of a document. -/
def ofContent (kind : BlockKind) (content : Text) (filename : Path) : Block :=
  ⟨kind, content, [], filename, ⟨0, 0⟩, Location.origin⟩

/-- A block with one more attribute. -/
def withAttribute (block : Block) (name : Text) (value : AttributeValue) : Block :=
  { block with attributes := Table.put name value block.attributes }

/-- The text of an attribute; an empty text counts as none. -/
def attribute? (block : Block) (name : Text) : Option Text :=
  ((Table.get? name block.attributes).bind AttributeValue.text?).filter
    fun value => !value.isEmpty

/-- The file that the content is taken from. -/
def source? (block : Block) : Option Text :=
  block.attribute? "src"

end Block
end ComponentPipeline
