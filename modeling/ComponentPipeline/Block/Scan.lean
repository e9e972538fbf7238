import ComponentPipeline.Block.Attributes
import ComponentPipeline.Block.Element

/-!
# Blocks of a document

The markup block is the first template element; the processed content replaces
the whole element.  Every script and every style element is a block of its
kind; the processed content replaces what stands between the tags.  A script
or style element that closes itself is opened up: `/>` gives way to `>`, the
processed content and a closing tag.
-/

namespace ComponentPipeline

/-- A block of a document with what is written around its processed
content. -/
structure FoundBlock where
  /-- The block. -/
  block : Block
  /-- Written before the processed content. -/
  opening : Text
  /-- Written after the processed content. -/
  closing : Text
  deriving DecidableEq, Repr

/-- The block of an element at an offset of a document. -/
def FoundBlock.ofElement
    (document : Text)
    (filename : Path)
    (kind : BlockKind)
    (offset : Nat)
    (element : Element) :
    FoundBlock :=
  let attributes := (element.attributes.map parseAttributes).getD []
  let opened := offset + Text.size (element.openingTag kind.tagName)
  let ended := offset + Text.size (element.text kind.tagName)
  let block (content : Text) (span : Span) : Block :=
    ⟨kind, content, attributes, filename, span, Location.ofOffset document opened⟩
  match kind, element.content with
  | .markup, content => ⟨block (content.getD []) ⟨offset, ended⟩, [], []⟩
  | _, some content => ⟨block content ⟨opened, opened + Text.size content⟩, [], []⟩
  | _, none =>
      ⟨block [] ⟨ended - 2, ended⟩, ['>'], Element.closingTag kind.tagName⟩

/-- The markup block of a document. -/
def findMarkupBlock? (document : Text) (filename : Path) : Option FoundBlock :=
  (elementsOf BlockKind.markup.tagName document).head?.map fun (offset, element) =>
    .ofElement document filename .markup offset element

/-- The blocks of one kind, in the order of the document. -/
def findBlocks
    (document : Text)
    (kind : BlockKind)
    (filename : Path) :
    List FoundBlock :=
  match kind with
  | .markup => (findMarkupBlock? document filename).toList
  | _ =>
      (elementsOf kind.tagName document).map fun (offset, element) =>
        .ofElement document filename kind offset element

end ComponentPipeline
