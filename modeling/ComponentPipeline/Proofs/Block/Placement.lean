import ComponentPipeline.Block.Scan
import ComponentPipeline.Proofs.Text.Cutting

/-!
# Where blocks stand in a document

Every element that a search finds is a part of the document, at the offset
that is reported with it.  A script or style block either stands between an
opening and a closing tag or is the end of a tag that closes itself; its span
covers what its processed content replaces.
-/

namespace ComponentPipeline

/-- An element found in a text was cut off there at its offset. -/
theorem exists_cut_of_mem_elementsFrom
    {tag text : Text}
    {start offset : Nat}
    {element : Element}
    (found : (offset, element) ∈ elementsFrom tag start text) :
    ∃ before here after,
      text = before ++ here ∧ Element.cut? tag here = some (element, after) ∧
        offset = start + Text.size before := by
  fun_induction elementsFrom tag start text with
  | case1 start => cases found
  | case2 start char rest inside tail comment ih =>
      obtain ⟨before, here, after, parts, cut, place⟩ := ih found
      refine ⟨commentText inside ++ before, here, after, ?_, cut, ?_⟩
      · rw [eq_of_cutComment?_eq_some comment, parts, List.append_assoc]
      · rw [place, Text.size_append]
        omega
  | case3 start char rest noComment first tail cutFirst ih =>
      rcases List.mem_cons.mp found with same | later
      · cases same
        exact ⟨[], char :: rest, tail, rfl, cutFirst, rfl⟩
      · obtain ⟨before, here, after, parts, cut, place⟩ := ih later
        refine ⟨first.text tag ++ before, here, after, ?_, cut, ?_⟩
        · rw [Element.eq_of_cut?_eq_some cutFirst, parts, List.append_assoc]
        · rw [place, Text.size_append]
          omega
  | case4 start char rest noComment noElement ih =>
      obtain ⟨before, here, after, parts, cut, place⟩ := ih found
      refine ⟨char :: before, here, after, by rw [parts, List.cons_append], cut, ?_⟩
      rw [place, Text.size_cons]
      omega

/-- An element found in a text stands there at its offset. -/
theorem exists_parts_of_mem_elementsFrom
    {tag text : Text}
    {start offset : Nat}
    {element : Element}
    (found : (offset, element) ∈ elementsFrom tag start text) :
    ∃ before after,
      text = before ++ element.text tag ++ after ∧
        offset = start + Text.size before := by
  obtain ⟨before, here, after, parts, cut, place⟩ := exists_cut_of_mem_elementsFrom found
  refine ⟨before, after, ?_, place⟩
  rw [parts, Element.eq_of_cut?_eq_some cut, List.append_assoc]

theorem exists_parts_of_mem_elementsOf
    {tag document : Text}
    {offset : Nat}
    {element : Element}
    (found : (offset, element) ∈ elementsOf tag document) :
    ∃ before after,
      document = before ++ element.text tag ++ after ∧ offset = Text.size before := by
  obtain ⟨before, after, parts, place⟩ := exists_parts_of_mem_elementsFrom found
  exact ⟨before, after, parts, by omega⟩

/-- A span covers a part of a text. -/
def Span.Covers (span : Span) (text before inside after : Text) : Prop :=
  text = before ++ inside ++ after ∧
    span.start = Text.size before ∧ span.stop = Text.size (before ++ inside)

/-- A span covers one part only. -/
theorem Span.Covers.unique
    {span : Span}
    {text before inside after beforeToo insideToo afterToo : Text}
    (covers : span.Covers text before inside after)
    (coversToo : span.Covers text beforeToo insideToo afterToo) :
    before = beforeToo ∧ inside = insideToo ∧ after = afterToo := by
  obtain ⟨parts, start, stop⟩ := covers
  obtain ⟨partsToo, startToo, stopToo⟩ := coversToo
  obtain ⟨upToStop, afterSame⟩ := Text.append_inj_of_size_eq
    (parts.symm.trans partsToo) (stop.symm.trans stopToo)
  obtain ⟨beforeSame, insideSame⟩ := Text.append_inj_of_size_eq
    upToStop (start.symm.trans startToo)
  exact ⟨beforeSame, insideSame, afterSame⟩

namespace FoundBlock

/-- Where a script or style block stands in a document. -/
inductive Stands (found : FoundBlock) (document : Text) : Prop
  /-- Its content stands between an opening and a closing tag. -/
  | betweenTags {before after : Text}
      (covers : found.block.span.Covers document before found.block.content
        (Element.closingTag found.block.kind.tagName ++ after))
      (tagBefore : before.getLast? = some '>')
      (contentStart : found.block.contentStart = Location.origin.advance before)
      (opening : found.opening = [])
      (closing : found.closing = [])
  /-- Its tag closes itself, and the slash with the bracket is replaced. -/
  | selfClosing {before after : Text}
      (covers : found.block.span.Covers document before ['/', '>'] after)
      (content : found.block.content = [])
      (opening : found.opening = ['>'])
      (closing : found.closing = Element.closingTag found.block.kind.tagName)

theorem Stands.exists_covers
    {found : FoundBlock}
    {document : Text}
    (stands : found.Stands document) :
    ∃ before inside after, found.block.span.Covers document before inside after := by
  cases stands with
  | betweenTags covers _ _ _ _ => exact ⟨_, _, _, covers⟩
  | selfClosing covers _ _ _ => exact ⟨_, _, _, covers⟩

end FoundBlock

/-- The opening tag of an element with a content ends with a bracket. -/
theorem Element.exists_openingTag_of_content
    (tag : Text)
    (attributes : Option Text)
    (content : Text) :
    ∃ written, openingTag tag ⟨attributes, some content⟩ = written ++ ['>'] :=
  ⟨'<' :: (tag ++ attributes.getD []), by simp [openingTag]⟩

/-- The text of an element that closes itself ends with a slash and a
bracket. -/
theorem Element.exists_text_of_selfClosing (tag : Text) (attributes : Option Text) :
    ∃ written, Element.text tag ⟨attributes, none⟩ = written ++ ['/', '>'] :=
  ⟨'<' :: (tag ++ attributes.getD []), by simp [Element.text, openingTag]⟩

theorem Element.size_openingTag_pos (tag : Text) (element : Element) :
    0 < Text.size (element.openingTag tag) := by
  rw [openingTag, Text.size_cons]
  exact Nat.add_pos_left (Char.utf8Size_pos '<') _

theorem Element.size_closingTag_pos (tag : Text) : 0 < Text.size (closingTag tag) := by
  rw [closingTag, Text.size_cons]
  exact Nat.add_pos_left (Char.utf8Size_pos '<') _

/-- More than the slash and the bracket belong to a tag that closes itself. -/
theorem Element.two_lt_size_text (tag : Text) (attributes : Option Text) :
    2 < Text.size (Element.text tag ⟨attributes, none⟩) := by
  have first : 0 < Text.size ('<' :: (tag ++ attributes.getD [])) :=
    Nat.add_pos_left (Char.utf8Size_pos '<') _
  have last : Text.size ['/', '>'] = 2 := rfl
  have parts : Element.text tag ⟨attributes, none⟩ =
      '<' :: (tag ++ attributes.getD []) ++ ['/', '>'] := by
    simp [Element.text, openingTag]
  rw [parts, Text.size_append]
  omega

theorem Element.size_text_pos (tag : Text) (element : Element) :
    0 < Text.size (element.text tag) := by
  rw [Element.text, Text.size_append]
  exact Nat.add_pos_left (element.size_openingTag_pos tag) _

section Element

variable {document before after : Text}
variable {filename : Path}
variable {kind : BlockKind}
variable {attributes : Option Text}

theorem ofElement_of_content
    {content : Text}
    {offset opened : Nat}
    (notMarkup : kind ≠ .markup)
    (place : offset +
      Text.size (Element.openingTag kind.tagName ⟨attributes, some content⟩) = opened) :
    FoundBlock.ofElement document filename kind offset ⟨attributes, some content⟩ =
      ⟨⟨kind, content, (attributes.map parseAttributes).getD [], filename,
          ⟨opened, opened + Text.size content⟩, Location.ofOffset document opened⟩,
        [], []⟩ := by
  subst place
  cases kind with
  | markup => exact absurd rfl notMarkup
  | script => rfl
  | style => rfl

theorem ofElement_of_selfClosing
    {offset ended : Nat}
    (notMarkup : kind ≠ .markup)
    (place : offset + Text.size (Element.text kind.tagName ⟨attributes, none⟩) = ended) :
    FoundBlock.ofElement document filename kind offset ⟨attributes, none⟩ =
      ⟨⟨kind, [], (attributes.map parseAttributes).getD [], filename,
          ⟨ended - 2, ended⟩,
          Location.ofOffset document
            (offset + Text.size (Element.openingTag kind.tagName ⟨attributes, none⟩))⟩,
        ['>'], Element.closingTag kind.tagName⟩ := by
  subst place
  cases kind with
  | markup => exact absurd rfl notMarkup
  | script => rfl
  | style => rfl

/-- A block between two tags covers its content. -/
theorem stands_of_content
    {content : Text}
    (notMarkup : kind ≠ .markup)
    (parts : document =
      before ++ Element.text kind.tagName ⟨attributes, some content⟩ ++ after) :
    (FoundBlock.ofElement document filename kind (Text.size before)
      ⟨attributes, some content⟩).Stands document := by
  obtain ⟨written, tag⟩ :=
    Element.exists_openingTag_of_content kind.tagName attributes content
  have opened : Text.size before +
        Text.size (Element.openingTag kind.tagName ⟨attributes, some content⟩) =
      Text.size (before ++ written ++ ['>']) := by
    rw [tag, List.append_assoc, Text.size_append before]
  have whole : document = before ++ written ++ ['>'] ++
      (content ++ (Element.closingTag kind.tagName ++ after)) := by
    rw [parts, Element.text, tag]
    simp
  have covers : Span.Covers
      ⟨Text.size (before ++ written ++ ['>']),
        Text.size (before ++ written ++ ['>'] ++ content)⟩
      document (before ++ written ++ ['>']) content
      (Element.closingTag kind.tagName ++ after) :=
    ⟨by rw [whole, List.append_assoc _ content], rfl, rfl⟩
  rw [ofElement_of_content notMarkup opened, ← Text.size_append]
  refine .betweenTags covers (by simp) ?_ rfl rfl
  rw [whole]
  exact Location.ofOffset_append _ _

/-- A block whose tag closes itself covers the end of that tag. -/
theorem stands_of_selfClosing
    (notMarkup : kind ≠ .markup)
    (parts : document =
      before ++ Element.text kind.tagName ⟨attributes, none⟩ ++ after) :
    (FoundBlock.ofElement document filename kind (Text.size before)
      ⟨attributes, none⟩).Stands document := by
  obtain ⟨written, text⟩ := Element.exists_text_of_selfClosing kind.tagName attributes
  have ended : Text.size before +
        Text.size (Element.text kind.tagName ⟨attributes, none⟩) =
      Text.size (before ++ written ++ ['/', '>']) := by
    rw [text, List.append_assoc, Text.size_append before]
  have slash : Text.size (before ++ written ++ ['/', '>']) - 2 =
      Text.size (before ++ written) := by
    rw [Text.size_append (before ++ written)]
    exact Nat.add_sub_cancel _ 2
  have covers : Span.Covers
      ⟨Text.size (before ++ written), Text.size (before ++ written ++ ['/', '>'])⟩
      document (before ++ written) ['/', '>'] after :=
    ⟨by rw [parts, text]; simp, rfl, rfl⟩
  rw [ofElement_of_selfClosing notMarkup ended, slash]
  exact .selfClosing covers rfl rfl rfl

/-- A block of an element that stands in a document stands there too. -/
theorem stands_ofElement
    {element : Element}
    (notMarkup : kind ≠ .markup)
    (parts : document = before ++ element.text kind.tagName ++ after) :
    (FoundBlock.ofElement document filename kind (Text.size before) element).Stands
      document := by
  obtain ⟨attributes, content⟩ := element
  cases content with
  | some content => exact stands_of_content notMarkup parts
  | none => exact stands_of_selfClosing notMarkup parts

end Element

/-- The scripts and the styles of a document are those of its elements, one by
one. -/
theorem findBlocks_eq_map
    {kind : BlockKind}
    (notMarkup : kind ≠ .markup)
    (document : Text)
    (filename : Path) :
    findBlocks document kind filename =
      (elementsOf kind.tagName document).map fun pair =>
        FoundBlock.ofElement document filename kind pair.1 pair.2 := by
  cases kind with
  | markup => exact absurd rfl notMarkup
  | script => rfl
  | style => rfl

/-- Every script and style block is that of an element. -/
theorem exists_element_of_mem_findBlocks
    {document : Text}
    {filename : Path}
    {kind : BlockKind}
    {found : FoundBlock}
    (notMarkup : kind ≠ .markup)
    (member : found ∈ findBlocks document kind filename) :
    ∃ offset element, (offset, element) ∈ elementsOf kind.tagName document ∧
      found = FoundBlock.ofElement document filename kind offset element := by
  rw [findBlocks_eq_map notMarkup] at member
  obtain ⟨⟨offset, element⟩, inDocument, same⟩ := List.mem_map.mp member
  exact ⟨offset, element, inDocument, same.symm⟩

/-- Every script and style block stands in its document. -/
theorem stands_of_mem_findBlocks
    {document : Text}
    {filename : Path}
    {kind : BlockKind}
    {found : FoundBlock}
    (notMarkup : kind ≠ .markup)
    (member : found ∈ findBlocks document kind filename) :
    found.Stands document := by
  obtain ⟨offset, element, inDocument, rfl⟩ :=
    exists_element_of_mem_findBlocks notMarkup member
  obtain ⟨before, after, parts, rfl⟩ := exists_parts_of_mem_elementsOf inDocument
  exact stands_ofElement notMarkup parts

/-- The blocks of a document know its file. -/
theorem filename_of_mem_findBlocks
    {document : Text}
    {filename : Path}
    {kind : BlockKind}
    {found : FoundBlock}
    (notMarkup : kind ≠ .markup)
    (member : found ∈ findBlocks document kind filename) :
    found.block.filename = filename := by
  obtain ⟨offset, ⟨attributes, content⟩, -, rfl⟩ :=
    exists_element_of_mem_findBlocks notMarkup member
  cases content with
  | some content => rw [ofElement_of_content notMarkup rfl]
  | none => rw [ofElement_of_selfClosing notMarkup rfl]

/-- The blocks of a kind are of that kind. -/
theorem kind_of_mem_findBlocks
    {document : Text}
    {filename : Path}
    {kind : BlockKind}
    {found : FoundBlock}
    (notMarkup : kind ≠ .markup)
    (member : found ∈ findBlocks document kind filename) :
    found.block.kind = kind := by
  obtain ⟨offset, ⟨attributes, content⟩, -, rfl⟩ :=
    exists_element_of_mem_findBlocks notMarkup member
  cases content with
  | some content => rw [ofElement_of_content notMarkup rfl]
  | none => rw [ofElement_of_selfClosing notMarkup rfl]

/-- The markup block covers its whole element and is replaced by its processed
content alone. -/
theorem covers_of_findMarkupBlock?
    {document : Text}
    {filename : Path}
    {found : FoundBlock}
    (first : findMarkupBlock? document filename = some found) :
    found.opening = [] ∧ found.closing = [] ∧
      ∃ before inside after, found.block.span.Covers document before inside after := by
  unfold findMarkupBlock? at first
  obtain ⟨⟨offset, element⟩, head, rfl⟩ := Option.map_eq_some_iff.mp first
  obtain ⟨before, after, parts, rfl⟩ :=
    exists_parts_of_mem_elementsOf (List.mem_of_head? head)
  refine ⟨rfl, rfl, before, element.text BlockKind.markup.tagName, after, parts, rfl, ?_⟩
  rw [Text.size_append]
  rfl

end ComponentPipeline
