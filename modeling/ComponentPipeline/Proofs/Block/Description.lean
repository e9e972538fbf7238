import ComponentPipeline.Proofs.Block.Placement
import ComponentPipeline.Proofs.Text.Place
import ComponentPipeline.Proofs.Text.Searching

/-!
# What found blocks say about a document

The spans of the scripts and those of the styles of a document follow one another
without touching.  Each block covers either the whole text between an opening tag
and the next closing tag, or the end of a tag that closes itself, and knows where
its content starts.
-/

namespace ComponentPipeline

/-! ## The content of an element -/

namespace Element

variable {tag content : Text}
variable {element : Element}

theorem noClosingTag_of_cutContent?
    {body tail : Text}
    {attributes : Option Text}
    (found : cutContent? tag attributes body = some (element, tail))
    (holds : element.content = some content) :
    ¬closingTag tag <:+: content := by
  simp only [cutContent?, Option.map_eq_some_iff] at found
  obtain ⟨⟨inside, rest⟩, cut, pair⟩ := found
  simp only [Prod.mk.injEq] at pair
  obtain ⟨rfl, rfl⟩ := pair
  cases holds
  exact Text.not_infix_of_cutAt? (List.cons_ne_nil _ _) cut

/-- An element ends with the first closing tag behind its opening tag. -/
theorem noClosingTag_of_cut?
    {text tail : Text}
    (found : cut? tag text = some (element, tail))
    (holds : element.content = some content) :
    ¬closingTag tag <:+: content := by
  simp only [cut?] at found
  split at found
  · cases found
  · cases found
  · split at found
    · exact noClosingTag_of_cutContent? found holds
    · split at found
      · obtain ⟨rest, -, pair⟩ := Option.map_eq_some_iff.mp found
        cases pair
        cases holds
      · split at found
        · split at found
          · simp only [cutAfterAttributes?] at found
            split at found
            · cases found
              cases holds
            · exact noClosingTag_of_cutContent? found holds
          · cases found
        · cases found

theorem noClosingTag_of_mem_elementsOf
    {document : Text}
    {offset : Nat}
    (found : (offset, element) ∈ elementsOf tag document)
    (holds : element.content = some content) :
    ¬closingTag tag <:+: content := by
  obtain ⟨before, here, after, -, cut, -⟩ := exists_cut_of_mem_elementsFrom found
  exact noClosingTag_of_cut? cut holds

end Element

/-! ## The order of elements -/

/-- Elements are found one behind the other. -/
theorem pairwise_elementsFrom (tag : Text) (start : Nat) (text : Text) :
    (elementsFrom tag start text).Pairwise fun first second =>
      first.1 + Text.size (first.2.text tag) ≤ second.1 := by
  fun_induction elementsFrom tag start text with
  | case1 start => exact .nil
  | case2 start char rest inside tail comment ih => exact ih
  | case3 start char rest noComment first tail cut ih =>
      refine List.pairwise_cons.mpr ⟨?_, ih⟩
      rintro ⟨offset, element⟩ later
      obtain ⟨before, after, -, place⟩ := exists_parts_of_mem_elementsFrom later
      simp only
      omega
  | case4 start char rest noComment noElement ih => exact ih

namespace FoundBlock

section Description

variable {document : Text}
variable {filename : Path}
variable {kind : BlockKind}

/-- The span of a block lies within its element, behind the start. -/
theorem span_ofElement
    (notMarkup : kind ≠ .markup)
    (document : Text)
    (filename : Path)
    (offset : Nat)
    (element : Element) :
    offset < (ofElement document filename kind offset element).block.span.start ∧
      (ofElement document filename kind offset element).block.span.stop ≤
        offset + Text.size (element.text kind.tagName) := by
  obtain ⟨attributes, content⟩ := element
  cases content with
  | some content =>
      have opened := Element.size_openingTag_pos kind.tagName ⟨attributes, some content⟩
      rw [ofElement_of_content notMarkup rfl, Element.text, Text.size_append,
        Text.size_append]
      constructor <;> simp only <;> omega
  | none =>
      have longer := Element.two_lt_size_text kind.tagName attributes
      rw [ofElement_of_selfClosing notMarkup rfl]
      constructor <;> simp only <;> omega

/-- The spans of the blocks of a kind follow one another. -/
theorem pairwise_findBlocks
    (notMarkup : kind ≠ .markup)
    (document : Text)
    (filename : Path) :
    (findBlocks document kind filename).Pairwise fun first second =>
      first.block.span.stop < second.block.span.start := by
  rw [findBlocks_eq_map notMarkup, List.pairwise_map]
  refine (pairwise_elementsFrom kind.tagName 0 document).imp fun {first second} apart => ?_
  have within := (span_ofElement notMarkup document filename first.1 first.2).2
  have behind := (span_ofElement notMarkup document filename second.1 second.2).1
  omega

/-- How a script or style block describes the document that it is found in. -/
inductive Describes (found : FoundBlock) (document : Text) : Prop
  /-- It covers its content, the whole text between the bracket of an opening tag and
  the next closing tag, and nothing is written around what comes of it. -/
  | betweenTags {before after : Text}
      (covers : found.block.span.Covers document before found.block.content
        (Element.closingTag found.block.kind.tagName ++ after))
      (tagBefore : before.getLast? = some '>')
      (noClosingTag :
        ¬Element.closingTag found.block.kind.tagName <:+: found.block.content)
      (contentStart : found.block.contentStart = Location.endOf before)
      (opening : found.opening = [])
      (closing : found.closing = [])
  /-- It covers the end of a tag that closes itself, has no content, and opens the
  tag up around what comes of it. -/
  | selfClosing {before after : Text}
      (covers : found.block.span.Covers document before ['/', '>'] after)
      (content : found.block.content = [])
      (contentStart : found.block.contentStart = Location.endOf (before ++ ['/', '>']))
      (opening : found.opening = ['>'])
      (closing : found.closing = Element.closingTag found.block.kind.tagName)

theorem Describes.exists_covers
    {found : FoundBlock}
    (describes : found.Describes document) :
    ∃ before inside after, found.block.span.Covers document before inside after := by
  cases describes with
  | betweenTags covers _ _ _ _ _ => exact ⟨_, _, _, covers⟩
  | selfClosing covers _ _ _ _ => exact ⟨_, _, _, covers⟩

theorem describes_of_content
    {before after content : Text}
    {attributes : Option Text}
    (notMarkup : kind ≠ .markup)
    (parts : document =
      before ++ Element.text kind.tagName ⟨attributes, some content⟩ ++ after)
    (noClosingTag : ¬Element.closingTag kind.tagName <:+: content) :
    (ofElement document filename kind (Text.size before)
      ⟨attributes, some content⟩).Describes document := by
  have block : ofElement document filename kind (Text.size before)
      ⟨attributes, some content⟩ = _ := ofElement_of_content notMarkup rfl
  have stands : (ofElement document filename kind (Text.size before)
      ⟨attributes, some content⟩).Stands document := stands_of_content notMarkup parts
  cases stands with
  | betweenTags covers tagBefore contentStart opening closing =>
      refine .betweenTags covers tagBefore ?_
        (contentStart.trans (Location.advance_origin _)) opening closing
      rw [block]
      exact noClosingTag
  | selfClosing _ _ opening _ =>
      rw [block] at opening
      cases opening

/-- The content of an element that closes itself starts behind the element. -/
theorem contentStart_ofElement_of_selfClosing
    (notMarkup : kind ≠ .markup)
    (offset : Nat)
    (attributes : Option Text) :
    (ofElement document filename kind offset ⟨attributes, none⟩).block.contentStart =
      Location.ofOffset document
        (ofElement document filename kind offset ⟨attributes, none⟩).block.span.stop := by
  have wholeTag : Element.text kind.tagName ⟨attributes, none⟩ =
      Element.openingTag kind.tagName ⟨attributes, none⟩ := List.append_nil _
  rw [ofElement_of_selfClosing notMarkup rfl, wholeTag]

theorem describes_of_selfClosing
    {before after : Text}
    {attributes : Option Text}
    (notMarkup : kind ≠ .markup)
    (parts : document =
      before ++ Element.text kind.tagName ⟨attributes, none⟩ ++ after) :
    (ofElement document filename kind (Text.size before)
      ⟨attributes, none⟩).Describes document := by
  have block : ofElement document filename kind (Text.size before)
      ⟨attributes, none⟩ = _ := ofElement_of_selfClosing notMarkup rfl
  have stands : (ofElement document filename kind (Text.size before)
      ⟨attributes, none⟩).Stands document := stands_of_selfClosing notMarkup parts
  cases stands with
  | betweenTags _ _ _ opening _ =>
      rw [block] at opening
      cases opening
  | @selfClosing written rest covers content opening closing =>
      refine .selfClosing covers content ?_ opening closing
      obtain ⟨whole, -, stop⟩ := covers
      have located : Location.ofOffset document (Text.size (written ++ ['/', '>'])) =
          Location.origin.advance (written ++ ['/', '>']) := by
        rw [whole]
        exact Location.ofOffset_append _ _
      rw [contentStart_ofElement_of_selfClosing notMarkup, stop, located,
        Location.advance_origin]

theorem describes_of_mem_findBlocks
    {found : FoundBlock}
    (notMarkup : kind ≠ .markup)
    (member : found ∈ findBlocks document kind filename) :
    found.Describes document := by
  obtain ⟨offset, ⟨attributes, content⟩, inDocument, rfl⟩ :=
    exists_element_of_mem_findBlocks notMarkup member
  obtain ⟨before, after, parts, rfl⟩ := exists_parts_of_mem_elementsOf inDocument
  cases content with
  | some content =>
      exact describes_of_content notMarkup parts
        (Element.noClosingTag_of_mem_elementsOf inDocument rfl)
  | none => exact describes_of_selfClosing notMarkup parts

/-- The scripts and the styles of a document lie in it one behind the other, and each
of them describes it: it covers its content between an opening tag and the next
closing tag, or the end of a tag that closes itself. -/
theorem findBlocks_describe_document
    (notMarkup : kind ≠ .markup)
    (document : Text)
    (filename : Path) :
    ((findBlocks document kind filename).Pairwise fun first second =>
        first.block.span.stop < second.block.span.start) ∧
      ∀ found ∈ findBlocks document kind filename,
        found.block.kind = kind ∧
          found.block.span.start ≤ found.block.span.stop ∧
          found.block.span.stop ≤ Text.size document ∧
          found.Describes document := by
  refine ⟨pairwise_findBlocks notMarkup document filename, fun found member => ?_⟩
  have describes := describes_of_mem_findBlocks notMarkup member
  obtain ⟨before, inside, after, whole, start, stop⟩ := describes.exists_covers
  refine ⟨kind_of_mem_findBlocks notMarkup member, ?_, ?_, describes⟩
  · rw [start, stop, Text.size_append]
    exact Nat.le_add_right _ _
  · rw [stop, whole, Text.size_append (before ++ inside)]
    exact Nat.le_add_right _ _

end Description

/-! ## A document with both kinds of elements -/

/-- A script with a content behind a comment, and one that closes itself. -/
def mixedSample : Text :=
  "<!-- <script> --><script lang=\"ts\">\"é\"</script>\n<script src=\"a.js\" />"

/-- The scripts of the sample. -/
def mixedScripts : List FoundBlock :=
  [⟨⟨.script, "\"é\"", [("lang", .text "ts")], "/app/App.svelte", ⟨35, 39⟩, ⟨0, 35⟩⟩, [], []⟩,
    ⟨⟨.script, [], [("src", .text "a.js")], "/app/App.svelte", ⟨68, 70⟩, ⟨1, 21⟩⟩,
      ">", "</script>"⟩]

theorem findBlocks_describe_document_mixedSample :
    BlockKind.script ≠ .markup ∧
      findBlocks mixedSample .script "/app/App.svelte" = mixedScripts ∧
      (mixedScripts.Pairwise fun first second =>
        first.block.span.stop < second.block.span.start) ∧
      ∀ found ∈ mixedScripts,
        found.block.kind = .script ∧
          found.block.span.start ≤ found.block.span.stop ∧
          found.block.span.stop ≤ Text.size mixedSample ∧
          found.Describes mixedSample := by
  have blocks : findBlocks mixedSample .script "/app/App.svelte" = mixedScripts := by
    with_unfolding_all rfl
  have notMarkup : BlockKind.script ≠ .markup := by decide
  have described := findBlocks_describe_document notMarkup mixedSample "/app/App.svelte"
  rw [blocks] at described
  exact ⟨notMarkup, blocks, described⟩

end FoundBlock

end ComponentPipeline
