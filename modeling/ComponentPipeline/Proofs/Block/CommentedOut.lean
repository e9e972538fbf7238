import ComponentPipeline.Proofs.Block.Placement
import ComponentPipeline.Proofs.Text.Place
import ComponentPipeline.Proofs.Text.Searching

/-!
# Blocks in comments

A comment is passed over as a whole, whatever stands in it, and what comes behind
it is searched as if nothing stood before it.  So a comment in front of a document,
with or without a text before it, only moves the blocks of the document.
-/

namespace ComponentPipeline

/-! ## Steps of the search -/

section Search

variable {tag text inside tail : Text}
variable {start : Nat}

theorem elementsFrom_of_comment (comment : cutComment? text = some (inside, tail)) :
    elementsFrom tag start text =
      elementsFrom tag (start + Text.size (commentText inside)) tail := by
  cases text with
  | nil => cases comment
  | cons char rest =>
      rw [elementsFrom]
      split
      · rename_i insideToo tailToo commentToo
        rw [comment] at commentToo
        cases commentToo
        rfl
      · rename_i noComment
        rw [comment] at noComment
        cases noComment

theorem elementsFrom_of_element
    {element : Element}
    (noComment : cutComment? text = none)
    (cut : Element.cut? tag text = some (element, tail)) :
    elementsFrom tag start text =
      (start, element) :: elementsFrom tag (start + Text.size (element.text tag)) tail := by
  cases text with
  | nil => cases cut
  | cons char rest =>
      rw [elementsFrom]
      split
      · rename_i comment
        rw [noComment] at comment
        cases comment
      · split
        · rename_i elementToo tailToo cutToo
          rw [cut] at cutToo
          cases cutToo
          rfl
        · rename_i noElement
          rw [cut] at noElement
          cases noElement

theorem elementsFrom_of_neither
    {char : Char}
    (noComment : cutComment? (char :: text) = none)
    (noElement : Element.cut? tag (char :: text) = none) :
    elementsFrom tag start (char :: text) =
      elementsFrom tag (start + char.utf8Size) text := by
  rw [elementsFrom]
  split
  · rename_i comment
    rw [noComment] at comment
    cases comment
  · split
    · rename_i cut
      rw [noElement] at cut
      cases cut
    · rfl

end Search

/-- The offset from which a text is counted only moves the offsets of its
elements. -/
theorem elementsFrom_add (tag : Text) (added start : Nat) (text : Text) :
    elementsFrom tag (added + start) text =
      (elementsFrom tag start text).map fun pair => (added + pair.1, pair.2) := by
  fun_induction elementsFrom tag start text with
  | case1 start => rw [elementsFrom, List.map_nil]
  | case2 start char rest inside tail comment ih =>
      rw [elementsFrom_of_comment comment, Nat.add_assoc, ih]
  | case3 start char rest noComment element tail cut ih =>
      rw [elementsFrom_of_element noComment cut, Nat.add_assoc, ih, List.map_cons]
  | case4 start char rest noComment noElement ih =>
      rw [elementsFrom_of_neither noComment noElement, Nat.add_assoc, ih]

/-! ## Passing over texts and comments -/

/-- No comment and no element starts with another character than `<`. -/
theorem elementsFrom_append_of_noBracket
    {before : Text}
    (noBracket : '<' ∉ before)
    (tag : Text)
    (start : Nat)
    (rest : Text) :
    elementsFrom tag start (before ++ rest) =
      elementsFrom tag (start + Text.size before) rest := by
  induction before generalizing start with
  | nil => rfl
  | cons char before ih =>
      rw [List.mem_cons, not_or] at noBracket
      obtain ⟨notHere, notLater⟩ := noBracket
      have other : char ≠ '<' := Ne.symm notHere
      have noComment : cutComment? (char :: (before ++ rest)) = none := by
        simp [cutComment?, Text.after?, other]
      have noElement : Element.cut? tag (char :: (before ++ rest)) = none := by
        simp [Element.cut?, Text.after?, other]
      rw [List.cons_append, elementsFrom_of_neither noComment noElement, ih notLater,
        Text.size_cons, Nat.add_assoc]

/-- A comment ends with the first `-->` in it; dashes before that do not count. -/
theorem cutAt?_commentEnd
    {inside : Text}
    (unclosed : ¬['-', '-', '>'] <:+: inside)
    (rest : Text) :
    Text.cutAt? ['-', '-', '>'] (inside ++ ['-', '-', '>'] ++ rest) = some (inside, rest) := by
  induction inside with
  | nil => exact Text.cutAt?_pattern_append _ rest
  | cons char inside ih =>
      rw [List.infix_cons_iff, not_or] at unclosed
      rw [List.cons_append, List.cons_append, Text.cutAt?_cons_eq_some_iff]
      refine ⟨?_, ih unclosed.2⟩
      -- The first two signs behind what is inside are dashes, so an end that starts
      -- there lies there as a whole.
      match inside with
      | [] => simp
      | [second] => simp
      | second :: third :: others =>
          have long : ['-', '-', '>'].length ≤ (char :: second :: third :: others).length := by
            simp
          have here := Text.isPrefix_append_iff long (['-', '-', '>'] ++ rest)
          rw [List.append_assoc]
          exact fun leads => unclosed.1 (here.mp leads)

theorem elementsFrom_commentText_append
    {inside : Text}
    (unclosed : ¬['-', '-', '>'] <:+: inside)
    (tag : Text)
    (start : Nat)
    (rest : Text) :
    elementsFrom tag start (commentText inside ++ rest) =
      elementsFrom tag (start + Text.size (commentText inside)) rest := by
  apply elementsFrom_of_comment
  have body : commentText inside ++ rest =
      ['<', '!', '-', '-'] ++ (inside ++ ['-', '-', '>'] ++ rest) := by
    simp [commentText]
  rw [cutComment?, Text.after?_eq_some_iff.mpr body, Option.bind_some]
  exact cutAt?_commentEnd unclosed rest

/-! ## Blocks behind another text -/

/-- A block as it is found behind another text. -/
def FoundBlock.movedBehind (added : Text) (found : FoundBlock) : FoundBlock :=
  { found with
    block :=
      { found.block with
        span :=
          ⟨Text.size added + found.block.span.start, Text.size added + found.block.span.stop⟩
        contentStart := (Location.endOf added).offsetBy found.block.contentStart } }

/-- The block of an element is moved with its element. -/
theorem FoundBlock.ofElement_append
    (added document : Text)
    (filename : Path)
    (kind : BlockKind)
    (offset : Nat)
    (element : Element) :
    ofElement (added ++ document) filename kind (Text.size added + offset) element =
      (ofElement document filename kind offset element).movedBehind added := by
  obtain ⟨attributes, content⟩ := element
  have longer := Element.two_lt_size_text kind.tagName attributes
  have slash : Text.size added + (offset + Text.size (Element.text kind.tagName
      ⟨attributes, none⟩)) - 2 = Text.size added + (offset + Text.size (Element.text
      kind.tagName ⟨attributes, none⟩) - 2) := by
    omega
  cases kind <;> cases content <;>
    simp only [ofElement, movedBehind, Nat.add_assoc, Location.ofOffset_append_add, slash]

/-- If a text in front of a document only moves its elements, then it only moves its
blocks. -/
theorem findBlocks_append_of_elementsOf
    {added document : Text}
    {kind : BlockKind}
    (moved : elementsOf kind.tagName (added ++ document) =
      (elementsOf kind.tagName document).map fun pair => (Text.size added + pair.1, pair.2))
    (filename : Path) :
    findBlocks (added ++ document) kind filename =
      (findBlocks document kind filename).map (FoundBlock.movedBehind added) := by
  have block (pair : Nat × Element) :=
    FoundBlock.ofElement_append added document filename kind pair.1 pair.2
  by_cases isMarkup : kind = .markup
  · subst isMarkup
    simp only [findBlocks, findMarkupBlock?, moved, List.head?_map, Option.map_map,
      Function.comp_def, block, ← Option.toList_map]
  · simp only [findBlocks_eq_map isMarkup, moved, List.map_map, Function.comp_def, block]

/-- A comment in front of a document, behind a text without `<`, only moves the blocks
of the document, whatever stands in the comment. -/
theorem findBlocks_behind_comment
    {before inside : Text}
    (noBracket : '<' ∉ before)
    (unclosed : ¬"-->".toList <:+: inside)
    (document : Text)
    (kind : BlockKind)
    (filename : Path) :
    findBlocks (before ++ "<!--" ++ inside ++ "-->" ++ document) kind filename =
      (findBlocks document kind filename).map
        (FoundBlock.movedBehind (before ++ "<!--" ++ inside ++ "-->")) := by
  have added : before ++ "<!--".toList ++ inside ++ "-->".toList =
      before ++ commentText inside := by
    simp [commentText]
  rw [added]
  apply findBlocks_append_of_elementsOf
  calc elementsOf kind.tagName (before ++ commentText inside ++ document)
      = elementsFrom kind.tagName (Text.size (before ++ commentText inside) + 0) document := by
        rw [elementsOf, List.append_assoc, elementsFrom_append_of_noBracket noBracket,
          elementsFrom_commentText_append unclosed, Text.size_append, Nat.zero_add,
          Nat.add_zero]
    _ = _ := elementsFrom_add _ _ _ _

/-- A comment with an element in it, which ends with a dash more, hides the element
and moves the one behind it. -/
theorem findBlocks_behind_comment_dashedSample :
    '<' ∉ "é\n".toList ∧ ¬"-->".toList <:+: "<style>a {}</style> -".toList ∧
      findBlocks "é\n<!--<style>a {}</style> ---><style>b {}</style>" .style
          "/app/App.svelte" =
        [⟨⟨.style, "b {}", [], "/app/App.svelte", ⟨38, 42⟩, ⟨1, 35⟩⟩, [], []⟩] := by
  have noBracket : '<' ∉ "é\n".toList := by decide
  have unclosed : ¬"-->".toList <:+: "<style>a {}</style> -".toList := by decide +kernel
  refine ⟨noBracket, unclosed, ?_⟩
  have moved := findBlocks_behind_comment noBracket unclosed "<style>b {}</style>" .style
    "/app/App.svelte"
  have alone : findBlocks "<style>b {}</style>" .style "/app/App.svelte" =
      [⟨⟨.style, "b {}", [], "/app/App.svelte", ⟨7, 11⟩, ⟨0, 7⟩⟩, [], []⟩] := by
    with_unfolding_all rfl
  have whole : "é\n<!--<style>a {}</style> ---><style>b {}</style>".toList =
      "é\n".toList ++ "<!--" ++ "<style>a {}</style> -".toList ++ "-->" ++
        "<style>b {}</style>".toList := by
    decide +kernel
  rw [whole, moved, alone]
  decide +kernel

end ComponentPipeline
