import ComponentPipeline.Proofs.Css.Standing
import Mathlib.Data.List.Forall2

/-!
# The source map of a printed stylesheet

A stylesheet that was read from a text and then edited by walks over its rules
is printed with a sound map.  It has one mapping for the head of every node and
one for every further line of a copied text, in the order of the printed text
and each further on than the one before.  A mapping leads from where that text
is printed to where the node, or the line of it, stands in the parsed text.  If
nothing was edited, every mapping leads to the very location that it is at.
-/

namespace ComponentPipeline

namespace Location

/-- One location comes before another one: on an earlier line, or on the same
line at a smaller column. -/
def Before (first second : Location) : Prop :=
  first.line < second.line ∨
    first.line = second.line ∧ first.column < second.column

/-- Reading a text that is not empty leads further on. -/
theorem before_advance
    {text : Text}
    (notEmpty : text ≠ [])
    (location : Location) :
    location.Before (location.advance text) := by
  obtain ⟨char, rest, rfl⟩ := List.exists_cons_of_ne_nil notEmpty
  have positive := Text.charUnits_pos char
  rcases line_lt_or_column_eq location (char :: rest) with further | ⟨sameLine, column⟩
  · exact .inl further
  · rw [Text.units_cons] at column
    exact .inr ⟨sameLine.symm, by omega⟩

end Location

namespace Css

/-! ## The cursor -/

theorem moveCursor_cons (cursor : Location) (char : Char) (rest : Text) :
    moveCursor cursor (char :: rest) = moveCursor (cursor.step char) rest := by
  unfold moveCursor Text.lines
  rw [List.splitOn_cons_eq_if_modifyHead]
  cases split : rest.splitOn '\n' with
  | nil => exact absurd split (List.splitOn_ne_nil '\n' rest)
  | cons first others =>
      by_cases feed : char = '\n'
      · simp [feed, Location.step]
      · simp [feed, Location.step, Nat.add_assoc]

/-- Moving the cursor line by line leads where reading character by character
leads. -/
theorem moveCursor_eq_advance (cursor : Location) (text : Text) :
    moveCursor cursor text = cursor.advance text := by
  induction text generalizing cursor with
  | nil => rfl
  | cons char rest ih => rw [moveCursor_cons, ih, Location.advance_cons]

/-! ## A printer at work -/

/-- A printer that writes pieces one after another. -/
structure Printer where
  /-- What it has written. -/
  output : Text
  /-- Where its cursor stands. -/
  cursor : Location
  /-- The mappings that it has made. -/
  mappings : List Mapping

/-- The printer after one more piece, with a mapping into `source` if the piece
is marked. -/
def Printer.write (source : Nat) (printer : Printer) (piece : Piece) : Printer where
  output := printer.output ++ piece.text
  cursor := moveCursor printer.cursor piece.text
  mappings :=
    match piece.mark with
    | none => printer.mappings
    | some location => printer.mappings ++ [⟨printer.cursor, some ⟨source, location, none⟩⟩]

/-- A printed stylesheet with its source map, written in one go. -/
def Stylesheet.printWithMap
    (sheet : Stylesheet)
    (source content projectRoot : Text) :
    Text × SourceMap :=
  let printer := sheet.pieces.foldl (Printer.write 0) ⟨[], Location.origin, []⟩
  (printer.output,
    (SourceMap.ofSource projectRoot source content).addAll printer.mappings)

theorem Printer.foldl_write (source : Nat) (printer : Printer) (pieces : List Piece) :
    (pieces.foldl (Printer.write source) printer).output =
        printer.output ++ Piece.textOf pieces ∧
      (pieces.foldl (Printer.write source) printer).mappings =
        printer.mappings ++ mappingsFrom source printer.cursor pieces := by
  induction pieces generalizing printer with
  | nil => simp [mappingsFrom]
  | cons piece rest ih =>
      obtain ⟨output, mappings⟩ := ih (printer.write source piece)
      rw [List.foldl_cons, output, mappings, mappingsFrom]
      cases mark : piece.mark <;> simp [Printer.write, mark]

/-- Printing in one go writes the text and makes the mappings of the printed
stylesheet. -/
theorem Stylesheet.printWithMap_eq
    (sheet : Stylesheet)
    (source content projectRoot : Text) :
    sheet.printWithMap source content projectRoot =
      (sheet.print, sheet.sourceMap source content projectRoot) := by
  obtain ⟨output, mappings⟩ :=
    Printer.foldl_write 0 ⟨[], Location.origin, []⟩ sheet.pieces
  rw [printWithMap, output, mappings]
  rfl

/-! ## The mappings of pieces -/

namespace Piece

/-- The marked pieces, each as its mark and its text. -/
def marksOf (pieces : List Piece) : List (Location × Text) :=
  pieces.filterMap fun piece => piece.mark.map fun location => (location, piece.text)

@[simp] theorem marksOf_nil : marksOf [] = [] := rfl

@[simp] theorem marksOf_plain_cons (text : Text) (rest : List Piece) :
    marksOf (plain text :: rest) = marksOf rest := rfl

@[simp] theorem marksOf_marked_cons
    (location : Location)
    (text : Text)
    (rest : List Piece) :
    marksOf (marked location text :: rest) = (location, text) :: marksOf rest := rfl

@[simp] theorem marksOf_append (first second : List Piece) :
    marksOf (first ++ second) = marksOf first ++ marksOf second :=
  List.filterMap_append

theorem marksOf_furtherLines (number : Nat) (lines : List Text) :
    marksOf (furtherLines number lines) =
      lines.mapIdx fun index line => (⟨number + index, 0⟩, line) := by
  induction lines generalizing number with
  | nil => rfl
  | cons line rest ih =>
      simp only [furtherLines, marksOf_plain_cons, marksOf_marked_cons, ih,
        List.mapIdx_cons, Nat.add_zero]
      simp only [Nat.add_assoc, Nat.add_comm 1]

/-- A copied text is marked line by line. -/
theorem marksOf_copied (start : Location) (text : Text) :
    marksOf (copied start text) =
      (Text.lines text).mapIdx fun index line => (start.offsetBy ⟨index, 0⟩, line) := by
  unfold copied
  cases lines : Text.lines text with
  | nil => exact absurd lines (List.splitOn_ne_nil '\n' text)
  | cons first rest =>
      simp only [marksOf_marked_cons, marksOf_furtherLines, List.mapIdx_cons]
      simp [Location.offsetBy, Nat.add_assoc, Nat.add_comm 1]

/-- A mapping leads from where a text is printed to the mark of that text. -/
def PrintedAt (source : Nat) (printed : Text) (mapping : Mapping) (mark : Location × Text) :
    Prop :=
  mapping.place = some ⟨source, mark.1, none⟩ ∧
    ∃ after, printed.GoesOn mapping.generated (mark.2 ++ after)

/-- The mappings of pieces are those of their marks, in order. -/
theorem forall₂_mappingsFrom (source : Nat) (pieces : List Piece) (written after : Text) :
    List.Forall₂ (PrintedAt source (written ++ textOf pieces ++ after))
      (mappingsFrom source (Location.origin.advance written) pieces) (marksOf pieces) := by
  induction pieces generalizing written with
  | nil => exact .nil
  | cons piece rest ih =>
      have later := ih (written ++ piece.text)
      rw [Location.advance_append] at later
      simp only [textOf_cons, mappingsFrom, moveCursor_eq_advance,
        ← List.append_assoc]
      cases mark : piece.mark with
      | none => simpa [marksOf, mark] using later
      | some location =>
          have here : PrintedAt source (written ++ piece.text ++ textOf rest ++ after)
              ⟨Location.origin.advance written, some ⟨source, location, none⟩⟩
              (location, piece.text) :=
            ⟨rfl, textOf rest ++ after, written, by simp, rfl⟩
          simpa [marksOf, mark] using List.Forall₂.cons here later

/-- Pieces in place are mapped to the locations that their mappings are at. -/
theorem InPlace.place_eq
    {source : Nat}
    {pieces : List Piece}
    {written : Text}
    (inPlace : InPlace written pieces)
    {mapping : Mapping}
    (member : mapping ∈ mappingsFrom source (Location.origin.advance written) pieces) :
    mapping.place = some ⟨source, mapping.generated, none⟩ := by
  induction pieces generalizing written with
  | nil => cases member
  | cons piece rest ih =>
      obtain ⟨here, later⟩ := inPlace
      rw [mappingsFrom, moveCursor_eq_advance, ← Location.advance_append] at member
      cases mark : piece.mark with
      | none =>
          rw [mark] at member
          exact ih later member
      | some location =>
          rw [mark] at member
          rcases List.mem_cons.mp member with rfl | inRest
          · rw [here location mark]
          · exact ih later inRest

/-! ## Mappings further and further on -/

/-- The text before the first marked piece. -/
def textToMark : List Piece → Text
  | [] => []
  | piece :: rest => if piece.mark.isSome then [] else piece.text ++ textToMark rest

/-- After every mark there is text before the next mark, and also after the
last one. -/
def Spaced : List Piece → Prop
  | [] => True
  | piece :: rest =>
      (piece.mark.isSome → piece.text ++ textToMark rest ≠ []) ∧ Spaced rest

@[simp] theorem textToMark_nil : textToMark [] = [] := rfl

@[simp] theorem textToMark_plain_cons (text : Text) (rest : List Piece) :
    textToMark (plain text :: rest) = text ++ textToMark rest := rfl

@[simp] theorem spaced_nil : Spaced [] := trivial

@[simp] theorem spaced_plain_cons {text : Text} {rest : List Piece} :
    Spaced (plain text :: rest) ↔ Spaced rest := by
  simp [Spaced, plain]

@[simp] theorem spaced_marked_cons
    {location : Location}
    {text : Text}
    {rest : List Piece} :
    Spaced (marked location text :: rest) ↔
      text ++ textToMark rest ≠ [] ∧ Spaced rest := by
  simp [Spaced, marked]

theorem exists_textToMark_append (first second : List Piece) :
    ∃ more, textToMark (first ++ second) = textToMark first ++ more := by
  induction first with
  | nil => exact ⟨textToMark second, rfl⟩
  | cons piece rest ih =>
      obtain ⟨more, further⟩ := ih
      rw [List.cons_append, textToMark, textToMark]
      split
      · exact ⟨[], rfl⟩
      · exact ⟨more, by rw [further, List.append_assoc]⟩

theorem Spaced.append
    {first second : List Piece}
    (spaced : Spaced first)
    (spacedToo : Spaced second) :
    Spaced (first ++ second) := by
  induction first with
  | nil => exact spacedToo
  | cons piece rest ih =>
      obtain ⟨here, later⟩ := spaced
      obtain ⟨more, further⟩ := exists_textToMark_append rest second
      rw [List.cons_append]
      refine ⟨fun marked => ?_, ih later⟩
      rw [further, ← List.append_assoc]
      exact List.append_ne_nil_of_left_ne_nil (here marked) more

/-- Every mapping is at the first mark or further on. -/
theorem exists_generated_of_mem
    {source : Nat}
    {cursor : Location}
    {pieces : List Piece}
    {mapping : Mapping}
    (member : mapping ∈ mappingsFrom source cursor pieces) :
    ∃ further, mapping.generated = cursor.advance (textToMark pieces ++ further) := by
  induction pieces generalizing cursor with
  | nil => cases member
  | cons piece rest ih =>
      rw [mappingsFrom, moveCursor_eq_advance] at member
      cases mark : piece.mark with
      | none =>
          rw [mark] at member
          obtain ⟨further, generated⟩ := ih member
          refine ⟨further, ?_⟩
          have unmarked : textToMark (piece :: rest) = piece.text ++ textToMark rest := by
            rw [textToMark, mark]
            rfl
          rw [generated, unmarked, ← Location.advance_append, List.append_assoc]
      | some location =>
          rw [mark] at member
          rw [textToMark, mark]
          rcases List.mem_cons.mp member with rfl | inRest
          · exact ⟨[], rfl⟩
          · obtain ⟨further, generated⟩ := ih inRest
            refine ⟨piece.text ++ (textToMark rest ++ further), ?_⟩
            rw [generated, ← Location.advance_append]
            rfl

/-- Text after every mark puts every mapping before the later ones. -/
theorem Spaced.pairwise_mappingsFrom
    {pieces : List Piece}
    (spaced : Spaced pieces)
    (source : Nat)
    (cursor : Location) :
    (mappingsFrom source cursor pieces).Pairwise fun first second =>
      first.generated.Before second.generated := by
  induction pieces generalizing cursor with
  | nil => exact .nil
  | cons piece rest ih =>
      obtain ⟨here, later⟩ := spaced
      have increasing := ih later (moveCursor cursor piece.text)
      rw [mappingsFrom]
      cases mark : piece.mark with
      | none => exact increasing
      | some location =>
          refine List.pairwise_cons.mpr ⟨?_, increasing⟩
          intro mapping member
          obtain ⟨further, generated⟩ := exists_generated_of_mem member
          have notEmpty : piece.text ++ textToMark rest ++ further ≠ [] :=
            List.append_ne_nil_of_left_ne_nil (here (by rw [mark]; rfl)) further
          rw [generated, moveCursor_eq_advance, ← Location.advance_append,
            ← List.append_assoc]
          exact Location.before_advance notEmpty cursor

/-- Lines are spaced if something is printed on the last one. -/
theorem spaced_lines
    {first : Text}
    {others : List Text}
    {rest : List Piece}
    (spaced : Spaced rest)
    (start : Location)
    (number : Nat)
    (notEmpty : Text.ofLines (first :: others) ++ textToMark rest ≠ [])
    (noFeed : (Text.ofLines (first :: others)).getLast? ≠ some '\n') :
    Spaced (marked start first :: (furtherLines number others ++ rest)) := by
  induction others generalizing first start number with
  | nil =>
      rw [Text.ofLines, List.intercalate_singleton] at notEmpty
      simpa [furtherLines] using ⟨by simpa using notEmpty, spaced⟩
  | cons second others ih =>
      rw [Text.ofLines_cons_cons] at noFeed
      have lastNotEmpty : Text.ofLines (second :: others) ≠ [] := by
        intro empty
        simp [empty] at noFeed
      have lastNoFeed : (Text.ofLines (second :: others)).getLast? ≠ some '\n' := by
        rwa [List.getLast?_append_of_ne_nil _ (List.cons_ne_nil _ _),
          List.getLast?_cons_of_ne_nil lastNotEmpty] at noFeed
      have further := ih ⟨number, 0⟩ (number + 1)
        (List.append_ne_nil_of_left_ne_nil lastNotEmpty _) lastNoFeed
      simpa [furtherLines] using further

theorem spaced_copied
    {text : Text}
    {rest : List Piece}
    (spaced : Spaced rest)
    (start : Location)
    (notEmpty : text ++ textToMark rest ≠ [])
    (noFeed : text.getLast? ≠ some '\n') :
    Spaced (copied start text ++ rest) := by
  rw [← Text.ofLines_lines text] at notEmpty noFeed
  unfold copied
  cases lines : Text.lines text with
  | nil => exact absurd lines (List.splitOn_ne_nil '\n' text)
  | cons first others =>
      rw [lines] at notEmpty noFeed
      exact spaced_lines spaced start _ notEmpty noFeed

end Piece

/-! ## The mappings of a tree -/

mutual

/-- The pieces of a tree of solid nodes are spaced. -/
theorem spaced_pieces :
    ∀ (node : Node), (∀ inner ∈ node.inOrder, inner.Solid) → Piece.Spaced node.pieces
  | .rule before selector between nodes after start => by
      intro solid
      rw [Node.inOrder] at solid
      have inside := spaced_piecesOf nodes fun inner member =>
        solid inner (List.mem_cons_of_mem _ member)
      have closing : Piece.Spaced [.plain after, .plain ['}']] := by simp
      simpa [Node.pieces] using inside.append closing
  | .atBlock before head between nodes after start => by
      intro solid
      rw [Node.inOrder] at solid
      have inside := spaced_piecesOf nodes fun inner member =>
        solid inner (List.mem_cons_of_mem _ member)
      have closing : Piece.Spaced [.plain after, .plain ['}']] := by simp
      simpa [Node.pieces] using inside.append closing
  | .atStatement before head between start => by
      intro solid
      have own : head ++ between ≠ [] :=
        solid (.atStatement before head between start) (by simp [Node.inOrder])
      simpa [Node.pieces] using own
  | .declaration before text between start => by
      intro solid
      obtain ⟨notEmpty, noFeed⟩ : text ++ between ≠ [] ∧ text.getLast? ≠ some '\n' :=
        solid (.declaration before text between start) (by simp [Node.inOrder])
      have rest : Piece.Spaced [.plain between] := by simp
      rw [Node.pieces, Piece.spaced_plain_cons]
      exact Piece.spaced_copied rest _ (by simpa using notEmpty) noFeed
  | .comment before text start => by
      intro solid
      obtain ⟨notEmpty, noFeed⟩ : text ≠ [] ∧ text.getLast? ≠ some '\n' :=
        solid (.comment before text start) (by simp [Node.inOrder])
      have copied := Piece.spaced_copied Piece.spaced_nil start.location
        (by simpa using notEmpty) noFeed
      rw [Node.pieces, Piece.spaced_plain_cons]
      simpa using copied

/-- The pieces of trees of solid nodes are spaced. -/
theorem spaced_piecesOf :
    ∀ (nodes : List Node), (∀ inner ∈ nodesIn nodes, inner.Solid) →
      Piece.Spaced (piecesOf nodes)
  | [] => fun _ => by rw [piecesOf]; trivial
  | node :: rest => by
      intro solid
      rw [nodesIn_cons] at solid
      rw [piecesOf]
      exact (spaced_pieces node fun inner member =>
          solid inner (List.mem_append_left _ member)).append
        (spaced_piecesOf rest fun inner member =>
          solid inner (List.mem_append_right _ member))

end

/-- A text of a node that is mapped. -/
structure NodeLine where
  /-- The node. -/
  node : Node
  /-- Number of the text among those of the node. -/
  number : Nat
  /-- The text. -/
  text : Text

namespace NodeLine

/-- Where the text stood in the parsed text: at the start of its node, or at
the start of a later line. -/
def place (line : NodeLine) : Location :=
  line.node.start.location.offsetBy ⟨line.number, 0⟩

end NodeLine

/-- The mapped texts of a node with their numbers. -/
def Node.mappedLines (node : Node) : List NodeLine :=
  node.mappedTexts.mapIdx fun number text => ⟨node, number, text⟩

/-- The mapped texts of a stylesheet, in the order in which they are printed. -/
def Stylesheet.mappedLines (sheet : Stylesheet) : List NodeLine :=
  (nodesIn sheet.nodes).flatMap Node.mappedLines

/-- The marks of the mapped texts of a node. -/
def Node.marks (node : Node) : List (Location × Text) :=
  node.mappedLines.map fun line => (line.place, line.text)

theorem Node.marks_eq (node : Node) :
    node.marks =
      node.mappedTexts.mapIdx fun number text =>
        (node.start.location.offsetBy ⟨number, 0⟩, text) := by
  rw [marks, mappedLines, List.mapIdx_eq_zipIdx_map, List.mapIdx_eq_zipIdx_map,
    List.map_map]
  rfl

mutual

theorem marksOf_pieces : ∀ (node : Node),
    Piece.marksOf node.pieces = node.inOrder.flatMap Node.marks
  | .rule before selector between nodes after start => by
      simp [Node.pieces, Node.inOrder, Node.marks_eq, Node.mappedTexts, Node.start,
        Location.offsetBy, marksOf_piecesOf nodes]
  | .atBlock before head between nodes after start => by
      simp [Node.pieces, Node.inOrder, Node.marks_eq, Node.mappedTexts, Node.start,
        Location.offsetBy, marksOf_piecesOf nodes]
  | .atStatement before head between start => by
      simp [Node.pieces, Node.inOrder, Node.marks_eq, Node.mappedTexts, Node.start,
        Location.offsetBy]
  | .declaration before text between start => by
      simp [Node.pieces, Node.inOrder, Node.marks_eq, Node.mappedTexts, Node.start,
        Piece.marksOf_copied]
  | .comment before text start => by
      simp [Node.pieces, Node.inOrder, Node.marks_eq, Node.mappedTexts, Node.start,
        Piece.marksOf_copied]

/-- The marks of a tree are those of its nodes in order. -/
theorem marksOf_piecesOf : ∀ (nodes : List Node),
    Piece.marksOf (piecesOf nodes) = (nodesIn nodes).flatMap Node.marks
  | [] => by simp [piecesOf]
  | node :: rest => by
      simp [piecesOf, marksOf_pieces node, marksOf_piecesOf rest]

end

/-! ## How many mappings there are -/

/-- Number of line breaks inside the text of a copied node. -/
def Node.lineBreaks : Node → Nat
  | .declaration _ text _ _ => text.count '\n'
  | .comment _ text _ => text.count '\n'
  | _ => 0

/-- Number of line breaks inside the texts of the copied ones among nodes. -/
def lineBreaksIn : List Node → Nat
  | [] => 0
  | node :: rest => node.lineBreaks + lineBreaksIn rest

theorem length_lines (text : Text) : (Text.lines text).length = text.count '\n' + 1 := by
  unfold Text.lines
  induction text with
  | nil => rfl
  | cons char rest ih =>
      rw [List.splitOn_cons_eq_if_modifyHead]
      by_cases feed : char = '\n'
      · simp [feed, ih]
      · simp [feed, ih]

/-- A node has one mapped text, and one more for every line break. -/
theorem Node.length_mappedLines (node : Node) :
    node.mappedLines.length = 1 + node.lineBreaks := by
  rw [mappedLines, List.length_mapIdx]
  cases node <;> simp [mappedTexts, lineBreaks, length_lines, Nat.add_comm]

theorem Stylesheet.length_mappedLines (sheet : Stylesheet) :
    sheet.mappedLines.length =
      (nodesIn sheet.nodes).length + lineBreaksIn (nodesIn sheet.nodes) := by
  rw [mappedLines]
  induction nodesIn sheet.nodes with
  | nil => rfl
  | cons node rest ih =>
      rw [List.flatMap_cons, List.length_append, ih, Node.length_mappedLines, lineBreaksIn,
        List.length_cons]
      omega

/-! ## Edited stylesheets -/

/-- A mapping leads from where a text is printed to where it stood in the parsed
text. -/
def NodeLine.PrintedAt (printed : Text) (mapping : Mapping) (line : NodeLine) : Prop :=
  mapping.place = some ⟨0, line.place, none⟩ ∧
    ∃ after, printed.GoesOn mapping.generated (line.text ++ after)

/-- The mappings of a printed stylesheet that comes from a parsed one lead to
where its nodes stood. -/
structure SoundMap
    (css : Text)
    (sheet edited : Stylesheet)
    (mappings : List Mapping) : Prop where
  /-- Every mapping is further on than the ones before. -/
  increasing :
    mappings.Pairwise fun first second => first.generated.Before second.generated
  /-- The mappings are those of the mapped texts, in order, and each leads from
  where its text is printed to the place of the text. -/
  correspond : List.Forall₂ (NodeLine.PrintedAt edited.print) mappings edited.mappedLines
  /-- There is one for every node and one for every line break in a copied
  text. -/
  count :
    mappings.length =
      (nodesIn edited.nodes).length + lineBreaksIn (nodesIn edited.nodes)
  /-- Every node is a node of the parsed stylesheet, up to its selector and its
  block, and stood in the parsed text where its start says. -/
  stood : ∀ node ∈ nodesIn edited.nodes, ∃ original ∈ nodesIn sheet.nodes,
    original.frame = node.frame ∧ original.start = node.start ∧ original.StandsIn css
  /-- The parsed text has every line of a copied text at its place. -/
  copied : ∀ line ∈ edited.mappedLines, line.node.isCopied = true →
    ∃ after, css.GoesOn line.place (line.text ++ after)
  /-- Without an edit, every mapping leads to the location that it is at. -/
  unedited : edited = sheet → ∀ mapping ∈ mappings,
    mapping.place = some ⟨0, mapping.generated, none⟩

section Walks

variable {css : Text} {sheet edited : Stylesheet}

theorem exists_standing_of_mem
    (parsed : Stylesheet.parse css = .ok sheet)
    (walks : sheet.AfterWalks edited)
    {node : Node}
    (member : node ∈ nodesIn edited.nodes) :
    ∃ original ∈ nodesIn sheet.nodes,
      original.frame = node.frame ∧ original.start = node.start ∧
        original.StandsIn css := by
  obtain ⟨original, listed, sameFrame⟩ := walks.exists_of_mem member
  have sameStart := congrArg Node.start sameFrame
  rw [Node.start_frame, Node.start_frame] at sameStart
  exact ⟨original, listed, sameFrame, sameStart, standsIn_of_parse parsed listed⟩

theorem solid_of_afterWalks
    (parsed : Stylesheet.parse css = .ok sheet)
    (walks : sheet.AfterWalks edited) :
    ∀ node ∈ nodesIn edited.nodes, node.Solid := by
  intro node member
  obtain ⟨original, listed, sameFrame⟩ := walks.exists_of_mem member
  rw [← Node.solid_frame_iff, ← sameFrame, Node.solid_frame_iff]
  exact solid_of_parse parsed original listed

/-- The parsed text has the lines of the copied nodes after any walks. -/
theorem goesOn_of_mem_mappedLines
    (parsed : Stylesheet.parse css = .ok sheet)
    (walks : sheet.AfterWalks edited)
    {line : NodeLine}
    (member : line ∈ edited.mappedLines)
    (copied : line.node.isCopied = true) :
    ∃ after, css.GoesOn line.place (line.text ++ after) := by
  obtain ⟨node, listed, own⟩ := List.mem_flatMap.mp member
  obtain ⟨number, inRange, rfl⟩ := List.mem_mapIdx.mp own
  obtain ⟨original, -, sameFrame, -, stands⟩ := exists_standing_of_mem parsed walks listed
  have same : original = node := Node.eq_of_frame_eq_of_isCopied sameFrame.symm copied
  subst same
  exact stands.goesOn_line copied (List.getElem?_eq_getElem inRange)

/-- The mappings of a stylesheet are those of its mapped texts. -/
theorem forall₂_sourceMap (sheet : Stylesheet) (source content projectRoot : Text) :
    List.Forall₂ (NodeLine.PrintedAt sheet.print)
      (sheet.sourceMap source content projectRoot).mappings sheet.mappedLines := by
  have marks : Piece.marksOf sheet.pieces =
      sheet.mappedLines.map fun line => (line.place, line.text) := by
    rw [Stylesheet.pieces, Piece.marksOf_append, marksOf_piecesOf,
      Stylesheet.mappedLines, List.map_flatMap]
    simp only [Piece.marksOf_plain_cons, Piece.marksOf_nil, List.append_nil]
    rfl
  have printed := Piece.forall₂_mappingsFrom 0 sheet.pieces [] []
  rw [marks, List.forall₂_map_right_iff, List.nil_append, List.append_nil] at printed
  exact printed

/-- The source map of a parsed stylesheet after any walks over its rules is
sound, and a printer that writes it makes it along with the printed text. -/
theorem soundMap_of_afterWalks
    (parsed : Stylesheet.parse css = .ok sheet)
    (walks : sheet.AfterWalks edited)
    (source content projectRoot : Text) :
    edited.printWithMap source content projectRoot =
        (edited.print, edited.sourceMap source content projectRoot) ∧
      SoundMap css sheet edited
        (edited.sourceMap source content projectRoot).mappings := by
  refine ⟨edited.printWithMap_eq source content projectRoot, ?_⟩
  have lines := forall₂_sourceMap edited source content projectRoot
  have spaced : Piece.Spaced edited.pieces :=
    (spaced_piecesOf edited.nodes (solid_of_afterWalks parsed walks)).append (by simp)
  exact {
    increasing := spaced.pairwise_mappingsFrom 0 Location.origin
    correspond := lines
    count := lines.length_eq.trans edited.length_mappedLines
    stood := fun node member => exists_standing_of_mem parsed walks member
    copied := fun line member => goesOn_of_mem_mappedLines parsed walks member
    unedited := by
      rintro rfl mapping member
      exact (inPlace_of_parse parsed).place_eq member }

end Walks

/-- A rule to be removed, a comment of two lines with a character of two units,
and a rule to be renamed with a declaration of two lines. -/
def walkedSample : Text :=
  ".gone\x7b\x7d/* 😀\n*/ b \x7bc:\n d\x7d"

/-- The tree of the sample. -/
def walkedSampleSheet : Stylesheet where
  nodes := [
    .rule [] ".gone" [] [] [] ⟨⟨0, 0⟩, 0⟩,
    .comment [] "/* 😀\n*/" ⟨⟨0, 7⟩, 7⟩,
    .rule " " "b" " " [.declaration [] "c:\n d" [] ⟨⟨1, 6⟩, 21⟩] [] ⟨⟨1, 3⟩, 18⟩]
  after := []

/-- Removes the rule of one selector and renames all others. -/
def renamingVisitor : Visitor Unit Unit := fun rule state =>
  (.ok (if rule.selector = (".gone" : Text) then .drop else .keep "longer"), state)

theorem soundMap_of_afterWalks_walkedSample :
    Stylesheet.parse walkedSample = .ok walkedSampleSheet ∧
      walkedSampleSheet.AfterWalks (walkedSampleSheet.retainRules renamingVisitor ()).1 ∧
      (walkedSampleSheet.retainRules renamingVisitor ()).1.printWithMap "a.css"
          walkedSample [] =
        (("/* 😀\n*/ longer \x7bc:\n d\x7d" : Text),
          (SourceMap.ofSource [] "a.css" walkedSample).addAll [
            ⟨⟨0, 0⟩, some ⟨0, ⟨0, 7⟩, none⟩⟩,
            ⟨⟨1, 0⟩, some ⟨0, ⟨1, 0⟩, none⟩⟩,
            ⟨⟨1, 3⟩, some ⟨0, ⟨1, 3⟩, none⟩⟩,
            ⟨⟨1, 11⟩, some ⟨0, ⟨1, 6⟩, none⟩⟩,
            ⟨⟨2, 0⟩, some ⟨0, ⟨2, 0⟩, none⟩⟩]) ∧
      SoundMap walkedSample walkedSampleSheet
        (walkedSampleSheet.retainRules renamingVisitor ()).1
        ((walkedSampleSheet.retainRules renamingVisitor ()).1.sourceMap "a.css"
          walkedSample []).mappings := by
  have parsed : Stylesheet.parse walkedSample = .ok walkedSampleSheet := by
    with_unfolding_all rfl
  have walks : walkedSampleSheet.AfterWalks
      (walkedSampleSheet.retainRules renamingVisitor ()).1 :=
    .walk renamingVisitor () .none
  have sound := soundMap_of_afterWalks parsed walks "a.css" walkedSample []
  exact ⟨parsed, walks, by decide +kernel, sound.2⟩

end Css
end ComponentPipeline
