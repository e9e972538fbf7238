import ComponentPipeline.Proofs.Css.LinePositions
import ComponentPipeline.Proofs.Css.Lossless
import ComponentPipeline.Proofs.Css.Nodes

/-!
# Where the nodes of a parsed text stand

The pieces of a parsed stylesheet are marked with the locations at which they
are printed, since the reader takes the start of a node from the offset behind
the text that it has read.  So every node stands in the parsed text behind its
gap where its start says, and every line of a copied text where its number
says.
-/

namespace ComponentPipeline
namespace Css

/-! ## Pieces that are printed where they are marked -/

namespace Piece

/-- Pieces that are printed after a text are marked with where they are
printed. -/
def InPlace (written : Text) : List Piece → Prop
  | [] => True
  | piece :: rest =>
      (∀ location, piece.mark = some location →
        location = Location.origin.advance written) ∧
      InPlace (written ++ piece.text) rest

variable {written : Text}

@[simp] theorem inPlace_nil : InPlace written [] := trivial

@[simp] theorem inPlace_plain_cons {text : Text} {rest : List Piece} :
    InPlace written (plain text :: rest) ↔ InPlace (written ++ text) rest := by
  simp [InPlace, plain]

@[simp] theorem inPlace_marked_cons
    {location : Location}
    {text : Text}
    {rest : List Piece} :
    InPlace written (marked location text :: rest) ↔
      location = Location.origin.advance written ∧ InPlace (written ++ text) rest := by
  simp [InPlace, marked]

@[simp] theorem inPlace_append {first second : List Piece} :
    InPlace written (first ++ second) ↔
      InPlace written first ∧ InPlace (written ++ textOf first) second := by
  induction first generalizing written with
  | nil => simp
  | cons piece rest ih =>
      simp only [List.cons_append, InPlace, ih, textOf_cons, List.append_assoc, and_assoc]

theorem inPlace_furtherLines
    {lines : List Text}
    (noFeed : ∀ line ∈ lines, '\n' ∉ line)
    {number : Nat}
    (next : (Location.origin.advance written).line + 1 = number) :
    InPlace written (furtherLines number lines) := by
  induction lines generalizing written number with
  | nil => trivial
  | cons line rest ih =>
      have start : Location.origin.advance (written ++ ['\n']) = ⟨number, 0⟩ := by
        rw [Location.advance_append, ← next]
        rfl
      have lineNoFeed : '\n' ∉ line := noFeed line List.mem_cons_self
      simp only [furtherLines, inPlace_plain_cons, inPlace_marked_cons]
      refine ⟨start.symm, ih (fun other member => ?_) ?_⟩
      · exact noFeed other (List.mem_cons_of_mem _ member)
      · rw [Location.advance_append, start, Location.advance_of_noFeed lineNoFeed]

/-- A copied text that starts where it is printed is in place line by line. -/
theorem inPlace_copied
    {start : Location}
    (placed : start = Location.origin.advance written)
    (text : Text) :
    InPlace written (copied start text) := by
  subst placed
  have noFeed : ∀ line ∈ Text.lines text, '\n' ∉ line :=
    fun line member => Text.noFeed_of_mem_lines member
  unfold copied
  cases lines : Text.lines text with
  | nil => simp
  | cons first rest =>
      rw [lines] at noFeed
      have firstNoFeed : '\n' ∉ first := noFeed first List.mem_cons_self
      simp only [inPlace_marked_cons, true_and]
      apply inPlace_furtherLines
      · exact fun line member => noFeed line (List.mem_cons_of_mem _ member)
      · rw [Location.advance_append, Location.advance_of_noFeed firstNoFeed]

end Piece

open Piece (InPlace)

@[simp] theorem piecesOf_append (first second : List Node) :
    piecesOf (first ++ second) = piecesOf first ++ piecesOf second := by
  induction first with
  | nil => rfl
  | cons node rest ih => simp [piecesOf, ih]

/-- The pieces before a block. -/
def headPieces (before head between : Text) (start : Location) : List Piece :=
  [.plain before, .marked start head, .plain between, .plain ['{']]

theorem pieces_close
    (block : OpenBlock)
    (locate : Nat → Position)
    (nodes : List Node)
    (after : Text) :
    (block.close locate nodes after).pieces =
      headPieces block.before block.head block.between (locate block.start).location ++
        piecesOf nodes ++ [.plain after, .plain ['}']] := by
  unfold OpenBlock.close
  split <;> simp [Node.pieces, headPieces]

/-- The pieces of a statement without a block are in place if its start is. -/
theorem inPlace_statementNode
    {written before : Text}
    {start : Position}
    (placed : start.location = Location.origin.advance (written ++ before))
    (text between : Text) :
    InPlace written (statementNode before text between start).pieces := by
  unfold statementNode
  split
  · simpa [Node.pieces] using placed
  · simpa [Node.pieces] using Piece.inPlace_copied placed text

/-! ## What the reader has read is in place -/

/-- The pieces before the nodes of the innermost block. -/
def openPieces (locate : Nat → Position) : List OpenBlock → List Piece
  | [] => []
  | block :: outer =>
      openPieces locate outer ++ piecesOf block.siblings ++
        headPieces block.before block.head block.between (locate block.start).location

theorem textOf_openPieces (locate : Nat → Position) (blocks : List OpenBlock) :
    Piece.textOf (openPieces locate blocks) = printOpenBlocks blocks := by
  induction blocks with
  | nil => rfl
  | cons block outer ih =>
      simp [openPieces, printOpenBlocks, headPieces, printNodes, ih]

namespace ReaderState

/-- The pieces that a reader has turned the text into. -/
def readPieces (state : ReaderState) (locate : Nat → Position) : List Piece :=
  openPieces locate state.openBlocks ++ piecesOf state.nodes

theorem textOf_readPieces (state : ReaderState) (locate : Nat → Position) :
    Piece.textOf (state.readPieces locate) = state.readText := by
  simp [readPieces, textOf_openPieces, readText, printNodes]

/-- A reader has read a text up to its offset, and its pieces are in place. -/
structure HasRead (css : Text) (state : ReaderState) : Prop where
  /-- What was read and what is left are the text. -/
  whole : state.wholeText = css
  /-- The offset is the size of what was read. -/
  offset : state.offset = Text.size state.readText
  /-- The pieces are printed where they are marked. -/
  inPlace : InPlace [] (state.readPieces (positionOf css))

variable {css : Text} {state : ReaderState} {gap further : Text}

/-- The position behind a gap is where reading up to there leads. -/
theorem HasRead.locate_behind_gap
    (hasRead : state.HasRead css)
    (left : state.rest = gap ++ further) :
    (positionOf css (state.offset + Text.size gap)).location =
      Location.origin.advance (state.readText ++ gap) := by
  have parts : css = state.readText ++ gap ++ further := by
    rw [← hasRead.whole, wholeText, left, List.append_assoc]
  rw [parts, hasRead.offset, ← Text.size_append, positionOf_append]

theorem HasRead.next
    {next : ReaderState}
    (hasRead : state.HasRead css)
    (reads : Reads (positionOf css) state (.next next)) :
    next.HasRead css := by
  have whole : next.wholeText = css := (accounts_of_reads reads).trans hasRead.whole
  have inPlace := hasRead.inPlace
  have readPieces := state.textOf_readPieces (positionOf css)
  unfold ReaderState.readPieces at inPlace readPieces
  refine ⟨whole, ?_, ?_⟩
  · -- Every step adds the size of what it takes to the offset.
    cases reads with
    | opened text =>
        simp [hasRead.offset, readText, printOpenBlocks, Nat.add_assoc]
    | closed innermost text =>
        simp [hasRead.offset, readText, printOpenBlocks, textOf_pieces_close,
          innermost, Nat.add_assoc]
    | comment text =>
        simp [hasRead.offset, readText, Node.pieces, Nat.add_assoc]
    | statement text notEmpty noBlank =>
        simp [hasRead.offset, readText, textOf_pieces_statementNode, Nat.add_assoc]
  · cases reads with
    | @opened gap head between rest text =>
        rw [List.append_assoc, List.append_assoc] at text
        have placed := hasRead.locate_behind_gap text
        simp only [ReaderState.readPieces, openPieces, piecesOf, List.append_nil]
        rw [Piece.inPlace_append]
        refine ⟨inPlace, ?_⟩
        rw [readPieces]
        simp [headPieces, placed]
    | closed innermost text =>
        rw [innermost] at inPlace
        simpa [ReaderState.readPieces, openPieces, pieces_close, piecesOf, and_assoc]
          using inPlace
    | @comment gap inside rest text =>
        rw [List.append_assoc] at text
        have placed := hasRead.locate_behind_gap text
        simp only [ReaderState.readPieces, piecesOf_append]
        rw [← List.append_assoc, Piece.inPlace_append]
        refine ⟨inPlace, ?_⟩
        rw [readPieces]
        simpa [piecesOf, Node.pieces] using Piece.inPlace_copied placed _
    | @statement gap head between rest text notEmpty noBlank =>
        rw [List.append_assoc, List.append_assoc] at text
        have placed := hasRead.locate_behind_gap text
        simp only [ReaderState.readPieces, piecesOf_append]
        rw [← List.append_assoc, Piece.inPlace_append]
        refine ⟨inPlace, ?_⟩
        rw [readPieces]
        simpa [piecesOf] using inPlace_statementNode placed head between

end ReaderState

/-- The pieces of a parsed stylesheet are printed where they are marked. -/
theorem inPlace_of_parse
    {css : Text}
    {sheet : Stylesheet}
    (parsed : Stylesheet.parse css = .ok sheet) :
    InPlace [] sheet.pieces := by
  have start : (ReaderState.initial css).HasRead css := ⟨rfl, rfl, trivial⟩
  refine ReaderState.run_induction (fun state => state.HasRead css)
    (fun sheet => InPlace [] sheet.pieces) (fun hasRead reads => hasRead.next reads) ?_ start parsed
  intro state sheet hasRead reads
  cases reads with
  | finished noneOpen =>
      have inPlace := hasRead.inPlace
      simp only [ReaderState.readPieces, noneOpen, openPieces, List.nil_append] at inPlace
      simpa [Stylesheet.pieces] using inPlace

/-! ## Nodes in their text -/

mutual

/-- The pieces of a node of a block are among those of the block. -/
theorem exists_pieces_of_mem_inOrder :
    ∀ (node : Node), ∀ inner ∈ node.inOrder,
      ∃ earlier later, node.pieces = earlier ++ inner.pieces ++ later
  | .rule before selector between nodes after start, inner, member => by
      rw [Node.inOrder] at member
      rcases List.mem_cons.mp member with rfl | inside
      · exact ⟨[], [], by simp⟩
      · obtain ⟨earlier, later, parts⟩ := exists_pieces_of_mem_nodesIn nodes inner inside
        refine ⟨headPieces before selector between start.location ++ earlier,
          later ++ [.plain after, .plain ['}']], ?_⟩
        simp [Node.pieces, headPieces, parts]
  | .atBlock before head between nodes after start, inner, member => by
      rw [Node.inOrder] at member
      rcases List.mem_cons.mp member with rfl | inside
      · exact ⟨[], [], by simp⟩
      · obtain ⟨earlier, later, parts⟩ := exists_pieces_of_mem_nodesIn nodes inner inside
        refine ⟨headPieces before head between start.location ++ earlier,
          later ++ [.plain after, .plain ['}']], ?_⟩
        simp [Node.pieces, headPieces, parts]
  | .atStatement before head between start, inner, member => by
      rw [Node.inOrder, List.mem_singleton] at member
      exact ⟨[], [], by simp [member]⟩
  | .declaration before text between start, inner, member => by
      rw [Node.inOrder, List.mem_singleton] at member
      exact ⟨[], [], by simp [member]⟩
  | .comment before text start, inner, member => by
      rw [Node.inOrder, List.mem_singleton] at member
      exact ⟨[], [], by simp [member]⟩

/-- The pieces of a node of a tree are among those of the tree. -/
theorem exists_pieces_of_mem_nodesIn :
    ∀ (nodes : List Node), ∀ inner ∈ nodesIn nodes,
      ∃ earlier later, piecesOf nodes = earlier ++ inner.pieces ++ later
  | [], inner, member => by
      rw [nodesIn_nil] at member
      cases member
  | node :: rest, inner, member => by
      rw [nodesIn_cons] at member
      rcases List.mem_append.mp member with here | there
      · obtain ⟨earlier, later, parts⟩ := exists_pieces_of_mem_inOrder node inner here
        exact ⟨earlier, later ++ piecesOf rest, by simp [piecesOf, parts]⟩
      · obtain ⟨earlier, later, parts⟩ := exists_pieces_of_mem_nodesIn rest inner there
        exact ⟨node.pieces ++ earlier, later, by simp [piecesOf, parts]⟩

end

/-- The pieces of a node are its gap, a piece marked with its start, and
others. -/
theorem exists_pieces_eq_cons (node : Node) :
    ∃ text rest, node.pieces =
      .plain node.before :: .marked node.start.location text :: rest := by
  have copied (start : Location) (text : Text) :
      ∃ first rest, Piece.copied start text = .marked start first :: rest := by
    unfold Piece.copied
    split <;> exact ⟨_, _, rfl⟩
  cases node with
  | rule before selector between nodes after start =>
      exact ⟨selector, _, by rw [Node.pieces]; rfl⟩
  | atBlock before head between nodes after start =>
      exact ⟨head, _, by rw [Node.pieces]; rfl⟩
  | atStatement before head between start =>
      exact ⟨head, _, by rw [Node.pieces]; rfl⟩
  | declaration before text between start =>
      obtain ⟨first, rest, parts⟩ := copied start.location text
      exact ⟨first, rest ++ [.plain between], by rw [Node.pieces, parts]; rfl⟩
  | comment before text start =>
      obtain ⟨first, rest, parts⟩ := copied start.location text
      exact ⟨first, rest, by rw [Node.pieces, parts]; rfl⟩

/-- A node stands in a text: the text has the node, with its gap and its block,
in it, and the node starts there behind its gap. -/
def Node.StandsIn (css : Text) (node : Node) : Prop :=
  ∃ earlier later, css = earlier ++ Piece.textOf node.pieces ++ later ∧
    node.start.location = Location.origin.advance (earlier ++ node.before)

/-- Every node of a parsed stylesheet stands in the parsed text. -/
theorem standsIn_of_parse
    {css : Text}
    {sheet : Stylesheet}
    (parsed : Stylesheet.parse css = .ok sheet)
    {node : Node}
    (member : node ∈ nodesIn sheet.nodes) :
    node.StandsIn css := by
  have inPlace := inPlace_of_parse parsed
  obtain ⟨earlier, later, parts⟩ := exists_pieces_of_mem_nodesIn sheet.nodes node member
  obtain ⟨text, rest, own⟩ := exists_pieces_eq_cons node
  refine ⟨Piece.textOf earlier, Piece.textOf later ++ sheet.after, ?_, ?_⟩
  · have printed := (ReaderState.print_of_run parsed).trans (ReaderState.wholeText_initial css)
    rw [← printed, Stylesheet.print_eq, printNodes, parts]
    simp
  · rw [Stylesheet.pieces, parts, own] at inPlace
    simp only [List.append_assoc, List.cons_append, Piece.inPlace_append,
      Piece.inPlace_plain_cons, Piece.inPlace_marked_cons, List.nil_append] at inPlace
    exact inPlace.2.1

/-! ## What is printed behind the start of a node -/

/-- Behind the start of the last line of a node without a block, something is
printed on that line. -/
def Node.Solid : Node → Prop
  | .atStatement _ head between _ => head ++ between ≠ []
  | .declaration _ text between _ => text ++ between ≠ [] ∧ text.getLast? ≠ some '\n'
  | .comment _ text _ => text ≠ [] ∧ text.getLast? ≠ some '\n'
  | _ => True

@[simp] theorem Node.solid_frame_iff {node : Node} : node.frame.Solid ↔ node.Solid := by
  cases node <;> rfl

theorem solid_close
    (block : OpenBlock)
    (locate : Nat → Position)
    (nodes : List Node)
    (after : Text) :
    (block.close locate nodes after).Solid := by
  unfold OpenBlock.close
  split <;> trivial

theorem solid_statementNode
    {head between : Text}
    (notEmpty : head ++ between ≠ [])
    (noBlank : ∀ char, head.getLast? = some char → Text.isBlank char = false)
    (before : Text)
    (start : Position) :
    (statementNode before head between start).Solid := by
  unfold statementNode
  split
  · exact notEmpty
  · refine ⟨notEmpty, ?_⟩
    intro feed
    cases noBlank '\n' feed

theorem inOrder_statementNode (before head between : Text) (start : Position) :
    (statementNode before head between start).inOrder =
      [statementNode before head between start] := by
  unfold statementNode
  split <;> rw [Node.inOrder]

/-- Closing a block adds a node and the nodes of the block. -/
theorem inOrder_close
    (block : OpenBlock)
    (locate : Nat → Position)
    (nodes : List Node)
    (after : Text) :
    (block.close locate nodes after).inOrder =
      block.close locate nodes after :: nodesIn nodes := by
  unfold OpenBlock.close
  split <;> rw [Node.inOrder]

/-- The nodes that a reader has made are solid. -/
def ReaderState.MadeSolid (state : ReaderState) : Prop :=
  (∀ node ∈ nodesIn state.nodes, node.Solid) ∧
    ∀ block ∈ state.openBlocks, ∀ node ∈ nodesIn block.siblings, node.Solid

theorem ReaderState.MadeSolid.next
    {locate : Nat → Position}
    {state next : ReaderState}
    (made : state.MadeSolid)
    (reads : Reads locate state (.next next)) :
    next.MadeSolid := by
  obtain ⟨nodes, blocks⟩ := made
  cases reads with
  | opened text =>
      refine ⟨by simp, ?_⟩
      intro block member
      rcases List.mem_cons.mp member with rfl | outer
      · exact nodes
      · exact blocks block outer
  | @closed gap rest block outer innermost text =>
      rw [innermost] at blocks
      refine ⟨?_, fun other member => blocks other (List.mem_cons_of_mem _ member)⟩
      have siblings := blocks block List.mem_cons_self
      have closed := solid_close block locate state.nodes gap
      simp only [nodesIn_append, nodesIn_cons, nodesIn_nil, List.append_nil, inOrder_close,
        List.mem_append, List.mem_cons]
      rintro node (sibling | rfl | inside)
      · exact siblings node sibling
      · exact closed
      · exact nodes node inside
  | comment text =>
      refine ⟨?_, blocks⟩
      simp only [nodesIn_append, nodesIn_cons, nodesIn_nil, List.append_nil, Node.inOrder,
        List.mem_append, List.mem_singleton]
      rintro node (earlier | rfl)
      · exact nodes node earlier
      · constructor <;> simp [List.getLast?_cons, List.getLast?_append]
  | @statement gap head between rest text notEmpty noBlank =>
      refine ⟨?_, blocks⟩
      have added := solid_statementNode notEmpty noBlank gap
        (locate (state.offset + Text.size gap))
      simp only [nodesIn_append, nodesIn_cons, nodesIn_nil, List.append_nil,
        inOrder_statementNode, List.mem_append, List.mem_singleton]
      rintro node (earlier | rfl)
      · exact nodes node earlier
      · exact added

/-- The nodes of a parsed stylesheet are solid. -/
theorem solid_of_parse
    {css : Text}
    {sheet : Stylesheet}
    (parsed : Stylesheet.parse css = .ok sheet) :
    ∀ node ∈ nodesIn sheet.nodes, node.Solid := by
  have start : (ReaderState.initial css).MadeSolid := by
    constructor <;> simp [ReaderState.initial]
  refine ReaderState.run_induction ReaderState.MadeSolid
    (fun sheet => ∀ node ∈ nodesIn sheet.nodes, node.Solid)
    (fun made reads => made.next reads) ?_ start parsed
  intro state sheet made reads
  cases reads with
  | finished noneOpen => exact made.1

/-! ## Lines of copied nodes -/

/-- The texts of a node that are mapped: the head of a node with a block or of
an at-rule, or the lines of a copied text. -/
def Node.mappedTexts : Node → List Text
  | .rule _ selector _ _ _ _ => [selector]
  | .atBlock _ head _ _ _ _ => [head]
  | .atStatement _ head _ _ => [head]
  | .declaration _ text _ _ => Text.lines text
  | .comment _ text _ => Text.lines text

/-- Every line of a copied node stands in the text that the node stands in, at
the start of the node or at the start of a later line. -/
theorem Node.StandsIn.goesOn_line
    {css line : Text}
    {node : Node}
    {number : Nat}
    (stands : node.StandsIn css)
    (copied : node.isCopied = true)
    (listed : node.mappedTexts[number]? = some line) :
    ∃ after, css.GoesOn (node.start.location.offsetBy ⟨number, 0⟩) (line ++ after) := by
  obtain ⟨earlier, later, rfl, start⟩ := stands
  rw [start]
  cases node with
  | rule | atBlock | atStatement => cases copied
  | declaration before text between start =>
      obtain ⟨after, goesOn, -⟩ := Text.goesOn_of_mem_lines listed
      refine ⟨after ++ (between ++ later), ?_⟩
      simpa [Node.pieces, Node.before] using
        goesOn.within (earlier ++ before) (between ++ later)
  | comment before text start =>
      obtain ⟨after, goesOn, -⟩ := Text.goesOn_of_mem_lines listed
      refine ⟨after ++ later, ?_⟩
      simpa [Node.pieces, Node.before] using goesOn.within (earlier ++ before) later

end Css
end ComponentPipeline
