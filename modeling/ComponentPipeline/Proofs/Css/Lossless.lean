import ComponentPipeline.Css.Printer
import ComponentPipeline.Proofs.Css.ReaderSteps
import ComponentPipeline.Proofs.Text.Lines

/-!
# Reading loses nothing

Printing a stylesheet gives the text back that it was read from.  The reader
keeps an invariant: what its open blocks and nodes print, followed by the text
that is left, is the whole text.  Each step moves text from the second part to
the first one and loses none of it.
-/

namespace ComponentPipeline

namespace Css

/-! ## The text of nodes -/

namespace Piece

@[simp] theorem textOf_nil : textOf [] = [] := rfl

@[simp] theorem textOf_cons (piece : Piece) (rest : List Piece) :
    textOf (piece :: rest) = piece.text ++ textOf rest := by
  simp [textOf]

@[simp] theorem textOf_append (first second : List Piece) :
    textOf (first ++ second) = textOf first ++ textOf second := by
  simp [textOf]

@[simp] theorem text_plain (text : Text) : (plain text).text = text := rfl

@[simp] theorem text_marked (location : Location) (text : Text) :
    (marked location text).text = text := rfl

theorem textOf_furtherLines (line : Nat) (lines : List Text) :
    textOf (furtherLines line lines) = lines.flatMap fun text => '\n' :: text := by
  induction lines generalizing line with
  | nil => rfl
  | cons text rest ih => simp [furtherLines, ih]

theorem ofLines_cons (first : Text) (rest : List Text) :
    Text.ofLines (first :: rest) =
      first ++ rest.flatMap fun text => '\n' :: text := by
  induction rest generalizing first with
  | nil => simp [Text.ofLines]
  | cons second rest ih =>
      rw [Text.ofLines_cons_cons, ih second]
      rfl

/-- A copied text is printed as it is, whatever its lines. -/
@[simp] theorem textOf_copied (start : Location) (text : Text) :
    textOf (copied start text) = text := by
  have joined := Text.ofLines_lines text
  unfold copied
  cases split : Text.lines text with
  | nil => exact absurd split (List.splitOn_ne_nil '\n' text)
  | cons first rest =>
      rw [split, ofLines_cons] at joined
      simpa [textOf_furtherLines] using joined

end Piece

/-- What nodes print, one after another. -/
def printNodes (nodes : List Node) : Text :=
  Piece.textOf (piecesOf nodes)

@[simp] theorem printNodes_nil : printNodes [] = [] := rfl

@[simp] theorem printNodes_cons (node : Node) (rest : List Node) :
    printNodes (node :: rest) = Piece.textOf node.pieces ++ printNodes rest := by
  simp [printNodes, piecesOf]

@[simp] theorem printNodes_append (first second : List Node) :
    printNodes (first ++ second) = printNodes first ++ printNodes second := by
  induction first with
  | nil => rfl
  | cons node rest ih => simp [ih]

theorem Stylesheet.print_eq (sheet : Stylesheet) :
    sheet.print = printNodes sheet.nodes ++ sheet.after := by
  simp [Stylesheet.print, Stylesheet.pieces, printNodes]

/-- A closed block prints its head, its nodes and the text before its end,
whether it is a rule or an at-rule. -/
theorem textOf_pieces_close
    (block : OpenBlock)
    (locate : Nat → Position)
    (nodes : List Node)
    (after : Text) :
    Piece.textOf (block.close locate nodes after).pieces =
      block.before ++ block.head ++ block.between ++ ['{'] ++
        printNodes nodes ++ after ++ ['}'] := by
  unfold OpenBlock.close
  split <;> simp [Node.pieces, printNodes]

/-- A statement without a block prints its parts, whichever kind it is. -/
theorem textOf_pieces_statementNode
    (before text between : Text)
    (start : Position) :
    Piece.textOf (statementNode before text between start).pieces =
      before ++ text ++ between := by
  unfold statementNode
  split <;> simp [Node.pieces]

/-! ## What a reader has read -/

/-- What open blocks print before the nodes of the innermost one. -/
def printOpenBlocks : List OpenBlock → Text
  | [] => []
  | block :: outer =>
      printOpenBlocks outer ++ printNodes block.siblings ++ block.before ++
        block.head ++ block.between ++ ['{']

namespace ReaderState

/-- The text that a reader has turned into blocks and nodes. -/
def readText (state : ReaderState) : Text :=
  printOpenBlocks state.openBlocks ++ printNodes state.nodes

/-- The whole text that a reader reads, as far as its state tells. -/
def wholeText (state : ReaderState) : Text :=
  state.readText ++ state.rest

/-- What a step comes to accounts for a text. -/
def Accounts (whole : Text) : ReaderStep → Prop
  | .finished sheet => sheet.print = whole
  | .next next => next.wholeText = whole

/-- A step loses nothing of the text. -/
theorem accounts_of_reads
    {state : ReaderState}
    {locate : Nat → Position}
    {outcome : ReaderStep}
    (reads : Reads locate state outcome) :
    Accounts state.wholeText outcome := by
  cases reads with
  | finished noneOpen =>
      simp [Accounts, Stylesheet.print_eq, wholeText, readText, noneOpen,
        printOpenBlocks]
  | opened text =>
      simp [Accounts, wholeText, readText, printOpenBlocks, text]
  | closed innermost text =>
      simp [Accounts, wholeText, readText, printOpenBlocks, textOf_pieces_close,
        innermost, text]
  | comment text =>
      simp [Accounts, wholeText, readText, Node.pieces, text]
  | statement text notEmpty noBlank =>
      simp [Accounts, wholeText, readText, textOf_pieces_statementNode, text]

/-- All steps together lose nothing of the text. -/
theorem print_of_run
    {state : ReaderState}
    {locate : Nat → Position}
    {sheet : Stylesheet}
    (finished : state.run locate = .ok sheet) :
    sheet.print = state.wholeText := by
  refine run_induction (fun now => now.wholeText = state.wholeText)
    (fun sheet => sheet.print = state.wholeText) ?_ ?_ rfl finished
  · intro now later kept reads
    exact (accounts_of_reads reads).trans kept
  · intro now last kept reads
    exact (accounts_of_reads reads).trans kept

@[simp] theorem wholeText_initial (text : Text) : (initial text).wholeText = text := by
  simp [wholeText, readText, initial, printOpenBlocks]

end ReaderState

/-! ## Stylesheets -/

/-- The tree of a text prints the text back. -/
theorem print_of_parse
    {text : Text}
    {sheet : Stylesheet}
    (parsed : Stylesheet.parse text = .ok sheet) :
    sheet.print = text := by
  rw [ReaderState.print_of_run parsed, ReaderState.wholeText_initial]

/-- A text with nested blocks, an escaped brace, a brace in a string, stray
semicolons, a comment and a letter beyond ASCII. -/
def nestedSample : Text :=
  "@m x \x7b a\\\x7b ,é \x7b b: \"\x7d\" ;; \x7d \x7d ; /* c */\n"

/-- The tree of the sample. -/
def nestedSampleSheet : Stylesheet where
  nodes := [
    .atBlock [] "@m x" " "
      [.rule " " "a\\\x7b ,é" " "
        [.declaration " " "b: \"\x7d\"" " ;" ⟨⟨0, 16⟩, 17⟩]
        "; " ⟨⟨0, 7⟩, 7⟩]
      " " ⟨⟨0, 0⟩, 0⟩,
    .comment " ; " "/* c */" ⟨⟨0, 32⟩, 33⟩]
  after := "\n"

theorem print_of_parse_nestedSample :
    Stylesheet.parse nestedSample = .ok nestedSampleSheet ∧
      nestedSampleSheet.print = nestedSample := by
  have parsed : Stylesheet.parse nestedSample = .ok nestedSampleSheet := by
    with_unfolding_all rfl
  exact ⟨parsed, print_of_parse parsed⟩

end Css
end ComponentPipeline
