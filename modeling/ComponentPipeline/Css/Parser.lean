import ComponentPipeline.Css.LineIndex
import ComponentPipeline.Css.Statement
import ComponentPipeline.Text.Blank

/-!
# Reading stylesheets

The reader keeps a stack of open blocks and takes one node, or the end of a
block, off the text in each step.  A step skips a gap of blanks and semicolons
and then looks at one character.  Every step that goes on leaves a shorter
text, so reading ends.

The positions of nodes come from a function on offsets, so that reading a part
of a text differs from reading the whole in that function alone.
-/

namespace ComponentPipeline
namespace Css

/-- Why and where a text is no stylesheet. -/
structure SyntaxError where
  /-- What is wrong. -/
  reason : Reason
  /-- Where the wrong part starts. -/
  position : Position
  deriving DecidableEq, Repr

/-- The error in words, with line and column counted from one. -/
def SyntaxError.message (error : SyntaxError) : Text :=
  let location := error.position.location
  "CssSyntaxError: " ++ error.reason.message ++ " (" ++
    Text.ofNat (location.line + 1) ++ ":" ++ Text.ofNat (location.column + 1) ++ ")"

/-- The characters of a gap between nodes. -/
def isGap (char : Char) : Bool :=
  Text.isAsciiBlank char || char == ';'

/-- A block whose closing brace has not been read. -/
structure OpenBlock where
  /-- Gap before the statement that opened the block. -/
  before : Text
  /-- The statement without the blanks at its end. -/
  head : Text
  /-- The blanks between the statement and the block. -/
  between : Text
  /-- Offset of the statement. -/
  start : Nat
  /-- The nodes before the statement in the enclosing block. -/
  siblings : List Node
  deriving Repr

/-- The state of a reader. -/
structure ReaderState where
  /-- The open blocks, innermost first. -/
  openBlocks : List OpenBlock
  /-- The nodes read in the innermost block. -/
  nodes : List Node
  /-- Offset of the text that is left. -/
  offset : Nat
  /-- The text that is left. -/
  rest : Text
  deriving Repr

/-- What a step comes to. -/
inductive ReaderStep
  | finished (sheet : Stylesheet)
  | next (state : ReaderState)
  deriving Repr

/-- Whether a statement is an at-rule. -/
def isAtHead : Text → Bool
  | '@' :: _ => true
  | _ => false

/-- The node of a block at its closing brace. -/
def OpenBlock.close
    (block : OpenBlock)
    (locate : Nat → Position)
    (nodes : List Node)
    (after : Text) :
    Node :=
  if isAtHead block.head then
    .atBlock block.before block.head block.between nodes after (locate block.start)
  else
    .rule block.before block.head block.between nodes after (locate block.start)

/-- The node of a statement without a block. -/
def statementNode (before text between : Text) (start : Position) : Node :=
  if isAtHead text then .atStatement before text between start
  else .declaration before text between start

namespace ReaderState

/-- The state before the first step. -/
def initial (text : Text) : ReaderState := ⟨[], [], 0, text⟩

/-- The step at the end of the text, after a gap. -/
def stepEnd
    (state : ReaderState)
    (locate : Nat → Position)
    (gap : Text) :
    Except SyntaxError ReaderStep :=
  match state.openBlocks with
  | [] => .ok (.finished ⟨state.nodes, gap⟩)
  | block :: _ => .error ⟨.unclosedBlock, locate block.start⟩

/-- The step at a closing brace, after a gap; `rest` follows the brace. -/
def stepClose
    (state : ReaderState)
    (locate : Nat → Position)
    (gap : Text)
    (offset : Nat)
    (rest : Text) :
    Except SyntaxError ReaderStep :=
  match state.openBlocks with
  | [] => .error ⟨.unexpectedBrace, locate offset⟩
  | block :: openBlocks =>
      .ok (.next {
        openBlocks
        nodes := block.siblings ++ [block.close locate state.nodes gap]
        offset := offset + 1
        rest })

/-- The step at a comment, after a gap; `body` follows the opening delimiter. -/
def stepComment
    (state : ReaderState)
    (locate : Nat → Position)
    (gap : Text)
    (offset : Nat)
    (body : Text) :
    Except SyntaxError ReaderStep :=
  match Text.cutAt? ['*', '/'] body with
  | none => .error ⟨.unclosedComment, locate offset⟩
  | some (inside, rest) =>
      let text := '/' :: '*' :: (inside ++ ['*', '/'])
      .ok (.next {
        state with
        nodes := state.nodes ++ [.comment gap text (locate offset)]
        offset := offset + Text.size text
        rest })

/-- The step at a statement, after a gap. -/
def stepStatement
    (state : ReaderState)
    (locate : Nat → Position)
    (gap : Text)
    (offset : Nat)
    (text : Text) :
    Except SyntaxError ReaderStep :=
  match scanStatement .initial offset text with
  | .error (reason, start) => .error ⟨reason, locate start⟩
  | .ok (raw, tail) =>
      let head := Text.trimEnd raw
      let trailing := raw.drop head.length
      match tail with
      | '{' :: rest =>
          .ok (.next {
            openBlocks := ⟨gap, head, trailing, offset, state.nodes⟩ :: state.openBlocks
            nodes := []
            offset := offset + Text.size raw + 1
            rest })
      | ';' :: rest =>
          let node := statementNode gap head (trailing ++ [';']) (locate offset)
          .ok (.next {
            state with
            nodes := state.nodes ++ [node]
            offset := offset + Text.size raw + 1
            rest })
      | _ =>
          if head.isEmpty then .error ⟨.blankStatement, locate offset⟩
          else
            .ok (.next {
              state with
              nodes := state.nodes ++ [statementNode gap head [] (locate offset)]
              offset := offset + Text.size head
              rest := trailing ++ tail })

/-- One step. -/
def step
    (state : ReaderState)
    (locate : Nat → Position) :
    Except SyntaxError ReaderStep :=
  let gap := state.rest.takeWhile isGap
  let offset := state.offset + Text.size gap
  match state.rest.dropWhile isGap with
  | [] => state.stepEnd locate gap
  | '}' :: rest => state.stepClose locate gap offset rest
  | '/' :: '*' :: body => state.stepComment locate gap offset body
  | text => state.stepStatement locate gap offset text

/-! ## Every step shortens the text -/

theorem length_trimEnd_le (text : Text) :
    (Text.trimEnd text).length ≤ text.length := by
  induction text with
  | nil => simp [Text.trimEnd]
  | cons char rest ih =>
      simp only [Text.trimEnd]
      split
      · split <;> simp
      · simpa using ih

theorem stepClose_shorter
    {state next : ReaderState}
    {locate : Nat → Position}
    {gap rest : Text}
    {offset : Nat}
    (stepped : state.stepClose locate gap offset rest = .ok (.next next)) :
    next.rest.length = rest.length := by
  simp only [stepClose] at stepped
  split at stepped
  · cases stepped
  · cases stepped
    rfl

theorem stepComment_shorter
    {state next : ReaderState}
    {locate : Nat → Position}
    {gap body : Text}
    {offset : Nat}
    (stepped : state.stepComment locate gap offset body = .ok (.next next)) :
    next.rest.length < body.length + 2 := by
  simp only [stepComment] at stepped
  split at stepped
  · cases stepped
  · rename_i inside rest found
    cases stepped
    have parts := Text.eq_of_cutAt?_eq_some found
    simp [parts]
    omega

theorem stepStatement_shorter
    {state next : ReaderState}
    {locate : Nat → Position}
    {gap text : Text}
    {offset : Nat}
    (stepped : state.stepStatement locate gap offset text = .ok (.next next)) :
    next.rest.length < text.length := by
  simp only [stepStatement] at stepped
  split at stepped
  · cases stepped
  · rename_i raw tail scanned
    have parts := eq_append_of_scanStatement scanned
    subst parts
    split at stepped
    · cases stepped
      simp
      omega
    · cases stepped
      simp
      omega
    · split at stepped
      · cases stepped
      · rename_i kept
        cases stepped
        have bound := length_trimEnd_le raw
        have positive : 0 < (Text.trimEnd raw).length := by
          cases trimmed : Text.trimEnd raw with
          | nil => simp [trimmed] at kept
          | cons char rest => simp
        simp
        omega

theorem step_shorter
    {state next : ReaderState}
    {locate : Nat → Position}
    (stepped : state.step locate = .ok (.next next)) :
    next.rest.length < state.rest.length := by
  have bound : (state.rest.dropWhile isGap).length ≤ state.rest.length :=
    (List.dropWhile_suffix isGap).length_le
  simp only [step] at stepped
  split at stepped
  · simp only [stepEnd] at stepped
    split at stepped <;> cases stepped
  · rename_i rest left
    have shorter := stepClose_shorter stepped
    simp only [left, List.length_cons] at bound
    omega
  · rename_i body left
    have shorter := stepComment_shorter stepped
    simp only [left, List.length_cons] at bound
    omega
  · have shorter := stepStatement_shorter stepped
    omega

/-- All steps from a state on. -/
def run (state : ReaderState) (locate : Nat → Position) :
    Except SyntaxError Stylesheet :=
  match _stepped : state.step locate with
  | .error error => .error error
  | .ok (.finished sheet) => .ok sheet
  | .ok (.next next) => next.run locate
termination_by state.rest.length
decreasing_by exact step_shorter _stepped

end ReaderState

/-- The stylesheet that a text writes. -/
def Stylesheet.parse (text : Text) : Except SyntaxError Stylesheet :=
  (ReaderState.initial text).run (positionOf text)

end Css
end ComponentPipeline
