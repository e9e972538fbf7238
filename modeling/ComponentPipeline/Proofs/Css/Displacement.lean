import ComponentPipeline.Proofs.Css.LinePositions
import ComponentPipeline.Proofs.Css.Rereading
import ComponentPipeline.Proofs.Text.Place

/-!
# Reading a text that stands further on

The reader looks at characters and never at positions.  So reading a text that
stands behind another one gives the same tree, or fails for the same reason,
with every position put in place behind that other text.

A translation changes states, stylesheets and errors.  If the steps of two
readers come to the same up to a translation, then so do their runs.
-/

namespace ComponentPipeline
namespace Css

/-! ## Translations -/

/-- A change of states, stylesheets and errors. -/
structure Translation where
  /-- What becomes of a state. -/
  state : ReaderState → ReaderState
  /-- What becomes of a stylesheet. -/
  sheet : Stylesheet → Stylesheet
  /-- What becomes of an error. -/
  error : SyntaxError → SyntaxError

namespace Translation

/-- What becomes of what a step comes to. -/
def step (translation : Translation) :
    Except SyntaxError ReaderStep → Except SyntaxError ReaderStep
  | .error error => .error (translation.error error)
  | .ok (.finished sheet) => .ok (.finished (translation.sheet sheet))
  | .ok (.next next) => .ok (.next (translation.state next))

/-- What becomes of what a run comes to. -/
def run (translation : Translation) :
    Except SyntaxError Stylesheet → Except SyntaxError Stylesheet
  | .error error => .error (translation.error error)
  | .ok sheet => .ok (translation.sheet sheet)

/-- Two runs stay related if the steps from related states come to the same, up to
the translation. -/
theorem run_eq
    (translation : Translation)
    {locate locateToo : Nat → Position}
    (related : ReaderState → ReaderState → Prop)
    (commutes : ∀ {state other}, related state other →
      other.step locateToo = translation.step (state.step locate))
    (kept : ∀ {state other next}, related state other →
      state.step locate = .ok (.next next) → related next (translation.state next))
    {state other : ReaderState}
    (start : related state other) :
    other.run locateToo = translation.run (state.run locate) := by
  fun_induction state.run locate generalizing other with
  | case1 state error stepped =>
      have translated := commutes start
      rw [stepped] at translated
      exact ReaderState.run_eq_of_step_error translated
  | case2 state sheet stepped =>
      have translated := commutes start
      rw [stepped] at translated
      exact ReaderState.run_eq_of_step_finished translated
  | case3 state next stepped ih =>
      have translated := commutes start
      rw [stepped] at translated
      exact (ReaderState.run_eq_of_step translated).trans (ih (kept start stepped))

end Translation

/-! ## Trees at other positions -/

mutual

/-- A node with other positions of itself and of the nodes in its block. -/
def Node.moved (move : Position → Position) : Node → Node
  | .rule before selector between nodes after start =>
      .rule before selector between (movedNodes move nodes) after (move start)
  | .atBlock before head between nodes after start =>
      .atBlock before head between (movedNodes move nodes) after (move start)
  | .atStatement before head between start => .atStatement before head between (move start)
  | .declaration before text between start => .declaration before text between (move start)
  | .comment before text start => .comment before text (move start)

/-- Nodes with other positions. -/
def movedNodes (move : Position → Position) : List Node → List Node
  | [] => []
  | node :: rest => node.moved move :: movedNodes move rest

end

/-- A stylesheet with other positions of its nodes. -/
def Stylesheet.moved (move : Position → Position) (sheet : Stylesheet) : Stylesheet :=
  ⟨movedNodes move sheet.nodes, sheet.after⟩

/-- An error at another position. -/
def SyntaxError.moved (move : Position → Position) (error : SyntaxError) : SyntaxError :=
  ⟨error.reason, move error.position⟩

section Moved

variable (move : Position → Position)

@[simp] theorem movedNodes_nil : movedNodes move [] = [] := by
  rw [movedNodes]

@[simp] theorem movedNodes_cons (node : Node) (rest : List Node) :
    movedNodes move (node :: rest) = node.moved move :: movedNodes move rest := by
  rw [movedNodes]

@[simp] theorem movedNodes_append (first second : List Node) :
    movedNodes move (first ++ second) = movedNodes move first ++ movedNodes move second := by
  induction first with
  | nil => simp
  | cons node rest ih => simp [ih]

@[simp] theorem moved_comment (before text : Text) (start : Position) :
    (Node.comment before text start).moved move = .comment before text (move start) := by
  rw [Node.moved]

@[simp] theorem moved_statementNode (before text between : Text) (start : Position) :
    (statementNode before text between start).moved move =
      statementNode before text between (move start) := by
  unfold statementNode
  split <;> rw [Node.moved]

end Moved

/-! ## The reader at another offset -/

/-- An open block at another offset and with other positions. -/
def OpenBlock.moved
    (move : Position → Position)
    (distance : Nat)
    (block : OpenBlock) :
    OpenBlock :=
  { block with
    start := distance + block.start
    siblings := movedNodes move block.siblings }

/-- A state at another offset and with other positions. -/
def ReaderState.moved
    (move : Position → Position)
    (distance : Nat)
    (state : ReaderState) :
    ReaderState where
  openBlocks := state.openBlocks.map (OpenBlock.moved move distance)
  nodes := movedNodes move state.nodes
  offset := distance + state.offset
  rest := state.rest

/-- Other positions, and other offsets for the reader. -/
def Translation.displaced (move : Position → Position) (distance : Nat) : Translation where
  state := ReaderState.moved move distance
  sheet := Stylesheet.moved move
  error := SyntaxError.moved move

/-- A scan does the same further on, and what is left open is further on as well. -/
theorem scanStatement_placed
    (distance : Nat)
    (scan : StatementScan)
    (offset : Nat)
    (text : Text) :
    scanStatement (scan.placed fun start => distance + start) (distance + offset) text =
      (scanStatement scan offset text).mapError fun (reason, start) =>
        (reason, distance + start) := by
  induction text generalizing scan offset with
  | nil =>
      rw [scanStatement, scanStatement, StatementScan.leftOpen?_placed]
      cases scan.leftOpen? <;> rfl
  | cons char rest ih =>
      rw [scanStatement, scanStatement, StatementScan.endsAt_placed, Nat.add_assoc,
        ← StatementScan.placed_step fun start => distance + start, ih]
      split
      · rfl
      · cases scanStatement (scan.step offset char) (offset + char.utf8Size) rest <;> rfl

section Displaced

variable {move : Position → Position} {distance : Nat} {locate locateToo : Nat → Position}
variable (agrees : ∀ offset, locateToo (distance + offset) = move (locate offset))

include agrees

theorem moved_close (block : OpenBlock) (nodes : List Node) (after : Text) :
    (block.moved move distance).close locateToo (movedNodes move nodes) after =
      (block.close locate nodes after).moved move := by
  unfold OpenBlock.close
  have same : (block.moved move distance).head = block.head := rfl
  rw [same]
  split <;> rw [Node.moved] <;> simp only [OpenBlock.moved, agrees]

namespace ReaderState

variable (state : ReaderState) (gap : Text)

theorem stepEnd_moved :
    (state.moved move distance).stepEnd locateToo gap =
      (Translation.displaced move distance).step (state.stepEnd locate gap) := by
  obtain ⟨_ | ⟨block, outer⟩, nodes, offset, rest⟩ := state
  · rfl
  · have position : locateToo (block.moved move distance).start = move (locate block.start) :=
      agrees block.start
    simp [moved, stepEnd, Translation.step, Translation.displaced, SyntaxError.moved, position]

theorem stepClose_moved (offset : Nat) (rest : Text) :
    (state.moved move distance).stepClose locateToo gap (distance + offset) rest =
      (Translation.displaced move distance).step (state.stepClose locate gap offset rest) := by
  obtain ⟨_ | ⟨block, outer⟩, nodes, start, left⟩ := state
  · simp [moved, stepClose, Translation.step, Translation.displaced, SyntaxError.moved, agrees]
  · have closed := moved_close agrees block nodes gap
    have siblings : (block.moved move distance).siblings = movedNodes move block.siblings := rfl
    simp [moved, stepClose, Translation.step, Translation.displaced, closed, siblings,
      Nat.add_assoc]

theorem stepComment_moved (offset : Nat) (body : Text) :
    (state.moved move distance).stepComment locateToo gap (distance + offset) body =
      (Translation.displaced move distance).step (state.stepComment locate gap offset body) := by
  unfold stepComment
  split
  · simp [Translation.step, Translation.displaced, SyntaxError.moved, agrees]
  · simp [Translation.step, Translation.displaced, moved, agrees, Nat.add_assoc]

theorem stepStatement_moved (offset : Nat) (text : Text) :
    (state.moved move distance).stepStatement locateToo gap (distance + offset) text =
      (Translation.displaced move distance).step (state.stepStatement locate gap offset text) := by
  have scanned : scanStatement .initial (distance + offset) text = _ :=
    scanStatement_placed distance .initial offset text
  unfold stepStatement
  rw [scanned]
  cases scanStatement .initial offset text with
  | error unclosed =>
      simp [Except.mapError, Translation.step, Translation.displaced, SyntaxError.moved, agrees]
  | ok parts =>
      obtain ⟨raw, tail⟩ := parts
      simp only [Except.mapError]
      split
      · simp [Translation.step, Translation.displaced, moved, OpenBlock.moved, Nat.add_assoc]
      · simp [Translation.step, Translation.displaced, moved, agrees, Nat.add_assoc]
      · split
        · simp [Translation.step, Translation.displaced, SyntaxError.moved, agrees]
        · simp [Translation.step, Translation.displaced, moved, agrees, Nat.add_assoc]

theorem step_moved :
    (state.moved move distance).step locateToo =
      (Translation.displaced move distance).step (state.step locate) := by
  have offset (gap : Text) : (state.moved move distance).offset + Text.size gap =
      distance + (state.offset + Text.size gap) := Nat.add_assoc _ _ _
  have rest : (state.moved move distance).rest = state.rest := rfl
  simp only [step, rest, offset]
  split
  · exact stepEnd_moved agrees state _
  · exact stepClose_moved agrees state _ _ _
  · exact stepComment_moved agrees state _ _ _
  · exact stepStatement_moved agrees state _ _ _

/-- Reading does the same further on, with positions further on. -/
theorem run_moved :
    (state.moved move distance).run locateToo =
      (Translation.displaced move distance).run (state.run locate) := by
  refine (Translation.displaced move distance).run_eq
    (fun state other => other = state.moved move distance) ?_ (fun _ _ => rfl) rfl
  rintro state _ rfl
  exact step_moved agrees state

end ReaderState
end Displaced

/-! ## Positions behind a text -/

/-- A position in a text that stands behind another one. -/
def Position.behind (first : Text) (position : Position) : Position where
  location := (Location.origin.advance first).offsetBy position.location
  offset := Text.size first + position.offset

theorem positionOf_behind (first second : Text) (offset : Nat) :
    positionOf (first ++ second) (Text.size first + offset) =
      (positionOf second offset).behind first := by
  rw [positionOf_eq, positionOf_eq, Position.behind, Location.ofOffset, Location.ofOffset,
    Text.takeBytes_add_append, Location.advance_append, Location.offsetBy_advance_origin]

theorem positionOf_append_of_le
    {first : Text}
    {offset : Nat}
    (inside : offset ≤ Text.size first)
    (second : Text) :
    positionOf (first ++ second) offset = positionOf first offset := by
  rw [positionOf_eq, positionOf_eq, Location.ofOffset, Location.ofOffset,
    Text.takeBytes_append_of_le inside]

end Css
end ComponentPipeline
