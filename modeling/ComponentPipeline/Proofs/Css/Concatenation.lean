import ComponentPipeline.Proofs.Css.Displacement
import ComponentPipeline.Proofs.Css.Lossless

/-!
# Stylesheets one after another

A text whose last node ends by itself is read to its end before the reader looks
at what follows.  From there on the reader does what it does on the text that
follows alone; it only has the nodes of the first text before those of the
second one, and the gap at the end of the first text still to put in front of
the next node.
-/

namespace ComponentPipeline
namespace Css

/-! ## Nodes that end by themselves -/

/-- A node that ends by itself: a comment, a node with a block, or a statement
with the semicolon that ends it.  A semicolon that is escaped or in parentheses
belongs to the text of its statement and ends nothing. -/
def Node.EndsItself : Node → Prop
  | .rule .. => True
  | .atBlock .. => True
  | .atStatement _ _ between _ => between.getLast? = some ';'
  | .declaration _ _ between _ => between.getLast? = some ';'
  | .comment .. => True

theorem not_endsItself_statementNode (before text : Text) (start : Position) :
    ¬(statementNode before text [] start).EndsItself := by
  unfold statementNode
  split <;> rintro ⟨⟩

/-! ## Reading with more text behind -/

namespace ReaderState

/-- A state with more text behind what is left. -/
def extended (state : ReaderState) (more : Text) : ReaderState :=
  { state with rest := state.rest ++ more }

/-- A reader of a text of a certain size has not come further than its end. -/
structure Within (bound : Nat) (state : ReaderState) : Prop where
  /-- What is left goes up to the end. -/
  size : state.offset + Text.size state.rest = bound
  /-- The open blocks start before it. -/
  blocks : ∀ block ∈ state.openBlocks, block.start ≤ bound

variable {state later : ReaderState} {locate locateToo : Nat → Position} {bound : Nat}

theorem Within.offset_le
    (within : state.Within bound)
    {gap further : Text}
    (left : state.rest = gap ++ further) :
    state.offset + Text.size gap ≤ bound := by
  have total := within.size
  rw [left, Text.size_append] at total
  omega

theorem Within.next
    (within : state.Within bound)
    (reads : Reads locate state (.next later)) :
    later.Within bound := by
  have total := within.size
  cases reads with
  | @opened gap head between rest text =>
      have start : state.offset + Text.size gap ≤ bound :=
        within.offset_le (by rw [text, List.append_assoc, List.append_assoc])
      refine ⟨?_, fun block member => ?_⟩
      · rw [text] at total
        simpa [Nat.add_assoc] using total
      · rcases List.mem_cons.mp member with rfl | outer
        · exact start
        · exact within.blocks block outer
  | closed innermost text =>
      refine ⟨?_, fun block member => within.blocks block ?_⟩
      · rw [text] at total
        simpa [Nat.add_assoc] using total
      · rw [innermost]
        exact List.mem_cons_of_mem _ member
  | comment text =>
      refine ⟨?_, within.blocks⟩
      rw [text] at total
      simpa [Nat.add_assoc] using total
  | statement text =>
      refine ⟨?_, within.blocks⟩
      rw [text] at total
      simpa [Nat.add_assoc] using total

/-- Only positions inside the text that is read matter. -/
theorem Reads.relocated
    (reads : Reads locate state (.next later))
    (within : state.Within bound)
    (agrees : ∀ offset ≤ bound, locateToo offset = locate offset) :
    Reads locateToo state (.next later) := by
  cases reads with
  | opened text gapped stated blank noBlank => exact .opened text gapped stated blank noBlank
  | @closed gap rest block outer innermost text gapped =>
      have start : block.start ≤ bound :=
        within.blocks block (by rw [innermost]; exact List.mem_cons_self)
      have same : block.close locateToo state.nodes gap = block.close locate state.nodes gap := by
        rw [OpenBlock.close, OpenBlock.close, agrees block.start start]
      rw [← same]
      exact .closed innermost text gapped
  | @comment gap inside rest text gapped closes =>
      rw [← agrees _ (within.offset_le (by rw [text, List.append_assoc]))]
      exact .comment text gapped closes
  | @statement gap head between rest text notEmpty noBlank gapped ends =>
      rw [← agrees _ (within.offset_le (by rw [text, List.append_assoc, List.append_assoc]))]
      exact .statement text notEmpty noBlank gapped ends

/-- A step reads a statement that the end of the text ends. -/
structure EndsText (state later : ReaderState) (gap head trailing : Text) : Prop where
  /-- The statement and the blanks behind it are all that is left. -/
  text : state.rest = gap ++ head ++ trailing
  /-- A gap is before it. -/
  gapped : IsGap gap
  /-- It is not empty. -/
  notEmpty : head ≠ []
  /-- It does not end with a blank. -/
  noBlank : ∀ char, head.getLast? = some char → Text.isBlank char = false
  /-- Blanks are behind it. -/
  blank : Text.isBlankText trailing = true
  /-- It goes up to the end of the text. -/
  stated : Stated (head ++ trailing) none
  /-- The open blocks stay open. -/
  openBlocks : later.openBlocks = state.openBlocks
  /-- The statement is added. -/
  nodes : ∃ start, later.nodes = state.nodes ++ [statementNode gap head [] start]
  /-- The blanks are left. -/
  rest : later.rest = trailing

/-- A step does the same with more text behind, unless it reads a statement that
the end of the text ends. -/
theorem Reads.extended (reads : Reads locate state (.next later)) :
    (∀ more, Reads locate (state.extended more) (.next (later.extended more))) ∨
      ∃ gap head trailing, EndsText state later gap head trailing := by
  cases reads with
  | @opened gap head between rest text gapped stated blank noBlank =>
      refine .inl fun more => ?_
      have parts : (state.extended more).rest =
          gap ++ head ++ between ++ '{' :: (rest ++ more) := by
        simp [ReaderState.extended, text]
      exact .opened parts gapped stated blank noBlank
  | @closed gap rest block outer innermost text gapped =>
      refine .inl fun more => ?_
      have parts : (state.extended more).rest = gap ++ '}' :: (rest ++ more) := by
        simp [ReaderState.extended, text]
      exact .closed innermost parts gapped
  | @comment gap inside rest text gapped closes =>
      refine .inl fun more => ?_
      have parts : (state.extended more).rest =
          gap ++ ('/' :: '*' :: (inside ++ ['*', '/'])) ++ (rest ++ more) := by
        simp [ReaderState.extended, text]
      exact .comment parts gapped closes
  | @statement gap head between rest text notEmpty noBlank gapped ends =>
      have parts (more : Text) :
          (state.extended more).rest = gap ++ head ++ between ++ (rest ++ more) := by
        simp [ReaderState.extended, text]
      cases ends with
      | terminated between_eq rawNotEmpty stated blank =>
          exact .inl fun more => .statement (parts more) notEmpty noBlank gapped
            (.terminated between_eq rawNotEmpty stated blank)
      | @unterminated trailing tail none rest_eq blank stated last =>
          subst none
          rw [List.append_nil] at text notEmpty
          rcases last with rfl | ⟨others, rfl⟩
          · rw [List.append_nil] at rest_eq
            subst rest_eq
            exact .inr ⟨gap, head, rest, text, gapped, notEmpty, noBlank, blank, stated, rfl,
              ⟨_, rfl⟩, rfl⟩
          · refine .inl fun more => .statement (parts more) (by simpa using notEmpty) noBlank
              gapped ?_
            have rest_more : rest ++ more = trailing ++ '}' :: (others ++ more) := by
              simp [rest_eq]
            exact .unterminated rfl rest_more blank stated (.inr ⟨_, rfl⟩)

/-- If only blanks are left, then a step that succeeds is at the end of the text. -/
theorem step_of_isBlankText
    {outcome : ReaderStep}
    (blank : Text.isBlankText state.rest = true)
    (stepped : state.step locate = .ok outcome) :
    state.stepEnd locate state.rest = .ok outcome := by
  obtain ⟨openBlocks, nodes, offset, rest⟩ := state
  have atEnd : step ⟨openBlocks, nodes, offset, rest⟩ locate =
      step ⟨openBlocks, nodes, offset, rest ++ []⟩ locate := by rw [List.append_nil]
  have gapped := isGap_of_step locate blank (.inl rfl) (atEnd.symm.trans stepped)
  rw [← step_gap locate gapped, stepped]

/-- If only blanks are left, then the nodes that are read are those of the
stylesheet. -/
theorem nodes_of_run_of_isBlankText
    {sheet : Stylesheet}
    (blank : Text.isBlankText state.rest = true)
    (ran : state.run locate = .ok sheet) :
    sheet.nodes = state.nodes := by
  cases stepped : state.step locate with
  | error error =>
      rw [run_eq_of_step_error stepped] at ran
      cases ran
  | ok outcome =>
      have atEnd := step_of_isBlankText blank stepped
      unfold stepEnd at atEnd
      split at atEnd
      · cases atEnd
        rw [run_eq_of_step_finished stepped] at ran
        cases ran
        rfl
      · cases atEnd

/-- A text whose last node ends by itself is read to its end, whatever stands
behind it. -/
theorem exists_run_extended
    {sheet : Stylesheet}
    (ran : state.run locate = .ok sheet)
    (ends : ∀ node ∈ sheet.nodes.getLast?, node.EndsItself)
    (within : state.Within bound)
    (agrees : ∀ offset ≤ bound, locateToo offset = locate offset)
    (more : Text) :
    ∃ offset, offset + Text.size sheet.after = bound ∧
      (state.extended more).run locateToo =
        ReaderState.run ⟨[], sheet.nodes, offset, sheet.after ++ more⟩ locateToo := by
  fun_induction state.run locate with
  | case1 state error stepped => cases ran
  | case2 state last stepped =>
      cases ran
      cases reads_of_step stepped with
      | finished noneOpen gapped =>
          refine ⟨state.offset, within.size, ?_⟩
          rw [ReaderState.extended, noneOpen]
  | case3 state next stepped ih =>
      have reads := reads_of_step stepped
      rcases (reads.relocated within agrees).extended with goesOn | ⟨gap, head, trailing, last⟩
      · rw [run_eq_of_step (step_of_reads (goesOn more))]
        exact ih ran (within.next reads)
      · obtain ⟨start, nodes⟩ := last.nodes
        have blank : Text.isBlankText next.rest = true := by rw [last.rest, last.blank]
        have final : sheet.nodes.getLast? = some (statementNode gap head [] start) := by
          rw [nodes_of_run_of_isBlankText blank ran, nodes, List.getLast?_concat]
        exact absurd (ends _ final) (not_endsItself_statementNode gap head start)

end ReaderState

/-! ## Putting stylesheets together -/

/-- A node with a longer gap before it. -/
def Node.preceded (gap : Text) : Node → Node
  | .rule before selector between nodes after start =>
      .rule (gap ++ before) selector between nodes after start
  | .atBlock before head between nodes after start =>
      .atBlock (gap ++ before) head between nodes after start
  | .atStatement before head between start => .atStatement (gap ++ before) head between start
  | .declaration before text between start => .declaration (gap ++ before) text between start
  | .comment before text start => .comment (gap ++ before) text start

@[simp] theorem Node.preceded_nil (node : Node) : node.preceded [] = node := by
  cases node <;> rfl

theorem preceded_statementNode (gap before text between : Text) (start : Position) :
    (statementNode before text between start).preceded gap =
      statementNode (gap ++ before) text between start := by
  unfold statementNode
  split <;> rfl

namespace Stylesheet

variable (sheet : Stylesheet)

/-- The gap that is still to be put in front of what follows some nodes behind a
stylesheet. -/
def pending (nodes : List Node) : Text :=
  if nodes.isEmpty then sheet.after else []

/-- The nodes of a stylesheet and nodes behind it. -/
def nodesWith : List Node → List Node
  | [] => sheet.nodes
  | node :: rest => sheet.nodes ++ node.preceded sheet.after :: rest

/-- A stylesheet and another one behind it. -/
def followedBy (other : Stylesheet) : Stylesheet where
  nodes := sheet.nodesWith other.nodes
  after := sheet.pending other.nodes ++ other.after

theorem nodesWith_append_singleton (nodes : List Node) (node : Node) :
    sheet.nodesWith (nodes ++ [node]) =
      sheet.nodesWith nodes ++ [node.preceded (sheet.pending nodes)] := by
  cases nodes with
  | nil => rfl
  | cons first rest =>
      have nothing : sheet.pending (first :: rest) = [] := rfl
      rw [nothing, Node.preceded_nil]
      simp [nodesWith]

end Stylesheet

/-! ## Reading behind a stylesheet -/

/-- An open block with a stylesheet in front of what stands before it. -/
def OpenBlock.following (sheet : Stylesheet) (block : OpenBlock) : OpenBlock :=
  { block with
    before := sheet.pending block.siblings ++ block.before
    siblings := sheet.nodesWith block.siblings }

/-- Open blocks with a stylesheet in front of the outermost one. -/
def blocksFollowing (sheet : Stylesheet) : List OpenBlock → List OpenBlock
  | [] => []
  | [block] => [block.following sheet]
  | block :: enclosing :: outer => block :: blocksFollowing sheet (enclosing :: outer)

theorem close_following
    (sheet : Stylesheet)
    (block : OpenBlock)
    (locate : Nat → Position)
    (nodes : List Node)
    (after : Text) :
    (block.following sheet).close locate nodes after =
      (block.close locate nodes after).preceded (sheet.pending block.siblings) := by
  unfold OpenBlock.close
  have same : (block.following sheet).head = block.head := rfl
  rw [same]
  split <;> rfl

namespace ReaderState

/-- A state with a stylesheet in front of what is read. -/
def following (sheet : Stylesheet) (state : ReaderState) : ReaderState :=
  { state with
    openBlocks := blocksFollowing sheet state.openBlocks
    nodes := if state.openBlocks.isEmpty then sheet.nodesWith state.nodes else state.nodes }

/-- The gap at the end of a stylesheet, as long as nothing is read behind it. -/
def pending (sheet : Stylesheet) (state : ReaderState) : Text :=
  if state.openBlocks.isEmpty then sheet.pending state.nodes else []

end ReaderState

/-- A stylesheet in front of what is read. -/
def Translation.following (sheet : Stylesheet) : Translation where
  state := ReaderState.following sheet
  sheet := sheet.followedBy
  error := id

namespace ReaderState

/-- A reader behind a stylesheet does what another reader does: it has the
stylesheet in front of what that one has read, and the gap at the end of the
stylesheet in front of what that one has left. -/
structure Follows (sheet : Stylesheet) (state other : ReaderState) : Prop where
  /-- The stylesheet is in front of the outermost open block. -/
  openBlocks : other.openBlocks = (state.following sheet).openBlocks
  /-- If no block is open, then it is in front of the nodes. -/
  nodes : other.nodes = (state.following sheet).nodes
  /-- The gap is not read yet. -/
  offset : other.offset + Text.size (state.pending sheet) = state.offset
  /-- It is in front of what is left. -/
  rest : other.rest = state.pending sheet ++ state.rest

section Follows

variable {sheet : Stylesheet} {state other : ReaderState} (follows : Follows sheet state other)
variable (locate : Nat → Position) (gap : Text)

include follows

theorem Follows.stepEnd :
    other.stepEnd locate (state.pending sheet ++ gap) =
      (Translation.following sheet).step (state.stepEnd locate gap) := by
  rw [ReaderState.stepEnd, follows.openBlocks, follows.nodes]
  obtain ⟨_ | ⟨block, _ | ⟨enclosing, outer⟩⟩, nodes, offset, rest⟩ := state <;> rfl

theorem Follows.stepClose (offset : Nat) (rest : Text) :
    other.stepClose locate (state.pending sheet ++ gap) offset rest =
      (Translation.following sheet).step (state.stepClose locate gap offset rest) := by
  rw [ReaderState.stepClose, follows.openBlocks, follows.nodes]
  obtain ⟨_ | ⟨block, _ | ⟨enclosing, outer⟩⟩, nodes, start, left⟩ := state
  · rfl
  · have added := sheet.nodesWith_append_singleton block.siblings (block.close locate nodes gap)
    rw [← close_following] at added
    exact congrArg (fun nodes => Except.ok (ReaderStep.next ⟨[], nodes, offset + 1, rest⟩))
      added.symm
  · rfl

theorem Follows.stepComment (offset : Nat) (body : Text) :
    other.stepComment locate (state.pending sheet ++ gap) offset body =
      (Translation.following sheet).step (state.stepComment locate gap offset body) := by
  unfold ReaderState.stepComment
  split
  · rfl
  · rw [follows.openBlocks, follows.nodes]
    obtain ⟨_ | ⟨block, outer⟩, nodes, start, left⟩ := state
    · simp [Translation.step, Translation.following, following, pending, blocksFollowing,
        sheet.nodesWith_append_singleton, Node.preceded]
    · rfl

theorem Follows.stepStatement (offset : Nat) (text : Text) :
    other.stepStatement locate (state.pending sheet ++ gap) offset text =
      (Translation.following sheet).step (state.stepStatement locate gap offset text) := by
  have added (head between : Text) (start : Position) :
      (state.following sheet).nodes ++
          [statementNode (state.pending sheet ++ gap) head between start] =
        if state.openBlocks.isEmpty then
          sheet.nodesWith (state.nodes ++ [statementNode gap head between start])
        else state.nodes ++ [statementNode gap head between start] := by
    obtain ⟨_ | ⟨block, outer⟩, nodes, start, left⟩ := state
    · simp [following, pending, sheet.nodesWith_append_singleton, preceded_statementNode]
    · rfl
  unfold ReaderState.stepStatement
  rw [follows.openBlocks, follows.nodes]
  split
  · rfl
  · simp only
    split
    · obtain ⟨_ | ⟨block, outer⟩, nodes, start, left⟩ := state <;> rfl
    · simp only [added]
      rfl
    · split
      · rfl
      · simp only [added]
        rfl

theorem Follows.step (gapped : IsGap sheet.after) :
    other.step locate = (Translation.following sheet).step (state.step locate) := by
  have pendingGap : ∀ char ∈ state.pending sheet, isGap char = true := by
    intro char member
    unfold pending Stylesheet.pending at member
    split at member
    · split at member
      · exact gapped char member
      · cases member
    · cases member
  have taken : other.rest.takeWhile isGap = state.pending sheet ++ state.rest.takeWhile isGap := by
    rw [follows.rest, List.takeWhile_append_of_pos pendingGap]
  have dropped : other.rest.dropWhile isGap = state.rest.dropWhile isGap := by
    rw [follows.rest, List.dropWhile_append_of_pos pendingGap]
  have offset : other.offset + Text.size (state.pending sheet ++ state.rest.takeWhile isGap) =
      state.offset + Text.size (state.rest.takeWhile isGap) := by
    rw [Text.size_append, ← Nat.add_assoc, follows.offset]
  simp only [ReaderState.step, taken, dropped, offset]
  split
  · exact follows.stepEnd locate _
  · exact follows.stepClose locate _ _ _
  · exact follows.stepComment locate _ _ _
  · exact follows.stepStatement locate _ _ _

end Follows

/-- Once something is read, nothing is pending. -/
theorem pending_of_reads
    {state next : ReaderState}
    {locate : Nat → Position}
    (reads : Reads locate state (.next next))
    (sheet : Stylesheet) :
    next.pending sheet = [] := by
  have added (nodes : List Node) (node : Node) : sheet.pending (nodes ++ [node]) = [] := by
    simp [Stylesheet.pending]
  unfold pending
  cases reads with
  | opened => rfl
  | closed => simp only [added, ite_self]
  | comment => simp only [added, ite_self]
  | statement => simp only [added, ite_self]

/-- Behind a stylesheet a text is read as it is alone. -/
theorem run_following
    {sheet : Stylesheet}
    (gapped : IsGap sheet.after)
    (locate : Nat → Position)
    (offset : Nat)
    (text : Text) :
    ReaderState.run ⟨[], sheet.nodes, offset, sheet.after ++ text⟩ locate =
      (Translation.following sheet).run
        (ReaderState.run ⟨[], [], offset + Text.size sheet.after, text⟩ locate) := by
  refine (Translation.following sheet).run_eq (Follows sheet)
    (fun follows => follows.step locate gapped) ?_ ⟨rfl, rfl, rfl, rfl⟩
  intro state other next follows stepped
  have nothing := pending_of_reads (reads_of_step stepped) sheet
  refine ⟨rfl, rfl, ?_, ?_⟩
  · rw [nothing]
    rfl
  · rw [nothing]
    rfl

end ReaderState

/-! ## Parsing two texts one after the other -/

theorem isGap_after_of_parse
    {text : Text}
    {sheet : Stylesheet}
    (parsed : Stylesheet.parse text = .ok sheet) :
    IsGap sheet.after := by
  refine ReaderState.run_induction (fun _ => True) (fun sheet => IsGap sheet.after)
    (fun _ _ => trivial) ?_ trivial parsed
  intro state last _ reads
  cases reads with
  | finished noneOpen gapped => exact gapped

/-- A text behind one whose last node ends by itself is parsed as it is alone: its
nodes follow those of the first text, or its error is the error, and all its
positions are put in place behind the first text. -/
theorem parse_append
    {first second : Text}
    {sheet : Stylesheet}
    (parsed : Stylesheet.parse first = .ok sheet)
    (ends : ∀ node ∈ sheet.nodes.getLast?, node.EndsItself) :
    Stylesheet.parse (first ++ second) =
      match Stylesheet.parse second with
      | .ok other => .ok (sheet.followedBy (other.moved (Position.behind first)))
      | .error error => .error (error.moved (Position.behind first)) := by
  have within : (ReaderState.initial first).Within (Text.size first) :=
    ⟨Nat.zero_add _, fun _ member => nomatch member⟩
  have agrees : ∀ offset ≤ Text.size first,
      positionOf (first ++ second) offset = positionOf first offset :=
    fun offset inside => positionOf_append_of_le inside second
  obtain ⟨offset, total, ran⟩ := ReaderState.exists_run_extended parsed ends within agrees second
  have displaced := ReaderState.run_moved (positionOf_behind first second)
    (ReaderState.initial second)
  rw [Stylesheet.parse]
  calc
    (ReaderState.initial (first ++ second)).run (positionOf (first ++ second))
      = ReaderState.run ⟨[], sheet.nodes, offset, sheet.after ++ second⟩
          (positionOf (first ++ second)) := ran
    _ = (Translation.following sheet).run
          (ReaderState.run ⟨[], [], Text.size first, second⟩ (positionOf (first ++ second))) := by
      rw [ReaderState.run_following (isGap_after_of_parse parsed), total]
    _ = (Translation.following sheet).run
          ((Translation.displaced (Position.behind first) (Text.size first)).run
            (Stylesheet.parse second)) := by
      rw [Stylesheet.parse, ← displaced]
      simp [ReaderState.moved, ReaderState.initial]
    _ = _ := by cases Stylesheet.parse second <;> rfl

/-- A text that ends with a comment, a line feed and a stray semicolon. -/
def closedSample : Text :=
  "@m \x7b a \x7b\x7d \x7d /* é */\n;"

/-- The tree of the sample. -/
def closedSampleSheet : Stylesheet where
  nodes := [
    .atBlock [] "@m" " " [.rule " " "a" " " [] [] ⟨⟨0, 5⟩, 5⟩] " " ⟨⟨0, 0⟩, 0⟩,
    .comment " " "/* é */" ⟨⟨0, 12⟩, 12⟩]
  after := "\n;"

/-- A text that starts with a gap and has two lines. -/
def gappedSample : Text :=
  "; b: c;\nd e"

/-- The tree of that text. -/
def gappedSampleSheet : Stylesheet where
  nodes := [
    .declaration "; " "b: c" ";" ⟨⟨0, 2⟩, 2⟩,
    .declaration "\n" "d e" [] ⟨⟨1, 0⟩, 8⟩]
  after := []

/-- The nodes of both samples: the positions on the first line of the second one
count from the end of the first one, and its first node has both gaps. -/
def joinedSampleSheet : Stylesheet where
  nodes := closedSampleSheet.nodes ++ [
    .declaration "\n;; " "b: c" ";" ⟨⟨1, 3⟩, 24⟩,
    .declaration "\n" "d e" [] ⟨⟨2, 0⟩, 30⟩]
  after := []

theorem parse_append_gappedSample :
    Stylesheet.parse closedSample = .ok closedSampleSheet ∧
      (∀ node ∈ closedSampleSheet.nodes.getLast?, node.EndsItself) ∧
        Stylesheet.parse (closedSample ++ gappedSample) = .ok joinedSampleSheet := by
  have parsed : Stylesheet.parse closedSample = .ok closedSampleSheet := by
    with_unfolding_all rfl
  have ends : ∀ node ∈ closedSampleSheet.nodes.getLast?, node.EndsItself := by
    rintro _ ⟨⟩
    trivial
  have other : Stylesheet.parse gappedSample = .ok gappedSampleSheet := by
    with_unfolding_all rfl
  have whole : Stylesheet.parse (closedSample ++ gappedSample) = _ := parse_append parsed ends
  refine ⟨parsed, ends, ?_⟩
  have extent : Location.origin.advance closedSample = ⟨1, 1⟩ := by decide
  have size : Text.size closedSample = 22 := by decide
  rw [whole, other]
  simp [Stylesheet.moved, gappedSampleSheet, Node.moved, Position.behind, extent, size,
    Stylesheet.followedBy, Stylesheet.nodesWith, Node.preceded, Stylesheet.pending,
    joinedSampleSheet, closedSampleSheet, Location.offsetBy]

end Css
end ComponentPipeline
