import ComponentPipeline.Proofs.Css.Legible
import ComponentPipeline.Proofs.Css.Lossless

/-!
# Reading back what is printed

The text that legible nodes print is read as these nodes again, only at other
positions.  What stands before them and behind them does not matter: the reader
adds the nodes to those that it has read and goes on with what follows.
-/

namespace ComponentPipeline
namespace Css

/-! ## Trees without positions -/

mutual

/-- A node without its position and those of the nodes in its block. -/
def Node.unplaced : Node → Node
  | .rule before selector between nodes after _ =>
      .rule before selector between (unplacedNodes nodes) after default
  | .atBlock before head between nodes after _ =>
      .atBlock before head between (unplacedNodes nodes) after default
  | .atStatement before head between _ => .atStatement before head between default
  | .declaration before text between _ => .declaration before text between default
  | .comment before text _ => .comment before text default

/-- Nodes without their positions. -/
def unplacedNodes : List Node → List Node
  | [] => []
  | node :: rest => node.unplaced :: unplacedNodes rest

end

/-- A stylesheet without the positions of its nodes. -/
def Stylesheet.unplaced (sheet : Stylesheet) : Stylesheet :=
  ⟨unplacedNodes sheet.nodes, sheet.after⟩

@[simp] theorem unplacedNodes_nil : unplacedNodes [] = [] := by
  rw [unplacedNodes]

@[simp] theorem unplacedNodes_cons (node : Node) (rest : List Node) :
    unplacedNodes (node :: rest) = node.unplaced :: unplacedNodes rest := by
  rw [unplacedNodes]

@[simp] theorem unplacedNodes_append (first second : List Node) :
    unplacedNodes (first ++ second) = unplacedNodes first ++ unplacedNodes second := by
  induction first with
  | nil => simp
  | cons node rest ih => simp [ih]

/-! ## Statements without a block -/

theorem statementNode_of_isAtHead
    {text : Text}
    (isAt : isAtHead text = true)
    (before between : Text)
    (start : Position) :
    statementNode before text between start = .atStatement before text between start :=
  if_pos isAt

theorem statementNode_of_not_isAtHead
    {text : Text}
    (notAt : isAtHead text = false)
    (before between : Text)
    (start : Position) :
    statementNode before text between start = .declaration before text between start :=
  if_neg (Bool.eq_false_iff.mp notAt)

section Steps

variable (openBlocks : List OpenBlock) (siblings : List Node) (offset : Nat)
variable (locate : Nat → Position)

theorem Terminated.exists_step
    {before text between : Text}
    (terminated : Terminated before text between)
    (rest : Text) :
    ∃ start further,
      ReaderState.step ⟨openBlocks, siblings, offset, before ++ text ++ between ++ rest⟩ locate =
        .ok (.next ⟨openBlocks, siblings ++ [statementNode before text between start],
          further, rest⟩) := by
  obtain ⟨gapped, noBlank, trailing, rfl, blank, notEmpty, stated⟩ := terminated
  have parts : before ++ text ++ (trailing ++ [';']) ++ rest =
      before ++ (text ++ trailing ++ ';' :: rest) := by simp
  rw [parts]
  exact ReaderState.step_terminated openBlocks siblings offset locate gapped notEmpty noBlank
    blank stated rest

theorem Unterminated.exists_step
    {before text between after tail : Text}
    (unterminated : Unterminated before text between after tail.head?)
    (last : tail = [] ∨ ∃ later, tail = '}' :: later) :
    ∃ start further,
      ReaderState.step
          ⟨openBlocks, siblings, offset, before ++ text ++ between ++ (after ++ tail)⟩ locate =
        .ok (.next ⟨openBlocks, siblings ++ [statementNode before text between start],
          further, after ++ tail⟩) := by
  obtain ⟨gapped, rfl, notEmpty, noBlank, blank, stated⟩ := unterminated
  have parts : before ++ text ++ [] ++ (after ++ tail) =
      before ++ (text ++ after ++ tail) := by simp
  rw [parts]
  exact ReaderState.step_unterminated openBlocks siblings offset locate gapped notEmpty noBlank
    blank stated last

/-- A node that ends by itself is read back, whatever follows it. -/
theorem Node.Terminated.exists_step
    {node : Node}
    (terminated : node.Terminated)
    (rest : Text) :
    ∃ again further, again.unplaced = node.unplaced ∧
      ReaderState.step ⟨openBlocks, siblings, offset, Piece.textOf node.pieces ++ rest⟩ locate =
        .ok (.next ⟨openBlocks, siblings ++ [again], further, rest⟩) := by
  cases node with
  | rule => exact terminated.elim
  | atBlock => exact terminated.elim
  | atStatement before head between start =>
      obtain ⟨isAt, terminated⟩ := terminated
      obtain ⟨position, further, stepped⟩ :=
        terminated.exists_step openBlocks siblings offset locate rest
      rw [statementNode_of_isAtHead isAt] at stepped
      refine ⟨.atStatement before head between position, further, by simp [Node.unplaced], ?_⟩
      simpa [Node.pieces] using stepped
  | declaration before text between start =>
      obtain ⟨notAt, terminated⟩ := terminated
      obtain ⟨position, further, stepped⟩ :=
        terminated.exists_step openBlocks siblings offset locate rest
      rw [statementNode_of_not_isAtHead notAt] at stepped
      refine ⟨.declaration before text between position, further, by simp [Node.unplaced], ?_⟩
      simpa [Node.pieces] using stepped
  | comment before text start =>
      obtain ⟨gapped, inside, rfl, closes⟩ := terminated
      obtain ⟨position, further, stepped⟩ :=
        ReaderState.step_comment openBlocks siblings offset locate gapped closes rest
      refine ⟨.comment before ('/' :: '*' :: (inside ++ ['*', '/'])) position, further,
        by simp only [Node.unplaced], ?_⟩
      simpa [Node.pieces] using stepped

/-- A statement that its block or the text ends is read back, and leaves the blanks
behind it. -/
theorem Node.Unterminated.exists_step
    {node : Node}
    {after tail : Text}
    (unterminated : node.Unterminated after tail.head?)
    (last : tail = [] ∨ ∃ later, tail = '}' :: later) :
    ∃ again further, again.unplaced = node.unplaced ∧
      ReaderState.step
          ⟨openBlocks, siblings, offset, Piece.textOf node.pieces ++ (after ++ tail)⟩ locate =
        .ok (.next ⟨openBlocks, siblings ++ [again], further, after ++ tail⟩) := by
  cases node with
  | rule => exact unterminated.elim
  | atBlock => exact unterminated.elim
  | comment => exact unterminated.elim
  | atStatement before head between start =>
      obtain ⟨isAt, unterminated⟩ := unterminated
      obtain ⟨position, further, stepped⟩ :=
        unterminated.exists_step openBlocks siblings offset locate last
      rw [statementNode_of_isAtHead isAt] at stepped
      refine ⟨.atStatement before head between position, further, by simp [Node.unplaced], ?_⟩
      simpa [Node.pieces] using stepped
  | declaration before text between start =>
      obtain ⟨notAt, unterminated⟩ := unterminated
      obtain ⟨position, further, stepped⟩ :=
        unterminated.exists_step openBlocks siblings offset locate last
      rw [statementNode_of_not_isAtHead notAt] at stepped
      refine ⟨.declaration before text between position, further, by simp [Node.unplaced], ?_⟩
      simpa [Node.pieces] using stepped

end Steps

/-! ## Runs that add nodes -/

/-- Reading a text until another one is left adds nodes to those read before, and
these nodes have a property. -/
def ReadsInto
    (made : List Node → Prop)
    (locate : Nat → Position)
    (text rest : Text) :
    Prop :=
  ∀ openBlocks siblings offset, ∃ more further, made more ∧
    ReaderState.run ⟨openBlocks, siblings, offset, text⟩ locate =
      ReaderState.run ⟨openBlocks, siblings ++ more, further, rest⟩ locate

section ReadsInto

variable {made inner outer whole : List Node → Prop} {locate : Nat → Position}

variable (made) in
theorem readsInto_refl (nothing : made []) (text : Text) : ReadsInto made locate text text := by
  intro openBlocks siblings offset
  exact ⟨[], offset, nothing, by rw [List.append_nil]⟩

theorem ReadsInto.trans
    {first second third : Text}
    (toSecond : ReadsInto inner locate first second)
    (toThird : ReadsInto outer locate second third)
    (joins : ∀ nodes more, inner nodes → outer more → whole (nodes ++ more)) :
    ReadsInto whole locate first third := by
  intro openBlocks siblings offset
  obtain ⟨more, further, isInner, ran⟩ := toSecond openBlocks siblings offset
  obtain ⟨others, last, isOuter, ranToo⟩ := toThird openBlocks (siblings ++ more) further
  refine ⟨more ++ others, last, joins more others isInner isOuter, ?_⟩
  rw [ran, ranToo, List.append_assoc]

theorem readsInto_of_step
    {text rest : Text}
    (steps : ∀ openBlocks siblings offset, ∃ node further, made [node] ∧
      ReaderState.step ⟨openBlocks, siblings, offset, text⟩ locate =
        .ok (.next ⟨openBlocks, siblings ++ [node], further, rest⟩)) :
    ReadsInto made locate text rest := by
  intro openBlocks siblings offset
  obtain ⟨node, further, isMade, stepped⟩ := steps openBlocks siblings offset
  exact ⟨[node], further, isMade, ReaderState.run_eq_of_step stepped⟩

/-- A block is read from its head to its closing brace. -/
theorem readsInto_block
    {before raw inside gap rest : Text}
    (beforeGap : IsGap before)
    (noComment : ¬OpensComment (raw.dropWhile isGap))
    (takes : StatementScan.initial.Takes raw (some '{'))
    (gapped : IsGap gap)
    (reads : ReadsInto inner locate inside (gap ++ '}' :: rest))
    (closes : ∀ start siblings nodes, inner nodes →
      made [(ReaderState.openedBlock before raw start siblings).close locate nodes gap]) :
    ReadsInto made locate (before ++ (raw ++ '{' :: inside)) rest := by
  intro openBlocks siblings offset
  obtain ⟨start, further, opened⟩ :=
    ReaderState.step_open openBlocks siblings offset locate beforeGap noComment takes inside
  generalize isBlock : ReaderState.openedBlock before raw start siblings = block at opened
  obtain ⟨nodes, later, isInner, ran⟩ := reads (block :: openBlocks) [] further
  have closed : ReaderState.step ⟨block :: openBlocks, nodes, later, gap ++ '}' :: rest⟩ locate =
      .ok (.next ⟨openBlocks, block.siblings ++ [block.close locate nodes gap],
        later + Text.size gap + 1, rest⟩) := by
    rw [ReaderState.step_brace locate gapped]
    rfl
  have sameSiblings : block.siblings = siblings := by
    subst isBlock
    rfl
  refine ⟨[block.close locate nodes gap], later + Text.size gap + 1, ?_, ?_⟩
  · subst isBlock
    exact closes start siblings nodes isInner
  · rw [ReaderState.run_eq_of_step opened, ran, List.nil_append,
      ReaderState.run_eq_of_step closed, sameSiblings]

/-- Nodes that are read until the gap at the end of the text are the tree of it. -/
theorem exists_parse_of_readsInto
    {nodes : List Node}
    {after : Text}
    (gapped : IsGap after)
    (reads : ReadsInto made (positionOf (printNodes nodes ++ after))
      (printNodes nodes ++ (after ++ [])) (after ++ [])) :
    ∃ again, Stylesheet.parse (Stylesheet.mk nodes after).print = .ok ⟨again, after⟩ ∧
      made again := by
  obtain ⟨again, further, isMade, ran⟩ := reads [] [] 0
  rw [List.append_nil] at ran
  refine ⟨again, ?_, isMade⟩
  rw [Stylesheet.print_eq, Stylesheet.parse]
  refine ran.trans (ReaderState.run_eq_of_step_finished ?_)
  rw [ReaderState.step_gap _ gapped]
  rfl

end ReadsInto

/-! ## Legible nodes are read back -/

theorem Stated.dropWhile_isGap
    {raw : Text}
    {next : Option Char}
    (stated : Stated raw next) :
    raw.dropWhile isGap = raw := by
  cases raw with
  | nil => rfl
  | cons char rest => rw [List.dropWhile_cons, stated.noGap char rfl, if_neg Bool.false_ne_true]

theorem Legible.isGap_after
    {nodes : List Node}
    {after : Text}
    {next : Option Char}
    (legible : Legible nodes after next) :
    IsGap after := by
  induction legible with
  | nil gapped => exact gapped
  | rule _ _ _ _ _ _ _ _ ih => exact ih
  | atBlock _ _ _ _ _ _ _ _ ih => exact ih
  | leaf _ _ ih => exact ih
  | last gapped _ => exact gapped

/-- A block is opened with the head and the blanks that it was printed with. -/
theorem openedBlock_of_stated
    {head between : Text}
    (stated : Stated (head ++ between) (some '{'))
    (noBlank : ∀ char, head.getLast? = some char → Text.isBlank char = false)
    (blank : Text.isBlankText between = true)
    (before : Text)
    (start : Nat)
    (siblings : List Node) :
    ReaderState.openedBlock before (head ++ between) start siblings =
      ⟨before, head, between, start, siblings⟩ := by
  have noGap : (head ++ between).takeWhile isGap = [] := by
    have parts := List.takeWhile_append_dropWhile (p := isGap) (l := head ++ between)
    rw [stated.dropWhile_isGap] at parts
    exact List.append_left_eq_self.mp parts
  have trimmed : Text.trimEnd (head ++ between) = head := by
    rw [Text.trimEnd_append_of_isBlankText blank, Text.trimEnd_eq_self noBlank]
  have dropped : (head ++ between).drop head.length = between := List.drop_left
  simp only [ReaderState.openedBlock, noGap, stated.dropWhile_isGap, trimmed, dropped,
    List.append_nil]

/-- Reading a text until another one is left adds certain nodes, at whatever
positions. -/
def ReadsBack (nodes : List Node) (locate : Nat → Position) (text rest : Text) : Prop :=
  ReadsInto (fun again => unplacedNodes again = unplacedNodes nodes) locate text rest

section ReadsBack

variable {locate : Nat → Position}

theorem readsBack_nil (text : Text) : ReadsBack [] locate text text :=
  readsInto_refl (fun again => unplacedNodes again = unplacedNodes []) rfl text

theorem ReadsBack.cons
    {node : Node}
    {rest : List Node}
    {first second third : Text}
    (one : ReadsBack [node] locate first second)
    (others : ReadsBack rest locate second third) :
    ReadsBack (node :: rest) locate first third := by
  refine one.trans others fun again more same sameRest => ?_
  rw [unplacedNodes_append, same, sameRest, ← unplacedNodes_append, List.singleton_append]

theorem readsBack_singleton
    {node : Node}
    {text rest : Text}
    (steps : ∀ openBlocks siblings offset, ∃ again further, again.unplaced = node.unplaced ∧
      ReaderState.step ⟨openBlocks, siblings, offset, text⟩ locate =
        .ok (.next ⟨openBlocks, siblings ++ [again], further, rest⟩)) :
    ReadsBack [node] locate text rest := by
  refine readsInto_of_step fun openBlocks siblings offset => ?_
  obtain ⟨again, further, same, stepped⟩ := steps openBlocks siblings offset
  exact ⟨again, further, by simp [same], stepped⟩

end ReadsBack

/-- A block is read back if the nodes in it are. -/
theorem readsBack_block
    {before head between inner rest : Text}
    {nodes : List Node}
    {node : Node}
    {locate : Nat → Position}
    (gapped : IsGap before)
    (stated : Stated (head ++ between) (some '{'))
    (noBlank : ∀ char, head.getLast? = some char → Text.isBlank char = false)
    (blank : Text.isBlankText between = true)
    (innerGap : IsGap inner)
    (inside : ReadsBack nodes locate
      (printNodes nodes ++ (inner ++ '}' :: rest)) (inner ++ '}' :: rest))
    (closes : ∀ start siblings again, unplacedNodes again = unplacedNodes nodes →
      ((OpenBlock.mk before head between start siblings).close locate again inner).unplaced =
        node.unplaced) :
    ReadsBack [node] locate
      (before ++ (head ++ between ++ '{' :: (printNodes nodes ++ (inner ++ '}' :: rest))))
      rest := by
  have noComment := stated.noComment
  rw [← stated.dropWhile_isGap] at noComment
  refine readsInto_block gapped noComment stated.takes innerGap inside ?_
  intro start siblings again same
  rw [openedBlock_of_stated stated noBlank blank]
  simp [closes start siblings again same]

/-- Legible nodes are read back from what they print. -/
theorem Legible.readsBack
    {nodes : List Node}
    {after : Text}
    {next : Option Char}
    (legible : Legible nodes after next)
    {tail : Text}
    (isNext : tail.head? = next)
    (last : tail = [] ∨ ∃ later, tail = '}' :: later)
    (locate : Nat → Position) :
    ReadsBack nodes locate (printNodes nodes ++ (after ++ tail)) (after ++ tail) := by
  induction legible generalizing tail with
  | nil => exact readsBack_nil _
  | @rule before selector between nodes inner start rest after next
      gapped stated noBlank blank notAt inside others ihInside ihOthers =>
      have innerLast : ∃ later, '}' :: (printNodes rest ++ (after ++ tail)) = '}' :: later :=
        ⟨_, rfl⟩
      have block : ReadsBack [.rule before selector between nodes inner start] locate _ _ :=
        readsBack_block gapped stated noBlank blank inside.isGap_after
          (ihInside rfl (.inr innerLast)) fun position siblings again same => by
            rw [OpenBlock.close, if_neg (Bool.eq_false_iff.mp notAt)]
            simp [Node.unplaced, same]
      rw [printNodes_cons]
      simpa [Node.pieces, printNodes] using block.cons (ihOthers isNext last)
  | @atBlock before head between nodes inner start rest after next
      gapped stated noBlank blank isAt inside others ihInside ihOthers =>
      have innerLast : ∃ later, '}' :: (printNodes rest ++ (after ++ tail)) = '}' :: later :=
        ⟨_, rfl⟩
      have block : ReadsBack [.atBlock before head between nodes inner start] locate _ _ :=
        readsBack_block gapped stated noBlank blank inside.isGap_after
          (ihInside rfl (.inr innerLast)) fun position siblings again same => by
            rw [OpenBlock.close, if_pos isAt]
            simp [Node.unplaced, same]
      rw [printNodes_cons]
      simpa [Node.pieces, printNodes] using block.cons (ihOthers isNext last)
  | @leaf node rest after next terminated others ih =>
      have first : ReadsBack [node] locate
          (Piece.textOf node.pieces ++ (printNodes rest ++ (after ++ tail)))
          (printNodes rest ++ (after ++ tail)) :=
        readsBack_singleton fun openBlocks siblings offset =>
          terminated.exists_step openBlocks siblings offset locate _
      rw [printNodes_cons, List.append_assoc]
      exact first.cons (ih isNext last)
  | last _ unterminated =>
      subst isNext
      rw [printNodes_cons, printNodes_nil, List.append_nil]
      exact readsBack_singleton fun openBlocks siblings offset =>
        unterminated.exists_step openBlocks siblings offset locate last

/-- A stylesheet of legible nodes is what its printed text is read as, up to
positions. -/
theorem Legible.exists_parse_print
    {sheet : Stylesheet}
    (legible : Legible sheet.nodes sheet.after none) :
    ∃ again, Stylesheet.parse sheet.print = .ok again ∧ again.unplaced = sheet.unplaced := by
  have atEnd : ([] : Text).head? = none := rfl
  obtain ⟨again, parsed, same⟩ := exists_parse_of_readsInto legible.isGap_after
    (legible.readsBack atEnd (.inl rfl) _)
  exact ⟨⟨again, sheet.after⟩, parsed, by rw [Stylesheet.unplaced, same]; rfl⟩

end Css
end ComponentPipeline
