import ComponentPipeline.Proofs.Css.Rereading

/-!
# Nodes that can be read again

What is known about the nodes of a parsed text is enough to read them again
after some of them are gone or have other heads: every node but the last one of
a block ends by itself, and the last one may be a statement that the end of the
block or of the text ends.  Every head is trimmed and tells the kind of its
node, so what is read again is split in the same way.
-/

namespace ComponentPipeline
namespace Css

/-- A statement that a semicolon ends. -/
structure Terminated (before text between : Text) : Prop where
  /-- A gap is before it. -/
  gapped : IsGap before
  /-- It does not end with a blank. -/
  noBlank : ∀ char, text.getLast? = some char → Text.isBlank char = false
  /-- It goes up to the semicolon, behind some blanks. -/
  upTo : ∃ trailing, between = trailing ++ [';'] ∧ Text.isBlankText trailing = true ∧
    text ++ trailing ≠ [] ∧ Stated (text ++ trailing) (some ';')

/-- A statement that ends behind some blanks with its block or with the text. -/
structure Unterminated
    (before text between after : Text)
    (next : Option Char) :
    Prop where
  /-- A gap is before it. -/
  gapped : IsGap before
  /-- The blanks do not belong to it. -/
  none : between = []
  /-- It is not empty. -/
  notEmpty : text ≠ []
  /-- It does not end with a blank. -/
  noBlank : ∀ char, text.getLast? = some char → Text.isBlank char = false
  /-- There are only blanks behind it. -/
  blank : Text.isBlankText after = true
  /-- It goes up to the end of the blanks. -/
  stated : Stated (text ++ after) next

namespace Node

/-- A node without a block that ends by itself. -/
def Terminated : Node → Prop
  | .atStatement before head between _ =>
      isAtHead head = true ∧ Css.Terminated before head between
  | .declaration before text between _ =>
      isAtHead text = false ∧ Css.Terminated before text between
  | .comment before text _ =>
      IsGap before ∧ ∃ inside, text = '/' :: '*' :: (inside ++ ['*', '/']) ∧
        Text.cutAt? ['*', '/'] (inside ++ ['*', '/']) = some (inside, [])
  | _ => False

/-- A node without a block that something else ends. -/
def Unterminated (after : Text) (next : Option Char) : Node → Prop
  | .atStatement before head between _ =>
      isAtHead head = true ∧ Css.Unterminated before head between after next
  | .declaration before text between _ =>
      isAtHead text = false ∧ Css.Unterminated before text between after next
  | _ => False

end Node

/-- Nodes that can be read when a text follows them and then a character or the
end of everything. -/
inductive Legible : List Node → Text → Option Char → Prop
  | nil {after next}
      (gapped : IsGap after) :
      Legible [] after next
  | rule {before selector between nodes inner start rest after next}
      (gapped : IsGap before)
      (stated : Stated (selector ++ between) (some '{'))
      (noBlank : ∀ char, selector.getLast? = some char → Text.isBlank char = false)
      (blank : Text.isBlankText between = true)
      (notAt : isAtHead selector = false)
      (inside : Legible nodes inner (some '}'))
      (others : Legible rest after next) :
      Legible (.rule before selector between nodes inner start :: rest) after next
  | atBlock {before head between nodes inner start rest after next}
      (gapped : IsGap before)
      (stated : Stated (head ++ between) (some '{'))
      (noBlank : ∀ char, head.getLast? = some char → Text.isBlank char = false)
      (blank : Text.isBlankText between = true)
      (isAt : isAtHead head = true)
      (inside : Legible nodes inner (some '}'))
      (others : Legible rest after next) :
      Legible (.atBlock before head between nodes inner start :: rest) after next
  | leaf {node rest after next}
      (terminated : node.Terminated)
      (others : Legible rest after next) :
      Legible (node :: rest) after next
  | last {node after next}
      (gapped : IsGap after)
      (unterminated : node.Unterminated after next) :
      Legible [node] after next

/-- Nodes that any legible ones may follow. -/
def LegibleSoFar (nodes : List Node) : Prop :=
  ∀ ⦃more after next⦄, Legible more after next → Legible (nodes ++ more) after next

theorem legibleSoFar_nil : LegibleSoFar [] :=
  fun _ _ _ legible => legible

theorem LegibleSoFar.append_leaf
    {nodes : List Node}
    {node : Node}
    (soFar : LegibleSoFar nodes)
    (terminated : node.Terminated) :
    LegibleSoFar (nodes ++ [node]) := by
  intro more after next legible
  rw [List.append_assoc]
  exact soFar (.leaf terminated legible)

theorem LegibleSoFar.legible
    {nodes : List Node}
    {gap : Text}
    (soFar : LegibleSoFar nodes)
    (gapped : IsGap gap)
    (next : Option Char) :
    Legible nodes gap next := by
  have whole : Legible (nodes ++ []) gap next := soFar (.nil gapped)
  rwa [List.append_nil] at whole

/-- An open block that becomes a legible node once legible nodes are in it. -/
structure OpenBlock.Legible (block : OpenBlock) : Prop where
  /-- A gap is before it. -/
  gapped : IsGap block.before
  /-- Its head goes up to the brace. -/
  stated : Stated (block.head ++ block.between) (some '{')
  /-- Its head does not end with a blank. -/
  noBlank : ∀ char, block.head.getLast? = some char → Text.isBlank char = false
  /-- There are only blanks between head and brace. -/
  blank : Text.isBlankText block.between = true
  /-- The nodes before it are legible. -/
  siblings : LegibleSoFar block.siblings

theorem OpenBlock.Legible.close
    {block : OpenBlock}
    {nodes : List Node}
    {gap : Text}
    (opened : block.Legible)
    (locate : Nat → Position)
    (inside : Css.Legible nodes gap (some '}')) :
    LegibleSoFar (block.siblings ++ [block.close locate nodes gap]) := by
  intro more after next legible
  rw [List.append_assoc]
  apply opened.siblings
  unfold OpenBlock.close
  split
  · rename_i isAt
    exact .atBlock opened.gapped opened.stated opened.noBlank opened.blank isAt inside legible
  · rename_i notAt
    exact .rule opened.gapped opened.stated opened.noBlank opened.blank
      (Bool.eq_false_iff.mpr notAt) inside legible

theorem terminated_statementNode
    {before text between : Text}
    (terminated : Terminated before text between)
    (start : Position) :
    (statementNode before text between start).Terminated := by
  unfold statementNode
  split
  · rename_i isAt
    exact ⟨isAt, terminated⟩
  · rename_i notAt
    exact ⟨Bool.eq_false_iff.mpr notAt, terminated⟩

theorem unterminated_statementNode
    {before text between after : Text}
    {next : Option Char}
    (unterminated : Unterminated before text between after next)
    (start : Position) :
    (statementNode before text between start).Unterminated after next := by
  unfold statementNode
  split
  · rename_i isAt
    exact ⟨isAt, unterminated⟩
  · rename_i notAt
    exact ⟨Bool.eq_false_iff.mpr notAt, unterminated⟩

namespace ReaderState

/-- What a reader has read can be read again. -/
inductive ReadsLegibly (state : ReaderState) : Prop
  /-- The next step starts a node or ends the block. -/
  | between
      (blocks : ∀ block ∈ state.openBlocks, block.Legible)
      (soFar : LegibleSoFar state.nodes)
  /-- The last statement was not ended by a semicolon, so that the block or the
  text ends behind the blanks that it has left. -/
  | behind {trailing tail : Text}
      (blocks : ∀ block ∈ state.openBlocks, block.Legible)
      (parts : state.rest = trailing ++ tail)
      (blank : Text.isBlankText trailing = true)
      (last : tail = [] ∨ ∃ later, tail = '}' :: later)
      (nodes : IsGap trailing → Legible state.nodes trailing tail.head?)

variable {state : ReaderState} {locate : Nat → Position}

theorem ReadsLegibly.next
    {later : ReaderState}
    (legibly : state.ReadsLegibly)
    (stepped : state.step locate = .ok (.next later)) :
    later.ReadsLegibly := by
  cases legibly with
  | between blocks soFar =>
      cases reads_of_step stepped with
      | opened text gapped stated blank noBlank =>
          refine .between (fun block member => ?_) legibleSoFar_nil
          rcases List.mem_cons.mp member with rfl | outer
          · exact ⟨gapped, stated, noBlank, blank, soFar⟩
          · exact blocks block outer
      | @closed gap rest block outer innermost text gapped =>
          rw [innermost] at blocks
          refine .between (fun other member => blocks other (List.mem_cons_of_mem _ member)) ?_
          exact (blocks block List.mem_cons_self).close locate (soFar.legible gapped _)
      | comment text gapped closes =>
          exact .between blocks (soFar.append_leaf ⟨gapped, _, rfl, closes⟩)
      | statement text notEmpty noBlank gapped ends =>
          cases ends with
          | terminated parts rawNotEmpty stated blank =>
              refine .between blocks (soFar.append_leaf (terminated_statementNode ?_ _))
              exact ⟨gapped, noBlank, _, parts, blank, rawNotEmpty, stated⟩
          | @unterminated trailing tail none parts blank stated last =>
              subst none
              rw [List.append_nil] at notEmpty
              refine .behind blocks parts blank last fun gap => soFar ?_
              exact .last gap (unterminated_statementNode
                ⟨gapped, rfl, notEmpty, noBlank, blank, stated⟩ _)
  | @behind trailing tail blocks parts blank last nodes =>
      obtain ⟨openBlocks, siblings, offset, rest⟩ := state
      subst parts
      have gapped := isGap_of_step locate blank last stepped
      rcases last with rfl | ⟨further, rfl⟩
      · rw [List.append_nil, step_gap locate gapped] at stepped
        cases openBlocks <;> cases stepped
      · rw [step_brace locate gapped] at stepped
        cases openBlocks with
        | nil => cases stepped
        | cons block outer =>
            cases stepped
            refine .between (fun other member => blocks other (List.mem_cons_of_mem _ member)) ?_
            exact (blocks block List.mem_cons_self).close locate (nodes gapped)

theorem ReadsLegibly.finish
    {sheet : Stylesheet}
    (legibly : state.ReadsLegibly)
    (stepped : state.step locate = .ok (.finished sheet)) :
    Legible sheet.nodes sheet.after none := by
  cases legibly with
  | between blocks soFar =>
      cases reads_of_step stepped with
      | finished noneOpen gapped => exact soFar.legible gapped none
  | @behind trailing tail blocks parts blank last nodes =>
      obtain ⟨openBlocks, siblings, offset, rest⟩ := state
      subst parts
      have gapped := isGap_of_step locate blank last stepped
      rcases last with rfl | ⟨further, rfl⟩
      · rw [List.append_nil, step_gap locate gapped] at stepped
        cases openBlocks with
        | nil =>
            cases stepped
            exact nodes gapped
        | cons block outer => cases stepped
      · rw [step_brace locate gapped] at stepped
        cases openBlocks <;> cases stepped

theorem legible_of_run
    {sheet : Stylesheet}
    (legibly : state.ReadsLegibly)
    (ran : state.run locate = .ok sheet) :
    Legible sheet.nodes sheet.after none := by
  fun_induction state.run locate with
  | case1 state error stepped => cases ran
  | case2 state last stepped =>
      cases ran
      exact legibly.finish stepped
  | case3 state later stepped ih => exact ih (legibly.next stepped) ran

end ReaderState

/-- The nodes of a parsed text can be read again. -/
theorem legible_of_parse
    {text : Text}
    {sheet : Stylesheet}
    (parsed : Stylesheet.parse text = .ok sheet) :
    Legible sheet.nodes sheet.after none :=
  ReaderState.legible_of_run (.between (by simp [ReaderState.initial]) legibleSoFar_nil) parsed

end Css
end ComponentPipeline
