import ComponentPipeline.Proofs.Css.Edit
import ComponentPipeline.Proofs.Css.Nodes
import ComponentPipeline.Proofs.Css.ReadBack

/-!
# Reading an edited stylesheet

The text that an edit of a parsed stylesheet prints can be read again, if the
selector lists that the edit leaves open blocks.  The tree of that text need not
be the edited one: a new list that starts with a blank moves into the gap, and
one that starts with an at sign makes an at-rule.  So what is told of the tree
is only that its rules have a property, one that the heads read from the new
lists have.
-/

namespace ComponentPipeline
namespace Css

/-- The selector list of a rule. -/
def Node.selector? : Node → Option Text
  | .rule _ selector .. => some selector
  | _ => none

/-- A property of the selector list of every rule among nodes and in their
blocks. -/
def RulesHave (holds : Text → Prop) (nodes : List Node) : Prop :=
  ∀ node ∈ nodesIn nodes, ∀ selector ∈ node.selector?, holds selector

/-! ## Rules of a tree -/

section Rules

variable {holds : Text → Prop}

theorem rulesHave_nil : RulesHave holds [] := by
  intro node member
  cases member

theorem RulesHave.append
    {first second : List Node}
    (before : RulesHave holds first)
    (after : RulesHave holds second) :
    RulesHave holds (first ++ second) := by
  intro node member
  rw [nodesIn_append] at member
  rcases List.mem_append.mp member with here | there
  · exact before node here
  · exact after node there

theorem rulesHave_cons_iff {node : Node} {rest : List Node} :
    RulesHave holds (node :: rest) ↔ RulesHave holds [node] ∧ RulesHave holds rest := by
  simp only [RulesHave, nodesIn_cons, nodesIn_nil, List.append_nil, List.mem_append]
  exact ⟨fun all => ⟨fun inner here => all inner (.inl here), fun inner there =>
    all inner (.inr there)⟩, fun both inner member => member.elim (both.1 inner) (both.2 inner)⟩

theorem rulesHave_rule_iff
    {before selector between inner : Text}
    {nodes : List Node}
    {start : Position} :
    RulesHave holds [.rule before selector between nodes inner start] ↔
      holds selector ∧ RulesHave holds nodes := by
  simp [RulesHave, Node.inOrder, Node.selector?]

theorem rulesHave_atBlock_iff
    {before head between inner : Text}
    {nodes : List Node}
    {start : Position} :
    RulesHave holds [.atBlock before head between nodes inner start] ↔
      RulesHave holds nodes := by
  simp [RulesHave, Node.inOrder, Node.selector?]

/-- The head of a closed block is the selector list of a rule, if it is not the
head of an at-rule. -/
theorem rulesHave_close
    {block : OpenBlock}
    {nodes : List Node}
    (head : isAtHead block.head = true ∨ holds block.head)
    (inside : RulesHave holds nodes)
    (locate : Nat → Position)
    (gap : Text) :
    RulesHave holds [block.close locate nodes gap] := by
  unfold OpenBlock.close
  split
  · exact rulesHave_atBlock_iff.mpr inside
  · rename_i notAt
    exact rulesHave_rule_iff.mpr ⟨head.resolve_left notAt, inside⟩

/-- A node without a block is no rule. -/
theorem rulesHave_of_not_hasBlock {node : Node} (flat : node.hasBlock = false) :
    RulesHave holds [node] := by
  cases node <;> simp [RulesHave, Node.inOrder, Node.selector?, Node.hasBlock] at flat ⊢

theorem rulesHave_statementNode (before text between : Text) (start : Position) :
    RulesHave holds [statementNode before text between start] := by
  unfold statementNode
  split <;> exact rulesHave_of_not_hasBlock rfl

end Rules

/-- A text that opens a block, of an at-rule or of a rule with a property. -/
structure Opens (holds : Text → Prop) (raw : Text) : Prop where
  /-- It goes up to the brace. -/
  takes : StatementScan.initial.Takes raw (some '{')
  /-- It does not start with a comment. -/
  noComment : ¬OpensComment (raw.dropWhile isGap)
  /-- The head is one of an at-rule or has the property. -/
  head : isAtHead (Text.trimEnd (raw.dropWhile isGap)) = true ∨
    holds (Text.trimEnd (raw.dropWhile isGap))

/-! ## Reading nodes whose rules have a property -/

section ReadsInto

variable {holds : Text → Prop} {locate : Nat → Position}

/-- The property is one of every single node. -/
theorem readsInto_trans_of_rulesHave
    {first second third : Text}
    (toSecond : ReadsInto (RulesHave holds) locate first second)
    (toThird : ReadsInto (RulesHave holds) locate second third) :
    ReadsInto (RulesHave holds) locate first third :=
  toSecond.trans toThird fun _ _ before after => before.append after

theorem Node.hasBlock_eq_of_unplaced_eq
    {node again : Node}
    (same : again.unplaced = node.unplaced) :
    again.hasBlock = node.hasBlock := by
  cases again <;> cases node <;> simp [Node.unplaced] at same <;> rfl

/-- What is read back of a node without a block is no rule. -/
theorem readsInto_of_not_hasBlock
    {node : Node}
    {text rest : Text}
    (flat : node.hasBlock = false)
    (steps : ∀ openBlocks siblings offset, ∃ again further, again.unplaced = node.unplaced ∧
      ReaderState.step ⟨openBlocks, siblings, offset, text⟩ locate =
        .ok (.next ⟨openBlocks, siblings ++ [again], further, rest⟩)) :
    ReadsInto (RulesHave holds) locate text rest := by
  refine readsInto_of_step fun openBlocks siblings offset => ?_
  obtain ⟨again, further, same, stepped⟩ := steps openBlocks siblings offset
  rw [← Node.hasBlock_eq_of_unplaced_eq same] at flat
  exact ⟨again, further, rulesHave_of_not_hasBlock flat, stepped⟩

/-- A block whose head is one of an at-rule or has the property. -/
theorem readsInto_block_of_opens
    {before raw inside gap rest : Text}
    (beforeGap : IsGap before)
    (opens : Opens holds raw)
    (gapped : IsGap gap)
    (reads : ReadsInto (RulesHave holds) locate inside (gap ++ '}' :: rest)) :
    ReadsInto (RulesHave holds) locate (before ++ (raw ++ '{' :: inside)) rest :=
  readsInto_block beforeGap opens.noComment opens.takes gapped reads
    fun _ _ _ insideHave => rulesHave_close opens.head insideHave locate gap

end ReadsInto

theorem isAtHead_trimEnd_append
    {head between : Text}
    (isAt : isAtHead head = true)
    (blank : Text.isBlankText between = true) :
    isAtHead (Text.trimEnd (head ++ between)) = true := by
  rw [Text.trimEnd_append_of_isBlankText blank]
  cases head with
  | nil => cases isAt
  | cons char rest =>
      have isAtSign : char = '@' := by
        unfold isAtHead at isAt
        split at isAt
        · rename_i same
          cases same
          rfl
        · cases isAt
      subst isAtSign
      rw [Text.trimEnd]
      split <;> rfl

section Edits

variable {holds : Text → Prop} {locate : Nat → Position}
variable {deletes : Text → Prop} {renames : Text → Text → Prop}

/-- Whatever an edit makes of the selector list of a rule opens a block. -/
def RenamesOpen
    (holds : Text → Prop)
    (renames : Text → Text → Prop)
    (selector : Text) :
    Prop :=
  ∀ selector' between, renames selector selector' →
    Stated (selector ++ between) (some '{') → Text.isBlankText between = true →
      Opens holds (selector' ++ between)

/-- A node without a block is followed by the rest, or it is the last one. -/
theorem readsInto_flat
    {node : Node}
    {rest rest' : List Node}
    {after tail : Text}
    (flat : node.hasBlock = false)
    (last : tail = [] ∨ ∃ later, tail = '}' :: later)
    (legible : Legible (node :: rest) after tail.head?)
    (edited : Edited deletes renames rest rest')
    (others : Legible rest after tail.head? →
      ReadsInto (RulesHave holds) locate (printNodes rest' ++ (after ++ tail)) (after ++ tail)) :
    ReadsInto (RulesHave holds) locate (printNodes (node :: rest') ++ (after ++ tail))
      (after ++ tail) := by
  rw [printNodes_cons, List.append_assoc]
  cases legible with
  | rule => cases flat
  | atBlock => cases flat
  | leaf terminated legible =>
      exact readsInto_trans_of_rulesHave
        (readsInto_of_not_hasBlock flat fun openBlocks siblings offset =>
          terminated.exists_step openBlocks siblings offset locate _)
        (others legible)
  | last gapped unterminated =>
      cases edited
      rw [printNodes_nil, List.nil_append]
      exact readsInto_of_not_hasBlock flat fun openBlocks siblings offset =>
        unterminated.exists_step openBlocks siblings offset locate last

/-- Legible nodes are read again after an edit. -/
theorem readsInto_of_edited
    {nodes nodes' : List Node}
    (edited : Edited deletes renames nodes nodes')
    {after tail : Text}
    (last : tail = [] ∨ ∃ later, tail = '}' :: later)
    (legible : Legible nodes after tail.head?)
    (opens : RulesHave (RenamesOpen holds renames) nodes) :
    ReadsInto (RulesHave holds) locate (printNodes nodes' ++ (after ++ tail)) (after ++ tail) := by
  induction edited generalizing after tail with
  | nil => exact readsInto_refl (RulesHave holds) rulesHave_nil (after ++ tail)
  | deleted goes others ih =>
      obtain ⟨-, restOpens⟩ := rulesHave_cons_iff.mp opens
      cases legible with
      | rule _ _ _ _ _ _ others => exact ih last others restOpens
      | leaf terminated => exact terminated.elim
      | last _ unterminated => exact unterminated.elim
  | @kept before selector selector' between nodes nodes' inner start rest edited
      stays renamed inside others ihInside ihOthers =>
      obtain ⟨ruleOpens, restOpens⟩ := rulesHave_cons_iff.mp opens
      obtain ⟨selectorOpens, insideOpens⟩ := rulesHave_rule_iff.mp ruleOpens
      cases legible with
      | rule gapped stated _ blank _ insideLegible othersLegible =>
          have block := readsInto_block_of_opens gapped
            (selectorOpens selector' between renamed stated blank)
            insideLegible.isGap_after
            (ihInside (.inr ⟨printNodes edited ++ (after ++ tail), rfl⟩) insideLegible insideOpens)
          have more := ihOthers last othersLegible restOpens
          rw [printNodes_cons]
          simpa [Node.pieces, printNodes] using readsInto_trans_of_rulesHave block more
      | leaf terminated => exact terminated.elim
      | last _ unterminated => exact unterminated.elim
  | @atBlock before head between nodes nodes' inner start rest edited
      inside others ihInside ihOthers =>
      obtain ⟨blockOpens, restOpens⟩ := rulesHave_cons_iff.mp opens
      have insideOpens := rulesHave_atBlock_iff.mp blockOpens
      cases legible with
      | atBlock gapped stated _ blank isAt insideLegible othersLegible =>
          have sameHead := stated.dropWhile_isGap
          have headOpens : Opens holds (head ++ between) := by
            refine ⟨stated.takes, ?_, .inl ?_⟩
            · rw [sameHead]
              exact stated.noComment
            · rw [sameHead]
              exact isAtHead_trimEnd_append isAt blank
          have block := readsInto_block_of_opens gapped headOpens insideLegible.isGap_after
            (ihInside (.inr ⟨printNodes edited ++ (after ++ tail), rfl⟩) insideLegible insideOpens)
          have more := ihOthers last othersLegible restOpens
          rw [printNodes_cons]
          simpa [Node.pieces, printNodes] using readsInto_trans_of_rulesHave block more
      | leaf terminated => exact terminated.elim
      | last _ unterminated => exact unterminated.elim
  | atStatement others ih =>
      exact readsInto_flat rfl last legible others fun othersLegible =>
        ih last othersLegible (rulesHave_cons_iff.mp opens).2
  | declaration others ih =>
      exact readsInto_flat rfl last legible others fun othersLegible =>
        ih last othersLegible (rulesHave_cons_iff.mp opens).2
  | comment others ih =>
      exact readsInto_flat rfl last legible others fun othersLegible =>
        ih last othersLegible (rulesHave_cons_iff.mp opens).2

/-- A parsed stylesheet is read again after an edit if the edit leaves selector
lists that open blocks. -/
theorem exists_parse_of_edited
    {text : Text}
    {sheet : Stylesheet}
    {nodes : List Node}
    (parsed : Stylesheet.parse text = .ok sheet)
    (edited : Edited deletes renames sheet.nodes nodes)
    (opens : RulesHave (RenamesOpen holds renames) sheet.nodes) :
    ∃ again, Stylesheet.parse (Stylesheet.mk nodes sheet.after).print = .ok again ∧
      RulesHave holds again.nodes := by
  have legible := legible_of_parse parsed
  have reads : ReadsInto (RulesHave holds) (positionOf (printNodes nodes ++ sheet.after))
      (printNodes nodes ++ (sheet.after ++ [])) (sheet.after ++ []) :=
    readsInto_of_edited edited (.inl rfl) legible opens
  obtain ⟨again, reparsed, rulesHave⟩ := exists_parse_of_readsInto legible.isGap_after reads
  exact ⟨⟨again, sheet.after⟩, reparsed, rulesHave⟩

end Edits

end Css
end ComponentPipeline
