import ComponentPipeline.Proofs.Css.Nodes
import ComponentPipeline.Proofs.Css.ReadBack

/-!
# Removing rules

A walk that removes rules, and gives the ones that stay no other selector,
leaves nodes that are legible if the nodes before were.  What keeps this true
is that a rule ends by itself: a node that needs the end of its block or of the
text is the last one there, so nothing that is removed stands behind it.
-/

namespace ComponentPipeline
namespace Css

/-- One list of nodes is another one without some of the rules, at any depth. -/
inductive Pruned : List Node → List Node → Prop
  | nil : Pruned [] []
  | removed {before selector between nodes after start rest pruned}
      (others : Pruned rest pruned) :
      Pruned (.rule before selector between nodes after start :: rest) pruned
  | rule {before selector between nodes nodes' after start rest pruned}
      (inside : Pruned nodes nodes')
      (others : Pruned rest pruned) :
      Pruned
        (.rule before selector between nodes after start :: rest)
        (.rule before selector between nodes' after start :: pruned)
  | atBlock {before head between nodes nodes' after start rest pruned}
      (inside : Pruned nodes nodes')
      (others : Pruned rest pruned) :
      Pruned
        (.atBlock before head between nodes after start :: rest)
        (.atBlock before head between nodes' after start :: pruned)
  | flat {node rest pruned}
      (noBlock : node.hasBlock = false)
      (others : Pruned rest pruned) :
      Pruned (node :: rest) (node :: pruned)

namespace Pruned

theorem refl : ∀ nodes : List Node, Pruned nodes nodes
  | [] => .nil
  | .rule _ _ _ nodes _ _ :: rest => .rule (refl nodes) (refl rest)
  | .atBlock _ _ _ nodes _ _ :: rest => .atBlock (refl nodes) (refl rest)
  | .atStatement .. :: rest => .flat rfl (refl rest)
  | .declaration .. :: rest => .flat rfl (refl rest)
  | .comment .. :: rest => .flat rfl (refl rest)

theorem append
    {first first' second second' : List Node}
    (before : Pruned first first')
    (after : Pruned second second') :
    Pruned (first ++ second) (first' ++ second') := by
  induction before with
  | nil => exact after
  | removed _ others => exact .removed others
  | rule inside _ _ others => exact .rule inside others
  | atBlock inside _ _ others => exact .atBlock inside others
  | flat noBlock _ others => exact .flat noBlock others

end Pruned

/-- Legible nodes are legible without some of their rules. -/
theorem Legible.of_pruned
    {nodes pruned : List Node}
    (without : Pruned nodes pruned)
    {after : Text}
    {next : Option Char}
    (legible : Legible nodes after next) :
    Legible pruned after next := by
  induction without generalizing after next with
  | nil => exact legible
  | removed _ ih =>
      cases legible with
      | rule _ _ _ _ _ _ others => exact ih others
      | leaf terminated => exact terminated.elim
      | last _ unterminated => exact unterminated.elim
  | rule _ _ ihInside ihOthers =>
      cases legible with
      | rule gapped stated noBlank blank notAt inside others =>
          exact .rule gapped stated noBlank blank notAt (ihInside inside) (ihOthers others)
      | leaf terminated => exact terminated.elim
      | last _ unterminated => exact unterminated.elim
  | atBlock _ _ ihInside ihOthers =>
      cases legible with
      | atBlock gapped stated noBlank blank isAt inside others =>
          exact .atBlock gapped stated noBlank blank isAt (ihInside inside) (ihOthers others)
      | leaf terminated => exact terminated.elim
      | last _ unterminated => exact unterminated.elim
  | flat noBlock others ih =>
      cases legible with
      | rule => cases noBlock
      | atBlock => cases noBlock
      | leaf terminated legibleRest => exact .leaf terminated (ih legibleRest)
      | last gapped unterminated =>
          cases others
          exact .last gapped unterminated

/-! ## Walks that only remove -/

section Walk

variable {ε σ : Type}

/-- A visitor that gives no rule another selector. -/
def Visitor.OnlyRemoves (visit : Visitor ε σ) : Prop :=
  ∀ rule state selector,
    (visit rule state).1 = .ok (.keep selector) → selector = rule.selector

variable {visit : Visitor ε σ}

mutual

theorem pruned_retainNode (removes : visit.OnlyRemoves) :
    ∀ (node : Node) (state : σ), Pruned [node] (retainNode visit node state).nodes
  | .rule before selector between nodes after start, state => by
      have sameSelector := removes ⟨before, selector, between, nodes, after, start⟩ state
      simp only [retainNode]
      split
      · exact .refl _
      · exact .removed .nil
      · rename_i kept later answer
        rw [answer] at sameSelector
        cases sameSelector kept rfl
        exact .rule (pruned_retainNodes removes nodes later) .nil
  | .atBlock before head between nodes after start, state => by
      simp only [retainNode]
      exact .atBlock (pruned_retainNodes removes nodes state) .nil
  | .atStatement .., _ => .refl _
  | .declaration .., _ => .refl _
  | .comment .., _ => .refl _

/-- A walk that only removes leaves some of the nodes, whether or not it fails. -/
theorem pruned_retainNodes (removes : visit.OnlyRemoves) :
    ∀ (nodes : List Node) (state : σ), Pruned nodes (retainNodes visit nodes state).nodes
  | [], _ => .nil
  | node :: rest, state => by
      have first := pruned_retainNode removes node state
      simp only [retainNodes]
      split
      · exact first.append (.refl rest)
      · exact first.append (pruned_retainNodes removes rest _)

end

end Walk

/-- One stylesheet comes from another one by walks that only remove rules, each
with a visitor and a state of its own, whether or not they fail. -/
inductive Stylesheet.AfterRemovals (sheet : Stylesheet) : Stylesheet → Prop
  | none : AfterRemovals sheet sheet
  | walk {ε σ : Type} {walked : Stylesheet}
      (visit : Visitor ε σ)
      (state : σ)
      (removes : visit.OnlyRemoves)
      (earlier : AfterRemovals sheet walked) :
      AfterRemovals sheet (walked.retainRules visit state).1

/-- Removals leave a stylesheet legible. -/
theorem Stylesheet.AfterRemovals.legible
    {sheet walked : Stylesheet}
    (removals : sheet.AfterRemovals walked)
    (legible : Legible sheet.nodes sheet.after Option.none) :
    Legible walked.nodes walked.after Option.none := by
  induction removals with
  | none => exact legible
  | walk visit state removes _ ih => exact .of_pruned (pruned_retainNodes removes _ state) ih

/-- What is printed after rules of a parsed stylesheet were removed is read as the
stylesheet that was printed, up to positions. -/
theorem parse_print_of_afterRemovals
    {text : Text}
    {sheet walked : Stylesheet}
    (parsed : Stylesheet.parse text = .ok sheet)
    (removals : sheet.AfterRemovals walked) :
    ∃ again, Stylesheet.parse walked.print = .ok again ∧ again.unplaced = walked.unplaced :=
  (removals.legible (legible_of_parse parsed)).exists_parse_print

/-- Rules in and beside a block, and a statement that only the end of the text
ends. -/
def prunableSample : Text :=
  "a\x7bb\x7b\x7dc:d\x7de\x7bf\x7d/*g*/h\x7b\x7d@m\x7bh\x7b\x7di;a\x7b\x7dj\x7d @k"

/-- The tree of the sample. -/
def prunableSampleSheet : Stylesheet where
  nodes := [
    .rule [] "a" []
      [.rule [] "b" [] [] [] ⟨⟨0, 2⟩, 2⟩, .declaration [] "c:d" [] ⟨⟨0, 5⟩, 5⟩]
      [] ⟨⟨0, 0⟩, 0⟩,
    .rule [] "e" [] [.declaration [] "f" [] ⟨⟨0, 11⟩, 11⟩] [] ⟨⟨0, 9⟩, 9⟩,
    .comment [] "/*g*/" ⟨⟨0, 13⟩, 13⟩,
    .rule [] "h" [] [] [] ⟨⟨0, 18⟩, 18⟩,
    .atBlock [] "@m" []
      [.rule [] "h" [] [] [] ⟨⟨0, 24⟩, 24⟩,
        .declaration [] "i" ";" ⟨⟨0, 27⟩, 27⟩,
        .rule [] "a" [] [] [] ⟨⟨0, 29⟩, 29⟩,
        .declaration [] "j" [] ⟨⟨0, 32⟩, 32⟩]
      [] ⟨⟨0, 21⟩, 21⟩,
    .atStatement " " "@k" [] ⟨⟨0, 35⟩, 35⟩]
  after := []

/-- Removes the rules with one selector list, and counts the others. -/
def removingVisitor (selector : Text) : Visitor Unit Nat :=
  fun rule count =>
    if rule.selector = selector then (.ok .drop, count)
    else (.ok (.keep rule.selector), count + 1)

theorem onlyRemoves_removingVisitor (selector : Text) :
    (removingVisitor selector).OnlyRemoves := by
  intro rule count kept answer
  unfold removingVisitor at answer
  split at answer
  · cases answer
  · cases answer
    rfl

theorem parse_print_prunableSample :
    Stylesheet.parse prunableSample = .ok prunableSampleSheet ∧
      prunableSampleSheet.AfterRemovals
        ((prunableSampleSheet.retainRules (removingVisitor "b") 0).1.retainRules
          (removingVisitor "h") 0).1 ∧
      ((prunableSampleSheet.retainRules (removingVisitor "b") 0).1.retainRules
          (removingVisitor "h") 0).1.print =
        "a\x7bc:d\x7de\x7bf\x7d/*g*/@m\x7bi;a\x7b\x7dj\x7d @k" ∧
      ∃ again,
        Stylesheet.parse "a\x7bc:d\x7de\x7bf\x7d/*g*/@m\x7bi;a\x7b\x7dj\x7d @k" = .ok again ∧
          again.unplaced =
            ((prunableSampleSheet.retainRules (removingVisitor "b") 0).1.retainRules
              (removingVisitor "h") 0).1.unplaced := by
  have parsed : Stylesheet.parse prunableSample = .ok prunableSampleSheet := by
    with_unfolding_all rfl
  have removals : prunableSampleSheet.AfterRemovals
      ((prunableSampleSheet.retainRules (removingVisitor "b") 0).1.retainRules
        (removingVisitor "h") 0).1 :=
    .walk _ _ (onlyRemoves_removingVisitor "h")
      (.walk _ _ (onlyRemoves_removingVisitor "b") .none)
  have printed :
      ((prunableSampleSheet.retainRules (removingVisitor "b") 0).1.retainRules
          (removingVisitor "h") 0).1.print =
        "a\x7bc:d\x7de\x7bf\x7d/*g*/@m\x7bi;a\x7b\x7dj\x7d @k" := by
    with_unfolding_all rfl
  have again := parse_print_of_afterRemovals parsed removals
  rw [printed] at again
  exact ⟨parsed, removals, printed, again⟩

end Css
end ComponentPipeline
