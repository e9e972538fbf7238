import ComponentPipeline.Css.Retain

/-!
# Edits of rules

An edit of a stylesheet deletes some of its rules and gives some of the others
another selector.  Nothing else of the tree changes: every other node and every
other part of a rule stays as it is, where it is and in its order.  A walk that
does not fail is such an edit.
-/

namespace ComponentPipeline
namespace Css

/-- One list of nodes is another one after an edit.  A rule goes, with its
block, if `deletes` holds of its selector; else it stays with a selector that
`renames` allows for its own, and its block is edited. -/
inductive Edited
    (deletes : Text → Prop)
    (renames : Text → Text → Prop) :
    List Node → List Node → Prop
  | nil : Edited deletes renames [] []
  | deleted {before selector between nodes after start rest edited}
      (goes : deletes selector)
      (others : Edited deletes renames rest edited) :
      Edited deletes renames
        (.rule before selector between nodes after start :: rest) edited
  | kept {before selector selector' between nodes nodes' after start rest edited}
      (stays : ¬deletes selector)
      (renamed : renames selector selector')
      (inside : Edited deletes renames nodes nodes')
      (others : Edited deletes renames rest edited) :
      Edited deletes renames
        (.rule before selector between nodes after start :: rest)
        (.rule before selector' between nodes' after start :: edited)
  | atBlock {before head between nodes nodes' after start rest edited}
      (inside : Edited deletes renames nodes nodes')
      (others : Edited deletes renames rest edited) :
      Edited deletes renames
        (.atBlock before head between nodes after start :: rest)
        (.atBlock before head between nodes' after start :: edited)
  | atStatement {before head between start rest edited}
      (others : Edited deletes renames rest edited) :
      Edited deletes renames
        (.atStatement before head between start :: rest)
        (.atStatement before head between start :: edited)
  | declaration {before text between start rest edited}
      (others : Edited deletes renames rest edited) :
      Edited deletes renames
        (.declaration before text between start :: rest)
        (.declaration before text between start :: edited)
  | comment {before text start rest edited}
      (others : Edited deletes renames rest edited) :
      Edited deletes renames
        (.comment before text start :: rest)
        (.comment before text start :: edited)

/-- A verdict on a rule that an edit may follow. -/
def Verdict.Follows
    (deletes : Text → Prop)
    (renames : Text → Text → Prop)
    (selector : Text) :
    Verdict → Prop
  | .drop => deletes selector
  | .keep selector' => ¬deletes selector ∧ renames selector selector'

section Walk

variable {ε σ : Type} {visit : Visitor ε σ}
variable {deletes : Text → Prop} {renames : Text → Text → Prop}

namespace Edited

theorem append
    {first first' second second' : List Node}
    (before : Edited deletes renames first first')
    (after : Edited deletes renames second second') :
    Edited deletes renames (first ++ second) (first' ++ second') := by
  induction before with
  | nil => exact after
  | deleted goes _ others => exact .deleted goes others
  | kept stays renamed inside _ _ others => exact .kept stays renamed inside others
  | atBlock inside _ _ others => exact .atBlock inside others
  | atStatement _ others => exact .atStatement others
  | declaration _ others => exact .declaration others
  | comment _ others => exact .comment others

end Edited

mutual

/-- A walk over one node that does not fail edits it. -/
theorem edited_of_retainNode
    (follows : ∀ rule state verdict,
      (visit rule state).1 = .ok verdict →
        verdict.Follows deletes renames rule.selector) :
    ∀ (node : Node) (state : σ),
      (retainNode visit node state).failure = none →
        Edited deletes renames [node] (retainNode visit node state).nodes
  | .rule before selector between nodes after start, state => by
      intro succeeded
      have visited := follows ⟨before, selector, between, nodes, after, start⟩ state
      simp only [retainNode] at succeeded ⊢
      split at succeeded
      · cases succeeded
      · rename_i state' answer
        simp only [answer] at visited ⊢
        exact .deleted (visited .drop rfl) .nil
      · rename_i selector' state' answer
        simp only [answer] at visited ⊢
        obtain ⟨stays, renamed⟩ := visited (.keep selector') rfl
        exact .kept stays renamed
          (edited_of_retainNodes follows nodes state' succeeded) .nil
  | .atBlock before head between nodes after start, state => by
      intro succeeded
      simp only [retainNode] at succeeded ⊢
      exact .atBlock (edited_of_retainNodes follows nodes state succeeded) .nil
  | .atStatement before head between start, state => fun _ => .atStatement .nil
  | .declaration before text between start, state => fun _ => .declaration .nil
  | .comment before text start, state => fun _ => .comment .nil

/-- A walk over nodes that does not fail edits them. -/
theorem edited_of_retainNodes
    (follows : ∀ rule state verdict,
      (visit rule state).1 = .ok verdict →
        verdict.Follows deletes renames rule.selector) :
    ∀ (nodes : List Node) (state : σ),
      (retainNodes visit nodes state).failure = none →
        Edited deletes renames nodes (retainNodes visit nodes state).nodes
  | [], state => fun _ => .nil
  | node :: rest, state => by
      intro succeeded
      simp only [retainNodes] at succeeded ⊢
      split at succeeded
      · cases succeeded
      · rename_i fine
        exact Edited.append
          (edited_of_retainNode follows node state fine)
          (edited_of_retainNodes follows rest _ succeeded)

end

end Walk
end Css
end ComponentPipeline
