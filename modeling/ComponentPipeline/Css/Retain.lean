import ComponentPipeline.Css.Tree

/-!
# Walking over the rules of a stylesheet

A walk asks about every rule, parents before children and in the order of the
text, whether it stays and with which selector.  The blocks of at-rules are
walked through, and the block of a dropped rule is not.  The walk carries a
state, and the first failure ends it; the nodes after that stay as they were.
-/

namespace ComponentPipeline
namespace Css

/-- What becomes of a rule. -/
inductive Verdict
  | drop
  | keep (selector : Text)
  deriving DecidableEq, Repr

/-- A decision about one rule, from a state that the walk carries. -/
abbrev Visitor (ε σ : Type) := Rule → σ → Except ε Verdict × σ

/-- What a walk leaves. -/
structure Walked (ε σ : Type) where
  /-- The nodes that stay. -/
  nodes : List Node
  /-- The failure that ended the walk. -/
  failure : Option ε
  /-- The state at the end. -/
  state : σ

variable {ε σ : Type}

mutual

/-- A walk over one node. -/
def retainNode (visit : Visitor ε σ) : Node → σ → Walked ε σ
  | .rule before selector between nodes after start, state =>
      match visit ⟨before, selector, between, nodes, after, start⟩ state with
      | (.error failure, state) =>
          ⟨[.rule before selector between nodes after start], some failure, state⟩
      | (.ok .drop, state) => ⟨[], none, state⟩
      | (.ok (.keep selector), state) =>
          let inner := retainNodes visit nodes state
          ⟨[.rule before selector between inner.nodes after start],
            inner.failure, inner.state⟩
  | .atBlock before head between nodes after start, state =>
      let inner := retainNodes visit nodes state
      ⟨[.atBlock before head between inner.nodes after start],
        inner.failure, inner.state⟩
  | .atStatement before head between start, state =>
      ⟨[.atStatement before head between start], none, state⟩
  | .declaration before text between start, state =>
      ⟨[.declaration before text between start], none, state⟩
  | .comment before text start, state =>
      ⟨[.comment before text start], none, state⟩

/-- A walk over nodes one after another. -/
def retainNodes (visit : Visitor ε σ) : List Node → σ → Walked ε σ
  | [], state => ⟨[], none, state⟩
  | node :: rest, state =>
      let first := retainNode visit node state
      match first.failure with
      | some failure => ⟨first.nodes ++ rest, some failure, first.state⟩
      | none =>
          let others := retainNodes visit rest first.state
          ⟨first.nodes ++ others.nodes, others.failure, others.state⟩

end

namespace Stylesheet

/-- A walk over the rules of a stylesheet: the stylesheet that stays, the
failure that ended the walk, and the state at the end. -/
def retainRules
    (visit : Visitor ε σ)
    (sheet : Stylesheet)
    (state : σ) :
    Stylesheet × Option ε × σ :=
  let walked := retainNodes visit sheet.nodes state
  ({ sheet with nodes := walked.nodes }, walked.failure, walked.state)

end Stylesheet
end Css
end ComponentPipeline
