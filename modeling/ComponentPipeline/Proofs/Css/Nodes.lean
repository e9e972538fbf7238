import ComponentPipeline.Css.Printer
import ComponentPipeline.Css.Retain

/-!
# The nodes of a stylesheet in order

The nodes of a tree are listed in the order of its text, a node before those of
its block.  A walk over the rules may take rules away and give others another
selector.  What it cannot change is the frame of a node: its kind, the texts
around its selector and its block, and where it started.  The frames after any
number of walks are some of those before, in their order.
-/

namespace ComponentPipeline
namespace Css

/-! ## Nodes in order -/

mutual

/-- A node and the nodes of its block, in the order of the text. -/
def Node.inOrder : Node → List Node
  | .rule before selector between nodes after start =>
      .rule before selector between nodes after start :: nodesIn nodes
  | .atBlock before head between nodes after start =>
      .atBlock before head between nodes after start :: nodesIn nodes
  | .atStatement before head between start => [.atStatement before head between start]
  | .declaration before text between start => [.declaration before text between start]
  | .comment before text start => [.comment before text start]

/-- Nodes and the nodes of their blocks, in the order of the text. -/
def nodesIn : List Node → List Node
  | [] => []
  | node :: rest => node.inOrder ++ nodesIn rest

end

@[simp] theorem nodesIn_nil : nodesIn [] = [] := by
  rw [nodesIn]

@[simp] theorem nodesIn_cons (node : Node) (rest : List Node) :
    nodesIn (node :: rest) = node.inOrder ++ nodesIn rest := by
  rw [nodesIn]

@[simp] theorem nodesIn_append (first second : List Node) :
    nodesIn (first ++ second) = nodesIn first ++ nodesIn second := by
  induction first with
  | nil => rfl
  | cons node rest ih => simp [ih]

namespace Node

/-- What a walk over the rules leaves of a node: all but the selector and the
block. -/
def frame : Node → Node
  | .rule before _ between _ after start => .rule before [] between [] after start
  | .atBlock before head between _ after start =>
      .atBlock before head between [] after start
  | .atStatement before head between start => .atStatement before head between start
  | .declaration before text between start => .declaration before text between start
  | .comment before text start => .comment before text start

/-- Whether a node has a block. -/
def hasBlock : Node → Bool
  | .rule .. => true
  | .atBlock .. => true
  | _ => false

/-- Whether the text of a node was copied from the parsed text line by line. -/
def isCopied : Node → Bool
  | .declaration .. => true
  | .comment .. => true
  | _ => false

@[simp] theorem start_frame (node : Node) : node.frame.start = node.start := by
  cases node <;> rfl

@[simp] theorem before_frame (node : Node) : node.frame.before = node.before := by
  cases node <;> rfl

/-- A copied node is its own frame, and the frame of no other node. -/
theorem eq_of_frame_eq_of_isCopied
    {node other : Node}
    (same : node.frame = other.frame)
    (copied : node.isCopied = true) :
    other = node := by
  cases node <;> cases other <;> simp_all [frame, isCopied]

end Node

/-- The frames of nodes and of the nodes of their blocks. -/
def framesIn (nodes : List Node) : List Node :=
  (nodesIn nodes).map Node.frame

@[simp] theorem framesIn_nil : framesIn [] = [] := rfl

@[simp] theorem framesIn_append (first second : List Node) :
    framesIn (first ++ second) = framesIn first ++ framesIn second := by
  simp [framesIn]

theorem framesIn_cons (node : Node) (rest : List Node) :
    framesIn (node :: rest) = framesIn [node] ++ framesIn rest := by
  rw [← framesIn_append, List.singleton_append]

theorem framesIn_rule
    (before selector between : Text)
    (nodes : List Node)
    (after : Text)
    (start : Position) :
    framesIn [.rule before selector between nodes after start] =
      .rule before [] between [] after start :: framesIn nodes := by
  simp [framesIn, Node.inOrder, Node.frame]

theorem framesIn_atBlock
    (before head between : Text)
    (nodes : List Node)
    (after : Text)
    (start : Position) :
    framesIn [.atBlock before head between nodes after start] =
      .atBlock before head between [] after start :: framesIn nodes := by
  simp [framesIn, Node.inOrder, Node.frame]

/-! ## Walks keep frames -/

section Walk

variable {ε σ : Type}

mutual

/-- The frames after a walk over a node are some of those before, whether or
not the walk fails. -/
theorem framesIn_retainNode (visit : Visitor ε σ) :
    ∀ (node : Node) (state : σ),
      (framesIn (retainNode visit node state).nodes).Sublist (framesIn [node])
  | .rule before selector between nodes after start, state => by
      rw [retainNode]
      split
      · exact List.Sublist.refl _
      · exact List.nil_sublist _
      · rename_i selector' state' _
        simp only [framesIn_rule]
        exact (framesIn_retainNodes visit nodes state').cons_cons _
  | .atBlock before head between nodes after start, state => by
      rw [retainNode]
      simp only [framesIn_atBlock]
      exact (framesIn_retainNodes visit nodes state).cons_cons _
  | .atStatement before head between start, state => List.Sublist.refl _
  | .declaration before text between start, state => List.Sublist.refl _
  | .comment before text start, state => List.Sublist.refl _

/-- The frames after a walk over nodes are some of those before. -/
theorem framesIn_retainNodes (visit : Visitor ε σ) :
    ∀ (nodes : List Node) (state : σ),
      (framesIn (retainNodes visit nodes state).nodes).Sublist (framesIn nodes)
  | [], state => List.Sublist.refl _
  | node :: rest, state => by
      have first := framesIn_retainNode visit node state
      rw [retainNodes, framesIn_cons node rest]
      split
      · rw [framesIn_append]
        exact first.append (List.Sublist.refl _)
      · rw [framesIn_append]
        exact first.append (framesIn_retainNodes visit rest _)

end

end Walk

/-- One stylesheet comes from another one by walks over its rules, each with a
visitor and a state of its own, whether or not they fail. -/
inductive Stylesheet.AfterWalks (sheet : Stylesheet) : Stylesheet → Prop
  | none : AfterWalks sheet sheet
  | walk {ε σ : Type} {walked : Stylesheet}
      (visit : Visitor ε σ)
      (state : σ)
      (earlier : AfterWalks sheet walked) :
      AfterWalks sheet (walked.retainRules visit state).1

/-- The frames after walks are some of those before, in their order. -/
theorem Stylesheet.AfterWalks.framesIn_sublist
    {sheet walked : Stylesheet}
    (walks : sheet.AfterWalks walked) :
    (framesIn walked.nodes).Sublist (framesIn sheet.nodes) := by
  induction walks with
  | none => exact List.Sublist.refl _
  | walk visit state earlier ih =>
      exact (framesIn_retainNodes visit _ state).trans ih

/-- A node after walks has the frame of a node before. -/
theorem Stylesheet.AfterWalks.exists_of_mem
    {sheet walked : Stylesheet}
    (walks : sheet.AfterWalks walked)
    {node : Node}
    (member : node ∈ nodesIn walked.nodes) :
    ∃ original ∈ nodesIn sheet.nodes, original.frame = node.frame :=
  List.mem_map.mp (walks.framesIn_sublist.subset (List.mem_map_of_mem member))

end Css
end ComponentPipeline
