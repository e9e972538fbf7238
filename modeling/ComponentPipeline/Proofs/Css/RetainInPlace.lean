import ComponentPipeline.Css.Retain

/-!
# Walks in place

A walk over the rules can also be made in one list of nodes that changes on the way.
An index goes through the list: a node that stays is put back at the index, a dropped
rule is taken out, and the list closes up behind it.  So the index moves on after a node
that stays, and after a dropped rule it already stands at the next node.  No node is
left out and none is met twice.
-/

namespace ComponentPipeline
namespace Css

variable {ε σ : Type}

/-- What is behind an entry comes to stand in its place when it is taken out. -/
theorem drop_eraseIdx_of_lt
    {α : Type}
    {entries : List α}
    {index : Nat}
    (inside : index < entries.length) :
    (entries.eraseIdx index).drop index = entries.drop (index + 1) := by
  rw [List.eraseIdx_eq_take_drop_succ, List.drop_left' (by simp; omega)]

/-- A walk in place over the nodes of a block, from an index on. -/
def sweepFrom
    (visit : Visitor ε σ)
    (nodes : List Node)
    (index : Nat)
    (state : σ) :
    Walked ε σ :=
  if inside : index < nodes.length then
    match here : nodes[index] with
    | .rule before selector between children after start =>
        match visit ⟨before, selector, between, children, after, start⟩ state with
        | (.error failure, state) => ⟨nodes, some failure, state⟩
        | (.ok .drop, state) => sweepFrom visit (nodes.eraseIdx index) index state
        | (.ok (.keep selector), state) =>
            let inner := sweepFrom visit children 0 state
            let swept :=
              nodes.set index (.rule before selector between inner.nodes after start)
            match inner.failure with
            | some failure => ⟨swept, some failure, inner.state⟩
            | none => sweepFrom visit swept (index + 1) inner.state
    | .atBlock before head between children after start =>
        let inner := sweepFrom visit children 0 state
        let swept := nodes.set index (.atBlock before head between inner.nodes after start)
        match inner.failure with
        | some failure => ⟨swept, some failure, inner.state⟩
        | none => sweepFrom visit swept (index + 1) inner.state
    | .atStatement .. => sweepFrom visit nodes (index + 1) state
    | .declaration .. => sweepFrom visit nodes (index + 1) state
    | .comment .. => sweepFrom visit nodes (index + 1) state
  else ⟨nodes, none, state⟩
termination_by sizeOf (nodes.drop index)
decreasing_by
  all_goals
    have behind := List.drop_eq_getElem_cons inside
    rw [here] at behind
    simp only [drop_eraseIdx_of_lt inside, List.drop_set, Nat.lt_succ_self, if_true,
      List.drop_zero, behind, List.cons.sizeOf_spec, Node.rule.sizeOf_spec,
      Node.atBlock.sizeOf_spec]
    omega

/-- A walk in place over the rules of a stylesheet. -/
def Stylesheet.sweepRules
    (visit : Visitor ε σ)
    (sheet : Stylesheet)
    (state : σ) :
    Stylesheet × Option ε × σ :=
  let swept := sweepFrom visit sheet.nodes 0 state
  ({ sheet with nodes := swept.nodes }, swept.failure, swept.state)

theorem sweepFrom_length
    (visit : Visitor ε σ)
    (done : List Node)
    (state : σ) :
    sweepFrom visit done done.length state = ⟨done, none, state⟩ := by
  rw [sweepFrom, dif_neg (Nat.lt_irrefl _)]

/-- From an index on, a walk in place does what a walk over the nodes behind the index
does, and the nodes in front of it stay as they are. -/
theorem sweepFrom_append
    (visit : Visitor ε σ)
    (done nodes : List Node)
    (state : σ) :
    sweepFrom visit (done ++ nodes) done.length state =
      ⟨done ++ (retainNodes visit nodes state).nodes, (retainNodes visit nodes state).failure,
        (retainNodes visit nodes state).state⟩ := by
  match nodes with
  | [] => rw [List.append_nil, sweepFrom_length, retainNodes, List.append_nil]
  | node :: rest =>
      have inside : done.length < (done ++ node :: rest).length := by simp
      have onward (walked : Node) (state : σ) :
          sweepFrom visit (done ++ walked :: rest) (done.length + 1) state =
            ⟨done ++ walked :: (retainNodes visit rest state).nodes,
              (retainNodes visit rest state).failure,
              (retainNodes visit rest state).state⟩ := by
        simpa using sweepFrom_append visit (done ++ [walked]) rest state
      have found : (done ++ node :: rest)[done.length] = node := by simp
      rw [sweepFrom, dif_pos inside, retainNodes]
      split
      · rename_i before selector between children after start here
        have smaller : sizeOf children < sizeOf node := by simp [found.symm.trans here]; omega
        obtain rfl := found.symm.trans here
        rw [retainNode]
        rcases visit ⟨before, selector, between, children, after, start⟩ state with
          ⟨failure | verdict, next⟩
        · rfl
        cases verdict with
        | drop =>
            simp only [List.eraseIdx_append_of_length_le (Nat.le_refl _), Nat.sub_self,
              List.eraseIdx_cons_zero, sweepFrom_append visit done rest]
            rfl
        | keep kept =>
            have walked := sweepFrom_append visit [] children next
            simp only [List.nil_append, List.length_nil] at walked
            simp only [walked, List.set_append_right _ _ (Nat.le_refl _), Nat.sub_self,
              List.set_cons_zero]
            cases (retainNodes visit children next).failure with
            | some failure => rfl
            | none => exact onward _ _
      · rename_i before head between children after start here
        have smaller : sizeOf children < sizeOf node := by simp [found.symm.trans here]; omega
        obtain rfl := found.symm.trans here
        have walked := sweepFrom_append visit [] children state
        simp only [List.nil_append, List.length_nil] at walked
        simp only [retainNode, walked, List.set_append_right _ _ (Nat.le_refl _), Nat.sub_self,
          List.set_cons_zero]
        cases (retainNodes visit children state).failure with
        | some failure => rfl
        | none => exact onward _ _
      all_goals
        rename_i here
        obtain rfl := found.symm.trans here
        rw [retainNode]
        exact onward _ _
termination_by sizeOf nodes

/-- A walk in place is a walk. -/
theorem Stylesheet.sweepRules_eq_retainRules
    (visit : Visitor ε σ)
    (sheet : Stylesheet)
    (state : σ) :
    sheet.sweepRules visit state = sheet.retainRules visit state := by
  have walked := sweepFrom_append visit [] sheet.nodes state
  simp only [List.nil_append, List.length_nil] at walked
  rw [Stylesheet.sweepRules, Stylesheet.retainRules, walked]

end Css
end ComponentPipeline
