import ComponentPipeline.Proofs.Chain.Steps

/-!
# Chains that change nothing

A chain whose stages give their input back without a map gives its content back
without a map.
-/

namespace ComponentPipeline

/-- A stage gives a content back, without a map, whenever it gives anything. -/
def Stage.PassesThrough (stage : Stage) (context : Context) (content : Text) : Prop :=
  ∀ turns result, stage.transformer.run context content = .done turns (.ok result) →
    result.code = content ∧ result.map = none

/-- Every stage of a chain gives a content back. -/
def Chain.PassesThrough (chain : Chain) (input : ChainInput) (content : Text) : Prop :=
  ∀ stage ∈ chain.stages, stage.PassesThrough (input.context chain.language stage) content

theorem passedThrough_of_next
    {progress after : Progress}
    {result : Result}
    {invocation : Invocation}
    (noMapBefore : progress.map = none)
    (noMap : result.map = none)
    (advanced : progress.next result invocation = .ok after) :
    after.code = result.code ∧ after.map = none := by
  unfold Progress.next Progress.nextMap at advanced
  rw [noMap, noMapBefore] at advanced
  cases advanced
  exact ⟨rfl, rfl⟩

theorem passedThrough_of_runStages
    {input : ChainInput}
    {language content : Text}
    {index turn : Nat}
    {progress final : Progress}
    {stages : List Stage}
    (passes : ∀ stage ∈ stages,
      stage.PassesThrough (input.context language stage) content)
    (code : progress.code = content)
    (noMap : progress.map = none)
    (ran : (input.runStages language index turn progress stages).value? =
      some (.ok final)) :
    final.code = content ∧ final.map = none := by
  induction stages generalizing index turn progress with
  | nil =>
      cases ran
      exact ⟨code, noMap⟩
  | cons stage rest ih =>
      obtain ⟨turns, result, after, gave, advanced, ranRest⟩ :=
        exists_steps_of_runStages_cons ran
      rw [code] at gave
      obtain ⟨sameCode, noMapToo⟩ := passes stage List.mem_cons_self turns result gave
      obtain ⟨codeAfter, noMapAfter⟩ := passedThrough_of_next noMap noMapToo advanced
      have restPasses : ∀ stage ∈ rest,
          stage.PassesThrough (input.context language stage) content :=
        fun stage member => passes stage (List.mem_cons_of_mem _ member)
      exact ih restPasses (codeAfter.trans sameCode) noMapAfter ranRest

theorem Chain.passedThrough_of_run
    {chain : Chain}
    {input : ChainInput}
    {content : Text}
    {output : ChainOutput}
    (passes : chain.PassesThrough input content)
    (ran : (chain.run input content).value? = some (.ok output)) :
    output.code = content ∧ output.map = none := by
  unfold Chain.run at ran
  rw [Job.value?_map] at ran
  obtain ⟨final | final, completed, finished⟩ := Option.map_eq_some_iff.mp ran
  · cases finished
  · cases finished
    exact passedThrough_of_runStages passes rfl rfl completed

end ComponentPipeline
