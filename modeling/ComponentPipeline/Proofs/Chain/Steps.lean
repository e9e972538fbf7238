import ComponentPipeline.Chain.Run
import ComponentPipeline.Document.Outcome

/-!
# The steps of a chain

What a chain comes to is told stage by stage: what the first stage comes to, and
then what the others come to after it.
-/

namespace ComponentPipeline

/-- What a stage adds to the progress of a run, apart from its map. -/
theorem Progress.fields_of_next
    {progress after : Progress}
    {result : Result}
    {invocation : Invocation}
    (advanced : progress.next result invocation = .ok after) :
    after.code = result.code ∧
      after.dependencies = progress.dependencies ++ result.dependencies ∧
        after.invocations = progress.invocations ++ [invocation] := by
  unfold Progress.next at advanced
  split at advanced
  · cases advanced
  · cases advanced
    exact ⟨rfl, rfl, rfl⟩

section Stages

variable {input : ChainInput} {language : Text} {index turn : Nat} {progress : Progress}
variable {stage : Stage} {rest : List Stage}

/-- Stages come to their end only if the first one gives a result and the others come to
their end after it. -/
theorem exists_steps_of_runStages_cons
    {final : Progress}
    (ran : (input.runStages language index turn progress (stage :: rest)).value? =
      some (.ok final)) :
    ∃ turns result after,
      stage.transformer.run (input.context language stage) progress.code =
          .done turns (.ok result) ∧
        progress.next result ⟨stage, input.context language stage, progress.code,
          turn + turns⟩ = .ok after ∧
        (input.runStages language (index + 1) (turn + turns) after rest).value? =
          some (.ok final) := by
  simp only [ChainInput.runStages] at ran
  split at ran
  · cases ran
  · cases ran
  · cases ran
  · rename_i turns result gave
    split at ran
    · cases ran
    · rename_i after advanced
      exact ⟨turns, result, after, gave, advanced, ran⟩

/-- What stages come to depends on what the first one comes to. -/
theorem ofJob_runStages_cons (caught : Option Text → Option ComponentError) :
    Outcome.ofJob caught (input.runStages language index turn progress (stage :: rest)) =
      match stage.transformer.run (input.context language stage) progress.code with
      | .never => .pending
      | .panicked turns message => Outcome.ofJob caught (.panicked turns message)
      | .done _ (.error failure) => .failed (input.stageError language index stage failure)
      | .done turns (.ok result) =>
          Outcome.ofExcept (progress.next result
              ⟨stage, input.context language stage, progress.code, turn + turns⟩) >>=
            fun progress =>
              Outcome.ofJob caught
                (input.runStages language (index + 1) (turn + turns) progress rest) := by
  rw [ChainInput.runStages]
  simp only
  cases stage.transformer.run (input.context language stage) progress.code with
  | never => rfl
  | panicked turns message => rfl
  | done turns result =>
      cases result with
      | error failure => rfl
      | ok result =>
          simp only
          generalize progress.next result _ = advanced
          cases advanced <;> rfl

end Stages

end ComponentPipeline
