import ComponentPipeline.Proofs.Chain.Steps
import ComponentPipeline.Proofs.Path.ListedOnce

/-!
# Chains in sequence

A chain of stages that give no maps is a sequence of shorter chains.  It succeeds
if its first part succeeds on the content and its second part on what the first
one gives, and then the files that both report are listed once each.  A failure
of a stage is reported under the place of the stage in the whole chain, unless it
is one that is reported as it is.
-/

namespace ComponentPipeline

/-! ## Stages one after another -/

/-- A stage gives no map, whatever it is run on. -/
def Stage.GivesNoMap (stage : Stage) : Prop :=
  ∀ context content turns result,
    stage.transformer.run context content = .done turns (.ok result) → result.map = none

/-- Stages that succeed one after another, with the text that the last one gives
and the files that they report.  All of them are told the same file, language,
attributes and directory, and each its own options. -/
inductive StagesRun (input : ChainInput) (language : Text) :
    Text → List Stage → Text → List Path → Prop
  | nil {content} : StagesRun input language content [] content []
  | cons {content stage rest turns result code dependencies}
      (gave : stage.transformer.run
        ⟨language, input.filename, stage.options, input.attributes, input.sourceMap,
          input.projectRoot⟩ content = .done turns (.ok result))
      (later : StagesRun input language result.code rest code dependencies) :
      StagesRun input language content (stage :: rest) code
        (result.dependencies ++ dependencies)

/-- Stages of which the one at a place fails after those before it have
succeeded. -/
inductive StagesFail (input : ChainInput) (language : Text) :
    Text → List Stage → Nat → Stage → Failure → Prop
  | here {content stage rest turns failure}
      (failed : stage.transformer.run
        ⟨language, input.filename, stage.options, input.attributes, input.sourceMap,
          input.projectRoot⟩ content = .done turns (.error failure)) :
      StagesFail input language content (stage :: rest) 0 stage failure
  | later {content stage rest turns result place failing failure}
      (gave : stage.transformer.run
        ⟨language, input.filename, stage.options, input.attributes, input.sourceMap,
          input.projectRoot⟩ content = .done turns (.ok result))
      (fails : StagesFail input language result.code rest place failing failure) :
      StagesFail input language content (stage :: rest) (place + 1) failing failure

section Stages

variable {input : ChainInput} {language content : Text} {first second : List Stage}

theorem stagesRun_append_iff {code : Text} {dependencies : List Path} :
    StagesRun input language content (first ++ second) code dependencies ↔
      ∃ between before after, StagesRun input language content first between before ∧
        StagesRun input language between second code after ∧
        dependencies = before ++ after := by
  constructor
  · intro ran
    induction first generalizing content dependencies with
    | nil => exact ⟨content, [], dependencies, .nil, ran, rfl⟩
    | cons stage rest ih =>
        cases ran with
        | cons gave later =>
            obtain ⟨between, before, after, ranFirst, ranSecond, rfl⟩ := ih later
            exact ⟨between, _, after, .cons gave ranFirst, ranSecond,
              (List.append_assoc _ _ _).symm⟩
  · rintro ⟨between, before, after, ranFirst, ranSecond, rfl⟩
    induction ranFirst with
    | nil => exact ranSecond
    | cons gave _ ih =>
        rw [List.append_assoc]
        exact .cons gave (ih ranSecond)

theorem StagesFail.append
    {place : Nat}
    {stage : Stage}
    {failure : Failure}
    (fails : StagesFail input language content first place stage failure)
    (second : List Stage) :
    StagesFail input language content (first ++ second) place stage failure := by
  induction fails with
  | here failed => exact .here failed
  | later gave _ ih => exact .later gave ih

theorem StagesRun.append_fail
    {code : Text}
    {dependencies : List Path}
    {place : Nat}
    {stage : Stage}
    {failure : Failure}
    (ran : StagesRun input language content first code dependencies)
    (fails : StagesFail input language code second place stage failure) :
    StagesFail input language content (first ++ second) (first.length + place) stage
      failure := by
  induction ran with
  | nil => rwa [List.length_nil, Nat.zero_add]
  | cons gave _ ih =>
      rw [List.length_cons, Nat.add_right_comm]
      exact .later gave (ih fails)

end Stages

/-! ## Runs of chains without maps -/

section Run

variable {input : ChainInput} {language : Text} {stages : List Stage}

/-- The progress after a stage that gave no map, when there was none before. -/
def Progress.withoutMap
    (progress : Progress)
    (result : Result)
    (invocation : Invocation) :
    Progress where
  code := result.code
  map := none
  dependencies := progress.dependencies ++ result.dependencies
  invocations := progress.invocations ++ [invocation]

theorem next_of_noMap
    {progress : Progress}
    {result : Result}
    (before : progress.map = none)
    (noMap : result.map = none)
    (invocation : Invocation) :
    progress.next result invocation = .ok (progress.withoutMap result invocation) := by
  simp only [Progress.next, Progress.nextMap, before, noMap, Progress.withoutMap]

/-- Stages that succeed come to the end of a run. -/
theorem exists_runStages_of_stagesRun
    {content code : Text}
    {dependencies : List Path}
    (noMaps : ∀ stage ∈ stages, stage.GivesNoMap)
    (ran : StagesRun input language content stages code dependencies)
    (index turn : Nat)
    (progress : Progress)
    (isContent : progress.code = content)
    (noMap : progress.map = none) :
    ∃ final, (input.runStages language index turn progress stages).value? =
        some (.ok final) ∧
      final.code = code ∧ final.map = none ∧
        final.dependencies = progress.dependencies ++ dependencies := by
  induction ran generalizing index turn progress with
  | nil => exact ⟨progress, rfl, isContent, noMap, (List.append_nil _).symm⟩
  | @cons content stage rest turns result code dependencies gave later ih =>
      subst isContent
      obtain ⟨final, run, isCode, finalNoMap, reported⟩ :=
        ih (fun other member => noMaps other (List.mem_cons_of_mem _ member))
          (index + 1) (turn + turns)
          (progress.withoutMap result
            ⟨stage, input.context language stage, progress.code, turn + turns⟩) rfl rfl
      refine ⟨final, ?_, isCode, finalNoMap, ?_⟩
      · rw [ChainInput.runStages]
        simp only [ChainInput.context, gave,
          next_of_noMap noMap (noMaps stage List.mem_cons_self _ _ _ _ gave)] at run ⊢
        exact run
      · rw [reported, Progress.withoutMap, List.append_assoc]

/-- Stages of which one fails end a run with its failure. -/
theorem runStages_of_stagesFail
    {content : Text}
    {place : Nat}
    {failing : Stage}
    {failure : Failure}
    (noMaps : ∀ stage ∈ stages, stage.GivesNoMap)
    (fails : StagesFail input language content stages place failing failure)
    (index turn : Nat)
    (progress : Progress)
    (isContent : progress.code = content)
    (noMap : progress.map = none) :
    (input.runStages language index turn progress stages).value? =
      some (.error (input.stageError language (index + place) failing failure)) := by
  induction fails generalizing index turn progress with
  | here failed =>
      subst isContent
      rw [ChainInput.runStages]
      simp only [ChainInput.context, failed]
      rfl
  | @later content stage rest turns result place failing failure gave fails ih =>
      subst isContent
      have run := ih (fun other member => noMaps other (List.mem_cons_of_mem _ member))
        (index + 1) (turn + turns)
        (progress.withoutMap result
          ⟨stage, input.context language stage, progress.code, turn + turns⟩) rfl rfl
      rw [ChainInput.runStages]
      simp only [ChainInput.context, gave,
        next_of_noMap noMap (noMaps stage List.mem_cons_self _ _ _ _ gave)] at run ⊢
      rw [run, Nat.add_right_comm, Nat.add_assoc]

/-- What a run comes to is what its stages come to one after another. -/
theorem stages_of_runStages
    (noMaps : ∀ stage ∈ stages, stage.GivesNoMap)
    {index turn : Nat}
    {progress : Progress}
    (noMap : progress.map = none)
    {result : Except ComponentError Progress}
    (ran : (input.runStages language index turn progress stages).value? = some result) :
    (∃ code dependencies,
      StagesRun input language progress.code stages code dependencies) ∨
      ∃ place stage failure,
        StagesFail input language progress.code stages place stage failure := by
  induction stages generalizing index turn progress with
  | nil => exact .inl ⟨_, _, .nil⟩
  | cons stage rest ih =>
      simp only [ChainInput.runStages] at ran
      split at ran
      · cases ran
      · cases ran
      · rename_i failure failed
        exact .inr ⟨_, _, _, .here failed⟩
      · rename_i turns given gave
        rw [next_of_noMap noMap (noMaps stage List.mem_cons_self _ _ _ _ gave)] at ran
        rcases ih (fun other member => noMaps other (List.mem_cons_of_mem _ member)) rfl ran with
          ⟨code, dependencies, later⟩ | ⟨place, failing, failure, later⟩
        · exact .inl ⟨_, _, .cons gave later⟩
        · exact .inr ⟨_, _, _, .later gave later⟩

/-- The invocations of a run are those of its stages in order, each told the
same and its own options. -/
theorem invocations_of_runStages
    {index turn : Nat}
    {progress final : Progress}
    (ran : (input.runStages language index turn progress stages).value? = some (.ok final)) :
    (final.invocations.map fun invocation => (invocation.stage, invocation.context)) =
      (progress.invocations.map fun invocation => (invocation.stage, invocation.context)) ++
        stages.map fun stage => (stage, input.context language stage) := by
  induction stages generalizing index turn progress with
  | nil =>
      cases ran
      exact (List.append_nil _).symm
  | cons stage rest ih =>
      obtain ⟨turns, result, after, -, advanced, ranRest⟩ :=
        exists_steps_of_runStages_cons ran
      obtain ⟨-, -, invoked⟩ := Progress.fields_of_next advanced
      rw [ih ranRest, invoked, List.map_append, List.append_assoc]
      rfl

/-- What the stages of a chain come to on a content, if they are ever done. -/
def ChainInput.outcome?
    (input : ChainInput)
    (language : Text)
    (stages : List Stage)
    (content : Text) :
    Option (Except ComponentError ChainOutput) :=
  ((⟨language, stages⟩ : Chain).run input content).value?

theorem outcome?_eq (content : Text) :
    input.outcome? language stages content =
      (input.runStages language 0 0 (.ofContent content) stages).value?.map
        fun result => result.map Progress.output :=
  Job.value?_map _ _

theorem outcome?_of_stagesRun
    {content code : Text}
    {dependencies : List Path}
    (noMaps : ∀ stage ∈ stages, stage.GivesNoMap)
    (ran : StagesRun input language content stages code dependencies) :
    ∃ output, input.outcome? language stages content = some (.ok output) ∧
      output.code = code ∧ output.map = none ∧
        output.dependencies = distinctPaths dependencies ∧
        (output.invocations.map fun invocation => (invocation.stage, invocation.context)) =
          stages.map fun stage => (stage, input.context language stage) := by
  obtain ⟨final, run, isCode, noMap, reported⟩ :=
    exists_runStages_of_stagesRun noMaps ran 0 0 (.ofContent content) rfl rfl
  refine ⟨final.output, ?_, isCode, noMap, congrArg distinctPaths reported,
    invocations_of_runStages run⟩
  rw [outcome?_eq, run]
  rfl

theorem outcome?_of_stagesFail
    {content : Text}
    {place : Nat}
    {failing : Stage}
    {failure : Failure}
    (noMaps : ∀ stage ∈ stages, stage.GivesNoMap)
    (fails : StagesFail input language content stages place failing failure) :
    input.outcome? language stages content =
      some (.error (input.stageError language place failing failure)) := by
  have run := runStages_of_stagesFail noMaps fails 0 0 (.ofContent content) rfl rfl
  rw [outcome?_eq, run, Nat.zero_add]
  rfl

/-- Stages without maps that come to an output have all succeeded. -/
theorem exists_stagesRun_of_outcome?
    {content : Text}
    {output : ChainOutput}
    (noMaps : ∀ stage ∈ stages, stage.GivesNoMap)
    (succeeded : input.outcome? language stages content = some (.ok output)) :
    ∃ dependencies, StagesRun input language content stages output.code dependencies ∧
      output.dependencies = distinctPaths dependencies := by
  have ended := succeeded
  rw [outcome?_eq] at ended
  obtain ⟨result, ran, -⟩ := Option.map_eq_some_iff.mp ended
  rcases stages_of_runStages noMaps rfl ran with
    ⟨code, dependencies, run⟩ | ⟨place, failing, failure, fails⟩
  · obtain ⟨outputToo, succeededToo, rfl, -, reported, -⟩ := outcome?_of_stagesRun noMaps run
    cases succeededToo.symm.trans succeeded
    exact ⟨dependencies, run, reported⟩
  · cases (outcome?_of_stagesFail noMaps fails).symm.trans succeeded

/-- Stages without maps that come to an error have failed at one of them. -/
theorem exists_stagesFail_of_outcome?
    {content : Text}
    {error : ComponentError}
    (noMaps : ∀ stage ∈ stages, stage.GivesNoMap)
    (failed : input.outcome? language stages content = some (.error error)) :
    ∃ place stage failure, StagesFail input language content stages place stage failure ∧
      error = input.stageError language place stage failure := by
  have ended := failed
  rw [outcome?_eq] at ended
  obtain ⟨result, ran, -⟩ := Option.map_eq_some_iff.mp ended
  rcases stages_of_runStages noMaps rfl ran with
    ⟨code, dependencies, run⟩ | ⟨place, failing, failure, fails⟩
  · obtain ⟨output, succeeded, -⟩ := outcome?_of_stagesRun noMaps run
    cases succeeded.symm.trans failed
  · cases (outcome?_of_stagesFail noMaps fails).symm.trans failed
    exact ⟨place, failing, failure, fails, rfl⟩

end Run

/-! ## The law of sequences -/

/-- Two chains without maps that succeed one after the other succeed as one. -/
theorem exists_outcome?_append
    {input : ChainInput}
    {language content : Text}
    {first second : List Stage}
    (noMaps : ∀ stage ∈ first ++ second, stage.GivesNoMap)
    {between last : ChainOutput}
    (toBetween : input.outcome? language first content = some (.ok between))
    (toLast : input.outcome? language second between.code = some (.ok last)) :
    ∃ output, input.outcome? language (first ++ second) content = some (.ok output) ∧
      output.code = last.code ∧ output.map = none ∧
        output.dependencies = distinctPaths (between.dependencies ++ last.dependencies) ∧
        (output.invocations.map fun invocation => (invocation.stage, invocation.context)) =
          (first ++ second).map fun stage => (stage, input.context language stage) := by
  obtain ⟨before, ranFirst, reportedFirst⟩ := exists_stagesRun_of_outcome?
    (fun stage member => noMaps stage (List.mem_append_left _ member)) toBetween
  obtain ⟨after, ranSecond, reportedSecond⟩ := exists_stagesRun_of_outcome?
    (fun stage member => noMaps stage (List.mem_append_right _ member)) toLast
  obtain ⟨output, succeeded, isCode, noMap, reported, told⟩ := outcome?_of_stagesRun noMaps
    (stagesRun_append_iff.mpr ⟨_, before, after, ranFirst, ranSecond, rfl⟩)
  refine ⟨output, succeeded, isCode, noMap, ?_, told⟩
  rw [reported, reportedFirst, reportedSecond, distinctPaths_append]

/-- The outcome of a chain without maps that is put together from two.  It
succeeds if its first part succeeds on the content and its second part on what
the first one gives, and then every stage was told the same and its own options.
It fails as its first part fails, or as its second part fails after the first
one has succeeded: with an error that is reported as it is, or else with one
that names the place of the failing stage in the whole chain. -/
theorem ChainInput.outcome_of_append
    (input : ChainInput)
    (language content : Text)
    (first second : List Stage)
    (noMaps : ∀ stage ∈ first ++ second, stage.GivesNoMap) :
    ((∃ output, input.outcome? language (first ++ second) content = some (.ok output)) ↔
      ∃ between, input.outcome? language first content = some (.ok between) ∧
        ∃ last, input.outcome? language second between.code = some (.ok last)) ∧
    (∀ between last output,
      input.outcome? language first content = some (.ok between) →
      input.outcome? language second between.code = some (.ok last) →
      input.outcome? language (first ++ second) content = some (.ok output) →
        output.code = last.code ∧ output.map = none ∧
          output.dependencies = distinctPaths (between.dependencies ++ last.dependencies) ∧
          (output.invocations.map fun invocation => (invocation.stage, invocation.context)) =
            (first ++ second).map fun stage =>
              (stage, ⟨language, input.filename, stage.options, input.attributes,
                input.sourceMap, input.projectRoot⟩)) ∧
    (∀ error, input.outcome? language first content = some (.error error) →
      input.outcome? language (first ++ second) content = some (.error error)) ∧
    (∀ between error,
      input.outcome? language first content = some (.ok between) →
      input.outcome? language second between.code = some (.error error) →
        ∃ place stage failure,
          StagesFail input language between.code second place stage failure ∧
          ((failure = .known error ∧
              input.outcome? language (first ++ second) content = some (.error error)) ∨
            ∃ cause, (∀ known, failure ≠ .known known) ∧
              error = .transformerFailure language input.filename place
                stage.transformer.name cause ∧
              input.outcome? language (first ++ second) content =
                some (.error (.transformerFailure language input.filename
                  (first.length + place) stage.transformer.name cause)))) ∧
    (∀ error, input.outcome? language (first ++ second) content = some (.error error) →
      ∃ place stage failure,
        StagesFail input language content (first ++ second) place stage failure ∧
          error = input.stageError language place stage failure) := by
  have noMapsFirst : ∀ stage ∈ first, stage.GivesNoMap :=
    fun stage member => noMaps stage (List.mem_append_left _ member)
  have noMapsSecond : ∀ stage ∈ second, stage.GivesNoMap :=
    fun stage member => noMaps stage (List.mem_append_right _ member)
  refine ⟨⟨?_, ?_⟩, ?_, ?_, ?_, fun error => exists_stagesFail_of_outcome? noMaps⟩
  · rintro ⟨output, succeeded⟩
    obtain ⟨dependencies, ran, -⟩ := exists_stagesRun_of_outcome? noMaps succeeded
    obtain ⟨code, before, after, ranFirst, ranSecond, -⟩ := stagesRun_append_iff.mp ran
    obtain ⟨between, toBetween, rfl, -⟩ := outcome?_of_stagesRun noMapsFirst ranFirst
    obtain ⟨last, toLast, -⟩ := outcome?_of_stagesRun noMapsSecond ranSecond
    exact ⟨between, toBetween, last, toLast⟩
  · rintro ⟨between, toBetween, last, toLast⟩
    obtain ⟨output, succeeded, -⟩ := exists_outcome?_append noMaps toBetween toLast
    exact ⟨output, succeeded⟩
  · intro between last output toBetween toLast succeeded
    obtain ⟨whole, succeededToo, facts⟩ := exists_outcome?_append noMaps toBetween toLast
    cases succeededToo.symm.trans succeeded
    exact facts
  · intro error failed
    obtain ⟨place, stage, failure, fails, rfl⟩ :=
      exists_stagesFail_of_outcome? noMapsFirst failed
    exact outcome?_of_stagesFail noMaps (fails.append second)
  · intro between error toBetween failed
    obtain ⟨before, ranFirst, -⟩ := exists_stagesRun_of_outcome? noMapsFirst toBetween
    obtain ⟨place, stage, failure, fails, rfl⟩ :=
      exists_stagesFail_of_outcome? noMapsSecond failed
    have whole := outcome?_of_stagesFail noMaps (ranFirst.append_fail fails)
    refine ⟨place, stage, failure, fails, ?_⟩
    cases failure with
    | known error => exact .inl ⟨rfl, whole⟩
    | unreadable error => exact .inr ⟨error.message, by simp, rfl, whole⟩
    | other message => exact .inr ⟨message, by simp, rfl, whole⟩

/-- A stage that puts a text after its content and reports files. -/
def appending (added : Text) (dependencies : List Path) : Stage :=
  ⟨"append", .supplied "append" fun _ content =>
    .now (.ok ⟨content ++ added, none, dependencies⟩), []⟩

/-- A stage that fails. -/
def refusing (failure : Failure) : Stage :=
  ⟨"refuse", .supplied "refuse" fun _ _ => .now (.error failure), []⟩

theorem givesNoMap_appending (added : Text) (dependencies : List Path) :
    (appending added dependencies).GivesNoMap := by
  intro context content turns result gave
  cases gave
  rfl

theorem givesNoMap_refusing (failure : Failure) : (refusing failure).GivesNoMap := by
  intro context content turns result gave
  cases gave

/-- A block of a component without attributes. -/
def sampleInput : ChainInput := ⟨"/app/App.svelte", [], true, "/app"⟩

/-- Two stages of which the second reports a file under another spelling, and a
chain whose third stage fails. -/
theorem ChainInput.outcome_of_append_sampleInput :
    (∃ output, sampleInput.outcome? "css"
        ([appending "b" ["/app/a"]] ++ [appending "c" ["/app/./a", "/app/d"]]) "a" =
          some (.ok output) ∧
        output.code = ("abc" : Text) ∧
        output.dependencies = (["/app/a", "/app/d"] : List Path)) ∧
      sampleInput.outcome? "css"
          ([appending "b" []] ++ [appending "c" [], refusing (.other "no")]) "a" =
        some (.error (.transformerFailure "css" "/app/App.svelte" 2 "refuse" "no")) := by
  constructor
  · obtain ⟨⟨-, succeeds⟩, gives, -⟩ :=
      ChainInput.outcome_of_append sampleInput "css" "a"
        [appending "b" ["/app/a"]] [appending "c" ["/app/./a", "/app/d"]] (by
          simp only [List.cons_append, List.nil_append, List.forall_mem_cons]
          exact ⟨givesNoMap_appending _ _, givesNoMap_appending _ _, by simp⟩)
    obtain ⟨output, succeeded⟩ := succeeds ⟨_, rfl, _, rfl⟩
    obtain ⟨isCode, -, reported, -⟩ := gives _ _ output rfl rfl succeeded
    exact ⟨output, succeeded, isCode, reported.trans (by decide)⟩
  · obtain ⟨-, -, -, fails, -⟩ :=
      ChainInput.outcome_of_append sampleInput "css" "a"
        [appending "b" []] [appending "c" [], refusing (.other "no")] (by
          simp only [List.cons_append, List.nil_append, List.forall_mem_cons]
          exact ⟨givesNoMap_appending _ _, givesNoMap_appending _ _,
            givesNoMap_refusing _, by simp⟩)
    obtain ⟨place, stage, failure, failed, ⟨known, -⟩ | ⟨cause, -, same, whole⟩⟩ :=
      fails _ _ rfl rfl
    · -- The stages give no failure that is reported as it is.
      subst known
      cases failed with
      | here failed => cases failed
      | later gave failed =>
          cases failed with
          | here failed => cases failed
          | later gave _ => cases gave
    · obtain ⟨-, -, rfl, isName, rfl⟩ := ComponentError.transformerFailure.inj same
      rw [whole, ← isName]
      rfl

end ComponentPipeline
