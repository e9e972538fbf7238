import ComponentPipeline.Css.Printer
import ComponentPipeline.Proofs.Chain.Steps
import ComponentPipeline.Proofs.Document.BlockWork
import ComponentPipeline.Proofs.Document.ChainedMaps
import ComponentPipeline.Proofs.SourceMap.Leads

/-!
# Blocks that keep their contents

A chain whose stages all give a content back gives it back as a whole, and a
block of such a content is processed to what it is.  The maps that come up on the
way have all they refer to, so nothing fails when they are asked for.
-/

namespace ComponentPipeline

/-! ## Maps of contents that stay -/

theorem complete_ofLines (projectRoot source content : Text) :
    (SourceMap.ofLines projectRoot source content).Complete :=
  SourceMap.complete_addAll_ofSource _ _ _ fun mapping member =>
    (leads_ofLines projectRoot source content mapping member).imp fun _ leads => leads.1

theorem Css.exists_place_of_mem_mappingsFrom
    {source : Nat}
    {cursor : Location}
    {pieces : List Css.Piece}
    {mapping : Mapping}
    (member : mapping ∈ Css.mappingsFrom source cursor pieces) :
    ∃ location, mapping.place = some ⟨source, location, none⟩ := by
  induction pieces generalizing cursor with
  | nil => cases member
  | cons piece rest ih =>
      simp only [Css.mappingsFrom] at member
      split at member
      · exact ih member
      · rcases List.mem_cons.mp member with rfl | later
        · exact ⟨_, rfl⟩
        · exact ih later

theorem Css.Stylesheet.complete_sourceMap
    (sheet : Css.Stylesheet)
    (source content projectRoot : Text) :
    (sheet.sourceMap source content projectRoot).Complete :=
  SourceMap.complete_addAll_ofSource _ _ _ fun _ member =>
    Css.exists_place_of_mem_mappingsFrom member

/-- A content that is not moved by its preparation has a map that has all it
refers to, whether or not its chain gave one. -/
theorem exists_blockMap
    {map : Option SourceMap}
    (complete : ∀ given, map = some given → given.Complete)
    {prepared : Prepared}
    (notShifted : prepared.isShifted = false)
    (content : Text)
    (filename projectRoot : Path) :
    ∃ made, blockMap map prepared content filename projectRoot = .ok made ∧
      made.Complete := by
  unfold blockMap
  rw [notShifted]
  cases map with
  | none => exact ⟨_, rfl, complete_ofLines _ _ _⟩
  | some given => exact ⟨given, rfl, complete given rfl⟩

/-! ## Chains that leave a content alone -/

/-- A stage gives a content back without files, and without a map or with one
that has all it refers to. -/
def Stage.Leaves (stage : Stage) (context : Context) (content : Text) : Prop :=
  ∃ turns map, stage.transformer.run context content = .done turns (.ok ⟨content, map, []⟩) ∧
    ∀ given, map = some given → given.Complete

section Chain

variable {input : ChainInput} {content : Text}

/-- Stages that leave a content alone come to its end with it. -/
theorem exists_runStages_of_leaves
    {language : Text}
    {stages : List Stage}
    (leaves : ∀ stage ∈ stages, stage.Leaves (input.context language stage) content)
    (index turn : Nat)
    (progress : Progress)
    (isContent : progress.code = content)
    (noFiles : progress.dependencies = [])
    (complete : progress.HasCompleteMap) :
    ∃ final,
      (input.runStages language index turn progress stages).value? = some (.ok final) ∧
        final.code = content ∧ final.dependencies = [] ∧ final.HasCompleteMap := by
  induction stages generalizing index turn progress with
  | nil => exact ⟨progress, rfl, isContent, noFiles, complete⟩
  | cons stage rest ih =>
      obtain ⟨turns, map, gave, mapComplete⟩ := leaves stage List.mem_cons_self
      have given : ∀ later, (⟨content, map, []⟩ : Result).map = some later →
          later.Complete := mapComplete
      obtain ⟨after, advanced, afterComplete, -⟩ := exists_next complete given
        ⟨stage, input.context language stage, progress.code, turn + turns⟩
      obtain ⟨code, files, -⟩ := Progress.fields_of_next advanced
      rw [noFiles] at files
      have further := ih (fun other member => leaves other (List.mem_cons_of_mem _ member))
        (index + 1) (turn + turns) after code files afterComplete
      rw [ChainInput.runStages, isContent]
      rw [isContent] at advanced
      simp only [gave, advanced]
      exact further

/-- A chain of stages that leave a content alone gives it back. -/
theorem Chain.exists_run_of_leaves
    {chain : Chain}
    (leaves : ∀ stage ∈ chain.stages,
      stage.Leaves (input.context chain.language stage) content) :
    ∃ output, (chain.run input content).value? = some (.ok output) ∧
      output.code = content ∧ output.dependencies = [] ∧
        ∀ map, output.map = some map → map.Complete := by
  obtain ⟨final, ran, code, noFiles, complete⟩ := exists_runStages_of_leaves leaves 0 0
    (.ofContent content) rfl rfl (by rintro _ ⟨⟩)
  refine ⟨final.output, ?_, code, congrArg distinctPaths noFiles, complete⟩
  rw [Chain.run, Job.value?_map, ran]
  rfl

end Chain

/-! ## Blocks that stay as they are -/

/-- A block is processed to its own content, without files, and without a map or
with one that has all it refers to. -/
structure BlockOutput.Keeps (output : BlockOutput) (block : Block) : Prop where
  code : output.code = block.content
  dependencies : output.dependencies = []
  complete : ∀ map ∈ output.map, map.Complete

namespace Preprocessor

theorem exists_finishBlock
    (preprocessor : Preprocessor)
    (projectRoot : Path)
    (loaded : Loaded)
    {prepared : Prepared}
    (notShifted : prepared.isShifted = false)
    {ran : ChainOutput}
    (complete : ∀ map, ran.map = some map → map.Complete) :
    ∃ output, preprocessor.finishBlock projectRoot loaded prepared ran = .ok output ∧
      output.code = ran.code ∧
        output.dependencies = loaded.dependencies ++ ran.dependencies ∧
          ∀ map ∈ output.map, map.Complete := by
  simp only [finishBlock]
  split
  · obtain ⟨made, isMade, madeComplete⟩ :=
      exists_blockMap complete notShifted loaded.content loaded.filename projectRoot
    rw [isMade]
    refine ⟨_, rfl, rfl, rfl, ?_⟩
    rintro _ ⟨⟩
    exact madeComplete
  · exact ⟨_, rfl, rfl, rfl, by rintro _ ⟨⟩⟩

/-- A block of its own content that is not moved by its preparation, and that
the stages of its chain leave alone, keeps its content. -/
theorem exists_processBlock
    (preprocessor : Preprocessor)
    {block : Block}
    {chain : Chain}
    (built : preprocessor.chainFor block = .ok chain)
    (own : block.source? = none)
    (plain : preprocessor.preparedFor block block.content = ⟨block.content, 0, 0⟩)
    (leaves : ∀ stage ∈ chain.stages,
      stage.Leaves
        ((preprocessor.chainInputFor block block.filename).context chain.language stage)
        block.content) :
    ∃ output, (preprocessor.processBlock block).value? = some (.ok output) ∧
      output.Keeps block := by
  simp only [← @Outcome.ofJob_eq_finished_iff _ Outcome.uncaught]
  rw [ofJob_processBlock, built]
  simp only [load, own]
  split
  · refine ⟨_, rfl, rfl, rfl, ?_⟩
    intro map isMap
    cases isMap
  · obtain ⟨ran, completed, code, noFiles, complete⟩ := Chain.exists_run_of_leaves leaves
    have notShifted : (preprocessor.preparedFor block block.content).isShifted = false := by
      rw [plain]
      rfl
    obtain ⟨output, finished, sameCode, files, outputComplete⟩ :=
      preprocessor.exists_finishBlock (projectRootOf block.filename)
        ⟨block.content, block.filename, [], some block.contentStart⟩ notShifted complete
    refine ⟨output, ?_, sameCode.trans code, ?_, outputComplete⟩
    · have ran : Outcome.ofJob Outcome.uncaught
          (chain.run (preprocessor.chainInputFor block block.filename) block.content) =
            .finished ran := Outcome.ofJob_eq_finished_iff.mpr completed
      rw [plain] at finished
      simp only [Outcome.ofExcept, Outcome.finished_bind, ofJob_processLoaded built, plain, ran,
        finished]
    · rw [files, noFiles]
      rfl

end Preprocessor

end ComponentPipeline
