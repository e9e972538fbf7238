import ComponentPipeline.Document.Preprocess
import ComponentPipeline.Proofs.Block.Placement
import ComponentPipeline.Proofs.Document.BlockWork
import ComponentPipeline.Proofs.Document.Collected

/-!
# Completed runs

A run that succeeds has gone through all of its steps: the hook, the markup,
the scripts, the styles and the splice, and every block in them was processed.
-/

namespace ComponentPipeline
namespace Preprocessor

variable {preprocessor : Preprocessor}

/-- The work on blocks, which runs concurrently. -/
def blockJobs
    (preprocessor : Preprocessor)
    (blocks : List Block) :
    List (Job (Except ComponentError BlockOutput)) :=
  blocks.map preprocessor.processBlock

/-- The work on the blocks of one kind in a document. -/
def kindJobs
    (preprocessor : Preprocessor)
    (document : Text)
    (filename : Path)
    (kind : BlockKind) :
    List (Job (Except ComponentError BlockOutput)) :=
  preprocessor.blockJobs ((findBlocks document kind filename).map FoundBlock.block)

/-- The blocks of one kind are paired with what their work comes to. -/
theorem processKind_eq
    (preprocessor : Preprocessor)
    (schedule : Schedule)
    (document : Text)
    (filename : Path)
    (kind : BlockKind) :
    preprocessor.processKind schedule document filename kind =
      collect schedule (preprocessor.kindJobs document filename kind) >>= fun outputs =>
        .finished ((findBlocks document kind filename).zip outputs) := by
  rw [kindJobs, blockJobs, List.map_map]
  rfl

/-- Processing the blocks of one kind processes every block, in the order of the
document. -/
theorem processes_of_processKind
    {schedule : Schedule}
    {document : Text}
    {filename : Path}
    {kind : BlockKind}
    {processed : List (FoundBlock × BlockOutput)}
    (finished : preprocessor.processKind schedule document filename kind =
      .finished processed) :
    processed.map Prod.fst = findBlocks document kind filename ∧
      ∀ pair ∈ processed, preprocessor.Processes pair.1.block pair.2 := by
  obtain ⟨outputs, collected, paired⟩ := Outcome.bind_eq_finished_iff.mp finished
  cases Outcome.pure_eq_finished_iff.mp paired
  have completed := List.forall₂_map_left_iff.mp (forall₂_of_collect collected)
  constructor
  · exact List.map_fst_zip (Nat.le_of_eq completed.length_eq)
  · intro pair member
    exact processes_of_processBlock (List.forall₂_zip completed member)

/-- What a successful run consists of. -/
structure CompletedRun
    (preprocessor : Preprocessor)
    (schedule : Schedule)
    (content : Text)
    (filename : Path)
    (output : Output) where
  /-- The document after the hook. -/
  document : Text
  /-- What became of it when its markup was processed. -/
  markup : MarkupOutput
  /-- The processed scripts. -/
  scripts : List (FoundBlock × BlockOutput)
  /-- The processed styles. -/
  styles : List (FoundBlock × BlockOutput)
  /-- The map of the last splice. -/
  map : Option SourceMap
  hooked : preprocessor.applyHook content filename = .ok document
  markupDone : preprocessor.processMarkup document filename = .finished markup
  scriptsDone :
    preprocessor.processKind schedule markup.code filename .script = .finished scripts
  stylesDone :
    preprocessor.processKind schedule markup.code filename .style = .finished styles
  spliced :
    splice markup.code filename (projectRootOf filename)
      ((scripts ++ styles).map fun (found, output) => output.replacement found)
      preprocessor.options.sourceMap = .ok (output.code, map)
  composed : finalMap map markup.map filename = .ok output.map

namespace CompletedRun

variable {schedule : Schedule}
variable {content : Text}
variable {filename : Path}
variable {output : Output}

/-- The replacements of the last splice. -/
def replacements
    (run : preprocessor.CompletedRun schedule content filename output) :
    List Replacement :=
  (run.scripts ++ run.styles).map fun (found, output) => output.replacement found

theorem document_eq_of_noHook
    (run : preprocessor.CompletedRun schedule content filename output)
    (noHook : preprocessor.options.onBefore = none) :
    run.document = content := by
  have hooked := run.hooked
  unfold applyHook at hooked
  rw [noHook] at hooked
  exact (Except.ok.inj hooked).symm

theorem markup_eq_of_noMarkup
    (run : preprocessor.CompletedRun schedule content filename output)
    (noMarkup : findMarkupBlock? run.document filename = none) :
    run.markup = ⟨run.document, none, [], []⟩ := by
  have markupDone := run.markupDone
  unfold processMarkup at markupDone
  rw [noMarkup] at markupDone
  exact (Outcome.finished.inj markupDone).symm

/-- Every replacement is that of a processed script or style block. -/
theorem exists_block_of_mem_replacements
    (run : preprocessor.CompletedRun schedule content filename output)
    {replacement : Replacement}
    (member : replacement ∈ run.replacements) :
    ∃ kind found output, kind ≠ .markup ∧
      found ∈ findBlocks run.markup.code kind filename ∧
      preprocessor.Processes found.block output ∧
      replacement = output.replacement found := by
  obtain ⟨⟨found, output⟩, processed, rfl⟩ := List.mem_map.mp member
  have ofKind {kind : BlockKind} {pairs : List (FoundBlock × BlockOutput)}
      (done : preprocessor.processKind schedule run.markup.code filename kind =
        .finished pairs)
      (among : (found, output) ∈ pairs) :
      found ∈ findBlocks run.markup.code kind filename ∧
        preprocessor.Processes found.block output := by
    obtain ⟨blocks, processes⟩ := processes_of_processKind done
    rw [← blocks]
    exact ⟨List.mem_map_of_mem among, processes _ among⟩
  rcases List.mem_append.mp processed with script | style
  · obtain ⟨listed, processes⟩ := ofKind run.scriptsDone script
    exact ⟨.script, found, output, by decide, listed, processes, rfl⟩
  · obtain ⟨listed, processes⟩ := ofKind run.stylesDone style
    exact ⟨.style, found, output, by decide, listed, processes, rfl⟩

/-- Every replacement covers a part of the document. -/
theorem covers_of_mem_replacements
    (run : preprocessor.CompletedRun schedule content filename output) :
    ∀ replacement ∈ run.replacements, ∃ before inside after,
      replacement.span.Covers run.markup.code before inside after := by
  intro replacement member
  obtain ⟨kind, found, output, notMarkup, listed, -, rfl⟩ :=
    run.exists_block_of_mem_replacements member
  exact (stands_of_mem_findBlocks notMarkup listed).exists_covers

end CompletedRun

theorem nonempty_completedRun
    {schedule : Schedule}
    {content : Text}
    {filename : Path}
    {output : Output}
    (finished : preprocessor.preprocess schedule content filename = .finished output) :
    Nonempty (preprocessor.CompletedRun schedule content filename output) := by
  unfold preprocess at finished
  obtain ⟨document, hooked, finished⟩ := Outcome.bind_eq_finished_iff.mp finished
  obtain ⟨markup, markupDone, finished⟩ := Outcome.bind_eq_finished_iff.mp finished
  obtain ⟨scripts, scriptsDone, finished⟩ := Outcome.bind_eq_finished_iff.mp finished
  obtain ⟨styles, stylesDone, finished⟩ := Outcome.bind_eq_finished_iff.mp finished
  obtain ⟨⟨code, map⟩, spliced, finished⟩ := Outcome.bind_eq_finished_iff.mp finished
  obtain ⟨final, composed, finished⟩ := Outcome.bind_eq_finished_iff.mp finished
  rw [Outcome.ofExcept_eq_finished_iff] at hooked spliced composed
  cases Outcome.pure_eq_finished_iff.mp finished
  exact ⟨document, markup, scripts, styles, map, hooked, markupDone, scriptsDone,
    stylesDone, spliced, composed⟩

/-- A run that goes through all steps succeeds. -/
theorem preprocess_of_steps
    {schedule : Schedule}
    {content document code : Text}
    {filename : Path}
    {markup : MarkupOutput}
    {scripts styles : List (FoundBlock × BlockOutput)}
    {map final : Option SourceMap}
    (hooked : preprocessor.applyHook content filename = .ok document)
    (markupDone : preprocessor.processMarkup document filename = .finished markup)
    (scriptsDone :
      preprocessor.processKind schedule markup.code filename .script = .finished scripts)
    (stylesDone :
      preprocessor.processKind schedule markup.code filename .style = .finished styles)
    (spliced :
      splice markup.code filename (projectRootOf filename)
        ((scripts ++ styles).map fun (found, output) => output.replacement found)
        preprocessor.options.sourceMap = .ok (code, map))
    (composed : finalMap map markup.map filename = .ok final) :
    preprocessor.preprocess schedule content filename = .finished {
      code
      dependencies := distinctPaths <|
        markup.dependencies ++ (scripts ++ styles).flatMap fun (_, output) =>
          output.dependencies
      map := final
      invocations :=
        markup.invocations ++
          byTurn (scripts.flatMap fun (_, output) => output.invocations) ++
          byTurn (styles.flatMap fun (_, output) => output.invocations) } := by
  unfold preprocess
  simp only [hooked, markupDone, scriptsDone, stylesDone, spliced, composed,
    Outcome.ofExcept, Outcome.finished_bind]
  rfl

/-- The file of the samples. -/
def sampleFile : Path := "/app/App.svelte"

/-- Jobs complete in the order in which they are listed. -/
def inListOrder : Schedule :=
  { Schedule.cooperative with order := fun turns => List.range turns.length }

end Preprocessor
end ComponentPipeline
