import ComponentPipeline.Proofs.Document.CompletedRun
import ComponentPipeline.Proofs.Document.Plan

/-!
# How a document is assembled

A preprocessed document is the document with its markup element replaced, in
which parts are replaced by what became of the script and style blocks.  A part
that starts before the end of an earlier one is left as it is.  Everything
outside the parts is kept, once and in order.
-/

namespace ComponentPipeline

/-! ## Replacing parts of a text -/

/-- A part of a text, and what is written for it. -/
structure Part where
  /-- The part. -/
  span : Span
  /-- What is written for it. -/
  text : Text
  deriving DecidableEq

/-- The part of a document that a replacement is for. -/
def Replacement.part (replacement : Replacement) : Part :=
  ⟨replacement.span, replacement.text⟩

/-- The part of a document that a block with the given result is for. -/
def FoundBlock.part (found : FoundBlock) (code : Text) : Part :=
  ⟨found.block.span, found.opening ++ code ++ found.closing⟩

/-- Parts by increasing start, those with one start in the given order. -/
def inOrder (parts : List Part) : List Part :=
  parts.mergeSort fun first second => first.span.start ≤ second.span.start

/-- The second text is the first one with parts replaced.  The first text
starts at the given offset of a document, from which the parts are counted. -/
inductive Replaced : Nat → List Part → Text → Text → Prop
  | rest {offset} (text : Text) : Replaced offset [] text text
  | part {offset part parts unchanged inside left written}
      (start : part.span.start = offset + Text.size unchanged)
      (stop : part.span.stop = part.span.start + Text.size inside)
      (later : Replaced part.span.stop parts left written) :
      Replaced offset (part :: parts)
        (unchanged ++ inside ++ left) (unchanged ++ part.text ++ written)

/-- A text with given parts replaced is one text. -/
theorem Replaced.unique
    {offset : Nat}
    {parts : List Part}
    {text first second : Text}
    (replaced : Replaced offset parts text first)
    (replacedToo : Replaced offset parts text second) :
    first = second := by
  induction replaced generalizing second with
  | rest text =>
      cases replacedToo
      rfl
  | @part offset part parts unchanged inside left written start stop later ih =>
      generalize whole : unchanged ++ inside ++ left = text at replacedToo
      cases replacedToo with
      | @part _ _ _ unchangedToo insideToo leftToo writtenToo startToo stopToo laterToo =>
          -- Both cut the text at the same offsets.
          rw [List.append_assoc, List.append_assoc] at whole
          obtain ⟨rfl, others⟩ := Text.append_inj_of_size_eq whole (by omega)
          obtain ⟨rfl, rfl⟩ := Text.append_inj_of_size_eq others (by omega)
          rw [ih laterToo]

/-- A plan writes the document with the parts of its replacements replaced. -/
theorem Lays.exists_replaced
    {document done : Text}
    {kept : List Replacement}
    {plan : List SplicePiece}
    (lays : Lays document done kept plan) :
    ∃ left, document = done ++ left ∧
      Replaced (Text.size done) (kept.map Replacement.part) left (spliceText plan) := by
  induction lays with
  | @rest done left whole =>
      refine ⟨left, whole, ?_⟩
      rw [spliceText, List.flatMap_singleton]
      exact .rest left
  | @replaced done unchanged inside left replacement kept plan covers later ih =>
      obtain ⟨parts, start, stop⟩ := covers
      obtain ⟨after, whole, written⟩ := ih
      have same : left = after :=
        List.append_cancel_left (parts.symm.trans whole)
      subst same
      refine ⟨unchanged ++ inside ++ left, ?_, ?_⟩
      · rw [parts]
        simp only [List.append_assoc]
      · rw [← stop] at written
        have text : spliceText (.copied unchanged (Location.origin.advance done) ::
              .inserted replacement :: plan) =
            unchanged ++ replacement.part.text ++ spliceText plan := by
          simp [spliceText, SplicePiece.text, Replacement.part]
        rw [text, List.map_cons]
        refine .part ?_ ?_ written
        · rw [← Text.size_append]
          exact start
        · calc replacement.span.stop
            _ = Text.size (done ++ unchanged ++ inside) := stop
            _ = Text.size (done ++ unchanged) + Text.size inside :=
                Text.size_append _ _
            _ = replacement.span.start + Text.size inside := by rw [start]

/-! ## Splicing -/

theorem map_part_byStart (replacements : List Replacement) :
    (byStart replacements).map Replacement.part =
      inOrder (replacements.map Replacement.part) :=
  List.map_mergeSort fun _ _ _ _ => rfl

/-- The text of a splice does not depend on whether a map is asked for. -/
theorem text_of_splice
    {document code : Text}
    {filename projectRoot : Path}
    {replacements : List Replacement}
    {withMap : Bool}
    {map : Option SourceMap}
    (spliced : splice document filename projectRoot replacements withMap =
      .ok (code, map)) :
    code = spliceText (splicePlan document replacements) := by
  simp only [splice] at spliced
  split at spliced
  · split at spliced
    · cases spliced
      rfl
    · cases spliced
  · cases spliced
    rfl

/-- Splicing replaces the parts that are kept. -/
theorem replaced_of_splice
    {document code : Text}
    {filename projectRoot : Path}
    {replacements : List Replacement}
    {withMap : Bool}
    {map : Option SourceMap}
    (placed : ∀ replacement ∈ replacements, ∃ before inside after,
      replacement.span.Covers document before inside after)
    (spliced : splice document filename projectRoot replacements withMap =
      .ok (code, map)) :
    Replaced 0 (keptFrom Part.span 0 (inOrder (replacements.map Replacement.part)))
      document code := by
  obtain ⟨left, whole, replaced⟩ := (lays_splicePlan placed).exists_replaced
  have same : document = left := whole
  subst same
  rw [text_of_splice spliced, ← map_part_byStart, keptFrom_map]
  exact replaced

/-! ## Results of blocks -/

namespace Preprocessor

variable {preprocessor : Preprocessor}

/-- The result of a block is the code that the chain of its language gives for
the prepared content: that of the file that `src` names, or its own.  A blank
content of its own is the result itself. -/
inductive Results (preprocessor : Preprocessor) (block : Block) : Text → Prop
  | blank
      (own : block.source? = none)
      (isBlank : Text.isBlankText block.content = true) :
      Results preprocessor block block.content
  | content {chain output}
      (own : block.source? = none)
      (notBlank : Text.isBlankText block.content = false)
      (built : preprocessor.chainFor block = .ok chain)
      (ran :
        (chain.run (preprocessor.chainInputFor block block.filename)
          (preprocessor.preparedFor block block.content).code).value? =
            some (.ok output)) :
      Results preprocessor block output.code
  | file {source content chain output}
      (reference : block.source? = some source)
      (text :
        preprocessor.files.read (preprocessor.sourcePath block.filename source) =
          .ok content)
      (built : preprocessor.chainFor block = .ok chain)
      (ran :
        (chain.run
          (preprocessor.chainInputFor block
            (preprocessor.sourcePath block.filename source))
          (preprocessor.preparedFor block content).code).value? = some (.ok output)) :
      Results preprocessor block output.code

theorem Processes.results
    {block : Block}
    {output : BlockOutput}
    (processes : preprocessor.Processes block output) :
    preprocessor.Results block output.code := by
  cases processes with
  | blank built nothing =>
      obtain ⟨own, isBlank⟩ := blank_of_load nothing
      exact .blank own isBlank
  | ran built taken completed finished =>
      obtain ⟨isCode, -⟩ := fields_of_finishBlock finished
      rw [isCode]
      cases loads_of_load taken with
      | own own notBlank => exact .content own notBlank built completed
      | file reference text => exact .file reference text built completed

/-! ## The document -/

/-- The document after the hook. -/
inductive HookGives (preprocessor : Preprocessor) (content : Text) (filename : Path) :
    Text → Prop
  | unchanged
      (noHook : preprocessor.options.onBefore = none) :
      HookGives preprocessor content filename content
  | changed {hook document}
      (given : preprocessor.options.onBefore = some hook)
      (succeeded : hook content filename = .ok document) :
      HookGives preprocessor content filename document

theorem hookGives_of_applyHook
    {content document : Text}
    {filename : Path}
    (hooked : preprocessor.applyHook content filename = .ok document) :
    preprocessor.HookGives content filename document := by
  simp only [applyHook] at hooked
  split at hooked
  · rename_i noHook
    cases hooked
    exact .unchanged noHook
  · rename_i hook given
    cases succeeded : hook content filename with
    | ok changed =>
        rw [succeeded] at hooked
        cases hooked
        exact .changed given succeeded
    | error message =>
        rw [succeeded] at hooked
        cases hooked

/-- The document with its first template element, if there is one, replaced by
the result of that block. -/
inductive MarkupGives (preprocessor : Preprocessor) (document : Text) (filename : Path) :
    Text → Prop
  | unchanged
      (noMarkup : findMarkupBlock? document filename = none) :
      MarkupGives preprocessor document filename document
  | replaced {found code markup}
      (first : findMarkupBlock? document filename = some found)
      (results : preprocessor.Results found.block code)
      (written : Replaced 0 [⟨found.block.span, code⟩] document markup) :
      MarkupGives preprocessor document filename markup

theorem markupGives_of_processMarkup
    {document : Text}
    {filename : Path}
    {markup : MarkupOutput}
    (finished : preprocessor.processMarkup document filename = .finished markup) :
    preprocessor.MarkupGives document filename markup.code := by
  simp only [processMarkup] at finished
  split at finished
  · rename_i noMarkup
    cases finished
    exact .unchanged noMarkup
  · rename_i found first
    obtain ⟨output, worked, finished⟩ := Outcome.bind_eq_finished_iff.mp finished
    obtain ⟨⟨code, map⟩, spliced, finished⟩ :=
      Outcome.bind_eq_finished_iff.mp finished
    rw [Outcome.ofJob_eq_finished_iff] at worked
    rw [Outcome.ofExcept_eq_finished_iff] at spliced
    cases Outcome.pure_eq_finished_iff.mp finished
    obtain ⟨opening, closing, covers⟩ := covers_of_findMarkupBlock? first
    have placed : ∀ replacement ∈ [output.replacement found], ∃ before inside after,
        replacement.span.Covers document before inside after := by
      intro replacement member
      rw [List.mem_singleton.mp member]
      exact covers
    have written := replaced_of_splice placed spliced
    have part : (output.replacement found).part = ⟨found.block.span, output.code⟩ := by
      simp [Replacement.part, Replacement.text, BlockOutput.replacement, opening, closing]
    rw [List.map_singleton, part, inOrder, List.mergeSort_singleton] at written
    exact .replaced first (processes_of_processBlock worked).results written

/-- The blocks of one kind in the order of the document, each with its
result. -/
def BlocksWithResults
    (preprocessor : Preprocessor)
    (document : Text)
    (filename : Path)
    (kind : BlockKind)
    (blocks : List (FoundBlock × Text)) :
    Prop :=
  blocks.map Prod.fst = findBlocks document kind filename ∧
    ∀ pair ∈ blocks, preprocessor.Results pair.1.block pair.2

/-- A pair of a block and what became of it, with only the code of the
latter. -/
def withCode (pair : FoundBlock × BlockOutput) : FoundBlock × Text :=
  (pair.1, pair.2.code)

theorem blocksWithResults_of_processKind
    {schedule : Schedule}
    {document : Text}
    {filename : Path}
    {kind : BlockKind}
    {processed : List (FoundBlock × BlockOutput)}
    (finished : preprocessor.processKind schedule document filename kind =
      .finished processed) :
    preprocessor.BlocksWithResults document filename kind (processed.map withCode) := by
  obtain ⟨found, processes⟩ := processes_of_processKind finished
  constructor
  · rw [List.map_map, ← found]
    rfl
  · intro pair member
    obtain ⟨pair, processed, rfl⟩ := List.mem_map.mp member
    exact (processes pair processed).results

/-- What is written for blocks with their results. -/
def partsOf (blocks : List (FoundBlock × Text)) : List Part :=
  blocks.map fun pair => pair.1.part pair.2

/-- Whenever preprocessing succeeds, the output is the document with its markup
replaced, in which the parts of the script and style blocks that are kept are
replaced by the results of those blocks. -/
theorem replaced_of_preprocess
    {schedule : Schedule}
    {content : Text}
    {filename : Path}
    {output : Output}
    (finished : preprocessor.preprocess schedule content filename = .finished output) :
    ∃ document markup scripts styles,
      preprocessor.HookGives content filename document ∧
      preprocessor.MarkupGives document filename markup ∧
      preprocessor.BlocksWithResults markup filename .script scripts ∧
      preprocessor.BlocksWithResults markup filename .style styles ∧
      Replaced 0 (keptFrom Part.span 0 (inOrder (partsOf (scripts ++ styles))))
        markup output.code := by
  obtain ⟨run⟩ := nonempty_completedRun finished
  refine ⟨run.document, run.markup.code, run.scripts.map withCode,
    run.styles.map withCode, hookGives_of_applyHook run.hooked,
    markupGives_of_processMarkup run.markupDone,
    blocksWithResults_of_processKind run.scriptsDone,
    blocksWithResults_of_processKind run.stylesDone, ?_⟩
  have replaced := replaced_of_splice run.covers_of_mem_replacements run.spliced
  have parts : run.replacements.map Replacement.part =
      partsOf (run.scripts.map withCode ++ run.styles.map withCode) := by
    rw [← List.map_append, partsOf, CompletedRun.replacements, List.map_map, List.map_map]
    rfl
  rw [parts] at replaced
  exact replaced

/-! ## A document with a style inside a script -/

/-- A transformer that adds an exclamation mark. -/
def exclaim : Transformer :=
  .supplied "exclaim" fun _ content => .now (.ok (.ofCode (content ++ ['!'])))

/-- Every script and style runs through `exclaim`. -/
def exclaiming : Preprocessor :=
  .ofRegistry .empty ⟨[], [("javascript", .custom exclaim), ("css", .custom exclaim)]⟩
    FileStore.empty.access

/-- A style inside a script, and a style that closes itself. -/
def overlappingSample : Text :=
  "<script><style>a</style></script><style/>"

/-- The invocation of `exclaim` for a block of the sample. -/
def exclamation (language content : Text) : Invocation :=
  ⟨⟨language, exclaim, []⟩, ⟨language, sampleFile, [], [], false, "/app"⟩, content, 0⟩

/-- The script of the sample. -/
def overlappingScripts : List (FoundBlock × BlockOutput) :=
  [(⟨⟨.script, "<style>a</style>", [], sampleFile, ⟨8, 24⟩, ⟨0, 8⟩⟩, [], []⟩,
    ⟨"<style>a</style>!", none, [], some ⟨0, 8⟩,
      [exclamation "javascript" "<style>a</style>"]⟩)]

/-- The styles of the sample. -/
def overlappingStyles : List (FoundBlock × BlockOutput) :=
  [(⟨⟨.style, "a", [], sampleFile, ⟨15, 16⟩, ⟨0, 15⟩⟩, [], []⟩,
    ⟨"a!", none, [], some ⟨0, 15⟩, [exclamation "css" "a"]⟩),
   (⟨⟨.style, [], [], sampleFile, ⟨39, 41⟩, ⟨0, 41⟩⟩, ['>'], "</style>"⟩,
    ⟨[], none, [], none, []⟩)]

/-- What becomes of the sample. -/
def overlappingOutput : Output where
  code := "<script><style>a</style>!</script><style></style>"
  dependencies := []
  map := none
  invocations :=
    [exclamation "javascript" "<style>a</style>", exclamation "css" "a"]

theorem preprocess_overlappingSample :
    exclaiming.preprocess inListOrder overlappingSample sampleFile =
      .finished overlappingOutput := by
  have templates : elementsOf "template" overlappingSample = [] := by
    with_unfolding_all rfl
  have scriptElements : elementsOf "script" overlappingSample =
      [(0, ⟨none, some "<style>a</style>"⟩)] := by
    with_unfolding_all rfl
  have styleElements : elementsOf "style" overlappingSample =
      [(8, ⟨none, some "a"⟩), (33, ⟨none, none⟩)] := by
    with_unfolding_all rfl
  have hooked :
      exclaiming.applyHook overlappingSample sampleFile = .ok overlappingSample := rfl
  have markup : exclaiming.processMarkup overlappingSample sampleFile =
      .finished ⟨overlappingSample, none, [], []⟩ := by
    unfold processMarkup findMarkupBlock? BlockKind.tagName
    rw [templates]
    rfl
  have scripts : exclaiming.processKind inListOrder overlappingSample sampleFile .script =
      .finished overlappingScripts := by
    unfold processKind findBlocks BlockKind.tagName
    rw [scriptElements]
    rfl
  have styles : exclaiming.processKind inListOrder overlappingSample sampleFile .style =
      .finished overlappingStyles := by
    unfold processKind findBlocks BlockKind.tagName
    rw [styleElements]
    rfl
  have spliced : splice overlappingSample sampleFile (projectRootOf sampleFile)
      ((overlappingScripts ++ overlappingStyles).map
        fun pair => pair.2.replacement pair.1)
      exclaiming.options.sourceMap = .ok (overlappingOutput.code, none) := by
    have ordered : byStart ((overlappingScripts ++ overlappingStyles).map
        fun pair => pair.2.replacement pair.1) =
          (overlappingScripts ++ overlappingStyles).map
            fun pair => pair.2.replacement pair.1 :=
      List.mergeSort_of_pairwise (by decide)
    unfold splice splicePlan
    rw [ordered]
    rfl
  refine (preprocess_of_steps hooked markup scripts styles spliced rfl).trans ?_
  with_unfolding_all rfl

theorem replaced_of_preprocess_overlappingSample :
    exclaiming.preprocess inListOrder overlappingSample sampleFile =
        .finished overlappingOutput ∧
      ∃ document markup scripts styles,
        exclaiming.HookGives overlappingSample sampleFile document ∧
        exclaiming.MarkupGives document sampleFile markup ∧
        exclaiming.BlocksWithResults markup sampleFile .script scripts ∧
        exclaiming.BlocksWithResults markup sampleFile .style styles ∧
        Replaced 0 (keptFrom Part.span 0 (inOrder (partsOf (scripts ++ styles))))
          markup overlappingOutput.code :=
  ⟨preprocess_overlappingSample, replaced_of_preprocess preprocess_overlappingSample⟩

end Preprocessor
end ComponentPipeline
