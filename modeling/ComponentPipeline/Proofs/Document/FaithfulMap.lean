import ComponentPipeline.Proofs.Chain.PassThrough
import ComponentPipeline.Proofs.Content.Preparation
import ComponentPipeline.Proofs.Document.CompletedRun
import ComponentPipeline.Proofs.Document.FittingMaps
import ComponentPipeline.Proofs.SourceMap.ComponentName

/-!
# Source maps of documents whose text is only moved

When every stage gives its input back, processing a document only moves text:
indentation goes, data are put before contents, and tags that close themselves
are opened up.  Every mapping of the aggregate map then leads from a character
of the output to the same character of the component.
-/

namespace ComponentPipeline

/-! ## Maps of blocks -/

/-- The map of a prepared content that no stage changed leads to corresponding
places of the content. -/
theorem blockMap_of_noMap
    {content : Text}
    {filename projectRoot : Path}
    {options : Table Json}
    {map : SourceMap}
    (made : blockMap none (Prepared.ofMembers content options) content filename
      projectRoot = .ok map) :
    map.sources = [SourceName.relative projectRoot filename] ∧
      Leads (Corresponds content (Prepared.ofMembers content options).code)
        map.mappings := by
  unfold blockMap at made
  cases shifted : (Prepared.ofMembers content options).isShifted with
  | true =>
      rw [shifted] at made
      cases made
      exact ⟨rfl, Prepared.leads_sourceMap filename content projectRoot options⟩
  | false =>
      rw [shifted] at made
      cases made
      rw [Prepared.code_of_not_isShifted shifted]
      exact ⟨rfl, leads_ofLines projectRoot filename content⟩

/-- A script or style block never starts with a tag unless one ends there. -/
theorem FoundBlock.Stands.startsBehindTag
    {found : FoundBlock}
    {document : Text}
    {replacement : Replacement}
    (stands : found.Stands document)
    (span : replacement.span = found.block.span) :
    replacement.StartsBehindTag document := by
  intro before inside after covers startsTag
  rw [span] at covers
  cases stands with
  | betweenTags coversToo tagBefore _ _ _ =>
      obtain ⟨same, -, -⟩ := coversToo.unique covers
      rw [← same]
      exact tagBefore
  | selfClosing coversToo _ _ _ =>
      obtain ⟨-, slash, -⟩ := coversToo.unique covers
      rw [← slash] at startsTag
      cases startsTag

namespace Preprocessor

variable {preprocessor : Preprocessor}

/-- Every stage that a block runs through gives the prepared content back,
without a map. -/
def PassesThrough (preprocessor : Preprocessor) (block : Block) : Prop :=
  ∀ chain, preprocessor.chainFor block = .ok chain →
    chain.PassesThrough (preprocessor.chainInputFor block block.filename)
      (preprocessor.preparedFor block block.content).code

/-- A block whose content is its own and passes through its chain makes a
replacement that fits. -/
theorem fits_replacement
    {found : FoundBlock}
    {output : BlockOutput}
    {document : Text}
    (withMap : preprocessor.options.sourceMap = true)
    (own : found.block.source? = none)
    (passes : preprocessor.PassesThrough found.block)
    (stands : found.Stands document)
    (processes : preprocessor.Processes found.block output) :
    (output.replacement found).Fits document
      (SourceName.relative (projectRootOf found.block.filename)
        found.block.filename) := by
  cases processes with
  | blank built nothing => exact .unmapped rfl (stands.startsBehindTag rfl)
  | @ran chain loaded ran output built taken completed finished =>
      unfold load at taken
      rw [own] at taken
      simp only at taken
      split at taken
      · cases taken
      · rename_i notBlank
        cases taken
        obtain ⟨code, noMap⟩ := Chain.passedThrough_of_run (passes chain built) completed
        unfold finishBlock at finished
        rw [withMap, noMap] at finished
        simp only [if_true] at finished
        split at finished
        · rename_i map made
          cases finished
          obtain ⟨sources, leads⟩ := blockMap_of_noMap made
          cases stands with
          | betweenTags covers tagBefore contentStart opening closing =>
              have notEmpty : found.block.content ≠ [] := by
                intro empty
                rw [empty] at notBlank
                exact notBlank rfl
              refine .mapped covers notEmpty tagBefore opening closing
                (congrArg some contentStart) rfl sources ?_
              show Leads (Corresponds found.block.content ran.code) map.mappings
              rw [code]
              exact leads
          | selfClosing _ content _ _ =>
              rw [content] at notBlank
              exact absurd rfl notBlank
        · cases finished

/-! ## The map of a document -/

/-- When nothing but the placement of text changes, every mapping of the map
leads from a character of the output to the same character of the
component. -/
theorem sameCharacter_of_preprocess
    {schedule : Schedule}
    {document : Text}
    {filename : Path}
    {output : Output}
    (withMap : preprocessor.options.sourceMap = true)
    (noHook : preprocessor.options.onBefore = none)
    (absolute : Path.isAbsolute filename = true)
    (noBackslash : ∀ component, (Path.components filename).getLast? = some component →
      '\\' ∉ component.text)
    (noMarkup : findMarkupBlock? document filename = none)
    (own : ∀ kind, ∀ found ∈ findBlocks document kind filename,
      found.block.source? = none)
    (passes : ∀ kind, ∀ found ∈ findBlocks document kind filename,
      preprocessor.PassesThrough found.block)
    (finished : preprocessor.preprocess schedule document filename = .finished output) :
    ∃ map, output.map = some map ∧
      ∀ mapping ∈ map.mappings, ∃ place,
        mapping.place = some place ∧
          map.source place.source =
            .ok (SourceName.relative (projectRootOf filename) filename) ∧
          map.content? place.source = some document ∧
          SameCharacter document output.code place.location mapping.generated := by
  obtain ⟨run⟩ := nonempty_completedRun finished
  -- The hook and the markup leave the document as it is.
  have unhooked := run.document_eq_of_noHook noHook
  have markup := run.markup_eq_of_noMarkup (by rw [unhooked]; exact noMarkup)
  have text : run.markup.code = document := by rw [markup, unhooked]
  have noMap : run.markup.map = none := by rw [markup]
  have placed := run.covers_of_mem_replacements
  rw [text] at placed
  have fits : ∀ replacement ∈ run.replacements, replacement.Fits document
      (SourceName.relative (projectRootOf filename) filename) := by
    intro replacement member
    obtain ⟨kind, found, output, notMarkup, listed, processes, rfl⟩ :=
      run.exists_block_of_mem_replacements member
    rw [text] at listed
    have fits := fits_replacement withMap (own kind found listed)
      (passes kind found listed) (stands_of_mem_findBlocks notMarkup listed) processes
    rw [filename_of_mem_findBlocks notMarkup listed] at fits
    exact fits
  obtain ⟨mappings, leads, mapped⟩ := spliceMap_of_fits
    (relative_relative_projectRootOf absolute noBackslash) placed fits
  have spliced : splice document filename (projectRootOf filename) run.replacements true =
      .ok (output.code, run.map) := by
    have spliced := run.spliced
    rw [text, withMap] at spliced
    exact spliced
  simp only [splice, if_true, mapped, Except.ok.injEq, Prod.mk.injEq] at spliced
  obtain ⟨code, map⟩ := spliced
  have composed := run.composed
  rw [noMap, ← map] at composed
  rw [code] at leads
  refine ⟨_, (Except.ok.inj composed).symm, ?_⟩
  intro mapping member
  obtain ⟨location, place, same⟩ := leads mapping member
  exact ⟨_, place, rfl, rfl, same⟩

/-! ## A document with an indented script -/

/-- Scripts are stripped of their indentation and put behind a line of data. -/
def moving : Preprocessor :=
  .ofRegistry
    (((Options.empty.withStripIndent true).withPrependData "//d").withSourceMap true)
    ⟨[("javascript", .identity)], []⟩ FileStore.empty.access

/-- An indented script behind a character of two units. -/
def indentedSample : Text := "𝄞<script>\n\tx\n\t</script>"

/-- The script of the sample. -/
def indentedScript : FoundBlock :=
  ⟨⟨.script, "\n\tx\n\t", [], sampleFile, ⟨12, 17⟩, ⟨0, 10⟩⟩, [], []⟩

/-- A mapping of the sample. -/
def sampleMapping (generated inSource : Location) : Mapping :=
  ⟨generated, some ⟨0, inSource, none⟩⟩

/-- The map of the script. -/
def indentedScriptMap : SourceMap where
  projectRoot := "/app"
  sources := ["App.svelte"]
  contents := ["\n\tx\n\t"]
  names := []
  mappings := [sampleMapping ⟨1, 0⟩ ⟨0, 0⟩, sampleMapping ⟨2, 0⟩ ⟨1, 1⟩,
    sampleMapping ⟨3, 0⟩ ⟨2, 1⟩]

/-- The invocation for the script. -/
def indentedInvocation : Invocation :=
  ⟨⟨"javascript", .identity, []⟩, ⟨"javascript", sampleFile, [], [], true, "/app"⟩,
    "//d\n\nx\n", 0⟩

/-- What becomes of the script. -/
def indentedScriptOutput : BlockOutput :=
  ⟨"//d\n\nx\n", some indentedScriptMap, [], some ⟨0, 10⟩, [indentedInvocation]⟩

/-- The map of the sample; the closing tag has a mapping of its own besides
that of the script's last line. -/
def indentedMap : SourceMap where
  projectRoot := "/app"
  sources := ["App.svelte"]
  contents := [indentedSample]
  names := []
  mappings := [sampleMapping ⟨0, 0⟩ ⟨0, 0⟩, sampleMapping ⟨1, 0⟩ ⟨0, 10⟩,
    sampleMapping ⟨2, 0⟩ ⟨1, 1⟩, sampleMapping ⟨3, 0⟩ ⟨2, 1⟩,
    sampleMapping ⟨3, 0⟩ ⟨2, 1⟩]

/-- What becomes of the sample. -/
def indentedOutput : Output where
  code := "𝄞<script>//d\n\nx\n</script>"
  dependencies := []
  map := some indentedMap
  invocations := [indentedInvocation]

theorem findMarkupBlock?_indentedSample :
    findMarkupBlock? indentedSample sampleFile = none := by
  have elements : elementsOf "template" indentedSample = [] := by
    with_unfolding_all rfl
  unfold findMarkupBlock? BlockKind.tagName
  rw [elements]
  rfl

theorem findBlocks_script_indentedSample :
    findBlocks indentedSample .script sampleFile = [indentedScript] := by
  have elements : elementsOf "script" indentedSample =
      [(4, ⟨none, some "\n\tx\n\t"⟩)] := by
    with_unfolding_all rfl
  unfold findBlocks BlockKind.tagName
  rw [elements]
  rfl

theorem findBlocks_style_indentedSample :
    findBlocks indentedSample .style sampleFile = [] := by
  have elements : elementsOf "style" indentedSample = [] := by
    with_unfolding_all rfl
  unfold findBlocks BlockKind.tagName
  rw [elements]
  rfl

theorem splice_indentedSample :
    splice indentedSample sampleFile (projectRootOf sampleFile)
        [indentedScriptOutput.replacement indentedScript] true =
      .ok (indentedOutput.code, some indentedMap) := by
  have plan : splicePlan indentedSample
      [indentedScriptOutput.replacement indentedScript] =
      [.copied "𝄞<script>" ⟨0, 0⟩,
        .inserted (indentedScriptOutput.replacement indentedScript),
        .copied "</script>" ⟨2, 1⟩] := by
    rw [splicePlan, byStart, List.mergeSort_singleton]
    rfl
  -- The script's mappings come after the one that is there before it.
  have inserted :
      insertMap { indentedMap with mappings := indentedMap.mappings.take 1 } 0
          "App.svelte" ⟨0, 10⟩ (some ⟨0, 10⟩) indentedScriptMap =
        .ok { indentedMap with mappings := indentedMap.mappings.take 4 } := by
    have ordered : indentedScriptMap.ordered = indentedScriptMap.mappings :=
      List.mergeSort_of_pairwise (by decide)
    unfold insertMap
    rw [ordered]
    rfl
  have mapped : spliceMap indentedSample sampleFile (projectRootOf sampleFile)
      (splicePlan indentedSample [indentedScriptOutput.replacement indentedScript]) =
        .ok indentedMap := by
    rw [plan]
    show (insertMap { indentedMap with mappings := indentedMap.mappings.take 1 } 0
        "App.svelte" ⟨0, 10⟩ (some ⟨0, 10⟩) indentedScriptMap >>= fun target =>
          mapPieces 0 "App.svelte" target ⟨3, 0⟩ [.copied "</script>" ⟨2, 1⟩]) =
        .ok indentedMap
    rw [inserted]
    rfl
  have written : spliceText (splicePlan indentedSample
      [indentedScriptOutput.replacement indentedScript]) = indentedOutput.code := by
    rw [plan]
    rfl
  simp only [splice, if_true, mapped, written]

theorem preprocess_indentedSample :
    moving.preprocess inListOrder indentedSample sampleFile =
      .finished indentedOutput := by
  have hooked : moving.applyHook indentedSample sampleFile = .ok indentedSample := rfl
  have markup : moving.processMarkup indentedSample sampleFile =
      .finished ⟨indentedSample, none, [], []⟩ := by
    unfold processMarkup
    rw [findMarkupBlock?_indentedSample]
  have scripts : moving.processKind inListOrder indentedSample sampleFile .script =
      .finished [(indentedScript, indentedScriptOutput)] := by
    unfold processKind
    rw [findBlocks_script_indentedSample]
    rfl
  have styles : moving.processKind inListOrder indentedSample sampleFile .style =
      .finished [] := by
    unfold processKind
    rw [findBlocks_style_indentedSample]
    rfl
  refine (preprocess_of_steps hooked markup scripts styles splice_indentedSample
    rfl).trans ?_
  with_unfolding_all rfl

theorem eq_indentedScript_of_mem_findBlocks
    {kind : BlockKind}
    {found : FoundBlock}
    (member : found ∈ findBlocks indentedSample kind sampleFile) :
    found = indentedScript := by
  cases kind with
  | markup =>
      rw [findBlocks, findMarkupBlock?_indentedSample] at member
      cases member
  | script =>
      rw [findBlocks_script_indentedSample] at member
      exact List.mem_singleton.mp member
  | style =>
      rw [findBlocks_style_indentedSample] at member
      cases member

theorem passesThrough_indentedScript : moving.PassesThrough indentedScript.block := by
  intro chain built stage among turns result ran
  have only : moving.chainFor indentedScript.block =
      .ok ⟨"javascript", [⟨"javascript", .identity, []⟩]⟩ := rfl
  rw [only] at built
  cases built
  rw [List.mem_singleton.mp among] at ran
  cases ran
  exact ⟨rfl, rfl⟩

theorem sameCharacter_of_preprocess_indentedSample :
    moving.preprocess inListOrder indentedSample sampleFile =
        .finished indentedOutput ∧
      ∃ map, indentedOutput.map = some map ∧
        ∀ mapping ∈ map.mappings, ∃ place,
          mapping.place = some place ∧
            map.source place.source =
              .ok (SourceName.relative (projectRootOf sampleFile) sampleFile) ∧
            map.content? place.source = some indentedSample ∧
            SameCharacter indentedSample indentedOutput.code place.location
              mapping.generated := by
  have noBackslash : ∀ component,
      (Path.components sampleFile).getLast? = some component →
        '\\' ∉ component.text := by
    intro component last
    cases last
    decide
  have own : ∀ kind, ∀ found ∈ findBlocks indentedSample kind sampleFile,
      found.block.source? = none := by
    intro kind found member
    rw [eq_indentedScript_of_mem_findBlocks member]
    rfl
  have passes : ∀ kind, ∀ found ∈ findBlocks indentedSample kind sampleFile,
      moving.PassesThrough found.block := by
    intro kind found member
    rw [eq_indentedScript_of_mem_findBlocks member]
    exact passesThrough_indentedScript
  exact ⟨preprocess_indentedSample,
    sameCharacter_of_preprocess rfl rfl rfl noBackslash
      findMarkupBlock?_indentedSample own passes preprocess_indentedSample⟩

end Preprocessor
end ComponentPipeline
