import ComponentPipeline.Proofs.Css.Stability
import ComponentPipeline.Proofs.Document.CompletedRun
import ComponentPipeline.Proofs.Document.CompletionOrder
import ComponentPipeline.Proofs.Document.KeptBlocks
import ComponentPipeline.Proofs.Document.Plan
import ComponentPipeline.Proofs.SourceMap.Copying

/-!
# Documents that stay as they are

Under default options a component in which nothing asks for a change stays as it
is.  The stages of its chains are the identity and the removal of global markers,
which leave its contents alone, so every block keeps its content.  A splice that
writes what it covers leaves the document as it was, wherever the blocks stand.
-/

namespace ComponentPipeline

/-- A style has no global marker in it, or can be read and has no bare one in any
selector of its rules. -/
def Css.Unmarked (content : Text) : Prop :=
  Text.contains Selector.marker content = false ∨
    ∃ sheet, Css.Stylesheet.parse content = .ok sheet ∧
      Css.RulesHave
        (fun list => ∀ selector ∈ Css.selectorsOf list, ¬Selector.HasMarker selector)
        sheet.nodes

namespace Preprocessor

/-! ## The default options -/

/-- A preprocessor under default options, in which aliases may be given and a
source map may be asked for, with the transformers that are there without being
registered. -/
def ofDefaults
    (compile : StyleCompiler)
    (aliases : List (Text × Text))
    (sourceMap : Bool)
    (files : FileAccess) :
    Preprocessor :=
  let options : Options := { Options.empty with aliases, sourceMap }
  .ofRegistry options (.ofOptions compile options) files

section Defaults

variable {compile : StyleCompiler}
variable {aliases : List (Text × Text)}
variable {sourceMap : Bool}
variable {files : FileAccess}

/-- The languages that have a default transformer which passes contents through. -/
def baseLanguages : List Text := ["html", "javascript", "css"]

/-- The stages of a block of a kind under default options, after the one of its
language. -/
def defaultTrailing : BlockKind → List Stage
  | .style => [⟨globalRuleKey, .globalRule Selector.globalize, []⟩]
  | _ => []

theorem chainFor_ofDefaults
    {block : Block}
    (language :
      (ofDefaults compile aliases sourceMap files).languageOf block ∈ baseLanguages) :
    (ofDefaults compile aliases sourceMap files).chainFor block =
      .ok ⟨(ofDefaults compile aliases sourceMap files).languageOf block,
        ⟨(ofDefaults compile aliases sourceMap files).languageOf block, .identity, []⟩ ::
          defaultTrailing block.kind⟩ := by
  unfold chainFor
  generalize (ofDefaults compile aliases sourceMap files).languageOf block = resolved
    at language ⊢
  have trailing : ∀ kind, (ofDefaults compile aliases sourceMap files).registry.trailingStages
      kind = defaultTrailing kind := by
    rintro (_ | _ | _)
    · rfl
    · rfl
    · rfl
  have found : (ofDefaults compile aliases sourceMap files).registry.lookup resolved =
      .found ⟨resolved, .identity, []⟩ := by
    simp only [baseLanguages, List.mem_cons, List.not_mem_nil, or_false] at language
    rcases language with rfl | rfl | rfl
    · rfl
    · rfl
    · rfl
  rw [Registry.chain, found, trailing]

theorem preparedFor_ofDefaults (block : Block) (content : Text) :
    (ofDefaults compile aliases sourceMap files).preparedFor block content =
      ⟨content, 0, 0⟩ := rfl

theorem leaves_identity (key : Text) (context : Context) (content : Text) :
    Stage.Leaves ⟨key, .identity, []⟩ context content :=
  ⟨0, none, rfl, nofun⟩

/-- The stage that removes global markers leaves a style without them alone. -/
theorem leaves_globalRule
    {content : Text}
    (unmarked : Css.Unmarked content)
    (context : Context) :
    Stage.Leaves ⟨globalRuleKey, .globalRule Selector.globalize, []⟩ context content := by
  rcases unmarked with notMentioned | ⟨sheet, parsed, unmarked⟩
  · refine ⟨0, none, ?_, nofun⟩
    simp only [Transformer.run, removeGlobalMarkers, notMentioned]
    rfl
  · have lists : Css.RulesHave (fun list => ¬Selector.HasMarker list) sheet.nodes := by
      intro node member list isList marked
      obtain ⟨selector, among, markedSelector⟩ := Css.hasMarker_iff_of_selectorsOf.mp marked
      exact unmarked node member list isList selector among markedSelector
    obtain ⟨map, gave, isMap⟩ :=
      Css.removeGlobalMarkers_eq_of_unmarked parsed lists Selector.globalize context
    refine ⟨0, map, congrArg (Job.done 0) gave, fun given isGiven => ?_⟩
    rw [(isMap given isGiven).2]
    exact sheet.complete_sourceMap _ _ _

end Defaults

end Preprocessor

/-! ## Documents in which nothing asks for a change -/

/-- Nothing in a document asks for a change. -/
structure AsksForNothing
    (aliases : LanguageAliases)
    (document : Text)
    (filename : Path) :
    Prop where
  /-- There is no template element. -/
  noTemplate : elementsOf BlockKind.markup.tagName document = []
  /-- No script or style closes itself. -/
  opened : ∀ kind : BlockKind, kind ≠ .markup →
    ∀ entry ∈ elementsOf kind.tagName document, entry.2.content ≠ none
  /-- No script or style refers to a file. -/
  own : ∀ kind : BlockKind, kind ≠ .markup →
    ∀ found ∈ findBlocks document kind filename, found.block.source? = none
  /-- The language of every script and style is one that passes through. -/
  language : ∀ kind : BlockKind, kind ≠ .markup →
    ∀ found ∈ findBlocks document kind filename,
      aliases.resolve found.block.attributes found.block.kind.baseLanguage ∈
        Preprocessor.baseLanguages
  /-- No style has a marker to be removed. -/
  unmarked : ∀ found ∈ findBlocks document .style filename,
    Css.Unmarked found.block.content

/-- A replacement writes what it covers. -/
def Replacement.WritesBack (replacement : Replacement) (document : Text) : Prop :=
  ∃ before after, replacement.span.Covers document before replacement.text after

/-- Replacements that write what they cover leave the text as it is. -/
theorem Lays.eq_append_spliceText
    {document done : Text}
    {kept : List Replacement}
    {plan : List SplicePiece}
    (lays : Lays document done kept plan)
    (writeBack : ∀ replacement ∈ kept, replacement.WritesBack document) :
    document = done ++ spliceText plan := by
  induction lays with
  | @rest done left whole =>
      rw [whole, spliceText, List.flatMap_singleton]
      rfl
  | @replaced done unchanged inside left replacement kept plan covers later ih =>
      obtain ⟨before, after, coversToo⟩ := writeBack replacement List.mem_cons_self
      obtain ⟨-, same, -⟩ := covers.unique coversToo
      have whole := ih fun other member => writeBack other (List.mem_cons_of_mem _ member)
      have text : spliceText (.copied unchanged (Location.origin.advance done) ::
          .inserted replacement :: plan) =
            unchanged ++ (inside ++ spliceText plan) := by
        rw [same]
        rfl
      rw [text]
      simpa only [List.append_assoc] using whole

theorem spliceText_of_writesBack
    {document : Text}
    {replacements : List Replacement}
    (writeBack : ∀ replacement ∈ replacements, replacement.WritesBack document) :
    spliceText (splicePlan document replacements) = document := by
  have placed : ∀ replacement ∈ replacements, ∃ before inside after,
      replacement.span.Covers document before inside after := by
    intro replacement member
    obtain ⟨before, after, covers⟩ := writeBack replacement member
    exact ⟨before, _, after, covers⟩
  have keptWriteBack : ∀ replacement ∈ keptFrom Replacement.span 0 (byStart replacements),
      replacement.WritesBack document := fun replacement member =>
    writeBack replacement ((List.mergeSort_perm _ _).mem_iff.mp (mem_of_mem_keptFrom member))
  exact ((lays_splicePlan placed).eq_append_spliceText keptWriteBack).symm

namespace AsksForNothing

variable {aliases : LanguageAliases}
variable {document : Text}
variable {filename : Path}

/-- A block that keeps its content writes back what it covers. -/
theorem writesBack_replacement
    (nothing : AsksForNothing aliases document filename)
    {kind : BlockKind}
    (notMarkup : kind ≠ .markup)
    {found : FoundBlock}
    (member : found ∈ findBlocks document kind filename)
    {output : BlockOutput}
    (keeps : output.Keeps found.block) :
    (output.replacement found).WritesBack document := by
  have stands := stands_of_mem_findBlocks notMarkup member
  obtain ⟨offset, ⟨attributes, content⟩, listed, isElement⟩ :=
    exists_element_of_mem_findBlocks notMarkup member
  have notClosed : found.opening = [] := by
    cases content with
    | none => exact absurd rfl (nothing.opened kind notMarkup _ listed)
    | some content =>
        rw [isElement, ofElement_of_content notMarkup rfl]
  -- Only a tag that closes itself has something written before the code.
  cases stands with
  | @betweenTags before after covers _ _ opening closing =>
      have text : (output.replacement found).text = found.block.content := by
        simp [Replacement.text, BlockOutput.replacement, opening, closing, keeps.code]
      exact ⟨before, _, text ▸ covers⟩
  | selfClosing _ _ opening _ =>
      rw [notClosed] at opening
      cases opening

variable {pairs : List (Text × Text)}
variable (compile : StyleCompiler)
variable (sourceMap : Bool)
variable (files : FileAccess)

/-- Under default options every block keeps its content. -/
theorem exists_processBlock
    (nothing : AsksForNothing (.ofPairs pairs) document filename)
    {kind : BlockKind}
    (notMarkup : kind ≠ .markup)
    {found : FoundBlock}
    (member : found ∈ findBlocks document kind filename) :
    ∃ output,
      ((Preprocessor.ofDefaults compile pairs sourceMap files).processBlock
          found.block).value? = some (.ok output) ∧
        output.Keeps found.block := by
  refine Preprocessor.exists_processBlock _
    (Preprocessor.chainFor_ofDefaults (nothing.language kind notMarkup found member))
    (nothing.own kind notMarkup found member)
    (Preprocessor.preparedFor_ofDefaults found.block found.block.content) ?_
  intro stage among
  rcases List.mem_cons.mp among with rfl | trailing
  · exact Preprocessor.leaves_identity _ _ _
  · rw [kind_of_mem_findBlocks notMarkup member] at trailing
    cases kind with
    | markup => cases trailing
    | script => cases trailing
    | style =>
        rw [List.mem_singleton.mp trailing]
        exact Preprocessor.leaves_globalRule (nothing.unmarked found member) _

/-- Under default options the blocks of a kind keep their contents and write them
back, in whatever order they complete. -/
theorem exists_processKind
    (nothing : AsksForNothing (.ofPairs pairs) document filename)
    {schedule : Schedule}
    (completes : schedule.Completes)
    (kind : BlockKind)
    (notMarkup : kind ≠ .markup) :
    ∃ processed,
      (Preprocessor.ofDefaults compile pairs sourceMap files).processKind schedule document
          filename kind = .finished processed ∧
        ∀ pair ∈ processed, pair.2.Keeps pair.1.block ∧
          (pair.2.replacement pair.1).WritesBack document := by
  have succeed : ∀ job ∈
        (Preprocessor.ofDefaults compile pairs sourceMap files).kindJobs document filename kind,
      ∃ output, job.value? = some (.ok output) := by
    intro job member
    obtain ⟨block, isBlock, rfl⟩ := List.mem_map.mp member
    obtain ⟨found, listed, rfl⟩ := List.mem_map.mp isBlock
    obtain ⟨output, worked, -⟩ :=
      nothing.exists_processBlock compile sourceMap files notMarkup listed
    exact ⟨output, worked⟩
  obtain ⟨outputs, collected⟩ := exists_collect_of_succeed (completes _) succeed
  refine ⟨(findBlocks document kind filename).zip outputs, ?_, ?_⟩
  · rw [Preprocessor.processKind_eq, collected]
    rfl
  · intro pair member
    have given := List.forall₂_map_left_iff.mp
      (List.forall₂_map_left_iff.mp (forall₂_of_collect collected))
    have worked := List.forall₂_zip given member
    have listed := (List.of_mem_zip member).1
    obtain ⟨output, workedToo, keeps⟩ :=
      nothing.exists_processBlock compile sourceMap files notMarkup listed
    cases workedToo.symm.trans worked
    exact ⟨keeps, nothing.writesBack_replacement notMarkup listed keeps⟩

end AsksForNothing

/-- Under default options a document in which nothing asks for a change stays as
it is, whether or not a source map is asked for and in whatever order its blocks
complete. -/
theorem Preprocessor.preprocess_of_asksForNothing
    (compile : StyleCompiler)
    (aliases : List (Text × Text))
    (sourceMap : Bool)
    (files : FileAccess)
    {schedule : Schedule}
    (completes : schedule.Completes)
    {document : Text}
    {filename : Path}
    (nothing : AsksForNothing (.ofPairs aliases) document filename) :
    ∃ output,
      (ofDefaults compile aliases sourceMap files).preprocess schedule document filename =
          .finished output ∧
        output.code = document ∧ output.dependencies = [] ∧
          output.map.isSome = sourceMap := by
  have hooked : (ofDefaults compile aliases sourceMap files).applyHook document filename =
      .ok document := rfl
  have markup : (ofDefaults compile aliases sourceMap files).processMarkup document filename =
      .finished ⟨document, none, [], []⟩ := by
    unfold processMarkup findMarkupBlock?
    rw [nothing.noTemplate]
    rfl
  obtain ⟨scripts, scriptsDone, scriptsKeep⟩ :=
    nothing.exists_processKind compile sourceMap files completes .script nofun
  obtain ⟨styles, stylesDone, stylesKeep⟩ :=
    nothing.exists_processKind compile sourceMap files completes .style nofun
  have keep : ∀ pair ∈ scripts ++ styles, pair.2.Keeps pair.1.block ∧
      (pair.2.replacement pair.1).WritesBack document := by
    intro pair member
    rcases List.mem_append.mp member with script | style
    · exact scriptsKeep pair script
    · exact stylesKeep pair style
  have complete : ∀ replacement ∈ (scripts ++ styles).map fun pair =>
        pair.2.replacement pair.1,
      ∀ map ∈ replacement.map, map.Complete := by
    intro replacement member
    obtain ⟨pair, among, rfl⟩ := List.mem_map.mp member
    exact (keep pair among).1.complete
  obtain ⟨map, spliced, isSome⟩ :=
    exists_splice complete document filename (projectRootOf filename) sourceMap
  have unchanged : spliceText (splicePlan document ((scripts ++ styles).map
      fun pair => pair.2.replacement pair.1)) = document := by
    refine spliceText_of_writesBack fun replacement member => ?_
    obtain ⟨pair, among, rfl⟩ := List.mem_map.mp member
    exact (keep pair among).2
  have noFiles : ((scripts ++ styles).flatMap fun pair => pair.2.dependencies) = [] :=
    List.flatMap_eq_nil_iff.mpr fun pair member => (keep pair member).1.dependencies
  have composed : finalMap map none filename = .ok map := by
    cases map <;> rfl
  refine ⟨_, preprocess_of_steps hooked markup scriptsDone stylesDone spliced composed,
    unchanged, ?_, isSome⟩
  exact congrArg (fun files => distinctPaths ([] ++ files)) noFiles

/-! ## A quiet document -/

namespace Preprocessor

/-- A style that mentions a marker that is not bare, in a language that has to be
given as an alias, inside a script. -/
def quietSample : Text :=
  "<script><style lang=less>:global(a)\x7b\x7d</style></script>"

/-- The aliases of the sample. -/
def quietAliases : List (Text × Text) := [("less", "css")]

/-- The script of the sample. -/
def quietScript : Element := ⟨none, some "<style lang=less>:global(a)\x7b\x7d</style>"⟩

/-- The style of the sample. -/
def quietStyle : Element := ⟨some " lang=less", some ":global(a)\x7b\x7d"⟩

theorem elementsOf_script_quietSample :
    elementsOf BlockKind.script.tagName quietSample = [(0, quietScript)] := by
  unfold BlockKind.tagName
  with_unfolding_all rfl

theorem elementsOf_style_quietSample :
    elementsOf BlockKind.style.tagName quietSample = [(8, quietStyle)] := by
  unfold BlockKind.tagName
  with_unfolding_all rfl

theorem unmarked_quietStyle : Css.Unmarked ":global(a)\x7b\x7d" := by
  have parsed : Css.Stylesheet.parse ":global(a)\x7b\x7d" =
      .ok ⟨[.rule [] ":global(a)" [] [] [] ⟨⟨0, 0⟩, 0⟩], []⟩ := by
    with_unfolding_all rfl
  refine .inr ⟨_, parsed, Css.rulesHave_rule_iff.mpr ⟨?_, Css.rulesHave_nil⟩⟩
  have only : Css.selectorsOf ":global(a)" = [":global(a)"] := by decide +kernel
  intro selector member
  rw [only] at member
  rw [List.mem_singleton.mp member, Selector.hasMarker_iff_of_splitOnMarker
    (show Selector.splitOnMarker ":global(a)" = .segments ":global(a)" [] by decide +kernel)]
  exact not_not_intro rfl

/-- The blocks of the sample are its script and its style. -/
theorem eq_of_mem_findBlocks_quietSample
    {kind : BlockKind}
    (notMarkup : kind ≠ .markup)
    {found : FoundBlock}
    (member : found ∈ findBlocks quietSample kind sampleFile) :
    found = .ofElement quietSample sampleFile .script 0 quietScript ∨
      found = .ofElement quietSample sampleFile .style 8 quietStyle := by
  obtain ⟨offset, element, listed, rfl⟩ := exists_element_of_mem_findBlocks notMarkup member
  cases kind with
  | markup => exact absurd rfl notMarkup
  | script =>
      rw [elementsOf_script_quietSample] at listed
      cases List.mem_singleton.mp listed
      exact .inl rfl
  | style =>
      rw [elementsOf_style_quietSample] at listed
      cases List.mem_singleton.mp listed
      exact .inr rfl

theorem asksForNothing_quietSample :
    AsksForNothing (.ofPairs quietAliases) quietSample sampleFile where
  noTemplate := by
    unfold BlockKind.tagName
    with_unfolding_all rfl
  opened := by
    intro kind notMarkup entry member
    cases kind with
    | markup => exact absurd rfl notMarkup
    | script =>
        rw [elementsOf_script_quietSample, List.mem_singleton] at member
        rw [member]
        exact nofun
    | style =>
        rw [elementsOf_style_quietSample, List.mem_singleton] at member
        rw [member]
        exact nofun
  own := by
    intro kind notMarkup found member
    rcases eq_of_mem_findBlocks_quietSample notMarkup member with rfl | rfl
    · decide +kernel
    · decide +kernel
  language := by
    intro kind notMarkup found member
    rcases eq_of_mem_findBlocks_quietSample notMarkup member with rfl | rfl
    · decide +kernel
    · decide +kernel
  unmarked := by
    intro found member
    have notMarkup : BlockKind.style ≠ .markup := nofun
    have isStyle := kind_of_mem_findBlocks notMarkup member
    rcases eq_of_mem_findBlocks_quietSample notMarkup member with rfl | rfl
    · cases isStyle
    · exact unmarked_quietStyle

theorem preprocess_of_asksForNothing_quietSample :
    AsksForNothing (.ofPairs quietAliases) quietSample sampleFile ∧
      ∃ output,
        (ofDefaults (fun _ _ _ => .error []) quietAliases true FileStore.empty.access).preprocess
            .cooperative quietSample sampleFile = .finished output ∧
          output.code = quietSample ∧ output.dependencies = [] ∧
            output.map.isSome = true :=
  ⟨asksForNothing_quietSample,
    preprocess_of_asksForNothing _ quietAliases true FileStore.empty.access
      Schedule.completes_cooperative asksForNothing_quietSample⟩

end Preprocessor

end ComponentPipeline
