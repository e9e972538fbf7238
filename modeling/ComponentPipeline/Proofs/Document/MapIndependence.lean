import ComponentPipeline.Proofs.Chain.Indifference
import ComponentPipeline.Proofs.Document.Assembly
import ComponentPipeline.Proofs.Document.FaithfulMap

/-!
# Asking for maps changes nothing else

If the transformers of a registry are indifferent to maps, a component is
preprocessed to the same code and dependencies without maps, or fails in the
same way, unless a map cannot be made.  Every step agrees with the same step
without maps: the work on a block, the splice, the blocks of one kind and the
run.
-/

namespace ComponentPipeline

/-! ## Blocks -/

namespace Preprocessor

/-- A preprocessor that is asked for maps or not. -/
def withSourceMap (preprocessor : Preprocessor) (sourceMap : Bool) : Preprocessor :=
  { preprocessor with options := preprocessor.options.withSourceMap sourceMap }

end Preprocessor

/-- A processed block has the code and the dependencies that it has without
maps. -/
structure BlockOutput.Matches (output plain : BlockOutput) : Prop where
  code : output.code = plain.code
  dependencies : output.dependencies = plain.dependencies

theorem Registry.ne_sourceMap_of_chain
    {registry : Registry}
    {language : Text}
    {kind : BlockKind}
    {filename : Path}
    {error : ComponentError}
    (failed : registry.chain language kind filename = .error error)
    (cause : Text) :
    error ≠ .sourceMap cause := by
  rintro rfl
  unfold Registry.chain at failed
  split at failed <;> cases failed

namespace Preprocessor

variable {preprocessor : Preprocessor}
variable {mapped : Bool}
variable {caught plainCaught : Option Text → Option ComponentError}

theorem ne_sourceMap_of_load
    {block : Block}
    {error : ComponentError}
    (failed : preprocessor.load block = .error error)
    (cause : Text) :
    error ≠ .sourceMap cause := by
  rintro rfl
  simp only [load] at failed
  split at failed
  · split at failed <;> cases failed
  · split at failed <;> cases failed

theorem agrees_finishBlock
    (projectRoot : Path)
    (loaded : Loaded)
    (prepared : Prepared)
    {output plain : ChainOutput}
    (same : output.Matches plain) :
    Outcome.Agrees mapped BlockOutput.Matches
      (.ofExcept ((preprocessor.withSourceMap mapped).finishBlock projectRoot loaded prepared
        output))
      (.ofExcept ((preprocessor.withSourceMap false).finishBlock projectRoot loaded prepared
        plain)) := by
  have dependencies := congrArg (loaded.dependencies ++ ·) same.dependencies
  cases mapped with
  | false => exact .finished ⟨same.code, dependencies⟩
  | true =>
      simp only [finishBlock, withSourceMap, Options.withSourceMap, if_true]
      split
      · exact .finished ⟨same.code, dependencies⟩
      · exact .mapFailed rfl

theorem agrees_processLoaded
    (indifferent : preprocessor.registry.Indifferent)
    {block : Block}
    {chain : Chain}
    (built : preprocessor.chainFor block = .ok chain)
    (loaded : Loaded) :
    Outcome.Agrees mapped BlockOutput.Matches
      (.ofJob caught ((preprocessor.withSourceMap mapped).processLoaded block chain loaded))
      (.ofJob plainCaught
        ((preprocessor.withSourceMap false).processLoaded block chain loaded)) := by
  have stages : ∀ stage ∈ chain.stages, stage.transformer.Indifferent := by
    intro stage member
    obtain ⟨key, found⟩ := Registry.exists_lookup_of_chain built member
    exact indifferent key stage found
  have builtToo (sourceMap : Bool) :
      (preprocessor.withSourceMap sourceMap).chainFor block = .ok chain := built
  rw [ofJob_processLoaded (builtToo mapped), ofJob_processLoaded (builtToo false)]
  have runs := @agrees_run caught plainCaught
    ((preprocessor.withSourceMap mapped).chainInputFor block loaded.filename) chain stages
    (preprocessor.preparedFor block loaded.content).code
  exact runs.bind fun _ _ same => agrees_finishBlock _ _ _ same

theorem agrees_processBlock
    (indifferent : preprocessor.registry.Indifferent)
    (block : Block) :
    Outcome.Agrees mapped BlockOutput.Matches
      (.ofJob caught ((preprocessor.withSourceMap mapped).processBlock block))
      (.ofJob plainCaught ((preprocessor.withSourceMap false).processBlock block)) := by
  rw [ofJob_processBlock, ofJob_processBlock]
  have chains : Outcome.Agrees mapped _
      (.ofExcept (preprocessor.chainFor block)) (.ofExcept (preprocessor.chainFor block)) :=
    .ofExcept fun error failed => Registry.ne_sourceMap_of_chain failed
  refine chains.bind ?_
  rintro chain _ ⟨built, rfl⟩
  have loads : Outcome.Agrees mapped _
      (.ofExcept (preprocessor.load block)) (.ofExcept (preprocessor.load block)) :=
    .ofExcept fun error failed => ne_sourceMap_of_load failed
  refine loads.bind ?_
  rintro loaded _ ⟨-, rfl⟩
  cases loaded with
  | none => exact .finished ⟨rfl, rfl⟩
  | some loaded => exact agrees_processLoaded indifferent built loaded

end Preprocessor

/-! ## Splices -/

/-- What a plan writes depends on the parts that are replaced, not on maps. -/
theorem spliceText_planFrom_eq
    {document : Text}
    {replacements plain : List Replacement}
    (same : replacements.map Replacement.part = plain.map Replacement.part)
    (cursor : Nat)
    (location plainLocation : Location) :
    spliceText (planFrom document cursor location replacements) =
      spliceText (planFrom document cursor plainLocation plain) := by
  induction replacements generalizing plain cursor location plainLocation with
  | nil =>
      cases List.map_eq_nil_iff.mp same.symm
      rfl
  | cons replacement rest ih =>
      obtain ⟨other, others, rfl, part, parts⟩ := List.map_eq_cons_iff.mp same.symm
      obtain ⟨span, text⟩ := Part.mk.inj part
      -- Whether a replacement is passed over is read off its span alone.
      have skipped (cursor : Nat) : replacement.isSkipped cursor (Text.size document) =
          other.isSkipped cursor (Text.size document) := by
        simp only [Replacement.isSkipped, span]
      simp only [planFrom, skipped]
      split
      · exact ih parts.symm _ _ _
      · simp only [spliceText, List.flatMap_cons, SplicePiece.text, span, text] at ih ⊢
        rw [ih parts.symm]

theorem spliceText_splicePlan_eq
    {replacements plain : List Replacement}
    (same : replacements.map Replacement.part = plain.map Replacement.part)
    (document : Text) :
    spliceText (splicePlan document replacements) =
      spliceText (splicePlan document plain) := by
  refine spliceText_planFrom_eq ?_ 0 _ _
  rw [map_part_byStart, map_part_byStart, same]

/-- A splice with or without a map is the splice without one. -/
theorem agrees_splice
    {mapped : Bool}
    {replacements plain : List Replacement}
    (same : replacements.map Replacement.part = plain.map Replacement.part)
    (document : Text)
    (filename projectRoot : Path) :
    Outcome.Agrees mapped
      (fun spliced plain =>
        spliced.1 = plain.1 ∧ plain.2 = none ∧ (mapped = false → spliced.2 = none))
      (.ofExcept (splice document filename projectRoot replacements mapped))
      (.ofExcept (splice document filename projectRoot plain false)) := by
  have text := spliceText_splicePlan_eq same document
  cases mapped with
  | false => exact .finished ⟨text, rfl, fun _ => rfl⟩
  | true =>
      simp only [splice, if_true]
      split
      · exact .finished ⟨text, rfl, fun unasked => Bool.noConfusion unasked⟩
      · exact .mapFailed rfl

/-! ## Components -/

/-- A document after its markup is what it is without maps. -/
structure MarkupOutput.Matches (mapped : Bool) (markup plain : MarkupOutput) : Prop where
  code : markup.code = plain.code
  dependencies : markup.dependencies = plain.dependencies
  plainMap : plain.map = none
  unasked : mapped = false → markup.map = none

/-- A preprocessed component has the code and the dependencies that it has
without maps. -/
structure Output.Matches (output plain : Output) : Prop where
  code : output.code = plain.code
  dependencies : output.dependencies = plain.dependencies

/-- Processed blocks are those of the document, and as they are without maps. -/
def BlocksMatch (processed plain : List (FoundBlock × BlockOutput)) : Prop :=
  List.Forall₂ (fun pair other => pair.1 = other.1 ∧ pair.2.Matches other.2) processed plain

theorem BlockOutput.Matches.part_replacement
    {output plain : BlockOutput}
    (same : output.Matches plain)
    (found : FoundBlock) :
    (output.replacement found).part = (plain.replacement found).part := by
  simp only [Replacement.part, Replacement.text, BlockOutput.replacement, same.code]

theorem parts_of_blocksMatch
    {processed plain : List (FoundBlock × BlockOutput)}
    (same : BlocksMatch processed plain) :
    (processed.map fun (found, output) => output.replacement found).map Replacement.part =
      (plain.map fun (found, output) => output.replacement found).map Replacement.part := by
  induction same with
  | nil => rfl
  | @cons pair other _ _ first _ ih =>
      obtain ⟨found, output⟩ := pair
      obtain ⟨_, plain⟩ := other
      obtain ⟨rfl, same⟩ := first
      rw [List.map_cons, List.map_cons, List.map_cons, List.map_cons, ih,
        same.part_replacement]

theorem dependencies_of_blocksMatch
    {processed plain : List (FoundBlock × BlockOutput)}
    (same : BlocksMatch processed plain) :
    (processed.flatMap fun (_, output) => output.dependencies) =
      plain.flatMap fun (_, output) => output.dependencies := by
  induction same with
  | nil => rfl
  | @cons pair other _ _ first _ ih =>
      obtain ⟨found, output⟩ := pair
      obtain ⟨_, plain⟩ := other
      obtain ⟨rfl, same⟩ := first
      rw [List.flatMap_cons, List.flatMap_cons, ih]
      exact congrArg (· ++ _) same.dependencies

theorem blocksMatch_zip
    {found : List FoundBlock}
    {outputs plain : List BlockOutput}
    (same : List.Forall₂ BlockOutput.Matches outputs plain) :
    BlocksMatch (found.zip outputs) (found.zip plain) := by
  induction same generalizing found with
  | nil => cases found <;> exact .nil
  | cons first _ ih =>
      cases found with
      | nil => exact .nil
      | cons block rest => exact .cons ⟨rfl, first⟩ ih

namespace Preprocessor

variable {preprocessor : Preprocessor}
variable {mapped : Bool}

theorem agrees_processMarkup
    (indifferent : preprocessor.registry.Indifferent)
    (document : Text)
    (filename : Path) :
    Outcome.Agrees mapped (MarkupOutput.Matches mapped)
      ((preprocessor.withSourceMap mapped).processMarkup document filename)
      ((preprocessor.withSourceMap false).processMarkup document filename) := by
  unfold processMarkup
  cases findMarkupBlock? document filename with
  | none => exact .finished ⟨rfl, rfl, rfl, fun _ => rfl⟩
  | some found =>
      refine (agrees_processBlock indifferent found.block).bind fun output plain same => ?_
      have parts := parts_of_blocksMatch (.cons ⟨rfl, same⟩ .nil :
        BlocksMatch [(found, output)] [(found, plain)])
      refine (agrees_splice parts document filename (projectRootOf filename)).bind ?_
      rintro ⟨code, map⟩ ⟨plainCode, plainMap⟩ ⟨sameCode, noMap, unasked⟩
      exact .finished ⟨sameCode, same.dependencies, noMap, unasked⟩

theorem agrees_processKind
    (indifferent : preprocessor.registry.Indifferent)
    {schedule plainSchedule : Schedule}
    {document : Text}
    {filename : Path}
    {kind : BlockKind}
    (sameOrder :
      schedule.order (((preprocessor.withSourceMap mapped).kindJobs document filename
          kind).map Job.turns?) =
        plainSchedule.order (((preprocessor.withSourceMap false).kindJobs document filename
          kind).map Job.turns?)) :
    Outcome.Agrees mapped BlocksMatch
      ((preprocessor.withSourceMap mapped).processKind schedule document filename kind)
      ((preprocessor.withSourceMap false).processKind plainSchedule document filename kind) := by
  have jobs : JobsAgree mapped BlockOutput.Matches
      ((preprocessor.withSourceMap mapped).kindJobs document filename kind)
      ((preprocessor.withSourceMap false).kindJobs document filename kind) := by
    refine List.forall₂_map_left_iff.mpr (List.forall₂_map_right_iff.mpr ?_)
    exact List.forall₂_same.mpr fun block _ _ _ => agrees_processBlock indifferent block
  rw [processKind_eq, processKind_eq]
  exact (jobs.collect sameOrder).bind fun outputs plain same => .finished (blocksMatch_zip same)

theorem agrees_finalMap
    {map markupMap : Option SourceMap}
    (unasked : mapped = false → map = none)
    (filename : Path) :
    Outcome.Agrees mapped (fun _ _ => True)
      (.ofExcept (finalMap map markupMap filename)) (.ofExcept (finalMap none none filename)) := by
  cases mapped with
  | false =>
      rw [unasked rfl]
      exact .finished trivial
  | true =>
      unfold finalMap
      split
      · split
        · exact .finished trivial
        · exact .mapFailed rfl
      · exact .finished trivial

/-- The hook has done its work before maps matter. -/
theorem ne_sourceMap_of_applyHook
    {content : Text}
    {filename : Path}
    {error : ComponentError}
    (failed : preprocessor.applyHook content filename = .error error)
    (cause : Text) :
    error ≠ .sourceMap cause := by
  rintro rfl
  unfold applyHook at failed
  split at failed
  · cases failed
  · rename_i hook _
    cases changed : hook content filename with
    | ok document => simp [changed, Except.mapError] at failed
    | error message => simp [changed, Except.mapError] at failed

/-- Under two schedules the blocks that are processed after the markup complete
in one order, under the second one without maps. -/
def SameOrder
    (preprocessor : Preprocessor)
    (mapped : Bool)
    (schedule plainSchedule : Schedule)
    (content : Text)
    (filename : Path) :
    Prop :=
  ∀ document markup, preprocessor.applyHook content filename = .ok document →
    (preprocessor.withSourceMap mapped).processMarkup document filename = .finished markup →
      ∀ kind, kind ≠ .markup →
        schedule.order (((preprocessor.withSourceMap mapped).kindJobs markup.code filename
            kind).map Job.turns?) =
          plainSchedule.order (((preprocessor.withSourceMap false).kindJobs markup.code
            filename kind).map Job.turns?)

theorem agrees_preprocess
    (indifferent : preprocessor.registry.Indifferent)
    {schedule plainSchedule : Schedule}
    {content : Text}
    {filename : Path}
    (sameOrder : preprocessor.SameOrder mapped schedule plainSchedule content filename) :
    Outcome.Agrees mapped Output.Matches
      ((preprocessor.withSourceMap mapped).preprocess schedule content filename)
      ((preprocessor.withSourceMap false).preprocess plainSchedule content filename) := by
  have hooks : Outcome.Agrees mapped _
      (.ofExcept (preprocessor.applyHook content filename))
      (.ofExcept (preprocessor.applyHook content filename)) :=
    .ofExcept fun error failed => ne_sourceMap_of_applyHook failed
  unfold preprocess
  refine hooks.bind ?_
  rintro document _ ⟨hooked, rfl⟩
  refine (agrees_processMarkup indifferent document filename).with_finished.bind ?_
  rintro markup plainMarkup ⟨markupDone, sameMarkup⟩
  have orders := sameOrder document markup hooked markupDone
  -- The blocks are looked for in one document, with and without maps.
  rw [← sameMarkup.code]
  refine (agrees_processKind indifferent (orders .script nofun)).bind fun scripts plainScripts
    sameScripts => ?_
  refine (agrees_processKind indifferent (orders .style nofun)).bind fun styles plainStyles
    sameStyles => ?_
  have sameBlocks : BlocksMatch (scripts ++ styles) (plainScripts ++ plainStyles) :=
    List.rel_append sameScripts sameStyles
  refine (agrees_splice (parts_of_blocksMatch sameBlocks) markup.code filename
    (projectRootOf filename)).bind ?_
  rintro ⟨code, map⟩ ⟨_, _⟩ ⟨rfl, rfl, unasked⟩
  rw [sameMarkup.plainMap]
  refine (agrees_finalMap unasked filename).bind fun _ _ _ => .finished ⟨rfl, ?_⟩
  exact congrArg distinctPaths
    (congrArg₂ (· ++ ·) sameMarkup.dependencies (dependencies_of_blocksMatch sameBlocks))

/-- Asking for maps changes nothing else.  When the transformers of a registry
work alike with and without maps, and the blocks of a component complete in one
order, a component that is preprocessed with maps has the same code and
dependencies without them; a failure that is not about maps is the same without
them; and what is never done with maps is never done without them.  Without maps
no failure is about maps.  The identity and the removal of global markers work
alike. -/
theorem maps_change_nothing_else
    (preprocessor : Preprocessor)
    (indifferent : preprocessor.registry.Indifferent)
    (schedule plainSchedule : Schedule)
    (content : Text)
    (filename : Path) :
    (preprocessor.SameOrder true schedule plainSchedule content filename →
      (∀ output,
        (preprocessor.withSourceMap true).preprocess schedule content filename =
            .finished output →
          ∃ plain,
            (preprocessor.withSourceMap false).preprocess plainSchedule content filename =
                .finished plain ∧
              plain.code = output.code ∧ plain.dependencies = output.dependencies) ∧
      (∀ error, (∀ cause, error ≠ .sourceMap cause) →
        (preprocessor.withSourceMap true).preprocess schedule content filename =
            .failed error →
          (preprocessor.withSourceMap false).preprocess plainSchedule content filename =
            .failed error) ∧
      ((preprocessor.withSourceMap true).preprocess schedule content filename = .pending →
        (preprocessor.withSourceMap false).preprocess plainSchedule content filename =
          .pending)) ∧
    (∀ cause,
      (preprocessor.withSourceMap false).preprocess plainSchedule content filename ≠
        .failed (.sourceMap cause)) ∧
    Transformer.identity.Indifferent ∧
    ∀ neutralize, (Transformer.globalRule neutralize).Indifferent := by
  refine ⟨fun sameOrder => ?_, ?_, Transformer.indifferent_identity,
    Transformer.indifferent_globalRule⟩
  · have agrees := agrees_preprocess indifferent sameOrder
    refine ⟨fun output finished => ?_, fun error notOfMaps failed => ?_, fun pending => ?_⟩
    · rw [finished] at agrees
      obtain ⟨plain, plainFinished, same⟩ := agrees.exists_finished
      exact ⟨plain, plainFinished, same.code.symm, same.dependencies.symm⟩
    · rw [failed] at agrees
      exact agrees.eq_failed notOfMaps
    · rw [pending] at agrees
      exact agrees.eq_pending
  · have oneOrder : preprocessor.SameOrder false plainSchedule plainSchedule content filename :=
      fun _ _ _ _ _ _ => rfl
    exact (agrees_preprocess indifferent oneOrder).ne_sourceMap

/-- The transformers of `moving` work alike with and without maps. -/
theorem indifferent_moving : moving.registry.Indifferent := by
  refine Registry.indifferent_of_forall ?_ nofun
  intro entry member
  rw [List.mem_singleton.mp member]
  exact Transformer.indifferent_identity

/-- With and without maps, the jobs of `moving` complete as they are listed. -/
theorem sameOrder_moving (content : Text) (filename : Path) :
    moving.SameOrder true inListOrder inListOrder content filename := by
  intro document markup _ _ kind _
  simp only [inListOrder, kindJobs, blockJobs, List.length_map]

theorem maps_change_nothing_else_indentedSample :
    moving.preprocess inListOrder indentedSample sampleFile = .finished indentedOutput ∧
      ∃ plain,
        (moving.withSourceMap false).preprocess inListOrder indentedSample sampleFile =
            .finished plain ∧
          plain.code = indentedOutput.code ∧
            plain.dependencies = indentedOutput.dependencies := by
  obtain ⟨succeeds, -⟩ := maps_change_nothing_else moving indifferent_moving inListOrder
    inListOrder indentedSample sampleFile
  exact ⟨preprocess_indentedSample, (succeeds (sameOrder_moving _ _)).1 _ preprocess_indentedSample⟩

end Preprocessor
end ComponentPipeline
