import ComponentPipeline.Document.Block
import ComponentPipeline.Proofs.Chain.Steps
import ComponentPipeline.Proofs.Content.Preparation
import ComponentPipeline.Proofs.SourceMap.Chaining

/-!
# What chaining makes of the mappings of a stage

The map of a stage is extended by the maps of the stages before it, and the map
of a whole chain by that of the prepared content.  Both look up the location of
a place whatever its source, so a mapping into another file is moved as if it
led into the text that the stage was run on.
-/

namespace ComponentPipeline

/-! ## The stages of a chain -/

section Stages

variable {input : ChainInput} {language : Text}

/-- Stages run after others go on with the progress of these. -/
theorem runStages_append
    (index turn : Nat)
    (progress : Progress)
    (first second : List Stage) :
    input.runStages language index turn progress (first ++ second) =
      match input.runStages language index turn progress first with
      | .never => .never
      | .panicked turn message => .panicked turn message
      | .done turn (.error error) => .done turn (.error error)
      | .done turn (.ok progress) =>
          input.runStages language (index + first.length) turn progress second := by
  induction first generalizing index turn progress with
  | nil => rfl
  | cons stage rest ih =>
      simp only [List.cons_append, ChainInput.runStages]
      split
      · rfl
      · rfl
      · rfl
      · split
        · rfl
        · rw [ih, List.length_cons, Nat.add_right_comm, Nat.add_assoc]

/-- The map of a stage after others is extended by the map of these. -/
theorem nextMap_of_completeMap
    {progress : Progress}
    {earlier : SourceMap}
    (hasMap : progress.map = some earlier)
    (complete : earlier.Complete)
    (later : SourceMap) :
    ∃ extended, progress.nextMap (some later) = .ok (some extended) ∧
      extended.Complete ∧
        extended.origins = later.ordered.map fun mapping =>
          (mapping.generated,
            mapping.place.bind (earlier.chainedOrigin? later.projectRoot)) := by
  obtain ⟨extended, isExtended, extendedComplete, -, origins⟩ :=
    SourceMap.origins_of_extend complete later
  refine ⟨extended, ?_, extendedComplete, origins⟩
  simp only [Progress.nextMap, hasMap, isExtended]
  rfl

/-- The maps that a stage gives have the sources and names they refer to. -/
def Stage.GivesComplete (stage : Stage) : Prop :=
  ∀ context content turns result map,
    stage.transformer.run context content = .done turns (.ok result) →
      result.map = some map → map.Complete

/-- The map of a progress, if there is one, has the sources and names it refers
to. -/
def Progress.HasCompleteMap (progress : Progress) : Prop :=
  ∀ map, progress.map = some map → map.Complete

/-- A result with a complete map, or without one, does not stop a chain. -/
theorem exists_next
    {progress : Progress}
    (complete : progress.HasCompleteMap)
    {result : Result}
    (given : ∀ map, result.map = some map → map.Complete)
    (invocation : Invocation) :
    ∃ after, progress.next result invocation = .ok after ∧ after.HasCompleteMap ∧
      progress.nextMap result.map = .ok after.map := by
  obtain ⟨map, next, mapComplete⟩ : ∃ map,
      progress.nextMap result.map = .ok map ∧
        ∀ next, map = some next → next.Complete := by
    cases isGiven : result.map with
    | none => exact ⟨progress.map, rfl, complete⟩
    | some later =>
        cases before : progress.map with
        | none =>
            refine ⟨some later, ?_, isGiven ▸ given⟩
            simp only [Progress.nextMap, before]
        | some earlier =>
            obtain ⟨extended, isNext, extendedComplete, -⟩ :=
              nextMap_of_completeMap before (complete earlier before) later
            refine ⟨some extended, isNext, ?_⟩
            rintro _ ⟨⟩
            exact extendedComplete
  simp only [Progress.next, next]
  exact ⟨_, rfl, mapComplete, rfl⟩

/-- Stages that give complete maps, or none, come to a complete map or none. -/
theorem hasCompleteMap_of_runStages
    {stages : List Stage}
    (give : ∀ stage ∈ stages, stage.GivesComplete)
    {index turn : Nat}
    {progress final : Progress}
    (complete : progress.HasCompleteMap)
    (ran : (input.runStages language index turn progress stages).value? =
      some (.ok final)) :
    final.HasCompleteMap := by
  induction stages generalizing index turn progress with
  | nil =>
      cases ran
      exact complete
  | cons stage rest ih =>
      obtain ⟨turns, result, after, gave, advanced, ranRest⟩ :=
        exists_steps_of_runStages_cons ran
      obtain ⟨next, isNext, nextComplete, -⟩ :=
        exists_next complete
          (fun map => give stage List.mem_cons_self _ _ _ _ map gave)
          ⟨stage, input.context language stage, progress.code, turn + turns⟩
      cases isNext.symm.trans advanced
      exact ih (fun other member => give other (List.mem_cons_of_mem _ member))
        nextComplete ranRest

/-- The last stage of a chain, with stages before it that give a map, leads
through that map by the location of its places alone. -/
theorem Chain.origins_of_run
    {chain : Chain}
    {content : Text}
    {stages : List Stage}
    {last : Stage}
    (split : chain.stages = stages ++ [last])
    (give : ∀ stage ∈ stages, stage.GivesComplete)
    {turn turns : Nat}
    {progress : Progress}
    {earlier later : SourceMap}
    {result : Result}
    (before : input.runStages chain.language 0 0 (.ofContent content) stages =
      .done turn (.ok progress))
    (hasMap : progress.map = some earlier)
    (worked : last.transformer.run (input.context chain.language last) progress.code =
      .done turns (.ok result))
    (gives : result.map = some later) :
    ∃ output extended, chain.run input content = .done (turn + turns) (.ok output) ∧
      output.map = some extended ∧
        extended.origins = later.ordered.map fun mapping =>
          (mapping.generated,
            mapping.place.bind (earlier.chainedOrigin? later.projectRoot)) := by
  have complete : earlier.Complete :=
    hasCompleteMap_of_runStages give (by rintro _ ⟨⟩) (congrArg Job.value? before) earlier hasMap
  obtain ⟨extended, isNext, -, origins⟩ := nextMap_of_completeMap hasMap complete later
  let invocation : Invocation :=
    ⟨last, input.context chain.language last, progress.code, turn + turns⟩
  let final : Progress :=
    ⟨result.code, some extended, progress.dependencies ++ result.dependencies,
      progress.invocations ++ [invocation]⟩
  refine ⟨final.output, extended, ?_, rfl, origins⟩
  rw [Chain.run, split, runStages_append, before]
  simp only [ChainInput.runStages, worked, Progress.next, gives, isNext]
  rfl

end Stages

/-! ## Prepared contents -/

/-- The place in the content that a location in the prepared text is led to:
where the text of its line starts, unless the line is one of the data. -/
def Prepared.placeOf? (prepared : Prepared) (content : Text) (location : Location) :
    Option Place :=
  if location.line < prepared.prependedLines then none
  else
    (Text.lines content)[location.line - prepared.prependedLines]?.map fun text =>
      ⟨0, ⟨location.line - prepared.prependedLines, removedWidth prepared.indent text⟩,
        none⟩

section Prepared

variable (prepared : Prepared)

/-- A line of a prepared text has one mapping, or none. -/
theorem filter_lineMappings (start line : Nat) (texts : List Text) :
    (prepared.lineMappings start texts).filter
        (fun mapping => mapping.generated.line == line) =
      if line < start + prepared.prependedLines then []
      else
        (texts[line - (start + prepared.prependedLines)]?.map fun text =>
          (⟨⟨line, 0⟩,
            some ⟨0, ⟨line - prepared.prependedLines, removedWidth prepared.indent text⟩,
              none⟩⟩ : Mapping)).toList := by
  induction texts generalizing start with
  | nil => simp [Prepared.lineMappings]
  | cons text rest ih =>
      rw [Prepared.lineMappings, List.filter_cons, ih (start + 1)]
      rcases Nat.lt_trichotomy line (start + prepared.prependedLines) with
        before | rfl | behind
      · have elsewhere : ¬((start + prepared.prependedLines == line) = true) := by
          simpa using before.ne'
        rw [if_neg elsewhere, if_pos (by omega), if_pos before]
      · rw [if_pos (beq_self_eq_true _), if_pos (by omega), if_neg (Nat.lt_irrefl _),
          Nat.sub_self, Nat.add_sub_cancel]
        rfl
      · have elsewhere : ¬((start + prepared.prependedLines == line) = true) := by
          simpa using behind.ne
        have further : line - (start + prepared.prependedLines) =
            line - (start + 1 + prepared.prependedLines) + 1 := by omega
        rw [if_neg elsewhere, if_neg (by omega), if_neg (by omega), further,
          List.getElem?_cons_succ]

variable (content : Text) (filename projectRoot : Path)

/-- Any location on a line of a prepared text is led to where the text of that
line starts. -/
theorem closest?_sourceMap (location : Location) :
    ((prepared.sourceMap filename content projectRoot).closest? location).bind
        Mapping.place =
      prepared.placeOf? content location := by
  have listed : (prepared.sourceMap filename content projectRoot).lineMappings
      location.line = ((prepared.placeOf? content location).map fun place =>
        (⟨⟨location.line, 0⟩, some place⟩ : Mapping)).toList := by
    have mappings : (prepared.sourceMap filename content projectRoot).mappings =
        prepared.lineMappings 0 (Text.lines content) := List.nil_append _
    rw [SourceMap.lineMappings, mappings, filter_lineMappings, Nat.zero_add,
      Prepared.placeOf?]
    split
    · exact List.mergeSort_nil
    · cases (Text.lines content)[location.line - prepared.prependedLines]? with
      | none => exact List.mergeSort_nil
      | some text => exact List.mergeSort_singleton _
  rw [SourceMap.closest?, listed]
  cases prepared.placeOf? content location with
  | none => rfl
  | some place =>
      simp only [Option.map_some, Option.toList_some, SourceMap.closestInLine,
        List.takeWhile_cons, Nat.zero_le, decide_true, if_true, List.takeWhile_nil,
        List.getLast?_singleton]
      split <;> rfl

/-- The places of a prepared content are in its one source. -/
theorem complete_sourceMap :
    (prepared.sourceMap filename content projectRoot).Complete := by
  apply SourceMap.complete_addAll_ofSource
  intro mapping member
  obtain ⟨number, line, -, rfl⟩ := Prepared.mem_lineMappings member
  exact ⟨_, rfl⟩

/-- Where the map of a prepared content leads from a place. -/
theorem chainedOrigin?_sourceMap (root : Text) (place : Place) :
    (prepared.sourceMap filename content projectRoot).chainedOrigin? root place =
      (prepared.placeOf? content place.location).map fun first =>
        ⟨SourceName.relative root (SourceName.relative projectRoot filename),
          first.location, none⟩ := by
  rw [SourceMap.chainedOrigin?, closest?_sourceMap, Prepared.placeOf?]
  split
  · rfl
  · cases (Text.lines content)[place.location.line - prepared.prependedLines]? <;> rfl

/-- The map of a chain on a shifted content leads each of its mappings to where
a line of the content starts, by the line of its place alone. -/
theorem origins_of_blockMap (shifted : prepared.isShifted = true) (map : SourceMap) :
    ∃ chained, blockMap (some map) prepared content filename projectRoot = .ok chained ∧
      chained.Complete ∧
        chained.origins = map.ordered.map fun mapping =>
          (mapping.generated,
            mapping.place.bind fun place =>
              (prepared.placeOf? content place.location).map fun first =>
                ⟨SourceName.relative map.projectRoot
                    (SourceName.relative projectRoot filename),
                  first.location, none⟩) := by
  obtain ⟨chained, isChained, complete, -, origins⟩ :=
    SourceMap.origins_of_extend (complete_sourceMap prepared content filename projectRoot)
      map
  refine ⟨chained, ?_, complete, ?_⟩
  · simp only [blockMap, shifted]
    exact isChained
  · rw [origins]
    simp only [funext (chainedOrigin?_sourceMap prepared content filename projectRoot
      map.projectRoot)]

end Prepared

/-! ## Places in other files -/

/-- The mapping of a number, line by line, leads in a chained map to where it led
before. -/
def SourceMap.Stays (map chained : SourceMap) (number : Nat) (mapping : Mapping) : Prop :=
  chained.origins[number]? = some (mapping.generated, mapping.place.bind map.origin?)

theorem stays_iff_of_origins
    {map chained : SourceMap}
    {lead : Place → Option Origin}
    (origins : chained.origins =
      map.ordered.map fun mapping => (mapping.generated, mapping.place.bind lead))
    {number : Nat}
    {mapping : Mapping}
    (listed : map.ordered[number]? = some mapping) :
    map.Stays chained number mapping ↔
      mapping.place.bind lead = mapping.place.bind map.origin? := by
  rw [SourceMap.Stays, origins, List.getElem?_map, listed, Option.map_some,
    Option.some.injEq, Prod.mk.injEq]
  exact and_iff_right rfl

/-- In a whole run of a chain, a mapping of the last stage stays as it is exactly if
the map of the stages before it leads from the location of its place to that very
place; which file the place is in does not count. -/
theorem Chain.stays_iff_of_run
    {input : ChainInput}
    {chain : Chain}
    {content : Text}
    {stages : List Stage}
    {last : Stage}
    (split : chain.stages = stages ++ [last])
    (give : ∀ stage ∈ stages, stage.GivesComplete)
    {turn turns : Nat}
    {progress : Progress}
    {earlier later : SourceMap}
    {result : Result}
    (before : input.runStages chain.language 0 0 (.ofContent content) stages =
      .done turn (.ok progress))
    (hasMap : progress.map = some earlier)
    (worked : last.transformer.run (input.context chain.language last) progress.code =
      .done turns (.ok result))
    (gives : result.map = some later) :
    ∃ output extended, chain.run input content = .done (turn + turns) (.ok output) ∧
      output.map = some extended ∧
        ∀ number mapping, later.ordered[number]? = some mapping →
          (later.Stays extended number mapping ↔
            mapping.place.bind (earlier.chainedOrigin? later.projectRoot) =
              mapping.place.bind later.origin?) := by
  obtain ⟨output, extended, ran, isMap, origins⟩ :=
    Chain.origins_of_run split give before hasMap worked gives
  exact ⟨output, extended, ran, isMap,
    fun number mapping listed => stays_iff_of_origins origins listed⟩

/-- Whether a stage is chained to the stages before it or a chain to the
prepared content, a mapping stays as it is exactly if the earlier map leads
from the location of its place to that very place; which file the place is in
does not count. -/
theorem stays_iff_of_chaining
    {progress : Progress}
    {earlier : SourceMap}
    (hasMap : progress.map = some earlier)
    (complete : earlier.Complete)
    {prepared : Prepared}
    (shifted : prepared.isShifted = true)
    (map : SourceMap)
    (content : Text)
    (filename projectRoot : Path) :
    (∃ chained, progress.nextMap (some map) = .ok (some chained) ∧
      ∀ number mapping, map.ordered[number]? = some mapping →
        (map.Stays chained number mapping ↔
          mapping.place.bind (earlier.chainedOrigin? map.projectRoot) =
            mapping.place.bind map.origin?)) ∧
    ∃ chained, blockMap (some map) prepared content filename projectRoot = .ok chained ∧
      ∀ number mapping, map.ordered[number]? = some mapping →
        (map.Stays chained number mapping ↔
          (mapping.place.bind fun place =>
            (prepared.placeOf? content place.location).map fun first =>
              ⟨SourceName.relative map.projectRoot
                  (SourceName.relative projectRoot filename),
                first.location, none⟩) =
            mapping.place.bind map.origin?) := by
  constructor
  · obtain ⟨chained, isNext, -, origins⟩ := nextMap_of_completeMap hasMap complete map
    exact ⟨chained, isNext, fun number mapping listed => stays_iff_of_origins origins listed⟩
  · obtain ⟨chained, isChained, -, origins⟩ :=
      origins_of_blockMap prepared content filename projectRoot shifted map
    exact ⟨chained, isChained,
      fun number mapping listed => stays_iff_of_origins origins listed⟩

/-- The map of a stage that has taken over a rule of another file. -/
def importingSample : SourceMap where
  projectRoot := "/app"
  sources := ["App.svelte", "vars.css"]
  contents := []
  names := []
  mappings := [⟨⟨0, 3⟩, some ⟨1, ⟨1, 4⟩, none⟩⟩]

/-- A content behind a line of data. -/
def prependedSample : Prepared := ⟨"$x: 1;\nb\x7b\x7d", 1, 0⟩

/-- The map of a stage that has moved the rule down by a line. -/
def movingSample : SourceMap where
  projectRoot := "/app"
  sources := ["App.svelte"]
  contents := []
  names := []
  mappings := [⟨⟨1, 0⟩, some ⟨0, ⟨0, 0⟩, none⟩⟩]

/-- The progress of a chain after that stage. -/
def movedSample : Progress := ⟨"\nb\x7b\x7d", some movingSample, [], []⟩

theorem closest?_movingSample :
    movingSample.closest? ⟨1, 4⟩ = some ⟨⟨1, 0⟩, some ⟨0, ⟨0, 0⟩, none⟩⟩ := by
  have leftmost : movingSample.Leftmost (Location.line ⟨1, 4⟩)
      ⟨⟨1, 0⟩, some ⟨0, ⟨0, 0⟩, none⟩⟩ :=
    ⟨by decide, rfl, fun _ _ _ => Nat.zero_le _⟩
  have distinct : movingSample.Distinct := by decide
  refine SourceMap.closest?_of_outside distinct leftmost (.inl ?_)
  rintro ⟨mapping, member, -, further⟩
  revert mapping
  decide

theorem ordered_importingSample :
    importingSample.ordered = [⟨⟨0, 3⟩, some ⟨1, ⟨1, 4⟩, none⟩⟩] :=
  List.mergeSort_singleton _

/-- The mapping into the other file does not stay when it is chained. -/
theorem stays_iff_of_chaining_importingSample :
    movingSample.Complete ∧ prependedSample.isShifted = true ∧
      (∃ chained, movedSample.nextMap (some importingSample) = .ok (some chained) ∧
        ¬importingSample.Stays chained 0 ⟨⟨0, 3⟩, some ⟨1, ⟨1, 4⟩, none⟩⟩) ∧
      ∃ chained, blockMap (some importingSample) prependedSample "b\x7b\x7d"
          "/app/App.svelte" "/app" = .ok chained ∧
        ¬importingSample.Stays chained 0 ⟨⟨0, 3⟩, some ⟨1, ⟨1, 4⟩, none⟩⟩ := by
  have complete : movingSample.Complete := by decide
  have shifted : prependedSample.isShifted = true := by decide
  have listed : importingSample.ordered[0]? = some ⟨⟨0, 3⟩, some ⟨1, ⟨1, 4⟩, none⟩⟩ := by
    rw [ordered_importingSample]
    rfl
  have hasMap : movedSample.map = some movingSample := rfl
  obtain ⟨⟨next, isNext, nextStays⟩, chained, isChained, stays⟩ :=
    stays_iff_of_chaining hasMap complete shifted importingSample "b\x7b\x7d"
      "/app/App.svelte" "/app"
  refine ⟨complete, shifted, ⟨next, isNext, ?_⟩, chained, isChained, ?_⟩
  · rw [nextStays 0 _ listed, Option.bind_some, SourceMap.chainedOrigin?,
      closest?_movingSample]
    decide
  · rw [stays 0 _ listed]
    decide

/-- A mapping into another file than the block's does not always stay as it
is. -/
theorem blockMap_moves_other_files :
    ¬∀ (map : SourceMap) (prepared : Prepared) (content : Text)
      (filename projectRoot : Path),
      map.Complete → prepared.isShifted = true →
        ∃ chained, blockMap (some map) prepared content filename projectRoot = .ok chained ∧
          ∀ mapping ∈ map.mappings, ∀ place ∈ mapping.place,
            map.sourceIndex? filename ≠ some place.source →
              (mapping.generated, map.origin? place) ∈ chained.origins := by
  intro othersStay
  have shifted : prependedSample.isShifted = true := by decide
  obtain ⟨chained, isChained, stays⟩ :=
    othersStay importingSample prependedSample "b\x7b\x7d" "/app/App.svelte" "/app" (by decide)
      shifted
  obtain ⟨chainedToo, isChainedToo, -, origins⟩ :=
    origins_of_blockMap prependedSample "b\x7b\x7d" "/app/App.svelte" "/app" shifted
      importingSample
  cases isChainedToo.symm.trans isChained
  have kept := stays ⟨⟨0, 3⟩, some ⟨1, ⟨1, 4⟩, none⟩⟩ List.mem_cons_self
    ⟨1, ⟨1, 4⟩, none⟩ rfl (by decide)
  rw [origins, ordered_importingSample] at kept
  revert kept
  decide

end ComponentPipeline
