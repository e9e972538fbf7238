import ComponentPipeline.Document.Compose
import ComponentPipeline.Proofs.SourceMap.Copying
import ComponentPipeline.Proofs.SourceMap.Nearest

/-!
# What the composition of two maps says

The composed map says, mapping by mapping, what the later map says, with every
place in the intermediate document led through the earlier map.  Such a place
keeps its distance from the last mapping at or before it only if the line has a
mapping at the place or behind it.  Otherwise the distance is taken from the
start of the line, and added to where the leftmost mapping of the line leads.
-/

namespace ComponentPipeline

/-! ## Places of the intermediate document -/

/-- The place a number of columns further on. -/
def Place.further (distance : Nat) (place : Place) : Place :=
  { place with
    location := ⟨place.location.line, place.location.column + distance⟩ }

/-- The column that a location of the intermediate document takes its distance
from, and the place that the distance is added to. -/
inductive LedFrom (earlier : SourceMap) (location : Location) : Nat → Place → Prop
  /-- The last mapping at or before the location, if the line has a mapping
  there or further on. -/
  | nearest {mapping : Mapping} {place : Place} :
      earlier.NearestBefore location mapping →
      earlier.Reaches location →
      mapping.place = some place →
      LedFrom earlier location mapping.generated.column place
  /-- Behind the last mapping of the line and before the first one, the start
  of the line with the place of the leftmost mapping. -/
  | lineStart {mapping : Mapping} {place : Place} :
      earlier.Leftmost location.line mapping →
      ¬earlier.Reaches location ∨ location.column < mapping.generated.column →
      mapping.place = some place →
      LedFrom earlier location 0 place

section PlaceBefore

variable {earlier : SourceMap} {location : Location}

theorem placeBefore_of_closest?
    {found : Mapping}
    (closest : earlier.closest? location = some found)
    (line : found.generated.line = location.line)
    (atOrBefore : found.generated.column ≤ location.column) :
    placeBefore earlier location =
      found.place.map (Place.further (location.column - found.generated.column)) := by
  rw [placeBefore, closest]
  simp only [line, atOrBefore, and_self, if_true]
  rfl

/-- A location keeps its distance from the column it is led from. -/
theorem placeBefore_of_ledFrom
    (distinct : earlier.Distinct)
    {column : Nat}
    {place : Place}
    (led : LedFrom earlier location column place) :
    placeBefore earlier location = some (place.further (location.column - column)) := by
  cases led with
  | nearest nearest reaches placed =>
      rw [placeBefore_of_closest? (SourceMap.closest?_of_reaches distinct nearest reaches)
        nearest.line nearest.atOrBefore, placed]
      rfl
  | lineStart leftmost outside placed =>
      rw [placeBefore_of_closest? (SourceMap.closest?_of_outside distinct leftmost outside)
        rfl (Nat.zero_le _), placed]
      rfl

/-- Where a location comes from is in a source of the earlier map. -/
theorem exists_source_of_placeBefore
    (complete : earlier.Complete)
    {place : Place}
    (before : placeBefore earlier location = some place) :
    ∃ source, earlier.sources[place.source]? = some source := by
  unfold placeBefore at before
  split at before
  · cases before
  · rename_i found closest
    obtain ⟨given, placed, moved⟩ := Option.map_eq_some_iff.mp before
    obtain ⟨mapping, member, same⟩ := SourceMap.exists_of_closest? closest
    obtain ⟨origin, known⟩ := complete.exists_origin member (same.trans placed)
    have sameSource : place.source = given.source := by
      rw [← moved]
      split <;> rfl
    exact ⟨origin.source, sameSource ▸ (SourceMap.origin?_eq_some_iff.mp known).1⟩

end PlaceBefore

/-! ## The composed map -/

/-- Where a place of the later map leads in the end: through the earlier map if
it is in the intermediate document, and unchanged otherwise. -/
def ledThrough?
    (later earlier : SourceMap)
    (document : Option Nat)
    (projectRoot : Text)
    (place : Place) :
    Option Origin :=
  (later.nameText? place.name).bind fun name =>
    if some place.source = document then
      (placeBefore earlier place.location).bind fun first =>
        earlier.sources[first.source]?.map fun source =>
          ⟨SourceName.relative projectRoot source, first.location, name⟩
    else
      later.sources[place.source]?.map fun source =>
        ⟨SourceName.relative projectRoot source, place.location, name⟩

/-- What the composed map says for a mapping of the later map. -/
def composedOrigin?
    (later earlier : SourceMap)
    (document : Option Nat)
    (projectRoot : Text)
    (mapping : Mapping) :
    Option (Location × Option Origin) :=
  (mapping.place.bind (ledThrough? later earlier document projectRoot)).map fun origin =>
    (mapping.generated, some origin)

section Run

variable {later earlier : SourceMap}

/-- A map after another mapping has been led through the earlier map. -/
structure Composed
    (later earlier : SourceMap)
    (document : Option Nat)
    (composed : SourceMap)
    (mappings : List Mapping)
    (next : SourceMap) :
    Prop where
  /-- Sources are named relative to the same directory. -/
  projectRoot : next.projectRoot = composed.projectRoot
  /-- The map has all sources and names. -/
  complete : next.Complete
  /-- It says what it said, and what the mappings come to. -/
  origins : next.origins = composed.origins ++
    mappings.filterMap (composedOrigin? later earlier document composed.projectRoot)

/-- Copying a source and adding a mapping into it. -/
theorem exists_added
    {origin composed named : SourceMap}
    {index : Nat}
    {source : Text}
    (complete : composed.Complete)
    (grows : composed.Grows named)
    (listed : origin.sources[index]? = some source)
    (generated location : Location)
    {name : Option Nat}
    {text : Option Text}
    (nameListed : named.nameText? name = some text) :
    ∃ next,
      (do
        let (source, named) ← named.copySource origin index []
        return named.add ⟨generated, some ⟨source, location, name⟩⟩) = Except.ok next ∧
      next.projectRoot = composed.projectRoot ∧ next.Complete ∧
        next.origins = composed.origins ++
          [(generated,
            some ⟨SourceName.relative composed.projectRoot source, location, text⟩)] := by
  obtain ⟨copied, grown, copy, sourceListed, grewToo, -⟩ :=
    copySource_spec named origin listed []
  have known : grown.origin? ⟨copied, location, name⟩ =
      some ⟨SourceName.relative composed.projectRoot source, location, text⟩ := by
    refine SourceMap.origin?_eq_some_iff.mpr ⟨?_, rfl, grewToo.nameText? nameListed⟩
    rw [sourceListed, grows.projectRoot]
  have growsAll := grows.trans grewToo
  rw [copy]
  refine ⟨_, rfl, growsAll.projectRoot, (growsAll.complete complete).add ?_, ?_⟩
  · intro place placed
    rw [← Option.some.inj placed, known]
    rfl
  · rw [SourceMap.origins_add, growsAll.origins complete, Option.bind_some, known]

/-- One mapping of the later map adds what it comes to. -/
theorem composeMapping_spec
    (document : Option Nat)
    (earlierComplete : earlier.Complete)
    {composed : SourceMap}
    (complete : composed.Complete)
    {mapping : Mapping}
    (known : ∀ place ∈ mapping.place, (later.origin? place).isSome) :
    ∃ next, composeMapping later earlier document composed mapping = .ok next ∧
      Composed later earlier document composed [mapping] next := by
  unfold composeMapping
  cases placed : mapping.place with
  | none =>
      refine ⟨composed, rfl, rfl, complete, ?_⟩
      simp [composedOrigin?, placed]
  | some place =>
      obtain ⟨origin, written⟩ := Option.isSome_iff_exists.mp (known place placed)
      obtain ⟨sourceListed, -, nameListed⟩ := SourceMap.origin?_eq_some_iff.mp written
      obtain ⟨name, named, copied, nameCopied, grows⟩ :=
        copyName_spec composed later nameListed
      have said (comesTo : Option Origin)
          (led : ledThrough? later earlier document composed.projectRoot place = comesTo) :
          [mapping].filterMap
              (composedOrigin? later earlier document composed.projectRoot) =
            (comesTo.map fun origin => (mapping.generated, some origin)).toList := by
        simp only [composedOrigin?, placed, Option.bind_some, led, List.filterMap_cons,
          List.filterMap_nil]
        cases comesTo <;> rfl
      simp only [copied, bind, Except.bind]
      split
      · rename_i inDocument
        cases before : placeBefore earlier place.location with
        | none =>
            refine ⟨named, rfl, grows.projectRoot, grows.complete complete, ?_⟩
            rw [grows.origins complete, said none]
            · exact (List.append_nil _).symm
            · simp [ledThrough?, nameListed, inDocument, before]
        | some first =>
            obtain ⟨source, firstListed⟩ :=
              exists_source_of_placeBefore earlierComplete before
            obtain ⟨next, added, projectRoot, nextComplete, origins⟩ :=
              exists_added complete grows firstListed mapping.generated first.location
                nameCopied
            refine ⟨next, added, projectRoot, nextComplete, ?_⟩
            rw [origins, said (some _)]
            · rfl
            · simp [ledThrough?, nameListed, inDocument, before, firstListed]
      · rename_i elsewhere
        obtain ⟨next, added, projectRoot, nextComplete, origins⟩ :=
          exists_added complete grows sourceListed mapping.generated place.location
            nameCopied
        refine ⟨next, added, projectRoot, nextComplete, ?_⟩
        rw [origins, said (some _)]
        · rfl
        · simp [ledThrough?, nameListed, elsewhere, sourceListed]

/-- Mappings of the later map add what they come to, in order. -/
theorem composeMappings_spec
    (document : Option Nat)
    (earlierComplete : earlier.Complete)
    {mappings : List Mapping}
    (known : ∀ mapping ∈ mappings, ∀ place ∈ mapping.place,
      (later.origin? place).isSome)
    {composed : SourceMap}
    (complete : composed.Complete) :
    ∃ next, composeMappings later earlier document composed mappings = .ok next ∧
      Composed later earlier document composed mappings next := by
  induction mappings generalizing composed with
  | nil => exact ⟨composed, rfl, rfl, complete, (List.append_nil _).symm⟩
  | cons mapping rest ih =>
      obtain ⟨next, step, composedNext⟩ :=
        composeMapping_spec document earlierComplete complete
          (known mapping List.mem_cons_self)
      obtain ⟨last, run, composedLast⟩ :=
        ih (fun other member => known other (List.mem_cons_of_mem _ member))
          composedNext.complete
      refine ⟨last, ?_, composedLast.projectRoot.trans composedNext.projectRoot,
        composedLast.complete, ?_⟩
      · rw [composeMappings, step]
        exact run
      · rw [composedLast.origins, composedNext.origins, composedNext.projectRoot,
          List.append_assoc, ← List.filterMap_append, List.singleton_append]

/-- The composed map says what the mappings of the later map come to, line by
line, and nothing else. -/
theorem origins_of_composeMaps
    (laterComplete : later.Complete)
    (earlierComplete : earlier.Complete)
    (source projectRoot : Path) :
    ∃ composed, composeMaps later earlier source projectRoot = .ok composed ∧
      composed.Complete ∧
        composed.origins = later.ordered.filterMap
          (composedOrigin? later earlier (later.sourceIndex? source) projectRoot) := by
  have known : ∀ mapping ∈ later.ordered, ∀ place ∈ mapping.place,
      (later.origin? place).isSome := fun mapping member =>
    laterComplete mapping ((List.mergeSort_perm _ _).mem_iff.mp member)
  obtain ⟨composed, run, spec⟩ :=
    composeMappings_spec (later.sourceIndex? source) earlierComplete known
      (SourceMap.complete_empty projectRoot)
  exact ⟨composed, run, spec.complete, spec.origins⟩

end Run

/-- A mapping into the intermediate document leads, in the composed map, to the
place it is led from, moved by its distance. -/
theorem composeMaps_leads
    {later earlier : SourceMap}
    (laterComplete : later.Complete)
    (earlierComplete : earlier.Complete)
    (distinct : earlier.Distinct)
    (source projectRoot : Path) :
    ∃ composed, composeMaps later earlier source projectRoot = .ok composed ∧
      ∀ mapping ∈ later.mappings, ∀ place ∈ mapping.place,
        later.sourceIndex? source = some place.source →
          ∀ column first, LedFrom earlier place.location column first →
            ∃ file name, earlier.sources[first.source]? = some file ∧
              later.nameText? place.name = some name ∧
                (mapping.generated, some
                  ⟨SourceName.relative projectRoot file,
                    ⟨first.location.line,
                      first.location.column + (place.location.column - column)⟩,
                    name⟩) ∈ composed.origins := by
  obtain ⟨composed, run, -, origins⟩ :=
    origins_of_composeMaps laterComplete earlierComplete source projectRoot
  refine ⟨composed, run, ?_⟩
  intro mapping member place placed inDocument column first led
  have before := placeBefore_of_ledFrom distinct led
  obtain ⟨file, fileListed⟩ := exists_source_of_placeBefore earlierComplete before
  obtain ⟨origin, written⟩ := laterComplete.exists_origin member placed
  obtain ⟨-, -, nameListed⟩ := SourceMap.origin?_eq_some_iff.mp written
  refine ⟨file, origin.name, fileListed, nameListed, ?_⟩
  rw [origins]
  refine List.mem_filterMap.mpr
    ⟨mapping, (List.mergeSort_perm _ _).mem_iff.mpr member, ?_⟩
  have placedToo : mapping.place = some place := placed
  simp only [composedOrigin?, placedToo, Option.bind_some, ledThrough?, nameListed,
    inDocument, if_true, before, fileListed, Option.map_some]
  rfl

/-! ## Behind the last mapping of a line -/

/-- The map of a document whose first mapping stands for a shortened text. -/
def shortenedSample : SourceMap where
  projectRoot := "/app"
  sources := ["App.svelte"]
  contents := []
  names := []
  mappings := [⟨⟨0, 0⟩, some ⟨0, ⟨0, 10⟩, none⟩⟩, ⟨⟨0, 1⟩, some ⟨0, ⟨0, 21⟩, none⟩⟩]

/-- A map that leads behind the last mapping of `shortenedSample`. -/
def behindSample : SourceMap where
  projectRoot := "/app"
  sources := ["App.svelte"]
  contents := []
  names := []
  mappings := [⟨⟨0, 8⟩, some ⟨0, ⟨0, 8⟩, none⟩⟩]

theorem ledFrom_shortenedSample :
    LedFrom shortenedSample ⟨0, 8⟩ 0 ⟨0, ⟨0, 10⟩, none⟩ := by
  have leftmost : shortenedSample.Leftmost 0 ⟨⟨0, 0⟩, some ⟨0, ⟨0, 10⟩, none⟩⟩ :=
    ⟨by decide, rfl, fun _ _ _ => Nat.zero_le _⟩
  refine .lineStart leftmost (.inl ?_) rfl
  rintro ⟨mapping, member, -, further⟩
  revert mapping
  decide

theorem composeMaps_leads_behindSample :
    behindSample.Complete ∧ shortenedSample.Complete ∧ shortenedSample.Distinct ∧
      ∃ composed,
        composeMaps behindSample shortenedSample "/app/App.svelte" "/app" = .ok composed ∧
          (⟨0, 8⟩, some ⟨"App.svelte", ⟨0, 18⟩, none⟩) ∈ composed.origins := by
  have behindComplete : behindSample.Complete := by decide
  have shortenedComplete : shortenedSample.Complete := by decide
  have distinct : shortenedSample.Distinct := by decide
  refine ⟨behindComplete, shortenedComplete, distinct, ?_⟩
  obtain ⟨composed, run, leads⟩ :=
    composeMaps_leads behindComplete shortenedComplete distinct "/app/App.svelte" "/app"
  refine ⟨composed, run, ?_⟩
  obtain ⟨file, name, listed, nameListed, said⟩ :=
    leads ⟨⟨0, 8⟩, some ⟨0, ⟨0, 8⟩, none⟩⟩ List.mem_cons_self ⟨0, ⟨0, 8⟩, none⟩ rfl
      (by decide) 0 ⟨0, ⟨0, 10⟩, none⟩ ledFrom_shortenedSample
  cases listed
  cases nameListed
  exact said

/-- All that the map composed of the two samples says. -/
theorem origins_behindSample :
    ∃ composed,
      composeMaps behindSample shortenedSample "/app/App.svelte" "/app" = .ok composed ∧
        composed.origins = [(⟨0, 8⟩, some ⟨"App.svelte", ⟨0, 18⟩, none⟩)] := by
  have behindComplete : behindSample.Complete := by decide
  have shortenedComplete : shortenedSample.Complete := by decide
  obtain ⟨composed, run, -, origins⟩ :=
    origins_of_composeMaps behindComplete shortenedComplete "/app/App.svelte" "/app"
  refine ⟨composed, run, ?_⟩
  have before : placeBefore shortenedSample ⟨0, 8⟩ = some ⟨0, ⟨0, 18⟩, none⟩ :=
    placeBefore_of_ledFrom (by decide) ledFrom_shortenedSample
  have inDocument : behindSample.sourceIndex? "/app/App.svelte" = some 0 := by decide
  have ordered : behindSample.ordered = [⟨⟨0, 8⟩, some ⟨0, ⟨0, 8⟩, none⟩⟩] :=
    List.mergeSort_singleton _
  rw [origins, ordered, inDocument]
  simp only [List.filterMap_cons, composedOrigin?, Option.bind_some, ledThrough?, if_true,
    before]
  decide

/-- The distance is not always taken from the last mapping at or before the
place: behind the last mapping of a line it is not. -/
theorem composeMaps_not_always_nearest :
    ¬∀ (later earlier : SourceMap) (source projectRoot : Path),
      later.Complete → earlier.Complete → later.Distinct → earlier.Distinct →
        ∃ composed, composeMaps later earlier source projectRoot = .ok composed ∧
          ∀ mapping ∈ later.mappings, ∀ place ∈ mapping.place,
            later.sourceIndex? source = some place.source →
              ∀ nearest, earlier.NearestBefore place.location nearest →
                ∀ first ∈ nearest.place, ∃ file name,
                  (mapping.generated, some
                    ⟨file,
                      ⟨first.location.line,
                        first.location.column +
                          (place.location.column - nearest.generated.column)⟩,
                      name⟩) ∈ composed.origins := by
  intro alwaysNearest
  obtain ⟨composed, run, leads⟩ :=
    alwaysNearest behindSample shortenedSample "/app/App.svelte" "/app" (by decide) (by decide)
      (by decide) (by decide)
  obtain ⟨composedToo, runToo, origins⟩ := origins_behindSample
  cases runToo.symm.trans run
  have nearest : shortenedSample.NearestBefore ⟨0, 8⟩ ⟨⟨0, 1⟩, some ⟨0, ⟨0, 21⟩, none⟩⟩ :=
    ⟨by decide, rfl, by decide, by decide⟩
  obtain ⟨file, name, said⟩ :=
    leads ⟨⟨0, 8⟩, some ⟨0, ⟨0, 8⟩, none⟩⟩ List.mem_cons_self ⟨0, ⟨0, 8⟩, none⟩ rfl
      (by decide) _ nearest ⟨0, ⟨0, 21⟩, none⟩ rfl
  rw [origins, List.mem_singleton] at said
  simp only [Prod.mk.injEq, Option.some.injEq, Origin.mk.injEq, Location.mk.injEq] at said
  exact absurd said.2.2.1.2 (by decide)

end ComponentPipeline
