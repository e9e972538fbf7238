import ComponentPipeline.Proofs.SourceMap.Copying
import Mathlib.Data.List.Forall2

/-!
# What an inserted map adds

Inserting a map into the map of a document leaves what that one says as it is
and adds something for each mapping of the inserted map, except for those into
a source that the inserted map does not have.  What is added has the source and
the name of the mapping written out, and its locations are moved.
-/

namespace ComponentPipeline

/-- What succeeds in two steps succeeds in the first one, and then in the other. -/
theorem exists_of_bind_eq_ok
    {ε α β : Type}
    {run : Except ε α}
    {next : α → Except ε β}
    {result : β}
    (succeeds : (run >>= next) = .ok result) :
    ∃ value, run = .ok value ∧ next value = .ok result := by
  cases run with
  | error error => cases succeeds
  | ok value => exact ⟨value, rfl, succeeds⟩

/-! ## Maps that say more -/

namespace SourceMap

/-- A map says what another one says, and then more; it has all it refers to. -/
structure Adds (map larger : SourceMap) (said : List (Location × Option Origin)) : Prop where
  /-- Sources are named relative to the same directory. -/
  projectRoot : larger.projectRoot = map.projectRoot
  /-- Further sources come last. -/
  sources : map.sources <+: larger.sources
  /-- Further names come last. -/
  names : map.names <+: larger.names
  /-- The map has the sources and names that its mappings refer to. -/
  complete : larger.Complete
  /-- What is added comes last. -/
  origins : larger.origins = map.origins ++ said

namespace Adds

variable {map larger largest : SourceMap} {said saidToo : List (Location × Option Origin)}

theorem of_grows (grows : map.Grows larger) (complete : map.Complete) :
    map.Adds larger [] where
  projectRoot := grows.projectRoot
  sources := grows.sources
  names := grows.names
  complete := grows.complete complete
  origins := by rw [grows.origins complete, List.append_nil]

theorem refl (complete : map.Complete) : map.Adds map [] :=
  of_grows (.refl map) complete

theorem trans
    (adds : map.Adds larger said)
    (addsToo : larger.Adds largest saidToo) :
    map.Adds largest (said ++ saidToo) where
  projectRoot := addsToo.projectRoot.trans adds.projectRoot
  sources := adds.sources.trans addsToo.sources
  names := adds.names.trans addsToo.names
  complete := addsToo.complete
  origins := by rw [addsToo.origins, adds.origins, List.append_assoc]

/-- A mapping without a place is added as it is. -/
theorem add_unplaced (complete : map.Complete) (generated : Location) :
    map.Adds (map.add ⟨generated, none⟩) [(generated, none)] where
  projectRoot := rfl
  sources := List.prefix_rfl
  names := List.prefix_rfl
  complete := complete.add fun _ placed => nomatch placed
  origins := origins_add map _

/-- A mapping to a place is added with its source and name written out. -/
theorem add_placed
    (complete : map.Complete)
    {place : Place}
    {origin : Origin}
    (known : map.origin? place = some origin)
    (generated : Location) :
    map.Adds (map.add ⟨generated, some place⟩) [(generated, some origin)] where
  projectRoot := rfl
  sources := List.prefix_rfl
  names := List.prefix_rfl
  complete := by
    refine complete.add ?_
    rintro _ ⟨⟩
    rw [known]
    rfl
  origins := by
    rw [origins_add, Option.bind_some, known]

/-- Mappings into one source without names are added in order. -/
theorem addAll_intoSource
    {α : Type}
    (complete : map.Complete)
    {source : Nat}
    {file : Text}
    (listed : map.sources[source]? = some file)
    (items : List α)
    (generated location : α → Location) :
    map.Adds
      (map.addAll <| items.map fun item =>
        ⟨generated item, some ⟨source, location item, none⟩⟩)
      (items.map fun item => (generated item, some ⟨file, location item, none⟩)) := by
  have known (item : α) :
      map.origin? ⟨source, location item, none⟩ = some ⟨file, location item, none⟩ :=
    origin?_eq_some_iff.mpr ⟨listed, rfl, rfl⟩
  refine ⟨rfl, List.prefix_rfl, List.prefix_rfl, ?_, ?_⟩
  · intro mapping member place placed
    rcases List.mem_append.mp member with given | added
    · exact complete mapping given place placed
    · obtain ⟨item, -, rfl⟩ := List.mem_map.mp added
      cases placed
      exact Option.isSome_of_eq_some (known item)
  · rw [SourceMap.origins, SourceMap.addAll, List.map_append, List.map_map]
    refine congrArg₂ _ rfl (List.map_congr_left fun item member => ?_)
    exact congrArg (Prod.mk (generated item)) (known item)

end Adds

theorem indexIn_of_head {item : Text} {list : List Text} (first : list[0]? = some item) :
    (indexIn item list).1 = 0 := by
  cases list with
  | nil => cases first
  | cons head rest =>
      cases first
      simp [indexIn, List.idxOf?, List.findIdx?, List.findIdx?.go]

end SourceMap

/-! ## Copied sources and names -/

section Copy

variable {target grown origin : SourceMap}

/-- A source that is copied is one of the map it comes from; it is copied to the
first source of the target exactly if it has its name. -/
theorem spec_of_copySource
    {index copied : Nat}
    {document : Text}
    (first : target.sources[0]? = some document)
    (copy : target.copySource origin index document = .ok (copied, grown)) :
    target.Grows grown ∧ ∃ name, origin.sources[index]? = some name ∧
      grown.sources[copied]? = some (SourceName.relative target.projectRoot name) ∧
        (copied = 0 ↔ SourceName.relative target.projectRoot name = document) := by
  cases listed : origin.sources[index]? with
  | none =>
      rw [SourceMap.copySource, SourceMap.source, listed] at copy
      cases copy
  | some name =>
      obtain ⟨copiedToo, grownToo, copyToo, added, grows, isIndex⟩ :=
        copySource_spec target origin listed document
      cases copy.symm.trans copyToo
      refine ⟨grows, name, rfl, added, ?_, ?_⟩
      · intro zero
        rw [zero, SourceMap.Grows.getElem?_eq_some grows.sources first] at added
        exact (Option.some.inj added).symm
      · intro same
        rw [isIndex]
        exact SourceMap.indexIn_of_head (first.trans (congrArg some same.symm))

/-- The sources of a map that are copied one after another. -/
theorem spec_of_copySources
    {indices copied : List Nat}
    {document : Text}
    (first : target.sources[0]? = some document)
    (copy : target.copySources origin document indices = .ok (copied, grown)) :
    target.Grows grown ∧
      List.Forall₂
        (fun index copied => ∃ name, origin.sources[index]? = some name ∧
          grown.sources[copied]? = some (SourceName.relative target.projectRoot name) ∧
            (copied = 0 ↔ SourceName.relative target.projectRoot name = document))
        indices copied := by
  induction indices generalizing target copied with
  | nil =>
      cases copy
      exact ⟨.refl _, .nil⟩
  | cons index rest ih =>
      rw [SourceMap.copySources] at copy
      obtain ⟨⟨one, next⟩, step, copy⟩ := exists_of_bind_eq_ok copy
      obtain ⟨⟨others, last⟩, further, copy⟩ := exists_of_bind_eq_ok copy
      cases copy
      obtain ⟨grows, name, listed, added, isFirst⟩ := spec_of_copySource first step
      have firstToo := SourceMap.Grows.getElem?_eq_some grows.sources first
      obtain ⟨growsToo, copiedRest⟩ := ih firstToo further
      rw [grows.projectRoot] at copiedRest
      refine ⟨grows.trans growsToo, .cons ⟨name, listed, ?_, isFirst⟩ copiedRest⟩
      exact SourceMap.Grows.getElem?_eq_some growsToo.sources added

/-- A name that is copied is one of the map it comes from. -/
theorem spec_of_copyName
    {index copied : Option Nat}
    (copy : target.copyName origin index = .ok (copied, grown)) :
    target.Grows grown ∧ ∃ name, origin.nameText? index = some name ∧
      grown.nameText? copied = some name := by
  cases named : origin.nameText? index with
  | none =>
      cases index with
      | none => cases named
      | some index =>
          have missing : origin.names[index]? = none := Option.map_eq_none_iff.mp named
          rw [SourceMap.copyName, SourceMap.name, missing] at copy
          cases copy
  | some name =>
      obtain ⟨copiedToo, grownToo, copyToo, nameCopied, grows⟩ :=
        copyName_spec target origin named
      cases copy.symm.trans copyToo
      exact ⟨grows, name, rfl, nameCopied⟩

end Copy

/-! ## Inserted maps -/

/-- Where a location in a source lies when the content of that source may stand in
the document. -/
def shiftedInto
    (document : Text)
    (inlineStart : Option Location)
    (source : Text)
    (location : Location) :
    Location :=
  match inlineStart with
  | some start => if source = document then start.offsetBy location else location
  | none => location

/-- What is said of a mapping of an inserted map. -/
inductive SaidOf
    (inserted : SourceMap)
    (projectRoot document : Text)
    (generatedStart : Location)
    (inlineStart : Option Location)
    (mapping : Mapping) :
    Location × Option Origin → Prop
  /-- A mapping without a place stays without. -/
  | unplaced
      (notPlaced : mapping.place = none) :
      SaidOf inserted projectRoot document generatedStart inlineStart mapping
        (generatedStart.offsetBy mapping.generated, none)
  /-- A place keeps its source and its name. -/
  | placed {place : Place} {source : Text} {name : Option Text}
      (isPlaced : mapping.place = some place)
      (sourceListed : inserted.sources[place.source]? = some source)
      (nameListed : inserted.nameText? place.name = some name) :
      SaidOf inserted projectRoot document generatedStart inlineStart mapping
        (generatedStart.offsetBy mapping.generated,
          some
            ⟨SourceName.relative projectRoot source,
              shiftedInto document inlineStart (SourceName.relative projectRoot source)
                place.location,
              name⟩)

/-- Whether a map has the source of a mapping, if the mapping has a place. -/
def SourceMap.hasSourceOf (map : SourceMap) (mapping : Mapping) : Bool :=
  match mapping.place with
  | none => true
  | some place => place.source < map.sources.length

section Insert

variable {inserted target next : SourceMap} {document : Text}
variable {generatedStart : Location} {inlineStart : Option Location} {sources : List Nat}

/-- What is known of the copied sources of an inserted map. -/
structure SourcesCopied
    (inserted target : SourceMap)
    (document : Text)
    (sources : List Nat) :
    Prop where
  /-- Every source is copied. -/
  count : sources.length = inserted.sources.length
  /-- It keeps its name, and the name of the document is that of the first source
  only. -/
  listed : ∀ index copied : Nat, sources[index]? = some copied →
    ∃ name, inserted.sources[index]? = some name ∧
      target.sources[copied]? = some (SourceName.relative target.projectRoot name) ∧
        (copied = 0 ↔ SourceName.relative target.projectRoot name = document)

theorem SourcesCopied.of_adds
    {said : List (Location × Option Origin)}
    (copied : SourcesCopied inserted target document sources)
    (adds : target.Adds next said) :
    SourcesCopied inserted next document sources := by
  refine ⟨copied.count, fun index copy isCopy => ?_⟩
  obtain ⟨name, listed, added, isFirst⟩ := copied.listed index copy isCopy
  rw [adds.projectRoot]
  exact ⟨name, listed, SourceMap.Grows.getElem?_eq_some adds.sources added, isFirst⟩

theorem sourcesCopied_of_copySources
    {grown : SourceMap}
    (first : target.sources[0]? = some document)
    (copy : target.copySources inserted document (List.range inserted.sources.length) =
      .ok (sources, grown)) :
    target.Grows grown ∧ SourcesCopied inserted grown document sources := by
  obtain ⟨grows, copied⟩ := spec_of_copySources first copy
  have count := copied.length_eq
  rw [List.length_range] at count
  refine ⟨grows, count.symm, fun index copy isCopy => ?_⟩
  obtain ⟨inRange, rfl⟩ := List.getElem?_eq_some_iff.mp isCopy
  have spec := copied.get (by rw [List.length_range, count]; exact inRange) inRange
  rw [List.get_eq_getElem, List.getElem_range, List.get_eq_getElem, ← grows.projectRoot] at spec
  exact spec

theorem locate_eq
    {copied : Nat}
    {source : Text}
    (isFirst : copied = 0 ↔ source = document)
    (location : Location) :
    Insertion.locate ⟨0, generatedStart, inlineStart, sources⟩ copied location =
      shiftedInto document inlineStart source location := by
  unfold Insertion.locate shiftedInto
  cases inlineStart with
  | none => rfl
  | some start => simp only [isFirst]

/-- A mapping that is added says what is said of it; one that is dropped has a
source that the inserted map does not have. -/
theorem adds_of_addMapping
    (complete : target.Complete)
    (copied : SourcesCopied inserted target document sources)
    {mapping : Mapping}
    (added : Insertion.addMapping ⟨0, generatedStart, inlineStart, sources⟩ inserted target
      mapping = .ok next) :
    ∃ said, target.Adds next said ∧
      List.Forall₂
        (SaidOf inserted target.projectRoot document generatedStart inlineStart)
        ([mapping].filter inserted.hasSourceOf) said := by
  unfold Insertion.addMapping at added
  cases placed : mapping.place with
  | none =>
      rw [placed] at added
      cases added
      have stays : inserted.hasSourceOf mapping = true := by
        rw [SourceMap.hasSourceOf, placed]
      rw [List.filter_cons_of_pos stays]
      exact ⟨_, .add_unplaced complete _, .cons (.unplaced placed) .nil⟩
  | some place =>
      simp only [placed] at added
      cases isCopy : sources[place.source]? with
      | none =>
          rw [isCopy] at added
          cases added
          have outside := List.getElem?_eq_none_iff.mp isCopy
          have dropped : ¬inserted.hasSourceOf mapping = true := by
            rw [SourceMap.hasSourceOf, placed, decide_eq_true_iff, ← copied.count]
            omega
          rw [List.filter_cons_of_neg dropped]
          exact ⟨[], .refl complete, .nil⟩
      | some copy =>
          simp only [isCopy] at added
          obtain ⟨⟨name, grown⟩, names, added⟩ := exists_of_bind_eq_ok added
          cases added
          obtain ⟨grows, text, nameListed, nameCopied⟩ := spec_of_copyName names
          obtain ⟨source, sourceListed, sourceCopied, isFirst⟩ :=
            copied.listed place.source copy isCopy
          have stays : inserted.hasSourceOf mapping = true := by
            rw [SourceMap.hasSourceOf, placed, decide_eq_true_iff]
            exact (List.getElem?_eq_some_iff.mp sourceListed).1
          have known : grown.origin?
              ⟨copy, shiftedInto document inlineStart
                (SourceName.relative target.projectRoot source) place.location, name⟩ =
              some ⟨SourceName.relative target.projectRoot source,
                shiftedInto document inlineStart
                  (SourceName.relative target.projectRoot source) place.location, text⟩ :=
            SourceMap.origin?_eq_some_iff.mpr
              ⟨SourceMap.Grows.getElem?_eq_some grows.sources sourceCopied, rfl, nameCopied⟩
          have adds := (SourceMap.Adds.of_grows grows complete).trans
            (.add_placed (grows.complete complete) known
              (generatedStart.offsetBy mapping.generated))
          rw [List.filter_cons_of_pos stays, locate_eq isFirst]
          exact ⟨_, adds, .cons (.placed placed sourceListed nameListed) .nil⟩

theorem adds_of_addMappings
    (complete : target.Complete)
    (copied : SourcesCopied inserted target document sources)
    {mappings : List Mapping}
    (added : Insertion.addMappings ⟨0, generatedStart, inlineStart, sources⟩ inserted target
      mappings = .ok next) :
    ∃ said, target.Adds next said ∧
      List.Forall₂
        (SaidOf inserted target.projectRoot document generatedStart inlineStart)
        (mappings.filter inserted.hasSourceOf) said := by
  induction mappings generalizing target with
  | nil =>
      cases added
      exact ⟨[], .refl complete, .nil⟩
  | cons mapping rest ih =>
      rw [Insertion.addMappings] at added
      obtain ⟨middle, step, added⟩ := exists_of_bind_eq_ok added
      obtain ⟨one, adds, saidOne⟩ := adds_of_addMapping complete copied step
      obtain ⟨others, addsToo, saidOthers⟩ := ih adds.complete (copied.of_adds adds) added
      rw [adds.projectRoot] at saidOthers
      refine ⟨one ++ others, adds.trans addsToo, ?_⟩
      rw [← List.singleton_append, List.filter_append]
      exact List.rel_append saidOne saidOthers

/-- Inserting a map adds what is said of its mappings, in their order. -/
theorem adds_of_insertMap
    (complete : target.Complete)
    (first : target.sources[0]? = some document)
    (insertion : insertMap target 0 document generatedStart inlineStart inserted = .ok next) :
    ∃ said, target.Adds next said ∧
      List.Forall₂
        (SaidOf inserted target.projectRoot document generatedStart inlineStart)
        (inserted.ordered.filter inserted.hasSourceOf) said := by
  unfold insertMap at insertion
  obtain ⟨⟨sources, grown⟩, copy, added⟩ := exists_of_bind_eq_ok insertion
  obtain ⟨grows, copied⟩ := sourcesCopied_of_copySources first copy
  obtain ⟨said, adds, saidOf⟩ := adds_of_addMappings (grows.complete complete) copied added
  rw [grows.projectRoot] at saidOf
  exact ⟨said, (SourceMap.Adds.of_grows grows complete).trans adds, saidOf⟩

end Insert
end ComponentPipeline
