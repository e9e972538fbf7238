import ComponentPipeline.SourceMap.Extend

/-!
# Mappings with their sources and names written out

Two maps may keep the same sources under different indices, so what a map says
is compared with its indices looked up.  Adding sources, names and contents
changes nothing in what the mappings of a map say.
-/

namespace ComponentPipeline

/-- A place with its source and its name written out. -/
structure Origin where
  /-- The source. -/
  source : Text
  /-- Location in the source. -/
  location : Location
  /-- The name, if the place has one. -/
  name : Option Text
  deriving DecidableEq, Repr

namespace SourceMap

/-- The name under an index that a place may have; none if the map lacks it. -/
def nameText? (map : SourceMap) : Option Nat → Option (Option Text)
  | none => some none
  | some index => map.names[index]?.map some

/-- A place written out; none if the map lacks its source or its name. -/
def origin? (map : SourceMap) (place : Place) : Option Origin :=
  map.sources[place.source]?.bind fun source =>
    (map.nameText? place.name).map fun name => ⟨source, place.location, name⟩

/-- What a map says: its mappings as added, with their places written out. -/
def origins (map : SourceMap) : List (Location × Option Origin) :=
  map.mappings.map fun mapping => (mapping.generated, mapping.place.bind map.origin?)

/-- A map has the sources and names that its mappings refer to. -/
def Complete (map : SourceMap) : Prop :=
  ∀ mapping ∈ map.mappings, ∀ place ∈ mapping.place, (map.origin? place).isSome

instance (map : SourceMap) : Decidable map.Complete :=
  inferInstanceAs <| Decidable <|
    ∀ mapping ∈ map.mappings, ∀ place ∈ mapping.place, (map.origin? place).isSome

/-- A place in a mapping of a complete map can be written out. -/
theorem Complete.exists_origin
    {map : SourceMap}
    (complete : map.Complete)
    {mapping : Mapping}
    (member : mapping ∈ map.mappings)
    {place : Place}
    (placed : mapping.place = some place) :
    ∃ origin, map.origin? place = some origin :=
  Option.isSome_iff_exists.mp (complete mapping member place placed)

theorem complete_empty (projectRoot : Text) : (empty projectRoot).Complete := by
  intro mapping member
  cases member

theorem origin?_eq_some_iff {map : SourceMap} {place : Place} {origin : Origin} :
    map.origin? place = some origin ↔
      map.sources[place.source]? = some origin.source ∧
        place.location = origin.location ∧
          map.nameText? place.name = some origin.name := by
  constructor
  · intro known
    obtain ⟨source, listed, named⟩ := Option.bind_eq_some_iff.mp known
    obtain ⟨name, nameListed, rfl⟩ := Option.map_eq_some_iff.mp named
    exact ⟨listed, rfl, nameListed⟩
  · rintro ⟨listed, location, nameListed⟩
    rw [origin?, listed, Option.bind_some, nameListed, location]
    rfl

/-! ## More sources and names -/

/-- A map has the mappings of another one, and its sources and names under the
same indices, and perhaps more of these. -/
structure Grows (map larger : SourceMap) : Prop where
  /-- Sources are named relative to the same directory. -/
  projectRoot : larger.projectRoot = map.projectRoot
  /-- Further sources come last. -/
  sources : map.sources <+: larger.sources
  /-- Further names come last. -/
  names : map.names <+: larger.names
  /-- The mappings are the same. -/
  mappings : larger.mappings = map.mappings

namespace Grows

variable {map larger largest : SourceMap}

theorem refl (map : SourceMap) : Grows map map :=
  ⟨rfl, List.prefix_rfl, List.prefix_rfl, rfl⟩

theorem trans (first : Grows map larger) (second : Grows larger largest) :
    Grows map largest :=
  ⟨second.projectRoot.trans first.projectRoot, first.sources.trans second.sources,
    first.names.trans second.names, second.mappings.trans first.mappings⟩

theorem getElem?_eq_some
    {short long : List Text}
    {index : Nat}
    {item : Text}
    (isPrefix : short <+: long)
    (listed : short[index]? = some item) :
    long[index]? = some item := by
  obtain ⟨more, rfl⟩ := isPrefix
  rw [List.getElem?_append_left (List.getElem?_eq_some_iff.mp listed).1, listed]

theorem nameText?
    (grows : Grows map larger)
    {index : Option Nat}
    {name : Option Text}
    (listed : map.nameText? index = some name) :
    larger.nameText? index = some name := by
  cases index with
  | none => exact listed
  | some index =>
      obtain ⟨text, atIndex, rfl⟩ := Option.map_eq_some_iff.mp listed
      exact Option.map_eq_some_iff.mpr ⟨text, getElem?_eq_some grows.names atIndex, rfl⟩

theorem origin?
    (grows : Grows map larger)
    {place : Place}
    {origin : Origin}
    (known : map.origin? place = some origin) :
    larger.origin? place = some origin := by
  obtain ⟨listed, location, nameListed⟩ := origin?_eq_some_iff.mp known
  exact origin?_eq_some_iff.mpr
    ⟨getElem?_eq_some grows.sources listed, location, grows.nameText? nameListed⟩

/-- A map with more sources and names says the same. -/
theorem origins (grows : Grows map larger) (complete : map.Complete) :
    larger.origins = map.origins := by
  rw [SourceMap.origins, SourceMap.origins, grows.mappings]
  refine List.map_congr_left fun mapping member => ?_
  cases placed : mapping.place with
  | none => rfl
  | some place =>
      obtain ⟨origin, known⟩ := complete.exists_origin member placed
      rw [Option.bind_some, Option.bind_some, known, grows.origin? known]

theorem complete (grows : Grows map larger) (complete : map.Complete) :
    larger.Complete := by
  intro mapping member place placed
  rw [grows.mappings] at member
  obtain ⟨origin, known⟩ := complete.exists_origin member placed
  exact Option.isSome_of_eq_some (grows.origin? known)

end Grows

/-! ## Adding to a map -/

theorem origins_add (map : SourceMap) (mapping : Mapping) :
    (map.add mapping).origins =
      map.origins ++ [(mapping.generated, mapping.place.bind map.origin?)] := by
  rw [origins, add, List.map_append, List.map_singleton]
  rfl

theorem Complete.add
    {map : SourceMap}
    (complete : map.Complete)
    {mapping : Mapping}
    (known : ∀ place ∈ mapping.place, (map.origin? place).isSome) :
    (map.add mapping).Complete := by
  intro other member place placed
  rcases List.mem_append.mp member with given | added
  · exact complete other given place placed
  · rw [List.mem_singleton.mp added] at placed
    exact known place placed

/-- A map with one source, all of whose mappings lead into it without a name. -/
theorem complete_addAll_ofSource
    (projectRoot source content : Text)
    {mappings : List Mapping}
    (intoSource : ∀ mapping ∈ mappings, ∃ location,
      mapping.place = some ⟨0, location, none⟩) :
    ((ofSource projectRoot source content).addAll mappings).Complete := by
  intro mapping member place placed
  obtain ⟨location, same⟩ := intoSource mapping member
  have isPlace : some place = some ⟨0, location, none⟩ := placed.symm.trans same
  cases isPlace
  rfl

/-- An item is in a list at its index. -/
theorem indexIn_spec (item : Text) (list : List Text) :
    (indexIn item list).2[(indexIn item list).1]? = some item ∧
      list <+: (indexIn item list).2 := by
  unfold indexIn
  cases found : list.idxOf? item with
  | none =>
      refine ⟨?_, List.prefix_append _ _⟩
      rw [List.getElem?_append_right (Nat.le_refl _), Nat.sub_self]
      rfl
  | some index =>
      refine ⟨?_, List.prefix_rfl⟩
      obtain ⟨inRange, isItem, -⟩ := List.idxOf?_eq_some_iff.mp found
      rw [List.getElem?_eq_getElem inRange, isItem]

/-- An added source is found under its index, named relative to the project. -/
theorem addSource_spec (map : SourceMap) (source : Text) :
    (map.addSource source).2.sources[(map.addSource source).1]? =
        some (SourceName.relative map.projectRoot source) ∧
      Grows map (map.addSource source).2 := by
  obtain ⟨listed, isPrefix⟩ :=
    indexIn_spec (SourceName.relative map.projectRoot source) map.sources
  exact ⟨listed, ⟨rfl, isPrefix, List.prefix_rfl, rfl⟩⟩

/-- An added name is found under its index. -/
theorem addName_spec (map : SourceMap) (name : Text) :
    (map.addName name).2.names[(map.addName name).1]? = some name ∧
      Grows map (map.addName name).2 := by
  obtain ⟨listed, isPrefix⟩ := indexIn_spec name map.names
  exact ⟨listed, ⟨rfl, List.prefix_rfl, isPrefix, rfl⟩⟩

/-- The text of a source that a map has can be written. -/
theorem setContent_spec
    {map : SourceMap}
    {index : Nat}
    (content : Text)
    (listed : index < map.sources.length) :
    ∃ written, map.setContent index content = .ok written ∧ Grows map written := by
  rw [setContent, if_pos listed]
  exact ⟨_, rfl, ⟨rfl, List.prefix_rfl, List.prefix_rfl, rfl⟩⟩

end SourceMap
end ComponentPipeline
