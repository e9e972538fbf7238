import ComponentPipeline.Proofs.SourceMap.Nearest
import ComponentPipeline.Proofs.SourceMap.Origins

/-!
# What an extended map says

A map extended by an earlier one says for each of its mappings where the
earlier map leads from the location of its place.  The source of that place
does not count: a place in another file than the intermediate text is looked up
like one in the text.
-/

namespace ComponentPipeline
namespace SourceMap

/-- An index in the table of the added sources. -/
theorem addSources_spec (map : SourceMap) (sources : List Text) :
    List.Forall₂
        (fun source index => (map.addSources sources).2.sources[index]? =
          some (SourceName.relative map.projectRoot source))
        sources (map.addSources sources).1 ∧
      Grows map (map.addSources sources).2 := by
  induction sources generalizing map with
  | nil => exact ⟨.nil, .refl map⟩
  | cons source rest ih =>
      obtain ⟨added, grows⟩ := map.addSource_spec source
      obtain ⟨addedRest, growsToo⟩ := ih (map.addSource source).2
      refine ⟨.cons (Grows.getElem?_eq_some growsToo.sources added) ?_, grows.trans growsToo⟩
      rw [grows.projectRoot] at addedRest
      exact addedRest

theorem addNames_spec (map : SourceMap) (names : List Text) :
    List.Forall₂ (fun name index => (map.addNames names).2.names[index]? = some name)
        names (map.addNames names).1 ∧
      Grows map (map.addNames names).2 := by
  induction names generalizing map with
  | nil => exact ⟨.nil, .refl map⟩
  | cons name rest ih =>
      obtain ⟨added, grows⟩ := map.addName_spec name
      obtain ⟨addedRest, growsToo⟩ := ih (map.addName name).2
      exact ⟨.cons (Grows.getElem?_eq_some growsToo.names added) addedRest,
        grows.trans growsToo⟩

/-- Texts can be written for sources that a map has. -/
theorem setContents_spec
    {map : SourceMap}
    {contents : List (Nat × Text)}
    (listed : ∀ entry ∈ contents, entry.1 < map.sources.length) :
    ∃ written, map.setContents contents = .ok written ∧ Grows map written := by
  induction contents generalizing map with
  | nil => exact ⟨map, rfl, .refl map⟩
  | cons entry rest ih =>
      obtain ⟨next, set, grows⟩ :=
        setContent_spec entry.2 (listed entry List.mem_cons_self)
      have listedToo : ∀ other ∈ rest, other.1 < next.sources.length :=
        fun other member =>
          (listed other (List.mem_cons_of_mem _ member)).trans_le grows.sources.length_le
      obtain ⟨written, setRest, growsToo⟩ := ih listedToo
      refine ⟨written, ?_, grows.trans growsToo⟩
      rw [setContents, set]
      exact setRest

/-- An index of a list is renumbered to that of its entry in a table. -/
theorem renumber_of_forall₂
    {listedAs : Text → Nat → Prop}
    {items : List Text}
    {table : List Nat}
    (listed : List.Forall₂ listedAs items table)
    {index : Nat}
    {item : Text}
    (atIndex : items[index]? = some item)
    (error : SourceMapError) :
    ∃ renumbered, renumber table index error = .ok renumbered ∧
      listedAs item renumbered := by
  induction listed generalizing index with
  | nil => cases atIndex
  | cons head _ ih =>
      cases index with
      | zero =>
          cases atIndex
          exact ⟨_, rfl, head⟩
      | succ index => exact ih atIndex

/-- Where an earlier map leads from the location of a place, with its sources
named relative to a directory. -/
def chainedOrigin? (earlier : SourceMap) (projectRoot : Text) (place : Place) :
    Option Origin :=
  ((earlier.closest? place.location).bind Mapping.place).bind fun found =>
    (earlier.origin? found).map fun origin =>
      { origin with source := SourceName.relative projectRoot origin.source }

/-- The tables of an extension lead to what the earlier map has. -/
structure Tables
    (earlier extended : SourceMap)
    (projectRoot : Text)
    (sources names : List Nat) :
    Prop where
  /-- Every source is found under its new index. -/
  sources : List.Forall₂
    (fun source index =>
      extended.sources[index]? = some (SourceName.relative projectRoot source))
    earlier.sources sources
  /-- Every name is found under its new index. -/
  names : List.Forall₂ (fun name index => extended.names[index]? = some name)
    earlier.names names

section Extend

variable {later earlier extended : SourceMap} {projectRoot : Text}
variable {sources names : List Nat}

theorem Grows.tables
    {larger : SourceMap}
    (grows : Grows extended larger)
    (tables : Tables earlier extended projectRoot sources names) :
    Tables earlier larger projectRoot sources names :=
  ⟨tables.sources.imp fun _ _ listed => Grows.getElem?_eq_some grows.sources listed,
    tables.names.imp fun _ _ listed => Grows.getElem?_eq_some grows.names listed⟩

/-- The new index of a source is an index. -/
theorem Tables.source_lt
    (tables : Tables earlier extended projectRoot sources names)
    {index : Nat}
    (member : index ∈ sources) :
    index < extended.sources.length := by
  have inRange : List.Forall₂
      (fun index (_ : Text) => index < extended.sources.length ∧ True)
      sources earlier.sources :=
    List.Forall₂.flip <| tables.sources.imp fun _ _ listed =>
      ⟨(List.getElem?_eq_some_iff.mp listed).1, trivial⟩
  exact ((List.forall₂_and_left _ _).mp inRange).1 index member

/-- The name of a place is found under its new index. -/
theorem Tables.renumber_name
    (tables : Tables earlier extended projectRoot sources names)
    {index : Option Nat}
    {text : Option Text}
    (listed : earlier.nameText? index = some text) :
    ∃ name, (index.mapM fun name => renumber names name .nameOutOfRange) = .ok name ∧
      extended.nameText? name = some text := by
  cases index with
  | none => exact ⟨none, rfl, listed⟩
  | some index =>
      obtain ⟨name, atIndex, rfl⟩ := Option.map_eq_some_iff.mp listed
      obtain ⟨renumbered, found, newName⟩ :=
        renumber_of_forall₂ tables.names atIndex .nameOutOfRange
      refine ⟨some renumbered, ?_, Option.map_eq_some_iff.mpr ⟨name, newName, rfl⟩⟩
      rw [Option.mapM_some, found]
      rfl

/-- The place that the earlier map gives. -/
theorem extendPlace_spec
    (complete : earlier.Complete)
    (tables : Tables earlier extended projectRoot sources names)
    (place : Place) :
    ∃ given, extendPlace earlier sources names place = .ok given ∧
      (∀ place ∈ given, (extended.origin? place).isSome) ∧
        given.bind extended.origin? = chainedOrigin? earlier projectRoot place := by
  unfold extendPlace chainedOrigin?
  cases looked : (earlier.closest? place.location).bind Mapping.place with
  | none => exact ⟨none, rfl, nofun, rfl⟩
  | some found =>
      obtain ⟨closest, isClosest, placed⟩ := Option.bind_eq_some_iff.mp looked
      obtain ⟨mapping, member, same⟩ := exists_of_closest? isClosest
      obtain ⟨origin, known⟩ := complete.exists_origin member (same.trans placed)
      obtain ⟨sourceListed, location, nameListed⟩ := origin?_eq_some_iff.mp known
      obtain ⟨source, renumbered, newSource⟩ :=
        renumber_of_forall₂ tables.sources sourceListed .sourceOutOfRange
      obtain ⟨name, renamed, newName⟩ := tables.renumber_name nameListed
      have written : extended.origin? ⟨source, found.location, name⟩ =
          some { origin with source := SourceName.relative projectRoot origin.source } :=
        origin?_eq_some_iff.mpr ⟨newSource, location, newName⟩
      simp only [renumbered, renamed, bind, Except.bind]
      refine ⟨_, rfl, ?_, ?_⟩
      · rintro _ ⟨⟩
        exact Option.isSome_of_eq_some written
      · simp only [Option.bind, known, Option.map_some]
        exact written

/-- A mapping and what it says when its place is looked up in the earlier
map. -/
structure Chained
    (earlier extended : SourceMap)
    (projectRoot : Text)
    (mapping given : Mapping) :
    Prop where
  /-- It stays where it is. -/
  generated : given.generated = mapping.generated
  /-- Its place has a source and a name. -/
  known : ∀ place ∈ given.place, (extended.origin? place).isSome
  /-- The place is the one that the earlier map gives. -/
  origin : given.place.bind extended.origin? =
    mapping.place.bind (chainedOrigin? earlier projectRoot)

theorem extendMapping_spec
    (complete : earlier.Complete)
    (tables : Tables earlier extended projectRoot sources names)
    (mapping : Mapping) :
    ∃ given, extendMapping earlier sources names mapping = .ok given ∧
      Chained earlier extended projectRoot mapping given := by
  unfold extendMapping
  cases placed : mapping.place with
  | none =>
      refine ⟨mapping, rfl, rfl, ?_, ?_⟩
      · rw [placed]
        nofun
      · rw [placed]
        rfl
  | some place =>
      obtain ⟨given, looked, known, origin⟩ := extendPlace_spec complete tables place
      simp only [looked, bind, Except.bind]
      refine ⟨_, rfl, rfl, known, ?_⟩
      rw [placed]
      exact origin

theorem extendMappings_spec
    (complete : earlier.Complete)
    (tables : Tables earlier extended projectRoot sources names)
    (mappings : List Mapping) :
    ∃ given, mappings.mapM (extendMapping earlier sources names) = .ok given ∧
      List.Forall₂ (Chained earlier extended projectRoot) mappings given := by
  induction mappings with
  | nil => exact ⟨[], rfl, .nil⟩
  | cons mapping rest ih =>
      obtain ⟨first, step, chained⟩ := extendMapping_spec complete tables mapping
      obtain ⟨others, run, chainedRest⟩ := ih
      refine ⟨first :: others, ?_, .cons chained chainedRest⟩
      rw [List.mapM_cons, step]
      simp only [run, bind, Except.bind]
      rfl

/-- What chained mappings say. -/
theorem origins_of_chained
    {mappings given : List Mapping}
    (chained : List.Forall₂ (Chained earlier extended projectRoot) mappings given) :
    { extended with mappings := given }.Complete ∧
      { extended with mappings := given }.origins = mappings.map fun mapping =>
        (mapping.generated, mapping.place.bind (chainedOrigin? earlier projectRoot)) := by
  induction chained with
  | nil => exact ⟨nofun, rfl⟩
  | cons first _ ih =>
      obtain ⟨completeRest, saysRest⟩ := ih
      refine ⟨?_, ?_⟩
      · intro other member
        rcases List.mem_cons.mp member with rfl | inRest
        · exact first.known
        · exact completeRest other inRest
      · rw [List.map_cons, ← saysRest, ← first.origin, ← first.generated]
        rfl

/-- A map is extended by a complete one without failing, and says for each of
its mappings where the earlier map leads from the location of its place. -/
theorem origins_of_extend (complete : earlier.Complete) (later : SourceMap) :
    ∃ extended, later.extend earlier = .ok extended ∧ extended.Complete ∧
      extended.projectRoot = later.projectRoot ∧
        extended.origins = later.ordered.map fun mapping =>
          (mapping.generated,
            mapping.place.bind (chainedOrigin? earlier later.projectRoot)) := by
  cases addedSources : later.addSources earlier.sources with
  | mk sources withSources =>
  cases addedNames : withSources.addNames earlier.names with
  | mk names withNames =>
  obtain ⟨sourcesListed, grows⟩ := later.addSources_spec earlier.sources
  obtain ⟨namesListed, growsToo⟩ := withSources.addNames_spec earlier.names
  rw [addedSources] at sourcesListed grows
  rw [addedNames] at namesListed growsToo
  have tables : Tables earlier withNames later.projectRoot sources names :=
    ⟨sourcesListed.imp fun _ _ listed => Grows.getElem?_eq_some growsToo.sources listed,
      namesListed⟩
  have inRange : ∀ entry ∈ sources.zip earlier.contents,
      entry.1 < withNames.sources.length :=
    fun entry member => tables.source_lt (List.of_mem_zip member).1
  obtain ⟨map, set, growsLast⟩ := setContents_spec inRange
  have growsAll := (grows.trans growsToo).trans growsLast
  obtain ⟨given, run, chained⟩ :=
    extendMappings_spec complete (growsLast.tables tables) map.ordered
  obtain ⟨extendedComplete, origins⟩ := origins_of_chained chained
  refine ⟨{ map with mappings := given }, ?_, extendedComplete, growsAll.projectRoot, ?_⟩
  · simp only [extend, addedSources, addedNames, set, run, bind, Except.bind]
    rfl
  · rw [origins, SourceMap.ordered, SourceMap.ordered, growsAll.mappings]

end Extend
end SourceMap
end ComponentPipeline
