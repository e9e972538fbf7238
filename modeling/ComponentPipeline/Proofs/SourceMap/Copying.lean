import ComponentPipeline.Document.Splice
import ComponentPipeline.Proofs.SourceMap.Origins

/-!
# Copying from one map into another

The sources and names of a map that has all it refers to can be copied into any
other map, which then has them as well.  So such a map can be inserted into the
map of a document, and a splice fails for none of them.
-/

namespace ComponentPipeline

/-! ## Copied sources and names -/

section Copy

variable (target origin : SourceMap)

theorem copySource_spec
    {index : Nat}
    {name : Text}
    (listed : origin.sources[index]? = some name)
    (document : Text) :
    ∃ copied grown, target.copySource origin index document = .ok (copied, grown) ∧
      grown.sources[copied]? = some (SourceName.relative target.projectRoot name) ∧
        target.Grows grown ∧ copied = (target.addSource name).1 := by
  obtain ⟨added, grows⟩ := target.addSource_spec name
  have read : origin.source index = .ok name := by rw [SourceMap.source, listed]
  unfold SourceMap.copySource
  rw [read]
  simp only [bind, Except.bind]
  split
  · exact ⟨_, _, rfl, added, grows, rfl⟩
  · split
    · exact ⟨_, _, rfl, added, grows, rfl⟩
    · exact ⟨_, _, rfl, added, grows, rfl⟩
    · rename_i content _ _
      obtain ⟨written, set, grewToo⟩ :=
        SourceMap.setContent_spec content (List.getElem?_eq_some_iff.mp added).1
      rw [set]
      exact ⟨_, _, rfl, SourceMap.Grows.getElem?_eq_some grewToo.sources added,
        grows.trans grewToo, rfl⟩

theorem copyName_spec
    {index : Option Nat}
    {name : Option Text}
    (listed : origin.nameText? index = some name) :
    ∃ copied grown, target.copyName origin index = .ok (copied, grown) ∧
      grown.nameText? copied = some name ∧ target.Grows grown := by
  cases index with
  | none => exact ⟨_, _, rfl, listed, .refl target⟩
  | some index =>
      obtain ⟨text, atIndex, rfl⟩ := Option.map_eq_some_iff.mp listed
      obtain ⟨added, grows⟩ := target.addName_spec text
      have read : origin.name index = .ok text := by rw [SourceMap.name, atIndex]
      refine ⟨some (target.addName text).1, (target.addName text).2, ?_, ?_, grows⟩
      · rw [SourceMap.copyName, read]
        rfl
      · exact Option.map_eq_some_iff.mpr ⟨text, added, rfl⟩

end Copy

/-! ## Inserted maps -/

section Insert

variable {inserted : SourceMap}

theorem exists_copySources
    (target : SourceMap)
    (document : Text)
    {indices : List Nat}
    (inRange : ∀ index ∈ indices, index < inserted.sources.length) :
    ∃ copied grown, target.copySources inserted document indices = .ok (copied, grown) := by
  induction indices generalizing target with
  | nil => exact ⟨[], target, rfl⟩
  | cons index rest ih =>
      obtain ⟨first, grown, copied, -⟩ := copySource_spec target inserted
        (List.getElem?_eq_getElem (inRange index List.mem_cons_self)) document
      obtain ⟨others, last, copiedToo⟩ :=
        ih grown fun other member => inRange other (List.mem_cons_of_mem _ member)
      refine ⟨first :: others, last, ?_⟩
      rw [SourceMap.copySources, copied]
      simp only [bind, Except.bind, copiedToo]
      rfl

theorem exists_addMapping
    (insertion : Insertion)
    (target : SourceMap)
    {mapping : Mapping}
    (known : ∀ place ∈ mapping.place, (inserted.origin? place).isSome) :
    ∃ next, insertion.addMapping inserted target mapping = .ok next := by
  unfold Insertion.addMapping
  cases placed : mapping.place with
  | none => exact ⟨_, rfl⟩
  | some place =>
      obtain ⟨origin, isOrigin⟩ := Option.isSome_iff_exists.mp (known place placed)
      obtain ⟨-, -, named⟩ := SourceMap.origin?_eq_some_iff.mp isOrigin
      obtain ⟨name, grown, copied, -⟩ := copyName_spec target inserted named
      simp only
      split
      · exact ⟨_, rfl⟩
      · rw [copied]
        exact ⟨_, rfl⟩

theorem exists_addMappings
    (insertion : Insertion)
    (target : SourceMap)
    {mappings : List Mapping}
    (known : ∀ mapping ∈ mappings, ∀ place ∈ mapping.place, (inserted.origin? place).isSome) :
    ∃ next, insertion.addMappings inserted target mappings = .ok next := by
  induction mappings generalizing target with
  | nil => exact ⟨target, rfl⟩
  | cons mapping rest ih =>
      obtain ⟨next, added⟩ :=
        exists_addMapping insertion target (known mapping List.mem_cons_self)
      obtain ⟨last, addedToo⟩ :=
        ih next fun other member => known other (List.mem_cons_of_mem _ member)
      refine ⟨last, ?_⟩
      rw [Insertion.addMappings, added]
      exact addedToo

/-- A map that has all it refers to can be inserted. -/
theorem exists_insertMap
    (complete : inserted.Complete)
    (target : SourceMap)
    (document : Nat)
    (documentName : Text)
    (generatedStart : Location)
    (inlineStart : Option Location) :
    ∃ next,
      insertMap target document documentName generatedStart inlineStart inserted =
        .ok next := by
  have inRange : ∀ index ∈ List.range inserted.sources.length,
      index < inserted.sources.length := fun index member => List.mem_range.mp member
  obtain ⟨sources, grown, copied⟩ := exists_copySources target documentName inRange
  have known : ∀ mapping ∈ inserted.ordered, ∀ place ∈ mapping.place,
      (inserted.origin? place).isSome := fun mapping member =>
    complete mapping ((List.mergeSort_perm _ _).mem_iff.mp member)
  obtain ⟨next, added⟩ :=
    exists_addMappings ⟨document, generatedStart, inlineStart, sources⟩ grown known
  refine ⟨next, ?_⟩
  simp only [insertMap, copied]
  exact added

/-- Pieces whose maps have all they refer to can be mapped. -/
theorem exists_mapPieces
    {plan : List SplicePiece}
    (complete : ∀ replacement, .inserted replacement ∈ plan →
      ∀ map ∈ replacement.map, map.Complete)
    (document : Nat)
    (documentName : Text)
    (target : SourceMap)
    (generated : Location) :
    ∃ map, mapPieces document documentName target generated plan = .ok map := by
  induction plan generalizing target generated with
  | nil => exact ⟨target, rfl⟩
  | cons piece rest ih =>
      have further := ih fun replacement member =>
        complete replacement (List.mem_cons_of_mem _ member)
      cases piece with
      | copied text start =>
          rw [mapPieces]
          exact further _ _
      | inserted replacement =>
          rw [mapPieces]
          cases hasMap : replacement.map with
          | none => exact further _ _
          | some map =>
              obtain ⟨next, isNext⟩ := exists_insertMap
                (complete replacement List.mem_cons_self map hasMap) target document
                documentName (generated.advance replacement.opening) replacement.inlineStart
              simp only [isNext]
              exact further _ _

theorem mem_of_inserted_mem_planFrom
    {document : Text}
    {cursor : Nat}
    {location : Location}
    {replacements : List Replacement}
    {replacement : Replacement}
    (member : .inserted replacement ∈ planFrom document cursor location replacements) :
    replacement ∈ replacements := by
  induction replacements generalizing cursor location with
  | nil =>
      rw [planFrom, List.mem_singleton] at member
      cases member
  | cons first rest ih =>
      rw [planFrom] at member
      simp only at member
      split at member
      · exact List.mem_cons_of_mem _ (ih member)
      · rcases List.mem_cons.mp member with copied | behind
        · cases copied
        · rcases List.mem_cons.mp behind with here | later
          · cases here
            exact List.mem_cons_self
          · exact List.mem_cons_of_mem _ (ih later)

/-- Replacements whose maps have all they refer to can be spliced in, with or
without a map. -/
theorem exists_splice
    {replacements : List Replacement}
    (complete : ∀ replacement ∈ replacements, ∀ map ∈ replacement.map, map.Complete)
    (document : Text)
    (filename projectRoot : Path)
    (withMap : Bool) :
    ∃ map, splice document filename projectRoot replacements withMap =
        .ok (spliceText (splicePlan document replacements), map) ∧
      map.isSome = withMap := by
  cases withMap with
  | false => exact ⟨none, rfl, rfl⟩
  | true =>
      have planComplete : ∀ replacement,
          .inserted replacement ∈ splicePlan document replacements →
            ∀ map ∈ replacement.map, map.Complete := fun replacement member =>
        complete replacement
          ((List.mergeSort_perm _ _).mem_iff.mp (mem_of_inserted_mem_planFrom member))
      obtain ⟨map, mapped⟩ := exists_mapPieces planComplete 0
        (SourceName.relative projectRoot filename)
        (SourceMap.ofSource projectRoot filename document) Location.origin
      refine ⟨some map, ?_, rfl⟩
      simp only [splice, if_true, spliceMap, mapped]

end Insert
end ComponentPipeline
