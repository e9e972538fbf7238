import ComponentPipeline.Proofs.SourceMap.Leads
import ComponentPipeline.Document.Splice

/-!
# The mappings of copied and inserted pieces

A copied text goes on in the same way where it stood and where it lands.  The
mappings of an inserted map are moved on both sides, so what they relate is
related after the move.
-/

namespace ComponentPipeline

/-! ## Copied texts -/

/-- The lines of a text that are not empty, with their numbers. -/
def filledLines (text : Text) : List (Text × Nat) :=
  (Text.lines text).zipIdx.filter fun line => !line.1.isEmpty

theorem mem_filledLines_iff {text line : Text} {number : Nat} :
    (line, number) ∈ filledLines text ↔
      (Text.lines text)[number]? = some line ∧ line ≠ [] := by
  rw [filledLines, List.mem_filter, List.mem_zipIdx_iff_getElem?]
  simp

theorem furtherLineMappings_eq
    (source generatedLine documentLine first : Nat)
    (lines : List Text) :
    furtherLineMappings source (generatedLine + first) (documentLine + first) lines =
      ((lines.zipIdx first).filter fun line => !line.1.isEmpty).map fun line =>
        ⟨⟨generatedLine + line.2, 0⟩, some ⟨source, ⟨documentLine + line.2, 0⟩, none⟩⟩ := by
  induction lines generalizing first with
  | nil => rfl
  | cons line rest ih =>
      have further := ih (first + 1)
      rw [← Nat.add_assoc, ← Nat.add_assoc] at further
      rw [furtherLineMappings, further, List.zipIdx_cons]
      cases line with
      | nil => rfl
      | cons char others => rfl

/-- A copied text is mapped where its lines start, unless they are empty. -/
theorem copiedMappings_eq (source : Nat) (generated start : Location) (text : Text) :
    copiedMappings source generated start text =
      (filledLines text).map fun line =>
        ⟨generated.offsetBy ⟨line.2, 0⟩,
          some ⟨source, start.offsetBy ⟨line.2, 0⟩, none⟩⟩ := by
  unfold copiedMappings filledLines
  cases Text.lines text with
  | nil => rfl
  | cons line others =>
      have further := furtherLineMappings_eq source generated.line start.line 1 others
      have moved : ∀ other ∈ (others.zipIdx 1).filter fun line => !line.1.isEmpty,
          (⟨⟨generated.line + other.2, 0⟩,
            some ⟨source, ⟨start.line + other.2, 0⟩, none⟩⟩ : Mapping) =
          ⟨generated.offsetBy ⟨other.2, 0⟩,
            some ⟨source, start.offsetBy ⟨other.2, 0⟩, none⟩⟩ := by
        intro other member
        have later := List.le_snd_of_mem_zipIdx (List.mem_filter.mp member).1
        have notFirst : other.2 ≠ 0 := by omega
        simp only [Location.offsetBy, if_neg notFirst]
      simp only [further, List.map_congr_left moved, List.zipIdx_cons]
      cases line with
      | nil => rfl
      | cons char rest => rfl

/-- A copied text is mapped where its lines start. -/
theorem mem_copiedMappings
    {source : Nat}
    {generated start : Location}
    {text : Text}
    {mapping : Mapping}
    (member : mapping ∈ copiedMappings source generated start text) :
    ∃ number char rest, (Text.lines text)[number]? = some (char :: rest) ∧
      mapping = ⟨generated.offsetBy ⟨number, 0⟩,
        some ⟨source, start.offsetBy ⟨number, 0⟩, none⟩⟩ := by
  rw [copiedMappings_eq] at member
  obtain ⟨⟨line, number⟩, filled, rfl⟩ := List.mem_map.mp member
  obtain ⟨listed, notEmpty⟩ := mem_filledLines_iff.mp filled
  obtain ⟨char, rest, rfl⟩ := List.exists_cons_of_ne_nil notEmpty
  exact ⟨number, char, rest, listed, rfl⟩

/-- A copied text has the same characters where it stood and where it lands. -/
theorem leads_copiedMappings (text before after written next : Text) :
    Leads (SameCharacter (before ++ text ++ after) (written ++ text ++ next))
      (copiedMappings 0 (Location.origin.advance written)
        (Location.origin.advance before) text) := by
  intro mapping member
  obtain ⟨number, char, rest, listed, rfl⟩ := mem_copiedMappings member
  obtain ⟨others, goesOn, -⟩ := Text.goesOn_of_mem_lines listed
  exact ⟨_, rfl, sameCharacter_of_goesOn (goesOn.within before after)
    (goesOn.within written next)⟩

/-! ## Inserted maps -/

section Insert

variable {related relatedToo : Location → Location → Prop}
variable {generatedStart start : Location}

theorem addMapping_of_place
    {mapping : Mapping}
    {location : Location}
    (inserted target : SourceMap)
    (place : mapping.place = some ⟨0, location, none⟩) :
    Insertion.addMapping ⟨0, generatedStart, some start, [0]⟩ inserted target mapping =
      .ok (target.add ⟨generatedStart.offsetBy mapping.generated,
        some ⟨0, start.offsetBy location, none⟩⟩) := by
  unfold Insertion.addMapping
  rw [place]
  rfl

/-- Mappings into the document are moved on both sides. -/
theorem addMappings_of_leads
    {mappings : List Mapping}
    (inserted target : SourceMap)
    (leads : Leads related mappings)
    (moved : ∀ inSource inGenerated, related inSource inGenerated →
      relatedToo (start.offsetBy inSource) (generatedStart.offsetBy inGenerated)) :
    ∃ added, Leads relatedToo added ∧
      Insertion.addMappings ⟨0, generatedStart, some start, [0]⟩ inserted target
        mappings = .ok (target.addAll added) := by
  induction mappings generalizing target with
  | nil =>
      refine ⟨[], Leads.nil, ?_⟩
      rw [Insertion.addMappings, SourceMap.addAll, List.append_nil]
  | cons mapping rest ih =>
      obtain ⟨location, place, relates⟩ := leads mapping List.mem_cons_self
      have later : Leads related rest :=
        fun other member => leads other (List.mem_cons_of_mem _ member)
      obtain ⟨added, leadsToo, addedAll⟩ :=
        ih (target.add ⟨generatedStart.offsetBy mapping.generated,
          some ⟨0, start.offsetBy location, none⟩⟩) later
      refine ⟨⟨generatedStart.offsetBy mapping.generated,
        some ⟨0, start.offsetBy location, none⟩⟩ :: added, ?_, ?_⟩
      · exact Leads.cons rfl (moved _ _ relates) leadsToo
      rw [Insertion.addMappings, addMapping_of_place inserted target place]
      refine addedAll.trans ?_
      rw [SourceMap.add, SourceMap.addAll, SourceMap.addAll, List.append_assoc,
        List.singleton_append]

/-- The map of a component whose name stands for itself. -/
theorem copySource_component
    {projectRoot filename : Path}
    {name : Text}
    {inserted : SourceMap}
    (document : Text)
    (mappings : List Mapping)
    (named : SourceName.relative projectRoot filename = name)
    (standsForItself : SourceName.relative projectRoot name = name)
    (sources : inserted.sources = [name]) :
    ((SourceMap.ofSource projectRoot filename document).addAll mappings).copySource
        inserted 0 name =
      .ok (0, (SourceMap.ofSource projectRoot filename document).addAll mappings) := by
  have read : inserted.source 0 = .ok name := by
    rw [SourceMap.source, sources]
    rfl
  have found :
      ((SourceMap.ofSource projectRoot filename document).addAll mappings).addSource
          name = (0, (SourceMap.ofSource projectRoot filename document).addAll mappings) := by
    have known : SourceMap.indexIn (SourceName.relative projectRoot name) [name] =
        (0, [name]) := by
      rw [standsForItself]
      simp [SourceMap.indexIn, List.idxOf?, List.findIdx?, List.findIdx?.go]
    unfold SourceMap.addSource SourceMap.ofSource SourceMap.addAll
    simp only [named, known]
  unfold SourceMap.copySource
  rw [read]
  simp only [bind, Except.bind]
  rw [found]
  rfl

theorem addAll_addAll (map : SourceMap) (first second : List Mapping) :
    (map.addAll first).addAll second = map.addAll (first ++ second) := by
  simp only [SourceMap.addAll, List.append_assoc]

/-- Inserting a map whose source is the component adds its mappings, moved on
both sides. -/
theorem insertMap_component
    {projectRoot filename : Path}
    {name : Text}
    {inserted : SourceMap}
    {mappings : List Mapping}
    (document : Text)
    (named : SourceName.relative projectRoot filename = name)
    (standsForItself : SourceName.relative projectRoot name = name)
    (sources : inserted.sources = [name])
    (leads : Leads related inserted.mappings)
    (given : Leads relatedToo mappings)
    (moved : ∀ inSource inGenerated, related inSource inGenerated →
      relatedToo (start.offsetBy inSource) (generatedStart.offsetBy inGenerated)) :
    ∃ more, Leads relatedToo more ∧
      insertMap ((SourceMap.ofSource projectRoot filename document).addAll mappings)
          0 name generatedStart (some start) inserted =
        .ok ((SourceMap.ofSource projectRoot filename document).addAll more) := by
  have copied := copySource_component document mappings named standsForItself sources
  obtain ⟨added, leadsToo, addedAll⟩ :=
    addMappings_of_leads inserted
      ((SourceMap.ofSource projectRoot filename document).addAll mappings) leads.ordered
      moved
  refine ⟨mappings ++ added, given.append leadsToo, ?_⟩
  have indices : List.range inserted.sources.length = [0] := by
    rw [sources]
    rfl
  unfold insertMap
  rw [indices]
  simp only [SourceMap.copySources, copied, bind, Except.bind]
  rw [← addAll_addAll]
  exact addedAll

end Insert
end ComponentPipeline
