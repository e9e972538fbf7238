import ComponentPipeline.Proofs.Text.Lines
import ComponentPipeline.SourceMap.Basic

/-!
# What mappings relate

The maps considered here have one source.  Each of their mappings leads from a
location of the generated text to one in that source, and the two locations
are related in some way.
-/

namespace ComponentPipeline

/-- Every mapping leads into the first source, from a location to a related
one. -/
def Leads
    (related : (inSource inGenerated : Location) → Prop)
    (mappings : List Mapping) :
    Prop :=
  ∀ mapping ∈ mappings, ∃ location,
    mapping.place = some ⟨0, location, none⟩ ∧ related location mapping.generated

namespace Leads

variable {related : Location → Location → Prop}

theorem nil : Leads related [] := by
  intro mapping member
  cases member

theorem cons
    {mapping : Mapping}
    {rest : List Mapping}
    {location : Location}
    (place : mapping.place = some ⟨0, location, none⟩)
    (first : related location mapping.generated)
    (later : Leads related rest) :
    Leads related (mapping :: rest) := by
  intro other member
  rcases List.mem_cons.mp member with rfl | inRest
  · exact ⟨location, place, first⟩
  · exact later other inRest

theorem append
    {first second : List Mapping}
    (leads : Leads related first)
    (leadsToo : Leads related second) :
    Leads related (first ++ second) := by
  intro mapping member
  rcases List.mem_append.mp member with inFirst | inSecond
  · exact leads mapping inFirst
  · exact leadsToo mapping inSecond

theorem ordered
    {map : SourceMap}
    (leads : Leads related map.mappings) :
    Leads related map.ordered := by
  intro mapping member
  exact leads mapping ((List.mergeSort_perm _ _).mem_iff.mp member)

end Leads

/-- A source and a text made from it go on with the same character, or both
are at their end and the source does not end with a tag. -/
def Corresponds (source generated : Text) (inSource inGenerated : Location) : Prop :=
  ∃ rest restToo,
    source.GoesOn inSource rest ∧ generated.GoesOn inGenerated restToo ∧
      rest.head? = restToo.head? ∧ (rest = [] → source.getLast? ≠ some '>')

/-- The map of all lines of a text leads to the same places. -/
theorem leads_ofLines (projectRoot source content : Text) :
    Leads (Corresponds content content)
      (SourceMap.ofLines projectRoot source content).mappings := by
  intro mapping member
  obtain ⟨number, counted, rfl⟩ := List.mem_map.mp member
  obtain ⟨char, rest, goesOn⟩ :=
    Text.exists_goesOn_of_lt_fileLines (List.mem_range.mp counted)
  refine ⟨⟨number, 0⟩, rfl, char :: rest, char :: rest, goesOn, goesOn, rfl, ?_⟩
  intro ended
  cases ended

end ComponentPipeline
