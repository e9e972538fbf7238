import ComponentPipeline.Proofs.Document.Plan
import ComponentPipeline.Proofs.SourceMap.Insertion
import Mathlib.Data.List.Basic

/-!
# Replacements whose maps fit the document

A replacement fits a document if it has no map, or if the mappings of its map
lead from its code to corresponding places of the content that it replaces.
Splicing replacements that fit gives a map that leads from every character to
the same character of the document.

A place at the end of a content is in the document the start of the closing
tag.  In the output the tag follows as well, because no other replacement
starts there: a replaced part that starts with a tag has a tag before it.
-/

namespace ComponentPipeline

/-- A part that starts with a tag has a tag before it. -/
def Replacement.StartsBehindTag (replacement : Replacement) (document : Text) : Prop :=
  ∀ before inside after, replacement.span.Covers document before inside after →
    (inside ++ after).head? = some '<' → before.getLast? = some '>'

/-- How the map of a replacement fits a document in which the component has the
given name. -/
inductive Replacement.Fits (replacement : Replacement) (document name : Text) : Prop
  /-- There is no map. -/
  | unmapped
      (noMap : replacement.map = none)
      (behindTag : replacement.StartsBehindTag document)
  /-- The code is made from a content between tags, and the map leads to
  corresponding places of it. -/
  | mapped {before content after inserted}
      (covers : replacement.span.Covers document before content ('<' :: after))
      (notEmpty : content ≠ [])
      (tagBefore : before.getLast? = some '>')
      (opening : replacement.opening = [])
      (closing : replacement.closing = [])
      (inlineStart : replacement.inlineStart = some (Location.origin.advance before))
      (map : replacement.map = some inserted)
      (sources : inserted.sources = [name])
      (leads : Leads (Corresponds content replacement.code) inserted.mappings)

theorem Replacement.Fits.startsBehindTag
    {replacement : Replacement}
    {document name : Text}
    (fits : replacement.Fits document name) :
    replacement.StartsBehindTag document := by
  cases fits with
  | unmapped noMap behindTag => exact behindTag
  | mapped covers _ tagBefore _ _ _ _ _ _ =>
      intro before inside after coversToo _
      obtain ⟨same, -, -⟩ := covers.unique coversToo
      rw [← same]
      exact tagBefore

/-- What follows a place of a document that starts with a tag, with no tag
before it, starts with that tag in the output too. -/
theorem head?_spliceText
    {document done left : Text}
    {kept : List Replacement}
    {plan : List SplicePiece}
    (lays : Lays document done kept plan)
    (behindTags : ∀ replacement ∈ kept, replacement.StartsBehindTag document)
    (noTagBefore : done.getLast? ≠ some '>')
    (whole : document = done ++ '<' :: left) :
    (spliceText plan).head? = some '<' := by
  cases lays with
  | @rest _ rest wholeToo =>
      have same : '<' :: left = rest :=
        List.append_cancel_left (whole.symm.trans wholeToo)
      rw [← same]
      rfl
  | @replaced _ unchanged inside after replacement kept plan covers later =>
      have parts : '<' :: left = unchanged ++ (inside ++ after) := by
        apply List.append_cancel_left
        rw [← whole, covers.1]
        simp only [List.append_assoc]
      cases unchanged with
      | nil =>
          have tagBefore := behindTags replacement List.mem_cons_self _ _ _ covers
            (by rw [← List.nil_append (inside ++ after), ← parts]; rfl)
          rw [List.append_nil] at tagBefore
          exact absurd tagBefore noTagBefore
      | cons char others =>
          cases parts
          rfl

/-- Corresponding places of a content and its code have the same character in
the document and in the output, if the same tag follows both. -/
theorem sameCharacter_of_corresponds
    {content code before after written next : Text}
    {inSource inGenerated : Location}
    (corresponds : Corresponds content code inSource inGenerated)
    (tagNext : content.getLast? ≠ some '>' → next.head? = some '<') :
    SameCharacter (before ++ content ++ '<' :: after) (written ++ code ++ next)
      ((Location.origin.advance before).offsetBy inSource)
      ((Location.origin.advance written).offsetBy inGenerated) := by
  obtain ⟨rest, restToo, goesOn, goesOnToo, heads, ended⟩ := corresponds
  have inDocument := goesOn.within before ('<' :: after)
  have inOutput := goesOnToo.within written next
  cases rest with
  | cons char others =>
      obtain ⟨othersToo, rfl⟩ := List.head?_eq_some_iff.mp heads.symm
      exact sameCharacter_of_goesOn inDocument inOutput
  | nil =>
      have noRest : restToo = [] := List.head?_eq_none_iff.mp heads.symm
      obtain ⟨others, same⟩ := List.head?_eq_some_iff.mp (tagNext (ended rfl))
      rw [noRest, same, List.nil_append] at inOutput
      rw [same]
      exact sameCharacter_of_goesOn inDocument inOutput

section Pieces

variable {projectRoot filename : Path}
variable {document name : Text}

/-- A replacement that fits is written with a map that leads to the same
characters. -/
theorem mapPieces_inserted_of_fits
    {done inside left written : Text}
    {replacement : Replacement}
    {kept : List Replacement}
    {plan : List SplicePiece}
    {mappings : List Mapping}
    (named : SourceName.relative projectRoot filename = name)
    (standsForItself : SourceName.relative projectRoot name = name)
    (fits : replacement.Fits document name)
    (keptFits : ∀ replacement ∈ kept, replacement.Fits document name)
    (covers : replacement.span.Covers document done inside left)
    (later : Lays document (done ++ inside) kept plan)
    (given : Leads
      (SameCharacter document (written ++ replacement.text ++ spliceText plan))
      mappings) :
    ∃ more,
      Leads (SameCharacter document (written ++ replacement.text ++ spliceText plan))
          more ∧
        mapPieces 0 name
            ((SourceMap.ofSource projectRoot filename document).addAll mappings)
            (Location.origin.advance written) (.inserted replacement :: plan) =
          mapPieces 0 name
            ((SourceMap.ofSource projectRoot filename document).addAll more)
            (Location.origin.advance (written ++ replacement.text)) plan := by
  cases fits with
  | unmapped noMap _ =>
      refine ⟨mappings, given, ?_⟩
      simp only [mapPieces, noMap, bind, Except.bind, Replacement.text,
        Location.advance_append]
  | @mapped before content after inserted coversToo notEmpty tagBefore opening closing
      inlineStart map sources leads =>
      obtain ⟨rfl, rfl, rfl⟩ := coversToo.unique covers
      have text : replacement.text = replacement.code := by
        rw [Replacement.text, opening, closing, List.nil_append, List.append_nil]
      rw [text] at given ⊢
      -- The closing tag follows the code in the output.
      have tagNext (last : content.getLast? ≠ some '>') :
          (spliceText plan).head? = some '<' := by
        apply head?_spliceText later
          (fun replacement member => (keptFits replacement member).startsBehindTag)
        · rw [List.getLast?_append_of_ne_nil before notEmpty]
          exact last
        · exact covers.1
      have moved : ∀ inSource inGenerated,
          Corresponds content replacement.code inSource inGenerated →
          SameCharacter document (written ++ replacement.code ++ spliceText plan)
            ((Location.origin.advance before).offsetBy inSource)
            ((Location.origin.advance written).offsetBy inGenerated) := by
        intro inSource inGenerated corresponds
        rw [covers.1]
        exact sameCharacter_of_corresponds corresponds tagNext
      obtain ⟨more, leadsToo, inserted⟩ :=
        insertMap_component document named standsForItself sources leads given moved
      refine ⟨more, leadsToo, ?_⟩
      simp only [mapPieces, map, opening, closing, inlineStart, Location.advance_nil,
        inserted, bind, Except.bind, Location.advance_append]

/-- A plan of replacements that fit is written with a map that leads to the
same characters. -/
theorem mapPieces_of_fits
    {done written : Text}
    {kept : List Replacement}
    {plan : List SplicePiece}
    {mappings : List Mapping}
    (named : SourceName.relative projectRoot filename = name)
    (standsForItself : SourceName.relative projectRoot name = name)
    (lays : Lays document done kept plan)
    (fits : ∀ replacement ∈ kept, replacement.Fits document name)
    (given : Leads (SameCharacter document (written ++ spliceText plan)) mappings) :
    ∃ more,
      Leads (SameCharacter document (written ++ spliceText plan)) more ∧
        mapPieces 0 name
            ((SourceMap.ofSource projectRoot filename document).addAll mappings)
            (Location.origin.advance written) plan =
          .ok ((SourceMap.ofSource projectRoot filename document).addAll more) := by
  induction lays generalizing written mappings with
  | @rest done left whole =>
      have text : spliceText [.copied left (Location.origin.advance done)] = left :=
        List.flatMap_singleton _ _
      have copied := leads_copiedMappings left done [] written []
      rw [List.append_nil, List.append_nil, ← whole] at copied
      rw [text] at given ⊢
      refine ⟨mappings ++ copiedMappings 0 (Location.origin.advance written)
        (Location.origin.advance done) left, given.append copied, ?_⟩
      simp only [mapPieces, addAll_addAll]
  | @replaced done unchanged inside left replacement kept plan covers later ih =>
      have text : written ++ spliceText
            (.copied unchanged (Location.origin.advance done) ::
              .inserted replacement :: plan) =
          written ++ unchanged ++ replacement.text ++ spliceText plan := by
        simp [spliceText, SplicePiece.text]
      have copied := leads_copiedMappings unchanged done (inside ++ left) written
        (replacement.text ++ spliceText plan)
      rw [← List.append_assoc, ← List.append_assoc, ← covers.1] at copied
      rw [text] at given ⊢
      have ownFits := fits replacement List.mem_cons_self
      have keptFits : ∀ replacement ∈ kept, replacement.Fits document name :=
        fun replacement member => fits replacement (List.mem_cons_of_mem _ member)
      obtain ⟨inserted, leadsInserted, pieceWritten⟩ :=
        mapPieces_inserted_of_fits named standsForItself ownFits keptFits covers later
          (given.append copied)
      obtain ⟨more, leadsMore, planWritten⟩ := ih keptFits leadsInserted
      refine ⟨more, leadsMore, ?_⟩
      rw [← planWritten, ← pieceWritten, mapPieces, addAll_addAll,
        Location.advance_append]

end Pieces

/-- The map of a splice of replacements that fit. -/
theorem spliceMap_of_fits
    {document : Text}
    {filename projectRoot : Path}
    {replacements : List Replacement}
    (standsForItself :
      SourceName.relative projectRoot (SourceName.relative projectRoot filename) =
        SourceName.relative projectRoot filename)
    (placed : ∀ replacement ∈ replacements, ∃ before inside after,
      replacement.span.Covers document before inside after)
    (fits : ∀ replacement ∈ replacements,
      replacement.Fits document (SourceName.relative projectRoot filename)) :
    ∃ mappings,
      Leads (SameCharacter document (spliceText (splicePlan document replacements)))
          mappings ∧
        spliceMap document filename projectRoot (splicePlan document replacements) =
          .ok ((SourceMap.ofSource projectRoot filename document).addAll mappings) := by
  have keptFits : ∀ replacement ∈ keptFrom Replacement.span 0 (byStart replacements),
      replacement.Fits document (SourceName.relative projectRoot filename) := by
    intro replacement member
    have sorted := mem_of_mem_keptFrom member
    exact fits replacement ((List.mergeSort_perm _ _).mem_iff.mp sorted)
  have nothingWritten : Leads
      (SameCharacter document ([] ++ spliceText (splicePlan document replacements))) [] :=
    Leads.nil
  exact mapPieces_of_fits rfl standsForItself (lays_splicePlan placed) keptFits
    nothingWritten

end ComponentPipeline
