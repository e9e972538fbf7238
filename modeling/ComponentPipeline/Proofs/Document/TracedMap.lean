import ComponentPipeline.Proofs.Document.Assembly
import ComponentPipeline.Proofs.SourceMap.Additions
import ComponentPipeline.Proofs.SourceMap.ComponentName
import ComponentPipeline.Proofs.SourceMap.Insertion

/-!
# What the map of a spliced document says

The map of a spliced document follows the document from its start to its end.
Every copied line is said to come from where it stands in the document.  Of the
mappings of an inserted map it is said where their text lands in the output, and
where the place they lead to lies; if that place is in a content that stands in
the document, it lies there.
-/

namespace ComponentPipeline

/-! ## Texts inside others -/

/-- At a location the outer text goes on as the inner text does at another one,
with a certain text behind. -/
def GoesOnAs (inner outer next : Text) (inside location : Location) : Prop :=
  ∀ rest, inner.GoesOn inside rest → outer.GoesOn location (rest ++ next)

/-- A location in a text that stands in another one is put in place there. -/
theorem goesOnAs_offsetBy
    {inner outer next : Text}
    {start : Location}
    (stands : outer.GoesOn start (inner ++ next))
    (inside : Location) :
    GoesOnAs inner outer next inside (start.offsetBy inside) := by
  intro rest goesOn
  obtain ⟨before, rfl, rfl⟩ := stands
  rw [← List.append_assoc]
  exact goesOn.within before next

/-! ## Copied lines -/

/-- What is said of a line of a text that is copied from the document into the
output, where other texts are behind it: the rest of the text from that line on
stands at both locations. -/
inductive CopiedLine
    (document output documentName text left written : Text)
    (line : Text × Nat) :
    Location × Option Origin → Prop
  | stands {after : Text} {location generated : Location}
      (inText : text.GoesOn ⟨line.2, 0⟩ (line.1 ++ after))
      (inDocument : document.GoesOn location (line.1 ++ after ++ left))
      (inOutput : output.GoesOn generated (line.1 ++ after ++ written)) :
      CopiedLine document output documentName text left written line
        (generated, some ⟨documentName, location, none⟩)

/-- The lines of a copied text are added with the locations where they stand. -/
theorem adds_of_copied
    {target : SourceMap}
    {document output documentName done text left before written : Text}
    (complete : target.Complete)
    (first : target.sources[0]? = some documentName)
    (inDocument : document = done ++ text ++ left)
    (inOutput : output = before ++ text ++ written) :
    ∃ said,
      target.Adds
          (target.addAll (copiedMappings 0 (Location.origin.advance before)
            (Location.origin.advance done) text)) said ∧
        List.Forall₂ (CopiedLine document output documentName text left written)
          (filledLines text) said := by
  rw [copiedMappings_eq]
  refine ⟨_, .addAll_intoSource complete first _ _ _, ?_⟩
  rw [List.forall₂_map_right_iff, List.forall₂_same]
  rintro ⟨line, number⟩ filled
  obtain ⟨after, inText, -⟩ := Text.goesOn_of_mem_lines (mem_filledLines_iff.mp filled).1
  subst inDocument inOutput
  exact .stands inText (inText.within done left) (inText.within before written)

/-! ## Inserted maps -/

/-- What is said of a mapping of the map of a replacement, when some text is
written behind the code of the replacement. -/
inductive TracedMapping
    (document output projectRoot documentName : Text)
    (replacement : Replacement)
    (inserted : SourceMap)
    (behind : Text)
    (mapping : Mapping) :
    Location × Option Origin → Prop
  /-- A mapping without a place stays without. -/
  | unplaced {generated : Location}
      (lands : GoesOnAs replacement.code output behind mapping.generated generated)
      (notPlaced : mapping.place = none) :
      TracedMapping document output projectRoot documentName replacement inserted behind
        mapping (generated, none)
  /-- A place in a content that stands in the document is put in place there. -/
  | inline {generated location start : Location} {place : Place} {source : Text}
        {name : Option Text}
      (lands : GoesOnAs replacement.code output behind mapping.generated generated)
      (placed : mapping.place = some place)
      (sourceListed : inserted.sources[place.source]? = some source)
      (nameListed : inserted.nameText? place.name = some name)
      (isDocument : SourceName.relative projectRoot source = documentName)
      (inlineStart : replacement.inlineStart = some start)
      (stands : ∀ content after, document.GoesOn start (content ++ after) →
        GoesOnAs content document after place.location location) :
      TracedMapping document output projectRoot documentName replacement inserted behind
        mapping (generated, some ⟨documentName, location, name⟩)
  /-- Any other place stays as it is, and its source is named relative to the
  project. -/
  | elsewhere {generated : Location} {place : Place} {source reached : Text}
        {name : Option Text}
      (lands : GoesOnAs replacement.code output behind mapping.generated generated)
      (placed : mapping.place = some place)
      (sourceListed : inserted.sources[place.source]? = some source)
      (nameListed : inserted.nameText? place.name = some name)
      (isReached : reached = SourceName.relative projectRoot source)
      (stays : SourceName.IsRelative source → reached = source)
      (notInline : reached ≠ documentName ∨ replacement.inlineStart = none) :
      TracedMapping document output projectRoot documentName replacement inserted behind
        mapping (generated, some ⟨reached, place.location, name⟩)

/-- What is said for a replacement: nothing if it has no map, and otherwise
something for each mapping of its map that has its source there. -/
inductive TracedReplacement
    (document output projectRoot documentName : Text)
    (replacement : Replacement)
    (behind : Text) :
    List (Location × Option Origin) → Prop
  | noMap
      (without : replacement.map = none) :
      TracedReplacement document output projectRoot documentName replacement behind []
  | map {inserted : SourceMap} {said : List (Location × Option Origin)}
      (given : replacement.map = some inserted)
      (traced : List.Forall₂
        (TracedMapping document output projectRoot documentName replacement inserted behind)
        (inserted.ordered.filter inserted.hasSourceOf) said) :
      TracedReplacement document output projectRoot documentName replacement behind said

theorem tracedMapping_of_saidOf
    {document output projectRoot documentName behind : Text}
    {replacement : Replacement}
    {inserted : SourceMap}
    {generatedStart : Location}
    (lands : output.GoesOn generatedStart (replacement.code ++ behind))
    {mapping : Mapping}
    {said : Location × Option Origin}
    (saidOf : SaidOf inserted projectRoot documentName generatedStart replacement.inlineStart
      mapping said) :
    TracedMapping document output projectRoot documentName replacement inserted behind mapping
      said := by
  have landsAt := goesOnAs_offsetBy lands mapping.generated
  cases saidOf with
  | unplaced notPlaced => exact .unplaced landsAt notPlaced
  | @placed place source name placed sourceListed nameListed =>
      have stays (isRelative : SourceName.IsRelative source) :
          SourceName.relative projectRoot source = source :=
        SourceName.relative_of_isRelative isRelative projectRoot
      cases inlineStart : replacement.inlineStart with
      | none =>
          exact .elsewhere landsAt placed sourceListed nameListed rfl stays (.inr inlineStart)
      | some start =>
          by_cases isDocument : SourceName.relative projectRoot source = documentName
          · rw [shiftedInto, if_pos isDocument, isDocument]
            exact .inline landsAt placed sourceListed nameListed isDocument inlineStart
              fun content after stands => goesOnAs_offsetBy stands place.location
          · rw [shiftedInto, if_neg isDocument]
            exact .elsewhere landsAt placed sourceListed nameListed rfl stays
              (.inl isDocument)

/-! ## Whole documents -/

/-- What the map of a spliced document says, from the end of `done` in the document
and of `before` in the output on, for the replacements that are kept. -/
inductive Traces (document output projectRoot documentName : Text) :
    Text → Text → List Replacement → List (Location × Option Origin) → Prop
  /-- The rest of the document is copied. -/
  | rest {done before left : Text} {said : List (Location × Option Origin)}
      (inDocument : document = done ++ left)
      (inOutput : output = before ++ left)
      (copied : List.Forall₂ (CopiedLine document output documentName left [] [])
        (filledLines left) said) :
      Traces document output projectRoot documentName done before [] said
  /-- What stands before a replacement is copied, and the replacement is written
  for the part that it covers. -/
  | replaced {done before unchanged inside left written : Text}
        {replacement : Replacement} {kept : List Replacement}
        {copies inserts others : List (Location × Option Origin)}
      (covers : replacement.span.Covers document (done ++ unchanged) inside left)
      (inOutput : output = before ++ unchanged ++ replacement.text ++ written)
      (copied : List.Forall₂
        (CopiedLine document output documentName unchanged (inside ++ left)
          (replacement.text ++ written))
        (filledLines unchanged) copies)
      (inserted : TracedReplacement document output projectRoot documentName replacement
        (replacement.closing ++ written) inserts)
      (later : Traces document output projectRoot documentName (done ++ unchanged ++ inside)
        (before ++ unchanged ++ replacement.text) kept others) :
      Traces document output projectRoot documentName done before (replacement :: kept)
        (copies ++ inserts ++ others)

/-- What adds the map of a replacement and the pieces behind it adds first the one and
then the others. -/
theorem exists_of_mapPieces_inserted
    {target map : SourceMap}
    {documentName before : Text}
    {replacement : Replacement}
    {plan : List SplicePiece}
    (mapped : mapPieces 0 documentName target (Location.origin.advance before)
      (.inserted replacement :: plan) = .ok map) :
    ∃ next,
      (match replacement.map with
        | none => Except.ok target
        | some inserted =>
            insertMap target 0 documentName
              (Location.origin.advance (before ++ replacement.opening))
              replacement.inlineStart inserted) = Except.ok next ∧
        mapPieces 0 documentName next (Location.origin.advance (before ++ replacement.text))
          plan = .ok map := by
  have written : before ++ replacement.text =
      before ++ replacement.opening ++ replacement.code ++ replacement.closing := by
    simp only [Replacement.text, List.append_assoc]
  simp only [written, Location.advance_append]
  rw [mapPieces] at mapped
  cases given : replacement.map with
  | none =>
      rw [given] at mapped
      exact ⟨target, rfl, mapped⟩
  | some inserted =>
      rw [given] at mapped
      exact exists_of_bind_eq_ok mapped

/-- A replacement adds what is said of it to the map of a document. -/
theorem adds_of_inserted
    {target next : SourceMap}
    {document output documentName before behind : Text}
    {replacement : Replacement}
    (complete : target.Complete)
    (first : target.sources[0]? = some documentName)
    (inOutput : output = before ++ (replacement.code ++ behind))
    (inserted :
      (match replacement.map with
        | none => Except.ok target
        | some map =>
            insertMap target 0 documentName (Location.origin.advance before)
              replacement.inlineStart map) = Except.ok next) :
    ∃ said, target.Adds next said ∧
      TracedReplacement document output target.projectRoot documentName replacement behind
        said := by
  have lands : output.GoesOn (Location.origin.advance before) (replacement.code ++ behind) :=
    ⟨before, inOutput, rfl⟩
  cases given : replacement.map with
  | none =>
      rw [given] at inserted
      cases inserted
      exact ⟨[], .refl complete, .noMap given⟩
  | some map =>
      rw [given] at inserted
      obtain ⟨said, adds, saidOf⟩ := adds_of_insertMap complete first inserted
      exact ⟨said, adds, .map given
        (saidOf.imp fun mapping said => tracedMapping_of_saidOf lands)⟩

/-- A plan adds what is said of its pieces to the map of a document. -/
theorem exists_traces
    {document output documentName done before : Text}
    {kept : List Replacement}
    {plan : List SplicePiece}
    (lays : Lays document done kept plan)
    {target map : SourceMap}
    (complete : target.Complete)
    (first : target.sources[0]? = some documentName)
    (inOutput : output = before ++ spliceText plan)
    (mapped : mapPieces 0 documentName target (Location.origin.advance before) plan =
      .ok map) :
    ∃ said, target.Adds map said ∧
      Traces document output target.projectRoot documentName done before kept said := by
  induction lays generalizing target before with
  | @rest done left inDocument =>
      cases mapped
      have whole : output = before ++ left := by
        simpa [spliceText, SplicePiece.text] using inOutput
      obtain ⟨said, adds, copied⟩ := adds_of_copied complete first
        (inDocument.trans (List.append_nil _).symm) (whole.trans (List.append_nil _).symm)
      exact ⟨said, adds, .rest inDocument whole copied⟩
  | @replaced done unchanged inside left replacement kept plan covers later ih =>
      have whole : output = before ++ unchanged ++ replacement.text ++ spliceText plan := by
        simpa [spliceText, SplicePiece.text] using inOutput
      obtain ⟨copies, addsCopies, copied⟩ := adds_of_copied complete first
        (covers.1.trans (List.append_assoc _ _ _)) (whole.trans (List.append_assoc _ _ _))
      have firstCopied := SourceMap.Grows.getElem?_eq_some addsCopies.sources first
      rw [mapPieces, ← Location.advance_append] at mapped
      obtain ⟨next, inserted, mapped⟩ := exists_of_mapPieces_inserted mapped
      have codeAt : output =
          before ++ unchanged ++ replacement.opening ++
            (replacement.code ++ (replacement.closing ++ spliceText plan)) := by
        rw [whole, Replacement.text]
        simp only [List.append_assoc]
      obtain ⟨inserts, addsInserts, tracedInserts⟩ :=
        adds_of_inserted addsCopies.complete firstCopied codeAt inserted
      have firstInserted := SourceMap.Grows.getElem?_eq_some addsInserts.sources firstCopied
      obtain ⟨others, addsOthers, tracesLater⟩ :=
        ih addsInserts.complete firstInserted whole mapped
      rw [addsCopies.projectRoot] at tracedInserts
      rw [addsInserts.projectRoot, addsCopies.projectRoot] at tracesLater
      exact ⟨copies ++ inserts ++ others, (addsCopies.trans addsInserts).trans addsOthers,
        .replaced covers whole copied tracedInserts tracesLater⟩

/-- The replacements that are kept: by increasing start, those that reach no further
than the document and do not start before the end of an earlier one that is kept. -/
def keptReplacements (document : Text) (replacements : List Replacement) : List Replacement :=
  keptFrom Replacement.span 0
    ((byStart replacements).filter fun replacement =>
      replacement.span.stop ≤ Text.size document)

/-- The plan for a whole document, for replacements of which some may reach past its
end. -/
theorem lays_keptReplacements
    {document : Text}
    {replacements : List Replacement}
    (placed : ∀ replacement ∈ replacements, Text.size document < replacement.span.stop ∨
      ∃ before inside after, replacement.span.Covers document before inside after) :
    Lays document [] (keptReplacements document replacements)
      (splicePlan document replacements) := by
  have sorted := List.mergeSort_perm replacements
    fun first second => first.span.start ≤ second.span.start
  have whole : document = [] ++ document := rfl
  rw [splicePlan, ← planFrom_within]
  refine lays_planFrom whole fun replacement member => ?_
  obtain ⟨inOrder, within⟩ := List.mem_filter.mp member
  rcases placed replacement (sorted.mem_iff.mp inOrder) with past | covers
  · have reaches := of_decide_eq_true within
    omega
  · exact covers

/-- Whenever a document is spliced with a map, the map leads every copied line to where it
stands in the document, and takes over every mapping of the replacements that are kept,
except for those into sources that their maps do not have. -/
theorem traces_of_splice
    {document output : Text}
    {filename projectRoot : Path}
    {replacements : List Replacement}
    {map : SourceMap}
    (placed : ∀ replacement ∈ replacements, Text.size document < replacement.span.stop ∨
      ∃ before inside after, replacement.span.Covers document before inside after)
    (spliced : splice document filename projectRoot replacements true =
      .ok (output, some map)) :
    map.Complete ∧
      Traces document output projectRoot (SourceName.relative projectRoot filename) [] []
        (keptReplacements document replacements) map.origins := by
  simp only [splice, if_true] at spliced
  split at spliced
  · rename_i mapped
    cases spliced
    have complete : (SourceMap.ofSource projectRoot filename document).Complete :=
      fun _ member => absurd member List.not_mem_nil
    have written : spliceText (splicePlan document replacements) =
        [] ++ spliceText (splicePlan document replacements) := rfl
    obtain ⟨said, adds, traces⟩ :=
      exists_traces (lays_keptReplacements placed) complete rfl written mapped
    have origins : _ = said := adds.origins
    rw [origins]
    exact ⟨adds.complete, traces⟩
  · cases spliced

/-- A document with a sign beyond the first plane and a block of two lines. -/
def blockSample : Text :=
  "p😀<s>a\nb</s>\nend"

/-- The map of a block: into its content, without a place, into its content by a name,
into a file, and into a source that the map does not have. -/
def blockMapSample : SourceMap where
  projectRoot := "/p"
  sources := ["App.svelte", "lib/x.css"]
  contents := []
  names := ["b"]
  mappings :=
    [⟨⟨0, 0⟩, some ⟨0, ⟨0, 0⟩, none⟩⟩, ⟨⟨0, 1⟩, none⟩, ⟨⟨1, 0⟩, some ⟨0, ⟨1, 0⟩, some 0⟩⟩,
      ⟨⟨1, 0⟩, some ⟨1, ⟨4, 2⟩, none⟩⟩, ⟨⟨1, 1⟩, some ⟨7, ⟨0, 0⟩, none⟩⟩]

/-- A replacement past the end of the document, one inside the block and one for the
block. -/
def replacementsSample : List Replacement :=
  [⟨⟨16, 40⟩, [], "x", [], none, none⟩, ⟨⟨8, 11⟩, [], "y", [], none, none⟩,
    ⟨⟨5, 15⟩, "<s>", "A\nB", "</s>", some blockMapSample, some ⟨0, 6⟩⟩]

/-- The document with the block replaced. -/
def splicedSample : Text :=
  "p😀<s>A\nB</s>\nend"

/-- Its map. -/
def splicedMapSample : SourceMap where
  projectRoot := "/p"
  sources := ["App.svelte", "lib/x.css"]
  contents := [blockSample]
  names := ["b"]
  mappings :=
    [⟨⟨0, 0⟩, some ⟨0, ⟨0, 0⟩, none⟩⟩, ⟨⟨0, 6⟩, some ⟨0, ⟨0, 6⟩, none⟩⟩, ⟨⟨0, 7⟩, none⟩,
      ⟨⟨1, 0⟩, some ⟨0, ⟨1, 0⟩, some 0⟩⟩, ⟨⟨1, 0⟩, some ⟨1, ⟨4, 2⟩, none⟩⟩,
      ⟨⟨2, 0⟩, some ⟨0, ⟨2, 0⟩, none⟩⟩]

theorem splice_replacementsSample :
    splice blockSample "/p/App.svelte" "/p" replacementsSample true =
      .ok (splicedSample, some splicedMapSample) := by
  have sorted : byStart replacementsSample = replacementsSample.reverse := by
    simp [byStart, replacementsSample, List.mergeSort, List.MergeSort.Internal.splitInTwo]
  have plan : splicePlan blockSample replacementsSample =
      [.copied "p😀" ⟨0, 0⟩,
        .inserted ⟨⟨5, 15⟩, "<s>", "A\nB", "</s>", some blockMapSample, some ⟨0, 6⟩⟩,
        .copied "\nend" ⟨1, 5⟩] := by
    rw [splicePlan, sorted]
    with_unfolding_all rfl
  have ordered : blockMapSample.ordered = blockMapSample.mappings :=
    List.mergeSort_of_pairwise (by decide)
  rw [splice, plan, spliceMap]
  simp only [mapPieces, insertMap, ordered]
  with_unfolding_all rfl

theorem traces_of_splice_replacementsSample :
    (∀ replacement ∈ replacementsSample, Text.size blockSample < replacement.span.stop ∨
      ∃ before inside after, replacement.span.Covers blockSample before inside after) ∧
      splice blockSample "/p/App.svelte" "/p" replacementsSample true =
        .ok (splicedSample, some splicedMapSample) ∧
      splicedMapSample.Complete ∧
      Traces blockSample splicedSample "/p" "App.svelte" [] []
        (keptReplacements blockSample replacementsSample) splicedMapSample.origins := by
  have placed : ∀ replacement ∈ replacementsSample,
      Text.size blockSample < replacement.span.stop ∨
        ∃ before inside after, replacement.span.Covers blockSample before inside after := by
    simp only [replacementsSample, List.forall_mem_cons]
    refine ⟨.inl (by decide), .inr ⟨"p😀<s>", "a\nb", "</s>\nend", ?_⟩,
      .inr ⟨"p😀", "<s>a\nb</s>", "\nend", ?_⟩, fun _ member => absurd member List.not_mem_nil⟩
    · exact ⟨by decide, by decide, by decide⟩
    · exact ⟨by decide, by decide, by decide⟩
  have traces := traces_of_splice placed splice_replacementsSample
  have name : SourceName.relative "/p" "/p/App.svelte" = "App.svelte" := by decide
  rw [name] at traces
  exact ⟨placed, splice_replacementsSample, traces⟩

end ComponentPipeline
