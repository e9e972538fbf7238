import ComponentPipeline.Proofs.Content.Reindentation

/-!
# A prepared text and its map, line by line

The text of a prepared content and its source map are made apart from each
other: the text from the stripped content, the map from the content as it was.
They agree.  Behind the lines of the data the prepared text has one line for
every line of the content, and the map one mapping, which leads from its start
to the column of the content behind which the line was kept.
-/

namespace ComponentPipeline
namespace Prepared

/-- An options value that is no object asks for as little as an empty one. -/
theorem ofContent_eq_ofMembers (content : Text) (options : Json) :
    ofContent content options = ofMembers content (options.members?.getD []) := by
  cases options <;> rfl

theorem indent_ofMembers (content : Text) (options : Table Json) :
    (ofMembers content options).indent =
      if stripsIndent options then commonIndent (Text.lines content) else 0 := by
  unfold ofMembers
  cases prependData? options <;> cases stripsIndent options <;> rfl

theorem length_lineMappings (prepared : Prepared) (first : Nat) (lines : List Text) :
    (prepared.lineMappings first lines).length = lines.length := by
  induction lines generalizing first with
  | nil => rfl
  | cons line rest ih => rw [lineMappings, List.length_cons, List.length_cons, ih]

/-- A prepared text has the lines of its data and then a line for every line of the
content, each with a mapping to where it comes from. -/
structure AgreesByLine
    (prepared : Prepared)
    (data : List Text)
    (content : Text)
    (map : SourceMap) : Prop where
  /-- As many lines are put before the content as the data have. -/
  dataCount : prepared.prependedLines = data.length
  /-- They are the lines of the data. -/
  dataFirst : (Text.lines prepared.code).take prepared.prependedLines = data
  /-- No mapping lies on them. -/
  dataUnmapped : ∀ mapping ∈ map.mappings,
    prepared.prependedLines ≤ mapping.generated.line
  /-- Behind them are as many lines as the content has. -/
  lineCount : (Text.lines prepared.code).length =
    prepared.prependedLines + (Text.lines content).length
  /-- There are as many mappings. -/
  mappingCount : map.mappings.length = (Text.lines content).length
  /-- They lead into one source, which is the content. -/
  oneSource : map.sources.length = 1 ∧ map.contents = [content]
  /-- A line of the content is left from some column on, and its mapping leads from
  the start of what is left to that column. -/
  keptLine : ∀ (number : Nat) (line : Text), (Text.lines content)[number]? = some line →
    ∃ removed kept, line = removed ++ kept ∧
      (Text.lines prepared.code)[prepared.prependedLines + number]? = some kept ∧
      map.mappings[number]? = some
        ⟨⟨prepared.prependedLines + number, 0⟩,
          some ⟨0, ⟨number, Text.units removed⟩, none⟩⟩

theorem agreesByLine_sourceMap
    (source content projectRoot : Text)
    (options : Table Json) :
    (ofMembers content options).AgreesByLine (dataLines options) content
      ((ofMembers content options).sourceMap source content projectRoot) := by
  have lines := lines_code_ofMembers content options
  have count := prependedLines_ofMembers content options
  have mappings : ((ofMembers content options).sourceMap source content projectRoot).mappings =
      (ofMembers content options).lineMappings 0 (Text.lines content) := List.nil_append _
  constructor
  · exact count
  · rw [lines, count, List.take_left]
  · intro mapping member
    rw [mappings] at member
    obtain ⟨number, line, -, rfl⟩ := mem_lineMappings member
    exact Nat.le_add_left _ _
  · rw [lines, count, List.length_append, List.length_map]
  · rw [mappings, length_lineMappings]
  · exact ⟨rfl, rfl⟩
  · intro number line listed
    refine ⟨line.take (removedWidth (ofMembers content options).indent line), _,
      (List.take_append_drop _ line).symm, getElem?_lines_code options listed, ?_⟩
    rw [mappings, getElem?_lineMappings, listed, Option.map_some, units_take_removedWidth,
      Nat.zero_add, Nat.add_comm number]

/-- Data put before a content, and indentation removed from it, show in the
text. -/
theorem code_ne_of_isShifted
    {content : Text}
    {options : Table Json}
    (shifted : (ofMembers content options).isShifted = true) :
    (ofMembers content options).code ≠ content := by
  intro same
  -- Lines of data would be more than the content has.
  have noData : (ofMembers content options).prependedLines = 0 := by
    have lines := congrArg List.length (lines_code_ofMembers content options)
    rw [same, List.length_append, List.length_map, ← prependedLines_ofMembers content] at lines
    omega
  have indented : 0 < (ofMembers content options).indent := by
    simpa [isShifted, noData] using shifted
  have indent := indent_ofMembers content options
  split at indent
  · -- The content would be a stripped text, which has no common indentation.
    have stripped : (stripIndent content).1 = content := by
      rw [code_of_noData noData, indent] at same
      exact same
    have nothing := commonIndent_lines_stripIndent content
    rw [stripped] at nothing
    omega
  · omega

/-- The map of a prepared content agrees with its text line by line, and its
locations are said to be shifted exactly if the text is not the content. -/
theorem sourceMap_agrees
    (source content projectRoot : Text)
    (options : Json) :
    (ofContent content options).AgreesByLine (dataLines (options.members?.getD [])) content
        ((ofContent content options).sourceMap source content projectRoot) ∧
      ((ofContent content options).isShifted = true ↔
        (ofContent content options).code ≠ content) := by
  rw [ofContent_eq_ofMembers]
  refine ⟨agreesByLine_sourceMap source content projectRoot _, ?_, ?_⟩
  · exact code_ne_of_isShifted
  · intro differs
    by_contra notShifted
    exact differs (code_of_not_isShifted (Bool.eq_false_iff.mpr notShifted))

end Prepared
end ComponentPipeline
