import ComponentPipeline.Content.Prepared
import ComponentPipeline.Proofs.SourceMap.Leads
import Mathlib.Data.List.Basic

/-!
# What preparation does to locations

A prepared text has some lines of data and then the lines of the content, each
without the indentation that was removed from it.  The start of every such line
goes on as the content does behind the removed indentation.
-/

namespace ComponentPipeline

/-! ## Indentation -/

theorem charUnits_of_isIndentChar {char : Char} (blank : isIndentChar char = true) :
    Text.charUnits char = 1 := by
  simp only [isIndentChar, Bool.or_eq_true, beq_iff_eq] at blank
  rcases blank with rfl | rfl <;> rfl

theorem units_of_isIndentChar
    {text : Text}
    (blank : ∀ char ∈ text, isIndentChar char = true) :
    Text.units text = text.length := by
  induction text with
  | nil => rfl
  | cons char rest ih =>
      rw [Text.units_cons, charUnits_of_isIndentChar (blank char List.mem_cons_self),
        ih fun char member => blank char (List.mem_cons_of_mem _ member),
        List.length_cons, Nat.add_comm]

theorem removedWidth_le_indentWidth (indent : Nat) (line : Text) :
    removedWidth indent line ≤ indentWidth line := by
  unfold removedWidth
  split <;> omega

/-- What is removed from a line is indentation. -/
theorem isIndentChar_of_mem_take
    {indent : Nat}
    {line : Text}
    {char : Char}
    (removed : char ∈ line.take (removedWidth indent line)) :
    isIndentChar char = true := by
  have enough := removedWidth_le_indentWidth indent line
  have parts : line.takeWhile isIndentChar ++ line.dropWhile isIndentChar = line :=
    List.takeWhile_append_dropWhile
  rw [← parts, List.take_append_of_le_length (by rw [parts]; exact enough), parts]
    at removed
  exact List.all_eq_true.mp List.all_takeWhile char (List.mem_of_mem_take removed)

theorem length_take_removedWidth (indent : Nat) (line : Text) :
    (line.take (removedWidth indent line)).length = removedWidth indent line := by
  have enough := removedWidth_le_indentWidth indent line
  have inside : indentWidth line ≤ line.length :=
    (List.takeWhile_prefix isIndentChar).length_le
  exact List.length_take_of_le (by omega)

theorem units_take_removedWidth (indent : Nat) (line : Text) :
    Text.units (line.take (removedWidth indent line)) = removedWidth indent line := by
  rw [units_of_isIndentChar fun _ removed => isIndentChar_of_mem_take removed,
    length_take_removedWidth]

/-- The location on a line behind the indentation that was removed from it. -/
theorem advance_take_removedWidth
    {line : Text}
    (noFeed : '\n' ∉ line)
    (number indent : Nat) :
    Location.advance ⟨number, 0⟩ (line.take (removedWidth indent line)) =
      ⟨number, removedWidth indent line⟩ := by
  have noFeedToo : '\n' ∉ line.take (removedWidth indent line) :=
    fun member => noFeed (List.mem_of_mem_take member)
  rw [Location.advance_of_noFeed noFeedToo, units_take_removedWidth, Nat.zero_add]

/-- A content whose last line is all removed does not end with a tag. -/
theorem getLast?_ne_of_removed
    {content line : Text}
    {indent number : Nat}
    (ends : content.GoesOn ⟨number, 0⟩ line)
    (removed : line.take (removedWidth indent line) = line) :
    content.getLast? ≠ some '>' := by
  intro last
  obtain ⟨before, parts, start⟩ := ends
  cases line with
  | cons char rest =>
      -- The last character would be one of an indentation.
      have inLine : '>' ∈ char :: rest := by
        rw [parts, List.getLast?_append_of_ne_nil _ (List.cons_ne_nil char rest)] at last
        exact List.mem_of_getLast? last
      rw [← removed] at inLine
      cases isIndentChar_of_mem_take inLine
  | nil =>
      -- The content would not end at the start of a line.
      rw [List.append_nil] at parts
      subst parts
      obtain ⟨written, rfl⟩ := List.getLast?_eq_some_iff.mp last
      rw [Location.advance_append] at start
      have column := congrArg Location.column start
      simp [Location.step, Text.charUnits] at column

/-! ## Prepared contents -/

/-- A content without the given indentation on every line that has as much. -/
def withoutIndent (indent : Nat) (content : Text) : Text :=
  Text.ofLines <| (Text.lines content).map fun line =>
    line.drop (removedWidth indent line)

theorem withoutIndent_zero (content : Text) : withoutIndent 0 content = content := by
  have nothing : (fun line : Text => line.drop (removedWidth 0 line)) = id := by
    funext line
    simp [removedWidth]
  rw [withoutIndent, nothing, List.map_id, Text.ofLines_lines]

/-- Every line is left of a text without its indentation, some of them shorter. -/
theorem lines_withoutIndent (indent : Nat) (content : Text) :
    Text.lines (withoutIndent indent content) =
      (Text.lines content).map fun line => line.drop (removedWidth indent line) := by
  refine Text.lines_ofLines ?_ ?_
  · intro kept member feed
    obtain ⟨whole, inLines, rfl⟩ := List.mem_map.mp member
    exact Text.noFeed_of_mem_lines inLines (List.mem_of_mem_drop feed)
  · rw [ne_eq, List.map_eq_nil_iff]
    exact List.splitOn_ne_nil '\n' content

/-- What is left of a line stands at the start of its number. -/
theorem goesOn_withoutIndent
    {content line : Text}
    {number : Nat}
    (indent : Nat)
    (listed : (Text.lines content)[number]? = some line) :
    ∃ after,
      (withoutIndent indent content).GoesOn ⟨number, 0⟩
          (line.drop (removedWidth indent line) ++ after) ∧
        after.head? =
          if number + 1 = (Text.lines content).length then none else some '\n' := by
  have keptListed : (Text.lines (withoutIndent indent content))[number]? =
      some (line.drop (removedWidth indent line)) := by
    rw [lines_withoutIndent, List.getElem?_map, listed]
    rfl
  have stands := Text.goesOn_of_mem_lines keptListed
  rw [lines_withoutIndent, List.length_map] at stands
  exact stands

/-- Counting line feeds gives the line. -/
theorem Location.line_advance (location : Location) (text : Text) :
    (location.advance text).line = location.line + text.count '\n' := by
  induction text generalizing location with
  | nil => rfl
  | cons char rest ih =>
      rw [Location.advance_cons, ih, Location.step, List.count_cons]
      by_cases feed : char = '\n'
      · rw [if_pos feed, if_pos (beq_iff_eq.mpr feed)]
        simp only
        omega
      · rw [if_neg feed, if_neg (by simpa using feed)]
        rfl

namespace Prepared

/-- The data before a content: nothing, or lines that a line feed ends. -/
inductive DataLines : Text → Nat → Prop
  | none : DataLines [] 0
  | given (data : Text) : DataLines (data ++ ['\n']) (data.count '\n' + 1)

theorem DataLines.advance_eq
    {data : Text}
    {number : Nat}
    (lines : DataLines data number) :
    Location.origin.advance data = ⟨number, 0⟩ := by
  cases lines with
  | none => rfl
  | given data =>
      rw [Location.advance_append, Location.advance_cons, Location.step, if_pos rfl,
        Location.line_advance]
      simp [Location.origin]

/-- What is put before a content: nothing, or the data and a line feed. -/
def dataBefore (options : Table Json) : Text :=
  ((prependData? options).map fun data => data ++ ['\n']).getD []

/-- The lines of the data that are put before a content. -/
def dataLines (options : Table Json) : List Text :=
  ((prependData? options).map Text.lines).getD []

theorem lines_dataBefore_append (options : Table Json) (content : Text) :
    Text.lines (dataBefore options ++ content) = dataLines options ++ Text.lines content := by
  unfold dataBefore dataLines
  cases prependData? options with
  | none => rfl
  | some data =>
      rw [Option.map_some, Option.map_some, Option.getD_some, Option.getD_some,
        List.append_assoc, List.singleton_append, Text.lines_append_feed]

/-- A prepared text has the data, if any, and then the content without its
indentation. -/
theorem code_ofMembers (content : Text) (options : Table Json) :
    (ofMembers content options).code =
        dataBefore options ++ withoutIndent (ofMembers content options).indent content ∧
      DataLines (dataBefore options) (ofMembers content options).prependedLines := by
  have stripped : (if stripsIndent options then stripIndent content else (content, 0)) =
      (withoutIndent
          (if stripsIndent options then stripIndent content else (content, 0)).2 content,
        (if stripsIndent options then stripIndent content else (content, 0)).2) := by
    split
    · rfl
    · rw [withoutIndent_zero]
  unfold ofMembers dataBefore
  rw [stripped]
  simp only
  split
  · rename_i data given
    rw [given]
    exact ⟨by simp, .given data⟩
  · rename_i notGiven
    rw [notGiven]
    exact ⟨rfl, .none⟩

/-- The lines of a prepared text are those of the data and then those of the
content, each without its indentation. -/
theorem lines_code_ofMembers (content : Text) (options : Table Json) :
    Text.lines (ofMembers content options).code =
      dataLines options ++ (Text.lines content).map (fun line =>
        line.drop (removedWidth (ofMembers content options).indent line)) := by
  rw [(code_ofMembers content options).1, lines_dataBefore_append, lines_withoutIndent]

theorem prependedLines_ofMembers (content : Text) (options : Table Json) :
    (ofMembers content options).prependedLines = (dataLines options).length := by
  unfold ofMembers dataLines
  cases prependData? options with
  | none => rfl
  | some data => exact (Text.length_lines data).symm

/-- What is left of a line of a content stands as far behind the data as the line
stands in the content. -/
theorem getElem?_lines_code
    {content line : Text}
    {number : Nat}
    (options : Table Json)
    (listed : (Text.lines content)[number]? = some line) :
    (Text.lines (ofMembers content options).code)[
        (ofMembers content options).prependedLines + number]? =
      some (line.drop (removedWidth (ofMembers content options).indent line)) := by
  rw [lines_code_ofMembers, prependedLines_ofMembers,
    List.getElem?_append_right (Nat.le_add_right _ _), Nat.add_sub_cancel_left,
    List.getElem?_map, listed, Option.map_some]

/-- Every line of a content has a mapping. -/
theorem getElem?_lineMappings
    (prepared : Prepared)
    (first : Nat)
    (lines : List Text)
    (number : Nat) :
    (prepared.lineMappings first lines)[number]? = lines[number]?.map fun line =>
      ⟨⟨first + number + prepared.prependedLines, 0⟩,
        some ⟨0, ⟨first + number, removedWidth prepared.indent line⟩, none⟩⟩ := by
  induction lines generalizing first number with
  | nil => rfl
  | cons line rest ih =>
      cases number with
      | zero => rfl
      | succ number =>
          have next : first + 1 + number = first + (number + 1) := by omega
          rw [lineMappings, List.getElem?_cons_succ, List.getElem?_cons_succ, ih, next]

theorem mem_lineMappings
    {prepared : Prepared}
    {first : Nat}
    {lines : List Text}
    {mapping : Mapping}
    (member : mapping ∈ prepared.lineMappings first lines) :
    ∃ number line, lines[number]? = some line ∧
      mapping = ⟨⟨first + number + prepared.prependedLines, 0⟩,
        some ⟨0, ⟨first + number, removedWidth prepared.indent line⟩, none⟩⟩ := by
  obtain ⟨number, found⟩ := List.mem_iff_getElem?.mp member
  rw [getElem?_lineMappings] at found
  obtain ⟨line, listed, same⟩ := Option.map_eq_some_iff.mp found
  exact ⟨number, line, listed, same.symm⟩

/-- The map of a prepared content leads the start of every line to where the
content goes on in the same way. -/
theorem leads_sourceMap (source content projectRoot : Text) (options : Table Json) :
    Leads (Corresponds content (ofMembers content options).code)
      ((ofMembers content options).sourceMap source content projectRoot).mappings := by
  obtain ⟨code, dataLines⟩ := code_ofMembers content options
  have dataEnd := dataLines.advance_eq
  generalize ofMembers content options = prepared at code dataEnd ⊢
  intro mapping member
  obtain ⟨number, line, listed, rfl⟩ := mem_lineMappings member
  have noFeed : '\n' ∉ line :=
    Text.noFeed_of_mem_lines (List.mem_of_getElem? listed)
  obtain ⟨after, inContent, next⟩ := Text.goesOn_of_mem_lines listed
  obtain ⟨afterToo, inKept, nextToo⟩ := goesOn_withoutIndent prepared.indent listed
  -- In the content, the place is behind the indentation.
  have inSource : content.GoesOn ⟨number, removedWidth prepared.indent line⟩
      (line.drop (removedWidth prepared.indent line) ++ after) := by
    rw [← advance_take_removedWidth noFeed]
    apply Text.GoesOn.forward
    rw [← List.append_assoc, List.take_append_drop]
    exact inContent
  -- In the prepared text, it is behind the data.
  have inGenerated : prepared.code.GoesOn ⟨number + prepared.prependedLines, 0⟩
      (line.drop (removedWidth prepared.indent line) ++ afterToo) := by
    have behindData := inKept.append_left (dataBefore options)
    rw [dataEnd, Location.offsetBy_lineStart, ← code, Nat.add_comm] at behindData
    exact behindData
  rw [Nat.zero_add]
  refine ⟨_, rfl, _, _, inSource, inGenerated, ?_, ?_⟩
  · rw [List.head?_append, List.head?_append, next, nextToo]
  · intro ended
    obtain ⟨allRemoved, noAfter⟩ := List.append_eq_nil_iff.mp ended
    have removed : line.take (removedWidth prepared.indent line) = line := by
      have parts := List.take_append_drop (removedWidth prepared.indent line) line
      rw [allRemoved, List.append_nil] at parts
      exact parts
    rw [noAfter, List.append_nil] at inContent
    exact getLast?_ne_of_removed inContent removed

/-- Without data, only indentation goes. -/
theorem code_of_noData
    {content : Text}
    {options : Table Json}
    (noData : (ofMembers content options).prependedLines = 0) :
    (ofMembers content options).code =
      withoutIndent (ofMembers content options).indent content := by
  obtain ⟨code, dataLines⟩ := code_ofMembers content options
  generalize dataBefore options = data at code dataLines
  rw [noData] at dataLines
  cases dataLines
  rw [code, List.nil_append]

/-- A prepared content whose locations are those of the content is the
content. -/
theorem code_of_not_isShifted
    {content : Text}
    {options : Table Json}
    (notShifted : (ofMembers content options).isShifted = false) :
    (ofMembers content options).code = content := by
  simp only [isShifted, Bool.or_eq_false_iff, decide_eq_false_iff_not,
    Nat.pos_iff_ne_zero, Decidable.not_not] at notShifted
  rw [code_of_noData notShifted.1, notShifted.2, withoutIndent_zero]

end Prepared
end ComponentPipeline
