import ComponentPipeline.Proofs.Content.CommonIndent

/-!
# Stripping as a normal form

A stripped text has no common indentation, so stripping it again changes
nothing.  When all lines that are not blank are indented further by the same
text, the common indentation grows by its length, and stripping leaves the same
of them as before.  Blank lines do not take part: they are stripped as well if
they are wide enough, but what is left of them depends on the common
indentation.
-/

namespace ComponentPipeline

/-! ## Changed lines -/

/-- A narrowest line stays one under a change that keeps blank lines blank and
the order of the widths. -/
theorem IsNarrowest.map
    {lines : List Text}
    {line : Text}
    (narrowest : IsNarrowest lines line)
    {change : Text → Text}
    (keepsBlank : ∀ other, Text.isBlankText (change other) = Text.isBlankText other)
    (keepsOrder : ∀ other ∈ lines, Text.isBlankText other = false →
      indentWidth line ≤ indentWidth other →
        indentWidth (change line) ≤ indentWidth (change other)) :
    IsNarrowest (lines.map change) (change line) where
  listed := List.mem_map_of_mem narrowest.listed
  notBlank := by
    rw [keepsBlank]
    exact narrowest.notBlank
  least := by
    intro changed member notBlank
    obtain ⟨other, listed, rfl⟩ := List.mem_map.mp member
    rw [keepsBlank] at notBlank
    exact keepsOrder other listed notBlank (narrowest.least other listed notBlank)

theorem commonIndent_map_of_blank
    {lines : List Text}
    (blank : ∀ line ∈ lines, Text.isBlankText line = true)
    {change : Text → Text}
    (keepsBlank : ∀ line, Text.isBlankText (change line) = Text.isBlankText line) :
    commonIndent (lines.map change) = 0 := by
  apply commonIndent_of_blank
  intro changed member
  obtain ⟨line, listed, rfl⟩ := List.mem_map.mp member
  rw [keepsBlank]
  exact blank line listed

theorem indentWidth_indent_append
    {indent : Text}
    (indents : ∀ char ∈ indent, isIndentChar char = true)
    (line : Text) :
    indentWidth (indent ++ line) = indent.length + indentWidth line := by
  rw [indentWidth, List.takeWhile_append_of_pos indents, List.length_append, indentWidth]

/-- Stripping makes the indentation of a line shorter by what goes. -/
theorem indentWidth_eq_removedWidth_add (indent : Nat) (line : Text) :
    indentWidth line =
      removedWidth indent line + indentWidth (line.drop (removedWidth indent line)) := by
  have removed : ∀ char ∈ line.take (removedWidth indent line), isIndentChar char = true :=
    fun _ => isIndentChar_of_mem_take
  have width := indentWidth_indent_append removed (line.drop (removedWidth indent line))
  rw [List.take_append_drop, length_take_removedWidth] at width
  exact width

/-! ## Stripping again -/

/-- Nothing is left of the narrowest indentation. -/
theorem commonIndent_lines_stripIndent (content : Text) :
    commonIndent (Text.lines (stripIndent content).1) = 0 := by
  rw [lines_stripIndent]
  have keepsBlank := isBlankText_drop_removedWidth (commonIndent (Text.lines content))
  have widths := indentWidth_eq_removedWidth_add (commonIndent (Text.lines content))
  rcases blank_or_exists_isNarrowest (Text.lines content) with blank | ⟨line, narrowest⟩
  · exact commonIndent_map_of_blank blank keepsBlank
  · have goes := removedWidth_commonIndent narrowest.listed narrowest.notBlank
    have lineWidth := widths line
    have stays := narrowest.map keepsBlank fun other listed notBlank wider => by
      have goesToo := removedWidth_commonIndent listed notBlank
      have otherWidth := widths other
      omega
    rw [stays.commonIndent_eq]
    have width := narrowest.commonIndent_eq
    omega

theorem stripIndent_of_commonIndent_eq_zero
    {content : Text}
    (nothing : commonIndent (Text.lines content) = 0) :
    stripIndent content = (content, 0) := by
  have parts : stripIndent content =
      (withoutIndent (commonIndent (Text.lines content)) content,
        commonIndent (Text.lines content)) := rfl
  rw [parts, nothing, withoutIndent_zero]

theorem stripIndent_stripIndent (content : Text) :
    stripIndent (stripIndent content).1 = ((stripIndent content).1, 0) :=
  stripIndent_of_commonIndent_eq_zero (commonIndent_lines_stripIndent content)

/-! ## Indenting further -/

/-- A line with an indentation put before it, unless it is blank. -/
def indentedLine (added line : Text) : Text :=
  if Text.isBlankText line then line else added ++ line

/-- A text with an indentation put before every line that is not blank. -/
def indentedBy (added content : Text) : Text :=
  Text.ofLines ((Text.lines content).map (indentedLine added))

theorem indentedLine_of_notBlank
    {line : Text}
    (notBlank : Text.isBlankText line = false)
    (added : Text) :
    indentedLine added line = added ++ line := by
  rw [indentedLine, notBlank, if_neg Bool.false_ne_true]

/-- What stripping leaves of the lines that are not blank. -/
theorem getElem?_lines_stripIndent_iff
    {content kept : Text}
    {number : Nat}
    (notBlank : Text.isBlankText kept = false) :
    (Text.lines (stripIndent content).1)[number]? = some kept ↔
      ∃ line, (Text.lines content)[number]? = some line ∧ Text.isBlankText line = false ∧
        kept = line.drop (commonIndent (Text.lines content)) := by
  constructor
  · intro left
    rw [lines_stripIndent, List.getElem?_map] at left
    obtain ⟨line, listed, rfl⟩ := Option.map_eq_some_iff.mp left
    rw [isBlankText_drop_removedWidth] at notBlank
    have width := removedWidth_commonIndent (List.mem_of_getElem? listed) notBlank
    exact ⟨line, listed, notBlank, by rw [width]⟩
  · rintro ⟨line, listed, lineNotBlank, rfl⟩
    exact getElem?_lines_stripIndent listed lineNotBlank

section Added

variable {added : Text} (indents : ∀ char ∈ added, isIndentChar char = true)

include indents

theorem isBlankText_indentedLine (line : Text) :
    Text.isBlankText (indentedLine added line) = Text.isBlankText line := by
  unfold indentedLine
  split
  · rfl
  · exact isBlankText_indent_append indents line

theorem lines_indentedBy (content : Text) :
    Text.lines (indentedBy added content) =
      (Text.lines content).map (indentedLine added) := by
  apply Text.lines_ofLines
  · intro indented member feed
    obtain ⟨line, listed, rfl⟩ := List.mem_map.mp member
    have noFeed : '\n' ∉ line := Text.noFeed_of_mem_lines listed
    unfold indentedLine at feed
    split at feed
    · exact noFeed feed
    · rcases List.mem_append.mp feed with inAdded | inLine
      · exact absurd (indents '\n' inAdded) (by decide)
      · exact noFeed inLine
  · rw [ne_eq, List.map_eq_nil_iff]
    exact List.splitOn_ne_nil '\n' content

/-- The common indentation grows by what is added. -/
theorem commonIndent_lines_indentedBy
    {content line : Text}
    (listed : line ∈ Text.lines content)
    (notBlank : Text.isBlankText line = false) :
    commonIndent (Text.lines (indentedBy added content)) =
      commonIndent (Text.lines content) + added.length := by
  have widths (other : Text) (otherNotBlank : Text.isBlankText other = false) :
      indentWidth (indentedLine added other) = added.length + indentWidth other := by
    rw [indentedLine_of_notBlank otherNotBlank, indentWidth_indent_append indents]
  rw [lines_indentedBy indents]
  rcases blank_or_exists_isNarrowest (Text.lines content) with blank | ⟨narrow, narrowest⟩
  · rw [blank line listed] at notBlank
    cases notBlank
  · have stays := narrowest.map (isBlankText_indentedLine indents)
      fun other _ otherNotBlank wider => by
        rw [widths narrow narrowest.notBlank, widths other otherNotBlank]
        omega
    rw [stays.commonIndent_eq, narrowest.commonIndent_eq, widths narrow narrowest.notBlank,
      Nat.add_comm]

theorem length_lines_stripIndent_indentedBy (content : Text) :
    (Text.lines (stripIndent (indentedBy added content)).1).length =
      (Text.lines (stripIndent content).1).length := by
  rw [lines_stripIndent, lines_stripIndent, List.length_map, List.length_map,
    lines_indentedBy indents, List.length_map]

/-- What is added goes again. -/
theorem drop_indentedLine
    {content line : Text}
    (listed : line ∈ Text.lines content)
    (notBlank : Text.isBlankText line = false) :
    (indentedLine added line).drop (commonIndent (Text.lines (indentedBy added content))) =
      line.drop (commonIndent (Text.lines content)) := by
  rw [indentedLine_of_notBlank notBlank,
    commonIndent_lines_indentedBy indents listed notBlank, Nat.add_comm, ← List.drop_drop,
    List.drop_left]

theorem getElem?_lines_stripIndent_indentedBy_iff
    {content kept : Text}
    {number : Nat}
    (notBlank : Text.isBlankText kept = false) :
    (Text.lines (stripIndent (indentedBy added content)).1)[number]? = some kept ↔
      (Text.lines (stripIndent content).1)[number]? = some kept := by
  rw [getElem?_lines_stripIndent_iff notBlank, getElem?_lines_stripIndent_iff notBlank,
    lines_indentedBy indents, List.getElem?_map, ← lines_indentedBy indents]
  constructor
  · rintro ⟨indented, found, indentedNotBlank, rfl⟩
    obtain ⟨line, listed, rfl⟩ := Option.map_eq_some_iff.mp found
    rw [isBlankText_indentedLine indents] at indentedNotBlank
    exact ⟨line, listed, indentedNotBlank,
      drop_indentedLine indents (List.mem_of_getElem? listed) indentedNotBlank⟩
  · rintro ⟨line, listed, lineNotBlank, rfl⟩
    refine ⟨indentedLine added line, by rw [listed]; rfl, ?_, ?_⟩
    · rw [isBlankText_indentedLine indents]
      exact lineNotBlank
    · exact (drop_indentedLine indents (List.mem_of_getElem? listed) lineNotBlank).symm

end Added

/-- Stripping a stripped text changes nothing.  A text whose lines are indented
further, but for the blank ones, strips to as many lines and to the same ones at
the same places, but for the blank ones; it has more common indentation by what
was added, unless all lines are blank. -/
theorem stripIndent_is_normal_form
    (content : Text)
    {added : Text}
    (indents : ∀ char ∈ added, isIndentChar char = true) :
    stripIndent (stripIndent content).1 = ((stripIndent content).1, 0) ∧
      (Text.lines (stripIndent (indentedBy added content)).1).length =
        (Text.lines (stripIndent content).1).length ∧
      (∀ (number : Nat) (line : Text), Text.isBlankText line = false →
        ((Text.lines (stripIndent (indentedBy added content)).1)[number]? = some line ↔
          (Text.lines (stripIndent content).1)[number]? = some line)) ∧
      ((∃ line ∈ Text.lines content, Text.isBlankText line = false) →
        (stripIndent (indentedBy added content)).2 =
          (stripIndent content).2 + added.length) := by
  refine ⟨stripIndent_stripIndent content, length_lines_stripIndent_indentedBy indents content,
    ?_, ?_⟩
  · intro number line notBlank
    exact getElem?_lines_stripIndent_indentedBy_iff indents notBlank
  · rintro ⟨line, listed, notBlank⟩
    exact commonIndent_lines_indentedBy indents listed notBlank

/-- A text of indented lines, with a narrow and a wide blank line between them. -/
def unevenSample : Text :=
  "   a\n \n\t\t\t\t\n  \tb \n\t  c"

theorem stripIndent_is_normal_form_unevenSample :
    (∀ char ∈ (" \t" : Text), isIndentChar char = true) ∧
      stripIndent (stripIndent unevenSample).1 = ((stripIndent unevenSample).1, 0) ∧
      (∀ (number : Nat) (line : Text), Text.isBlankText line = false →
        ((Text.lines (stripIndent (indentedBy " \t" unevenSample)).1)[number]? = some line ↔
          (Text.lines (stripIndent unevenSample).1)[number]? = some line)) ∧
      (stripIndent (indentedBy " \t" unevenSample)).2 = 5 := by
  have indents : ∀ char ∈ (" \t" : Text), isIndentChar char = true :=
    List.all_eq_true.mp (by decide)
  obtain ⟨again, -, sameLines, counted⟩ := stripIndent_is_normal_form unevenSample indents
  exact ⟨indents, again, sameLines, counted ⟨"   a", by decide, by decide⟩⟩

end ComponentPipeline
