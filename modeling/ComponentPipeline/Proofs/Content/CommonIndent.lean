import ComponentPipeline.Proofs.Content.Preparation
import Mathlib.Data.List.Infix

/-!
# The common indentation of a text

The common indentation is a width: that of the narrowest line that is not
blank.  Stripping takes as many spaces and tabs off every such line, whichever
they are.  So it removes one and the same text from all of them, the longest
one that they share, exactly if one of them has an indentation that all the
others start with.
-/

namespace ComponentPipeline

/-! ## Blank lines -/

theorem isBlank_of_isIndentChar {char : Char} (indents : isIndentChar char = true) :
    Text.isBlank char = true := by
  simp only [isIndentChar, Bool.or_eq_true, beq_iff_eq] at indents
  rcases indents with rfl | rfl <;> decide

/-- Indentation before a line does not decide whether it is blank. -/
theorem isBlankText_indent_append
    {indent : Text}
    (indents : ∀ char ∈ indent, isIndentChar char = true)
    (line : Text) :
    Text.isBlankText (indent ++ line) = Text.isBlankText line := by
  have blank : indent.all Text.isBlank = true :=
    List.all_eq_true.mpr fun char member => isBlank_of_isIndentChar (indents char member)
  rw [Text.isBlankText, List.all_append, blank, Bool.true_and, ← Text.isBlankText]

/-- Stripping does not decide whether a line is blank. -/
theorem isBlankText_drop_removedWidth (indent : Nat) (line : Text) :
    Text.isBlankText (line.drop (removedWidth indent line)) = Text.isBlankText line := by
  have removed : ∀ char ∈ line.take (removedWidth indent line), isIndentChar char = true :=
    fun _ => isIndentChar_of_mem_take
  rw [← isBlankText_indent_append removed, List.take_append_drop]

/-! ## The narrowest line -/

/-- One of the lines that are not blank, and none of these has a shorter
indentation. -/
structure IsNarrowest (lines : List Text) (line : Text) : Prop where
  /-- It is one of the lines. -/
  listed : line ∈ lines
  /-- It is not blank. -/
  notBlank : Text.isBlankText line = false
  /-- No other line that is not blank has a shorter indentation. -/
  least : ∀ other ∈ lines, Text.isBlankText other = false →
    indentWidth line ≤ indentWidth other

theorem commonIndent_of_blank
    {lines : List Text}
    (blank : ∀ line ∈ lines, Text.isBlankText line = true) :
    commonIndent lines = 0 := by
  have none : lines.filter (fun line => !Text.isBlankText line) = [] := by
    rw [List.filter_eq_nil_iff]
    intro line listed
    simp [blank line listed]
  rw [commonIndent, none]
  rfl

/-- The common indentation is that of the narrowest line. -/
theorem IsNarrowest.commonIndent_eq
    {lines : List Text}
    {line : Text}
    (narrowest : IsNarrowest lines line) :
    commonIndent lines = indentWidth line := by
  have smallest : ((lines.filter fun line => !Text.isBlankText line).map indentWidth).min? =
      some (indentWidth line) := by
    rw [List.min?_eq_some_iff]
    constructor
    · apply List.mem_map_of_mem
      rw [List.mem_filter]
      exact ⟨narrowest.listed, by simp [narrowest.notBlank]⟩
    · intro width member
      obtain ⟨other, kept, rfl⟩ := List.mem_map.mp member
      rw [List.mem_filter] at kept
      apply narrowest.least other kept.1
      simpa using kept.2
  rw [commonIndent, smallest]
  rfl

/-- Unless all lines are blank, one of them is the narrowest. -/
theorem blank_or_exists_isNarrowest (lines : List Text) :
    (∀ line ∈ lines, Text.isBlankText line = true) ∨ ∃ line, IsNarrowest lines line := by
  cases found : ((lines.filter fun line => !Text.isBlankText line).map indentWidth).min? with
  | none =>
      left
      rw [List.min?_eq_none_iff, List.map_eq_nil_iff, List.filter_eq_nil_iff] at found
      intro line listed
      simpa using found line listed
  | some width =>
      right
      obtain ⟨member, least⟩ := List.min?_eq_some_iff.mp found
      obtain ⟨line, kept, rfl⟩ := List.mem_map.mp member
      rw [List.mem_filter] at kept
      refine ⟨line, kept.1, by simpa using kept.2, ?_⟩
      intro other listed notBlank
      apply least
      apply List.mem_map_of_mem
      rw [List.mem_filter]
      exact ⟨listed, by simp [notBlank]⟩

theorem commonIndent_le_indentWidth
    {lines : List Text}
    {line : Text}
    (listed : line ∈ lines)
    (notBlank : Text.isBlankText line = false) :
    commonIndent lines ≤ indentWidth line := by
  rcases blank_or_exists_isNarrowest lines with blank | ⟨narrow, narrowest⟩
  · rw [blank line listed] at notBlank
    cases notBlank
  · rw [narrowest.commonIndent_eq]
    exact narrowest.least line listed notBlank

/-- The common indentation goes from every line that is not blank. -/
theorem removedWidth_commonIndent
    {lines : List Text}
    {line : Text}
    (listed : line ∈ lines)
    (notBlank : Text.isBlankText line = false) :
    removedWidth (commonIndent lines) line = commonIndent lines :=
  if_pos (commonIndent_le_indentWidth listed notBlank)

/-! ## What stripping takes off -/

/-- Every line is left of a stripped text, some of them shorter. -/
theorem lines_stripIndent (content : Text) :
    Text.lines (stripIndent content).1 =
      (Text.lines content).map fun line =>
        line.drop (removedWidth (commonIndent (Text.lines content)) line) :=
  lines_withoutIndent _ content

/-- A line that is not blank loses the common indentation. -/
theorem getElem?_lines_stripIndent
    {content line : Text}
    {number : Nat}
    (listed : (Text.lines content)[number]? = some line)
    (notBlank : Text.isBlankText line = false) :
    (Text.lines (stripIndent content).1)[number]? =
      some (line.drop (commonIndent (Text.lines content))) := by
  have width := removedWidth_commonIndent (List.mem_of_getElem? listed) notBlank
  rw [lines_stripIndent, List.getElem?_map, listed, Option.map_some, width]

/-- Stripping a text takes the same number of spaces and tabs off every line that
is not blank, as many as the narrowest of them has. -/
structure StripsWidth (content : Text) : Prop where
  /-- The number says how much goes from each of these lines. -/
  stripped : ∀ (number : Nat) (line : Text), (Text.lines content)[number]? = some line →
    Text.isBlankText line = false →
      ∃ removed kept, line = removed ++ kept ∧
        (∀ char ∈ removed, isIndentChar char = true) ∧
        removed.length = (stripIndent content).2 ∧
        (Text.lines (stripIndent content).1)[number]? = some kept
  /-- It is all the indentation that one of them has, and zero if there is none. -/
  widest : (∀ line ∈ Text.lines content, Text.isBlankText line = true) ∧
      (stripIndent content).2 = 0 ∨
    ∃ line, IsNarrowest (Text.lines content) line ∧
      indentWidth line = (stripIndent content).2

theorem stripsWidth (content : Text) : StripsWidth content := by
  constructor
  · intro number line listed notBlank
    have width := removedWidth_commonIndent (List.mem_of_getElem? listed) notBlank
    refine ⟨line.take (commonIndent (Text.lines content)), _,
      (List.take_append_drop _ line).symm, ?_, ?_, getElem?_lines_stripIndent listed notBlank⟩
    · intro char removed
      rw [← width] at removed
      exact isIndentChar_of_mem_take removed
    · have length := length_take_removedWidth (commonIndent (Text.lines content)) line
      rw [width] at length
      exact length
  · rcases blank_or_exists_isNarrowest (Text.lines content) with blank | ⟨line, narrowest⟩
    · exact .inl ⟨blank, commonIndent_of_blank blank⟩
    · exact .inr ⟨line, narrowest, narrowest.commonIndent_eq.symm⟩

/-! ## Shared indentation -/

/-- The indentation of a line. -/
def indentation (line : Text) : Text :=
  line.takeWhile isIndentChar

/-- The longest text that the indentations of all lines that are not blank start
with; the empty one if there is no such line. -/
structure IsSharedIndent (lines : List Text) (shared : Text) : Prop where
  /-- The indentations start with it. -/
  starts : ∀ line ∈ lines, Text.isBlankText line = false → shared <+: indentation line
  /-- If there is such a line, whatever else they all start with is a start of it. -/
  longest : (∃ line ∈ lines, Text.isBlankText line = false) → ∀ other : Text,
    (∀ line ∈ lines, Text.isBlankText line = false → other <+: indentation line) →
      other <+: shared
  /-- Blank lines share nothing. -/
  empty : (∀ line ∈ lines, Text.isBlankText line = true) → shared = []

/-- Stripping a text removes a text of spaces and tabs from every line that is not
blank: the longest one that they share. -/
structure StripsShared (content shared : Text) : Prop where
  /-- It is the longest one that they share. -/
  isShared : IsSharedIndent (Text.lines content) shared
  /-- It has nothing but spaces and tabs. -/
  indents : ∀ char ∈ shared, isIndentChar char = true
  /-- Its length is what is counted. -/
  counted : (stripIndent content).2 = shared.length
  /-- Every line that is not blank starts with it, and loses it. -/
  stripped : ∀ (number : Nat) (line : Text), (Text.lines content)[number]? = some line →
    Text.isBlankText line = false →
      ∃ kept, line = shared ++ kept ∧
        (Text.lines (stripIndent content).1)[number]? = some kept

/-- All lines are blank, or one that is not has an indentation that those of all
the others start with. -/
def HasLeastIndent (lines : List Text) : Prop :=
  (∀ line ∈ lines, Text.isBlankText line = true) ∨
    ∃ line ∈ lines, Text.isBlankText line = false ∧
      ∀ other ∈ lines, Text.isBlankText other = false →
        indentation line <+: indentation other

instance (lines : List Text) : Decidable (HasLeastIndent lines) :=
  inferInstanceAs (Decidable ((∀ line ∈ lines, Text.isBlankText line = true) ∨
    ∃ line ∈ lines, Text.isBlankText line = false ∧
      ∀ other ∈ lines, Text.isBlankText other = false →
        indentation line <+: indentation other))

/-- A text that is removed everywhere is all the indentation of the narrowest
line. -/
theorem StripsShared.hasLeastIndent
    {content shared : Text}
    (strips : StripsShared content shared) :
    HasLeastIndent (Text.lines content) := by
  rcases blank_or_exists_isNarrowest (Text.lines content) with blank | ⟨line, narrowest⟩
  · exact .inl blank
  · right
    have starts := strips.isShared.starts line narrowest.listed narrowest.notBlank
    have whole : shared = indentation line := by
      apply starts.eq_of_length
      calc shared.length
        _ = commonIndent (Text.lines content) := strips.counted.symm
        _ = (indentation line).length := narrowest.commonIndent_eq
    refine ⟨line, narrowest.listed, narrowest.notBlank, ?_⟩
    rw [← whole]
    exact strips.isShared.starts

theorem stripsShared_of_blank
    {content : Text}
    (blank : ∀ line ∈ Text.lines content, Text.isBlankText line = true) :
    StripsShared content [] where
  isShared := {
    starts := fun line _ _ => List.nil_prefix
    longest := by
      rintro ⟨line, listed, notBlank⟩
      rw [blank line listed] at notBlank
      cases notBlank
    empty := fun _ => rfl }
  indents := fun _ member => absurd member List.not_mem_nil
  counted := commonIndent_of_blank blank
  stripped := fun number line listed notBlank => by
    rw [blank line (List.mem_of_getElem? listed)] at notBlank
    cases notBlank

/-- An indentation that all the others start with is the common one. -/
theorem stripsShared_of_starts
    {content line : Text}
    (listed : line ∈ Text.lines content)
    (notBlank : Text.isBlankText line = false)
    (starts : ∀ other ∈ Text.lines content, Text.isBlankText other = false →
      indentation line <+: indentation other) :
    StripsShared content (indentation line) := by
  have narrowest : IsNarrowest (Text.lines content) line :=
    ⟨listed, notBlank, fun other otherListed otherNotBlank =>
      (starts other otherListed otherNotBlank).length_le⟩
  have width : commonIndent (Text.lines content) = (indentation line).length :=
    narrowest.commonIndent_eq
  refine ⟨⟨starts, ?_, ?_⟩, ?_, width, ?_⟩
  · intro _ other startsToo
    exact startsToo line listed notBlank
  · intro blank
    rw [blank line listed] at notBlank
    cases notBlank
  · exact List.all_eq_true.mp List.all_takeWhile
  · intro number other otherListed otherNotBlank
    have otherStarts : indentation line <+: other :=
      (starts other (List.mem_of_getElem? otherListed) otherNotBlank).trans
        (List.takeWhile_prefix isIndentChar)
    refine ⟨other.drop (indentation line).length, List.prefix_append_drop otherStarts, ?_⟩
    rw [← width]
    exact getElem?_lines_stripIndent otherListed otherNotBlank

theorem exists_stripsShared_iff (content : Text) :
    (∃ shared, StripsShared content shared) ↔ HasLeastIndent (Text.lines content) := by
  constructor
  · rintro ⟨shared, strips⟩
    exact strips.hasLeastIndent
  · rintro (blank | ⟨line, listed, notBlank, starts⟩)
    · exact ⟨[], stripsShared_of_blank blank⟩
    · exact ⟨indentation line, stripsShared_of_starts listed notBlank starts⟩

/-- Stripping takes one width off all lines that are not blank, and it takes the
longest indentation that they share off them exactly if one of them has an
indentation that all the others start with. -/
theorem stripIndent_removes_shared_iff (content : Text) :
    StripsWidth content ∧
      ((∃ shared, StripsShared content shared) ↔ HasLeastIndent (Text.lines content)) :=
  ⟨stripsWidth content, exists_stripsShared_iff content⟩

/-- Lines that are indented by different characters share nothing, but lose one
character each. -/
theorem stripIndent_removes_more_than_shared :
    ¬∀ content : Text, ∃ shared, StripsShared content shared := by
  intro alwaysShared
  have shares := (exists_stripsShared_iff " a\n\tb").mp (alwaysShared " a\n\tb")
  revert shares
  decide

end ComponentPipeline
