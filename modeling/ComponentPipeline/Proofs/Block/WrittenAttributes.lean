import ComponentPipeline.Block.Attributes
import ComponentPipeline.Proofs.Table.LastPairs
import ComponentPipeline.Proofs.Text.Searching

/-!
# Attributes read as they were written

An attribute is written behind a blank, with a value in quotes, with a value without
quotes or alone.  However such attributes follow one another, they are read as they
were written: a name that stands alone does not take what follows for its value, and
a value in quotes may look like further attributes.
-/

namespace ComponentPipeline

/-! ## Writing attributes -/

/-- A value that is written in one of the ways there are. -/
inductive WrittenValue
  /-- A value in quotes, with no such quote in it. -/
  | quoted (quote : Char) (value : Text)
      (isQuote : quote = '"' ∨ quote = '\'')
      (noQuote : quote ∉ value)
  /-- A value without quotes. -/
  | unquoted (value : Text)
      (notEmpty : value ≠ [])
      (plain : ∀ char ∈ value, Text.isBlank char = false ∧
        char ∉ ['"', '\'', '=', '<', '>', '\x60'])

namespace WrittenValue

/-- The value itself. -/
def value : WrittenValue → Text
  | quoted _ value _ _ => value
  | unquoted value _ _ => value

/-- The value as it is written. -/
def text : WrittenValue → Text
  | quoted quote value _ _ => quote :: (value ++ [quote])
  | unquoted value _ _ => value

end WrittenValue

/-- An equals sign and a value, with any blanks around the sign. -/
structure Assignment where
  /-- The blanks before the sign. -/
  before : Text
  /-- The blanks after the sign. -/
  after : Text
  /-- The value. -/
  value : WrittenValue
  before_blank : Text.isBlankText before = true
  after_blank : Text.isBlankText after = true

/-- The sign and the value as they are written. -/
def Assignment.text (assignment : Assignment) : Text :=
  assignment.before ++ '=' :: (assignment.after ++ assignment.value.text)

/-- An attribute that is written behind at least one blank. -/
structure WrittenAttribute where
  /-- The blanks before the name. -/
  leading : Text
  /-- The name. -/
  name : Text
  /-- The value with its sign, if the name does not stand alone. -/
  assignment : Option Assignment
  leading_ne_nil : leading ≠ []
  leading_blank : Text.isBlankText leading = true
  name_ne_nil : name ≠ []
  name_plain : ∀ char ∈ name, Text.isBlank char = false ∧
    char ∉ ['=', '/', '>', '"', '\'']

namespace WrittenAttribute

/-- What is written behind the name. -/
def assigned (written : WrittenAttribute) : Text :=
  match written.assignment with
  | some assignment => assignment.text
  | none => []

/-- The attribute as it is written. -/
def text (written : WrittenAttribute) : Text :=
  written.leading ++ (written.name ++ written.assigned)

/-- The value of the attribute: true for a name that stands alone. -/
def value (written : WrittenAttribute) : AttributeValue :=
  match written.assignment with
  | some assignment => .text assignment.value.value
  | none => .flag true

end WrittenAttribute

/-! ## Classes of characters -/

theorem isBlank_of_mem_blankText
    {blanks : Text}
    (blank : Text.isBlankText blanks = true) :
    ∀ char ∈ blanks, Text.isBlank char = true :=
  List.all_eq_true.mp blank

theorem isNameChar_iff {char : Char} :
    isNameChar char = true ↔
      Text.isBlank char = false ∧ char ∉ ['=', '/', '>', '"', '\''] := by
  simp [isNameChar, and_assoc]

theorem isBareValueChar_iff {char : Char} :
    isBareValueChar char = true ↔
      Text.isBlank char = false ∧ char ∉ ['"', '\'', '=', '<', '>', '\x60'] := by
  simp [isBareValueChar, and_assoc]

/-- A name is plain if the test for names passes each of its characters. -/
theorem name_plain_of_all
    {name : Text}
    (passed : name.all isNameChar = true) :
    ∀ char ∈ name, Text.isBlank char = false ∧ char ∉ ['=', '/', '>', '"', '\''] :=
  fun char member => isNameChar_iff.mp (List.all_eq_true.mp passed char member)

/-- A value is plain if the test for bare values passes each of its characters. -/
theorem value_plain_of_all
    {value : Text}
    (passed : value.all isBareValueChar = true) :
    ∀ char ∈ value, Text.isBlank char = false ∧
      char ∉ ['"', '\'', '=', '<', '>', '\x60'] :=
  fun char member => isBareValueChar_iff.mp (List.all_eq_true.mp passed char member)

theorem isNameChar_of_isBlank
    {char : Char}
    (blank : Text.isBlank char = true) :
    isNameChar char = false := by
  simp [isNameChar, blank]

/-- What can stand behind an attribute: nothing, or a blank and then no sign. -/
structure CanFollow (rest : Text) : Prop where
  blankFirst : ∀ char ∈ rest.head?, Text.isBlank char = true
  noSign : ∀ char ∈ (Text.trimStart rest).head?, char ≠ '='

/-! ## Values -/

theorem cutQuoted?_append
    {quote : Char}
    {value : Text}
    (noQuote : quote ∉ value)
    (rest : Text) :
    cutQuoted? quote (value ++ quote :: rest) = some (value, rest) := by
  induction value with
  | nil => simp [cutQuoted?]
  | cons char value ih =>
      obtain ⟨notFirst, notLater⟩ := not_or.mp (mt List.mem_cons.mpr noQuote)
      rw [List.cons_append, cutQuoted?, if_neg (Ne.symm notFirst), ih notLater]
      rfl

/-- A value is cut off as it was written. -/
theorem cutValue?_text_append
    (value : WrittenValue)
    {rest : Text}
    (blankFirst : ∀ char ∈ rest.head?, Text.isBlank char = true) :
    cutValue? (value.text ++ rest) = some (value.value, rest) := by
  cases value with
  | quoted quote value isQuote noQuote =>
      have parts : WrittenValue.text (.quoted quote value isQuote noQuote) ++ rest =
          quote :: (value ++ quote :: rest) := by
        simp [WrittenValue.text]
      rw [parts, cutValue?, if_pos isQuote]
      exact cutQuoted?_append noQuote rest
  | unquoted value notEmpty plain =>
      obtain ⟨first, others, rfl⟩ := List.exists_cons_of_ne_nil notEmpty
      have inside : ∀ char ∈ first :: others, isBareValueChar char = true :=
        fun char member => isBareValueChar_iff.mpr (plain char member)
      have stops : ∀ char ∈ rest.head?, isBareValueChar char = false := by
        intro char head
        simp [isBareValueChar, blankFirst char head]
      have notQuote : ¬(first = '"' ∨ first = '\'') := by
        have plainFirst := (plain first List.mem_cons_self).2
        simp only [List.mem_cons, not_or] at plainFirst
        exact not_or.mpr ⟨plainFirst.1, plainFirst.2.1⟩
      change cutValue? (first :: (others ++ rest)) = some (first :: others, rest)
      rw [cutValue?, if_neg notQuote, if_pos (inside first List.mem_cons_self),
        ← List.cons_append, Text.takeWhile_run_append inside stops,
        Text.dropWhile_run_append inside stops]

/-- A value that is written does not start with a blank. -/
theorem not_isBlank_of_head?_text
    (value : WrittenValue)
    (rest : Text) :
    ∀ char ∈ (value.text ++ rest).head?, Text.isBlank char = false := by
  intro char head
  cases value with
  | quoted quote value isQuote noQuote =>
      obtain rfl : quote = char := Option.some.inj head
      rcases isQuote with rfl | rfl <;> decide
  | unquoted value notEmpty plain =>
      obtain ⟨first, others, rfl⟩ := List.exists_cons_of_ne_nil notEmpty
      obtain rfl : first = char := Option.some.inj head
      exact (plain first List.mem_cons_self).1

/-- A sign and a value are cut off as they were written. -/
theorem cutAssignment?_text_append
    (assignment : Assignment)
    {rest : Text}
    (blankFirst : ∀ char ∈ rest.head?, Text.isBlank char = true) :
    cutAssignment? (assignment.text ++ rest) = some (assignment.value.value, rest) := by
  have atSign : Text.trimStart (assignment.text ++ rest) =
      '=' :: (assignment.after ++ (assignment.value.text ++ rest)) := by
    have parts : assignment.text ++ rest =
        assignment.before ++ '=' :: (assignment.after ++ (assignment.value.text ++ rest)) := by
      simp [Assignment.text]
    rw [parts, Text.trimStart]
    refine Text.dropWhile_run_append (isBlank_of_mem_blankText assignment.before_blank) ?_
    rintro char ⟨⟩
    decide
  have atValue : Text.trimStart (assignment.after ++ (assignment.value.text ++ rest)) =
      assignment.value.text ++ rest :=
    Text.dropWhile_run_append (isBlank_of_mem_blankText assignment.after_blank)
      (not_isBlank_of_head?_text assignment.value rest)
  simp only [cutAssignment?, atSign, atValue]
  exact cutValue?_text_append assignment.value blankFirst

theorem CanFollow.cutAssignment?_eq_none
    {rest : Text}
    (follows : CanFollow rest) :
    cutAssignment? rest = none := by
  rw [cutAssignment?]
  split
  · rename_i others sign
    have first := follows.noSign '='
    rw [sign] at first
    exact absurd rfl (first rfl)
  · rfl

/-! ## One attribute -/

section Name

variable {char : Char} {name rest value tail : Text}

/-- A character that is not in any name is passed over. -/
theorem writtenAttributes_cons_of_not_isNameChar (outside : isNameChar char = false) :
    writtenAttributes (char :: rest) = writtenAttributes rest := by
  rw [writtenAttributes.eq_def]
  exact if_neg (Bool.eq_false_iff.mp outside)

theorem writtenAttributes_blanks_append
    {blanks : Text}
    (blank : Text.isBlankText blanks = true)
    (rest : Text) :
    writtenAttributes (blanks ++ rest) = writtenAttributes rest := by
  induction blanks with
  | nil => rfl
  | cons char blanks ih =>
      obtain ⟨first, others⟩ := List.forall_mem_cons.mp (isBlank_of_mem_blankText blank)
      rw [List.cons_append,
        writtenAttributes_cons_of_not_isNameChar (isNameChar_of_isBlank first),
        ih (List.all_eq_true.mpr others)]

theorem writtenAttributes_name_append
    (notEmpty : name ≠ [])
    (inside : ∀ char ∈ name, isNameChar char = true)
    (stops : ∀ char ∈ rest.head?, isNameChar char = false) :
    writtenAttributes (name ++ rest) =
      match cutAssignment? rest with
      | some (value, tail) => (name, .text value) :: writtenAttributes tail
      | none => (name, .flag true) :: writtenAttributes rest := by
  obtain ⟨first, others, rfl⟩ := List.exists_cons_of_ne_nil notEmpty
  obtain ⟨insideFirst, insideOthers⟩ := List.forall_mem_cons.mp inside
  have taken := Text.takeWhile_run_append insideOthers stops
  have dropped := Text.dropWhile_run_append insideOthers stops
  rw [List.cons_append, writtenAttributes.eq_def]
  dsimp only
  rw [if_pos insideFirst, taken, dropped]
  cases cutAssignment? rest <;> rfl

end Name

section Attribute

variable (written : WrittenAttribute) {rest : Text}

theorem WrittenAttribute.isNameChar_of_mem_name :
    ∀ char ∈ written.name, isNameChar char = true :=
  fun char member => isNameChar_iff.mpr (written.name_plain char member)

/-- A sign behind a name, with the blanks before it, ends the name. -/
theorem not_isNameChar_of_head?_assignment (assignment : Assignment) :
    ∀ char ∈ (assignment.text ++ rest).head?, isNameChar char = false := by
  obtain ⟨before, after, value, beforeBlank, afterBlank⟩ := assignment
  intro char head
  cases before with
  | nil =>
      obtain rfl : '=' = char := Option.some.inj head
      decide
  | cons first others =>
      obtain rfl : first = char := Option.some.inj head
      exact isNameChar_of_isBlank (isBlank_of_mem_blankText beforeBlank first List.mem_cons_self)

/-- An attribute is read as it was written if nothing behind it belongs to it. -/
theorem writtenAttributes_text_append (follows : CanFollow rest) :
    writtenAttributes (written.text ++ rest) =
      (written.name, written.value) :: writtenAttributes rest := by
  rw [WrittenAttribute.text, List.append_assoc, List.append_assoc,
    writtenAttributes_blanks_append written.leading_blank, WrittenAttribute.assigned,
    WrittenAttribute.value]
  cases written.assignment with
  | some assignment =>
      dsimp only
      rw [writtenAttributes_name_append written.name_ne_nil written.isNameChar_of_mem_name
          (not_isNameChar_of_head?_assignment assignment),
        cutAssignment?_text_append assignment follows.blankFirst]
  | none =>
      -- The name alone is followed by what belongs to no attribute, not even by a sign.
      have stops : ∀ char ∈ rest.head?, isNameChar char = false :=
        fun char head => isNameChar_of_isBlank (follows.blankFirst char head)
      dsimp only
      rw [List.nil_append, writtenAttributes_name_append written.name_ne_nil
          written.isNameChar_of_mem_name stops,
        follows.cutAssignment?_eq_none]

/-- An attribute can stand behind another one, since it starts with a blank and its
name has no sign. -/
theorem WrittenAttribute.canFollow (rest : Text) : CanFollow (written.text ++ rest) := by
  obtain ⟨first, others, name⟩ := List.exists_cons_of_ne_nil written.name_ne_nil
  obtain ⟨blank, blanks, leading⟩ := List.exists_cons_of_ne_nil written.leading_ne_nil
  have plain := written.name_plain first (by simp [name])
  have parts : written.text ++ rest =
      written.leading ++ first :: (others ++ written.assigned ++ rest) := by
    simp [WrittenAttribute.text, name]
  have trimmed : Text.trimStart (written.text ++ rest) =
      first :: (others ++ written.assigned ++ rest) := by
    rw [parts]
    refine Text.dropWhile_run_append (isBlank_of_mem_blankText written.leading_blank) ?_
    rintro char ⟨⟩
    exact plain.1
  constructor
  · rw [parts, leading]
    rintro char ⟨⟩
    exact isBlank_of_mem_blankText written.leading_blank blank (by simp [leading])
  · rw [trimmed]
    rintro char ⟨⟩ rfl
    exact plain.2 (by decide)

end Attribute

/-! ## Attributes behind one another -/

theorem canFollow_of_isBlankText
    {blanks : Text}
    (blank : Text.isBlankText blanks = true) :
    CanFollow blanks where
  blankFirst char head := isBlank_of_mem_blankText blank char (List.mem_of_mem_head? head)
  noSign := by
    have nothing : Text.trimStart (blanks ++ []) = [] :=
      Text.dropWhile_run_append (isBlank_of_mem_blankText blank) (by simp)
    rw [← List.append_nil blanks, nothing]
    rintro char ⟨⟩

theorem canFollow_texts
    (attributes : List WrittenAttribute)
    {trailing : Text}
    (blank : Text.isBlankText trailing = true) :
    CanFollow (attributes.flatMap WrittenAttribute.text ++ trailing) := by
  cases attributes with
  | nil => exact canFollow_of_isBlankText blank
  | cons written rest =>
      rw [List.flatMap_cons, List.append_assoc]
      exact written.canFollow _

/-- Attributes are found one by one as they were written, a repeated name included. -/
theorem writtenAttributes_texts
    (attributes : List WrittenAttribute)
    {trailing : Text}
    (blank : Text.isBlankText trailing = true) :
    writtenAttributes (attributes.flatMap WrittenAttribute.text ++ trailing) =
      attributes.map fun written => (written.name, written.value) := by
  induction attributes with
  | nil =>
      have nothing := writtenAttributes_blanks_append blank []
      rw [List.append_nil] at nothing
      rw [List.flatMap_nil, List.nil_append, nothing, writtenAttributes.eq_def, List.map_nil]
  | cons written rest ih =>
      rw [List.flatMap_cons, List.append_assoc,
        writtenAttributes_text_append written (canFollow_texts rest blank), ih, List.map_cons]

/-- Reading attributes undoes writing them: of attributes with different names, each
written behind a blank in any of the four ways, exactly these names are read, in their
order and with their values. -/
theorem parseAttributes_texts
    {attributes : List WrittenAttribute}
    (distinct : (attributes.map WrittenAttribute.name).Nodup)
    {trailing : Text}
    (blank : Text.isBlankText trailing = true) :
    parseAttributes (attributes.flatMap WrittenAttribute.text ++ trailing) =
      attributes.map fun written => (written.name, written.value) := by
  have keys : Table.keys (attributes.map fun written => (written.name, written.value)) =
      attributes.map WrittenAttribute.name := by
    rw [Table.keys, List.map_map]
    rfl
  rw [parseAttributes, writtenAttributes_texts attributes blank]
  -- With different names no attribute is put in the place of an earlier one.
  exact Table.putAll_eq_append (keys ▸ distinct)

/-- Attributes in all four ways: a value that looks like further attributes, a name
alone in front of another one, an empty value and one with a slash. -/
def mixedAttributes : List WrittenAttribute :=
  [⟨"\n ", "lang",
      some ⟨" ", "\t", .quoted '"' "x='y' z" (by decide) (by decide), by decide, by decide⟩,
      by decide, by decide, by decide, name_plain_of_all (by decide)⟩,
    ⟨" ", "global", none, by decide, by decide, by decide, name_plain_of_all (by decide)⟩,
    ⟨"\t", "src",
      some ⟨[], [], .quoted '\'' [] (by decide) (by decide), by decide, by decide⟩,
      by decide, by decide, by decide, name_plain_of_all (by decide)⟩,
    ⟨" ", "type",
      some ⟨[], [], .unquoted "text/scss" (by decide) (value_plain_of_all (by decide)),
        by decide, by decide⟩,
      by decide, by decide, by decide, name_plain_of_all (by decide)⟩]

theorem parseAttributes_texts_mixedAttributes :
    (mixedAttributes.map WrittenAttribute.name).Nodup ∧
      Text.isBlankText " " = true ∧
      parseAttributes "\n lang =\t\"x='y' z\" global\tsrc='' type=text/scss " =
        ([("lang", .text "x='y' z"), ("global", .flag true), ("src", .text []),
          ("type", .text "text/scss")] : List (Text × AttributeValue)) := by
  have distinct : (mixedAttributes.map WrittenAttribute.name).Nodup := by decide
  have blank : Text.isBlankText " " = true := by decide
  exact ⟨distinct, blank, parseAttributes_texts distinct blank⟩

end ComponentPipeline
