import ComponentPipeline.Css.Parser
import ComponentPipeline.Proofs.Css.StatementEnds
import ComponentPipeline.Proofs.Text.Searching
import ComponentPipeline.Proofs.Text.Trimming

/-!
# What a step of the reader does

A step that succeeds cuts the text that is left into pieces: a gap, what stands
behind it, and the rest.  It comes to the end of the text, opens a block,
closes the innermost one, or adds a node without a block.  Everything else
about reading follows from these five cases.
-/

namespace ComponentPipeline
namespace Css

/-- A text of blanks and semicolons. -/
def IsGap (text : Text) : Prop :=
  ∀ char ∈ text, isGap char = true

theorem isGap_nil : IsGap [] :=
  fun _ member => absurd member List.not_mem_nil

theorem isGap_takeWhile (text : Text) : IsGap (text.takeWhile isGap) :=
  fun _ => List.all_eq_true.mp List.all_takeWhile _

/-- A text that starts with a comment. -/
abbrev OpensComment (text : Text) : Prop :=
  ['/', '*'] <+: text

/-- A text that is read as one statement, up to a character or the end of the
text. -/
structure Stated (raw : Text) (next : Option Char) : Prop where
  /-- It does not start with a gap. -/
  noGap : ∀ char ∈ raw.head?, isGap char = false
  /-- It does not start with a comment. -/
  noComment : ¬OpensComment raw
  /-- It goes up to the character. -/
  takes : StatementScan.initial.Takes raw next

/-- The ways in which a statement without a block ends. -/
inductive StatementEnds (head between rest : Text) : Prop
  /-- A semicolon ends it. -/
  | terminated {trailing : Text}
      (parts : between = trailing ++ [';'])
      (notEmpty : head ++ trailing ≠ [])
      (stated : Stated (head ++ trailing) (some ';'))
      (blank : Text.isBlankText trailing = true)
  /-- The end of the block or of the text ends it, and the blanks before that
  are left. -/
  | unterminated {trailing tail : Text}
      (none : between = [])
      (parts : rest = trailing ++ tail)
      (blank : Text.isBlankText trailing = true)
      (stated : Stated (head ++ trailing) tail.head?)
      (last : tail = [] ∨ ∃ later, tail = '}' :: later)

namespace ReaderState

/-- The ways in which a step succeeds. -/
inductive Reads (locate : Nat → Position) (state : ReaderState) : ReaderStep → Prop
  /-- The text ends, and no block is open. -/
  | finished
      (noneOpen : state.openBlocks = [])
      (gapped : IsGap state.rest) :
      Reads locate state (.finished ⟨state.nodes, state.rest⟩)
  /-- A statement opens a block. -/
  | opened {gap head between rest : Text}
      (text : state.rest = gap ++ head ++ between ++ '{' :: rest)
      (gapped : IsGap gap)
      (stated : Stated (head ++ between) (some '{'))
      (blank : Text.isBlankText between = true)
      (noBlank : ∀ char, head.getLast? = some char → Text.isBlank char = false) :
      Reads locate state (.next {
        openBlocks :=
          ⟨gap, head, between, state.offset + Text.size gap, state.nodes⟩ ::
            state.openBlocks
        nodes := []
        offset := state.offset + Text.size (gap ++ head ++ between ++ ['{'])
        rest })
  /-- The innermost block is closed. -/
  | closed {gap rest : Text} {block : OpenBlock} {outer : List OpenBlock}
      (innermost : state.openBlocks = block :: outer)
      (text : state.rest = gap ++ '}' :: rest)
      (gapped : IsGap gap) :
      Reads locate state (.next {
        openBlocks := outer
        nodes := block.siblings ++ [block.close locate state.nodes gap]
        offset := state.offset + Text.size (gap ++ ['}'])
        rest })
  /-- A comment is added. -/
  | comment {gap inside rest : Text}
      (text : state.rest = gap ++ ('/' :: '*' :: (inside ++ ['*', '/'])) ++ rest)
      (gapped : IsGap gap)
      (closes : Text.cutAt? ['*', '/'] (inside ++ ['*', '/']) = some (inside, [])) :
      Reads locate state (.next {
        state with
        nodes := state.nodes ++
          [.comment gap ('/' :: '*' :: (inside ++ ['*', '/']))
            (locate (state.offset + Text.size gap))]
        offset := state.offset +
          Text.size (gap ++ ('/' :: '*' :: (inside ++ ['*', '/'])))
        rest })
  /-- A statement without a block is added; it is not empty, and its head does
  not end with a blank. -/
  | statement {gap head between rest : Text}
      (text : state.rest = gap ++ head ++ between ++ rest)
      (notEmpty : head ++ between ≠ [])
      (noBlank : ∀ char, head.getLast? = some char → Text.isBlank char = false)
      (gapped : IsGap gap)
      (ends : StatementEnds head between rest) :
      Reads locate state (.next {
        state with
        nodes := state.nodes ++
          [statementNode gap head between (locate (state.offset + Text.size gap))]
        offset := state.offset + Text.size (gap ++ head ++ between)
        rest })

variable {state : ReaderState} {locate : Nat → Position} {outcome : ReaderStep}
variable {gap : Text}

theorem reads_of_stepEnd
    (gapped : IsGap gap)
    (left : state.rest = gap)
    (stepped : state.stepEnd locate gap = .ok outcome) :
    Reads locate state outcome := by
  subst left
  unfold stepEnd at stepped
  split at stepped
  · rename_i noneOpen
    cases stepped
    exact .finished noneOpen gapped
  · cases stepped

theorem reads_of_stepClose
    {rest : Text}
    (gapped : IsGap gap)
    (left : state.rest = gap ++ '}' :: rest)
    (stepped :
      state.stepClose locate gap (state.offset + Text.size gap) rest = .ok outcome) :
    Reads locate state outcome := by
  unfold stepClose at stepped
  split at stepped
  · cases stepped
  · rename_i block outer innermost
    cases stepped
    have reads : Reads locate state _ := .closed innermost left gapped
    rw [Text.size_append, ← Nat.add_assoc] at reads
    exact reads

theorem reads_of_stepComment
    {body : Text}
    (gapped : IsGap gap)
    (left : state.rest = gap ++ '/' :: '*' :: body)
    (stepped :
      state.stepComment locate gap (state.offset + Text.size gap) body = .ok outcome) :
    Reads locate state outcome := by
  unfold stepComment at stepped
  split at stepped
  · cases stepped
  · rename_i inside rest found
    cases stepped
    have bodyParts := Text.eq_of_cutAt?_eq_some found
    rw [bodyParts] at left found
    have parts : state.rest =
        gap ++ ('/' :: '*' :: (inside ++ ['*', '/'])) ++ rest := by
      simpa using left
    have closes := Text.cutAt?_append_iff.mp found
    have reads : Reads locate state _ := .comment parts gapped closes
    rw [Text.size_append gap, ← Nat.add_assoc] at reads
    exact reads

/-- What a scan takes off a text behind a gap is a statement. -/
theorem stated_of_takes
    {raw tail : Text}
    (noGap : ∀ char ∈ (raw ++ tail).head?, isGap char = false)
    (noComment : ¬OpensComment (raw ++ tail))
    (takes : StatementScan.initial.Takes raw tail.head?) :
    Stated raw tail.head? := by
  refine ⟨fun char first => noGap char ?_, fun opens => noComment ?_, takes⟩
  · rw [Option.mem_def] at first ⊢
    rw [List.head?_append, first, Option.some_or]
  · exact opens.trans (List.prefix_append raw tail)

/-- A statement that neither opens a block nor has a semicolon ends with its
block or with the text. -/
theorem last_of_takes
    {scan : StatementScan}
    {raw tail : Text}
    (takes : scan.Takes raw tail.head?)
    (notOpened : ∀ rest, tail ≠ '{' :: rest)
    (notTerminated : ∀ rest, tail ≠ ';' :: rest) :
    tail = [] ∨ ∃ later, tail = '}' :: later := by
  cases tail with
  | nil => exact .inl rfl
  | cons char later =>
      rcases takes.ends char rfl with rfl | rfl | rfl
      · exact absurd rfl (notOpened later)
      · exact absurd rfl (notTerminated later)
      · exact .inr ⟨later, rfl⟩

/-- The four ways in which a statement ends put its trailing blanks into the
block's head, into the node or back in front of the text that is left. -/
theorem reads_of_stepStatement
    {text : Text}
    (gapped : IsGap gap)
    (noGap : ∀ char ∈ text.head?, isGap char = false)
    (noComment : ¬OpensComment text)
    (left : state.rest = gap ++ text)
    (stepped :
      state.stepStatement locate gap (state.offset + Text.size gap) text =
        .ok outcome) :
    Reads locate state outcome := by
  unfold stepStatement at stepped
  split at stepped
  · cases stepped
  · rename_i raw tail scanned
    obtain ⟨parts, takes⟩ := scanStatement_eq_ok_iff.mp scanned
    have stated : Stated raw tail.head? := by
      subst parts
      exact stated_of_takes noGap noComment takes
    have trimmed := Text.trimEnd_append_drop raw
    have noBlank : ∀ char,
        (Text.trimEnd raw).getLast? = some char → Text.isBlank char = false :=
      fun _ => Text.not_isBlank_of_getLast?_trimEnd
    have blank := Text.isBlankText_drop_trimEnd raw
    generalize Text.trimEnd raw = head at stepped trimmed noBlank blank
    simp only at stepped
    generalize raw.drop head.length = trailing at stepped trimmed blank
    subst trimmed
    split at stepped
    · rename_i rest
      cases stepped
      have whole : state.rest = gap ++ head ++ trailing ++ '{' :: rest := by
        simp [left, parts]
      have brace : '{'.utf8Size = 1 := rfl
      have reads : Reads locate state _ := .opened whole gapped stated blank noBlank
      simpa [brace, Nat.add_assoc] using reads
    · rename_i rest
      cases stepped
      have whole : state.rest = gap ++ head ++ (trailing ++ [';']) ++ rest := by
        simp [left, parts]
      have notEmpty : head ++ (trailing ++ [';']) ≠ [] := by simp
      have semicolon : ';'.utf8Size = 1 := rfl
      have rawNotEmpty : head ++ trailing ≠ [] := by
        intro empty
        rw [empty, List.nil_append] at parts
        rw [parts] at noGap
        exact absurd (noGap ';' rfl) (by decide)
      have reads : Reads locate state _ :=
        .statement whole notEmpty noBlank gapped (.terminated rfl rawNotEmpty stated blank)
      simpa [semicolon, Nat.add_assoc] using reads
    · rename_i notOpened notTerminated
      split at stepped
      · cases stepped
      · rename_i headNotEmpty
        cases stepped
        have whole : state.rest = gap ++ head ++ [] ++ (trailing ++ tail) := by
          simp [left, parts]
        have notEmpty : head ++ [] ≠ [] := by simpa using headNotEmpty
        have last := last_of_takes takes notOpened notTerminated
        have reads : Reads locate state _ :=
          .statement whole notEmpty noBlank gapped (.unterminated rfl rfl blank stated last)
        simpa [Nat.add_assoc] using reads

/-- Every step that succeeds does so in one of these ways. -/
theorem reads_of_step (stepped : state.step locate = .ok outcome) :
    Reads locate state outcome := by
  have parts : state.rest =
      state.rest.takeWhile isGap ++ state.rest.dropWhile isGap :=
    List.takeWhile_append_dropWhile.symm
  have gapped := isGap_takeWhile state.rest
  have noGap : ∀ char ∈ (state.rest.dropWhile isGap).head?, isGap char = false := by
    intro char first
    have notGap := List.head?_dropWhile_not isGap state.rest
    rw [Option.mem_def] at first
    rwa [first] at notGap
  simp only [step] at stepped
  split at stepped
  · rename_i left
    rw [left, List.append_nil] at parts
    exact reads_of_stepEnd gapped parts stepped
  · rename_i rest left
    rw [left] at parts
    exact reads_of_stepClose gapped parts stepped
  · rename_i body left
    rw [left] at parts
    exact reads_of_stepComment gapped parts stepped
  · rename_i notComment
    refine reads_of_stepStatement gapped noGap ?_ parts stepped
    rintro ⟨body, opens⟩
    exact notComment body opens.symm

/-- What every step keeps holds of the stylesheet at the end of a run. -/
theorem run_induction
    (holds : ReaderState → Prop)
    (atEnd : Stylesheet → Prop)
    (next : ∀ {state next}, holds state → Reads locate state (.next next) → holds next)
    (finish : ∀ {state sheet}, holds state → Reads locate state (.finished sheet) →
      atEnd sheet)
    {sheet : Stylesheet}
    (start : holds state)
    (ran : state.run locate = .ok sheet) :
    atEnd sheet := by
  fun_induction state.run locate with
  | case1 state error stepped => cases ran
  | case2 state last stepped =>
      cases ran
      exact finish start (reads_of_step stepped)
  | case3 state later stepped ih =>
      exact ih (next start (reads_of_step stepped)) ran

end ReaderState
end Css
end ComponentPipeline
