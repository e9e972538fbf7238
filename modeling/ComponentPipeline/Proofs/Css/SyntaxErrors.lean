import ComponentPipeline.Proofs.Css.Concatenation
import ComponentPipeline.Proofs.Css.LeftOpen
import ComponentPipeline.Proofs.Css.Progress

/-!
# What errors say about the text

A reader that fails has read the text up to the place of the error as it reads that part
alone, or it has come to the end with something left open.  So each reason for which a
text is no stylesheet can be told from the text: what is in front of an unexpected brace
is a stylesheet, and so is a text with an unclosed block once the braces that it lacks
are put behind it.
-/

namespace ComponentPipeline
namespace Css

/-- The nodes in the block of a node. -/
def Node.block? : Node → Option (List Node)
  | .rule _ _ _ nodes _ _ => some nodes
  | .atBlock _ _ _ nodes _ _ => some nodes
  | .atStatement .. => none
  | .declaration .. => none
  | .comment .. => none

theorem block?_close
    (block : OpenBlock)
    (locate : Nat → Position)
    (nodes : List Node)
    (after : Text) :
    (block.close locate nodes after).block? = some nodes := by
  unfold OpenBlock.close
  split <;> rfl

theorem start_close
    (block : OpenBlock)
    (locate : Nat → Position)
    (nodes : List Node)
    (after : Text) :
    (block.close locate nodes after).start = locate block.start := by
  unfold OpenBlock.close
  split <;> rfl

/-- Nodes end with a block, this one with another block, and so on down to a block that
starts at a position. -/
inductive EndsInBlock (start : Position) : Nat → List Node → Prop
  /-- The last node starts there. -/
  | here {siblings inner : List Node} {node : Node}
      (block : node.block? = some inner)
      (starts : node.start = start) :
      EndsInBlock start 1 (siblings ++ [node])
  /-- The last node ends with blocks down to that one. -/
  | inside {siblings inner : List Node} {node : Node} {depth : Nat}
      (block : node.block? = some inner)
      (ends : EndsInBlock start depth inner) :
      EndsInBlock start (depth + 1) (siblings ++ [node])

namespace ReaderState

variable {state later : ReaderState} {locate locateToo : Nat → Position}

/-! ## The ways in which a step fails -/

/-- The ways in which a step fails. -/
inductive Fails (locate : Nat → Position) (state : ReaderState) : SyntaxError → Prop
  /-- The text ends in a block. -/
  | unclosedBlock {block : OpenBlock} {outer : List OpenBlock}
      (innermost : state.openBlocks = block :: outer)
      (gapped : IsGap state.rest) :
      Fails locate state ⟨.unclosedBlock, locate block.start⟩
  /-- A closing brace closes no block. -/
  | unexpectedBrace {gap after : Text}
      (noneOpen : state.openBlocks = [])
      (text : state.rest = gap ++ '}' :: after)
      (gapped : IsGap gap) :
      Fails locate state ⟨.unexpectedBrace, locate (state.offset + Text.size gap)⟩
  /-- A comment or a string is open up to the end of the text. -/
  | leftOpen {offset : Nat} {reason : Reason}
      (isOpen : reason.IsOpen state.rest offset) :
      Fails locate state ⟨reason, locate (state.offset + offset)⟩
  /-- A statement of nothing but blanks starts with a blank that is none of a gap. -/
  | blankStatement {offset : Nat} {char : Char}
      (member : char ∈ state.rest)
      (blank : Text.isBlank char = true)
      (wide : Text.isAsciiBlank char = false) :
      Fails locate state ⟨.blankStatement, locate offset⟩

theorem fails_of_stepStatement
    {gap text : Text}
    {error : SyntaxError}
    (parts : state.rest = gap ++ text)
    (stepped : state.step locate = .error error)
    (failed :
      state.stepStatement locate gap (state.offset + Text.size gap) text = .error error) :
    Fails locate state error := by
  unfold stepStatement at failed
  split at failed
  · rename_i reason start scanned
    cases failed
    obtain ⟨offset, isOpen, rfl⟩ :=
      exists_isOpen_of_scanStatement StatementScan.remembers_initial scanned
    have further := isOpen.append_left gap
    rw [List.nil_append, ← parts] at further
    have fails : Fails locate state _ := .leftOpen further
    rwa [← Nat.add_assoc] at fails
  · simp only at failed
    split at failed
    · cases failed
    · cases failed
    · split at failed
      · cases failed
        obtain ⟨char, member, blank, wide⟩ := exists_blank_of_step stepped rfl
        exact .blankStatement member blank wide
      · cases failed

/-- Every step that fails does so in one of these ways. -/
theorem fails_of_step
    {error : SyntaxError}
    (stepped : state.step locate = .error error) :
    Fails locate state error := by
  have parts : state.rest =
      state.rest.takeWhile isGap ++ state.rest.dropWhile isGap :=
    List.takeWhile_append_dropWhile.symm
  have gapped := isGap_takeWhile state.rest
  have failed := stepped
  simp only [step] at failed
  split at failed
  · rename_i left
    unfold stepEnd at failed
    split at failed
    · cases failed
    · rename_i block outer innermost
      cases failed
      rw [left, List.append_nil] at parts
      exact .unclosedBlock innermost (by rwa [← parts] at gapped)
  · rename_i rest left
    unfold stepClose at failed
    split at failed
    · rename_i noneOpen
      cases failed
      rw [left] at parts
      exact .unexpectedBrace noneOpen parts gapped
    · cases failed
  · rename_i body left
    unfold stepComment at failed
    split at failed
    · rename_i unclosed
      cases failed
      have noEnd : ¬['*', '/'] <:+: body := by
        rw [← Text.contains_eq_true_iff, Text.contains, unclosed]
        exact Bool.false_ne_true
      rw [left] at parts
      exact .leftOpen ⟨body, _, parts, rfl, noEnd⟩
    · cases failed
  · exact fails_of_stepStatement parts stepped failed

/-! ## The text in front of an unexpected brace -/

/-- Where a brace would end a statement, the end of the text does as well. -/
theorem stated_none_of_brace {raw : Text} (stated : Stated raw (some '}')) : Stated raw none := by
  obtain ⟨final, scanned, stops⟩ := stated.takes
  refine ⟨stated.noGap, stated.noComment, final, scanned, ?_⟩
  have ends : final.endsAt '}' = true := stops
  have plain : final.isPlain = true := (Bool.and_eq_true_iff.mp ends).1
  obtain ⟨surrounding, depth⟩ := final
  cases surrounding <;> first | rfl | cases plain

/-- If a brace is left behind some text, then the text in front of the brace is read as
it is before the end of the text. -/
theorem Reads.shortened
    {before after : Text}
    (reads : Reads locate state (.next later))
    (left : later.rest = before ++ '}' :: after) :
    ∃ taken, state.rest = taken ++ later.rest ∧
      later.offset = state.offset + Text.size taken ∧
      Reads locate { state with rest := taken ++ before }
        (.next { later with rest := before }) := by
  cases reads with
  | @opened gap head between rest text gapped stated blank noBlank =>
      refine ⟨gap ++ head ++ between ++ ['{'], by simp [text], rfl, ?_⟩
      exact .opened (by simp) gapped stated blank noBlank
  | @closed gap rest block outer innermost text gapped =>
      refine ⟨gap ++ ['}'], by simp [text], rfl, ?_⟩
      exact .closed innermost (by simp) gapped
  | @comment gap inside rest text gapped closes =>
      refine ⟨gap ++ ('/' :: '*' :: (inside ++ ['*', '/'])), text, rfl, ?_⟩
      exact .comment rfl gapped closes
  | @statement gap head between rest text notEmpty noBlank gapped ends =>
      refine ⟨gap ++ head ++ between, text, rfl, ?_⟩
      refine .statement rfl notEmpty noBlank gapped ?_
      cases ends with
      | terminated between_eq rawNotEmpty stated blank =>
          exact .terminated between_eq rawNotEmpty stated blank
      | @unterminated trailing tail none rest_eq blank stated last =>
          have split : before ++ '}' :: after = trailing ++ tail := left.symm.trans rest_eq
          rcases List.append_eq_append_iff.mp split with
            ⟨inner, rfl, closes⟩ | ⟨inner, rfl, rfl⟩
          · cases inner with
            | nil =>
                subst closes
                have parts : before = (before ++ []) ++ ([] : Text) := by simp
                exact .unterminated none parts blank (stated_none_of_brace stated) (.inl rfl)
            | cons char others =>
                -- The brace is no blank.
                obtain ⟨rfl, -⟩ := List.cons.inj closes
                have isBlank := List.all_eq_true.mp blank '}' (by simp)
                cases isBlank
          · cases inner with
            | nil =>
                exact .unterminated none rfl blank (stated_none_of_brace stated) (.inl rfl)
            | cons char others =>
                have brace : char = '}' := by
                  rcases last with empty | ⟨rest, same⟩
                  · cases empty
                  · exact (List.cons.inj same).1
                subst brace
                exact .unterminated none rfl blank stated (.inr ⟨others, rfl⟩)

/-- The text in front of an unexpected brace is read to its end. -/
theorem exists_run_shortened
    {position : Position}
    (ran : state.run locate = .error ⟨.unexpectedBrace, position⟩) :
    ∃ before after, state.rest = before ++ '}' :: after ∧
      position = locate (state.offset + Text.size before) ∧
      ∃ sheet, run { state with rest := before } locate = .ok sheet := by
  generalize failure : SyntaxError.mk .unexpectedBrace position = error at ran
  fun_induction state.run locate with
  | case1 state error stepped =>
      cases ran
      cases fails_of_step stepped with
      | unclosedBlock => cases failure
      | @unexpectedBrace gap after noneOpen text gapped =>
          cases failure
          have reads : Reads locate { state with rest := gap } _ := .finished noneOpen gapped
          exact ⟨gap, after, text, rfl, _, run_eq_of_step_finished (step_of_reads reads)⟩
      | leftOpen isOpen =>
          cases failure
          exact isOpen.elim
      | blankStatement => cases failure
  | case2 state sheet stepped => cases ran
  | case3 state next stepped ih =>
      obtain ⟨before, after, left, place, sheet, finished⟩ := ih ran
      obtain ⟨taken, parts, offset, reads⟩ := (reads_of_step stepped).shortened left
      refine ⟨taken ++ before, after, ?_, ?_, sheet, ?_⟩
      · rw [parts, left, List.append_assoc]
      · rw [place, offset, Text.size_append, Nat.add_assoc]
      · rw [run_eq_of_step (step_of_reads reads), finished]

/-- Whether a text is a stylesheet does not depend on how its offsets are placed. -/
theorem exists_run_relocated
    {text : Text}
    {sheet : Stylesheet}
    (ran : (initial text).run locate = .ok sheet) :
    ∃ other, (initial text).run locateToo = .ok other := by
  -- Both are read as they are with one and the same position everywhere.
  have run_nowhere (locate : Nat → Position) :
      ((initial text).moved (fun _ => default) 0).run (fun _ => default) =
        (Translation.displaced (fun _ => default) 0).run ((initial text).run locate) :=
    run_moved (fun _ => rfl) _
  have same := (run_nowhere locate).symm.trans (run_nowhere locateToo)
  rw [ran] at same
  cases relocated : (initial text).run locateToo with
  | ok other => exact ⟨other, rfl⟩
  | error error =>
      rw [relocated] at same
      cases same

/-! ## The braces that a text lacks -/

/-- Closing braces for all open blocks end a text, and the blocks end in one another. -/
theorem exists_run_closing
    {start : Position}
    {depth : Nat}
    {nodes : List Node}
    (ends : EndsInBlock start depth nodes)
    (openBlocks : List OpenBlock)
    (offset : Nat) :
    ∃ sheet,
      run ⟨openBlocks, nodes, offset, List.replicate openBlocks.length '}'⟩ locate = .ok sheet ∧
        EndsInBlock start (depth + openBlocks.length) sheet.nodes := by
  induction openBlocks generalizing depth nodes offset with
  | nil =>
      have reads : Reads locate ⟨[], nodes, offset, []⟩ _ := .finished rfl isGap_nil
      exact ⟨_, run_eq_of_step_finished (step_of_reads reads), ends⟩
  | cons block outer ih =>
      have reads : Reads locate
          ⟨block :: outer, nodes, offset, '}' :: List.replicate outer.length '}'⟩ _ :=
        .closed rfl rfl isGap_nil
      have closed : EndsInBlock start (depth + 1)
          (block.siblings ++ [block.close locate nodes []]) :=
        .inside (block?_close ..) ends
      obtain ⟨sheet, ran, ended⟩ := ih closed _
      refine ⟨sheet, (run_eq_of_step (step_of_reads reads)).trans ran, ?_⟩
      rwa [List.length_cons, Nat.add_comm outer.length, ← Nat.add_assoc]

/-- Blanks are left before a closing brace. -/
def ClosesNext (rest : Text) : Prop :=
  ∃ trailing later, rest = trailing ++ '}' :: later ∧ Text.isBlankText trailing = true

/-- What a step takes off does not end with a backslash, unless the end of the block or of
the text ends a statement there. -/
theorem Reads.settles (reads : Reads locate state (.next later)) :
    (∃ taken char, char ≠ '\\' ∧ state.rest = taken ++ [char] ++ later.rest) ∨
      ClosesNext later.rest ∨
      ∃ gap head trailing, EndsText state later gap head trailing := by
  cases reads with
  | @opened gap head between rest text =>
      exact .inl ⟨gap ++ head ++ between, '{', by decide, by simp [text]⟩
  | @closed gap rest block outer innermost text =>
      exact .inl ⟨gap, '}', by decide, by simp [text]⟩
  | @comment gap inside rest text =>
      exact .inl ⟨gap ++ '/' :: '*' :: (inside ++ ['*']), '/', by decide, by simp [text]⟩
  | @statement gap head between rest text notEmpty noBlank gapped ends =>
      cases ends with
      | @terminated trailing between_eq =>
          exact .inl ⟨gap ++ head ++ trailing, ';', by decide, by simp [text, between_eq]⟩
      | @unterminated trailing tail none rest_eq blank stated last =>
          refine .inr ?_
          subst none
          rw [List.append_nil] at text notEmpty
          rcases last with rfl | ⟨others, rfl⟩
          · rw [List.append_nil] at rest_eq
            subst rest_eq
            exact .inr ⟨gap, head, rest, text, gapped, notEmpty, noBlank, blank, stated, rfl,
              ⟨_, rfl⟩, rfl⟩
          · exact .inl ⟨trailing, others, rest_eq, blank⟩

variable {text : Text}

theorem Reaches.within (reaches : Reaches text state) : state.Within (Text.size text) := by
  induction reaches with
  | refl => exact ⟨Nat.zero_add _, by simp [initial]⟩
  | tail earlier stepped ih => exact ih.next (reads_of_step stepped)

/-- A reader of a text comes to a state, whatever stands behind the text, and is in the
middle of no escape there. -/
structure Stands (text : Text) (state : ReaderState) : Prop where
  /-- With more text behind, reading comes to the same state. -/
  runs : ∀ more, (initial (text ++ more)).run (positionOf (text ++ more)) =
    (state.extended more).run (positionOf (text ++ more))
  /-- What is read does not escape what is left. -/
  settled : ClosesNext state.rest ∨
    ∃ before, text = before ++ state.rest ∧ ¬Text.EscapesNext before

/-- A reader stands in every state that it comes to, unless the end of the text ended a
statement just before. -/
theorem Reaches.stands (reaches : Reaches text state) :
    Stands text state ∨
      ∃ earlier gap head trailing, Stands text earlier ∧
        StepsTo (positionOf text) earlier state ∧
        EndsText earlier state gap head trailing := by
  induction reaches with
  | refl => exact .inl ⟨fun _ => rfl, .inr ⟨[], rfl, Text.not_escapesNext_nil⟩⟩
  | @tail state later reached stepped ih =>
      have reached : Reaches text state := reached
      rcases ih with stands | ⟨earlier, gap, head, trailing, -, -, ends⟩
      · have reads := reads_of_step stepped
        by_cases ends : ∃ gap head trailing, EndsText state later gap head trailing
        · obtain ⟨gap, head, trailing, ends⟩ := ends
          exact .inr ⟨state, gap, head, trailing, stands, stepped, ends⟩
        · refine .inl ⟨fun more => ?_, ?_⟩
          · have agrees : ∀ offset ≤ Text.size text,
                positionOf (text ++ more) offset = positionOf text offset :=
              fun offset inside => positionOf_append_of_le inside more
            have goesOn := (reads.relocated reached.within agrees).extended.resolve_right ends
            rw [stands.runs more, run_eq_of_step (step_of_reads (goesOn more))]
          · rcases reads.settles with ⟨taken, char, noBackslash, parts⟩ | closes | atEnd
            · obtain ⟨before, whole, -⟩ := reached.exists_before
              refine .inr ⟨before ++ taken ++ [char], ?_, ?_⟩
              · rw [whole, parts]
                simp only [List.append_assoc]
              · rw [Text.escapesNext_concat_iff]
                exact fun escapes => noBackslash escapes.1
            · exact .inl closes
            · exact absurd atEnd ends
      · have blank : Text.isBlankText state.rest = true := by rw [ends.rest, ends.blank]
        have atEnd := step_of_isBlankText blank stepped
        unfold stepEnd at atEnd
        split at atEnd <;> cases atEnd

theorem not_escapesNext_of_isGap {gap : Text} (gapped : IsGap gap) : ¬Text.EscapesNext gap := by
  refine Text.not_escapesNext_of_getLast? fun last => ?_
  cases gapped '\\' (List.mem_of_getLast? last)

/-- Where the end of the text ends a statement, a brace does as well, or it is escaped and
the next one does. -/
theorem stated_brace_of_none
    {raw : Text}
    (notEmpty : raw ≠ [])
    (stated : Stated raw none) :
    (¬Text.EscapesNext raw ∧ Stated raw (some '}')) ∨
      Text.EscapesNext raw ∧ Stated (raw ++ ['}']) (some '}') := by
  obtain ⟨final, scanned, closed⟩ := stated.takes
  have remembers := StatementScan.remembers_initial.over scanned
  rw [List.nil_append] at remembers
  have plain (unescaped : ¬Text.EscapesNext raw) (ends : final.endsAt '}' = true) :
      ¬Text.EscapesNext raw ∧ Stated raw (some '}') :=
    ⟨unescaped, stated.noGap, stated.noComment, final, scanned, ends⟩
  have closed : final.leftOpen? = none := closed
  obtain ⟨surrounding, depth⟩ := final
  cases surrounding with
  | plain => exact .inl (plain remembers rfl)
  | afterSlash start =>
      obtain ⟨before, rfl, -⟩ := remembers
      refine .inl (plain ?_ rfl)
      rw [Text.escapesNext_concat_iff]
      rintro ⟨⟨⟩, -⟩
  | afterBackslash =>
      refine .inr ⟨remembers, ?_, ?_, ⟨.plain, depth⟩, ?_, rfl⟩
      · intro char first
        rw [List.head?_append_of_ne_nil raw notEmpty] at first
        exact stated.noGap char first
      · refine not_comment_append stated.noComment ?_
        rintro _ ⟨⟩
        decide
      · rw [StatementScan.over?_append, scanned]
        rfl
  | string => cases closed
  | stringAfterBackslash => cases closed
  | comment => cases closed
  | commentAfterStar => cases closed

/-- A statement starts in the middle of no escape. -/
theorem Stands.not_escapesNext
    {gap head trailing : Text}
    (stands : Stands text state)
    (stepped : StepsTo (positionOf text) state later)
    (ends : EndsText state later gap head trailing) :
    ∃ before, text = before ++ (head ++ trailing) ∧ ¬Text.EscapesNext before := by
  rcases stands.settled with ⟨blanks, more, left, blank⟩ | ⟨before, whole, unescaped⟩
  · -- The blanks would be a gap, and the brace behind them would start the statement.
    obtain ⟨openBlocks, nodes, offset, rest⟩ := state
    simp only at left
    subst left
    have gapped := isGap_of_step _ blank (.inr ⟨more, rfl⟩) stepped
    have noGap : ∀ char ∈ ('}' :: more).head?, isGap char = false := by
      rintro _ ⟨⟩
      decide
    have dropped := Text.dropWhile_run_append gapped noGap
    have parts := ends.text
    simp only [List.append_assoc] at parts
    rw [parts, Text.dropWhile_run_append ends.gapped ends.stated.noGap] at dropped
    refine absurd rfl (ends.stated.first_ne_brace ?_)
    rw [dropped]
    rfl
  · refine ⟨before ++ gap, by rw [whole, ends.text]; simp, ?_⟩
    rw [Text.escapesNext_append_iff unescaped]
    exact not_escapesNext_of_isGap ends.gapped

/-- If reading comes to a state in which closing braces for all open blocks are left, then
the text is a stylesheet that ends with these blocks. -/
theorem exists_parse_of_closing
    {text more gap : Text}
    {block : OpenBlock}
    {outer : List OpenBlock}
    (ran : Stylesheet.parse (text ++ more) = state.run (positionOf (text ++ more)))
    (innermost : state.openBlocks = block :: outer)
    (inside : block.start ≤ Text.size text)
    (gapped : IsGap gap)
    (left : state.rest = gap ++ '}' :: List.replicate outer.length '}') :
    ∃ sheet, Stylesheet.parse (text ++ more) = .ok sheet ∧
      EndsInBlock (positionOf text block.start) (outer.length + 1) sheet.nodes := by
  have reads : Reads (positionOf (text ++ more)) state _ := .closed innermost left gapped
  have closed : EndsInBlock (positionOf text block.start) 1
      (block.siblings ++ [block.close (positionOf (text ++ more)) state.nodes gap]) := by
    refine .here (block?_close ..) ?_
    rw [start_close, positionOf_append_of_le inside]
  obtain ⟨sheet, finished, ends⟩ := exists_run_closing closed outer _
  rw [Nat.add_comm] at ends
  exact ⟨sheet, ran.trans ((run_eq_of_step (step_of_reads reads)).trans finished), ends⟩

end ReaderState

open ReaderState

/-- The closing braces for a number of open blocks at the end of a text.  The end of the
text may escape one more. -/
def closingBraces (text : Text) (depth : Nat) : Text :=
  List.replicate (if Text.EscapesNext text then depth + 1 else depth) '}'

/-- A statement that the end of the text ends also ends before the braces that close all
blocks. -/
theorem exists_step_of_endsText
    {text gap head trailing : Text}
    {earlier last : ReaderState}
    (stands : Stands text earlier)
    (stepped : StepsTo (positionOf text) earlier last)
    (ends : EndsText earlier last gap head trailing)
    (depth : Nat)
    (locate : Nat → Position) :
    ∃ next blanks,
      (earlier.extended (closingBraces text (depth + 1))).step locate = .ok (.next next) ∧
        next.openBlocks = last.openBlocks ∧
        (blanks = [] ∨ blanks = trailing) ∧
        next.rest = blanks ++ '}' :: List.replicate depth '}' := by
  obtain ⟨before, whole, unescaped⟩ := stands.not_escapesNext stepped ends
  have rawNotEmpty : head ++ trailing ≠ [] := by simp [ends.notEmpty]
  rcases stated_brace_of_none rawNotEmpty ends.stated with ⟨plain, stated⟩ | ⟨escapes, stated⟩
  · have braces : closingBraces text (depth + 1) = '}' :: List.replicate depth '}' := by
      rw [closingBraces, if_neg]
      · rfl
      · rw [whole, Text.escapesNext_append_iff unescaped]
        exact plain
    have parts : (earlier.extended (closingBraces text (depth + 1))).rest =
        gap ++ head ++ [] ++ (trailing ++ '}' :: List.replicate depth '}') := by
      rw [braces, ReaderState.extended, ends.text]
      simp
    have reads : Reads locate _ _ := .statement parts (by simpa using ends.notEmpty) ends.noBlank
      ends.gapped (.unterminated rfl rfl ends.blank stated (.inr ⟨_, rfl⟩))
    exact ⟨_, trailing, step_of_reads reads, ends.openBlocks.symm, .inr rfl, rfl⟩
  · have braces : closingBraces text (depth + 1) = '}' :: '}' :: List.replicate depth '}' := by
      rw [closingBraces, if_pos]
      · rfl
      · rw [whole, Text.escapesNext_append_iff unescaped]
        exact escapes
    -- A backslash is no blank.
    have noTrailing : trailing = [] := by
      cases trailing using List.reverseRecOn with
      | nil => rfl
      | append_singleton blanks char =>
          rw [← List.append_assoc, Text.escapesNext_concat_iff] at escapes
          have isBlank := List.all_eq_true.mp ends.blank char (by simp)
          rw [escapes.1] at isBlank
          cases isBlank
    subst noTrailing
    rw [List.append_nil] at stated
    have parts : (earlier.extended (closingBraces text (depth + 1))).rest =
        gap ++ (head ++ ['}']) ++ [] ++ ([] ++ '}' :: List.replicate depth '}') := by
      rw [braces, ReaderState.extended, ends.text]
      simp
    have noBlank : ∀ char, (head ++ ['}']).getLast? = some char → Text.isBlank char = false := by
      rw [List.getLast?_concat]
      rintro _ ⟨⟩
      decide
    have atBrace : Stated (head ++ ['}'] ++ []) (some '}') := by rwa [List.append_nil]
    have reads : Reads locate _ _ := .statement parts (by simp) noBlank ends.gapped
      (.unterminated rfl rfl rfl atBrace (.inr ⟨_, rfl⟩))
    exact ⟨_, [], step_of_reads reads, ends.openBlocks.symm, .inl rfl, rfl⟩

/-- With the braces that it lacks, a text with an unclosed block is a stylesheet, which ends
with the blocks that were open down to the one of the error. -/
theorem exists_parse_closed
    {text : Text}
    {position : Position}
    (failed : Stylesheet.parse text = .error ⟨.unclosedBlock, position⟩) :
    ∃ depth sheet, Stylesheet.parse (text ++ closingBraces text depth) = .ok sheet ∧
      EndsInBlock position depth sheet.nodes := by
  have start : Reaches text (initial text) := .refl
  obtain ⟨last, reaches, stepped⟩ := start.exists_failed failed
  generalize failure : SyntaxError.mk .unclosedBlock position = error at stepped
  cases fails_of_step stepped with
  | unexpectedBrace => cases failure
  | leftOpen isOpen =>
      cases failure
      exact isOpen.elim
  | blankStatement => cases failure
  | @unclosedBlock block outer innermost gapped =>
      cases failure
      refine ⟨outer.length + 1, ?_⟩
      have inside : block.start ≤ Text.size text :=
        reaches.within.blocks block (by simp [innermost])
      rcases reaches.stands with stands | ⟨earlier, gap, head, trailing, stands, reads, ends⟩
      · have unescaped : ¬Text.EscapesNext text := by
          rcases stands.settled with ⟨blanks, more, left, -⟩ | ⟨before, whole, unescaped⟩
          · cases gapped '}' (by simp [left])
          · rw [whole, Text.escapesNext_append_iff unescaped]
            exact not_escapesNext_of_isGap gapped
        refine exists_parse_of_closing (stands.runs _) innermost inside gapped ?_
        rw [ReaderState.extended, closingBraces, if_neg unescaped]
        rfl
      · obtain ⟨next, blanks, read, openBlocks, isBlanks, left⟩ :=
          exists_step_of_endsText stands reads ends outer.length
            (positionOf (text ++ closingBraces text (outer.length + 1)))
        have blanksGapped : IsGap blanks := by
          rcases isBlanks with rfl | rfl
          · exact isGap_nil
          · rwa [← ends.rest]
        exact exists_parse_of_closing ((stands.runs _).trans (run_eq_of_step read))
          (openBlocks.trans innermost) inside blanksGapped left

/-- What an error says is right about a text. -/
def SyntaxError.IsRight (error : SyntaxError) (text : Text) : Prop :=
  match error.reason with
  | .unexpectedBrace =>
      ∃ before after, text = before ++ '}' :: after ∧
        Text.size before = error.position.offset ∧
        ∃ sheet, Stylesheet.parse before = .ok sheet
  | .unclosedBlock =>
      ∃ depth sheet, Stylesheet.parse (text ++ closingBraces text depth) = .ok sheet ∧
        EndsInBlock error.position depth sheet.nodes
  | .blankStatement => ∃ char ∈ text, Text.isBlank char = true ∧ Text.isAsciiBlank char = false
  | reason => reason.IsOpen text error.position.offset

/-- What is open in the text that a reader has left is open in the whole text. -/
theorem ReaderState.Reaches.isOpen
    {text : Text}
    {state : ReaderState}
    {reason : Reason}
    {offset : Nat}
    (reaches : Reaches text state)
    (isOpen : reason.IsOpen state.rest offset) :
    reason.IsOpen text (state.offset + offset) := by
  obtain ⟨before, whole, size⟩ := reaches.exists_before
  rw [whole, size]
  exact isOpen.append_left before

/-- Every error that parsing gives is right about the text, and its line and column are
those of its offset. -/
theorem isRight_of_parse
    {text : Text}
    {error : SyntaxError}
    (failed : Stylesheet.parse text = .error error) :
    error.IsRight text ∧
      error.position.location = Location.ofOffset text error.position.offset := by
  have start : Reaches text (initial text) := .refl
  obtain ⟨last, reaches, stepped⟩ := start.exists_failed failed
  cases fails_of_step stepped with
  | unclosedBlock =>
      rw [positionOf_eq] at failed ⊢
      exact ⟨exists_parse_closed failed, rfl⟩
  | @unexpectedBrace gap after noneOpen parts gapped =>
      obtain ⟨before, more, whole, place, sheet, ran⟩ := exists_run_shortened failed
      rw [positionOf_eq] at place ⊢
      have offset : Text.size before = last.offset + Text.size gap := by
        have same := congrArg Position.offset place
        rw [positionOf_eq] at same
        simpa [initial] using same.symm
      exact ⟨⟨before, more, whole, offset, exists_run_relocated ran⟩, rfl⟩
  | @leftOpen offset reason isOpen =>
      have whole := reaches.isOpen isOpen
      rw [positionOf_eq]
      cases reason with
      | unclosedComment => exact ⟨whole, rfl⟩
      | unclosedString => exact ⟨whole, rfl⟩
      | unclosedBlock => exact isOpen.elim
      | unexpectedBrace => exact isOpen.elim
      | blankStatement => exact isOpen.elim
  | blankStatement member blank wide =>
      rw [positionOf_eq]
      exact ⟨⟨_, reaches.rest_subset member, blank, wide⟩, rfl⟩

/-- A text with two open blocks, a parenthesis that hides a brace, and an escape at its
end. -/
def openSample : Text :=
  "@media é \x7b\n  a \x7b\x7d b, c \x7b d: (\x7b \\"

/-- The error points to the rule around the end of the sample, and two braces close its
blocks behind the one that is escaped. -/
theorem isRight_of_parse_openSample :
    Stylesheet.parse openSample = .error ⟨.unclosedBlock, ⟨⟨1, 7⟩, 19⟩⟩ ∧
      (∃ depth sheet, Stylesheet.parse (openSample ++ closingBraces openSample depth) = .ok sheet ∧
        EndsInBlock ⟨⟨1, 7⟩, 19⟩ depth sheet.nodes) ∧
      (⟨1, 7⟩ : Location) = Location.ofOffset openSample 19 := by
  have failed : Stylesheet.parse openSample = .error ⟨.unclosedBlock, ⟨⟨1, 7⟩, 19⟩⟩ := by
    with_unfolding_all rfl
  exact ⟨failed, isRight_of_parse failed⟩

end Css
end ComponentPipeline
