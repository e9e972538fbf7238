import ComponentPipeline.Proofs.Css.ReaderSteps
import ComponentPipeline.Proofs.Text.Searching

/-!
# Reading what is known

The text of a node makes the reader do one certain step, whatever it has read
before and whatever stands behind the node.  What a step has read is told by
`Reads`; the lemmas here go the other way, from a text to the step.
-/

namespace ComponentPipeline
namespace Css

theorem IsGap.append {first second : Text} (firstGap : IsGap first) (secondGap : IsGap second) :
    IsGap (first ++ second) := by
  intro char member
  rcases List.mem_append.mp member with here | there
  · exact firstGap char here
  · exact secondGap char there

namespace ReaderState

theorem run_eq_of_step
    {state next : ReaderState}
    {locate : Nat → Position}
    (stepped : state.step locate = .ok (.next next)) :
    state.run locate = next.run locate := by
  rw [run]
  split
  · rename_i error failed
    cases stepped.symm.trans failed
  · rename_i sheet finished
    cases stepped.symm.trans finished
  · rename_i later goesOn
    cases stepped.symm.trans goesOn
    rfl

theorem run_eq_of_step_finished
    {state : ReaderState}
    {locate : Nat → Position}
    {sheet : Stylesheet}
    (stepped : state.step locate = .ok (.finished sheet)) :
    state.run locate = .ok sheet := by
  rw [run]
  split
  · rename_i error failed
    cases stepped.symm.trans failed
  · rename_i other finished
    cases stepped.symm.trans finished
    rfl
  · rename_i later goesOn
    cases stepped.symm.trans goesOn

theorem run_eq_of_step_error
    {state : ReaderState}
    {locate : Nat → Position}
    {error : SyntaxError}
    (stepped : state.step locate = .error error) :
    state.run locate = .error error := by
  rw [run]
  split
  · rename_i other failed
    cases stepped.symm.trans failed
    rfl
  · rename_i sheet finished
    cases stepped.symm.trans finished
  · rename_i later goesOn
    cases stepped.symm.trans goesOn

section Steps

variable {openBlocks : List OpenBlock} {nodes : List Node} {offset : Nat}
variable (locate : Nat → Position) {gap : Text}

theorem step_gap (gapped : IsGap gap) :
    step ⟨openBlocks, nodes, offset, gap⟩ locate =
      stepEnd ⟨openBlocks, nodes, offset, gap⟩ locate gap := by
  have noGap : ∀ char ∈ ([] : Text).head?, isGap char = false := by simp
  have taken := Text.takeWhile_run_append gapped noGap
  have dropped := Text.dropWhile_run_append gapped noGap
  rw [List.append_nil] at taken dropped
  simp only [step, taken, dropped]

theorem step_brace (gapped : IsGap gap) (rest : Text) :
    step ⟨openBlocks, nodes, offset, gap ++ '}' :: rest⟩ locate =
      stepClose ⟨openBlocks, nodes, offset, gap ++ '}' :: rest⟩ locate gap
        (offset + Text.size gap) rest := by
  have noGap : ∀ char ∈ ('}' :: rest).head?, isGap char = false := by
    rintro _ ⟨⟩
    decide
  simp only [step, Text.takeWhile_run_append gapped noGap, Text.dropWhile_run_append gapped noGap]

/-- What does not start with a gap, a closing brace or a comment is read as a
statement. -/
theorem step_statement
    {text : Text}
    {first : Char}
    (gapped : IsGap gap)
    (starts : text.head? = some first)
    (noGap : isGap first = false)
    (noBrace : first ≠ '}')
    (noComment : ¬OpensComment text) :
    step ⟨openBlocks, nodes, offset, gap ++ text⟩ locate =
      stepStatement ⟨openBlocks, nodes, offset, gap ++ text⟩ locate gap
        (offset + Text.size gap) text := by
  have noGap : ∀ char ∈ text.head?, isGap char = false := by
    intro char here
    rw [starts] at here
    cases here
    exact noGap
  simp only [step, Text.takeWhile_run_append gapped noGap, Text.dropWhile_run_append gapped noGap]
  split
  · cases starts
  · cases starts
    exact absurd rfl noBrace
  · rename_i body
    exact absurd ⟨body, rfl⟩ noComment
  · rfl

end Steps
end ReaderState

/-! ## Statements and what follows them -/

section Stated

variable {raw : Text} {next : Option Char}

theorem Stated.first_ne_brace
    (stated : Stated raw next)
    {first : Char}
    (starts : raw.head? = some first) :
    first ≠ '}' := by
  rintro rfl
  cases raw with
  | nil => cases starts
  | cons char rest =>
      cases starts
      have goesOn := (StatementScan.takes_cons_iff.mp stated.takes).1
      cases goesOn

/-- The end of a statement does not make a comment of it. -/
theorem not_comment_append
    {tail : Text}
    (noComment : ¬OpensComment raw)
    (ends : ∀ char ∈ tail.head?, char ≠ '/' ∧ char ≠ '*') :
    ¬OpensComment (raw ++ tail) := by
  rintro ⟨body, parts⟩
  rcases raw with _ | ⟨first, _ | ⟨second, rest⟩⟩
  · rw [List.nil_append] at parts
    exact (ends '/' (by rw [← parts]; rfl)).1 rfl
  · simp only [List.cons_append, List.nil_append, List.cons.injEq] at parts
    exact (ends '*' (by rw [← parts.2]; rfl)).2 rfl
  · simp only [List.cons_append, List.nil_append, List.cons.injEq] at parts
    obtain ⟨rfl, rfl, -⟩ := parts
    exact noComment ⟨rest, rfl⟩

/-- A gap before a statement is no part of it. -/
theorem StatementScan.Takes.dropWhile_isGap
    (takes : StatementScan.initial.Takes raw next) :
    StatementScan.initial.Takes (raw.dropWhile isGap) next := by
  induction raw with
  | nil => exact takes
  | cons char rest ih =>
      rw [List.dropWhile_cons]
      split
      · rename_i inGap
        obtain ⟨goesOn, takesRest⟩ := StatementScan.takes_cons_iff.mp takes
        have blank : Text.isBlank char = true := by
          rcases Bool.or_eq_true_iff.mp inGap with narrow | semicolon
          · exact Text.isBlank_of_isAsciiBlank narrow
          · rw [beq_iff_eq.mp semicolon] at goesOn
            cases goesOn
        rw [(StatementScan.neutral_of_isBlank blank).2] at takesRest
        exact ih takesRest
      · exact takes

end Stated

namespace ReaderState

variable {openBlocks : List OpenBlock} {nodes : List Node} {offset : Nat}
variable (locate : Nat → Position) {gap raw : Text}

/-- A statement is read up to its end; it may be empty before a brace. -/
theorem step_stated
    {tail : Text}
    (gapped : IsGap gap)
    (opens : raw = [] → tail.head? = some '{')
    (stated : Stated raw tail.head?) :
    step ⟨openBlocks, nodes, offset, gap ++ (raw ++ tail)⟩ locate =
        stepStatement ⟨openBlocks, nodes, offset, gap ++ (raw ++ tail)⟩ locate gap
          (offset + Text.size gap) (raw ++ tail) ∧
      ∀ start, scanStatement .initial start (raw ++ tail) = .ok (raw, tail) := by
  have noComment : ¬OpensComment (raw ++ tail) := by
    refine not_comment_append stated.noComment fun char next => ?_
    rcases stated.takes.ends char next with rfl | rfl | rfl <;> decide
  refine ⟨?_, fun start => scanStatement_eq_ok_iff.mpr ⟨rfl, stated.takes⟩⟩
  cases raw with
  | nil => exact step_statement locate gapped (opens rfl) (by decide) (by decide) noComment
  | cons first rest =>
      exact step_statement locate gapped rfl (stated.noGap first rfl)
        (stated.first_ne_brace rfl) noComment

/-- What a step may read it does read. -/
theorem step_of_reads
    {state : ReaderState}
    {locate : Nat → Position}
    {outcome : ReaderStep}
    (reads : Reads locate state outcome) :
    state.step locate = .ok outcome := by
  obtain ⟨openBlocks, nodes, offset, text⟩ := state
  have trimmed {head trailing : Text}
      (noBlank : ∀ char, head.getLast? = some char → Text.isBlank char = false)
      (blank : Text.isBlankText trailing = true) :
      Text.trimEnd (head ++ trailing) = head := by
    rw [Text.trimEnd_append_of_isBlankText blank, Text.trimEnd_eq_self noBlank]
  cases reads with
  | finished noneOpen gapped =>
      simp only at noneOpen gapped
      subst noneOpen
      rw [step_gap locate gapped]
      rfl
  | @opened gap head between rest parts gapped stated blank noBlank =>
      have whole : text = gap ++ ((head ++ between) ++ '{' :: rest) := by
        simpa using parts
      subst whole
      have atBrace : Stated (head ++ between) ('{' :: rest).head? := stated
      obtain ⟨stepped, scanned⟩ := step_stated locate gapped (fun _ => rfl) atBrace
      have brace : '{'.utf8Size = 1 := rfl
      rw [stepped]
      simp only [stepStatement, scanned, trimmed noBlank blank, List.drop_left]
      simp [brace, Nat.add_assoc]
  | @closed gap rest block outer innermost parts gapped =>
      simp only at innermost parts
      subst innermost parts
      have brace : '}'.utf8Size = 1 := rfl
      rw [step_brace locate gapped]
      simp [stepClose, brace, Nat.add_assoc]
  | @comment gap inside rest parts gapped closes =>
      have whole : text = gap ++ '/' :: '*' :: (inside ++ ['*', '/'] ++ rest) := by
        simpa using parts
      subst whole
      have noGap : ∀ char ∈ ('/' :: '*' :: (inside ++ ['*', '/'] ++ rest)).head?,
          isGap char = false := by
        rintro _ ⟨⟩
        decide
      simp only [step, Text.takeWhile_run_append gapped noGap,
        Text.dropWhile_run_append gapped noGap, stepComment, Text.cutAt?_append_iff.mpr closes]
      simp [Nat.add_assoc]
  | @statement gap head between rest parts notEmpty noBlank gapped ends =>
      cases ends with
      | @terminated trailing between_eq rawNotEmpty stated blank =>
          subst between_eq
          have whole : text = gap ++ ((head ++ trailing) ++ ';' :: rest) := by
            simpa using parts
          subst whole
          have atEnd : Stated (head ++ trailing) (';' :: rest).head? := stated
          obtain ⟨stepped, scanned⟩ :=
            step_stated locate gapped (fun empty => absurd empty rawNotEmpty) atEnd
          have semicolon : ';'.utf8Size = 1 := rfl
          rw [stepped]
          simp only [stepStatement, scanned, trimmed noBlank blank, List.drop_left]
          simp [semicolon, Nat.add_assoc]
      | @unterminated trailing tail none rest_eq blank stated last =>
          subst none rest_eq
          have whole : text = gap ++ ((head ++ trailing) ++ tail) := by
            simpa using parts
          subst whole
          rw [List.append_nil] at notEmpty
          have rawNotEmpty : head ++ trailing ≠ [] := by simp [notEmpty]
          have kept : head.isEmpty = false := by rwa [List.isEmpty_eq_false_iff]
          obtain ⟨stepped, scanned⟩ :=
            step_stated locate gapped (fun empty => absurd empty rawNotEmpty) stated
          rw [stepped]
          rcases last with rfl | ⟨later, rfl⟩ <;>
            simp only [stepStatement, scanned, trimmed noBlank blank, List.drop_left, kept,
              Bool.false_eq_true, if_false] <;>
            simp [Nat.add_assoc]

variable (openBlocks nodes offset) in
/-- A comment is added as it stands. -/
theorem step_comment
    {inside : Text}
    (gapped : IsGap gap)
    (closes : Text.cutAt? ['*', '/'] (inside ++ ['*', '/']) = some (inside, []))
    (rest : Text) :
    ∃ start further,
      step ⟨openBlocks, nodes, offset,
          gap ++ ('/' :: '*' :: (inside ++ ['*', '/'])) ++ rest⟩ locate =
        .ok (.next ⟨openBlocks,
          nodes ++ [.comment gap ('/' :: '*' :: (inside ++ ['*', '/'])) start],
          further, rest⟩) :=
  ⟨_, _, step_of_reads (.comment rfl gapped closes)⟩

/-- The block that a text before a brace opens behind a gap: the gap at the start
of the text joins that gap, and the blanks at its end stand before the brace. -/
def openedBlock (gap raw : Text) (start : Nat) (siblings : List Node) : OpenBlock :=
  let statement := raw.dropWhile isGap
  let head := Text.trimEnd statement
  ⟨gap ++ raw.takeWhile isGap, head, statement.drop head.length, start, siblings⟩

variable (openBlocks nodes offset) in
/-- A text before a brace opens a block. -/
theorem step_open
    (gapped : IsGap gap)
    (noComment : ¬OpensComment (raw.dropWhile isGap))
    (takes : StatementScan.initial.Takes raw (some '{'))
    (rest : Text) :
    ∃ start further,
      step ⟨openBlocks, nodes, offset, gap ++ (raw ++ '{' :: rest)⟩ locate =
        .ok (.next ⟨openedBlock gap raw start nodes :: openBlocks, [], further, rest⟩) := by
  have kept := Text.trimEnd_append_drop (raw.dropWhile isGap)
  have noGap : ∀ char ∈ (raw.dropWhile isGap).head?, isGap char = false := by
    intro char first
    have notGap := List.head?_dropWhile_not isGap raw
    rw [Option.mem_def] at first
    rwa [first] at notGap
  have stated : Stated (raw.dropWhile isGap) (some '{') :=
    ⟨noGap, noComment, takes.dropWhile_isGap⟩
  have parts : gap ++ (raw ++ '{' :: rest) =
      gap ++ raw.takeWhile isGap ++ Text.trimEnd (raw.dropWhile isGap) ++
        (raw.dropWhile isGap).drop (Text.trimEnd (raw.dropWhile isGap)).length ++
          '{' :: rest := by
    rw [List.append_assoc (gap ++ raw.takeWhile isGap), kept]
    simp
  rw [← kept] at stated
  refine ⟨_, _, step_of_reads (.opened parts ?_ stated (Text.isBlankText_drop_trimEnd _) ?_)⟩
  · exact gapped.append (isGap_takeWhile raw)
  · exact fun _ => Text.not_isBlank_of_getLast?_trimEnd

variable (openBlocks nodes offset) in
/-- A statement with a semicolon is added with the blanks before that. -/
theorem step_terminated
    {text trailing : Text}
    (gapped : IsGap gap)
    (notEmpty : text ++ trailing ≠ [])
    (noBlank : ∀ char, text.getLast? = some char → Text.isBlank char = false)
    (blank : Text.isBlankText trailing = true)
    (stated : Stated (text ++ trailing) (some ';'))
    (rest : Text) :
    ∃ start further,
      step ⟨openBlocks, nodes, offset, gap ++ (text ++ trailing ++ ';' :: rest)⟩ locate =
        .ok (.next ⟨openBlocks, nodes ++ [statementNode gap text (trailing ++ [';']) start],
          further, rest⟩) := by
  have parts : gap ++ (text ++ trailing ++ ';' :: rest) =
      gap ++ text ++ (trailing ++ [';']) ++ rest := by simp
  have bothNotEmpty : text ++ (trailing ++ [';']) ≠ [] := by simp
  exact ⟨_, _, step_of_reads
    (.statement parts bothNotEmpty noBlank gapped (.terminated rfl notEmpty stated blank))⟩

variable (openBlocks nodes offset) in
/-- A statement at the end of a block or of the text leaves its blanks. -/
theorem step_unterminated
    {text trailing tail : Text}
    (gapped : IsGap gap)
    (notEmpty : text ≠ [])
    (noBlank : ∀ char, text.getLast? = some char → Text.isBlank char = false)
    (blank : Text.isBlankText trailing = true)
    (stated : Stated (text ++ trailing) tail.head?)
    (last : tail = [] ∨ ∃ later, tail = '}' :: later) :
    ∃ start further,
      step ⟨openBlocks, nodes, offset, gap ++ (text ++ trailing ++ tail)⟩ locate =
        .ok (.next ⟨openBlocks, nodes ++ [statementNode gap text [] start],
          further, trailing ++ tail⟩) := by
  have parts : gap ++ (text ++ trailing ++ tail) =
      gap ++ text ++ [] ++ (trailing ++ tail) := by simp
  have bothNotEmpty : text ++ [] ≠ [] := by simpa using notEmpty
  exact ⟨_, _, step_of_reads
    (.statement parts bothNotEmpty noBlank gapped (.unterminated rfl rfl blank stated last))⟩

/-- Blanks at the end of a block or of the text are a gap, or the step fails. -/
theorem isGap_of_step
    {trailing tail : Text}
    {outcome : ReaderStep}
    (blank : Text.isBlankText trailing = true)
    (last : tail = [] ∨ ∃ later, tail = '}' :: later)
    (stepped : step ⟨openBlocks, nodes, offset, trailing ++ tail⟩ locate = .ok outcome) :
    IsGap trailing := by
  have parts : trailing ++ tail =
      trailing.takeWhile isGap ++ (trailing.dropWhile isGap ++ tail) := by
    rw [← List.append_assoc, List.takeWhile_append_dropWhile]
  have gapped := isGap_takeWhile trailing
  have noGap := List.head?_dropWhile_not isGap trailing
  have blankRest : Text.isBlankText (trailing.dropWhile isGap) = true :=
    List.all_eq_true.mpr fun char member =>
      List.all_eq_true.mp blank char (List.dropWhile_sublist isGap |>.subset member)
  cases left : trailing.dropWhile isGap with
  | nil =>
      rwa [← List.takeWhile_append_dropWhile (p := isGap) (l := trailing), left,
        List.append_nil]
  | cons first rest =>
      rw [left] at noGap blankRest parts
      have blankFirst : Text.isBlank first = true :=
        List.all_eq_true.mp blankRest first List.mem_cons_self
      have stated : Stated (first :: rest) tail.head? := by
        refine ⟨by rintro _ ⟨⟩; exact noGap, ?_, ?_⟩
        · rintro ⟨body, same⟩
          cases same
          cases blankFirst
        · refine ⟨.initial, StatementScan.over?_of_isBlankText blankRest, ?_⟩
          rcases last with rfl | ⟨later, rfl⟩ <;> rfl
      have nothing : Text.trimEnd (first :: rest) = [] := Text.trimEnd_eq_nil_iff.mpr blankRest
      obtain ⟨asStatement, scanned⟩ :=
        step_stated locate gapped (fun empty => absurd empty (List.cons_ne_nil first rest))
          stated
      rw [parts, asStatement, stepStatement, scanned] at stepped
      simp only [nothing] at stepped
      rcases last with rfl | ⟨later, rfl⟩ <;> cases stepped

end ReaderState
end Css
end ComponentPipeline
