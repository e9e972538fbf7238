import ComponentPipeline.Proofs.Css.Bytes
import ComponentPipeline.Proofs.Css.Standing
import Mathlib.Logic.Relation

/-!
# Reading comes to an end

Every step of the reader that goes on takes at least one character off the
text, and what it has taken is a whole number of characters.  So reading ends
with a stylesheet or an error.  One error is special: a statement of nothing
but blanks takes nothing off.  It needs a blank that is none of the blanks of a
gap, and a text without such blanks never comes to it.
-/

namespace ComponentPipeline
namespace Css

/-! ## Blank statements -/

theorem reason_ne_of_leftOpen?
    {scan : StatementScan}
    {reason : Reason}
    {start : Nat}
    (left : scan.leftOpen? = some (reason, start)) :
    reason ≠ .blankStatement := by
  obtain ⟨surrounding, depth⟩ := scan
  cases surrounding <;> cases left <;> exact Reason.noConfusion

/-- A scan fails only at a string or a comment that is left open. -/
theorem reason_ne_of_scanStatement
    {scan : StatementScan}
    {offset : Nat}
    {text : Text}
    {reason : Reason}
    {start : Nat}
    (failed : scanStatement scan offset text = .error (reason, start)) :
    reason ≠ .blankStatement := by
  induction text generalizing scan offset with
  | nil =>
      rw [scanStatement] at failed
      split at failed
      · rename_i unclosed left
        cases failed
        exact reason_ne_of_leftOpen? left
      · cases failed
  | cons char rest ih =>
      rw [scanStatement] at failed
      split at failed
      · cases failed
      · split at failed
        · cases failed
        · rename_i failedRest
          cases failed
          exact ih failedRest

namespace ReaderState

variable {state : ReaderState} {locate : Nat → Position} {error : SyntaxError}

/-- A statement of nothing but blanks starts with a blank. -/
theorem exists_blank_of_stepStatement
    {gap text : Text}
    {offset : Nat}
    (notEmpty : text ≠ [])
    (notClosed : ∀ rest, text ≠ '}' :: rest)
    (failed : state.stepStatement locate gap offset text = .error error)
    (blank : error.reason = .blankStatement) :
    ∃ char ∈ text.head?, Text.isBlank char = true := by
  unfold stepStatement at failed
  split at failed
  · rename_i reason start scanned
    cases failed
    exact absurd blank (reason_ne_of_scanStatement scanned)
  · rename_i raw tail scanned
    obtain ⟨parts, takes⟩ := scanStatement_eq_ok_iff.mp scanned
    simp only at failed
    split at failed
    · cases failed
    · cases failed
    · rename_i notOpened notTerminated
      split at failed
      · rename_i headEmpty
        have rawBlank := Text.trimEnd_eq_nil_iff.mp (List.isEmpty_iff.mp headEmpty)
        cases raw with
        | nil =>
            -- Without a character of its own the statement would end at once.
            rw [List.nil_append] at parts
            subst parts
            rcases last_of_takes takes notOpened notTerminated with rfl | ⟨later, closes⟩
            · exact absurd rfl notEmpty
            · exact absurd closes (notClosed later)
        | cons char rest =>
            subst parts
            exact ⟨char, rfl, List.all_eq_true.mp rawBlank char List.mem_cons_self⟩
      · cases failed

/-- A statement of nothing but blanks starts with a blank that is none of the
blanks of a gap. -/
theorem exists_blank_of_step
    (failed : state.step locate = .error error)
    (blank : error.reason = .blankStatement) :
    ∃ char ∈ state.rest, Text.isBlank char = true ∧ Text.isAsciiBlank char = false := by
  simp only [step] at failed
  split at failed
  · unfold stepEnd at failed
    split at failed
    · cases failed
    · cases failed
      cases blank
  · unfold stepClose at failed
    split at failed
    · cases failed
      cases blank
    · cases failed
  · unfold stepComment at failed
    split at failed
    · cases failed
      cases blank
    · cases failed
  · rename_i notEmpty notClosed notComment
    obtain ⟨char, first, isBlank⟩ :=
      exists_blank_of_stepStatement notEmpty notClosed failed blank
    have notGap := List.head?_dropWhile_not isGap state.rest
    rw [Option.mem_def] at first
    rw [first] at notGap
    have notGap : isGap char = false := notGap
    rw [isGap, Bool.or_eq_false_iff] at notGap
    have left : char ∈ state.rest.dropWhile isGap := List.mem_of_mem_head? first
    exact ⟨char, (List.dropWhile_suffix isGap).subset left, isBlank, notGap.1⟩

/-! ## Steps go forward -/

/-- Every step that goes on takes something off the text. -/
theorem offset_lt_of_reads
    {next : ReaderState}
    (reads : Reads locate state (.next next)) :
    state.offset < next.offset := by
  have positive {taken : Text} (notEmpty : taken ≠ []) : 0 < Text.size taken :=
    Nat.pos_of_ne_zero fun zero => notEmpty (Text.size_eq_zero_iff.mp zero)
  cases reads with
  | opened => exact Nat.lt_add_of_pos_right (positive (by simp))
  | closed => exact Nat.lt_add_of_pos_right (positive (by simp))
  | comment => exact Nat.lt_add_of_pos_right (positive (by simp))
  | statement text notEmpty =>
      rw [List.append_assoc]
      exact Nat.lt_add_of_pos_right (positive (List.append_ne_nil_of_right_ne_nil _ notEmpty))

/-- One step leads from a state to another one. -/
def StepsTo (locate : Nat → Position) (state next : ReaderState) : Prop :=
  state.step locate = .ok (.next next)

/-- A reader of a text comes to a state. -/
def Reaches (text : Text) (state : ReaderState) : Prop :=
  Relation.ReflTransGen (StepsTo (positionOf text)) (initial text) state

/-- Steps one after another go forward. -/
theorem offset_lt_of_steps
    {later : ReaderState}
    (steps : Relation.TransGen (StepsTo locate) state later) :
    state.offset < later.offset := by
  induction steps with
  | single stepped => exact offset_lt_of_reads (reads_of_step stepped)
  | tail earlier stepped ih => exact Nat.lt_trans ih (offset_lt_of_reads (reads_of_step stepped))

variable {text : Text}

theorem Reaches.hasRead (reaches : Reaches text state) : state.HasRead text := by
  induction reaches with
  | refl => exact ⟨wholeText_initial text, rfl, trivial⟩
  | tail earlier stepped ih => exact ih.next (reads_of_step stepped)

/-- What a reader has taken is a whole number of characters. -/
theorem Reaches.exists_before (reaches : Reaches text state) :
    ∃ before, text = before ++ state.rest ∧ state.offset = Text.size before :=
  ⟨state.readText, reaches.hasRead.whole.symm, reaches.hasRead.offset⟩

theorem Reaches.offset_le (reaches : Reaches text state) :
    state.offset ≤ Text.size text := by
  obtain ⟨before, parts, offset⟩ := reaches.exists_before
  rw [parts, Text.size_append, offset]
  exact Nat.le_add_right _ _

theorem Reaches.rest_subset (reaches : Reaches text state) : state.rest ⊆ text := by
  obtain ⟨before, parts, -⟩ := reaches.exists_before
  rw [parts]
  exact List.subset_append_right before state.rest

/-- A run that fails does so in a step of some state on its way. -/
theorem Reaches.exists_failed
    (reaches : Reaches text state)
    (failed : state.run (positionOf text) = .error error) :
    ∃ last, Reaches text last ∧ last.step (positionOf text) = .error error := by
  fun_induction state.run (positionOf text) with
  | case1 state failure stepped =>
      cases failed
      exact ⟨state, reaches, stepped⟩
  | case2 state sheet stepped => cases failed
  | case3 state next stepped ih => exact ih (reaches.tail stepped) failed

/-- What a reader of a text without wide blanks does in a state: it stands
between two characters of the text, goes forward if it goes on, stops between
two characters when it goes over the bytes of a statement, and fails for a
reason that reading has. -/
structure Progresses (text : Text) (state : ReaderState) : Prop where
  /-- A whole number of characters is taken. -/
  atCharacter : ∃ before, text = before ++ state.rest ∧ state.offset = Text.size before
  /-- The offset is inside the text. -/
  inside : state.offset ≤ Text.size text
  /-- Every later state is further on. -/
  forward : ∀ later, Relation.TransGen (StepsTo (positionOf text)) state later →
    state.offset < later.offset
  /-- A scan of the bytes behind the gap stops between two characters. -/
  scans : ∀ raw tail,
    scanBytes .initial (Text.bytes (state.rest.dropWhile isGap)) = some (raw, tail) →
      ∃ before after, state.rest.dropWhile isGap = before ++ after ∧
        raw = Text.bytes before ∧ tail = Text.bytes after
  /-- If the reader does not go on, then it returns. -/
  returns : ∀ error, state.step (positionOf text) = .error error →
    error.reason ≠ .blankStatement

end ReaderState

open ReaderState

/-- A reader of a text whose blanks are all narrow goes forward until it
returns a stylesheet or an error. -/
theorem progresses_of_narrow
    {text : Text}
    (narrow : ∀ char ∈ text, Text.isBlank char = true → Text.isAsciiBlank char = true) :
    (∀ state, Reaches text state → state.Progresses text) ∧
      ((∃ sheet, Stylesheet.parse text = .ok sheet) ∨
        ∃ error, Stylesheet.parse text = .error error ∧
          error.reason ≠ .blankStatement) := by
  have returns {state : ReaderState} (reaches : Reaches text state) (error : SyntaxError)
      (failed : state.step (positionOf text) = .error error) :
      error.reason ≠ .blankStatement := by
    intro blank
    obtain ⟨char, member, isBlank, wide⟩ := exists_blank_of_step failed blank
    rw [narrow char (reaches.rest_subset member) isBlank] at wide
    cases wide
  refine ⟨fun state reaches => ?_, ?_⟩
  · exact {
      atCharacter := reaches.exists_before
      inside := reaches.offset_le
      forward := fun _ => offset_lt_of_steps
      scans := fun _ _ => exists_append_of_scanBytes
      returns := returns reaches }
  · cases parsed : Stylesheet.parse text with
    | ok sheet => exact .inl ⟨sheet, rfl⟩
    | error error =>
        have start : Reaches text (initial text) := .refl
        obtain ⟨last, reaches, failed⟩ := start.exists_failed parsed
        exact .inr ⟨error, rfl, returns reaches error failed⟩

/-- A text with nested blocks, an escaped letter of two bytes and an escape at
its end. -/
def twoByteSample : Text :=
  "a, \\é \x7b b: c \x7d\n\x7d\\"

theorem progresses_of_narrow_twoByteSample :
    (∀ state, Reaches twoByteSample state → state.Progresses twoByteSample) ∧
      ((∃ sheet, Stylesheet.parse twoByteSample = .ok sheet) ∨
        ∃ error, Stylesheet.parse twoByteSample = .error error ∧
          error.reason ≠ .blankStatement) := by
  have all : twoByteSample.all (fun char =>
      !Text.isBlank char || Text.isAsciiBlank char) = true := by decide
  apply progresses_of_narrow
  intro char member isBlank
  have narrow := List.all_eq_true.mp all char member
  rwa [isBlank, Bool.not_true, Bool.false_or] at narrow

end Css
end ComponentPipeline
