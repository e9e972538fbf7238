import ComponentPipeline.Proofs.Css.StatementEnds
import Mathlib.Data.List.Infix

/-!
# What a statement leaves open

A scan remembers a comment or a string by the offset at which it started.  What has
been read since then is the text inside, in which nothing closes it.  If the text ends
there, then the comment or string is open up to the end.

Backslashes at the end of what is read come in pairs, each of which stands for a
backslash, and a last one without another escapes the next character.
-/

namespace ComponentPipeline

namespace Text

/-! ## Escapes at the end of a text -/

/-- The number of backslashes at the end of a text. -/
def trailingBackslashes (text : Text) : Nat :=
  (text.reverse.takeWhile (· == '\\')).length

/-- A character behind the text would be escaped. -/
def EscapesNext (text : Text) : Prop :=
  trailingBackslashes text % 2 = 1

instance (text : Text) : Decidable (EscapesNext text) :=
  inferInstanceAs (Decidable (_ = _))

theorem not_escapesNext_nil : ¬EscapesNext [] := by
  decide

theorem escapesNext_concat_iff {text : Text} {char : Char} :
    EscapesNext (text ++ [char]) ↔ char = '\\' ∧ ¬EscapesNext text := by
  unfold EscapesNext trailingBackslashes
  rw [List.reverse_append, List.reverse_singleton, List.singleton_append,
    List.takeWhile_cons]
  by_cases backslash : char = '\\'
  · simp [backslash]
    omega
  · simp [backslash]

/-- Behind a text that does not escape the next character, another one ends as it does
alone. -/
theorem escapesNext_append_iff
    {first second : Text}
    (unescaped : ¬EscapesNext first) :
    EscapesNext (first ++ second) ↔ EscapesNext second := by
  induction second using List.reverseRecOn with
  | nil => simpa [not_escapesNext_nil] using unescaped
  | append_singleton before char ih =>
      rw [← List.append_assoc, escapesNext_concat_iff, escapesNext_concat_iff, ih]

/-- A text escapes nothing if it does not end with a backslash. -/
theorem not_escapesNext_of_getLast?
    {text : Text}
    (last : text.getLast? ≠ some '\\') :
    ¬EscapesNext text := by
  cases text using List.reverseRecOn with
  | nil => exact not_escapesNext_nil
  | append_singleton before char =>
      rw [escapesNext_concat_iff]
      rintro ⟨rfl, -⟩
      exact last List.getLast?_concat

end Text

namespace Css

/-! ## Comments and strings without an end -/

/-- A comment opens at an offset, and the text behind its opening does not close it. -/
def OpenComment (text : Text) (start : Nat) (inside : Text) : Prop :=
  ∃ before, text = before ++ '/' :: '*' :: inside ∧ Text.size before = start ∧
    ¬['*', '/'] <:+: inside

/-- A string opens at an offset, and every later one of its quotes is escaped. -/
def OpenString (text : Text) (quote : Char) (start : Nat) (inside : Text) : Prop :=
  ∃ before, text = before ++ quote :: inside ∧ Text.size before = start ∧
    (quote = '"' ∨ quote = '\'') ∧
    ∀ earlier later, inside = earlier ++ quote :: later → Text.EscapesNext earlier

section Open

variable {text inside : Text} {quote char : Char} {start : Nat}

theorem OpenComment.concat
    (opened : OpenComment text start inside)
    (goesOn : inside.getLast? = some '*' → char ≠ '/') :
    OpenComment (text ++ [char]) start (inside ++ [char]) := by
  obtain ⟨before, parts, size, noEnd⟩ := opened
  refine ⟨before, by rw [parts, List.append_assoc]; rfl, size, ?_⟩
  rw [List.infix_concat_iff]
  rintro (⟨earlier, closes⟩ | within)
  · have split : earlier ++ ['*'] ++ ['/'] = inside ++ [char] := by
      rw [← closes, List.append_assoc]
      rfl
    obtain ⟨same, slash⟩ := List.append_inj' split rfl
    refine goesOn ?_ (by simpa using slash.symm)
    rw [← same, List.getLast?_concat]
  · exact noEnd within

theorem OpenString.concat
    (opened : OpenString text quote start inside)
    (goesOn : char = quote → Text.EscapesNext inside) :
    OpenString (text ++ [char]) quote start (inside ++ [char]) := by
  obtain ⟨before, parts, size, isQuote, escaped⟩ := opened
  refine ⟨before, by rw [parts, List.append_assoc]; rfl, size, isQuote, ?_⟩
  intro earlier later found
  cases later using List.reverseRecOn with
  | nil =>
      obtain ⟨rfl, same⟩ := List.append_inj' found rfl
      exact goesOn (by simpa using same)
  | append_singleton more last =>
      rw [← List.cons_append, ← List.append_assoc] at found
      exact escaped earlier more (List.append_inj' found rfl).1

theorem OpenString.quote_ne_backslash
    (opened : OpenString text quote start inside) :
    quote ≠ '\\' := by
  obtain ⟨-, -, -, rfl | rfl, -⟩ := opened <;> decide

end Open

/-- What a reason says to be open at an offset is open up to the end of the text. -/
def Reason.IsOpen (reason : Reason) (text : Text) (start : Nat) : Prop :=
  match reason with
  | .unclosedComment => ∃ inside, OpenComment text start inside
  | .unclosedString => ∃ quote inside, OpenString text quote start inside
  | _ => False

/-- A text in front does not change what is open. -/
theorem Reason.IsOpen.append_left
    {reason : Reason}
    {text : Text}
    {start : Nat}
    (isOpen : reason.IsOpen text start)
    (first : Text) :
    reason.IsOpen (first ++ text) (Text.size first + start) := by
  cases reason with
  | unclosedComment =>
      obtain ⟨inside, before, rfl, rfl, noEnd⟩ := isOpen
      exact ⟨inside, first ++ before, by simp, by simp, noEnd⟩
  | unclosedString =>
      obtain ⟨quote, inside, before, rfl, rfl, isQuote, escaped⟩ := isOpen
      exact ⟨quote, inside, first ++ before, by simp, by simp, isQuote, escaped⟩
  | unclosedBlock => exact isOpen
  | unexpectedBrace => exact isOpen
  | blankStatement => exact isOpen

namespace StatementScan

/-- What a scan remembers is what stands in the text that it went over. -/
def Remembers (place : Nat → Nat) (scan : StatementScan) (read : Text) : Prop :=
  match scan.surrounding with
  | .plain => ¬Text.EscapesNext read
  | .afterSlash start => ∃ before, read = before ++ ['/'] ∧ place (Text.size before) = start
  | .afterBackslash => Text.EscapesNext read
  | .string quote start =>
      ∃ offset inside, OpenString read quote offset inside ∧ place offset = start ∧
        ¬Text.EscapesNext inside
  | .stringAfterBackslash quote start =>
      ∃ offset inside, OpenString read quote offset inside ∧ place offset = start ∧
        Text.EscapesNext inside
  | .comment start =>
      ∃ offset inside, OpenComment read offset inside ∧ place offset = start ∧
        inside.getLast? ≠ some '*'
  | .commentAfterStar start =>
      ∃ offset inside, OpenComment read offset inside ∧ place offset = start ∧
        inside.getLast? = some '*'

section Remembers

variable {place : Nat → Nat} {scan : StatementScan} {read : Text}

theorem remembers_initial : initial.Remembers place [] :=
  Text.not_escapesNext_nil

theorem remembers_plainStep
    (unescaped : ¬Text.EscapesNext read)
    (depth : Nat)
    (char : Char) :
    (plainStep depth (place (Text.size read)) char).Remembers place (read ++ [char]) := by
  unfold plainStep
  split
  · rename_i backslash
    exact Text.escapesNext_concat_iff.mpr ⟨backslash, unescaped⟩
  · rename_i noBackslash
    have further : ¬Text.EscapesNext (read ++ [char]) := fun escapes =>
      noBackslash (Text.escapesNext_concat_iff.mp escapes).1
    split
    · rename_i isQuote
      exact ⟨_, [], ⟨read, rfl, rfl, isQuote, by simp⟩, rfl, Text.not_escapesNext_nil⟩
    · split
      · rename_i slash
        exact ⟨read, by rw [slash], rfl⟩
      · split
        · exact further
        · split <;> exact further

/-- A step remembers what it went over. -/
theorem Remembers.step
    (remembers : scan.Remembers place read)
    (char : Char) :
    (scan.step (place (Text.size read)) char).Remembers place (read ++ [char]) := by
  obtain ⟨surrounding, depth⟩ := scan
  cases surrounding with
  | plain => exact remembers_plainStep remembers depth char
  | afterBackslash => exact fun escapes => (Text.escapesNext_concat_iff.mp escapes).2 remembers
  | afterSlash start =>
      obtain ⟨before, rfl, size⟩ := remembers
      by_cases star : char = '*'
      · subst star
        exact ⟨_, [], ⟨before, by simp, rfl, by simp⟩, size, by simp⟩
      · have unescaped : ¬Text.EscapesNext (before ++ ['/']) := by
          rw [Text.escapesNext_concat_iff]
          rintro ⟨⟨⟩, -⟩
        simp only [StatementScan.step, if_neg star]
        exact remembers_plainStep unescaped depth char
  | string quote start =>
      obtain ⟨offset, inside, opened, size, unescaped⟩ := remembers
      by_cases backslash : char = '\\'
      · have goesOn : char = quote → Text.EscapesNext inside := fun same =>
          absurd (same.symm.trans backslash) opened.quote_ne_backslash
        simp only [StatementScan.step, if_pos backslash]
        exact ⟨offset, _, opened.concat goesOn, size,
          Text.escapesNext_concat_iff.mpr ⟨backslash, unescaped⟩⟩
      · have further (text : Text) : ¬Text.EscapesNext (text ++ [char]) := fun escapes =>
          backslash (Text.escapesNext_concat_iff.mp escapes).1
        by_cases closes : char = quote
        · simp only [StatementScan.step, if_neg backslash, if_pos closes]
          exact further read
        · simp only [StatementScan.step, if_neg backslash, if_neg closes]
          exact ⟨offset, _, opened.concat fun same => absurd same closes, size, further inside⟩
  | stringAfterBackslash quote start =>
      obtain ⟨offset, inside, opened, size, escapes⟩ := remembers
      exact ⟨offset, _, opened.concat fun _ => escapes, size, fun again =>
        (Text.escapesNext_concat_iff.mp again).2 escapes⟩
  | comment start =>
      obtain ⟨offset, inside, opened, size, noStar⟩ := remembers
      have goesOn : OpenComment (read ++ [char]) offset (inside ++ [char]) :=
        opened.concat fun star => absurd star noStar
      by_cases star : char = '*'
      · simp only [StatementScan.step, if_pos star]
        exact ⟨offset, _, goesOn, size, by simp [star]⟩
      · simp only [StatementScan.step, if_neg star]
        exact ⟨offset, _, goesOn, size, by simp [star]⟩
  | commentAfterStar start =>
      obtain ⟨offset, inside, opened, size, afterStar⟩ := remembers
      by_cases slash : char = '/'
      · simp only [StatementScan.step, if_pos slash]
        intro escapes
        rw [slash] at escapes
        cases (Text.escapesNext_concat_iff.mp escapes).1
      · have goesOn := opened.concat fun _ => slash
        by_cases star : char = '*'
        · simp only [StatementScan.step, if_neg slash, if_pos star]
          exact ⟨offset, _, goesOn, size, by simp [star]⟩
        · simp only [StatementScan.step, if_neg slash, if_neg star]
          exact ⟨offset, _, goesOn, size, by simp [star]⟩

/-- A scan over a text remembers what it went over. -/
theorem Remembers.over
    {text : Text}
    {final : StatementScan}
    (remembers : scan.Remembers (fun _ => 0) read)
    (scanned : scan.over? text = some final) :
    final.Remembers (fun _ => 0) (read ++ text) := by
  induction text generalizing scan read with
  | nil =>
      cases scanned
      rwa [List.append_nil]
  | cons char rest ih =>
      rw [over?_cons] at scanned
      split at scanned
      · cases scanned
      · have further := ih (remembers.step char) scanned
        rwa [List.append_assoc, List.singleton_append] at further

/-- What is left open when the text ends stands in it. -/
theorem Remembers.isOpen
    {distance : Nat}
    {reason : Reason}
    {start : Nat}
    (remembers : scan.Remembers (fun offset => distance + offset) read)
    (left : scan.leftOpen? = some (reason, start)) :
    ∃ offset, reason.IsOpen read offset ∧ distance + offset = start := by
  obtain ⟨surrounding, depth⟩ := scan
  cases surrounding <;> cases left <;>
    obtain ⟨offset, inside, opened, size, -⟩ := remembers
  · exact ⟨offset, ⟨_, inside, opened⟩, size⟩
  · exact ⟨offset, ⟨_, inside, opened⟩, size⟩
  · exact ⟨offset, ⟨inside, opened⟩, size⟩
  · exact ⟨offset, ⟨inside, opened⟩, size⟩

end Remembers
end StatementScan

/-- A scan that fails does so at what its text leaves open. -/
theorem exists_isOpen_of_scanStatement
    {scan : StatementScan}
    {distance : Nat}
    {read text : Text}
    {reason : Reason}
    {start : Nat}
    (remembers : scan.Remembers (fun offset => distance + offset) read)
    (failed : scanStatement scan (distance + Text.size read) text = .error (reason, start)) :
    ∃ offset, reason.IsOpen (read ++ text) offset ∧ distance + offset = start := by
  induction text generalizing scan read with
  | nil =>
      rw [scanStatement] at failed
      split at failed
      · rename_i unclosed left
        cases failed
        rw [List.append_nil]
        exact remembers.isOpen left
      · cases failed
  | cons char rest ih =>
      rw [scanStatement] at failed
      split at failed
      · cases failed
      · split at failed
        · cases failed
        · rename_i failedRest
          cases failed
          have further := ih (remembers.step char)
          rw [Text.size_append, List.append_assoc, ← Nat.add_assoc] at further
          exact further failedRest

end Css
end ComponentPipeline
