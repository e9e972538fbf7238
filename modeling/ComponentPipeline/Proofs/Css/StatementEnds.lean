import ComponentPipeline.Css.Statement
import ComponentPipeline.Text.Blank

/-!
# Where a statement ends

The offsets that a scan remembers count for its errors alone.  Without them a
scan is a function of the text that it goes over: the statement ends inside
that text, or the scan is left in a state that tells what may end it there.
-/

namespace ComponentPipeline
namespace Css

/-- What surrounds a character, with another offset at which it started. -/
def Surrounding.placed (place : Nat → Nat) : Surrounding → Surrounding
  | .plain => .plain
  | .afterSlash start => .afterSlash (place start)
  | .afterBackslash => .afterBackslash
  | .string quote start => .string quote (place start)
  | .stringAfterBackslash quote start => .stringAfterBackslash quote (place start)
  | .comment start => .comment (place start)
  | .commentAfterStar start => .commentAfterStar (place start)

/-- What surrounds a character, without the offset at which it started. -/
def Surrounding.unplaced : Surrounding → Surrounding
  | .plain => .plain
  | .afterSlash _ => .afterSlash 0
  | .afterBackslash => .afterBackslash
  | .string quote _ => .string quote 0
  | .stringAfterBackslash quote _ => .stringAfterBackslash quote 0
  | .comment _ => .comment 0
  | .commentAfterStar _ => .commentAfterStar 0

namespace StatementScan

/-- A state with other offsets. -/
def placed (place : Nat → Nat) (scan : StatementScan) : StatementScan :=
  ⟨scan.surrounding.placed place, scan.depth⟩

/-- A state without offsets. -/
def unplaced (scan : StatementScan) : StatementScan :=
  ⟨scan.surrounding.unplaced, scan.depth⟩

section Placed

variable (place : Nat → Nat) (scan : StatementScan)

@[simp] theorem isPlain_placed : (scan.placed place).isPlain = scan.isPlain := by
  obtain ⟨surrounding, depth⟩ := scan
  cases surrounding <;> rfl

@[simp] theorem endsAt_placed (char : Char) :
    (scan.placed place).endsAt char = scan.endsAt char := by
  rw [endsAt, endsAt, isPlain_placed]
  rfl

theorem leftOpen?_placed :
    (scan.placed place).leftOpen? =
      scan.leftOpen?.map fun (reason, start) => (reason, place start) := by
  obtain ⟨surrounding, depth⟩ := scan
  cases surrounding <;> rfl

theorem placed_plainStep (depth offset : Nat) (char : Char) :
    (plainStep depth offset char).placed place = plainStep depth (place offset) char := by
  unfold plainStep
  repeat' split
  all_goals rfl

theorem placed_step (offset : Nat) (char : Char) :
    (scan.step offset char).placed place = (scan.placed place).step (place offset) char := by
  obtain ⟨surrounding, depth⟩ := scan
  cases surrounding with
  | plain => exact placed_plainStep place depth offset char
  | afterSlash start =>
      by_cases star : char = '*'
      · simp [step, placed, Surrounding.placed, star]
      · have plain := placed_plainStep place depth offset char
        simpa [step, Surrounding.placed, placed, star] using plain
  | afterBackslash => rfl
  | string quote start =>
      by_cases backslash : char = '\\'
      · simp [step, placed, Surrounding.placed, backslash]
      · by_cases closes : char = quote
        · simp only [step, placed, Surrounding.placed, if_neg backslash, if_pos closes]
        · simp only [step, placed, Surrounding.placed, if_neg backslash, if_neg closes]
  | stringAfterBackslash quote start => rfl
  | comment start =>
      by_cases star : char = '*' <;> simp [step, placed, Surrounding.placed, star]
  | commentAfterStar start =>
      by_cases slash : char = '/'
      · simp [step, placed, Surrounding.placed, slash]
      · by_cases star : char = '*' <;>
          simp [step, placed, Surrounding.placed, slash, star]

theorem unplaced_eq_placed : scan.unplaced = scan.placed fun _ => 0 := by
  obtain ⟨surrounding, depth⟩ := scan
  cases surrounding <;> rfl

end Placed

@[simp] theorem endsAt_unplaced (scan : StatementScan) (char : Char) :
    scan.unplaced.endsAt char = scan.endsAt char := by
  rw [unplaced_eq_placed, endsAt_placed]

theorem leftOpen?_unplaced_eq_none_iff {scan : StatementScan} :
    scan.unplaced.leftOpen? = none ↔ scan.leftOpen? = none := by
  rw [unplaced_eq_placed, leftOpen?_placed, Option.map_eq_none_iff]

theorem unplaced_step (scan : StatementScan) (offset : Nat) (char : Char) :
    (scan.step offset char).unplaced = scan.unplaced.step 0 char := by
  rw [unplaced_eq_placed, unplaced_eq_placed, placed_step]

/-- The state after a text in which the statement does not end. -/
def over? (scan : StatementScan) : Text → Option StatementScan
  | [] => some scan
  | char :: rest => if scan.endsAt char then none else (scan.step 0 char).over? rest

theorem over?_cons (scan : StatementScan) (char : Char) (rest : Text) :
    scan.over? (char :: rest) =
      if scan.endsAt char then none else (scan.step 0 char).over? rest := rfl

theorem over?_append (scan : StatementScan) (first second : Text) :
    scan.over? (first ++ second) =
      (scan.over? first).bind fun next => next.over? second := by
  induction first generalizing scan with
  | nil => rfl
  | cons char rest ih =>
      rw [List.cons_append, over?_cons, over?_cons]
      split
      · rfl
      · exact ih (scan.step 0 char)

/-- A character that a scan outside of everything passes over. -/
def Neutral (char : Char) : Prop :=
  initial.endsAt char = false ∧ initial.step 0 char = initial

theorem over?_of_neutral
    {text : Text}
    (neutral : ∀ char ∈ text, Neutral char) :
    initial.over? text = some initial := by
  induction text with
  | nil => rfl
  | cons char rest ih =>
      obtain ⟨goesOn, stays⟩ := neutral char List.mem_cons_self
      rw [over?_cons, goesOn, if_neg Bool.false_ne_true, stays]
      exact ih fun other member => neutral other (List.mem_cons_of_mem _ member)

theorem neutral_of_isBlank
    {char : Char}
    (blank : Text.isBlank char = true) :
    Neutral char := by
  have differs (other : Char) (notBlank : Text.isBlank other = false) : char ≠ other := by
    rintro rfl
    rw [notBlank] at blank
    cases blank
  constructor
  · simp [endsAt, isPlain, initial, differs '{' (by decide), differs '}' (by decide),
      differs ';' (by decide)]
  · simp [step, initial, plainStep, differs '\\' (by decide), differs '"' (by decide),
      differs '\'' (by decide), differs '/' (by decide), differs '(' (by decide),
      differs '[' (by decide), differs ')' (by decide), differs ']' (by decide)]

theorem over?_of_isBlankText
    {text : Text}
    (blank : Text.isBlankText text = true) :
    initial.over? text = some initial :=
  over?_of_neutral fun _ member => neutral_of_isBlank (List.all_eq_true.mp blank _ member)

/-- The statement may end before a character, or at the end of the text. -/
def StopsAt (scan : StatementScan) : Option Char → Prop
  | none => scan.leftOpen? = none
  | some char => scan.endsAt char = true

/-- A scan goes over a text and stops before the next character. -/
def Takes (scan : StatementScan) (raw : Text) (next : Option Char) : Prop :=
  ∃ final, scan.over? raw = some final ∧ final.StopsAt next

theorem takes_nil_iff {scan : StatementScan} {next : Option Char} :
    scan.Takes [] next ↔ scan.StopsAt next := by
  constructor
  · rintro ⟨final, ⟨⟩, stops⟩
    exact stops
  · exact fun stops => ⟨scan, rfl, stops⟩

theorem takes_cons_iff
    {scan : StatementScan}
    {char : Char}
    {rest : Text}
    {next : Option Char} :
    scan.Takes (char :: rest) next ↔
      scan.endsAt char = false ∧ (scan.step 0 char).Takes rest next := by
  unfold Takes
  rw [over?_cons]
  cases scan.endsAt char <;> simp

theorem stopsAt_unplaced_iff {scan : StatementScan} {next : Option Char} :
    scan.unplaced.StopsAt next ↔ scan.StopsAt next := by
  cases next with
  | none => exact leftOpen?_unplaced_eq_none_iff
  | some char => rw [StopsAt, StopsAt, endsAt_unplaced]

/-- What may end a statement. -/
theorem Takes.ends
    {scan : StatementScan}
    {raw : Text}
    {next : Option Char}
    (takes : scan.Takes raw next) :
    ∀ char ∈ next, char = '{' ∨ char = ';' ∨ char = '}' := by
  rintro char ⟨⟩
  obtain ⟨final, -, stops⟩ := takes
  have stops : final.endsAt char = true := stops
  simp only [endsAt, Bool.and_eq_true, Bool.or_eq_true, beq_iff_eq] at stops
  obtain ⟨-, rfl | ⟨-, rfl | rfl⟩⟩ := stops <;> simp

end StatementScan

section Scanned

open StatementScan

variable {scan : StatementScan} {offset : Nat}

theorem takes_of_scanStatement
    {text raw tail : Text}
    (scanned : scanStatement scan offset text = .ok (raw, tail)) :
    scan.unplaced.Takes raw tail.head? := by
  induction text generalizing scan offset raw with
  | nil =>
      rw [scanStatement] at scanned
      split at scanned
      · cases scanned
      · rename_i closed
        cases scanned
        exact takes_nil_iff.mpr (stopsAt_unplaced_iff.mpr closed)
  | cons char rest ih =>
      rw [scanStatement] at scanned
      split at scanned
      · rename_i ends
        cases scanned
        exact takes_nil_iff.mpr (stopsAt_unplaced_iff.mpr ends)
      · rename_i goesOn
        split at scanned
        · rename_i scannedRest
          cases scanned
          refine takes_cons_iff.mpr ⟨?_, ?_⟩
          · rw [endsAt_unplaced]
            exact Bool.eq_false_iff.mpr goesOn
          · rw [← unplaced_step scan offset]
            exact ih scannedRest
        · cases scanned

theorem scanStatement_of_takes
    {raw tail : Text}
    (takes : scan.unplaced.Takes raw tail.head?) :
    scanStatement scan offset (raw ++ tail) = .ok (raw, tail) := by
  induction raw generalizing scan offset with
  | nil =>
      have stops := stopsAt_unplaced_iff.mp (takes_nil_iff.mp takes)
      cases tail with
      | nil =>
          have closed : scan.leftOpen? = none := stops
          rw [List.append_nil, scanStatement, closed]
      | cons char rest =>
          have ends : scan.endsAt char = true := stops
          rw [List.nil_append, scanStatement, if_pos ends]
  | cons char rest ih =>
      obtain ⟨goesOn, takesRest⟩ := takes_cons_iff.mp takes
      rw [endsAt_unplaced] at goesOn
      rw [← unplaced_step scan offset] at takesRest
      rw [List.cons_append, scanStatement, if_neg (Bool.eq_false_iff.mp goesOn), ih takesRest]

/-- A scan succeeds with the text that it takes, wherever that starts. -/
theorem scanStatement_eq_ok_iff {text raw tail : Text} :
    scanStatement scan offset text = .ok (raw, tail) ↔
      text = raw ++ tail ∧ scan.unplaced.Takes raw tail.head? := by
  constructor
  · exact fun scanned => ⟨eq_append_of_scanStatement scanned, takes_of_scanStatement scanned⟩
  · rintro ⟨rfl, takes⟩
    exact scanStatement_of_takes takes

end Scanned

end Css
end ComponentPipeline
