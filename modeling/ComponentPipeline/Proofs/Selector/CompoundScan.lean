import ComponentPipeline.Selector.Globalize

/-!
# Where a compound ends

A compound goes on as long as no character ends it, and whether one does is a
matter of the state of the scan: no escape and no open parenthesis or bracket.
Parentheses that close nothing are passed over, so a scan that has one more of
them open either keeps it or loses it at such a place; it never ends a compound
earlier.
-/

namespace ComponentPipeline
namespace Selector
namespace CompoundScan

/-- The state after a text, unless one of its characters ends the compound. -/
def over? (scan : CompoundScan) : Text → Option CompoundScan
  | [] => some scan
  | char :: rest => if scan.endsAt char then none else (scan.step char).over? rest

@[simp] theorem over?_nil (scan : CompoundScan) : scan.over? [] = some scan := rfl

theorem over?_cons (scan : CompoundScan) (char : Char) (rest : Text) :
    scan.over? (char :: rest) =
      if scan.endsAt char then none else (scan.step char).over? rest := rfl

theorem over?_append (scan : CompoundScan) (first second : Text) :
    scan.over? (first ++ second) = (scan.over? first).bind fun final => final.over? second := by
  induction first generalizing scan with
  | nil => rfl
  | cons char rest ih =>
      rw [List.cons_append, over?_cons, over?_cons]
      split
      · rfl
      · exact ih (scan.step char)

/-- A compound ends outside of parentheses and escapes. -/
theorem eq_initial_of_endsAt
    {scan : CompoundScan}
    {char : Char}
    (ends : scan.endsAt char = true) :
    scan = initial ∧ endsCompound char = true := by
  obtain ⟨depth, escaped⟩ := scan
  simp only [endsAt, Bool.and_eq_true, Bool.not_eq_true', beq_iff_eq] at ends
  obtain ⟨⟨rfl, rfl⟩, endsHere⟩ := ends
  exact ⟨rfl, endsHere⟩

/-! ## One parenthesis more -/

/-- A state with one more parenthesis open, unless it has been closed. -/
structure DeeperThan (deeper scan : CompoundScan) : Prop where
  /-- Escapes do not depend on parentheses. -/
  escaped : deeper.escaped = scan.escaped
  /-- The parenthesis is open or closed. -/
  depth : deeper.depth = scan.depth ∨ deeper.depth = scan.depth + 1

section Deeper

variable {deeper scan : CompoundScan}

theorem DeeperThan.endsAt
    (isDeeper : deeper.DeeperThan scan)
    {char : Char}
    (goesOn : scan.endsAt char = false) :
    deeper.endsAt char = false := by
  rw [Bool.eq_false_iff] at goesOn ⊢
  intro ends
  obtain ⟨rfl, endsHere⟩ := eq_initial_of_endsAt ends
  have atTop : scan = initial := by
    obtain ⟨depth, escaped⟩ := scan
    obtain ⟨rfl, depths⟩ := isDeeper
    simp only [initial] at depths
    have top : depth = 0 := by omega
    rw [top]
    rfl
  rw [atTop] at goesOn
  exact goesOn ends

theorem DeeperThan.step
    (isDeeper : deeper.DeeperThan scan)
    (char : Char) :
    (deeper.step char).DeeperThan (scan.step char) := by
  obtain ⟨depth, escaped⟩ := scan
  obtain ⟨depth', escaped'⟩ := deeper
  obtain ⟨same, depths⟩ := isDeeper
  simp only at same depths
  subst same
  unfold CompoundScan.step
  dsimp only
  repeat' split
  all_goals exact ⟨rfl, by dsimp only; omega⟩

/-- A text that lies in a compound does so with one more parenthesis open. -/
theorem DeeperThan.over?
    (isDeeper : deeper.DeeperThan scan)
    {text : Text}
    {final : CompoundScan}
    (taken : scan.over? text = some final) :
    ∃ deeperFinal, deeper.over? text = some deeperFinal ∧ deeperFinal.DeeperThan final := by
  induction text generalizing deeper scan with
  | nil =>
      cases taken
      exact ⟨deeper, rfl, isDeeper⟩
  | cons char rest ih =>
      rw [over?_cons] at taken
      split at taken
      · cases taken
      · rename_i goesOn
        rw [over?_cons, isDeeper.endsAt (Bool.eq_false_iff.mpr goesOn),
          if_neg Bool.false_ne_true]
        exact ih (isDeeper.step char) taken

end Deeper

/-- A text that lies in a compound does so in the parentheses of a marker, and the
compound may end behind them if it may end behind the text. -/
theorem over?_parenthesized
    {text : Text}
    {final : CompoundScan}
    (taken : initial.over? text = some final) :
    ∃ closed, initial.over? (marker ++ '(' :: (text ++ [')'])) = some closed ∧
      (final = initial → closed = initial) := by
  have opened : initial.over? (marker ++ ['(']) = some ⟨1, false⟩ := by decide
  have isDeeper : DeeperThan ⟨1, false⟩ initial := ⟨rfl, .inr rfl⟩
  obtain ⟨inside, takenInside, insideDeeper⟩ := isDeeper.over? taken
  have goesOn : inside.endsAt ')' = false := by
    rw [Bool.eq_false_iff]
    intro ends
    exact absurd (eq_initial_of_endsAt ends).2 (by decide)
  have parts : marker ++ '(' :: (text ++ [')']) = marker ++ ['('] ++ (text ++ [')']) := by
    simp
  refine ⟨inside.step ')', ?_, ?_⟩
  · rw [parts, over?_append, opened, Option.bind_some, over?_append, takenInside,
      Option.bind_some, over?_cons, goesOn, if_neg Bool.false_ne_true, over?_nil]
  · rintro rfl
    obtain ⟨depth, escaped⟩ := inside
    obtain ⟨rfl, depths⟩ := insideDeeper
    simp only [initial] at depths
    rcases depths with rfl | rfl <;> rfl

end CompoundScan

/-! ## Cutting off a compound -/

/-- What lies in a compound is cut off with it. -/
theorem cutCompound_of_over?
    {scan final : CompoundScan}
    {text : Text}
    (taken : scan.over? text = some final)
    (rest : Text) :
    cutCompound scan (text ++ rest) =
      (text ++ (cutCompound final rest).1, (cutCompound final rest).2) := by
  induction text generalizing scan with
  | nil =>
      cases taken
      rfl
  | cons char others ih =>
      rw [CompoundScan.over?_cons] at taken
      split at taken
      · cases taken
      · rename_i goesOn
        rw [List.cons_append, cutCompound, if_neg goesOn, ih taken]
        rfl

/-- What is cut off lies in the compound, and the character behind it ends the
compound. -/
theorem exists_over?_cutCompound (scan : CompoundScan) (text : Text) :
    ∃ final, scan.over? (cutCompound scan text).1 = some final ∧
      ∀ char, (cutCompound scan text).2.head? = some char → final.endsAt char = true := by
  induction text generalizing scan with
  | nil => exact ⟨scan, rfl, fun _ none => nomatch none⟩
  | cons char rest ih =>
      rw [cutCompound]
      split
      · rename_i ends
        refine ⟨scan, rfl, ?_⟩
        rintro other ⟨⟩
        exact ends
      · rename_i goesOn
        obtain ⟨final, taken, ends⟩ := ih (scan.step char)
        refine ⟨final, ?_, ends⟩
        rw [CompoundScan.over?_cons, if_neg goesOn]
        exact taken

end Selector
end ComponentPipeline
