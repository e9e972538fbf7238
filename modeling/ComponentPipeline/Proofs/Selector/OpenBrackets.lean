import ComponentPipeline.Proofs.Selector.NestedMarkers
import Mathlib.Data.List.Induction

/-!
# Open parentheses and brackets

How many parentheses and brackets are open behind a text is said by the shape of
the text alone: it is made of strings, of characters behind a backslash, of
brackets and of other characters.  A closing bracket closes one if any is open.  A
scan for markers that stands outside strings behind a text counts just these, so
where a bare marker stands is said without a scan.
-/

namespace ComponentPipeline
namespace Selector

/-- The inside of a string; its quote stands there only behind a backslash. -/
inductive StringBody (quote : Char) : Text → Prop
  | nil : StringBody quote []
  | ordinary {char rest}
      (isOrdinary : char ∉ [quote, '\\'])
      (others : StringBody quote rest) :
      StringBody quote (char :: rest)
  | escaped {char rest}
      (others : StringBody quote rest) :
      StringBody quote ('\\' :: char :: rest)

/-- A text of whole strings and escapes, before which and behind which so many
parentheses and brackets are open. -/
inductive Brackets : Nat → Text → Nat → Prop
  | nil {depth} : Brackets depth [] depth
  | ordinary {depth last char rest}
      (isOrdinary : char ∉ ['\\', '"', '\'', '(', '[', ')', ']'])
      (others : Brackets depth rest last) :
      Brackets depth (char :: rest) last
  | escaped {depth last char rest}
      (others : Brackets depth rest last) :
      Brackets depth ('\\' :: char :: rest) last
  | string {depth last quote body rest}
      (isQuote : quote ∈ ['"', '\''])
      (inside : StringBody quote body)
      (others : Brackets depth rest last) :
      Brackets depth (quote :: (body ++ quote :: rest)) last
  | opening {depth last char rest}
      (opens : char ∈ ['(', '['])
      (others : Brackets (depth + 1) rest last) :
      Brackets depth (char :: rest) last
  | closing {depth last char rest}
      (closes : char ∈ [')', ']'])
      (others : Brackets (depth - 1) rest last) :
      Brackets depth (char :: rest) last

/-- Every character is of one of the kinds that these texts are made of. -/
theorem bracket_kinds (char : Char) :
    char ∉ ['\\', '"', '\'', '(', '[', ')', ']'] ∨ char = '\\' ∨ char ∈ ['"', '\''] ∨
      char ∈ ['(', '['] ∨ char ∈ [')', ']'] := by
  grind

namespace MarkerScan

/-! ## Strings -/

/-- The inside of a string leaves the string open. -/
theorem exists_over_of_stringBody
    {quote : Char}
    {body : Text}
    (inside : StringBody quote body)
    (depth : Nat)
    (colon : Bool) :
    ∃ later, MarkerScan.over ⟨depth, some quote, false, colon⟩ body =
      ⟨depth, some quote, false, later⟩ := by
  induction inside generalizing colon with
  | nil => exact ⟨colon, rfl⟩
  | @ordinary char rest isOrdinary _ ih =>
      simp only [List.mem_cons, List.not_mem_nil, or_false, not_or] at isOrdinary
      have stays : step ⟨depth, some quote, false, colon⟩ char =
          ⟨depth, some quote, false, char == ':'⟩ := by
        simp [step, isOrdinary]
      rw [over_cons, stays]
      exact ih _
  | @escaped char rest _ ih => exact ih (char == ':')

/-- A scan that comes out of a string has gone over its inside and its quote. -/
theorem exists_stringBody_of_over
    {quote : Char}
    (noBackslash : quote ≠ '\\')
    {depth : Nat}
    {colon : Bool}
    {text : Text}
    (comesOut : (MarkerScan.over ⟨depth, some quote, false, colon⟩ text).quoting = .outside) :
    ∃ body rest later, text = body ++ quote :: rest ∧ StringBody quote body ∧
      MarkerScan.over ⟨depth, some quote, false, colon⟩ text =
        MarkerScan.over ⟨depth, none, false, later⟩ rest := by
  -- The recursion is on the length of the text, as an escape takes two characters.
  match text with
  | [] => cases comesOut
  | char :: rest =>
      by_cases backslash : char = '\\'
      · subst backslash
        cases rest with
        | nil => cases comesOut
        | cons second rest =>
            have further :
                (MarkerScan.over ⟨depth, some quote, false, second == ':'⟩ rest).quoting =
                  .outside := comesOut
            obtain ⟨body, tail, later, rfl, inside, same⟩ :=
              exists_stringBody_of_over noBackslash further
            exact ⟨'\\' :: second :: body, tail, later, rfl, .escaped inside, same⟩
      · by_cases closes : char = quote
        · subst closes
          have closed : step ⟨depth, some char, false, colon⟩ char =
              ⟨depth, none, false, char == ':'⟩ := by
            simp [step, noBackslash]
          exact ⟨[], rest, char == ':', rfl, .nil, by rw [over_cons, closed]⟩
        · have stays : step ⟨depth, some quote, false, colon⟩ char =
              ⟨depth, some quote, false, char == ':'⟩ := by
            simp [step, backslash, closes]
          rw [over_cons, stays] at comesOut ⊢
          obtain ⟨body, tail, later, rfl, inside, same⟩ :=
            exists_stringBody_of_over noBackslash comesOut
          exact ⟨char :: body, tail, later, rfl, .ordinary (by simp [closes, backslash]) inside,
            same⟩
termination_by text.length

/-! ## The depth that a scan counts -/

theorem step_of_ordinary
    {char : Char}
    (isOrdinary : char ∉ ['\\', '"', '\'', '(', '[', ')', ']'])
    (depth : Nat)
    (colon : Bool) :
    step ⟨depth, none, false, colon⟩ char = ⟨depth, none, false, char == ':'⟩ := by
  simp only [List.mem_cons, List.not_mem_nil, or_false, not_or] at isOrdinary
  simp [step, isOrdinary]

theorem step_of_quote
    {quote : Char}
    (isQuote : quote ∈ ['"', '\''])
    (depth : Nat)
    (colon : Bool) :
    step ⟨depth, none, false, colon⟩ quote = ⟨depth, some quote, false, false⟩ := by
  simp only [List.mem_cons, List.not_mem_nil, or_false] at isQuote
  rcases isQuote with rfl | rfl <;> rfl

theorem step_of_opening
    {char : Char}
    (opens : char ∈ ['(', '['])
    (depth : Nat)
    (colon : Bool) :
    step ⟨depth, none, false, colon⟩ char = ⟨depth + 1, none, false, false⟩ := by
  simp only [List.mem_cons, List.not_mem_nil, or_false] at opens
  rcases opens with rfl | rfl <;> rfl

theorem step_of_closing
    {char : Char}
    (closes : char ∈ [')', ']'])
    (depth : Nat)
    (colon : Bool) :
    step ⟨depth, none, false, colon⟩ char = ⟨depth - 1, none, false, false⟩ := by
  simp only [List.mem_cons, List.not_mem_nil, or_false] at closes
  rcases closes with rfl | rfl <;> rfl

theorem exists_over_of_brackets
    {depth last : Nat}
    {text : Text}
    (brackets : Brackets depth text last)
    (colon : Bool) :
    ∃ later, MarkerScan.over ⟨depth, none, false, colon⟩ text = ⟨last, none, false, later⟩ := by
  induction brackets generalizing colon with
  | nil => exact ⟨colon, rfl⟩
  | ordinary isOrdinary _ ih =>
      rw [over_cons, step_of_ordinary isOrdinary]
      exact ih _
  | @escaped depth last char rest _ ih => exact ih (char == ':')
  | @string depth last quote body rest isQuote inside _ ih =>
      obtain ⟨later, stillOpen⟩ := exists_over_of_stringBody inside depth false
      have closed : step ⟨depth, some quote, false, later⟩ quote =
          ⟨depth, none, false, quote == ':'⟩ := by
        simp only [List.mem_cons, List.not_mem_nil, or_false] at isQuote
        rcases isQuote with rfl | rfl <;> rfl
      rw [over_cons, step_of_quote isQuote, over_append, stillOpen, over_cons, closed]
      exact ih _
  | opening opens _ ih =>
      rw [over_cons, step_of_opening opens]
      exact ih _
  | closing closes _ ih =>
      rw [over_cons, step_of_closing closes]
      exact ih _

theorem brackets_of_over
    {depth last : Nat}
    {colon : Bool}
    {text : Text}
    (outside : (MarkerScan.over ⟨depth, none, false, colon⟩ text).quoting = .outside)
    (reached : (MarkerScan.over ⟨depth, none, false, colon⟩ text).depth = last) :
    Brackets depth text last := by
  -- The recursion is on the length of the text, as a string is passed over as a whole.
  match text with
  | [] =>
      cases reached
      exact .nil
  | char :: rest =>
      rcases bracket_kinds char with isOrdinary | rfl | isQuote | opens | closes
      · rw [over_cons, step_of_ordinary isOrdinary] at outside reached
        exact .ordinary isOrdinary (brackets_of_over outside reached)
      · cases rest with
        | nil => cases outside
        | cons second rest =>
            have outsideBehind :
                (MarkerScan.over ⟨depth, none, false, second == ':'⟩ rest).quoting =
                  .outside := outside
            exact .escaped (brackets_of_over outsideBehind reached)
      · have noBackslash : char ≠ '\\' := by
          rintro rfl
          simp at isQuote
        rw [over_cons, step_of_quote isQuote] at outside reached
        obtain ⟨body, tail, later, rfl, inside, same⟩ :=
          exists_stringBody_of_over noBackslash outside
        rw [same] at outside reached
        exact .string isQuote inside (brackets_of_over outside reached)
      · rw [over_cons, step_of_opening opens] at outside reached
        exact .opening opens (brackets_of_over outside reached)
      · rw [over_cons, step_of_closing closes] at outside reached
        exact .closing closes (brackets_of_over outside reached)
termination_by text.length

/-- A scan stands outside strings at some depth behind just the texts of whole strings
and escapes that lead to this depth. -/
theorem brackets_iff {depth last : Nat} {text : Text} :
    Brackets depth text last ↔
      (MarkerScan.over ⟨depth, none, false, false⟩ text).quoting = .outside ∧
        (MarkerScan.over ⟨depth, none, false, false⟩ text).depth = last := by
  constructor
  · intro brackets
    obtain ⟨later, reached⟩ := exists_over_of_brackets brackets false
    rw [reached]
    exact ⟨rfl, rfl⟩
  · rintro ⟨outside, reached⟩
    exact brackets_of_over outside reached

/-- A colon stands before the next character exactly if the text ends with one. -/
theorem afterColon_over (text : Text) :
    (initial.over text).afterColon = true ↔ text.getLast? = some ':' := by
  induction text using List.reverseRecOn with
  | nil => exact iff_of_false Bool.false_ne_true (Option.some_ne_none _).symm
  | append_singleton before char _ =>
      rw [over_append, over_cons, over_nil, afterColon_step, List.getLast?_concat, beq_iff_eq,
        Option.some.injEq]

end MarkerScan

/-! ## Where a bare marker stands -/

/-- A bare marker at a place where so many parentheses and brackets are open: outside
strings and not behind a backslash, not behind a colon, and not followed by what goes on
with its name. -/
def BareMarkerAt (depth : Nat) (selector : Text) : Prop :=
  ∃ before after, selector = before ++ marker ++ after ∧ Brackets 0 before depth ∧
    before.getLast? ≠ some ':' ∧ EndsMarker after

theorem hasMarkerWhere_depth_iff (required : Nat → Prop) {selector : Text} :
    HasMarkerWhere (fun scan => required scan.depth) .initial selector ↔
      ∃ depth, required depth ∧ BareMarkerAt depth selector := by
  constructor
  · rintro ⟨before, after, parts, may, ends, meets⟩
    obtain ⟨outside, noColon⟩ := MarkerScan.mayMark_eq_true_iff.mp may
    refine ⟨_, meets, before, after, parts, MarkerScan.brackets_iff.mpr ⟨outside, rfl⟩, ?_, ends⟩
    rw [ne_eq, ← MarkerScan.afterColon_over, noColon]
    exact Bool.false_ne_true
  · rintro ⟨depth, meets, before, after, parts, brackets, noColon, ends⟩
    obtain ⟨outside, rfl⟩ := MarkerScan.brackets_iff.mp brackets
    rw [ne_eq, ← MarkerScan.afterColon_over, Bool.not_eq_true] at noColon
    exact ⟨before, after, parts, MarkerScan.mayMark_eq_true_iff.mpr ⟨outside, noColon⟩, ends, meets⟩

/-- A selector has a marker exactly if a bare one stands at some depth. -/
theorem hasMarker_iff_bareMarkerAt {selector : Text} :
    HasMarker selector ↔ ∃ depth, BareMarkerAt depth selector := by
  have anywhere : HasMarkerWhere (fun _ => True) .initial selector ↔
      ∃ depth, True ∧ BareMarkerAt depth selector := hasMarkerWhere_depth_iff fun _ => True
  simpa only [HasMarker, hasMarkerWhere_true_iff, true_and] using anywhere

/-- A selector has a nested marker exactly if a bare one stands at a depth greater than
zero. -/
theorem hasNestedMarker_iff_bareMarkerAt {selector : Text} :
    HasNestedMarker selector ↔ ∃ depth, 0 < depth ∧ BareMarkerAt depth selector :=
  hasMarkerWhere_depth_iff fun depth => 0 < depth

end Selector
end ComponentPipeline
