import ComponentPipeline.Proofs.Selector.WrappedMarkers
import ComponentPipeline.Proofs.Text.Bytes
import ComponentPipeline.Proofs.Text.Slices
import Mathlib.Data.List.Induction

/-!
# Splitting byte by byte

A selector may be split in one loop over the numbers of its bytes.  At a backslash
the loop passes two bytes, and at a marker it passes the whole marker; every other
byte is passed by itself.  It slices the selector where a marker may start, and
where a segment starts and ends, which must be where characters meet.

A scan of the characters tells where the loop stands: behind the characters that
were gone over, or one byte further if the next character is escaped.  The bytes
that such a character has left are passed like those of any character beyond ASCII,
so the loop stands behind a whole character again.
-/

namespace ComponentPipeline
namespace Selector

/-- What splitting answers: what is wrong with a marker, or the segments; none if there
is no marker. -/
def Marked.answer : Marked → Except Text (Option (List Text))
  | .nested => .error nestedMarkerReason
  | .segments _ [] => .ok none
  | .segments beginning (segment :: rest) => .ok (some (beginning :: segment :: rest))

/-! ## The loop -/

/-- The state of the loop. -/
structure ByteScan where
  /-- The number of the byte that comes next. -/
  index : Nat
  /-- The number of the byte at which the segment starts that is gone over. -/
  segmentStart : Nat
  /-- Number of open parentheses and brackets. -/
  depth : Nat
  /-- The quote of the string that is open. -/
  quote : Option Char
  /-- The segments that have ended. -/
  segments : List Text
  deriving DecidableEq, Repr

/-- What the loop comes to at a byte. -/
inductive ByteStep
  /-- It goes on. -/
  | next (scan : ByteScan)
  /-- It ends with an answer. -/
  | finished (answer : Except Text (Option (List Text)))

/-- Whether a bare marker starts at a byte; nothing if the selector cannot be sliced
there. -/
def marksAt? (selector : Text) (index : Nat) : Option Bool :=
  (Text.slice? index (Text.size selector) selector).map fun rest =>
    (afterMarker? rest).isSome &&
      !(decide (0 < index) && Text.byteAt? (index - 1) selector == some ':')

namespace ByteScan

/-- The state at the start of a selector. -/
def initial : ByteScan := ⟨0, 0, 0, none, []⟩

/-- The state behind a byte that starts no marker; a backslash is passed together with
the byte behind it. -/
def pass (scan : ByteScan) (byte : Char) : ByteScan :=
  let next := { scan with index := scan.index + 1 }
  if byte = '\\' then { next with index := next.index + 1 }
  else
    match scan.quote with
    | some quote => if byte = quote then { next with quote := none } else next
    | none =>
        if byte = '"' ∨ byte = '\'' then { next with quote := some byte }
        else if byte = '(' ∨ byte = '[' then { next with depth := scan.depth + 1 }
        else if byte = ')' ∨ byte = ']' then { next with depth := scan.depth - 1 }
        else next

/-- A marker ends the segment before it, unless it is nested. -/
def stepMarker (scan : ByteScan) (selector : Text) : Option ByteStep :=
  if 0 < scan.depth then some (.finished (.error nestedMarkerReason))
  else
    (Text.slice? scan.segmentStart scan.index selector).map fun segment =>
      .next { scan with
        index := scan.index + Text.size marker
        segmentStart := scan.index + Text.size marker
        segments := scan.segments ++ [segment] }

/-- Behind the last byte, the last segment ends if there are others. -/
def finish (scan : ByteScan) (selector : Text) : Option ByteStep :=
  if scan.segments = [] then some (.finished (.ok none))
  else
    (Text.slice? scan.segmentStart (Text.size selector) selector).map fun segment =>
      .finished (.ok (some (scan.segments ++ [segment])))

/-- What the loop does at the byte that comes next; nothing if it slices the selector
where no characters meet. -/
def step (scan : ByteScan) (selector : Text) : Option ByteStep :=
  match Text.byteAt? scan.index selector with
  | none => scan.finish selector
  | some byte =>
      if scan.quote = none ∧ byte = ':' then
        match marksAt? selector scan.index with
        | none => none
        | some true => scan.stepMarker selector
        | some false => some (.next (scan.pass byte))
      else some (.next (scan.pass byte))

theorem index_lt_pass (scan : ByteScan) (byte : Char) :
    scan.index < (scan.pass byte).index := by
  unfold pass
  dsimp only
  repeat' split
  all_goals simp only [Nat.lt_add_one]
  omega

/-- The loop goes forward inside the selector. -/
theorem forward_of_step
    {scan next : ByteScan}
    {selector : Text}
    (stepped : scan.step selector = some (.next next)) :
    scan.index < Text.size selector ∧ scan.index < next.index := by
  unfold step at stepped
  split at stepped
  · unfold finish at stepped
    split at stepped
    · cases stepped
    · obtain ⟨segment, -, isNext⟩ := Option.map_eq_some_iff.mp stepped
      cases isNext
  · rename_i byte found
    refine ⟨Text.lt_size_of_byteAt? found, ?_⟩
    split at stepped
    · split at stepped
      · cases stepped
      · unfold stepMarker at stepped
        split at stepped
        · cases stepped
        · obtain ⟨segment, -, isNext⟩ := Option.map_eq_some_iff.mp stepped
          cases isNext
          exact Nat.lt_add_of_pos_right (by decide)
      · cases stepped
        exact scan.index_lt_pass byte
    · cases stepped
      exact scan.index_lt_pass byte

/-- The loop from a state on; nothing if it slices the selector where no characters
meet. -/
def run (scan : ByteScan) (selector : Text) : Option (Except Text (Option (List Text))) :=
  match _stepped : scan.step selector with
  | none => none
  | some (.finished answer) => some answer
  | some (.next next) => next.run selector
termination_by Text.size selector - scan.index
decreasing_by
  have forward := forward_of_step _stepped
  omega

theorem run_of_next
    {scan next : ByteScan}
    {selector : Text}
    (stepped : scan.step selector = some (.next next)) :
    scan.run selector = next.run selector := by
  rw [run]
  split
  · rename_i stuck
    cases stepped.symm.trans stuck
  · rename_i answer finished
    cases stepped.symm.trans finished
  · rename_i other goesOn
    cases stepped.symm.trans goesOn
    rfl

theorem run_of_finished
    {scan : ByteScan}
    {selector : Text}
    {answer : Except Text (Option (List Text))}
    (stepped : scan.step selector = some (.finished answer)) :
    scan.run selector = some answer := by
  rw [run]
  split
  · rename_i stuck
    cases stepped.symm.trans stuck
  · rename_i other finished
    cases stepped.symm.trans finished
    rfl
  · rename_i next goesOn
    cases stepped.symm.trans goesOn

end ByteScan

/-- The loop over the bytes of a selector. -/
def splitBytes (selector : Text) : Option (Except Text (Option (List Text))) :=
  ByteScan.initial.run selector

/-! ## Where a marker may start -/

/-- At a byte where characters meet, a bare marker starts exactly if one can be cut off
there and no colon stands before it. -/
theorem marksAt?_size (before rest : Text) :
    marksAt? (before ++ rest) (Text.size before) =
      some ((afterMarker? rest).isSome && !(before.getLast? == some ':')) := by
  rw [marksAt?, Text.slice?_end, Option.map_some]
  cases before using List.reverseRecOn with
  | nil => rfl
  | append_singleton before char =>
      have ascii : ¬Text.BeyondAscii ':' := by decide
      have positive : 0 < Text.size (before ++ [char]) := by
        have := char.utf8Size_pos
        rw [Text.size_append, Text.size_cons]
        omega
      have last : (Text.byteAt? (Text.size (before ++ [char]) - 1) (before ++ [char] ++ rest) ==
          some ':') = ((before ++ [char]).getLast? == some ':') := by
        rw [Bool.eq_iff_iff, beq_iff_eq, beq_iff_eq, Text.byteAt?_last_eq_iff ascii,
          List.getLast?_concat, Option.some.injEq]
      rw [decide_eq_true positive, Bool.true_and, last]

/-! ## The loop and the scan -/

/-- An unescaped character beyond ASCII opens and closes nothing. -/
theorem MarkerScan.step_of_beyondAscii
    {marks : MarkerScan}
    {char : Char}
    (beyond : Text.BeyondAscii char)
    (unescaped : marks.escaped = false)
    (quoted : ∀ quote ∈ marks.quote, quote = '"' ∨ quote = '\'') :
    marks.step char = { marks with escaped := false, afterColon := char == ':' } := by
  obtain ⟨depth, quote, escaped, afterColon⟩ := marks
  cases unescaped
  cases quote with
  | none =>
      simp [step, beyond.ne '\\' (by decide), beyond.ne '"' (by decide),
        beyond.ne '\'' (by decide), beyond.ne '(' (by decide), beyond.ne '[' (by decide),
        beyond.ne ')' (by decide), beyond.ne ']' (by decide)]
  | some quote =>
      have differs : char ≠ quote := by
        rcases quoted quote rfl with rfl | rfl
        · exact beyond.ne '"' (by decide)
        · exact beyond.ne '\'' (by decide)
      simp [step, beyond.ne '\\' (by decide), differs]

/-- A scan finds a marker outside strings and not behind a backslash. -/
theorem MarkerScan.resting_of_markerAt?
    {marks : MarkerScan}
    {rest after : Text}
    (found : marks.markerAt? rest = some after) :
    marks.escaped = false ∧ marks.quote = none ∧ rest = marker ++ after := by
  obtain ⟨may, parts, -⟩ := markerAt?_eq_some_iff.mp found
  obtain ⟨outside, -⟩ := mayMark_eq_true_iff.mp may
  exact ⟨congrArg Quoting.escaped outside, congrArg Quoting.quote outside, parts⟩

namespace ByteScan

/-- The loop stands where a scan does that has gone over `before`, of which `segment` has
not ended. -/
structure StandsBehind
    (scan : ByteScan)
    (marks : MarkerScan)
    (before segment : Text) : Prop where
  /-- It stands behind the text, or one byte further if the next character is escaped. -/
  index : scan.index = Text.size before + if marks.escaped then 1 else 0
  /-- The segment starts where characters meet. -/
  segmentStart : ∃ ended, before = ended ++ segment ∧ scan.segmentStart = Text.size ended
  /-- As many brackets are open. -/
  depth : scan.depth = marks.depth
  /-- The same string is open. -/
  quote : scan.quote = marks.quote
  /-- A string is opened by a quote. -/
  quoted : ∀ quote ∈ marks.quote, quote = '"' ∨ quote = '\''
  /-- The scan knows whether the text ends with a colon. -/
  afterColon : marks.afterColon = (before.getLast? == some ':')

theorem standsBehind_initial : initial.StandsBehind .initial [] [] where
  index := rfl
  segmentStart := ⟨[], rfl, rfl⟩
  depth := rfl
  quote := rfl
  quoted := by rintro quote ⟨⟩
  afterColon := rfl

/-- What is open behind an unescaped byte is what a scan finds open behind the
character. -/
theorem pass_eq_step
    {scan : ByteScan}
    {marks : MarkerScan}
    (depth : scan.depth = marks.depth)
    (quote : scan.quote = marks.quote)
    (unescaped : marks.escaped = false)
    (char : Char) :
    scan.pass char =
      { scan with
        index := scan.index + 1 + if (marks.step char).escaped then 1 else 0
        depth := (marks.step char).depth
        quote := (marks.step char).quote } := by
  obtain ⟨index, segmentStart, depth, quote, segments⟩ := scan
  obtain ⟨marksDepth, marksQuote, escaped, afterColon⟩ := marks
  simp only at depth quote unescaped
  subst depth quote unescaped
  unfold pass MarkerScan.step
  dsimp only
  by_cases backslash : char = '\\'
  · simp [backslash]
  · cases quote with
    | some quote =>
        by_cases closes : char = quote
        · subst closes
          simp [backslash]
        · simp [backslash, closes]
    | none =>
        by_cases opens : char = '"' ∨ char = '\''
        · simp [backslash, opens]
        · by_cases deeper : char = '(' ∨ char = '['
          · simp [backslash, opens, deeper]
          · by_cases shallower : char = ')' ∨ char = ']' <;>
              simp [backslash, opens, deeper, shallower]

/-- A byte beyond ASCII is passed by itself. -/
theorem pass_of_beyondAscii
    {scan : ByteScan}
    {byte : Char}
    (beyond : Text.BeyondAscii byte)
    (quoted : ∀ quote ∈ scan.quote, quote = '"' ∨ quote = '\'') :
    scan.pass byte = { scan with index := scan.index + 1 } := by
  let marks : MarkerScan := ⟨scan.depth, scan.quote, false, false⟩
  have kept : marks.step byte = _ := MarkerScan.step_of_beyondAscii beyond rfl quoted
  have depth : scan.depth = marks.depth := rfl
  have quote : scan.quote = marks.quote := rfl
  rw [pass_eq_step depth quote rfl byte, kept]
  rfl

/-- Inside a character beyond ASCII the loop goes on to its end. -/
theorem run_of_beyondAscii
    {char : Char}
    (beyond : Text.BeyondAscii char)
    (before rest : Text)
    {scan : ByteScan}
    (quoted : ∀ quote ∈ scan.quote, quote = '"' ∨ quote = '\'')
    {passed : Nat}
    (inside : passed ≤ char.utf8Size)
    (index : scan.index = Text.size before + passed) :
    scan.run (before ++ char :: rest) =
      { scan with index := Text.size (before ++ [char]) }.run (before ++ char :: rest) := by
  by_cases reached : passed = char.utf8Size
  · have same : Text.size (before ++ [char]) = scan.index := by
      rw [index, reached, Text.size_append, Text.size_cons, Text.size_nil, Nat.add_zero]
    rw [same]
  · have further : passed < char.utf8Size := Nat.lt_of_le_of_ne inside reached
    obtain ⟨byte, found, byteBeyond⟩ :=
      Text.exists_byteAt?_of_beyondAscii beyond further before rest
    have stepped : scan.step (before ++ char :: rest) =
        some (.next { scan with index := scan.index + 1 }) := by
      rw [step, index, found, ← index]
      simp only [byteBeyond.ne ':' (by decide), and_false, if_false,
        pass_of_beyondAscii byteBeyond quoted]
    have nextIndex : { scan with index := scan.index + 1 }.index =
        Text.size before + (passed + 1) := by
      rw [index, Nat.add_assoc]
    rw [run_of_next stepped]
    exact run_of_beyondAscii beyond before rest quoted further nextIndex
termination_by char.utf8Size - passed

namespace StandsBehind

variable {scan : ByteScan} {marks : MarkerScan} {before segment rest : Text}
  (stands : scan.StandsBehind marks before segment)

include stands

theorem index_of_unescaped (unescaped : marks.escaped = false) :
    scan.index = Text.size before := by
  rw [stands.index, unescaped]
  rfl

/-- The loop stands behind one character more if it stands there in the state that the
scan has then. -/
theorem concat
    {next : ByteScan}
    {char : Char}
    (index : next.index =
      Text.size (before ++ [char]) + if (marks.step char).escaped then 1 else 0)
    (segmentStart : next.segmentStart = scan.segmentStart)
    (depth : next.depth = (marks.step char).depth)
    (quote : next.quote = (marks.step char).quote) :
    next.StandsBehind (marks.step char) (before ++ [char]) (segment ++ [char]) where
  index := index
  segmentStart := by
    obtain ⟨ended, parts, start⟩ := stands.segmentStart
    exact ⟨ended, by rw [parts, List.append_assoc], segmentStart.trans start⟩
  depth := depth
  quote := quote
  quoted := by
    have quoted : ∀ quote ∈ (marks.quoting.step char).quote, quote = '"' ∨ quote = '\'' :=
      Quoting.quoted_step stands.quoted char
    rw [← MarkerScan.quoting_step] at quoted
    exact quoted
  afterColon := by
    rw [MarkerScan.afterColon_step, List.getLast?_concat]
    rfl

/-- Outside strings and not behind a backslash, the loop finds the markers that the scan
finds. -/
theorem marksAt?_eq
    (unescaped : marks.escaped = false)
    (noString : marks.quote = none) :
    marksAt? (before ++ rest) scan.index = some (marks.markerAt? rest).isSome := by
  have index := stands.index_of_unescaped unescaped
  rw [index, marksAt?_size, ← stands.afterColon, MarkerScan.markerAt?, MarkerScan.mayMark,
    unescaped, noString]
  cases marks.afterColon <;> simp

/-- At an unescaped character of ASCII at which no marker starts, the loop passes one
byte. -/
theorem step_of_ascii
    {char : Char}
    (ascii : ¬Text.BeyondAscii char)
    (unescaped : marks.escaped = false)
    (absent : marks.markerAt? (char :: rest) = none) :
    scan.step (before ++ char :: rest) = some (.next (scan.pass char)) := by
  have index := stands.index_of_unescaped unescaped
  have found : Text.byteAt? scan.index (before ++ char :: rest) = some char := by
    rw [index, Text.byteAt?_of_ascii ascii]
  rw [step, found]
  by_cases colon : scan.quote = none ∧ char = ':'
  · have noString : marks.quote = none := by rw [← stands.quote, colon.1]
    simp only [if_pos colon, stands.marksAt?_eq unescaped noString, absent, Option.isSome_none]
  · simp only [if_neg colon]

/-- A character is gone over as a whole if the scan finds the same open behind it. -/
theorem exists_run_eq_of_kept
    {char : Char}
    (kept : marks.step char = { marks with escaped := false, afterColon := char == ':' })
    (runs : scan.run (before ++ char :: rest) =
      { scan with index := Text.size (before ++ [char]) }.run (before ++ char :: rest)) :
    ∃ next : ByteScan,
      scan.run (before ++ char :: rest) = next.run (before ++ char :: rest) ∧
        next.segments = scan.segments ∧
        next.StandsBehind (marks.step char) (before ++ [char]) (segment ++ [char]) := by
  refine ⟨{ scan with index := Text.size (before ++ [char]) }, runs, rfl,
    stands.concat ?_ rfl ?_ ?_⟩
  · rw [kept]
    rfl
  · rw [kept]
    exact stands.depth
  · rw [kept]
    exact stands.quote

/-- The loop goes over a character at which no marker starts as the scan does. -/
theorem exists_run_eq
    {char : Char}
    (absent : marks.markerAt? (char :: rest) = none) :
    ∃ next : ByteScan,
      scan.run (before ++ char :: rest) = next.run (before ++ char :: rest) ∧
        next.segments = scan.segments ∧
        next.StandsBehind (marks.step char) (before ++ [char]) (segment ++ [char]) := by
  have quoted : ∀ quote ∈ scan.quote, quote = '"' ∨ quote = '\'' := by
    rw [stands.quote]
    exact stands.quoted
  have index := stands.index
  cases escaped : marks.escaped with
  | true =>
      -- One byte of the character is passed already.
      rw [escaped, if_pos rfl] at index
      apply stands.exists_run_eq_of_kept
      · simp [MarkerScan.step, escaped]
      · by_cases beyond : Text.BeyondAscii char
        · exact run_of_beyondAscii beyond before rest quoted char.utf8Size_pos index
        · have behind : Text.size (before ++ [char]) = scan.index := by
            rw [index, Text.size_append, Text.size_cons, Text.size_nil,
              Text.utf8Size_of_ascii beyond]
          rw [behind]
  | false =>
      rw [escaped, if_neg Bool.false_ne_true] at index
      by_cases beyond : Text.BeyondAscii char
      · apply stands.exists_run_eq_of_kept
        · exact MarkerScan.step_of_beyondAscii beyond escaped stands.quoted
        · exact run_of_beyondAscii beyond before rest quoted (Nat.zero_le _) index
      · have passed := pass_eq_step stands.depth stands.quote escaped char
        refine ⟨scan.pass char, run_of_next (stands.step_of_ascii beyond escaped absent), ?_,
          stands.concat ?_ ?_ ?_ ?_⟩ <;> rw [passed]
        simp only [index, Text.size_append, Text.size_cons, Text.size_nil,
          Text.utf8Size_of_ascii beyond, Nat.add_zero]

/-- Where the scan finds a marker, the loop finds one. -/
theorem step_of_marker
    {after : Text}
    (found : marks.markerAt? rest = some after) :
    scan.step (before ++ rest) = scan.stepMarker (before ++ rest) := by
  obtain ⟨unescaped, noString, parts⟩ := MarkerScan.resting_of_markerAt? found
  have index := stands.index_of_unescaped unescaped
  have colon : Text.byteAt? scan.index (before ++ rest) = some ':' := by
    rw [parts, index]
    exact Text.byteAt?_of_ascii (by decide) before (marker.tail ++ after)
  have marked : marksAt? (before ++ rest) scan.index = some (marks.markerAt? rest).isSome :=
    stands.marksAt?_eq unescaped noString
  rw [found, Option.isSome_some] at marked
  have noQuote : scan.quote = none := stands.quote.trans noString
  rw [step, colon]
  simp only [noQuote, and_self, if_true, marked]

/-- At a nested marker the loop ends. -/
theorem run_of_nested
    {after : Text}
    (found : marks.markerAt? rest = some after)
    (nested : 0 < marks.depth) :
    scan.run (before ++ rest) = some (.error nestedMarkerReason) := by
  apply run_of_finished
  rw [stands.step_of_marker found, stepMarker, stands.depth, if_pos nested]

/-- Any other marker ends the segment. -/
theorem exists_run_eq_of_marker
    {after : Text}
    (found : marks.markerAt? rest = some after)
    (flat : ¬0 < marks.depth) :
    ∃ next : ByteScan,
      scan.run (before ++ rest) = next.run (before ++ rest) ∧
        next.segments = scan.segments ++ [segment] ∧
        next.StandsBehind marks.stepMarker (before ++ marker) [] := by
  obtain ⟨unescaped, -, parts⟩ := MarkerScan.resting_of_markerAt? found
  have index := stands.index_of_unescaped unescaped
  obtain ⟨ended, whole, segmentStart⟩ := stands.segmentStart
  have sliced : Text.slice? scan.segmentStart scan.index (before ++ rest) = some segment :=
    Text.slice?_eq_some_iff.mpr ⟨ended, rest, by rw [whole], segmentStart, by rw [index, whole]⟩
  have stepped : scan.step (before ++ rest) = some (.next { scan with
      index := scan.index + Text.size marker
      segmentStart := scan.index + Text.size marker
      segments := scan.segments ++ [segment] }) := by
    rw [stands.step_of_marker found, stepMarker, stands.depth, if_neg flat, sliced]
    rfl
  have reached : scan.index + Text.size marker = Text.size (before ++ marker) := by
    rw [index, Text.size_append]
  refine ⟨_, run_of_next stepped, rfl, ?_⟩
  constructor
  · have stays : marks.stepMarker.escaped = false := unescaped
    rw [stays, reached]
    rfl
  · exact ⟨before ++ marker, (List.append_nil _).symm, reached⟩
  · exact stands.depth
  · exact stands.quote
  · exact stands.quoted
  · simp [MarkerScan.stepMarker, marker]

/-- Behind the last byte, the last segment ends if there are others. -/
theorem run_of_end :
    scan.run before =
      some (if scan.segments = [] then .ok none
        else .ok (some (scan.segments ++ [segment]))) := by
  have behind : Text.byteAt? scan.index before = none :=
    Text.byteAt?_eq_none (by rw [stands.index]; exact Nat.le_add_right _ _)
  obtain ⟨ended, whole, segmentStart⟩ := stands.segmentStart
  apply run_of_finished
  rw [step, behind]
  simp only [finish]
  split
  · rfl
  · have sliced : Text.slice? scan.segmentStart (Text.size before) before = some segment := by
      rw [segmentStart, whole]
      exact Text.slice?_end ended segment
    rw [sliced]
    rfl

end StandsBehind

end ByteScan

/-! ## The same answer -/

namespace Marked

/-- What splitting finds behind segments that have ended and the start of another one. -/
def behind (ended : List Text) (segment : Text) : Marked → Marked
  | .nested => .nested
  | .segments beginning rest =>
      match ended with
      | [] => .segments (segment ++ beginning) rest
      | first :: others => .segments first (others ++ (segment ++ beginning) :: rest)

theorem behind_nil (marked : Marked) : marked.behind [] [] = marked := by
  cases marked <;> rfl

/-- A character in front belongs to the segment that is gone over. -/
theorem behind_consChar (ended : List Text) (segment : Text) (char : Char) (marked : Marked) :
    (marked.consChar char).behind ended segment = marked.behind ended (segment ++ [char]) := by
  cases marked with
  | nested => rfl
  | segments beginning rest => cases ended <;> simp [consChar, behind]

/-- A marker in front ends the segment that is gone over. -/
theorem behind_consMarker (ended : List Text) (segment : Text) (marked : Marked) :
    marked.consMarker.behind ended segment = marked.behind (ended ++ [segment]) [] := by
  cases marked with
  | nested => rfl
  | segments beginning rest => cases ended <;> simp [consMarker, behind]

end Marked

/-- The loop answers what the scan of the characters finds. -/
theorem ByteScan.StandsBehind.run_eq
    {scan : ByteScan}
    {marks : MarkerScan}
    {before segment rest : Text}
    (stands : scan.StandsBehind marks before segment) :
    scan.run (before ++ rest) =
      some (((splitFrom marks rest).behind scan.segments segment).answer) := by
  fun_induction splitFrom marks rest generalizing scan before segment with
  | case1 marks =>
      rw [List.append_nil, stands.run_of_end]
      cases scan.segments with
      | nil => rfl
      | cons first others => cases others <;> simp [Marked.behind, Marked.answer]
  | case2 marks char rest after found nested =>
      rw [stands.run_of_nested found nested]
      rfl
  | case3 marks char rest after found flat ih =>
      obtain ⟨next, runs, segments, standsBehind⟩ := stands.exists_run_eq_of_marker found flat
      obtain ⟨-, -, parts⟩ := MarkerScan.resting_of_markerAt? found
      rw [runs, parts, ← List.append_assoc, ih standsBehind, segments, Marked.behind_consMarker]
  | case4 marks char rest absent ih =>
      obtain ⟨next, runs, segments, standsBehind⟩ := stands.exists_run_eq absent
      rw [runs, List.append_cons, ih standsBehind, segments, Marked.behind_consChar]

end Selector
end ComponentPipeline
