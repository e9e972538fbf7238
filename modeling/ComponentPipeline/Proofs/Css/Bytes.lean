import ComponentPipeline.Proofs.Css.StatementEnds
import ComponentPipeline.Proofs.Text.Bytes

/-!
# Statements byte by byte

A scan may go over the bytes of a text instead of its characters.  A backslash
then hides one byte, which may be the first one of several that write a
character.  The others are no bytes of ASCII, and such a byte neither ends
anything nor starts anything, so the scan stops behind the same character.
-/

namespace ComponentPipeline

namespace Css

open Text (BeyondAscii byteChar)

/-! ## Characters beyond ASCII in a statement -/

/-- The quote of a string that is open is a character of ASCII. -/
def Surrounding.QuotesAscii : Surrounding → Prop
  | .string quote _ => quote.toNat < 128
  | .stringAfterBackslash quote _ => quote.toNat < 128
  | _ => True

namespace StatementScan

/-- The state after a character that neither ends nor starts anything. -/
def stepOther (scan : StatementScan) : StatementScan :=
  match scan.surrounding with
  | .plain | .afterSlash _ | .afterBackslash => ⟨.plain, scan.depth⟩
  | .string quote start | .stringAfterBackslash quote start =>
      ⟨.string quote start, scan.depth⟩
  | .comment start | .commentAfterStar start => ⟨.comment start, scan.depth⟩

@[simp] theorem stepOther_stepOther (scan : StatementScan) :
    scan.stepOther.stepOther = scan.stepOther := by
  obtain ⟨surrounding, depth⟩ := scan
  cases surrounding <;> rfl

theorem quotesAscii_stepOther
    {scan : StatementScan}
    (ascii : scan.surrounding.QuotesAscii) :
    scan.stepOther.surrounding.QuotesAscii := by
  obtain ⟨surrounding, depth⟩ := scan
  cases surrounding <;> exact ascii

theorem quotesAscii_plainStep (depth offset : Nat) (char : Char) :
    (plainStep depth offset char).surrounding.QuotesAscii := by
  unfold plainStep
  split
  · trivial
  · split
    · rename_i quote
      rcases quote with rfl | rfl <;> show _ < _ <;> decide
    · repeat' split
      all_goals trivial

theorem quotesAscii_step
    {scan : StatementScan}
    (ascii : scan.surrounding.QuotesAscii)
    (offset : Nat)
    (char : Char) :
    (scan.step offset char).surrounding.QuotesAscii := by
  obtain ⟨surrounding, depth⟩ := scan
  cases surrounding with
  | plain => exact quotesAscii_plainStep depth offset char
  | afterSlash start =>
      by_cases star : char = '*'
      · simp [step, star, Surrounding.QuotesAscii]
      · simpa [step, star] using quotesAscii_plainStep depth offset char
  | afterBackslash => trivial
  | string quote start =>
      have quoteAscii : quote.toNat < 128 := ascii
      simp only [step]
      split
      · exact quoteAscii
      · split
        · trivial
        · exact quoteAscii
  | stringAfterBackslash quote start => exact ascii
  | comment start =>
      simp only [step]
      split <;> trivial
  | commentAfterStar start =>
      simp only [step]
      split
      · trivial
      · split <;> trivial

theorem endsAt_of_beyondAscii
    {char : Char}
    (beyond : BeyondAscii char)
    (scan : StatementScan) :
    scan.endsAt char = false := by
  simp [endsAt, beyond.ne '{' (by decide), beyond.ne '}' (by decide),
    beyond.ne ';' (by decide)]

theorem plainStep_of_beyondAscii
    {char : Char}
    (beyond : BeyondAscii char)
    (depth offset : Nat) :
    plainStep depth offset char = ⟨.plain, depth⟩ := by
  simp [plainStep, beyond.ne '\\' (by decide), beyond.ne '"' (by decide),
    beyond.ne '\'' (by decide), beyond.ne '/' (by decide),
    beyond.ne '(' (by decide), beyond.ne '[' (by decide),
    beyond.ne ')' (by decide), beyond.ne ']' (by decide)]

/-- Characters beyond ASCII all do the same. -/
theorem step_of_beyondAscii
    {char : Char}
    (beyond : BeyondAscii char)
    {scan : StatementScan}
    (ascii : scan.surrounding.QuotesAscii)
    (offset : Nat) :
    scan.step offset char = scan.stepOther := by
  have plain := plainStep_of_beyondAscii beyond scan.depth offset
  have star := beyond.ne '*' (by decide)
  have slash := beyond.ne '/' (by decide)
  have backslash := beyond.ne '\\' (by decide)
  obtain ⟨surrounding, depth⟩ := scan
  cases surrounding with
  | plain => exact plain
  | afterSlash start => simpa [step, stepOther, star] using plain
  | afterBackslash => rfl
  | string quote start => simp [step, stepOther, backslash, beyond.ne quote ascii]
  | stringAfterBackslash quote start => rfl
  | comment start => simp [step, stepOther, star]
  | commentAfterStar start => simp [step, stepOther, star, slash]

end StatementScan

/-! ## The scan of bytes -/

open StatementScan

/-- The bytes of a statement up to its end and the bytes from there on; none if
something is left open. -/
def scanBytes (scan : StatementScan) : List UInt8 → Option (List UInt8 × List UInt8)
  | [] => if scan.leftOpen?.isSome then none else some ([], [])
  | byte :: rest =>
      if scan.endsAt (byteChar byte) then some ([], byte :: rest)
      else
        (scanBytes (scan.step 0 (byteChar byte)) rest).map fun (raw, tail) =>
          (byte :: raw, tail)

theorem scanBytes_of_not_endsAt
    {scan : StatementScan}
    {byte : UInt8}
    (goesOn : scan.endsAt (byteChar byte) = false)
    (rest : List UInt8) :
    scanBytes scan (byte :: rest) =
      (scanBytes (scan.step 0 (byteChar byte)) rest).map fun (raw, tail) =>
        (byte :: raw, tail) := by
  rw [scanBytes, goesOn, if_neg Bool.false_ne_true]

/-- Bytes beyond ASCII are gone over like one character beyond ASCII. -/
theorem scanBytes_of_beyondAscii
    {scan : StatementScan}
    (ascii : scan.surrounding.QuotesAscii)
    {first : UInt8}
    {others : List UInt8}
    (beyond : ∀ byte ∈ first :: others, BeyondAscii (byteChar byte))
    (rest : List UInt8) :
    scanBytes scan (first :: others ++ rest) =
      (scanBytes scan.stepOther rest).map fun (raw, tail) =>
        (first :: others ++ raw, tail) := by
  induction others generalizing scan first with
  | nil =>
      have firstBeyond := beyond first List.mem_cons_self
      rw [List.singleton_append, scanBytes_of_not_endsAt (endsAt_of_beyondAscii firstBeyond scan),
        step_of_beyondAscii firstBeyond ascii]
      rfl
  | cons second others ih =>
      obtain ⟨firstBeyond, othersBeyond⟩ := List.forall_mem_cons.mp beyond
      rw [List.cons_append, scanBytes_of_not_endsAt (endsAt_of_beyondAscii firstBeyond scan),
        step_of_beyondAscii firstBeyond ascii, ih (quotesAscii_stepOther ascii) othersBeyond,
        stepOther_stepOther, Option.map_map]
      rfl

/-- A scan goes over the bytes of a character as over the character. -/
theorem scanBytes_utf8EncodeChar_append
    {scan : StatementScan}
    (ascii : scan.surrounding.QuotesAscii)
    {char : Char}
    (goesOn : scan.endsAt char = false)
    (rest : List UInt8) :
    scanBytes scan (String.utf8EncodeChar char ++ rest) =
      (scanBytes (scan.step 0 char) rest).map fun (raw, tail) =>
        (String.utf8EncodeChar char ++ raw, tail) := by
  by_cases beyond : BeyondAscii char
  · obtain ⟨first, others, written⟩ :=
      List.exists_cons_of_ne_nil (String.utf8EncodeChar_ne_nil (c := char))
    have bytesBeyond : ∀ byte ∈ first :: others, BeyondAscii (byteChar byte) := by
      intro byte member
      rw [← written] at member
      exact Text.beyondAscii_of_mem_utf8EncodeChar beyond member
    rw [written, scanBytes_of_beyondAscii ascii bytesBeyond, step_of_beyondAscii beyond ascii]
  · obtain ⟨byte, written, same⟩ := Text.utf8EncodeChar_of_ascii beyond
    rw [← same] at goesOn
    rw [written, List.singleton_append, scanBytes_of_not_endsAt goesOn, same]
    rfl

/-- A statement ends at a byte exactly if it ends at the character that the
byte starts. -/
theorem scanBytes_of_endsAt
    {scan : StatementScan}
    {char : Char}
    (ends : scan.endsAt char = true)
    (rest : Text) :
    scanBytes scan (Text.bytes (char :: rest)) = some ([], Text.bytes (char :: rest)) := by
  have isAscii : ¬BeyondAscii char := by
    intro beyond
    rw [endsAt_of_beyondAscii beyond] at ends
    cases ends
  obtain ⟨byte, written, same⟩ := Text.utf8EncodeChar_of_ascii isAscii
  rw [← same] at ends
  rw [Text.bytes_cons, written, List.singleton_append, scanBytes, if_pos ends]

theorem quotesAscii_unplaced
    {scan : StatementScan}
    (ascii : scan.surrounding.QuotesAscii) :
    scan.unplaced.surrounding.QuotesAscii := by
  obtain ⟨surrounding, depth⟩ := scan
  cases surrounding <;> exact ascii

/-- The scan of the bytes of a text stops where the scan of its characters
does, or fails as that does. -/
theorem scanBytes_bytes
    {scan : StatementScan}
    (ascii : scan.surrounding.QuotesAscii)
    (offset : Nat)
    (text : Text) :
    scanBytes scan.unplaced (Text.bytes text) =
      (scanStatement scan offset text).toOption.map fun (raw, tail) =>
        (Text.bytes raw, Text.bytes tail) := by
  induction text generalizing scan offset with
  | nil =>
      rw [Text.bytes_nil, scanBytes, scanStatement]
      cases left : scan.leftOpen? with
      | none =>
          rw [leftOpen?_unplaced_eq_none_iff.mpr left]
          rfl
      | some unclosed =>
          have isLeft : scan.unplaced.leftOpen?.isSome = true := by
            rw [Option.isSome_iff_ne_none, ne_eq, leftOpen?_unplaced_eq_none_iff, left]
            exact Option.some_ne_none unclosed
          rw [if_pos isLeft]
          rfl
  | cons char rest ih =>
      cases ends : scan.endsAt char with
      | true =>
          rw [scanBytes_of_endsAt ((endsAt_unplaced scan char).trans ends), scanStatement,
            if_pos ends]
          rfl
      | false =>
          have goesOn : scan.unplaced.endsAt char = false :=
            (endsAt_unplaced scan char).trans ends
          rw [Text.bytes_cons, scanBytes_utf8EncodeChar_append (quotesAscii_unplaced ascii) goesOn,
            ← unplaced_step scan offset, ih (quotesAscii_step ascii offset char), scanStatement,
            ends, if_neg Bool.false_ne_true]
          cases scanStatement (scan.step offset char) (offset + char.utf8Size) rest <;> rfl

/-- A scan of the bytes of a text stops between two of its characters. -/
theorem exists_append_of_scanBytes
    {text : Text}
    {raw tail : List UInt8}
    (scanned : scanBytes .initial (Text.bytes text) = some (raw, tail)) :
    ∃ before after, text = before ++ after ∧ raw = Text.bytes before ∧
      tail = Text.bytes after := by
  have noQuote : StatementScan.initial.surrounding.QuotesAscii := trivial
  have atCharacters : scanBytes .initial (Text.bytes text) = _ := scanBytes_bytes noQuote 0 text
  rw [atCharacters] at scanned
  cases taken : scanStatement .initial 0 text with
  | error unclosed =>
      rw [taken] at scanned
      cases scanned
  | ok parts =>
      rw [taken] at scanned
      cases scanned
      exact ⟨parts.1, parts.2, eq_append_of_scanStatement taken, rfl, rfl⟩

end Css
end ComponentPipeline
