import ComponentPipeline.Text.Blank
import ComponentPipeline.Selector.Marker

/-!
# Globalizing selectors

A selector is a sequence of compound selectors with combinators between them.
Globalizing it wraps each compound in `:global(…)` and keeps the combinators
as written.  A compound that starts with `:global` is kept, and in one that
starts with `:local` every `:local(…)` gives way to what it encloses.
-/

namespace ComponentPipeline
namespace Selector

/-! ## Compounds and combinators -/

/-- The characters that end a compound. -/
def endsCompound (char : Char) : Bool :=
  char == ' ' || char == '>' || char == '+' || char == '~' || char == ','

/-- The characters that go on with a combinator. -/
def continuesCombinator (char : Char) : Bool :=
  Text.isBlank char || char == '>' || char == '+' || char == '~' || char == ','

/-- The state of a scan over a compound before the next character. -/
structure CompoundScan where
  /-- Number of open parentheses and brackets. -/
  depth : Nat
  /-- Whether the next character is escaped. -/
  escaped : Bool
  deriving DecidableEq, Repr

namespace CompoundScan

/-- The state at the start of a compound. -/
def initial : CompoundScan := ⟨0, false⟩

/-- Whether a character ends the compound. -/
def endsAt (scan : CompoundScan) (char : Char) : Bool :=
  !scan.escaped && scan.depth == 0 && endsCompound char

/-- The state after a character of the compound. -/
def step (scan : CompoundScan) (char : Char) : CompoundScan :=
  if scan.escaped then { scan with escaped := false }
  else if char = '\\' then { scan with escaped := true }
  else if char = '(' ∨ char = '[' then { scan with depth := scan.depth + 1 }
  else if char = ')' ∨ char = ']' then { scan with depth := scan.depth - 1 }
  else scan

end CompoundScan

/-- The compound at the start of a text and the text from its end on. -/
def cutCompound (scan : CompoundScan) : Text → Text × Text
  | [] => ([], [])
  | char :: rest =>
      if scan.endsAt char then ([], char :: rest)
      else
        let (compound, tail) := cutCompound (scan.step char) rest
        (char :: compound, tail)

theorem cutCompound_append (scan : CompoundScan) (text : Text) :
    (cutCompound scan text).1 ++ (cutCompound scan text).2 = text := by
  induction text generalizing scan with
  | nil => rfl
  | cons char rest ih =>
      simp only [cutCompound]
      split
      · rfl
      · simp [ih]

/-- A selector as its first compound, and each combinator with the compound
after it. -/
structure Sequence where
  /-- The first compound. -/
  first : Text
  /-- The combinators and the compounds after them. -/
  others : List (Text × Text)
  deriving DecidableEq, Repr

/-- A text as a sequence of compounds. -/
def sequenceOf (text : Text) : Sequence :=
  let cut := cutCompound .initial text
  match _tail : cut.2 with
  | [] => ⟨cut.1, []⟩
  | char :: rest =>
      let combinator := char :: rest.takeWhile continuesCombinator
      let following := sequenceOf (rest.dropWhile continuesCombinator)
      ⟨cut.1, (combinator, following.first) :: following.others⟩
termination_by text.length
decreasing_by
  have parts := congrArg List.length (cutCompound_append .initial text)
  have bound := (List.dropWhile_suffix continuesCombinator (l := rest)).length_le
  simp only [List.length_append] at parts
  rw [show (cutCompound .initial text).2 = char :: rest from _tail] at parts
  simp only [List.length_cons] at parts
  omega

/-- The text of a sequence. -/
def Sequence.text (sequence : Sequence) : Text :=
  sequence.first ++
    sequence.others.flatMap fun (combinator, compound) => combinator ++ compound

/-- A sequence with every compound changed. -/
def Sequence.map (change : Text → Text) (sequence : Sequence) : Sequence :=
  ⟨change sequence.first,
    sequence.others.map fun (combinator, compound) => (combinator, change compound)⟩

/-! ## Compounds of one kind and another -/

/-- What opens a local selector. -/
def localOpening : Text := [':', 'l', 'o', 'c', 'a', 'l', '(']

/-- The text up to the next closing parenthesis and the text after it; a line
feed must not come before it. -/
def cutClosing? : Text → Option (Text × Text)
  | [] => none
  | char :: rest =>
      if char = ')' then some ([], rest)
      else if char = '\n' then none
      else (cutClosing? rest).map fun (inside, tail) => (char :: inside, tail)

/-- What a local selector at the start of a text encloses, at least one
character, and the text after it. -/
def cutLocal? (text : Text) : Option (Text × Text) :=
  match Text.after? localOpening text with
  | some (char :: rest) =>
      if char = '\n' then none
      else (cutClosing? rest).map fun (inside, tail) => (char :: inside, tail)
  | _ => none

theorem length_lt_of_cutClosing?
    {text inside tail : Text}
    (found : cutClosing? text = some (inside, tail)) :
    tail.length < text.length := by
  induction text generalizing inside with
  | nil => simp [cutClosing?] at found
  | cons char rest ih =>
      simp only [cutClosing?] at found
      split at found
      · cases found
        simp
      · split at found
        · cases found
        · simp only [Option.map_eq_some_iff] at found
          obtain ⟨⟨inside', tail'⟩, found', pair⟩ := found
          simp only [Prod.mk.injEq] at pair
          obtain ⟨rfl, rfl⟩ := pair
          have shorter := ih found'
          simp only [List.length_cons]
          omega

theorem length_lt_of_cutLocal?
    {text inside tail : Text}
    (found : cutLocal? text = some (inside, tail)) :
    tail.length < text.length := by
  simp only [cutLocal?] at found
  split at found
  · rename_i char rest opened
    split at found
    · cases found
    · simp only [Option.map_eq_some_iff] at found
      obtain ⟨⟨inside', tail'⟩, found', pair⟩ := found
      simp only [Prod.mk.injEq] at pair
      obtain ⟨rfl, rfl⟩ := pair
      have shorter := length_lt_of_cutClosing? found'
      have parts := Text.after?_eq_some_iff.mp opened
      subst parts
      simp only [List.length_append, List.length_cons]
      omega
  · cases found

/-- A text in which every local selector gives way to what it encloses. -/
def unwrapLocals (text : Text) : Text :=
  match text with
  | [] => []
  | char :: rest =>
      match _found : cutLocal? (char :: rest) with
      | some (inside, tail) => inside ++ unwrapLocals tail
      | none => char :: unwrapLocals rest
termination_by text.length
decreasing_by
  · exact length_lt_of_cutLocal? _found
  · simp

/-- A compound, globalized. -/
def globalizeCompound (compound : Text) : Text :=
  if compound.isEmpty || Text.startsWith marker compound then compound
  else if Text.startsWith ":local" compound then unwrapLocals compound
  else marker ++ '(' :: (compound ++ [')'])

/-- A selector, globalized. -/
def globalize (selector : Text) : Text :=
  ((sequenceOf (Text.trim selector)).map globalizeCompound).text

end Selector
end ComponentPipeline
