import ComponentPipeline.Proofs.Selector.Compounds
import Mathlib.Tactic.Common

/-!
# Unwrapping a local selector

A local selector that encloses a well-nested text is one compound, up to the
parenthesis that closes it.  Unwrapping takes away what opens it and the first
closing parenthesis behind that, which is not the one that closes it if the text
has parentheses of its own.  So the enclosed text is given back with a parenthesis
moved to its end, and as it was only if nothing but closing parentheses stands
behind its first one.
-/

namespace ComponentPipeline
namespace Selector

/-- Parentheses and brackets, each with what closes it. -/
def bracketPairs : List (Char × Char) := [('(', ')'), ('[', ']')]

theorem bracketPair_cases
    {opening closing : Char}
    (isPair : (opening, closing) ∈ bracketPairs) :
    (opening = '(' ∧ closing = ')') ∨ (opening = '[' ∧ closing = ']') := by
  simpa [bracketPairs] using isPair

/-- A text whose parentheses and brackets are properly nested. -/
inductive WellNested : Text → Prop
  | nil : WellNested []
  | plain {char rest}
      (noBracket : char ∉ ['(', ')', '[', ']'])
      (others : WellNested rest) :
      WellNested (char :: rest)
  | group {opening closing inside rest}
      (isPair : (opening, closing) ∈ bracketPairs)
      (enclosed : WellNested inside)
      (others : WellNested rest) :
      WellNested (opening :: (inside ++ closing :: rest))

theorem WellNested.append_plain
    {text rest : Text}
    (noBracket : text.all (· ∉ ['(', ')', '[', ']']) = true)
    (others : WellNested rest) :
    WellNested (text ++ rest) := by
  induction text with
  | nil => exact others
  | cons char text ih =>
      obtain ⟨here, later⟩ := Bool.and_eq_true_iff.mp noBracket
      exact .plain (of_decide_eq_true here) (ih later)

/-! ## The compound -/

namespace CompoundScan

theorem endsAt_of_depth {depth : Nat} {escaped : Bool} (char : Char) :
    endsAt ⟨depth + 1, escaped⟩ char = false := by
  simp [endsAt]

theorem over?_cons_of_depth (depth : Nat) (char : Char) (rest : Text) :
    over? ⟨depth + 1, false⟩ (char :: rest) = (step ⟨depth + 1, false⟩ char).over? rest := by
  rw [over?_cons, endsAt_of_depth, if_neg Bool.false_ne_true]

end CompoundScan

/-- In parentheses, a well-nested text leaves open what is open before it. -/
theorem WellNested.over?
    {text : Text}
    (nested : WellNested text)
    (noEscape : '\\' ∉ text)
    (depth : Nat) :
    CompoundScan.over? ⟨depth + 1, false⟩ text = some ⟨depth + 1, false⟩ := by
  induction nested generalizing depth with
  | nil => rfl
  | @plain char rest noBracket _ ih =>
      simp only [List.mem_cons, List.not_mem_nil, or_false, not_or] at noEscape noBracket
      have stays : CompoundScan.step ⟨depth + 1, false⟩ char = ⟨depth + 1, false⟩ := by
        simp [CompoundScan.step, Ne.symm noEscape.1, noBracket]
      rw [CompoundScan.over?_cons_of_depth, stays]
      exact ih noEscape.2 depth
  | @group opening closing inside rest isPair _ _ enclosed others =>
      simp only [List.mem_cons, List.mem_append, not_or] at noEscape
      have opens : CompoundScan.step ⟨depth + 1, false⟩ opening = ⟨depth + 1 + 1, false⟩ ∧
          CompoundScan.step ⟨depth + 1 + 1, false⟩ closing = ⟨depth + 1, false⟩ := by
        rcases bracketPair_cases isPair with ⟨rfl, rfl⟩ | ⟨rfl, rfl⟩ <;> exact ⟨rfl, rfl⟩
      rw [CompoundScan.over?_cons_of_depth, opens.1, CompoundScan.over?_append,
        enclosed noEscape.2.1 (depth + 1), Option.bind_some, CompoundScan.over?_cons_of_depth,
        opens.2]
      exact others noEscape.2.2.2 depth

/-- A local selector around a well-nested text is globalized by unwrapping it. -/
theorem globalize_localOpening
    {text : Text}
    (nested : WellNested text)
    (noEscape : '\\' ∉ text) :
    globalize (localOpening ++ text ++ [')']) =
      unwrapLocals (localOpening ++ text ++ [')']) := by
  have trimmed : Text.trim (localOpening ++ text ++ [')']) = localOpening ++ text ++ [')'] := by
    apply Text.trim_eq_self
    · rintro char ⟨⟩
      decide
    · intro char last
      rw [List.getLast?_concat] at last
      cases last
      decide
  have opened : CompoundScan.initial.over? localOpening = some ⟨1, false⟩ := by decide
  have whole : CompoundScan.initial.over? (localOpening ++ text ++ [')']) = some .initial := by
    rw [List.append_assoc, CompoundScan.over?_append, opened, Option.bind_some,
      CompoundScan.over?_append, nested.over? noEscape 0]
    rfl
  have unwraps : globalizeCompound (localOpening ++ text ++ [')']) =
      unwrapLocals (localOpening ++ text ++ [')']) := rfl
  rw [← unwraps, ← wrapped_of_whole (sequenceOf_of_over? whole)]
  unfold globalize
  rw [trimmed]
  rfl

/-! ## What is unwrapped -/

theorem unwrapLocals_of_cutLocal?
    {text inside tail : Text}
    (found : cutLocal? text = some (inside, tail)) :
    unwrapLocals text = inside ++ unwrapLocals tail := by
  cases text with
  | nil => cases found
  | cons char rest =>
      rw [unwrapLocals]
      split
      · rename_i found'
        cases found.symm.trans found'
        rfl
      · rename_i absent
        cases found.symm.trans absent

theorem eq_of_cutClosing?
    {text inside tail : Text}
    (found : cutClosing? text = some (inside, tail)) :
    text = inside ++ ')' :: tail := by
  induction text generalizing inside with
  | nil => cases found
  | cons char rest ih =>
      rw [cutClosing?] at found
      split at found
      · rename_i closes
        cases found
        rw [closes]
        rfl
      · split at found
        · cases found
        · obtain ⟨⟨inside', tail'⟩, cut, parts⟩ := Option.map_eq_some_iff.mp found
          cases parts
          rw [ih cut]
          rfl

theorem eq_of_cutLocal?
    {text inside tail : Text}
    (found : cutLocal? text = some (inside, tail)) :
    text = localOpening ++ inside ++ ')' :: tail := by
  unfold cutLocal? at found
  split at found
  · rename_i char rest opened
    split at found
    · cases found
    · obtain ⟨⟨inside', tail'⟩, cut, parts⟩ := Option.map_eq_some_iff.mp found
      cases parts
      rw [Text.after?_eq_some_iff.mp opened, eq_of_cutClosing? cut]
      simp
  · cases found

/-- Unwrapping only takes away. -/
theorem length_unwrapLocals_le (text : Text) : (unwrapLocals text).length ≤ text.length := by
  fun_induction unwrapLocals text with
  | case1 => exact Nat.le_refl _
  | case2 char rest inside tail found ih =>
      rw [eq_of_cutLocal? found]
      simp only [List.length_append, List.length_cons]
      omega
  | case3 char rest absent ih =>
      simp only [List.length_cons]
      omega

/-- A text without local selectors stays as it is. -/
theorem unwrapLocals_of_noLocal
    {text : Text}
    (noLocal : ¬localOpening <:+: text) :
    unwrapLocals text = text := by
  induction text with
  | nil => rw [unwrapLocals]
  | cons char rest ih =>
      have absent : cutLocal? (char :: rest) = none := by
        unfold cutLocal?
        rw [Text.after?_eq_none_iff.mpr fun opens => noLocal opens.isInfix]
      have later := ih fun inside => noLocal (inside.trans (List.suffix_cons char rest).isInfix)
      rw [unwrapLocals]
      split
      · rename_i found
        cases absent.symm.trans found
      · rw [later]

/-- Cutting at the next closing parenthesis takes it away. -/
theorem exists_cutClosing?
    {text : Text}
    (noLineFeed : '\n' ∉ text) :
    ∃ inside tail, cutClosing? (text ++ [')']) = some (inside, tail) ∧
      inside ++ tail = (text ++ [')']).erase ')' ∧ tail <:+ text ++ [')'] := by
  induction text with
  | nil => exact ⟨[], [], rfl, rfl, List.nil_suffix⟩
  | cons char rest ih =>
      obtain ⟨notHere, notLater⟩ := not_or.mp (List.mem_cons.not.mp noLineFeed)
      obtain ⟨inside, tail, cut, parts, ends⟩ := ih notLater
      by_cases closes : char = ')'
      · subst closes
        exact ⟨[], rest ++ [')'], rfl, by simp, List.suffix_cons _ _⟩
      · refine ⟨char :: inside, tail, ?_, ?_, ends.trans (List.suffix_cons _ _)⟩
        · rw [List.cons_append, cutClosing?, if_neg closes, if_neg (Ne.symm notHere), cut]
          rfl
        · rw [List.cons_append, List.cons_append, List.erase_cons_tail (by simpa using closes),
            parts]

/-- A well-nested text does not start with a closing parenthesis. -/
theorem WellNested.head_ne
    {char : Char}
    {rest : Text}
    (nested : WellNested (char :: rest)) :
    char ≠ ')' := by
  rintro rfl
  generalize whole : ')' :: rest = text at nested
  cases nested with
  | nil => cases whole
  | plain noBracket _ =>
      cases whole
      exact noBracket (by decide)
  | group isPair _ _ =>
      cases whole
      rcases bracketPair_cases isPair with ⟨other, -⟩ | ⟨other, -⟩ <;> cases other

/-- What is left behind a cut has no local selector if the text has none. -/
theorem not_localOpening_infix_of_suffix
    {text tail : Text}
    (noLocal : ¬(":local" : Text) <:+: text)
    (ends : tail <:+ text ++ [')']) :
    ¬localOpening <:+: tail := by
  intro opens
  have short : (":local" : Text) <:+: localOpening := ⟨[], ['('], rfl⟩
  have within : (":local" : Text) <:+: text ++ [')'] := (short.trans opens).trans ends.isInfix
  rcases List.infix_concat_iff.mp within with ⟨before, parts⟩ | inside
  · have last := congrArg List.getLast? parts
    rw [List.getLast?_concat, List.getLast?_append] at last
    cases last
  · exact noLocal inside

/-- What encloses a well-nested text is taken away, but for the last parenthesis: the
first one goes instead. -/
theorem globalize_localOpening_eq
    {text : Text}
    (notEmpty : text ≠ [])
    (nested : WellNested text)
    (noLineFeed : '\n' ∉ text)
    (noEscape : '\\' ∉ text)
    (noLocal : ¬(":local" : Text) <:+: text) :
    globalize (localOpening ++ text ++ [')']) = (text ++ [')']).erase ')' := by
  obtain ⟨char, rest, rfl⟩ := List.exists_cons_of_ne_nil notEmpty
  obtain ⟨notHere, notLater⟩ := not_or.mp (List.mem_cons.not.mp noLineFeed)
  obtain ⟨inside, tail, cut, parts, ends⟩ := exists_cutClosing? notLater
  have opened : Text.after? localOpening (localOpening ++ (char :: rest) ++ [')']) =
      some (char :: (rest ++ [')'])) :=
    Text.after?_eq_some_iff.mpr (by simp)
  have cutLocal : cutLocal? (localOpening ++ (char :: rest) ++ [')']) =
      some (char :: inside, tail) := by
    unfold cutLocal?
    rw [opened]
    simp only [if_neg (Ne.symm notHere), cut]
    rfl
  have tailKept : unwrapLocals tail = tail :=
    unwrapLocals_of_noLocal (not_localOpening_infix_of_suffix noLocal
      (ends.trans (List.suffix_cons char _)))
  have first : (char :: (rest ++ [')'])).erase ')' = char :: (rest ++ [')']).erase ')' :=
    List.erase_cons_tail (by simpa using nested.head_ne)
  rw [globalize_localOpening nested noEscape, unwrapLocals_of_cutLocal? cutLocal, tailKept,
    List.cons_append, parts, List.cons_append, first]

/-! ## Characters that are kept -/

section Kept

variable {char : Char} {text : Text}

theorem mem_unwrapLocals
    (foreign : char ∉ localOpening ++ [')'])
    (member : char ∈ text) :
    char ∈ unwrapLocals text := by
  fun_induction unwrapLocals text with
  | case1 => exact member
  | case2 first rest inside tail found ih =>
      rw [eq_of_cutLocal? found] at member
      simp only [List.mem_append, List.mem_cons, List.not_mem_nil, or_false, not_or]
        at member foreign ⊢
      obtain (opening | within) | rfl | behind := member
      · exact absurd opening foreign.1
      · exact .inl within
      · exact absurd rfl foreign.2
      · exact .inr (ih behind)
  | case3 first rest absent ih =>
      rcases List.mem_cons.mp member with rfl | behind
      · exact List.mem_cons_self
      · exact List.mem_cons_of_mem _ (ih behind)

theorem mem_globalizeCompound
    (foreign : char ∉ localOpening ++ [')'])
    (member : char ∈ text) :
    char ∈ globalizeCompound text := by
  obtain ⟨kept, -⟩ | ⟨unwrapped, -⟩ | isWrapped := globalizeCompound_cases text
  · rwa [kept]
  · rw [unwrapped]
    exact mem_unwrapLocals foreign member
  · rw [isWrapped]
    simp [member]

theorem mem_wrapped
    (foreign : char ∉ localOpening ++ [')'])
    (member : char ∈ text) :
    char ∈ wrapped text := by
  induction text using sequence_induction with
  | whole text sequence =>
      rw [wrapped_of_whole sequence]
      exact mem_globalizeCompound foreign member
  | combined first combinator rest continues notEmpty sequence ih =>
      rw [wrapped_of_combined sequence]
      simp only [List.mem_append] at member ⊢
      obtain (here | between) | behind := member
      · exact .inl (.inl (mem_globalizeCompound foreign here))
      · exact .inl (.inr between)
      · exact .inr (ih behind)

/-- Globalizing takes away blanks and what surrounds local selectors, and nothing else. -/
theorem mem_globalize
    (foreign : char ∉ localOpening ++ [')'])
    (noBlank : Text.isBlank char = false)
    (member : char ∈ text) :
    char ∈ globalize text :=
  mem_wrapped foreign (Text.mem_trim noBlank member)

end Kept

/-! ## When the text is given back -/

theorem append_singleton_eq_cons_iff {α : Type} {item : α} {items : List α} :
    items ++ [item] = item :: items ↔ ∀ other ∈ items, other = item := by
  induction items generalizing item with
  | nil => simp
  | cons first rest ih =>
      rw [List.cons_append, List.cons.injEq, List.forall_mem_cons]
      constructor
      · rintro ⟨rfl, same⟩
        exact ⟨rfl, ih.mp same⟩
      · rintro ⟨rfl, same⟩
        exact ⟨rfl, ih.mpr same⟩

/-- Moving the first closing parenthesis of a text to its end changes nothing if
nothing else stands behind it. -/
theorem erase_append_eq_iff {text : Text} :
    (text ++ [')']).erase ')' = text ↔ ∀ char ∈ text.dropWhile (· ≠ ')'), char = ')' := by
  induction text with
  | nil => simp
  | cons char rest ih =>
      by_cases closes : char = ')'
      · subst closes
        simpa using append_singleton_eq_cons_iff
      · rw [List.cons_append, List.erase_cons_tail (by simpa using closes), List.cons.injEq,
          List.dropWhile_cons_of_pos (by simpa using closes), ← ih]
        simp

/-- Unwrapping a local selector gives the enclosed text with its first closing
parenthesis at the end, which is the text itself exactly if nothing but closing
parentheses stands behind that one. -/
theorem globalize_local
    {text : Text}
    (notEmpty : text ≠ [])
    (nested : WellNested text)
    (noLineFeed : '\n' ∉ text)
    (noEscape : '\\' ∉ text)
    (noLocal : ¬(":local" : Text) <:+: text) :
    globalize (localOpening ++ text ++ [')']) = (text ++ [')']).erase ')' ∧
      (globalize (localOpening ++ text ++ [')']) = text ↔
        ∀ char ∈ text.dropWhile (· ≠ ')'), char = ')') := by
  have unwrapped := globalize_localOpening_eq notEmpty nested noLineFeed noEscape noLocal
  refine ⟨unwrapped, ?_⟩
  rw [unwrapped]
  exact erase_append_eq_iff

/-- A pseudo-class with a list of selectors, and a selector behind it. -/
def enclosedSample : Text := ".a:is([b], .c) .d"

theorem wellNested_enclosedSample : WellNested enclosedSample := by
  have list : WellNested "[b], .c" :=
    .group (by decide : ('[', ']') ∈ bracketPairs)
      (.append_plain (by decide : ("b" : Text).all (· ∉ ['(', ')', '[', ']']) = true) .nil)
      (.append_plain (by decide : (", .c" : Text).all (· ∉ ['(', ')', '[', ']']) = true) .nil)
  have call : WellNested "([b], .c) .d" :=
    .group (by decide : ('(', ')') ∈ bracketPairs) list
      (.append_plain (by decide : (" .d" : Text).all (· ∉ ['(', ')', '[', ']']) = true) .nil)
  exact .append_plain (by decide : (".a:is" : Text).all (· ∉ ['(', ')', '[', ']']) = true) call

theorem globalize_local_enclosedSample :
    enclosedSample ≠ [] ∧ WellNested enclosedSample ∧ '\n' ∉ enclosedSample ∧
      '\\' ∉ enclosedSample ∧ ¬(":local" : Text) <:+: enclosedSample ∧
      globalize (localOpening ++ enclosedSample ++ [')']) = (".a:is([b], .c .d)" : Text) ∧
      globalize (localOpening ++ enclosedSample ++ [')']) = (enclosedSample ++ [')']).erase ')' ∧
      (globalize (localOpening ++ enclosedSample ++ [')']) = enclosedSample ↔
        ∀ char ∈ enclosedSample.dropWhile (· ≠ ')'), char = ')') := by
  have notEmpty : enclosedSample ≠ [] := by decide
  have noLineFeed : '\n' ∉ enclosedSample := by decide
  have noEscape : '\\' ∉ enclosedSample := by decide
  have noLocal : ¬(":local" : Text) <:+: enclosedSample := by decide +kernel
  exact ⟨notEmpty, wellNested_enclosedSample, noLineFeed, noEscape, noLocal, by decide +kernel,
    globalize_local notEmpty wellNested_enclosedSample noLineFeed noEscape noLocal⟩

/-- Unwrapping a local selector does not always give the enclosed text: a selector
behind a pseudo-class gets into its parentheses. -/
theorem globalize_local_not_always_enclosed :
    ¬∀ text : Text, text ≠ [] → WellNested text → '\n' ∉ text → '\\' ∉ text →
      '"' ∉ text → '\'' ∉ text → ¬(":local" : Text) <:+: text →
        globalize (localOpening ++ text ++ [')']) = text := by
  intro alwaysEnclosed
  have same := alwaysEnclosed enclosedSample (by decide) wellNested_enclosedSample (by decide)
    (by decide) (by decide) (by decide) (by decide +kernel)
  have moved : globalize (localOpening ++ enclosedSample ++ [')']) ≠ enclosedSample := by
    decide +kernel
  exact moved same

end Selector
end ComponentPipeline
