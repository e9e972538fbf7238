import ComponentPipeline.Proofs.Selector.BareMarker
import ComponentPipeline.Proofs.Text.Trimming
import ComponentPipeline.Selector.Globalize

/-!
# Bare markers in the parts of a text

Whether a text has a bare marker is a matter of its parts: a character that
cannot belong to a marker and cannot go on with the name of one takes a text
apart into two that are looked at on their own.  Open parentheses do not count,
and neither do the blanks around a text.
-/

namespace ComponentPipeline

/-- Stretches of codes that have the blank characters in them and no letter or
numeral. -/
def Text.blankStretches : List (Nat × Nat) :=
  [(0x0000, 0x002F), (0x0085, 0x00A0), (0x1680, 0x1680), (0x2000, 0x205F), (0x3000, 0x3000)]

theorem Text.exists_stretch_of_isBlank
    {char : Char}
    (blank : isBlank char = true) :
    ∃ stretch ∈ blankStretches, stretch.1 ≤ char.toNat ∧ char.toNat ≤ stretch.2 := by
  simp only [isBlank, Bool.or_eq_true, Bool.and_eq_true, decide_eq_true_eq, beq_iff_eq] at blank
  simp only [blankStretches, List.mem_cons, List.not_mem_nil, or_false, exists_eq_or_imp,
    exists_eq_left]
  omega

theorem Text.alphanumeric_apart_from_stretches :
    ∀ stretch ∈ blankStretches, ∀ range ∈ Alphanumeric.ranges,
      range.2 < stretch.1 ∨ stretch.2 < range.1 := by
  decide +kernel

/-- A blank is neither a letter nor a numeral. -/
theorem Text.isAlphanumeric_eq_false_of_isBlank
    {char : Char}
    (blank : isBlank char = true) :
    isAlphanumeric char = false := by
  obtain ⟨stretch, isStretch, above, below⟩ := exists_stretch_of_isBlank blank
  rw [isAlphanumeric, List.any_eq_false]
  intro range isRange inside
  rw [Bool.and_eq_true, decide_eq_true_eq, decide_eq_true_eq] at inside
  rcases alphanumeric_apart_from_stretches stretch isStretch range isRange with before | behind
  · omega
  · omega

namespace Selector

/-! ## The state that counts -/

/-- The string that is open, by its quote, and whether the next character is
escaped. -/
structure Quoting where
  /-- The quote of the string that is open. -/
  quote : Option Char
  /-- Whether the next character is escaped. -/
  escaped : Bool
  deriving DecidableEq, Repr

namespace Quoting

/-- Outside strings and not behind a backslash. -/
def outside : Quoting := ⟨none, false⟩

/-- The state after a character. -/
def step (quoting : Quoting) (char : Char) : Quoting :=
  if quoting.escaped then { quoting with escaped := false }
  else if char = '\\' then { quoting with escaped := true }
  else
    match quoting.quote with
    | some quote => if char = quote then { quoting with quote := none } else quoting
    | none => if char = '"' ∨ char = '\'' then { quoting with quote := some char } else quoting

end Quoting

/-- The state after a text. -/
def Quoting.over (quoting : Quoting) (text : Text) : Quoting :=
  text.foldl Quoting.step quoting

theorem Quoting.over_append (quoting : Quoting) (first second : Text) :
    quoting.over (first ++ second) = (quoting.over first).over second :=
  List.foldl_append

namespace MarkerScan

theorem over_append (scan : MarkerScan) (first second : Text) :
    scan.over (first ++ second) = (scan.over first).over second :=
  List.foldl_append

/-- The string that is open and whether the next character is escaped. -/
def quoting (scan : MarkerScan) : Quoting := ⟨scan.quote, scan.escaped⟩

theorem quoting_step (scan : MarkerScan) (char : Char) :
    (scan.step char).quoting = scan.quoting.step char := by
  obtain ⟨depth, quote, escaped, afterColon⟩ := scan
  unfold MarkerScan.step Quoting.step quoting
  dsimp only
  cases escaped with
  | true => rfl
  | false =>
      by_cases backslash : char = '\\'
      · simp [backslash]
      · cases quote with
        | some quote =>
            by_cases closes : char = quote
            · simp only [Bool.false_eq_true, if_false, if_neg backslash, if_pos closes]
            · simp only [Bool.false_eq_true, if_false, if_neg backslash, if_neg closes]
        | none =>
            by_cases opens : char = '"' ∨ char = '\''
            · simp [backslash, opens]
            · by_cases deeper : char = '(' ∨ char = '['
              · simp [backslash, opens, deeper]
              · by_cases shallower : char = ')' ∨ char = ']' <;>
                  simp [backslash, opens, deeper, shallower]

theorem quoting_over (scan : MarkerScan) (text : Text) :
    (scan.over text).quoting = scan.quoting.over text := by
  induction text generalizing scan with
  | nil => rfl
  | cons char rest ih =>
      rw [over_cons, ih, quoting_step]
      rfl

theorem afterColon_step (scan : MarkerScan) (char : Char) :
    (scan.step char).afterColon = (char == ':') := by
  obtain ⟨depth, quote, escaped, afterColon⟩ := scan
  unfold MarkerScan.step
  dsimp only
  repeat' split
  all_goals rfl

theorem mayMark_eq_true_iff {scan : MarkerScan} :
    scan.mayMark = true ↔ scan.quoting = .outside ∧ scan.afterColon = false := by
  obtain ⟨depth, quote, escaped, afterColon⟩ := scan
  cases quote <;> cases escaped <;> cases afterColon <;> simp [mayMark, quoting, Quoting.outside]

/-- Open parentheses do not count. -/
theorem mayMark_over_congr
    {scan other : MarkerScan}
    (sameQuoting : scan.quoting = other.quoting)
    (sameColon : scan.afterColon = other.afterColon)
    (text : Text) :
    (scan.over text).mayMark = (other.over text).mayMark := by
  induction text generalizing scan other with
  | nil =>
      rw [over_nil, over_nil, Bool.eq_iff_iff, mayMark_eq_true_iff, mayMark_eq_true_iff,
        sameQuoting, sameColon]
  | cons char rest ih =>
      rw [over_cons, over_cons]
      apply ih
      · rw [quoting_step, quoting_step, sameQuoting]
      · rw [afterColon_step, afterColon_step]

end MarkerScan

/-- Two states that differ in the open parentheses find the same markers. -/
theorem hasMarkerFrom_congr
    {scan other : MarkerScan}
    (sameQuoting : scan.quoting = other.quoting)
    (sameColon : scan.afterColon = other.afterColon)
    {text : Text} :
    HasMarkerFrom scan text ↔ HasMarkerFrom other text := by
  have same (before : Text) : (scan.over before).mayMark = (other.over before).mayMark :=
    MarkerScan.mayMark_over_congr sameQuoting sameColon before
  simp only [HasMarkerFrom, same]

/-- A state in which a marker may start looks for markers as the first state
does. -/
theorem hasMarkerFrom_iff_of_mayMark
    {scan : MarkerScan}
    (may : scan.mayMark = true)
    {text : Text} :
    HasMarkerFrom scan text ↔ HasMarker text := by
  obtain ⟨outside, noColon⟩ := MarkerScan.mayMark_eq_true_iff.mp may
  exact hasMarkerFrom_congr outside noColon

/-! ## Characters that leave strings and escapes alone -/

/-- A state that is not behind a backslash; if a string is open, its quote is
one. -/
structure Quoting.Resting (quoting : Quoting) : Prop where
  /-- The next character is not escaped. -/
  unescaped : quoting.escaped = false
  /-- An open string was opened by a quote. -/
  quoted : ∀ quote ∈ quoting.quote, quote = '"' ∨ quote = '\''

theorem Quoting.resting_outside : Quoting.outside.Resting := ⟨rfl, by simp [outside]⟩

theorem MarkerScan.resting_initial : MarkerScan.initial.quoting.Resting :=
  Quoting.resting_outside

/-- A character that is neither a quote nor a backslash. -/
abbrev IsPlain (char : Char) : Prop :=
  Quoting.outside.step char = .outside

theorem isPlain_iff {char : Char} :
    IsPlain char ↔ char ≠ '\\' ∧ char ≠ '"' ∧ char ≠ '\'' := by
  unfold IsPlain Quoting.step Quoting.outside
  by_cases backslash : char = '\\'
  · simp [backslash]
  · by_cases quotes : char = '"' ∨ char = '\''
    · simp only [Bool.false_eq_true, if_false, if_neg backslash, if_pos quotes]
      rcases quotes with rfl | rfl <;> simp
    · simp only [Bool.false_eq_true, if_false, if_neg backslash, if_neg quotes]
      simpa [backslash] using quotes

namespace Quoting

variable {quoting : Quoting}

theorem Resting.step_eq
    (resting : quoting.Resting)
    {char : Char}
    (plain : IsPlain char) :
    quoting.step char = quoting := by
  obtain ⟨quote, escaped⟩ := quoting
  obtain ⟨rfl, quoted⟩ := resting
  obtain ⟨noBackslash, noDouble, noSingle⟩ := isPlain_iff.mp plain
  unfold Quoting.step
  cases quote with
  | none => simp [noBackslash, noDouble, noSingle]
  | some quote =>
      have differs : char ≠ quote := by
        rcases quoted quote rfl with rfl | rfl
        · exact noDouble
        · exact noSingle
      simp [noBackslash, differs]

theorem Resting.over_eq
    (resting : quoting.Resting)
    {text : Text}
    (plain : ∀ char ∈ text, IsPlain char) :
    quoting.over text = quoting := by
  induction text with
  | nil => rfl
  | cons char rest ih =>
      have later := ih fun other member => plain other (List.mem_cons_of_mem _ member)
      rw [Quoting.over, List.foldl_cons, resting.step_eq (plain char List.mem_cons_self)]
      exact later

end Quoting

/-! ## Separators -/

/-- A character that is no part of a marker and does not go on with its name,
and after which a marker may start outside strings. -/
structure Separates (char : Char) : Prop where
  /-- It is no part of a marker. -/
  foreign : char ∉ marker
  /-- It does not go on with the name of a marker. -/
  ends : continuesMarker char = false
  /-- It is neither a quote nor a backslash. -/
  plain : IsPlain char

theorem Separates.afterColon_step
    {char : Char}
    (separates : Separates char)
    (scan : MarkerScan) :
    (scan.step char).afterColon = false := by
  rw [MarkerScan.afterColon_step, beq_eq_false_iff_ne]
  rintro rfl
  exact separates.foreign (by decide)

theorem Separates.mayMark_step
    {char : Char}
    (separates : Separates char)
    {scan : MarkerScan}
    (outside : scan.quoting = .outside) :
    (scan.step char).mayMark = true := by
  rw [MarkerScan.mayMark_eq_true_iff, MarkerScan.quoting_step, outside, separates.plain]
  exact ⟨rfl, separates.afterColon_step scan⟩

/-- What is open behind a separator is what was open before it. -/
theorem Separates.hasMarkerFrom_step_iff
    {char : Char}
    (separates : Separates char)
    {scan : MarkerScan}
    (resting : scan.quoting.Resting)
    (noColon : scan.afterColon = false)
    {text : Text} :
    HasMarkerFrom (scan.step char) text ↔ HasMarkerFrom scan text := by
  apply hasMarkerFrom_congr
  · rw [MarkerScan.quoting_step, resting.step_eq separates.plain]
  · rw [separates.afterColon_step, noColon]

theorem separates_of_isBlank
    {char : Char}
    (blank : Text.isBlank char = true) :
    Separates char := by
  have differs (other : Char) (notBlank : Text.isBlank other = false) : char ≠ other := by
    rintro rfl
    rw [notBlank] at blank
    cases blank
  constructor
  · intro member
    simp only [marker, List.mem_cons, List.not_mem_nil, or_false] at member
    rcases member with rfl | rfl | rfl | rfl | rfl | rfl | rfl <;>
      exact absurd blank (by decide)
  · simp [continuesMarker, differs '(' (by decide), differs '-' (by decide),
      differs '_' (by decide), differs '\\' (by decide),
      Text.isAlphanumeric_eq_false_of_isBlank blank]
  · exact isPlain_iff.mpr
      ⟨differs '\\' (by decide), differs '"' (by decide), differs '\'' (by decide)⟩

theorem separates_of_continuesCombinator
    {char : Char}
    (continues : continuesCombinator char = true) :
    Separates char := by
  simp only [continuesCombinator, Bool.or_eq_true, beq_iff_eq] at continues
  rcases continues with (((blank | rfl) | rfl) | rfl) | rfl
  · exact separates_of_isBlank blank
  all_goals exact ⟨by decide, by decide +kernel, by decide⟩

section Parts

variable {scan : MarkerScan} {char : Char} {first second : Text}

/-- A marker in a text stands before a character that is no part of it, or behind
it. -/
theorem before_or_behind_of_append_eq
    {before after : Text}
    (foreign : char ∉ marker)
    (parts : first ++ char :: second = before ++ marker ++ after) :
    (∃ between, first = before ++ marker ++ between ∧ after = between ++ char :: second) ∨
      ∃ between, before = first ++ char :: between ∧ second = between ++ marker ++ after := by
  rw [List.append_assoc] at parts
  obtain ⟨between, isBefore, behind⟩ | ⟨within, isFirst, ahead⟩ :=
    List.append_eq_append_iff.mp parts
  · cases between with
    | nil =>
        have isColon := (List.cons.inj behind).1
        exact absurd (by rw [isColon]; decide) foreign
    | cons other between =>
        obtain ⟨rfl, isSecond⟩ := List.cons.inj behind
        exact .inr ⟨between, isBefore, by rw [List.append_assoc]; exact isSecond⟩
  · obtain ⟨between, rfl, isAfter⟩ | ⟨between, isMarker, behind⟩ :=
      List.append_eq_append_iff.mp ahead
    · exact .inl ⟨between, by rw [List.append_assoc]; exact isFirst, isAfter⟩
    · cases between with
      | nil =>
          rw [List.append_nil] at isMarker
          exact .inl ⟨[], by rw [isFirst, isMarker, List.append_nil], behind.symm⟩
      | cons other between =>
          have isPart : other ∈ marker := by simp [isMarker]
          exact absurd ((List.cons.inj behind).1 ▸ isPart) foreign

theorem endsMarker_append_iff (ends : continuesMarker char = false) :
    EndsMarker (first ++ char :: second) ↔ EndsMarker first := by
  cases first with
  | nil => simp [EndsMarker, ends]
  | cons other first => simp [EndsMarker]

/-- A bare marker stays one before a character that does not go on with its
name. -/
theorem isSome_afterMarker?_append
    (ends : continuesMarker char = false)
    (marked : (afterMarker? first).isSome = true) :
    (afterMarker? (first ++ char :: second)).isSome = true := by
  simp only [Option.isSome_iff_exists, afterMarker?_eq_some_iff] at marked ⊢
  obtain ⟨rest, rfl, endsRest⟩ := marked
  exact ⟨rest ++ char :: second, by simp, (endsMarker_append_iff ends).mpr endsRest⟩

/-- A separator takes a text apart. -/
theorem markerAt_append_iff
    {σ : Type}
    {step : σ → Char → σ}
    {required : σ → Prop}
    {state : σ}
    (foreign : char ∉ marker)
    (ends : continuesMarker char = false) :
    MarkerAt step required state (first ++ char :: second) ↔
      MarkerAt step required state first ∨
        MarkerAt step required (step (first.foldl step state) char) second := by
  constructor
  · rintro ⟨before, after, parts, endsAfter, meets⟩
    obtain ⟨between, rfl, rfl⟩ | ⟨between, rfl, rfl⟩ :=
      before_or_behind_of_append_eq foreign parts
    · exact .inl ⟨before, between, rfl, (endsMarker_append_iff ends).mp endsAfter, meets⟩
    · rw [List.foldl_append] at meets
      exact .inr ⟨between, after, rfl, endsAfter, meets⟩
  · rintro (⟨before, after, rfl, endsAfter, meets⟩ | ⟨before, after, rfl, endsAfter, meets⟩)
    · exact ⟨before, after ++ char :: second, by simp,
        (endsMarker_append_iff ends).mpr endsAfter, meets⟩
    · refine ⟨first ++ char :: before, after, by simp, endsAfter, ?_⟩
      rw [List.foldl_append]
      exact meets

theorem hasMarkerWhere_append_iff
    {required : MarkerScan → Prop}
    (foreign : char ∉ marker)
    (ends : continuesMarker char = false) :
    HasMarkerWhere required scan (first ++ char :: second) ↔
      HasMarkerWhere required scan first ∨
        HasMarkerWhere required ((scan.over first).step char) second := by
  simp only [hasMarkerWhere_iff_markerAt]
  exact markerAt_append_iff foreign ends

theorem hasMarkerFrom_append_iff
    (foreign : char ∉ marker)
    (ends : continuesMarker char = false) :
    HasMarkerFrom scan (first ++ char :: second) ↔
      HasMarkerFrom scan first ∨ HasMarkerFrom ((scan.over first).step char) second := by
  simp only [← hasMarkerWhere_true_iff]
  exact hasMarkerWhere_append_iff foreign ends

end Parts

/-! ## Blanks around a text -/

theorem hasMarkerFrom_append_iff_of_separates
    {scan : MarkerScan}
    (resting : scan.quoting.Resting)
    (noColon : scan.afterColon = false)
    {leading text : Text}
    (separates : ∀ char ∈ leading, Separates char) :
    HasMarkerFrom scan (leading ++ text) ↔ HasMarkerFrom scan text := by
  induction leading with
  | nil => rfl
  | cons char rest ih =>
      have here := separates char List.mem_cons_self
      have apart : HasMarkerFrom scan ([] ++ char :: (rest ++ text)) ↔ _ :=
        hasMarkerFrom_append_iff here.foreign here.ends
      have later : HasMarkerFrom (scan.step char) (rest ++ text) ↔ _ :=
        here.hasMarkerFrom_step_iff resting noColon
      have others := ih fun other member => separates other (List.mem_cons_of_mem _ member)
      rw [List.nil_append, MarkerScan.over_nil, later, others] at apart
      simpa [not_hasMarkerFrom_nil] using apart

theorem hasMarker_append_iff_of_separates
    {leading text : Text}
    (separates : ∀ char ∈ leading, Separates char) :
    HasMarker (leading ++ text) ↔ HasMarker text :=
  hasMarkerFrom_append_iff_of_separates MarkerScan.resting_initial rfl separates

theorem not_hasMarkerFrom_of_isBlankText
    {text : Text}
    (blank : Text.isBlankText text = true)
    (scan : MarkerScan) :
    ¬HasMarkerFrom scan text := by
  rintro ⟨before, after, rfl, -, -⟩
  have colon : Text.isBlank ':' = true :=
    List.all_eq_true.mp blank ':' (by simp [marker])
  cases colon

theorem hasMarkerWhere_append_iff_of_isBlankText
    {required : MarkerScan → Prop}
    {scan : MarkerScan}
    {text trailing : Text}
    (blank : Text.isBlankText trailing = true) :
    HasMarkerWhere required scan (text ++ trailing) ↔ HasMarkerWhere required scan text := by
  cases trailing with
  | nil => rw [List.append_nil]
  | cons char rest =>
      obtain ⟨blankHere, blankRest⟩ := Bool.and_eq_true_iff.mp blank
      have separates := separates_of_isBlank blankHere
      rw [hasMarkerWhere_append_iff separates.foreign separates.ends]
      exact or_iff_left fun marked =>
        not_hasMarkerFrom_of_isBlankText blankRest _ marked.hasMarkerFrom

theorem hasMarkerFrom_append_iff_of_isBlankText
    {scan : MarkerScan}
    {text trailing : Text}
    (blank : Text.isBlankText trailing = true) :
    HasMarkerFrom scan (text ++ trailing) ↔ HasMarkerFrom scan text := by
  simp only [← hasMarkerWhere_true_iff]
  exact hasMarkerWhere_append_iff_of_isBlankText blank

/-- The blanks around a text do not count. -/
theorem hasMarker_trim_iff {text : Text} :
    HasMarker (Text.trim text) ↔ HasMarker text := by
  obtain ⟨leading, trailing, parts, blankBefore, blankAfter⟩ := Text.exists_eq_append_trim text
  generalize Text.trim text = kept at parts
  have separates : ∀ char ∈ leading, Separates char := fun char member =>
    separates_of_isBlank (List.all_eq_true.mp blankBefore char member)
  rw [parts, HasMarker, HasMarker, hasMarkerFrom_append_iff_of_isBlankText blankAfter]
  exact (hasMarker_append_iff_of_separates separates).symm

/-! ## Parentheses after a marker -/

theorem isPlain_of_mem_globalOpening : ∀ char ∈ marker ++ ['('], IsPlain char := by
  simp [marker, isPlain_iff]

theorem separates_closingParenthesis : Separates ')' :=
  ⟨by decide, by decide +kernel, by decide⟩

/-- A text has the markers that it has in the parentheses of a marker. -/
theorem hasMarkerFrom_parenthesized_iff
    {scan : MarkerScan}
    (resting : scan.quoting.Resting)
    (noColon : scan.afterColon = false)
    {text : Text} :
    HasMarkerFrom scan (marker ++ '(' :: (text ++ [')'])) ↔ HasMarkerFrom scan text := by
  have absent : scan.markerAt? (marker ++ '(' :: (text ++ [')'])) = none := by
    unfold MarkerScan.markerAt?
    split <;> rfl
  have opening : HasMarkerFrom scan (marker ++ '(' :: (text ++ [')'])) ↔
      HasMarkerFrom (scan.over (marker ++ ['('])) (text ++ [')']) := by
    have whole : marker ++ '(' :: (text ++ [')']) =
        ':' :: ((marker.tail ++ ['(']) ++ (text ++ [')'])) := rfl
    rw [whole] at absent ⊢
    rw [hasMarkerFrom_cons_iff, absent, ← hasMarkerWhere_true_iff,
      hasMarkerWhere_append_iff_of_noColon (by decide), hasMarkerWhere_true_iff]
    exact or_iff_right Bool.false_ne_true
  have opened : (scan.over (marker ++ ['('])).quoting = scan.quoting := by
    rw [MarkerScan.quoting_over, resting.over_eq isPlain_of_mem_globalOpening]
  have inside : HasMarkerFrom (scan.over (marker ++ ['('])) (text ++ [')']) ↔
      HasMarkerFrom scan (text ++ [')']) :=
    hasMarkerFrom_congr opened (by rw [noColon]; exact MarkerScan.afterColon_step _ '(')
  have apart : HasMarkerFrom scan (text ++ ')' :: []) ↔ _ :=
    hasMarkerFrom_append_iff separates_closingParenthesis.foreign
      separates_closingParenthesis.ends
  rw [or_iff_left (not_hasMarkerFrom_nil _)] at apart
  exact opening.trans (inside.trans apart)

/-! ## What splitting gives -/

/-- A text without a marker is one segment. -/
theorem splitFrom_of_not_hasMarkerFrom
    {scan : MarkerScan}
    {text : Text}
    (unmarked : ¬HasMarkerFrom scan text) :
    splitFrom scan text = .segments text [] := by
  fun_induction splitFrom scan text with
  | case1 scan => rfl
  | case2 scan char rest tail found nested =>
      exact absurd (hasMarkerFrom_cons_iff.mpr (.inl (by rw [found]; rfl))) unmarked
  | case3 scan char rest tail found flat ih =>
      exact absurd (hasMarkerFrom_cons_iff.mpr (.inl (by rw [found]; rfl))) unmarked
  | case4 scan char rest absent ih =>
      rw [ih fun marked => unmarked (hasMarkerFrom_cons_iff.mpr (.inr marked))]
      rfl

instance (text : Text) : Decidable (HasMarker text) :=
  decidable_of_iff (splitOnMarker text ≠ .segments text [])
    ⟨fun splits => Classical.byContradiction fun unmarked =>
        splits (splitFrom_of_not_hasMarkerFrom unmarked),
      fun marked whole => (hasMarker_iff_of_splitOnMarker whole).mp marked rfl⟩

/-- A text is its segments with a marker before each but the first. -/
theorem eq_of_splitFrom
    {scan : MarkerScan}
    {text beginning : Text}
    {rest : List Text}
    (split : splitFrom scan text = .segments beginning rest) :
    text = beginning ++ rest.flatMap (marker ++ ·) := by
  fun_induction splitFrom scan text generalizing beginning rest with
  | case1 scan =>
      cases split
      rfl
  | case2 scan char tail after found nested => cases split
  | case3 scan char tail after found flat ih =>
      obtain ⟨first, others, later, rfl, rfl⟩ := Marked.exists_of_consMarker_eq split
      obtain ⟨-, parts, -⟩ := MarkerScan.markerAt?_eq_some_iff.mp found
      rw [parts, List.flatMap_cons, List.nil_append, List.append_assoc, ← ih later]
  | case4 scan char tail absent ih =>
      obtain ⟨first, later, rfl⟩ := Marked.exists_of_consChar_eq split
      rw [List.cons_append, ← ih later]

theorem mayMark_stepMarker_of_markerAt?
    {scan : MarkerScan}
    {text after : Text}
    (found : scan.markerAt? text = some after) :
    scan.stepMarker.mayMark = true := by
  obtain ⟨may, -, -⟩ := MarkerScan.markerAt?_eq_some_iff.mp found
  obtain ⟨outside, -⟩ := MarkerScan.mayMark_eq_true_iff.mp may
  exact MarkerScan.mayMark_eq_true_iff.mpr ⟨outside, rfl⟩

/-- A marker at the start of a segment starts the text as well. -/
theorem isSome_markerAt?_of_segment
    {scan : MarkerScan}
    {first : Text}
    (marked : (scan.markerAt? first).isSome = true)
    (others : List Text) :
    (scan.markerAt? (first ++ others.flatMap (marker ++ ·))).isSome = true := by
  cases others with
  | nil =>
      rw [List.flatMap_nil, List.append_nil]
      exact marked
  | cons segment others =>
      have parts : (segment :: others).flatMap (marker ++ ·) =
          ':' :: (marker.tail ++ segment ++ others.flatMap (marker ++ ·)) := by
        simp [marker]
      rw [parts]
      unfold MarkerScan.markerAt? at marked ⊢
      split
      · rename_i may
        rw [if_pos may] at marked
        exact isSome_afterMarker?_append (by decide +kernel) marked
      · rename_i mayNot
        rw [if_neg mayNot] at marked
        cases marked

/-- No segment has a marker. -/
theorem not_hasMarker_of_splitFrom
    {scan : MarkerScan}
    {text beginning : Text}
    {rest : List Text}
    (split : splitFrom scan text = .segments beginning rest) :
    ¬HasMarkerFrom scan beginning ∧ ∀ segment ∈ rest, ¬HasMarker segment := by
  fun_induction splitFrom scan text generalizing beginning rest with
  | case1 scan =>
      cases split
      exact ⟨not_hasMarkerFrom_nil scan, by simp⟩
  | case2 scan char tail after found nested => cases split
  | case3 scan char tail after found flat ih =>
      obtain ⟨first, others, later, rfl, rfl⟩ := Marked.exists_of_consMarker_eq split
      obtain ⟨firstUnmarked, othersUnmarked⟩ := ih later
      rw [hasMarkerFrom_iff_of_mayMark (mayMark_stepMarker_of_markerAt? found)]
        at firstUnmarked
      exact ⟨not_hasMarkerFrom_nil scan,
        List.forall_mem_cons.mpr ⟨firstUnmarked, othersUnmarked⟩⟩
  | case4 scan char tail absent ih =>
      obtain ⟨first, later, rfl⟩ := Marked.exists_of_consChar_eq split
      obtain ⟨firstUnmarked, othersUnmarked⟩ := ih later
      refine ⟨?_, othersUnmarked⟩
      rw [hasMarkerFrom_cons_iff, not_or]
      refine ⟨fun marked => ?_, firstUnmarked⟩
      have here := isSome_markerAt?_of_segment marked rest
      rw [List.cons_append, ← eq_of_splitFrom later, absent] at here
      cases here

end Selector
end ComponentPipeline
