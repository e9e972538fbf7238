import ComponentPipeline.Selector.Marker

/-!
# Bare markers in a selector

Where a bare marker stands is told without splitting: the text before it leaves
a scan neither in a string nor behind a backslash and does not end with a
colon, and what follows does not go on with the marker's name.  Splitting finds
a segment after the first one exactly in the selectors that have such a marker.
-/

namespace ComponentPipeline
namespace Selector

/-- The state of a scan that has gone over a text. -/
def MarkerScan.over (scan : MarkerScan) (text : Text) : MarkerScan :=
  text.foldl MarkerScan.step scan

@[simp] theorem MarkerScan.over_nil (scan : MarkerScan) :
    scan.over [] = scan := rfl

@[simp] theorem MarkerScan.over_cons
    (scan : MarkerScan)
    (char : Char)
    (rest : Text) :
    scan.over (char :: rest) = (scan.step char).over rest := rfl

/-- A text that does not go on with the name of a marker before it. -/
def EndsMarker (text : Text) : Prop :=
  ∀ char ∈ text.head?, continuesMarker char = false

theorem afterMarker?_eq_some_iff {text rest : Text} :
    afterMarker? text = some rest ↔ text = marker ++ rest ∧ EndsMarker rest := by
  rw [← Text.after?_eq_some_iff]
  unfold afterMarker? EndsMarker
  cases Text.after? marker text with
  | none => simp
  | some tail =>
      cases tail with
      | nil =>
          constructor
          · intro same
            cases same
            simp
          · exact fun both => both.1
      | cons char tail =>
          cases continues : continuesMarker char with
          | true =>
              simp only [continues, if_true, reduceCtorEq, false_iff, not_and]
              intro same ends
              cases same
              simp [continues] at ends
          | false =>
              simp only [continues, Bool.false_eq_true, if_false]
              constructor
              · intro same
                cases same
                simpa using continues
              · exact fun both => both.1

theorem MarkerScan.markerAt?_eq_some_iff {scan : MarkerScan} {text rest : Text} :
    scan.markerAt? text = some rest ↔
      scan.mayMark = true ∧ text = marker ++ rest ∧ EndsMarker rest := by
  rw [← afterMarker?_eq_some_iff]
  unfold MarkerScan.markerAt?
  cases scan.mayMark <;> simp

/-- A marker at a place where the state of a scan is as required, and behind it what does
not go on with its name. -/
def MarkerAt
    {σ : Type}
    (step : σ → Char → σ)
    (required : σ → Prop)
    (state : σ)
    (text : Text) : Prop :=
  ∃ before after, text = before ++ marker ++ after ∧ EndsMarker after ∧
    required (before.foldl step state)

section At

variable {σ : Type} {step : σ → Char → σ} {required : σ → Prop} {state : σ}

theorem not_markerAt_nil : ¬MarkerAt step required state [] := by
  rintro ⟨before, after, parts, -⟩
  simp [marker] at parts

theorem MarkerAt.colon_mem
    {text : Text}
    (marked : MarkerAt step required state text) :
    ':' ∈ text := by
  obtain ⟨before, after, rfl, -⟩ := marked
  simp [marker]

/-- A marker at the start of a text, or one in the rest of it. -/
theorem markerAt_cons_iff {char : Char} {rest : Text} :
    MarkerAt step required state (char :: rest) ↔
      (afterMarker? (char :: rest)).isSome = true ∧ required state ∨
        MarkerAt step required (step state char) rest := by
  simp only [Option.isSome_iff_exists, afterMarker?_eq_some_iff]
  constructor
  · rintro ⟨before, after, parts, ends, meets⟩
    cases before with
    | nil => exact .inl ⟨⟨after, parts, ends⟩, meets⟩
    | cons first before =>
        obtain ⟨rfl, others⟩ := List.cons.inj parts
        exact .inr ⟨before, after, others, ends, meets⟩
  · rintro (⟨⟨after, parts, ends⟩, meets⟩ | ⟨before, after, rfl, ends, meets⟩)
    · exact ⟨[], after, parts, ends, meets⟩
    · exact ⟨char :: before, after, rfl, ends, meets⟩

/-- No marker starts in a text without a colon. -/
theorem markerAt_append_iff_of_noColon
    {leading text : Text}
    (noColon : ':' ∉ leading) :
    MarkerAt step required state (leading ++ text) ↔
      MarkerAt step required (leading.foldl step state) text := by
  induction leading generalizing state with
  | nil => rfl
  | cons char rest ih =>
      have absent : ¬(afterMarker? (char :: (rest ++ text))).isSome = true := by
        rw [Option.isSome_iff_exists]
        rintro ⟨after, found⟩
        obtain ⟨parts, -⟩ := afterMarker?_eq_some_iff.mp found
        have isColon := (List.cons.inj parts).1
        exact noColon (by simp [isColon])
      rw [List.cons_append, markerAt_cons_iff, or_iff_right fun here => absent here.1,
        ih fun member => noColon (List.mem_cons_of_mem _ member), List.foldl_cons]

end At

/-- A bare marker in a text that is scanned from a state on. -/
def HasMarkerFrom (scan : MarkerScan) (text : Text) : Prop :=
  ∃ before after, text = before ++ marker ++ after ∧
    (scan.over before).mayMark = true ∧ EndsMarker after

/-- A bare marker in a selector. -/
def HasMarker (selector : Text) : Prop :=
  HasMarkerFrom .initial selector

theorem not_hasMarkerFrom_nil (scan : MarkerScan) : ¬HasMarkerFrom scan [] := by
  rintro ⟨before, after, parts, -, -⟩
  simp [marker] at parts

/-- A bare marker at a place where the state of the scan is as required. -/
def HasMarkerWhere
    (required : MarkerScan → Prop)
    (scan : MarkerScan)
    (text : Text) : Prop :=
  ∃ before after, text = before ++ marker ++ after ∧
    (scan.over before).mayMark = true ∧ EndsMarker after ∧ required (scan.over before)

section Where

variable {required : MarkerScan → Prop} {scan : MarkerScan}

theorem hasMarkerWhere_true_iff {text : Text} :
    HasMarkerWhere (fun _ => True) scan text ↔ HasMarkerFrom scan text := by
  simp only [HasMarkerWhere, HasMarkerFrom, and_true]

theorem HasMarkerWhere.hasMarkerFrom
    {text : Text}
    (marked : HasMarkerWhere required scan text) :
    HasMarkerFrom scan text := by
  obtain ⟨before, after, parts, may, ends, -⟩ := marked
  exact ⟨before, after, parts, may, ends⟩

theorem hasMarkerWhere_iff_markerAt {text : Text} :
    HasMarkerWhere required scan text ↔
      MarkerAt MarkerScan.step (fun scan => scan.mayMark = true ∧ required scan) scan text := by
  constructor
  · rintro ⟨before, after, parts, may, ends, meets⟩
    exact ⟨before, after, parts, ends, may, meets⟩
  · rintro ⟨before, after, parts, ends, may, meets⟩
    exact ⟨before, after, parts, may, ends, meets⟩

theorem hasMarkerWhere_cons_iff {char : Char} {rest : Text} :
    HasMarkerWhere required scan (char :: rest) ↔
      (scan.markerAt? (char :: rest)).isSome = true ∧ required scan ∨
        HasMarkerWhere required (scan.step char) rest := by
  rw [hasMarkerWhere_iff_markerAt, markerAt_cons_iff, ← hasMarkerWhere_iff_markerAt,
    MarkerScan.markerAt?]
  cases scan.mayMark <;> simp

theorem hasMarkerFrom_cons_iff {char : Char} {rest : Text} :
    HasMarkerFrom scan (char :: rest) ↔
      (scan.markerAt? (char :: rest)).isSome = true ∨
        HasMarkerFrom (scan.step char) rest := by
  simp only [← hasMarkerWhere_true_iff, hasMarkerWhere_cons_iff, and_true]

theorem hasMarkerWhere_append_iff_of_noColon
    {leading text : Text}
    (noColon : ':' ∉ leading) :
    HasMarkerWhere required scan (leading ++ text) ↔
      HasMarkerWhere required (scan.over leading) text := by
  simp only [hasMarkerWhere_iff_markerAt]
  exact markerAt_append_iff_of_noColon noColon

end Where

/-! ## What splitting finds -/

namespace Marked

variable {marked : Marked} {char : Char} {beginning : Text} {rest : List Text}

theorem consChar_eq_nested_iff : marked.consChar char = .nested ↔ marked = .nested := by
  cases marked <;> simp [consChar]

theorem consMarker_eq_nested_iff : marked.consMarker = .nested ↔ marked = .nested := by
  cases marked <;> simp [consMarker]

/-- A character in front belongs to the text before the first marker. -/
theorem exists_of_consChar_eq
    (split : marked.consChar char = .segments beginning rest) :
    ∃ first, marked = .segments first rest ∧ beginning = char :: first := by
  cases marked with
  | nested => cases split
  | segments first others =>
      cases split
      exact ⟨first, rfl, rfl⟩

/-- Behind a marker in front, what was before the first marker is a segment. -/
theorem exists_of_consMarker_eq
    (split : marked.consMarker = .segments beginning rest) :
    ∃ first others, marked = .segments first others ∧ beginning = [] ∧
      rest = first :: others := by
  cases marked with
  | nested => cases split
  | segments first others =>
      cases split
      exact ⟨first, others, rfl, rfl, rfl⟩

end Marked

theorem hasMarkerFrom_iff_of_splitFrom
    {scan : MarkerScan}
    {text beginning : Text}
    {rest : List Text}
    (split : splitFrom scan text = .segments beginning rest) :
    HasMarkerFrom scan text ↔ rest ≠ [] := by
  fun_induction splitFrom scan text generalizing beginning rest with
  | case1 scan =>
      cases split
      simp [not_hasMarkerFrom_nil]
  | case2 scan char tail after found nested => cases split
  | case3 scan char tail after found flat ih =>
      obtain ⟨first, others, -, -, rfl⟩ := Marked.exists_of_consMarker_eq split
      rw [hasMarkerFrom_cons_iff]
      simp [found]
  | case4 scan char tail absent ih =>
      obtain ⟨first, later, rfl⟩ := Marked.exists_of_consChar_eq split
      rw [hasMarkerFrom_cons_iff, ih later]
      simp [absent]

/-- A selector that splits has a bare marker exactly if there is a segment
after the first one. -/
theorem hasMarker_iff_of_splitOnMarker
    {selector beginning : Text}
    {rest : List Text}
    (split : splitOnMarker selector = .segments beginning rest) :
    HasMarker selector ↔ rest ≠ [] :=
  hasMarkerFrom_iff_of_splitFrom split

end Selector
end ComponentPipeline
