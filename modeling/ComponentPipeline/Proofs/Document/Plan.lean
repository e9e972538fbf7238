import ComponentPipeline.Document.Splice
import ComponentPipeline.Proofs.Block.Placement

/-!
# Plans of new documents

When every replacement covers a part of the document, the plan goes through the
document from its start to its end: it copies what stands before each
replacement that is kept and inserts the replacement for the part that it
covers.  A copied piece knows the location at which it stands.
-/

namespace ComponentPipeline

/-- The items that do not start before the end of an earlier one that is kept,
when a text is written up to `cursor`. -/
def keptFrom {α : Type} (spanOf : α → Span) (cursor : Nat) : List α → List α
  | [] => []
  | item :: rest =>
      if (spanOf item).start < cursor then keptFrom spanOf cursor rest
      else item :: keptFrom spanOf (spanOf item).stop rest

theorem keptFrom_map
    {α β : Type}
    (spanOf : β → Span)
    (change : α → β)
    (cursor : Nat)
    (items : List α) :
    keptFrom spanOf cursor (items.map change) =
      (keptFrom (fun item => spanOf (change item)) cursor items).map change := by
  induction items generalizing cursor with
  | nil => rfl
  | cons item rest ih =>
      simp only [List.map_cons, keptFrom, ih]
      split <;> rfl

theorem mem_of_mem_keptFrom
    {α : Type}
    {spanOf : α → Span}
    {cursor : Nat}
    {items : List α}
    {item : α}
    (kept : item ∈ keptFrom spanOf cursor items) :
    item ∈ items := by
  induction items generalizing cursor with
  | nil => cases kept
  | cons first rest ih =>
      simp only [keptFrom] at kept
      split at kept
      · exact List.mem_cons_of_mem _ (ih kept)
      · rcases List.mem_cons.mp kept with rfl | later
        · exact List.mem_cons_self
        · exact List.mem_cons_of_mem _ (ih later)

/-- Items that are not kept can be left out. -/
theorem keptFrom_filter
    {α : Type}
    {spanOf : α → Span}
    {cursor : Nat}
    {items : List α}
    {stays : α → Bool}
    (kept : ∀ item ∈ keptFrom spanOf cursor items, stays item = true) :
    keptFrom spanOf cursor (items.filter stays) = keptFrom spanOf cursor items := by
  induction items generalizing cursor with
  | nil => rfl
  | cons item rest ih =>
      rw [keptFrom] at kept ⊢
      split at kept
      · rename_i early
        rw [if_pos early, List.filter_cons]
        split
        · rw [keptFrom, if_pos early, ih kept]
        · exact ih kept
      · rename_i late
        obtain ⟨first, others⟩ := List.forall_mem_cons.mp kept
        rw [if_neg late, List.filter_cons, if_pos first, keptFrom, if_neg late, ih others]

theorem le_start_of_mem_keptFrom
    {α : Type}
    {spanOf : α → Span}
    {cursor : Nat}
    {items : List α}
    (forward : ∀ item ∈ items, (spanOf item).start ≤ (spanOf item).stop)
    {item : α}
    (kept : item ∈ keptFrom spanOf cursor items) :
    cursor ≤ (spanOf item).start := by
  induction items generalizing cursor with
  | nil => cases kept
  | cons first rest ih =>
      obtain ⟨firstForward, restForward⟩ := List.forall_mem_cons.mp forward
      rw [keptFrom] at kept
      split at kept
      · exact ih restForward kept
      · rename_i late
        rcases List.mem_cons.mp kept with rfl | later
        · exact Nat.le_of_not_lt late
        · have behind := ih restForward later
          omega

/-- An item that is kept starts behind the end of every item kept before it. -/
theorem pairwise_keptFrom
    {α : Type}
    {spanOf : α → Span}
    {cursor : Nat}
    {items : List α}
    (forward : ∀ item ∈ items, (spanOf item).start ≤ (spanOf item).stop) :
    (keptFrom spanOf cursor items).Pairwise fun first second =>
      (spanOf first).stop ≤ (spanOf second).start := by
  induction items generalizing cursor with
  | nil => exact .nil
  | cons first rest ih =>
      obtain ⟨-, restForward⟩ := List.forall_mem_cons.mp forward
      rw [keptFrom]
      split
      · exact ih restForward
      · exact .cons (fun _ later => le_start_of_mem_keptFrom restForward later) (ih restForward)

/-- An item that starts inside one that is kept is not kept. -/
theorem not_mem_keptFrom_of_starts_inside
    {α : Type}
    {spanOf : α → Span}
    {cursor : Nat}
    {items : List α}
    (forward : ∀ item ∈ items, (spanOf item).start ≤ (spanOf item).stop)
    {outer inner : α}
    (outerKept : outer ∈ keptFrom spanOf cursor items)
    (behindStart : (spanOf outer).start < (spanOf inner).start)
    (beforeStop : (spanOf inner).start < (spanOf outer).stop) :
    inner ∉ keptFrom spanOf cursor items := by
  intro innerKept
  have innerForward := forward inner (mem_of_mem_keptFrom innerKept)
  have apart : ∀ first ∈ keptFrom spanOf cursor items,
      ∀ second ∈ keptFrom spanOf cursor items, first ≠ second →
        (spanOf first).stop ≤ (spanOf second).start ∨
          (spanOf second).stop ≤ (spanOf first).start := by
    refine List.Pairwise.forall_of_forall_of_flip ?_ ?_ ?_
    · exact fun _ _ different => absurd rfl different
    · exact (pairwise_keptFrom forward).imp fun before _ => .inl before
    · exact (pairwise_keptFrom forward).imp fun before _ => .inr before
  have different : outer ≠ inner := by
    rintro rfl
    omega
  rcases apart outer outerKept inner innerKept different with before | behind <;> omega

/-- A plan goes through a document from the end of `done` on and makes the
given replacements. -/
inductive Lays (document : Text) :
    Text → List Replacement → List SplicePiece → Prop
  | rest {done left}
      (whole : document = done ++ left) :
      Lays document done [] [.copied left (Location.origin.advance done)]
  | replaced {done unchanged inside left replacement kept plan}
      (covers : replacement.span.Covers document (done ++ unchanged) inside left)
      (later : Lays document (done ++ unchanged ++ inside) kept plan) :
      Lays document done (replacement :: kept)
        (.copied unchanged (Location.origin.advance done) ::
          .inserted replacement :: plan)

theorem isSkipped_iff
    {replacement : Replacement}
    {document before inside after : Text}
    (covers : replacement.span.Covers document before inside after)
    (cursor : Nat) :
    replacement.isSkipped cursor (Text.size document) = true ↔
      replacement.span.start < cursor := by
  obtain ⟨parts, -, stop⟩ := covers
  have inDocument : replacement.span.stop ≤ Text.size document := by
    rw [stop, parts, Text.size_append (before ++ inside) after]
    exact Nat.le_add_right _ _
  unfold Replacement.isSkipped
  simp only [Bool.or_eq_true, decide_eq_true_eq]
  omega

/-- Planning from the end of `done` on. -/
theorem lays_planFrom
    {document done left : Text}
    {replacements : List Replacement}
    (whole : document = done ++ left)
    (placed : ∀ replacement ∈ replacements, ∃ before inside after,
      replacement.span.Covers document before inside after) :
    Lays document done
      (keptFrom Replacement.span (Text.size done) replacements)
      (planFrom document (Text.size done) (Location.origin.advance done)
        replacements) := by
  induction replacements generalizing done left with
  | nil =>
      simp only [keptFrom, planFrom]
      rw [whole, Text.dropBytes_size_append]
      exact .rest rfl
  | cons replacement rest ih =>
      have restPlaced : ∀ replacement ∈ rest, ∃ before inside after,
          replacement.span.Covers document before inside after :=
        fun replacement member => placed replacement (List.mem_cons_of_mem _ member)
      obtain ⟨before, inside, after, covers⟩ := placed replacement (by simp)
      have skipped := isSkipped_iff covers (Text.size done)
      simp only [keptFrom, planFrom]
      by_cases early : replacement.span.start < Text.size done
      · rw [if_pos early, if_pos (skipped.mpr early)]
        exact ih whole restPlaced
      · rw [if_neg early, if_neg (mt skipped.mp early)]
        obtain ⟨parts, start, stop⟩ := covers
        -- The part covered starts after `done`, with `unchanged` between them.
        obtain ⟨unchanged, rfl, -⟩ :
            ∃ unchanged, before = done ++ unchanged ∧
              left = unchanged ++ (inside ++ after) :=
          Text.exists_append_of_size_le
            (by rw [← whole, parts, List.append_assoc]) (by omega)
        have copied :
            Text.slice (Text.size done) replacement.span.start document = unchanged := by
          rw [start, parts, List.append_assoc (done ++ unchanged)]
          exact Text.slice_append done unchanged (inside ++ after)
        have replaced :
            Text.slice replacement.span.start replacement.span.stop document =
              inside := by
          rw [start, stop, parts]
          exact Text.slice_append (done ++ unchanged) inside after
        have tail := ih parts restPlaced
        rw [copied, replaced, ← Location.advance_append, ← Location.advance_append,
          stop, ← List.append_assoc]
        exact .replaced ⟨parts, start, stop⟩ tail

/-- Replacements that reach past the end of a document do not matter for a plan. -/
theorem planFrom_within
    (document : Text)
    (replacements : List Replacement)
    (cursor : Nat)
    (location : Location) :
    planFrom document cursor location
        (replacements.filter fun replacement =>
          replacement.span.stop ≤ Text.size document) =
      planFrom document cursor location replacements := by
  induction replacements generalizing cursor location with
  | nil => rfl
  | cons replacement rest ih =>
      rw [List.filter_cons]
      by_cases within : replacement.span.stop ≤ Text.size document
      · rw [if_pos (decide_eq_true within)]
        simp only [planFrom, ih]
      · have skipped : replacement.isSkipped cursor (Text.size document) = true := by
          rw [Replacement.isSkipped, Bool.or_eq_true, decide_eq_true_iff, decide_eq_true_iff]
          omega
        rw [if_neg (mt of_decide_eq_true within), planFrom, if_pos skipped, ih]

/-- Only replacements that are kept matter for a plan. -/
theorem planFrom_keptFrom
    {document : Text}
    {replacements : List Replacement}
    (placed : ∀ replacement ∈ replacements, ∃ before inside after,
      replacement.span.Covers document before inside after)
    (cursor : Nat)
    (location : Location) :
    planFrom document cursor location (keptFrom Replacement.span cursor replacements) =
      planFrom document cursor location replacements := by
  induction replacements generalizing cursor location with
  | nil => rfl
  | cons replacement rest ih =>
      obtain ⟨⟨before, inside, after, covers⟩, restPlaced⟩ := List.forall_mem_cons.mp placed
      have skipped := isSkipped_iff covers cursor
      rw [keptFrom]
      by_cases early : replacement.span.start < cursor
      · rw [if_pos early, planFrom, if_pos (skipped.mpr early)]
        exact ih restPlaced cursor location
      · simp only [if_neg early, planFrom, if_neg (mt skipped.mp early), ih restPlaced]

/-- The plan for a whole document. -/
theorem lays_splicePlan
    {document : Text}
    {replacements : List Replacement}
    (placed : ∀ replacement ∈ replacements, ∃ before inside after,
      replacement.span.Covers document before inside after) :
    Lays document []
      (keptFrom Replacement.span 0 (byStart replacements))
      (splicePlan document replacements) := by
  have sorted := List.mergeSort_perm replacements
    fun first second => first.span.start ≤ second.span.start
  have sortedPlaced : ∀ replacement ∈ byStart replacements, ∃ before inside after,
      replacement.span.Covers document before inside after :=
    fun replacement member => placed replacement (sorted.mem_iff.mp member)
  exact lays_planFrom rfl sortedPlaced

end ComponentPipeline
