import ComponentPipeline.Proofs.Document.Collected

/-!
# Work that agrees apart from maps

The same work is done twice, the second time without maps.  The two outcomes
agree if both are finished with related values, both have failed alike or both
are pending.  If maps were asked for the first time, that work may also have
failed because of them, and then nothing is known of the second one.

Work that agrees step by step agrees as a whole, and so does concurrent work
that completes in one order.
-/

namespace ComponentPipeline

/-- An outcome agrees with that of the same work without maps; `mapped` tells
whether maps were asked for. -/
inductive Outcome.Agrees {α β : Type} (mapped : Bool) (related : α → β → Prop) :
    Outcome α → Outcome β → Prop
  | mapFailed {cause plain}
      (asked : mapped = true) :
      Agrees mapped related (.failed (.sourceMap cause)) plain
  | finished {value plain}
      (values : related value plain) :
      Agrees mapped related (.finished value) (.finished plain)
  | failed {error}
      (notOfMaps : ∀ cause, error ≠ .sourceMap cause) :
      Agrees mapped related (.failed error) (.failed error)
  | pending : Agrees mapped related .pending .pending

namespace Outcome.Agrees

variable {α β γ δ : Type}
variable {mapped : Bool}
variable {related : α → β → Prop}
variable {relatedAfter : γ → δ → Prop}

/-- Work that agrees goes on with work that agrees on related values. -/
theorem bind
    {outcome : Outcome α}
    {plain : Outcome β}
    {next : α → Outcome γ}
    {plainNext : β → Outcome δ}
    (agrees : Agrees mapped related outcome plain)
    (goesOn : ∀ value plainValue, related value plainValue →
      Agrees mapped relatedAfter (next value) (plainNext plainValue)) :
    Agrees mapped relatedAfter (outcome >>= next) (plain >>= plainNext) := by
  cases agrees with
  | mapFailed asked => exact .mapFailed asked
  | finished values => exact goesOn _ _ values
  | failed notOfMaps => exact .failed notOfMaps
  | pending => exact .pending

/-- What work goes on with is what it has finished with. -/
theorem with_finished
    {outcome : Outcome α}
    {plain : Outcome β}
    (agrees : Agrees mapped related outcome plain) :
    Agrees mapped
      (fun value plainValue => outcome = .finished value ∧ related value plainValue)
      outcome plain := by
  cases agrees with
  | mapFailed asked => exact .mapFailed asked
  | finished values => exact .finished ⟨rfl, values⟩
  | failed notOfMaps => exact .failed notOfMaps
  | pending => exact .pending

/-- Work that is not about maps agrees with itself. -/
theorem ofExcept
    {result : Except ComponentError α}
    (notOfMaps : ∀ error, result = .error error → ∀ cause, error ≠ .sourceMap cause) :
    Agrees mapped (fun value plain => result = .ok value ∧ value = plain)
      (.ofExcept result) (.ofExcept result) := by
  cases result with
  | error error => exact .failed (notOfMaps error rfl)
  | ok value => exact .finished ⟨rfl, rfl⟩

/-- Work that succeeds with maps succeeds without them. -/
theorem exists_finished
    {value : α}
    {plain : Outcome β}
    (agrees : Agrees mapped related (.finished value) plain) :
    ∃ plainValue, plain = .finished plainValue ∧ related value plainValue := by
  cases agrees with
  | finished values => exact ⟨_, rfl, values⟩

/-- A failure that is not about maps is the same without them. -/
theorem eq_failed
    {error : ComponentError}
    {plain : Outcome β}
    (agrees : Agrees mapped related (.failed error) plain)
    (notOfMaps : ∀ cause, error ≠ .sourceMap cause) :
    plain = .failed error := by
  cases agrees with
  | mapFailed asked => exact absurd rfl (notOfMaps _)
  | failed _ => rfl

/-- Work that is never done with maps is never done without them. -/
theorem eq_pending
    {plain : Outcome β}
    (agrees : Agrees mapped related (.pending : Outcome α) plain) :
    plain = .pending := by
  cases agrees with
  | pending => rfl

/-- Work for which no maps were asked does not fail because of them. -/
theorem ne_sourceMap
    {outcome : Outcome α}
    {plain : Outcome β}
    (agrees : Agrees false related outcome plain)
    (cause : Text) :
    plain ≠ .failed (.sourceMap cause) := by
  rintro rfl
  cases agrees with
  | mapFailed asked => cases asked
  | failed notOfMaps => exact notOfMaps cause rfl

end Outcome.Agrees

/-! ## Concurrent work -/

section Collect

variable {α β : Type}
variable {mapped : Bool}
variable {related : α → β → Prop}
variable {jobs : List (Job (Except ComponentError α))}
variable {plainJobs : List (Job (Except ComponentError β))}

/-- Jobs that agree, each with the one at its place, whatever their panics would come
to. -/
def JobsAgree
    (mapped : Bool)
    (related : α → β → Prop)
    (jobs : List (Job (Except ComponentError α)))
    (plainJobs : List (Job (Except ComponentError β))) :
    Prop :=
  List.Forall₂
    (fun job plain => ∀ caught plainCaught,
      Outcome.Agrees mapped related (.ofJob caught job) (.ofJob plainCaught plain))
    jobs plainJobs

/-- What the jobs at a place come to agrees. -/
theorem JobsAgree.at_place
    (jobsAgree : JobsAgree mapped related jobs plainJobs)
    (caught plainCaught : Option Text → Option ComponentError)
    (place : Nat) :
    (jobs[place]?.bind (Job.answer? caught) = none ∧
        plainJobs[place]?.bind (Job.answer? plainCaught) = none) ∨
      ∃ job plain, jobs[place]?.bind (Job.answer? caught) = job.answer? caught ∧
        plainJobs[place]?.bind (Job.answer? plainCaught) = plain.answer? plainCaught ∧
          Outcome.Agrees mapped related (.ofJob caught job) (.ofJob plainCaught plain) := by
  induction jobsAgree generalizing place with
  | nil => exact .inl ⟨rfl, rfl⟩
  | cons first _ ih =>
      cases place with
      | zero => exact .inr ⟨_, _, rfl, rfl, first caught plainCaught⟩
      | succ place => exact ih place

/-- Related slots are filled alike. -/
theorem all_isSome_of_related
    {slots : List (Option α)}
    {plainSlots : List (Option β)}
    (filled : List.Forall₂ (Option.Rel related) slots plainSlots) :
    slots.all Option.isSome = plainSlots.all Option.isSome := by
  induction filled with
  | nil => rfl
  | cons first _ ih =>
      rw [List.all_cons, List.all_cons, ih]
      cases first <;> rfl

theorem related_set
    {slots : List (Option α)}
    {plainSlots : List (Option β)}
    (filled : List.Forall₂ (Option.Rel related) slots plainSlots)
    (place : Nat)
    {value : α}
    {plain : β}
    (values : related value plain) :
    List.Forall₂ (Option.Rel related)
      (slots.set place (some value)) (plainSlots.set place (some plain)) := by
  induction filled generalizing place with
  | nil => exact .nil
  | cons first others ih =>
      cases place with
      | zero => exact .cons (.some values) others
      | succ place => exact .cons first (ih place)

theorem JobsAgree.collectFrom
    (jobsAgree : JobsAgree mapped related jobs plainJobs)
    {slots : List (Option α)}
    {plainSlots : List (Option β)}
    (filled : List.Forall₂ (Option.Rel related) slots plainSlots)
    (schedule plainSchedule : Schedule)
    (order : List Nat) :
    Outcome.Agrees mapped (List.Forall₂ related)
      (collectFrom schedule jobs slots order)
      (collectFrom plainSchedule plainJobs plainSlots order) := by
  induction order generalizing slots plainSlots with
  | nil =>
      rw [ComponentPipeline.collectFrom, ComponentPipeline.collectFrom,
        ← all_isSome_of_related filled]
      split
      · exact .finished (List.rel_filterMap (fun _ _ slot => slot) filled)
      · exact .pending
  | cons place rest ih =>
      rw [ComponentPipeline.collectFrom, ComponentPipeline.collectFrom]
      rcases jobsAgree.at_place (schedule.caught place) (plainSchedule.caught place) place with
        ⟨nothing, plainNothing⟩ | ⟨job, plain, here, plainHere, agrees⟩
      · simp only [nothing, plainNothing]
        exact ih filled
      · rw [here, plainHere]
        generalize worked : Outcome.ofJob (schedule.caught place) job = outcome at agrees
        generalize plainWorked :
          Outcome.ofJob (plainSchedule.caught place) plain = plainOutcome at agrees
        cases agrees with
        | mapFailed asked =>
            simp only [Outcome.ofJob_eq_failed_iff.mp worked]
            exact .mapFailed asked
        | finished values =>
            simp only [Job.answer?_eq_ok_iff.mpr (Outcome.ofJob_eq_finished_iff.mp worked),
              Job.answer?_eq_ok_iff.mpr (Outcome.ofJob_eq_finished_iff.mp plainWorked)]
            exact ih (related_set filled place values)
        | failed notOfMaps =>
            simp only [Outcome.ofJob_eq_failed_iff.mp worked,
              Outcome.ofJob_eq_failed_iff.mp plainWorked]
            exact .failed notOfMaps
        | pending =>
            simp only [Outcome.ofJob_eq_pending_iff.mp worked,
              Outcome.ofJob_eq_pending_iff.mp plainWorked]
            exact ih filled

/-- Jobs that agree and complete in one order come to outcomes that agree. -/
theorem JobsAgree.collect
    {schedule plainSchedule : Schedule}
    (jobsAgree : JobsAgree mapped related jobs plainJobs)
    (sameOrder :
      schedule.order (jobs.map Job.turns?) = plainSchedule.order (plainJobs.map Job.turns?)) :
    Outcome.Agrees mapped (List.Forall₂ related)
      (collect schedule jobs) (collect plainSchedule plainJobs) := by
  have empty : List.Forall₂ (Option.Rel related)
      (List.replicate jobs.length none) (List.replicate plainJobs.length none) := by
    clear sameOrder
    induction jobsAgree with
    | nil => exact .nil
    | cons _ _ ih => exact .cons .none ih
  rw [ComponentPipeline.collect, ComponentPipeline.collect, sameOrder]
  exact jobsAgree.collectFrom empty schedule plainSchedule _

end Collect
end ComponentPipeline
