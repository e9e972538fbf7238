import ComponentPipeline.Document.Outcome
import Mathlib.Data.List.Forall2

/-!
# What finished work consists of

Work that finishes has finished in every part: a sequence in each of its steps,
and a list of concurrent jobs in each job.  Whatever the order in which the
jobs complete, each value stands where its job does.
-/

namespace ComponentPipeline

/-! ## Answers of jobs -/

namespace Job

variable {α : Type} {job : Job (Except ComponentError α)}
variable {caught : Option Text → Option ComponentError}

/-- Work fails: it comes to an error, or it panics. -/
def Fails (job : Job (Except ComponentError α)) : Prop :=
  (∃ error, job.value? = some (.error error)) ∨ ∃ message, job.panic? = some message

theorem answer?_eq_ok_iff {value : α} :
    job.answer? caught = some (.ok value) ↔ job.value? = some (.ok value) := by
  cases job with
  | done turns result => rfl
  | panicked turns message => simp [answer?, value?]
  | never => rfl

theorem answer?_eq_error_iff {error : ComponentError} :
    job.answer? caught = some (.error error) ↔
      job.value? = some (.error error) ∨
        ∃ message, job.panic? = some message ∧ caught message = some error := by
  cases job with
  | done turns result => simp [answer?, value?, panic?]
  | panicked turns message => simp [answer?, value?, panic?]
  | never => simp [answer?, value?, panic?]

variable {schedule : Schedule} {place : Nat}

/-- Among concurrent jobs, one without an answer is never done. -/
theorem answer?_eq_none_iff : job.answer? (schedule.caught place) = none ↔ job.turns? = none := by
  cases job <;> simp [answer?, turns?, Schedule.caught]

/-- Among concurrent jobs, a panic is a failure. -/
theorem exists_answer?_eq_error_iff :
    (∃ error, job.answer? (schedule.caught place) = some (.error error)) ↔ job.Fails := by
  simp only [answer?_eq_error_iff, exists_or, Fails]
  refine or_congr_right ⟨?_, ?_⟩
  · rintro ⟨error, message, panics, -⟩
    exact ⟨message, panics⟩
  · rintro ⟨message, panics⟩
    exact ⟨_, message, panics, rfl⟩

end Job

namespace Outcome

variable {α β : Type}

@[simp] theorem finished_bind (value : α) (next : α → Outcome β) :
    finished value >>= next = next value := rfl

theorem bind_eq_finished_iff
    {outcome : Outcome α}
    {next : α → Outcome β}
    {value : β} :
    outcome >>= next = .finished value ↔
      ∃ first, outcome = .finished first ∧ next first = .finished value := by
  cases outcome with
  | finished first =>
      constructor
      · intro finished
        exact ⟨first, rfl, finished⟩
      · rintro ⟨_, same, finished⟩
        cases same
        exact finished
  | failed error =>
      constructor
      · intro finished
        cases finished
      · rintro ⟨_, same, _⟩
        cases same
  | pending =>
      constructor
      · intro finished
        cases finished
      · rintro ⟨_, same, _⟩
        cases same

theorem pure_eq_finished_iff {first value : α} :
    (pure first : Outcome α) = .finished value ↔ first = value := by
  constructor
  · intro finished
    cases finished
    rfl
  · intro same
    rw [same]
    rfl

theorem ofExcept_eq_finished_iff
    {result : Except ComponentError α}
    {value : α} :
    ofExcept result = .finished value ↔ result = .ok value := by
  cases result <;> simp [ofExcept]

variable {caught : Option Text → Option ComponentError}

theorem ofJob_eq_finished_iff
    {job : Job (Except ComponentError α)}
    {value : α} :
    ofJob caught job = .finished value ↔ job.value? = some (.ok value) := by
  rw [← @Job.answer?_eq_ok_iff _ _ caught, ofJob]
  cases job.answer? caught with
  | none => simp
  | some result => simp [ofExcept_eq_finished_iff]

theorem ofJob_eq_failed_iff
    {job : Job (Except ComponentError α)}
    {error : ComponentError} :
    ofJob caught job = .failed error ↔ job.answer? caught = some (.error error) := by
  unfold ofJob
  cases job.answer? caught with
  | none => simp
  | some result => cases result <;> simp [ofExcept]

theorem ofJob_eq_pending_iff {job : Job (Except ComponentError α)} :
    ofJob caught job = .pending ↔ job.answer? caught = none := by
  unfold ofJob
  cases job.answer? caught with
  | none => simp
  | some result => cases result <;> simp [ofExcept]

/-- Work that ends with a further step. -/
theorem ofJob_map_bind
    (job : Job (Except ComponentError α))
    (next : α → Except ComponentError β) :
    ofJob caught (job.map fun result => result.bind next) =
      ofJob caught job >>= fun value => ofExcept (next value) := by
  cases job with
  | done turns result => cases result <;> rfl
  | panicked turns message =>
      simp only [Job.map, ofJob, Job.answer?]
      cases caught message <;> rfl
  | never => rfl

/-- Work whose value is changed at its end. -/
theorem ofJob_map_map
    (job : Job (Except ComponentError α))
    (change : α → β) :
    ofJob caught (job.map fun result => result.map change) =
      ofJob caught job >>= fun value => .finished (change value) := by
  cases job with
  | done turns result => cases result <;> rfl
  | panicked turns message =>
      simp only [Job.map, ofJob, Job.answer?]
      cases caught message <;> rfl
  | never => rfl

end Outcome

section Collect

variable {α : Type} {schedule : Schedule}

/-- Every slot that is filled holds the value of its job. -/
def Filled
    (jobs : List (Job (Except ComponentError α)))
    (slots : List (Option α)) :
    Prop :=
  List.Forall₂
    (fun job slot => ∀ value, slot = some value → job.value? = some (.ok value))
    jobs slots

theorem filled_replicate (jobs : List (Job (Except ComponentError α))) :
    Filled jobs (List.replicate jobs.length none) := by
  induction jobs with
  | nil => exact .nil
  | cons job rest ih =>
      refine .cons ?_ ih
      intro value same
      cases same

theorem Filled.set
    {jobs : List (Job (Except ComponentError α))}
    {slots : List (Option α)}
    {place : Nat}
    {value : α}
    {caught : Option Text → Option ComponentError}
    (filled : Filled jobs slots)
    (completed : jobs[place]?.bind (Job.answer? caught) = some (.ok value)) :
    Filled jobs (slots.set place (some value)) := by
  induction filled generalizing place with
  | nil => exact .nil
  | cons head tail ih =>
      cases place with
      | zero =>
          refine .cons ?_ tail
          intro other same
          cases same
          exact Job.answer?_eq_ok_iff.mp completed
      | succ place =>
          rw [List.getElem?_cons_succ] at completed
          exact .cons head (ih completed)

theorem Filled.forall₂_of_all
    {jobs : List (Job (Except ComponentError α))}
    {slots : List (Option α)}
    (filled : Filled jobs slots)
    (complete : slots.all Option.isSome = true) :
    List.Forall₂ (fun job value => job.value? = some (.ok value))
      jobs (slots.filterMap id) := by
  induction filled with
  | nil => exact .nil
  | @cons job slot jobs slots head tail ih =>
      simp only [List.all_cons, Bool.and_eq_true] at complete
      obtain ⟨value, rfl⟩ := Option.isSome_iff_exists.mp complete.1
      exact .cons (head value rfl) (ih complete.2)

theorem forall₂_of_collectFrom
    {jobs : List (Job (Except ComponentError α))}
    {slots : List (Option α)}
    {completions : List Nat}
    {values : List α}
    (filled : Filled jobs slots)
    (finished : collectFrom schedule jobs slots completions = .finished values) :
    List.Forall₂ (fun job value => job.value? = some (.ok value)) jobs values := by
  induction completions generalizing slots with
  | nil =>
      simp only [collectFrom] at finished
      split at finished
      · rename_i complete
        cases finished
        exact filled.forall₂_of_all complete
      · cases finished
  | cons place rest ih =>
      simp only [collectFrom] at finished
      split at finished
      · exact ih filled finished
      · cases finished
      · rename_i value completed
        exact ih (filled.set completed) finished

/-- When concurrent jobs finish, their values stand in the order of the
jobs. -/
theorem forall₂_of_collect
    {jobs : List (Job (Except ComponentError α))}
    {values : List α}
    (finished : collect schedule jobs = .finished values) :
    List.Forall₂ (fun job value => job.value? = some (.ok value)) jobs values :=
  forall₂_of_collectFrom (filled_replicate jobs) finished

end Collect
end ComponentPipeline
