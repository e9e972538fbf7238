import ComponentPipeline.ComponentError
import ComponentPipeline.Transformer.Job

/-!
# Outcomes of concurrent work

A list of jobs runs concurrently.  The order in which they complete, and what is
said of a job that panics, is up to a schedule, which is a parameter; each value
is put where its job stands in the list.  The first failure to complete is the
outcome, whatever the other jobs come to, and a panic is a failure like others.
Without a failure the outcome is the list of all values, once every job has
completed; a job that never does leaves the work pending.

Only concurrent jobs are guarded in this way.  A job that nothing runs beside
takes the work down with it when it panics, and no answer is ever given.
-/

namespace ComponentPipeline

/-- What work comes to. -/
inductive Outcome (α : Type)
  /-- It finishes with a value. -/
  | finished (value : α)
  /-- It fails. -/
  | failed (error : ComponentError)
  /-- It never answers: some job is never done, or panics where nothing catches it. -/
  | pending

/-- What a job answers once it is done; `caught` is the failure that its panic comes to
where it is caught. -/
def Job.answer?
    {α : Type}
    (caught : Option Text → Option ComponentError) :
    Job (Except ComponentError α) → Option (Except ComponentError α)
  | .done _ result => some result
  | .panicked _ message => (caught message).map .error
  | .never => none

namespace Outcome

variable {α β : Type}

/-- Work that goes on with the value of earlier work. -/
def andThen (outcome : Outcome α) (next : α → Outcome β) : Outcome β :=
  match outcome with
  | .finished value => next value
  | .failed error => .failed error
  | .pending => .pending

instance : Monad Outcome where
  pure := .finished
  bind := andThen

/-- The outcome of work that is done at once. -/
def ofExcept : Except ComponentError α → Outcome α
  | .ok value => .finished value
  | .error error => .failed error

/-- The outcome of a job whose panic is caught as a failure, or is not. -/
def ofJob
    (caught : Option Text → Option ComponentError)
    (job : Job (Except ComponentError α)) :
    Outcome α :=
  match job.answer? caught with
  | some result => ofExcept result
  | none => .pending

/-- Nothing catches the panic of a job that nothing runs beside. -/
def uncaught : Option Text → Option ComponentError := fun _ => none

end Outcome

/-- How concurrent jobs are run. -/
structure Schedule where
  /-- The order in which jobs complete, given by their places in the list, for the
  numbers of turns that they take. -/
  order : List (Option Nat) → List Nat
  /-- What is said of the job at a place that panics with a message, if it has one. -/
  report : Nat → Option Text → Text

/-- The jobs that ever end, each with its place and number of turns. -/
def doneJobs (place : Nat) : List (Option Nat) → List (Nat × Nat)
  | [] => []
  | none :: rest => doneJobs (place + 1) rest
  | some turns :: rest => (place, turns) :: doneJobs (place + 1) rest

namespace Schedule

/-- The panic of the job at a place is caught as a failure of this job. -/
def caught (schedule : Schedule) (place : Nat) (message : Option Text) :
    Option ComponentError :=
  some (.other ("Block task failed: " ++ schedule.report place message))

/-- The schedule by which fewer turns complete first, and of jobs with as many
turns the first one in the list.  A job that panics is named by its place, with its
message if there is one. -/
def cooperative : Schedule where
  order := fun turns =>
    ((doneJobs 0 turns).mergeSort fun first second => first.2 ≤ second.2).map Prod.fst
  report
    | place, some message =>
        "task " ++ Text.ofNat place ++ " panicked with message " ++
          ComponentError.quoted message
    | place, none => "task " ++ Text.ofNat place ++ " panicked"

end Schedule

section Collect

variable {α : Type}

/-- Takes the results of jobs in the order of completion; `slots` has the
values so far. -/
def collectFrom
    (schedule : Schedule)
    (jobs : List (Job (Except ComponentError α)))
    (slots : List (Option α)) :
    (completions : List Nat) → Outcome (List α)
  | [] => if slots.all Option.isSome then .finished (slots.filterMap id) else .pending
  | place :: rest =>
      match jobs[place]?.bind (Job.answer? (schedule.caught place)) with
      | none => collectFrom schedule jobs slots rest
      | some (.error error) => .failed error
      | some (.ok value) => collectFrom schedule jobs (slots.set place (some value)) rest

/-- The outcome of jobs that run concurrently. -/
def collect
    (schedule : Schedule)
    (jobs : List (Job (Except ComponentError α))) :
    Outcome (List α) :=
  collectFrom schedule jobs (List.replicate jobs.length none)
    (schedule.order (jobs.map Job.turns?))

end Collect

end ComponentPipeline
