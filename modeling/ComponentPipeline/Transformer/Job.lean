import ComponentPipeline.Text.Basic

/-!
# Jobs

A transformer need not answer at once.  Its work is a job that gives other
jobs their turn a number of times before it has a value or panics, or never
does either.
-/

namespace ComponentPipeline

/-- Work that may take a number of turns, panic, or go on forever. -/
inductive Job (α : Type)
  /-- A value after so many turns. -/
  | done (turns : Nat) (value : α)
  /-- A panic after so many turns, with its message if that is a text. -/
  | panicked (turns : Nat) (message : Option Text)
  /-- No value ever. -/
  | never
  deriving DecidableEq, Repr

namespace Job

variable {α β : Type}

/-- Work that is done at once. -/
def now (value : α) : Job α := .done 0 value

/-- Work whose value is changed at its end. -/
def map (job : Job α) (change : α → β) : Job β :=
  match job with
  | .done turns value => .done turns (change value)
  | .panicked turns message => .panicked turns message
  | .never => .never

/-- The number of turns that work takes until it ends. -/
def turns? : Job α → Option Nat
  | .done turns _ => some turns
  | .panicked turns _ => some turns
  | .never => none

/-- The value of work that is ever done. -/
def value? : Job α → Option α
  | .done _ value => some value
  | .panicked _ _ => none
  | .never => none

/-- What work says that panics. -/
def panic? : Job α → Option (Option Text)
  | .done _ _ => none
  | .panicked _ message => some message
  | .never => none

@[simp] theorem turns?_map (job : Job α) (change : α → β) :
    (job.map change).turns? = job.turns? := by
  cases job <;> rfl

@[simp] theorem value?_map (job : Job α) (change : α → β) :
    (job.map change).value? = job.value?.map change := by
  cases job <;> rfl

end Job
end ComponentPipeline
