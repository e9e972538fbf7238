import ComponentPipeline.Proofs.Document.CompletedRun

/-!
# Blocks that complete in any order

Concurrent jobs complete in some order, each job that ever ends once.  If all of
them succeed, the collected values are those that the jobs give when they are done
one after another, whatever the order was.  If one fails, with an error or by a
panic, the failure that completes first is what the work comes to, and without a
failure the work is pending as long as one job is.
-/

namespace ComponentPipeline

/-! ## Orders of completion -/

/-- The places of the jobs that ever end, each once. -/
structure IsCompletionOrder (turns : List (Option Nat)) (order : List Nat) : Prop where
  /-- A job completes once. -/
  nodup : order.Nodup
  /-- The jobs that complete are those that ever end. -/
  mem_iff : ∀ place, place ∈ order ↔ ∃ count, turns[place]? = some (some count)

/-- Whatever turns the jobs take, those that ever end complete once. -/
def Schedule.Completes (schedule : Schedule) : Prop :=
  ∀ turns, IsCompletionOrder turns (schedule.order turns)

/-- The jobs that ever end are listed by their places. -/
theorem mem_doneJobs_iff {start place count : Nat} {turns : List (Option Nat)} :
    (place, count) ∈ doneJobs start turns ↔
      start ≤ place ∧ turns[place - start]? = some (some count) := by
  induction turns generalizing start with
  | nil => simp [doneJobs]
  | cons first rest ih =>
      have further : (start + 1 ≤ place ∧ rest[place - (start + 1)]? = some (some count)) ↔
          start < place ∧ (first :: rest)[place - start]? = some (some count) := by
        refine and_congr_right fun behind => ?_
        obtain ⟨more, rfl⟩ := Nat.exists_eq_add_of_le behind
        rw [Nat.add_sub_cancel_left, Nat.add_assoc, Nat.add_sub_cancel_left, Nat.add_comm 1,
          List.getElem?_cons_succ]
      have here : start ≤ place ↔ place = start ∨ start < place := by omega
      cases first with
      | none =>
          rw [doneJobs, ih, further, here]
          constructor
          · exact fun both => ⟨.inr both.1, both.2⟩
          · rintro ⟨rfl | behind, listed⟩
            · simp at listed
            · exact ⟨behind, listed⟩
      | some turns =>
          rw [doneJobs, List.mem_cons, ih, further, here]
          constructor
          · rintro (same | both)
            · cases same
              exact ⟨.inl rfl, by simp⟩
            · exact ⟨.inr both.1, both.2⟩
          · rintro ⟨rfl | behind, listed⟩
            · simp at listed
              exact .inl (by rw [listed])
            · exact .inr ⟨behind, listed⟩

theorem nodup_places_doneJobs (start : Nat) (turns : List (Option Nat)) :
    ((doneJobs start turns).map Prod.fst).Nodup := by
  induction turns generalizing start with
  | nil => exact List.nodup_nil
  | cons first rest ih =>
      cases first with
      | none => exact ih (start + 1)
      | some count =>
          rw [doneJobs, List.map_cons, List.nodup_cons]
          refine ⟨fun member => ?_, ih (start + 1)⟩
          obtain ⟨⟨place, turns⟩, listed, same⟩ := List.mem_map.mp member
          have behind := (mem_doneJobs_iff.mp listed).1
          simp only at same
          omega

/-- When jobs give each other turns, those that ever end complete once. -/
theorem Schedule.completes_cooperative : Schedule.cooperative.Completes := by
  intro turns
  have sorted := List.mergeSort_perm (doneJobs 0 turns) fun first second => first.2 ≤ second.2
  refine ⟨(sorted.map Prod.fst).nodup_iff.mpr (nodup_places_doneJobs 0 turns),
    fun place => ?_⟩
  simp only [Schedule.cooperative]
  rw [(sorted.map Prod.fst).mem_iff, List.mem_map]
  constructor
  · rintro ⟨⟨place, count⟩, listed, rfl⟩
    exact ⟨count, (mem_doneJobs_iff.mp listed).2⟩
  · rintro ⟨count, done⟩
    exact ⟨(place, count), mem_doneJobs_iff.mpr ⟨Nat.zero_le _, done⟩, rfl⟩

/-! ## What collecting comes to -/

section Collect

variable {α : Type} {schedule : Schedule} {jobs : List (Job (Except ComponentError α))}

/-- What the job at a place is joined with, if it ever ends: its result, or a failure if
it panics. -/
def resultAt?
    (schedule : Schedule)
    (jobs : List (Job (Except ComponentError α)))
    (place : Nat) :
    Option (Except ComponentError α) :=
  jobs[place]?.bind (Job.answer? (schedule.caught place))

theorem IsCompletionOrder.mem_iff_resultAt?
    {order : List Nat}
    (complete : IsCompletionOrder (jobs.map Job.turns?) order)
    {place : Nat} :
    place ∈ order ↔ ∃ result, resultAt? schedule jobs place = some result := by
  rw [complete.mem_iff, List.getElem?_map, resultAt?]
  cases jobs[place]? with
  | none => simp
  | some job => cases job <;> simp [Job.turns?, Job.answer?, Schedule.caught]

/-- A job at a place fails exactly if it is joined with a failure. -/
theorem exists_failure_resultAt?_iff
    {place : Nat}
    {job : Job (Except ComponentError α)}
    (listed : jobs[place]? = some job) :
    (∃ error, resultAt? schedule jobs place = some (.error error)) ↔ job.Fails := by
  rw [resultAt?, listed]
  exact Job.exists_answer?_eq_error_iff

/-- The error of the failing job that completes first. -/
def FirstFailure
    (schedule : Schedule)
    (jobs : List (Job (Except ComponentError α)))
    (order : List Nat)
    (error : ComponentError) :
    Prop :=
  ∃ earlier place later, order = earlier ++ place :: later ∧
    resultAt? schedule jobs place = some (.error error) ∧
      ∀ other ∈ earlier, ∀ failure, resultAt? schedule jobs other ≠ some (.error failure)

/-- A job that fails makes some failure the first one. -/
theorem exists_firstFailure
    {order : List Nat}
    {place : Nat}
    {error : ComponentError}
    (member : place ∈ order)
    (fails : resultAt? schedule jobs place = some (.error error)) :
    ∃ first, FirstFailure schedule jobs order first := by
  induction order with
  | nil => cases member
  | cons next rest ih =>
      by_cases failsFirst : ∃ first, resultAt? schedule jobs next = some (.error first)
      · obtain ⟨first, isFirst⟩ := failsFirst
        refine ⟨first, [], next, rest, rfl, isFirst, ?_⟩
        intro other none
        cases none
      · rcases List.mem_cons.mp member with rfl | later
        · exact absurd ⟨error, fails⟩ failsFirst
        · obtain ⟨first, earlier, failing, behind, rfl, isFirst, before⟩ := ih later
          refine ⟨first, next :: earlier, failing, behind, rfl, isFirst, ?_⟩
          intro other among failure otherFails
          rcases List.mem_cons.mp among with rfl | amongEarlier
          · exact failsFirst ⟨failure, otherFails⟩
          · exact before other amongEarlier failure otherFails

/-- Collecting ends with the first failure, whatever was collected before it. -/
theorem collectFrom_of_firstFailure
    {order : List Nat}
    {error : ComponentError}
    (first : FirstFailure schedule jobs order error)
    (slots : List (Option α)) :
    collectFrom schedule jobs slots order = .failed error := by
  obtain ⟨earlier, place, later, rfl, fails, before⟩ := first
  unfold resultAt? at fails before
  induction earlier generalizing slots with
  | nil =>
      rw [List.nil_append, collectFrom]
      simp only [fails]
  | cons next rest ih =>
      -- A job that completes before the failure fills a slot or none.
      have further (slots : List (Option α)) : collectFrom schedule jobs slots _ = _ :=
        ih slots fun other member => before other (List.mem_cons_of_mem _ member)
      rw [List.cons_append, collectFrom]
      split
      · exact further slots
      · rename_i failure failsBefore
        exact absurd failsBefore (before next List.mem_cons_self failure)
      · exact further _

/-- Collecting without a failure finishes if every slot that is not filled yet
waits for a job that is still to complete. -/
theorem exists_collectFrom_of_waiting
    {order : List Nat}
    {slots : List (Option α)}
    (succeed : ∀ place ∈ order, ∃ value, resultAt? schedule jobs place = some (.ok value))
    (waiting : ∀ place, slots[place]? = some none → place ∈ order) :
    ∃ values, collectFrom schedule jobs slots order = .finished values := by
  induction order generalizing slots with
  | nil =>
      have full : slots.all Option.isSome = true := by
        rw [List.all_eq_true]
        intro slot member
        obtain ⟨place, listed⟩ := List.mem_iff_getElem?.mp member
        cases slot with
        | none => cases waiting place listed
        | some value => rfl
      rw [collectFrom, if_pos full]
      exact ⟨_, rfl⟩
  | cons next rest ih =>
      obtain ⟨value, given⟩ := succeed next List.mem_cons_self
      unfold resultAt? at given
      rw [collectFrom]
      simp only [given]
      refine ih (fun place member => succeed place (List.mem_cons_of_mem _ member)) ?_
      intro place unfilled
      have other : place ≠ next := by
        rintro rfl
        rw [List.getElem?_set_self'] at unfilled
        cases listed : slots[place]? <;> simp [listed] at unfilled
      rw [List.getElem?_set_ne other.symm] at unfilled
      exact (List.mem_cons.mp (waiting place unfilled)).resolve_left other

/-- Collecting without a failure never finishes if a slot waits for a job that
is never done. -/
theorem collectFrom_of_never
    {order : List Nat}
    {slots : List (Option α)}
    {place : Nat}
    (noFailure : ∀ place ∈ order, ∀ failure,
      resultAt? schedule jobs place ≠ some (.error failure))
    (never : resultAt? schedule jobs place = none)
    (unfilled : slots[place]? = some none) :
    collectFrom schedule jobs slots order = .pending := by
  unfold resultAt? at noFailure never
  induction order generalizing slots with
  | nil =>
      have notFull : ¬slots.all Option.isSome = true := by
        intro full
        cases List.all_eq_true.mp full none (List.mem_of_getElem? unfilled)
      rw [collectFrom, if_neg notFull]
  | cons next rest ih =>
      rw [collectFrom]
      split
      · exact ih (fun other member => noFailure other (List.mem_cons_of_mem _ member)) unfilled
      · rename_i failure fails
        exact absurd fails (noFailure next List.mem_cons_self failure)
      · rename_i value given
        have other : next ≠ place := by
          rintro rfl
          rw [never] at given
          cases given
        refine ih (fun other member => noFailure other (List.mem_cons_of_mem _ member)) ?_
        rw [List.getElem?_set_ne other]
        exact unfilled

/-- Jobs that all succeed, in whatever order they complete, are collected. -/
theorem exists_collect_of_succeed
    (complete : IsCompletionOrder (jobs.map Job.turns?)
      (schedule.order (jobs.map Job.turns?)))
    (succeed : ∀ job ∈ jobs, ∃ value, job.value? = some (.ok value)) :
    ∃ values, collect schedule jobs = .finished values := by
  have succeedAt (place : Nat) (job : Job (Except ComponentError α))
      (listed : jobs[place]? = some job) :
      ∃ value, resultAt? schedule jobs place = some (.ok value) := by
    obtain ⟨value, isValue⟩ := succeed job (List.mem_of_getElem? listed)
    refine ⟨value, ?_⟩
    rw [resultAt?, listed]
    exact Job.answer?_eq_ok_iff.mpr isValue
  refine exists_collectFrom_of_waiting ?_ ?_
  · intro place member
    obtain ⟨count, ends⟩ := (complete.mem_iff place).mp member
    rw [List.getElem?_map] at ends
    obtain ⟨job, listed, -⟩ := Option.map_eq_some_iff.mp ends
    exact succeedAt place job listed
  · intro place unfilled
    have inRange : place < jobs.length := by
      have inSlots := (List.getElem?_eq_some_iff.mp unfilled).1
      rwa [List.length_replicate] at inSlots
    obtain ⟨value, given⟩ := succeedAt place _ (List.getElem?_eq_getElem inRange)
    exact complete.mem_iff_resultAt?.mpr ⟨_, given⟩

section Completes

end Completes

/-- Jobs done one after another, each when the one before it has succeeded.  Nothing
runs beside a job here, so nothing catches its panic. -/
def inSequence : List (Job (Except ComponentError α)) → Outcome (List α)
  | [] => .finished []
  | job :: rest => do
      let value ← Outcome.ofJob Outcome.uncaught job
      let values ← inSequence rest
      return value :: values

theorem inSequence_of_forall₂
    {values : List α}
    (succeed : List.Forall₂ (fun job value => job.value? = some (.ok value)) jobs values) :
    inSequence jobs = .finished values := by
  induction succeed with
  | nil => rfl
  | cons first _ ih =>
      rw [inSequence, Outcome.ofJob_eq_finished_iff.mpr first, Outcome.finished_bind, ih,
        Outcome.finished_bind]
      rfl

end Collect

/-! ## The blocks of one kind -/

namespace Preprocessor

theorem exists_place_of_mem
    (preprocessor : Preprocessor)
    {blocks : List Block}
    {block : Block}
    (member : block ∈ blocks) :
    ∃ place : Nat,
      (preprocessor.blockJobs blocks)[place]? = some (preprocessor.processBlock block) :=
  List.mem_iff_getElem?.mp (List.mem_map_of_mem member)

section Kind

variable {preprocessor : Preprocessor} {schedule : Schedule}
variable {document : Text} {filename : Path} {kind : BlockKind}

end Kind

/-- The outcome of blocks that are processed concurrently.  If every block
succeeds, it is one output for each block in their order, as when they are
processed one after another.  If a block fails, with an error or by a panic, it is
the failure that completes first, and never a list.  If no block fails and one is
never done, it is pending. -/
theorem outcome_of_completionOrder
    (preprocessor : Preprocessor)
    (blocks : List Block)
    (schedule : Schedule)
    (order : List Nat)
    (isOrder : schedule.order ((preprocessor.blockJobs blocks).map Job.turns?) = order)
    (complete : IsCompletionOrder ((preprocessor.blockJobs blocks).map Job.turns?) order) :
    ((∀ block ∈ blocks, ∃ output,
        (preprocessor.processBlock block).value? = some (.ok output)) →
      ∃ outputs,
        List.Forall₂ (fun block output =>
          (preprocessor.processBlock block).value? = some (.ok output)) blocks outputs ∧
        collect schedule (preprocessor.blockJobs blocks) = .finished outputs ∧
        inSequence (preprocessor.blockJobs blocks) = .finished outputs) ∧
    ((∃ block ∈ blocks, (preprocessor.processBlock block).Fails) →
      (∃ error, FirstFailure schedule (preprocessor.blockJobs blocks) order error) ∧
        ∀ error, FirstFailure schedule (preprocessor.blockJobs blocks) order error →
          collect schedule (preprocessor.blockJobs blocks) = .failed error) ∧
    ((∀ block ∈ blocks, ¬(preprocessor.processBlock block).Fails) →
      (∃ block ∈ blocks, (preprocessor.processBlock block).turns? = none) →
        collect schedule (preprocessor.blockJobs blocks) = .pending) := by
  subst isOrder
  refine ⟨fun succeed => ?_, ?_, fun noFailure => ?_⟩
  · have jobsSucceed : ∀ job ∈ preprocessor.blockJobs blocks, ∃ output,
        job.value? = some (.ok output) := by
      intro job member
      obtain ⟨block, among, rfl⟩ := List.mem_map.mp member
      exact succeed block among
    obtain ⟨outputs, collected⟩ := exists_collect_of_succeed complete jobsSucceed
    have given := forall₂_of_collect collected
    exact ⟨outputs, List.forall₂_map_left_iff.mp given, collected, inSequence_of_forall₂ given⟩
  · rintro ⟨block, member, fails⟩
    obtain ⟨place, listed⟩ := preprocessor.exists_place_of_mem member
    obtain ⟨error, failsThere⟩ :=
      (@exists_failure_resultAt?_iff _ schedule _ _ _ listed).mpr fails
    have completes := complete.mem_iff_resultAt?.mpr ⟨_, failsThere⟩
    exact ⟨exists_firstFailure completes failsThere,
      fun first isFirst => collectFrom_of_firstFailure isFirst _⟩
  · rintro ⟨block, member, never⟩
    obtain ⟨place, listed⟩ := preprocessor.exists_place_of_mem member
    have neverThere : resultAt? schedule (preprocessor.blockJobs blocks) place = none := by
      rw [resultAt?, listed]
      exact Job.answer?_eq_none_iff.mpr never
    refine collectFrom_of_never ?_ neverThere ?_
    · intro other _ failure fails
      obtain ⟨job, atOther, -⟩ := Option.bind_eq_some_iff.mp fails
      have failed : job.Fails := (exists_failure_resultAt?_iff atOther).mp ⟨failure, fails⟩
      obtain ⟨block, among, rfl⟩ := List.mem_map.mp (List.mem_of_getElem? atOther)
      exact noFailure block among failed
    · rw [List.getElem?_replicate, if_pos (List.getElem?_eq_some_iff.mp listed).1]

/-- A transformer that takes its time over some contents, fails on others, and panics
on one. -/
def delayed : Transformer :=
  .supplied "delayed" fun _ content =>
    if content = ("slow" : Text) then .done 2 (.ok (.ofCode content))
    else if content = ("late" : Text) then .done 3 (.error (.other "failed late"))
    else if content = ("early" : Text) then .done 1 (.error (.other "failed early"))
    else if content = ("panic" : Text) then .panicked 1 (some "boom")
    else .now (.ok (.ofCode content))

/-- Scripts run through `delayed`. -/
def waiting : Preprocessor :=
  .ofRegistry .empty ⟨[], [("javascript", .custom delayed)]⟩ FileStore.empty.access

/-- A script of the samples. -/
def scriptOf (content : Text) : Block := .ofContent .script content sampleFile

/-- Jobs complete in the reverse of the order in which they are listed. -/
def lastFirst : Schedule :=
  { Schedule.cooperative with order := fun turns => (List.range turns.length).reverse }

/-- Two scripts, the second of which completes first, and three, of which the last one
fails before the first one does, with an error or by a panic. -/
theorem outcome_of_completionOrder_lastFirst :
    IsCompletionOrder [some 2, some 0] [1, 0] ∧
      (∃ outputs, outputs.map BlockOutput.code = (["slow", "a"] : List Text) ∧
        collect lastFirst (waiting.blockJobs [scriptOf "slow", scriptOf "a"]) =
          .finished outputs) ∧
      IsCompletionOrder [some 3, some 2, some 1] [2, 1, 0] ∧
      collect lastFirst
          (waiting.blockJobs [scriptOf "late", scriptOf "slow", scriptOf "early"]) =
        .failed (.transformerFailure "javascript" sampleFile 0 "delayed" "failed early") ∧
      collect lastFirst
          (waiting.blockJobs [scriptOf "early", scriptOf "slow", scriptOf "panic"]) =
        .failed (.other "Block task failed: task 2 panicked with message \"boom\"") := by
  have twoComplete : IsCompletionOrder [some 2, some 0] [1, 0] := by
    refine ⟨by decide, fun place => ?_⟩
    match place with
    | 0 => simp
    | 1 => simp
    | further + 2 => simp
  have threeComplete (first second third : Nat) :
      IsCompletionOrder [some first, some second, some third] [2, 1, 0] := by
    refine ⟨by decide, fun place => ?_⟩
    match place with
    | 0 => simp
    | 1 => simp
    | 2 => simp
    | further + 3 => simp
  refine ⟨twoComplete, ?_, threeComplete 3 2 1, ?_, ?_⟩
  · obtain ⟨succeeds, -, -⟩ :=
      outcome_of_completionOrder waiting [scriptOf "slow", scriptOf "a"] lastFirst [1, 0]
        rfl twoComplete
    obtain ⟨outputs, given, collected, -⟩ := succeeds (by
      intro block member
      rcases List.mem_pair.mp member with rfl | rfl
      · exact ⟨_, rfl⟩
      · exact ⟨_, rfl⟩)
    refine ⟨outputs, ?_, collected⟩
    cases given with
    | cons first others =>
        cases others with
        | cons second none =>
            cases none
            cases first
            cases second
            rfl
  · obtain ⟨-, fails, -⟩ :=
      outcome_of_completionOrder waiting [scriptOf "late", scriptOf "slow", scriptOf "early"]
        lastFirst [2, 1, 0] rfl (threeComplete 3 2 1)
    have oneFails : ∃ block ∈ [scriptOf "late", scriptOf "slow", scriptOf "early"],
        (waiting.processBlock block).Fails :=
      ⟨scriptOf "late", List.mem_cons_self, .inl ⟨_, rfl⟩⟩
    refine (fails oneFails).2 _ ⟨[], 2, [1, 0], rfl, rfl, ?_⟩
    intro other none
    cases none
  · obtain ⟨-, fails, -⟩ :=
      outcome_of_completionOrder waiting [scriptOf "early", scriptOf "slow", scriptOf "panic"]
        lastFirst [2, 1, 0] rfl (threeComplete 1 2 1)
    have onePanics : ∃ block ∈ [scriptOf "early", scriptOf "slow", scriptOf "panic"],
        (waiting.processBlock block).Fails :=
      ⟨scriptOf "panic", by simp, .inr ⟨_, rfl⟩⟩
    refine (fails onePanics).2 _ ⟨[], 2, [1, 0], rfl, rfl, ?_⟩
    intro other none
    cases none

end Preprocessor
end ComponentPipeline
