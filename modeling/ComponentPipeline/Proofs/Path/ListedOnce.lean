import ComponentPipeline.Chain.Run

/-!
# Files listed once

Of the spellings of a path the first one is listed, and the others are not.  So
it does not matter if some of the paths were listed once before: what is listed
in the end is the first spelling of each of them.
-/

namespace ComponentPipeline

theorem Path.same_iff {first second : Path} :
    Path.same first second = true ↔ Path.components first = Path.components second :=
  beq_iff_eq

/-- Paths listed after others, each unless the same path is listed already. -/
def listOnce (listed paths : List Path) : List Path :=
  paths.foldl
    (fun listed path => if listed.any (Path.same path) then listed else listed ++ [path])
    listed

theorem distinctPaths_eq (paths : List Path) : distinctPaths paths = listOnce [] paths := rfl

theorem listOnce_append (listed first second : List Path) :
    listOnce listed (first ++ second) = listOnce (listOnce listed first) second :=
  List.foldl_append

theorem listOnce_singleton (listed : List Path) (path : Path) :
    listOnce listed [path] =
      if listed.any (Path.same path) then listed else listed ++ [path] := rfl

theorem listOnce_cons (listed : List Path) (path : Path) (rest : List Path) :
    listOnce listed (path :: rest) = listOnce (listOnce listed [path]) rest := rfl

theorem mem_listOnce_of_mem
    {listed paths : List Path}
    {path : Path}
    (member : path ∈ listed) :
    path ∈ listOnce listed paths := by
  induction paths generalizing listed with
  | nil => exact member
  | cons next rest ih =>
      rw [listOnce_cons]
      apply ih
      rw [listOnce_singleton]
      split
      · exact member
      · exact List.mem_append_left _ member

/-- Every path is listed under some spelling. -/
theorem any_same_listOnce
    (listed : List Path)
    {paths : List Path}
    {path : Path}
    (member : path ∈ paths) :
    (listOnce listed paths).any (Path.same path) = true := by
  induction paths generalizing listed with
  | nil => cases member
  | cons next rest ih =>
      rw [listOnce_cons]
      rcases List.mem_cons.mp member with rfl | later
      · obtain ⟨spelling, isListed, same⟩ :
            ∃ spelling ∈ listOnce listed [path], Path.same path spelling = true := by
          rw [listOnce_singleton]
          split
          · rename_i known
            exact List.any_eq_true.mp known
          · exact ⟨path, by simp, Path.same_iff.mpr rfl⟩
        exact List.any_eq_true.mpr ⟨spelling, mem_listOnce_of_mem isListed, same⟩
      · exact ih _ later

/-- A path that is listed already adds nothing to a longer list. -/
theorem listOnce_listOnce_singleton (kept listed : List Path) (path : Path) :
    listOnce kept (listOnce listed [path]) = listOnce (listOnce kept listed) [path] := by
  rw [listOnce_singleton listed]
  split
  · rename_i known
    -- The spelling that stands for the path in `listed` is kept, or one that
    -- stands for it in `kept`.
    obtain ⟨spelling, isListed, same⟩ := List.any_eq_true.mp known
    obtain ⟨other, isKept, sameToo⟩ :=
      List.any_eq_true.mp (any_same_listOnce kept isListed)
    have seen : (listOnce kept listed).any (Path.same path) = true :=
      List.any_eq_true.mpr ⟨other, isKept,
        Path.same_iff.mpr ((Path.same_iff.mp same).trans (Path.same_iff.mp sameToo))⟩
    rw [listOnce_singleton, if_pos seen]
  · rw [listOnce_append]

theorem listOnce_listOnce (kept listed paths : List Path) :
    listOnce kept (listOnce listed paths) = listOnce (listOnce kept listed) paths := by
  induction paths generalizing listed with
  | nil => rfl
  | cons path rest ih =>
      rw [listOnce_cons listed, ih, listOnce_listOnce_singleton, ← listOnce_cons]

/-- Lists of distinct paths put together list the same paths as the lists that
they come from. -/
theorem distinctPaths_append (first second : List Path) :
    distinctPaths (distinctPaths first ++ distinctPaths second) =
      distinctPaths (first ++ second) := by
  simp only [distinctPaths_eq, listOnce_append, listOnce_listOnce]
  rfl

/-- Two lists have the same first spellings behind whatever is listed already. -/
def ListedAlike (first second : List Path) : Prop :=
  ∀ listed, listOnce listed first = listOnce listed second

theorem ListedAlike.refl (paths : List Path) : ListedAlike paths paths :=
  fun _ => rfl

theorem ListedAlike.append
    {first first' second second' : List Path}
    (alike : ListedAlike first first')
    (alikeToo : ListedAlike second second') :
    ListedAlike (first ++ second) (first' ++ second') := by
  intro listed
  rw [listOnce_append, listOnce_append, alike, alikeToo]

theorem ListedAlike.distinctPaths_eq
    {first second : List Path}
    (alike : ListedAlike first second) :
    distinctPaths first = distinctPaths second :=
  alike []

end ComponentPipeline
