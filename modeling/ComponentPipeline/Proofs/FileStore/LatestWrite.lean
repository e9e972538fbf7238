import ComponentPipeline.FileStore
import ComponentPipeline.Proofs.Path.NormalForm

/-!
# What a store holds for a path

A store is changed by writing files and by moving its working directory.  Whatever
its changes were, the working directory and the keys of the files are absolute and
normalized, and a path is read as the latest write to the file that it stands for.
Which file a written path stands for is settled by the working directory at the
time of the write.
-/

namespace ComponentPipeline

theorem Table.mem_keys_of_put
    {α : Type}
    {key asked : Text}
    {value : α}
    {table : Table α}
    (member : asked ∈ keys (put key value table)) :
    asked = key ∨ asked ∈ keys table := by
  induction table with
  | nil => simpa [put, keys] using member
  | cons pair rest ih =>
      obtain ⟨other, old⟩ := pair
      simp only [put] at member
      split at member
      · rcases List.mem_cons.mp member with here | behind
        · exact .inl here
        · exact .inr (List.mem_cons_of_mem _ behind)
      · rcases List.mem_cons.mp member with here | behind
        · exact .inr (here ▸ List.mem_cons_self)
        · exact (ih behind).imp_right (List.mem_cons_of_mem _)

namespace FileStore

/-! ## Changes to a store -/

/-- A change to a store. -/
inductive Change
  /-- A file is written. -/
  | write (path : Path) (text : Text)
  /-- The working directory is moved. -/
  | changeDirectory (path : Path)
  deriving DecidableEq, Repr

/-- The store after one more change. -/
def apply (store : FileStore) : Change → FileStore
  | .write path text => store.write path text
  | .changeDirectory path => store.changeDirectory path

/-- The store that an empty one has become by changes. -/
def after (changes : List Change) : FileStore :=
  changes.foldl apply empty

@[simp] theorem after_nil : after [] = empty := rfl

@[simp] theorem after_concat (changes : List Change) (change : Change) :
    after (changes ++ [change]) = (after changes).apply change := by
  simp [after]

/-! ## Absolute and normalized paths -/

/-- A path that does not depend on any directory, in normal form. -/
structure IsResolved (path : Path) : Prop where
  /-- It starts at the root. -/
  absolute : Path.isAbsolute path = true
  /-- Normalizing it changes nothing. -/
  normalized : Path.normalize path = path

theorem isResolved_resolve
    {store : FileStore}
    (directory : IsResolved store.workingDirectory)
    (path : Path) :
    IsResolved (store.resolve path) := by
  constructor
  · rw [resolve, Path.isAbsolute_normalize, Path.isAbsolute_join, directory.absolute,
      Bool.true_or]
  · exact Path.normalize_normalize _

/-- A store with nothing but absolute and normalized paths in it. -/
structure IsSound (store : FileStore) : Prop where
  /-- The working directory is absolute and normalized. -/
  directory : IsResolved store.workingDirectory
  /-- So is every path that a text is stored under. -/
  keys : ∀ key ∈ Table.keys store.files, IsResolved key

theorem isSound_empty : IsSound empty where
  directory := ⟨by decide, by decide⟩
  keys := fun _ member => nomatch member

/-- Every change leaves a store sound. -/
theorem IsSound.apply {store : FileStore} (sound : store.IsSound) (change : Change) :
    (store.apply change).IsSound := by
  cases change with
  | write path text =>
      refine ⟨sound.directory, fun key member => ?_⟩
      rcases Table.mem_keys_of_put member with rfl | before
      · exact isResolved_resolve sound.directory path
      · exact sound.keys key before
  | changeDirectory path => exact ⟨isResolved_resolve sound.directory path, sound.keys⟩

theorem isSound_after (changes : List Change) : (after changes).IsSound := by
  induction changes using List.reverseRecOn with
  | nil => exact isSound_empty
  | append_singleton changes change ih =>
      rw [after_concat]
      exact ih.apply change

/-! ## Writes to a file -/

/-- The file that a path stands for after changes: the path is taken from the
working directory at that time and normalized. -/
def fileOf (changes : List Change) (path : Path) : Path :=
  Path.normalize (Path.join (after changes).workingDirectory path)

theorem normalize_fileOf (changes : List Change) (path : Path) :
    Path.normalize (fileOf changes path) = fileOf changes path :=
  Path.normalize_normalize _

/-- At some place among changes, a text is written to a path that stands for a
file at that time. -/
def Writes (changes : List Change) (place : Nat) (file : Path) (text : Text) : Prop :=
  ∃ path, changes[place]? = some (.write path text) ∧
    Path.same (fileOf (changes.take place) path) file = true

/-- The latest of the writes to a file among changes. -/
structure IsLatestWrite
    (changes : List Change)
    (place : Nat)
    (file : Path)
    (text : Text) : Prop where
  /-- The text is written to the file at this place. -/
  writes : Writes changes place file text
  /-- No write to the file comes later. -/
  latest : ∀ {later : Nat} {other : Text}, Writes changes later file other → later ≤ place

section Writes

variable {changes : List Change}
variable {change : Change}
variable {place : Nat}
variable {file : Path}
variable {text : Text}

theorem Writes.place_lt (writes : Writes changes place file text) :
    place < changes.length := by
  obtain ⟨path, here, -⟩ := writes
  exact (List.getElem?_eq_some_iff.mp here).1

theorem Writes.place_le (writes : Writes (changes ++ [change]) place file text) :
    place ≤ changes.length := by
  have inside := writes.place_lt
  rw [List.length_append, List.length_singleton] at inside
  exact Nat.le_of_lt_succ inside

theorem writes_concat_of_lt (inside : place < changes.length) :
    Writes (changes ++ [change]) place file text ↔ Writes changes place file text := by
  unfold Writes
  rw [List.getElem?_append_left inside, List.take_append_of_le_length (Nat.le_of_lt inside)]

theorem writes_concat_length :
    Writes (changes ++ [change]) changes.length file text ↔
      ∃ path, change = .write path text ∧
        Path.same (fileOf changes path) file = true := by
  unfold Writes
  simp

/-- A write is made to the file that its path stands for. -/
theorem writes_concat_write_iff
    {path : Path}
    {added : Text}
    (normalized : Path.normalize file = file) :
    Writes (changes ++ [.write path added]) changes.length file text ↔
      file = fileOf changes path ∧ added = text := by
  have same_iff : Path.same (fileOf changes path) file = true ↔ file = fileOf changes path := by
    rw [← normalize_fileOf, ← normalized, Path.same_normalize_iff, eq_comm]
  rw [writes_concat_length, ← same_iff]
  constructor
  · rintro ⟨written, isWrite, same⟩
    cases isWrite
    exact ⟨same, rfl⟩
  · rintro ⟨same, rfl⟩
    exact ⟨path, rfl, same⟩

theorem not_writes_concat_changeDirectory (path : Path) :
    ¬Writes (changes ++ [.changeDirectory path]) changes.length file text := by
  rw [writes_concat_length]
  rintro ⟨written, isWrite, -⟩
  cases isWrite

/-- A write at the end is the latest one. -/
theorem isLatestWrite_concat_of_writes
    {added : Text}
    (atEnd : Writes (changes ++ [change]) changes.length file added) :
    (∃ place, IsLatestWrite (changes ++ [change]) place file text) ↔ added = text := by
  constructor
  · rintro ⟨place, writes, latest⟩
    have same : place = changes.length := Nat.le_antisymm writes.place_le (latest atEnd)
    subst same
    obtain ⟨path, written, -⟩ := writes_concat_length.mp atEnd
    obtain ⟨pathToo, writtenToo, -⟩ := writes_concat_length.mp writes
    rw [written] at writtenToo
    cases writtenToo
    rfl
  · rintro rfl
    exact ⟨changes.length, atEnd, Writes.place_le⟩

/-- A change that does not write to a file leaves the writes to it. -/
theorem writes_concat_iff
    (notAtEnd : ∀ text, ¬Writes (changes ++ [change]) changes.length file text) :
    Writes (changes ++ [change]) place file text ↔ Writes changes place file text := by
  constructor
  · intro writes
    have different : place ≠ changes.length := by
      rintro rfl
      exact notAtEnd text writes
    have inside := Nat.lt_of_le_of_ne writes.place_le different
    exact (writes_concat_of_lt inside).mp writes
  · intro writes
    exact (writes_concat_of_lt writes.place_lt).mpr writes

theorem isLatestWrite_concat_iff
    (notAtEnd : ∀ text, ¬Writes (changes ++ [change]) changes.length file text) :
    IsLatestWrite (changes ++ [change]) place file text ↔
      IsLatestWrite changes place file text := by
  constructor
  · rintro ⟨writes, latest⟩
    exact ⟨(writes_concat_iff notAtEnd).mp writes,
      fun later => latest ((writes_concat_iff notAtEnd).mpr later)⟩
  · rintro ⟨writes, latest⟩
    exact ⟨(writes_concat_iff notAtEnd).mpr writes,
      fun later => latest ((writes_concat_iff notAtEnd).mp later)⟩

/-- If a file is written at all, one of the writes to it is the latest. -/
theorem Writes.exists_isLatestWrite (writes : Writes changes place file text) :
    ∃ latest text, IsLatestWrite changes latest file text := by
  induction changes using List.reverseRecOn with
  | nil => exact absurd writes.place_lt (Nat.not_lt_zero place)
  | append_singleton changes change ih =>
      by_cases atEnd : ∃ text, Writes (changes ++ [change]) changes.length file text
      · obtain ⟨added, atEnd⟩ := atEnd
        obtain ⟨latest, isLatest⟩ := (isLatestWrite_concat_of_writes atEnd).mpr rfl
        exact ⟨latest, added, isLatest⟩
      · have notAtEnd := not_exists.mp atEnd
        obtain ⟨latest, other, isLatest⟩ := ih ((writes_concat_iff notAtEnd).mp writes)
        exact ⟨latest, other, (isLatestWrite_concat_iff notAtEnd).mpr isLatest⟩

end Writes

/-! ## Reading -/

/-- The text that is stored under a path is the one that was written to it
last. -/
theorem get?_files_iff
    {changes : List Change}
    {file : Path}
    {text : Text}
    (normalized : Path.normalize file = file) :
    Table.get? file (after changes).files = some text ↔
      ∃ place, IsLatestWrite changes place file text := by
  induction changes using List.reverseRecOn with
  | nil =>
      constructor
      · intro found
        cases found
      · rintro ⟨place, writes, -⟩
        exact absurd writes.place_lt (Nat.not_lt_zero place)
  | append_singleton changes change ih =>
      rw [after_concat]
      cases change with
      | changeDirectory path =>
          have notAtEnd (text : Text) :
              ¬Writes (changes ++ [.changeDirectory path]) changes.length file text :=
            not_writes_concat_changeDirectory path
          simp only [isLatestWrite_concat_iff notAtEnd]
          exact ih
      | write path added =>
          have stored : Table.get? file ((after changes).apply (.write path added)).files =
              if file = fileOf changes path then some added
              else Table.get? file (after changes).files :=
            Table.get?_put _ _ _ _
          rw [stored]
          split
          · rename_i here
            have atEnd :
                Writes (changes ++ [.write path added]) changes.length file added :=
              (writes_concat_write_iff normalized).mpr ⟨here, rfl⟩
            rw [isLatestWrite_concat_of_writes atEnd, Option.some_inj]
          · rename_i elsewhere
            have notAtEnd (text : Text) :
                ¬Writes (changes ++ [.write path added]) changes.length file text :=
              fun writes => elsewhere ((writes_concat_write_iff normalized).mp writes).1
            simp only [isLatestWrite_concat_iff notAtEnd]
            exact ih

theorem read_eq_ok_iff {store : FileStore} {path : Path} {text : Text} :
    store.read path = .ok text ↔
      Table.get? (store.resolve path) store.files = some text := by
  simp only [read]
  split
  · rename_i stored found
    rw [found, Except.ok.injEq, Option.some_inj]
  · rename_i missing
    simp [missing]

theorem read_eq_error_iff {store : FileStore} {path : Path} {error : FileError} :
    store.read path = .error error ↔
      error = .notFound ("File not found: " ++ store.resolve path) ∧
        Table.get? (store.resolve path) store.files = none := by
  simp only [read]
  split
  · rename_i stored found
    simp [found]
  · rename_i missing
    rw [Except.error.injEq, eq_comm, missing]
    exact (and_iff_left rfl).symm

/-- Nothing is stored under a path that was never written to. -/
theorem get?_files_eq_none_iff
    {changes : List Change}
    {file : Path}
    (normalized : Path.normalize file = file) :
    Table.get? file (after changes).files = none ↔
      ∀ place text, ¬Writes changes place file text := by
  rw [Option.eq_none_iff_forall_ne_some]
  constructor
  · intro nothing place text writes
    obtain ⟨latest, other, isLatest⟩ := writes.exists_isLatestWrite
    exact nothing other ((get?_files_iff normalized).mpr ⟨latest, isLatest⟩)
  · intro never text found
    obtain ⟨place, isLatest⟩ := (get?_files_iff normalized).mp found
    exact never place text isLatest.writes

/-- After any changes to an empty store its working directory and its keys are
absolute and normalized, and reading a path gives the text of the latest write to
the file that it stands for, or says that there is no such file if it was never
written. -/
theorem read_after_changes (changes : List Change) (path : Path) :
    (after changes).IsSound ∧
      (∀ text, (after changes).read path = .ok text ↔
        ∃ place, IsLatestWrite changes place (fileOf changes path) text) ∧
      ∀ error, (after changes).read path = .error error ↔
        error = .notFound ("File not found: " ++ fileOf changes path) ∧
          ∀ place text, ¬Writes changes place (fileOf changes path) text := by
  have normalized := normalize_fileOf changes path
  refine ⟨isSound_after changes, fun text => ?_, fun error => ?_⟩
  · exact read_eq_ok_iff.trans (get?_files_iff normalized)
  · exact read_eq_error_iff.trans (and_congr_right fun _ => get?_files_eq_none_iff normalized)

end FileStore
end ComponentPipeline
