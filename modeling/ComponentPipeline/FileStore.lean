import ComponentPipeline.Path.Normal
import ComponentPipeline.Table

/-!
# Files in memory

A store holds texts under normalized absolute paths and a working directory.
Every path given to it is first taken from the working directory and
normalized.
-/

namespace ComponentPipeline

/-- Why a file or a directory could not be had. -/
inductive FileError
  /-- There is no such entry; the text says which. -/
  | notFound (message : Text)
  /-- Any other reason. -/
  | other (message : Text)
  deriving DecidableEq, Repr

/-- The reason in words. -/
def FileError.message : FileError → Text
  | .notFound message => message
  | .other message => message

/-- The reads that preprocessing needs from a file system. -/
structure FileAccess where
  /-- The directory that relative component files are taken from. -/
  workingDirectory : Except FileError Path
  /-- The text of the file at a path. -/
  read : Path → Except FileError Text

/-- What a file system without a working directory answers. -/
def FileAccess.noWorkingDirectory : Except FileError Path :=
  .error (.other "Not implemented: FileSystem::cwd")

/-- Files held in memory. -/
structure FileStore where
  /-- Directory that relative paths are taken from. -/
  workingDirectory : Path
  /-- Texts under normalized paths. -/
  files : Table Text
  deriving Repr

namespace FileStore

/-- A store without files, at the root directory. -/
def empty : FileStore := ⟨['/'], []⟩

/-- The normalized path that a spelling stands for in a store. -/
def resolve (store : FileStore) (path : Path) : Path :=
  Path.normalize (Path.join store.workingDirectory path)

/-- Writes a file. -/
def write (store : FileStore) (path : Path) (text : Text) : FileStore :=
  { store with files := Table.put (store.resolve path) text store.files }

/-- Moves the working directory. -/
def changeDirectory (store : FileStore) (path : Path) : FileStore :=
  { store with workingDirectory := store.resolve path }

/-- Reads a file. -/
def read (store : FileStore) (path : Path) : Except FileError Text :=
  let resolved := store.resolve path
  match Table.get? resolved store.files with
  | some text => .ok text
  | none => .error (.notFound ("File not found: " ++ resolved))

/-- The reads that a store answers. -/
def access (store : FileStore) : FileAccess :=
  ⟨.ok store.workingDirectory, store.read⟩

end FileStore
end ComponentPipeline
