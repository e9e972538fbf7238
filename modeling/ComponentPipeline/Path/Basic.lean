import ComponentPipeline.Text.Basic

/-!
# Paths

A path is the text that spells it, with `/` between its pieces.  What a path
means are its components: empty pieces and `.` pieces carry nothing, except
that a relative path may start at `.`.  Two spellings are one path when their
components are equal.
-/

namespace ComponentPipeline

/-- A path, as spelled. -/
abbrev Path := Text

namespace Path

/-- A step of a path. -/
inductive Component
  /-- The root directory, which starts an absolute path. -/
  | root
  /-- The current directory, at the start of a relative path. -/
  | current
  /-- The parent directory. -/
  | parent
  /-- An entry of a directory. -/
  | name (text : Text)
  deriving DecidableEq, Repr

/-- The text of a component. -/
def Component.text : Component → Text
  | .root => ['/']
  | .current => ['.']
  | .parent => ['.', '.']
  | .name text => text

/-- The component that a piece between slashes stands for, if it carries
anything. -/
def component? (piece : Text) : Option Component :=
  if piece = [] then none
  else if piece = ['.'] then none
  else if piece = ['.', '.'] then some .parent
  else some (.name piece)

/-- Whether a path starts at the root directory. -/
def isAbsolute : Path → Bool
  | '/' :: _ => true
  | _ => false

/-- Whether a path starts with a `.` piece. -/
def startsAtCurrent : Path → Bool
  | ['.'] => true
  | '.' :: '/' :: _ => true
  | _ => false

/-- The components of a path. -/
def components (path : Path) : List Component :=
  let steps := (path.splitOn '/').filterMap component?
  if isAbsolute path then .root :: steps
  else if startsAtCurrent path then .current :: steps
  else steps

/-- Whether two spellings are one path. -/
def same (first second : Path) : Bool :=
  components first == components second

/-- The path `added`, taken from the directory `base`. -/
def join (base added : Path) : Path :=
  if isAbsolute added then added
  else if base.isEmpty || base.getLast? == some '/' then base ++ added
  else base ++ '/' :: added

/-- Whether a piece carries nothing at the end of a path. -/
def isVoid (piece : Text) : Bool :=
  piece.isEmpty || piece == ['.']

/-- Pieces without the void ones at the end. -/
def withoutTrailingVoid (pieces : List Text) : List Text :=
  (pieces.reverse.dropWhile isVoid).reverse

/-- What a path starts with before its pieces, and the text of its pieces. -/
def splitLead (path : Path) : Text × Text :=
  if isAbsolute path || startsAtCurrent path then
    (path.take 1, path.drop 1)
  else
    ([], path)

/-- The directory of a path, cut out of its spelling; none for the root and
for the empty path. -/
def parent? (path : Path) : Option Path :=
  let (lead, body) := splitLead path
  match withoutTrailingVoid (body.splitOn '/') with
  | [] => if lead = ['.'] then some [] else none
  | pieces =>
      let kept := withoutTrailingVoid pieces.dropLast
      some (lead ++ List.intercalate ['/'] kept)

/-- The extension of a name: the part after its last dot, if anything stands
before that dot. -/
def nameExtension? (name : Text) : Option Text :=
  let reversed := name.reverse
  match reversed.dropWhile (· != '.') with
  | [] => none
  | ['.'] => none
  | _ :: _ => some (reversed.takeWhile (· != '.')).reverse

/-- The extension of the last component of a path. -/
def extension? (path : Path) : Option Text :=
  match (components path).getLast? with
  | some (.name name) => nameExtension? name
  | _ => none

end Path
end ComponentPipeline
