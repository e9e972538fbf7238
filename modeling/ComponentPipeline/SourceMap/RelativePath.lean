import ComponentPipeline.Text.Basic

/-!
# Source names relative to a project

A source map stores the names of its sources relative to a project directory.
Both kinds of slash separate pieces here, a drive letter makes a name
absolute, and a name that holds a colon but is not absolute is taken for a
location of another kind and left alone.
-/

namespace ComponentPipeline
namespace SourceName

/-- Either slash. -/
def isSlash (char : Char) : Bool :=
  char == '/' || char == '\\'

/-- Whether a name starts at a root, with or without a drive letter. -/
def isAbsolute (name : Text) : Bool :=
  match name with
  | [] => false
  | first :: rest =>
      isSlash first ||
        (first.isAlpha && 3 < Text.size name &&
          match rest with
          | ':' :: slash :: _ => isSlash slash
          | _ => false)

/-- The pieces of a name, without empty and `.` pieces. -/
def pieces (name : Text) : List Text :=
  (name.splitOnP isSlash).filter fun piece => !(piece.isEmpty || piece == ['.'])

/-- Pieces with a slash between any two. -/
def ofPieces (pieces : List Text) : Text :=
  List.intercalate ['/'] pieces

/-- A name without a leading `file://`, in any case of its letters. -/
def withoutScheme (name : Text) : Text :=
  match Text.after? "file://" (name.map Char.toLower) with
  | some _ => name.drop 7
  | none => name

/-- Two lists without their common start. -/
def dropCommon : List Text → List Text → List Text × List Text
  | first :: firsts, second :: seconds =>
      if first = second then dropCommon firsts seconds
      else (first :: firsts, second :: seconds)
  | firsts, seconds => (firsts, seconds)

/-- A name relative to a base directory. -/
def relative (base name : Text) : Text :=
  let target := withoutScheme name
  if isAbsolute target then
    let (up, down) := dropCommon (pieces base) (pieces target)
    ofPieces (up.map (fun _ => ['.', '.']) ++ down)
  else if List.elem ':' target then target
  else ofPieces (pieces target)

end SourceName
end ComponentPipeline
