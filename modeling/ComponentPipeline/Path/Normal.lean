import ComponentPipeline.Path.Basic

/-!
# Normal form of paths

The normal form has no `.` component, and `..` only where nothing stands
before it that it could undo: at the start of a relative path.  It is found
without looking at a disk, by one pass over the components with the steps
taken so far on a stack.
-/

namespace ComponentPipeline
namespace Path

/-- One more component on the stack of steps taken so far, the last step
first.  A parent step undoes a name, is absorbed by the root and is kept
otherwise. -/
def pushComponent (taken : List Component) : Component → List Component
  | .root => .root :: taken
  | .current => taken
  | .parent =>
      match taken with
      | .name _ :: before => before
      | .root :: _ => taken
      | _ => .parent :: taken
  | .name text => .name text :: taken

/-- Components without `.` steps and without `..` steps that can be undone. -/
def reduce (components : List Component) : List Component :=
  (components.foldl pushComponent []).reverse

/-- The path with the given components. -/
def ofComponents : List Component → Path
  | .root :: rest => '/' :: List.intercalate ['/'] (rest.map Component.text)
  | components => List.intercalate ['/'] (components.map Component.text)

/-- The normal form of a path. -/
def normalize (path : Path) : Path :=
  ofComponents (reduce (components path))

end Path
end ComponentPipeline
