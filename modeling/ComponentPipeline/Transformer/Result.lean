import ComponentPipeline.Block.Basic
import ComponentPipeline.ComponentError
import ComponentPipeline.Css.Parser

/-!
# What transformers get and give

A transformer gets the content of a block with a context, and gives the
transformed text, perhaps with a source map and with the files that the text
was built from, or a failure.
-/

namespace ComponentPipeline

/-- What a transformer knows of the block. -/
structure Context where
  /-- Canonical language of the block. -/
  language : Text
  /-- The component, or the file that the content was taken from. -/
  filename : Path
  /-- Options of this stage. -/
  options : Table Json
  /-- Attributes of the block. -/
  attributes : Attributes
  /-- Whether source maps are asked for. -/
  sourceMap : Bool
  /-- Directory that source names are relative to. -/
  projectRoot : Path
  deriving Repr

/-- What a transformer gives. -/
structure Result where
  /-- The transformed text. -/
  code : Text
  /-- Leads from the transformed text back to the content. -/
  map : Option SourceMap
  /-- The files that the text was built from. -/
  dependencies : List Path
  deriving DecidableEq, Repr

/-- A result that is only a text. -/
def Result.ofCode (code : Text) : Result := ⟨code, none, []⟩

/-- Why a transformer gave nothing. -/
inductive Failure
  /-- A failure that is reported as it is. -/
  | known (error : ComponentError)
  /-- The content is no stylesheet. -/
  | unreadable (error : Css.SyntaxError)
  /-- Any other failure. -/
  | other (message : Text)
  deriving DecidableEq, Repr

/-- A failure as a failure of preprocessing; one that is not reported as it is
is reported as `wrap` says of its message. -/
def Failure.report (wrap : Text → ComponentError) : Failure → ComponentError
  | .known error => error
  | .unreadable error => wrap error.message
  | .other message => wrap message

end ComponentPipeline
