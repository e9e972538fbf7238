import ComponentPipeline.Diagnostic
import ComponentPipeline.FileStore
import ComponentPipeline.SourceMap.Basic

/-!
# Failures of preprocessing

Each way in which preprocessing a component can fail, with what is known about
it; the wording is derived.
-/

namespace ComponentPipeline

/-- Why a component could not be preprocessed. -/
inductive ComponentError
  /-- A block is in a language that the options turn off. -/
  | languageDisabled (language : Text) (filename : Path)
  /-- A block is in a language that nothing transforms. -/
  | noTransformer (language : Text) (filename : Path)
  /-- A stage of a chain of transformers failed. -/
  | transformerFailure
      (language : Text)
      (filename : Path)
      (stage : Nat)
      (transformer : Text)
      (cause : Text)
  /-- The file that a block refers to could not be read. -/
  | unresolvableReference (reference : Text) (filename : Path) (cause : FileError)
  /-- A global marker stands where it cannot be removed. -/
  | malformedSelector (selector : Text) (filename : Path) (reason : Text)
  /-- The hook on the whole document failed. -/
  | hookFailure (cause : Text)
  /-- A source map refers to what it does not have. -/
  | sourceMap (cause : Text)
  /-- Any other failure. -/
  | other (message : Text)
  deriving DecidableEq, Repr

namespace ComponentError

/-- A failure of source maps as a failure of preprocessing. -/
def ofSourceMapError (error : SourceMapError) : ComponentError :=
  .sourceMap error.message

/-- The start of every message. -/
def messageStart : Text := "svelte-preprocess: "

/-- A text in double quotes. -/
def quoted (text : Text) : Text :=
  '"' :: (text ++ ['"'])

/-- The failure in words, without the start that all messages have. -/
def summary : ComponentError → Text
  | .languageDisabled language filename =>
      "language " ++ quoted language ++ " is disabled but is used in " ++ filename
  | .noTransformer language filename =>
      "no transformer is registered for language " ++ quoted language ++
        " used in " ++ filename
  | .transformerFailure language filename stage transformer cause =>
      "transformer " ++ quoted transformer ++ " (stage " ++ Text.ofNat stage ++
        ") failed to process " ++ quoted language ++ " in " ++ filename ++ ": " ++ cause
  | .unresolvableReference reference filename cause =>
      "could not load " ++ quoted reference ++ " referenced from " ++ filename ++
        ": " ++ cause.message
  | .malformedSelector selector filename reason =>
      "cannot rewrite selector " ++ quoted selector ++ " in " ++ filename ++
        ": " ++ reason
  | .hookFailure cause => "onBefore hook failed: " ++ cause
  | .sourceMap cause => "source map error: " ++ cause
  | .other message => message

/-- The failure in words. -/
def message (error : ComponentError) : Text :=
  messageStart ++ error.summary

/-- The name of the kind of failure. -/
def name : ComponentError → Text
  | .languageDisabled .. => "LanguageDisabled"
  | .noTransformer .. => "NoTransformer"
  | .transformerFailure .. => "TransformerFailure"
  | .unresolvableReference .. => "UnresolvableReference"
  | .malformedSelector .. => "MalformedSelectorSyntax"
  | .hookFailure _ => "HookFailure"
  | .sourceMap _ => "SourceMapError"
  | .other _ => "Error"

/-- The canonical language that a failure is about. -/
def language? : ComponentError → Option Text
  | .languageDisabled language _ => some language
  | .noTransformer language _ => some language
  | .transformerFailure language _ _ _ _ => some language
  | _ => none

/-- The file that a failure is about. -/
def filename? : ComponentError → Option Path
  | .languageDisabled _ filename => some filename
  | .noTransformer _ filename => some filename
  | .transformerFailure _ filename _ _ _ => some filename
  | .unresolvableReference _ filename _ => some filename
  | .malformedSelector _ filename _ => some filename
  | _ => none

/-- What a user may do about a failure. -/
def hints? : ComponentError → Option (List Text)
  | .languageDisabled language _ =>
      some ["Remove `" ++ language ++
        ": false` from the transformers option to process this block"]
  | .noTransformer language _ =>
      some ["Register a transformer for " ++ quoted language ++
        " or declare an alias to a supported language"]
  | _ => none

/-- Which part of the program reports a failure: the transformer that failed,
else the program itself. -/
def origin : ComponentError → Text
  | .transformerFailure _ _ _ transformer _ => transformer
  | _ => "svelte-preprocess"

/-- A failure described to a user. -/
def diagnostic (error : ComponentError) : Diagnostic where
  message := error.message
  origin := some error.origin
  name := some error.name
  language := error.language?
  filePath := error.filename?
  hints := error.hints?

end ComponentError
end ComponentPipeline
