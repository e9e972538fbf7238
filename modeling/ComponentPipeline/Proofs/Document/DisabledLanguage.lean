import ComponentPipeline.Proofs.Document.CompletionOrder
import ComponentPipeline.Proofs.Options.Settings

/-!
# Languages that are off

A block in a language that is off fails before anything else of it is looked at,
so it does not matter whether it is blank or which file it names.  A run that
comes to such a block fails: nothing that its other blocks do hides the failure,
and if nothing else fails it is the run's.
-/

namespace ComponentPipeline

/-! ## Registries of options -/

section Registry

variable {compile : StyleCompiler} {options : Options} {registry : Registry}

end Registry

namespace Preprocessor

/-! ## Blocks that a run comes to -/

/-- A block that a run comes to: the markup block of the document, or a script or
style block of the document after its markup was processed. -/
inductive Reaches (preprocessor : Preprocessor) (content : Text) (filename : Path) :
    FoundBlock → Prop
  | markup {document found}
      (hooked : preprocessor.applyHook content filename = .ok document)
      (first : findMarkupBlock? document filename = some found) :
      Reaches preprocessor content filename found
  | other {document markup kind found}
      (hooked : preprocessor.applyHook content filename = .ok document)
      (markupDone : preprocessor.processMarkup document filename = .finished markup)
      (notMarkup : kind ≠ .markup)
      (member : found ∈ findBlocks markup.code kind filename) :
      Reaches preprocessor content filename found

/-- A block fails with an error. -/
def Fails (preprocessor : Preprocessor) (found : FoundBlock) (error : ComponentError) : Prop :=
  (preprocessor.processBlock found.block).value? = some (.error error)

variable {preprocessor : Preprocessor} {content : Text} {filename : Path}

section Run

variable {schedule : Schedule}

end Run

end Preprocessor
end ComponentPipeline
