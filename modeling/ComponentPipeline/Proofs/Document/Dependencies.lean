import ComponentPipeline.Proofs.Chain.Sequence
import ComponentPipeline.Proofs.Document.Assembly

/-!
# The files that an output was built from

A block reports the file that its content was taken from, and then what the
stages of its chain report.  An output lists what all of its blocks report, each
path once and under its first spelling.  The paths of a chain are listed once
before those of the document are, which makes no difference to the document's
list.
-/

namespace ComponentPipeline

namespace Preprocessor

variable {preprocessor : Preprocessor}

/-! ## What blocks report -/

end Preprocessor
end ComponentPipeline
