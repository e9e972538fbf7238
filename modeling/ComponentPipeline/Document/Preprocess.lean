import ComponentPipeline.Document.Block
import ComponentPipeline.Document.Compose
import ComponentPipeline.Document.Outcome

/-!
# Preprocessing a component

The hook may change the document first.  The markup block, if there is one, is
processed and spliced into the document.  The scripts and then the styles of
the new document are processed, those of one kind concurrently, and spliced in
together.  If a source map is asked for, the maps of the two splices are
composed.

The files that the output was built from are listed once each: those of the
markup, then of the scripts, then of the styles, in the order of the blocks.
-/

namespace ComponentPipeline

/-- A preprocessed component. -/
structure Output where
  /-- The document. -/
  code : Text
  /-- The files that it was built from. -/
  dependencies : List Path
  /-- Leads from the document back to the component, if maps are asked for. -/
  map : Option SourceMap
  /-- The invocations of transformers: markup, scripts and styles, those of
  one kind in the order in which they ended. -/
  invocations : List Invocation

/-- A document after its markup was processed. -/
structure MarkupOutput where
  /-- The document. -/
  code : Text
  /-- Leads back to the document before, if there was a markup block. -/
  map : Option SourceMap
  /-- The files that the markup was built from. -/
  dependencies : List Path
  /-- The invocations of transformers. -/
  invocations : List Invocation

/-- Invocations in the order in which they ended. -/
def byTurn (invocations : List Invocation) : List Invocation :=
  invocations.mergeSort fun first second => first.turn ≤ second.turn

namespace Preprocessor

/-- The document after the hook. -/
def applyHook
    (preprocessor : Preprocessor)
    (document : Text)
    (filename : Path) :
    Except ComponentError Text :=
  match preprocessor.options.onBefore with
  | none => .ok document
  | some hook => (hook document filename).mapError .hookFailure

/-- The document after its markup was processed. -/
def processMarkup
    (preprocessor : Preprocessor)
    (document : Text)
    (filename : Path) :
    Outcome MarkupOutput :=
  match findMarkupBlock? document filename with
  | none => .finished ⟨document, none, [], []⟩
  | some found => do
      let output ← Outcome.ofJob Outcome.uncaught (preprocessor.processBlock found.block)
      let (code, map) ← Outcome.ofExcept <|
        splice document filename (projectRootOf filename) [output.replacement found]
          preprocessor.options.sourceMap
      return ⟨code, map, output.dependencies, output.invocations⟩

/-- The processed blocks of one kind, in the order of the document. -/
def processKind
    (preprocessor : Preprocessor)
    (schedule : Schedule)
    (document : Text)
    (filename : Path)
    (kind : BlockKind) :
    Outcome (List (FoundBlock × BlockOutput)) := do
  let found := findBlocks document kind filename
  let outputs ← collect schedule
    (found.map fun found => preprocessor.processBlock found.block)
  return found.zip outputs

/-- The map of the final document. -/
def finalMap
    (map markupMap : Option SourceMap)
    (filename : Path) :
    Except ComponentError (Option SourceMap) :=
  match map, markupMap with
  | some later, some earlier =>
      match composeMaps later earlier filename (projectRootOf filename) with
      | .ok composed => .ok (some composed)
      | .error error => .error (.ofSourceMapError error)
  | map, _ => .ok map

/-- Preprocesses a component. -/
def preprocess
    (preprocessor : Preprocessor)
    (schedule : Schedule)
    (content : Text)
    (filename : Path) :
    Outcome Output := do
  let document ← Outcome.ofExcept (preprocessor.applyHook content filename)
  let markup ← preprocessor.processMarkup document filename
  let scripts ← preprocessor.processKind schedule markup.code filename .script
  let styles ← preprocessor.processKind schedule markup.code filename .style
  let processed := scripts ++ styles
  let (code, map) ← Outcome.ofExcept <|
    splice markup.code filename (projectRootOf filename)
      (processed.map fun (found, output) => output.replacement found)
      preprocessor.options.sourceMap
  let map ← Outcome.ofExcept (finalMap map markup.map filename)
  let dependencies :=
    markup.dependencies ++ processed.flatMap fun (_, output) => output.dependencies
  return {
    code
    dependencies := distinctPaths dependencies
    map
    invocations :=
      markup.invocations ++
        byTurn (scripts.flatMap fun (_, output) => output.invocations) ++
        byTurn (styles.flatMap fun (_, output) => output.invocations) }

end Preprocessor
end ComponentPipeline
