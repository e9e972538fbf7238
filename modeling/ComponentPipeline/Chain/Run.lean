import ComponentPipeline.Chain.Basic
import ComponentPipeline.SourceMap.Extend

/-!
# Running a chain

The stages of a chain run one after another, each on the text that the stage
before it gave.  The map of a stage is extended by the maps of the stages
before it; a stage without a map leaves the map as it is.  The files that the
stages report are listed once each, the first spelling of a path standing for
all.

A run also records every stage's invocation, with the turn in which it ended.
-/

namespace ComponentPipeline

/-- The first spellings of paths, in order. -/
def distinctPaths (paths : List Path) : List Path :=
  paths.foldl
    (fun kept path => if kept.any (Path.same path) then kept else kept ++ [path])
    []

/-- What a chain runs on. -/
structure ChainInput where
  /-- The component, or the file that the content was taken from. -/
  filename : Path
  /-- Attributes of the block. -/
  attributes : Attributes
  /-- Whether source maps are asked for. -/
  sourceMap : Bool
  /-- Directory that source names are relative to. -/
  projectRoot : Path

/-- One invocation of a transformer. -/
structure Invocation where
  /-- The stage that was run. -/
  stage : Stage
  /-- What the transformer was told. -/
  context : Context
  /-- What it was run on. -/
  content : Text
  /-- Number of turns until it ended. -/
  turn : Nat

/-- How far a chain has come. -/
structure Progress where
  /-- The text so far. -/
  code : Text
  /-- Leads from the text so far back to the content. -/
  map : Option SourceMap
  /-- The files reported so far. -/
  dependencies : List Path
  /-- The invocations so far. -/
  invocations : List Invocation

namespace Progress

/-- The start of a run. -/
def ofContent (content : Text) : Progress := ⟨content, none, [], []⟩

/-- The map after a stage that gave a map or none. -/
def nextMap
    (progress : Progress)
    (map : Option SourceMap) :
    Except SourceMapError (Option SourceMap) :=
  match map, progress.map with
  | some later, some earlier => (later.extend earlier).map some
  | some later, none => .ok (some later)
  | none, earlier => .ok earlier

/-- The progress after a stage with its result. -/
def next
    (progress : Progress)
    (result : Result)
    (invocation : Invocation) :
    Except ComponentError Progress :=
  match progress.nextMap result.map with
  | .error error => .error (.ofSourceMapError error)
  | .ok map =>
      .ok {
        code := result.code
        map
        dependencies := progress.dependencies ++ result.dependencies
        invocations := progress.invocations ++ [invocation] }

end Progress

namespace ChainInput

/-- What a stage of a chain is told. -/
def context (input : ChainInput) (language : Text) (stage : Stage) : Context where
  language := language
  filename := input.filename
  options := stage.options
  attributes := input.attributes
  sourceMap := input.sourceMap
  projectRoot := input.projectRoot

/-- The failure of a stage as a failure of preprocessing. -/
def stageError
    (input : ChainInput)
    (language : Text)
    (index : Nat)
    (stage : Stage) :
    Failure → ComponentError :=
  Failure.report <|
    .transformerFailure language input.filename index stage.transformer.name

/-- Runs the stages of a chain from the one with the given index on. -/
def runStages
    (input : ChainInput)
    (language : Text)
    (index turn : Nat)
    (progress : Progress) :
    List Stage → Job (Except ComponentError Progress)
  | [] => .done turn (.ok progress)
  | stage :: rest =>
      let context := input.context language stage
      match stage.transformer.run context progress.code with
      | .never => .never
      | .panicked turns message => .panicked (turn + turns) message
      | .done turns (.error failure) =>
          .done (turn + turns) (.error (input.stageError language index stage failure))
      | .done turns (.ok result) =>
          let turn := turn + turns
          match progress.next result ⟨stage, context, progress.code, turn⟩ with
          | .error error => .done turn (.error error)
          | .ok progress => input.runStages language (index + 1) turn progress rest

end ChainInput

/-- What a chain gives. -/
structure ChainOutput where
  /-- The transformed text. -/
  code : Text
  /-- Leads from the transformed text back to the content, if any stage gave a
  map. -/
  map : Option SourceMap
  /-- The files that the text was built from. -/
  dependencies : List Path
  /-- The invocations of transformers. -/
  invocations : List Invocation

/-- The output of a run that has come to its end. -/
def Progress.output (progress : Progress) : ChainOutput where
  code := progress.code
  map := progress.map
  dependencies := distinctPaths progress.dependencies
  invocations := progress.invocations

/-- Runs a content through a chain. -/
def Chain.run
    (chain : Chain)
    (input : ChainInput)
    (content : Text) :
    Job (Except ComponentError ChainOutput) :=
  (input.runStages chain.language 0 0 (.ofContent content) chain.stages).map
    fun progress => progress.map Progress.output

end ComponentPipeline
