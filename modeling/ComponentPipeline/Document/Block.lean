import ComponentPipeline.Block.Scan
import ComponentPipeline.Chain.Run
import ComponentPipeline.Content.Prepared
import ComponentPipeline.Document.Splice
import ComponentPipeline.Language
import ComponentPipeline.Registry

/-!
# Processing one block

The language of a block is resolved and its chain is built first, so a block
in a language that is off fails whatever it contains.  The content is then
taken from the file that `src` names, or from the document; a blank content
without `src` stays as it is.  The prepared content runs through the chain.
-/

namespace ComponentPipeline

/-- Everything that processing a component needs to know. -/
structure Preprocessor where
  /-- The options of the run. -/
  options : Options
  /-- The aliases of languages. -/
  aliases : LanguageAliases
  /-- The transformers. -/
  registry : Registry
  /-- The files that blocks refer to. -/
  files : FileAccess

/-- A preprocessor with a registry. -/
def Preprocessor.ofRegistry
    (options : Options)
    (registry : Registry)
    (files : FileAccess) :
    Preprocessor :=
  ⟨options, .ofPairs options.aliases, registry, files⟩

/-- The directory of a component, which source names are relative to. -/
def projectRootOf (filename : Path) : Path :=
  (Path.parent? filename).getD []

/-- The content of a block. -/
structure Loaded where
  /-- The content. -/
  content : Text
  /-- The file that it comes from. -/
  filename : Path
  /-- That file, unless it is the component. -/
  dependencies : List Path
  /-- Where the content starts, if it stands in the document. -/
  inlineStart : Option Location

/-- A processed block. -/
structure BlockOutput where
  /-- The processed content. -/
  code : Text
  /-- Leads back to the content. -/
  map : Option SourceMap
  /-- The files that the content was built from. -/
  dependencies : List Path
  /-- Where the content started, if it stood in the document. -/
  inlineStart : Option Location
  /-- The invocations of transformers. -/
  invocations : List Invocation

/-- The replacement that a processed block makes. -/
def BlockOutput.replacement (output : BlockOutput) (found : FoundBlock) : Replacement where
  span := found.block.span
  opening := found.opening
  code := output.code
  closing := found.closing
  map := output.map
  inlineStart := output.inlineStart

/-- Leads from the output of a chain back to the content before it was
prepared. -/
def blockMap
    (map : Option SourceMap)
    (prepared : Prepared)
    (content : Text)
    (filename projectRoot : Path) :
    Except SourceMapError SourceMap :=
  match map, prepared.isShifted with
  | some map, true => map.extend (prepared.sourceMap filename content projectRoot)
  | some map, false => .ok map
  | none, true => .ok (prepared.sourceMap filename content projectRoot)
  | none, false => .ok (.ofLines projectRoot filename content)

namespace Preprocessor

/-- The directory that the files of a component are taken from. -/
def sourceDirectory (preprocessor : Preprocessor) (filename : Path) : Path :=
  let root := projectRootOf filename
  if Path.isAbsolute root then root
  else
    match preprocessor.files.workingDirectory with
    | .ok directory => Path.join directory root
    | .error _ => root

/-- The normalized path of a file that a component refers to. -/
def sourcePath (preprocessor : Preprocessor) (filename source : Path) : Path :=
  Path.normalize (Path.join (preprocessor.sourceDirectory filename) source)

/-- The content of a block; none for a blank content without `src`. -/
def load
    (preprocessor : Preprocessor)
    (block : Block) :
    Except ComponentError (Option Loaded) :=
  match block.source? with
  | some source =>
      let path := preprocessor.sourcePath block.filename source
      match preprocessor.files.read path with
      | .ok content => .ok (some ⟨content, path, [path], none⟩)
      | .error cause => .error (.unresolvableReference source block.filename cause)
  | none =>
      if Text.isBlankText block.content then .ok none
      else .ok (some ⟨block.content, block.filename, [], some block.contentStart⟩)

/-- The output for a loaded content that has run through a chain. -/
def finishBlock
    (preprocessor : Preprocessor)
    (projectRoot : Path)
    (loaded : Loaded)
    (prepared : Prepared)
    (output : ChainOutput) :
    Except ComponentError BlockOutput :=
  let finished (map : Option SourceMap) : BlockOutput :=
    ⟨output.code, map, loaded.dependencies ++ output.dependencies,
      loaded.inlineStart, output.invocations⟩
  if preprocessor.options.sourceMap then
    match blockMap output.map prepared loaded.content loaded.filename projectRoot with
    | .ok map => .ok (finished (some map))
    | .error error => .error (.ofSourceMapError error)
  else
    .ok (finished none)

/-- Runs a loaded content through the chain of its language. -/
def processLoaded
    (preprocessor : Preprocessor)
    (block : Block)
    (chain : Chain)
    (loaded : Loaded) :
    Job (Except ComponentError BlockOutput) :=
  let projectRoot := projectRootOf block.filename
  let options := preprocessor.options.preparation chain.language
  let prepared := Prepared.ofMembers loaded.content options
  let input : ChainInput :=
    ⟨loaded.filename, block.attributes, preprocessor.options.sourceMap, projectRoot⟩
  (chain.run input prepared.code).map fun output =>
    output.bind (preprocessor.finishBlock projectRoot loaded prepared)

/-- The canonical language of a block. -/
def languageOf (preprocessor : Preprocessor) (block : Block) : Text :=
  preprocessor.aliases.resolve block.attributes block.kind.baseLanguage

/-- Processes a block. -/
def processBlock
    (preprocessor : Preprocessor)
    (block : Block) :
    Job (Except ComponentError BlockOutput) :=
  let language := preprocessor.languageOf block
  match preprocessor.registry.chain language block.kind block.filename with
  | .error error => .now (.error error)
  | .ok chain =>
      match preprocessor.load block with
      | .error error => .now (.error error)
      | .ok none => .now (.ok ⟨block.content, none, [], none, []⟩)
      | .ok (some loaded) => preprocessor.processLoaded block chain loaded

end Preprocessor
end ComponentPipeline
