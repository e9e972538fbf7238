import ComponentPipeline.Document.Block
import ComponentPipeline.Proofs.Document.Collected

/-!
# The work on one block

A block is processed in one of two ways: a blank content of its own stays as
it is, any other content is prepared and runs through the chain of the block's
language.
-/

namespace ComponentPipeline

/-- A chain is for the language that it was asked for. -/
theorem Registry.language_of_chain
    {registry : Registry}
    {language : Text}
    {kind : BlockKind}
    {filename : Path}
    {chain : Chain}
    (built : registry.chain language kind filename = .ok chain) :
    chain.language = language := by
  unfold Registry.chain at built
  split at built
  · cases built
  · cases built
  · cases built
    rfl

namespace Preprocessor

/-- The prepared form of a content that stands for a block's. -/
def preparedFor
    (preprocessor : Preprocessor)
    (block : Block)
    (content : Text) :
    Prepared :=
  Prepared.ofMembers content
    (preprocessor.options.preparation (preprocessor.languageOf block))

/-- What the chain of a block is told when the content comes from a file. -/
def chainInputFor
    (preprocessor : Preprocessor)
    (block : Block)
    (filename : Path) :
    ChainInput :=
  ⟨filename, block.attributes, preprocessor.options.sourceMap,
    projectRootOf block.filename⟩

/-- The chain of a block. -/
def chainFor
    (preprocessor : Preprocessor)
    (block : Block) :
    Except ComponentError Chain :=
  preprocessor.registry.chain (preprocessor.languageOf block) block.kind block.filename

/-- Nothing is loaded of a blank content of the block's own. -/
theorem blank_of_load
    {preprocessor : Preprocessor}
    {block : Block}
    (nothing : preprocessor.load block = .ok none) :
    block.source? = none ∧ Text.isBlankText block.content = true := by
  simp only [load] at nothing
  split at nothing
  · split at nothing <;> cases nothing
  · rename_i own
    split at nothing
    · rename_i isBlank
      exact ⟨own, isBlank⟩
    · cases nothing

/-- Where a content that is loaded comes from. -/
inductive Loads (preprocessor : Preprocessor) (block : Block) : Loaded → Prop
  /-- It is the block's own. -/
  | own
      (own : block.source? = none)
      (notBlank : Text.isBlankText block.content = false) :
      Loads preprocessor block
        ⟨block.content, block.filename, [], some block.contentStart⟩
  /-- It is that of a file. -/
  | file {source content}
      (reference : block.source? = some source)
      (text :
        preprocessor.files.read (preprocessor.sourcePath block.filename source) =
          .ok content) :
      Loads preprocessor block
        ⟨content, preprocessor.sourcePath block.filename source,
          [preprocessor.sourcePath block.filename source], none⟩

theorem loads_of_load
    {preprocessor : Preprocessor}
    {block : Block}
    {loaded : Loaded}
    (taken : preprocessor.load block = .ok (some loaded)) :
    preprocessor.Loads block loaded := by
  simp only [load] at taken
  split at taken
  · rename_i source reference
    split at taken
    · rename_i content text
      cases taken
      exact .file reference text
    · cases taken
  · rename_i own
    split at taken
    · cases taken
    · rename_i notBlank
      cases taken
      exact .own own (Bool.eq_false_iff.mpr notBlank)

/-- What a block's processing consists of when it succeeds. -/
inductive Processes (preprocessor : Preprocessor) (block : Block) : BlockOutput → Prop
  /-- A blank content of the block's own stays. -/
  | blank {chain}
      (built : preprocessor.chainFor block = .ok chain)
      (nothing : preprocessor.load block = .ok none) :
      Processes preprocessor block ⟨block.content, none, [], none, []⟩
  /-- A content runs through the chain. -/
  | ran {chain loaded ran output}
      (built : preprocessor.chainFor block = .ok chain)
      (taken : preprocessor.load block = .ok (some loaded))
      (completed :
        (chain.run (preprocessor.chainInputFor block loaded.filename)
          (preprocessor.preparedFor block loaded.content).code).value? = some (.ok ran))
      (finished :
        preprocessor.finishBlock (projectRootOf block.filename) loaded
          (preprocessor.preparedFor block loaded.content) ran = .ok output) :
      Processes preprocessor block output

theorem processes_of_processBlock
    {preprocessor : Preprocessor}
    {block : Block}
    {output : BlockOutput}
    (worked : (preprocessor.processBlock block).value? = some (.ok output)) :
    preprocessor.Processes block output := by
  simp only [processBlock] at worked
  split at worked
  · cases worked
  · rename_i chain built
    split at worked
    · cases worked
    · rename_i nothing
      cases worked
      exact .blank built nothing
    · rename_i loaded taken
      simp only [processLoaded, Job.value?_map, Registry.language_of_chain built]
        at worked
      obtain ⟨ran | ran, completed, finished⟩ := Option.map_eq_some_iff.mp worked
      · cases finished
      · exact .ran built taken completed finished

/-- The code that processing gives is the chain's, and the files are the one that
the content comes from and then those of the chain. -/
theorem fields_of_finishBlock
    {preprocessor : Preprocessor}
    {projectRoot : Path}
    {loaded : Loaded}
    {prepared : Prepared}
    {ran : ChainOutput}
    {output : BlockOutput}
    (finished : preprocessor.finishBlock projectRoot loaded prepared ran = .ok output) :
    output.code = ran.code ∧
      output.dependencies = loaded.dependencies ++ ran.dependencies := by
  simp only [finishBlock] at finished
  split at finished
  · split at finished
    · cases finished
      exact ⟨rfl, rfl⟩
    · cases finished
  · cases finished
    exact ⟨rfl, rfl⟩

/-- The work on a block step by step. -/
theorem ofJob_processBlock
    {caught : Option Text → Option ComponentError}
    (preprocessor : Preprocessor)
    (block : Block) :
    Outcome.ofJob caught (preprocessor.processBlock block) =
      Outcome.ofExcept (preprocessor.chainFor block) >>= fun chain =>
        Outcome.ofExcept (preprocessor.load block) >>= fun loaded =>
          match loaded with
          | none => .finished ⟨block.content, none, [], none, []⟩
          | some loaded =>
              Outcome.ofJob caught (preprocessor.processLoaded block chain loaded) := by
  simp only [processBlock, chainFor]
  cases preprocessor.registry.chain (preprocessor.languageOf block) block.kind
      block.filename with
  | error error => rfl
  | ok chain =>
      simp only
      cases preprocessor.load block with
      | error error => rfl
      | ok loaded => cases loaded <;> rfl

/-- The work on a loaded content step by step. -/
theorem ofJob_processLoaded
    {caught : Option Text → Option ComponentError}
    {preprocessor : Preprocessor}
    {block : Block}
    {chain : Chain}
    (built : preprocessor.chainFor block = .ok chain)
    (loaded : Loaded) :
    Outcome.ofJob caught (preprocessor.processLoaded block chain loaded) =
      Outcome.ofJob caught
          (chain.run (preprocessor.chainInputFor block loaded.filename)
            (preprocessor.preparedFor block loaded.content).code) >>=
        fun ran =>
          Outcome.ofExcept
            (preprocessor.finishBlock (projectRootOf block.filename) loaded
              (preprocessor.preparedFor block loaded.content) ran) := by
  simp only [processLoaded, Outcome.ofJob_map_bind, Registry.language_of_chain built]
  rfl

end Preprocessor
end ComponentPipeline
