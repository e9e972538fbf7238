import ComponentPipeline.Transformer.Basic

/-!
# Chains of transformers

A block runs through a chain of stages, each a transformer with the options
that it was configured with.
-/

namespace ComponentPipeline

/-- A transformer with its options in a chain. -/
structure Stage where
  /-- Key of the stage: its language, or what it is for. -/
  name : Text
  /-- The transformer. -/
  transformer : Transformer
  /-- The options that it runs with. -/
  options : Table Json

/-- The stages that a block of one language runs through. -/
structure Chain where
  /-- Canonical language of the block. -/
  language : Text
  /-- The stages, in order. -/
  stages : List Stage

/-- The keys of the stages of a chain. -/
def Chain.names (chain : Chain) : List Text :=
  chain.stages.map Stage.name

end ComponentPipeline
