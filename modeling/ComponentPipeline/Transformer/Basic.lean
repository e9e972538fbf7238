import ComponentPipeline.Transformer.GlobalRule
import ComponentPipeline.Transformer.PostProcessor
import ComponentPipeline.Transformer.Job

/-!
# Transformers

A transformer is one of the built-in ones or one that was supplied under a
name.  The built-in ones answer at once.
-/

namespace ComponentPipeline

/-- Key and name of the post-processor of styles. -/
def postProcessorKey : Text := "postcss"

/-- Key and name of the stage that removes global markers. -/
def globalRuleKey : Text := "globalRule"

/-- A transformer. -/
inductive Transformer
  /-- Passes its content through. -/
  | identity
  /-- Compiles stylesheets. -/
  | postProcessor (compile : StyleCompiler)
  /-- Removes global markers. -/
  | globalRule (neutralize : Text → Text)
  /-- A transformer from outside. -/
  | supplied (name : Text) (transform : Context → Text → Job (Except Failure Result))

namespace Transformer

/-- The name of a transformer in messages. -/
def name : Transformer → Text
  | .identity => "identity"
  | .postProcessor _ => postProcessorKey
  | .globalRule _ => globalRuleKey
  | .supplied name _ => name

/-- The work of a transformer on a content. -/
def run : Transformer → Context → Text → Job (Except Failure Result)
  | .identity, _, content => .now (.ok (.ofCode content))
  | .postProcessor compile, context, content => .now (postprocess compile context content)
  | .globalRule neutralize, context, content =>
      .now (removeGlobalMarkers neutralize context content)
  | .supplied _ transform, context, content => transform context content

end Transformer
end ComponentPipeline
