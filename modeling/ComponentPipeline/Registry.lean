import ComponentPipeline.Chain.Basic
import ComponentPipeline.Options.Basic

/-!
# Transformers of a run

The registry knows a default transformer for the three base languages, for
`postcss` and for `globalRule`, and those registered besides.  The options of
a run turn languages off, replace transformers and give them options.

A block runs through a chain of stages.  The first stage is the transformer of
its language.  A style goes on to `postcss`, if that is set and not off, and
to `globalRule`, unless that is off.
-/

namespace ComponentPipeline

/-- The transformers of a run. -/
structure Registry where
  /-- Default transformers by language. -/
  defaults : Table Transformer
  /-- Settings by language. -/
  settings : Table Setting

/-- What the registry has under a language. -/
inductive Lookup
  | disabled
  | missing
  | found (stage : Stage)

namespace Registry

/-- The transformers that are there without being registered. -/
def builtIn (compile : StyleCompiler) : Table Transformer :=
  [("html", .identity), ("javascript", .identity), ("css", .identity),
   (postProcessorKey, .postProcessor compile), (globalRuleKey, .globalRule Selector.globalize)]

/-- The registry of a run with the given options. -/
def ofOptions (compile : StyleCompiler) (options : Options) : Registry :=
  ⟨builtIn compile, options.settings⟩

/-- A registry with one more default transformer. -/
def withDefault
    (registry : Registry)
    (language : Text)
    (transformer : Transformer) :
    Registry :=
  { registry with defaults := Table.put language transformer registry.defaults }

/-- The stage of the default transformer of a language. -/
def defaultStage
    (registry : Registry)
    (language : Text)
    (options : Table Json) :
    Lookup :=
  match Table.get? language registry.defaults with
  | some transformer => .found ⟨language, transformer, options⟩
  | none => .missing

/-- What the registry has under a language. -/
def lookup (registry : Registry) (language : Text) : Lookup :=
  match Table.get? language registry.settings with
  | some .disabled => .disabled
  | some (.custom transformer) => .found ⟨language, transformer, []⟩
  | some (.options options) => registry.defaultStage language options
  | some .enabled => registry.defaultStage language []
  | none => registry.defaultStage language []

/-- The stage under a key, if there is one. -/
def stage? (registry : Registry) (key : Text) : Option Stage :=
  match registry.lookup key with
  | .found stage => some stage
  | _ => none

/-- Whether `postcss` is set and not off. -/
def postProcessorEnabled (registry : Registry) : Bool :=
  match Table.get? postProcessorKey registry.settings with
  | some setting => !setting.isDisabled
  | none => false

/-- The stages after the first one. -/
def trailingStages (registry : Registry) : BlockKind → List Stage
  | .style =>
      (if registry.postProcessorEnabled then (registry.stage? postProcessorKey).toList else []) ++
        (registry.stage? globalRuleKey).toList
  | _ => []

/-- The chain for a block of a language and kind. -/
def chain
    (registry : Registry)
    (language : Text)
    (kind : BlockKind)
    (filename : Path) :
    Except ComponentError Chain :=
  match registry.lookup language with
  | .disabled => .error (.languageDisabled language filename)
  | .missing => .error (.noTransformer language filename)
  | .found stage => .ok ⟨language, stage :: registry.trailingStages kind⟩

end Registry
end ComponentPipeline
