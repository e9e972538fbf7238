import ComponentPipeline.Transformer.Basic

/-!
# Options of a preprocessing run

The transformer of a language is set in two places: under `transformers`, or
under a key of its own at the top level, where only booleans and objects count
as settings.  An entry under `transformers` wins.  Both tables are kept in the
order of their keys.
-/

namespace ComponentPipeline

/-- How the transformer of a language is set. -/
inductive Setting
  /-- Blocks in the language fail. -/
  | disabled
  /-- The default transformer runs. -/
  | enabled
  /-- The default transformer runs with these options. -/
  | options (members : Table Json)
  /-- Another transformer runs. -/
  | custom (transformer : Transformer)

namespace Setting

/-- Whether a setting turns a language off. -/
def isDisabled : Setting → Bool
  | .disabled => true
  | _ => false

/-- The options of a setting that has them. -/
def options? : Setting → Option (Table Json)
  | .options members => some members
  | _ => none

/-- The setting that a value writes. -/
def ofJson? : Json → Option Setting
  | .bool false => some .disabled
  | .bool true => some .enabled
  | .object members => some (.options members)
  | _ => none

end Setting

/-- A change of a whole document before its blocks are looked for, or a
message. -/
abbrev DocumentHook := Text → Path → Except Text Text

/-- Options of a run. -/
structure Options where
  /-- Whether the common indentation of every content is removed. -/
  stripIndent : Bool
  /-- Data put before every content. -/
  prependData : Option Text
  /-- Aliases of languages, besides the built-in ones. -/
  aliases : List (Text × Text)
  /-- Settings of transformers. -/
  transformers : Table Setting
  /-- Whether a source map is asked for. -/
  sourceMap : Bool
  /-- The hook on the whole document. -/
  onBefore : Option DocumentHook
  /-- Values of the other keys at the top level. -/
  shorthand : Table Json

namespace Options

/-- Options that ask for nothing. -/
def empty : Options := ⟨false, none, [], [], false, none, []⟩

/-! ## One more option -/

/-- Options with the given answer on common indentation. -/
def withStripIndent (options : Options) (stripIndent : Bool) : Options :=
  { options with stripIndent }

/-- Options with data put before every content. -/
def withPrependData (options : Options) (data : Text) : Options :=
  { options with prependData := some data }

/-- Options with the given answer on source maps. -/
def withSourceMap (options : Options) (sourceMap : Bool) : Options :=
  { options with sourceMap }

/-- Options with a setting for a language. -/
def withTransformer (options : Options) (language : Text) (setting : Setting) : Options :=
  { options with transformers := Table.putSorted language setting options.transformers }

/-- Options with one more alias. -/
def withAlias (options : Options) (token language : Text) : Options :=
  { options with aliases := options.aliases ++ [(token, language)] }

/-- Options with a hook on the whole document. -/
def withOnBefore (options : Options) (hook : DocumentHook) : Options :=
  { options with onBefore := some hook }

/-! ## Settings of transformers -/

/-- The settings written under keys at the top level. -/
def shorthandSettings (options : Options) : Table Setting :=
  options.shorthand.filterMap fun (language, value) =>
    (Setting.ofJson? value).map fun setting => (language, setting)

/-- All settings in one table. -/
def settings (options : Options) : Table Setting :=
  Table.putAllSorted options.transformers options.shorthandSettings

/-- The setting for one language. -/
def setting? (options : Options) (language : Text) : Option Setting :=
  (Table.get? language options.transformers).or <|
    (Table.get? language options.shorthand).bind Setting.ofJson?

/-! ## Preparation of contents -/

/-- The keys of a language's options that concern preparation. -/
def preparationKeys : List Text := ["stripIndent", "prependData"]

/-- What all languages ask for. -/
def generalPreparation (options : Options) : Table Json :=
  ("stripIndent", .bool options.stripIndent) ::
    (options.prependData.map fun data => (("prependData" : Text), Json.string data)).toList

/-- Options of preparation for one language: the general ones, overridden by
the language's own. -/
def preparation (options : Options) (language : Text) : Table Json :=
  match options.setting? language with
  | some (.options own) =>
      preparationKeys.foldl
        (fun written key =>
          match Table.get? key own with
          | some value => Table.put key value written
          | none => written)
        options.generalPreparation
  | _ => options.generalPreparation

end Options
end ComponentPipeline
