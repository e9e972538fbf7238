import ComponentPipeline.Block.Basic
import ComponentPipeline.Text.Blank

/-!
# Languages of blocks

A block declares its language by a token: the part of its `type` attribute
after the first slash, else its `lang` attribute, else the extension of its
`src` attribute.  A table of aliases gives the canonical name of a token; a
token that is not in the table is its own canonical name.
-/

namespace ComponentPipeline

/-- Canonical names of tokens. -/
abbrev LanguageAliases := Table Text

namespace LanguageAliases

/-- The aliases that every table starts with. -/
def builtIn : LanguageAliases :=
  [("pcss", "css"), ("postcss", "css"), ("sass", "scss"), ("styl", "stylus"),
   ("js", "javascript"), ("mjs", "javascript"), ("coffee", "coffeescript"),
   ("ts", "typescript"), ("htm", "html"), ("svelte", "html")]

/-- The built-in aliases and further ones; of two for one token the later one
holds. -/
def ofPairs (pairs : List (Text × Text)) : LanguageAliases :=
  Table.putAll pairs builtIn

/-- The canonical name of a token. -/
def canonical (aliases : LanguageAliases) (token : Text) : Text :=
  (Table.get? token aliases).getD token

end LanguageAliases

/-- The text of an attribute without the blanks around it, unless nothing is
left. -/
def trimmedAttribute? (attributes : Attributes) (name : Text) : Option Text :=
  ((Table.get? name attributes).bind AttributeValue.text?).bind fun value =>
    let trimmed := Text.trim value
    if trimmed.isEmpty then none else some trimmed

/-- The part of a media type after its first slash, unless it is empty. -/
def subtype? (mediaType : Text) : Option Text :=
  match Text.cutAt? ['/'] mediaType with
  | some (_, []) => none
  | some (_, subtype) => some subtype
  | none => none

/-- The extension of a file that has one, unless it is empty. -/
def sourceLanguage? (source : Path) : Option Text :=
  (Path.extension? source).filter fun extension => !extension.isEmpty

/-- The token by which attributes declare a language. -/
def declaredToken? (attributes : Attributes) : Option Text :=
  ((trimmedAttribute? attributes "type").bind subtype?).or <|
    (trimmedAttribute? attributes "lang").or <|
      (trimmedAttribute? attributes "src").bind sourceLanguage?

/-- The canonical language of a block with the given attributes. -/
def LanguageAliases.resolve
    (aliases : LanguageAliases)
    (attributes : Attributes)
    (default : Text) :
    Text :=
  aliases.canonical ((declaredToken? attributes).getD default)

end ComponentPipeline
