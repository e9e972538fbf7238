import ComponentPipeline.Css.Globalization
import ComponentPipeline.Transformer.Result

/-!
# The stage that removes global markers

A content without the text `:global` passes through as it is and without a
map.  Any other content is read as a stylesheet and printed without its bare
markers, with a map if maps are asked for.
-/

namespace ComponentPipeline

/-- A style content without bare global markers. -/
def removeGlobalMarkers
    (neutralize : Text → Text)
    (context : Context)
    (content : Text) :
    Except Failure Result :=
  if Text.contains Selector.marker content then
    match Css.Stylesheet.parse content with
    | .error error => .error (.unreadable error)
    | .ok sheet =>
        match sheet.globalize neutralize with
        | .error malformed =>
            .error (.known
              (.malformedSelector malformed.selector context.filename malformed.reason))
        | .ok sheet =>
            let map :=
              if context.sourceMap then
                some (sheet.sourceMap context.filename content context.projectRoot)
              else
                none
            .ok ⟨sheet.print, map, []⟩
  else
    .ok (.ofCode content)

end ComponentPipeline
