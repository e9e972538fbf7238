import ComponentPipeline.Proofs.Content.Preparation
import ComponentPipeline.Proofs.Document.ChainedMaps

/-!
# The map of a block undoes preparation

The stages of a block map their output to the prepared content.  The map of the
block leads from there to the content itself: from every line of the prepared
content to where the text that is left of that line starts, and from the data
and from lines past the end to nowhere.
-/

namespace ComponentPipeline
namespace Prepared

/-- Where a line of a prepared content comes from. -/
inductive LineComesFrom (prepared : Prepared) (content : Text) (line : Nat) :
    Option Location → Prop
  /-- A line of the data comes from nowhere. -/
  | data
      (before : line < prepared.prependedLines) :
      LineComesFrom prepared content line none
  /-- So does a line past the content. -/
  | past
      (behind : prepared.prependedLines + (Text.lines content).length ≤ line) :
      LineComesFrom prepared content line none
  /-- A stripped line starts behind the indentation that is gone. -/
  | stripped {number : Nat} {removed kept : Text}
      (isLine : line = prepared.prependedLines + number)
      (whole : (Text.lines content)[number]? = some (removed ++ kept))
      (left : (Text.lines prepared.code)[line]? = some kept)
      (blank : ∀ char ∈ removed, isIndentChar char = true)
      (width : Text.units removed = prepared.indent) :
      LineComesFrom prepared content line (some ⟨number, prepared.indent⟩)
  /-- Any other line starts at its start. -/
  | unstripped {number : Nat} {kept : Text}
      (isLine : line = prepared.prependedLines + number)
      (whole : (Text.lines content)[number]? = some kept)
      (left : (Text.lines prepared.code)[line]? = some kept) :
      LineComesFrom prepared content line (some ⟨number, 0⟩)

/-- A line of a content is stripped or not, and what is left of it is a line of the
prepared content. -/
theorem lineComesFrom_of_listed
    {content line : Text}
    (options : Table Json)
    {number : Nat}
    (listed : (Text.lines content)[number]? = some line) :
    (ofMembers content options).LineComesFrom content
      ((ofMembers content options).prependedLines + number)
      (some ⟨number, removedWidth (ofMembers content options).indent line⟩) := by
  have left := getElem?_lines_code options listed
  generalize ofMembers content options = prepared at left ⊢
  have whole := listed
  rw [← List.take_append_drop (removedWidth prepared.indent line) line] at whole
  have blank : ∀ char ∈ line.take (removedWidth prepared.indent line),
      isIndentChar char = true :=
    fun _ removed => isIndentChar_of_mem_take removed
  have width := units_take_removedWidth prepared.indent line
  by_cases indented : prepared.indent ≤ indentWidth line
  · have all : removedWidth prepared.indent line = prepared.indent := if_pos indented
    rw [all] at left whole blank width ⊢
    exact .stripped rfl whole left blank width
  · have nothing : removedWidth prepared.indent line = 0 := if_neg indented
    rw [nothing] at left ⊢
    exact .unstripped rfl listed left

/-- The place that a location in a prepared content is led to is where its line
comes from. -/
theorem lineComesFrom_placeOf? (content : Text) (options : Table Json) (location : Location) :
    (ofMembers content options).LineComesFrom content location.line
      (((ofMembers content options).placeOf? content location).map Place.location) := by
  unfold placeOf?
  by_cases before : location.line < (ofMembers content options).prependedLines
  · rw [if_pos before]
    exact .data before
  · rw [if_neg before]
    cases listed : (Text.lines content)[location.line -
        (ofMembers content options).prependedLines]? with
    | none =>
        have outside := List.getElem?_eq_none_iff.mp listed
        exact .past (by omega)
    | some line =>
        have comesFrom := lineComesFrom_of_listed options listed
        rw [Nat.add_sub_cancel' (Nat.le_of_not_lt before)] at comesFrom
        exact comesFrom

end Prepared

/-- What the map of a block says instead of a mapping of its stages: at the same
generated location, that the text comes from where the line of the prepared
content comes from, or from nowhere. -/
inductive Undoes (prepared : Prepared) (content source : Text) (mapping : Mapping) :
    Location × Option Origin → Prop
  /-- A mapping without a place stays without. -/
  | unplaced
      (notPlaced : mapping.place = none) :
      Undoes prepared content source mapping (mapping.generated, none)
  /-- A place on a line that comes from nowhere is lost. -/
  | lost {place : Place}
      (placed : mapping.place = some place)
      (comesFrom : prepared.LineComesFrom content place.location.line none) :
      Undoes prepared content source mapping (mapping.generated, none)
  /-- A place on another line is led to where that comes from. -/
  | led {place : Place} {location : Location}
      (placed : mapping.place = some place)
      (comesFrom : prepared.LineComesFrom content place.location.line (some location)) :
      Undoes prepared content source mapping
        (mapping.generated, some ⟨source, location, none⟩)

/-- The map of a block whose content is shifted by its preparation says of every
mapping of its stages, in their order, where the line comes from that the mapping
leads to. -/
theorem undoes_of_blockMap
    {content : Text}
    {options : Json}
    (shifted : (Prepared.ofContent content options).isShifted = true)
    (map : SourceMap)
    (filename projectRoot : Path) :
    ∃ chained,
      blockMap (some map) (Prepared.ofContent content options) content filename projectRoot =
          .ok chained ∧
        chained.Complete ∧
        List.Forall₂
          (Undoes (Prepared.ofContent content options) content
            (SourceName.relative map.projectRoot (SourceName.relative projectRoot filename)))
          map.ordered chained.origins := by
  obtain ⟨chained, isChained, complete, origins⟩ :=
    origins_of_blockMap _ content filename projectRoot shifted map
  refine ⟨chained, isChained, complete, ?_⟩
  rw [origins, List.forall₂_map_right_iff, List.forall₂_same]
  intro mapping member
  cases options with
  | object members =>
      cases placed : mapping.place with
      | none => exact .unplaced placed
      | some place =>
          have comesFrom :=
            Prepared.lineComesFrom_placeOf? content members place.location
          rw [Option.bind_some, Prepared.ofContent]
          cases found : (Prepared.ofMembers content members).placeOf? content place.location with
          | none =>
              rw [found] at comesFrom
              exact .lost placed comesFrom
          | some first =>
              rw [found] at comesFrom
              exact .led placed comesFrom
  | _ => cases shifted

/-- A content of an indented line, an empty line and a line that is indented
further. -/
def linedSample : Text :=
  "  a \x7b\n\n\t \tb\n"

/-- Options that ask for two lines of data and for no indentation. -/
def dataAndStripSample : Json :=
  .object [("prependData", .string "$x: 1;\n$y: 2;"), ("stripIndent", .bool true)]

/-- The map of a stage with a mapping for each of the prepared lines, one past
them and one without a place. -/
def everyLineSample : SourceMap where
  projectRoot := "/app"
  sources := ["App.svelte"]
  contents := []
  names := []
  mappings := ⟨⟨0, 7⟩, none⟩ ::
    (List.range 7).map fun line => ⟨⟨0, line⟩, some ⟨0, ⟨line, 1⟩, none⟩⟩

theorem undoes_of_blockMap_everyLineSample :
    (Prepared.ofContent linedSample dataAndStripSample).isShifted = true ∧
      ∃ chained,
        blockMap (some everyLineSample) (Prepared.ofContent linedSample dataAndStripSample)
            linedSample "/app/App.svelte" "/app" = .ok chained ∧
          chained.Complete ∧
          List.Forall₂
            (Undoes (Prepared.ofContent linedSample dataAndStripSample) linedSample "App.svelte")
            everyLineSample.ordered chained.origins := by
  have shifted : (Prepared.ofContent linedSample dataAndStripSample).isShifted = true := by
    decide
  have source : SourceName.relative everyLineSample.projectRoot
      (SourceName.relative "/app" "/app/App.svelte") = "App.svelte" := by decide
  have undoes := undoes_of_blockMap shifted everyLineSample "/app/App.svelte" "/app"
  rw [source] at undoes
  exact ⟨shifted, undoes⟩

end ComponentPipeline
