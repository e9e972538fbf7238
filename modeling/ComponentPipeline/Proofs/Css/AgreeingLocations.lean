import ComponentPipeline.Proofs.Css.LinePositions
import ComponentPipeline.Proofs.Css.PrintedMap
import ComponentPipeline.Proofs.Text.Slices

/-!
# One location, computed in different ways

The location of an offset at which characters meet is looked up in the index of
lines, read off the characters before it, or reached by a printer to which the text
before it is given in pieces.  All of these lead to the same line and column, those
that are counted in the text before the offset.  A location behind an offset is the
location in the rest of the text, put in place behind the location of the offset.
-/

namespace ComponentPipeline

/-! ## Locations are no larger than texts -/

/-- A character has no more UTF-16 units than bytes. -/
theorem Text.charUnits_le_utf8Size (char : Char) : charUnits char ≤ char.utf8Size := by
  unfold charUnits
  split
  · exact char.utf8Size_pos
  · rename_i large
    have value : char.toNat = char.val.toNat := rfl
    have four : char.utf8Size = 4 := by
      rw [Char.utf8Size_eq_four_iff, UInt32.lt_iff_toNat_lt, ← value]
      exact Nat.lt_of_succ_le (Nat.le_of_not_lt large)
    omega

theorem Location.line_add_column_step_le (location : Location) (char : Char) :
    (location.step char).line + (location.step char).column ≤
      location.line + location.column + char.utf8Size := by
  have positive := char.utf8Size_pos
  have units := Text.charUnits_le_utf8Size char
  unfold step
  split <;> dsimp only <;> omega

/-- Reading a text leads on by no more lines and columns than the text has bytes. -/
theorem Location.line_add_column_advance_le (location : Location) (text : Text) :
    (location.advance text).line + (location.advance text).column ≤
      location.line + location.column + Text.size text := by
  induction text generalizing location with
  | nil => exact Nat.le_refl _
  | cons char rest ih =>
      have first := location.line_add_column_step_le char
      have further := ih (location.step char)
      rw [advance_cons, Text.size_cons]
      omega

/-! ## Reading a text up to an offset -/

namespace Location

/-- The location of an offset, read off the text that is sliced up to there; an offset
past the end counts as the end. -/
def ofOffset? (text : Text) (offset : Nat) : Option Location :=
  (Text.slice? 0 (min offset (Text.size text)) text).map origin.advance

/-- An offset has a location where the text may be sliced. -/
theorem ofOffset?_eq_ite (text : Text) (offset : Nat) :
    ofOffset? text offset =
      if text.IsBoundary (min offset (Text.size text)) then some (ofOffset text offset)
      else none := by
  rw [ofOffset?, Text.slice?_zero, Text.takeBytes_min_size]
  split <;> rfl

theorem ofOffset?_of_isBoundary
    {text : Text}
    {offset : Nat}
    (boundary : text.IsBoundary offset) :
    ofOffset? text offset = some (ofOffset text offset) := by
  obtain ⟨before, after, rfl, rfl⟩ := boundary
  have inside : Text.size before ≤ Text.size (before ++ after) := by simp
  rw [ofOffset?_eq_ite, Nat.min_eq_left inside, if_pos (Text.isBoundary_size before after)]

/-- An offset behind another text is located in its own text, and put in place behind the
end of the other one. -/
theorem ofOffset?_append_add (added document : Text) (offset : Nat) :
    ofOffset? (added ++ document) (Text.size added + offset) =
      (ofOffset? document offset).map (endOf added).offsetBy := by
  have capped : min (Text.size added + offset) (Text.size (added ++ document)) =
      Text.size added + min offset (Text.size document) := by
    rw [Text.size_append]
    omega
  rw [ofOffset?_eq_ite, ofOffset?_eq_ite, capped, ofOffset_append_add]
  simp only [Text.isBoundary_add_append]
  split <;> rfl

end Location

namespace Css

/-! ## Partition points -/

/-- Every one of so many first entries of a table is at most the offset, and no later entry
is. -/
structure IsPartitionPoint (starts : List Nat) (offset point : Nat) : Prop where
  /-- The table has so many entries. -/
  inRange : point ≤ starts.length
  /-- The entries before the point are at most the offset. -/
  before : ∀ start ∈ starts.take point, start ≤ offset
  /-- The entries behind the point are not. -/
  behind : ∀ start ∈ starts.drop point, offset < start

variable {starts : List Nat} {text : Text} {offset point : Nat}

/-- A table has no other partition point than the number of entries that come before the
first one that is too large. -/
theorem IsPartitionPoint.eq_length_takeWhile
    (isPoint : IsPartitionPoint starts offset point) :
    point = (starts.takeWhile fun start => start ≤ offset).length := by
  have own : ∀ start ∈ starts.take point, decide (start ≤ offset) = true := fun start member =>
    decide_eq_true (isPoint.before start member)
  have further : (starts.drop point).takeWhile (fun start => decide (start ≤ offset)) = [] := by
    cases later : starts.drop point with
    | nil => rfl
    | cons start rest =>
        have tooLarge := isPoint.behind start (later ▸ List.mem_cons_self)
        exact List.takeWhile_cons_of_neg (by simpa using tooLarge)
  have counted : (starts.takeWhile fun start => start ≤ offset) = starts.take point := by
    conv_lhs => rw [← List.take_append_drop point starts]
    rw [List.takeWhile_append_of_pos own, further, List.append_nil]
  rw [counted, List.length_take_of_le isPoint.inRange]

/-- An increasing table has a partition point. -/
theorem isPartitionPoint_length_takeWhile
    (increasing : starts.Pairwise (· < ·))
    (offset : Nat) :
    IsPartitionPoint starts offset (starts.takeWhile fun start => start ≤ offset).length := by
  induction starts with
  | nil => exact ⟨Nat.le_refl _, nofun, nofun⟩
  | cons first rest ih =>
      obtain ⟨later, increasing⟩ := List.pairwise_cons.mp increasing
      by_cases small : first ≤ offset
      · have further := ih increasing
        rw [List.takeWhile_cons_of_pos (by simpa using small), List.length_cons]
        exact ⟨Nat.succ_le_succ further.inRange, List.forall_mem_cons.mpr ⟨small, further.before⟩,
          further.behind⟩
      · have large : offset < first := Nat.lt_of_not_le small
        rw [List.takeWhile_cons_of_neg (by simpa using large)]
        exact ⟨Nat.zero_le _, nofun, List.forall_mem_cons.mpr
          ⟨large, fun start member => Nat.lt_trans large (later start member)⟩⟩

/-! ## The index of lines -/

theorem lt_of_mem_laterLineStarts
    {start : Nat}
    (listed : start ∈ laterLineStarts offset text) :
    offset < start := by
  obtain ⟨before, after, -, rfl⟩ := exists_of_mem_laterLineStarts listed
  omega

theorem pairwise_laterLineStarts (offset : Nat) (text : Text) :
    (laterLineStarts offset text).Pairwise (· < ·) := by
  induction text generalizing offset with
  | nil => exact .nil
  | cons char rest ih =>
      rw [laterLineStarts]
      split
      · exact List.pairwise_cons.mpr ⟨fun _ => lt_of_mem_laterLineStarts, ih _⟩
      · exact ih _

/-- Lines start one behind the other. -/
theorem pairwise_lineStarts (text : Text) : (lineStarts text).Pairwise (· < ·) :=
  List.pairwise_cons.mpr ⟨fun _ => lt_of_mem_laterLineStarts, pairwise_laterLineStarts 0 text⟩

/-- Lines start where characters meet. -/
theorem isBoundary_of_mem_lineStarts
    {start : Nat}
    (listed : start ∈ lineStarts text) :
    text.IsBoundary start := by
  rcases List.mem_cons.mp listed with rfl | later
  · exact ⟨[], text, rfl, rfl⟩
  · obtain ⟨before, after, parts, same⟩ := exists_of_mem_laterLineStarts later
    refine ⟨before ++ ['\n'], after, by rw [parts, List.append_assoc]; rfl, ?_⟩
    rw [same, Text.size_append, Nat.zero_add]
    rfl

/-- The position of an offset, from a partition point of the line starts; none if no line
is listed there, or if the text cannot be sliced from the start of the line to the
offset. -/
def positionFrom? (starts : List Nat) (text : Text) (offset point : Nat) : Option Position :=
  (starts[point - 1]?).bind fun lineStart =>
    (Text.slice? lineStart offset text).map fun before =>
      ⟨⟨point - 1, Text.units before⟩, offset⟩

/-- Every partition point of the line starts gives the position of the offset. -/
theorem positionFrom?_eq
    (boundary : text.IsBoundary offset)
    (isPoint : IsPartitionPoint (lineStarts text) offset point) :
    positionFrom? (lineStarts text) text offset point = some (positionOf text offset) := by
  have counted := isPoint.eq_length_takeWhile
  -- the first line starts at 0, so some line starts at or before the offset
  have positive : 0 < point := by
    rw [counted, lineStarts, List.takeWhile_cons_of_pos (by simp)]
    exact Nat.succ_pos _
  have inRange : point - 1 < (lineStarts text).length := by
    have bound := isPoint.inRange
    omega
  have starts : text.IsBoundary (lineStarts text)[point - 1] :=
    isBoundary_of_mem_lineStarts (List.getElem_mem inRange)
  have inOrder : (lineStarts text)[point - 1] ≤ offset :=
    isPoint.before _ (List.mem_take_iff_getElem.mpr ⟨point - 1, by omega, rfl⟩)
  have sliced : Text.slice? (lineStarts text)[point - 1] offset text =
      some (Text.slice (lineStarts text)[point - 1] offset text) :=
    if_pos ⟨inOrder, starts, boundary⟩
  rw [positionFrom?, List.getElem?_eq_getElem inRange, Option.bind_some, sliced, Option.map_some,
    positionOf, positionIn, ← counted, List.getD_eq_getElem?_getD,
    List.getElem?_eq_getElem inRange, Option.getD_some]

/-! ## The printer -/

/-- However a text is cut into pieces, the cursor moves past it. -/
theorem foldl_moveCursor (cursor : Location) (chunks : List Text) :
    chunks.foldl moveCursor cursor = cursor.advance chunks.flatten := by
  induction chunks generalizing cursor with
  | nil => rfl
  | cons chunk rest ih =>
      rw [List.foldl_cons, moveCursor_eq_advance, ih, List.flatten_cons, Location.advance_append]

/-! ## Agreement -/

/-- What the ways to compute the location of an offset come to. -/
structure LocatesAlike (text : Text) (offset : Nat) : Prop where
  /-- The text can be sliced up to the offset. -/
  before : Text.slice? 0 offset text = some (Text.takeBytes offset text)
  /-- It can be sliced from the offset on. -/
  behind : Text.slice? offset (Text.size text) text = some (Text.dropBytes offset text)
  /-- The location can be read off the characters before the offset. -/
  read : Location.ofOffset? text offset = some (Location.ofOffset text offset)
  /-- It counts their line feeds, and the UTF-16 units behind the last one. -/
  counted : Location.ofOffset text offset = Location.endOf (Text.takeBytes offset text)
  /-- The index of lines has a partition point for the offset. -/
  hasPoint : ∃ point, IsPartitionPoint (lineStarts text) offset point
  /-- Whichever partition point is found, the location is looked up there. -/
  lookedUp : ∀ point, IsPartitionPoint (lineStarts text) offset point →
    positionFrom? (lineStarts text) text offset point =
      some ⟨Location.ofOffset text offset, offset⟩
  /-- The reader of stylesheets gives this location to the offset. -/
  position : positionOf text offset = ⟨Location.ofOffset text offset, offset⟩
  /-- A printer stands there after the text before the offset, whatever the pieces. -/
  printed : ∀ chunks : List Text, chunks.flatten = Text.takeBytes offset text →
    chunks.foldl moveCursor Location.origin = Location.ofOffset text offset
  /-- A further offset is located in the rest of the text, and put in place. -/
  further : ∀ further, Location.ofOffset text (offset + further) =
    (Location.ofOffset text offset).offsetBy
      (Location.ofOffset (Text.dropBytes offset text) further)
  /-- It has a location in the text if it has one in the rest. -/
  furtherRead : ∀ further, Location.ofOffset? text (offset + further) =
    (Location.ofOffset? (Text.dropBytes offset text) further).map
      (Location.ofOffset text offset).offsetBy
  /-- Line and column are together no more than the offset. -/
  fits : (Location.ofOffset text offset).line + (Location.ofOffset text offset).column ≤ offset

/-- The location of an offset at which characters meet does not depend on how it is
computed. -/
theorem locatesAlike (boundary : text.IsBoundary offset) : LocatesAlike text offset := by
  have position := positionOf_eq text offset
  have read := Location.ofOffset?_of_isBoundary boundary
  have meets := boundary
  obtain ⟨before, rest, rfl, rfl⟩ := boundary
  have location : Location.ofOffset (before ++ rest) (Text.size before) =
      Location.endOf before := by
    rw [Location.ofOffset_append, Location.advance_origin]
  constructor
  case before => rw [Text.slice?_zero, if_pos meets]
  case behind => rw [Text.slice?_end, Text.dropBytes_size_append]
  case read => exact read
  case counted => rw [Text.takeBytes_size_append, location]
  case hasPoint => exact ⟨_, isPartitionPoint_length_takeWhile (pairwise_lineStarts _) _⟩
  case lookedUp =>
    intro point isPoint
    rw [positionFrom?_eq meets isPoint, position]
  case position => exact position
  case printed =>
    intro chunks parts
    rw [foldl_moveCursor, parts, Location.ofOffset]
  case further =>
    intro further
    rw [Location.ofOffset_append_add, Text.dropBytes_size_append, location]
  case furtherRead =>
    intro further
    rw [Location.ofOffset?_append_add, Text.dropBytes_size_append, location]
  case fits =>
    have bound := Location.origin.line_add_column_advance_le before
    rw [Location.ofOffset_append]
    simpa [Location.origin] using bound

/-- An offset behind a line feed and a character of two UTF-16 units. -/
theorem locatesAlike_wideSample :
    Text.IsBoundary ['a', '\n', '😀', 'b'] 6 ∧
      LocatesAlike ['a', '\n', '😀', 'b'] 6 ∧
      Location.ofOffset ['a', '\n', '😀', 'b'] 6 = ⟨1, 2⟩ :=
  ⟨by decide, locatesAlike (by decide), by decide⟩

end Css
end ComponentPipeline
