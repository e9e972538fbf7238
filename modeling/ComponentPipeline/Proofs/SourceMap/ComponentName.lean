import ComponentPipeline.Document.Block
import ComponentPipeline.Proofs.Text.Lines
import Mathlib.Data.List.DropRight

/-!
# The name of a component in its own source maps

Relative to its own directory, an absolute component file has the text of its
last component for a name.  A backslash in that text would be taken for a
separator.  Without one, the name stands for itself when it is taken relative
to the directory again.
-/

namespace ComponentPipeline

/-! ## Pieces of names -/

theorem Path.isVoid_iff {piece : Text} :
    isVoid piece = true ↔ piece = [] ∨ piece = ['.'] := by
  simp [isVoid]

namespace SourceName

theorem pieces_append_slash (before after : Text) :
    pieces (before ++ '/' :: after) = pieces before ++ pieces after := by
  have slash : isSlash '/' = true := rfl
  unfold pieces
  rw [List.splitOnP_append_cons before after slash, List.filter_append]

theorem pieces_intercalate (parts : List Text) :
    pieces (List.intercalate ['/'] parts) = parts.flatMap pieces := by
  induction parts with
  | nil => rfl
  | cons first rest ih =>
      cases rest with
      | nil => simp
      | cons second others =>
          rw [List.intercalate_cons_cons, List.append_assoc, List.singleton_append,
            pieces_append_slash, ih]
          rfl

theorem pieces_of_noSlash
    {name : Text}
    (noSlash : ∀ char ∈ name, isSlash char = false) :
    pieces name = if Path.isVoid name then [] else [name] := by
  unfold pieces
  rw [List.splitOnP_eq_singleton noSlash, List.filter_singleton]
  unfold Path.isVoid
  cases name.isEmpty || name == ['.'] <;> rfl

theorem pieces_of_isVoid {piece : Text} (void : Path.isVoid piece = true) :
    pieces piece = [] := by
  rcases Path.isVoid_iff.mp void with rfl | rfl <;> rfl

theorem dropCommon_append (common rest : List Text) :
    dropCommon common (common ++ rest) = ([], rest) := by
  induction common with
  | nil => cases rest <;> rfl
  | cons first others ih =>
      rw [List.cons_append, dropCommon, if_pos rfl, ih]

end SourceName

/-! ## Pieces of paths -/

namespace Path

theorem withoutTrailingVoid_eq (pieces : List Text) :
    withoutTrailingVoid pieces = pieces.rdropWhile isVoid := rfl

/-- Only void pieces are left out at the end. -/
theorem exists_void_append (pieces : List Text) :
    ∃ void, withoutTrailingVoid pieces ++ void = pieces ∧
      ∀ piece ∈ void, isVoid piece = true :=
  ⟨pieces.rtakeWhile isVoid, List.rdropWhile_append_rtakeWhile,
    fun _ member => List.mem_rtakeWhile_imp member⟩

theorem not_isVoid_of_append_singleton
    {pieces before : List Text}
    {piece : Text}
    (kept : withoutTrailingVoid pieces = before ++ [piece]) :
    isVoid piece = false := by
  have notEmpty : pieces.rdropWhile isVoid ≠ [] := by
    rw [← withoutTrailingVoid_eq, kept]
    exact List.append_ne_nil_of_right_ne_nil before (List.cons_ne_nil _ _)
  have last := List.rdropWhile_last_not isVoid pieces notEmpty
  simp only [← withoutTrailingVoid_eq, kept, List.getLast_concat] at last
  exact Bool.eq_false_iff.mpr last

theorem flatMap_withoutTrailingVoid (pieces : List Text) :
    (withoutTrailingVoid pieces).flatMap SourceName.pieces =
      pieces.flatMap SourceName.pieces := by
  obtain ⟨void, parts, allVoid⟩ := exists_void_append pieces
  have nothing : void.flatMap SourceName.pieces = [] :=
    List.flatMap_eq_nil_iff.mpr fun piece member =>
      SourceName.pieces_of_isVoid (allVoid piece member)
  conv_rhs => rw [← parts, List.flatMap_append, nothing, List.append_nil]

theorem component?_of_isVoid {piece : Text} (void : isVoid piece = true) :
    component? piece = none := by
  rcases isVoid_iff.mp void with rfl | rfl <;> rfl

/-- A piece that carries something is the text of its component. -/
theorem exists_component?_of_not_isVoid
    {piece : Text}
    (notVoid : isVoid piece = false) :
    ∃ component, component? piece = some component ∧ component.text = piece := by
  have different : piece ≠ [] ∧ piece ≠ ['.'] := by
    rw [← not_or, ← isVoid_iff, notVoid]
    exact Bool.false_ne_true
  unfold component?
  rw [if_neg different.1, if_neg different.2]
  split
  · rename_i up
    exact ⟨.parent, rfl, up.symm⟩
  · exact ⟨.name piece, rfl, rfl⟩

/-- A path without pieces has no directory. -/
theorem parent?_of_nil
    {body : Text}
    (pieces : withoutTrailingVoid (body.splitOn '/') = []) :
    parent? ('/' :: body) = none := by
  have lead : splitLead ('/' :: body) = (['/'], body) := rfl
  unfold parent?
  rw [lead]
  simp only [pieces]
  rfl

/-- The directory of an absolute path is spelled by all but its last piece. -/
theorem parent?_of_append_singleton
    {body piece : Text}
    {before : List Text}
    (pieces : withoutTrailingVoid (body.splitOn '/') = before ++ [piece]) :
    parent? ('/' :: body) =
      some ('/' :: List.intercalate ['/'] (withoutTrailingVoid before)) := by
  have lead : splitLead ('/' :: body) = (['/'], body) := rfl
  unfold parent?
  rw [lead]
  simp only [pieces]
  split
  · rename_i empty
    exact absurd empty (List.append_ne_nil_of_right_ne_nil before (List.cons_ne_nil _ _))
  · rw [List.dropLast_concat, List.singleton_append]

/-- The last component of an absolute path is that of its last piece. -/
theorem getLast?_components_of_append_singleton
    {body piece : Text}
    {before : List Text}
    (pieces : withoutTrailingVoid (body.splitOn '/') = before ++ [piece]) :
    ∃ component, (components ('/' :: body)).getLast? = some component ∧
      component.text = piece := by
  obtain ⟨component, carried, text⟩ :=
    exists_component?_of_not_isVoid (not_isVoid_of_append_singleton pieces)
  refine ⟨component, ?_, text⟩
  obtain ⟨void, parts, allVoid⟩ := exists_void_append (body.splitOn '/')
  have nothing : void.filterMap component? = [] :=
    List.filterMap_eq_nil_iff.mpr fun piece member =>
      component?_of_isVoid (allVoid piece member)
  have steps : ('/' :: body).splitOn '/' = [] :: body.splitOn '/' :=
    List.splitOn_append_cons_self [] body
  have absolute : isAbsolute ('/' :: body) = true := rfl
  simp only [components, absolute, if_true]
  rw [steps, List.filterMap_cons_none rfl, ← parts, pieces, List.filterMap_append,
    List.filterMap_append, nothing, List.append_nil, List.filterMap_cons_some carried,
    List.filterMap_nil, ← List.cons_append, List.getLast?_concat]

end Path

/-! ## The name of a component -/

namespace SourceName

/-- Only a capital letter has another small one, and that is a letter. -/
theorem eq_of_toLower
    {char other : Char}
    (notLetter : other.toNat < 97)
    (lower : char.toLower = other) :
    char = other := by
  unfold Char.toLower at lower
  split at lower
  · rename_i upper
    have atLeast : 65 ≤ char.val.toNat := UInt32.le_iff_toNat_le.mp upper.1
    have atMost : char.val.toNat ≤ 90 := UInt32.le_iff_toNat_le.mp upper.2
    have value : (char.val + ('a'.val - 'A'.val)).toNat = other.toNat :=
      congrArg Char.toNat lower
    rw [UInt32.toNat_add] at value
    have distance : ('a'.val - 'A'.val).toNat = 32 := rfl
    omega
  · exact lower

/-- A name without some sign of the scheme does not start with it. -/
theorem withoutScheme_of_not_mem
    {name : Text}
    {char : Char}
    (ofScheme : char ∈ "file://".toList)
    (notLetter : char.toNat < 97)
    (absent : char ∉ name) :
    withoutScheme name = name := by
  unfold withoutScheme
  split
  · rename_i rest found
    have lowered : char ∈ name.map Char.toLower := by
      rw [Text.after?_eq_some_iff.mp found]
      exact List.mem_append_left rest ofScheme
    obtain ⟨given, member, lower⟩ := List.mem_map.mp lowered
    rw [eq_of_toLower notLetter lower] at member
    exact absurd member absent
  · rfl

theorem withoutScheme_of_noSlash
    {name : Text}
    (noSlash : ∀ char ∈ name, isSlash char = false) :
    withoutScheme name = name :=
  withoutScheme_of_not_mem (by decide) (by decide)
    fun slash => nomatch noSlash '/' slash

theorem isAbsolute_of_noSlash
    {name : Text}
    (noSlash : ∀ char ∈ name, isSlash char = false) :
    isAbsolute name = false := by
  unfold isAbsolute
  split
  · rfl
  · rename_i first rest
    rw [noSlash first List.mem_cons_self, Bool.false_or]
    split
    · rename_i slash tail
      have notSlash : isSlash slash = false := by
        apply noSlash
        simp
      rw [notSlash, Bool.and_false]
    · rw [Bool.and_false]

/-- A single piece is its own name. -/
theorem relative_of_noSlash
    {name : Text}
    (noSlash : ∀ char ∈ name, isSlash char = false)
    (notVoid : Path.isVoid name = false)
    (base : Text) :
    relative base name = name := by
  unfold relative
  rw [withoutScheme_of_noSlash noSlash]
  simp only [isAbsolute_of_noSlash noSlash, Bool.false_eq_true, if_false]
  split
  · rfl
  · rw [pieces_of_noSlash noSlash, notVoid]
    exact List.intercalate_singleton

/-- A name that is relative already: it has no root and no colon, and there is one
slash between any two of its pieces. -/
def IsRelative (name : Text) : Prop :=
  isAbsolute name = false ∧ ':' ∉ name ∧ ofPieces (pieces name) = name

/-- A name that is relative already stays as it is. -/
theorem relative_of_isRelative
    {name : Text}
    (isRelative : IsRelative name)
    (base : Text) :
    relative base name = name := by
  obtain ⟨noRoot, noColon, written⟩ := isRelative
  have noScheme : withoutScheme name = name :=
    withoutScheme_of_not_mem (by decide) (by decide) noColon
  have noLocation : List.elem ':' name = false := by
    simpa using noColon
  rw [relative, noScheme]
  simp only [noRoot, noLocation, Bool.false_eq_true, if_false]
  exact written

/-- Relative to a directory, a file in it has its further pieces for a name. -/
theorem relative_of_pieces_append
    {base body : Text}
    {further : List Text}
    (inBase : pieces ('/' :: body) = pieces base ++ further) :
    relative base ('/' :: body) = ofPieces further := by
  have noScheme : withoutScheme ('/' :: body) = '/' :: body := rfl
  have absolute : isAbsolute ('/' :: body) = true := rfl
  unfold relative
  rw [noScheme]
  simp only [absolute, if_true]
  rw [inBase, dropCommon_append]
  rfl

end SourceName

theorem exists_body_of_isAbsolute
    {path : Path}
    (absolute : Path.isAbsolute path = true) :
    ∃ body, path = '/' :: body := by
  unfold Path.isAbsolute at absolute
  split at absolute
  · exact ⟨_, rfl⟩
  · cases absolute

/-- A path has the pieces that stand between its slashes, the void ones at its
end apart. -/
theorem pieces_absolute (body : Text) :
    SourceName.pieces ('/' :: body) =
      (Path.withoutTrailingVoid (body.splitOn '/')).flatMap SourceName.pieces := by
  have joined : List.intercalate ['/'] (body.splitOn '/') = body :=
    List.intercalate_splitOn '/'
  have rooted : SourceName.pieces ('/' :: body) = SourceName.pieces body :=
    SourceName.pieces_append_slash [] body
  rw [Path.flatMap_withoutTrailingVoid, ← SourceName.pieces_intercalate, joined, rooted]

section LastPiece

variable {body piece : Text}
variable {before : List Text}

theorem pieces_projectRootOf
    (kept : Path.withoutTrailingVoid (body.splitOn '/') = before ++ [piece]) :
    SourceName.pieces (projectRootOf ('/' :: body)) =
      before.flatMap SourceName.pieces := by
  have root : projectRootOf ('/' :: body) =
      '/' :: List.intercalate ['/'] (Path.withoutTrailingVoid before) := by
    rw [projectRootOf, Path.parent?_of_append_singleton kept]
    rfl
  have rooted := SourceName.pieces_append_slash []
    (List.intercalate ['/'] (Path.withoutTrailingVoid before))
  rw [root, ← Path.flatMap_withoutTrailingVoid, ← SourceName.pieces_intercalate]
  exact rooted

/-- Without a backslash, the last piece has no separator of either kind. -/
theorem noSlash_of_noBackslash
    (kept : Path.withoutTrailingVoid (body.splitOn '/') = before ++ [piece])
    (noBackslash : ∀ component,
      (Path.components ('/' :: body)).getLast? = some component →
        '\\' ∉ component.text) :
    ∀ char ∈ piece, SourceName.isSlash char = false := by
  intro char member
  have listed : piece ∈ body.splitOn '/' := by
    obtain ⟨void, parts, -⟩ := Path.exists_void_append (body.splitOn '/')
    rw [← parts, kept]
    simp
  have slash : char ≠ '/' := by
    rintro rfl
    exact Text.separator_not_mem_of_mem_splitOn listed member
  have backslash : char ≠ '\\' := by
    rintro rfl
    obtain ⟨component, last, text⟩ := Path.getLast?_components_of_append_singleton kept
    rw [← text] at member
    exact noBackslash component last member
  simp [SourceName.isSlash, slash, backslash]

theorem relative_projectRootOf
    (kept : Path.withoutTrailingVoid (body.splitOn '/') = before ++ [piece])
    (noSlash : ∀ char ∈ piece, SourceName.isSlash char = false) :
    SourceName.relative (projectRootOf ('/' :: body)) ('/' :: body) = piece := by
  have further : SourceName.pieces ('/' :: body) =
      SourceName.pieces (projectRootOf ('/' :: body)) ++ [piece] := by
    rw [pieces_absolute, kept, List.flatMap_append, pieces_projectRootOf kept,
      List.flatMap_singleton, SourceName.pieces_of_noSlash noSlash,
      Path.not_isVoid_of_append_singleton kept]
    rfl
  rw [SourceName.relative_of_pieces_append further]
  exact List.intercalate_singleton

end LastPiece

/-- Taking the name of an absolute component relative to its directory again
changes nothing. -/
theorem relative_relative_projectRootOf
    {filename : Path}
    (absolute : Path.isAbsolute filename = true)
    (noBackslash : ∀ component, (Path.components filename).getLast? = some component →
      '\\' ∉ component.text) :
    SourceName.relative (projectRootOf filename)
        (SourceName.relative (projectRootOf filename) filename) =
      SourceName.relative (projectRootOf filename) filename := by
  obtain ⟨body, rfl⟩ := exists_body_of_isAbsolute absolute
  rcases List.eq_nil_or_concat' (Path.withoutTrailingVoid (body.splitOn '/')) with
    nothing | ⟨before, piece, kept⟩
  · -- The root directory has no directory and an empty name.
    have root : projectRootOf ('/' :: body) = [] := by
      rw [projectRootOf, Path.parent?_of_nil nothing]
      rfl
    have name : SourceName.relative [] ('/' :: body) = SourceName.ofPieces [] := by
      apply SourceName.relative_of_pieces_append
      rw [pieces_absolute, nothing]
      rfl
    rw [root, name]
    rfl
  · have noSlash := noSlash_of_noBackslash kept noBackslash
    rw [relative_projectRootOf kept noSlash]
    exact SourceName.relative_of_noSlash noSlash
      (Path.not_isVoid_of_append_singleton kept) _

end ComponentPipeline
