import ComponentPipeline.Proofs.Css.InertComments
import Mathlib.Data.Nat.SuccPred
import Mathlib.Tactic.ByContra

/-!
# Comments that make a difference

Every comment that is not inert makes a difference somewhere: there is a stylesheet with
a rule in whose selector it is the only comment, and the rule meets another fate if the
comment is emptied.  The selectors that tell a comment put a marker behind it, at a
place that is inside parentheses or brackets for one of the two texts alone.
-/

namespace ComponentPipeline
namespace Css

open Selector (HasMarker HasMarkerFrom MarkerScan Quoting)

/-! ## Stylesheets of one rule -/

/-- A character that neither ends a statement nor opens a string or a comment. -/
def IsSober (char : Char) : Prop :=
  char ∉ ['\\', '"', '\'', '/', '{', '}', ';']

instance (char : Char) : Decidable (IsSober char) :=
  inferInstanceAs (Decidable (_ ∉ _))

/-- A text of such characters. -/
def IsSoberText (text : Text) : Prop :=
  ∀ char ∈ text, IsSober char

instance (text : Text) : Decidable (IsSoberText text) :=
  List.decidableBAll IsSober text

/-- The number of open parentheses and brackets behind a character. -/
def nesting (depth : Nat) (char : Char) : Nat :=
  if char = '(' ∨ char = '[' then depth + 1
  else if char = ')' ∨ char = ']' then depth - 1
  else depth

/-- What stands around a comment in the selector of a rule. -/
structure Surrounds (before after : Text) : Prop where
  /-- The selector starts as one. -/
  starts : before.head? = some 'a'
  /-- It does not end with a blank. -/
  stops : ∀ char, after.getLast? = some char → Text.isBlank char = false
  /-- There are no other comments and no strings in it. -/
  sober : IsSoberText (before ++ after)
  /-- Its parentheses and brackets are closed. -/
  closes : (before ++ after).foldl nesting 0 = 0

section Rule

open StatementScan

variable {before after body text rest emptied : Text} {bodies : List Text}

theorem over?_of_sober
    (sober : IsSoberText text)
    (depth : Nat) :
    (⟨.plain, depth⟩ : StatementScan).over? text = some ⟨.plain, text.foldl nesting depth⟩ := by
  induction text generalizing depth with
  | nil => rfl
  | cons char rest ih =>
      have here := sober char List.mem_cons_self
      simp only [IsSober, List.mem_cons, List.not_mem_nil, or_false, not_or] at here
      obtain ⟨noBackslash, noDouble, noSingle, noSlash, noOpen, noClose, noSemicolon⟩ := here
      have goesOn : (⟨.plain, depth⟩ : StatementScan).endsAt char = false := by
        simp [endsAt, noOpen, noClose, noSemicolon]
      have step : (⟨.plain, depth⟩ : StatementScan).step 0 char =
          ⟨.plain, nesting depth char⟩ := by
        simp only [StatementScan.step, plainStep, nesting, noBackslash, noDouble, noSingle,
          noSlash, or_self, if_false]
        split
        · rfl
        · split <;> rfl
      rw [over?_cons, goesOn, if_neg Bool.false_ne_true, step, List.foldl_cons]
      exact ih (fun other member => sober other (List.mem_cons_of_mem _ member)) _

theorem Comments.append_left
    (sober : IsSoberText before)
    (comments : Comments .outside rest bodies emptied) :
    Comments .outside (before ++ rest) bodies (before ++ emptied) := by
  induction before with
  | nil => exact comments
  | cons char before ih =>
      have later := ih fun other member => sober other (List.mem_cons_of_mem _ member)
      have here := sober char List.mem_cons_self
      simp only [IsSober, List.mem_cons, List.not_mem_nil, or_false, not_or] at here
      obtain ⟨noBackslash, noDouble, noSingle, noSlash, -⟩ := here
      refine .char (fun _ opens => noSlash (List.cons_prefix_cons.mp opens).1.symm) ?_
      rw [Selector.isPlain_iff.mpr ⟨noBackslash, noDouble, noSingle⟩]
      exact later

theorem Comments.of_sober (sober : IsSoberText text) :
    Comments .outside text [] text := by
  have whole : Comments .outside (text ++ []) [] (text ++ []) := append_left sober .nil
  rwa [List.append_nil] at whole

/-- A comment is the only one between texts without any. -/
theorem Surrounds.comments
    (surrounds : Surrounds before after)
    (isBody : IsCommentBody body) :
    Comments .outside (before ++ (commented body ++ after)) [body]
      (before ++ (commented [] ++ after)) := by
  obtain ⟨soberBefore, soberAfter⟩ := List.forall_mem_append.mp surrounds.sober
  exact Comments.append_left soberBefore (.comment isBody (.of_sober soberAfter))

theorem Surrounds.stated
    (surrounds : Surrounds before after)
    (isBody : IsCommentBody body) :
    Stated (before ++ (commented body ++ after)) (some '{') := by
  obtain ⟨soberBefore, soberAfter⟩ := List.forall_mem_append.mp surrounds.sober
  obtain ⟨others, rfl⟩ := List.head?_eq_some_iff.mp surrounds.starts
  refine ⟨?_, ?_, ⟨.plain, 0⟩, ?_, rfl⟩
  · rintro _ ⟨⟩
    decide
  · intro opens
    cases (List.cons_prefix_cons.mp opens).1
  · have closes := surrounds.closes
    rw [List.foldl_append] at closes
    rw [over?_append, initial, over?_of_sober soberBefore, Option.bind_some, over?_append,
      over?_commented isBody, Option.bind_some, over?_of_sober soberAfter, closes]

/-- A selector with a block behind it is read as a rule. -/
theorem Stated.exists_site
    {selector : Text}
    (stated : Stated selector (some '{'))
    (noBlank : ∀ char, selector.getLast? = some char → Text.isBlank char = false)
    (notAt : isAtHead selector = false) :
    ∃ sheet, Stylesheet.parse (selector ++ ['{', '}']) = .ok sheet ∧
      ∃ site ∈ sheet.sites, site.rule.selector = selector := by
  let locate := positionOf (selector ++ ['{', '}'])
  let block : OpenBlock := ⟨[], selector, [], 0, []⟩
  have opened : ReaderState.Reads locate (.initial (selector ++ ['{', '}']))
      (.next ⟨[block], [], _, ['}']⟩) :=
    .opened (by simp [ReaderState.initial]) isGap_nil (by rwa [List.append_nil]) rfl noBlank
  have closed (offset : Nat) : ReaderState.Reads locate ⟨[block], [], offset, ['}']⟩
      (.next ⟨[], block.siblings ++ [block.close locate [] []],
        offset + Text.size ([] ++ ['}']), []⟩) :=
    .closed rfl rfl isGap_nil
  have finished (offset : Nat) (nodes : List Node) :
      ReaderState.Reads locate ⟨[], nodes, offset, []⟩ (.finished ⟨nodes, []⟩) :=
    .finished rfl isGap_nil
  have isRule : block.close locate [] [] = .rule [] selector [] [] [] (locate 0) := by
    rw [OpenBlock.close, if_neg (Bool.eq_false_iff.mp notAt)]
  have parsed : Stylesheet.parse (selector ++ ['{', '}']) =
      .ok ⟨[.rule [] selector [] [] [] (locate 0)], []⟩ := by
    rw [Stylesheet.parse, ReaderState.run_eq_of_step (ReaderState.step_of_reads opened),
      ReaderState.run_eq_of_step (ReaderState.step_of_reads (closed _)),
      ReaderState.run_eq_of_step_finished (ReaderState.step_of_reads (finished _ _)), isRule]
    rfl
  refine ⟨_, parsed, ⟨[0], [], selector, [], [], [], locate 0⟩, ?_, rfl⟩
  simp [Stylesheet.sites, sitesIn, Node.sites]

/-- A comment between such texts stands in the selector of a rule that can be read. -/
theorem Surrounds.exists_site
    (surrounds : Surrounds before after)
    (isBody : IsCommentBody body) :
    ∃ text sheet, Stylesheet.parse text = .ok sheet ∧
      ∃ site ∈ sheet.sites, site.rule.selector = before ++ (commented body ++ after) := by
  have stated := surrounds.stated isBody
  obtain ⟨others, isBefore⟩ := List.head?_eq_some_iff.mp surrounds.starts
  have notAt : isAtHead (before ++ (commented body ++ after)) = false := by
    rw [isBefore]
    rfl
  have closed : commented body = '/' :: '*' :: (body ++ ['*']) ++ ['/'] := by simp [commented]
  refine ⟨_, stated.exists_site (fun char last => ?_) notAt⟩
  by_cases ends : after = []
  · rw [ends, List.append_nil, closed, ← List.append_assoc, List.getLast?_concat] at last
    cases last
    decide
  · have notEmpty : commented body ++ after ≠ [] := List.append_ne_nil_of_right_ne_nil _ ends
    rw [List.getLast?_append_of_ne_nil _ notEmpty, List.getLast?_append_of_ne_nil _ ends] at last
    exact surrounds.stops char last

end Rule

/-! ## Places to put a marker -/

section Nesting

variable {char : Char} (depth count : Nat)

/-- Going over many copies of a character is doing many times what one of them does. -/
theorem foldl_replicate {σ : Type} (step : σ → Char → σ) (state : σ) :
    (List.replicate count char).foldl step state = (step · char)^[count] state := by
  induction count generalizing state with
  | zero => rfl
  | succ count ih => rw [List.replicate_succ, List.foldl_cons, ih, Function.iterate_succ_apply]

theorem foldl_nesting_replicate_open (opens : char = '(' ∨ char = '[') :
    (List.replicate count char).foldl nesting depth = depth + count := by
  have deeper : (nesting · char) = Nat.succ := funext fun depth => if_pos opens
  rw [foldl_replicate, deeper, Nat.succ_iterate]

theorem foldl_nesting_replicate_close (closes : char = ')' ∨ char = ']') :
    (List.replicate count char).foldl nesting depth = depth - count := by
  have opensNot : ¬(char = '(' ∨ char = '[') := by
    rcases closes with rfl | rfl <;> decide
  have shallower : (nesting · char) = Nat.pred :=
    funext fun depth => (if_neg opensNot).trans (if_pos closes)
  rw [foldl_replicate, shallower, Nat.pred_iterate]

end Nesting

namespace PieceScan

variable (depth inside count : Nat)

theorem outside_step_comma :
    (outside depth inside).step ',' = outside depth (if depth = 0 then 0 else inside) := by
  by_cases top : depth = 0 <;>
    simp [outside, step, ListScan.step, ListScan.separatesAt, MarkerScan.step, MarkerScan.initial,
      top]

theorem outside_over_replicate
    {char : Char}
    {outer inner : Nat → Nat}
    (changes : ∀ depth inside,
      (outside depth inside).step char = outside (outer depth) (inner inside)) :
    (outside depth inside).over (List.replicate count char) =
      outside (outer^[count] depth) (inner^[count] inside) := by
  induction count generalizing depth inside with
  | zero => rfl
  | succ count ih => rw [List.replicate_succ, over_cons, changes, ih]; rfl

theorem outside_over_parentheses :
    (outside depth inside).over (List.replicate count '(') =
      outside (depth + count) (inside + count) := by
  have opens (depth inside : Nat) :
      (outside depth inside).step '(' = outside depth.succ inside.succ := by
    simp [outside, step, ListScan.step, ListScan.separatesAt, MarkerScan.step]
  rw [outside_over_replicate _ _ _ opens, Nat.succ_iterate, Nat.succ_iterate]

theorem outside_over_brackets :
    (outside depth inside).over (List.replicate count '[') = outside depth (inside + count) := by
  have opens (depth inside : Nat) :
      (outside depth inside).step '[' = outside (id depth) inside.succ := by
    simp [outside, step, ListScan.step, ListScan.separatesAt, MarkerScan.step]
  rw [outside_over_replicate _ _ _ opens, Function.iterate_id, Nat.succ_iterate]
  rfl

theorem outside_over_closingParentheses :
    (outside depth inside).over (List.replicate count ')') =
      outside (depth - count) (inside - count) := by
  have closes (depth inside : Nat) :
      (outside depth inside).step ')' = outside depth.pred inside.pred := by
    simp [outside, step, ListScan.step, ListScan.separatesAt, MarkerScan.step]
  rw [outside_over_replicate _ _ _ closes, Nat.pred_iterate, Nat.pred_iterate]

theorem outside_over_closingBrackets :
    (outside depth inside).over (List.replicate count ']') = outside depth (inside - count) := by
  have closes (depth inside : Nat) :
      (outside depth inside).step ']' = outside (id depth) inside.pred := by
    simp [outside, step, ListScan.step, ListScan.separatesAt, MarkerScan.step]
  rw [outside_over_replicate _ _ _ closes, Function.iterate_id, Nat.pred_iterate]
  rfl

end PieceScan

/-- A text behind which so many parentheses of the list are open, and so many parentheses
and brackets of the piece. -/
def opening (depth inside : Nat) : Text :=
  'a' :: (List.replicate depth '(' ++
    (List.replicate (inside - depth) '[' ++ List.replicate (depth - inside) ']'))

section Opening

variable (depth inside : Nat)

theorem over_opening :
    PieceScan.initial.over (opening depth inside) = .outside depth inside := by
  have start : PieceScan.initial.step 'a' = .outside 0 0 := rfl
  rw [opening, PieceScan.over_cons, start, PieceScan.over_append,
    PieceScan.outside_over_parentheses, PieceScan.over_append, PieceScan.outside_over_brackets,
    PieceScan.outside_over_closingBrackets]
  congr 1 <;> omega

theorem foldl_nesting_opening : (opening depth inside).foldl nesting 0 = inside := by
  have start : nesting 0 'a' = 0 := by decide
  rw [opening, List.foldl_cons, start, List.foldl_append, List.foldl_append,
    foldl_nesting_replicate_open _ _ (.inl rfl), foldl_nesting_replicate_open _ _ (.inr rfl),
    foldl_nesting_replicate_close _ _ (.inr rfl)]
  omega

theorem mem_opening
    {char : Char}
    (member : char ∈ opening depth inside) :
    char = 'a' ∨ char = '(' ∨ char = '[' ∨ char = ']' := by
  simp only [opening, List.mem_cons, List.mem_append, List.mem_replicate] at member
  obtain rfl | ⟨-, rfl⟩ | ⟨-, rfl⟩ | ⟨-, rfl⟩ := member <;> simp

end Opening

/-! ## Markers that tell -/

section Telling

variable {required : MarkerScan → Prop} {scan : PieceScan} {text : Text}

/-- A marker with closing brackets behind it. -/
def marking (count : Nat) : Text :=
  Selector.marker ++ List.replicate count ']'

theorem hasPieceMarker_marking_iff (count : Nat) :
    HasPieceMarker required scan (marking count) ↔
      scan.markers.mayMark = true ∧ required scan.markers := by
  have ends : Selector.EndsMarker (List.replicate count ']') := by
    intro char first
    have member := List.mem_of_mem_head? first
    rw [(List.mem_replicate.mp member).2]
    decide +kernel
  have found : (Selector.afterMarker? (marking count)).isSome = true :=
    Option.isSome_iff_exists.mpr ⟨_, Selector.afterMarker?_eq_some_iff.mpr ⟨rfl, ends⟩⟩
  have here : (scan.markers.markerAt? (marking count)).isSome = true ↔
      scan.markers.mayMark = true := by
    rw [MarkerScan.markerAt?]
    split
    · rename_i may
      exact iff_of_true found may
    · rename_i mayNot
      exact iff_of_false (by simp) mayNot
  have whole : marking count = ':' :: (Selector.marker.tail ++ List.replicate count ']') := rfl
  have noneFurther (scan : PieceScan) :
      ¬HasPieceMarker required scan (Selector.marker.tail ++ List.replicate count ']') := by
    intro marked
    have colon := Selector.MarkerAt.colon_mem marked
    simp [Selector.marker, List.mem_replicate] at colon
  rw [whole, hasPieceMarker_cons_iff, ← whole, here]
  exact or_iff_left (noneFurther _)

/-- The only marker of a selector is the one that is put behind a comment. -/
theorem hasPieceMarker_behind_iff
    {body approach : Text}
    (unmarked : ¬HasMarker (commented body))
    (noColon : ':' ∉ approach)
    (depth inside count : Nat) :
    HasPieceMarker required .initial
        (opening depth inside ++ (commented body ++ (approach ++ marking count))) ↔
      (((PieceScan.outside depth inside).over (commented body)).over approach).markers.mayMark =
          true ∧
        required
          (((PieceScan.outside depth inside).over (commented body)).over approach).markers := by
  have noColonBefore : ':' ∉ opening depth inside := fun member => by
    obtain colon | colon | colon | colon := mem_opening depth inside member <;> cases colon
  rw [hasPieceMarker_append_iff_of_noColon noColonBefore, over_opening,
    hasPieceMarker_commented_iff unmarked (PieceScan.agrees_outside _ _) rfl,
    hasPieceMarker_append_iff_of_noColon noColon, hasPieceMarker_marking_iff]
  rfl

end Telling

theorem surrounds_opening
    {approach : Text}
    {depth inside count : Nat}
    (sober : IsSoberText approach)
    (closes : approach.foldl nesting inside = count) :
    Surrounds (opening depth inside) (approach ++ marking count) where
  starts := rfl
  stops char last := by
    have notEmpty : marking count ≠ [] := by simp [marking, Selector.marker]
    have isLast : (marking count).getLast? = some char := by
      rw [List.getLast?_append_of_ne_nil _ notEmpty] at last
      exact last
    have member := List.mem_of_getLast? isLast
    rw [marking, List.mem_append, List.mem_replicate] at member
    have noBlank : Selector.marker.any Text.isBlank = false := by decide
    obtain inMarker | ⟨-, rfl⟩ := member
    · exact Bool.eq_false_iff.mpr (List.any_eq_false.mp noBlank char inMarker)
    · decide
  sober := by
    have soberMarker : IsSoberText Selector.marker := by decide
    intro char member
    simp only [marking, List.mem_append, List.mem_replicate] at member
    obtain before | here | inMarker | ⟨-, rfl⟩ := member
    · obtain rfl | rfl | rfl | rfl := mem_opening depth inside before <;> decide
    · exact sober char here
    · exact soberMarker char inMarker
    · decide
  closes := by
    have overMarker : Selector.marker.foldl nesting count = count := by
      simp [Selector.marker, nesting]
    rw [List.foldl_append, foldl_nesting_opening, List.foldl_append, closes, marking,
      List.foldl_append, overMarker, foldl_nesting_replicate_close _ _ (.inr rfl), Nat.sub_self]

namespace PieceScan

theorem afterColon_step_of_ne
    {scan : PieceScan}
    {char : Char}
    (noColon : char ≠ ':') :
    (scan.step char).markers.afterColon = false := by
  unfold PieceScan.step
  dsimp only
  split
  · rfl
  · rw [MarkerScan.afterColon_step]
    exact beq_false_of_ne noColon

/-- Behind a comment that leaves no string open, parentheses and brackets are all that
counts. -/
theorem exists_outside_over_commented
    {body : Text}
    (leaves : Quoting.outside.over (commented body) = .outside)
    (depth inside : Nat) :
    ∃ depth' inside',
      (outside depth inside).over (commented body) = outside depth' inside' := by
  have closed : commented body = '/' :: '*' :: (body ++ ['*']) ++ ['/'] := by simp [commented]
  have agrees := (agrees_outside depth inside).over (commented body)
  have isOutside := quoting_over (agrees_outside depth inside) (commented body)
  have noColon : ((outside depth inside).over (commented body)).markers.afterColon = false := by
    rw [closed, over_append]
    exact afterColon_step_of_ne (by decide)
  generalize (outside depth inside).over (commented body) = scan at agrees isOutside noColon
  obtain ⟨⟨depth', quote, escaped⟩, ⟨inside', quote', escaped', afterColon⟩⟩ := scan
  have isOutside : (⟨quote', escaped'⟩ : Quoting) = .outside := isOutside.trans leaves
  cases isOutside
  cases agrees
  cases noColon
  exact ⟨depth', inside', rfl⟩

end PieceScan

section Telling

variable {body : Text}

/-- Fates differ if a nested marker stands in one list alone. -/
theorem ruleFate_ne_of_rejected
    {first second : Text}
    (differ : ¬(HasPieceMarker MarkerScan.IsInside .initial first ↔
      HasPieceMarker MarkerScan.IsInside .initial second))
    (neutralize : Text → Text)
    {rule : Rule}
    (isFirst : rule.selector = first) :
    ruleFate neutralize rule ≠ ruleFate neutralize { rule with selector := second } := by
  intro same
  have isRejected : ruleFate neutralize rule = .rejected ↔
      HasPieceMarker MarkerScan.IsInside .initial first := by
    rw [ruleFate_eq_rejected_iff, isFirst]
  rw [same, ruleFate_eq_rejected_iff] at isRejected
  exact differ isRejected.symm

/-- A rule in which a comment makes a difference, whatever neutralizing is. -/
def Tells (before body after : Text) : Prop :=
  ∀ (neutralize : Text → Text) (rule : Rule),
    rule.selector = before ++ (commented body ++ after) →
      ruleFate neutralize rule ≠
        ruleFate neutralize { rule with selector := before ++ (commented [] ++ after) }

/-- A comment with a marker makes a rule one with a marker. -/
theorem tells_of_hasMarker (marked : HasMarker (commented body)) :
    Tells (opening 0 0) body [] := by
  intro neutralize rule isSelector same
  have unmarked : ¬HasMarker (opening 0 0 ++ (commented [] ++ [])) := by decide +kernel
  have untouched : ruleFate neutralize
      { rule with selector := opening 0 0 ++ (commented [] ++ []) } = .untouched :=
    ruleFate_eq_untouched_iff.mpr unmarked
  have markedHere : HasMarker rule.selector := by
    rw [isSelector, List.append_nil]
    exact Selector.hasMarkerFrom_cons_iff.mpr (.inr marked)
  exact ruleFate_eq_untouched_iff.mp (same.trans untouched) markedHere

/-- A comment that leaves a string open or the next character escaped hides a marker
behind it. -/
theorem tells_of_leaves
    (unmarked : ¬HasMarker (commented body))
    (leaves : Quoting.outside.over (commented body) ≠ .outside) :
    Tells (opening 0 0) body ([] ++ marking 0) := by
  intro neutralize rule isSelector same
  have unmarkedHere : ¬HasMarker rule.selector := by
    rw [isSelector, ← hasPieceMarker_true_iff,
      hasPieceMarker_behind_iff unmarked (by simp)]
    rintro ⟨may, -⟩
    obtain ⟨isOutside, -⟩ := Selector.MarkerScan.mayMark_eq_true_iff.mp may
    rw [PieceScan.over_nil, PieceScan.quoting_over (PieceScan.agrees_outside 0 0)] at isOutside
    exact leaves isOutside
  have marked : HasMarker (opening 0 0 ++ (commented [] ++ ([] ++ marking 0))) := by
    decide +kernel
  have untouched : ruleFate neutralize rule = .untouched :=
    ruleFate_eq_untouched_iff.mpr unmarkedHere
  exact ruleFate_eq_untouched_iff.mp (same.symm.trans untouched) marked

/-- A marker tells if it comes to stand inside parentheses or brackets behind one of the
two texts alone. -/
theorem exists_tells_of_approach
    (approach : Text)
    {depth inside depth' inside' : Nat}
    (unmarked : ¬HasMarker (commented body))
    (comesOut : (PieceScan.outside depth inside).over (commented body) = .outside depth' inside')
    (plain : ∀ char ∈ approach, IsSober char ∧ char ≠ ':')
    (may : ∀ depth inside,
      ((PieceScan.outside depth inside).over approach).markers.mayMark = true)
    (differ : ¬(((PieceScan.outside depth' inside').over approach).markers.IsInside ↔
      ((PieceScan.outside depth inside).over approach).markers.IsInside)) :
    ∃ before after, Surrounds before after ∧ Tells before body after := by
  have noColon : ':' ∉ approach := fun member => (plain ':' member).2 rfl
  refine ⟨opening depth inside, _,
    surrounds_opening (fun char member => (plain char member).1) rfl, ?_⟩
  intro neutralize rule isSelector
  refine ruleFate_ne_of_rejected ?_ neutralize isSelector
  rw [hasPieceMarker_behind_iff unmarked noColon,
    hasPieceMarker_behind_iff isInert_nil.unmarked noColon, comesOut, isInert_nil.passes,
    and_iff_right (may depth' inside'), and_iff_right (may depth inside)]
  exact differ

/-- A comment that changes the nesting makes a difference behind it. -/
theorem exists_tells_of_over
    {depth inside depth' inside' : Nat}
    (unmarked : ¬HasMarker (commented body))
    (comesOut : (PieceScan.outside depth inside).over (commented body) = .outside depth' inside')
    (moves : PieceScan.outside depth' inside' ≠ .outside depth inside) :
    ∃ before after, Surrounds before after ∧ Tells before body after := by
  by_cases sameDepth : depth' = depth
  · -- Closing brackets leave one of the two places inside a bracket, and not the other.
    have differentInside : inside' ≠ inside := by
      rintro rfl
      exact moves (by rw [sameDepth])
    refine exists_tells_of_approach (List.replicate (min inside' inside) ']') unmarked comesOut
      ?_ ?_ ?_
    · intro char member
      rw [(List.mem_replicate.mp member).2]
      decide
    · intro depth inside
      rw [PieceScan.outside_over_closingBrackets]
      rfl
    · rw [PieceScan.outside_over_closingBrackets, PieceScan.outside_over_closingBrackets]
      simp only [PieceScan.outside, MarkerScan.IsInside]
      omega
  · -- Behind closing parentheses, a comma in a bracket separates at one of them alone.
    let approach : Text := List.replicate (min depth' depth) ')' ++ ['[', ',']
    have overApproach (depth'' inside'' : Nat) :
        (PieceScan.outside depth'' inside'').over approach =
          .outside (depth'' - min depth' depth)
            (if depth'' - min depth' depth = 0 then 0
              else inside'' - min depth' depth + 1) := by
      have bracket := PieceScan.outside_over_brackets (depth'' - min depth' depth)
        (inside'' - min depth' depth) 1
      rw [PieceScan.over_append, PieceScan.outside_over_closingParentheses]
      exact (congrArg (PieceScan.step · ',') bracket).trans (PieceScan.outside_step_comma _ _)
    refine exists_tells_of_approach approach unmarked comesOut ?_ ?_ ?_
    · intro char member
      simp only [approach, List.mem_append, List.mem_replicate, List.mem_cons, List.not_mem_nil,
        or_false] at member
      obtain ⟨-, rfl⟩ | rfl | rfl := member <;> decide
    · intro depth inside
      rw [overApproach]
      rfl
    · rw [overApproach, overApproach]
      simp only [PieceScan.outside, MarkerScan.IsInside]
      split <;> split <;> omega

/-- A comment that is not inert makes a difference in a rule that can be read. -/
theorem exists_tells (telling : ¬IsInert body) :
    ∃ before after, Surrounds before after ∧ Tells before body after := by
  by_cases marked : HasMarker (commented body)
  · exact ⟨_, _, ⟨rfl, by simp, by decide, rfl⟩, tells_of_hasMarker marked⟩
  by_cases leaves : Quoting.outside.over (commented body) = .outside
  · have moves : ∃ depth inside,
        (PieceScan.outside depth inside).over (commented body) ≠ .outside depth inside := by
      by_contra none
      refine telling ⟨fun depth inside => ?_, marked⟩
      by_contra moves
      exact none ⟨depth, inside, moves⟩
    obtain ⟨depth, inside, moves⟩ := moves
    obtain ⟨depth', inside', comesOut⟩ :=
      PieceScan.exists_outside_over_commented leaves depth inside
    rw [comesOut] at moves
    exact exists_tells_of_over marked comesOut moves
  · exact ⟨_, _, surrounds_opening (by decide) rfl, tells_of_leaves marked leaves⟩

end Telling

/-! ## Comments and the fates of rules -/

/-- What becomes of a parsed rule does not depend on what the comments in its selector say
if they are inert: it is what becomes of the rule with these comments emptied, and a rule
without a marker outside of them is kept as written.  Any other comment makes a difference
in some rule in which it is the only one. -/
theorem only_inert_comments_keep_fates
    {text : Text}
    {sheet : Stylesheet}
    (parsed : Stylesheet.parse text = .ok sheet)
    {site : Site}
    (member : site ∈ sheet.sites) :
    ∃ bodies emptied, Comments .outside site.rule.selector bodies emptied ∧
      ((∀ body ∈ bodies, IsInert body) →
        ruleFate Selector.globalize site.rule =
            ruleFate Selector.globalize { site.rule with selector := emptied } ∧
          (¬HasMarker emptied →
            judgeRule Selector.globalize site.rule = .ok (.keep site.rule.selector))) ∧
      ∀ body ∈ bodies, ¬IsInert body →
        ∃ text sheet, Stylesheet.parse text = .ok sheet ∧ ∃ site ∈ sheet.sites, ∃ emptied,
          Comments .outside site.rule.selector [body] emptied ∧
            ruleFate Selector.globalize site.rule ≠
              ruleFate Selector.globalize { site.rule with selector := emptied } := by
  obtain ⟨bodies, emptied, comments⟩ := exists_comments_of_parse parsed site member
  refine ⟨bodies, emptied, comments, fun inert => ?_, fun body isOne telling => ?_⟩
  · have same : ruleFate Selector.globalize site.rule =
        ruleFate Selector.globalize { site.rule with selector := emptied } :=
      comments.ruleFate_eq (fun _ => globalize_keeps_slash) inert
    refine ⟨same, fun unmarked => ?_⟩
    have untouched : ruleFate Selector.globalize { site.rule with selector := emptied } =
        .untouched := ruleFate_eq_untouched_iff.mpr unmarked
    exact judgeRule_of_not_hasMarker _ (ruleFate_eq_untouched_iff.mp (same.trans untouched))
  · obtain ⟨before, after, surrounds, tells⟩ := exists_tells telling
    have isBody := comments.isCommentBody_of_mem body isOne
    obtain ⟨text, sheet, parsed, site, member, isSelector⟩ := surrounds.exists_site isBody
    refine ⟨text, sheet, parsed, site, member, before ++ (commented [] ++ after), ?_, ?_⟩
    · rw [isSelector]
      exact surrounds.comments isBody
    · exact tells _ site.rule isSelector

/-- A rule with a comment between an `a` and a text. -/
def commentRule (body after : Text) : Rule :=
  ⟨[], ['a'] ++ (commented body ++ after), " ", [], [], ⟨⟨0, 0⟩, 0⟩⟩

/-- The stylesheet of such a rule. -/
def commentSheet (body after : Text) : Stylesheet where
  nodes := [.rule [] (commentRule body after).selector " " [] [] ⟨⟨0, 0⟩, 0⟩]
  after := []

theorem comments_commentRule
    {body after : Text}
    (isBody : IsCommentBody body)
    (sober : IsSoberText after) :
    Comments .outside (commentRule body after).selector [body] (commentRule [] after).selector :=
  Comments.append_left (by decide) (.comment isBody (.of_sober sober))

theorem ruleFate_commentRule :
    Stylesheet.parse "a/* b */ :global c \x7b\x7d" =
        .ok (commentSheet " b " " :global c") ∧
      ⟨[0], commentRule " b " " :global c"⟩ ∈ (commentSheet " b " " :global c").sites ∧
      ruleFate Selector.globalize (commentRule " b " " :global c") =
        ruleFate Selector.globalize (commentRule [] " :global c") := by
  have parsed : Stylesheet.parse "a/* b */ :global c \x7b\x7d" =
      .ok (commentSheet " b " " :global c") := by
    with_unfolding_all rfl
  have member : ⟨[0], commentRule " b " " :global c"⟩ ∈
      (commentSheet " b " " :global c").sites := List.mem_cons_self
  have inert : ∀ body ∈ [(" b " : Text)], IsInert body := by
    intro body isBody
    rw [List.mem_singleton.mp isBody]
    exact isInert_of_calm (by decide)
  have comments : Comments .outside (commentRule " b " " :global c").selector [" b "]
      (commentRule [] " :global c").selector :=
    comments_commentRule (by decide) (by decide)
  obtain ⟨bodies, emptied, others, keeps, -⟩ := only_inert_comments_keep_fates parsed member
  obtain ⟨rfl, rfl⟩ := comments.unique others
  exact ⟨parsed, member, (keeps inert).1⟩

/-- A marker in a comment is taken for one, so that a rule with no other one is rewritten. -/
theorem not_always_untouched :
    ¬∀ context content sheet, Stylesheet.parse content = .ok sheet →
      (∀ site ∈ sheet.sites, ∃ bodies emptied,
        Comments .outside site.rule.selector bodies emptied ∧ ¬HasMarker emptied) →
      ∃ result, removeGlobalMarkers Selector.globalize context content = .ok result ∧
        result.code = content := by
  intro staysUntouched
  have parsed : Stylesheet.parse "a/* :global */ b \x7b\x7d" =
      .ok (commentSheet " :global " " b") := by
    with_unfolding_all rfl
  have unmarked : ∀ site ∈ (commentSheet " :global " " b").sites, ∃ bodies emptied,
      Comments .outside site.rule.selector bodies emptied ∧ ¬HasMarker emptied := by
    intro site member
    rw [List.mem_singleton.mp member]
    exact ⟨_, _, comments_commentRule (by decide) (by decide), by decide +kernel⟩
  have written : removeGlobalMarkers Selector.globalize sampleContext
      "a/* :global */ b \x7b\x7d" = .ok (.ofCode "a/* :global(*/) :global(b) \x7b\x7d") := by
    decide +kernel
  obtain ⟨result, answer, same⟩ := staysUntouched sampleContext _ _ parsed unmarked
  cases written.symm.trans answer
  exact absurd same (by decide)

end Css
end ComponentPipeline
