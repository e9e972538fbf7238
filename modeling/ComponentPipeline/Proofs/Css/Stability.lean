import ComponentPipeline.Proofs.Css.CleanSelectors
import ComponentPipeline.Proofs.Css.ListMarkers
import ComponentPipeline.Proofs.Css.ReadAgain

/-!
# Removing markers twice

Removing markers from a stylesheet gives a text that is left as it is when
markers are removed from it again, provided that no part of a marked selector
leaves a string, an escape, a comment, a parenthesis or a bracket open, and
that the same holds of what local compounds are unwrapped to.  The text can be
read, since the new selector lists open blocks as the old ones did, and none of
its rules is marked, since the new lists have no marker in them.
-/

namespace ComponentPipeline
namespace Css

open Selector (HasMarker Separates)

/-! ## New selector lists open blocks -/

theorem separates_of_isGap {char : Char} (inGap : isGap char = true) : Separates char := by
  rcases Bool.or_eq_true_iff.mp inGap with narrow | semicolon
  · exact Selector.separates_of_isBlank (Text.isBlank_of_isAsciiBlank narrow)
  · rw [beq_iff_eq.mp semicolon]
    exact ⟨by decide, by decide +kernel, by decide⟩

/-- The head that is read from a text has no marker that the text has not. -/
theorem not_hasMarker_head
    {raw : Text}
    (unmarked : ¬HasMarker raw) :
    ¬HasMarker (Text.trimEnd (raw.dropWhile isGap)) := by
  have separates : ∀ char ∈ raw.takeWhile isGap, Separates char := fun char member =>
    separates_of_isGap (isGap_takeWhile raw char member)
  rw [← List.takeWhile_append_dropWhile (p := isGap) (l := raw),
    Selector.hasMarker_append_iff_of_separates separates] at unmarked
  intro marked
  apply unmarked
  have blank := Text.isBlankText_drop_trimEnd (raw.dropWhile isGap)
  have parts := Text.trimEnd_append_drop (raw.dropWhile isGap)
  rw [← parts]
  exact (Selector.hasMarkerFrom_append_iff_of_isBlankText blank).mpr marked

theorem clean_of_isBlankText
    {text : Text}
    (blank : Text.isBlankText text = true) :
    Clean text := by
  cases text with
  | nil => exact clean_nil
  | cons char rest =>
      have joints : ∀ other ∈ char :: rest, Joint other := fun other member =>
        joint_of_isBlank (List.all_eq_true.mp blank other member)
      have clean := clean_nil.append_joints joints (List.cons_ne_nil _ _) clean_nil
      simpa using clean

theorem Clean.append_blanks
    {text between : Text}
    (clean : Clean text)
    (blank : Text.isBlankText between = true) :
    Clean (text ++ between) := by
  cases between with
  | nil => simpa using clean
  | cons char rest =>
      have both := Bool.and_eq_true_iff.mp blank
      exact clean.append (joint_of_isBlank both.1) (clean_of_isBlankText both.2)

theorem trim_of_mem_selectorsOf
    {list selector : Text}
    (member : selector ∈ selectorsOf list) :
    Text.trim selector = selector := by
  obtain ⟨piece, -, rfl⟩ := List.mem_map.mp member
  exact Text.trim_trim piece

/-- A list whose selectors leave nothing open if one of them is marked. -/
def ClosedList (list : Text) : Prop :=
  HasMarker list → ∀ selector ∈ selectorsOf list, ClosedParts selector

/-- What becomes of the list of a rule opens a block of a rule without markers. -/
theorem renamesOpen_of_closedList
    {list : Text}
    (closed : ClosedList list) :
    RenamesOpen (fun head => ¬HasMarker head) (ListBecomes Selector.globalize) list := by
  intro list' between ⟨plain, edited⟩ stated blank
  by_cases marked : HasMarker list
  · obtain ⟨kept, -, survive, rfl⟩ := edited (hasMarker_iff_of_selectorsOf.mp marked)
    obtain ⟨notEmpty, joints⟩ := joint_of_mem_separator list
    have cleanKept := clean_of_survive survive
      (fun selector member => trim_of_mem_selectorsOf member) (closed marked)
    have clean := (clean_intercalate joints notEmpty cleanKept).append_blanks blank
    exact ⟨⟨.initial, clean.closed.taken, rfl⟩, clean.noComment,
      .inr (not_hasMarker_head clean.unmarked)⟩
  · have same : list' = list := plain fun selector member markedHere =>
      marked (hasMarker_iff_of_selectorsOf.mpr ⟨selector, member, markedHere⟩)
    subst same
    refine ⟨stated.takes, ?_, .inr (not_hasMarker_head ?_)⟩
    · rw [stated.dropWhile_isGap]
      exact stated.noComment
    · rw [HasMarker, Selector.hasMarkerFrom_append_iff_of_isBlankText blank]
      exact marked

/-! ## A stylesheet without markers stays as it is -/

theorem judgeRule_of_not_hasMarker
    {rule : Rule}
    (neutralize : Text → Text)
    (unmarked : ¬HasMarker rule.selector) :
    judgeRule neutralize rule = .ok (.keep rule.selector) := by
  have noneMarked : ∀ selector ∈ rule.selectors, ¬HasMarker selector := by
    intro selector member marked
    exact unmarked (hasMarker_iff_of_selectorsOf.mpr ⟨selector, member, marked⟩)
  have fates : selectorFates neutralize rule.selectors =
      .ok (rule.selectors.map fun selector => (selector, SelectorFate.unmarked)) := by
    generalize rule.selectors = selectors at noneMarked
    induction selectors with
    | nil => rfl
    | cons selector rest ih =>
        have split : Selector.splitOnMarker selector = .segments selector [] :=
          Selector.splitFrom_of_not_hasMarkerFrom (noneMarked selector List.mem_cons_self)
        have first : selectorFate neutralize selector = .ok .unmarked := by
          rw [selectorFate, split]
        have others := ih fun other member => noneMarked other (List.mem_cons_of_mem _ member)
        simp only [selectorFates, first, others, bind, Except.bind]
        rfl
  rw [judgeRule, fates]
  simp [bind, Except.bind, pure, Except.pure]

mutual

theorem retainNode_of_unmarked (neutralize : Text → Text) :
    ∀ node : Node, RulesHave (fun selector => ¬HasMarker selector) [node] →
      retainNode (globalVisitor neutralize) node () = ⟨[node], none, ()⟩
  | .rule before selector between nodes after start, unmarked => by
      obtain ⟨here, inside⟩ := rulesHave_rule_iff.mp unmarked
      rw [retainNode, globalVisitor, judgeRule_of_not_hasMarker neutralize here]
      simp only [retainNodes_of_unmarked neutralize nodes inside]
  | .atBlock before head between nodes after start, unmarked => by
      rw [retainNode]
      simp only [retainNodes_of_unmarked neutralize nodes (rulesHave_atBlock_iff.mp unmarked)]
  | .atStatement before head between start, _ => rfl
  | .declaration before text between start, _ => rfl
  | .comment before text start, _ => rfl

/-- A walk keeps rules without markers. -/
theorem retainNodes_of_unmarked (neutralize : Text → Text) :
    ∀ nodes : List Node, RulesHave (fun selector => ¬HasMarker selector) nodes →
      retainNodes (globalVisitor neutralize) nodes () = ⟨nodes, none, ()⟩
  | [], _ => rfl
  | node :: rest, unmarked => by
      obtain ⟨here, others⟩ := rulesHave_cons_iff.mp unmarked
      rw [retainNodes]
      simp only [retainNode_of_unmarked neutralize node here,
        retainNodes_of_unmarked neutralize rest others]
      rfl

end

/-- A stylesheet without marked rules stays as it is. -/
theorem globalize_of_unmarked
    {sheet : Stylesheet}
    (unmarked : RulesHave (fun selector => ¬HasMarker selector) sheet.nodes)
    (neutralize : Text → Text) :
    sheet.globalize neutralize = .ok sheet := by
  unfold Stylesheet.globalize Stylesheet.retainRules
  rw [retainNodes_of_unmarked neutralize sheet.nodes unmarked]

/-- The stage gives back a text whose tree has no marked rules. -/
theorem removeGlobalMarkers_eq_of_unmarked
    {text : Text}
    {sheet : Stylesheet}
    (parsed : Stylesheet.parse text = .ok sheet)
    (unmarked : RulesHave (fun selector => ¬HasMarker selector) sheet.nodes)
    (neutralize : Text → Text)
    (context : Context) :
    ∃ map, removeGlobalMarkers neutralize context text = .ok ⟨text, map, []⟩ ∧
      ∀ given, map = some given →
        context.sourceMap = true ∧
          given = sheet.sourceMap context.filename text context.projectRoot := by
  have printed : sheet.print = text :=
    (ReaderState.print_of_run parsed).trans (ReaderState.wholeText_initial text)
  unfold removeGlobalMarkers
  split
  · rw [parsed]
    simp only [globalize_of_unmarked unmarked neutralize, printed]
    refine ⟨_, rfl, fun given isGiven => ?_⟩
    split at isGiven
    · rename_i asked
      exact ⟨asked, (Option.some.inj isGiven).symm⟩
    · cases isGiven
  · exact ⟨none, rfl, fun given isGiven => by cases isGiven⟩

theorem removeGlobalMarkers_of_unmarked
    {text : Text}
    {sheet : Stylesheet}
    (parsed : Stylesheet.parse text = .ok sheet)
    (unmarked : RulesHave (fun selector => ¬HasMarker selector) sheet.nodes)
    (neutralize : Text → Text)
    (context : Context) :
    ∃ result, removeGlobalMarkers neutralize context text = .ok result ∧
      result.code = text := by
  obtain ⟨map, given, -⟩ := removeGlobalMarkers_eq_of_unmarked parsed unmarked neutralize context
  exact ⟨_, given, rfl⟩

/-! ## Twice is once -/

/-- Removing markers a second time changes nothing if the parts of the marked
selector lists leave nothing open. -/
theorem removeGlobalMarkers_again
    {context : Context}
    {content : Text}
    {result : Result}
    (closed : ∀ sheet, Stylesheet.parse content = .ok sheet →
      RulesHave ClosedList sheet.nodes)
    (succeeded : removeGlobalMarkers Selector.globalize context content = .ok result) :
    ∃ again, removeGlobalMarkers Selector.globalize context result.code = .ok again ∧
      again.code = result.code := by
  by_cases mentioned : Text.contains Selector.marker content = true
  · cases parsed : Stylesheet.parse content with
    | error error =>
        rw [removeGlobalMarkers, if_pos mentioned, parsed] at succeeded
        cases succeeded
    | ok sheet =>
        obtain ⟨globalized, isGlobalized, printed⟩ :=
          exists_globalized_of_removeGlobalMarkers mentioned parsed succeeded
        obtain ⟨edited, sameAfter⟩ := edited_of_globalize isGlobalized
        have opens : RulesHave
            (RenamesOpen (fun head => ¬HasMarker head) (ListBecomes Selector.globalize))
            sheet.nodes := fun node member selector isList =>
          renamesOpen_of_closedList (closed sheet parsed node member selector isList)
        obtain ⟨again, parsedAgain, unmarked⟩ := exists_parse_of_edited parsed edited opens
        rw [← sameAfter] at parsedAgain
        rw [printed]
        exact removeGlobalMarkers_of_unmarked parsedAgain unmarked _ context
  · have unchanged := succeeded
    rw [removeGlobalMarkers, if_neg mentioned] at unchanged
    cases unchanged
    exact ⟨_, succeeded, rfl⟩

theorem removeGlobalMarkers_again_markedSample :
    (∀ sheet, Stylesheet.parse markedSample = .ok sheet → RulesHave ClosedList sheet.nodes) ∧
      removeGlobalMarkers Selector.globalize sampleContext markedSample =
        .ok (.ofCode " @m\x7ba :global(b),c \x7bd\x7d\x7d") ∧
      ∃ again,
        removeGlobalMarkers Selector.globalize sampleContext
            " @m\x7ba :global(b),c \x7bd\x7d\x7d" = .ok again ∧
          again.code = " @m\x7ba :global(b),c \x7bd\x7d\x7d" := by
  have parsed : Stylesheet.parse markedSample = .ok markedSampleSheet := by
    with_unfolding_all rfl
  have closed : ∀ sheet, Stylesheet.parse markedSample = .ok sheet →
      RulesHave ClosedList sheet.nodes := by
    intro sheet same
    cases parsed.symm.trans same
    refine rulesHave_cons_iff.mpr ⟨rulesHave_rule_iff.mpr ⟨?_, rulesHave_nil⟩,
      rulesHave_atBlock_iff.mpr (rulesHave_rule_iff.mpr
        ⟨?_, rulesHave_statementNode [] "d" [] ⟨⟨0, 28⟩, 28⟩⟩)⟩
    · exact fun _ => by decide +kernel
    · exact fun _ => by decide +kernel
  have succeeded :
      removeGlobalMarkers Selector.globalize sampleContext markedSample =
        .ok (.ofCode " @m\x7ba :global(b),c \x7bd\x7d\x7d") := by decide +kernel
  exact ⟨closed, succeeded, removeGlobalMarkers_again closed succeeded⟩

/-- A marked selector with an escaped blank at its end. -/
def escapedSample : Text := ":global a\\ \x7b\x7d"

/-- What removing its marker gives; the backslash now escapes the parenthesis. -/
def escapedOutput : Text := ":global(a\\) \x7b\x7d"

theorem removeGlobalMarkers_escapedSample :
    removeGlobalMarkers Selector.globalize sampleContext escapedSample =
      .ok (.ofCode escapedOutput) := by
  decide +kernel

theorem removeGlobalMarkers_escapedOutput :
    removeGlobalMarkers Selector.globalize sampleContext escapedOutput =
      .error (.unreadable ⟨.unexpectedBrace, ⟨⟨0, 13⟩, 13⟩⟩) := by
  have mentioned : Text.contains Selector.marker escapedOutput = true := by decide +kernel
  have fails : Stylesheet.parse escapedOutput =
      .error ⟨.unexpectedBrace, ⟨⟨0, 13⟩, 13⟩⟩ := by
    with_unfolding_all rfl
  rw [removeGlobalMarkers, if_pos mentioned, fails]

/-- Removing markers from its own output does not always give that output
back: a blank that is escaped at the end of a selector is trimmed off. -/
theorem removeGlobalMarkers_not_idempotent :
    ¬∀ (context : Context) (content : Text) (result : Result),
      removeGlobalMarkers Selector.globalize context content = .ok result →
        ∃ again, removeGlobalMarkers Selector.globalize context result.code = .ok again ∧
          again.code = result.code := by
  intro idempotent
  obtain ⟨again, second, -⟩ := idempotent sampleContext _ _ removeGlobalMarkers_escapedSample
  cases removeGlobalMarkers_escapedOutput.symm.trans second

end Css
end ComponentPipeline
