import ComponentPipeline.Proofs.Css.Edit
import ComponentPipeline.Proofs.Selector.BareMarker
import ComponentPipeline.Transformer.GlobalRule
import Mathlib.Tactic.Common

/-!
# What removing markers does to rules

Removing global markers edits a stylesheet.  A rule goes exactly if one of its
selectors has a bare marker and nothing is left of any of them.  A rule without
a marked selector keeps its selector list as written.  Any other rule gets the
list of the selectors that are left, in their order.
-/

namespace ComponentPipeline
namespace Css

/-! ## One selector -/

/-- Nothing is left of a selector: it is the marker itself, or the text before
the first marker and the neutralized texts after the markers are blank. -/
def Lost (neutralize : Text → Text) (selector : Text) : Prop :=
  Selector.HasMarker selector ∧
    (selector = Selector.marker ∨
      ∃ beginning rest,
        Selector.splitOnMarker selector = .segments beginning rest ∧
        Text.trim beginning = [] ∧
        ∀ segment ∈ rest, Text.trim (neutralize segment) = [])

/-- Joining texts that are not empty gives an empty text only without any. -/
theorem intercalate_eq_nil_iff
    {separator : Text}
    {texts : List Text}
    (nonempty : ∀ text ∈ texts, text ≠ []) :
    List.intercalate separator texts = [] ↔ texts = [] := by
  constructor
  · intro joined
    cases texts with
    | nil => rfl
    | cons first rest =>
        have firstNonempty : first ≠ [] := nonempty first (by simp)
        cases rest with
        | nil =>
            rw [List.intercalate_singleton] at joined
            exact absurd joined firstNonempty
        | cons second rest =>
            rw [List.intercalate_cons_cons, List.append_eq_nil_iff,
              List.append_eq_nil_iff] at joined
            exact absurd joined.1.1 firstNonempty
  · intro none
    rw [none]
    rfl

theorem joinSegments_eq_nil_iff
    {neutralize : Text → Text}
    {beginning : Text}
    {rest : List Text} :
    joinSegments neutralize beginning rest = [] ↔
      Text.trim beginning = [] ∧
        ∀ segment ∈ rest, Text.trim (neutralize segment) = [] := by
  unfold joinSegments
  rw [intercalate_eq_nil_iff (by simp)]
  simp

/-- What the fate of a selector says about it. -/
def SelectorFate.Holds
    (neutralize : Text → Text)
    (selector : Text) :
    SelectorFate → Prop
  | .unmarked => ¬Selector.HasMarker selector
  | .dropped => Lost neutralize selector
  | .replaced joined =>
      Selector.HasMarker selector ∧ ¬Lost neutralize selector ∧
        ∃ beginning rest,
          Selector.splitOnMarker selector = .segments beginning rest ∧
          joined = joinSegments neutralize beginning rest

theorem holds_of_selectorFate
    {neutralize : Text → Text}
    {selector : Text}
    {fate : SelectorFate}
    (judged : selectorFate neutralize selector = .ok fate) :
    fate.Holds neutralize selector := by
  unfold selectorFate at judged
  split at judged
  · cases judged
  · rename_i beginning split
    cases judged
    have unmarked := Selector.hasMarker_iff_of_splitOnMarker split
    simpa [SelectorFate.Holds] using unmarked
  · rename_i beginning segment rest split
    have marked : Selector.HasMarker selector :=
      (Selector.hasMarker_iff_of_splitOnMarker split).mpr (by simp)
    split at judged
    · rename_i markerItself
      cases judged
      exact ⟨marked, .inl markerItself⟩
    · rename_i notMarker
      have empty : joinSegments neutralize beginning (segment :: rest) = [] ↔ _ :=
        joinSegments_eq_nil_iff
      cases joined : joinSegments neutralize beginning (segment :: rest) with
      | nil =>
          rw [joined] at judged
          cases judged
          exact ⟨marked, .inr ⟨beginning, segment :: rest, split, empty.mp joined⟩⟩
      | cons char joinedRest =>
          rw [joined] at judged
          cases judged
          refine ⟨marked, ?_, beginning, segment :: rest, split, joined.symm⟩
          rintro ⟨-, markerItself | ⟨beginning', rest', split', blank⟩⟩
          · exact notMarker markerItself
          · rw [split] at split'
            cases split'
            rw [empty.mpr blank] at joined
            cases joined

/-! ## A list of selectors -/

/-- One list of selectors is what is left of another one: unmarked selectors
as they are, and of a marked one that is not lost the text that its segments
join to. -/
inductive Survive (neutralize : Text → Text) : List Text → List Text → Prop
  | nil : Survive neutralize [] []
  | unmarked {selector rest kept}
      (plain : ¬Selector.HasMarker selector)
      (others : Survive neutralize rest kept) :
      Survive neutralize (selector :: rest) (selector :: kept)
  | lost {selector rest kept}
      (gone : Lost neutralize selector)
      (others : Survive neutralize rest kept) :
      Survive neutralize (selector :: rest) kept
  | replaced {selector beginning segments rest kept}
      (marked : Selector.HasMarker selector)
      (stays : ¬Lost neutralize selector)
      (split : Selector.splitOnMarker selector = .segments beginning segments)
      (others : Survive neutralize rest kept) :
      Survive neutralize (selector :: rest)
        (joinSegments neutralize beginning segments :: kept)

theorem Survive.eq_nil_iff
    {neutralize : Text → Text}
    {selectors kept : List Text}
    (survive : Survive neutralize selectors kept) :
    kept = [] ↔ ∀ selector ∈ selectors, Lost neutralize selector := by
  induction survive with
  | nil => simp
  | unmarked plain _ _ =>
      simp only [reduceCtorEq, List.mem_cons, forall_eq_or_imp, false_iff, not_and]
      exact fun gone => absurd gone.1 plain
  | lost gone _ ih => simp [ih, gone]
  | replaced _ stays _ _ _ => simp [stays]

/-- The fates of a list are those of its selectors. -/
theorem survive_of_selectorFates
    {neutralize : Text → Text}
    {selectors : List Text}
    {fates : List (Text × SelectorFate)}
    (judged : selectorFates neutralize selectors = .ok fates) :
    Survive neutralize selectors (survivors fates) ∧
      ((fates.all fun (_, fate) => fate == .unmarked) = true ↔
        ∀ selector ∈ selectors, ¬Selector.HasMarker selector) := by
  induction selectors generalizing fates with
  | nil =>
      cases judged
      exact ⟨.nil, by simp⟩
  | cons selector rest ih =>
      simp only [selectorFates, bind, Except.bind] at judged
      split at judged
      · cases judged
      · rename_i fate first
        split at judged
        · cases judged
        · rename_i others later
          cases judged
          obtain ⟨survive, plain⟩ := ih later
          have holds := holds_of_selectorFate first
          cases fate with
          | unmarked =>
              refine ⟨.unmarked holds survive, ?_⟩
              have unmarked : ¬Selector.HasMarker selector := holds
              simpa [unmarked] using plain
          | dropped =>
              refine ⟨.lost holds survive, ?_⟩
              have marked : Selector.HasMarker selector := holds.1
              simp [marked]
          | replaced joined =>
              obtain ⟨marked, stays, beginning, segments, split, rfl⟩ := holds
              refine ⟨.replaced marked stays split survive, ?_⟩
              simp [marked]

/-! ## Rules -/

/-- A rule with this selector list goes: a selector is marked, and nothing is
left of any selector. -/
def ListGoes (neutralize : Text → Text) (list : Text) : Prop :=
  (∃ selector ∈ selectorsOf list, Selector.HasMarker selector) ∧
    ∀ selector ∈ selectorsOf list, Lost neutralize selector

/-- The selector list of a rule that stays: the list as written if no selector
is marked, else what is left of its selectors, joined as the list was. -/
def ListBecomes (neutralize : Text → Text) (list list' : Text) : Prop :=
  ((∀ selector ∈ selectorsOf list, ¬Selector.HasMarker selector) → list' = list) ∧
    ((∃ selector ∈ selectorsOf list, Selector.HasMarker selector) →
      ∃ kept, kept ≠ [] ∧ Survive neutralize (selectorsOf list) kept ∧
        list' = List.intercalate ((separator? list).getD [',', ' ']) kept)

theorem follows_of_judgeRule
    {neutralize : Text → Text}
    {rule : Rule}
    {verdict : Verdict}
    (judged : judgeRule neutralize rule = .ok verdict) :
    verdict.Follows (ListGoes neutralize) (ListBecomes neutralize) rule.selector := by
  unfold judgeRule at judged
  simp only [bind, Except.bind] at judged
  split at judged
  · cases judged
  · rename_i fates listed
    obtain ⟨survive, plain⟩ := survive_of_selectorFates listed
    split at judged
    · rename_i allPlain
      cases judged
      have unmarked := plain.mp allPlain
      refine ⟨?_, fun _ => rfl, ?_⟩
      · rintro ⟨⟨selector, member, marked⟩, -⟩
        exact unmarked selector member marked
      · rintro ⟨selector, member, marked⟩
        exact absurd marked (unmarked selector member)
    · rename_i somePlain
      have someMarked : ∃ selector ∈ selectorsOf rule.selector,
          Selector.HasMarker selector := by
        by_contra none
        exact somePlain (plain.mpr fun selector member marked =>
          none ⟨selector, member, marked⟩)
      split at judged
      · rename_i noneLeft
        cases judged
        exact ⟨someMarked, survive.eq_nil_iff.mp noneLeft⟩
      · rename_i someLeft
        cases judged
        refine ⟨?_, ?_, fun _ => ⟨_, someLeft, survive, rfl⟩⟩
        · rintro ⟨-, gone⟩
          exact someLeft (survive.eq_nil_iff.mpr gone)
        · intro unmarked
          obtain ⟨selector, member, marked⟩ := someMarked
          exact absurd marked (unmarked selector member)

/-! ## Stylesheets -/

/-- Removing markers from a stylesheet edits it. -/
theorem edited_of_globalize
    {neutralize : Text → Text}
    {sheet sheet' : Stylesheet}
    (globalized : sheet.globalize neutralize = .ok sheet') :
    Edited (ListGoes neutralize) (ListBecomes neutralize) sheet.nodes sheet'.nodes ∧
      sheet'.after = sheet.after := by
  unfold Stylesheet.globalize Stylesheet.retainRules at globalized
  split at globalized
  · cases globalized
  · rename_i walked state answer
    cases globalized
    simp only [Prod.mk.injEq] at answer
    obtain ⟨rfl, succeeded, -⟩ := answer
    refine ⟨edited_of_retainNodes ?_ sheet.nodes () succeeded, rfl⟩
    intro rule state verdict judged
    exact follows_of_judgeRule judged

/-- The stage prints what removing the markers leaves of the stylesheet that it
read. -/
theorem exists_globalized_of_removeGlobalMarkers
    {neutralize : Text → Text}
    {context : Context}
    {content : Text}
    {sheet : Stylesheet}
    {result : Result}
    (mentioned : Text.contains Selector.marker content = true)
    (parsed : Stylesheet.parse content = .ok sheet)
    (succeeded : removeGlobalMarkers neutralize context content = .ok result) :
    ∃ globalized, sheet.globalize neutralize = .ok globalized ∧
      result.code = globalized.print := by
  unfold removeGlobalMarkers at succeeded
  rw [if_pos mentioned, parsed] at succeeded
  simp only at succeeded
  split at succeeded
  · cases succeeded
  · rename_i globalized isGlobalized
    cases succeeded
    exact ⟨globalized, isGlobalized, rfl⟩

/-- The stage that removes global markers prints the stylesheet that it read
after an edit that deletes and renames only rules with a marked selector. -/
theorem removeGlobalMarkers_edits_marked_rules
    {neutralize : Text → Text}
    {context : Context}
    {content : Text}
    {sheet : Stylesheet}
    {result : Result}
    (mentioned : Text.contains Selector.marker content = true)
    (parsed : Stylesheet.parse content = .ok sheet)
    (succeeded : removeGlobalMarkers neutralize context content = .ok result) :
    ∃ nodes,
      Edited (ListGoes neutralize) (ListBecomes neutralize) sheet.nodes nodes ∧
        result.code = (Stylesheet.mk nodes sheet.after).print := by
  obtain ⟨sheet', globalized, printed⟩ :=
    exists_globalized_of_removeGlobalMarkers mentioned parsed succeeded
  obtain ⟨edited, sameAfter⟩ := edited_of_globalize globalized
  refine ⟨sheet'.nodes, edited, ?_⟩
  rw [← sameAfter]
  exact printed

/-- A rule that is only the marker, and a rule in a block with one marked and
one unmarked selector. -/
def markedSample : Text :=
  ":global\x7b\x7d @m\x7ba :global b,c \x7bd\x7d\x7d"

/-- The tree of the sample. -/
def markedSampleSheet : Stylesheet where
  nodes := [
    .rule [] ":global" [] [] [] ⟨⟨0, 0⟩, 0⟩,
    .atBlock " " "@m" []
      [.rule [] "a :global b,c" " "
        [.declaration [] "d" [] ⟨⟨0, 28⟩, 28⟩]
        [] ⟨⟨0, 13⟩, 13⟩]
      [] ⟨⟨0, 10⟩, 10⟩]
  after := []

/-- A context for stages that look at nothing of it. -/
def sampleContext : Context :=
  ⟨"css", "/app/App.svelte", [], [], false, "/app"⟩

theorem removeGlobalMarkers_edits_markedSample :
    Text.contains Selector.marker markedSample = true ∧
      Stylesheet.parse markedSample = .ok markedSampleSheet ∧
      removeGlobalMarkers Selector.globalize sampleContext markedSample =
        .ok (.ofCode " @m\x7ba :global(b),c \x7bd\x7d\x7d") ∧
      ∃ nodes,
        Edited (ListGoes Selector.globalize) (ListBecomes Selector.globalize)
            markedSampleSheet.nodes nodes ∧
          (" @m\x7ba :global(b),c \x7bd\x7d\x7d" : Text) =
            (Stylesheet.mk nodes markedSampleSheet.after).print := by
  have mentioned : Text.contains Selector.marker markedSample = true := by decide +kernel
  have parsed : Stylesheet.parse markedSample = .ok markedSampleSheet := by
    with_unfolding_all rfl
  have succeeded :
      removeGlobalMarkers Selector.globalize sampleContext markedSample =
        .ok (.ofCode " @m\x7ba :global(b),c \x7bd\x7d\x7d") := by decide +kernel
  exact ⟨mentioned, parsed, succeeded,
    removeGlobalMarkers_edits_marked_rules mentioned parsed succeeded⟩

end Css
end ComponentPipeline
