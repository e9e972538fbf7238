import ComponentPipeline.Proofs.Css.GlobalizedRules
import ComponentPipeline.Proofs.Css.ListMarkers
import ComponentPipeline.Proofs.Css.Lossless
import ComponentPipeline.Proofs.Selector.NestedMarkers
import ComponentPipeline.Proofs.Text.Searching
import Mathlib.Data.List.Infix

/-!
# Rejected markers

The stage that removes global markers fails exactly if a selector of a rule that it
comes to has a nested marker.  A nested marker of a selector list need not be one of
a selector: brackets do not keep a list from being split, and what was opened before
a separator is not open behind it.
-/

namespace ComponentPipeline
namespace Css

open Selector (HasMarker HasMarkerWhere HasNestedMarker MarkerScan)

/-! ## Nested markers in selector lists -/

/-- Wherever a list is split, no parenthesis and no bracket is open. -/
def SplitsOutside (scan : ListScan) (markers : MarkerScan) (list : Text) : Prop :=
  ∀ before, before ++ [','] <+: list → (scan.over before).separatesAt ',' = true →
    (markers.over before).depth = 0

instance (scan : ListScan) (markers : MarkerScan) (list : Text) :
    Decidable (SplitsOutside scan markers list) :=
  decidable_of_iff
    (∀ before ∈ list.inits, before ++ [','] <+: list →
      (scan.over before).separatesAt ',' = true → (markers.over before).depth = 0)
    ⟨fun inits before leads =>
        inits before ((List.mem_inits _ _).mpr ((List.prefix_append _ _).trans leads)) leads,
      fun outside before _ => outside before⟩

/-- A separator changes nothing in the scan of a list. -/
theorem ListScan.step_of_separatesAt
    {scan : ListScan}
    {char : Char}
    (separates : scan.separatesAt char = true) :
    scan.step char = scan := by
  obtain ⟨depth, quote, escaped⟩ := scan
  obtain ⟨outside, rfl⟩ := quoting_of_separatesAt separates
  cases outside
  rfl

/-- The pieces of a list have the nested markers of the list, if the list is split
where nothing is open. -/
theorem hasNestedMarker_iff_of_listPieces
    {scan : ListScan}
    {markers : MarkerScan}
    (same : scan.quoting = markers.quoting)
    {text first : Text}
    {others : List Text}
    (outside : SplitsOutside scan markers text)
    (pieces : listPieces scan text = first :: others) :
    HasMarkerWhere MarkerScan.IsInside markers text ↔
      HasMarkerWhere MarkerScan.IsInside markers first ∨
        ∃ piece ∈ others, HasNestedMarker piece := by
  induction others generalizing scan markers text first with
  | nil =>
      obtain whole | ⟨piece, rest, -, -, split⟩ := listPieces_cases scan text
      · cases whole.symm.trans pieces
        simp
      · have none := (List.cons.inj (split.symm.trans pieces)).2
        exact absurd none (listPieces_ne_nil _ _)
  | cons second others ih =>
      obtain whole | ⟨piece, rest, rfl, separates, split⟩ := listPieces_cases scan text
      · cases whole.symm.trans pieces
      · obtain ⟨rfl, later⟩ := List.cons.inj (split.symm.trans pieces)
        have closed : (markers.over piece).depth = 0 :=
          outside piece ⟨rest, by simp⟩ separates
        have outsideHere : (markers.over piece).quoting = .outside := by
          rw [MarkerScan.quoting_over, ← same, ← ListScan.quoting_over]
          exact (ListScan.quoting_of_separatesAt separates).1
        have fresh : (markers.over piece).step ',' = .initial := by
          apply MarkerScan.eq_initial_of_mayMark (separates_comma.mayMark_step outsideHere)
          rw [MarkerScan.depth_step (by decide), closed]
        have outsideLater : SplitsOutside (scan.over piece) .initial rest := by
          intro before leads separatesLater
          have whole : piece ++ ',' :: before ++ [','] <+: piece ++ ',' :: rest := by
            simpa using leads
          have there := outside (piece ++ ',' :: before) whole
          rw [MarkerScan.over_append, MarkerScan.over_cons, fresh] at there
          apply there
          have later : scan.over (piece ++ ',' :: before) =
              ((scan.over piece).step ',').over before := List.foldl_append
          rw [later, ListScan.step_of_separatesAt separates]
          exact separatesLater
        have sameLater : (scan.over piece).quoting = MarkerScan.initial.quoting :=
          (ListScan.quoting_of_separatesAt separates).1
        have restIff := ih sameLater outsideLater later
        rw [Selector.hasMarkerWhere_append_iff separates_comma.foreign
          separates_comma.ends, fresh, restIff]
        simp [HasNestedMarker]

/-- A list that is split where nothing is open has a nested marker exactly if one of
its selectors has one. -/
theorem hasNestedMarker_iff_of_selectorsOf
    {list : Text}
    (outside : SplitsOutside .initial .initial list) :
    HasNestedMarker list ↔ ∃ selector ∈ selectorsOf list, HasNestedMarker selector := by
  obtain ⟨first, others, pieces⟩ :=
    List.exists_cons_of_ne_nil (listPieces_ne_nil .initial list)
  have same : ListScan.initial.quoting = MarkerScan.initial.quoting := rfl
  have parts := hasNestedMarker_iff_of_listPieces same outside pieces
  have notEmpty : ¬HasNestedMarker [] := fun nested =>
    Selector.not_hasMarkerFrom_nil _ nested.hasMarkerFrom
  rw [exists_mem_selectorsOf_iff notEmpty, pieces]
  simp only [Selector.hasNestedMarker_trim_iff, List.mem_cons, exists_eq_or_imp]
  exact parts

/-! ## The fate of a rule -/

section Rule

variable {neutralize : Text → Text}

/-- The failure at a selector with a nested marker. -/
def MalformedSelector.ofNested (selector : Text) : MalformedSelector :=
  ⟨selector, Selector.nestedMarkerReason⟩

theorem selectorFate_eq_error_iff {selector : Text} {failure : MalformedSelector} :
    selectorFate neutralize selector = .error failure ↔
      HasNestedMarker selector ∧ failure = .ofNested selector := by
  rw [← Selector.splitOnMarker_eq_nested_iff]
  unfold selectorFate
  split
  · rename_i split
    simp [split, MalformedSelector.ofNested, eq_comm]
  · rename_i split
    simp [split]
  · rename_i split
    rw [split]
    dsimp only
    split <;> simp

/-- A list of selectors fails with the failure of one of them. -/
theorem exists_nested_of_selectorFates
    {selectors : List Text}
    {failure : MalformedSelector}
    (failed : selectorFates neutralize selectors = .error failure) :
    ∃ selector ∈ selectors, HasNestedMarker selector ∧ failure = .ofNested selector := by
  induction selectors with
  | nil => cases failed
  | cons selector rest ih =>
      simp only [selectorFates, bind, Except.bind] at failed
      split at failed
      · rename_i first
        cases failed
        exact ⟨selector, List.mem_cons_self, selectorFate_eq_error_iff.mp first⟩
      · split at failed
        · rename_i later
          cases failed
          obtain ⟨other, member, nested⟩ := ih later
          exact ⟨other, List.mem_cons_of_mem _ member, nested⟩
        · cases failed

/-- A list of selectors that does not fail has no nested marker in any of them. -/
theorem not_nested_of_selectorFates
    {selectors : List Text}
    {fates : List (Text × SelectorFate)}
    (judged : selectorFates neutralize selectors = .ok fates) :
    ∀ selector ∈ selectors, ¬HasNestedMarker selector := by
  induction selectors generalizing fates with
  | nil => simp
  | cons selector rest ih =>
      simp only [selectorFates, bind, Except.bind] at judged
      split at judged
      · cases judged
      · rename_i fate first
        split at judged
        · cases judged
        · rename_i others later
          refine List.forall_mem_cons.mpr ⟨fun nested => ?_, ih later⟩
          rw [selectorFate_eq_error_iff.mpr ⟨nested, rfl⟩] at first
          cases first

theorem judgeRule_eq_error_iff {rule : Rule} {failure : MalformedSelector} :
    judgeRule neutralize rule = .error failure ↔
      selectorFates neutralize rule.selectors = .error failure := by
  unfold judgeRule
  simp only [bind, Except.bind]
  cases selectorFates neutralize rule.selectors with
  | error other => simp
  | ok fates =>
      dsimp only
      repeat' split
      all_goals simp [pure, Except.pure]

end Rule

/-! ## Walking to a rule -/

/-- A walk that deletes some rules with their blocks comes to a rule. -/
inductive Reached (deletes : Text → Prop) : Rule → List Node → Prop
  | here {before selector between nodes after start rest} :
      Reached deletes ⟨before, selector, between, nodes, after, start⟩
        (.rule before selector between nodes after start :: rest)
  | inRule {rule before selector between nodes after start rest}
      (stays : ¬deletes selector)
      (inside : Reached deletes rule nodes) :
      Reached deletes rule (.rule before selector between nodes after start :: rest)
  | inAtBlock {rule before head between nodes after start rest}
      (inside : Reached deletes rule nodes) :
      Reached deletes rule (.atBlock before head between nodes after start :: rest)
  | behind {rule node rest}
      (later : Reached deletes rule rest) :
      Reached deletes rule (node :: rest)

namespace Reached

variable {deletes : Text → Prop} {rule : Rule} {nodes : List Node}

theorem append (reached : Reached deletes rule nodes) (rest : List Node) :
    Reached deletes rule (nodes ++ rest) := by
  induction reached with
  | here => exact .here
  | inRule stays inside _ => exact .inRule stays inside
  | inAtBlock inside _ => exact .inAtBlock inside
  | behind _ ih => exact .behind ih

/-- The selector list of a rule stands in the text that the nodes print. -/
theorem selector_within_printNodes (reached : Reached deletes rule nodes) :
    rule.selector <:+: printNodes nodes := by
  induction reached with
  | @here before selector between nodes after start rest =>
      refine ⟨before, between ++ '{' :: (printNodes nodes ++ after ++ '}' :: printNodes rest), ?_⟩
      rw [printNodes_cons]
      simp [Node.pieces, printNodes]
  | @inRule rule before selector between nodes after start rest stays inside ih =>
      refine ih.trans ⟨before ++ selector ++ between ++ ['{'], after ++ '}' :: printNodes rest, ?_⟩
      rw [printNodes_cons]
      simp [Node.pieces, printNodes]
  | @inAtBlock rule before head between nodes after start rest inside ih =>
      refine ih.trans ⟨before ++ head ++ between ++ ['{'], after ++ '}' :: printNodes rest, ?_⟩
      rw [printNodes_cons]
      simp [Node.pieces, printNodes]
  | @behind rule node rest later ih =>
      exact ih.trans ⟨Piece.textOf node.pieces, [], by simp⟩

end Reached

section Walk

variable {ε σ : Type} {visit : Visitor ε σ} {deletes : Text → Prop}

theorem failure_retainNodes_cons_eq_none_iff {node : Node} {rest : List Node} {state : σ} :
    (retainNodes visit (node :: rest) state).failure = none ↔
      (retainNode visit node state).failure = none ∧
        (retainNodes visit rest (retainNode visit node state).state).failure = none := by
  simp only [retainNodes]
  cases (retainNode visit node state).failure <;> simp

mutual

/-- A walk over one node fails at a rule that it comes to. -/
theorem exists_reached_of_failure_node
    (keeps : ∀ rule state selector,
      (visit rule state).1 = .ok (.keep selector) → ¬deletes rule.selector)
    {failure : ε} :
    ∀ (node : Node) (state : σ),
      (retainNode visit node state).failure = some failure →
        ∃ rule, Reached deletes rule [node] ∧
          ∃ state, (visit rule state).1 = .error failure
  | .rule before selector between nodes after start, state => by
      intro failed
      have stays := keeps ⟨before, selector, between, nodes, after, start⟩ state
      simp only [retainNode] at failed
      split at failed
      · rename_i answer
        cases failed
        exact ⟨_, .here, state, by rw [answer]⟩
      · cases failed
      · rename_i kept later answer
        rw [answer] at stays
        obtain ⟨rule, inside, rejected⟩ := exists_reached_of_failure keeps nodes later failed
        exact ⟨rule, .inRule (stays kept rfl) inside, rejected⟩
  | .atBlock before head between nodes after start, state => by
      intro failed
      simp only [retainNode] at failed
      obtain ⟨rule, inside, rejected⟩ := exists_reached_of_failure keeps nodes state failed
      exact ⟨rule, .inAtBlock inside, rejected⟩
  | .atStatement .., _ => nofun
  | .declaration .., _ => nofun
  | .comment .., _ => nofun

/-- A walk fails at a rule that it comes to. -/
theorem exists_reached_of_failure
    (keeps : ∀ rule state selector,
      (visit rule state).1 = .ok (.keep selector) → ¬deletes rule.selector)
    {failure : ε} :
    ∀ (nodes : List Node) (state : σ),
      (retainNodes visit nodes state).failure = some failure →
        ∃ rule, Reached deletes rule nodes ∧
          ∃ state, (visit rule state).1 = .error failure
  | [], _ => nofun
  | node :: rest, state => by
      intro failed
      simp only [retainNodes] at failed
      split at failed
      · rename_i first
        cases failed
        obtain ⟨rule, reached, rejected⟩ :=
          exists_reached_of_failure_node keeps node state first
        exact ⟨rule, reached.append rest, rejected⟩
      · obtain ⟨rule, reached, rejected⟩ := exists_reached_of_failure keeps rest _ failed
        exact ⟨rule, .behind reached, rejected⟩

end

/-- A walk that does not fail has kept or deleted every rule that it comes to. -/
theorem exists_verdict_of_reached
    (drops : ∀ rule state, (visit rule state).1 = .ok .drop → deletes rule.selector)
    {rule : Rule}
    {nodes : List Node}
    (reached : Reached deletes rule nodes)
    (state : σ)
    (succeeded : (retainNodes visit nodes state).failure = none) :
    ∃ state verdict, (visit rule state).1 = .ok verdict := by
  induction reached generalizing state with
  | @here before selector between nodes after start rest =>
      have first := (failure_retainNodes_cons_eq_none_iff.mp succeeded).1
      simp only [retainNode] at first
      split at first
      · cases first
      · rename_i answer
        exact ⟨state, .drop, by rw [answer]⟩
      · rename_i kept later answer
        exact ⟨state, .keep kept, by rw [answer]⟩
  | @inRule rule before selector between nodes after start rest stays inside ih =>
      have first := (failure_retainNodes_cons_eq_none_iff.mp succeeded).1
      simp only [retainNode] at first
      split at first
      · cases first
      · rename_i answer
        exact absurd (drops _ state (by rw [answer])) stays
      · exact ih _ first
  | inAtBlock inside ih =>
      have first := (failure_retainNodes_cons_eq_none_iff.mp succeeded).1
      simp only [retainNode] at first
      exact ih _ first
  | behind later ih => exact ih _ (failure_retainNodes_cons_eq_none_iff.mp succeeded).2

end Walk

/-! ## Stylesheets -/

section Stylesheet

variable {neutralize : Text → Text} {sheet : Stylesheet}

theorem exists_nested_of_globalize
    {failure : MalformedSelector}
    (failed : sheet.globalize neutralize = .error failure) :
    ∃ rule, Reached (ListGoes neutralize) rule sheet.nodes ∧
      ∃ selector ∈ rule.selectors, HasNestedMarker selector ∧ failure = .ofNested selector := by
  unfold Stylesheet.globalize Stylesheet.retainRules at failed
  split at failed
  · rename_i walked state answer
    cases failed
    simp only [Prod.mk.injEq] at answer
    have keeps : ∀ rule state selector,
        (globalVisitor neutralize rule state).1 = .ok (.keep selector) →
          ¬ListGoes neutralize rule.selector :=
      fun rule state selector judged => (follows_of_judgeRule judged).1
    obtain ⟨rule, reached, state, rejected⟩ :=
      exists_reached_of_failure keeps sheet.nodes () answer.2.1
    exact ⟨rule, reached, exists_nested_of_selectorFates (judgeRule_eq_error_iff.mp rejected)⟩
  · cases failed

theorem not_nested_of_globalize
    {sheet' : Stylesheet}
    (globalized : sheet.globalize neutralize = .ok sheet')
    {rule : Rule}
    (reached : Reached (ListGoes neutralize) rule sheet.nodes) :
    ∀ selector ∈ rule.selectors, ¬HasNestedMarker selector := by
  unfold Stylesheet.globalize Stylesheet.retainRules at globalized
  split at globalized
  · cases globalized
  · rename_i walked state answer
    simp only [Prod.mk.injEq] at answer
    have drops : ∀ rule state,
        (globalVisitor neutralize rule state).1 = .ok .drop →
          ListGoes neutralize rule.selector :=
      fun rule state judged => follows_of_judgeRule judged
    obtain ⟨state, verdict, judged⟩ := exists_verdict_of_reached drops reached () answer.2.1
    cases fates : selectorFates neutralize rule.selectors with
    | ok found => exact not_nested_of_selectorFates fates
    | error failure =>
        have failed : judgeRule neutralize rule = .ok verdict := judged
        rw [judgeRule_eq_error_iff.mpr fates] at failed
        cases failed

end Stylesheet

/-! ## The stage -/

/-- The stage fails since a selector has a nested marker. -/
def RejectsNested (neutralize : Text → Text) (context : Context) (content : Text) : Prop :=
  ∃ selector, HasNestedMarker selector ∧
    removeGlobalMarkers neutralize context content =
      .error (.known
        (.malformedSelector selector context.filename Selector.nestedMarkerReason))

section Stage

variable {neutralize : Text → Text} {context : Context} {content : Text} {sheet : Stylesheet}
  (parsed : Stylesheet.parse content = .ok sheet)

include parsed

/-- A stylesheet with a marked rule has the text of the marker in it. -/
theorem contains_marker_of_reached
    {deletes : Text → Prop}
    {rule : Rule}
    (reached : Reached deletes rule sheet.nodes)
    (marked : HasMarker rule.selector) :
    Text.contains Selector.marker content = true := by
  obtain ⟨before, after, parts, -, -⟩ := marked
  have inSheet : printNodes sheet.nodes <:+: content := by
    rw [← print_of_parse parsed, Stylesheet.print_eq]
    exact (List.prefix_append _ _).isInfix
  have inSelector : Selector.marker <:+: rule.selector := ⟨before, after, parts.symm⟩
  exact Text.contains_eq_true_iff.mpr
    (inSelector.trans (reached.selector_within_printNodes.trans inSheet))

theorem exists_nested_of_removeGlobalMarkers
    {failure : Failure}
    (failed : removeGlobalMarkers neutralize context content = .error failure) :
    ∃ rule, Reached (ListGoes neutralize) rule sheet.nodes ∧
      ∃ selector ∈ rule.selectors, HasNestedMarker selector := by
  unfold removeGlobalMarkers at failed
  split at failed
  · rw [parsed] at failed
    dsimp only at failed
    split at failed
    · rename_i malformed globalized
      obtain ⟨rule, reached, selector, member, nested, -⟩ := exists_nested_of_globalize globalized
      exact ⟨rule, reached, selector, member, nested⟩
    · cases failed
  · cases failed

theorem rejectsNested_of_reached
    {rule : Rule}
    (reached : Reached (ListGoes neutralize) rule sheet.nodes)
    {selector : Text}
    (member : selector ∈ rule.selectors)
    (nested : HasNestedMarker selector) :
    RejectsNested neutralize context content := by
  have marked : HasMarker rule.selector :=
    hasMarker_iff_of_selectorsOf.mpr ⟨selector, member, nested.hasMarkerFrom⟩
  have mentioned := contains_marker_of_reached parsed reached marked
  cases globalized : sheet.globalize neutralize with
  | ok sheet' => exact absurd nested (not_nested_of_globalize globalized reached selector member)
  | error failure =>
      obtain ⟨-, -, malformed, -, nestedThere, rfl⟩ := exists_nested_of_globalize globalized
      refine ⟨malformed, nestedThere, ?_⟩
      unfold removeGlobalMarkers
      rw [if_pos mentioned, parsed]
      dsimp only
      rw [globalized]
      rfl

/-- The stage fails for a nested marker exactly if a selector of a rule that it comes to
has one, and for nothing else.  So it does if the selector list has one and is split
only where nothing is open. -/
theorem removeGlobalMarkers_rejects_nested_iff :
    (RejectsNested neutralize context content ↔
        ∃ rule, Reached (ListGoes neutralize) rule sheet.nodes ∧
          ∃ selector ∈ rule.selectors, HasNestedMarker selector) ∧
      (∀ failure, removeGlobalMarkers neutralize context content = .error failure →
        RejectsNested neutralize context content) ∧
      ∀ rule, Reached (ListGoes neutralize) rule sheet.nodes →
        SplitsOutside .initial .initial rule.selector →
        HasNestedMarker rule.selector →
        RejectsNested neutralize context content := by
  refine ⟨⟨?_, ?_⟩, ?_, ?_⟩
  · rintro ⟨selector, -, failed⟩
    exact exists_nested_of_removeGlobalMarkers parsed failed
  · rintro ⟨rule, reached, selector, member, nested⟩
    exact rejectsNested_of_reached parsed reached member nested
  · intro failure failed
    obtain ⟨rule, reached, selector, member, nested⟩ :=
      exists_nested_of_removeGlobalMarkers parsed failed
    exact rejectsNested_of_reached parsed reached member nested
  · intro rule reached outside nested
    obtain ⟨selector, member, nestedThere⟩ :=
      (hasNestedMarker_iff_of_selectorsOf outside).mp nested
    exact rejectsNested_of_reached parsed reached member nestedThere

end Stage

/-- A deleted rule around one with a nested marker, and a rule in a block whose list
is split outside its brackets only. -/
def nestedMarkerSample : Text :=
  ":global\x7bx(:global y)\x7b\x7d\x7d@m\x7ba,b:not([c]:global d,e)\x7b\x7d\x7d"

/-- The rule with the nested marker that the stage comes to. -/
def nestedMarkerRule : Rule :=
  ⟨[], "a,b:not([c]:global d,e)", [], [], [], ⟨⟨0, 26⟩, 26⟩⟩

/-- The tree of the sample. -/
def nestedMarkerSheet : Stylesheet where
  nodes := [
    .rule [] ":global" [] [.rule [] "x(:global y)" [] [] [] ⟨⟨0, 8⟩, 8⟩] [] ⟨⟨0, 0⟩, 0⟩,
    .atBlock [] "@m" []
      [.rule [] "a,b:not([c]:global d,e)" [] [] [] ⟨⟨0, 26⟩, 26⟩] [] ⟨⟨0, 23⟩, 23⟩]
  after := []

theorem removeGlobalMarkers_rejects_nestedMarkerSample :
    Stylesheet.parse nestedMarkerSample = .ok nestedMarkerSheet ∧
      Reached (ListGoes Selector.globalize) nestedMarkerRule nestedMarkerSheet.nodes ∧
      SplitsOutside .initial .initial nestedMarkerRule.selector ∧
      HasNestedMarker nestedMarkerRule.selector ∧
      RejectsNested Selector.globalize sampleContext nestedMarkerSample := by
  have parsed : Stylesheet.parse nestedMarkerSample = .ok nestedMarkerSheet := by
    with_unfolding_all rfl
  have reached :
      Reached (ListGoes Selector.globalize) nestedMarkerRule nestedMarkerSheet.nodes :=
    .behind (.inAtBlock .here)
  have outside : SplitsOutside .initial .initial nestedMarkerRule.selector := by
    decide +kernel
  have nested : HasNestedMarker nestedMarkerRule.selector := by decide +kernel
  exact ⟨parsed, reached, outside, nested,
    (removeGlobalMarkers_rejects_nested_iff parsed).2.2 _ reached outside nested⟩

/-- A rule with a marker in brackets, behind a comma in the same brackets. -/
def splitBracketSample : Text :=
  "a[b,:global c] \x7b\x7d"

/-- The rule of the sample. -/
def splitBracketRule : Rule :=
  ⟨[], "a[b,:global c]", [' '], [], [], ⟨⟨0, 0⟩, 0⟩⟩

/-- The tree of the sample. -/
def splitBracketSheet : Stylesheet where
  nodes := [.rule [] "a[b,:global c]" " " [] [] ⟨⟨0, 0⟩, 0⟩]
  after := []

/-- A nested marker of a selector list is not always rejected: a list is split at a
comma in brackets. -/
theorem not_always_rejectsNested :
    ¬∀ (neutralize : Text → Text) (context : Context) (content : Text) (sheet : Stylesheet)
      (rule : Rule),
      Stylesheet.parse content = .ok sheet →
      Reached (ListGoes neutralize) rule sheet.nodes →
      HasNestedMarker rule.selector →
      RejectsNested neutralize context content := by
  intro rejectsNested
  have parsed : Stylesheet.parse splitBracketSample = .ok splitBracketSheet := by
    with_unfolding_all rfl
  have nested : HasNestedMarker splitBracketRule.selector := by decide +kernel
  have rewritten :
      removeGlobalMarkers Selector.globalize sampleContext splitBracketSample =
        .ok (.ofCode "a[b,:global(c]) \x7b\x7d") := by
    decide +kernel
  obtain ⟨selector, -, failed⟩ := rejectsNested Selector.globalize sampleContext splitBracketSample
    splitBracketSheet splitBracketRule parsed .here nested
  rw [rewritten] at failed
  cases failed

end Css
end ComponentPipeline
