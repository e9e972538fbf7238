import ComponentPipeline.Language
import ComponentPipeline.Proofs.Table.LastPairs

/-!
# Names that are canonical in their turn

The aliases of a run are pairs of a token and a language: the built-in ones and then
those of its options.  A token is looked up once.  So the name that is found for it
is its own canonical name only if no pair in force leads on from that name, which the
built-in pairs see to and those of the options need not.
-/

namespace ComponentPipeline
namespace LanguageAliases

variable {pairs : List (Text × Text)} {token language : Text}

/-- A pair is in force: no later pair has the same token, the built-in ones coming
first. -/
def InForce (pairs : List (Text × Text)) (token language : Text) : Prop :=
  Table.IsLast (builtIn ++ pairs) token language

/-- No pair in force leads on from the language that one gives a token. -/
def EndsAtOnce (pairs : List (Text × Text)) (token : Text) : Prop :=
  ∀ language next, InForce pairs token language → InForce pairs language next → next = language

/-! ## One look-up -/

theorem ofPairs_eq_putAll_nil (pairs : List (Text × Text)) :
    ofPairs pairs = Table.putAll (builtIn ++ pairs) [] :=
  Table.putAll_eq_putAll_nil (by decide) pairs

theorem canonical_of_inForce (inForce : InForce pairs token language) :
    (ofPairs pairs).canonical token = language := by
  rw [canonical, ofPairs_eq_putAll_nil, Table.get?_putAll_nil_eq_some_iff.mpr inForce,
    Option.getD_some]

/-- A token without a pair is its own canonical name. -/
theorem canonical_of_not_inForce (free : ∀ language, ¬InForce pairs token language) :
    (ofPairs pairs).canonical token = token := by
  rw [canonical, ofPairs_eq_putAll_nil, Table.get?_putAll_nil_eq_none_iff.mpr free,
    Option.getD_none]

/-- A name is its own canonical name unless a pair in force gives it another one. -/
theorem canonical_eq_self_iff {name : Text} :
    (ofPairs pairs).canonical name = name ↔ ∀ next, InForce pairs name next → next = name := by
  constructor
  · intro same next inForce
    rw [← canonical_of_inForce inForce, same]
  · intro alone
    by_cases free : ∀ next, ¬InForce pairs name next
    · exact canonical_of_not_inForce free
    · obtain ⟨next, inForce⟩ := not_forall_not.mp free
      rw [canonical_of_inForce inForce, alone next inForce]

/-! ## Two look-ups -/

theorem canonical_canonical_eq_iff :
    (ofPairs pairs).canonical ((ofPairs pairs).canonical token) =
        (ofPairs pairs).canonical token ↔
      EndsAtOnce pairs token := by
  rw [canonical_eq_self_iff]
  constructor
  · intro alone language next first second
    rw [canonical_of_inForce first] at alone
    exact alone next second
  · intro ends next second
    by_cases free : ∀ language, ¬InForce pairs token language
    · rw [canonical_of_not_inForce free] at second
      exact absurd second (free next)
    · obtain ⟨language, first⟩ := not_forall_not.mp free
      rw [canonical_of_inForce first] at second ⊢
      exact ends language next first second

/-- Whichever of them are in force, pairs that do not lead on from one another give
every token a name at once. -/
theorem endsAtOnce_of_pairs
    (apart : ∀ first ∈ builtIn ++ pairs, ∀ second ∈ builtIn ++ pairs,
      second.1 = first.2 → second.2 = second.1)
    (token : Text) :
    EndsAtOnce pairs token :=
  fun _ _ first second => apart _ first.mem _ second.mem rfl

/-- The canonical name of a token, and so the language of a block, is its own
canonical name exactly if no pair in force leads on from the language that one gives
the token.  This holds of every token if none of the pairs leads on from another. -/
theorem canonical_canonical_iff (pairs : List (Text × Text)) :
    (∀ token,
      (ofPairs pairs).canonical ((ofPairs pairs).canonical token) =
          (ofPairs pairs).canonical token ↔
        EndsAtOnce pairs token) ∧
    (∀ attributes default,
      (ofPairs pairs).canonical ((ofPairs pairs).resolve attributes default) =
          (ofPairs pairs).resolve attributes default ↔
        EndsAtOnce pairs ((declaredToken? attributes).getD default)) ∧
    ((∀ first ∈ builtIn ++ pairs, ∀ second ∈ builtIn ++ pairs,
        second.1 = first.2 → second.2 = second.1) →
      ∀ token,
        (ofPairs pairs).canonical ((ofPairs pairs).canonical token) =
          (ofPairs pairs).canonical token) :=
  ⟨fun _ => canonical_canonical_eq_iff, fun _ _ => canonical_canonical_eq_iff,
    fun apart token => canonical_canonical_eq_iff.mpr (endsAtOnce_of_pairs apart token)⟩

/-- None of the built-in pairs leads on from another. -/
example : ∀ first ∈ builtIn, ∀ second ∈ builtIn,
    second.1 = first.2 → second.2 = second.1 := by
  decide

/-- A pair for a built-in language leads on from the tokens of that language: a block
in `pcss` is in `css`, and one in `css` is in `less`. -/
theorem canonical_not_always_idempotent :
    ¬∀ (pairs : List (Text × Text)) (token : Text),
      (ofPairs pairs).canonical ((ofPairs pairs).canonical token) =
        (ofPairs pairs).canonical token := by
  intro idempotent
  have same := idempotent [("css", "less")] "pcss"
  revert same
  decide

end LanguageAliases
end ComponentPipeline
