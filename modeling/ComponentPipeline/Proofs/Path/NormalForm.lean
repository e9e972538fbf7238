import ComponentPipeline.Path.Normal
import ComponentPipeline.Proofs.Text.Lines
import Mathlib.Data.List.Basic
import Mathlib.Data.List.Induction

/-!
# Laws of the normal form

What is left of the components of a path is the root with names behind it, or
parent steps with names behind them.  Spelled out, that is read back as it is.
Reduced components do the same to every stack of steps as the components that
they come from, so it does not matter whether the parts of a path are normalized
before they are joined.
-/

namespace ComponentPipeline
namespace Path

/-! ## Reducing components -/

/-- Reduced components act on the steps taken before them like the components
that they come from. -/
theorem foldl_pushComponent_reduce (taken components : List Component) :
    (reduce components).foldl pushComponent taken =
      components.foldl pushComponent taken := by
  induction components using List.reverseRecOn with
  | nil => rfl
  | append_singleton before last ih =>
      unfold reduce at ih ⊢
      rw [List.foldl_append, List.foldl_append, ← ih]
      -- What the components before have left on a stack of their own stays in
      -- place on any other stack, so the last one finds the same on top of it.
      generalize before.foldl pushComponent [] = left
      cases last with
      | root => simp [pushComponent]
      | current => simp [pushComponent]
      | name text => simp [pushComponent]
      | parent =>
          cases left with
          | nil => simp [pushComponent]
          | cons top below => cases top <;> simp [pushComponent]

@[simp] theorem reduce_reduce (components : List Component) :
    reduce (reduce components) = reduce components :=
  congrArg List.reverse (foldl_pushComponent_reduce [] components)

/-- A text that names an entry of a directory: a piece between slashes that is
not void and does not lead up. -/
def IsName (text : Text) : Prop :=
  component? text = some (.name text) ∧ '/' ∉ text

/-- A component that a piece between slashes stands for. -/
inductive IsStep : Component → Prop
  | parent : IsStep .parent
  | name {text : Text} (isName : IsName text) : IsStep (.name text)

/-- Components that no reduction makes shorter, of an absolute or of a relative
path. -/
inductive Reduced : Bool → List Component → Prop
  /-- From the root the way goes through names alone. -/
  | absolute {names : List Text}
      (areNames : ∀ name ∈ names, IsName name) :
      Reduced true (.root :: names.map .name)
  /-- Elsewhere it goes up first, as often as nothing can undo. -/
  | relative (ups : Nat) {names : List Text}
      (areNames : ∀ name ∈ names, IsName name) :
      Reduced false (List.replicate ups .parent ++ names.map .name)

section Reduced

variable {absolute : Bool}
variable {components : List Component}

theorem Reduced.push_name
    {name : Text}
    (reduced : Reduced absolute components)
    (isName : IsName name) :
    Reduced absolute (components ++ [.name name]) := by
  have longer {names : List Text} (areNames : ∀ name ∈ names, IsName name) :
      ∀ other ∈ names ++ [name], IsName other := by
    intro other member
    rcases List.mem_append.mp member with before | last
    · exact areNames other before
    · rwa [List.mem_singleton.mp last]
  cases reduced with
  | @absolute names areNames =>
      have whole := Reduced.absolute (longer areNames)
      rwa [List.map_append, ← List.cons_append] at whole
  | @relative ups names areNames =>
      have whole := Reduced.relative ups (longer areNames)
      rwa [List.map_append, ← List.append_assoc] at whole

theorem Reduced.push_parent (reduced : Reduced absolute components) :
    Reduced absolute (pushComponent components.reverse .parent).reverse := by
  cases reduced with
  | @absolute names areNames =>
      rcases List.eq_nil_or_concat' names with rfl | ⟨before, last, rfl⟩
      · exact .absolute areNames
      · have shorter : ∀ name ∈ before, IsName name := fun name member =>
          areNames name (List.mem_append_left [last] member)
        simpa [pushComponent] using Reduced.absolute shorter
  | @relative ups names areNames =>
      rcases List.eq_nil_or_concat' names with rfl | ⟨before, last, rfl⟩
      · have oneMore := Reduced.relative (ups + 1) areNames
        cases ups with
        | zero => exact oneMore
        | succ ups =>
            -- The stack holds the same steps in both orders.
            have stack : (List.replicate (ups + 1) Component.parent).reverse =
                .parent :: List.replicate ups .parent := List.reverse_replicate
            simpa [stack, pushComponent, List.replicate_succ'] using oneMore
      · have shorter : ∀ name ∈ before, IsName name := fun name member =>
          areNames name (List.mem_append_left [last] member)
        simpa [pushComponent] using Reduced.relative ups shorter

/-- Reduced components stay reduced with every step that is taken. -/
theorem Reduced.push
    {step : Component}
    (reduced : Reduced absolute components)
    (isStep : IsStep step) :
    Reduced absolute (pushComponent components.reverse step).reverse := by
  cases isStep with
  | parent => exact reduced.push_parent
  | name isName => simpa [pushComponent] using reduced.push_name isName

theorem Reduced.foldl
    {steps : List Component}
    (reduced : Reduced absolute components)
    (areSteps : ∀ step ∈ steps, IsStep step) :
    Reduced absolute (steps.foldl pushComponent components.reverse).reverse := by
  induction steps generalizing components with
  | nil => simpa using reduced
  | cons step rest ih =>
      have further := ih (reduced.push (areSteps step List.mem_cons_self))
        fun other later => areSteps other (List.mem_cons_of_mem step later)
      rwa [List.reverse_reverse] at further

theorem Reduced.current_not_mem (reduced : Reduced absolute components) :
    .current ∉ components := by
  cases reduced <;> simp

theorem Reduced.before_parent
    {before after : List Component}
    (reduced : Reduced absolute components)
    (parts : components = before ++ .parent :: after) :
    absolute = false ∧ ∀ component ∈ before, component = .parent := by
  cases reduced with
  | absolute areNames =>
      have member : Component.parent ∈ before ++ .parent :: after := by simp
      rw [← parts] at member
      simp at member
  | @relative ups names areNames =>
      refine ⟨rfl, fun component member => ?_⟩
      obtain ⟨extra, -, namesLeft⟩ | ⟨extra, upsLeft, -⟩ :=
        List.append_eq_append_iff.mp parts
      · have named : Component.parent ∈ extra ++ .parent :: after := by simp
        rw [← namesLeft] at named
        simp at named
      · have up : component ∈ List.replicate ups .parent := by
          rw [upsLeft]
          exact List.mem_append_left extra member
        exact List.eq_of_mem_replicate up

end Reduced

/-! ## Components and their spelling -/

/-- The components that the pieces of a path stand for. -/
def steps (path : Path) : List Component :=
  (path.splitOn '/').filterMap component?

theorem components_eq (path : Path) :
    components path =
      if isAbsolute path then .root :: steps path
      else if startsAtCurrent path then .current :: steps path
      else steps path := rfl

theorem isAbsolute_cons (first : Char) (rest : Path) :
    isAbsolute (first :: rest) = decide (first = '/') := by
  unfold isAbsolute
  split <;> simp_all

@[simp] theorem steps_nil : steps [] = [] := rfl

@[simp] theorem steps_append_slash (before after : Path) :
    steps (before ++ '/' :: after) = steps before ++ steps after := by
  unfold steps
  rw [List.splitOn_append_cons_self, List.filterMap_append]

theorem components_rooted (body : Path) :
    components ('/' :: body) = .root :: steps body := by
  have rooted : steps ('/' :: body) = steps body := steps_append_slash [] body
  rw [components_eq, isAbsolute_cons, decide_eq_true rfl, if_pos rfl, rooted]

theorem isStep_of_component?
    {piece : Text}
    {step : Component}
    (carried : component? piece = some step)
    (noSlash : '/' ∉ piece) :
    IsStep step := by
  have same := carried
  unfold component? at carried
  split at carried
  · cases carried
  · split at carried
    · cases carried
    · split at carried
      · cases carried
        exact .parent
      · cases carried
        exact .name ⟨same, noSlash⟩

theorem isStep_of_mem_steps
    {path : Path}
    {step : Component}
    (member : step ∈ steps path) :
    IsStep step := by
  obtain ⟨piece, listed, carried⟩ := List.mem_filterMap.mp member
  exact isStep_of_component? carried (Text.separator_not_mem_of_mem_splitOn listed)

theorem IsStep.component?_text {step : Component} (isStep : IsStep step) :
    component? step.text = some step := by
  cases isStep with
  | parent => rfl
  | name isName => exact isName.1

theorem IsStep.noSlash {step : Component} (isStep : IsStep step) :
    '/' ∉ step.text := by
  cases isStep with
  | parent => decide
  | name isName => exact isName.2

theorem splitOn_intercalate_text
    {first : Component}
    {rest : List Component}
    (areSteps : ∀ step ∈ first :: rest, IsStep step) :
    (List.intercalate ['/'] ((first :: rest).map Component.text)).splitOn '/' =
      first.text :: rest.map Component.text := by
  apply List.splitOn_intercalate
  · intro piece member
    obtain ⟨step, listed, rfl⟩ := List.mem_map.mp member
    exact (areSteps step listed).noSlash
  · exact List.cons_ne_nil _ _

/-- Steps that are written one after another are read back. -/
theorem steps_intercalate
    {written : List Component}
    (areSteps : ∀ step ∈ written, IsStep step) :
    steps (List.intercalate ['/'] (written.map Component.text)) = written := by
  cases written with
  | nil => rfl
  | cons first rest =>
      unfold steps
      rw [splitOn_intercalate_text areSteps, ← List.map_cons, List.filterMap_map]
      calc (first :: rest).filterMap (component? ∘ Component.text)
          = (first :: rest).filterMap some :=
            List.filterMap_congr fun step listed => (areSteps step listed).component?_text
        _ = first :: rest := List.filterMap_some

/-- The root and the current directory stand for a first piece that is no step. -/
theorem exists_void_piece
    {path : Path}
    (led : isAbsolute path = true ∨ startsAtCurrent path = true) :
    ∃ void others, path.splitOn '/' = void :: others ∧ component? void = none := by
  rcases led with absolute | current
  · unfold isAbsolute at absolute
    split at absolute
    · rename_i body
      exact ⟨[], body.splitOn '/', List.splitOn_append_cons_self [] body, rfl⟩
    · cases absolute
  · unfold startsAtCurrent at current
    split at current
    · exact ⟨['.'], [], rfl, rfl⟩
    · rename_i body
      exact ⟨['.'], body.splitOn '/', List.splitOn_append_cons_self ['.'] body, rfl⟩
    · cases current

/-- What steps spell is a relative path that does not start at `.`. -/
theorem lead_intercalate
    {written : List Component}
    (areSteps : ∀ step ∈ written, IsStep step) :
    isAbsolute (List.intercalate ['/'] (written.map Component.text)) = false ∧
      startsAtCurrent (List.intercalate ['/'] (written.map Component.text)) = false := by
  cases written with
  | nil => exact ⟨rfl, rfl⟩
  | cons first rest =>
      rw [← Bool.not_eq_true, ← Bool.not_eq_true, ← not_or]
      intro led
      obtain ⟨void, others, pieces, nothing⟩ := exists_void_piece led
      have isFirst : first.text = void :=
        (List.cons.inj ((splitOn_intercalate_text areSteps).symm.trans pieces)).1
      have carried := (areSteps first List.mem_cons_self).component?_text
      rw [isFirst, nothing] at carried
      cases carried

theorem isStep_of_mem_names
    {names : List Text}
    (areNames : ∀ name ∈ names, IsName name) :
    ∀ step ∈ names.map Component.name, IsStep step := by
  intro step member
  obtain ⟨name, listed, rfl⟩ := List.mem_map.mp member
  exact .name (areNames name listed)

theorem ofComponents_of_steps
    {written : List Component}
    (areSteps : ∀ step ∈ written, IsStep step) :
    ofComponents written = List.intercalate ['/'] (written.map Component.text) := by
  cases written with
  | nil => rfl
  | cons first rest => cases areSteps first List.mem_cons_self <;> rfl

/-- A path spelled from reduced components has these components, and it is
absolute if they are those of an absolute path. -/
theorem Reduced.spelled
    {absolute : Bool}
    {written : List Component}
    (reduced : Reduced absolute written) :
    components (ofComponents written) = written ∧
      isAbsolute (ofComponents written) = absolute := by
  cases reduced with
  | @absolute names areNames =>
      have areSteps := isStep_of_mem_names areNames
      refine ⟨?_, rfl⟩
      rw [ofComponents, components_rooted, steps_intercalate areSteps]
  | @relative ups names areNames =>
      have areSteps : ∀ step ∈ List.replicate ups Component.parent ++ names.map .name,
          IsStep step := by
        intro step member
        rcases List.mem_append.mp member with up | named
        · rw [List.eq_of_mem_replicate up]
          exact .parent
        · exact isStep_of_mem_names areNames step named
      obtain ⟨relative, notCurrent⟩ := lead_intercalate areSteps
      rw [ofComponents_of_steps areSteps, components_eq, relative, notCurrent,
        steps_intercalate areSteps]
      exact ⟨rfl, rfl⟩

/-! ## Normal forms -/

/-- The root counts on any stack, and the current directory on none. -/
theorem foldl_components (taken : List Component) (path : Path) :
    (components path).foldl pushComponent taken =
      (steps path).foldl pushComponent
        (if isAbsolute path then .root :: taken else taken) := by
  rw [components_eq]
  split
  · rfl
  · split <;> rfl

/-- The components of a path are reduced to those of its normal form. -/
theorem reduced_reduce (path : Path) :
    Reduced (isAbsolute path) (reduce (components path)) := by
  have areSteps : ∀ step ∈ steps path, IsStep step := fun _ => isStep_of_mem_steps
  unfold reduce
  rw [foldl_components]
  cases isAbsolute path with
  | true =>
      have root : Reduced true [.root] := .absolute (List.forall_mem_nil IsName)
      exact root.foldl areSteps
  | false =>
      have here : Reduced false [] := .relative 0 (List.forall_mem_nil IsName)
      exact here.foldl areSteps

theorem components_normalize (path : Path) :
    components (normalize path) = reduce (components path) :=
  (reduced_reduce path).spelled.1

@[simp] theorem isAbsolute_normalize (path : Path) :
    isAbsolute (normalize path) = isAbsolute path :=
  (reduced_reduce path).spelled.2

@[simp] theorem normalize_normalize (path : Path) :
    normalize (normalize path) = normalize path := by
  rw [normalize, components_normalize, reduce_reduce, normalize]

/-- Normal forms are one path only if they are spelled alike. -/
theorem same_normalize_iff {first second : Path} :
    same (normalize first) (normalize second) = true ↔
      normalize first = normalize second := by
  rw [same, beq_iff_eq]
  constructor
  · intro sameComponents
    have reduced := congrArg reduce sameComponents
    rw [← normalize_normalize first, ← normalize_normalize second]
    exact congrArg ofComponents reduced
  · exact congrArg components

/-- A path without `.` components, with `..` components only where a relative path
starts, and with single slashes between its components. -/
structure IsNormal (path : Path) : Prop where
  /-- No component stands for the directory that it is in. -/
  noCurrent : .current ∉ components path
  /-- Only parent steps stand before a parent step, and no root. -/
  parentsLead : ∀ before after, components path = before ++ .parent :: after →
    isAbsolute path = false ∧ ∀ component ∈ before, component = .parent
  /-- The path is spelled by its components. -/
  spelled : ofComponents (components path) = path

theorem isNormal_normalize (path : Path) : IsNormal (normalize path) := by
  have reduced := reduced_reduce path
  have spelled := congrArg ofComponents (components_normalize path)
  rw [← components_normalize, ← isAbsolute_normalize] at reduced
  exact ⟨reduced.current_not_mem, fun _ _ => reduced.before_parent, spelled⟩

/-! ## Joined paths -/

theorem isAbsolute_join (base added : Path) :
    isAbsolute (join base added) = (isAbsolute base || isAbsolute added) := by
  unfold join
  split
  · rename_i absolute
    rw [absolute, Bool.or_true]
  · rename_i relative
    rw [Bool.not_eq_true] at relative
    rw [relative, Bool.or_false]
    cases base with
    | nil => exact relative
    | cons first rest =>
        split <;> rw [List.cons_append, isAbsolute_cons, isAbsolute_cons]

theorem steps_join
    {added : Path}
    (relative : isAbsolute added = false)
    (base : Path) :
    steps (join base added) = steps base ++ steps added := by
  unfold join
  rw [relative, if_neg Bool.false_ne_true]
  split
  · rename_i closed
    rcases List.eq_nil_or_concat' base with rfl | ⟨before, last, rfl⟩
    · rfl
    · have slash : last = '/' := by simpa using closed
      rw [slash, List.append_assoc, List.singleton_append, steps_append_slash,
        steps_append_slash, steps_nil, List.append_nil]
  · exact steps_append_slash base added

/-- The way that a joined path goes is the one way behind the other. -/
theorem foldl_components_join
    {added : Path}
    (relative : isAbsolute added = false)
    (base : Path) :
    (components (join base added)).foldl pushComponent [] =
      (components added).foldl pushComponent
        ((components base).foldl pushComponent []) := by
  rw [foldl_components, foldl_components _ added, foldl_components _ base, relative,
    steps_join relative, isAbsolute_join, relative, Bool.or_false, List.foldl_append]
  rfl

/-- Paths may be normalized before they are joined. -/
theorem normalize_join_normalize (base added : Path) :
    normalize (join (normalize base) (normalize added)) = normalize (join base added) := by
  cases absolute : isAbsolute added with
  | true =>
      have replaces (other : Path) {path : Path} (root : isAbsolute path = true) :
          join other path = path := by
        rw [join, root, if_pos rfl]
      rw [replaces base absolute, replaces _ (by rw [isAbsolute_normalize, absolute]),
        normalize_normalize]
  | false =>
      have relative : isAbsolute (normalize added) = false := by
        rw [isAbsolute_normalize, absolute]
      have sameWay :
          (components (join (normalize base) (normalize added))).foldl pushComponent [] =
            (components (join base added)).foldl pushComponent [] := by
        rw [foldl_components_join relative, foldl_components_join absolute,
          components_normalize, components_normalize, foldl_pushComponent_reduce,
          foldl_pushComponent_reduce]
      exact congrArg (fun taken => ofComponents taken.reverse) sameWay

/-- Normalizing a path gives an absolute path if the path is one, without `.`
components and with `..` components only where a relative path starts; normalizing
again changes nothing, and it may be done to the parts of a joined path first. -/
theorem normalize_is_congruent (first second : Path) :
    IsNormal (normalize first) ∧
      isAbsolute (normalize first) = isAbsolute first ∧
      normalize (normalize first) = normalize first ∧
      normalize (join first second) =
        normalize (join (normalize first) (normalize second)) :=
  ⟨isNormal_normalize first, isAbsolute_normalize first, normalize_normalize first,
    (normalize_join_normalize first second).symm⟩

example : normalize (join "a/./b/.." "../../c//d") = "../c/d" := by decide +kernel

end Path
end ComponentPipeline
