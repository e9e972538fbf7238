import ComponentPipeline.Proofs.Css.RetainInPlace

/-!
# The rules that a walk visits

The rules of a stylesheet are listed in the order of the text, each with its address,
which tells it from every other one.  A walk asks about the rules of this list one
after another.  Where the answer is to drop a rule, the rules inside it are struck off
the list and never asked about.  What stays is the tree in which every rule has met its
verdict.  A failing answer ends the walk: the rules behind it are not asked about and
stay as they were.
-/

namespace ComponentPipeline
namespace Css

/-! ## Rules and their addresses -/

/-- The way to a node: the number of nodes in front of it in its block, behind the way
to the node that its block belongs to. -/
abbrev Address := List Nat

/-- A rule at its place. -/
structure Site where
  /-- Where the rule is. -/
  address : Address
  /-- The rule. -/
  rule : Rule

mutual

/-- The rules of a node, in the order of the text. -/
def Node.sites (address : Address) : Node → List Site
  | .rule before selector between nodes after start =>
      ⟨address, before, selector, between, nodes, after, start⟩ :: sitesIn address 0 nodes
  | .atBlock _ _ _ nodes _ _ => sitesIn address 0 nodes
  | .atStatement .. => []
  | .declaration .. => []
  | .comment .. => []

/-- The rules of some nodes of a block, the first of which has a number in it. -/
def sitesIn (block : Address) (number : Nat) : List Node → List Site
  | [] => []
  | node :: rest => node.sites (block ++ [number]) ++ sitesIn block (number + 1) rest

end

/-- The rules of a stylesheet, in the order of the text. -/
def Stylesheet.sites (sheet : Stylesheet) : List Site :=
  sitesIn [] 0 sheet.nodes

/-! ## Questions and answers -/

/-- A rule that was asked about, and the answer. -/
structure Call where
  /-- The rule. -/
  site : Site
  /-- What becomes of it. -/
  verdict : Verdict

/-- A rule is inside another one that is dropped. -/
def Call.Strikes (call : Call) (site : Site) : Prop :=
  call.verdict = .drop ∧ call.site.address <+: site.address ∧ call.site.address ≠ site.address

instance (call : Call) (site : Site) : Decidable (call.Strikes site) := by
  unfold Call.Strikes
  infer_instance

/-- The rules that are inside no dropped one. -/
def unstruck (calls : List Call) (sites : List Site) : List Site :=
  sites.filter fun site => ∀ call ∈ calls, ¬call.Strikes site

/-- The answer about the rule at an address. -/
def verdictAt? (calls : List Call) (address : Address) : Option Verdict :=
  (calls.find? fun call => call.site.address == address).map Call.verdict

mutual

/-- A node in which every rule has met its verdict. -/
def Node.judged (calls : List Call) (address : Address) : Node → List Node
  | .rule before selector between nodes after start =>
      match verdictAt? calls address with
      | some .drop => []
      | some (.keep selector) =>
          [.rule before selector between (judgedIn calls address 0 nodes) after start]
      | none => [.rule before selector between (judgedIn calls address 0 nodes) after start]
  | .atBlock before head between nodes after start =>
      [.atBlock before head between (judgedIn calls address 0 nodes) after start]
  | .atStatement before head between start => [.atStatement before head between start]
  | .declaration before text between start => [.declaration before text between start]
  | .comment before text start => [.comment before text start]

/-- Nodes of a block in which every rule has met its verdict. -/
def judgedIn (calls : List Call) (block : Address) (number : Nat) : List Node → List Node
  | [] => []
  | node :: rest =>
      node.judged calls (block ++ [number]) ++ judgedIn calls block (number + 1) rest

end

/-- A stylesheet in which every rule has met its verdict. -/
def Stylesheet.judged (calls : List Call) (sheet : Stylesheet) : Stylesheet :=
  { sheet with nodes := judgedIn calls [] 0 sheet.nodes }

section Calls

variable {ε σ : Type} (visit : Visitor ε σ)

/-- The calls are those of a visitor, one after another, each in the state that the one
before it left. -/
inductive Answers : σ → List Call → σ → Prop
  | nil {state : σ} : Answers state [] state
  | cons {state next final : σ} {call : Call} {calls : List Call}
      (answer : visit call.site.rule state = (.ok call.verdict, next))
      (others : Answers next calls final) :
      Answers state (call :: calls) final

/-- The ways in which a walk ends after some calls. -/
inductive Ends (state : σ) (calls : List Call) : List Site → Option ε → σ → Prop
  /-- No rule is left to ask about. -/
  | complete {final : σ}
      (answers : Answers visit state calls final) :
      Ends state calls [] none final
  /-- The next call fails. -/
  | failed {before final : σ} {site : Site} {later : List Site} {failure : ε}
      (answers : Answers visit state calls before)
      (fails : visit site.rule before = (.error failure, final)) :
      Ends state calls (site :: later) (some failure) final

end Calls

/-! ## Addresses tell rules apart -/

mutual

theorem isPrefix_of_mem_sites (address : Address) :
    ∀ (node : Node), ∀ site ∈ node.sites address, address <+: site.address
  | .rule before selector between nodes after start => by
      intro site member
      rw [Node.sites] at member
      rcases List.mem_cons.mp member with rfl | inside
      · exact List.prefix_refl address
      · obtain ⟨number, -, leads⟩ := exists_isPrefix_of_mem_sitesIn address 0 nodes site inside
        exact (List.prefix_append address [number]).trans leads
  | .atBlock before head between nodes after start => by
      intro site inside
      rw [Node.sites] at inside
      obtain ⟨number, -, leads⟩ := exists_isPrefix_of_mem_sitesIn address 0 nodes site inside
      exact (List.prefix_append address [number]).trans leads
  | .atStatement .. => by simp [Node.sites]
  | .declaration .. => by simp [Node.sites]
  | .comment .. => by simp [Node.sites]

/-- The address of a rule goes on from that of the node that it belongs to. -/
theorem exists_isPrefix_of_mem_sitesIn (block : Address) (number : Nat) :
    ∀ (nodes : List Node), ∀ site ∈ sitesIn block number nodes,
      ∃ there, number ≤ there ∧ block ++ [there] <+: site.address
  | [] => by simp [sitesIn]
  | node :: rest => by
      intro site member
      rw [sitesIn] at member
      rcases List.mem_append.mp member with here | behind
      · exact ⟨number, Nat.le_refl number, isPrefix_of_mem_sites _ node site here⟩
      · obtain ⟨there, further, leads⟩ :=
          exists_isPrefix_of_mem_sitesIn block (number + 1) rest site behind
        exact ⟨there, Nat.le_of_succ_le further, leads⟩

end

/-- A rule inside another one goes on from its address. -/
theorem isPrefix_and_ne_of_mem_sitesIn
    {address : Address}
    {nodes : List Node}
    {site : Site}
    (inside : site ∈ sitesIn address 0 nodes) :
    address <+: site.address ∧ address ≠ site.address := by
  obtain ⟨number, -, leads⟩ := exists_isPrefix_of_mem_sitesIn address 0 nodes site inside
  refine ⟨(List.prefix_append address [number]).trans leads, fun same => ?_⟩
  have longer := leads.length_le
  rw [← same, List.length_append, List.length_singleton] at longer
  exact Nat.not_succ_le_self _ longer

/-- An address comes before those that go on from it. -/
theorem address_lt_of_isPrefix
    {address other : Address}
    (leads : address <+: other)
    (further : address ≠ other) :
    address < other := by
  induction address generalizing other with
  | nil =>
      cases other with
      | nil => exact absurd rfl further
      | cons number rest => exact List.nil_lt_cons number rest
  | cons number address ih =>
      cases other with
      | nil => cases List.prefix_nil.mp leads
      | cons first other =>
          obtain ⟨rfl, leadsRest⟩ := List.cons_prefix_cons.mp leads
          refine List.cons_lt_cons_iff.mpr (.inr ⟨rfl, ih leadsRest fun same => further ?_⟩)
          rw [same]

/-- In one block, addresses come in the order of the numbers. -/
theorem address_lt_of_lt
    {block address other : Address}
    {number there : Nat}
    (less : number < there)
    (leads : block ++ [number] <+: address)
    (otherLeads : block ++ [there] <+: other) :
    address < other := by
  induction block generalizing address other with
  | nil =>
      obtain ⟨rest, rfl⟩ := leads
      obtain ⟨otherRest, rfl⟩ := otherLeads
      exact List.cons_lt_cons_iff.mpr (.inl less)
  | cons first block ih =>
      obtain ⟨rest, rfl⟩ := leads
      obtain ⟨otherRest, rfl⟩ := otherLeads
      exact List.cons_lt_cons_iff.mpr
        (.inr ⟨rfl, ih (List.prefix_append _ rest) (List.prefix_append _ otherRest)⟩)

mutual

theorem pairwise_sites (address : Address) :
    ∀ (node : Node), ((node.sites address).map Site.address).Pairwise (· < ·)
  | .rule before selector between nodes after start => by
      rw [Node.sites, List.map_cons, List.pairwise_cons]
      refine ⟨fun inner member => ?_, pairwise_sitesIn address 0 nodes⟩
      obtain ⟨site, inside, rfl⟩ := List.mem_map.mp member
      obtain ⟨leads, further⟩ := isPrefix_and_ne_of_mem_sitesIn inside
      exact address_lt_of_isPrefix leads further
  | .atBlock before head between nodes after start => by
      rw [Node.sites]
      exact pairwise_sitesIn address 0 nodes
  | .atStatement .. => .nil
  | .declaration .. => .nil
  | .comment .. => .nil

/-- The rules are listed in the order of their addresses, each of them once. -/
theorem pairwise_sitesIn (block : Address) (number : Nat) :
    ∀ (nodes : List Node), ((sitesIn block number nodes).map Site.address).Pairwise (· < ·)
  | [] => .nil
  | node :: rest => by
      rw [sitesIn, List.map_append, List.pairwise_append]
      refine ⟨pairwise_sites _ node, pairwise_sitesIn block _ rest, ?_⟩
      intro address here other behind
      obtain ⟨site, isHere, rfl⟩ := List.mem_map.mp here
      obtain ⟨later, isBehind, rfl⟩ := List.mem_map.mp behind
      obtain ⟨there, further, leads⟩ := exists_isPrefix_of_mem_sitesIn block _ rest later isBehind
      exact address_lt_of_lt further (isPrefix_of_mem_sites _ node site isHere) leads

end

/-- A call is about a rule that another one is neither equal to nor inside of. -/
def Call.Elsewhere (call : Call) (site : Site) : Prop :=
  ¬call.site.address <+: site.address

theorem Call.Elsewhere.not_strikes
    {call : Call}
    {site : Site}
    (elsewhere : call.Elsewhere site) :
    ¬call.Strikes site :=
  fun strikes => elsewhere strikes.2.1

/-- What two nodes of one block have in them is apart. -/
theorem not_isPrefix_of_ne
    {block address other : Address}
    {number there : Nat}
    (apart : number ≠ there)
    (leads : block ++ [number] <+: address)
    (otherLeads : block ++ [there] <+: other) :
    ¬address <+: other := by
  intro inside
  have same := List.prefix_of_prefix_length_le (leads.trans inside) otherLeads (by simp)
  have equal := same.eq_of_length (by simp)
  exact apart (by simpa using equal)

theorem not_isPrefix_of_mem_sites
    {block : Address}
    {number : Nat}
    {node : Node}
    {rest : List Node}
    {site later : Site}
    (here : site ∈ node.sites (block ++ [number]))
    (behind : later ∈ sitesIn block (number + 1) rest) :
    ¬site.address <+: later.address ∧ ¬later.address <+: site.address := by
  have leads := isPrefix_of_mem_sites _ node site here
  obtain ⟨there, further, laterLeads⟩ := exists_isPrefix_of_mem_sitesIn block _ rest later behind
  have apart : number ≠ there := by omega
  exact ⟨not_isPrefix_of_ne apart leads laterLeads,
    not_isPrefix_of_ne apart.symm laterLeads leads⟩

/-! ## Verdicts that make no difference -/

section Verdicts

variable {calls others : List Call} {sites : List Site}

theorem unstruck_append (calls : List Call) (first second : List Site) :
    unstruck calls (first ++ second) = unstruck calls first ++ unstruck calls second :=
  List.filter_append first second

theorem unstruck_eq_self
    (unconcerned : ∀ site ∈ sites, ∀ call ∈ calls, ¬call.Strikes site) :
    unstruck calls sites = sites := by
  rw [unstruck, List.filter_eq_self]
  intro site member
  exact decide_eq_true (unconcerned site member)

theorem unstruck_eq_of_append_left
    (elsewhere : ∀ site ∈ sites, ∀ call ∈ others, ¬call.Strikes site) :
    unstruck (others ++ calls) sites = unstruck calls sites := by
  apply List.filter_congr
  intro site member
  simp only [List.forall_mem_append, decide_eq_decide]
  exact and_iff_right (elsewhere site member)

theorem unstruck_eq_of_append_right
    (elsewhere : ∀ site ∈ sites, ∀ call ∈ others, ¬call.Strikes site) :
    unstruck (calls ++ others) sites = unstruck calls sites := by
  apply List.filter_congr
  intro site member
  simp only [List.forall_mem_append, decide_eq_decide]
  exact and_iff_left (elsewhere site member)

theorem verdictAt?_eq_none
    {address : Address}
    (elsewhere : ∀ call ∈ calls, call.site.address ≠ address) :
    verdictAt? calls address = none := by
  rw [verdictAt?, Option.map_eq_none_iff, List.find?_eq_none]
  intro call member
  simpa using elsewhere call member

theorem verdictAt?_append (calls others : List Call) (address : Address) :
    verdictAt? (calls ++ others) address =
      (verdictAt? calls address).or (verdictAt? others address) := by
  rw [verdictAt?, verdictAt?, verdictAt?, List.find?_append]
  cases calls.find? fun call => call.site.address == address <;> rfl

mutual

/-- Calls that say the same about the rules of a node leave the same of it. -/
theorem judged_congr (address : Address) :
    ∀ (node : Node),
      (∀ site ∈ node.sites address,
        verdictAt? calls site.address = verdictAt? others site.address) →
      node.judged calls address = node.judged others address
  | .rule before selector between nodes after start => by
      intro same
      rw [Node.sites] at same
      obtain ⟨here, inside⟩ := List.forall_mem_cons.mp same
      rw [Node.judged, Node.judged, judgedIn_congr address 0 nodes inside]
      dsimp only at here
      rw [here]
  | .atBlock before head between nodes after start => by
      intro same
      rw [Node.sites] at same
      rw [Node.judged, Node.judged, judgedIn_congr address 0 nodes same]
  | .atStatement .. => fun _ => by rw [Node.judged, Node.judged]
  | .declaration .. => fun _ => by rw [Node.judged, Node.judged]
  | .comment .. => fun _ => by rw [Node.judged, Node.judged]

theorem judgedIn_congr (block : Address) (number : Nat) :
    ∀ (nodes : List Node),
      (∀ site ∈ sitesIn block number nodes,
        verdictAt? calls site.address = verdictAt? others site.address) →
      judgedIn calls block number nodes = judgedIn others block number nodes
  | [] => fun _ => rfl
  | node :: rest => by
      intro same
      rw [sitesIn] at same
      obtain ⟨here, behind⟩ := List.forall_mem_append.mp same
      rw [judgedIn, judgedIn, judged_congr _ node here, judgedIn_congr block _ rest behind]

end

mutual

theorem judged_nil (address : Address) : ∀ (node : Node), node.judged [] address = [node]
  | .rule before selector between nodes after start => by
      rw [Node.judged, judgedIn_nil address 0 nodes]
      rfl
  | .atBlock before head between nodes after start => by
      rw [Node.judged, judgedIn_nil address 0 nodes]
  | .atStatement .. => by rw [Node.judged]
  | .declaration .. => by rw [Node.judged]
  | .comment .. => by rw [Node.judged]

/-- Without any answers everything stays. -/
theorem judgedIn_nil (block : Address) (number : Nat) :
    ∀ (nodes : List Node), judgedIn [] block number nodes = nodes
  | [] => rfl
  | node :: rest => by
      rw [judgedIn, judged_nil _ node, judgedIn_nil block _ rest]
      rfl

end

/-- Calls about other rules leave nodes as they are. -/
theorem judgedIn_eq_self
    {block : Address}
    {number : Nat}
    {nodes : List Node}
    (elsewhere : ∀ site ∈ sitesIn block number nodes, ∀ call ∈ calls, call.Elsewhere site) :
    judgedIn calls block number nodes = nodes := by
  have unsaid : ∀ site ∈ sitesIn block number nodes,
      verdictAt? calls site.address = verdictAt? [] site.address := by
    intro site member
    refine verdictAt?_eq_none fun call isCall same => ?_
    exact elsewhere site member call isCall (same ▸ List.prefix_refl _)
  rw [judgedIn_congr block number nodes unsaid, judgedIn_nil]

end Verdicts

/-! ## Walks ask in order -/

section Walk

variable {ε σ : Type} {visit : Visitor ε σ}

/-- What a walk over some nodes asks, what it leaves, and how it ends. -/
structure Asks
    (visit : Visitor ε σ)
    (state : σ)
    (sites : List Site)
    (judged : List Call → List Node)
    (walked : Walked ε σ)
    (calls : List Call)
    (unanswered : List Site) :
    Prop where
  /-- The rules that it asks about come first among those that stand in no dropped
  rule. -/
  order : unstruck calls sites = calls.map Call.site ++ unanswered
  /-- Every rule has met its verdict. -/
  nodes : walked.nodes = judged calls
  /-- The calls are made one after another, and after the last one there is no rule
  left or a call fails. -/
  ends : Ends visit state calls unanswered walked.failure walked.state

theorem Answers.append
    {state next final : σ}
    {calls others : List Call}
    (answers : Answers visit state calls next)
    (further : Answers visit next others final) :
    Answers visit state (calls ++ others) final := by
  induction answers with
  | nil => exact further
  | cons answer _ ih => exact .cons answer (ih further)

theorem Ends.prepend
    {state next final : σ}
    {calls others : List Call}
    {unanswered : List Site}
    {failure : Option ε}
    (answers : Answers visit state calls next)
    (ends : Ends visit next others unanswered failure final) :
    Ends visit state (calls ++ others) unanswered failure final := by
  cases ends with
  | complete further => exact .complete (answers.append further)
  | failed further fails => exact .failed (answers.append further) fails

/-- The rules asked about are among the rules of the nodes. -/
theorem Asks.mem_sites
    {state : σ}
    {sites : List Site}
    {judged : List Call → List Node}
    {walked : Walked ε σ}
    {calls : List Call}
    {unanswered : List Site}
    (asks : Asks visit state sites judged walked calls unanswered) :
    ∀ call ∈ calls, call.site ∈ sites := by
  intro call member
  have listed : call.site ∈ unstruck calls sites := by
    rw [asks.order]
    exact List.mem_append_left _ (List.mem_map_of_mem member)
  exact (List.mem_filter.mp listed).1

section Nodes

variable {state : σ} {calls : List Call} {unanswered : List Site}

/-- A rule about which the call fails. -/
theorem asks_of_failed
    {address : Address}
    {before selector between after : Text}
    {nodes : List Node}
    {start : Position}
    {failure : ε}
    {final : σ}
    (answer : visit ⟨before, selector, between, nodes, after, start⟩ state =
      (.error failure, final)) :
    Asks visit state ((Node.rule before selector between nodes after start).sites address)
      (fun calls => (Node.rule before selector between nodes after start).judged calls address)
      ⟨[.rule before selector between nodes after start], some failure, final⟩ []
      ((Node.rule before selector between nodes after start).sites address) where
  order := unstruck_eq_self (by simp)
  nodes := (judged_nil address _).symm
  ends := by
    rw [Node.sites]
    exact .failed .nil answer

/-- A rule that is dropped, with all that is inside it. -/
theorem asks_of_dropped
    {address : Address}
    {before selector between after : Text}
    {nodes : List Node}
    {start : Position}
    {final : σ}
    (answer : visit ⟨before, selector, between, nodes, after, start⟩ state =
      (.ok .drop, final)) :
    Asks visit state ((Node.rule before selector between nodes after start).sites address)
      (fun calls => (Node.rule before selector between nodes after start).judged calls address)
      ⟨[], none, final⟩
      [⟨⟨address, before, selector, between, nodes, after, start⟩, .drop⟩] [] where
  order := by
    rw [Node.sites, unstruck, List.filter_cons_of_pos (by simp [Call.Strikes]),
      List.filter_eq_nil_iff.mpr]
    · rfl
    · intro site inside
      obtain ⟨leads, further⟩ := isPrefix_and_ne_of_mem_sitesIn inside
      simp [Call.Strikes, leads, further]
  nodes := by
    rw [Node.judged]
    simp [verdictAt?]
  ends := .complete (.cons answer .nil)

/-- A rule that stays, and a walk over what is inside it. -/
theorem Asks.of_kept
    {address : Address}
    {before selector kept between after : Text}
    {nodes : List Node}
    {start : Position}
    {next : σ}
    {inner : Walked ε σ}
    (answer : visit ⟨before, selector, between, nodes, after, start⟩ state =
      (.ok (.keep kept), next))
    (inside : Asks visit next (sitesIn address 0 nodes)
      (fun calls => judgedIn calls address 0 nodes) inner calls unanswered) :
    Asks visit state ((Node.rule before selector between nodes after start).sites address)
      (fun calls => (Node.rule before selector between nodes after start).judged calls address)
      ⟨[.rule before kept between inner.nodes after start], inner.failure, inner.state⟩
      (⟨⟨address, before, selector, between, nodes, after, start⟩, .keep kept⟩ :: calls)
      unanswered where
  order := by
    have outside : ∀ call ∈ calls, ¬call.site.address <+: address := by
      intro call member leads
      obtain ⟨further, differs⟩ := isPrefix_and_ne_of_mem_sitesIn (inside.mem_sites call member)
      exact differs (further.eq_of_length_le leads.length_le)
    rw [Node.sites, unstruck, List.filter_cons_of_pos, List.map_cons, List.cons_append,
      ← inside.order]
    · congr 1
      apply List.filter_congr
      intro site member
      simp [Call.Strikes]
    · simp only [decide_eq_true_eq, List.forall_mem_cons]
      exact ⟨by simp [Call.Strikes], fun call member strikes =>
        outside call member strikes.2.1⟩
  nodes := by
    have others : judgedIn
        (⟨⟨address, before, selector, between, nodes, after, start⟩, .keep kept⟩ :: calls)
          address 0 nodes = judgedIn calls address 0 nodes := by
      apply judgedIn_congr
      intro site member
      have differs := (isPrefix_and_ne_of_mem_sitesIn member).2
      simp [verdictAt?, differs]
    rw [Node.judged, others, ← inside.nodes]
    simp [verdictAt?]
  ends := .prepend (.cons answer .nil) inside.ends

variable {block : Address} {number : Nat} {node : Node} {rest : List Node}

/-- A walk that fails in a node does not go on behind it. -/
theorem Asks.before
    {walked : Walked ε σ}
    {failure : ε}
    (first : Asks visit state (node.sites (block ++ [number]))
      (fun calls => node.judged calls (block ++ [number])) walked calls unanswered)
    (failed : walked.failure = some failure) :
    ∃ unanswered, Asks visit state (sitesIn block number (node :: rest))
      (fun calls => judgedIn calls block number (node :: rest))
      ⟨walked.nodes ++ rest, some failure, walked.state⟩ calls unanswered := by
  have apart : ∀ site ∈ sitesIn block (number + 1) rest, ∀ call ∈ calls, call.Elsewhere site :=
    fun site behind call member =>
      (not_isPrefix_of_mem_sites (first.mem_sites call member) behind).1
  refine ⟨unanswered ++ sitesIn block (number + 1) rest, ?_, ?_, ?_⟩
  · rw [sitesIn, unstruck_append, first.order, List.append_assoc,
      unstruck_eq_self fun site behind call member =>
        (apart site behind call member).not_strikes]
  · rw [judgedIn, judgedIn_eq_self apart]
    exact congrArg (· ++ rest) first.nodes
  · have ends := first.ends
    rw [failed] at ends
    cases ends with
    | failed answers fails => exact .failed answers fails

/-- A walk that does not fail in a node goes on behind it. -/
theorem Asks.append
    {walked behind : Walked ε σ}
    {others : List Call}
    {later : List Site}
    (first : Asks visit state (node.sites (block ++ [number]))
      (fun calls => node.judged calls (block ++ [number])) walked calls unanswered)
    (succeeded : walked.failure = none)
    (second : Asks visit walked.state (sitesIn block (number + 1) rest)
      (fun calls => judgedIn calls block (number + 1) rest) behind others later) :
    Asks visit state (sitesIn block number (node :: rest))
      (fun calls => judgedIn calls block number (node :: rest))
      ⟨walked.nodes ++ behind.nodes, behind.failure, behind.state⟩ (calls ++ others) later := by
  have ends := first.ends
  rw [succeeded] at ends
  cases ends with
  | complete answers =>
      have apart : ∀ site ∈ node.sites (block ++ [number]), ∀ call ∈ others,
          call.Elsewhere site := fun site here call member =>
        (not_isPrefix_of_mem_sites here (second.mem_sites call member)).2
      have apartBehind : ∀ site ∈ sitesIn block (number + 1) rest, ∀ call ∈ calls,
          call.Elsewhere site := fun site isBehind call member =>
        (not_isPrefix_of_mem_sites (first.mem_sites call member) isBehind).1
      refine ⟨?_, ?_, .prepend answers second.ends⟩
      · have order := first.order
        rw [List.append_nil] at order
        rw [sitesIn, unstruck_append,
          unstruck_eq_of_append_right fun site here call member =>
            (apart site here call member).not_strikes,
          unstruck_eq_of_append_left fun site isBehind call member =>
            (apartBehind site isBehind call member).not_strikes,
          order, second.order, List.map_append, List.append_assoc]
      · have here : node.judged (calls ++ others) (block ++ [number]) =
            node.judged calls (block ++ [number]) := by
          apply judged_congr
          intro site isHere
          have unsaid : verdictAt? others site.address = none :=
            verdictAt?_eq_none fun call member same =>
              apart site isHere call member (same ▸ List.prefix_refl _)
          rw [verdictAt?_append, unsaid, Option.or_none]
        have there : judgedIn (calls ++ others) block (number + 1) rest =
            judgedIn others block (number + 1) rest := by
          apply judgedIn_congr
          intro site isBehind
          have unsaid : verdictAt? calls site.address = none :=
            verdictAt?_eq_none fun call member same =>
              apartBehind site isBehind call member (same ▸ List.prefix_refl _)
          rw [verdictAt?_append, unsaid, Option.none_or]
        rw [judgedIn, here, there]
        exact congr (congrArg _ first.nodes) second.nodes

end Nodes

mutual

/-- A walk over one node asks about its rules in order. -/
theorem exists_asks_of_retainNode (address : Address) :
    ∀ (node : Node) (state : σ), ∃ calls unanswered,
      Asks visit state (node.sites address) (fun calls => node.judged calls address)
        (retainNode visit node state) calls unanswered
  | .rule before selector between nodes after start, state => by
      rw [retainNode]
      split
      · rename_i answer
        exact ⟨_, _, asks_of_failed answer⟩
      · rename_i answer
        exact ⟨_, _, asks_of_dropped answer⟩
      · rename_i kept next answer
        obtain ⟨calls, unanswered, inside⟩ := exists_asks_of_retainNodes address 0 nodes next
        exact ⟨_, unanswered, .of_kept answer inside⟩
  | .atBlock before head between nodes after start, state => by
      obtain ⟨calls, unanswered, inside⟩ := exists_asks_of_retainNodes address 0 nodes state
      refine ⟨calls, unanswered, ?_, ?_, ?_⟩
      · rw [Node.sites]
        exact inside.order
      · rw [retainNode, Node.judged]
        exact congrArg (fun nodes => [Node.atBlock before head between nodes after start])
          inside.nodes
      · rw [retainNode]
        exact inside.ends
  | .atStatement .., _ => ⟨[], [], by
      rw [Node.sites, retainNode]; exact ⟨rfl, (judged_nil _ _).symm, .complete .nil⟩⟩
  | .declaration .., _ => ⟨[], [], by
      rw [Node.sites, retainNode]; exact ⟨rfl, (judged_nil _ _).symm, .complete .nil⟩⟩
  | .comment .., _ => ⟨[], [], by
      rw [Node.sites, retainNode]; exact ⟨rfl, (judged_nil _ _).symm, .complete .nil⟩⟩

/-- A walk over nodes asks about their rules in order. -/
theorem exists_asks_of_retainNodes (block : Address) (number : Nat) :
    ∀ (nodes : List Node) (state : σ), ∃ calls unanswered,
      Asks visit state (sitesIn block number nodes)
        (fun calls => judgedIn calls block number nodes)
        (retainNodes visit nodes state) calls unanswered
  | [], _ => ⟨[], [], rfl, rfl, .complete .nil⟩
  | node :: rest, state => by
      obtain ⟨calls, unanswered, first⟩ := exists_asks_of_retainNode (block ++ [number]) node state
      rw [retainNodes]
      split
      · rename_i failed
        obtain ⟨later, asks⟩ := first.before failed
        exact ⟨calls, later, asks⟩
      · rename_i succeeded
        obtain ⟨others, later, second⟩ := exists_asks_of_retainNodes block (number + 1) rest
          (retainNode visit node state).state
        exact ⟨calls ++ others, later, first.append succeeded second⟩

end

/-- Every walk over a stylesheet asks, in the order of the text and once each, about the
rules that are inside no dropped one.  Either it asks about all of them, or the last
call fails and the rules behind are not asked about.  It leaves the stylesheet in which
every rule has met its verdict, and a walk in place does the same. -/
theorem retainRules_asks_in_order
    (visit : Visitor ε σ)
    (sheet : Stylesheet)
    (state : σ) :
    ∃ calls unanswered,
      (sheet.sites.map Site.address).Pairwise (· < ·) ∧
      unstruck calls sheet.sites = calls.map Call.site ++ unanswered ∧
      Ends visit state calls unanswered (sheet.retainRules visit state).2.1
        (sheet.retainRules visit state).2.2 ∧
      (sheet.retainRules visit state).1 = sheet.judged calls ∧
      sheet.sweepRules visit state = sheet.retainRules visit state := by
  obtain ⟨calls, unanswered, asks⟩ := exists_asks_of_retainNodes [] 0 sheet.nodes state
  refine ⟨calls, unanswered, pairwise_sitesIn [] 0 sheet.nodes, asks.order, asks.ends, ?_,
    sheet.sweepRules_eq_retainRules visit state⟩
  rw [Stylesheet.retainRules, Stylesheet.judged, asks.nodes]

end Walk

end Css
end ComponentPipeline
