import Dataflow.Proofs.Gaudi.Run
import Dataflow.Proofs.Results

set_option autoImplicit false

namespace Dataflow.Gaudi

variable {K : Type} [Ord K] {key : NodeId → K} {graph : Graph} {deps : Dependencies} {run after : Run key}

theorem foldl_betterBundle (key : NodeId → K) (held : NodeId × UInt32) (candidates : List (NodeId × UInt32)) :
    ∃ pick ∈ held :: candidates, candidates.foldl (betterBundle key) (some held) = some pick := by
  induction candidates generalizing held with
  | nil => exact ⟨held, .head _, rfl⟩
  | cons head rest ih =>
    rw [List.foldl_cons, betterBundle]
    split
    next =>
      obtain ⟨pick, member, picked⟩ := ih head
      exact ⟨pick, .tail _ member, picked⟩
    next =>
      obtain ⟨pick, member, picked⟩ := ih held
      exact ⟨pick, by grind, picked⟩

theorem Run.mem_candidates {filter : BundleState key → Bool} {head : NodeId} {bundle : UInt32} :
    (head, bundle) ∈ run.candidates filter ↔ ∃ state, run.bundles.get? bundle = some state ∧
      filter state = true ∧ state.free.next? = some head := by
  simp only [Run.candidates, List.mem_filterMap, Prod.exists]
  constructor
  next =>
    rintro ⟨other, state, entry, candidate⟩
    split at candidate
    next passes =>
      obtain ⟨first, next, equal⟩ := Option.map_eq_some_iff.mp candidate
      cases equal
      exact ⟨state, (run.bundles.mem_entries_iff _ _).mp entry, passes, next⟩
    next => cases candidate
  next =>
    rintro ⟨state, found, passes, next⟩
    exact ⟨bundle, state, (run.bundles.mem_entries_iff _ _).mpr found, by simp [passes, next]⟩

theorem Run.bestBundle?_eq_some {filter : BundleState key → Bool} {bundle : UInt32}
    (best : run.bestBundle? filter = some bundle) :
    ∃ state head, run.bundles.get? bundle = some state ∧ filter state = true ∧
      head ∈ state.free.nodes := by
  obtain ⟨⟨head, other⟩, picked, rfl⟩ := Option.map_eq_some_iff.mp best
  have member : (head, other) ∈ run.candidates filter := by
    cases candidates : run.candidates filter with
    | nil => rw [candidates] at picked; cases picked
    | cons first rest =>
      obtain ⟨pick, member, folded⟩ := foldl_betterBundle key first rest
      rw [candidates, List.foldl_cons, betterBundle, folded] at picked
      exact Option.some.inj picked ▸ member
  obtain ⟨state, found, passes, next⟩ := Run.mem_candidates.mp member
  exact ⟨state, head, found, passes, List.mem_of_mem_head? next⟩

theorem Run.bestBundle?_eq_none {filter : BundleState key → Bool} (best : run.bestBundle? filter = none)
    {bundle : UInt32} {state : BundleState key} (found : run.bundles.get? bundle = some state)
    (passes : filter state = true) : state.free.nodes = [] := by
  by_contra nonempty
  obtain ⟨head, next⟩ : ∃ head, state.free.next? = some head := by
    rw [← Option.isSome_iff_exists, Frontier.next?, List.isSome_head?]
    simpa using nonempty
  have member := Run.mem_candidates.mpr ⟨state, found, passes, next⟩
  rw [Run.bestBundle?, Option.map_eq_none_iff] at best
  cases candidates : run.candidates filter with
  | nil => rw [candidates] at member; cases member
  | cons first rest =>
    obtain ⟨pick, -, folded⟩ := foldl_betterBundle key first rest
    rw [candidates, List.foldl_cons, betterBundle, folded] at best
    cases best

def Run.Idle (graph : Graph) (deps : Dependencies) (run : Run key) : Prop :=
  ∀ bundle node, run.active = some bundle → deps.network.Free run.order node →
    graph.bundleOf node ≠ some bundle

def Choice.Holds (graph : Graph) (deps : Dependencies) (run : Run key) : Choice key → Prop
  | .member bundle state node rest => run.active = some bundle ∧ run.bundles.get? bundle = some state ∧
      state.free.nodes = node :: rest
  | .start bundle => run.Idle graph deps ∧ openPairs graph deps run.order bundle = 0 ∧
      ∃ node, deps.network.Free run.order node ∧ graph.bundleOf node = some bundle
  | .unbundled node rest => run.Idle graph deps ∧ run.unbundled.pop? = some (node, rest)
  | .force bundle => run.Idle graph deps ∧
      (∃ node, deps.network.Free run.order node ∧ graph.bundleOf node = some bundle) ∧
      ∀ node, deps.network.Free run.order node →
        ∃ bundle, graph.bundleOf node = some bundle ∧ openPairs graph deps run.order bundle ≠ 0
  | .stop => ∀ node, ¬ deps.network.Free run.order node

namespace Run.Sound

variable (sound : run.Sound graph deps)
include sound

theorem mem_free {bundle : UInt32} {state : BundleState key} (found : run.bundles.get? bundle = some state)
    (node : NodeId) :
    node ∈ state.free.nodes ↔ deps.network.Free run.order node ∧ graph.bundleOf node = some bundle :=
  (sound.matched.bundled found).listed node

theorem listed {node : NodeId} (ready : deps.network.Free run.order node) :
    graph.bundleOf node = none ∧ node ∈ run.unbundled.frontier.nodes ∨
      ∃ bundle state, graph.bundleOf node = some bundle ∧ run.bundles.get? bundle = some state ∧
        node ∈ state.free.nodes := by
  cases bundled : graph.bundleOf node with
  | none => exact Or.inl ⟨rfl, (sound.matched.unbundledListed node).mpr ⟨ready, bundled⟩⟩
  | some bundle =>
    obtain ⟨state, found⟩ := sound.matched.present bundled
    exact Or.inr ⟨bundle, state, rfl, found, (sound.mem_free found node).mpr ⟨ready, bundled⟩⟩

theorem isEligible_iff {bundle : UInt32} {state : BundleState key}
    (found : run.bundles.get? bundle = some state) :
    state.isEligible = true ↔ openPairs graph deps run.order bundle = 0 ∧ state.free.nodes ≠ [] := by
  simp [BundleState.isEligible, Frontier.isEmpty, (sound.matched.bundled found).pairs_eq]

theorem choose_holds (idle : run.Idle graph deps) : run.choose.Holds graph deps run := by
  have starts {filter : BundleState key → Bool} {bundle : UInt32}
      (eligible : ∀ state, filter state = true → state.isEligible = true)
      (best : run.bestBundle? filter = some bundle) : (Choice.start bundle : Choice key).Holds graph deps run := by
    obtain ⟨state, head, found, passes, member⟩ := Run.bestBundle?_eq_some best
    exact ⟨idle, ((sound.isEligible_iff found).mp (eligible state passes)).1, head,
      (sound.mem_free found head).mp member⟩
  unfold Run.choose
  split
  next bundle best => exact starts (fun state passes => (Bool.and_eq_true_iff.mp passes).1) best
  next vectors =>
    split
    next node rest popped => exact ⟨idle, popped⟩
    next popped =>
      have empty : run.unbundled.frontier.nodes = [] := by
        by_contra nonempty
        obtain ⟨node, rest, some, -⟩ := OffsetFrontier.pop?_of_ne_nil sound.matched.unbundledSound nonempty
        rw [popped] at some
        cases some
      have bundled {node : NodeId} (ready : deps.network.Free run.order node) :
          ∃ bundle state, graph.bundleOf node = some bundle ∧ run.bundles.get? bundle = some state ∧
            node ∈ state.free.nodes := by
        rcases sound.listed ready with ⟨-, member⟩ | found
        next => rw [empty] at member; cases member
        next => exact found
      split
      next bundle best => exact starts (fun state passes => (Bool.and_eq_true_iff.mp passes).1) best
      next scalars =>
        -- Neither choice of an eligible bundle found one, so whatever is free waits in a blocked bundle.
        have blocked {bundle : UInt32} {state : BundleState key} {node : NodeId}
            (found : run.bundles.get? bundle = some state) (member : node ∈ state.free.nodes) :
            openPairs graph deps run.order bundle ≠ 0 := by
          intro closed
          have eligible := (sound.isEligible_iff found).mpr ⟨closed, List.ne_nil_of_mem member⟩
          cases pipe : state.scalarPipe with
          | false => simp [Run.bestBundle?_eq_none vectors found (by simp [eligible, pipe])] at member
          | true => simp [Run.bestBundle?_eq_none scalars found (by simp [eligible, pipe])] at member
        split
        next bundle best =>
          obtain ⟨state, head, found, -, member⟩ := Run.bestBundle?_eq_some best
          refine ⟨idle, ⟨head, (sound.mem_free found head).mp member⟩, fun node ready => ?_⟩
          obtain ⟨bundle, state, bundled, found, member⟩ := bundled ready
          exact ⟨bundle, bundled, blocked found member⟩
        next none =>
          intro node ready
          obtain ⟨bundle, state, -, found, member⟩ := bundled ready
          have empty := Run.bestBundle?_eq_none none found
            (by simpa [Frontier.isEmpty] using List.ne_nil_of_mem member)
          simp [empty] at member

theorem choice_holds : run.choice.Holds graph deps run := by
  unfold Run.choice
  split
  next inactive => exact sound.choose_holds fun _ _ active => by simp [inactive] at active
  next bundle active =>
    have idle (empty : ∀ node, graph.bundleOf node = some bundle → ¬ deps.network.Free run.order node) :
        run.Idle graph deps := by
      intro other node same ready bundled
      rw [active] at same
      cases same
      exact empty node bundled ready
    split
    next absent =>
      refine sound.choose_holds (idle ?_)
      intro node bundled
      obtain ⟨state, found⟩ := sound.matched.present bundled
      simp [absent] at found
    next state found =>
      split
      next empty =>
        refine sound.choose_holds (idle ?_)
        intro node bundled ready
        simpa [empty] using (sound.mem_free found node).mpr ⟨ready, bundled⟩
      next node rest nodes => exact ⟨active, found, nodes⟩

end Run.Sound

structure Run.Places (graph : Graph) (deps : Dependencies) (run : Run key) (node : NodeId) (after : Run key) :
    Prop where
  ready : deps.network.Free run.order node
  order_eq : after.order = run.order ++ [node]
  sound : after.Sound graph deps

theorem Run.Sound.activate (sound : run.Sound graph deps) (active : Option UInt32) :
    { run with active }.Sound graph deps :=
  ⟨sound.progress, sound.counted, sound.matched⟩

section

variable (fits : graph.OffsetsFit) (net : deps.network.Sound)
  (sound : run.Sound graph deps)
include fits net sound

theorem Run.Sound.step_member {bundle : UInt32} {state : BundleState key} {node : NodeId} {rest : List NodeId}
    (choice : run.choice = .member bundle state node rest) :
    ∃ after, run.step graph deps = .ok (some after) ∧ run.Places graph deps node after ∧
      after.active = some bundle ∧ graph.bundleOf node = some bundle := by
  have holds := sound.choice_holds
  rw [choice] at holds
  obtain ⟨active, found, nodes⟩ := holds
  have old := sound.matched.bundled found
  obtain ⟨ready, bundled⟩ := (sound.mem_free found node).mp (by simp [nodes])
  have distinct := old.distinct
  rw [nodes] at distinct
  have matched : Matches graph (fun other => deps.network.Free run.order other ∧ other ≠ node)
      (remainingMembers graph run.order) (openPairs graph deps run.order)
      (run.bundles.insert bundle { state with free := ⟨rest⟩ }) run.unbundled := by
    refine sound.matched.setBundle ⟨(List.nodup_cons.mp distinct).2, ?_, old.remaining_eq, old.pairs_eq⟩
      (fun _ _ => ⟨rfl, rfl⟩) ?_
    next =>
      intro other
      have member := sound.mem_free found other
      rw [nodes] at member
      have fresh := (List.nodup_cons.mp distinct).1
      grind
    next =>
      intro other outside
      grind
  obtain ⟨after, emitted, sound', order, same⟩ := Run.emit_ok fits net
    { run with bundles := run.bundles.insert bundle { state with free := ⟨rest⟩ } } sound.progress
    sound.counted ready matched
  refine ⟨after, ?_, ⟨ready, order, sound'⟩, same.trans active, bundled⟩
  simp only [Run.step, choice, emitted, bind, Except.bind]
  rfl

theorem Run.Sound.step_unbundled {node : NodeId} {rest : OffsetFrontier key}
    (choice : run.choice = .unbundled node rest) :
    ∃ after, run.step graph deps = .ok (some after) ∧ run.Places graph deps node after ∧
      after.active = none ∧ graph.bundleOf node = none := by
  have holds := sound.choice_holds
  rw [choice] at holds
  obtain ⟨-, popped⟩ := holds
  have nonempty : run.unbundled.frontier.nodes ≠ [] := by
    intro empty
    rw [OffsetFrontier.pop?_of_nil empty] at popped
    cases popped
  obtain ⟨first, others, popped', sound', member, listed⟩ :=
    OffsetFrontier.pop?_of_ne_nil sound.matched.unbundledSound nonempty
  rw [popped] at popped'
  cases popped'
  obtain ⟨ready, unbundled⟩ := (sound.matched.unbundledListed node).mp member
  have matched : Matches graph (fun other => deps.network.Free run.order other ∧ other ≠ node)
      (remainingMembers graph run.order) (openPairs graph deps run.order) run.bundles rest := by
    refine sound.matched.setUnbundled sound' ?_ ?_
    next =>
      intro other
      rw [listed, sound.matched.unbundledListed]
      tauto
    next =>
      intro other bundled
      grind
  obtain ⟨after, emitted, sound', order, same⟩ := Run.emit_ok fits net
    { run with unbundled := rest, active := none } sound.progress sound.counted ready matched
  refine ⟨after, ?_, ⟨ready, order, sound'⟩, same, unbundled⟩
  simp only [Run.step, choice, emitted, bind, Except.bind]
  rfl

end

-- Two steps for each node to place and one to find nothing left; one is saved while an active member is free.
def Run.budget (deps : Dependencies) (run : Run key) : Nat :=
  2 * (deps.network.nodes.length - run.order.length) +
    match run.choice with
    | .member .. => 0
    | _ => 1

theorem Run.budget_le (deps : Dependencies) (run : Run key) :
    run.budget deps ≤ 2 * (deps.network.nodes.length - run.order.length) + 1 := by
  unfold Run.budget
  split <;> omega

theorem Run.Sound.length_lt (sound : run.Sound graph deps) {node : NodeId}
    (ready : deps.network.Free run.order node) : run.order.length < deps.network.nodes.length := by
  by_contra full
  exact sound.progress.not_free_of_full (Nat.le_of_not_lt full) node ready

theorem Run.Places.budget_lt (sound : run.Sound graph deps) {node : NodeId}
    (places : run.Places graph deps node after) : after.budget deps < run.budget deps := by
  have room := sound.length_lt places.ready
  have bound := after.budget_le deps
  rw [places.order_eq, List.length_append, List.length_singleton] at bound
  unfold Run.budget at *
  omega

theorem Run.Sound.choice_activate (sound : run.Sound graph deps) {bundle : UInt32}
    (waits : ∃ node, deps.network.Free run.order node ∧ graph.bundleOf node = some bundle) :
    ∃ state node rest, { run with active := some bundle }.choice = .member bundle state node rest := by
  obtain ⟨node, ready, bundled⟩ := waits
  obtain ⟨state, found⟩ := sound.matched.present bundled
  have member := (sound.mem_free found node).mpr ⟨ready, bundled⟩
  cases nodes : state.free.nodes with
  | nil => rw [nodes] at member; cases member
  | cons first rest => exact ⟨state, first, rest, by simp only [Run.choice, found, nodes]⟩

theorem Run.Sound.budget_activate_lt (sound : run.Sound graph deps) {bundle : UInt32}
    (waits : ∃ node, deps.network.Free run.order node ∧ graph.bundleOf node = some bundle)
    (full : run.budget deps = 2 * (deps.network.nodes.length - run.order.length) + 1) :
    { run with active := some bundle }.budget deps < run.budget deps := by
  obtain ⟨state, node, rest, next⟩ := sound.choice_activate waits
  rw [full, Run.budget, next]
  exact Nat.lt_succ_self _

def Run.Leads (graph : Graph) (deps : Dependencies) : Run key → Run key → Prop :=
  Relation.ReflTransGen fun run after => run.step graph deps = .ok (some after)

inductive Run.Ends (graph : Graph) (deps : Dependencies) : Nat → Run key → Run key → Prop
  | stop {run : Run key} (stopped : run.step graph deps = .ok none) : Run.Ends graph deps 1 run run
  | step {calls : Nat} {run after last : Run key} (stepped : run.step graph deps = .ok (some after))
      (rest : Run.Ends graph deps calls after last) : Run.Ends graph deps (calls + 1) run last

theorem Run.Ends.leads {calls : Nat} {last : Run key} (ends : Run.Ends graph deps calls run last) :
    Run.Leads graph deps run last := by
  induction ends with
  | stop => exact .refl
  | step stepped _ ih => exact .head stepped ih

theorem Run.Ends.steps_eq {calls count : Nat} {last : Run key} (ends : Run.Ends graph deps calls run last)
    (enough : calls ≤ count) : Run.steps graph deps count run = .ok last.order := by
  induction ends generalizing count with
  | stop stopped =>
    obtain ⟨count, rfl⟩ := Nat.exists_eq_add_of_le' enough
    simp only [Run.steps, stopped, bind, Except.bind]
    rfl
  | step stepped _ ih =>
    obtain ⟨rest, rfl⟩ := Nat.exists_eq_add_of_le' (Nat.le_trans (Nat.le_add_left 1 _) enough)
    simp only [Run.steps, stepped, bind, Except.bind]
    exact ih (Nat.le_of_succ_le_succ enough)

theorem Run.choice_eq_stop (stopped : run.step graph deps = .ok none) : run.choice = .stop := by
  unfold Run.step at stopped
  split at stopped
  next => obtain ⟨after, -, same⟩ := bind_eq_ok.mp stopped; cases same
  next => cases stopped
  next => obtain ⟨after, -, same⟩ := bind_eq_ok.mp stopped; cases same
  next => cases stopped
  next choice => exact choice

section

variable (fits : graph.OffsetsFit) (net : deps.network.Sound)
include fits net

theorem Run.Sound.step_ok (sound : run.Sound graph deps) :
    run.step graph deps = .ok none ∧ (∀ node, ¬ deps.network.Free run.order node) ∨
      ∃ after, run.step graph deps = .ok (some after) ∧ after.Sound graph deps ∧
        after.budget deps < run.budget deps := by
  have holds := sound.choice_holds
  cases choice : run.choice with
  | member bundle state node rest =>
    obtain ⟨after, stepped, places, -⟩ := sound.step_member fits net choice
    exact Or.inr ⟨after, stepped, places.sound, places.budget_lt sound⟩
  | unbundled node rest =>
    obtain ⟨after, stepped, places, -⟩ := sound.step_unbundled fits net choice
    exact Or.inr ⟨after, stepped, places.sound, places.budget_lt sound⟩
  | start bundle =>
    rw [choice] at holds
    refine Or.inr ⟨{ run with active := some bundle }, by rw [Run.step, choice], sound.activate _, ?_⟩
    exact sound.budget_activate_lt holds.2.2 (by rw [Run.budget, choice])
  | force bundle =>
    rw [choice] at holds
    refine Or.inr ⟨{ run with active := some bundle }, by rw [Run.step, choice], sound.activate _, ?_⟩
    exact sound.budget_activate_lt holds.2.1 (by rw [Run.budget, choice])
  | stop =>
    rw [choice] at holds
    exact Or.inl ⟨by rw [Run.step, choice], holds⟩

theorem Run.Leads.sound (sound : run.Sound graph deps) (leads : Run.Leads graph deps run after) :
    after.Sound graph deps := by
  induction leads with
  | refl => exact sound
  | @tail between last _ stepped ih =>
    rcases ih.step_ok fits net with ⟨stopped, -⟩ | ⟨next, stepped', sound', -⟩
    next => cases stepped.symm.trans stopped
    next => cases stepped.symm.trans stepped'; exact sound'

theorem Run.Sound.ends (sound : run.Sound graph deps) :
    ∃ calls last, Run.Ends graph deps calls run last ∧ calls ≤ run.budget deps ∧ last.Sound graph deps ∧
      ∀ node, ¬ deps.network.Free last.order node := by
  induction budget : run.budget deps using Nat.strongRecOn generalizing run with
  | ind budget ih =>
    subst budget
    rcases sound.step_ok fits net with ⟨stopped, stuck⟩ | ⟨after, stepped, sound', closer⟩
    next =>
      refine ⟨1, run, .stop stopped, ?_, sound, stuck⟩
      rw [Run.budget, Run.choice_eq_stop stopped]
      exact Nat.le_add_left _ _
    next =>
      obtain ⟨calls, last, ends, within, final⟩ := ih _ closer sound' rfl
      exact ⟨calls + 1, last, .step stepped ends, Nat.lt_of_le_of_lt within closer, final⟩

omit fits net

structure Counted (graph : Graph) (deps : Dependencies) (nodes : List Node)
    (bundles : Table UInt32 (BundleState key)) : Prop where
  absent : ∀ {bundle}, bundles.get? bundle = none →
    nodes.filter (fun node => node.bundleIndex? = some bundle) = []
  present : ∀ {bundle state}, bundles.get? bundle = some state → state.free = {} ∧
    state.remaining = (nodes.filter fun node => node.bundleIndex? = some bundle).length ∧
    state.externalBlockers = ((nodes.filter fun node => node.bundleIndex? = some bundle).map fun node =>
      outsideBlockers graph deps [] bundle node.id).sum

theorem counted_countMember {nodes : List Node} {bundles : Table UInt32 (BundleState key)}
    (counted : Counted graph deps nodes bundles) (node : Node) :
    Counted graph deps (nodes ++ [node]) (countMember graph deps bundles node) := by
  unfold countMember
  cases bundled : node.annotations.bundle with
  | none =>
    have none : node.bundleIndex? = none := by simp [Node.bundleIndex?, bundled]
    constructor
    next => intro bundle missing; simpa [List.filter_append, none] using counted.absent missing
    next => intro bundle state found; simpa [List.filter_append, none] using counted.present found
  | some info =>
    have own : node.bundleIndex? = some info.bundleIndex := by simp [Node.bundleIndex?, bundled]
    -- The counters of the other bundles stay, and so do the nodes that they count.
    have others {bundle : UInt32} (differs : bundle ≠ info.bundleIndex) :
        (nodes ++ [node]).filter (fun node => node.bundleIndex? = some bundle) =
          nodes.filter fun node => node.bundleIndex? = some bundle := by
      simp [List.filter_append, own, Ne.symm differs]
    have outside : (deps.blockers node.id).countP (fun blocker => graph.bundleOf blocker ≠ some info.bundleIndex) =
        outsideBlockers graph deps [] info.bundleIndex node.id := by simp [outsideBlockers]
    simp only [outside]
    constructor
    next =>
      intro bundle missing
      by_cases same : bundle = info.bundleIndex
      next => simp [same] at missing
      next =>
        rw [Table.get?_insert_of_ne _ _ same] at missing
        rw [others same]
        exact counted.absent missing
    next =>
      intro bundle state found
      by_cases same : bundle = info.bundleIndex
      next =>
        subst same
        rw [Table.get?_insert_self] at found
        cases before : bundles.get? info.bundleIndex with
        | none =>
          rw [before] at found
          cases found
          simp [List.filter_append, own, counted.absent before]
        | some old =>
          rw [before] at found
          cases found
          simpa [List.filter_append, own] using counted.present before
      next =>
        rw [Table.get?_insert_of_ne _ _ same] at found
        rw [others same]
        exact counted.present found

theorem counted_foldl (nodes : List Node) :
    Counted graph deps nodes (nodes.foldl (countMember graph deps) (∅ : Table UInt32 (BundleState key))) := by
  induction nodes using List.reverseRecOn with
  | nil =>
    constructor
    next => intros; rfl
    next => intro bundle state found; cases found
  | append_singleton nodes node ih =>
    rw [List.foldl_append]
    exact counted_countMember ih node

theorem map_id_values (linked : graph.Linked) (bundle : UInt32) :
    (graph.nodes.values.filter fun node => node.bundleIndex? = some bundle).map Node.id =
      members graph bundle := by
  have entry {id : NodeId} {node : Node} (member : (id, node) ∈ graph.nodes.entries) :
      node.id = id ∧ graph.bundleOf id = node.bundleIndex? := by
    have found := (graph.nodes.mem_entries_iff id node).mp member
    exact ⟨linked.nodeKey found, by simp [Graph.bundleOf, found]⟩
  rw [members, Graph.nodeIds, Table.keys, Table.values, List.filter_map, List.filter_map, List.map_map]
  have filters : graph.nodes.entries.filter ((fun node => decide (node.bundleIndex? = some bundle)) ∘ Prod.snd) =
      graph.nodes.entries.filter ((fun node => decide (graph.bundleOf node = some bundle)) ∘ Prod.fst) := by
    refine List.filter_congr fun pair member => ?_
    simp [(entry member).2]
  rw [filters]
  exact List.map_congr_left fun pair member => (entry (List.mem_of_mem_filter member)).1

theorem matches_start (linked : graph.Linked) :
    Matches graph (fun _ => False) (remainingMembers graph []) (openPairs graph deps [])
      (graph.nodes.values.foldl (countMember graph deps) (∅ : Table UInt32 (BundleState key))) {} := by
  have counted : Counted graph deps graph.nodes.values
    (graph.nodes.values.foldl (countMember graph deps) (∅ : Table UInt32 (BundleState key))) := counted_foldl _
  constructor
  case present =>
    intro node bundle bundled
    have member := mem_members.mpr bundled
    rw [← map_id_values linked] at member
    rw [← Option.ne_none_iff_exists']
    intro missing
    rw [counted.absent missing] at member
    cases member
  case bundled =>
    intro bundle state found
    obtain ⟨empty, count, sum⟩ := counted.present found
    rw [← List.length_map Node.id, map_id_values linked] at count
    have sum' : state.externalBlockers =
        ((members graph bundle).map (outsideBlockers graph deps [] bundle)).sum := by
      rw [sum, ← map_id_values linked, List.map_map]
      rfl
    exact ⟨by simp [empty], by simp [empty], by simp [count, remainingMembers], sum'⟩
  case unbundledSound => exact OffsetFrontier.sound_empty
  case unbundledListed => simp

theorem start_ok (linked : graph.Linked) (fits : graph.OffsetsFit) (deps : Dependencies) (key : NodeId → K) :
    ∃ run, start graph deps key = .ok run ∧ run.Sound graph deps ∧ run.order = [] ∧ run.active = none := by
  obtain ⟨run, freed, course, matched⟩ := Run.makeFreeAll_ok fits
    ({ inDegrees := deps.inDegrees, bundles := graph.nodes.values.foldl (countMember graph deps) ∅ } :
      Run key) (matches_start linked) deps.roots
  have order : run.order = [] := course.order_eq
  have degrees : run.inDegrees = deps.inDegrees := course.inDegrees_eq
  refine ⟨run, freed, ⟨?_, ?_, ?_⟩, order, course.active_eq⟩
  next => rw [order]; exact .nil
  next => rw [order, degrees]; exact deps.degrees_inDegrees
  next =>
    have free : (fun other => other ∈ deps.roots ∨ False) = deps.network.Free [] := by
      funext other
      simp [deps.mem_roots]
    rwa [free, ← order] at matched

theorem run_ends (linked : graph.Linked) (fits : graph.OffsetsFit) (net : deps.network.Sound)
    (size : deps.size = graph.size) (key : NodeId → K) :
    ∃ (calls : Nat) (first last : Run key), start graph deps key = .ok first ∧ first.order = [] ∧
      first.Sound graph deps ∧ Run.Ends graph deps calls first last ∧ calls ≤ 2 * graph.size + 1 ∧
      last.Sound graph deps ∧ (∀ node, ¬ deps.network.Free last.order node) ∧
      Gaudi.run graph deps key = requireAll deps.network.nodes.length last.order := by
  obtain ⟨first, started, sound, order, -⟩ := start_ok linked fits deps key
  have length : deps.network.nodes.length = graph.size := deps.length_nodes.trans size
  obtain ⟨calls, last, ends, within, sound', stuck⟩ := sound.ends fits net
  have bound : calls ≤ 2 * graph.size + 1 := by
    have budget := first.budget_le deps
    rw [order, length] at budget
    exact Nat.le_trans within budget
  refine ⟨calls, first, last, started, order, sound, ends, bound, sound', stuck, ?_⟩
  simp only [Gaudi.run, started, ends.steps_eq bound, bind, Except.bind, length]

theorem run_leads (linked : graph.Linked) (fits : graph.OffsetsFit) (net : deps.network.Sound)
    (size : deps.size = graph.size) (key : NodeId → K) :
    ∃ first last : Run key, start graph deps key = .ok first ∧ Run.Leads graph deps first last ∧
      last.Sound graph deps ∧ (∀ node, ¬ deps.network.Free last.order node) ∧
      Gaudi.run graph deps key = requireAll deps.network.nodes.length last.order := by
  obtain ⟨_, first, last, started, -, -, ends, -, final⟩ := run_ends linked fits net size key
  exact ⟨first, last, started, ends.leads, final⟩

theorem run_exhausts (linked : graph.Linked) (fits : graph.OffsetsFit) (net : deps.network.Sound)
    (size : deps.size = graph.size) (key : NodeId → K) :
    ∃ placed, Gaudi.run graph deps key = requireAll deps.network.nodes.length placed ∧
      deps.network.Progress placed ∧ ∀ node, ¬ deps.network.Free placed node := by
  obtain ⟨-, last, -, -, sound, stuck, equal⟩ := run_leads linked fits net size key
  exact ⟨last.order, equal, sound.progress, stuck⟩

end

end Dataflow.Gaudi
