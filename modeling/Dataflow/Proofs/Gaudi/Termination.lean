import Dataflow.Proofs.Gaudi.Contiguity
import Mathlib.Data.Set.Card

set_option autoImplicit false

namespace Dataflow

namespace Gaudi

variable {K : Type} [Ord K] {key : NodeId → K} {graph : Graph} {deps : Dependencies} {run after : Run key}

def waitingMembers (graph : Graph) (placed : List NodeId) (bundle : UInt32) : Set NodeId :=
  {node | graph.bundleOf node = some bundle ∧ node ∉ placed}

def waitingPairs (graph : Graph) (placed : List NodeId) (bundle : UInt32) : Set (NodeId × NodeId) :=
  {pair | graph.Blocks .both pair.1 pair.2 ∧ graph.bundleOf pair.2 = some bundle ∧
    graph.bundleOf pair.1 ≠ some bundle ∧ pair.1 ∉ placed}

theorem encard_waitingMembers (placed : List NodeId) (bundle : UInt32) :
    (waitingMembers graph placed bundle).encard = remainingMembers graph placed bundle := by
  rw [remainingMembers, List.countP_eq_length_filter]
  refine List.encard_of_listed ((nodup_members bundle).filter _) fun node => ?_
  simp [waitingMembers, mem_members]

def pairList (graph : Graph) (deps : Dependencies) (placed : List NodeId) (bundle : UInt32) : List (NodeId × NodeId) :=
  (members graph bundle).flatMap fun member => ((deps.blockers member).filter fun blocking =>
    graph.bundleOf blocking ≠ some bundle && blocking ∉ placed).map fun blocking => (blocking, member)

theorem length_pairList (placed : List NodeId) (bundle : UInt32) :
    (pairList graph deps placed bundle).length = openPairs graph deps placed bundle := by
  rw [pairList, List.length_flatMap, openPairs]
  refine congrArg List.sum (List.map_congr_left fun member _ => ?_)
  rw [List.length_map, outsideBlockers, List.countP_eq_length_filter]

theorem nodup_pairList (net : deps.network.Sound) (placed : List NodeId) (bundle : UInt32) :
    (pairList graph deps placed bundle).Nodup := by
  -- A pair stands in the part of its member only, and there at its blocker only.
  refine List.nodup_flatMap.mpr ⟨fun member _ => ?_, ?_⟩
  next =>
    have blockers : (deps.blockers member).Nodup := net.nodup_blockers member
    exact (blockers.filter _).map fun _ _ same => congrArg Prod.fst same
  next =>
    refine (nodup_members bundle).imp fun {member other} differ => ?_
    intro pair left right
    obtain ⟨_, -, rfl⟩ := List.mem_map.mp left
    obtain ⟨_, -, same⟩ := List.mem_map.mp right
    exact differ (congrArg Prod.snd same).symm

theorem encard_waitingPairs (linked : graph.Linked) (placed : List NodeId) (bundle : UInt32) :
    (waitingPairs graph placed bundle).encard = openPairs graph (graph.dependencies .both) placed bundle := by
  rw [← length_pairList]
  refine List.encard_of_listed (nodup_pairList (Graph.sound_network linked .both) placed bundle) ?_
  rintro ⟨blocking, member⟩
  simp only [waitingPairs, Set.mem_ofPred_eq, pairList, List.mem_flatMap, mem_members, List.mem_map, List.mem_filter,
    Graph.mem_blockers_iff linked, Bool.and_eq_true, decide_eq_true_iff, Prod.mk.injEq]
  constructor
  next =>
    rintro ⟨blocks, inside, outside, unplaced⟩
    exact ⟨member, inside, blocking, ⟨blocks, outside, unplaced⟩, rfl, rfl⟩
  next =>
    rintro ⟨_, inside, _, ⟨blocks, outside, unplaced⟩, rfl, rfl⟩
    exact ⟨blocks, inside, outside, unplaced⟩

structure Run.Accounts (graph : Graph) (run : Run key) : Prop where
  present : ∀ node bundle, graph.bundleOf node = some bundle → ∃ state, run.bundles.get? bundle = some state
  remaining : ∀ bundle state, run.bundles.get? bundle = some state →
    (waitingMembers graph run.order bundle).encard = state.remaining
  externalBlockers : ∀ bundle state, run.bundles.get? bundle = some state →
    (waitingPairs graph run.order bundle).encard = state.externalBlockers

theorem Run.Sound.accounts (linked : graph.Linked) (sound : run.Sound graph (graph.dependencies .both)) :
    run.Accounts graph where
  present _ _ := sound.matched.present
  remaining bundle _ found := by rw [encard_waitingMembers, (sound.matched.bundled found).remaining_eq]
  externalBlockers bundle _ found := by rw [encard_waitingPairs linked, (sound.matched.bundled found).pairs_eq]

structure Run.Emits (graph : Graph) (run : Run key) (node : NodeId) (after : Run key) : Prop where
  known : node ∈ graph.nodeIds
  fresh : node ∉ run.order
  order_eq : after.order = run.order ++ [node]
  active_eq : after.active = graph.bundleOf node
  counted : ∀ bundle, graph.bundleOf node = some bundle → run.active = some bundle ∧
    ∃ state, run.bundles.get? bundle = some state ∧ 0 < state.remaining

structure Run.Activates (graph : Graph) (deps : Dependencies) (run : Run key) (bundle : UInt32) (after : Run key) :
    Prop where
  after_eq : after = { run with active := some bundle }
  followed : ∃ node next, after.step graph deps = .ok (some next) ∧ after.Emits graph node next ∧
    graph.bundleOf node = some bundle

theorem Run.Sound.remaining_pos {node : NodeId} {bundle : UInt32} (sound : run.Sound graph deps)
    (ready : deps.network.Free run.order node) (bundled : graph.bundleOf node = some bundle) :
    ∃ state, run.bundles.get? bundle = some state ∧ 0 < state.remaining := by
  obtain ⟨state, found⟩ := sound.matched.present bundled
  refine ⟨state, found, ?_⟩
  rw [(sound.matched.bundled found).remaining_eq, remainingMembers, List.countP_pos_iff]
  exact ⟨node, mem_members.mpr bundled, decide_eq_true ready.2.1⟩

theorem Run.Places.known {node : NodeId} (places : run.Places graph (graph.dependencies .both) node after) :
    node ∈ graph.nodeIds := by
  have known := places.ready.1
  rwa [Graph.nodes_network] at known

section

variable (linked : graph.Linked) (fits : graph.OffsetsFit) (sound : run.Sound graph (graph.dependencies .both))
include linked fits sound

theorem Run.Sound.emits_member {bundle : UInt32} {state : BundleState key} {node : NodeId} {rest : List NodeId}
    (choice : run.choice = .member bundle state node rest) :
    ∃ after, run.step graph (graph.dependencies .both) = .ok (some after) ∧ run.Emits graph node after ∧
      graph.bundleOf node = some bundle := by
  have holds := sound.choice_holds
  rw [choice] at holds
  obtain ⟨after, stepped, places, active, bundled⟩ :=
    sound.step_member fits (Graph.sound_network linked .both) choice
  refine ⟨after, stepped, ⟨places.known, places.ready.2.1, places.order_eq, active.trans bundled.symm, ?_⟩, bundled⟩
  intro other own
  cases bundled.symm.trans own
  exact ⟨holds.1, sound.remaining_pos places.ready bundled⟩

theorem Run.Sound.emits_unbundled {node : NodeId} {rest : OffsetFrontier key}
    (choice : run.choice = .unbundled node rest) :
    ∃ after, run.step graph (graph.dependencies .both) = .ok (some after) ∧ run.Emits graph node after := by
  obtain ⟨after, stepped, places, active, unbundled⟩ :=
    sound.step_unbundled fits (Graph.sound_network linked .both) choice
  refine ⟨after, stepped, places.known, places.ready.2.1, places.order_eq, active.trans unbundled.symm, ?_⟩
  intro bundle own
  cases unbundled.symm.trans own

theorem Run.Sound.activates {bundle : UInt32}
    (waits : ∃ node, (graph.dependencies .both).network.Free run.order node ∧ graph.bundleOf node = some bundle) :
    run.Activates graph (graph.dependencies .both) bundle { run with active := some bundle } where
  after_eq := rfl
  followed := by
    -- The bundle has a free member, so the next choice falls on one of its members.
    obtain ⟨state, node, rest, choice⟩ := sound.choice_activate waits
    obtain ⟨next, stepped, emits, bundled⟩ := (sound.activate (some bundle)).emits_member linked fits choice
    exact ⟨node, next, stepped, emits, bundled⟩

theorem Run.Sound.emits_or_activates (stepped : run.step graph (graph.dependencies .both) = .ok (some after)) :
    (∃ node, run.Emits graph node after) ∨ ∃ bundle, run.Activates graph (graph.dependencies .both) bundle after := by
  have holds := sound.choice_holds
  cases choice : run.choice with
  | member bundle state node rest =>
    obtain ⟨next, stepped', emits, -⟩ := sound.emits_member linked fits choice
    cases stepped.symm.trans stepped'
    exact Or.inl ⟨node, emits⟩
  | unbundled node rest =>
    obtain ⟨next, stepped', emits⟩ := sound.emits_unbundled linked fits choice
    cases stepped.symm.trans stepped'
    exact Or.inl ⟨node, emits⟩
  | start bundle =>
    rw [choice] at holds
    rw [Run.step, choice] at stepped
    cases stepped
    exact Or.inr ⟨bundle, sound.activates linked fits holds.2.2⟩
  | force bundle =>
    rw [choice] at holds
    rw [Run.step, choice] at stepped
    cases stepped
    exact Or.inr ⟨bundle, sound.activates linked fits holds.2.1⟩
  | stop =>
    rw [Run.step, choice] at stepped
    cases stepped

end

end Gaudi

namespace Graph

variable {graph : Graph}

theorem scheduleGaudi_ends_on_every_graph (consistent : graph.Consistent) (fits : graph.OffsetsFit)
    (config : ScheduleConfig) {metrics : Option PathMetrics} (measures : graph.Measures config metrics) :
    ∃ (calls : Nat) (first last : Gaudi.Run (graph.gaudiKey config.parentIdSchedule metrics)),
      Gaudi.start graph (graph.dependencies .both) (graph.gaudiKey config.parentIdSchedule metrics) = .ok first ∧
      first.order = [] ∧ Gaudi.Run.Ends graph (graph.dependencies .both) calls first last ∧
      calls ≤ 2 * graph.size + 1 ∧
      graph.scheduleGaudi config =
        Gaudi.place graph (graph.dependencies .both) config <$> requireAll graph.size last.order ∧
      ∀ run, Gaudi.Run.Leads graph (graph.dependencies .both) first run → run.order.Nodup ∧ run.Accounts graph ∧
        ∀ after, run.step graph (graph.dependencies .both) = .ok (some after) →
          (∃ node, run.Emits graph node after) ∨
            ∃ bundle, run.Activates graph (graph.dependencies .both) bundle after := by
  have linked := consistent.toLinked
  have net := sound_network linked .both
  obtain ⟨calls, first, last, started, empty, sound, ends, within, -, -, ran⟩ := Gaudi.run_ends linked fits net
    (size_dependencies .both) (graph.gaudiKey config.parentIdSchedule metrics)
  refine ⟨calls, first, last, started, empty, ends, within, ?_, fun run leads => ?_⟩
  next => rw [measures.scheduleGaudi_eq, ran, nodes_network, length_nodeIds]
  next =>
    have sound := leads.sound fits net sound
    exact ⟨sound.progress.nodup, sound.accounts linked, fun after => sound.emits_or_activates linked fits⟩

-- A bundle that waits for itself through a relay, and two nodes that wait for each other.
def stalled : GraphDescription :=
  { tensors := [{ name := "sent" }, { name := "relayed" }, { name := "pulse" }, { name := "echo" }]
    nodes := [{ name := "send", outputs := ["sent"], bundle := some { bundleIndex := 1 } },
      { name := "relay", inputs := ["sent"], outputs := ["relayed"] },
      { name := "receive", inputs := ["relayed"], bundle := some { bundleIndex := 1 } },
      { name := "ping", inputs := ["echo"], outputs := ["pulse"] },
      { name := "pong", inputs := ["pulse"], outputs := ["echo"], bundle := some { bundleIndex := 2 } }] }

theorem scheduleGaudi_stalled :
    ∃ (calls : Nat) (first last : Gaudi.Run (stalled.graph.gaudiKey false none)),
      Gaudi.start stalled.graph (stalled.graph.dependencies .both) (stalled.graph.gaudiKey false none) = .ok first ∧
      Gaudi.Run.Ends stalled.graph (stalled.graph.dependencies .both) calls first last ∧ calls ≤ 11 ∧
      first.Accounts stalled.graph ∧ last.order.length = 3 ∧ last.Accounts stalled.graph ∧
      stalled.graph.scheduleGaudi {} = .error (.notAllScheduled 3 5) := by
  have consistent := stalled.consistent_graph
  have measures : stalled.graph.Measures {} none := rfl
  -- The bundle is forced, gives way to the relay and is activated again. Then nothing is free, with two nodes left.
  obtain ⟨calls, first, last, started, -, ends, within, scheduled, reached⟩ :=
    scheduleGaudi_ends_on_every_graph consistent (offsetsFit_of_viewless (by decide)) {} measures
  have size : stalled.graph.size = 5 := rfl
  have answer : stalled.graph.scheduleGaudi {} = .error (.notAllScheduled 3 5) := by decide +kernel
  refine ⟨calls, first, last, started, ends, within, (reached first .refl).2.1, ?_, (reached last ends.leads).2.1, answer⟩
  rw [answer, size] at scheduled
  unfold requireAll at scheduled
  split at scheduled
  next => cases scheduled
  next => exact (ScheduleError.notAllScheduled.inj (Except.error.inj scheduled)).1.symm

end Graph

end Dataflow
