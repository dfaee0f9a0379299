import Dataflow.Proofs.PathMetrics

set_option autoImplicit false

namespace Dataflow

section

variable {K : Type} [Ord K] (key : NodeId → K)

def keyed (order : List NodeId) : List (K × NodeId) := order.map fun node => (key node, node)

-- Before every other order by the first pair in which they differ.
structure LeastOrder (net : Network NodeId) (order : List NodeId) : Prop where
  valid : net.IsOrder order
  least : ∀ rival, net.IsOrder rival → rival ≠ order →
    List.Lex (fun a b => comparePairs a b = .lt) (keyed key order) (keyed key rival)

variable {key}

theorem lex_keyed {order rival : List NodeId} (lex : List.Lex (fun a b => precedes key a b = true) order rival) :
    List.Lex (fun a b => comparePairs a b = .lt) (keyed key order) (keyed key rival) := by
  induction lex with
  | nil => exact .nil
  | rel first => exact .rel (precedes_iff.mp first)
  | cons _ ih => exact .cons ih

theorem LeastOrder.of_greedy {net : Network NodeId} (sound : net.Sound) (loopless : ∀ node, ¬ net.Blocks node node)
    {order : List NodeId} (greedy : net.Greedy (fun a b => precedes key a b = true) [] order)
    (valid : net.IsOrder order) : LeastOrder key net order where
  valid := valid
  least _ valid' differs :=
    (greedy.least sound loopless valid').elim (fun same => absurd same.symm differs) lex_keyed

end

namespace Graph

variable {graph : Graph}

theorem run_leastOrder (linked : graph.Linked) {filter : EdgeFilter} (acyclic : Acyclic (graph.Blocks filter))
    {K : Type} [Ord K] [Std.TransOrd K] (key : NodeId → K) :
    ∃ order, BreadthFirst.run (graph.dependencies filter) key = .ok order ∧
      LeastOrder key (graph.dependencies filter).network order := by
  have sound := sound_network linked filter
  have loopless := network_loopless linked filter
  obtain ⟨order, ran, greedy⟩ := BreadthFirst.run_greedy key sound
  obtain ⟨progress, stuck⟩ := greedy.exhausts Network.Progress.nil
  rw [← blocks_network linked] at acyclic
  obtain ⟨complete, valid⟩ := (requireAll_of_stuck sound loopless progress stuck).1 acyclic
  exact ⟨order, ran.trans complete, .of_greedy sound loopless greedy valid⟩

theorem breadthFirst_leastOrder (consistent : graph.Consistent) :
    (∀ (filter : EdgeFilter) (K : Type) [Ord K] [Std.TransOrd K] (key : NodeId → K), Acyclic (graph.Blocks filter) →
      ∃ order, BreadthFirst.run (graph.dependencies filter) key = .ok order ∧
        LeastOrder key (graph.dependencies filter).network order) ∧
    (∀ filter byParent, Acyclic (graph.Blocks filter) →
      ∃ order, graph.scheduleBreadthFirst filter byParent = .ok order ∧
        LeastOrder (graph.defaultKey byParent) (graph.dependencies filter).network order) ∧
    ∀ weight byParent, Acyclic (graph.Blocks .both) →
      ∃ metrics order, PathMetrics.compute graph (graph.dependencies .both) weight = .ok metrics ∧
        graph.scheduleMaxPath weight byParent = .ok order ∧
        LeastOrder (metrics.key graph byParent) (graph.dependencies .both).network order := by
  have linked := consistent.toLinked
  refine ⟨fun _ _ _ _ key acyclic => run_leastOrder linked acyclic key,
    fun _ byParent acyclic => run_leastOrder linked acyclic (graph.defaultKey byParent), fun weight byParent acyclic => ?_⟩
  obtain ⟨metrics, computed, -⟩ := (pathMetrics_eq linked .both weight).1 acyclic
  obtain ⟨order, ran, least⟩ := run_leastOrder linked acyclic (metrics.key graph byParent)
  refine ⟨metrics, order, computed, ?_, least⟩
  rw [scheduleMaxPath, computed]
  exact ran

def grouped : GraphDescription :=
  { tensors := [{ name := "left" }, { name := "right" }]
    nodes := [{ name := "loadLeft", parentId := some 9, outputs := ["left"] },
      { name := "loadRight", parentId := some 1, outputs := ["right"] },
      { name := "add", parentId := some 1, inputs := ["left", "right"] }, { name := "log", parentId := some 4 }] }

theorem breadthFirst_grouped :
    grouped.graph.scheduleBreadthFirst .both true = .ok [⟨1⟩, ⟨3⟩, ⟨0⟩, ⟨2⟩] ∧
    LeastOrder (grouped.graph.defaultKey true) (grouped.graph.dependencies .both).network [⟨1⟩, ⟨3⟩, ⟨0⟩, ⟨2⟩] ∧
    ∃ metrics, PathMetrics.compute grouped.graph (grouped.graph.dependencies .both) .hops = .ok metrics ∧
      grouped.graph.scheduleMaxPath .hops false = .ok [⟨0⟩, ⟨1⟩, ⟨2⟩, ⟨3⟩] ∧
      LeastOrder (metrics.key grouped.graph false) (grouped.graph.dependencies .both).network [⟨0⟩, ⟨1⟩, ⟨2⟩, ⟨3⟩] := by
  have consistent := grouped.consistent_graph
  have acyclic : Acyclic (grouped.graph.Blocks .both) := acyclic_of_numbered (by decide) (by decide)
  have byParent : grouped.graph.scheduleBreadthFirst .both true = .ok [⟨1⟩, ⟨3⟩, ⟨0⟩, ⟨2⟩] := rfl
  have byPath : grouped.graph.scheduleMaxPath .hops false = .ok [⟨0⟩, ⟨1⟩, ⟨2⟩, ⟨3⟩] := rfl
  obtain ⟨-, default, longest⟩ := breadthFirst_leastOrder consistent
  obtain ⟨order, ran, least⟩ := default .both true acyclic
  obtain ⟨metrics, order', computed, ran', least'⟩ := longest .hops false acyclic
  cases byParent.symm.trans ran
  cases byPath.symm.trans ran'
  exact ⟨byParent, least, metrics, computed, byPath, least'⟩

theorem blocks_iff_feeds (linked : graph.Linked) {filter : EdgeFilter}
    (unbarred : filter = .data ∨ ∀ id node, graph.nodes.get? id = some node → node.annotations.barriers = [])
    (source target : NodeId) :
    graph.Blocks filter source target ↔ source ≠ target ∧ graph.Feeds filter source target := by
  -- Without barriers the tensors make up the whole relation.
  have barred : ¬ (filter ≠ .data ∧ graph.Bars source target) := by
    rintro ⟨control, node, found, listed⟩
    rcases unbarred with data | none
    next => exact control data
    next => simp [none target node found] at listed
  rw [Blocks, or_iff_left barred]
  have known := @Feeds.known graph linked filter source target
  grind

theorem precedes_defaultKey {a b : NodeId} (ahead : precedes (graph.defaultKey false) a b = true) : rank a < rank b := by
  -- The key is the same for all nodes, so the identifiers decide.
  have tied : compare (graph.defaultKey false a) (graph.defaultKey false b) = .eq := rfl
  rw [precedes, tied, Ordering.eq_then, beq_iff_eq] at ahead
  exact Nat.compare_eq_lt.mp ahead

theorem unique_by_rank {net : Network NodeId} {order rival : List NodeId}
    (greedy : net.Greedy (fun a b => rank a < rank b) [] order)
    (greedy' : net.Greedy (fun a b => rank a < rank b) [] rival) : order = rival :=
  greedy.unique (fun ahead behind => Nat.lt_asymm ahead behind) greedy'

theorem kahn_dependencies (linked : graph.Linked) (filter : EdgeFilter) :
    ∃ order, (graph.dependencies filter).network.Greedy (fun a b => rank a < rank b) [] order ∧
      (graph.dependencies filter).kahn = .ok (if order.length = graph.size then some order else none) ∧
      graph.scheduleBreadthFirst filter false = requireAll graph.size order := by
  have sound := sound_network linked filter
  have length : (graph.dependencies filter).network.nodes.length = graph.size := by rw [nodes_network, length_nodeIds]
  obtain ⟨order, greedy, answered⟩ := Kahn.order?_greedy sound (Dependencies.degrees_inDegrees _)
  obtain ⟨placed, ran, greedy'⟩ := BreadthFirst.run_greedy (graph.defaultKey false) sound
  -- Both take the free node of least identifier each time.
  cases unique_by_rank (greedy'.congr (fun _ _ => Iff.rfl) precedes_defaultKey) greedy
  rw [length] at answered ran
  exact ⟨order, greedy, answered, ran⟩

theorem kahn_tensors (linked : graph.Linked) (filter : EdgeFilter) :
    ∃ order, (graph.tensorNetwork filter).Greedy (fun a b => rank a < rank b) [] order ∧
      graph.kahn filter = .ok (if order.length = graph.size then some order else none) := by
  obtain ⟨order, greedy, answered⟩ := Kahn.order?_greedy (sound_tensorNetwork linked filter) (degrees_inDegrees filter)
  rw [show (graph.tensorNetwork filter).nodes.length = graph.size from length_nodeIds] at answered
  exact ⟨order, greedy, answered⟩

theorem free_tensorNetwork_iff (linked : graph.Linked) {filter : EdgeFilter}
    (unbarred : filter = .data ∨ ∀ id node, graph.nodes.get? id = some node → node.annotations.barriers = [])
    (placed : List NodeId) (node : NodeId) :
    (graph.tensorNetwork filter).Free placed node ↔ (graph.dependencies filter).network.Free placed node := by
  have blocks (blocking : NodeId) : blocking ∈ graph.producers node filter ↔
      blocking ∈ (graph.dependencies filter).blockers node := by
    rw [mem_producers linked, mem_blockers_iff linked, blocks_iff_feeds linked unbarred]
  simp only [Network.Free, nodes_network]
  simp only [Dependencies.network, tensorNetwork, blocks]

theorem topologicalOrders_agree (consistent : graph.Consistent) (filter : EdgeFilter) :
    ∃ answer byTensors : Option (List NodeId),
      (graph.dependencies filter).kahn = .ok answer ∧ (graph.dependencies filter).topologicalOrder? = answer ∧
      (∀ order, answer = some order ↔ graph.scheduleBreadthFirst filter false = .ok order) ∧
      (answer = none → ∃ placed, graph.scheduleBreadthFirst filter false = .error (.notAllScheduled placed graph.size)) ∧
      (answer = none ↔ ¬ Acyclic (graph.Blocks filter)) ∧
      graph.kahn filter = .ok byTensors ∧ graph.topologicalOrder? filter = byTensors ∧
      (byTensors = none ↔ ¬ Acyclic fun source target => source ≠ target ∧ graph.Feeds filter source target) ∧
      ((filter = .data ∨ ∀ id node, graph.nodes.get? id = some node → node.annotations.barriers = []) →
        byTensors = answer) := by
  have linked := consistent.toLinked
  obtain ⟨order, greedy, kahn, scheduled⟩ := kahn_dependencies linked filter
  obtain ⟨order', greedy', kahn'⟩ := kahn_tensors linked filter
  have table := topologicalOrder?_dependencies linked filter
  have tensors := topologicalOrder?_eq linked filter
  have relation : (graph.tensorNetwork filter).Blocks = fun source target =>
      source ≠ target ∧ graph.Feeds filter source target :=
    funext fun _ => funext fun _ => propext (mem_producers linked)
  rw [Dependencies.topologicalOrder?, kahn] at table
  rw [topologicalOrder?, kahn', relation] at tensors
  refine ⟨_, _, kahn, by rw [Dependencies.topologicalOrder?, kahn], fun other => ?_, fun short => ⟨order.length, ?_⟩,
    eq_none_iff table.1 table.2, kahn', by rw [topologicalOrder?, kahn'], eq_none_iff tensors.1 tensors.2,
    fun unbarred => ?_⟩
  next =>
    rw [scheduled, requireAll]
    split <;> simp
  next =>
    rw [scheduled, requireAll, if_neg]
    exact fun full => by simp [full] at short
  next => rw [unique_by_rank (greedy'.congr (free_tensorNetwork_iff linked unbarred) id) greedy]

-- Two nodes in a row, and the first of them waits for the second by a barrier.
def gated : GraphDescription :=
  { tensors := [{ name := "loaded" }]
    nodes := [{ name := "load", outputs := ["loaded"], barriers := ["store"] }, { name := "store", inputs := ["loaded"] }] }

theorem topologicalOrders_gated :
    gated.graph.topologicalOrder? .both = some [⟨0⟩, ⟨1⟩] ∧ ¬ Acyclic (gated.graph.Blocks .both) ∧
      (gated.graph.dependencies .data).topologicalOrder? = some [⟨0⟩, ⟨1⟩] ∧
      gated.graph.topologicalOrder? .data = (gated.graph.dependencies .data).topologicalOrder? := by
  have consistent := gated.consistent_graph
  obtain ⟨answer, byTensors, -, table, -, -, cyclic, -⟩ := topologicalOrders_agree consistent .both
  obtain ⟨answer', byTensors', -, table', -, -, -, -, tensors', -, agree⟩ := topologicalOrders_agree consistent .data
  refine ⟨rfl, cyclic.mp (table.symm.trans rfl), rfl, ?_⟩
  rw [table', tensors', agree (Or.inl rfl)]

end Graph

end Dataflow
