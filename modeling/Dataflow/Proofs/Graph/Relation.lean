import Dataflow.Dependencies
import Dataflow.Proofs.Graph.Edit
import Dataflow.Proofs.Schedule.Traversal
import Dataflow.Proofs.Topology.Kahn
import Dataflow.Proofs.Topology.Reach
import Dataflow.Schedule.Placement

set_option autoImplicit false

namespace Dataflow

open Relation

namespace Graph

def Feeds (graph : Graph) (filter : EdgeFilter) (source target : NodeId) : Prop :=
  ∃ t tensor, graph.tensors.get? t = some tensor ∧ filter.accepts tensor = true ∧
    tensor.producer = some source ∧ target ∈ tensor.consumers

def Bars (graph : Graph) (source target : NodeId) : Prop :=
  ∃ node, graph.nodes.get? target = some node ∧ source ∈ node.annotations.barriers

def Blocks (graph : Graph) (filter : EdgeFilter) (blocking blocked : NodeId) : Prop :=
  blocking ≠ blocked ∧ blocking ∈ graph.nodeIds ∧ blocked ∈ graph.nodeIds ∧
    (graph.Feeds filter blocking blocked ∨ filter ≠ .data ∧ graph.Bars blocking blocked)

variable {graph : Graph}

theorem Blocks.both_iff {blocking blocked : NodeId} :
    graph.Blocks .both blocking blocked ↔ blocking ≠ blocked ∧ blocking ∈ graph.nodeIds ∧
      blocked ∈ graph.nodeIds ∧ (graph.Feeds .both blocking blocked ∨ graph.Bars blocking blocked) := by
  simp [Blocks]

theorem blocks_loopless (filter : EdgeFilter) (node : NodeId) : ¬ graph.Blocks filter node node :=
  fun blocks => blocks.1 rfl

theorem mem_accepted {filter : EdgeFilter} {listed : List TensorId} {tensor : Tensor} :
    tensor ∈ graph.accepted filter listed ↔
      (∃ t ∈ listed, graph.tensors.get? t = some tensor) ∧ filter.accepts tensor = true := by
  simp [accepted]

theorem mem_producers (linked : graph.Linked) {filter : EdgeFilter} {source target : NodeId} :
    source ∈ graph.producers target filter ↔ source ≠ target ∧ graph.Feeds filter source target := by
  rw [producers]
  cases present : graph.nodes.get? target with
  | none =>
    simp only [List.not_mem_nil, false_iff]
    rintro ⟨-, t, tensor, found, -, -, consumes⟩
    obtain ⟨node, present', -⟩ := (linked.consumer_iff found target).mp consumes
    simp [present] at present'
  | some node =>
    simp only [Ranked.mem_ascending, List.mem_filter, List.mem_filterMap, mem_accepted, decide_eq_true_iff]
    constructor
    next =>
      rintro ⟨⟨tensor, ⟨⟨t, listed, found⟩, accepted⟩, produced⟩, differ⟩
      exact ⟨differ, t, tensor, found, accepted, produced, (linked.consumer_iff found target).mpr
        ⟨node, present, listed⟩⟩
    next =>
      rintro ⟨differ, t, tensor, found, accepted, produced, consumes⟩
      obtain ⟨same, present', listed⟩ := (linked.consumer_iff found target).mp consumes
      rw [present] at present'
      cases present'
      exact ⟨⟨tensor, ⟨⟨t, listed, found⟩, accepted⟩, produced⟩, differ⟩

theorem mem_consumers (linked : graph.Linked) {filter : EdgeFilter} {source target : NodeId} :
    target ∈ graph.consumers source filter ↔ target ≠ source ∧ graph.Feeds filter source target := by
  rw [consumers]
  cases present : graph.nodes.get? source with
  | none =>
    simp only [List.not_mem_nil, false_iff]
    rintro ⟨-, t, tensor, found, -, produced, -⟩
    obtain ⟨node, present', -⟩ := (linked.producer_iff found source).mp produced
    simp [present] at present'
  | some node =>
    simp only [Ranked.mem_ascending, List.mem_filter, List.mem_flatMap, mem_accepted, decide_eq_true_iff]
    constructor
    next =>
      rintro ⟨⟨tensor, ⟨⟨t, listed, found⟩, accepted⟩, consumes⟩, differ⟩
      exact ⟨differ, t, tensor, found, accepted, (linked.producer_iff found source).mpr
        ⟨node, present, listed⟩, consumes⟩
    next =>
      rintro ⟨differ, t, tensor, found, accepted, produced, consumes⟩
      obtain ⟨same, present', listed⟩ := (linked.producer_iff found source).mp produced
      rw [present] at present'
      cases present'
      exact ⟨⟨tensor, ⟨⟨t, listed, found⟩, accepted⟩, consumes⟩, differ⟩

theorem Feeds.known (linked : graph.Linked) {filter : EdgeFilter} {source target : NodeId}
    (feeds : graph.Feeds filter source target) : source ∈ graph.nodeIds ∧ target ∈ graph.nodeIds := by
  obtain ⟨t, tensor, found, -, produced, consumes⟩ := feeds
  exact ⟨linked.producer_known found produced, linked.consumer_known found consumes⟩

theorem mem_blockers (linked : graph.Linked) {filter : EdgeFilter} {id blocking : NodeId} {node : Node}
    (present : graph.nodes.get? id = some node) :
    blocking ∈ graph.blockers filter node ↔ graph.Blocks filter blocking id := by
  have key := linked.nodeKey present
  have barred : graph.Bars blocking id ↔ blocking ∈ node.annotations.barriers := by
    simp [Bars, present]
  have there : id ∈ graph.nodeIds := Table.mem_keys_of_get? present
  rw [blockers, Ranked.mem_ascending, List.mem_append, key, mem_producers linked, Blocks, barred]
  have known := fun feeds => (@Feeds.known graph linked filter blocking id feeds).1
  by_cases data : filter = .data
  next =>
    simp only [data, if_true, List.not_mem_nil, or_false, ne_eq, not_true_eq_false, false_and]
    grind
  next =>
    simp only [data, if_false, barriers, List.mem_filter, Bool.and_eq_true, decide_eq_true_iff, contains_iff,
      key, ne_eq, not_false_eq_true, true_and]
    grind

def rows (graph : Graph) (filter : EdgeFilter) : List (NodeId × List NodeId) :=
  graph.nodes.entries.map fun (id, node) => (id, graph.blockers filter node)

theorem map_fst_rows (filter : EdgeFilter) : (graph.rows filter).map Prod.fst = graph.nodeIds := by
  rw [rows, List.map_map]
  rfl

theorem get?_blockersOf (filter : EdgeFilter) (id : NodeId) :
    (graph.dependencies filter).blockersOf.get? id = (graph.nodes.get? id).map (graph.blockers filter) := by
  have built : (graph.dependencies filter).blockersOf = .ofList (graph.rows filter) := rfl
  rw [built, Table.get?_ofList_of_keyed
    (f := fun id => ((graph.nodes.get? id).map (graph.blockers filter)).getD []), map_fst_rows]
  next =>
    have there := @mem_nodeIds_iff graph id
    cases found : graph.nodes.get? id <;> simp_all
  next =>
    intro entry member
    obtain ⟨⟨id, node⟩, listed, rfl⟩ := List.mem_map.mp member
    simp [(graph.nodes.mem_entries_iff id node).mp listed]

theorem get?_dependentsOf (filter : EdgeFilter) (id : NodeId) :
    (graph.dependencies filter).dependentsOf.get? id =
      if id ∈ graph.nodeIds then some (((graph.rows filter).filter fun row => id ∈ row.2).map Prod.fst)
      else none := by
  have built : (graph.dependencies filter).dependentsOf = .ofList ((graph.rows filter).map fun entry =>
    (entry.1, ((graph.rows filter).filter fun row => entry.1 ∈ row.2).map Prod.fst)) := rfl
  rw [built, Table.get?_ofList_of_keyed
    (f := fun id => ((graph.rows filter).filter fun row => id ∈ row.2).map Prod.fst), List.map_map]
  next => rw [← map_fst_rows filter]; rfl
  next =>
    intro entry member
    obtain ⟨row, -, rfl⟩ := List.mem_map.mp member
    rfl

theorem nodes_network (filter : EdgeFilter) : (graph.dependencies filter).network.nodes = graph.nodeIds := by
  refine Ranked.Ascending.ext (Table.ascending_keys _) (Table.ascending_keys _) fun id => ?_
  refine (Table.mem_keys_iff _ id).trans ((Table.mem_keys_iff _ id).trans ?_).symm
  simp only [get?_blockersOf, Option.map_eq_some_iff]
  exact ⟨fun ⟨node, found⟩ => ⟨_, node, found, rfl⟩, fun ⟨_, node, found, _⟩ => ⟨node, found⟩⟩

theorem size_dependencies (filter : EdgeFilter) : (graph.dependencies filter).size = graph.size := by
  rw [← Dependencies.length_nodes, nodes_network, length_nodeIds]

theorem mem_blockers_iff (linked : graph.Linked) {filter : EdgeFilter} {blocking blocked : NodeId} :
    blocking ∈ (graph.dependencies filter).blockers blocked ↔ graph.Blocks filter blocking blocked := by
  rw [Dependencies.blockers, get?_blockersOf]
  cases present : graph.nodes.get? blocked with
  | none =>
    have absent : blocked ∉ graph.nodeIds := by simp [mem_nodeIds_iff, present]
    simp only [Option.map_none, Option.getD_none, List.not_mem_nil, false_iff]
    exact fun blocks => absent blocks.2.2.1
  | some node => exact mem_blockers linked present

theorem mem_dependents {filter : EdgeFilter} {blocking blocked : NodeId} :
    blocked ∈ (graph.dependencies filter).dependents blocking ↔
      blocking ∈ graph.nodeIds ∧ blocking ∈ (graph.dependencies filter).blockers blocked := by
  rw [Dependencies.dependents, get?_dependentsOf, Dependencies.blockers, get?_blockersOf]
  by_cases known : blocking ∈ graph.nodeIds
  next =>
    simp only [known, if_true, Option.getD_some, rows, List.mem_map, List.mem_filter, decide_eq_true_iff, true_and]
    constructor
    next =>
      rintro ⟨_, ⟨⟨⟨id, node⟩, listed, rfl⟩, blocks⟩, rfl⟩
      rw [(graph.nodes.mem_entries_iff id node).mp listed]
      exact blocks
    next =>
      intro blocks
      cases present : graph.nodes.get? blocked with
      | none => simp [present] at blocks
      | some node =>
        rw [present] at blocks
        exact ⟨_, ⟨⟨(blocked, node), (graph.nodes.mem_entries_iff _ _).mpr present, rfl⟩, blocks⟩, rfl⟩
  next => simp [known]

theorem mem_dependents_iff (linked : graph.Linked) {filter : EdgeFilter} {blocking blocked : NodeId} :
    blocked ∈ (graph.dependencies filter).dependents blocking ↔ graph.Blocks filter blocking blocked := by
  rw [mem_dependents, mem_blockers_iff linked]
  exact ⟨And.right, fun blocks => ⟨blocks.2.1, blocks⟩⟩

theorem sound_network (linked : graph.Linked) (filter : EdgeFilter) :
    (graph.dependencies filter).network.Sound where
  nodup_nodes := by rw [nodes_network]; exact nodup_nodeIds
  nodup_blockers node := by
    show ((graph.dependencies filter).blockers node).Nodup
    rw [Dependencies.blockers, get?_blockersOf]
    cases graph.nodes.get? node with
    | none => exact List.nodup_nil
    | some record => exact Ranked.nodup_ascending _
  nodup_dependents node := by
    show ((graph.dependencies filter).dependents node).Nodup
    rw [Dependencies.dependents, get?_dependentsOf]
    split
    next =>
      refine (List.filter_sublist.map Prod.fst).nodup ?_
      rw [map_fst_rows]
      exact nodup_nodeIds
    next => exact List.nodup_nil
  converse := (mem_blockers_iff linked).trans (mem_dependents_iff linked).symm
  known blocks := by
    rw [nodes_network]
    have blocks := (mem_blockers_iff linked).mp blocks
    exact ⟨blocks.2.1, blocks.2.2.1⟩

theorem blocks_network (linked : graph.Linked) (filter : EdgeFilter) :
    (graph.dependencies filter).network.Blocks = graph.Blocks filter :=
  funext fun _ => funext fun _ => propext (mem_blockers_iff linked)

theorem network_loopless (linked : graph.Linked) (filter : EdgeFilter) (node : NodeId) :
    ¬ (graph.dependencies filter).network.Blocks node node := by
  rw [blocks_network linked]
  exact blocks_loopless filter node

theorem topologicalOrder?_dependencies (linked : graph.Linked) (filter : EdgeFilter) :
    (Acyclic (graph.Blocks filter) → ∃ order, (graph.dependencies filter).topologicalOrder? = some order ∧
        (graph.dependencies filter).network.IsOrder order) ∧
      (¬ Acyclic (graph.Blocks filter) → (graph.dependencies filter).topologicalOrder? = none) := by
  have answer := Kahn.order?_eq (sound_network linked filter) (network_loopless linked filter)
    (Dependencies.degrees_inDegrees _)
  rw [blocks_network linked] at answer
  constructor
  next =>
    intro acyclic
    obtain ⟨order, found, valid⟩ := answer.1 acyclic
    have kahn : (graph.dependencies filter).kahn = .ok (some order) := found
    exact ⟨order, by rw [Dependencies.topologicalOrder?, kahn], valid⟩
  next =>
    intro cyclic
    have kahn : (graph.dependencies filter).kahn = .ok none := answer.2 cyclic
    rw [Dependencies.topologicalOrder?, kahn]

def tensorNetwork (graph : Graph) (filter : EdgeFilter) : Network NodeId :=
  { nodes := graph.nodeIds
    blockers := fun node => graph.producers node filter
    dependents := fun node => graph.consumers node filter }

theorem sound_tensorNetwork (linked : graph.Linked) (filter : EdgeFilter) :
    (graph.tensorNetwork filter).Sound where
  nodup_nodes := nodup_nodeIds
  nodup_blockers := by
    intro node
    show (graph.producers node filter).Nodup
    rw [producers]
    split
    next => exact List.nodup_nil
    next => exact Ranked.nodup_ascending _
  nodup_dependents := by
    intro node
    show (graph.consumers node filter).Nodup
    rw [consumers]
    split
    next => exact List.nodup_nil
    next => exact Ranked.nodup_ascending _
  converse := by
    intro source target
    show source ∈ graph.producers target filter ↔ target ∈ graph.consumers source filter
    rw [mem_producers linked, mem_consumers linked, ne_comm]
  known := fun blocks => ((mem_producers linked).mp blocks).2.known linked

theorem degrees_inDegrees (filter : EdgeFilter) : (graph.tensorNetwork filter).Degrees [] (graph.inDegrees filter) := by
  intro node
  have keyed : ∀ entry ∈ graph.nodeIds.map (fun node => (node, graph.inDegree node filter)),
      entry.2 = graph.inDegree entry.1 filter := by simp
  rw [inDegrees, Table.get?_ofList_of_keyed (f := fun node => graph.inDegree node filter) keyed, List.map_map]
  simp [tensorNetwork, inDegree, Function.comp_def]

theorem topologicalOrder?_eq (linked : graph.Linked) (filter : EdgeFilter) :
    (Acyclic (graph.tensorNetwork filter).Blocks → ∃ order, graph.topologicalOrder? filter = some order ∧
        (graph.tensorNetwork filter).IsOrder order) ∧
      (¬ Acyclic (graph.tensorNetwork filter).Blocks → graph.topologicalOrder? filter = none) := by
  have loopless : ∀ node, ¬ (graph.tensorNetwork filter).Blocks node node :=
    fun node loop => ((mem_producers linked).mp loop).1 rfl
  have answer := Kahn.order?_eq (sound_tensorNetwork linked filter) loopless (degrees_inDegrees filter)
  constructor
  next =>
    intro acyclic
    obtain ⟨order, found, valid⟩ := answer.1 acyclic
    have kahn : graph.kahn filter = .ok (some order) := found
    exact ⟨order, by rw [topologicalOrder?, kahn], valid⟩
  next =>
    intro cyclic
    have kahn : graph.kahn filter = .ok none := answer.2 cyclic
    rw [topologicalOrder?, kahn]

theorem mem_successors (linked : graph.Linked) {source target : NodeId} (known : source ∈ graph.nodeIds) :
    target ∈ graph.successors source ↔
      graph.Blocks .both source target ∨ target = source ∧ graph.Bars source source := by
  have barred : target ∈ graph.barrierConsumers source ↔ graph.Bars source target := by
    simp only [barrierConsumers, List.mem_map, List.mem_filter, Table.mem_values_iff, decide_eq_true_iff]
    constructor
    next =>
      rintro ⟨node, ⟨⟨id, present⟩, bars⟩, rfl⟩
      rw [linked.nodeKey present]
      exact ⟨node, present, bars⟩
    next => exact fun ⟨node, present, bars⟩ => ⟨node, ⟨⟨target, present⟩, bars⟩, linked.nodeKey present⟩
  rw [successors, List.mem_append, mem_consumers linked, barred, Blocks.both_iff]
  have fed := @Feeds.known graph linked .both source target
  have there : graph.Bars source target → target ∈ graph.nodeIds :=
    fun ⟨node, present, _⟩ => Table.mem_keys_of_get? present
  by_cases same : target = source
  next => subst same; simp
  next => grind

theorem reaches_iff (linked : graph.Linked) {source : NodeId} (known : source ∈ graph.nodeIds)
    (target : NodeId) :
    graph.reaches source target = true ↔ ReflTransGen (graph.Blocks .both) source target := by
  have inside : ∀ a ∈ graph.nodeIds, ∀ b ∈ graph.successors a, b ∈ graph.nodeIds := by
    intro a there b step
    rcases (mem_successors linked there).mp step with blocks | ⟨rfl, -⟩
    next => exact blocks.2.2.1
    next => exact there
  rw [reaches, Reach.reaches_iff inside known (by rw [length_nodeIds]; exact Nat.le_succ _)]
  constructor
  next =>
    intro path
    -- The start stays in the graph along the path, and loops through a node's own barrier drop out.
    have stays : target ∈ graph.nodeIds ∧ ReflTransGen (graph.Blocks .both) source target := by
      induction path with
      | refl => exact ⟨known, ReflTransGen.refl⟩
      | tail _ step ih =>
        rcases (mem_successors linked ih.1).mp step with blocks | ⟨same, -⟩
        next => exact ⟨blocks.2.2.1, ih.2.tail blocks⟩
        next => rw [same]; exact ih
    exact stays.2
  next =>
    intro path
    refine ReflTransGen.mono ?_ _ _ path
    intro a b blocks
    exact (mem_successors linked blocks.2.1).mpr (Or.inl blocks)

theorem feeds_withControl (linked : graph.Linked) {blocking blocked : NodeId} (type : ControlType)
    (source target : NodeId) :
    (graph.withControl blocking blocked type).Feeds .both source target ↔
      graph.Feeds .both source target ∨ source = blocking ∧ target = blocked := by
  constructor
  next =>
    rintro ⟨t, tensor, found, -, produced, consumes⟩
    rw [get?_tensors_withControl] at found
    split at found
    next =>
      cases found
      exact Or.inr ⟨(Option.some.inj produced).symm, List.mem_singleton.mp consumes⟩
    next => exact Or.inl ⟨t, tensor, found, rfl, produced, consumes⟩
  next =>
    rintro (⟨t, tensor, found, -, produced, consumes⟩ | ⟨rfl, rfl⟩)
    next =>
      have old : t ≠ ⟨graph.nextTensor⟩ := by
        rintro rfl
        rw [nextTensor_absent linked] at found
        cases found
      exact ⟨t, tensor, by rw [get?_tensors_withControl, if_neg old, found], rfl, produced, consumes⟩
    next =>
      exact ⟨_, _, by rw [get?_tensors_withControl, if_pos rfl], rfl, rfl, List.mem_singleton_self _⟩

theorem bars_withControl {blocking blocked : NodeId} (type : ControlType) (source target : NodeId) :
    (graph.withControl blocking blocked type).Bars source target ↔ graph.Bars source target := by
  simp only [Bars, get?_nodes_withControl, Option.map_eq_some_iff]
  constructor
  next =>
    rintro ⟨_, ⟨node, present, rfl⟩, bars⟩
    exact ⟨node, present, bars⟩
  next => exact fun ⟨node, present, bars⟩ => ⟨_, ⟨node, present, rfl⟩, bars⟩

theorem blocks_withControl (linked : graph.Linked) {blocking blocked : NodeId} (type : ControlType)
    (differ : blocking ≠ blocked) (blockingThere : blocking ∈ graph.nodeIds)
    (blockedThere : blocked ∈ graph.nodeIds) (source target : NodeId) :
    (graph.withControl blocking blocked type).Blocks .both source target ↔
      graph.Blocks .both source target ∨ source = blocking ∧ target = blocked := by
  rw [Blocks.both_iff, Blocks.both_iff, nodeIds_withControl, feeds_withControl linked, bars_withControl]
  grind

theorem acyclic_withControl (linked : graph.Linked) {blocking blocked : NodeId} (type : ControlType)
    (differ : blocking ≠ blocked) (blockingThere : blocking ∈ graph.nodeIds)
    (blockedThere : blocked ∈ graph.nodeIds) (apart : graph.reaches blocked blocking = false) :
    Acyclic ((graph.withControl blocking blocked type).Blocks .both) ↔ Acyclic (graph.Blocks .both) := by
  have same := blocks_withControl linked type differ blockingThere blockedThere
  have noReturn : ¬ ReflTransGen (graph.Blocks .both) blocked blocking := by
    rw [← reaches_iff linked blockedThere]
    simp [apart]
  constructor
  next => exact fun acyclic => acyclic.mono fun a b blocks => (same a b).mpr (Or.inl blocks)
  next => exact fun acyclic => (acyclic.insert_edge noReturn).mono fun a b blocks => (same a b).mp blocks

theorem acyclic_of_numbered
    (tensors : ∀ entry ∈ graph.tensors.entries, ∀ producer ∈ entry.2.producer, ∀ consumer ∈ entry.2.consumers,
      producer.val < consumer.val)
    (barriers : ∀ entry ∈ graph.nodes.entries, ∀ barrier ∈ entry.2.annotations.barriers, barrier.val < entry.1.val) :
    Acyclic (graph.Blocks .both) := by
  apply Acyclic.of_rank Ident.val
  intro blocking blocked blocks
  rcases (Blocks.both_iff.mp blocks).2.2.2 with ⟨t, tensor, found, -, produced, consumed⟩ | ⟨node, found, bars⟩
  next => exact tensors (t, tensor) ((Table.mem_entries_iff _ _ _).mpr found) blocking produced blocked consumed
  next => exact barriers (blocked, node) ((Table.mem_entries_iff _ _ _).mpr found) blocking bars

def unitOf (graph : Graph) (node : NodeId) : UInt32 ⊕ NodeId :=
  match graph.bundleOf node with
  | some bundle => .inl bundle
  | none => .inr node

theorem bundleOf_eq {id : NodeId} {node : Node} (found : graph.nodes.get? id = some node) :
    graph.bundleOf id = node.bundleIndex? := by
  rw [bundleOf, found]
  rfl

theorem unitOf_eq_inl {node : NodeId} {bundle : UInt32} :
    graph.unitOf node = .inl bundle ↔ graph.bundleOf node = some bundle := by
  unfold unitOf
  cases graph.bundleOf node <;> simp

theorem unitOf_eq_inr {node other : NodeId} :
    graph.unitOf node = .inr other ↔ graph.bundleOf node = none ∧ node = other := by
  unfold unitOf
  cases graph.bundleOf node <;> simp

def Edge (graph : Graph) (source target : NodeId) : Prop := source ≠ target ∧ graph.Feeds .both source target

def UnitEdge (graph : Graph) (first second : UInt32 ⊕ NodeId) : Prop :=
  first ≠ second ∧ ∃ source target, graph.Feeds .both source target ∧
    graph.unitOf source = first ∧ graph.unitOf target = second

theorem blocks_tensorNetwork (linked : graph.Linked) : (graph.tensorNetwork .both).Blocks = graph.Edge :=
  funext fun _ => funext fun _ => propext (mem_producers linked)

theorem isAcyclic_iff (linked : graph.Linked) : graph.isAcyclic = true ↔ Acyclic graph.Edge := by
  have answer := topologicalOrder?_eq linked .both
  rw [blocks_tensorNetwork linked] at answer
  rw [isAcyclic]
  constructor
  next =>
    intro found
    by_contra cyclic
    rw [answer.2 cyclic] at found
    cases found
  next =>
    intro acyclic
    obtain ⟨order, found, -⟩ := answer.1 acyclic
    rw [found]
    rfl

end Graph

end Dataflow
