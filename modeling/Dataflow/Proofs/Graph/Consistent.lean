import Dataflow.Graph.Edit
import Dataflow.Proofs.Lists
import Dataflow.Proofs.Tables

set_option autoImplicit false

namespace Dataflow.Graph

-- A node may still list a tensor that is gone.
structure Linked (graph : Graph) : Prop where
  producer_iff : ∀ {t tensor}, graph.tensors.get? t = some tensor → ∀ id,
    tensor.producer = some id ↔ ∃ node, graph.nodes.get? id = some node ∧ t ∈ node.allOutputs
  consumer_iff : ∀ {t tensor}, graph.tensors.get? t = some tensor → ∀ id,
    id ∈ tensor.consumers ↔ ∃ node, graph.nodes.get? id = some node ∧ t ∈ node.allInputs
  ascending : ∀ {t tensor}, graph.tensors.get? t = some tensor → Ranked.Ascending tensor.consumers
  nodeKey : ∀ {id node}, graph.nodes.get? id = some node → node.id = id
  nodeBelow : ∀ {id node}, graph.nodes.get? id = some node → id.val < graph.nextNode
  tensorBelow : ∀ {t tensor}, graph.tensors.get? t = some tensor → t.val < graph.nextTensor
  listedBelow : ∀ {id node t}, graph.nodes.get? id = some node →
    t ∈ node.allInputs ∨ t ∈ node.allOutputs → t.val < graph.nextTensor
  viewBelow : ∀ {t tensor view}, graph.tensors.get? t = some tensor → tensor.view = some view →
    view.real.val < t.val

structure Consistent (graph : Graph) : Prop extends Linked graph where
  listed : ∀ {id node t}, graph.nodes.get? id = some node →
    t ∈ node.allInputs ∨ t ∈ node.allOutputs → ∃ tensor, graph.tensors.get? t = some tensor

variable {graph : Graph}

theorem contains_iff (node : NodeId) : graph.contains node = true ↔ node ∈ graph.nodeIds :=
  graph.nodes.contains_iff node

theorem mem_nodeIds_iff (id : NodeId) : id ∈ graph.nodeIds ↔ ∃ node, graph.nodes.get? id = some node :=
  graph.nodes.mem_keys_iff id

theorem nodup_nodeIds : graph.nodeIds.Nodup := graph.nodes.nodup_keys

theorem length_nodeIds : graph.nodeIds.length = graph.size := graph.nodes.length_keys

theorem Linked.map_id_nodes (linked : graph.Linked) : graph.nodes.values.map Node.id = graph.nodeIds := by
  rw [nodeIds, Table.keys, Table.values, List.map_map]
  exact List.map_congr_left fun entry member => linked.nodeKey ((Table.mem_entries_iff _ _ _).mp member)

theorem Linked.writes_iff (linked : graph.Linked) {t : TensorId} {tensor : Tensor} {id : NodeId} {node : Node}
    (found : graph.tensors.get? t = some tensor) (there : graph.nodes.get? id = some node) :
    tensor.producer = some id ↔ t ∈ node.allOutputs := by
  rw [linked.producer_iff found, there]
  simp

theorem Linked.reads_iff (linked : graph.Linked) {t : TensorId} {tensor : Tensor} {id : NodeId} {node : Node}
    (found : graph.tensors.get? t = some tensor) (there : graph.nodes.get? id = some node) :
    id ∈ tensor.consumers ↔ t ∈ node.allInputs := by
  rw [linked.consumer_iff found, there]
  simp

theorem Linked.producer_known (linked : graph.Linked) {t : TensorId} {tensor : Tensor} {id : NodeId}
    (found : graph.tensors.get? t = some tensor) (produced : tensor.producer = some id) : id ∈ graph.nodeIds := by
  obtain ⟨node, there, -⟩ := (linked.producer_iff found id).mp produced
  exact Table.mem_keys_of_get? there

theorem Linked.consumer_known (linked : graph.Linked) {t : TensorId} {tensor : Tensor} {id : NodeId}
    (found : graph.tensors.get? t = some tensor) (consumes : id ∈ tensor.consumers) : id ∈ graph.nodeIds := by
  obtain ⟨node, there, -⟩ := (linked.consumer_iff found id).mp consumes
  exact Table.mem_keys_of_get? there

theorem consistent_empty : Consistent {} := by
  constructor
  case toLinked => constructor <;> intros <;> contradiction
  case listed => intros; contradiction

theorem Linked.unlisted (linked : graph.Linked) {id : NodeId} {node : Node}
    (found : graph.nodes.get? id = some node) :
    ⟨graph.nextTensor⟩ ∉ node.allInputs ∧ ⟨graph.nextTensor⟩ ∉ node.allOutputs := by
  constructor
  next => exact fun listed => Nat.lt_irrefl _ (linked.listedBelow found (Or.inl listed))
  next => exact fun listed => Nat.lt_irrefl _ (linked.listedBelow found (Or.inr listed))

theorem get?_tensors_pushTensor {record : TensorId → Tensor} {t : TensorId} {tensor : Tensor}
    (found : (graph.pushTensor record).2.tensors.get? t = some tensor) :
    t = ⟨graph.nextTensor⟩ ∧ tensor = record ⟨graph.nextTensor⟩ ∨ graph.tensors.get? t = some tensor :=
  (Table.get?_insert_eq_some.mp found).imp_right And.right

theorem Linked.pushTensor (linked : graph.Linked) {record : TensorId → Tensor}
    (unlinked : ∀ id, (record id).producer = none ∧ (record id).consumers = [])
    (older : ∀ view, (record ⟨graph.nextTensor⟩).view = some view → view.real.val < graph.nextTensor) :
    (graph.pushTensor record).2.Linked := by
  constructor
  case producer_iff =>
    intro t tensor found id
    rcases get?_tensors_pushTensor found with ⟨rfl, rfl⟩ | old
    next =>
      rw [(unlinked _).1]
      -- Nothing lists a number that has not been given out.
      refine iff_of_false (by simp) ?_
      rintro ⟨node, present, listed⟩
      exact (linked.unlisted present).2 listed
    next => exact linked.producer_iff old id
  case consumer_iff =>
    intro t tensor found id
    rcases get?_tensors_pushTensor found with ⟨rfl, rfl⟩ | old
    next =>
      rw [(unlinked _).2]
      refine iff_of_false (by simp) ?_
      rintro ⟨node, present, listed⟩
      exact (linked.unlisted present).1 listed
    next => exact linked.consumer_iff old id
  case ascending =>
    intro t tensor found
    rcases get?_tensors_pushTensor found with ⟨rfl, rfl⟩ | old
    next => rw [(unlinked _).2]; exact List.Pairwise.nil
    next => exact linked.ascending old
  case nodeKey => exact linked.nodeKey
  case nodeBelow => exact linked.nodeBelow
  case tensorBelow =>
    intro t tensor found
    rcases get?_tensors_pushTensor found with ⟨rfl, rfl⟩ | old
    next => exact Nat.lt_succ_self _
    next => exact Nat.lt_succ_of_lt (linked.tensorBelow old)
  case listedBelow => exact fun found listed => Nat.lt_succ_of_lt (linked.listedBelow found listed)
  case viewBelow =>
    intro t tensor view found viewed
    rcases get?_tensors_pushTensor found with ⟨rfl, rfl⟩ | old
    next => exact older view viewed
    next => exact linked.viewBelow old viewed

end Dataflow.Graph
