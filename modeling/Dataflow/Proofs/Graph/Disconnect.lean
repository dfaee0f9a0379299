import Dataflow.Proofs.Graph.Edit

set_option autoImplicit false

namespace Dataflow.Graph

variable {graph : Graph}

def parted (tensor : Tensor) (t : TensorId) (id : NodeId) (node : Node) : Node :=
  { node with
    controlOutputs :=
      if tensor.producer = some id then node.controlOutputs.filter (· ≠ t) else node.controlOutputs
    controlInputs := if id ∈ tensor.consumers then node.controlInputs.filter (· ≠ t) else node.controlInputs }

theorem removeControlEdge_eq_ok {t : TensorId} {after : Graph} (removed : graph.removeControlEdge t = .ok after) :
    ∃ tensor, graph.tensors.get? t = some tensor ∧ after.tensors = graph.tensors.erase t ∧
      after.nextNode = graph.nextNode ∧ after.nextTensor = graph.nextTensor ∧
      ∀ id, after.nodes.get? id = (graph.nodes.get? id).map (parted tensor t id) := by
  rw [removeControlEdge] at removed
  split at removed
  next => cases removed
  next tensor there =>
    split at removed
    next =>
      cases removed
      refine ⟨tensor, there, rfl, rfl, rfl, fun id => ?_⟩
      have twice : ∀ node : Node,
          { node with controlInputs := (node.controlInputs.filter (· ≠ t)).filter (· ≠ t) } =
          { node with controlInputs := node.controlInputs.filter (· ≠ t) } := by
        intro node
        rw [List.filter_filter]
        simp
      dsimp only
      rw [Table.get?_foldl_modify twice]
      cases produced : tensor.producer with
      | none =>
        cases graph.nodes.get? id <;> by_cases consumes : id ∈ tensor.consumers <;> simp [parted, produced, consumes]
      | some producer =>
        rw [Table.get?_modify_eq]
        by_cases own : id = producer
        next =>
          subst own
          cases graph.nodes.get? id <;> by_cases consumes : id ∈ tensor.consumers <;>
            simp [parted, produced, consumes]
        next =>
          have other : producer ≠ id := Ne.symm own
          cases graph.nodes.get? id <;> by_cases consumes : id ∈ tensor.consumers <;>
            simp [parted, produced, consumes, own, other]
    next => cases removed

section Parted

variable {tensor : Tensor} {t u : TensorId} {id : NodeId} {node : Node}

theorem mem_allOutputs_parted (other : u ≠ t) : u ∈ (parted tensor t id node).allOutputs ↔ u ∈ node.allOutputs := by
  by_cases produces : tensor.producer = some id <;> simp [parted, Node.allOutputs, produces, other]

theorem mem_allInputs_parted (other : u ≠ t) : u ∈ (parted tensor t id node).allInputs ↔ u ∈ node.allInputs := by
  by_cases consumes : id ∈ tensor.consumers <;> simp [parted, Node.allInputs, consumes, other]

theorem listed_of_parted (listed : u ∈ (parted tensor t id node).allInputs ∨ u ∈ (parted tensor t id node).allOutputs) :
    u ∈ node.allInputs ∨ u ∈ node.allOutputs := by
  have fewer {own : Prop} [Decidable own] {clones : List TensorId}
      (member : u ∈ if own then clones.filter (· ≠ t) else clones) : u ∈ clones := by
    split at member
    next => exact List.mem_of_mem_filter member
    next => exact member
  rcases listed with listed | listed
  next =>
    rcases List.mem_append.mp listed with data | control
    next => exact Or.inl (List.mem_append_left _ data)
    next => exact Or.inl (List.mem_append_right _ (fewer control))
  next =>
    rcases List.mem_append.mp listed with data | control
    next => exact Or.inr (List.mem_append_left _ data)
    next => exact Or.inr (List.mem_append_right _ (fewer control))

end Parted

theorem get?_tensors_removeControlEdge {t : TensorId} {after : Graph} (removed : graph.removeControlEdge t = .ok after)
    (u : TensorId) : after.tensors.get? u = if u = t then none else graph.tensors.get? u := by
  obtain ⟨tensor, -, tensors, -⟩ := removeControlEdge_eq_ok removed
  rw [tensors, Table.get?_erase_eq]

theorem nodeIds_removeControlEdge {t : TensorId} {after : Graph} (removed : graph.removeControlEdge t = .ok after)
    (id : NodeId) : id ∈ after.nodeIds ↔ id ∈ graph.nodeIds := by
  obtain ⟨tensor, -, -, -, -, nodes⟩ := removeControlEdge_eq_ok removed
  rw [mem_nodeIds_iff, mem_nodeIds_iff, nodes]
  cases graph.nodes.get? id <;> simp

theorem Linked.removeControlEdge (linked : graph.Linked) {t : TensorId} {after : Graph}
    (removed : graph.removeControlEdge t = .ok after) : after.Linked := by
  have tensors {u : TensorId} {record : Tensor} (found : after.tensors.get? u = some record) :
      u ≠ t ∧ graph.tensors.get? u = some record := by
    rw [get?_tensors_removeControlEdge removed] at found
    split at found
    next => cases found
    next other => exact ⟨other, found⟩
  obtain ⟨tensor, -, -, nextNode, nextTensor, nodes⟩ := removeControlEdge_eq_ok removed
  have node_of {id : NodeId} {node : Node} (found : after.nodes.get? id = some node) :
      ∃ old, graph.nodes.get? id = some old ∧ parted tensor t id old = node := by
    rwa [nodes, Option.map_eq_some_iff] at found
  -- The lists of a node changed at `t` only, and `t` is the tensor that is gone.
  have lists (id : NodeId) {side : Node → List TensorId} {u : TensorId}
      (same : ∀ node, u ∈ side (parted tensor t id node) ↔ u ∈ side node) :
      (∃ node, graph.nodes.get? id = some node ∧ u ∈ side node) ↔
        ∃ node, after.nodes.get? id = some node ∧ u ∈ side node := by
    rw [nodes, lists_map]
    simp only [same]
  constructor
  case producer_iff =>
    intro u record found id
    obtain ⟨other, old⟩ := tensors found
    exact (linked.producer_iff old id).trans (lists id fun _ => mem_allOutputs_parted other)
  case consumer_iff =>
    intro u record found id
    obtain ⟨other, old⟩ := tensors found
    exact (linked.consumer_iff old id).trans (lists id fun _ => mem_allInputs_parted other)
  case ascending => exact fun found => linked.ascending (tensors found).2
  case nodeKey =>
    intro id node found
    obtain ⟨old, there, rfl⟩ := node_of found
    show old.id = id
    exact linked.nodeKey there
  case nodeBelow =>
    intro id node found
    obtain ⟨old, there, -⟩ := node_of found
    exact nextNode ▸ linked.nodeBelow there
  case tensorBelow => exact fun found => nextTensor ▸ linked.tensorBelow (tensors found).2
  case listedBelow =>
    intro id node u found listed
    obtain ⟨old, there, rfl⟩ := node_of found
    exact nextTensor ▸ linked.listedBelow there (listed_of_parted listed)
  case viewBelow => exact fun found viewed => linked.viewBelow (tensors found).2 viewed

theorem Consistent.removeControlEdge (consistent : graph.Consistent) {t : TensorId} {after : Graph}
    (removed : graph.removeControlEdge t = .ok after)
    (control : ∀ {id node}, graph.nodes.get? id = some node → t ∉ node.inputs ∧ t ∉ node.outputs) :
    after.Consistent := by
  refine { consistent.toLinked.removeControlEdge removed with listed := ?_ }
  have gone := get?_tensors_removeControlEdge removed
  obtain ⟨tensor, there, -, -, -, nodes⟩ := removeControlEdge_eq_ok removed
  intro id node u found listed
  rw [nodes, Option.map_eq_some_iff] at found
  obtain ⟨old, present, rfl⟩ := found
  obtain ⟨undata, undata'⟩ := control present
  have other : u ≠ t := by
    -- Both ends of the tensor name it, so both have filtered it out.
    rintro rfl
    have reads := (consistent.consumer_iff there id).mpr
    have writes := (consistent.producer_iff there id).mpr
    simp only [present, Option.some.injEq, exists_eq_left'] at reads writes
    rcases listed with listed | listed
    next =>
      rcases List.mem_append.mp listed with data | controls
      next => exact undata data
      next =>
        by_cases consumes : id ∈ tensor.consumers
        next => simp [parted, consumes] at controls
        next =>
          simp only [parted, consumes, if_false] at controls
          exact consumes (reads (List.mem_append_right _ controls))
    next =>
      rcases List.mem_append.mp listed with data | controls
      next => exact undata' data
      next =>
        by_cases produces : tensor.producer = some id
        next => simp [parted, produces] at controls
        next =>
          simp only [parted, produces, if_false] at controls
          exact produces (writes (List.mem_append_right _ controls))
  rw [gone, if_neg other]
  exact consistent.listed present (listed_of_parted listed)

end Dataflow.Graph
