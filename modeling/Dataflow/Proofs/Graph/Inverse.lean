import Dataflow.Proofs.Graph.Disconnect

set_option autoImplicit false

namespace Dataflow

namespace Ranked

variable {κ : Type} [Ranked κ] [DecidableEq κ] {keys : List κ} {a : κ}

theorem filter_insert_self (ordered : Ascending keys) (absent : a ∉ keys) :
    (insert a keys).filter (· ≠ a) = keys := by
  refine ((ascending_insert a ordered).filter _).ext ordered fun key => ?_
  by_cases same : key = a
  next => simp [same, absent]
  next => simp [same]

theorem insert_filter_self (ordered : Ascending keys) (present : a ∈ keys) :
    insert a (keys.filter (· ≠ a)) = keys := by
  refine (ascending_insert a (ordered.filter _)).ext ordered fun key => ?_
  by_cases same : key = a
  next => simp [same, present]
  next => simp [same]

end Ranked

namespace Graph

variable {graph after later : Graph}

structure SameRecords (graph later : Graph) : Prop where
  nodes : later.nodes = graph.nodes
  tensors : later.tensors = graph.tensors
  nextNode : graph.nextNode ≤ later.nextNode
  nextTensor : graph.nextTensor ≤ later.nextTensor

theorem SameRecords.refl (graph : Graph) : graph.SameRecords graph := ⟨rfl, rfl, Nat.le_refl _, Nat.le_refl _⟩

theorem SameRecords.raiseNext (same : graph.SameRecords later) {next : Nat} (grows : later.nextNode ≤ next) :
    graph.SameRecords { later with nextNode := next } :=
  { same with nextNode := Nat.le_trans same.nextNode grows }

section Fields

variable {node : Node} {t : TensorId} {tensor : Tensor}

theorem released_entered (ordered : Ranked.Ascending tensor.consumers) (unread : node.id ∉ tensor.consumers)
    (unproduced : t ∈ node.allOutputs → tensor.producer = none) : released node t (entered node t tensor) = tensor := by
  have consumers := Ranked.filter_insert_self ordered unread
  obtain ⟨id, name, sizeBytes, producer, readers, control, view⟩ := tensor
  by_cases reads : t ∈ node.allInputs <;> by_cases writes : t ∈ node.allOutputs <;>
    simp_all [released, entered]

theorem entered_released (ordered : Ranked.Ascending tensor.consumers)
    (read : t ∈ node.allInputs → node.id ∈ tensor.consumers)
    (produced : t ∈ node.allOutputs → tensor.producer = some node.id) :
    entered node t (released node t tensor) = tensor := by
  have consumers := fun reads => Ranked.insert_filter_self ordered (read reads)
  obtain ⟨id, name, sizeBytes, producer, readers, control, view⟩ := tensor
  by_cases reads : t ∈ node.allInputs <;> by_cases writes : t ∈ node.allOutputs <;>
    simp_all [released, entered]

end Fields

theorem SameRecords.detach_attach (linked : graph.Linked) {node : Node} (absent : graph.nodes.get? node.id = none)
    (unproduced : ∀ t ∈ node.allOutputs, ∀ tensor, graph.tensors.get? t = some tensor → tensor.producer = none)
    (same : (graph.attach node).SameRecords later) : graph.SameRecords (later.detach node) where
  nodes := by
    refine Table.ext_get? fun id => ?_
    rw [get?_nodes_detach, same.nodes, get?_nodes_attach]
    by_cases own : id = node.id
    next => rw [if_pos own, own, absent]
    next => rw [if_neg own, if_neg own]
  tensors := by
    refine Table.ext_get? fun t => ?_
    rw [get?_tensors_detach, same.tensors, get?_tensors_attach, Option.map_map]
    cases found : graph.tensors.get? t with
    | none => rfl
    | some tensor =>
      -- The node was not there, so no tensor named it before.
      have unread : node.id ∉ tensor.consumers := by
        intro reads
        obtain ⟨record, present, -⟩ := (linked.consumer_iff found node.id).mp reads
        rw [absent] at present
        cases present
      exact congrArg some (released_entered (linked.ascending found) unread fun writes => unproduced t writes tensor found)
  nextNode := same.nextNode
  nextTensor := same.nextTensor

theorem SameRecords.attach_detach (linked : graph.Linked) {node : Node}
    (present : graph.nodes.get? node.id = some node) (same : (graph.detach node).SameRecords later) :
    graph.SameRecords (later.attach node) where
  nodes := by
    refine Table.ext_get? fun id => ?_
    rw [get?_nodes_attach, same.nodes, get?_nodes_detach]
    by_cases own : id = node.id
    next => rw [if_pos own, own, present]
    next => rw [if_neg own, if_neg own]
  tensors := by
    refine Table.ext_get? fun t => ?_
    rw [get?_tensors_attach, same.tensors, get?_tensors_detach, Option.map_map]
    cases found : graph.tensors.get? t with
    | none => rfl
    | some tensor =>
      refine congrArg some (entered_released (linked.ascending found) (fun reads => ?_) fun writes => ?_)
      next => exact (linked.consumer_iff found node.id).mpr ⟨node, present, reads⟩
      next => exact (linked.producer_iff found node.id).mpr ⟨node, present, writes⟩
  nextNode := same.nextNode
  nextTensor := same.nextTensor

theorem removeNode_of_present {id : NodeId} {node : Node} (present : graph.nodes.get? id = some node) :
    graph.removeNode id = .ok (node, graph.detach node) := by
  rw [removeNode, get, present]
  rfl

theorem SameRecords.undo_addNode (linked : graph.Linked) {spec : NodeSpec} {inputs outputs : List TensorId} {id : NodeId}
    (added : graph.addNode spec inputs outputs = .ok (id, after)) (same : after.SameRecords later) :
    ∃ node final, later.removeNode id = .ok (node, final) ∧ graph.SameRecords final := by
  obtain ⟨rfl, rfl, -, unproduced⟩ := addNode_eq_ok added
  have present : later.nodes.get? ⟨graph.nextNode⟩ = some (spec.node ⟨graph.nextNode⟩ inputs outputs [] []) := by
    rw [same.nodes, get?_nodes_attach]
    exact if_pos rfl
  refine ⟨_, _, removeNode_of_present present, ?_⟩
  have outputs_eq : (spec.node ⟨graph.nextNode⟩ inputs outputs [] []).allOutputs = outputs := List.append_nil _
  have back := SameRecords.detach_attach (linked.raiseNext (Nat.le_succ graph.nextNode)) (nextNode_absent linked)
    (by rwa [outputs_eq]) same
  exact { back with nextNode := Nat.le_of_succ_le back.nextNode }

theorem SameRecords.undo_removeNode (consistent : graph.Consistent) {id : NodeId} {node : Node}
    (removed : graph.removeNode id = .ok (node, after)) (same : after.SameRecords later) :
    ∃ final, later.restoreNode node = .ok final ∧ graph.SameRecords final := by
  obtain ⟨found, rfl⟩ := removeNode_eq_ok removed
  cases consistent.nodeKey found
  have absent : later.contains node.id = false := by
    rw [contains, Table.contains, same.nodes, get?_nodes_detach, if_pos rfl]
    rfl
  -- Nobody else produces the outputs that the node gave up.
  have accepted : node.allOutputs.findSome? later.outputRefusal? = none := by
    rw [List.findSome?_eq_none_iff]
    intro t writes
    obtain ⟨tensor, there⟩ := consistent.listed found (Or.inr writes)
    have produced := (consistent.producer_iff there node.id).mpr ⟨node, found, writes⟩
    refine (outputRefusal?_eq_none_iff t).mpr ⟨released node t tensor, ?_, ?_⟩
    next => rw [same.tensors, get?_tensors_detach, there]; rfl
    next => simp [released, writes, produced]
  refine ⟨{ later with nextNode := max later.nextNode (node.id.val + 1) }.attach node, ?_, ?_⟩
  next => rw [restoreNode, absent, accepted]; rfl
  next => exact (same.raiseNext (Nat.le_max_left _ _)).attach_detach consistent.toLinked found

theorem removeControlEdge_of_control {t : TensorId} {tensor : Tensor} (there : graph.tensors.get? t = some tensor)
    (control : tensor.isControl = true) : ∃ after, graph.removeControlEdge t = .ok after := by
  unfold removeControlEdge
  rw [there]
  dsimp only
  rw [if_pos control]
  exact ⟨_, rfl⟩

theorem parted_joined {blocking blocked id : NodeId} {t : TensorId} {node : Node} {tensor : Tensor}
    (produced : tensor.producer = some blocking) (consumed : tensor.consumers = [blocked])
    (unread : t ∉ node.controlInputs) (unwritten : t ∉ node.controlOutputs) :
    parted tensor t id (joined blocking blocked t id node) = node := by
  have writes : (tensor.producer = some id) = (id = blocking) := by simp [produced, eq_comm]
  have reads : (id ∈ tensor.consumers) = (id = blocked) := by simp [consumed]
  simp only [parted, joined, writes, reads, List.filter_append_of unread, List.filter_append_of unwritten]

theorem SameRecords.undo_addControlEdge (linked : graph.Linked) {blocking blocked : NodeId} {type : ControlType}
    {t : TensorId} (added : graph.addControlEdge blocking blocked type = .ok (t, after))
    (same : after.SameRecords later) : ∃ final, later.removeControlEdge t = .ok final ∧ graph.SameRecords final := by
  obtain ⟨-, -, -, -, rfl, rfl⟩ := addControlEdge_eq_ok added
  have there : later.tensors.get? ⟨graph.nextTensor⟩ = some (graph.controlTensor blocking blocked type) := by
    rw [same.tensors, get?_tensors_withControl, if_pos rfl]
  obtain ⟨final, removed⟩ := removeControlEdge_of_control there rfl
  obtain ⟨tensor, found, tensors, nextNode, nextTensor, nodes⟩ := removeControlEdge_eq_ok removed
  cases there.symm.trans found
  refine ⟨final, removed, ⟨?_, ?_, ?_, ?_⟩⟩
  next =>
    refine Table.ext_get? fun id => ?_
    rw [nodes, same.nodes, get?_nodes_withControl, Option.map_map]
    cases present : graph.nodes.get? id with
    | none => rfl
    | some node =>
      -- The tensor is numbered after all that the node listed before.
      have unlisted : ∀ {u}, u ∈ node.allInputs ∨ u ∈ node.allOutputs → u ≠ ⟨graph.nextTensor⟩ := by
        rintro u listed rfl
        exact Nat.lt_irrefl _ (linked.listedBelow present listed)
      refine congrArg some (parted_joined rfl rfl ?_ ?_)
      next => exact fun reads => unlisted (Or.inl (List.mem_append_right _ reads)) rfl
      next => exact fun writes => unlisted (Or.inr (List.mem_append_right _ writes)) rfl
  next =>
    refine Table.ext_get? fun u => ?_
    rw [tensors, Table.get?_erase_eq, same.tensors, get?_tensors_withControl]
    by_cases own : u = ⟨graph.nextTensor⟩
    next => rw [if_pos own, own, nextTensor_absent linked]
    next => rw [if_neg own, if_neg own]
  next => rw [nextNode]; exact same.nextNode
  next => rw [nextTensor]; exact Nat.le_of_succ_le same.nextTensor

end Graph

end Dataflow
