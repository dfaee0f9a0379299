import Dataflow.Proofs.Graph.Consistent

set_option autoImplicit false

namespace Dataflow.Graph

variable {graph : Graph}

def entered (node : Node) (t : TensorId) (tensor : Tensor) : Tensor :=
  { tensor with
    consumers := if t ∈ node.allInputs then Ranked.insert node.id tensor.consumers else tensor.consumers
    producer := if t ∈ node.allOutputs then some node.id else tensor.producer }

def released (node : Node) (t : TensorId) (tensor : Tensor) : Tensor :=
  { tensor with
    consumers := if t ∈ node.allInputs then tensor.consumers.filter (· ≠ node.id) else tensor.consumers
    producer :=
      if t ∈ node.allOutputs ∧ tensor.producer = some node.id then none else tensor.producer }

theorem get?_tensors_attach (node : Node) (t : TensorId) :
    (graph.attach node).tensors.get? t = (graph.tensors.get? t).map (entered node t) := by
  have twice : ∀ tensor : Tensor,
      { tensor with
        consumers := Ranked.insert node.id (Ranked.insert node.id tensor.consumers) } =
      { tensor with consumers := Ranked.insert node.id tensor.consumers } := by
    intro tensor
    rw [Ranked.insert_insert]
  have twice' : ∀ tensor : Tensor,
      { { tensor with producer := some node.id } with producer := some node.id } =
      { tensor with producer := some node.id } := fun _ => rfl
  rw [attach, Table.get?_foldl_modify twice', Table.get?_foldl_modify twice]
  by_cases consumed : t ∈ node.allInputs <;> by_cases produced : t ∈ node.allOutputs <;>
    cases graph.tensors.get? t <;> simp [entered, consumed, produced]

theorem get?_tensors_detach (node : Node) (t : TensorId) :
    (graph.detach node).tensors.get? t = (graph.tensors.get? t).map (released node t) := by
  have twice : ∀ tensor : Tensor,
      { tensor with
        consumers := (tensor.consumers.filter (· ≠ node.id)).filter (· ≠ node.id) } =
      { tensor with consumers := tensor.consumers.filter (· ≠ node.id) } := by
    intro tensor
    rw [List.filter_filter]
    simp
  have twice' : ∀ tensor : Tensor,
      { tensor with
        producer :=
          if (if tensor.producer = some node.id then none else tensor.producer) = some node.id then none
          else if tensor.producer = some node.id then none else tensor.producer } =
      { tensor with
        producer := if tensor.producer = some node.id then none else tensor.producer } := by
    intro tensor
    by_cases own : tensor.producer = some node.id <;> simp [own]
  rw [detach, Table.get?_foldl_modify twice', Table.get?_foldl_modify twice]
  by_cases consumed : t ∈ node.allInputs <;> by_cases produced : t ∈ node.allOutputs <;>
    cases graph.tensors.get? t <;> simp [released, consumed, produced]

theorem get?_nodes_attach (node : Node) (id : NodeId) :
    (graph.attach node).nodes.get? id = if id = node.id then some node else graph.nodes.get? id :=
  Table.get?_insert_eq ..

theorem get?_nodes_detach (node : Node) (id : NodeId) :
    (graph.detach node).nodes.get? id = if id = node.id then none else graph.nodes.get? id :=
  Table.get?_erase_eq ..

section Sides

variable {side : Node → List TensorId}

-- A side is what a node reads or what it writes; the two fields of a tensor mirror one side each.
theorem lists_attach (node : Node) (id : NodeId) (t : TensorId) :
    (∃ found, (graph.attach node).nodes.get? id = some found ∧ t ∈ side found) ↔
      id = node.id ∧ t ∈ side node ∨ id ≠ node.id ∧ ∃ found, graph.nodes.get? id = some found ∧ t ∈ side found := by
  rw [get?_nodes_attach]
  by_cases own : id = node.id <;> simp [own]

theorem lists_detach (node : Node) (id : NodeId) (t : TensorId) :
    (∃ found, (graph.detach node).nodes.get? id = some found ∧ t ∈ side found) ↔
      id ≠ node.id ∧ ∃ found, graph.nodes.get? id = some found ∧ t ∈ side found := by
  rw [get?_nodes_detach]
  by_cases own : id = node.id <;> simp [own]

theorem lists_map {found : Option Node} {change : Node → Node} {t : TensorId} :
    (∃ node, found.map change = some node ∧ t ∈ side node) ↔ ∃ node, found = some node ∧ t ∈ side (change node) := by
  cases found <;> simp

end Sides

theorem Linked.attach (linked : graph.Linked) {node : Node} (absent : graph.nodes.get? node.id = none)
    (numbered : node.id.val < graph.nextNode)
    (unproduced : ∀ t ∈ node.allOutputs, ∀ tensor, graph.tensors.get? t = some tensor → tensor.producer = none)
    (older : ∀ t, t ∈ node.allInputs ∨ t ∈ node.allOutputs → t.val < graph.nextTensor) :
    (graph.attach node).Linked := by
  have before {t : TensorId} {tensor : Tensor} (found : (graph.attach node).tensors.get? t = some tensor) :
      ∃ old, graph.tensors.get? t = some old ∧ entered node t old = tensor := by
    rwa [get?_tensors_attach, Option.map_eq_some_iff] at found
  constructor
  case producer_iff =>
    intro t tensor found id
    obtain ⟨old, there, rfl⟩ := before found
    rw [lists_attach, ← linked.producer_iff there id]
    -- A node that was absent is named by no record, so the new entries are all that names it.
    have never : old.producer ≠ some node.id := by simp [linked.producer_iff there, absent]
    by_cases writes : t ∈ node.allOutputs
    next => simp [entered, writes, unproduced t writes old there, eq_comm]
    next =>
      have other : old.producer = some id → id ≠ node.id := by rintro produced rfl; exact never produced
      simpa [entered, writes] using other
  case consumer_iff =>
    intro t tensor found id
    obtain ⟨old, there, rfl⟩ := before found
    rw [lists_attach, ← linked.consumer_iff there id]
    have never : node.id ∉ old.consumers := by simp [linked.consumer_iff there, absent]
    by_cases own : id = node.id <;> by_cases reads : t ∈ node.allInputs <;> simp [entered, own, reads, never]
  case ascending =>
    intro t tensor found
    obtain ⟨old, there, rfl⟩ := before found
    by_cases reads : t ∈ node.allInputs
    next => simpa [entered, reads] using Ranked.ascending_insert node.id (linked.ascending there)
    next => simpa [entered, reads] using linked.ascending there
  case nodeKey =>
    intro id found present
    rcases Table.get?_insert_eq_some.mp present with ⟨rfl, rfl⟩ | ⟨-, old⟩
    next => rfl
    next => exact linked.nodeKey old
  case nodeBelow =>
    intro id found present
    rcases Table.get?_insert_eq_some.mp present with ⟨rfl, rfl⟩ | ⟨-, old⟩
    next => exact numbered
    next => exact linked.nodeBelow old
  case tensorBelow =>
    intro t tensor found
    obtain ⟨old, there, rfl⟩ := before found
    exact linked.tensorBelow there
  case listedBelow =>
    intro id found t present listed
    rcases Table.get?_insert_eq_some.mp present with ⟨rfl, rfl⟩ | ⟨-, old⟩
    next => exact older t listed
    next => exact linked.listedBelow old listed
  case viewBelow =>
    intro t tensor view found viewed
    obtain ⟨old, there, rfl⟩ := before found
    exact linked.viewBelow there viewed

theorem Linked.detach (linked : graph.Linked) {node : Node} (present : graph.nodes.get? node.id = some node) :
    (graph.detach node).Linked := by
  have before {t : TensorId} {tensor : Tensor} (found : (graph.detach node).tensors.get? t = some tensor) :
      ∃ old, graph.tensors.get? t = some old ∧ released node t old = tensor := by
    rwa [get?_tensors_detach, Option.map_eq_some_iff] at found
  have stayed {id : NodeId} {found : Node} (left : (graph.detach node).nodes.get? id = some found) :
      graph.nodes.get? id = some found := by
    rw [get?_nodes_detach] at left
    split at left
    next => cases left
    next => exact left
  constructor
  case producer_iff =>
    intro t tensor found id
    obtain ⟨old, there, rfl⟩ := before found
    rw [lists_detach, ← linked.producer_iff there id]
    -- Where the node is the producer it is the only one, so the tensor is left without.
    by_cases own : old.producer = some node.id
    next =>
      have writes := (linked.writes_iff there present).mp own
      simp [released, own, writes, eq_comm]
    next =>
      have other : old.producer = some id → id ≠ node.id := by rintro produced rfl; exact own produced
      simpa [released, own] using other
  case consumer_iff =>
    intro t tensor found id
    obtain ⟨old, there, rfl⟩ := before found
    rw [lists_detach, ← linked.consumer_iff there id]
    by_cases reads : t ∈ node.allInputs
    next => simp [released, reads, and_comm]
    next =>
      have never : node.id ∉ old.consumers := mt (linked.reads_iff there present).mp reads
      have other : id ∈ old.consumers → id ≠ node.id := by rintro consumes rfl; exact never consumes
      simpa [released, reads] using other
  case ascending =>
    intro t tensor found
    obtain ⟨old, there, rfl⟩ := before found
    by_cases reads : t ∈ node.allInputs
    next => simpa [released, reads] using (linked.ascending there).filter (· ≠ node.id)
    next => simpa [released, reads] using linked.ascending there
  case nodeKey => exact fun left => linked.nodeKey (stayed left)
  case nodeBelow => exact fun left => linked.nodeBelow (stayed left)
  case tensorBelow =>
    intro t tensor found
    obtain ⟨old, there, rfl⟩ := before found
    exact linked.tensorBelow there
  case listedBelow => exact fun left listed => linked.listedBelow (stayed left) listed
  case viewBelow =>
    intro t tensor view found viewed
    obtain ⟨old, there, rfl⟩ := before found
    exact linked.viewBelow there viewed

theorem Linked.raiseNext (linked : graph.Linked) {next : Nat} (grows : graph.nextNode ≤ next) :
    Linked { graph with nextNode := next } :=
  { linked with nodeBelow := fun found => Nat.lt_of_lt_of_le (linked.nodeBelow found) grows }

theorem outputRefusal?_eq_none_iff (t : TensorId) :
    graph.outputRefusal? t = none ↔ ∃ tensor, graph.tensors.get? t = some tensor ∧ tensor.producer = none := by
  rw [outputRefusal?]
  cases graph.tensors.get? t <;> simp

theorem addNode_eq_ok {spec : NodeSpec} {inputs outputs : List TensorId} {id : NodeId} {after : Graph}
    (added : graph.addNode spec inputs outputs = .ok (id, after)) :
    id = ⟨graph.nextNode⟩ ∧
      after = { graph with nextNode := graph.nextNode + 1 }.attach (spec.node id inputs outputs [] []) ∧
      (∀ t ∈ inputs ++ outputs, ∃ tensor, graph.tensors.get? t = some tensor) ∧
      ∀ t ∈ outputs, ∀ tensor, graph.tensors.get? t = some tensor → tensor.producer = none := by
  rw [addNode] at added
  split at added
  next => cases added
  next allThere =>
    split at added
    next => cases added
    next unproduced =>
      cases added
      refine ⟨rfl, rfl, ?_, ?_⟩
      next =>
        intro t member
        have there := List.find?_eq_none.mp allThere t member
        rw [Bool.not_eq_true', Bool.not_eq_false, Table.contains, Option.isSome_iff_exists] at there
        exact there
      next =>
        intro t member tensor found
        obtain ⟨same, found', none⟩ :=
          (outputRefusal?_eq_none_iff t).mp (List.findSome?_eq_none_iff.mp unproduced t member)
        rw [found] at found'
        rwa [Option.some.inj found']

theorem addNode_of_free {spec : NodeSpec} {inputs outputs : List TensorId}
    (there : ∀ t ∈ inputs, ∃ tensor, graph.tensors.get? t = some tensor)
    (free : ∀ t ∈ outputs, ∃ tensor, graph.tensors.get? t = some tensor ∧ tensor.producer = none) :
    graph.addNode spec inputs outputs = .ok (⟨graph.nextNode⟩,
      { graph with nextNode := graph.nextNode + 1 }.attach (spec.node ⟨graph.nextNode⟩ inputs outputs [] [])) := by
  have known : (inputs ++ outputs).find? (fun t => !graph.tensors.contains t) = none := by
    rw [List.find?_eq_none]
    intro t listed
    have found : ∃ tensor, graph.tensors.get? t = some tensor := by
      rcases List.mem_append.mp listed with reads | writes
      next => exact there t reads
      next => exact (free t writes).imp fun _ => And.left
    rw [Bool.not_eq_true', Bool.not_eq_false, Table.contains, Option.isSome_iff_exists]
    exact found
  have accepted : outputs.findSome? graph.outputRefusal? = none := by
    rw [List.findSome?_eq_none_iff]
    exact fun t writes => (outputRefusal?_eq_none_iff t).mpr (free t writes)
  rw [addNode, known, accepted]

theorem removeNode_eq_ok {id : NodeId} {node : Node} {after : Graph}
    (removed : graph.removeNode id = .ok (node, after)) :
    graph.nodes.get? id = some node ∧ after = graph.detach node := by
  rw [removeNode, get] at removed
  cases found : graph.nodes.get? id with
  | none => rw [found] at removed; cases removed
  | some record => rw [found] at removed; cases removed; exact ⟨rfl, rfl⟩

theorem restoreNode_eq_ok {node : Node} {after : Graph} (restored : graph.restoreNode node = .ok after) :
    graph.nodes.get? node.id = none ∧
      after = { graph with nextNode := max graph.nextNode (node.id.val + 1) }.attach node ∧
      ∀ t ∈ node.allOutputs, ∃ tensor, graph.tensors.get? t = some tensor ∧ tensor.producer = none := by
  rw [restoreNode] at restored
  split at restored
  next => cases restored
  next absent =>
    split at restored
    next => cases restored
    next unproduced =>
      cases restored
      refine ⟨by simpa [contains, Table.contains] using absent, rfl, ?_⟩
      intro t member
      exact (outputRefusal?_eq_none_iff t).mp (List.findSome?_eq_none_iff.mp unproduced t member)

theorem replaceNode_eq_ok {old id : NodeId} {spec : NodeSpec} {after : Graph}
    (replaced : graph.replaceNode old spec = .ok (id, after)) :
    ∃ node, graph.nodes.get? old = some node ∧ id = ⟨graph.nextNode⟩ ∧
      after = { graph.detach node with nextNode := graph.nextNode + 1 }.attach
        (spec.node id node.inputs node.outputs node.controlInputs node.controlOutputs) := by
  rw [replaceNode] at replaced
  cases removed : graph.removeNode old with
  | error => rw [removed] at replaced; cases replaced
  | ok pair =>
    obtain ⟨node, rest⟩ := pair
    obtain ⟨found, rfl⟩ := removeNode_eq_ok removed
    rw [removed] at replaced
    cases replaced
    exact ⟨node, found, rfl, rfl⟩

theorem nextNode_absent (linked : graph.Linked) : graph.nodes.get? ⟨graph.nextNode⟩ = none := by
  by_contra present
  obtain ⟨node, found⟩ := Option.ne_none_iff_exists'.mp present
  exact Nat.lt_irrefl _ (linked.nodeBelow found)

theorem nextTensor_absent (linked : graph.Linked) : graph.tensors.get? ⟨graph.nextTensor⟩ = none := by
  by_contra present
  obtain ⟨tensor, found⟩ := Option.ne_none_iff_exists'.mp present
  exact Nat.lt_irrefl _ (linked.tensorBelow found)

theorem Linked.addNode (linked : graph.Linked) {spec : NodeSpec} {inputs outputs : List TensorId} {id : NodeId}
    {after : Graph} (added : graph.addNode spec inputs outputs = .ok (id, after)) : after.Linked := by
  obtain ⟨rfl, rfl, there, unproduced⟩ := addNode_eq_ok added
  have outputsAre : (spec.node ⟨graph.nextNode⟩ inputs outputs [] []).allOutputs = outputs :=
    List.append_nil outputs
  have inputsAre : (spec.node ⟨graph.nextNode⟩ inputs outputs [] []).allInputs = inputs :=
    List.append_nil inputs
  refine (linked.raiseNext (Nat.le_succ _)).attach (nextNode_absent linked) (Nat.lt_succ_self _) ?_ ?_
  next => rwa [outputsAre]
  next =>
    rw [inputsAre, outputsAre]
    intro t listed
    obtain ⟨tensor, found⟩ := there t (List.mem_append.mpr listed)
    exact linked.tensorBelow found

theorem Linked.removeNode (linked : graph.Linked) {id : NodeId} {node : Node} {after : Graph}
    (removed : graph.removeNode id = .ok (node, after)) : after.Linked := by
  obtain ⟨found, rfl⟩ := removeNode_eq_ok removed
  have key := linked.nodeKey found
  exact linked.detach (key ▸ found)

theorem Linked.restoreNode (linked : graph.Linked) {node : Node} {after : Graph}
    (restored : graph.restoreNode node = .ok after)
    (older : ∀ t, t ∈ node.allInputs ∨ t ∈ node.allOutputs → t.val < graph.nextTensor) : after.Linked := by
  obtain ⟨absent, rfl, unproduced⟩ := restoreNode_eq_ok restored
  refine (linked.raiseNext (Nat.le_max_left _ _)).attach absent ?_ ?_ older
  next => exact Nat.lt_of_lt_of_le (Nat.lt_succ_self _) (Nat.le_max_right _ _)
  next =>
    intro t outputs tensor found
    obtain ⟨same, found', none⟩ := unproduced t outputs
    rw [show graph.tensors.get? t = some tensor from found] at found'
    rwa [Option.some.inj found']

theorem Linked.replaceNode (linked : graph.Linked) {old id : NodeId} {spec : NodeSpec} {after : Graph}
    (replaced : graph.replaceNode old spec = .ok (id, after)) : after.Linked := by
  obtain ⟨node, found, rfl, rfl⟩ := replaceNode_eq_ok replaced
  have key := linked.nodeKey found
  subst key
  have rest := linked.detach found
  refine (rest.raiseNext (Nat.le_succ _)).attach ?_ (Nat.lt_succ_self _) ?_ ?_
  next =>
    show (graph.detach node).nodes.get? ⟨graph.nextNode⟩ = none
    rw [get?_nodes_detach, nextNode_absent linked, ite_self]
  next =>
    intro t outputs tensor after
    change (graph.detach node).tensors.get? t = some tensor at after
    rw [get?_tensors_detach] at after
    obtain ⟨before, there, rfl⟩ := Option.map_eq_some_iff.mp after
    have produced : before.producer = some node.id := (linked.producer_iff there _).mpr ⟨node, found, outputs⟩
    have outputs' : t ∈ node.allOutputs := outputs
    simp [released, outputs', produced]
  next => exact fun t listed => linked.listedBelow found listed

def joined (blocking blocked : NodeId) (t : TensorId) (id : NodeId) (node : Node) : Node :=
  { node with
    controlOutputs := if id = blocking then node.controlOutputs ++ [t] else node.controlOutputs
    controlInputs := if id = blocked then node.controlInputs ++ [t] else node.controlInputs }

def controlTensor (graph : Graph) (blocking blocked : NodeId) (type : ControlType) : Tensor :=
  { id := ⟨graph.nextTensor⟩, name := s!"ctrl_{blocking}_{blocked}", sizeBytes := 0
    producer := some blocking, consumers := [blocked], control := some type }

def withControl (graph : Graph) (blocking blocked : NodeId) (type : ControlType) : Graph :=
  { graph with
    nodes :=
      (graph.nodes.modify blocking fun node =>
        { node with controlOutputs := node.controlOutputs ++ [⟨graph.nextTensor⟩] }).modify blocked
        fun node => { node with controlInputs := node.controlInputs ++ [⟨graph.nextTensor⟩] }
    tensors := graph.tensors.insert ⟨graph.nextTensor⟩ (graph.controlTensor blocking blocked type)
    nextTensor := graph.nextTensor + 1 }

theorem addControlEdge_eq (blocking blocked : NodeId) (type : ControlType) :
    graph.addControlEdge blocking blocked type =
      if blocking = blocked then .error (.selfEdge blocking)
      else if !graph.contains blocking then .error (.nodeNotFound blocking)
      else if !graph.contains blocked then .error (.nodeNotFound blocked)
      else if graph.reaches blocked blocking then .error (.cycleDetected blocking blocked)
      else .ok (⟨graph.nextTensor⟩, graph.withControl blocking blocked type) :=
  rfl

theorem addControlEdge_eq_ok {blocking blocked : NodeId} {type : ControlType} {t : TensorId} {after : Graph}
    (added : graph.addControlEdge blocking blocked type = .ok (t, after)) :
    blocking ≠ blocked ∧ blocking ∈ graph.nodeIds ∧ blocked ∈ graph.nodeIds ∧
      graph.reaches blocked blocking = false ∧ t = ⟨graph.nextTensor⟩ ∧
      after = graph.withControl blocking blocked type := by
  rw [addControlEdge_eq] at added
  split at added
  next => cases added
  next differ =>
    split at added
    next => cases added
    next left =>
      split at added
      next => cases added
      next right =>
        split at added
        next => cases added
        next apart =>
          cases added
          rw [Bool.not_eq_true', Bool.not_eq_false, contains_iff] at left right
          exact ⟨differ, left, right, by simpa using apart, rfl, rfl⟩

theorem addControlEdge_of_known {blocking blocked : NodeId} (type : ControlType) (differ : blocking ≠ blocked)
    (blockingThere : blocking ∈ graph.nodeIds) (blockedThere : blocked ∈ graph.nodeIds) :
    graph.addControlEdge blocking blocked type =
      if graph.reaches blocked blocking then .error (.cycleDetected blocking blocked)
      else .ok (⟨graph.nextTensor⟩, graph.withControl blocking blocked type) := by
  rw [← contains_iff] at blockingThere blockedThere
  rw [addControlEdge_eq, if_neg differ, blockingThere, blockedThere]
  rfl

theorem get?_nodes_withControl {blocking blocked : NodeId} (type : ControlType) (id : NodeId) :
    (graph.withControl blocking blocked type).nodes.get? id =
      (graph.nodes.get? id).map (joined blocking blocked ⟨graph.nextTensor⟩ id) := by
  rw [withControl]
  simp only [Table.get?_modify, Ident.rank_eq]
  by_cases first : id = blocking <;> by_cases second : id = blocked
  · subst first; subst second
    cases graph.nodes.get? id <;> simp [joined]
  · subst first
    have other : id.val ≠ blocked.val := fun same => second (Ident.ext same)
    cases graph.nodes.get? id <;> simp [joined, second, other]
  · subst second
    have other : id.val ≠ blocking.val := fun same => first (Ident.ext same)
    cases graph.nodes.get? id <;> simp [joined, first, other]
  · have other : id.val ≠ blocking.val := fun same => first (Ident.ext same)
    have other' : id.val ≠ blocked.val := fun same => second (Ident.ext same)
    cases graph.nodes.get? id <;> simp [joined, first, second, other, other']

theorem get?_tensors_withControl {blocking blocked : NodeId} (type : ControlType) (t : TensorId) :
    (graph.withControl blocking blocked type).tensors.get? t =
      if t = ⟨graph.nextTensor⟩ then some (graph.controlTensor blocking blocked type)
      else graph.tensors.get? t :=
  Table.get?_insert_eq ..

theorem nodeIds_withControl {blocking blocked : NodeId} (type : ControlType) :
    (graph.withControl blocking blocked type).nodeIds = graph.nodeIds := by
  refine Ranked.Ascending.ext (Table.ascending_keys _) (Table.ascending_keys _) fun id => ?_
  show id ∈ (graph.withControl blocking blocked type).nodeIds ↔ id ∈ graph.nodeIds
  rw [mem_nodeIds_iff, mem_nodeIds_iff, get?_nodes_withControl]
  cases graph.nodes.get? id <;> simp

theorem mem_allOutputs_joined {blocking blocked id : NodeId} {t u : TensorId} {node : Node} :
    u ∈ (joined blocking blocked t id node).allOutputs ↔ u ∈ node.allOutputs ∨ id = blocking ∧ u = t := by
  by_cases first : id = blocking <;> simp [joined, Node.allOutputs, first, or_assoc]

theorem mem_allInputs_joined {blocking blocked id : NodeId} {t u : TensorId} {node : Node} :
    u ∈ (joined blocking blocked t id node).allInputs ↔ u ∈ node.allInputs ∨ id = blocked ∧ u = t := by
  by_cases second : id = blocked <;> simp [joined, Node.allInputs, second, or_assoc]

section WithControl

variable {blocking blocked : NodeId}

theorem writes_withControl (type : ControlType) (blockingThere : blocking ∈ graph.nodeIds) (id : NodeId) (t : TensorId) :
    (∃ node, (graph.withControl blocking blocked type).nodes.get? id = some node ∧ t ∈ node.allOutputs) ↔
      (∃ node, graph.nodes.get? id = some node ∧ t ∈ node.allOutputs) ∨ id = blocking ∧ t = ⟨graph.nextTensor⟩ := by
  rw [get?_nodes_withControl, lists_map]
  simp only [mem_allOutputs_joined, and_or_left, exists_or, exists_and_right]
  refine or_congr_right (and_iff_right_of_imp ?_)
  rintro ⟨rfl, -⟩
  exact (mem_nodeIds_iff _).mp blockingThere

theorem reads_withControl (type : ControlType) (blockedThere : blocked ∈ graph.nodeIds) (id : NodeId) (t : TensorId) :
    (∃ node, (graph.withControl blocking blocked type).nodes.get? id = some node ∧ t ∈ node.allInputs) ↔
      (∃ node, graph.nodes.get? id = some node ∧ t ∈ node.allInputs) ∨ id = blocked ∧ t = ⟨graph.nextTensor⟩ := by
  rw [get?_nodes_withControl, lists_map]
  simp only [mem_allInputs_joined, and_or_left, exists_or, exists_and_right]
  refine or_congr_right (and_iff_right_of_imp ?_)
  rintro ⟨rfl, -⟩
  exact (mem_nodeIds_iff _).mp blockedThere

theorem Linked.withControl (linked : graph.Linked) (type : ControlType) (blockingThere : blocking ∈ graph.nodeIds)
    (blockedThere : blocked ∈ graph.nodeIds) : (graph.withControl blocking blocked type).Linked := by
  have before {id : NodeId} {node : Node}
      (found : (graph.withControl blocking blocked type).nodes.get? id = some node) :
      ∃ old, graph.nodes.get? id = some old ∧ joined blocking blocked ⟨graph.nextTensor⟩ id old = node := by
    rwa [get?_nodes_withControl, Option.map_eq_some_iff] at found
  constructor
  case producer_iff =>
    intro t tensor found id
    rw [writes_withControl type blockingThere]
    rcases Table.get?_insert_eq_some.mp found with ⟨rfl, rfl⟩ | ⟨other, old⟩
    next =>
      -- The tensor is new, so nobody has listed it before.
      have unwritten : ¬ ∃ node, graph.nodes.get? id = some node ∧ ⟨graph.nextTensor⟩ ∈ node.allOutputs := by
        rintro ⟨node, present, listed⟩
        exact (linked.unlisted present).2 listed
      rw [or_iff_right unwritten]
      simp [controlTensor, eq_comm]
    next => simpa [other] using linked.producer_iff old id
  case consumer_iff =>
    intro t tensor found id
    rw [reads_withControl type blockedThere]
    rcases Table.get?_insert_eq_some.mp found with ⟨rfl, rfl⟩ | ⟨other, old⟩
    next =>
      have unread : ¬ ∃ node, graph.nodes.get? id = some node ∧ ⟨graph.nextTensor⟩ ∈ node.allInputs := by
        rintro ⟨node, present, listed⟩
        exact (linked.unlisted present).1 listed
      rw [or_iff_right unread]
      simp [controlTensor]
    next => simpa [other] using linked.consumer_iff old id
  case ascending =>
    intro t tensor found
    rcases Table.get?_insert_eq_some.mp found with ⟨-, rfl⟩ | ⟨-, old⟩
    next => exact List.pairwise_singleton _ _
    next => exact linked.ascending old
  case nodeKey =>
    intro id node found
    obtain ⟨old, present, rfl⟩ := before found
    have key := linked.nodeKey present
    exact key
  case nodeBelow =>
    intro id node found
    obtain ⟨old, present, rfl⟩ := before found
    exact linked.nodeBelow present
  case tensorBelow =>
    intro t tensor found
    rcases Table.get?_insert_eq_some.mp found with ⟨rfl, -⟩ | ⟨-, old⟩
    next => exact Nat.lt_succ_self _
    next => exact Nat.lt_succ_of_lt (linked.tensorBelow old)
  case listedBelow =>
    intro id node t found listed
    obtain ⟨old, present, rfl⟩ := before found
    rw [mem_allInputs_joined, mem_allOutputs_joined, or_or_or_comm] at listed
    rcases listed with listed | ⟨-, rfl⟩ | ⟨-, rfl⟩
    next => exact Nat.lt_succ_of_lt (linked.listedBelow present listed)
    next => exact Nat.lt_succ_self _
    next => exact Nat.lt_succ_self _
  case viewBelow =>
    intro t tensor view found viewed
    rcases Table.get?_insert_eq_some.mp found with ⟨-, rfl⟩ | ⟨-, old⟩
    next => cases viewed
    next => exact linked.viewBelow old viewed

end WithControl

theorem Consistent.withControl (consistent : graph.Consistent) {blocking blocked : NodeId} (type : ControlType)
    (blockingThere : blocking ∈ graph.nodeIds) (blockedThere : blocked ∈ graph.nodeIds) :
    (graph.withControl blocking blocked type).Consistent := by
  refine { consistent.toLinked.withControl type blockingThere blockedThere with listed := ?_ }
  intro id node t found listed
  rw [get?_nodes_withControl] at found
  obtain ⟨before, present, rfl⟩ := Option.map_eq_some_iff.mp found
  rw [get?_tensors_withControl]
  by_cases new : t = ⟨graph.nextTensor⟩
  next => exact ⟨_, if_pos new⟩
  next =>
    simp only [mem_allInputs_joined, mem_allOutputs_joined, new, and_false, or_false] at listed
    rw [if_neg new]
    exact consistent.listed present listed

theorem Consistent.pushTensor (consistent : graph.Consistent) {record : TensorId → Tensor}
    (unlinked : ∀ id, (record id).producer = none ∧ (record id).consumers = [])
    (older : ∀ view, (record ⟨graph.nextTensor⟩).view = some view → view.real.val < graph.nextTensor) :
    (graph.pushTensor record).2.Consistent := by
  refine { consistent.toLinked.pushTensor unlinked older with listed := ?_ }
  intro id node t present listed
  by_cases new : t = ⟨graph.nextTensor⟩
  next => exact ⟨_, by rw [new]; exact Table.get?_insert_self ..⟩
  next =>
    obtain ⟨tensor, found⟩ := @Consistent.listed graph consistent id node t present listed
    exact ⟨tensor, (Table.get?_insert_of_ne _ _ new).trans found⟩

theorem Linked.addTensor (linked : graph.Linked) (name : String) (sizeBytes : Nat) :
    (graph.addTensor name sizeBytes).2.Linked :=
  linked.pushTensor (fun _ => ⟨rfl, rfl⟩) fun _ viewed => by cases viewed

theorem Consistent.addTensor (consistent : graph.Consistent) (name : String) (sizeBytes : Nat) :
    (graph.addTensor name sizeBytes).2.Consistent :=
  consistent.pushTensor (fun _ => ⟨rfl, rfl⟩) fun _ viewed => by cases viewed

theorem addAlias_eq_ok {name : String} {sizeBytes offset : Nat} {real id : TensorId} {after : Graph}
    (added : graph.addAlias name sizeBytes real offset = .ok (id, after)) :
    (∃ tensor, graph.tensors.get? real = some tensor) ∧
      after = (graph.pushTensor fun id => { id, name, sizeBytes, view := some { real, offset } }).2 := by
  rw [addAlias] at added
  split at added
  next present =>
    refine ⟨?_, (congrArg Prod.snd (Except.ok.inj added)).symm⟩
    exact (graph.tensors.mem_keys_iff real).mp ((graph.tensors.contains_iff real).mp present)
  next => cases added

theorem Linked.addAlias (linked : graph.Linked) {name : String} {sizeBytes offset : Nat} {real id : TensorId}
    {after : Graph} (added : graph.addAlias name sizeBytes real offset = .ok (id, after)) : after.Linked := by
  obtain ⟨⟨tensor, found⟩, rfl⟩ := addAlias_eq_ok added
  refine linked.pushTensor (fun _ => ⟨rfl, rfl⟩) ?_
  rintro view ⟨⟩
  exact linked.tensorBelow found

theorem Consistent.addAlias (consistent : graph.Consistent) {name : String} {sizeBytes offset : Nat}
    {real id : TensorId} {after : Graph} (added : graph.addAlias name sizeBytes real offset = .ok (id, after)) :
    after.Consistent := by
  obtain ⟨⟨tensor, found⟩, rfl⟩ := addAlias_eq_ok added
  refine consistent.pushTensor (fun _ => ⟨rfl, rfl⟩) ?_
  rintro view ⟨⟩
  exact consistent.tensorBelow found

theorem Consistent.listed_attach (consistent : graph.Consistent) {node : Node}
    (there : ∀ t, t ∈ node.allInputs ∨ t ∈ node.allOutputs → ∃ tensor, graph.tensors.get? t = some tensor)
    {id : NodeId} {found : Node} {t : TensorId} (present : (graph.attach node).nodes.get? id = some found)
    (listed : t ∈ found.allInputs ∨ t ∈ found.allOutputs) :
    ∃ tensor, (graph.attach node).tensors.get? t = some tensor := by
  have before : ∃ tensor, graph.tensors.get? t = some tensor := by
    rw [get?_nodes_attach] at present
    split at present
    next => cases present; exact there t listed
    next => exact consistent.listed present listed
  obtain ⟨tensor, found⟩ := before
  exact ⟨_, (get?_tensors_attach _ t).trans (by rw [found]; rfl)⟩

theorem Consistent.raiseNext (consistent : graph.Consistent) {next : Nat} (grows : graph.nextNode ≤ next) :
    Consistent { graph with nextNode := next } :=
  { consistent.toLinked.raiseNext grows with listed := consistent.listed }

theorem Consistent.addNode (consistent : graph.Consistent) {spec : NodeSpec} {inputs outputs : List TensorId}
    {id : NodeId} {after : Graph} (added : graph.addNode spec inputs outputs = .ok (id, after)) :
    after.Consistent := by
  refine { consistent.toLinked.addNode added with listed := ?_ }
  obtain ⟨rfl, rfl, there, -⟩ := addNode_eq_ok added
  refine (consistent.raiseNext (Nat.le_succ _)).listed_attach ?_
  intro t listed
  simp only [NodeSpec.node, Node.allInputs, Node.allOutputs, List.append_nil] at listed
  exact there t (List.mem_append.mpr listed)

theorem Consistent.detach (consistent : graph.Consistent) {node : Node}
    (present : graph.nodes.get? node.id = some node) : (graph.detach node).Consistent := by
  refine { consistent.toLinked.detach present with listed := ?_ }
  intro other record t found listed
  rw [get?_nodes_detach] at found
  split at found
  next => cases found
  next =>
    obtain ⟨tensor, there⟩ := consistent.listed found listed
    exact ⟨_, (get?_tensors_detach _ t).trans (by rw [there]; rfl)⟩

theorem Consistent.removeNode (consistent : graph.Consistent) {id : NodeId} {node : Node} {after : Graph}
    (removed : graph.removeNode id = .ok (node, after)) : after.Consistent := by
  obtain ⟨found, rfl⟩ := removeNode_eq_ok removed
  have key := consistent.nodeKey found
  exact consistent.detach (key ▸ found)

theorem Consistent.restoreNode (consistent : graph.Consistent) {node : Node} {after : Graph}
    (restored : graph.restoreNode node = .ok after)
    (there : ∀ t ∈ node.allInputs, ∃ tensor, graph.tensors.get? t = some tensor) : after.Consistent := by
  have listed : ∀ t, t ∈ node.allInputs ∨ t ∈ node.allOutputs → ∃ tensor, graph.tensors.get? t = some tensor := by
    rintro t (reads | writes)
    next => exact there t reads
    next =>
      obtain ⟨tensor, found, -⟩ := (restoreNode_eq_ok restored).2.2 t writes
      exact ⟨tensor, found⟩
  have older : ∀ t, t ∈ node.allInputs ∨ t ∈ node.allOutputs → t.val < graph.nextTensor := by
    intro t lists
    obtain ⟨tensor, found⟩ := listed t lists
    exact consistent.tensorBelow found
  refine { consistent.toLinked.restoreNode restored older with listed := ?_ }
  obtain ⟨-, rfl, -⟩ := restoreNode_eq_ok restored
  exact (consistent.raiseNext (Nat.le_max_left _ _)).listed_attach listed

theorem Consistent.replaceNode (consistent : graph.Consistent) {old id : NodeId} {spec : NodeSpec} {after : Graph}
    (replaced : graph.replaceNode old spec = .ok (id, after)) : after.Consistent := by
  refine { consistent.toLinked.replaceNode replaced with listed := ?_ }
  obtain ⟨node, found, rfl, rfl⟩ := replaceNode_eq_ok replaced
  cases consistent.nodeKey found
  refine ((consistent.detach found).raiseNext (Nat.le_succ _)).listed_attach ?_
  intro t listed
  obtain ⟨tensor, there⟩ := consistent.listed found listed
  exact ⟨_, (get?_tensors_detach node t).trans (by rw [there]; rfl)⟩

theorem annotate_eq_ok {id : NodeId} {change : Annotations → Annotations} {after : Graph}
    (annotated : graph.annotate id change = .ok after) :
    ∃ node, graph.nodes.get? id = some node ∧
      after = { graph with
        nodes := graph.nodes.insert id { node with annotations := change node.annotations } } := by
  rw [annotate, get] at annotated
  cases found : graph.nodes.get? id with
  | none => rw [found] at annotated; cases annotated
  | some record => rw [found] at annotated; cases annotated; exact ⟨record, rfl, rfl⟩

theorem get?_nodes_annotate {id : NodeId} {change : Annotations → Annotations} {after : Graph}
    (annotated : graph.annotate id change = .ok after) (other : NodeId) :
    after.nodes.get? other = (graph.nodes.get? other).map fun node =>
      if other = id then { node with annotations := change node.annotations } else node := by
  obtain ⟨record, present, rfl⟩ := annotate_eq_ok annotated
  rw [Table.get?_insert_eq]
  by_cases own : other = id
  next => rw [if_pos own, own, present]; simp
  next => rw [if_neg own]; simp [own]

theorem lists_annotate {id : NodeId} {change : Annotations → Annotations} {after : Graph}
    (annotated : graph.annotate id change = .ok after) {other : NodeId} {found : Node} :
    after.nodes.get? other = some found → ∃ before, graph.nodes.get? other = some before ∧
      found.id = before.id ∧ found.allInputs = before.allInputs ∧ found.allOutputs = before.allOutputs := by
  rw [get?_nodes_annotate annotated, Option.map_eq_some_iff]
  rintro ⟨before, there, rfl⟩
  refine ⟨before, there, ?_⟩
  split <;> exact ⟨rfl, rfl, rfl⟩

theorem Linked.annotate (linked : graph.Linked) {id : NodeId} {change : Annotations → Annotations}
    {after : Graph} (annotated : graph.annotate id change = .ok after) : after.Linked := by
  -- What a node lists stays, so each field carries over look-up by look-up.
  have lists {side : Node → List TensorId}
      (blind : ∀ node annotations, side { node with annotations } = side node) (t : TensorId) (other : NodeId) :
      (∃ node, graph.nodes.get? other = some node ∧ t ∈ side node) ↔
        ∃ node, after.nodes.get? other = some node ∧ t ∈ side node := by
    rw [get?_nodes_annotate annotated, lists_map]
    by_cases own : other = id <;> simp [own, blind]
  obtain ⟨record, -, same⟩ := annotate_eq_ok annotated
  have tensors : after.tensors = graph.tensors := by rw [same]
  have nextNode : after.nextNode = graph.nextNode := by rw [same]
  have nextTensor : after.nextTensor = graph.nextTensor := by rw [same]
  constructor
  case producer_iff =>
    intro t tensor found other
    rw [tensors] at found
    exact (linked.producer_iff found other).trans (lists (fun _ _ => rfl) t other)
  case consumer_iff =>
    intro t tensor found other
    rw [tensors] at found
    exact (linked.consumer_iff found other).trans (lists (fun _ _ => rfl) t other)
  case ascending => rw [tensors]; exact linked.ascending
  case nodeKey =>
    intro other found present
    obtain ⟨before, there, key, -⟩ := lists_annotate annotated present
    exact key.trans (linked.nodeKey there)
  case nodeBelow =>
    intro other found present
    obtain ⟨before, there, -⟩ := lists_annotate annotated present
    exact nextNode ▸ linked.nodeBelow there
  case tensorBelow => rw [tensors, nextTensor]; exact linked.tensorBelow
  case listedBelow =>
    intro other found t present listed
    obtain ⟨before, there, -, inputs, outputs⟩ := lists_annotate annotated present
    rw [inputs, outputs] at listed
    exact nextTensor ▸ linked.listedBelow there listed
  case viewBelow => rw [tensors]; exact linked.viewBelow

theorem Consistent.annotate (consistent : graph.Consistent) {id : NodeId} {change : Annotations → Annotations}
    {after : Graph} (annotated : graph.annotate id change = .ok after) : after.Consistent := by
  refine { consistent.toLinked.annotate annotated with listed := ?_ }
  intro other found t present listed
  obtain ⟨before, there, -, inputs, outputs⟩ := lists_annotate annotated present
  rw [inputs, outputs] at listed
  obtain ⟨record, -, rfl⟩ := annotate_eq_ok annotated
  exact consistent.listed there listed

end Dataflow.Graph
