import Dataflow.Graph.Basic

set_option autoImplicit false

namespace Dataflow.Graph

variable (graph : Graph)

def pushTensor (record : TensorId → Tensor) : TensorId × Graph :=
  let id : TensorId := ⟨graph.nextTensor⟩
  (id, { graph with
    tensors := graph.tensors.insert id (record id), nextTensor := graph.nextTensor + 1 })

def addTensor (name : String) (sizeBytes : Nat) : TensorId × Graph :=
  graph.pushTensor fun id => { id, name, sizeBytes }

def addAlias (name : String) (sizeBytes : Nat) (real : TensorId) (offset : Nat) :
    Except GraphError (TensorId × Graph) :=
  if graph.tensors.contains real then
    .ok (graph.pushTensor fun id => { id, name, sizeBytes, view := some { real, offset } })
  else .error (.tensorNotFound real)

def attach (node : Node) : Graph :=
  let consumed := node.allInputs.foldl (fun tensors t => tensors.modify t fun tensor =>
    { tensor with consumers := Ranked.insert node.id tensor.consumers }) graph.tensors
  let produced := node.allOutputs.foldl (fun tensors t => tensors.modify t fun tensor =>
    { tensor with producer := some node.id }) consumed
  { graph with nodes := graph.nodes.insert node.id node, tensors := produced }

def detach (node : Node) : Graph :=
  let freed := node.allInputs.foldl (fun tensors t => tensors.modify t fun tensor =>
    { tensor with consumers := tensor.consumers.filter (· ≠ node.id) }) graph.tensors
  let unproduced := node.allOutputs.foldl (fun tensors t => tensors.modify t fun tensor =>
    { tensor with producer := if tensor.producer = some node.id then none else tensor.producer }) freed
  { graph with nodes := graph.nodes.erase node.id, tensors := unproduced }

def outputRefusal? (tensor : TensorId) : Option GraphError :=
  match graph.tensors.get? tensor with
  | none => some (.tensorNotFound tensor)
  | some found => found.producer.map fun producer => .duplicateProducer tensor producer

def addNode (spec : NodeSpec) (inputs outputs : List TensorId) : Except GraphError (NodeId × Graph) :=
  match (inputs ++ outputs).find? fun t => !graph.tensors.contains t with
  | some missing => .error (.tensorNotFound missing)
  | none =>
    match outputs.findSome? graph.outputRefusal? with
    | some refusal => .error refusal
    | none =>
      let id : NodeId := ⟨graph.nextNode⟩
      .ok (id, { graph with nextNode := graph.nextNode + 1 }.attach (spec.node id inputs outputs [] []))

def addControlEdge (blocking blocked : NodeId) (type : ControlType) :
    Except GraphError (TensorId × Graph) :=
  if blocking = blocked then .error (.selfEdge blocking)
  else if !graph.contains blocking then .error (.nodeNotFound blocking)
  else if !graph.contains blocked then .error (.nodeNotFound blocked)
  else if graph.reaches blocked blocking then .error (.cycleDetected blocking blocked)
  else
    let (id, extended) := graph.pushTensor fun id =>
      { id, name := s!"ctrl_{blocking}_{blocked}", sizeBytes := 0, producer := some blocking
        consumers := [blocked], control := some type }
    let outgoing := extended.nodes.modify blocking fun node =>
      { node with controlOutputs := node.controlOutputs ++ [id] }
    let nodes := outgoing.modify blocked fun node =>
      { node with controlInputs := node.controlInputs ++ [id] }
    .ok (id, { extended with nodes })

def removeNode (id : NodeId) : Except GraphError (Node × Graph) := do
  let node ← graph.get id
  return (node, graph.detach node)

def restoreNode (node : Node) : Except GraphError Graph :=
  if graph.contains node.id then .error (.duplicateNode node.id)
  else
    match node.allOutputs.findSome? graph.outputRefusal? with
    | some refusal => .error refusal
    | none => .ok ({ graph with nextNode := max graph.nextNode (node.id.val + 1) }.attach node)

def replaceNode (old : NodeId) (spec : NodeSpec) : Except GraphError (NodeId × Graph) := do
  let (node, rest) ← graph.removeNode old
  let id : NodeId := ⟨rest.nextNode⟩
  return (id, { rest with nextNode := rest.nextNode + 1 }.attach
    (spec.node id node.inputs node.outputs node.controlInputs node.controlOutputs))

def removeControlEdge (id : TensorId) : Except GraphError Graph :=
  match graph.tensors.get? id with
  | none => .error (.tensorNotFound id)
  | some tensor =>
    if tensor.isControl then
      let atProducer := match tensor.producer with
        | none => graph.nodes
        | some producer => graph.nodes.modify producer fun node =>
          { node with controlOutputs := node.controlOutputs.filter (· ≠ id) }
      let nodes := tensor.consumers.foldl (fun nodes consumer => nodes.modify consumer fun node =>
        { node with controlInputs := node.controlInputs.filter (· ≠ id) }) atProducer
      .ok { graph with nodes, tensors := graph.tensors.erase id }
    else .error (.notControlEdge id)

def annotate (id : NodeId) (change : Annotations → Annotations) : Except GraphError Graph := do
  let node ← graph.get id
  return { graph with
    nodes := graph.nodes.insert id { node with annotations := change node.annotations } }

def setBundle (id : NodeId) (bundle : Option BundleInfo) : Except GraphError Graph :=
  graph.annotate id fun annotations => { annotations with bundle }

def setBarriers (id : NodeId) (barriers : List NodeId) : Except GraphError Graph :=
  graph.annotate id fun annotations => { annotations with barriers }

end Dataflow.Graph
