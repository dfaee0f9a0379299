import Dataflow.Plane.Bundling

set_option autoImplicit false

namespace Dataflow

inductive Usage where
  | input
  | output
  deriving DecidableEq

namespace Plane

def unlessFrozen (update : PlaneM Unit) : PlaneM Unit := do
  if (← get).frozen then return
  update

def addNode (graph : Graph) (node : NodeId) : PlaneM Unit := unlessFrozen do
  match graph.get node with
  | .error error => throw error
  | .ok record =>
    discard <| addSingle graph record
    match record.annotations.bundle with
    | none => return
    | some info => discard <| addToBundle node info

-- The exposed outputs of the member go as well, unless they move to a new producer.
def withoutMember (graph : Graph) (plane : Plane) (bundle : PlaneNode) (node : Node)
    (newProducer : Option PlaneNodeId) : PlaneGraph :=
  let others := (bundle.members.filter (· ≠ node.id)).filterMap graph.nodes.get?
  let dropInput (current : PlaneGraph) (t : TensorId) : PlaneGraph :=
    match plane.tensorOf.get? t with
    | none => current
    | some clone =>
      if others.any fun other => t ∈ other.allInputs then current else current.removeInput bundle.id clone
  let dropOutput (current : PlaneGraph) (t : TensorId) : PlaneGraph :=
    match plane.tensorOf.get? t with
    | none => current
    | some clone =>
      let exposed := (current.nodes.get? bundle.id).any fun found => clone ∈ found.outputs
      if exposed && !others.any fun other => t ∈ other.allOutputs then
        let dropped := current.removeOutput bundle.id clone
        match newProducer with
        | none => dropped
        | some producer => dropped.addOutput producer clone
      else current
  let consumed := node.allInputs.foldl dropInput plane.graph
  let produced := node.allOutputs.foldl dropOutput consumed
  produced.modifyNode bundle.id fun found =>
    { found with members := found.members.filter (· ≠ node.id) }

def removeNode (graph : Graph) (node : Node) (newProducer : Option NodeId) : PlaneM Unit :=
  unlessFrozen do
    let producer ← query fun plane => newProducer.mapM plane.representation
    let found ← query fun plane => plane.planeNode node.id
    if found.isBundle && found.members.length ≠ 1 then
      modify fun plane => { plane with graph := plane.withoutMember graph found node producer }
    else
      match found.bundle with
      | none => pure ()
      | some info => forgetIndex info
      modifyGraph fun graph =>
        let rest := graph.removeNode found
        match producer with
        | none => rest
        | some producer => found.outputs.foldl (fun graph t => graph.addOutput producer t) rest
    modify fun plane => { plane with nodeOf := plane.nodeOf.erase node.id }

def replaceNode (old new : NodeId) : PlaneM Unit := unlessFrozen do
  let id ← query fun plane => plane.representation old
  if (← get).nodeOf.contains new then throw (.alreadyInPlane new)
  modify fun plane => { plane with
    graph := plane.graph.modifyNode id fun node =>
      { node with members := node.members.map fun member => if member = old then new else member }
    nodeOf := (plane.nodeOf.erase old).insert new id }

-- Inside one plane node the tensor stays invisible.
def addRelationship (graph : Graph) (tensor : TensorId) (producer consumer : NodeId) : PlaneM Unit :=
  unlessFrozen do
    let blocking ← query fun plane => plane.representation producer
    let blocked ← query fun plane => plane.representation consumer
    if blocking = blocked then return
    let clone ← cloneTensor graph tensor
    modifyGraph fun graph => (graph.addOutput blocking clone).addInput blocked clone

def removeRelationship (tensor : TensorId) (node : NodeId) (usage : Usage) : PlaneM Unit :=
  unlessFrozen do
    let id ← query fun plane => plane.representation node
    match (← get).tensorOf.get? tensor with
    | none => return
    | some clone =>
      match usage with
      | .input => modifyGraph fun graph => graph.removeInput id clone
      | .output => modifyGraph fun graph => graph.removeOutput id clone

def freeze : PlaneM Unit := do
  if (← get).frozen then throw .planeFrozen
  modify fun plane => { plane with frozen := true }

def unfreeze : PlaneM Unit := do
  if !(← get).frozen then throw .planeNotFrozen
  modify fun plane => { plane with frozen := false }

-- The counters go on from where they are.
def discarded (plane : Plane) : Plane :=
  { accepts := plane.accepts, nextNode := plane.nextNode, nextTensor := plane.nextTensor }

end Plane

end Dataflow
