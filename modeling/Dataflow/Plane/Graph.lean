import Dataflow.Node
import Dataflow.Error
import Dataflow.Topology

set_option autoImplicit false

namespace Dataflow

structure PlaneTensor where
  id : PlaneTensorId
  origin : TensorId
  name : String
  sizeBytes : Nat
  deriving DecidableEq, Inhabited

structure PlaneNode where
  id : PlaneNodeId
  name : String
  inputs : List PlaneTensorId
  outputs : List PlaneTensorId
  members : List NodeId
  bundle : Option BundleInfo := none
  deriving DecidableEq, Inhabited

def PlaneNode.isBundle (node : PlaneNode) : Bool := node.bundle.isSome

def PlaneNode.bundleIndex? (node : PlaneNode) : Option UInt32 := node.bundle.map BundleInfo.bundleIndex

structure PlaneGraph where
  nodes : Table PlaneNodeId PlaneNode := ∅
  producerOf : Table PlaneTensorId PlaneNodeId := ∅
  consumersOf : Table PlaneTensorId (List PlaneNodeId) := ∅

namespace PlaneGraph

variable (graph : PlaneGraph)

def tensorConsumers (tensor : PlaneTensorId) : List PlaneNodeId :=
  (graph.consumersOf.get? tensor).getD []

def addConsumer (tensor : PlaneTensorId) (node : PlaneNodeId) : PlaneGraph :=
  { graph with
    consumersOf := graph.consumersOf.insert tensor (Ranked.insert node (graph.tensorConsumers tensor)) }

def dropConsumer (tensor : PlaneTensorId) (node : PlaneNodeId) : PlaneGraph :=
  match graph.consumersOf.get? tensor with
  | none => graph
  | some consumers =>
    match consumers.filter (· ≠ node) with
    | [] => { graph with consumersOf := graph.consumersOf.erase tensor }
    | rest => { graph with consumersOf := graph.consumersOf.insert tensor rest }

def addProducer (tensor : PlaneTensorId) (node : PlaneNodeId) : PlaneGraph :=
  { graph with producerOf := graph.producerOf.insert tensor node }

def dropProducer (tensor : PlaneTensorId) (node : PlaneNodeId) : PlaneGraph :=
  if graph.producerOf.get? tensor = some node then
    { graph with producerOf := graph.producerOf.erase tensor }
  else graph

def modifyNode (node : PlaneNodeId) (change : PlaneNode → PlaneNode) : PlaneGraph :=
  { graph with nodes := graph.nodes.modify node change }

def addNode (node : PlaneNode) : PlaneGraph :=
  let consumed := node.inputs.foldl (fun graph t => graph.addConsumer t node.id) graph
  let produced := node.outputs.foldl (fun graph t => graph.addProducer t node.id) consumed
  { produced with nodes := produced.nodes.insert node.id node }

def removeNode (node : PlaneNode) : PlaneGraph :=
  let unconsumed := node.inputs.foldl (fun graph t => graph.dropConsumer t node.id) graph
  let unproduced := node.outputs.foldl (fun graph t => graph.dropProducer t node.id) unconsumed
  { unproduced with nodes := unproduced.nodes.erase node.id }

def erase (id : PlaneNodeId) : PlaneGraph :=
  match graph.nodes.get? id with
  | none => graph
  | some node => graph.removeNode node

def addInput (id : PlaneNodeId) (tensor : PlaneTensorId) : PlaneGraph :=
  match graph.nodes.get? id with
  | none => graph
  | some node =>
    if tensor ∈ node.inputs then graph
    else (graph.modifyNode id fun node => { node with inputs := node.inputs ++ [tensor] }).addConsumer
      tensor id

def addOutput (id : PlaneNodeId) (tensor : PlaneTensorId) : PlaneGraph :=
  match graph.nodes.get? id with
  | none => graph
  | some node =>
    if tensor ∈ node.outputs then graph
    else (graph.modifyNode id fun node => { node with outputs := node.outputs ++ [tensor] }).addProducer
      tensor id

def removeInput (id : PlaneNodeId) (tensor : PlaneTensorId) : PlaneGraph :=
  (graph.modifyNode id fun node => { node with inputs := node.inputs.filter (· ≠ tensor) }).dropConsumer
    tensor id

def removeOutput (id : PlaneNodeId) (tensor : PlaneTensorId) : PlaneGraph :=
  (graph.modifyNode id fun node => { node with outputs := node.outputs.filter (· ≠ tensor) }).dropProducer
    tensor id

def tensors : List PlaneTensorId :=
  Ranked.ascending (graph.nodes.values.flatMap fun node => node.inputs ++ node.outputs)

def consumers (id : PlaneNodeId) : List PlaneNodeId :=
  match graph.nodes.get? id with
  | none => []
  | some node => Ranked.ascending <| (node.outputs.flatMap graph.tensorConsumers).filter (· ≠ id)

def producers (id : PlaneNodeId) : List PlaneNodeId :=
  match graph.nodes.get? id with
  | none => []
  | some node => Ranked.ascending <| (node.inputs.filterMap graph.producerOf.get?).filter (· ≠ id)

-- Indexes that contradict the nodes' lists can make an in-degree drop below zero.
def topologicalOrder? : Except Fault (Option (List PlaneNodeId)) :=
  Kahn.order? (.ofList (graph.nodes.keys.map fun id => (id, (graph.producers id).length)))
    graph.consumers

def isAcyclic : Except Fault Bool := do return (← graph.topologicalOrder?).isSome

def pathCount (source target : PlaneNodeId) : Except Fault Nat :=
  if source = target then .ok 1
  else do return PathCount.count (← graph.topologicalOrder?) graph.consumers source target

end PlaneGraph

end Dataflow
