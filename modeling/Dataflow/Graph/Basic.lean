import Dataflow.Node
import Dataflow.Tensor
import Dataflow.Topology

set_option autoImplicit false

namespace Dataflow

structure Graph where
  nodes : Table NodeId Node := ∅
  tensors : Table TensorId Tensor := ∅
  nextNode : Nat := 0
  nextTensor : Nat := 0

namespace Graph

variable (graph : Graph)

instance : Inhabited Graph := ⟨{}⟩

def nodeIds : List NodeId := graph.nodes.keys

def size : Nat := graph.nodes.size

def contains (node : NodeId) : Bool := graph.nodes.contains node

def get (node : NodeId) : Except GraphError Node :=
  match graph.nodes.get? node with
  | some found => .ok found
  | none => .error (.nodeNotFound node)

def producer? (tensor : TensorId) : Option NodeId :=
  (graph.tensors.get? tensor).bind Tensor.producer

def tensorConsumers (tensor : TensorId) : List NodeId :=
  match graph.tensors.get? tensor with
  | some found => found.consumers
  | none => []

def accepted (filter : EdgeFilter) (tensors : List TensorId) : List Tensor :=
  (tensors.filterMap graph.tensors.get?).filter filter.accepts

def producers (node : NodeId) (filter : EdgeFilter) : List NodeId :=
  match graph.nodes.get? node with
  | none => []
  | some found =>
    Ranked.ascending <| ((graph.accepted filter found.allInputs).filterMap Tensor.producer).filter (· ≠ node)

def consumers (node : NodeId) (filter : EdgeFilter) : List NodeId :=
  match graph.nodes.get? node with
  | none => []
  | some found =>
    Ranked.ascending <| ((graph.accepted filter found.allOutputs).flatMap Tensor.consumers).filter (· ≠ node)

def inDegree (node : NodeId) (filter : EdgeFilter) : Nat := (graph.producers node filter).length

def outDegree (node : NodeId) (filter : EdgeFilter) : Nat := (graph.consumers node filter).length

def roots (filter : EdgeFilter) : List NodeId :=
  graph.nodeIds.filter fun node => graph.inDegree node filter = 0

def barriers (node : Node) : List NodeId :=
  node.annotations.barriers.filter fun barrier => barrier ≠ node.id && graph.contains barrier

def view? (tensor : TensorId) : Option Alias := (graph.tensors.get? tensor).bind Tensor.view

def realWithin : Nat → TensorId → TensorId
  | 0, tensor => tensor
  | links + 1, tensor =>
    match graph.view? tensor with
    | some view => realWithin links view.real
    | none => tensor

def offsetWithin : Nat → TensorId → Nat → Except Fault Nat
  | 0, _, offset => .ok offset
  | links + 1, tensor, offset =>
    match graph.view? tensor with
    | some view => do offsetWithin links view.real (← Word.checkedAdd offset view.offset)
    | none => .ok offset

-- A chain of aliases has at most as many links as the graph has tensors.
def realTensor (tensor : TensorId) : TensorId := graph.realWithin graph.tensors.size tensor

def realOffset (tensor : TensorId) : Except Fault Nat :=
  graph.offsetWithin graph.tensors.size tensor 0

def inDegrees (filter : EdgeFilter) : Table NodeId Nat :=
  .ofList (graph.nodeIds.map fun node => (node, graph.inDegree node filter))

def kahn (filter : EdgeFilter) : Except Fault (Option (List NodeId)) :=
  Kahn.order? (graph.inDegrees filter) fun node => graph.consumers node filter

def topologicalOrder? (filter : EdgeFilter) : Option (List NodeId) :=
  match graph.kahn filter with
  | .ok order => order
  | .error _ => none

def isAcyclic : Bool := (graph.topologicalOrder? .both).isSome

def barrierConsumers (node : NodeId) : List NodeId :=
  (graph.nodes.values.filter fun other => node ∈ other.annotations.barriers).map Node.id

-- Orders and path counts follow tensors alone; reachability follows barriers as well.
def successors (node : NodeId) : List NodeId :=
  graph.consumers node .both ++ graph.barrierConsumers node

def reaches (source target : NodeId) : Bool :=
  Reach.reaches graph.successors (graph.size + 1) source target

def pathCount (source target : NodeId) : Nat :=
  PathCount.count (graph.topologicalOrder? .both) (fun node => graph.consumers node .both) source target

end Graph

structure GraphStats where
  nodeCount : Nat
  tensorCount : Nat
  controlEdgeCount : Nat
  nodesByKind : List (NodeKind × Nat)
  bundles : Nat
  deriving DecidableEq

def Graph.stats (graph : Graph) : GraphStats :=
  let nodes := graph.nodes.values
  { nodeCount := graph.size
    tensorCount := graph.tensors.size
    controlEdgeCount := graph.tensors.values.countP Tensor.isControl
    nodesByKind := NodeKind.all.filterMap fun kind =>
      match nodes.countP fun node => node.kind = kind with
      | 0 => none
      | count + 1 => some (kind, count + 1)
    bundles := (Ranked.ascending (nodes.filterMap Node.bundleIndex?)).length }

end Dataflow
