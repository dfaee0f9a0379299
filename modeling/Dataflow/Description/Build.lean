import Dataflow.Node
import Dataflow.Tensor
import Dataflow.Graph.Edit

set_option autoImplicit false

namespace Dataflow

structure TensorDescription where
  name : String
  sizeBytes : UInt64 := 0
  aliasOf : Option String := none
  offset : UInt64 := 0
  deriving DecidableEq, Inhabited

structure NodeDescription where
  name : String
  kind : NodeKind := .compute
  engine : Engine := .none
  debug : Bool := false
  parentId : Option UInt64 := none
  inputs : List String := []
  outputs : List String := []
  bundle : Option BundleInfo := none
  barriers : List String := []
  rangeIndex : Option UInt32 := none
  flashAttention : Bool := false
  deriving DecidableEq, Inhabited

structure ControlEdgeDescription where
  source : String
  target : String
  type : ControlType := .schedule
  deriving DecidableEq, Inhabited

structure GraphDescription where
  tensors : List TensorDescription := []
  nodes : List NodeDescription
  controlEdges : List ControlEdgeDescription := []
  deriving DecidableEq, Inhabited

abbrev Directory (entity : Entity) := List (String × Ident entity)

def Directory.find? {entity : Entity} (directory : Directory entity) (name : String) :
    Option (Ident entity) :=
  List.lookup name directory

namespace GraphDescription

def tensorNamed (tensors : Directory .tensor) (name : String) : Except GraphError TensorId :=
  match tensors.find? name with
  | some tensor => .ok tensor
  | none => .error (.invalidDescription (.unknownTensor name))

def nodeNamed (nodes : Directory .node) (name : String) : Except GraphError NodeId :=
  match nodes.find? name with
  | some node => .ok node
  | none => .error (.invalidDescription (.unknownNode name))

def addTensor (state : Graph × Directory .tensor) (tensor : TensorDescription) :
    Except GraphError (Graph × Directory .tensor) := do
  let (graph, tensors) := state
  if (tensors.find? tensor.name).isSome then
    throw (.invalidDescription (.repeatedTensor tensor.name))
  let (id, graph) ← match tensor.aliasOf with
    | none => pure (graph.addTensor tensor.name tensor.sizeBytes.toNat)
    | some real =>
      match tensors.find? real with
      | none => throw (.invalidDescription (.unknownAlias tensor.name real))
      | some real => graph.addAlias tensor.name tensor.sizeBytes.toNat real tensor.offset.toNat
  return (graph, (tensor.name, id) :: tensors)

-- Without its barriers, which may name nodes that are listed later.
def nodeSpec (node : NodeDescription) : NodeSpec :=
  { name := node.name
    parentId := node.parentId.map UInt64.toNat
    kind := node.kind
    engine := node.engine
    debug := node.debug
    annotations :=
      { bundle := node.bundle, rangeIndex := node.rangeIndex, flashAttention := node.flashAttention } }

def addNode (tensors : Directory .tensor) (state : Graph × Directory .node) (node : NodeDescription) :
    Except GraphError (Graph × Directory .node) := do
  let (graph, nodes) := state
  if (nodes.find? node.name).isSome then
    throw (.invalidDescription (.repeatedNode node.name))
  let inputs ← node.inputs.mapM (tensorNamed tensors)
  let outputs ← node.outputs.mapM (tensorNamed tensors)
  let (id, graph) ← graph.addNode (nodeSpec node) inputs outputs
  return (graph, (node.name, id) :: nodes)

def addBarriers (nodes : Directory .node) (graph : Graph) (node : NodeDescription) :
    Except GraphError Graph := do
  if node.barriers.isEmpty then return graph
  let id ← nodeNamed nodes node.name
  let barriers ← node.barriers.mapM (nodeNamed nodes)
  graph.setBarriers id barriers

def addControlEdge (nodes : Directory .node) (graph : Graph) (edge : ControlEdgeDescription) :
    Except GraphError Graph := do
  let source ← nodeNamed nodes edge.source
  let target ← nodeNamed nodes edge.target
  let (_, graph) ← graph.addControlEdge source target edge.type
  return graph

def build (description : GraphDescription) : Except GraphError Graph := do
  let (graph, tensors) ← description.tensors.foldlM addTensor ({}, [])
  let (graph, nodes) ← description.nodes.foldlM (addNode tensors) (graph, [])
  let graph ← description.nodes.foldlM (addBarriers nodes) graph
  description.controlEdges.foldlM (addControlEdge nodes) graph

end GraphDescription

end Dataflow
