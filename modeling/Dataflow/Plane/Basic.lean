import Dataflow.Graph.Basic
import Dataflow.Plane.Graph

set_option autoImplicit false

namespace Dataflow

structure Plane where
  graph : PlaneGraph := {}
  tensors : Table PlaneTensorId PlaneTensor := ∅
  nodeOf : Table NodeId PlaneNodeId := ∅
  tensorOf : Table TensorId PlaneTensorId := ∅
  bundleOf : Table UInt32 PlaneNodeId := ∅
  accepts : Node → Bool := fun _ => true
  frozen : Bool := false
  nextNode : Nat := 0
  nextTensor : Nat := 0

-- An operation that fails keeps what it changed before.
abbrev PlaneM := EStateM GraphError Plane

namespace Plane

variable (plane : Plane)

def representation (node : NodeId) : Except GraphError PlaneNodeId :=
  match plane.nodeOf.get? node with
  | some id => .ok id
  | none => .error (.notInPlane node)

def planeNode (node : NodeId) : Except GraphError PlaneNode := do
  let id ← plane.representation node
  match plane.graph.nodes.get? id with
  | some found => return found
  | none => throw (.notInPlane node)

def tensorRepresentation (tensor : TensorId) : Except GraphError PlaneTensorId :=
  match plane.tensorOf.get? tensor with
  | some clone => .ok clone
  | none => .error (.tensorNotFound tensor)

def query {α : Type} (question : Plane → Except GraphError α) : PlaneM α := do
  match question (← get) with
  | .ok answer => return answer
  | .error error => throw error

def modifyGraph (change : PlaneGraph → PlaneGraph) : PlaneM Unit :=
  modify fun plane => { plane with graph := change plane.graph }

def cloneTensor (graph : Graph) (tensor : TensorId) : PlaneM PlaneTensorId := do
  let plane ← get
  match plane.tensorOf.get? tensor with
  | some clone => return clone
  | none =>
    match graph.tensors.get? tensor with
    | none => throw (.tensorNotFound tensor)
    | some found =>
      let id : PlaneTensorId := ⟨plane.nextTensor⟩
      let clone := { id, origin := tensor, name := found.name, sizeBytes := found.sizeBytes }
      set { plane with
        tensors := plane.tensors.insert id clone
        tensorOf := plane.tensorOf.insert tensor id
        nextTensor := plane.nextTensor + 1 }
      return id

def pushNode (record : PlaneNodeId → PlaneNode) : PlaneM PlaneNodeId := do
  let plane ← get
  let id : PlaneNodeId := ⟨plane.nextNode⟩
  let node := record id
  set { plane with
    graph := plane.graph.addNode node
    nodeOf := node.members.foldl (fun nodeOf member => nodeOf.insert member id) plane.nodeOf
    nextNode := plane.nextNode + 1 }
  return id

def addSingle (graph : Graph) (node : Node) : PlaneM PlaneNodeId := do
  if (← get).nodeOf.contains node.id then throw (.alreadyInPlane node.id)
  let inputs ← node.allInputs.mapM (cloneTensor graph)
  let outputs ← node.allOutputs.mapM (cloneTensor graph)
  pushNode fun id =>
    { id, name := node.name, inputs := inputs.eraseDups, outputs, members := [node.id] }

def bundleName (info : BundleInfo) : String := s!"bundle_{info.bundleIndex}"

def pushBundle (info : BundleInfo) (inputs outputs : List PlaneTensorId) (members : List NodeId) :
    PlaneM PlaneNodeId := do
  let id ← pushNode fun id =>
    { id, name := bundleName info, inputs, outputs, members, bundle := some info }
  modify fun plane => { plane with bundleOf := plane.bundleOf.insert info.bundleIndex id }
  return id

end Plane

end Dataflow
