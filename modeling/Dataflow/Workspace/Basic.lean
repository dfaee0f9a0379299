import Dataflow.Graph.Edit
import Dataflow.Plane.Update

set_option autoImplicit false

namespace Dataflow

structure Workspace where
  graph : Graph
  plane : Option Plane := none

-- The graph changes first; if the plane cannot follow, the edit fails and the graph keeps the change.
abbrev EditM := EStateM GraphError Workspace

namespace Workspace

def onGraph {α : Type} (edit : Graph → Except GraphError (α × Graph)) : EditM α := do
  match edit (← get).graph with
  | .error error => throw error
  | .ok (answer, graph) =>
    modify fun workspace => { workspace with graph }
    return answer

def onPlane (update : Graph → PlaneM Unit) : EditM Unit := do
  let workspace ← get
  match workspace.plane with
  | none => return
  | some plane =>
    match update workspace.graph plane with
    | .ok _ plane => set { workspace with plane := some plane }
    | .error error plane =>
      set { workspace with plane := some plane }
      throw error

def addNode (spec : NodeSpec) (inputs outputs : List TensorId) : EditM NodeId := do
  let id ← onGraph fun graph => graph.addNode spec inputs outputs
  onPlane fun graph => Plane.addNode graph id
  return id

def removeNode (id : NodeId) : EditM Node := do
  let node ← onGraph fun graph => graph.removeNode id
  onPlane fun graph => Plane.removeNode graph node none
  return node

def restoreNode (node : Node) : EditM Unit := do
  onGraph fun graph => do return ((), ← graph.restoreNode node)
  onPlane fun graph => Plane.addNode graph node.id

def replaceNode (old : NodeId) (spec : NodeSpec) : EditM NodeId := do
  let new ← onGraph fun graph => graph.replaceNode old spec
  onPlane fun _ => Plane.replaceNode old new
  return new

def addControlEdge (blocking blocked : NodeId) (type : ControlType) : EditM TensorId := do
  let tensor ← onGraph fun graph => graph.addControlEdge blocking blocked type
  onPlane fun graph => Plane.addRelationship graph tensor blocking blocked
  return tensor

def removeControlEdge (tensor : TensorId) : EditM Unit := do
  let graph := (← get).graph
  let producer := graph.producer? tensor
  let consumers := graph.tensorConsumers tensor
  onGraph fun graph => do return ((), ← graph.removeControlEdge tensor)
  onPlane fun _ => do
    match producer with
    | none => pure ()
    | some producer => Plane.removeRelationship tensor producer .output
    consumers.forM fun consumer => Plane.removeRelationship tensor consumer .input

end Workspace

end Dataflow
