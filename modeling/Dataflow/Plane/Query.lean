import Dataflow.Plane.Basic

set_option autoImplicit false

namespace Dataflow.Plane

variable (plane : Plane)

def pathCount (source target : NodeId) : Except GraphError Nat := do
  let source ← plane.representation source
  let target ← plane.representation target
  plane.graph.pathCount source target

def reaches (source target : NodeId) : Except GraphError Bool := do
  return 0 < (← plane.pathCount source target)

def validateCandidate (candidate : NodeId) (accepted : List NodeId) : Except GraphError Bool := do
  let candidate ← plane.representation candidate
  go candidate accepted
where
  go (candidate : PlaneNodeId) : List NodeId → Except GraphError Bool
    | [] => .ok true
    | node :: rest => do
      let other ← plane.representation node
      if other = candidate then go candidate rest
      else if 1 < (← plane.graph.pathCount candidate other) then return false
      else if 0 < (← plane.graph.pathCount other candidate) then return false
      else go candidate rest

def lastPosition (order : List NodeId) (node : NodeId) : Nat :=
  match order.reverse.findIdx? (· = node) with
  | some index => order.length - 1 - index
  | none => order.length

def placeByPosition (order : List NodeId) (node : NodeId) : List NodeId → List NodeId
  | [] => [node]
  | other :: rest =>
    if lastPosition order node ≤ lastPosition order other then node :: other :: rest
    else other :: placeByPosition order node rest

def expandNode (executed : List NodeId) (id : PlaneNodeId) : Except GraphError (List NodeId) :=
  match plane.graph.nodes.get? id with
  | none => .error (.invalidPlane (.unknownNode id))
  | some node =>
    if !node.isBundle && node.members.length ≠ 1 then
      .error (.invalidPlane (.notBundle node.name node.members.length))
    else .ok (node.members.foldr (placeByPosition executed) [])

def expand (schedule : List PlaneNodeId) (executed : List NodeId) : Except GraphError (List NodeId) := do
  return (← schedule.mapM (plane.expandNode executed)).flatten

def tensorName (tensor : PlaneTensorId) : String :=
  match plane.tensors.get? tensor with
  | some found => found.name
  | none => "?"

def trace : List String :=
  plane.graph.nodes.values.flatMap fun node =>
    s!"Node: {node.name} ({node.id})" ::
      node.inputs.mapIdx (fun index t => s!"IN[{index}]:  " ++ plane.tensorName t) ++
      node.outputs.mapIdx (fun index t => s!"OUT[{index}]: " ++ plane.tensorName t)

def summary : String :=
  let counts := s!"nodes: {plane.graph.nodes.size}, tensors: {plane.tensors.size}, "
  let rest := s!"bundles: {plane.bundleOf.size}, frozen: {plane.frozen}, .. "
  "BundlePlane \x7b " ++ counts ++ rest ++ "\x7d"

end Dataflow.Plane
