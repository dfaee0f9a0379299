import Dataflow.Plane.Basic

set_option autoImplicit false

namespace Dataflow.Plane

def externalTensors (plane : Plane) (nodes : List PlaneNodeId) : List PlaneTensorId × List PlaneTensorId :=
  let found := nodes.filterMap plane.graph.nodes.get?
  let inputs := (found.flatMap PlaneNode.inputs).filter fun t =>
    !(plane.graph.producerOf.get? t).any (· ∈ nodes)
  let outputs := (found.flatMap PlaneNode.outputs).filter fun t =>
    let consumers := plane.graph.tensorConsumers t
    consumers.isEmpty || consumers.any (· ∉ nodes)
  (Ranked.ascending inputs, Ranked.ascending outputs)

def membersOf (plane : Plane) (id : PlaneNodeId) : Except GraphError (List NodeId) :=
  match plane.graph.nodes.get? id with
  | some node => .ok node.members
  | none => .error (.invalidPlane (.unknownNode id))

def fuse (nodes : List PlaneNodeId) (info : BundleInfo) : PlaneM PlaneNodeId := do
  let nodes := nodes.eraseDups
  let members ← query fun plane => nodes.mapM plane.membersOf
  let (inputs, outputs) := externalTensors (← get) nodes
  modifyGraph fun graph => nodes.foldl PlaneGraph.erase graph
  let id ← pushBundle info inputs outputs members.flatten
  if ← query fun plane => plane.graph.isAcyclic then return id
  throw (.fault .cyclicFusion)

def unbundled (plane : Plane) (node : NodeId) : Except GraphError PlaneNodeId := do
  let found ← plane.planeNode node
  if found.isBundle then throw (.alreadyBundled node)
  plane.representation node

def createBundle (nodes : List NodeId) (info : BundleInfo) : PlaneM PlaneNodeId := do
  if nodes.isEmpty then throw .emptyBundle
  if (← get).bundleOf.contains info.bundleIndex then throw (.bundleExists info.bundleIndex)
  let found ← query fun plane => nodes.mapM plane.unbundled
  fuse found info

def addNewBundle (node : NodeId) (info : BundleInfo) : PlaneM Bool := do
  let id ← query fun plane => plane.representation node
  let found ← query fun plane => plane.planeNode node
  if found.isBundle then return false
  modifyGraph fun graph => graph.modifyNode id fun found =>
    { found with bundle := some info, name := bundleName info }
  modify fun plane => { plane with bundleOf := plane.bundleOf.insert info.bundleIndex id }
  return true

def addToBundle (node : NodeId) (info : BundleInfo) : PlaneM Bool := do
  let plane ← get
  match plane.bundleOf.get? info.bundleIndex with
  | none => addNewBundle node info
  | some bundle =>
    let candidate ← query fun plane => plane.representation node
    if candidate = bundle then return false
    if (plane.graph.nodes.get? candidate).any PlaneNode.isBundle then throw .unsupportedFusion
    discard <| fuse [candidate, bundle] info
    return true

def clearBundle (id : PlaneNodeId) : PlaneM Unit :=
  modifyGraph fun graph => graph.modifyNode id fun node => { node with bundle := none }

def forgetIndex (info : BundleInfo) : PlaneM Unit :=
  modify fun plane => { plane with bundleOf := plane.bundleOf.erase info.bundleIndex }

def removeBundle (graph : Graph) (node : NodeId) : PlaneM Unit := do
  let found ← query fun plane => plane.planeNode node
  match found.bundle with
  | none => throw (.notBundled node)
  | some info =>
    forgetIndex info
    if found.members.length = 1 then clearBundle found.id
    else
      modify fun plane => { plane with
        graph := plane.graph.removeNode found
        nodeOf := found.members.foldl Table.erase plane.nodeOf }
      found.members.forM fun member =>
        match graph.get member with
        | .error error => throw error
        | .ok record => discard <| addSingle graph record

-- The other members are fused anew in one step, so the order in which they were added does not matter.
def unbundle (graph : Graph) (node : NodeId) : PlaneM Unit := do
  let found ← query fun plane => plane.planeNode node
  match found.bundle with
  | none => return
  | some info =>
    if found.members.length = 1 then
      forgetIndex info
      clearBundle found.id
    else
      removeBundle graph node
      discard <| createBundle (found.members.filter (· ≠ node)) info

end Dataflow.Plane
