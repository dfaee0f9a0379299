import Dataflow.Plane.Basic

set_option autoImplicit false

namespace Dataflow

namespace Graph

variable (graph : Graph)

def exposedInputs (node : Node) : List TensorId :=
  node.allInputs.filter fun t =>
    !((graph.producer? t).bind graph.nodes.get?).any fun producer => node.sameBundle producer

def exposedOutputs (node : Node) : List TensorId :=
  node.allOutputs.filter fun t =>
    let consumers := graph.tensorConsumers t
    consumers.isEmpty || consumers.any fun consumer =>
      !(graph.nodes.get? consumer).any fun consumer => consumer.sameBundle node

end Graph

namespace Plane

def validate (plane : Plane) (graph : Graph) : Except GraphError Unit := do
  if !(← plane.graph.isAcyclic) then throw (.invalidPlane .cyclicPlane)
  let indices := Ranked.ascending ((graph.nodes.values.filter plane.accepts).filterMap Node.bundleIndex?)
  let bundles := plane.graph.nodes.values.countP PlaneNode.isBundle
  if bundles ≠ indices.length then throw (.invalidPlane (.bundleCount bundles indices.length))

def addAnnotatedBundle (graph : Graph) (members : List Node) : PlaneM Unit := do
  match members.head?.bind fun node => node.annotations.bundle with
  | none => return
  | some info =>
    let exposed ← members.mapM fun node => do
      let inputs ← (graph.exposedInputs node).mapM (cloneTensor graph)
      let outputs ← (graph.exposedOutputs node).mapM (cloneTensor graph)
      return (inputs, outputs)
    discard <| pushBundle info (Ranked.ascending (exposed.flatMap Prod.fst))
      (Ranked.ascending (exposed.flatMap Prod.snd)) (members.map Node.id)

def buildFromAnnotations (graph : Graph) : PlaneM Unit := do
  match graph.topologicalOrder? .both with
  | none => throw (.invalidPlane .cyclicGraph)
  | some order =>
    let nodes := (order.filterMap graph.nodes.get?).filter (← get).accepts
    (nodes.filter fun node => node.bundleIndex?.isNone).forM fun node =>
      discard <| addSingle graph node
    (Ranked.ascending (nodes.filterMap Node.bundleIndex?)).forM fun index =>
      addAnnotatedBundle graph (nodes.filter fun node => node.bundleIndex? = some index)
    query fun plane => plane.validate graph

def built (build : PlaneM Unit) (start : Plane) : Except GraphError Plane :=
  match build start with
  | .ok _ plane => .ok plane
  | .error error _ => .error error

def ofGraph (graph : Graph) : Except GraphError Plane :=
  built (graph.nodes.values.forM fun node => discard <| addSingle graph node) {}

def ofAnnotations (graph : Graph) (accepts : Node → Bool) : Except GraphError Plane :=
  built (buildFromAnnotations graph) { accepts }

end Plane

end Dataflow
