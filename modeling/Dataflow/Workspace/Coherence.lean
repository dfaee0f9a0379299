import Dataflow.Graph.Basic
import Dataflow.Workspace.Basic

set_option autoImplicit false

namespace Dataflow

structure MemoryAccess where
  node : NodeId
  tensor : TensorId
  real : TensorId
  offset : Nat
  size : Nat
  writes : Bool
  deriving DecidableEq

namespace MemoryAccess

-- An end may overflow, so it is computed only where the tests before it leave the answer open.
def overlaps (first second : MemoryAccess) : Except Fault Bool := do
  if first.size = 0 || second.size = 0 then return false
  if (← Word.checkedAdd second.offset second.size) ≤ first.offset then return false
  return second.offset < (← Word.checkedAdd first.offset first.size)

def conflicts (first second : MemoryAccess) : Except Fault Bool :=
  if first.real ≠ second.real || first.node = second.node || first.tensor = second.tensor then
    .ok false
  else if !first.writes && !second.writes then .ok false
  else first.overlaps second

end MemoryAccess

namespace Graph

variable (graph : Graph)

def access? (node : NodeId) (writes : Bool) (tensor : TensorId) : Except Fault (Option MemoryAccess) :=
  match graph.tensors.get? tensor with
  | none => .ok none
  | some found => do
    let offset ← graph.realOffset tensor
    return some
      { node, tensor, real := graph.realTensor tensor, offset, size := found.sizeBytes, writes }

def accesses (node : Node) : Except Fault (List MemoryAccess) := do
  let reads ← node.inputs.mapM (graph.access? node.id false)
  let writes ← node.outputs.mapM (graph.access? node.id true)
  return (reads ++ writes).filterMap id

end Graph

def conflictingPairs : List MemoryAccess → Except Fault (List (NodeId × NodeId))
  | [] => .ok []
  | first :: rest => do
    let conflicting ← rest.filterM first.conflicts
    return conflicting.map (fun second => (first.node, second.node)) ++ (← conflictingPairs rest)

def Graph.conflicts (graph : Graph) : Except Fault (List (NodeId × NodeId)) := do
  let accesses ← graph.nodes.values.mapM graph.accesses
  let pairs ← conflictingPairs accesses.flatten
  return graph.nodeIds.flatMap fun node =>
    (Ranked.ascending ((pairs.filter fun pair => pair.1 = node).map Prod.snd)).map fun other => (node, other)

namespace Workspace

def orderPair (added : Nat) (pair : NodeId × NodeId) : EditM Nat := do
  let graph := (← get).graph
  if graph.reaches pair.1 pair.2 || graph.reaches pair.2 pair.1 then return added
  discard <| addControlEdge pair.1 pair.2 .memory
  return added + 1

def registerCoherence : EditM Nat := do
  match (← get).graph.conflicts with
  | .error fault => throw (.fault fault)
  | .ok pairs => pairs.foldlM orderPair 0

end Workspace

end Dataflow
