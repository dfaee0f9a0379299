import Dataflow.Frontier.Basic

set_option autoImplicit false

namespace Dataflow

-- A node is ordered by its reads or by its writes, never by both.
inductive OffsetRole where
  | reads
  | writes
  deriving DecidableEq

def OffsetRole.title : OffsetRole → String
  | .reads => "Reads"
  | .writes => "Writes"

-- The edges stand beside the graph and last while both of their nodes are free.
structure OffsetEdges where
  blockersOf : Table NodeId (List NodeId) := ∅
  dependentsOf : Table NodeId (List NodeId) := ∅
  roles : Table NodeId OffsetRole := ∅
  added : Nat := 0

namespace OffsetEdges

variable (state : OffsetEdges)

def blockers (node : NodeId) : List NodeId := (state.blockersOf.get? node).getD []

def dependents (node : NodeId) : List NodeId := (state.dependentsOf.get? node).getD []

def isBlocked (node : NodeId) : Bool := !(state.blockers node).isEmpty

def canTake (node : NodeId) (role : OffsetRole) : Bool :=
  match state.roles.get? node with
  | none => true
  | some taken => taken = role

def edgeCount : Nat := state.dependentsOf.values.flatten.length

def reaches (source target : NodeId) : Bool :=
  Reach.reaches state.dependents (state.edgeCount + 1) source target

def addEdge (blocking blocked : NodeId) (role : OffsetRole) : OffsetEdges :=
  if state.reaches blocked blocking || blocked ∈ state.dependents blocking then state
  else
    { blockersOf := state.blockersOf.insert blocked (Ranked.insert blocking (state.blockers blocked))
      dependentsOf := state.dependentsOf.insert blocking (Ranked.insert blocked (state.dependents blocking))
      roles := (state.roles.insert blocking role).insert blocked role
      added := state.added + 1 }

def dropFrom (nodes : List NodeId) (node : NodeId) (lists : Table NodeId (List NodeId)) :
    Table NodeId (List NodeId) :=
  nodes.foldl (fun lists other => lists.modify other (List.filter (· ≠ node))) lists

def erase (node : NodeId) : OffsetEdges :=
  let released := dropFrom (state.dependents node) node state.blockersOf
  let waitedFor := (released.get? node).getD []
  { state with
    blockersOf := released.erase node
    dependentsOf := dropFrom waitedFor node (state.dependentsOf.erase node)
    roles := state.roles.erase node }

end OffsetEdges

def Graph.differingOffset? (graph : Graph) (real : TensorId) (offset : Nat) :
    List TensorId → Except Fault (Option Nat)
  | [] => .ok none
  | tensor :: rest =>
    if graph.realTensor tensor = real then do
      let other ← graph.realOffset tensor
      if offset ≠ other then return some other
      graph.differingOffset? real offset rest
    else graph.differingOffset? real offset rest

def Graph.sharedOffsets? (graph : Graph) (second : List TensorId) :
    List TensorId → Except Fault (Option (Nat × Nat))
  | [] => .ok none
  | tensor :: rest => do
    let offset ← graph.realOffset tensor
    match ← graph.differingOffset? (graph.realTensor tensor) offset second with
    | some other => return some (offset, other)
    | none => graph.sharedOffsets? second rest

def Graph.offsetRole? (graph : Graph) (new existing : Node) :
    Except Fault (Option (OffsetRole × Nat × Nat)) := do
  match ← graph.sharedOffsets? existing.outputs new.outputs with
  | some offsets => return some (.writes, offsets)
  | none =>
    match ← graph.sharedOffsets? existing.inputs new.inputs with
    | some offsets => return some (.reads, offsets)
    | none => return none

def Graph.logical? (graph : Graph) (node : NodeId) : Option Node :=
  (graph.nodes.get? node).filter Node.isLogical

def OffsetEdges.compareWith (graph : Graph) (node : NodeId) (new : Node) (state : OffsetEdges) (other : NodeId) :
    Except Fault OffsetEdges := do
  match graph.logical? other with
  | none => return state
  | some existing =>
    match ← graph.offsetRole? new existing with
    | none => return state
    | some (role, newOffset, otherOffset) =>
      if state.canTake node role && state.canTake other role then
        if newOffset < otherOffset then return state.addEdge node other role
        else return state.addEdge other node role
      else return state

structure OffsetFrontier {K : Type} [Ord K] (key : NodeId → K) where
  frontier : Frontier key := {}
  order : OffsetEdges := {}

namespace OffsetFrontier

variable {K : Type} [Ord K] {key : NodeId → K} (free : OffsetFrontier key)

def contains (node : NodeId) : Bool := free.frontier.contains node

def insert (graph : Graph) (node : NodeId) : Except Fault (OffsetFrontier key) :=
  if free.contains node then .ok free
  else do
    let tied := free.frontier.nodes.filter fun other => compare (key other) (key node) == .eq
    let order ← match graph.logical? node with
      | none => pure free.order
      | some new => tied.foldlM (OffsetEdges.compareWith graph node new) free.order
    return { frontier := free.frontier.insert node, order }

def erase (node : NodeId) : OffsetFrontier key :=
  if free.contains node then
    { frontier := free.frontier.erase node, order := free.order.erase node }
  else free

def next? : Option NodeId := free.frontier.nodes.find? fun node => !free.order.isBlocked node

def pop? : Option (NodeId × OffsetFrontier key) :=
  free.next?.map fun node => (node, free.erase node)

def drain : Nat → OffsetFrontier key → List NodeId × OffsetFrontier key
  | 0, free => ([], free)
  | count + 1, free =>
    match free.pop? with
    | none => ([], free)
    | some (node, rest) =>
      let (later, rest) := drain count rest
      (node :: later, rest)

end OffsetFrontier

end Dataflow
