import Dataflow.Schedule.Gaudi

set_option autoImplicit false

namespace Dataflow

def Graph.hopWeight (graph : Graph) (source : NodeId) : Nat :=
  match graph.nodes.get? source with
  | none => 0
  | some node => if node.isDramSpill || node.isDramFill || node.isLogicalNonDebug then 0 else 1

def largestSignedWord : Nat := 0x7FFFFFFFFFFFFFFF

def Graph.bytes (graph : Graph) (tensors : List TensorId) : Except Fault Int := do
  let total ← Word.checkedSum ((tensors.filterMap graph.tensors.get?).map Tensor.sizeBytes)
  return min total largestSignedWord

def Graph.liveBytesDelta (graph : Graph) (node : Node) : Except Fault Int := do
  let produced ← graph.bytes node.outputs
  let released ← graph.bytes (node.inputs.filter fun t => (graph.tensorConsumers t).length = 1)
  return produced - released

structure WalkKey where
  unbarred : Bool
  path : Nat
  delta : Int
  parent : Option Nat

instance : Ord WalkKey where
  compare a b :=
    (((compare a.unbarred b.unbarred).then (compare b.path a.path)).then (compare a.delta b.delta)).then
      (compare a.parent b.parent)

structure RootKey where
  path : Nat

instance : Ord RootKey where
  compare a b := compare b.path a.path

namespace MemoryOriented

structure Setting where
  graph : Graph
  deps : Dependencies
  paths : Table NodeId Nat
  byParent : Bool

namespace Setting

variable (setting : Setting)

def path (node : NodeId) : Nat := (setting.paths.get? node).getD 0

def walkKey (node dependent : NodeId) : Except Fault WalkKey := do
  let found := setting.graph.nodes.get? dependent
  let delta ← match found with
    | none => pure 0
    | some consumer => setting.graph.liveBytesDelta consumer
  return {
    unbarred := !found.any fun consumer => node ∈ consumer.annotations.barriers
    path := setting.path dependent
    delta
    parent := setting.graph.defaultKey setting.byParent dependent }

def placeKeyed (entry : WalkKey × NodeId) : List (WalkKey × NodeId) → List (WalkKey × NodeId)
  | [] => [entry]
  | other :: rest =>
    if (compare entry.1 other.1).then (compare entry.2 other.2) == .lt then entry :: other :: rest
    else other :: placeKeyed entry rest

-- The walk takes the least wanted first, so the most wanted one ends up right behind the node.
def children (seen : List NodeId) (node : NodeId) : Except Fault (List NodeId) :=
  match (setting.deps.dependents node).filter (· ∉ seen) with
  | [] => .ok []
  | [child] => .ok [child]
  | several => do
    let keyed ← several.mapM fun child => do return (← setting.walkKey node child, child)
    return (keyed.foldr placeKeyed []).reverse.map Prod.snd

-- Each level of the walk sees a further node, so `depth` may be the number of nodes.
def walk : Nat → NodeId → List NodeId × List NodeId → Except Fault (List NodeId × List NodeId)
  | 0, _, state => .ok state
  | depth + 1, node, (seen, segment) => do
    let seen := node :: seen
    let children ← setting.children seen node
    let (seen, segment) ← children.foldlM (fun state child =>
      if child ∈ state.1 then pure state else walk depth child state) (seen, segment)
    return (seen, node :: segment)

def waitsFor (segment : List NodeId) (node : NodeId) : Bool :=
  segment.any fun member => node ∈ setting.deps.dependents member && node ∉ segment

def splice (order segment : List NodeId) : List NodeId :=
  order.takeWhile (!setting.waitsFor segment ·) ++ segment ++ order.dropWhile (!setting.waitsFor segment ·)

def walkRoot (state : List NodeId × List NodeId) (root : NodeId) :
    Except Fault (List NodeId × List NodeId) := do
  let (seen, order) := state
  if root ∈ seen then return state
  let (seen, segment) ← setting.walk setting.graph.size root (seen, [])
  return (seen, setting.splice order (setting.graph.gatherLogical setting.deps segment).2)

def rankRoots (roots : List NodeId) : List NodeId :=
  rankByKey (fun root => RootKey.mk (setting.path root)) roots

end Setting

-- What waits for the DMA roots is walked like a root.
def stageRoots (graph : Graph) (deps : Dependencies) : List NodeId × List NodeId :=
  let (dma, rest) := deps.roots.partition fun root => (graph.nodes.get? root).any Node.isDma
  let roots := (dma.flatMap deps.dependents).foldl (fun roots node =>
    if node ∈ roots then roots else roots ++ [node]) rest
  (dma, roots)

def run (setting : Setting) (ioInDram : Bool) : Except ScheduleError (List NodeId) := do
  let graph := setting.graph
  let (staged, roots) :=
    if ioInDram then stageRoots graph setting.deps else ([], setting.deps.roots)
  match (setting.rankRoots roots).foldlM setting.walkRoot (staged, []) with
  | .error fault => throw (.graph (.fault fault))
  | .ok (seen, order) =>
    match graph.nodeIds.find? (· ∉ seen) with
    | some missed => throw (.notVisited missed)
    | none => requireAll graph.size (staged ++ order)

end MemoryOriented

-- A node with a fixed range index hands the whole graph over to the bundle-aware schedule.
def Graph.scheduleMemoryOriented (graph : Graph) (config : ScheduleConfig) :
    Except ScheduleError (List NodeId) :=
  if graph.nodes.values.any fun node => node.annotations.rangeIndex.isSome then
    graph.scheduleGaudi config
  else do
    let deps := graph.dependencies .both
    let paths := deps.longestToSink (fun source _ => graph.hopWeight source) (← deps.orderForPaths)
    let setting := { graph, deps, paths, byParent := config.parentIdSchedule }
    let order ← MemoryOriented.run setting config.ioInDram
    let filled := (graph.moveFills deps order).2
    return (graph.moveSpills deps filled).2

end Dataflow
