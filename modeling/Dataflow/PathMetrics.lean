import Dataflow.Config.Basic
import Dataflow.Dependencies
import Dataflow.Graph.Basic
import Dataflow.Error

set_option autoImplicit false

namespace Dataflow

def Graph.edgeWeight (graph : Graph) (weight : PathWeight) (source target : NodeId) : Nat :=
  match graph.nodes.get? source with
  | none => 0
  | some producer =>
    match weight with
    | .hops => if producer.isLogicalNonDebug then 0 else 1
    | .tensorBytes =>
      match graph.nodes.get? target with
      | none => 0
      | some consumer =>
        let shared := producer.outputs.filter (· ∈ consumer.inputs)
        (shared.filterMap fun t => graph.tensors.get? (graph.realTensor t)).foldl
          (fun size tensor => max size tensor.sizeBytes) 0

def longestOver (weight : NodeId → Nat) (lengths : Table NodeId Nat) (neighbours : List NodeId) : Nat :=
  neighbours.foldl (fun longest other =>
    max longest (Word.saturatingAdd ((lengths.get? other).getD 0) (weight other))) 0

def Dependencies.longestToSink (deps : Dependencies) (weight : NodeId → NodeId → Nat)
    (order : List NodeId) : Table NodeId Nat :=
  order.foldr (fun node lengths =>
    lengths.insert node (longestOver (weight node) lengths (deps.dependents node))) ∅

def Dependencies.longestFromSource (deps : Dependencies) (weight : NodeId → NodeId → Nat)
    (order : List NodeId) : Table NodeId Nat :=
  order.foldl (fun lengths node =>
    lengths.insert node (longestOver (weight · node) lengths (deps.blockers node))) ∅

def Dependencies.orderForPaths (deps : Dependencies) : Except ScheduleError (List NodeId) :=
  match deps.topologicalOrder? with
  | some order => .ok order
  | none => .error (.notAllScheduled 0 deps.size)

structure PathMetrics where
  toSink : Table NodeId Nat := ∅
  fromSource : Table NodeId Nat := ∅

namespace PathMetrics

def compute (graph : Graph) (deps : Dependencies) (weight : PathWeight) :
    Except ScheduleError PathMetrics := do
  let order ← deps.orderForPaths
  return { toSink := deps.longestToSink (graph.edgeWeight weight) order
           fromSource := deps.longestFromSource (graph.edgeWeight weight) order }

def maxPath (metrics : PathMetrics) (node : NodeId) : Nat := (metrics.toSink.get? node).getD 0

def chainLength (metrics : PathMetrics) (node : NodeId) : Nat :=
  Word.saturatingAdd ((metrics.fromSource.get? node).getD 0) (metrics.maxPath node)

end PathMetrics

end Dataflow
