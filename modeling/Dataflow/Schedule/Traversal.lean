import Dataflow.Dependencies
import Dataflow.Frontier.Basic

set_option autoImplicit false

namespace Dataflow

def release (degrees : Table NodeId Nat) :
    List NodeId → Except ScheduleError (List NodeId × Table NodeId Nat)
  | [] => .ok ([], degrees)
  | node :: rest =>
    match degrees.get? node with
    | none => .error (.notVisited node)
    | some 0 => .error (.negativeInDegree node)
    | some (degree + 1) => do
      let (freed, degrees) ← release (degrees.insert node degree) rest
      return (if degree = 0 then node :: freed else freed, degrees)

def requireAll (total : Nat) (order : List NodeId) : Except ScheduleError (List NodeId) :=
  if order.length = total then .ok order else .error (.notAllScheduled order.length total)

namespace BreadthFirst

variable {K : Type} [Ord K] {key : NodeId → K}

def emit (deps : Dependencies) : Nat → Table NodeId Nat → Frontier key → Except ScheduleError (List NodeId)
  | 0, _, _ => .ok []
  | count + 1, degrees, free =>
    match free.nodes with
    | [] => .ok []
    | node :: rest => do
      let (freed, degrees) ← release degrees (deps.dependents node)
      return node :: (← emit deps count degrees (Frontier.insertAll ⟨rest⟩ freed))

def run (deps : Dependencies) (key : NodeId → K) : Except ScheduleError (List NodeId) := do
  let roots : Frontier key := Frontier.insertAll {} deps.roots
  requireAll deps.size (← emit deps deps.size deps.inDegrees roots)

end BreadthFirst

def Graph.scheduleBreadthFirst (graph : Graph) (filter : EdgeFilter) (byParent : Bool) :
    Except ScheduleError (List NodeId) :=
  BreadthFirst.run (graph.dependencies filter) (graph.defaultKey byParent)

def Graph.scheduleMaxPath (graph : Graph) (weight : PathWeight) (byParent : Bool) :
    Except ScheduleError (List NodeId) := do
  let deps := graph.dependencies .both
  let metrics ← PathMetrics.compute graph deps weight
  BreadthFirst.run deps (metrics.key graph byParent)

namespace DepthFirst

variable {K : Type} [Ord K] (key : NodeId → K)

def emit (deps : Dependencies) : Nat → Table NodeId Nat → List NodeId → Except ScheduleError (List NodeId)
  | 0, _, _ => .ok []
  | _, _, [] => .ok []
  | count + 1, degrees, node :: stack => do
    let (freed, degrees) ← release degrees (deps.dependents node)
    return node :: (← emit deps count degrees (rankByKey key freed ++ stack))

def run (deps : Dependencies) : Except ScheduleError (List NodeId) := do
  requireAll deps.size (← emit key deps deps.size deps.inDegrees (rankByKey key deps.roots))

end DepthFirst

def Graph.scheduleDepthFirst (graph : Graph) (filter : EdgeFilter) (byParent : Bool) :
    Except ScheduleError (List NodeId) :=
  DepthFirst.run (graph.defaultKey byParent) (graph.dependencies filter)

end Dataflow
