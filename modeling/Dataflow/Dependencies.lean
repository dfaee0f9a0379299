import Dataflow.Graph.Basic

set_option autoImplicit false

namespace Dataflow

structure Dependencies where
  blockersOf : Table NodeId (List NodeId)
  dependentsOf : Table NodeId (List NodeId)

def Graph.blockers (graph : Graph) (filter : EdgeFilter) (node : Node) : List NodeId :=
  let barriers := if filter = .data then [] else graph.barriers node
  Ranked.ascending (graph.producers node.id filter ++ barriers)

def Graph.dependencies (graph : Graph) (filter : EdgeFilter) : Dependencies :=
  let rows := graph.nodes.entries.map fun (id, node) => (id, graph.blockers filter node)
  { blockersOf := .ofList rows
    dependentsOf := .ofList <| rows.map fun (id, _) =>
      (id, (rows.filter fun row => id ∈ row.2).map Prod.fst) }

namespace Dependencies

variable (deps : Dependencies)

def blockers (node : NodeId) : List NodeId := (deps.blockersOf.get? node).getD []

def dependents (node : NodeId) : List NodeId := (deps.dependentsOf.get? node).getD []

def inDegree (node : NodeId) : Nat := (deps.blockers node).length

def inDegrees : Table NodeId Nat :=
  .ofList (deps.blockersOf.entries.map fun (id, blockers) => (id, blockers.length))

def roots : List NodeId :=
  (deps.blockersOf.entries.filter fun (_, blockers) => blockers.isEmpty).map Prod.fst

def size : Nat := deps.blockersOf.size

def kahn : Except Fault (Option (List NodeId)) := Kahn.order? deps.inDegrees deps.dependents

def topologicalOrder? : Option (List NodeId) :=
  match deps.kahn with
  | .ok order => order
  | .error _ => none

end Dependencies

def Graph.entryError? (graph : Graph) : List NodeId → List NodeId → Option ScheduleError
  | _, [] => none
  | seen, node :: rest =>
    if !graph.contains node then some (.graph (.nodeNotFound node))
    else if node ∈ seen then some (.duplicateNode node)
    else graph.entryError? (node :: seen) rest

-- The entries may be visited in any order `walk`; it decides which of several violations is found first.
def Dependencies.violation? (deps : Dependencies) (order walk : List NodeId) : Option ScheduleError :=
  walk.findSome? fun node =>
    ((deps.blockers node).find? fun blocking => order.idxOf node ≤ order.idxOf blocking).map (.orderViolation · node)

def Graph.validateAlong (graph : Graph) (walk order : List NodeId) : Except ScheduleError Unit :=
  match graph.entryError? [] order with
  | some error => .error error
  | none =>
    if order.length ≠ graph.size then .error (.notAllScheduled order.length graph.size)
    else
      match (graph.dependencies .both).violation? order walk with
      | some error => .error error
      | none => .ok ()

def Graph.validateSchedule (graph : Graph) (order : List NodeId) : Except ScheduleError Unit :=
  graph.validateAlong order order

end Dataflow
