import Dataflow.Plane.Build
import Dataflow.Plane.Query
import Dataflow.Schedule.MemoryOriented
import Dataflow.Workspace.Basic

set_option autoImplicit false

namespace Dataflow

def Graph.flashAttentionChains (graph : Graph) : List (List NodeId) :=
  let nodes := graph.nodes.values.filter fun node => node.annotations.flashAttention
  (Ranked.ascending (nodes.map Node.parentId)).map fun parent =>
    (nodes.filter fun node => node.parentId = parent).map Node.id

namespace Workspace

-- A path back may lead over barriers, which only the graph knows.
def forbidsEdge (workspace : Workspace) (last first : NodeId) : Except GraphError Bool := do
  match workspace.plane with
  | none => return workspace.graph.reaches first last
  | some plane =>
    if (← plane.representation last) = (← plane.representation first) then return true
    if ← plane.reaches first last then return true
    return workspace.graph.reaches first last

def orderChains (added : Nat) (pair : List NodeId × List NodeId) : EditM Nat := do
  match pair.1.getLast?, pair.2.head? with
  | some last, some first =>
    let workspace ← get
    match workspace.forbidsEdge last first with
    | .error error => throw error
    | .ok true => return added
    | .ok false =>
      if workspace.graph.reaches last first then return added
      discard <| addControlEdge last first .schedule
      return added + 1
  | _, _ => return added

def orderFlashAttention : EditM Nat := do
  let chains := (← get).graph.flashAttentionChains
  (chains.zip chains.tail).foldlM orderChains 0

end Workspace

namespace Graph

variable (graph : Graph)

def scheduleNodes (strategy : Strategy) (config : ScheduleConfig) : Except ScheduleError (List NodeId) :=
  match strategy with
  | .bfs => graph.scheduleBreadthFirst .both config.parentIdSchedule
  | .dfs => graph.scheduleDepthFirst .both config.parentIdSchedule
  | .maxPath => graph.scheduleMaxPath config.maxPathWeight config.parentIdSchedule
  | .gaudi => graph.scheduleGaudi config
  | .memoryOriented => graph.scheduleMemoryOriented config

-- Annotations that form no valid plane leave the workspace without one.
def annotatedWorkspace : Except GraphError Workspace :=
  match Plane.ofAnnotations graph (fun _ => true) with
  | .ok plane => .ok { graph, plane := some plane }
  | .error (.invalidPlane _) => .ok { graph }
  | .error error => .error error

def orderedFlashAttention : Graph × Option GraphError :=
  match graph.annotatedWorkspace with
  | .error error => (graph, some error)
  | .ok workspace =>
    match Workspace.orderFlashAttention workspace with
    | .ok _ workspace => (workspace.graph, none)
    | .error error workspace => (workspace.graph, some error)

def schedule (strategy : Strategy) (config : ScheduleConfig) :
    Graph × Except ScheduleError (List NodeId) :=
  let (graph, error) :=
    if strategy = .gaudi && config.orderFlashAttention then graph.orderedFlashAttention
    else (graph, none)
  match error with
  | some error => (graph, .error (.graph error))
  | none => (graph, do
    let order ← graph.scheduleNodes strategy config
    graph.validateSchedule order
    return order)

end Graph

end Dataflow
