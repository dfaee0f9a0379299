import Dataflow.Frontier.Offset
import Dataflow.Schedule.Placement
import Dataflow.Schedule.Traversal

set_option autoImplicit false

namespace Dataflow

namespace Gaudi

variable {K : Type} [Ord K] {key : NodeId → K}

structure BundleState (key : NodeId → K) where
  free : Frontier key := {}
  -- Pairs of an outside blocker that is still to be placed and a member that it blocks.
  externalBlockers : Nat := 0
  remaining : Nat := 0
  scalarPipe : Bool

def BundleState.isEligible (state : BundleState key) : Bool :=
  state.externalBlockers = 0 && !state.free.isEmpty

structure Run (key : NodeId → K) where
  inDegrees : Table NodeId Nat
  bundles : Table UInt32 (BundleState key)
  unbundled : OffsetFrontier key := {}
  active : Option UInt32 := none
  order : List NodeId := []

section

variable (graph : Graph) (deps : Dependencies)

-- The member of least identifier decides on the scalar pipe.
def countMember (bundles : Table UInt32 (BundleState key)) (node : Node) :
    Table UInt32 (BundleState key) :=
  match node.annotations.bundle with
  | none => bundles
  | some info =>
    let outside := (deps.blockers node.id).countP fun blocker =>
      graph.bundleOf blocker ≠ some info.bundleIndex
    let state := (bundles.get? info.bundleIndex).getD { scalarPipe := info.isScalarPipe }
    bundles.insert info.bundleIndex
      { state with
        externalBlockers := state.externalBlockers + outside, remaining := state.remaining + 1 }

def Run.bundleOf? (run : Run key) (node : NodeId) : Option (UInt32 × BundleState key) := do
  let bundle ← graph.bundleOf node
  let state ← run.bundles.get? bundle
  return (bundle, state)

def Run.makeFree (run : Run key) (node : NodeId) : Except ScheduleError (Run key) :=
  match run.bundleOf? graph node with
  | some (bundle, state) =>
    .ok { run with
      bundles := run.bundles.insert bundle { state with free := state.free.insert node } }
  | none =>
    match run.unbundled.insert graph node with
    | .ok unbundled => .ok { run with unbundled }
    | .error fault => .error (.graph (.fault fault))

def Run.releaseBundle (own : Option UInt32) (run : Run key) (node : NodeId) :
    Except ScheduleError (Run key) :=
  match run.bundleOf? graph node with
  | none => .ok run
  | some (bundle, state) =>
    if own = some bundle then .ok run
    else
      match state.externalBlockers with
      | 0 => .error (.negativeInDegree node)
      | outside + 1 =>
        .ok { run with
          bundles := run.bundles.insert bundle { state with externalBlockers := outside } }

def Run.countOff (run : Run key) (node : NodeId) : Run key :=
  match run.bundleOf? graph node with
  | none => run
  | some (bundle, state) =>
    { run with
      bundles := run.bundles.insert bundle { state with remaining := state.remaining - 1 } }

def Run.emit (run : Run key) (node : NodeId) : Except ScheduleError (Run key) := do
  let run := { run with order := run.order ++ [node] }.countOff graph node
  let run ← (deps.dependents node).foldlM (Run.releaseBundle graph (graph.bundleOf node)) run
  let (freed, inDegrees) ← release run.inDegrees (deps.dependents node)
  freed.foldlM (Run.makeFree graph) { run with inDegrees }

end

def betterBundle (key : NodeId → K) (best : Option (NodeId × UInt32)) (candidate : NodeId × UInt32) :
    Option (NodeId × UInt32) :=
  match best with
  | none => some candidate
  | some held =>
    if (compare (key candidate.1) (key held.1)).then (compare candidate.2 held.2) == .lt
    then some candidate else best

def Run.candidates (run : Run key) (filter : BundleState key → Bool) : List (NodeId × UInt32) :=
  run.bundles.entries.filterMap fun (bundle, state) =>
    if filter state then state.free.next?.map fun head => (head, bundle) else none

def Run.bestBundle? (run : Run key) (filter : BundleState key → Bool) : Option UInt32 :=
  ((run.candidates filter).foldl (betterBundle key) none).map Prod.snd

inductive Choice (key : NodeId → K) where
  | member (bundle : UInt32) (state : BundleState key) (node : NodeId) (rest : List NodeId)
  | start (bundle : UInt32)
  | unbundled (node : NodeId) (rest : OffsetFrontier key)
  -- Starts a bundle although blockers outside of it are still to be placed.
  | force (bundle : UInt32)
  | stop

-- Scalar-pipe bundles start when no unbundled node is free; bundles that block each other in a circle are forced.
def Run.choose (run : Run key) : Choice key :=
  match run.bestBundle? fun state => state.isEligible && !state.scalarPipe with
  | some bundle => .start bundle
  | none =>
    match run.unbundled.pop? with
    | some (node, rest) => .unbundled node rest
    | none =>
      match run.bestBundle? fun state => state.isEligible && state.scalarPipe with
      | some bundle => .start bundle
      | none =>
        match run.bestBundle? fun state => !state.free.isEmpty with
        | some bundle => .force bundle
        | none => .stop

def Run.choice (run : Run key) : Choice key :=
  match run.active with
  | none => run.choose
  | some bundle =>
    match run.bundles.get? bundle with
    | none => run.choose
    | some state =>
      match state.free.nodes with
      | [] => run.choose
      | node :: rest => .member bundle state node rest

section

variable (graph : Graph) (deps : Dependencies)

def Run.step (run : Run key) : Except ScheduleError (Option (Run key)) :=
  match run.choice with
  | .member bundle state node rest => do
    let run := { run with bundles := run.bundles.insert bundle { state with free := ⟨rest⟩ } }
    return some (← Run.emit graph deps run node)
  | .start bundle => .ok (some { run with active := some bundle })
  | .unbundled node rest => do
    return some (← Run.emit graph deps { run with unbundled := rest, active := none } node)
  | .force bundle => .ok (some { run with active := some bundle })
  | .stop => .ok none

def Run.steps : Nat → Run key → Except ScheduleError (List NodeId)
  | 0, run => .ok run.order
  | count + 1, run => do
    match ← run.step graph deps with
    | none => return run.order
    | some run => Run.steps count run

def start (key : NodeId → K) : Except ScheduleError (Run key) :=
  deps.roots.foldlM (Run.makeFree graph)
    { inDegrees := deps.inDegrees, bundles := graph.nodes.values.foldl (countMember graph deps) ∅ }

-- A node takes at most two steps, one to start its bundle and one to place it; one more finds nothing left.
def run (key : NodeId → K) : Except ScheduleError (List NodeId) := do
  requireAll graph.size (← Run.steps graph deps (2 * graph.size + 1) (← start graph deps key))

end

def place (graph : Graph) (deps : Dependencies) (config : ScheduleConfig) (order : List NodeId) :
    List NodeId :=
  let order := if config.reorderProbes then (graph.reorderProbes deps order).2 else order
  if config.optimizeMemsets then (graph.optimizeMemsets deps order).2 else order

end Gaudi

def Graph.scheduleGaudi (graph : Graph) (config : ScheduleConfig) :
    Except ScheduleError (List NodeId) := do
  let deps := graph.dependencies .both
  let metrics ← if config.maxPathSchedule
    then some <$> PathMetrics.compute graph deps config.maxPathWeight
    else pure none
  let order ← Gaudi.run graph deps (graph.gaudiKey config.parentIdSchedule metrics)
  return Gaudi.place graph deps config order

end Dataflow
