import Dataflow.Ident

set_option autoImplicit false

namespace Dataflow

inductive Fault where
  | sumOverflow
  | differenceOverflow
  | cyclicFusion
  deriving DecidableEq

def Fault.message : Fault → String
  | .sumOverflow => "attempt to add with overflow"
  | .differenceOverflow => "attempt to subtract with overflow"
  | .cyclicFusion => "assertion failed: self.graph.is_acyclic()"

inductive PlaneDefect where
  | cyclicGraph
  | cyclicPlane
  | bundleCount (nodes indices : Nat)
  | unknownNode (id : PlaneNodeId)
  | notBundle (name : String) (members : Nat)
  deriving DecidableEq

def PlaneDefect.message : PlaneDefect → String
  | .cyclicGraph => "original graph is cyclic"
  | .cyclicPlane => "bundle plane graph is cyclic"
  | .bundleCount nodes indices => s!"{nodes} bundle nodes for {indices} bundle indices"
  | .unknownNode id => s!"unknown node {id}"
  | .notBundle name members => s!"{name} is not a bundle but holds {members} nodes"

inductive DescriptionDefect where
  | unreadable
  | repeatedTensor (name : String)
  | unknownAlias (name real : String)
  | unknownTensor (name : String)
  | repeatedNode (name : String)
  | unknownNode (name : String)
  deriving DecidableEq

def DescriptionDefect.message : DescriptionDefect → String
  | .unreadable => "the text is not a graph description"
  | .repeatedTensor name => s!"tensor '{name}' declared twice"
  | .unknownAlias name real => s!"tensor '{name}' aliases unknown '{real}'"
  | .unknownTensor name => s!"unknown tensor '{name}'"
  | .repeatedNode name => s!"node '{name}' declared twice"
  | .unknownNode name => s!"unknown node '{name}'"

inductive GraphError where
  | nodeNotFound (node : NodeId)
  | tensorNotFound (tensor : TensorId)
  | duplicateNode (node : NodeId)
  | notControlEdge (tensor : TensorId)
  | duplicateProducer (tensor : TensorId) (producer : NodeId)
  | cycleDetected (blocking blocked : NodeId)
  | selfEdge (node : NodeId)
  | notInPlane (node : NodeId)
  | alreadyInPlane (node : NodeId)
  | bundleExists (index : UInt32)
  | alreadyBundled (node : NodeId)
  | notBundled (node : NodeId)
  | unsupportedFusion
  | planeFrozen
  | planeNotFrozen
  | invalidPlane (defect : PlaneDefect)
  | emptyBundle
  | invalidDescription (defect : DescriptionDefect)
  | fault (cause : Fault)
  deriving DecidableEq

def GraphError.message : GraphError → String
  | .nodeNotFound node => s!"Node not found: {node}"
  | .tensorNotFound tensor => s!"Tensor not found: {tensor}"
  | .duplicateNode node => s!"Node {node} already exists in the graph"
  | .notControlEdge tensor => s!"Tensor {tensor} is not a control edge"
  | .duplicateProducer tensor producer => s!"Tensor {tensor} already produced by {producer}"
  | .cycleDetected blocking blocked => s!"Edge {blocking} -> {blocked} would close a cycle"
  | .selfEdge node => s!"Node {node} cannot block itself"
  | .notInPlane node => s!"Node {node} not found in the bundle plane"
  | .alreadyInPlane node => s!"Node {node} already exists in the bundle plane"
  | .bundleExists index => s!"Bundle {index} already exists in the bundle plane"
  | .alreadyBundled node => s!"Node {node} is already part of a bundle"
  | .notBundled node => s!"Node {node} is not part of a bundle"
  | .unsupportedFusion => "Fusing two bundles together is not supported"
  | .planeFrozen => "Bundle plane is already frozen"
  | .planeNotFrozen => "Bundle plane is already unfrozen"
  | .invalidPlane defect => "Bundle plane validation failed: " ++ defect.message
  | .emptyBundle => "Did not get any nodes to bundle"
  | .invalidDescription defect => "Invalid graph description: " ++ defect.message
  | .fault cause => cause.message

inductive ScheduleError where
  | notAllScheduled (scheduled total : Nat)
  | negativeInDegree (node : NodeId)
  | notVisited (node : NodeId)
  | duplicateNode (node : NodeId)
  | orderViolation (blocking blocked : NodeId)
  | graph (error : GraphError)
  deriving DecidableEq

def ScheduleError.message : ScheduleError → String
  | .notAllScheduled scheduled total => s!"Not all nodes were scheduled: {scheduled} of {total}"
  | .negativeInDegree node => s!"Negative in-degree for node {node}"
  | .notVisited node => s!"Node {node} was never visited"
  | .duplicateNode node => s!"Node {node} appears more than once in the schedule"
  | .orderViolation blocking blocked => s!"Node {blocked} is scheduled before its blocker {blocking}"
  | .graph error => error.message

instance : MonadLift (Except Fault) (Except GraphError) := ⟨Except.mapError .fault⟩

instance : MonadLift (Except GraphError) (Except ScheduleError) := ⟨Except.mapError .graph⟩

namespace Word

def largest : Nat := 0xFFFFFFFFFFFFFFFF

def saturatingAdd (a b : Nat) : Nat := min (a + b) largest

def checkedAdd (a b : Nat) : Except Fault Nat :=
  if a + b ≤ largest then .ok (a + b) else .error .sumOverflow

def checkedSum (summands : List Nat) : Except Fault Nat :=
  summands.foldlM checkedAdd 0

end Word

end Dataflow
