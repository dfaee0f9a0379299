import Dataflow.PathMetrics

set_option autoImplicit false

namespace Dataflow

section

variable {K : Type} [Ord K] (key : NodeId → K)

def precedes (a b : NodeId) : Bool := (compare (key a) (key b)).then (compare a b) == .lt

def placeByKey (node : NodeId) : List NodeId → List NodeId
  | [] => [node]
  | other :: rest =>
    if precedes key node other then node :: other :: rest else other :: placeByKey node rest

def rankByKey (nodes : List NodeId) : List NodeId := nodes.foldr (placeByKey key) []

end

structure Frontier {K : Type} [Ord K] (key : NodeId → K) where
  nodes : List NodeId := []
  deriving DecidableEq

namespace Frontier

variable {K : Type} [Ord K] {key : NodeId → K} (frontier : Frontier key)

def contains (node : NodeId) : Bool := node ∈ frontier.nodes

def isEmpty : Bool := frontier.nodes.isEmpty

def insert (node : NodeId) : Frontier key :=
  if frontier.contains node then frontier else ⟨placeByKey key node frontier.nodes⟩

def insertAll (nodes : List NodeId) : Frontier key := nodes.foldl insert frontier

def erase (node : NodeId) : Frontier key := ⟨frontier.nodes.filter (· ≠ node)⟩

def next? : Option NodeId := frontier.nodes.head?

end Frontier

def Graph.defaultKey (graph : Graph) (byParent : Bool) (node : NodeId) : Option Nat :=
  if byParent then (graph.nodes.get? node).map Node.parentId else none

-- By precedence: free nodes without weight, then the longest chain through a node, then the longest path behind it.
structure PathPriority where
  weighs : Bool
  chain : Nat
  path : Nat
  deriving DecidableEq

instance : Ord PathPriority where
  compare a b := ((compare a.weighs b.weighs).then (compare b.chain a.chain)).then (compare b.path a.path)

def PathMetrics.priority (metrics : PathMetrics) (graph : Graph) (node : NodeId) : PathPriority :=
  { weighs := !(graph.nodes.get? node).any Node.isLogicalNonDebug
    chain := metrics.chainLength node
    path := metrics.maxPath node }

structure MaxPathKey where
  priority : PathPriority
  parent : Option Nat
  deriving DecidableEq

instance : Ord MaxPathKey where
  compare a b := (compare a.priority b.priority).then (compare a.parent b.parent)

def PathMetrics.key (metrics : PathMetrics) (graph : Graph) (byParent : Bool) (node : NodeId) :
    MaxPathKey :=
  { priority := metrics.priority graph node, parent := graph.defaultKey byParent node }

inductive Rank where
  | bundle
  | unbundled
  | scalarPipe
  deriving DecidableEq

namespace Rank

def place : Rank → Nat
  | bundle => 0
  | unbundled => 1
  | scalarPipe => 2

def title : Rank → String
  | bundle => "Bundle"
  | unbundled => "Unbundled"
  | scalarPipe => "ScalarPipe"

instance : Ord Rank := ⟨fun a b => compare a.place b.place⟩

end Rank

structure GaudiKey where
  rank : Rank
  bundleIndex : UInt32 := 0
  operationIndex : UInt32 := 0
  path : Option PathPriority := none
  parent : Option Nat := none
  deriving DecidableEq

instance : Ord GaudiKey where
  compare a b :=
    ((((compare a.rank b.rank).then (compare a.bundleIndex b.bundleIndex)).then
      (compare a.operationIndex b.operationIndex)).then (compare a.path b.path)).then
      (compare a.parent b.parent)

def Graph.gaudiKey (graph : Graph) (byParent : Bool) (metrics : Option PathMetrics) (node : NodeId) :
    GaudiKey :=
  match graph.nodes.get? node with
  | none => { rank := .unbundled }
  | some found =>
    match found.annotations.bundle with
    | some info =>
      { rank := if info.isScalarPipe then .scalarPipe else .bundle
        bundleIndex := info.bundleIndex, operationIndex := info.operationIndex }
    | none =>
      { rank := .unbundled, path := metrics.map fun metrics => metrics.priority graph node
        parent := if byParent then some found.parentId else none }

end Dataflow
