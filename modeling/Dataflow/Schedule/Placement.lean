import Dataflow.Dependencies

set_option autoImplicit false

namespace Dataflow

def position? (order : List NodeId) (node : NodeId) : Option Nat := order.findIdx? (· = node)

def pickBy (better : Nat → Nat → Bool) (best : Option (Nat × NodeId)) (placed : Nat × NodeId) :
    Option (Nat × NodeId) :=
  match best with
  | none => some placed
  | some held => if better placed.1 held.1 then some placed else best

def placed (order nodes : List NodeId) : List (Nat × NodeId) :=
  nodes.filterMap fun node => (position? order node).map fun index => (index, node)

def earliest? (order nodes : List NodeId) : Option NodeId :=
  ((placed order nodes).foldl (pickBy fun a b => a < b) none).map Prod.snd

def latest? (order nodes : List NodeId) : Option NodeId :=
  ((placed order nodes).foldl (pickBy fun a b => b < a) none).map Prod.snd

def moveBefore? (order : List NodeId) (node anchor : NodeId) : Option (List NodeId) := do
  let source ← position? order node
  let target ← position? order anchor
  if source + 1 < target then some ((order.eraseIdx source).insertIdx (target - 1) node) else none

def moveAfter? (order : List NodeId) (node anchor : NodeId) : Option (List NodeId) := do
  let source ← position? order node
  let target ← position? order anchor
  if target + 1 < source then some ((order.eraseIdx source).insertIdx (target + 1) node) else none

def moveEach (move : List NodeId → NodeId → Option (List NodeId)) :
    List NodeId → List NodeId → Nat × List NodeId
  | order, [] => (0, order)
  | order, node :: rest =>
    match move order node with
    | none => moveEach move order rest
    | some order =>
      let (moved, order) := moveEach move order rest
      (moved + 1, order)

namespace Graph

variable (graph : Graph) (deps : Dependencies)

def bundleOf (node : NodeId) : Option UInt32 := (graph.nodes.get? node).bind Node.bundleIndex?

def having (property : Node → Bool) (order : List NodeId) : List NodeId :=
  order.filter fun node => (graph.nodes.get? node).any property

def probed? (probe : NodeId) : Option NodeId := do
  let node ← graph.nodes.get? probe
  let tensor ← node.inputs.head?
  graph.producer? tensor

def probeAnchor (order : List NodeId) (probe target : NodeId) : NodeId :=
  match graph.bundleOf target with
  | none => target
  | some bundle =>
    if graph.bundleOf probe = some bundle then target
    else (order.reverse.find? fun node => graph.bundleOf node = some bundle).getD target

def moveProbe (order : List NodeId) (probe : NodeId) : Option (List NodeId) := do
  let target ← graph.probed? probe
  if latest? order (deps.blockers probe) = some target then
    moveAfter? order probe (graph.probeAnchor order probe target)
  else none

def reorderProbes (order : List NodeId) : Nat × List NodeId :=
  moveEach (graph.moveProbe deps) order (graph.having Node.isProbe order)

def memsetAnchor (order : List NodeId) (first : NodeId) : NodeId :=
  match graph.bundleOf first with
  | none => first
  | some bundle => (order.find? fun node => graph.bundleOf node = some bundle).getD first

def moveMemset (order : List NodeId) (memset : NodeId) : Option (List NodeId) := do
  let first ← earliest? order (deps.dependents memset)
  moveBefore? order memset (graph.memsetAnchor order first)

-- Later ones go first, so that a memset that serves another one lands before it.
def optimizeMemsets (order : List NodeId) : Nat × List NodeId :=
  let memsets := (graph.having (fun node => node.isMemset && node.bundleIndex?.isNone) order).filter
    fun node => !(deps.dependents node).isEmpty
  moveEach (graph.moveMemset deps) order memsets.reverse

def moveToFirstUse (deps : Dependencies) (order : List NodeId) (node : NodeId) :
    Option (List NodeId) := do
  let first ← earliest? order (deps.dependents node)
  moveBefore? order node first

def moveToLastBlocker (deps : Dependencies) (order : List NodeId) (node : NodeId) :
    Option (List NodeId) := do
  let last ← latest? order (deps.blockers node)
  moveAfter? order node last

def gatherLogical (order : List NodeId) : Nat × List NodeId :=
  moveEach (moveToFirstUse deps) order (graph.having Node.isLogicalNonDebug order).reverse

def moveFills (order : List NodeId) : Nat × List NodeId :=
  moveEach (moveToFirstUse deps) order (graph.having Node.isDramFill order).reverse

def moveSpills (order : List NodeId) : Nat × List NodeId :=
  moveEach (moveToLastBlocker deps) order (graph.having Node.isDramSpill order)

end Graph

end Dataflow
