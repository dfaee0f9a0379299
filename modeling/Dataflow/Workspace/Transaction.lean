import Dataflow.Workspace.Basic

set_option autoImplicit false

namespace Dataflow

inductive Undo where
  | remove (node : NodeId)
  | restore (node : Node)
  | removeControlEdge (tensor : TensorId)
  deriving DecidableEq

structure Transaction where
  workspace : Workspace
  undo : List Undo := []
  froze : Bool := false

abbrev TransactionM := EStateM GraphError Transaction

namespace Transaction

def start (workspace : Workspace) : Transaction := { workspace }

def speculate (workspace : Workspace) : Transaction :=
  match workspace.plane with
  | none => { workspace }
  | some plane =>
    if plane.frozen then { workspace }
    else { workspace := { workspace with plane := some { plane with frozen := true } }, froze := true }

def recorded {α : Type} (edit : EditM α) (inverse : α → Undo) : TransactionM α := do
  let transaction ← get
  match edit transaction.workspace with
  | .error error workspace =>
    set { transaction with workspace }
    throw error
  | .ok answer workspace =>
    set { transaction with workspace, undo := inverse answer :: transaction.undo }
    return answer

def addNode (spec : NodeSpec) (inputs outputs : List TensorId) : TransactionM NodeId :=
  recorded (Workspace.addNode spec inputs outputs) .remove

def removeNode (id : NodeId) : TransactionM Unit := do
  discard <| recorded (Workspace.removeNode id) .restore

def addControlEdge (blocking blocked : NodeId) (type : ControlType) : TransactionM TensorId :=
  recorded (Workspace.addControlEdge blocking blocked type) .removeControlEdge

def applyUndo : Undo → EditM Unit
  | .remove node => discard <| Workspace.removeNode node
  | .restore node => Workspace.restoreNode node
  | .removeControlEdge tensor => Workspace.removeControlEdge tensor

-- An inverse that fails ends the roll-back where it is, and only a fault goes beyond it.
def rollback (transaction : Transaction) : Except Fault Workspace :=
  match transaction.undo.forM applyUndo transaction.workspace with
  | .ok _ workspace => .ok workspace
  | .error (.fault fault) _ => .error fault
  | .error _ workspace => .ok workspace

def finish (transaction : Transaction) (commit : Bool) : Except Fault Workspace := do
  let workspace ← if commit then pure transaction.workspace else transaction.rollback
  if transaction.froze then
    return { workspace with plane := workspace.plane.map fun plane => { plane with frozen := false } }
  return workspace

end Transaction

end Dataflow
