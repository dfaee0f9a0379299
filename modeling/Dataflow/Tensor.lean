import Dataflow.Ident

set_option autoImplicit false

namespace Dataflow

inductive ControlType where
  | schedule
  | sync
  | memory
  deriving DecidableEq, Inhabited

namespace ControlType

def all : List ControlType := [schedule, sync, memory]

def name : ControlType → String
  | schedule => "schedule"
  | sync => "sync"
  | memory => "memory"

def title : ControlType → String
  | schedule => "Schedule"
  | sync => "Sync"
  | memory => "Memory"

def ofName? (text : String) : Option ControlType := all.find? fun type => type.name == text

end ControlType

structure Alias where
  real : TensorId
  offset : Nat
  deriving DecidableEq, Inhabited

structure Tensor where
  id : TensorId
  name : String
  sizeBytes : Nat
  producer : Option NodeId := none
  consumers : List NodeId := []
  control : Option ControlType := none
  view : Option Alias := none
  deriving DecidableEq, Inhabited

def Tensor.isControl (tensor : Tensor) : Bool := tensor.control.isSome

inductive EdgeFilter where
  | data
  | control
  | both
  deriving DecidableEq, Inhabited

def EdgeFilter.accepts : EdgeFilter → Tensor → Bool
  | .data, tensor => !tensor.isControl
  | .control, tensor => tensor.isControl
  | .both, _ => true

end Dataflow
