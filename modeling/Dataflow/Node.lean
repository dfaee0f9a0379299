import Dataflow.Ident

set_option autoImplicit false

namespace Dataflow

inductive NodeKind where
  | compute
  | logical
  | dma
  | memset
  | dramSpill
  | dramFill
  | nanInfProbe
  deriving DecidableEq, Inhabited

namespace NodeKind

def all : List NodeKind := [compute, logical, dma, memset, dramSpill, dramFill, nanInfProbe]

def name : NodeKind → String
  | compute => "compute"
  | logical => "logical"
  | dma => "dma"
  | memset => "memset"
  | dramSpill => "dram_spill"
  | dramFill => "dram_fill"
  | nanInfProbe => "nan_inf_probe"

def title : NodeKind → String
  | compute => "Compute"
  | logical => "Logical"
  | dma => "Dma"
  | memset => "Memset"
  | dramSpill => "DramSpill"
  | dramFill => "DramFill"
  | nanInfProbe => "NanInfProbe"

def ofName? (text : String) : Option NodeKind := all.find? fun kind => kind.name == text

end NodeKind

inductive Engine where
  | mme
  | tpc
  | dma
  | none
  deriving DecidableEq

namespace Engine

instance : Inhabited Engine := ⟨none⟩

def all : List Engine := [mme, tpc, dma, none]

def name : Engine → String
  | mme => "mme"
  | tpc => "tpc"
  | dma => "dma"
  | none => "none"

def ofName? (text : String) : Option Engine := all.find? fun engine => engine.name == text

end Engine

-- A scalar-pipe bundle yields to all other work.
inductive BundleType where
  | undefined
  | mme
  | tpc
  | complexGuid
  | scalarPipe
  deriving DecidableEq, Inhabited

namespace BundleType

def all : List BundleType := [undefined, mme, tpc, complexGuid, scalarPipe]

def name : BundleType → String
  | undefined => "undefined"
  | mme => "mme"
  | tpc => "tpc"
  | complexGuid => "complex_guid"
  | scalarPipe => "scalar_pipe"

def title : BundleType → String
  | undefined => "Undefined"
  | mme => "Mme"
  | tpc => "Tpc"
  | complexGuid => "ComplexGuid"
  | scalarPipe => "ScalarPipe"

def ofName? (text : String) : Option BundleType := all.find? fun type => type.name == text

end BundleType

structure BundleInfo where
  bundleIndex : UInt32
  operationIndex : UInt32 := 0
  engine : Engine := .none
  bundleType : BundleType := .undefined
  deriving DecidableEq, Inhabited

def BundleInfo.isScalarPipe (info : BundleInfo) : Bool := info.bundleType = .scalarPipe

-- Two nodes outside of bundles count as in the same one.
def BundleInfo.same : Option BundleInfo → Option BundleInfo → Bool
  | none, none => true
  | some a, some b => a.bundleIndex = b.bundleIndex
  | _, _ => false

-- Barriers are nodes that come first without a tensor between them; a range index is a position fixed by hand.
structure Annotations where
  bundle : Option BundleInfo := none
  barriers : List NodeId := []
  rangeIndex : Option UInt32 := none
  flashAttention : Bool := false
  deriving DecidableEq, Inhabited

structure Node where
  id : NodeId
  name : String
  parentId : Nat
  kind : NodeKind
  engine : Engine
  debug : Bool
  inputs : List TensorId
  outputs : List TensorId
  controlInputs : List TensorId
  controlOutputs : List TensorId
  annotations : Annotations
  deriving DecidableEq, Inhabited

namespace Node

variable (node : Node)

def isLogical : Bool := node.kind = .logical
def isDebug : Bool := node.debug || node.kind = .nanInfProbe

def isLogicalNonDebug : Bool := node.isLogical && !node.isDebug

def isDma : Bool := node.engine = .dma ||
  match node.kind with
  | .dma | .memset | .dramSpill | .dramFill => true
  | _ => false

def isMemset : Bool := node.kind = .memset
def isDramSpill : Bool := node.kind = .dramSpill
def isDramFill : Bool := node.kind = .dramFill
def isProbe : Bool := node.kind = .nanInfProbe
def runsOnMme : Bool := node.engine = .mme
def runsOnTpc : Bool := node.engine = .tpc

def bundleIndex? : Option UInt32 := node.annotations.bundle.map BundleInfo.bundleIndex

def isScalarPipe : Bool := node.annotations.bundle.any BundleInfo.isScalarPipe

def allInputs : List TensorId := node.inputs ++ node.controlInputs

def allOutputs : List TensorId := node.outputs ++ node.controlOutputs

def sameBundle (other : Node) : Bool := BundleInfo.same node.annotations.bundle other.annotations.bundle

end Node

structure NodeSpec where
  name : String := ""
  parentId : Option Nat := none
  kind : NodeKind := .compute
  engine : Engine := .none
  debug : Bool := false
  annotations : Annotations := {}
  deriving DecidableEq, Inhabited

-- A node is its own parent unless another one is named.
def NodeSpec.node (spec : NodeSpec) (id : NodeId)
    (inputs outputs controlInputs controlOutputs : List TensorId) : Node :=
  { id, name := spec.name, parentId := spec.parentId.getD id.val, kind := spec.kind
    engine := spec.engine, debug := spec.debug, inputs, outputs, controlInputs, controlOutputs
    annotations := spec.annotations }

end Dataflow
