set_option autoImplicit false

namespace Dataflow

inductive Strategy where
  | bfs
  | dfs
  | maxPath
  | gaudi
  | memoryOriented
  deriving DecidableEq

inductive PathWeight where
  | hops
  | tensorBytes
  deriving DecidableEq, Inhabited

inductive ConfigError where
  | unknownStrategy (text : String)
  | unknownWeight (text : String)
  | unreadable
  deriving DecidableEq

def ConfigError.message : ConfigError → String
  | .unknownStrategy text => s!"Config error: unknown strategy '{text}'"
  | .unknownWeight text => s!"Config error: unknown max path weight '{text}'"
  | .unreadable => "Config error: the text is not a schedule configuration"

def asciiLower (text : String) : String := text.map Char.toLower

namespace Strategy

instance : Inhabited Strategy := ⟨gaudi⟩

def all : List Strategy := [bfs, dfs, maxPath, gaudi, memoryOriented]

def name : Strategy → String
  | bfs => "bfs"
  | dfs => "dfs"
  | maxPath => "max_path"
  | gaudi => "gaudi"
  | memoryOriented => "memory_oriented"

def ofName? (text : String) : Option Strategy := all.find? fun strategy => strategy.name == text

def parse (text : String) : Except ConfigError Strategy :=
  let plain := (asciiLower text).map fun c => if c = '-' then '_' else c
  match ofName? plain with
  | some strategy => .ok strategy
  | none => .error (.unknownStrategy plain)

end Strategy

namespace PathWeight

def all : List PathWeight := [hops, tensorBytes]

def name : PathWeight → String
  | hops => "hops"
  | tensorBytes => "tensor_bytes"

def title : PathWeight → String
  | hops => "Hops"
  | tensorBytes => "TensorBytes"

def ofName? (text : String) : Option PathWeight := all.find? fun weight => weight.name == text

def parse (text : String) : Except ConfigError PathWeight :=
  let plain := asciiLower text
  match ofName? (if plain = "bytes" then "tensor_bytes" else plain) with
  | some weight => .ok weight
  | none => .error (.unknownWeight plain)

end PathWeight

structure ScheduleConfig where
  strategy : Strategy := .gaudi
  parentIdSchedule : Bool := false
  maxPathSchedule : Bool := false
  maxPathWeight : PathWeight := .hops
  reorderProbes : Bool := true
  optimizeMemsets : Bool := true
  orderFlashAttention : Bool := false
  ioInDram : Bool := false
  deriving DecidableEq, Inhabited

end Dataflow
