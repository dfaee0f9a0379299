import Dataflow.Config.Basic
import Dataflow.Toml.Reader

set_option autoImplicit false

namespace Dataflow

namespace Toml.Value

def boolean? : Value → Option Bool
  | .boolean flag => some flag
  | _ => none

def isEmpty : Value → Bool
  | .array [] | .table _ [] => true
  | _ => false

def choice? {α : Type} (ofName? : String → Option α) : Value → Option α
  | .string name => ofName? name
  | .table _ [(name, held)] => if held.isEmpty then ofName? name else none
  | _ => none

end Toml.Value

def Toml.Entries.defaulted? {α : Type} (entries : Toml.Entries) (key : String) (absent : α)
    (decode : Toml.Value → Option α) : Option α :=
  match entries.lookup key with
  | none => some absent
  | some value => decode value

namespace ScheduleConfig

open Toml in
def ofToml? (entries : Entries) : Option ScheduleConfig := do
  return {
    strategy := ← entries.defaulted? "strategy" .gaudi (Value.choice? Strategy.ofName?)
    parentIdSchedule := ← entries.defaulted? "enable_parent_id_schedule" false Value.boolean?
    maxPathSchedule := ← entries.defaulted? "enable_max_path_schedule" false Value.boolean?
    maxPathWeight := ← entries.defaulted? "max_path_weight" .hops (Value.choice? PathWeight.ofName?)
    reorderProbes := ← entries.defaulted? "reorder_nan_inf_probes" true Value.boolean?
    optimizeMemsets := ← entries.defaulted? "optimize_memsets_location" true Value.boolean?
    orderFlashAttention := ← entries.defaulted? "enable_flash_attention_ordering" false Value.boolean?
    ioInDram := ← entries.defaulted? "io_in_dram" false Value.boolean? }

def parse (source : String) : Except ConfigError ScheduleConfig :=
  match (Toml.parse? source).bind ofToml? with
  | some config => .ok config
  | none => .error .unreadable

end ScheduleConfig

end Dataflow
