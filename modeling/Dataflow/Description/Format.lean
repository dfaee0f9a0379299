import Dataflow.Description.Build
import Dataflow.Error
import Dataflow.Json.Basic
import Dataflow.Json.Reader

set_option autoImplicit false

namespace Dataflow

def BundleInfo.fieldNames : List String := ["bundle_index", "operation_index", "engine", "bundle_type"]

def BundleInfo.ofJson? (json : Json) : Option BundleInfo := do
  let fields ← json.record? BundleInfo.fieldNames
  return {
    bundleIndex := ← Json.required? fields "bundle_index" Json.word32?
    operationIndex := ← Json.defaulted? fields "operation_index" 0 Json.word32?
    engine := ← Json.defaulted? fields "engine" .none (Json.name? Engine.ofName?)
    bundleType := ← Json.defaulted? fields "bundle_type" .undefined (Json.name? BundleType.ofName?) }

def BundleInfo.toJson (info : BundleInfo) : Json := .record [
  ("bundle_index", .natural info.bundleIndex.toNat),
  ("operation_index", .natural info.operationIndex.toNat),
  ("engine", .text info.engine.name),
  ("bundle_type", .text info.bundleType.name)]

namespace TensorDescription

def fieldNames : List String := ["name", "size_bytes", "alias_of", "offset"]

def ofJson? (json : Json) : Option TensorDescription := do
  let fields ← json.record? fieldNames
  return {
    name := ← Json.required? fields "name" Json.string?
    sizeBytes := ← Json.defaulted? fields "size_bytes" 0 Json.word64?
    aliasOf := ← Json.defaulted? fields "alias_of" none (Json.option? Json.string?)
    offset := ← Json.defaulted? fields "offset" 0 Json.word64? }

def toJson (tensor : TensorDescription) : Json := .record [
  ("name", .text tensor.name),
  ("size_bytes", .natural tensor.sizeBytes.toNat),
  ("alias_of", .ofOption .text tensor.aliasOf),
  ("offset", .natural tensor.offset.toNat)]

end TensorDescription

namespace NodeDescription

def fieldNames : List String :=
  ["name", "kind", "engine", "debug", "parent_id", "inputs", "outputs", "bundle", "barriers",
    "range_index", "flash_attention"]

def ofJson? (json : Json) : Option NodeDescription := do
  let fields ← json.record? fieldNames
  return {
    name := ← Json.required? fields "name" Json.string?
    kind := ← Json.defaulted? fields "kind" .compute (Json.name? NodeKind.ofName?)
    engine := ← Json.defaulted? fields "engine" .none (Json.name? Engine.ofName?)
    debug := ← Json.defaulted? fields "debug" false Json.bool?
    parentId := ← Json.defaulted? fields "parent_id" none (Json.option? Json.word64?)
    inputs := ← Json.defaulted? fields "inputs" [] (Json.list? Json.string?)
    outputs := ← Json.defaulted? fields "outputs" [] (Json.list? Json.string?)
    bundle := ← Json.defaulted? fields "bundle" none (Json.option? BundleInfo.ofJson?)
    barriers := ← Json.defaulted? fields "barriers" [] (Json.list? Json.string?)
    rangeIndex := ← Json.defaulted? fields "range_index" none (Json.option? Json.word32?)
    flashAttention := ← Json.defaulted? fields "flash_attention" false Json.bool? }

def toJson (node : NodeDescription) : Json := .record [
  ("name", .text node.name),
  ("kind", .text node.kind.name),
  ("engine", .text node.engine.name),
  ("debug", .bool node.debug),
  ("parent_id", .ofOption (fun parent => .natural parent.toNat) node.parentId),
  ("inputs", .ofList .text node.inputs),
  ("outputs", .ofList .text node.outputs),
  ("bundle", .ofOption BundleInfo.toJson node.bundle),
  ("barriers", .ofList .text node.barriers),
  ("range_index", .ofOption (fun index => .natural index.toNat) node.rangeIndex),
  ("flash_attention", .bool node.flashAttention)]

end NodeDescription

namespace ControlEdgeDescription

def fieldNames : List String := ["from", "to", "edge_type"]

def ofJson? (json : Json) : Option ControlEdgeDescription := do
  let fields ← json.record? fieldNames
  return {
    source := ← Json.required? fields "from" Json.string?
    target := ← Json.required? fields "to" Json.string?
    type := ← Json.defaulted? fields "edge_type" .schedule (Json.name? ControlType.ofName?) }

def toJson (edge : ControlEdgeDescription) : Json := .record [
  ("from", .text edge.source),
  ("to", .text edge.target),
  ("edge_type", .text edge.type.name)]

end ControlEdgeDescription

namespace GraphDescription

def fieldNames : List String := ["tensors", "nodes", "control_edges"]

def ofJson? (json : Json) : Option GraphDescription := do
  let fields ← json.record? fieldNames
  return {
    tensors := ← Json.defaulted? fields "tensors" [] (Json.list? TensorDescription.ofJson?)
    nodes := ← Json.required? fields "nodes" (Json.list? NodeDescription.ofJson?)
    controlEdges := ←
      Json.defaulted? fields "control_edges" [] (Json.list? ControlEdgeDescription.ofJson?) }

def toJson (description : GraphDescription) : Json := .record [
  ("tensors", .ofList TensorDescription.toJson description.tensors),
  ("nodes", .ofList NodeDescription.toJson description.nodes),
  ("control_edges", .ofList ControlEdgeDescription.toJson description.controlEdges)]

def ofJson (json : Json) : Except GraphError GraphDescription :=
  match ofJson? json with
  | some description => .ok description
  | none => .error (.invalidDescription .unreadable)

def parseWith (read? : String → Option Json) (source : String) : Except GraphError GraphDescription :=
  match read? source with
  | some json => ofJson json
  | none => .error (.invalidDescription .unreadable)

def parse (source : String) : Except GraphError GraphDescription := parseWith Json.parse? source

end GraphDescription

end Dataflow
