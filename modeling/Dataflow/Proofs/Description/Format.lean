import Dataflow.Description.Format
import Dataflow.Proofs.Json.Record
import Dataflow.Proofs.Results

set_option autoImplicit false

namespace Dataflow

open Json (Writing Slot Readable)

theorem NodeKind.readable : Readable (.exact fun kind => .text (name kind))
    (fun kind => .text (name kind)) (Json.name? ofName?) :=
  Json.readable_name fun kind => by cases kind <;> rfl

theorem Engine.readable : Readable (.exact fun engine => .text (name engine))
    (fun engine => .text (name engine)) (Json.name? ofName?) :=
  Json.readable_name fun engine => by cases engine <;> rfl

theorem BundleType.readable : Readable (.exact fun type => .text (name type))
    (fun type => .text (name type)) (Json.name? ofName?) :=
  Json.readable_name fun type => by cases type <;> rfl

theorem ControlType.readable : Readable (.exact fun type => .text (name type))
    (fun type => .text (name type)) (Json.name? ofName?) :=
  Json.readable_name fun type => by cases type <;> rfl

namespace BundleInfo

def slots (info : BundleInfo) : List Slot := [
  .required "bundle_index" (.exact fun index => .natural index.toNat) info.bundleIndex,
  .defaulted "operation_index" 0 (.exact fun index => .natural index.toNat) info.operationIndex,
  .defaulted "engine" .none (.exact fun engine => .text engine.name) info.engine,
  .defaulted "bundle_type" .undefined (.exact fun type => .text type.name) info.bundleType]

theorem readable : Readable (.record slots) toJson ofJson? := by
  apply Json.readable_record fieldNames (by decide) fun _ => rfl
  case full => exact fun _ => ⟨_, rfl, _, .refl _, .keep rfl <| .keep rfl <| .keep rfl <| .keep rfl .nil⟩
  case plain =>
    intro info
    simp only [slots, List.forall_mem_cons]
    exact ⟨fun _ => Json.readable_word32.plain, fun _ => Json.readable_word32.plain,
      fun _ => Engine.readable.plain, fun _ => BundleType.readable.plain, by simp⟩
  case decodes =>
    intro info fields written distinct known
    have bundleIndex : Json.required? fields "bundle_index" Json.word32? = some info.bundleIndex :=
      written.required? distinct Json.readable_word32 (by simp [slots])
    have operationIndex :
        Json.defaulted? fields "operation_index" 0 Json.word32? = some info.operationIndex :=
      written.defaulted? distinct Json.readable_word32 (by simp [slots])
    have engine :
        Json.defaulted? fields "engine" .none (Json.name? Engine.ofName?) = some info.engine :=
      written.defaulted? distinct Engine.readable (by simp [slots])
    have bundleType : Json.defaulted? fields "bundle_type" .undefined (Json.name? BundleType.ofName?) =
        some info.bundleType :=
      written.defaulted? distinct BundleType.readable (by simp [slots])
    exact bind_of_eq_some known <| bind_of_eq_some bundleIndex <| bind_of_eq_some operationIndex <|
      bind_of_eq_some engine <| bind_of_eq_some bundleType <| rfl

end BundleInfo

namespace TensorDescription

def slots (tensor : TensorDescription) : List Slot := [
  .required "name" (.exact .text) tensor.name,
  .defaulted "size_bytes" 0 (.exact fun size => .natural size.toNat) tensor.sizeBytes,
  .defaulted "alias_of" none (.option (.exact .text)) tensor.aliasOf,
  .defaulted "offset" 0 (.exact fun offset => .natural offset.toNat) tensor.offset]

theorem readable : Readable (.record slots) toJson ofJson? := by
  have optional := Json.readable_text.option rfl
  apply Json.readable_record fieldNames (by decide) fun _ => rfl
  case full =>
    exact fun _ => ⟨_, rfl, _, .refl _, .keep rfl <| .keep rfl <| .keep (optional.full _) <| .keep rfl .nil⟩
  case plain =>
    intro tensor
    simp only [slots, List.forall_mem_cons]
    exact ⟨fun _ => Json.readable_text.plain, fun _ => Json.readable_word64.plain,
      fun _ => optional.plain, fun _ => Json.readable_word64.plain, by simp⟩
  case decodes =>
    intro tensor fields written distinct known
    have name : Json.required? fields "name" Json.string? = some tensor.name :=
      written.required? distinct Json.readable_text (by simp [slots])
    have sizeBytes : Json.defaulted? fields "size_bytes" 0 Json.word64? = some tensor.sizeBytes :=
      written.defaulted? distinct Json.readable_word64 (by simp [slots])
    have aliasOf :
        Json.defaulted? fields "alias_of" none (Json.option? Json.string?) = some tensor.aliasOf :=
      written.defaulted? distinct optional (by simp [slots])
    have offset : Json.defaulted? fields "offset" 0 Json.word64? = some tensor.offset :=
      written.defaulted? distinct Json.readable_word64 (by simp [slots])
    exact bind_of_eq_some known <| bind_of_eq_some name <| bind_of_eq_some sizeBytes <|
      bind_of_eq_some aliasOf <| bind_of_eq_some offset <| rfl

end TensorDescription

namespace NodeDescription

def slots (node : NodeDescription) : List Slot := [
  .required "name" (.exact .text) node.name,
  .defaulted "kind" .compute (.exact fun kind => .text kind.name) node.kind,
  .defaulted "engine" .none (.exact fun engine => .text engine.name) node.engine,
  .defaulted "debug" false (.exact .bool) node.debug,
  .defaulted "parent_id" none (.option (.exact fun parent => .natural parent.toNat)) node.parentId,
  .defaulted "inputs" [] (.list (.exact .text)) node.inputs,
  .defaulted "outputs" [] (.list (.exact .text)) node.outputs,
  .defaulted "bundle" none (.option (.record BundleInfo.slots)) node.bundle,
  .defaulted "barriers" [] (.list (.exact .text)) node.barriers,
  .defaulted "range_index" none (.option (.exact fun index => .natural index.toNat)) node.rangeIndex,
  .defaulted "flash_attention" false (.exact .bool) node.flashAttention]

theorem readable : Readable (.record slots) toJson ofJson? := by
  have texts := Json.readable_text.list
  have optional64 := Json.readable_word64.option rfl
  have optional32 := Json.readable_word32.option rfl
  have optionalBundle := BundleInfo.readable.option rfl
  apply Json.readable_record fieldNames (by decide) fun _ => rfl
  case full =>
    exact fun _ => ⟨_, rfl, _, .refl _, .keep rfl <| .keep rfl <| .keep rfl <| .keep rfl <|
      .keep (optional64.full _) <| .keep (texts.full _) <| .keep (texts.full _) <|
      .keep (optionalBundle.full _) <| .keep (texts.full _) <| .keep (optional32.full _) <|
      .keep rfl .nil⟩
  case plain =>
    intro node
    simp only [slots, List.forall_mem_cons]
    exact ⟨fun _ => Json.readable_text.plain, fun _ => NodeKind.readable.plain,
      fun _ => Engine.readable.plain, fun _ => Json.readable_bool.plain, fun _ => optional64.plain,
      fun _ => texts.plain, fun _ => texts.plain, fun _ => optionalBundle.plain, fun _ => texts.plain,
      fun _ => optional32.plain, fun _ => Json.readable_bool.plain, by simp⟩
  case decodes =>
    intro node fields written distinct known
    have name : Json.required? fields "name" Json.string? = some node.name :=
      written.required? distinct Json.readable_text (by simp [slots])
    have kind : Json.defaulted? fields "kind" .compute (Json.name? NodeKind.ofName?) = some node.kind :=
      written.defaulted? distinct NodeKind.readable (by simp [slots])
    have engine :
        Json.defaulted? fields "engine" .none (Json.name? Engine.ofName?) = some node.engine :=
      written.defaulted? distinct Engine.readable (by simp [slots])
    have debug : Json.defaulted? fields "debug" false Json.bool? = some node.debug :=
      written.defaulted? distinct Json.readable_bool (by simp [slots])
    have parentId :
        Json.defaulted? fields "parent_id" none (Json.option? Json.word64?) = some node.parentId :=
      written.defaulted? distinct optional64 (by simp [slots])
    have inputs : Json.defaulted? fields "inputs" [] (Json.list? Json.string?) = some node.inputs :=
      written.defaulted? distinct texts (by simp [slots])
    have outputs : Json.defaulted? fields "outputs" [] (Json.list? Json.string?) = some node.outputs :=
      written.defaulted? distinct texts (by simp [slots])
    have bundle :
        Json.defaulted? fields "bundle" none (Json.option? BundleInfo.ofJson?) = some node.bundle :=
      written.defaulted? distinct optionalBundle (by simp [slots])
    have barriers : Json.defaulted? fields "barriers" [] (Json.list? Json.string?) = some node.barriers :=
      written.defaulted? distinct texts (by simp [slots])
    have rangeIndex :
        Json.defaulted? fields "range_index" none (Json.option? Json.word32?) = some node.rangeIndex :=
      written.defaulted? distinct optional32 (by simp [slots])
    have flashAttention :
        Json.defaulted? fields "flash_attention" false Json.bool? = some node.flashAttention :=
      written.defaulted? distinct Json.readable_bool (by simp [slots])
    exact bind_of_eq_some known <| bind_of_eq_some name <| bind_of_eq_some kind <|
      bind_of_eq_some engine <| bind_of_eq_some debug <| bind_of_eq_some parentId <|
      bind_of_eq_some inputs <| bind_of_eq_some outputs <| bind_of_eq_some bundle <|
      bind_of_eq_some barriers <| bind_of_eq_some rangeIndex <| bind_of_eq_some flashAttention <|
      rfl

end NodeDescription

namespace ControlEdgeDescription

def slots (edge : ControlEdgeDescription) : List Slot := [
  .required "from" (.exact .text) edge.source,
  .required "to" (.exact .text) edge.target,
  .defaulted "edge_type" .schedule (.exact fun type => .text type.name) edge.type]

theorem readable : Readable (.record slots) toJson ofJson? := by
  apply Json.readable_record fieldNames (by decide) fun _ => rfl
  case full => exact fun _ => ⟨_, rfl, _, .refl _, .keep rfl <| .keep rfl <| .keep rfl .nil⟩
  case plain =>
    intro edge
    simp only [slots, List.forall_mem_cons]
    exact ⟨fun _ => Json.readable_text.plain, fun _ => Json.readable_text.plain,
      fun _ => ControlType.readable.plain, by simp⟩
  case decodes =>
    intro edge fields written distinct known
    have source : Json.required? fields "from" Json.string? = some edge.source :=
      written.required? distinct Json.readable_text (by simp [slots])
    have target : Json.required? fields "to" Json.string? = some edge.target :=
      written.required? distinct Json.readable_text (by simp [slots])
    have type : Json.defaulted? fields "edge_type" .schedule (Json.name? ControlType.ofName?) =
        some edge.type :=
      written.defaulted? distinct ControlType.readable (by simp [slots])
    exact bind_of_eq_some known <| bind_of_eq_some source <| bind_of_eq_some target <|
      bind_of_eq_some type <| rfl

end ControlEdgeDescription

namespace GraphDescription

def slots (description : GraphDescription) : List Slot := [
  .defaulted "tensors" [] (.list (.record TensorDescription.slots)) description.tensors,
  .required "nodes" (.list (.record NodeDescription.slots)) description.nodes,
  .defaulted "control_edges" [] (.list (.record ControlEdgeDescription.slots)) description.controlEdges]

theorem readable : Readable (.record slots) toJson ofJson? := by
  have tensorList := TensorDescription.readable.list
  have nodeList := NodeDescription.readable.list
  have edgeList := ControlEdgeDescription.readable.list
  apply Json.readable_record fieldNames (by decide) fun _ => rfl
  case full =>
    exact fun _ => ⟨_, rfl, _, .refl _, .keep (tensorList.full _) <| .keep (nodeList.full _) <|
      .keep (edgeList.full _) .nil⟩
  case plain =>
    intro description
    simp only [slots, List.forall_mem_cons]
    exact ⟨fun _ => tensorList.plain, fun _ => nodeList.plain, fun _ => edgeList.plain, by simp⟩
  case decodes =>
    intro description fields written distinct known
    have tensors : Json.defaulted? fields "tensors" [] (Json.list? TensorDescription.ofJson?) =
        some description.tensors :=
      written.defaulted? distinct tensorList (by simp [slots])
    have nodes : Json.required? fields "nodes" (Json.list? NodeDescription.ofJson?) =
        some description.nodes :=
      written.required? distinct nodeList (by simp [slots])
    have controlEdges : Json.defaulted? fields "control_edges" []
        (Json.list? ControlEdgeDescription.ofJson?) = some description.controlEdges :=
      written.defaulted? distinct edgeList (by simp [slots])
    exact bind_of_eq_some known <| bind_of_eq_some tensors <| bind_of_eq_some nodes <|
      bind_of_eq_some controlEdges <| rfl

-- At any depth the fields may stand in any order, and those that hold their default may be left out.
def Writes (description : GraphDescription) (json : Json) : Prop :=
  Writing.record slots description json

theorem parseWith_of_spelledBy {read? : String → Option Json} (reads : Json.Reads read?)
    {description : GraphDescription} {json : Json} (writes : description.Writes json) {source : String}
    (spelled : json.SpelledBy source) : parseWith read? source = .ok description := by
  simp [parseWith, reads json source spelled, ofJson, readable.decodes writes]

-- The full form and every form with default fields left out, compact, indented or spelled in any other way, are read
-- back as the description, by whatever reader of JSON; the one of `parse` is such a reader.
theorem parse_inverts_writing (description : GraphDescription) :
    Json.Reads Json.parse? ∧ description.Writes description.toJson ∧
      ∀ read? : String → Option Json, Json.Reads read? → ∀ json, description.Writes json →
        parseWith read? json.render = .ok description ∧ parseWith read? json.renderIndented = .ok description ∧
          ∀ source, json.SpelledBy source → parseWith read? source = .ok description := by
  refine ⟨Json.reads_parse?, readable.full description, fun read? reads json writes => ?_⟩
  have plain := readable.plain writes
  exact ⟨parseWith_of_spelledBy reads writes plain.spelledBy_render,
    parseWith_of_spelledBy reads writes plain.spelledBy_renderIndented,
    fun source spelled => parseWith_of_spelledBy reads writes spelled⟩

theorem spellsText_face : Json.SpellsText "😀".toList "\\ud83D\\uDE00".toList := by
  -- The face is U+1F600.
  have leads : Json.SpellsUnit (0xd800 + 0x3d) "d83D".toList :=
    .digits (w := 13) (x := 8) (y := 3) (z := 13) (by decide) (by decide) (by decide) (by decide)
  have trails : Json.SpellsUnit (0xdc00 + 0x200) "DE00".toList :=
    .digits (w := 13) (x := 14) (y := 0) (z := 0) (by decide) (by decide) (by decide) (by decide)
  exact .cons (.pair (by decide) (by decide) rfl leads trails) .nil

theorem parse_face :
    parse " \x7b\"nodes\": [\x7b\"debug\":true, \"name\":\"\\ud83D\\uDE00\"\x7d]\x7d\n" =
      .ok { nodes := [{ name := "😀", debug := true }] } := by
  -- The two fields of the node stand in the other order, and all other fields are left out.
  have writes : Writes { nodes := [{ name := "😀", debug := true }] } (.record [("nodes",
      .array [.record [("debug", .bool true), ("name", .text "😀")]])]) := by
    refine ⟨_, rfl, _, .refl _, .drop rfl <| .keep ⟨_, rfl, .cons ?_ .nil⟩ <| .drop rfl .nil⟩
    exact ⟨_, rfl, _, .swap _ _ _, .keep rfl <| .drop rfl <| .drop rfl <| .keep rfl <| .drop rfl <|
      .drop rfl <| .drop rfl <| .drop rfl <| .drop rfl <| .drop rfl <| .drop rfl .nil⟩
  have debug := Json.spellsText_escape "debug".toList
  have name := Json.spellsText_escape "name".toList
  have nodes := Json.spellsText_escape "nodes".toList
  have empty := Json.blank_nil
  have node := Json.Spells.object (.more empty debug empty empty .affirmative empty
    (.last Json.blank_space name empty empty (.text spellsText_face) empty))
  have all := Json.Spells.object (.last empty nodes empty Json.blank_space
    (.array (.last empty node empty)) empty)
  obtain ⟨reads, -, inverts⟩ := parse_inverts_writing { nodes := [{ name := "😀", debug := true }] }
  exact (inverts _ reads _ writes).2.2 _
    ⟨[' '], _, ['\n'], Json.blank_space, all, Json.blank_newline 0, rfl⟩

end GraphDescription

end Dataflow
