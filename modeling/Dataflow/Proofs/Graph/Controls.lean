import Dataflow.Proofs.Graph.Alias
import Dataflow.Proofs.Graph.Relation

set_option autoImplicit false

namespace Dataflow.Graph

-- Each pair was joined by a control tensor at a time when no path led back.
inductive GainsControls (type : ControlType) (graph : Graph) : List (NodeId × NodeId) → Graph → Prop
  | nothing : GainsControls type graph [] graph
  | more {before : Graph} {pairs : List (NodeId × NodeId)} {blocking blocked : NodeId}
      (gained : GainsControls type graph pairs before) (differ : blocking ≠ blocked)
      (blockingThere : blocking ∈ before.nodeIds) (blockedThere : blocked ∈ before.nodeIds)
      (apart : before.reaches blocked blocking = false) :
      GainsControls type graph (pairs ++ [(blocking, blocked)]) (before.withControl blocking blocked type)

variable {graph after : Graph} {type : ControlType} {pairs : List (NodeId × NodeId)}

theorem view?_withControl (linked : graph.Linked) (blocking blocked : NodeId) (type : ControlType) :
    (graph.withControl blocking blocked type).view? = graph.view? := by
  funext t
  rw [view?, view?, get?_tensors_withControl]
  by_cases new : t = ⟨graph.nextTensor⟩
  next => rw [if_pos new, new, nextTensor_absent linked]; rfl
  next => rw [if_neg new]

theorem chainOffsets_congr {other : Graph} (same : other.view? = graph.view?) :
    other.chainOffsets = graph.chainOffsets := by
  funext links
  induction links with
  | zero => rfl
  | succ links ih =>
    funext t
    rw [chainOffsets, chainOffsets, same, ih]

namespace GainsControls

theorem consistent (gains : GainsControls type graph pairs after) (consistent : graph.Consistent) :
    after.Consistent := by
  induction gains with
  | nothing => exact consistent
  | more _ _ blockingThere blockedThere _ ih => exact ih.withControl type blockingThere blockedThere

theorem eq_foldl (gains : GainsControls type graph pairs after) :
    after = pairs.foldl (fun graph pair => graph.withControl pair.1 pair.2 type) graph := by
  induction gains with
  | nothing => rfl
  | more _ _ _ _ _ ih => rw [List.foldl_append, ← ih]; rfl

theorem nodeIds_eq (gains : GainsControls type graph pairs after) : after.nodeIds = graph.nodeIds := by
  induction gains with
  | nothing => rfl
  | more _ _ _ _ _ ih => rw [nodeIds_withControl, ih]

theorem size_eq (gains : GainsControls type graph pairs after) : after.size = graph.size := by
  rw [← length_nodeIds, gains.nodeIds_eq, length_nodeIds]

theorem acyclic_iff (gains : GainsControls type graph pairs after) (consistent : graph.Consistent) :
    Acyclic (after.Blocks .both) ↔ Acyclic (graph.Blocks .both) := by
  induction gains with
  | nothing => exact Iff.rfl
  | more gained differ blockingThere blockedThere apart ih =>
    exact (acyclic_withControl (gained.consistent consistent).toLinked type differ blockingThere blockedThere apart).trans ih

theorem blocks_iff (gains : GainsControls type graph pairs after) (consistent : graph.Consistent)
    (source target : NodeId) :
    after.Blocks .both source target ↔ graph.Blocks .both source target ∨ (source, target) ∈ pairs := by
  induction gains with
  | nothing => simp
  | more gained differ blockingThere blockedThere _ ih =>
    rw [blocks_withControl (gained.consistent consistent).toLinked type differ blockingThere blockedThere, ih]
    simp [or_assoc]

theorem feeds_iff (gains : GainsControls type graph pairs after) (consistent : graph.Consistent)
    (source target : NodeId) :
    after.Feeds .both source target ↔ graph.Feeds .both source target ∨ (source, target) ∈ pairs := by
  induction gains with
  | nothing => simp
  | more gained _ _ _ _ ih =>
    rw [feeds_withControl (gained.consistent consistent).toLinked, ih]
    simp [or_assoc]

theorem view?_eq (gains : GainsControls type graph pairs after) (consistent : graph.Consistent) :
    after.view? = graph.view? := by
  induction gains with
  | nothing => rfl
  | more gained _ _ _ _ ih =>
    rw [view?_withControl (gained.consistent consistent).toLinked, ih]

theorem offsetsFit (gains : GainsControls type graph pairs after) (consistent : graph.Consistent)
    (fits : graph.OffsetsFit) : after.OffsetsFit := by
  intro links t
  rw [chainOffsets_congr (gains.view?_eq consistent)]
  exact fits links t

theorem get?_tensors (gains : GainsControls type graph pairs after) {t : TensorId} {tensor : Tensor}
    (consistent : graph.Consistent) (found : graph.tensors.get? t = some tensor) :
    after.tensors.get? t = some tensor := by
  induction gains with
  | nothing => exact found
  | more gained _ _ _ _ ih =>
    rw [get?_tensors_withControl, if_neg, ih]
    intro new
    rw [new, nextTensor_absent (gained.consistent consistent).toLinked] at ih
    cases ih

theorem get?_nodes (gains : GainsControls type graph pairs after) {id : NodeId} {node : Node}
    (found : after.nodes.get? id = some node) : ∃ before, graph.nodes.get? id = some before ∧
      ∃ controlInputs controlOutputs,
        node = { before with controlInputs := controlInputs, controlOutputs := controlOutputs } := by
  induction gains generalizing node with
  | nothing => exact ⟨node, found, _, _, rfl⟩
  | more _ _ _ _ _ ih =>
    rw [get?_nodes_withControl, Option.map_eq_some_iff] at found
    obtain ⟨between, found, rfl⟩ := found
    obtain ⟨before, present, _, _, rfl⟩ := ih found
    exact ⟨before, present, _, _, rfl⟩

end GainsControls

end Dataflow.Graph
