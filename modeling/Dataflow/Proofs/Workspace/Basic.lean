import Dataflow.Proofs.Plane.Relationship
import Dataflow.Workspace.Basic

set_option autoImplicit false

namespace Dataflow

def Workspace.Tracks (workspace : Workspace) : Prop :=
  ∀ plane, workspace.plane = some plane → Plane.Follows workspace.graph plane

namespace Workspace

variable {workspace : Workspace}

theorem onGraph_of_ok {α : Type} {edit : Graph → Except GraphError (α × Graph)} {answer : α} {graph : Graph}
    (edited : edit workspace.graph = .ok (answer, graph)) :
    onGraph edit workspace = .ok answer { workspace with graph } := by
  unfold onGraph
  rw [stateful_get_bind]
  rw [edited]
  rfl

theorem onGraph_of_error {α : Type} {edit : Graph → Except GraphError (α × Graph)} {error : GraphError}
    (failed : edit workspace.graph = .error error) : onGraph edit workspace = .error error workspace := by
  unfold onGraph
  rw [stateful_get_bind]
  rw [failed]
  rfl

theorem onPlane_of_none (update : Graph → PlaneM Unit) (none : workspace.plane = none) :
    onPlane update workspace = .ok () workspace := by
  unfold onPlane
  rw [stateful_get_bind]
  rw [none]
  rfl

theorem onPlane_of_ok {update : Graph → PlaneM Unit} {plane after : Plane} (some : workspace.plane = some plane)
    (updated : update workspace.graph plane = .ok () after) :
    onPlane update workspace = .ok () { workspace with plane := Option.some after } := by
  unfold onPlane
  rw [stateful_get_bind]
  rw [some]
  simp only [updated]
  rfl

theorem onPlane_of_error {update : Graph → PlaneM Unit} {plane after : Plane} {error : GraphError}
    (some : workspace.plane = some plane) (failed : update workspace.graph plane = .error error after) :
    onPlane update workspace = .error error { workspace with plane := Option.some after } := by
  unfold onPlane
  rw [stateful_get_bind]
  rw [some]
  simp only [failed]
  rfl

theorem addControlEdge_ok (consistent : workspace.graph.Consistent) (tracks : workspace.Tracks)
    {blocking blocked : NodeId} (type : ControlType) (differ : blocking ≠ blocked)
    (blockingThere : blocking ∈ workspace.graph.nodeIds) (blockedThere : blocked ∈ workspace.graph.nodeIds)
    (apart : workspace.graph.reaches blocked blocking = false) :
    ∃ after, addControlEdge blocking blocked type workspace = .ok ⟨workspace.graph.nextTensor⟩ after ∧
      after.graph = workspace.graph.withControl blocking blocked type ∧ after.Tracks ∧
      (workspace.plane = none → after.plane = none) := by
  have edited : workspace.graph.addControlEdge blocking blocked type =
      .ok (⟨workspace.graph.nextTensor⟩, workspace.graph.withControl blocking blocked type) := by
    rw [Graph.addControlEdge_of_known type differ blockingThere blockedThere, apart]
    rfl
  unfold addControlEdge
  rw [stateful_bind_of_ok _ (onGraph_of_ok edited)]
  cases attached : workspace.plane with
  | none =>
    rw [stateful_bind_of_ok _ (onPlane_of_none _ rfl)]
    exact ⟨_, rfl, rfl, fun plane none => (nomatch none), fun _ => rfl⟩
  | some plane =>
    have linked := (consistent.withControl type blockingThere blockedThere).toLinked
    obtain ⟨followed, updated, follows, -⟩ :=
      (tracks plane attached).addRelationship_ok type linked blockingThere blockedThere
    rw [stateful_bind_of_ok _ (onPlane_of_ok rfl updated)]
    refine ⟨_, rfl, rfl, ?_, fun none => nomatch none⟩
    rintro _ ⟨⟩
    exact follows

end Workspace

end Dataflow
