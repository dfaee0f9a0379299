import Dataflow.Proofs.Description.Build
import Dataflow.Proofs.Graph.Relation
import Dataflow.Proofs.Workspace.Basic

set_option autoImplicit false

namespace Dataflow

open Relation

def Dependencies.Blocked (table : Dependencies) (blocking blocked : NodeId) : Prop :=
  blocked ∈ table.dependents blocking

namespace Graph

variable {graph : Graph}

theorem blocked_dependencies (linked : graph.Linked) (filter : EdgeFilter) :
    (graph.dependencies filter).Blocked = graph.Blocks filter :=
  funext fun _ => funext fun _ => propext (mem_dependents_iff linked)

theorem known_of_path {filter : EdgeFilter} {source target : NodeId} (differ : source ≠ target)
    (path : ReflTransGen (graph.Blocks filter) source target) :
    source ∈ graph.nodeIds ∧ target ∈ graph.nodeIds := by
  constructor
  next =>
    rcases path.cases_head with same | ⟨_, blocks, -⟩
    next => exact absurd same differ
    next => exact blocks.2.1
  next =>
    rcases path.cases_tail with same | ⟨_, -, blocks⟩
    next => exact absurd same.symm differ
    next => exact blocks.2.2.1

theorem addControlEdge_eq_cycleDetected_iff (linked : graph.Linked) {blocking blocked : NodeId}
    (type : ControlType) (differ : blocking ≠ blocked) :
    graph.addControlEdge blocking blocked type = .error (.cycleDetected blocking blocked) ↔
      ReflTransGen (graph.Blocks .both) blocked blocking := by
  by_cases known : blocked ∈ graph.nodeIds ∧ blocking ∈ graph.nodeIds
  next =>
    rw [addControlEdge_of_known type differ known.2 known.1, ← reaches_iff linked known.1]
    cases graph.reaches blocked blocking <;> simp
  next =>
    -- A missing end is refused as missing, and no path starts or ends there.
    refine iff_of_false ?_ fun path => known (known_of_path (Ne.symm differ) path)
    rw [addControlEdge_eq, if_neg differ]
    simp only [← contains_iff] at known
    cases left : graph.contains blocking <;> cases right : graph.contains blocked <;> simp_all

theorem addControlEdge_extends_dependencies (consistent : graph.Consistent) :
    (∀ source ∈ graph.nodeIds, ∀ target ∈ graph.nodeIds, graph.reaches source target = true ↔
        ReflTransGen (graph.dependencies .both).Blocked source target) ∧
      (∀ blocking blocked type error, graph.addControlEdge blocking blocked type = .error error →
        ∀ plane, Workspace.addControlEdge blocking blocked type { graph, plane } =
          .error error { graph, plane }) ∧
      ∀ blocking blocked type, blocking ≠ blocked →
        (graph.addControlEdge blocking blocked type = .error (.cycleDetected blocking blocked) ↔
          ReflTransGen (fun a b => (graph.dependencies .both).Blocked a b ∨ a = blocking ∧ b = blocked)
            blocked blocking) ∧
        (blocking ∈ graph.nodeIds → blocked ∈ graph.nodeIds →
          graph.addControlEdge blocking blocked type ≠ .error (.cycleDetected blocking blocked) →
          ∃ t after, graph.addControlEdge blocking blocked type = .ok (t, after) ∧
            (∀ a b, (after.dependencies .both).Blocked a b ↔
              (graph.dependencies .both).Blocked a b ∨ a = blocking ∧ b = blocked) ∧
            (Acyclic (graph.dependencies .both).Blocked → Acyclic (after.dependencies .both).Blocked)) := by
  have linked := consistent.toLinked
  rw [blocked_dependencies linked]
  refine ⟨fun source known target _ => reaches_iff linked known target, ?_, ?_⟩
  next =>
    intro blocking blocked type error refused plane
    unfold Workspace.addControlEdge
    exact stateful_bind_of_error _ (Workspace.onGraph_of_error refused)
  next =>
    intro blocking blocked type differ
    have refused_iff := addControlEdge_eq_cycleDetected_iff linked type differ
    refine ⟨refused_iff.trans Acyclic.returns_insert_edge_iff.symm, ?_⟩
    intro blockingThere blockedThere accepted
    have apart : graph.reaches blocked blocking = false := by
      rw [← Bool.not_eq_true, reaches_iff linked blockedThere]
      exact fun path => accepted (refused_iff.mpr path)
    have extended := linked.withControl type blockingThere blockedThere
    refine ⟨⟨graph.nextTensor⟩, graph.withControl blocking blocked type, ?_, ?_, ?_⟩
    next => rw [addControlEdge_of_known type differ blockingThere blockedThere, apart]; rfl
    next =>
      rw [blocked_dependencies extended]
      exact blocks_withControl linked type differ blockingThere blockedThere
    next =>
      rw [blocked_dependencies extended]
      exact (acyclic_withControl linked type differ blockingThere blockedThere apart).mpr

def barred : GraphDescription :=
  { tensors := [{ name := "x" }]
    nodes := [{ name := "load", outputs := ["x"] }, { name := "scale", inputs := ["x"] },
      { name := "free", barriers := ["scale"] }] }

theorem addControlEdge_barred :
    barred.build = .ok barred.graph ∧
      barred.graph.addControlEdge ⟨2⟩ ⟨0⟩ .memory = .error (.cycleDetected ⟨2⟩ ⟨0⟩) ∧
      ∃ t after, barred.graph.addControlEdge ⟨0⟩ ⟨2⟩ .memory = .ok (t, after) ∧
        Acyclic (after.dependencies .both).Blocked := by
  have built : barred.build = .ok barred.graph := rfl
  have consistent := barred.consistent_graph
  obtain ⟨-, -, edge⟩ := addControlEdge_extends_dependencies consistent
  have around := edge ⟨2⟩ ⟨0⟩ .memory (by decide)
  have along := edge ⟨0⟩ ⟨2⟩ .memory (by decide)
  have acyclic : Acyclic (barred.graph.dependencies .both).Blocked := by
    rw [blocked_dependencies consistent.toLinked]
    exact acyclic_of_numbered (by decide) (by decide)
  -- The barrier is a step of the relation like the tensor before it.
  have read : (barred.graph.dependencies .both).Blocked ⟨0⟩ ⟨1⟩ := by unfold Dependencies.Blocked; decide
  have freed : (barred.graph.dependencies .both).Blocked ⟨1⟩ ⟨2⟩ := by unfold Dependencies.Blocked; decide
  have path : ReflTransGen (barred.graph.dependencies .both).Blocked ⟨0⟩ ⟨2⟩ := (ReflTransGen.single read).tail freed
  refine ⟨built, around.1.mpr (Acyclic.returns_insert_edge_iff.mpr path), ?_⟩
  obtain ⟨t, after, added, -, kept⟩ := along.2 (by decide) (by decide) (by nofun)
  exact ⟨t, after, added, kept acyclic⟩

end Graph

end Dataflow
