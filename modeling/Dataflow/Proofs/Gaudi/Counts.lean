import Dataflow.Proofs.Graph.Relation
import Dataflow.Schedule.Gaudi
import Mathlib.Algebra.GroupWithZero.Nat

set_option autoImplicit false

namespace Dataflow.Gaudi

variable {graph : Graph} {deps : Dependencies}

def members (graph : Graph) (bundle : UInt32) : List NodeId :=
  graph.nodeIds.filter fun node => graph.bundleOf node = some bundle

def remainingMembers (graph : Graph) (placed : List NodeId) (bundle : UInt32) : Nat :=
  (members graph bundle).countP fun node => node ∉ placed

def outsideBlockers (graph : Graph) (deps : Dependencies) (placed : List NodeId) (bundle : UInt32)
    (member : NodeId) : Nat :=
  (deps.blockers member).countP fun blocking => graph.bundleOf blocking ≠ some bundle && blocking ∉ placed

def openPairs (graph : Graph) (deps : Dependencies) (placed : List NodeId) (bundle : UInt32) : Nat :=
  ((members graph bundle).map (outsideBlockers graph deps placed bundle)).sum

theorem known_of_bundleOf {node : NodeId} {bundle : UInt32} (bundled : graph.bundleOf node = some bundle) :
    node ∈ graph.nodeIds := by
  obtain ⟨record, found, -⟩ := Option.bind_eq_some_iff.mp bundled
  exact (Graph.mem_nodeIds_iff node).mpr ⟨record, found⟩

theorem mem_members {node : NodeId} {bundle : UInt32} :
    node ∈ members graph bundle ↔ graph.bundleOf node = some bundle := by
  simp only [members, List.mem_filter, decide_eq_true_iff]
  exact ⟨And.right, fun bundled => ⟨known_of_bundleOf bundled, bundled⟩⟩

theorem nodup_members (bundle : UInt32) : (members graph bundle).Nodup :=
  Graph.nodup_nodeIds.filter _

theorem openPairs_eq_zero_iff {placed : List NodeId} {bundle : UInt32} :
    openPairs graph deps placed bundle = 0 ↔ ∀ node blocking, graph.bundleOf node = some bundle →
      blocking ∈ deps.blockers node → graph.bundleOf blocking ≠ some bundle → blocking ∈ placed := by
  simp only [openPairs, List.sum_eq_zero_iff_forall_eq_nat, List.mem_map, forall_exists_index, and_imp,
    forall_apply_eq_imp_iff₂, mem_members, outsideBlockers, List.countP_eq_zero]
  constructor
  next =>
    intro none node blocking bundled blocks outside
    simpa [outside] using none node bundled blocking blocks
  next =>
    intro all node bundled blocking blocks
    by_cases outside : graph.bundleOf blocking = some bundle
    next => simp [outside]
    next => simp [outside, all node blocking bundled blocks outside]

section

variable (sound : deps.network.Sound)
include sound

theorem outsideBlockers_snoc {placed : List NodeId} {node : NodeId} (fresh : node ∉ placed)
    (bundle : UInt32) (member : NodeId) :
    outsideBlockers graph deps placed bundle member =
      outsideBlockers graph deps (placed ++ [node]) bundle member +
        if node ∈ deps.blockers member ∧ graph.bundleOf node ≠ some bundle then 1 else 0 := by
  have filtered (placed : List NodeId) : outsideBlockers graph deps placed bundle member =
      ((deps.blockers member).filter fun other => graph.bundleOf other ≠ some bundle).countP (· ∉ placed) := by
    rw [outsideBlockers, List.countP_filter]
    simp [Bool.and_comm]
  have distinct : (deps.blockers member).Nodup := sound.nodup_blockers member
  rw [filtered, filtered, List.countP_unplaced_snoc (distinct.filter _) fresh]
  simp

theorem openPairs_snoc {placed : List NodeId} {node : NodeId} (fresh : node ∉ placed) (bundle : UInt32) :
    openPairs graph deps placed bundle = openPairs graph deps (placed ++ [node]) bundle +
      if graph.bundleOf node = some bundle then 0
      else (deps.dependents node).countP fun other => graph.bundleOf other = some bundle := by
  rw [openPairs, List.sum_map_add_countP (p := fun member =>
    node ∈ deps.blockers member ∧ graph.bundleOf node ≠ some bundle) (by
      intro member _
      simpa using outsideBlockers_snoc sound fresh bundle member), ← openPairs]
  split
  next inside => simp [inside]
  next outside =>
    -- Both count the members of the bundle that wait for the node, each of them once.
    have same : ((members graph bundle).filter fun member => node ∈ deps.blockers member).Perm
        ((deps.dependents node).filter fun other => graph.bundleOf other = some bundle) := by
      have distinct : (deps.dependents node).Nodup := sound.nodup_dependents node
      refine (List.perm_ext_iff_of_nodup ((nodup_members bundle).filter _)
        (distinct.filter _)).mpr fun other => ?_
      have converse : node ∈ deps.blockers other ↔ other ∈ deps.dependents node := sound.converse
      simp only [List.mem_filter, mem_members, decide_eq_true_iff, converse, and_comm]
    simpa [List.countP_eq_length_filter, outside] using same.length_eq

end

theorem remainingMembers_snoc {placed : List NodeId} {node : NodeId} (fresh : node ∉ placed) (bundle : UInt32) :
    remainingMembers graph placed bundle = remainingMembers graph (placed ++ [node]) bundle +
      if graph.bundleOf node = some bundle then 1 else 0 := by
  rw [remainingMembers, List.countP_unplaced_snoc (nodup_members bundle) fresh, remainingMembers]
  simp only [mem_members]

end Dataflow.Gaudi
