import Dataflow.Proofs.Graph.Boundary
import Dataflow.Proofs.Workspace.Rollback

set_option autoImplicit false

namespace Dataflow

open Relation

namespace Graph

variable {graph : Graph}

theorem mapM_get_of_known {nodes : List NodeId} (known : ∀ id ∈ nodes, id ∈ graph.nodeIds) :
    ∃ found, nodes.mapM graph.get = .ok found ∧
      ∀ node, node ∈ found ↔ ∃ id ∈ nodes, graph.nodes.get? id = some node := by
  induction nodes with
  | nil => exact ⟨[], rfl, by simp⟩
  | cons id rest ih =>
    obtain ⟨found, mapped, mem_found⟩ := ih fun other member => known other (.tail _ member)
    obtain ⟨node, present⟩ := (mem_nodeIds_iff id).mp (known id (.head _))
    refine ⟨node :: found, ?_, ?_⟩
    next =>
      rw [List.mapM_cons, mapped, get, present]
      rfl
    next =>
      intro other
      simp [mem_found, present, eq_comm]

theorem mapM_get_of_missing {nodes : List NodeId} (missing : ∃ id ∈ nodes, id ∉ graph.nodeIds) :
    ∃ id ∈ nodes, id ∉ graph.nodeIds ∧ nodes.mapM graph.get = .error (.nodeNotFound id) := by
  induction nodes with
  | nil =>
    obtain ⟨id, ⟨⟩, -⟩ := missing
  | cons id rest ih =>
    rw [List.mapM_cons, get]
    cases present : graph.nodes.get? id with
    | none => exact ⟨id, .head _, by simp [mem_nodeIds_iff, present], rfl⟩
    | some node =>
      have known : id ∈ graph.nodeIds := Table.mem_keys_of_get? present
      obtain ⟨other, member, absent⟩ := missing
      have later : other ∈ rest := by
        rcases List.mem_cons.mp member with rfl | later
        next => exact absurd known absent
        next => exact later
      obtain ⟨first, member', absent', failed⟩ := ih ⟨other, later, absent⟩
      exact ⟨first, .tail _ member', absent', by rw [failed]; rfl⟩

end Graph

namespace Workspace

open Transaction

section Collapse

variable {initial : Workspace} {members : List NodeId} {inputs outputs : List TensorId}

theorem removeNodes_ok (isolated : initial.Isolated) (consistent : initial.graph.Consistent) (froze : Bool)
    (nodup : members.Nodup) (known : ∀ id ∈ members, id ∈ initial.graph.nodeIds) :
    ∃ after, members.forM Transaction.removeNode { workspace := initial, froze } = .ok () after ∧
      Reversible initial after ∧ after.froze = froze ∧ initial.graph.Emptied members after.workspace.graph := by
  refine stateful_forM_succeeds (fun done transaction => Reversible initial transaction ∧
    transaction.froze = froze ∧ initial.graph.Emptied done transaction.workspace.graph) ?_
    ⟨.begin consistent froze, rfl, .refl consistent⟩
  rintro done id rest transaction rfl ⟨reversible, kept, emptied⟩
  obtain ⟨node, present⟩ := (Graph.mem_nodeIds_iff id).mp (known id (by simp))
  have new : id ∉ done := fun member => List.disjoint_of_nodup_append nodup member (.head _)
  obtain ⟨graph, removed, emptied'⟩ := emptied.removeNode present new
  have recorded := recorded_of_ok .restore (removeNode_isolated (reversible.isolated isolated) id) removed
  exact ⟨_, stateful_discard_eq_ok.mpr ⟨node, recorded⟩, reversible.advanced isolated (.removeNode removed),
    kept, emptied'⟩

theorem collapse_ok (isolated : initial.Isolated) (consistent : initial.graph.Consistent) (froze : Bool)
    (nodup : members.Nodup) (known : ∀ id ∈ members, id ∈ initial.graph.nodeIds)
    (enters : ∀ t, t ∈ inputs ↔ initial.graph.Enters members t)
    (leaves : ∀ t, t ∈ outputs ↔ initial.graph.Leaves members t) (acyclic : Acyclic initial.graph.Edge) :
    ∃ answer after, collapse members inputs outputs { workspace := initial, froze } = .ok answer after ∧
      Reversible initial after ∧ after.froze = froze ∧
      (answer = true ↔ Reenters initial.graph.Edge (· ∈ members)) := by
  obtain ⟨emptied, removed, reversible, kept, rest⟩ := removeNodes_ok isolated consistent froze nodup known
  obtain ⟨probed, added, edges⟩ := rest.addProbe { name := "fusion_probe" } enters leaves
  have placed : Transaction.addNode { name := "fusion_probe" } inputs outputs emptied =
      .ok _ (emptied.advanced (.remove _) probed) :=
    recorded_of_ok .remove (addNode_isolated (reversible.isolated isolated) _ inputs outputs) added
  have reversible' := reversible.advanced isolated (.addNode added)
  refine ⟨!probed.isAcyclic, _, ?_, reversible', kept, ?_⟩
  next =>
    unfold collapse
    rw [stateful_bind_of_ok _ removed, stateful_bind_of_ok _ (stateful_discard_eq_ok.mpr ⟨_, placed⟩)]
    rfl
  next =>
    have linked : probed.Linked := reversible'.consistent.toLinked
    have acyclic_iff : _ ↔ ¬ Reenters initial.graph.Edge (· ∈ members) :=
      consistent.toLinked.acyclic_standIn_iff acyclic
    rw [← edges, ← Graph.isAcyclic_iff linked] at acyclic_iff
    cases answer : probed.isAcyclic <;> simp_all

end Collapse

variable {workspace : Workspace} {nodes : List NodeId}

theorem fusionCreatesCycle_of_collapse {found : List Node} {cyclic : Bool} {transaction : Transaction} {after : Workspace}
    (mapped : (Ranked.ascending nodes).mapM workspace.graph.get = .ok found)
    (collapsed : collapse (Ranked.ascending nodes) (workspace.graph.externalTensors (Ranked.ascending nodes) found).1
      (workspace.graph.externalTensors (Ranked.ascending nodes) found).2 (speculate workspace) = .ok cyclic transaction)
    (finished : transaction.finish false = .ok after) : fusionCreatesCycle nodes workspace = .ok cyclic after := by
  unfold fusionCreatesCycle
  rw [stateful_get_bind]
  dsimp only
  rw [mapped]
  dsimp only
  rw [stateful_get_bind]
  rw [collapsed]
  dsimp only
  rw [finished]
  rfl

theorem fusionCreatesCycle_of_missing {error : GraphError}
    (failed : (Ranked.ascending nodes).mapM workspace.graph.get = .error error) :
    fusionCreatesCycle nodes workspace = .error error workspace := by
  unfold fusionCreatesCycle
  rw [stateful_get_bind]
  dsimp only
  rw [failed]
  rfl

theorem fusionCreatesCycle_iff_reenters (consistent : workspace.graph.Consistent)
    (acyclic : Acyclic workspace.graph.Edge) (nodes : List NodeId) :
    ((∀ id ∈ nodes, id ∈ workspace.graph.nodeIds) →
      ∃ answer after, fusionCreatesCycle nodes workspace = .ok answer after ∧
        (answer = true ↔ Reenters workspace.graph.Edge (· ∈ nodes)) ∧
        after.graph.nodes = workspace.graph.nodes ∧ after.graph.tensors = workspace.graph.tensors ∧
        after.plane = workspace.plane) ∧
    ((∃ id ∈ nodes, id ∉ workspace.graph.nodeIds) →
      ∃ missing ∈ nodes, missing ∉ workspace.graph.nodeIds ∧
        fusionCreatesCycle nodes workspace = .error (.nodeNotFound missing) workspace) := by
  constructor
  next =>
    intro known
    have known' : ∀ id ∈ Ranked.ascending nodes, id ∈ workspace.graph.nodeIds :=
      fun id member => known id (Ranked.mem_ascending.mp member)
    obtain ⟨found, mapped, records⟩ := Graph.mapM_get_of_known known'
    obtain ⟨initial, froze, started, isolated, graph, thaws⟩ := speculate_eq workspace
    rw [← graph] at consistent acyclic known' records
    obtain ⟨answer, transaction, collapsed, reversible, kept, answers⟩ :=
      collapse_ok isolated consistent froze (Ranked.nodup_ascending nodes) known'
        (fun _ => Graph.mem_externalInputs consistent records) (fun _ => Graph.mem_externalOutputs consistent records)
        acyclic
    obtain ⟨final, finished, same⟩ := reversible.finish
    rw [kept, thaws] at finished
    rw [graph, ← started] at collapsed
    rw [graph] at answers same
    refine ⟨answer, _, fusionCreatesCycle_of_collapse mapped collapsed finished, ?_, same.nodes, same.tensors, rfl⟩
    simpa only [Ranked.mem_ascending] using answers
  next =>
    rintro ⟨id, member, absent⟩
    obtain ⟨missing, member', absent', failed⟩ :=
      Graph.mapM_get_of_missing ⟨id, Ranked.mem_ascending.mpr member, absent⟩
    exact ⟨missing, Ranked.mem_ascending.mp member', absent', fusionCreatesCycle_of_missing failed⟩

theorem fusionCreatesCycle_chainEnds :
    (∃ after, fusionCreatesCycle [⟨2⟩, ⟨0⟩, ⟨2⟩] bundledChainWorkspace = .ok true after ∧
      after.graph.nodes = bundledChain.graph.nodes ∧ after.plane.isSome = true ∧
      after.plane = bundledChainWorkspace.plane) ∧
    fusionCreatesCycle [⟨0⟩, ⟨7⟩] bundledChainWorkspace = .error (.nodeNotFound ⟨7⟩) bundledChainWorkspace := by
  have consistent : bundledChainWorkspace.graph.Consistent := bundledChain.consistent_graph
  have acyclic : Acyclic bundledChainWorkspace.graph.Edge :=
    (Graph.isAcyclic_iff consistent.toLinked).mp (by decide +kernel)
  have loads : bundledChainWorkspace.graph.Edge ⟨0⟩ ⟨1⟩ := ⟨by decide, ⟨0⟩, _, rfl, rfl, rfl, by decide⟩
  have stores : bundledChainWorkspace.graph.Edge ⟨1⟩ ⟨2⟩ := ⟨by decide, ⟨1⟩, _, rfl, rfl, rfl, by decide⟩
  constructor
  next =>
    obtain ⟨answer, after, answered, answers, nodes, -, plane⟩ :=
      (fusionCreatesCycle_iff_reenters consistent acyclic [⟨2⟩, ⟨0⟩, ⟨2⟩]).1 (by decide)
    have cyclic : answer = true :=
      answers.mpr ⟨⟨0⟩, ⟨1⟩, ⟨2⟩, by decide, by decide, by decide, TransGen.single loads, TransGen.single stores⟩
    subst cyclic
    exact ⟨after, answered, nodes, by rw [plane]; rfl, plane⟩
  next =>
    obtain ⟨missing, member, absent, failed⟩ :=
      (fusionCreatesCycle_iff_reenters consistent acyclic [⟨0⟩, ⟨7⟩]).2 ⟨⟨7⟩, by decide, by decide⟩
    simp only [List.mem_cons, List.not_mem_nil, or_false] at member
    rcases member with rfl | rfl
    next => exact absurd (by decide) absent
    next => exact failed

end Workspace

end Dataflow
