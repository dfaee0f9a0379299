import Dataflow.Proofs.Plane.Annotations
import Dataflow.Proofs.Plane.Registry
import Dataflow.Proofs.Workspace.Quotient

set_option autoImplicit false

namespace Dataflow.Workspace

def Registers (workspace : Workspace) : Prop := ∃ plane, workspace.plane = some plane ∧ plane.Registered

section Combinators

variable {α β : Type} {P : Workspace → Prop} {workspace : Workspace} {plane : Plane}

theorem atomic_onGraph_bind {edit : Graph → Except GraphError (α × Graph)} {next : α → EditM β}
    (rest : ∀ {answer graph}, edit workspace.graph = .ok (answer, graph) →
      Completes P (next answer) { workspace with graph }) : Atomic P (onGraph edit >>= next) workspace := by
  cases made : edit workspace.graph with
  | error error =>
    exact concludes_of_refused (stateful_bind_of_error next (onGraph_of_error made)) rfl
  | ok pair =>
    obtain ⟨answer, graph⟩ := pair
    exact .of_eq (stateful_bind_of_ok next (onGraph_of_ok made)) ((rest made).mono id False.elim)

theorem completes_onPlane {update : Graph → PlaneM Unit} (attached : workspace.plane = some plane)
    (completes : Completes Plane.Registered (update workspace.graph) plane) :
    Completes Registers (onPlane update) workspace := by
  cases ran : update workspace.graph plane with
  | ok _ after => exact concludes_of_ok (onPlane_of_ok attached ran) ⟨after, rfl, completes.ok ran⟩
  | error error after =>
    obtain ⟨fault, rfl⟩ := completes.fault ran
    exact concludes_of_fault (onPlane_of_error attached ran)

theorem atomic_mirrored {edit : Graph → Except GraphError (α × Graph)} {update : α → Graph → PlaneM Unit}
    (attached : workspace.plane = some plane)
    (follows : ∀ {answer graph}, edit workspace.graph = .ok (answer, graph) →
      Completes Plane.Registered (update answer graph) plane) :
    Atomic Registers (onGraph edit >>= fun answer => onPlane (update answer) >>= fun _ => pure answer) workspace := by
  refine atomic_onGraph_bind fun {answer graph} made => ?_
  refine Concludes.bind (completes_onPlane attached (follows made)) fun _ registers => ?_
  exact concludes_of_ok rfl registers

end Combinators

namespace Mirrors

variable {removed : List Node} {workspace : Workspace} {plane : Plane} (mirrors : Mirrors removed workspace plane)
  (registered : plane.Registered)
include mirrors registered

theorem addNode_atomic (spec : NodeSpec) (inputs outputs : List TensorId) :
    Atomic Registers (Workspace.addNode spec inputs outputs) workspace := by
  refine atomic_mirrored mirrors.attached fun {id graph} added => ?_
  have arrives := mirrors.linked.arrives_addNode added
  obtain ⟨rfl, -, there, -⟩ := Graph.addNode_eq_ok added
  refine mirrors.follows.addNode_completes registered arrives fun t listed => ?_
  obtain ⟨tensor, present⟩ : ∃ tensor, workspace.graph.tensors.get? t = some tensor := by
    refine there t (List.mem_append.mpr (listed.imp (fun reads => ?_) fun writes => ?_))
    next => simpa [Node.allInputs, NodeSpec.node] using reads
    next => simpa [Node.allOutputs, NodeSpec.node] using writes
  exact ⟨_, by rw [arrives.tensors, present]; rfl⟩

theorem removeNode_atomic (id : NodeId) : Atomic Registers (Workspace.removeNode id) workspace := by
  refine atomic_mirrored mirrors.attached fun {node graph} gone => ?_
  obtain ⟨found, -⟩ := Graph.removeNode_eq_ok gone
  cases mirrors.linked.nodeKey found
  exact mirrors.follows.removeNode_completes registered (Table.mem_keys_of_get? found)

theorem replaceNode_atomic (old : NodeId) (spec : NodeSpec) :
    Atomic Registers (Workspace.replaceNode old spec) workspace := by
  refine atomic_mirrored mirrors.attached fun {new graph} replaced => ?_
  obtain ⟨node, found, rfl, -⟩ := Graph.replaceNode_eq_ok replaced
  refine mirrors.follows.replaceNode_completes registered (Table.mem_keys_of_get? found) fun known => ?_
  obtain ⟨record, present⟩ := (Graph.mem_nodeIds_iff _).mp known
  rw [Graph.nextNode_absent mirrors.linked] at present
  cases present

theorem addControlEdge_atomic (blocking blocked : NodeId) (type : ControlType) :
    Atomic Registers (Workspace.addControlEdge blocking blocked type) workspace := by
  refine atomic_mirrored mirrors.attached fun {t graph} added => ?_
  obtain ⟨-, blockingThere, blockedThere, -, rfl, rfl⟩ := Graph.addControlEdge_eq_ok added
  have present : (workspace.graph.withControl blocking blocked type).tensors.get? ⟨workspace.graph.nextTensor⟩ =
      some (workspace.graph.controlTensor blocking blocked type) := by
    rw [Graph.get?_tensors_withControl, if_pos rfl]
  exact mirrors.follows.addRelationship_completes registered present blockingThere blockedThere

theorem removeControlEdge_atomic (t : TensorId) : Atomic Registers (Workspace.removeControlEdge t) workspace := by
  refine .of_eq (stateful_get_bind _ workspace) ?_
  refine atomic_onGraph_bind fun {_ graph} _ => completes_onPlane mirrors.attached ?_
  refine mirrors.follows.disconnect_completes registered (fun node made => ?_) fun node reads => ?_
  next =>
    obtain ⟨tensor, present, produced⟩ := Option.bind_eq_some_iff.mp made
    exact mirrors.linked.producer_known present produced
  next =>
    unfold Graph.tensorConsumers at reads
    split at reads
    next tensor present => exact mirrors.linked.consumer_known present reads
    next => cases reads

theorem atomic {edit : Edit} (fresh : ∀ node, edit ≠ .restoreNode node) : Atomic Registers edit.apply workspace := by
  cases edit with
  | addNode spec inputs outputs =>
    exact (mirrors.addNode_atomic registered spec inputs outputs).discard.bind fun _ holds => concludes_of_ok rfl holds
  | removeNode id => exact (mirrors.removeNode_atomic registered id).bind fun _ holds => concludes_of_ok rfl holds
  | restoreNode node => exact absurd rfl (fresh node)
  | replaceNode old spec =>
    exact (mirrors.replaceNode_atomic registered old spec).discard.bind fun _ holds => concludes_of_ok rfl holds
  | addControlEdge blocking blocked type =>
    exact (mirrors.addControlEdge_atomic registered blocking blocked type).discard.bind fun _ holds =>
      concludes_of_ok rfl holds
  | removeControlEdge t =>
    exact (mirrors.removeControlEdge_atomic registered t).bind fun _ holds => concludes_of_ok rfl holds

end Mirrors

-- None of the edits puts a node back or ends in a fault.
inductive Attempted (start : Workspace) : Workspace → Prop
  | start : Attempted start start
  | made {workspace after : Workspace} {edit : Edit} {record : Option Node} :
    Attempted start workspace → (∀ node, edit ≠ .restoreNode node) → edit.apply workspace = .ok record after →
    Attempted start after
  | refused {workspace after : Workspace} {edit : Edit} {error : GraphError} :
    Attempted start workspace → (∀ node, edit ≠ .restoreNode node) → edit.apply workspace = .error error after →
    (∀ fault, error ≠ .fault fault) → Attempted start after

variable {graph : Graph} {plane : Plane}

theorem mirrors_ofGraph (consistent : graph.Consistent) (made : Plane.ofGraph graph = .ok plane) :
    Mirrors [] { graph, plane := some plane } plane := by
  obtain ⟨same, made', tiles, gains⟩ := Plane.ofGraph_ok consistent
  cases made.symm.trans made'
  exact ⟨rfl, consistent.toLinked, ⟨tiles.sound, tiles.covers, gains.frozen_eq⟩, fun _ member => nomatch member⟩

theorem Attempted.mirrors {start workspace : Workspace} (begins : Mirrors [] start plane)
    (registered : plane.Registered) (attempted : Attempted start workspace) :
    ∃ removed current, Mirrors removed workspace current ∧ current.Registered := by
  -- Refusing nothing takes both halves: the plane shows the graph, and its registry leads to bundles that are there.
  induction attempted with
  | start => exact ⟨[], plane, begins, registered⟩
  | made _ fresh applied ih =>
    obtain ⟨removed, current, mirrors, registered⟩ := ih
    obtain ⟨followed, mirrors', -⟩ := mirrors.step (fun node same => absurd same (fresh node)) applied
    obtain ⟨same, attached, registered⟩ := (mirrors.atomic registered fresh).ok applied
    cases attached.symm.trans mirrors'.attached
    exact ⟨_, _, mirrors', registered⟩
  | refused _ fresh failed unbroken ih =>
    obtain ⟨removed, current, mirrors, registered⟩ := ih
    rcases (mirrors.atomic registered fresh).error failed with ⟨fault, broken⟩ | rfl
    next => exact absurd broken (unbroken fault)
    next => exact ⟨removed, current, mirrors, registered⟩

theorem attempted_in_step (consistent : graph.Consistent)
    (built : Plane.ofGraph graph = .ok plane ∨ Plane.ofAnnotations graph (fun _ => true) = .ok plane)
    {workspace : Workspace} (attempted : Attempted { graph, plane := some plane } workspace) :
    ∃ current, workspace.plane = some current ∧
      (∀ node, (∃ id, current.representation node = .ok id) ↔ node ∈ workspace.graph.nodeIds) ∧
      (∀ node id, current.Member node id ↔ current.representation node = .ok id) ∧
      ∀ edit error after, (∀ node, edit ≠ .restoreNode node) → Edit.apply edit workspace = .error error after →
        (∃ fault, error = .fault fault) ∨ after = workspace := by
  obtain ⟨begins, registered⟩ : Mirrors [] { graph, plane := some plane } plane ∧ plane.Registered := by
    rcases built with made | made
    next => exact ⟨mirrors_ofGraph consistent made, Plane.registered_ofGraph consistent made⟩
    next => exact ⟨(mirrors_ofAnnotations consistent made).1, Plane.registered_ofAnnotations made⟩
  obtain ⟨removed, current, mirrors, registered⟩ := attempted.mirrors begins registered
  refine ⟨current, mirrors.attached, fun node => ?_, fun node id => ?_, fun edit error after fresh failed => ?_⟩
  next => simp only [Plane.representation_eq_ok, mirrors.follows.covers]
  next =>
    rw [Plane.representation_eq_ok, mirrors.follows.sound.nodeOf_iff]
    rfl
  next => exact (mirrors.atomic registered fresh).error failed

def joinPair : Edit :=
  .addNode { name := "log", annotations := { bundle := some { bundleIndex := 0 } } } [⟨0⟩] []

def overwriteInner : Edit := .addNode { name := "overwrite" } [] [⟨0⟩]

def joinedPair : Workspace :=
  finalState joinPair.apply { graph := innerPair.graph, plane := some innerPairPlane }

theorem attempted_joinedPair :
    Attempted { graph := innerPair.graph, plane := some innerPairPlane } joinedPair ∧
    (∃ current, joinedPair.plane = some current ∧ ∀ id, current.Member ⟨2⟩ id ↔ id = ⟨2⟩) ∧
    overwriteInner.apply joinedPair = .error (.duplicateProducer ⟨0⟩ ⟨0⟩) joinedPair := by
  have consistent := innerPair.consistent_graph
  have built : Plane.ofAnnotations innerPair.graph (fun _ => true) = .ok innerPairPlane := rfl
  have applied : joinPair.apply { graph := innerPair.graph, plane := some innerPairPlane } = .ok none joinedPair := rfl
  have attempted : Attempted { graph := innerPair.graph, plane := some innerPairPlane } joinedPair :=
    .made .start (by unfold joinPair; rintro node ⟨⟩) applied
  obtain ⟨current, attached, -, listed, unchanged⟩ := attempted_in_step consistent (Or.inr built) attempted
  obtain ⟨after, refused⟩ : ∃ after, overwriteInner.apply joinedPair = .error (.duplicateProducer ⟨0⟩ ⟨0⟩) after :=
    ⟨_, rfl⟩
  refine ⟨attempted, ⟨current, attached, fun id => ?_⟩, ?_⟩
  next =>
    have stands : current.representation ⟨2⟩ = .ok ⟨2⟩ := by cases attached; rfl
    rw [listed, stands, Except.ok.injEq, eq_comm]
  next =>
    have fresh : ∀ node, overwriteInner ≠ .restoreNode node := by unfold overwriteInner; rintro node ⟨⟩
    rcases unchanged overwriteInner _ after fresh refused with ⟨fault, broken⟩ | rfl
    next => cases broken
    next => exact refused

end Dataflow.Workspace
