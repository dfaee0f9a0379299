import Dataflow.Proofs.Description.Build
import Dataflow.Proofs.Plane.Departure
import Dataflow.Proofs.Plane.Rewiring
import Dataflow.Proofs.Workspace.Basic

set_option autoImplicit false

namespace Dataflow

inductive Edit where
  | addNode (spec : NodeSpec) (inputs outputs : List TensorId)
  | removeNode (id : NodeId)
  | restoreNode (node : Node)
  | replaceNode (old : NodeId) (spec : NodeSpec)
  | addControlEdge (blocking blocked : NodeId) (type : ControlType)
  | removeControlEdge (tensor : TensorId)

namespace Edit

def apply : Edit → EditM (Option Node)
  | .addNode spec inputs outputs => do
    discard <| Workspace.addNode spec inputs outputs
    return none
  | .removeNode id => do
    let node ← Workspace.removeNode id
    return some node
  | .restoreNode node => do
    Workspace.restoreNode node
    return none
  | .replaceNode old spec => do
    discard <| Workspace.replaceNode old spec
    return none
  | .addControlEdge blocking blocked type => do
    discard <| Workspace.addControlEdge blocking blocked type
    return none
  | .removeControlEdge tensor => do
    Workspace.removeControlEdge tensor
    return none

def Attaches (workspace : Workspace) : Edit → Prop
  | .addNode spec inputs outputs => ∀ plane, workspace.plane = some plane →
    plane.Attaches workspace.graph (spec.node ⟨workspace.graph.nextNode⟩ inputs outputs [] [])
  | .restoreNode node => ∀ plane, workspace.plane = some plane → plane.Attaches workspace.graph node
  | _ => True

end Edit

namespace Workspace

-- Only a record that the run has removed can be restored.
inductive Edited (allowed : Workspace → Edit → Prop) (start : Workspace) : List Node → Workspace → Prop
  | start : Edited allowed start [] start
  | step {removed : List Node} {workspace after : Workspace} {edit : Edit} {record : Option Node} :
    Edited allowed start removed workspace → (∀ node, edit = .restoreNode node → node ∈ removed) →
    allowed workspace edit → edit.apply workspace = .ok record after →
    Edited allowed start (record.toList ++ removed) after

variable {workspace after : Workspace} {plane : Plane} {removed : List Node}

theorem onGraph_eq_ok {α : Type} {edit : Graph → Except GraphError (α × Graph)} {answer : α}
    (edited : onGraph edit workspace = .ok answer after) :
    ∃ graph, edit workspace.graph = .ok (answer, graph) ∧ after = { workspace with graph } := by
  unfold onGraph at edited
  rw [stateful_get_bind] at edited
  cases made : edit workspace.graph with
  | error error => rw [made] at edited; cases edited
  | ok pair => rw [made] at edited; cases edited; exact ⟨_, rfl, rfl⟩

theorem onPlane_eq_ok {update : Graph → PlaneM Unit} (updated : onPlane update workspace = .ok () after)
    (attached : workspace.plane = some plane) :
    ∃ followed, update workspace.graph plane = .ok () followed ∧ after = { workspace with plane := some followed } := by
  unfold onPlane at updated
  rw [stateful_get_bind] at updated
  rw [attached] at updated
  cases made : update workspace.graph plane with
  | error error => simp only [made] at updated; cases updated
  | ok answer followed => simp only [made] at updated; cases updated; exact ⟨followed, rfl, rfl⟩

theorem mirrored_eq_ok {α : Type} {edit : Graph → Except GraphError (α × Graph)} {update : α → Graph → PlaneM Unit}
    {answer : α} (attached : workspace.plane = some plane)
    (ran : (onGraph edit >>= fun answer => onPlane (update answer) >>= fun _ => pure answer : EditM α) workspace =
      .ok answer after) :
    ∃ graph followed, edit workspace.graph = .ok (answer, graph) ∧ update answer graph plane = .ok () followed ∧
      after = { graph, plane := some followed } := by
  obtain ⟨same, between, first, rest⟩ := stateful_bind_eq_ok.mp ran
  obtain ⟨graph, edited, rfl⟩ := onGraph_eq_ok first
  obtain ⟨_, last, second, rest⟩ := stateful_bind_eq_ok.mp rest
  obtain ⟨followed, updated, rfl⟩ := onPlane_eq_ok second attached
  cases rest
  exact ⟨graph, followed, edited, updated, rfl⟩

structure Mirrors (removed : List Node) (workspace : Workspace) (plane : Plane) : Prop where
  attached : workspace.plane = some plane
  linked : workspace.graph.Linked
  follows : plane.Follows workspace.graph
  older : ∀ node ∈ removed, ∀ t, t ∈ node.allInputs ∨ t ∈ node.allOutputs → t.val < workspace.graph.nextTensor

namespace Mirrors

theorem addNode (mirrors : Mirrors removed workspace plane) {spec : NodeSpec} {inputs outputs : List TensorId}
    {id : NodeId} (added : Workspace.addNode spec inputs outputs workspace = .ok id after) :
    ∃ followed, Mirrors removed after followed ∧ (plane.Exposes workspace.graph [] →
      (followed.Exposes after.graph [] ↔
        plane.Attaches workspace.graph (spec.node ⟨workspace.graph.nextNode⟩ inputs outputs [] []))) := by
  obtain ⟨graph, followed, edited, updated, rfl⟩ := mirrored_eq_ok mirrors.attached added
  have arrives := mirrors.linked.arrives_addNode edited
  obtain ⟨rfl, -⟩ := Graph.addNode_eq_ok edited
  obtain ⟨follows, exposes⟩ := mirrors.follows.addNode arrives updated
  refine ⟨followed, ⟨rfl, arrives.linked_final, follows, ?_⟩, exposes⟩
  intro node member t listed
  exact arrives.nextTensor ▸ mirrors.older node member t listed

theorem restoreNode (mirrors : Mirrors removed workspace plane) {node : Node} (known : node ∈ removed)
    (restored : Workspace.restoreNode node workspace = .ok () after) :
    ∃ followed, Mirrors removed after followed ∧ (plane.Exposes workspace.graph [] →
      (followed.Exposes after.graph [] ↔ plane.Attaches workspace.graph node)) := by
  unfold Workspace.restoreNode at restored
  obtain ⟨_, between, first, second⟩ := stateful_bind_eq_ok.mp restored
  obtain ⟨graph, edited, rfl⟩ := onGraph_eq_ok first
  obtain ⟨followed, updated, rfl⟩ := onPlane_eq_ok second mirrors.attached
  obtain ⟨_, edited, same⟩ := bind_eq_ok.mp edited
  cases same
  have arrives := mirrors.linked.arrives_restoreNode edited (mirrors.older node known)
  obtain ⟨follows, exposes⟩ := mirrors.follows.addNode arrives updated
  refine ⟨followed, ⟨rfl, arrives.linked_final, follows, ?_⟩, exposes⟩
  intro node member t listed
  exact arrives.nextTensor ▸ mirrors.older node member t listed

theorem removeNode (mirrors : Mirrors removed workspace plane) {id : NodeId} {node : Node}
    (gone : Workspace.removeNode id workspace = .ok node after) :
    ∃ followed, Mirrors (node :: removed) after followed ∧
      (plane.Exposes workspace.graph [] → followed.Exposes after.graph []) := by
  obtain ⟨graph, followed, edited, updated, rfl⟩ := mirrored_eq_ok mirrors.attached gone
  obtain ⟨found, rfl⟩ := Graph.removeNode_eq_ok edited
  cases mirrors.linked.nodeKey found
  obtain ⟨follows, exposes⟩ := mirrors.follows.removeNode mirrors.linked found updated
  refine ⟨followed, ⟨rfl, mirrors.linked.detach found, follows, ?_⟩, exposes⟩
  intro other member t listed
  rcases List.mem_cons.mp member with rfl | member
  next => exact mirrors.linked.listedBelow found listed
  next => exact mirrors.older other member t listed

theorem replaceNode (mirrors : Mirrors removed workspace plane) {old new : NodeId} {spec : NodeSpec}
    (replaced : Workspace.replaceNode old spec workspace = .ok new after) :
    ∃ followed, Mirrors removed after followed ∧
      (plane.Exposes workspace.graph [] → followed.Exposes after.graph []) := by
  obtain ⟨graph, followed, edited, updated, rfl⟩ := mirrored_eq_ok mirrors.attached replaced
  have renames := mirrors.linked.renames edited
  obtain ⟨follows, exposes⟩ := mirrors.follows.replaceNode mirrors.linked renames updated
  refine ⟨followed, ⟨rfl, mirrors.linked.replaceNode edited, follows, ?_⟩, exposes⟩
  intro node member t listed
  exact renames.nextTensor ▸ mirrors.older node member t listed

theorem addControlEdge (mirrors : Mirrors removed workspace plane) {blocking blocked : NodeId} {type : ControlType}
    {tensor : TensorId} (added : Workspace.addControlEdge blocking blocked type workspace = .ok tensor after) :
    ∃ followed, Mirrors removed after followed ∧
      (plane.Exposes workspace.graph [] → followed.Exposes after.graph []) := by
  obtain ⟨graph, followed, edited, updated, rfl⟩ := mirrored_eq_ok mirrors.attached added
  obtain ⟨-, blockingThere, blockedThere, -, rfl, rfl⟩ := Graph.addControlEdge_eq_ok edited
  have linked := mirrors.linked.withControl type blockingThere blockedThere
  obtain ⟨same, updated', follows, exposes⟩ :=
    mirrors.follows.addRelationship_ok type linked blockingThere blockedThere
  cases updated.symm.trans updated'
  refine ⟨followed, ⟨rfl, linked, follows, ?_⟩, exposes⟩
  exact fun node member t listed => Nat.lt_succ_of_lt (mirrors.older node member t listed)

theorem removeControlEdge (mirrors : Mirrors removed workspace plane) {tensor : TensorId}
    (dropped : Workspace.removeControlEdge tensor workspace = .ok () after) :
    ∃ followed, Mirrors removed after followed ∧
      (plane.Exposes workspace.graph [] → followed.Exposes after.graph []) := by
  unfold Workspace.removeControlEdge at dropped
  rw [stateful_get_bind] at dropped
  obtain ⟨_, between, first, second⟩ := stateful_bind_eq_ok.mp dropped
  obtain ⟨graph, edited, rfl⟩ := onGraph_eq_ok first
  obtain ⟨followed, updated, rfl⟩ := onPlane_eq_ok second mirrors.attached
  obtain ⟨_, edited, same⟩ := bind_eq_ok.mp edited
  cases same
  obtain ⟨follows, exposes⟩ := mirrors.follows.disconnect edited updated
  refine ⟨followed, ⟨rfl, mirrors.linked.removeControlEdge edited, follows, ?_⟩, exposes⟩
  obtain ⟨-, -, -, -, nextTensor, -⟩ := Graph.removeControlEdge_eq_ok edited
  exact fun node member t listed => nextTensor ▸ mirrors.older node member t listed

theorem step (mirrors : Mirrors removed workspace plane) {edit : Edit} {record : Option Node}
    (known : ∀ node, edit = .restoreNode node → node ∈ removed) (applied : edit.apply workspace = .ok record after) :
    ∃ followed, Mirrors (record.toList ++ removed) after followed ∧
      (plane.Exposes workspace.graph [] → (followed.Exposes after.graph [] ↔ edit.Attaches workspace)) := by
  have always {followed : Plane} (exposes : plane.Exposes workspace.graph [] → followed.Exposes after.graph []) :
      plane.Exposes workspace.graph [] → (followed.Exposes after.graph [] ↔ True) := by
    intro before
    rw [iff_true]
    exact exposes before
  have attaches {node : Node} : (∀ same, workspace.plane = some same → same.Attaches workspace.graph node) ↔
      plane.Attaches workspace.graph node := by
    rw [mirrors.attached]
    simp
  cases edit with
  | addNode spec inputs outputs =>
    obtain ⟨_, between, first, rest⟩ := stateful_bind_eq_ok.mp applied
    cases rest
    obtain ⟨id, first⟩ := stateful_discard_eq_ok.mp first
    obtain ⟨followed, mirrors', exposes⟩ := mirrors.addNode first
    refine ⟨followed, mirrors', fun before => (exposes before).trans ?_⟩
    rw [Edit.Attaches, attaches]
  | removeNode id =>
    obtain ⟨node, between, first, rest⟩ := stateful_bind_eq_ok.mp applied
    cases rest
    obtain ⟨followed, mirrors', exposes⟩ := mirrors.removeNode first
    exact ⟨followed, mirrors', always exposes⟩
  | restoreNode node =>
    obtain ⟨_, between, first, rest⟩ := stateful_bind_eq_ok.mp applied
    cases rest
    obtain ⟨followed, mirrors', exposes⟩ := mirrors.restoreNode (known node rfl) first
    refine ⟨followed, mirrors', fun before => (exposes before).trans ?_⟩
    rw [Edit.Attaches, attaches]
  | replaceNode old spec =>
    obtain ⟨_, between, first, rest⟩ := stateful_bind_eq_ok.mp applied
    cases rest
    obtain ⟨new, first⟩ := stateful_discard_eq_ok.mp first
    obtain ⟨followed, mirrors', exposes⟩ := mirrors.replaceNode first
    exact ⟨followed, mirrors', always exposes⟩
  | addControlEdge blocking blocked type =>
    obtain ⟨_, between, first, rest⟩ := stateful_bind_eq_ok.mp applied
    cases rest
    obtain ⟨tensor, first⟩ := stateful_discard_eq_ok.mp first
    obtain ⟨followed, mirrors', exposes⟩ := mirrors.addControlEdge first
    exact ⟨followed, mirrors', always exposes⟩
  | removeControlEdge tensor =>
    obtain ⟨_, between, first, rest⟩ := stateful_bind_eq_ok.mp applied
    cases rest
    obtain ⟨followed, mirrors', exposes⟩ := mirrors.removeControlEdge first
    exact ⟨followed, mirrors', always exposes⟩

end Mirrors

section Run

variable {graph : Graph} {allowed : Workspace → Edit → Prop}

theorem mirrors_ofAnnotations (consistent : graph.Consistent)
    (built : Plane.ofAnnotations graph (fun _ => true) = .ok plane) :
    Mirrors [] { graph, plane := some plane } plane ∧ plane.Exposes graph [] := by
  obtain ⟨whole, -⟩ := Plane.built_of_ofAnnotations consistent built
  refine ⟨⟨rfl, consistent.toLinked, ⟨whole.sound, whole.covers, whole.unfrozen⟩, ?_⟩, whole.exposes⟩
  intro node member
  cases member

theorem Edited.mirrors {start : Workspace} (begins : Mirrors [] start plane)
    (edited : Edited allowed start removed workspace) : ∃ current, Mirrors removed workspace current := by
  induction edited with
  | start => exact ⟨plane, begins⟩
  | step _ known _ applied ih =>
    obtain ⟨current, mirrors⟩ := ih
    obtain ⟨followed, mirrors, -⟩ := mirrors.step known applied
    exact ⟨followed, mirrors⟩

theorem Edited.exposes {start : Workspace} (begins : Mirrors [] start plane) (exposes : plane.Exposes start.graph [])
    (edited : Edited (fun workspace edit => edit.Attaches workspace) start removed workspace) :
    ∃ current, Mirrors removed workspace current ∧ current.Exposes workspace.graph [] := by
  induction edited with
  | start => exact ⟨plane, begins, exposes⟩
  | step _ known attaches applied ih =>
    obtain ⟨current, mirrors, exposes⟩ := ih
    obtain ⟨followed, mirrors, kept⟩ := mirrors.step known applied
    exact ⟨followed, mirrors, (kept exposes).mpr attaches⟩

end Run

theorem plane_edge_iff_shown {graph : Graph} {plane : Plane} (consistent : graph.Consistent)
    (built : Plane.ofAnnotations graph (fun _ => true) = .ok plane) :
    (∀ removed workspace, Edited (fun _ _ => True) { graph, plane := some plane } removed workspace →
      ∃ current, workspace.plane = some current ∧
        (∀ node ∈ workspace.graph.nodeIds, ∃ id, current.representation node = .ok id) ∧
        ∀ source target, target ∈ current.graph.consumers source ↔
          ∃ t, current.Crosses workspace.graph t source target ∧
            current.Shows .output t source ∧ current.Shows .input t target) ∧
    ∀ removed workspace,
      Edited (fun workspace edit => edit.Attaches workspace) { graph, plane := some plane } removed workspace →
      (∃ current, workspace.plane = some current ∧ ∀ source target,
        target ∈ current.graph.consumers source ↔ ∃ t, current.Crosses workspace.graph t source target) ∧
      ∀ (edit : Edit) record after, (∀ node, edit = .restoreNode node → node ∈ removed) →
        edit.apply workspace = .ok record after → ¬ edit.Attaches workspace →
        ∃ current, after.plane = some current ∧ ∃ t source target, current.Crosses after.graph t source target ∧
          ¬ (current.Shows .output t source ∧ current.Shows .input t target) := by
  obtain ⟨begins, exposed⟩ := mirrors_ofAnnotations consistent built
  constructor
  next =>
    intro removed workspace edited
    obtain ⟨current, mirrors⟩ := edited.mirrors begins
    refine ⟨current, mirrors.attached, fun node present => ?_, fun _ _ => mirrors.follows.sound.mem_consumers_iff⟩
    obtain ⟨id, represented⟩ := (mirrors.follows.covers node).mpr present
    exact ⟨id, Plane.representation_eq_ok.mpr represented⟩
  next =>
    intro removed workspace edited
    obtain ⟨current, mirrors, exposes⟩ := edited.exposes begins exposed
    refine ⟨⟨current, mirrors.attached, fun _ _ => exposes.mem_consumers_iff mirrors.follows.sound⟩, ?_⟩
    intro edit record after known applied loose
    obtain ⟨followed, mirrors', kept⟩ := mirrors.step known applied
    refine ⟨followed, mirrors'.attached, ?_⟩
    by_contra none
    refine loose ((kept exposes).mp fun {t source target} crosses _ => ?_)
    by_contra hidden
    exact none ⟨t, source, target, crosses, hidden⟩

def innerPair : GraphDescription :=
  { tensors := [{ name := "product" }]
    nodes := [{ name := "multiply", outputs := ["product"], bundle := some { bundleIndex := 0 } },
      { name := "add", inputs := ["product"], bundle := some { bundleIndex := 0 } }] }

def innerPairPlane : Plane := (Plane.ofAnnotations innerPair.graph fun _ => true).toOption.getD {}

def probeInner : Edit := .addNode { name := "probe" } [⟨0⟩] []

def probedPair : Workspace :=
  finalState probeInner.apply { graph := innerPair.graph, plane := some innerPairPlane }

theorem hidden_probe_of_inner_tensor : ∃ current, probedPair.plane = some current ∧
    current.Crosses probedPair.graph ⟨0⟩ ⟨0⟩ ⟨1⟩ ∧ current.graph.consumers ⟨0⟩ = [] ∧
    ¬ ∃ t, current.Crosses probedPair.graph t ⟨0⟩ ⟨1⟩ ∧ current.Shows .output t ⟨0⟩ ∧ current.Shows .input t ⟨1⟩ := by
  have consistent := innerPair.consistent_graph
  have built : Plane.ofAnnotations innerPair.graph (fun _ => true) = .ok innerPairPlane := rfl
  have applied : probeInner.apply { graph := innerPair.graph, plane := some innerPairPlane } = .ok none probedPair := rfl
  have edited : Edited (fun _ _ => True) { graph := innerPair.graph, plane := some innerPairPlane } [] probedPair :=
    .step .start (by unfold probeInner; rintro node ⟨⟩) trivial applied
  obtain ⟨current, attached, -, edges⟩ := (plane_edge_iff_shown consistent built).1 [] probedPair edited
  have alone : current.graph.consumers ⟨0⟩ = [] := by cases attached; rfl
  have crosses : current.Crosses probedPair.graph ⟨0⟩ ⟨0⟩ ⟨1⟩ := by
    cases attached
    exact ⟨by decide, ⟨0⟩, ⟨2⟩, ⟨_, rfl, rfl, by decide⟩, rfl, rfl⟩
  refine ⟨current, attached, crosses, alone, fun shown => ?_⟩
  have edge := (edges ⟨0⟩ ⟨1⟩).mpr shown
  rw [alone] at edge
  cases edge

end Workspace

end Dataflow
