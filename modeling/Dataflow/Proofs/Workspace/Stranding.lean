import Dataflow.Proofs.Plane.Catalogue
import Dataflow.Proofs.Plane.Restoring
import Dataflow.Proofs.Workspace.Quotient

set_option autoImplicit false

namespace Dataflow

namespace Graph

variable {graph after : Graph}

theorem Keyed.attach (keyed : graph.Keyed) (node : Node) : (graph.attach node).Keyed := by
  intro id found there
  rw [get?_nodes_attach] at there
  split at there
  next own => cases there; exact own.symm
  next => exact keyed id found there

theorem Keyed.detach (keyed : graph.Keyed) (node : Node) : (graph.detach node).Keyed := by
  intro id found there
  rw [get?_nodes_detach] at there
  split at there
  next => cases there
  next => exact keyed id found there

theorem Keyed.of_changes (keyed : graph.Keyed) (change : NodeId → Node → Node)
    (nodes : ∀ id, after.nodes.get? id = (graph.nodes.get? id).map (change id))
    (same : ∀ id node, (change id node).id = node.id) : after.Keyed := by
  intro id found there
  rw [nodes] at there
  obtain ⟨node, present, rfl⟩ := Option.map_eq_some_iff.mp there
  exact (same id node).trans (keyed id node present)

end Graph

inductive Change where
  | edit (made : Edit)
  | rebundle (operation : Plane.Rebundling)
  | fuse (nodes : List PlaneNodeId) (info : BundleInfo)
  | freeze
  | unfreeze

def Change.apply : Change → EditM Unit
  | .edit made => discard made.apply
  | .rebundle operation => Workspace.onPlane fun graph => operation.perform graph
  | .fuse nodes info => Workspace.onPlane fun _ => discard <| Plane.fuse nodes info
  | .freeze => Workspace.onPlane fun _ => Plane.freeze
  | .unfreeze => Workspace.onPlane fun _ => Plane.unfreeze

namespace Workspace

variable {workspace start : Workspace} {graph : Graph}

inductive Reached (start : Workspace) : Workspace → Prop
  | start : Reached start start
  | step {workspace after : Workspace} {change : Change} (reached : Reached start workspace)
      (left : ConcludesIn change.apply workspace after) : Reached start after

-- Holds however far the plane and the graph have drifted apart.
structure Orderly (workspace : Workspace) : Prop where
  keyed : workspace.graph.Keyed
  seated : ∃ plane, workspace.plane = some plane ∧ plane.Seated

namespace Orderly

theorem onGraph {α : Type} (orderly : workspace.Orderly) {edit : Graph → Except GraphError (α × Graph)}
    (keyed : ∀ {answer graph}, edit workspace.graph = .ok (answer, graph) → graph.Keyed) :
    Maintains Orderly (onGraph edit) workspace := by
  cases made : edit workspace.graph with
  | error error => exact concludes_of_refused (onGraph_of_error made) orderly
  | ok pair =>
    obtain ⟨answer, graph⟩ := pair
    exact concludes_of_ok (onGraph_of_ok made) ⟨keyed made, orderly.seated⟩

theorem onPlane (orderly : workspace.Orderly) {update : Graph → PlaneM Unit}
    (seats : ∀ {plane}, plane.Seated → Maintains Plane.Seated (update workspace.graph) plane) :
    Maintains Orderly (onPlane update) workspace := by
  obtain ⟨plane, attached, seated⟩ := orderly.seated
  cases ran : update workspace.graph plane with
  | ok _ after =>
    exact concludes_of_ok (onPlane_of_ok attached ran) ⟨orderly.keyed, after, rfl, (seats seated).ok ran⟩
  | error error after =>
    refine concludes_of_error (onPlane_of_error attached ran) (((seats seated).error ran).imp_right fun seated => ?_)
    exact ⟨orderly.keyed, after, rfl, seated⟩

theorem mirrored {α : Type} (orderly : workspace.Orderly) {edit : Graph → Except GraphError (α × Graph)}
    {update : α → Graph → PlaneM Unit}
    (keyed : ∀ {answer graph}, edit workspace.graph = .ok (answer, graph) → graph.Keyed)
    (seats : ∀ answer graph {plane}, plane.Seated → Maintains Plane.Seated (update answer graph) plane) :
    Maintains Orderly (Workspace.onGraph edit >>= fun answer => Workspace.onPlane (update answer) >>= fun _ => pure answer)
      workspace :=
  (orderly.onGraph keyed).bind fun {answer _} _ orderly =>
    (orderly.onPlane (seats answer _)).bind fun _ orderly => concludes_of_ok rfl orderly

theorem edit (orderly : workspace.Orderly) (edit : Edit) : Maintains Orderly edit.apply workspace := by
  have keyed := orderly.keyed
  cases edit with
  | addNode spec inputs outputs =>
    refine (orderly.mirrored (fun added => ?_) fun id graph {_} seated => ?_).discard.bind fun _ orderly =>
      concludes_of_ok rfl orderly
    next =>
      obtain ⟨-, rfl, -⟩ := Graph.addNode_eq_ok added
      exact Graph.Keyed.attach keyed _
    next => exact Plane.Moves.seats seated (Plane.Moves.addNode .refl id)
  | removeNode id =>
    refine (orderly.mirrored (fun removed => ?_) fun node graph {_} seated => ?_).bind fun _ orderly =>
      concludes_of_ok rfl orderly
    next =>
      obtain ⟨-, rfl⟩ := Graph.removeNode_eq_ok removed
      exact keyed.detach _
    next => exact Plane.Moves.seats seated (Plane.Moves.removeNode .refl seated node none)
  | restoreNode node =>
    -- This edit and the last answer nothing, so they are not of the form of the others.
    refine ((orderly.onGraph fun restored => ?_).bind fun _ orderly => orderly.onPlane fun seated => ?_).bind
      fun _ orderly => concludes_of_ok rfl orderly
    next =>
      obtain ⟨_, restored, same⟩ := bind_eq_ok.mp restored
      cases same
      obtain ⟨-, rfl, -⟩ := Graph.restoreNode_eq_ok restored
      exact Graph.Keyed.attach keyed _
    next => exact Plane.Moves.seats seated (Plane.Moves.addNode .refl node.id)
  | replaceNode old spec =>
    refine (orderly.mirrored (fun replaced => ?_) fun new graph {_} seated => ?_).discard.bind fun _ orderly =>
      concludes_of_ok rfl orderly
    next =>
      obtain ⟨node, -, -, rfl⟩ := Graph.replaceNode_eq_ok replaced
      exact Graph.Keyed.attach (keyed.detach node) _
    next => exact Plane.Moves.seats seated (Plane.Moves.replaceNode .refl old new)
  | addControlEdge blocking blocked type =>
    refine (orderly.mirrored (fun added => ?_) fun t graph {_} seated => ?_).discard.bind fun _ orderly =>
      concludes_of_ok rfl orderly
    next =>
      obtain ⟨-, -, -, -, -, rfl⟩ := Graph.addControlEdge_eq_ok added
      exact keyed.of_changes _ (Graph.get?_nodes_withControl type) fun _ _ => rfl
    next => exact Plane.Moves.seats seated (Plane.Moves.addRelationship .refl t blocking blocked)
  | removeControlEdge t =>
    have updates : Maintains Orderly (Workspace.removeControlEdge t) workspace := by
      refine concludes_get_bind ?_
      refine (orderly.onGraph fun removed => ?_).bind fun _ orderly => orderly.onPlane fun seated => ?_
      next =>
        obtain ⟨_, removed, same⟩ := bind_eq_ok.mp removed
        cases same
        obtain ⟨_, -, -, -, -, nodes⟩ := Graph.removeControlEdge_eq_ok removed
        exact keyed.of_changes _ nodes fun _ _ => rfl
      next => exact Plane.Moves.seats seated (Plane.Moves.disconnect .refl t _ _)
    exact updates.bind fun _ orderly => concludes_of_ok rfl orderly

theorem change (orderly : workspace.Orderly) (change : Change) : Maintains Orderly change.apply workspace := by
  unfold Change.apply
  cases change with
  | edit made => exact (orderly.edit made).discard
  | rebundle operation =>
    exact orderly.onPlane fun seated => Plane.Moves.seats seated (Plane.Moves.perform .refl seated False.elim)
  | fuse nodes info => exact orderly.onPlane fun seated => (seated.fuse nodes info).discard
  | freeze => exact orderly.onPlane fun seated => Plane.Moves.seats seated (Plane.Moves.freeze .refl)
  | unfreeze => exact orderly.onPlane fun seated => Plane.Moves.seats seated (Plane.Moves.unfreeze .refl)

end Orderly

theorem Reached.orderly (orderly : start.Orderly) (reached : Reached start workspace) : workspace.Orderly := by
  induction reached with
  | start => exact orderly
  | step _ left orderly => exact (orderly.change _).leaves left

theorem refused_unchanged_or_stranded (consistent : graph.Consistent) :
    ∃ start, Plane.ofGraph graph = .ok start ∧ ∀ workspace, Reached { graph, plane := some start } workspace →
      ∃ current, workspace.plane = some current ∧ ∀ operation : Plane.Rebundling,
        (¬ operation.Breaks workspace.graph current → ∀ error after,
          operation.perform workspace.graph current = .error error after →
            (∃ fault, error = .fault fault) ∨ after = current) ∧
        (operation.Breaks workspace.graph current → ∃ found error after,
          operation.perform workspace.graph current = .error error after ∧
            current.Strands workspace.graph found error after) := by
  obtain ⟨start, made, -⟩ := Plane.ofGraph_ok consistent
  refine ⟨start, made, fun workspace reached => ?_⟩
  -- A graph and a plane that drift apart stay orderly each for itself, which is all that the operations need.
  have begins : Orderly { graph, plane := some start } :=
    ⟨fun _ _ there => consistent.nodeKey there, start, rfl, Plane.seated_ofGraph made⟩
  have orderly := reached.orderly begins
  obtain ⟨current, attached, seated⟩ := orderly.seated
  refine ⟨current, attached, fun operation => ⟨fun careful error after failed => ?_, fun breaks => ?_⟩⟩
  next => exact (operation.declines seated orderly.keyed careful).error failed
  next => exact operation.strands seated orderly.keyed breaks

def pairedPlane : Plane := finalState (Plane.createBundle [⟨1⟩, ⟨0⟩] { bundleIndex := 7 }) Plane.handoverPlane

def unstoredGraph : Graph := ((Plane.handover.graph.removeNode ⟨1⟩).toOption.map Prod.snd).getD {}

theorem reached_unstored : Reached { graph := Plane.handover.graph, plane := some Plane.handoverPlane }
    { graph := unstoredGraph, plane := some pairedPlane } := by
  let pair : Plane.Regrouping := .create [⟨1⟩, ⟨0⟩] { bundleIndex := 7 }
  have paired : ConcludesIn (Change.rebundle (.regroup pair)).apply
      { graph := Plane.handover.graph, plane := some Plane.handoverPlane }
      { graph := Plane.handover.graph, plane := some pairedPlane } := Or.inl ⟨(), rfl⟩
  have frozen : ConcludesIn Change.freeze.apply { graph := Plane.handover.graph, plane := some pairedPlane }
      { graph := Plane.handover.graph, plane := some { pairedPlane with frozen := true } } := Or.inl ⟨(), rfl⟩
  have removed : ConcludesIn (Change.edit (.removeNode ⟨1⟩)).apply
      { graph := Plane.handover.graph, plane := some { pairedPlane with frozen := true } }
      { graph := unstoredGraph, plane := some { pairedPlane with frozen := true } } := Or.inl ⟨(), rfl⟩
  have thawed : ConcludesIn Change.unfreeze.apply
      { graph := unstoredGraph, plane := some { pairedPlane with frozen := true } }
      { graph := unstoredGraph, plane := some pairedPlane } := Or.inl ⟨(), rfl⟩
  exact .step (.step (.step (.step .start paired) frozen) removed) thawed

theorem unstored_bundle_stranded : ∃ found after,
    Plane.removeBundle unstoredGraph ⟨0⟩ pairedPlane = .error (.nodeNotFound ⟨1⟩) after ∧
      pairedPlane.Strands unstoredGraph found (.nodeNotFound ⟨1⟩) after ∧
      pairedPlane.nodeOf.get? ⟨0⟩ = some ⟨2⟩ ∧ after.nodeOf.get? ⟨0⟩ = none := by
  have made : Plane.ofGraph Plane.handover.graph = .ok Plane.handoverPlane := rfl
  obtain ⟨start, made', histories⟩ := refused_unchanged_or_stranded Plane.handover.consistent_graph
  cases made.symm.trans made'
  obtain ⟨current, attached, operations⟩ := histories _ reached_unstored
  cases attached
  have frail : pairedPlane.Frail unstoredGraph ⟨0⟩ := ⟨_, rfl, rfl, by decide, ⟨1⟩, by decide, _, .node rfl⟩
  obtain ⟨found, error, after, failed, strands⟩ := (operations (.regroup (.remove ⟨0⟩))).2 frail
  cases failed
  exact ⟨found, _, rfl, strands, rfl, rfl⟩

end Workspace

end Dataflow
