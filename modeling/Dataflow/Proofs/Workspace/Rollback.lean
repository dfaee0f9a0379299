import Dataflow.Proofs.Description.Build
import Dataflow.Proofs.Graph.Inverse
import Dataflow.Proofs.Workspace.Basic
import Dataflow.Workspace.Transaction

set_option autoImplicit false

namespace Dataflow

theorem Plane.unlessFrozen_frozen {plane : Plane} (update : PlaneM Unit) (frozen : plane.frozen = true) :
    unlessFrozen update plane = .ok () plane := by
  unfold unlessFrozen
  rw [stateful_get_bind, frozen]
  rfl

namespace Workspace

variable {workspace : Workspace}

def Isolated (workspace : Workspace) : Prop := ∀ plane, workspace.plane = some plane → plane.frozen = true

def Ignored (update : PlaneM Unit) : Prop := ∀ plane : Plane, plane.frozen = true → update plane = .ok () plane

theorem ignored_unlessFrozen (update : PlaneM Unit) : Ignored (Plane.unlessFrozen update) :=
  fun _ frozen => Plane.unlessFrozen_frozen update frozen

theorem Ignored.bind {first second : PlaneM Unit} (ignored : Ignored first) (ignored' : Ignored second) :
    Ignored (first >>= fun _ => second) := by
  intro plane frozen
  rw [stateful_bind_of_ok _ (ignored plane frozen)]
  exact ignored' plane frozen

theorem Ignored.forM {α : Type} {update : α → PlaneM Unit} (ignored : ∀ item, Ignored (update item))
    (items : List α) : Ignored (items.forM update) := by
  induction items with
  | nil => exact fun _ _ => rfl
  | cons item rest ih =>
    exact (ignored item).bind ih

theorem onPlane_isolated (isolated : workspace.Isolated) {update : Graph → PlaneM Unit}
    (ignored : Ignored (update workspace.graph)) : onPlane update workspace = .ok () workspace := by
  cases attached : workspace.plane with
  | none => exact onPlane_of_none update attached
  | some plane =>
    rw [onPlane_of_ok attached (ignored plane (isolated plane attached)), ← attached]

theorem mirrored_isolated {α : Type} (isolated : workspace.Isolated) {edit : Graph → Except GraphError (α × Graph)}
    {update : α → Graph → PlaneM Unit} (ignored : ∀ answer graph, Ignored (update answer graph)) :
    (onGraph edit >>= fun answer => onPlane (update answer) >>= fun _ => pure answer : EditM α) workspace =
      onGraph edit workspace := by
  cases made : edit workspace.graph with
  | error error =>
    rw [onGraph_of_error made]
    show EStateM.bind (onGraph edit) _ workspace = _
    unfold EStateM.bind
    rw [onGraph_of_error made]
  | ok pair =>
    obtain ⟨answer, graph⟩ := pair
    rw [stateful_bind_of_ok _ (onGraph_of_ok made), onGraph_of_ok made]
    have kept : Isolated { workspace with graph } := isolated
    rw [stateful_bind_of_ok _ (onPlane_isolated kept (ignored _ _))]
    rfl

section Isolated

variable (isolated : workspace.Isolated)

include isolated

theorem addNode_isolated (spec : NodeSpec) (inputs outputs : List TensorId) :
    addNode spec inputs outputs workspace = onGraph (fun graph => graph.addNode spec inputs outputs) workspace :=
  mirrored_isolated isolated fun _ _ => ignored_unlessFrozen _

theorem removeNode_isolated (id : NodeId) :
    removeNode id workspace = onGraph (fun graph => graph.removeNode id) workspace :=
  mirrored_isolated isolated fun _ _ => ignored_unlessFrozen _

theorem addControlEdge_isolated (blocking blocked : NodeId) (type : ControlType) :
    addControlEdge blocking blocked type workspace =
      onGraph (fun graph => graph.addControlEdge blocking blocked type) workspace :=
  mirrored_isolated isolated fun _ _ => ignored_unlessFrozen _

theorem restoreNode_isolated {node : Node} {graph : Graph} (restored : workspace.graph.restoreNode node = .ok graph) :
    restoreNode node workspace = .ok () { workspace with graph } := by
  have edited : (do return ((), ← workspace.graph.restoreNode node) : Except GraphError (Unit × Graph)) =
      .ok ((), graph) := by
    rw [restored]
    rfl
  have kept : Isolated { workspace with graph } := isolated
  unfold restoreNode
  rw [stateful_bind_of_ok _ (onGraph_of_ok edited)]
  exact onPlane_isolated kept (ignored_unlessFrozen _)

theorem removeControlEdge_isolated {t : TensorId} {graph : Graph}
    (removed : workspace.graph.removeControlEdge t = .ok graph) :
    removeControlEdge t workspace = .ok () { workspace with graph } := by
  have edited : (do return ((), ← workspace.graph.removeControlEdge t) : Except GraphError (Unit × Graph)) =
      .ok ((), graph) := by
    rw [removed]
    rfl
  have kept : Isolated { workspace with graph } := isolated
  have consumed (consumers : List NodeId) :
      Ignored (consumers.forM fun consumer => Plane.removeRelationship t consumer .input) :=
    .forM (fun _ => ignored_unlessFrozen _) consumers
  unfold removeControlEdge
  rw [stateful_get_bind]
  dsimp only
  rw [stateful_bind_of_ok _ (onGraph_of_ok edited)]
  refine onPlane_isolated kept ?_
  split
  next => exact consumed _
  next => exact (ignored_unlessFrozen _).bind (consumed _)

end Isolated

end Workspace

namespace Transaction

open Workspace

inductive Request where
  | addNode (spec : NodeSpec) (inputs outputs : List TensorId)
  | removeNode (id : NodeId)
  | addControlEdge (blocking blocked : NodeId) (type : ControlType)

def Request.make : Request → TransactionM Unit
  | .addNode spec inputs outputs => discard <| Transaction.addNode spec inputs outputs
  | .removeNode id => Transaction.removeNode id
  | .addControlEdge blocking blocked type => discard <| Transaction.addControlEdge blocking blocked type

def attempt (transaction : Transaction) (request : Request) : Transaction := finalState request.make transaction

inductive Inverts (graph : Graph) : Undo → Graph → Prop
  | addNode {spec : NodeSpec} {inputs outputs : List TensorId} {id : NodeId} {after : Graph} :
    graph.addNode spec inputs outputs = .ok (id, after) → Inverts graph (.remove id) after
  | removeNode {id : NodeId} {node : Node} {after : Graph} :
    graph.removeNode id = .ok (node, after) → Inverts graph (.restore node) after
  | addControlEdge {blocking blocked : NodeId} {type : ControlType} {t : TensorId} {after : Graph} :
    graph.addControlEdge blocking blocked type = .ok (t, after) → Inverts graph (.removeControlEdge t) after

theorem Inverts.consistent {graph after : Graph} {undo : Undo} (consistent : graph.Consistent)
    (inverts : Inverts graph undo after) : after.Consistent := by
  cases inverts with
  | addNode added => exact consistent.addNode added
  | removeNode removed => exact consistent.removeNode removed
  | addControlEdge added =>
    obtain ⟨-, blocking, blocked, -, rfl, rfl⟩ := Graph.addControlEdge_eq_ok added
    exact consistent.withControl _ blocking blocked

theorem Inverts.applyUndo {graph after : Graph} {undo : Undo} (consistent : graph.Consistent)
    (inverts : Inverts graph undo after) {workspace : Workspace} (isolated : workspace.Isolated)
    (same : after.SameRecords workspace.graph) :
    ∃ final, Transaction.applyUndo undo workspace = .ok () { workspace with graph := final } ∧
      graph.SameRecords final := by
  cases inverts with
  | addNode added =>
    obtain ⟨node, final, removed, back⟩ := same.undo_addNode consistent.toLinked added
    refine ⟨final, stateful_discard_eq_ok.mpr ⟨node, ?_⟩, back⟩
    rw [removeNode_isolated isolated]
    exact onGraph_of_ok removed
  | removeNode removed =>
    obtain ⟨final, restored, back⟩ := same.undo_removeNode consistent removed
    exact ⟨final, restoreNode_isolated isolated restored, back⟩
  | addControlEdge added =>
    obtain ⟨final, removed, back⟩ := same.undo_addControlEdge consistent.toLinked added
    exact ⟨final, removeControlEdge_isolated isolated removed, back⟩

section Attempt

variable {transaction : Transaction}

def advanced (transaction : Transaction) (undo : Undo) (graph : Graph) : Transaction :=
  { transaction with
    workspace := { transaction.workspace with graph }, undo := undo :: transaction.undo }

theorem recorded_of_ok {α : Type} {edit : EditM α} (inverse : α → Undo)
    {change : Graph → Except GraphError (α × Graph)} {answer : α} {graph : Graph}
    (acts : edit transaction.workspace = onGraph change transaction.workspace)
    (made : change transaction.workspace.graph = .ok (answer, graph)) :
    recorded edit inverse transaction = .ok answer (transaction.advanced (inverse answer) graph) := by
  unfold recorded
  rw [stateful_get_bind]
  rw [acts, onGraph_of_ok made]
  rfl

theorem recorded_isolated {α : Type} {edit : EditM α} (inverse : α → Undo)
    {change : Graph → Except GraphError (α × Graph)}
    (acts : edit transaction.workspace = onGraph change transaction.workspace) :
    (∃ error, discard (recorded edit inverse) transaction = .error error transaction) ∨
      ∃ answer graph, change transaction.workspace.graph = .ok (answer, graph) ∧
        discard (recorded edit inverse) transaction = .ok () (transaction.advanced (inverse answer) graph) := by
  cases made : change transaction.workspace.graph with
  | error error =>
    refine Or.inl ⟨error, ?_⟩
    show EStateM.map _ (recorded edit inverse) transaction = _
    unfold EStateM.map recorded
    rw [stateful_get_bind]
    rw [acts, onGraph_of_error made]
    rfl
  | ok pair =>
    obtain ⟨answer, graph⟩ := pair
    exact Or.inr ⟨answer, graph, rfl, stateful_discard_eq_ok.mpr ⟨answer, recorded_of_ok inverse acts made⟩⟩

theorem attempt_of_error {request : Request} {error : GraphError}
    (refused : request.make transaction = .error error transaction) : transaction.attempt request = transaction := by
  unfold attempt finalState
  rw [refused]

theorem attempt_of_ok {request : Request} {after : Transaction} (made : request.make transaction = .ok () after) :
    transaction.attempt request = after := by
  unfold attempt finalState
  rw [made]

theorem attempt_eq (isolated : transaction.workspace.Isolated) (request : Request) :
    transaction.attempt request = transaction ∨ ∃ undo graph, Inverts transaction.workspace.graph undo graph ∧
      transaction.attempt request = transaction.advanced undo graph := by
  cases request with
  | addNode spec inputs outputs =>
    rcases recorded_isolated .remove (addNode_isolated isolated spec inputs outputs) with
      ⟨error, refused⟩ | ⟨id, graph, added, made⟩
    next => exact Or.inl (attempt_of_error refused)
    next => exact Or.inr ⟨_, graph, .addNode added, attempt_of_ok made⟩
  | removeNode id =>
    rcases recorded_isolated .restore (removeNode_isolated isolated id) with
      ⟨error, refused⟩ | ⟨node, graph, removed, made⟩
    next => exact Or.inl (attempt_of_error refused)
    next => exact Or.inr ⟨_, graph, .removeNode removed, attempt_of_ok made⟩
  | addControlEdge blocking blocked type =>
    rcases recorded_isolated .removeControlEdge (addControlEdge_isolated isolated blocking blocked type) with
      ⟨error, refused⟩ | ⟨t, graph, added, made⟩
    next => exact Or.inl (attempt_of_error refused)
    next => exact Or.inr ⟨_, graph, .addControlEdge added, attempt_of_ok made⟩

end Attempt

-- The inverses lead back from every graph with the current records, not only from the current one.
structure Reversible (initial : Workspace) (transaction : Transaction) : Prop where
  plane : transaction.workspace.plane = initial.plane
  consistent : transaction.workspace.graph.Consistent
  undone : ∀ later, transaction.workspace.graph.SameRecords later →
    ∃ final, transaction.undo.forM applyUndo { transaction.workspace with graph := later } =
      .ok () { initial with graph := final } ∧ initial.graph.SameRecords final

namespace Reversible

variable {initial : Workspace} {transaction : Transaction}

theorem isolated (reversible : Reversible initial transaction) (isolated : initial.Isolated) :
    transaction.workspace.Isolated := by
  intro plane attached
  exact isolated plane (reversible.plane.symm.trans attached)

theorem advanced (isolated : initial.Isolated) (reversible : Reversible initial transaction) {undo : Undo}
    {graph : Graph} (inverts : Inverts transaction.workspace.graph undo graph) :
    Reversible initial (transaction.advanced undo graph) where
  plane := reversible.plane
  consistent := inverts.consistent reversible.consistent
  undone := by
    intro later same
    have current : Isolated { transaction.workspace with graph := later } := reversible.isolated isolated
    -- The inverse of this edit comes first and leaves a graph from which the earlier ones lead on.
    obtain ⟨between, applied, back⟩ := inverts.applyUndo reversible.consistent current same
    obtain ⟨final, rest, restored⟩ := reversible.undone between back
    exact ⟨final, (stateful_bind_of_ok (fun _ => transaction.undo.forM applyUndo) applied).trans rest, restored⟩

theorem attempt (isolated : initial.Isolated) (reversible : Reversible initial transaction) (request : Request) :
    Reversible initial (transaction.attempt request) ∧ (transaction.attempt request).froze = transaction.froze := by
  rcases attempt_eq (reversible.isolated isolated) request with unchanged | ⟨undo, graph, inverts, moved⟩
  next =>
    rw [unchanged]
    exact ⟨reversible, rfl⟩
  next =>
    rw [moved]
    exact ⟨reversible.advanced isolated inverts, rfl⟩

theorem attempts (isolated : initial.Isolated) (reversible : Reversible initial transaction)
    (requests : List Request) : Reversible initial (requests.foldl Transaction.attempt transaction) ∧
      (requests.foldl Transaction.attempt transaction).froze = transaction.froze := by
  induction requests generalizing transaction with
  | nil => exact ⟨reversible, rfl⟩
  | cons request rest ih =>
    obtain ⟨next, froze⟩ := reversible.attempt isolated request
    obtain ⟨final, kept⟩ := ih next
    exact ⟨final, kept.trans froze⟩

theorem begin (consistent : initial.graph.Consistent) (froze : Bool) :
    Reversible initial { workspace := initial, froze } where
  plane := rfl
  consistent := consistent
  undone := fun later same => ⟨later, rfl, same⟩

theorem rollback (reversible : Reversible initial transaction) :
    ∃ final, transaction.rollback = .ok { initial with graph := final } ∧ initial.graph.SameRecords final := by
  obtain ⟨final, applied, same⟩ := reversible.undone _ (.refl _)
  refine ⟨final, ?_, same⟩
  unfold Transaction.rollback
  rw [applied]

end Reversible

def thawed (froze : Bool) (workspace : Workspace) : Workspace :=
  if froze then { workspace with plane := workspace.plane.map fun plane => { plane with frozen := false } }
  else workspace

theorem Reversible.finish {initial : Workspace} {transaction : Transaction}
    (reversible : Reversible initial transaction) :
    ∃ final, transaction.finish false = .ok (thawed transaction.froze { initial with graph := final }) ∧
      initial.graph.SameRecords final := by
  obtain ⟨final, rolled, same⟩ := reversible.rollback
  refine ⟨final, ?_, same⟩
  unfold Transaction.finish
  simp only [Bool.false_eq_true, if_false, rolled]
  cases transaction.froze <;> rfl

theorem finish_attempts {initial : Workspace} (isolated : initial.Isolated) (consistent : initial.graph.Consistent)
    (froze : Bool) (requests : List Request) :
    ∃ final, (requests.foldl attempt { workspace := initial, froze }).finish false =
      .ok (thawed froze { initial with graph := final }) ∧ initial.graph.SameRecords final := by
  obtain ⟨reversible, kept⟩ := (Reversible.begin consistent froze).attempts isolated requests
  obtain ⟨final, finished, same⟩ := reversible.finish
  rw [kept] at finished
  exact ⟨final, finished, same⟩

theorem speculate_eq (workspace : Workspace) :
    ∃ initial froze, speculate workspace = { workspace := initial, froze } ∧ initial.Isolated ∧
      initial.graph = workspace.graph ∧
      ∀ graph, thawed froze { initial with graph } = { workspace with graph } := by
  unfold speculate
  split
  next none =>
    refine ⟨workspace, false, rfl, ?_, rfl, fun _ => rfl⟩
    intro plane attached
    cases none.symm.trans attached
  next plane attached =>
    split
    next frozen =>
      refine ⟨workspace, false, rfl, ?_, rfl, fun _ => rfl⟩
      intro same attached'
      cases attached.symm.trans attached'
      exact frozen
    next thaw =>
      refine ⟨_, true, rfl, ?_, rfl, ?_⟩
      next =>
        rintro _ ⟨⟩
        rfl
      next =>
        intro graph
        have unfrozen : { plane with frozen := false } = plane := by rw [← Bool.not_eq_true _ |>.mp thaw]
        show Workspace.mk graph (some { plane with frozen := false }) = _
        rw [unfrozen, ← attached]

theorem finish_restores_records {workspace : Workspace} (consistent : workspace.graph.Consistent)
    (requests : List Request) :
    (workspace.plane = none → ∃ after, (requests.foldl attempt (start workspace)).finish false = .ok after ∧
      workspace.graph.SameRecords after.graph ∧ after.plane = none) ∧
    ∃ after, (requests.foldl attempt (speculate workspace)).finish false = .ok after ∧
      workspace.graph.SameRecords after.graph ∧ after.plane = workspace.plane := by
  have unfrozen (isolated : workspace.Isolated) :
      ∃ after, (requests.foldl attempt (start workspace)).finish false = .ok after ∧
        workspace.graph.SameRecords after.graph ∧ after.plane = workspace.plane := by
    obtain ⟨final, finished, same⟩ := finish_attempts isolated consistent false requests
    exact ⟨_, finished, same, rfl⟩
  have absent (none : workspace.plane = none) : workspace.Isolated := by
    intro plane attached
    cases none.symm.trans attached
  constructor
  next =>
    intro none
    obtain ⟨after, finished, same, plane⟩ := unfrozen (absent none)
    exact ⟨after, finished, same, plane.trans none⟩
  next =>
    unfold speculate
    split
    next none => exact unfrozen (absent none)
    next plane attached =>
      split
      next frozen =>
        refine unfrozen fun same attached' => ?_
        cases attached.symm.trans attached'
        exact frozen
      next thaw =>
        -- The transaction has frozen the plane by itself, and thaws it at its end.
        have isolated : Isolated { workspace with plane := some { plane with frozen := true } } := by
          rintro _ ⟨⟩
          rfl
        obtain ⟨final, finished, same⟩ := finish_attempts isolated consistent true requests
        refine ⟨_, finished, same, ?_⟩
        show some { plane with frozen := false } = workspace.plane
        rw [attached, ← Bool.not_eq_true _ |>.mp thaw]

def bundledChain : GraphDescription :=
  { tensors := [{ name := "loaded" }, { name := "product" }]
    nodes := [{ name := "load", outputs := ["loaded"] },
      { name := "multiply", inputs := ["loaded"], outputs := ["product"], bundle := some { bundleIndex := 0 } },
      { name := "store", inputs := ["product"], bundle := some { bundleIndex := 0 } }] }

def bundledChainWorkspace : Workspace :=
  { graph := bundledChain.graph, plane := (Plane.ofAnnotations bundledChain.graph fun _ => true).toOption }

def trials : List Request :=
  [.addNode { name := "copy" } [⟨0⟩] [], .addControlEdge ⟨3⟩ ⟨2⟩ .memory, .addControlEdge ⟨2⟩ ⟨0⟩ .memory,
    .removeNode ⟨3⟩, .removeNode ⟨1⟩, .addNode { name := "fused" } [⟨0⟩] [⟨1⟩], .addNode { name := "again" } [] [⟨1⟩]]

theorem finish_trials : (trials.foldl attempt (speculate bundledChainWorkspace)).undo.length = 5 ∧
    ∃ after, (trials.foldl attempt (speculate bundledChainWorkspace)).finish false = .ok after ∧
      after.graph.nodes = bundledChain.graph.nodes ∧ after.graph.tensors = bundledChain.graph.tensors ∧
      after.plane.isSome = true ∧ after.plane = bundledChainWorkspace.plane := by
  have consistent : bundledChainWorkspace.graph.Consistent := bundledChain.consistent_graph
  obtain ⟨after, finished, same, plane⟩ := (finish_restores_records consistent trials).2
  exact ⟨by decide, after, finished, same.nodes, same.tensors, by rw [plane]; rfl, plane⟩

end Transaction

end Dataflow
