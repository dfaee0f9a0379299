import Dataflow.Proofs.Description.Build
import Dataflow.Proofs.Plane.Departure
import Dataflow.Proofs.Plane.Tiling

set_option autoImplicit false

namespace Dataflow

namespace Graph

variable {graph : Graph} {members others : List NodeId}

theorem enters_congr (same : ∀ node, node ∈ members ↔ node ∈ others) (t : TensorId) :
    graph.Enters members t ↔ graph.Enters others t := by
  simp only [Enters, same]

theorem leaves_congr (same : ∀ node, node ∈ members ↔ node ∈ others) (t : TensorId) :
    graph.Leaves members t ↔ graph.Leaves others t := by
  simp only [Leaves, same]

end Graph

namespace Plane

variable {graph : Graph} {plane : Plane} {done : List NodeId}

theorem Tiles.fuse (consistent : graph.Consistent) (tiles : Tiles graph graph.nodeIds plane) (nodes : List PlaneNodeId)
    (info : BundleInfo) : Maintains (Tiles graph graph.nodeIds) (fuse nodes info) plane := by
  constructor
  case ok =>
    intro id after fused
    obtain ⟨members, mapped, rfl⟩ := fuse_eq_ok fused
    have distinct := tiles.nodup_members (List.nodup_eraseDups nodes) mapped
    exact tiles.merged consistent (members_of_mapM mapped) info distinct
  case error =>
    intro error after failed
    refine (fuse_eq_error failed).imp_right fun same => ?_
    rw [same]
    exact tiles

section Operations

variable (consistent : graph.Consistent) (tiles : Tiles graph graph.nodeIds plane)

include tiles

theorem Tiles.addNewBundle (node : NodeId) (info : BundleInfo) :
    Maintains (Tiles graph graph.nodeIds) (addNewBundle node info) plane := by
  unfold Plane.addNewBundle
  refine concludes_query_bind tiles fun {id} _ => concludes_query_bind tiles fun {found} _ => ?_
  by_cases already : found.isBundle
  next => rw [if_pos already]; exact concludes_of_ok rfl tiles
  next =>
    rw [if_neg already]
    let bundled (found : PlaneNode) : PlaneNode := { found with bundle := some info, name := bundleName info }
    have changed := tiles.modifyNode id bundled (fun _ => rfl) (fun _ => rfl) (fun _ => rfl) (fun _ => rfl)
      fun _ none => nomatch none
    exact concludes_of_ok rfl (changed.setBundles _)

theorem Tiles.disband {id : PlaneNodeId} {found : PlaneNode} (there : plane.graph.nodes.get? id = some found)
    (alone : found.members.length = 1) (info : BundleInfo) :
    Maintains (Tiles graph graph.nodeIds) (forgetIndex info >>= fun _ => clearBundle found.id) plane := by
  let cleared (found : PlaneNode) : PlaneNode := { found with bundle := none }
  have changed := tiles.modifyNode found.id cleared (fun _ => rfl) (fun _ => rfl) (fun _ => rfl) (fun _ => rfl)
    fun {own} ownThere _ => by
      rw [tiles.sound.indexed.nodeKey there] at ownThere
      cases there.symm.trans ownThere
      exact List.length_eq_one_iff.mp alone
  exact concludes_of_ok rfl (changed.setBundles (plane.bundleOf.erase info.bundleIndex))

include consistent

theorem Tiles.createBundle (nodes : List NodeId) (info : BundleInfo) :
    Maintains (Tiles graph graph.nodeIds) (createBundle nodes info) plane := by
  unfold Plane.createBundle
  by_cases empty : nodes.isEmpty
  next => rw [if_pos empty]; exact concludes_of_refused rfl tiles
  next =>
    rw [if_neg empty]
    refine concludes_get_bind ?_
    by_cases taken : plane.bundleOf.contains info.bundleIndex
    next => rw [if_pos taken]; exact concludes_of_refused rfl tiles
    next =>
      rw [if_neg taken]
      exact concludes_query_bind tiles fun _ => tiles.fuse consistent _ info

theorem Tiles.addToBundle (node : NodeId) (info : BundleInfo) :
    Maintains (Tiles graph graph.nodeIds) (addToBundle node info) plane := by
  unfold Plane.addToBundle
  refine concludes_get_bind ?_
  cases plane.bundleOf.get? info.bundleIndex with
  | none => exact tiles.addNewBundle node info
  | some bundle =>
    refine concludes_query_bind tiles fun {candidate} _ => ?_
    by_cases same : candidate = bundle
    next => rw [if_pos same]; exact concludes_of_ok rfl tiles
    next =>
      rw [if_neg same]
      by_cases bundled : (plane.graph.nodes.get? candidate).any PlaneNode.isBundle
      next => rw [if_pos bundled]; exact concludes_of_refused rfl tiles
      next =>
        rw [if_neg bundled]
        exact (tiles.fuse consistent _ info).discard.bind fun _ holds => concludes_of_ok rfl holds

theorem Tiles.dismantle_ok {found : PlaneNode} (there : plane.graph.nodes.get? found.id = some found) :
    ∃ final, (found.members.forM fun member =>
        match graph.get member with
        | .error error => throw error
        | .ok record => discard <| addSingle graph record) (plane.without found) = .ok ⟨⟩ final ∧
      Tiles graph graph.nodeIds final ∧ (plane.without found).GainsSingles final := by
  have known {member : NodeId} (inside : member ∈ found.members) : member ∈ graph.nodeIds :=
    (tiles.covers member).mp ⟨found.id, (tiles.sound.nodeOf_iff member found.id).mpr ⟨found, there, inside⟩⟩
  have steps : ∀ member ∈ found.members, ∃ node, graph.nodes.get? node.id = some node ∧ id member = node.id ∧
      (match graph.get member with
        | .error error => throw error
        | .ok record => discard <| addSingle graph record : PlaneM PUnit) = discard (addSingle graph node) := by
    intro member inside
    obtain ⟨record, present⟩ := (Graph.mem_nodeIds_iff member).mp (known inside)
    cases consistent.nodeKey present
    refine ⟨record, present, rfl, ?_⟩
    rw [Graph.get, present]
  obtain ⟨final, added, tiled, gains⟩ := (tiles.without there).addSingles_ok consistent id steps
    (by rw [List.map_id]; exact tiles.distinct there) (fun member inside => by simp [inside])
  refine ⟨final, added, tiled.congr fun node => ?_, gains⟩
  by_cases inside : node ∈ found.members
  next => simp [inside, known inside]
  next => simp [inside]

theorem Tiles.removeBundle (node : NodeId) :
    Maintains (Tiles graph graph.nodeIds) (removeBundle graph node) plane := by
  unfold Plane.removeBundle
  refine concludes_query_bind tiles fun {found} asked => ?_
  obtain ⟨id, -, there⟩ := planeNode_eq_ok.mp asked
  cases found.bundle with
  | none => exact concludes_of_refused rfl tiles
  | some info =>
    by_cases alone : found.members.length = 1
    next => simpa only [if_pos alone] using tiles.disband there alone info
    next =>
      simp only [if_neg alone]
      cases tiles.sound.indexed.nodeKey there
      obtain ⟨final, added, tiled, -⟩ :=
        (tiles.setBundles (plane.bundleOf.erase info.bundleIndex)).dismantle_ok consistent there
      exact concludes_of_ok added tiled

theorem Tiles.unbundle (node : NodeId) : Maintains (Tiles graph graph.nodeIds) (unbundle graph node) plane := by
  unfold Plane.unbundle
  refine concludes_query_bind tiles fun {found} asked => ?_
  obtain ⟨id, -, there⟩ := planeNode_eq_ok.mp asked
  cases found.bundle with
  | none => exact concludes_of_ok rfl tiles
  | some info =>
    by_cases alone : found.members.length = 1
    next => simpa only [if_pos alone] using tiles.disband there alone info
    next =>
      simp only [if_neg alone]
      exact (tiles.removeBundle consistent node).bind fun _ tiles => (tiles.createBundle consistent _ info).discard

end Operations

theorem ofGraph_ok (consistent : graph.Consistent) :
    ∃ plane, ofGraph graph = .ok plane ∧ Tiles graph graph.nodeIds plane ∧
      GainsSingles { accepts := fun _ => true } plane := by
  have steps : ∀ node ∈ graph.nodes.values, ∃ record, graph.nodes.get? record.id = some record ∧
      node.id = record.id ∧ (discard <| addSingle graph node) = discard (addSingle graph record) := by
    intro node listed
    obtain ⟨id, present⟩ := (Table.mem_values_iff _ node).mp listed
    cases consistent.nodeKey present
    exact ⟨node, present, rfl, rfl⟩
  have names := consistent.map_id_nodes
  obtain ⟨plane, added, tiles, gains⟩ := (tiles_empty graph fun _ => true).addSingles_ok consistent Node.id steps
    (by rw [names]; exact Graph.nodup_nodeIds) (fun _ _ => List.not_mem_nil)
  rw [names, List.nil_append] at tiles
  refine ⟨plane, ?_, tiles, gains⟩
  unfold ofGraph Plane.built
  rw [added]

inductive Regrouping where
  | create (nodes : List NodeId) (info : BundleInfo)
  | add (node : NodeId) (info : BundleInfo)
  | remove (node : NodeId)
  | unbundle (node : NodeId)

namespace Regrouping

def perform (graph : Graph) : Regrouping → PlaneM Unit
  | .create nodes info => discard <| createBundle nodes info
  | .add node info => discard <| addToBundle node info
  | .remove node => removeBundle graph node
  | .unbundle node => Plane.unbundle graph node

-- An operation that is refused leaves the plane as it has made it by then; only a fault ends the run.
def attempt (graph : Graph) (plane : Plane) (operation : Regrouping) : Except Fault Plane :=
  match operation.perform graph plane with
  | .ok _ after => .ok after
  | .error (.fault fault) _ => .error fault
  | .error _ after => .ok after

end Regrouping

def regroup (graph : Graph) (operations : List Regrouping) (start : Plane) : Except Fault Plane :=
  operations.foldlM (Regrouping.attempt graph) start

def Regrouped (graph : Graph) (plane : Plane) : Prop :=
  ∃ start operations, (ofGraph graph = .ok start ∨ ofAnnotations graph (fun _ => true) = .ok start) ∧
    regroup graph operations start = .ok plane

theorem Tiles.perform (consistent : graph.Consistent) (tiles : Tiles graph graph.nodeIds plane)
    (operation : Regrouping) : Maintains (Tiles graph graph.nodeIds) (operation.perform graph) plane := by
  cases operation with
  | create nodes info => exact (tiles.createBundle consistent nodes info).discard
  | add node info => exact (tiles.addToBundle consistent node info).discard
  | remove node => exact tiles.removeBundle consistent node
  | unbundle node => exact tiles.unbundle consistent node

theorem Tiles.attempt {after : Plane} {operation : Regrouping} (consistent : graph.Consistent)
    (tiles : Tiles graph graph.nodeIds plane) (attempted : operation.attempt graph plane = .ok after) :
    Tiles graph graph.nodeIds after := by
  have kept := tiles.perform consistent operation
  unfold Regrouping.attempt at attempted
  split at attempted
  next ran => cases attempted; exact kept.ok ran
  next => cases attempted
  next other failed =>
    cases attempted
    refine (kept.error failed).resolve_left ?_
    rintro ⟨fault, rfl⟩
    exact other fault rfl

theorem Regrouped.tiles (consistent : graph.Consistent) (regrouped : Regrouped graph plane) :
    Tiles graph graph.nodeIds plane := by
  obtain ⟨start, operations, made, ran⟩ := regrouped
  refine foldlM_invariant (fun tiles attempted => tiles.attempt consistent attempted) ?_ ran
  rcases made with made | made
  next =>
    obtain ⟨plane, made', tiles, -⟩ := ofGraph_ok consistent
    cases made.symm.trans made'
    exact tiles
  next => exact (built_of_ofAnnotations consistent made).1.toTiles

structure Partitions (graph : Graph) (plane : Plane) : Prop where
  mapped : ∀ node ∈ graph.nodeIds, ∃ id found, plane.nodeOf.get? node = some id ∧
    plane.graph.nodes.get? id = some found ∧ found.members.count node = 1
  owned : ∀ {id found}, plane.graph.nodes.get? id = some found → ∀ node ∈ found.members,
    node ∈ graph.nodeIds ∧ plane.nodeOf.get? node = some id
  single : ∀ {id found}, plane.graph.nodes.get? id = some found → found.bundle = none → found.members.length = 1

theorem Tiles.partitions (tiles : Tiles graph graph.nodeIds plane) : plane.Partitions graph where
  mapped := by
    intro node known
    obtain ⟨id, stands⟩ := (tiles.covers node).mpr known
    obtain ⟨found, there, inside⟩ := (tiles.sound.nodeOf_iff node id).mp stands
    exact ⟨id, found, stands, there, List.count_eq_one_of_mem (tiles.distinct there) inside⟩
  owned := by
    intro id found there node inside
    have stands := (tiles.sound.nodeOf_iff node id).mpr ⟨found, there, inside⟩
    exact ⟨(tiles.covers node).mp ⟨id, stands⟩, stands⟩
  single := fun there unbundled => List.length_eq_one_iff.mpr ((tiles.sound.faithful there).single unbundled)

end Plane

-- One member alone exposes all that it lists, except that what it lists on both sides may be missing.
structure PlaneNode.ExposesBoundary (graph : Graph) (tensorOf : Table TensorId PlaneTensorId) (node : PlaneNode) :
    Prop where
  cloned : ∀ {t}, graph.Enters node.members t ∨ graph.Leaves node.members t → ∃ clone, tensorOf.get? t = some clone
  inputs : 2 ≤ node.members.length → ∀ clone, clone ∈ node.inputs ↔
    ∃ t, graph.Enters node.members t ∧ tensorOf.get? t = some clone
  outputs : 2 ≤ node.members.length → ∀ clone, clone ∈ node.outputs ↔
    ∃ t, graph.Leaves node.members t ∧ tensorOf.get? t = some clone
  single : ∀ {member record}, node.members = [member] → graph.nodes.get? member = some record →
    (∀ clone ∈ node.inputs, ∃ t ∈ record.allInputs, tensorOf.get? t = some clone) ∧
    (∀ clone ∈ node.outputs, ∃ t ∈ record.allOutputs, tensorOf.get? t = some clone) ∧
    (∀ t ∈ record.allInputs, t ∉ record.allOutputs → node.Lists tensorOf .input t) ∧
    ∀ t ∈ record.allOutputs, t ∉ record.allInputs → node.Lists tensorOf .output t

theorem PlaneNode.Exact.lists_iff {graph : Graph} {tensorOf otherOf : Table TensorId PlaneTensorId}
    {node other : PlaneNode} (boundary : node.Exact graph tensorOf) (otherBoundary : other.Exact graph otherOf)
    (perm : node.members.Perm other.members) (usage : Usage) {t : TensorId} (straight : ¬ graph.Loops node.members t) :
    node.Lists tensorOf usage t ↔ other.Lists otherOf usage t := by
  have straight' : ¬ graph.Loops other.members t := by
    rintro ⟨member, tensor, alone, looped⟩
    rw [alone] at perm
    exact straight ⟨member, tensor, List.perm_singleton.mp perm, looped⟩
  cases usage with
  | input =>
    rw [boundary.input_iff straight, otherBoundary.input_iff straight']
    exact Graph.enters_congr (fun _ => perm.mem_iff) t
  | output =>
    rw [boundary.output_iff straight, otherBoundary.output_iff straight']
    exact Graph.leaves_congr (fun _ => perm.mem_iff) t

theorem PlaneNode.Exact.exposesBoundary {graph : Graph} {tensorOf : Table TensorId PlaneTensorId} {node : PlaneNode}
    (boundary : node.Exact graph tensorOf) (consistent : graph.Consistent) (faithful : node.Faithful graph tensorOf) :
    node.ExposesBoundary graph tensorOf := by
  have exposed (usage : Usage) (clone : PlaneTensorId) : clone ∈ node.exposed usage ↔
      ∃ t, node.Lists tensorOf usage t ∧ tensorOf.get? t = some clone := by
    constructor
    next =>
      intro lists
      obtain ⟨t, stands⟩ := faithful.cloned (PlaneNode.mem_exposed lists)
      exact ⟨t, ⟨clone, stands, lists⟩, stands⟩
    next =>
      rintro ⟨t, ⟨other, stands', lists⟩, stands⟩
      cases stands.symm.trans stands'
      exact lists
  constructor
  case cloned =>
    rintro t (enters | leaves)
    next => obtain ⟨clone, stands, -⟩ := boundary.enters enters; exact ⟨clone, stands⟩
    next => obtain ⟨clone, stands, -⟩ := boundary.leaves leaves; exact ⟨clone, stands⟩
  case inputs =>
    intro several clone
    simpa only [PlaneNode.exposed, boundary.input_iff (Graph.not_loops several _)] using exposed .input clone
  case outputs =>
    intro several clone
    simpa only [PlaneNode.exposed, boundary.output_iff (Graph.not_loops several _)] using exposed .output clone
  case single =>
    intro member record alone present
    refine ⟨fun clone lists => ?_, fun clone lists => ?_, fun t read unwritten => ?_, fun t written unread => ?_⟩
    next =>
      obtain ⟨t, lists, stands⟩ := (exposed .input clone).mp lists
      refine ⟨t, ?_, stands⟩
      have listed := boundary.input lists
      rw [alone, Graph.enters_single_iff consistent present, Graph.loops_single_iff consistent present] at listed
      exact listed.elim And.left fun looped => looped.1.1
    next =>
      obtain ⟨t, lists, stands⟩ := (exposed .output clone).mp lists
      refine ⟨t, ?_, stands⟩
      have listed := boundary.output lists
      rw [alone, Graph.loops_single_iff consistent present] at listed
      exact listed.elim (Graph.written_of_leaves consistent present) fun looped => looped.1.2
    next =>
      refine boundary.enters ?_
      rw [alone]
      exact (Graph.enters_single_iff consistent present).mpr ⟨read, unwritten⟩
    next =>
      refine boundary.leaves ?_
      rw [alone]
      exact Graph.leaves_single consistent present written unread

namespace Plane

variable {graph : Graph}

theorem regrouped_exposes_boundary (consistent : graph.Consistent) :
    (∃ start, ofGraph graph = .ok start) ∧
    (∀ plane, Regrouped graph plane → plane.Partitions graph ∧
      (∀ t other clone, plane.tensorOf.get? t = some clone → plane.tensorOf.get? other = some clone → t = other) ∧
      ∀ id found, plane.graph.nodes.get? id = some found → found.ExposesBoundary graph plane.tensorOf) ∧
    ∀ plane other, Regrouped graph plane → Regrouped graph other → ∀ id otherId found otherFound,
      plane.graph.nodes.get? id = some found → other.graph.nodes.get? otherId = some otherFound →
      (∀ node, node ∈ found.members ↔ node ∈ otherFound.members) → ∀ usage t, ¬ graph.Loops found.members t →
        (found.Lists plane.tensorOf usage t ↔ otherFound.Lists other.tensorOf usage t) := by
  refine ⟨?_, fun plane regrouped => ?_, ?_⟩
  next =>
    obtain ⟨plane, made, -⟩ := ofGraph_ok consistent
    exact ⟨plane, made⟩
  next =>
    have tiles := regrouped.tiles consistent
    refine ⟨tiles.partitions, fun _ _ _ => tiles.sound.injective, fun id found there => ?_⟩
    exact (tiles.boundary there).exposesBoundary consistent (tiles.sound.faithful there)
  next =>
    intro plane other regrouped otherRegrouped id otherId found otherFound there otherThere same usage t straight
    have tiles := regrouped.tiles consistent
    have otherTiles := otherRegrouped.tiles consistent
    have perm : found.members.Perm otherFound.members :=
      (List.perm_ext_iff_of_nodup (tiles.distinct there) (otherTiles.distinct otherThere)).mpr same
    exact (tiles.boundary there).lists_iff (otherTiles.boundary otherThere) perm usage straight

theorem exists_regrouped {operations : List Regrouping} {node : NodeId} {members : List NodeId}
    (ran : ((ofGraph graph).toOption.bind fun start => (regroup graph operations start).toOption.bind fun plane =>
      (plane.planeNode node).toOption.map PlaneNode.members) = some members) :
    ∃ plane id found, Regrouped graph plane ∧ plane.graph.nodes.get? id = some found ∧ found.members = members := by
  cases made : ofGraph graph with
  | error error => rw [made] at ran; cases ran
  | ok start =>
    cases regrouped : regroup graph operations start with
    | error fault => simp [made, regrouped, Except.toOption] at ran
    | ok plane =>
      cases asked : plane.planeNode node with
      | error error => simp [made, regrouped, asked, Except.toOption] at ran
      | ok found =>
        obtain ⟨id, -, there⟩ := planeNode_eq_ok.mp asked
        refine ⟨plane, id, found, ⟨start, operations, Or.inl made, regrouped⟩, there, ?_⟩
        simpa [made, regrouped, asked, Except.toOption] using ran

def branched : GraphDescription :=
  { tensors := [{ name := "loaded" }, { name := "scaled" }]
    nodes := [{ name := "load", outputs := ["loaded"] },
      { name := "scale", inputs := ["loaded"], outputs := ["scaled"] }, { name := "store", inputs := ["scaled"] },
      { name := "log", inputs := ["loaded"] }] }

theorem regrouped_branched : ∃ plane other id otherId found otherFound,
    Regrouped branched.graph plane ∧ Regrouped branched.graph other ∧ plane.graph.nodes.get? id = some found ∧
      other.graph.nodes.get? otherId = some otherFound ∧ found.members = [⟨0⟩, ⟨1⟩] ∧
      otherFound.members = [⟨1⟩, ⟨0⟩] ∧ found.Lists plane.tensorOf .output ⟨0⟩ ∧
      ¬ found.Lists plane.tensorOf .input ⟨0⟩ ∧
      ∀ usage t, found.Lists plane.tensorOf usage t ↔ otherFound.Lists other.tensorOf usage t := by
  obtain ⟨-, exposes, settled⟩ := regrouped_exposes_boundary branched.consistent_graph
  have first : ((ofGraph branched.graph).toOption.bind fun start =>
      (regroup branched.graph [.create [⟨0⟩, ⟨1⟩] { bundleIndex := 0 }, .add ⟨2⟩ { bundleIndex := 0 }, .unbundle ⟨2⟩]
        start).toOption.bind fun plane => (plane.planeNode ⟨0⟩).toOption.map PlaneNode.members) =
      some [⟨0⟩, ⟨1⟩] := by decide +kernel
  have second : ((ofGraph branched.graph).toOption.bind fun start =>
      (regroup branched.graph [.create [⟨0⟩] { bundleIndex := 0 }, .add ⟨1⟩ { bundleIndex := 0 }] start).toOption.bind
        fun plane => (plane.planeNode ⟨0⟩).toOption.map PlaneNode.members) = some [⟨1⟩, ⟨0⟩] := by decide +kernel
  obtain ⟨plane, id, found, regrouped, there, members⟩ := exists_regrouped first
  obtain ⟨other, otherId, otherFound, otherRegrouped, otherThere, otherMembers⟩ := exists_regrouped second
  obtain ⟨-, injective, boundary⟩ := exposes plane regrouped
  have outer := boundary id found there
  have several : 2 ≤ found.members.length := by rw [members]; exact Nat.le_refl 2
  refine ⟨plane, other, id, otherId, found, otherFound, regrouped, otherRegrouped, there, otherThere, members,
    otherMembers, ?_, ?_, fun usage t => ?_⟩
  next =>
    have leaves : branched.graph.Leaves found.members ⟨0⟩ := by
      rw [members]
      exact ⟨_, rfl, ⟨⟨0⟩, by decide, rfl⟩, Or.inr ⟨⟨3⟩, by decide, by decide⟩⟩
    obtain ⟨clone, stands⟩ := outer.cloned (Or.inr leaves)
    exact ⟨clone, stands, (outer.outputs several clone).mpr ⟨⟨0⟩, leaves, stands⟩⟩
  next =>
    rintro ⟨clone, stands, lists⟩
    obtain ⟨t, enters, stands'⟩ := (outer.inputs several clone).mp lists
    cases injective _ _ _ stands stands'
    exact ((Graph.enters_iff rfl).mp enters).2 ⟨0⟩ rfl (by rw [members]; decide)
  next =>
    refine settled plane other regrouped otherRegrouped id otherId found otherFound there otherThere ?_ usage t
      (Graph.not_loops several t)
    intro node
    rw [members, otherMembers, List.mem_pair, List.mem_pair, or_comm]

end Plane

end Dataflow
