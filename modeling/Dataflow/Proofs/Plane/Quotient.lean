import Dataflow.Proofs.Plane.Annotations
import Dataflow.Proofs.Plane.Bundling

set_option autoImplicit false

namespace Dataflow.Plane

variable {graph : Graph} {plane : Plane} {done : List NodeId}

theorem Sound.mem_members_iff (sound : plane.Sound graph) {id : PlaneNodeId} {found : PlaneNode}
    (there : plane.graph.nodes.get? id = some found) (node : NodeId) :
    node ∈ found.members ↔ plane.nodeOf.get? node = some id := by
  rw [sound.nodeOf_iff, there]
  simp

theorem Tiles.feeds_congr {other : Plane} (tiles : Tiles graph done plane) (otherTiles : Tiles graph done other)
    (same : other.nodeOf = plane.nodeOf) : other.graph.Feeds = plane.graph.Feeds := by
  funext source target
  rw [otherTiles.feeds_iff, tiles.feeds_iff, same]

theorem exists_shared {α : Type} [Nonempty α] (has : NodeId → α → Prop)
    (shared : ∀ {id first}, plane.nodeOf.get? first = some id →
      ∃ value, ∀ node, plane.nodeOf.get? node = some id → has node value) :
    ∃ valueAt : PlaneNodeId → α, ∀ id node, plane.nodeOf.get? node = some id → has node (valueAt id) := by
  have each : ∀ id, ∃ value, ∀ node, plane.nodeOf.get? node = some id → has node value := by
    intro id
    by_cases occupied : ∃ first, plane.nodeOf.get? first = some id
    next => exact shared occupied.choose_spec
    -- No node stands there, so any value does.
    next => exact ⟨Classical.arbitrary α, fun node stands => absurd ⟨node, stands⟩ occupied⟩
  choose valueAt belongs using each
  exact ⟨valueAt, belongs⟩

theorem Tiles.exists_coarser {other : Plane} (tiles : Tiles graph done plane) (otherTiles : Tiles graph done other)
    (together : ∀ first ∈ done, ∀ second ∈ done, plane.nodeOf.get? first = plane.nodeOf.get? second →
      other.nodeOf.get? first = other.nodeOf.get? second) :
    ∃ idAt : PlaneNodeId → PlaneNodeId, ∀ id node, plane.nodeOf.get? node = some id →
      other.nodeOf.get? node = some (idAt id) := by
  have : Nonempty PlaneNodeId := ⟨⟨0⟩⟩
  refine exists_shared (fun node otherId => other.nodeOf.get? node = some otherId) fun {id first} stands => ?_
  have known := (tiles.covers first).mp ⟨id, stands⟩
  obtain ⟨otherId, otherStands⟩ := (otherTiles.covers first).mpr known
  refine ⟨otherId, fun node stands' => ?_⟩
  have known' := (tiles.covers node).mp ⟨id, stands'⟩
  exact (together node known' first known (stands'.trans stands.symm)).trans otherStands

theorem Sound.fuse_eq (sound : plane.Sound graph) {nodes : List PlaneNodeId} {members : List (List NodeId)}
    (info : BundleInfo) (mapped : nodes.eraseDups.mapM plane.membersOf = .ok members) :
    (Acyclic (plane.merged nodes.eraseDups info members.flatten).graph.Feeds →
      Plane.fuse nodes info plane = .ok ⟨plane.nextNode⟩ (plane.merged nodes.eraseDups info members.flatten)) ∧
    (¬ Acyclic (plane.merged nodes.eraseDups info members.flatten).graph.Feeds →
      Plane.fuse nodes info plane = .error (.fault .cyclicFusion) (plane.merged nodes.eraseDups info members.flatten)) := by
  obtain ⟨acyclic, cyclic⟩ := (sound.merged info (members_of_mapM mapped)).indexed.isAcyclic_eq
  rw [fuse_of_members info mapped]
  constructor
  next =>
    intro loopless
    rw [stateful_bind_of_ok _ (query_isAcyclic_of_ok (acyclic loopless))]
    rfl
  next =>
    intro loops
    rw [stateful_bind_of_ok _ (query_isAcyclic_of_ok (cyclic loops))]
    rfl

structure Gathers (plane : Plane) (nodes : List NodeId) (info : BundleInfo) (after : Plane) : Prop where
  entered : ∀ {index id}, after.bundleOf.get? index = some id →
    index = info.bundleIndex ∨ plane.bundleOf.get? index = some id
  frozen_eq : after.frozen = plane.frozen
  accepts_eq : after.accepts = plane.accepts
  cases : ∀ {id found}, after.graph.nodes.get? id = some found →
    found.bundle = some info ∧ (∀ node, node ∈ found.members ↔ node ∈ nodes) ∨
      plane.graph.nodes.get? id = some found ∧ ∀ node ∈ nodes, node ∉ found.members

def Alone (plane : Plane) (node : NodeId) : Prop :=
  ∃ id found, plane.nodeOf.get? node = some id ∧ plane.graph.nodes.get? id = some found ∧ found.bundle = none

theorem Sound.members_of_alone (sound : plane.Sound graph) {node : NodeId} {id : PlaneNodeId} {found : PlaneNode}
    (stands : plane.nodeOf.get? node = some id) (there : plane.graph.nodes.get? id = some found)
    (unbundled : found.bundle = none) : found.members = [node] := by
  obtain ⟨member, single⟩ := (sound.faithful there).single unbundled
  have inside := (sound.mem_members_iff there node).mpr stands
  rw [single] at inside ⊢
  rw [List.mem_singleton.mp inside]

theorem unbundled_of_alone {node : NodeId} {id : PlaneNodeId} {found : PlaneNode}
    (stands : plane.nodeOf.get? node = some id) (there : plane.graph.nodes.get? id = some found)
    (unbundled : found.bundle = none) : plane.unbundled node = .ok id := by
  have single : found.isBundle = false := by rw [PlaneNode.isBundle, unbundled]; rfl
  unfold Plane.unbundled
  rw [planeNode_eq_ok.mpr ⟨id, stands, there⟩, representation_eq_ok.mpr stands]
  simp only [bind, Except.bind, single]
  rfl

theorem unbundled_eq_ok {node : NodeId} {id : PlaneNodeId} (unbundled : plane.unbundled node = .ok id) :
    plane.nodeOf.get? node = some id := by
  unfold Plane.unbundled at unbundled
  obtain ⟨found, -, unbundled⟩ := bind_eq_ok.mp unbundled
  split at unbundled
  next => cases unbundled
  next => exact representation_eq_ok.mp unbundled

theorem Sound.createBundle_of_alone (sound : plane.Sound graph) {nodes : List NodeId} {info : BundleInfo}
    (occupied : nodes ≠ []) (free : plane.bundleOf.get? info.bundleIndex = none)
    (alone : ∀ node ∈ nodes, plane.Alone node) :
    ∃ ids members, createBundle nodes info plane = Plane.fuse ids info plane ∧
      ids.eraseDups.mapM plane.membersOf = .ok members ∧ (∀ node, node ∈ members.flatten ↔ node ∈ nodes) ∧
      ∀ node ∈ nodes, ∀ id, plane.nodeOf.get? node = some id → id ∈ ids.eraseDups := by
  obtain ⟨ids, asked, ids_iff⟩ := mapM_ok fun node inside => by
    obtain ⟨id, found, stands, there, unbundled⟩ := alone node inside
    exact ⟨id, unbundled_of_alone stands there unbundled⟩
  -- Each identifier is that of the plane node of one of the nodes, which has no other member.
  have single {id : PlaneNodeId} (listed : id ∈ ids.eraseDups) : ∃ node ∈ nodes, ∃ found,
      plane.graph.nodes.get? id = some found ∧ found.members = [node] := by
    obtain ⟨node, inside, answered⟩ := (ids_iff id).mp (List.mem_eraseDups.mp listed)
    obtain ⟨own, found, stands, there, unbundled⟩ := alone node inside
    cases stands.symm.trans (unbundled_eq_ok answered)
    exact ⟨node, inside, found, there, sound.members_of_alone stands there unbundled⟩
  have listed {node : NodeId} (inside : node ∈ nodes) {id : PlaneNodeId} (stands : plane.nodeOf.get? node = some id) :
      id ∈ ids.eraseDups := by
    obtain ⟨own, found, stands', there, unbundled⟩ := alone node inside
    cases stands.symm.trans stands'
    exact List.mem_eraseDups.mpr ((ids_iff id).mpr ⟨node, inside, unbundled_of_alone stands there unbundled⟩)
  obtain ⟨members, mapped, -⟩ := @mapM_ok _ _ _ plane.membersOf ids.eraseDups fun id member => by
    obtain ⟨node, -, found, there, -⟩ := single member
    exact ⟨found.members, by rw [membersOf, there]⟩
  refine ⟨ids, members, ?_, mapped, fun node => ?_, fun node inside id stands => listed inside stands⟩
  next =>
    have unused : plane.bundleOf.contains info.bundleIndex = false := by rw [Table.contains, free]; rfl
    unfold createBundle
    rw [if_neg (by simpa using occupied)]
    refine (stateful_get_bind _ plane).trans ?_
    rw [unused]
    exact stateful_bind_of_ok _ (query_eq_ok.mpr ⟨asked, rfl⟩)
  next =>
    rw [members_of_mapM mapped]
    constructor
    next =>
      rintro ⟨id, member, found, there, within⟩
      obtain ⟨own, inside, found', there', members⟩ := single member
      cases there.symm.trans there'
      rw [members] at within
      rwa [List.mem_singleton.mp within]
    next =>
      intro inside
      obtain ⟨id, found, stands, there, unbundled⟩ := alone node inside
      exact ⟨id, listed inside stands, found, there, by simp [sound.members_of_alone stands there unbundled]⟩

theorem Tiles.createBundle_eq (consistent : graph.Consistent) (tiles : Tiles graph graph.nodeIds plane)
    {nodes : List NodeId} {info : BundleInfo} (occupied : nodes ≠ [])
    (free : plane.bundleOf.get? info.bundleIndex = none) (alone : ∀ node ∈ nodes, plane.Alone node) :
    ∃ after, Tiles graph graph.nodeIds after ∧ plane.Gathers nodes info after ∧
      (Acyclic after.graph.Feeds → ∃ id, Plane.createBundle nodes info plane = .ok id after) ∧
      (¬ Acyclic after.graph.Feeds → Plane.createBundle nodes info plane = .error (.fault .cyclicFusion) after) := by
  obtain ⟨ids, members, made, mapped, mem_members, listed⟩ := tiles.sound.createBundle_of_alone occupied free alone
  obtain ⟨acyclic, cyclic⟩ := tiles.sound.fuse_eq info mapped
  have distinct := tiles.nodup_members (List.nodup_eraseDups _) mapped
  refine ⟨_, tiles.merged consistent (members_of_mapM mapped) info distinct,
    ⟨fun {index id} entered => ?_, rfl, rfl, fun {id found} there => ?_⟩,
    fun loopless => ⟨_, made.trans (acyclic loopless)⟩, fun loops => made.trans (cyclic loops)⟩
  next =>
    have lookup : (plane.bundleOf.insert info.bundleIndex ⟨plane.nextNode⟩).get? index = some id := entered
    rw [Table.get?_insert_eq] at lookup
    split at lookup
    next same => exact Or.inl same
    next => exact Or.inr lookup
  next =>
    -- What was merged are the plane nodes of exactly these nodes, so the others have none of them.
    rcases tiles.sound.cases_merged there with ⟨-, rfl⟩ | ⟨outside, old⟩
    next => exact Or.inl ⟨rfl, mem_members⟩
    next =>
      refine Or.inr ⟨old, fun node inside member => outside ?_⟩
      exact listed node inside id ((tiles.sound.mem_members_iff old node).mp member)

end Dataflow.Plane
