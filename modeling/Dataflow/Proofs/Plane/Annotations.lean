import Dataflow.Proofs.Description.Build
import Dataflow.Proofs.Plane.Shown

set_option autoImplicit false

namespace Dataflow

theorem Graph.feeds_both {graph : Graph} {source target : NodeId} :
    graph.Feeds .both source target ↔ ∃ t, graph.Carries t source target := by
  constructor
  next => exact fun ⟨t, tensor, there, _, produced, consumed⟩ => ⟨t, tensor, there, produced, consumed⟩
  next => exact fun ⟨t, tensor, there, produced, consumed⟩ => ⟨t, tensor, there, rfl, produced, consumed⟩

namespace Plane

variable {graph : Graph} {plane : Plane}

def Member (plane : Plane) (node : NodeId) (id : PlaneNodeId) : Prop :=
  ∃ found, plane.graph.nodes.get? id = some found ∧ node ∈ found.members

theorem Built.member_iff (built : Built graph graph.nodeIds plane) {first second : NodeId} {id : PlaneNodeId}
    (member : plane.Member first id) (known : second ∈ graph.nodeIds) :
    plane.Member second id ↔ graph.unitOf second = graph.unitOf first := by
  obtain ⟨found, there, inside⟩ := member
  obtain ⟨unit, holds⟩ := built.holds there
  rw [((holds.mem_iff first).mp inside).2]
  constructor
  next =>
    rintro ⟨same, there', inside'⟩
    cases there.symm.trans there'
    exact ((holds.mem_iff second).mp inside').2
  next => exact fun same => ⟨found, there, (holds.mem_iff second).mpr ⟨known, same⟩⟩

theorem Tiles.feeds_iff {done : List NodeId} (tiles : Tiles graph done plane) {source target : PlaneNodeId} :
    plane.graph.Feeds source target ↔ source ≠ target ∧ ∃ producer consumer, graph.Feeds .both producer consumer ∧
      plane.nodeOf.get? producer = some source ∧ plane.nodeOf.get? consumer = some target := by
  have exposes : plane.Exposes graph [] := tiles.exposes
  rw [← PlaneGraph.mem_consumers tiles.sound.indexed, exposes.mem_consumers_iff tiles.sound]
  unfold Crosses
  simp only [Graph.feeds_both]
  grind

theorem Built.feeds_iff (built : Built graph graph.nodeIds plane) {source target : PlaneNodeId} :
    plane.graph.Feeds source target ↔ source ≠ target ∧ ∃ producer consumer,
      graph.Feeds .both producer consumer ∧ plane.Member producer source ∧ plane.Member consumer target := by
  rw [built.toTiles.feeds_iff]
  simp only [built.sound.nodeOf_iff, Member]

theorem Built.exists_member (built : Built graph graph.nodeIds plane) {node : NodeId} (known : node ∈ graph.nodeIds) :
    ∃ id, plane.Member node id := by
  obtain ⟨id, stands⟩ := (built.covers node).mpr known
  exact ⟨id, (built.sound.nodeOf_iff node id).mp stands⟩

theorem Built.member_unique (built : Built graph graph.nodeIds plane) {node : NodeId} {id other : PlaneNodeId}
    (member : plane.Member node id) (otherMember : plane.Member node other) : id = other := by
  have stands := (built.sound.nodeOf_iff node id).mpr member
  exact Option.some.inj (stands.symm.trans ((built.sound.nodeOf_iff node other).mpr otherMember))

theorem Built.acyclic_iff (built : Built graph graph.nodeIds plane) (linked : graph.Linked) :
    Acyclic plane.graph.Feeds ↔ Acyclic graph.UnitEdge := by
  constructor
  next =>
    intro acyclic
    -- Every unit that has a node is taken to the plane node of its nodes.
    have each : ∀ unit, ∃ id, ∀ node ∈ graph.nodeIds, graph.unitOf node = unit → plane.Member node id := by
      intro unit
      by_cases occupied : ∃ node ∈ graph.nodeIds, graph.unitOf node = unit
      next =>
        obtain ⟨node, known, rfl⟩ := occupied
        obtain ⟨id, member⟩ := built.exists_member known
        exact ⟨id, fun other known' same => (built.member_iff member known').mpr same⟩
      next => exact ⟨⟨0⟩, fun node known same => absurd ⟨node, known, same⟩ occupied⟩
    choose idOf member using each
    refine acyclic.comap idOf fun first second edge => built.feeds_iff.mpr ?_
    obtain ⟨differ, source, target, feeds, rfl, rfl⟩ := edge
    obtain ⟨sourceKnown, targetKnown⟩ := feeds.known linked
    have sourceMember := member _ source sourceKnown rfl
    have targetMember := member _ target targetKnown rfl
    refine ⟨fun same => differ ?_, source, target, feeds, sourceMember, targetMember⟩
    rw [← same] at targetMember
    exact ((built.member_iff sourceMember targetKnown).mp targetMember).symm
  next =>
    intro acyclic
    have each : ∀ id, ∃ unit, ∀ node, plane.Member node id → graph.unitOf node = unit := by
      intro id
      by_cases occupied : ∃ node, plane.Member node id
      next =>
        obtain ⟨first, member⟩ := occupied
        refine ⟨graph.unitOf first, fun node member' => (built.member_iff member ?_).mp member'⟩
        exact (built.covers node).mp ⟨id, (built.sound.nodeOf_iff node id).mpr member'⟩
      next => exact ⟨.inr ⟨0⟩, fun node member => absurd ⟨node, member⟩ occupied⟩
    choose unitOf same using each
    refine acyclic.comap unitOf fun source target feeds => ?_
    obtain ⟨differ, producer, consumer, feeds, sourceMember, targetMember⟩ := built.feeds_iff.mp feeds
    refine ⟨fun equal => differ ?_, producer, consumer, feeds, same _ producer sourceMember, same _ consumer targetMember⟩
    have together : graph.unitOf consumer = graph.unitOf producer := by
      rw [same _ producer sourceMember, same _ consumer targetMember, equal]
    exact built.member_unique ((built.member_iff sourceMember (feeds.known linked).2).mpr together) targetMember

section Units

variable (built : Built graph graph.nodeIds plane)

include built

theorem Built.existsUnique_unit {node : NodeId} (known : node ∈ graph.nodeIds) :
    ∃! id, ∃ found, plane.graph.nodes.get? id = some found ∧ found.Holds graph (graph.unitOf node) := by
  obtain ⟨id, stands⟩ := (built.covers node).mpr known
  obtain ⟨found, there, -⟩ := (built.sound.nodeOf_iff node id).mp stands
  have holds := (built.holds_iff known there).mpr stands
  refine ⟨id, ⟨found, there, holds⟩, ?_⟩
  rintro other ⟨otherFound, otherThere, otherHolds⟩
  exact built.holds_unique otherThere there otherHolds holds

theorem Built.exists_unit {id : PlaneNodeId} {found : PlaneNode} (there : plane.graph.nodes.get? id = some found) :
    ∃ node ∈ graph.nodeIds, found.Holds graph (graph.unitOf node) := by
  obtain ⟨unit, holds⟩ := built.holds there
  obtain ⟨member, inside⟩ := List.exists_mem_of_ne_nil _ holds.occupied
  obtain ⟨known, same⟩ := (holds.mem_iff member).mp inside
  exact ⟨member, known, same ▸ holds⟩

theorem Built.existsUnique_member {node : NodeId} (known : node ∈ graph.nodeIds) : ∃! id, plane.Member node id := by
  obtain ⟨id, member⟩ := built.exists_member known
  exact ⟨id, member, fun other member' => built.member_unique member' member⟩

end Units

theorem ofAnnotations_eq_ok_iff_acyclic (consistent : graph.Consistent) :
    ((∃ plane, ofAnnotations graph (fun _ => true) = .ok plane) ↔ Acyclic graph.Edge ∧ Acyclic graph.UnitEdge) ∧
    (¬ (Acyclic graph.Edge ∧ Acyclic graph.UnitEdge) →
      ∃ defect, ofAnnotations graph (fun _ => true) = .error (.invalidPlane defect)) ∧
    ∀ plane, ofAnnotations graph (fun _ => true) = .ok plane →
      (∀ node ∈ graph.nodeIds,
        ∃! id, ∃ found, plane.graph.nodes.get? id = some found ∧ found.Holds graph (graph.unitOf node)) ∧
      (∀ id found, plane.graph.nodes.get? id = some found →
        ∃ node ∈ graph.nodeIds, found.Holds graph (graph.unitOf node)) ∧
      (∀ node ∈ graph.nodeIds, ∃! id, plane.Member node id) ∧
      ∀ source target,
        (target ∈ plane.graph.consumers source ↔ source ∈ plane.graph.producers target) ∧
        (target ∈ plane.graph.consumers source ↔ source ≠ target ∧ ∃ producer consumer,
          (∃ t, graph.Carries t producer consumer) ∧ plane.Member producer source ∧
            plane.Member consumer target) := by
  have outcomes := ofAnnotations_cases consistent
  refine ⟨?_, ?_, ?_⟩
  next =>
    rcases outcomes with ⟨cyclic, failed⟩ | ⟨acyclic, plane, built, ⟨loopless, made⟩ | ⟨cyclic, failed⟩⟩
    next => simp [failed, cyclic]
    next => exact iff_of_true ⟨plane, made⟩ ⟨acyclic, (built.acyclic_iff consistent.toLinked).mp loopless⟩
    next =>
      rw [built.acyclic_iff consistent.toLinked] at cyclic
      simp [failed, cyclic]
  next =>
    intro cyclic
    rcases outcomes with ⟨-, failed⟩ | ⟨acyclic, plane, built, ⟨loopless, -⟩ | ⟨-, failed⟩⟩
    next => exact ⟨_, failed⟩
    next => exact absurd ⟨acyclic, (built.acyclic_iff consistent.toLinked).mp loopless⟩ cyclic
    next => exact ⟨_, failed⟩
  next =>
    intro plane made
    obtain ⟨built, -⟩ := built_of_ofAnnotations consistent made
    refine ⟨fun _ => built.existsUnique_unit, fun _ _ => built.exists_unit, fun _ => built.existsUnique_member, ?_⟩
    intro source target
    rw [PlaneGraph.mem_consumers built.sound.indexed, PlaneGraph.mem_producers built.sound.indexed, built.feeds_iff]
    simp only [Graph.feeds_both, true_and]

-- A chain of three nodes whose ends are a bundle; `middle` is what the node between them belongs to.
def chained (middle : Option BundleInfo) : GraphDescription :=
  { tensors := [{ name := "loaded" }, { name := "scaled" }]
    nodes := [{ name := "load", outputs := ["loaded"], bundle := some { bundleIndex := 0 } },
      { name := "scale", inputs := ["loaded"], outputs := ["scaled"], bundle := middle },
      { name := "store", inputs := ["scaled"], bundle := some { bundleIndex := 0 } }] }

theorem ofAnnotations_chained :
    (∃ defect, ofAnnotations (chained none).graph (fun _ => true) = .error (.invalidPlane defect)) ∧
      ∃ plane, ofAnnotations (chained (some { bundleIndex := 0 })).graph (fun _ => true) = .ok plane ∧
        ∃! id, plane.Member ⟨1⟩ id := by
  constructor
  next =>
    refine (ofAnnotations_eq_ok_iff_acyclic (chained none).consistent_graph).2.1 fun acyclic => ?_
    have leaves : (chained none).graph.UnitEdge (.inl 0) (.inr ⟨1⟩) :=
      ⟨by decide, ⟨0⟩, ⟨1⟩, ⟨⟨0⟩, _, rfl, rfl, rfl, by decide⟩, rfl, rfl⟩
    have enters : (chained none).graph.UnitEdge (.inr ⟨1⟩) (.inl 0) :=
      ⟨by decide, ⟨1⟩, ⟨2⟩, ⟨⟨1⟩, _, rfl, rfl, rfl, by decide⟩, rfl, rfl⟩
    exact acyclic.2 _ (.tail (.single leaves) enters)
  next =>
    have each : ∀ entry ∈ (chained (some { bundleIndex := 0 })).graph.tensors.entries,
        ∀ producer ∈ entry.2.producer, ∀ consumer ∈ entry.2.consumers, producer.val < consumer.val ∧
          (chained (some { bundleIndex := 0 })).graph.unitOf producer =
            (chained (some { bundleIndex := 0 })).graph.unitOf consumer := by decide
    have acyclic : Acyclic (chained (some { bundleIndex := 0 })).graph.Edge := by
      refine .of_rank (fun node => node.val) ?_
      rintro source target ⟨-, t, tensor, there, -, produced, consumed⟩
      exact (each (t, tensor) ((Table.mem_entries_iff _ _ _).mpr there) source produced target consumed).1
    have quotient : Acyclic (chained (some { bundleIndex := 0 })).graph.UnitEdge := by
      refine .of_rank (fun _ => 0) ?_
      rintro _ _ ⟨differ, source, target, ⟨t, tensor, there, -, produced, consumed⟩, rfl, rfl⟩
      exact absurd (each (t, tensor) ((Table.mem_entries_iff _ _ _).mpr there) source produced target consumed).2 differ
    obtain ⟨made, -, facts⟩ := ofAnnotations_eq_ok_iff_acyclic (chained (some { bundleIndex := 0 })).consistent_graph
    obtain ⟨plane, made⟩ := made.mpr ⟨acyclic, quotient⟩
    obtain ⟨-, -, unique, -⟩ := facts plane made
    exact ⟨plane, made, unique ⟨1⟩ (by decide)⟩

end Plane

end Dataflow
