import Dataflow.Plane.Query
import Dataflow.Proofs.Plane.Quotient
import Dataflow.Proofs.Topology.PathCount

set_option autoImplicit false

namespace Dataflow

open Relation

namespace PlaneGraph

variable {graph : PlaneGraph} (indexed : graph.Indexed) (acyclic : Acyclic graph.Feeds) {source target : PlaneNodeId}

include indexed acyclic

omit acyclic in
theorem Indexed.reaches_consumers : (fun source target => target ∈ graph.network.dependents source) = graph.Feeds :=
  funext fun _ => funext fun _ => propext (mem_consumers indexed)

theorem Indexed.pathCount_eq (source target : PlaneNodeId) : ∃ order, graph.network.IsOrder order ∧
    graph.pathCount source target = .ok (PathCount.count (some order) graph.network.dependents source target) := by
  obtain ⟨order, ordered, valid⟩ := indexed.topologicalOrder?_eq.1 acyclic
  refine ⟨order, valid, ?_⟩
  unfold PlaneGraph.pathCount
  split
  next same => rw [PathCount.count, if_pos same]
  next => rw [ordered]; rfl

theorem Indexed.pathCount_eq_zero_iff (there : target ∈ graph.nodes.keys) :
    graph.pathCount source target = .ok 0 ↔ ¬ ReflTransGen graph.Feeds source target := by
  obtain ⟨order, valid, counted⟩ := indexed.pathCount_eq acyclic source target
  rw [← indexed.reaches_consumers, counted, Except.ok.injEq]
  exact PathCount.count_eq_zero_iff indexed.sound_network indexed.loopless_network valid there

theorem Indexed.no_detour_of_pathCount (there : target ∈ graph.nodes.keys) {number : Nat}
    (counted : graph.pathCount source target = .ok number) (few : ¬ 1 < number) (feeds : graph.Feeds source target)
    {middle : PlaneNodeId} (leads : TransGen graph.Feeds source middle) : ¬ TransGen graph.Feeds middle target := by
  intro returns
  have apart : middle ≠ source := by
    rintro rfl
    exact acyclic _ leads
  obtain ⟨order, valid, counted'⟩ := indexed.pathCount_eq acyclic source target
  cases counted.symm.trans counted'
  rw [← indexed.reaches_consumers] at feeds leads returns
  obtain ⟨passed, toMiddle⟩ := PathCount.exists_way_iff.mpr leads.to_reflTransGen
  obtain ⟨passed, way, passes⟩ := toMiddle.exists_passing returns
  -- The direct way passes the source only, so a way through the middle is a second one.
  refine few (PathCount.one_lt_count indexed.sound_network indexed.loopless_network valid there
    (PathCount.Way.start.step feeds) way ?_)
  rintro rfl
  exact apart (List.mem_singleton.mp passes)

end PlaneGraph

namespace Plane

variable {graph : Graph} {plane : Plane}

theorem Sound.feeds_iff (sound : plane.Sound graph) {source target : PlaneNodeId} :
    plane.graph.Feeds source target ↔
      source ≠ target ∧ ∃ t, plane.Shows .output t source ∧ plane.Shows .input t target := by
  constructor
  next =>
    rintro ⟨differ, sourceNode, targetNode, clone, sourceThere, targetThere, leaves, enters⟩
    obtain ⟨t, stands⟩ := (sound.faithful sourceThere).cloned (Or.inr leaves)
    exact ⟨differ, t, ⟨sourceNode, clone, sourceThere, stands, leaves⟩, targetNode, clone, targetThere, stands, enters⟩
  next =>
    rintro ⟨differ, t, ⟨sourceNode, clone, sourceThere, stands, leaves⟩, targetNode, clone', targetThere, stands', enters⟩
    cases stands.symm.trans stands'
    exact ⟨differ, sourceNode, targetNode, clone, sourceThere, targetThere, leaves, enters⟩

theorem Sound.members_of_path (sound : plane.Sound graph) {source target : PlaneNodeId}
    (path : TransGen plane.graph.Feeds source target) :
    ∃ first last, plane.nodeOf.get? first = some source ∧ plane.nodeOf.get? last = some target := by
  have step {source target : PlaneNodeId} (feeds : plane.graph.Feeds source target) :
      ∃ first last, plane.nodeOf.get? first = some source ∧ plane.nodeOf.get? last = some target := by
    obtain ⟨-, sourceNode, targetNode, clone, sourceThere, targetThere, leaves, enters⟩ := feeds
    obtain ⟨t, stands⟩ := (sound.faithful sourceThere).cloned (Or.inr leaves)
    obtain ⟨tensor, present, producer, produces, -⟩ := (sound.faithful sourceThere).produces leaves stands
    obtain ⟨consumer, consumes, -⟩ := (sound.faithful targetThere).consumes enters stands present
    exact ⟨producer, consumer, (sound.mem_members_iff sourceThere producer).mp produces,
      (sound.mem_members_iff targetThere consumer).mp consumes⟩
  induction path with
  | single feeds => exact step feeds
  | tail _ feeds ih =>
    obtain ⟨first, -, stands, -⟩ := ih
    obtain ⟨-, last, -, stands'⟩ := step feeds
    exact ⟨first, last, stands, stands'⟩

theorem Sound.source_unique (sound : plane.Sound graph) {t : TensorId} {source other : PlaneNodeId}
    (shown : plane.Shows .output t source) (shown' : plane.Shows .output t other) : source = other := by
  have ⟨_, clone, _, stands, _⟩ := shown
  have first := (sound.showsOutput_iff stands source).mp shown
  exact Option.some.inj (first.symm.trans ((sound.showsOutput_iff stands other).mp shown'))

section Merged

variable (sound : plane.Sound graph) {nodes : List PlaneNodeId} (info : BundleInfo) {members : List NodeId}
  (mem_members : ∀ node, node ∈ members ↔
    ∃ id ∈ nodes, ∃ found, plane.graph.nodes.get? id = some found ∧ node ∈ found.members)

include sound mem_members

theorem Sound.feeds_merged : (plane.merged nodes info members).graph.Feeds =
    Collapsed plane.graph.Feeds fun old => if old ∈ nodes then ⟨plane.nextNode⟩ else old := by
  have merges := sound.merges info mem_members
  funext source target
  rw [eq_iff_iff, (sound.merged info mem_members).feeds_iff]
  refine and_congr_right fun differ => ?_
  simp only [merges.output, merges.input]
  constructor
  next =>
    rintro ⟨t, ⟨outside, output⟩ | ⟨rfl, ⟨old, within, output⟩, -⟩,
      ⟨outside', input⟩ | ⟨rfl, ⟨old', within', input⟩, -⟩⟩
    · exact ⟨source, target, sound.feeds_iff.mpr ⟨differ, t, output, input⟩, if_neg outside, if_neg outside'⟩
    · have apart : source ≠ old' := fun same => outside (same ▸ within')
      exact ⟨source, old', sound.feeds_iff.mpr ⟨apart, t, output, input⟩, if_neg outside, if_pos within'⟩
    · have apart : old ≠ target := fun same => outside' (same ▸ within)
      exact ⟨old, target, sound.feeds_iff.mpr ⟨apart, t, output, input⟩, if_pos within, if_neg outside'⟩
    · exact absurd rfl differ
  next =>
    rintro ⟨old, old', feeds, rfl, rfl⟩
    obtain ⟨-, t, output, input⟩ := sound.feeds_iff.mp feeds
    refine ⟨t, ?_⟩
    by_cases within : old ∈ nodes <;> by_cases within' : old' ∈ nodes
    · simp [within, within'] at differ
    · rw [if_pos within, if_neg within']
      exact ⟨Or.inr ⟨rfl, ⟨old, within, output⟩, Or.inr ⟨old', within', input⟩⟩, Or.inl ⟨within', input⟩⟩
    · rw [if_neg within, if_pos within']
      -- The tensor enters the merged node, since its one source is outside.
      refine ⟨Or.inl ⟨within, output⟩, Or.inr ⟨rfl, ⟨old', within', input⟩, fun other inside shown => within ?_⟩⟩
      rwa [sound.source_unique output shown]
    · rw [if_neg within, if_neg within']
      exact ⟨Or.inl ⟨within, output⟩, Or.inl ⟨within', input⟩⟩

theorem Sound.acyclic_merged_iff (acyclic : Acyclic plane.graph.Feeds) :
    Acyclic (plane.merged nodes info members).graph.Feeds ↔ ¬ Reenters plane.graph.Feeds (· ∈ nodes) := by
  have unused {source target : PlaneNodeId} (path : TransGen plane.graph.Feeds source target) :
      source ≠ ⟨plane.nextNode⟩ ∧ target ≠ ⟨plane.nextNode⟩ := by
    have taken {node : NodeId} {id : PlaneNodeId} (stands : plane.nodeOf.get? node = some id) :
        id ≠ ⟨plane.nextNode⟩ := by
      rintro rfl
      obtain ⟨found, there, -⟩ := (sound.nodeOf_iff node _).mp stands
      cases sound.nextNode_unused.symm.trans there
    obtain ⟨first, last, stands, stands'⟩ := sound.members_of_path path
    exact ⟨taken stands, taken stands'⟩
  -- The new plane node collapses into itself too, but no path meets it.
  have inside (id : PlaneNodeId) : (if id ∈ nodes then ⟨plane.nextNode⟩ else id) = (⟨plane.nextNode⟩ : PlaneNodeId) ↔
      id ∈ nodes ∨ id = ⟨plane.nextNode⟩ := by split <;> simp_all
  have outside {id other : PlaneNodeId} (out : ¬ (id ∈ nodes ∨ id = ⟨plane.nextNode⟩))
      (same : (if id ∈ nodes then ⟨plane.nextNode⟩ else id) = if other ∈ nodes then ⟨plane.nextNode⟩ else other) :
      id = other := by grind
  rw [sound.feeds_merged info mem_members, Acyclic.collapsed_iff inside outside acyclic]
  refine not_congr ⟨?_, ?_⟩
  next =>
    rintro ⟨first, middle, last, inside, outside, inside', leaves, returns⟩
    exact ⟨first, middle, last, inside.resolve_right (unused leaves).1,
      fun within => outside (Or.inl within), inside'.resolve_right (unused returns).2,
      leaves, returns⟩
  next =>
    rintro ⟨first, middle, last, inside, outside, inside', leaves, returns⟩
    refine ⟨first, middle, last, Or.inl inside, ?_, Or.inl inside', leaves, returns⟩
    exact fun within => within.elim outside (unused leaves).2

end Merged

theorem lift_eq_ok {α : Type} {asked : Except Fault α} {answer : α} :
    (liftM asked : Except GraphError α) = .ok answer ↔ asked = .ok answer := by
  cases asked <;> simp [liftM, monadLift, MonadLift.monadLift, Except.mapError]

theorem validateCandidate.go_eq_true {id : PlaneNodeId} {accepted : List NodeId}
    (valid : validateCandidate.go plane id accepted = .ok true) {node : NodeId} (listed : node ∈ accepted)
    {other : PlaneNodeId} (stands : plane.nodeOf.get? node = some other) (apart : other ≠ id) :
    (∃ number, plane.graph.pathCount id other = .ok number ∧ ¬ 1 < number) ∧ plane.graph.pathCount other id = .ok 0 := by
  induction accepted with
  | nil => cases listed
  | cons first rest ih =>
    rw [validateCandidate.go] at valid
    obtain ⟨own, answered, valid⟩ := bind_eq_ok.mp valid
    split at valid
    next same =>
      rcases List.mem_cons.mp listed with rfl | behind
      next => cases (representation_eq_ok.mp answered).symm.trans stands; exact absurd same apart
      next => exact ih valid behind
    next =>
      obtain ⟨number, counted, valid⟩ := bind_eq_ok.mp valid
      split at valid
      next => cases valid
      next few =>
        obtain ⟨back, counted', valid⟩ := bind_eq_ok.mp valid
        split at valid
        next => cases valid
        next none =>
          rcases List.mem_cons.mp listed with rfl | behind
          next =>
            cases (representation_eq_ok.mp answered).symm.trans stands
            cases Nat.eq_zero_of_not_pos none
            exact ⟨⟨number, lift_eq_ok.mp counted, few⟩, lift_eq_ok.mp counted'⟩
          next => exact ih valid behind

theorem validateCandidate_eq_true {candidate : NodeId} {accepted : List NodeId}
    (valid : plane.validateCandidate candidate accepted = .ok true) {id other : PlaneNodeId} {node : NodeId}
    (stands : plane.nodeOf.get? candidate = some id) (listed : node ∈ accepted)
    (stands' : plane.nodeOf.get? node = some other) (apart : other ≠ id) :
    (∃ number, plane.graph.pathCount id other = .ok number ∧ ¬ 1 < number) ∧ plane.graph.pathCount other id = .ok 0 := by
  obtain ⟨id', answered, valid⟩ := bind_eq_ok.mp valid
  cases (representation_eq_ok.mp answered).symm.trans stands
  exact validateCandidate.go_eq_true valid listed stands' apart

theorem addToBundle_of_alone {candidate : NodeId} {info : BundleInfo} {id bundle : PlaneNodeId} {found : PlaneNode}
    (named : plane.bundleOf.get? info.bundleIndex = some bundle) (stands : plane.nodeOf.get? candidate = some id)
    (there : plane.graph.nodes.get? id = some found) (unbundled : found.bundle = none) (apart : id ≠ bundle) :
    addToBundle candidate info plane =
      (do discard <| fuse [id, bundle] info; return true : PlaneM Bool) plane := by
  have single : (plane.graph.nodes.get? id).any PlaneNode.isBundle = false := by
    rw [there, Option.any_some, PlaneNode.isBundle, unbundled]
    rfl
  unfold addToBundle
  rw [stateful_get_bind, named]
  refine (stateful_bind_of_ok _ (query_eq_ok.mpr ⟨representation_eq_ok.mpr stands, rfl⟩)).trans ?_
  rw [if_neg apart, if_neg (by simp [single])]

def Bundles (plane : Plane) (info : BundleInfo) (nodes : List NodeId) : Prop :=
  ∃ id found, plane.graph.nodes.get? id = some found ∧ found.bundle = some info ∧
    ∀ node, node ∈ found.members ↔ node ∈ nodes

section Join

variable (sound : plane.Sound graph) (acyclic : Acyclic plane.graph.Feeds) {candidate : NodeId} {info : BundleInfo}
  {id bundle : PlaneNodeId} {single found : PlaneNode} (stands : plane.nodeOf.get? candidate = some id)
  (alone : plane.graph.nodes.get? id = some single) (unbundled : single.bundle = none)
  (there : plane.graph.nodes.get? bundle = some found)

include sound acyclic stands alone unbundled there

theorem Sound.addToBundle_eq (named : plane.bundleOf.get? info.bundleIndex = some bundle) (apart : id ≠ bundle) :
    ∃ after, after.Sound graph ∧ after.Bundles info (candidate :: found.members) ∧
      (¬ Reenters plane.graph.Feeds (· ∈ [id, bundle]) →
        Plane.addToBundle candidate info plane = .ok true after ∧ Acyclic after.graph.Feeds) ∧
      (Reenters plane.graph.Feeds (· ∈ [id, bundle]) →
        Plane.addToBundle candidate info plane = .error (.fault .cyclicFusion) after ∧ ¬ Acyclic after.graph.Feeds) := by
  have distinct : [id, bundle].eraseDups = [id, bundle] := by simp [List.eraseDups_cons, apart.symm]
  have mapped : [id, bundle].mapM plane.membersOf = .ok [single.members, found.members] := by
    rw [List.mapM_cons, List.mapM_cons, membersOf, membersOf, alone, there]
    rfl
  have mem_members := members_of_mapM mapped
  obtain ⟨joins, faults⟩ := sound.fuse_eq info (distinct.symm ▸ mapped)
  rw [distinct] at joins faults
  have acyclic_iff := sound.acyclic_merged_iff info mem_members acyclic
  have new := sound.get?_nodes_merged [id, bundle] info [single.members, found.members].flatten ⟨plane.nextNode⟩
  rw [if_pos rfl] at new
  refine ⟨_, sound.merged info mem_members, ⟨_, _, new, rfl, fun node => ?_⟩, fun closed => ?_, fun reenters => ?_⟩
  next => simp [bundleNode, sound.members_of_alone stands alone unbundled]
  next =>
    have loopless := acyclic_iff.mpr closed
    rw [addToBundle_of_alone named stands alone unbundled apart,
      stateful_bind_of_ok _ (stateful_discard_eq_ok.mpr ⟨_, joins loopless⟩)]
    exact ⟨rfl, loopless⟩
  next =>
    have loops := mt acyclic_iff.mp (not_not.mpr reenters)
    rw [addToBundle_of_alone named stands alone unbundled apart]
    exact ⟨stateful_bind_of_error _ (stateful_discard_of_error (faults loops)), loops⟩

omit unbundled in
theorem Sound.reenters_iff_of_accepted (apart : id ≠ bundle)
    (accepted : plane.validateCandidate candidate found.members = .ok true) :
    Reenters plane.graph.Feeds (· ∈ [id, bundle]) ↔
      ReflTransGen plane.graph.Feeds id bundle ∧ ¬ plane.graph.Feeds id bundle := by
  have checked {member : NodeId} (stands' : plane.nodeOf.get? member = some bundle) :=
    validateCandidate_eq_true accepted stands ((sound.mem_members_iff there member).mpr stands') stands' apart.symm
  -- A bundle that a path meets has a member, and the check of this member excludes a path back.
  have noReturn : ¬ ReflTransGen plane.graph.Feeds bundle id := by
    intro back
    rcases reflTransGen_iff_eq_or_transGen.mp back with same | steps
    next => exact apart same
    next =>
      obtain ⟨member, -, stands', -⟩ := sound.members_of_path steps
      exact (sound.indexed.pathCount_eq_zero_iff acyclic (Table.mem_keys_of_get? alone)).mp (checked stands').2 back
  rw [acyclic.reenters_pair_iff noReturn]
  constructor
  next =>
    rintro ⟨middle, leaves, returns⟩
    obtain ⟨-, member, -, stands'⟩ := sound.members_of_path returns
    obtain ⟨⟨number, counted, few⟩, -⟩ := checked stands'
    refine ⟨(leaves.trans returns).to_reflTransGen, fun feeds => ?_⟩
    exact sound.indexed.no_detour_of_pathCount acyclic (Table.mem_keys_of_get? there) counted few feeds leaves returns
  next => exact fun detour => exists_detour detour.1 apart detour.2

end Join

theorem accepted_joins_unless_detour (sound : plane.Sound graph) (loopless : plane.graph.isAcyclic = .ok true)
    {bundle : PlaneNodeId} {found : PlaneNode} {info : BundleInfo} (there : plane.graph.nodes.get? bundle = some found)
    (bundled : found.bundle = some info) (named : plane.bundleOf.get? info.bundleIndex = some bundle)
    {candidate : NodeId} {id : PlaneNodeId} {single : PlaneNode}
    (stands : plane.nodeOf.get? candidate = some id) (alone : plane.graph.nodes.get? id = some single)
    (unbundled : single.bundle = none) (accepted : plane.validateCandidate candidate found.members = .ok true) :
    ∃ after, after.Sound graph ∧ after.Bundles info (candidate :: found.members) ∧
      (bundle ∈ plane.graph.consumers id ∨ plane.graph.pathCount id bundle = .ok 0 →
        addToBundle candidate info plane = .ok true after ∧ after.graph.isAcyclic = .ok true) ∧
      (bundle ∉ plane.graph.consumers id → plane.graph.pathCount id bundle ≠ .ok 0 →
        addToBundle candidate info plane = .error (.fault .cyclicFusion) after ∧
          after.graph.isAcyclic = .ok false) := by
  have acyclic := sound.indexed.isAcyclic_iff.mp loopless
  have apart : id ≠ bundle := by
    rintro rfl
    cases alone.symm.trans there
    cases unbundled.symm.trans bundled
  have reenters_iff := sound.reenters_iff_of_accepted acyclic stands alone there apart accepted
  have unreached_iff : plane.graph.pathCount id bundle = .ok 0 ↔ ¬ ReflTransGen plane.graph.Feeds id bundle :=
    sound.indexed.pathCount_eq_zero_iff acyclic (Table.mem_keys_of_get? there)
  obtain ⟨after, sound', bundles, joins, faults⟩ := sound.addToBundle_eq acyclic stands alone unbundled there named apart
  rw [PlaneGraph.mem_consumers sound.indexed]
  refine ⟨after, sound', bundles, fun near => ?_, fun indirect reached => ?_⟩
  next =>
    have closed : ¬ Reenters plane.graph.Feeds (· ∈ [id, bundle]) := by
      rw [reenters_iff]
      exact fun detour => near.elim detour.2 fun unreached => unreached_iff.mp unreached detour.1
    exact ⟨(joins closed).1, sound'.indexed.isAcyclic_iff.mpr (joins closed).2⟩
  next =>
    obtain ⟨failed, loops⟩ := faults (reenters_iff.mpr ⟨not_not.mp (mt unreached_iff.mpr reached), indirect⟩)
    exact ⟨failed, sound'.indexed.isAcyclic_eq.2 loops⟩

-- Three nodes in a row, the last of them in a bundle.
def relay : GraphDescription :=
  { tensors := [{ name := "loaded" }, { name := "scaled" }]
    nodes := [{ name := "load", outputs := ["loaded"] }, { name := "scale", inputs := ["loaded"], outputs := ["scaled"] },
      { name := "store", inputs := ["scaled"], bundle := some { bundleIndex := 0 } }] }

def relayPlane : Plane := (ofAnnotations relay.graph fun _ => true).toOption.getD {}

theorem ofAnnotations_relay : ofAnnotations relay.graph (fun _ => true) = .ok relayPlane := by
  have valid : (ofAnnotations relay.graph fun _ => true).isOk = true := by decide +kernel
  unfold relayPlane
  cases annotated : ofAnnotations relay.graph fun _ => true with
  | error error => rw [annotated] at valid; cases valid
  | ok plane => rfl

theorem relay_standing : relayPlane.graph.isAcyclic = .ok true ∧ relayPlane.bundleOf.get? 0 = some ⟨2⟩ ∧
    relayPlane.nodeOf.get? ⟨0⟩ = some ⟨0⟩ ∧ relayPlane.nodeOf.get? ⟨1⟩ = some ⟨1⟩ := by decide +kernel

theorem relay_nodes : [0, 1, 2].map (fun id => relayPlane.graph.nodes.get? ⟨id⟩) =
    [some ⟨⟨0⟩, "load", [], [⟨0⟩], [⟨0⟩], none⟩, some ⟨⟨1⟩, "scale", [⟨0⟩], [⟨1⟩], [⟨1⟩], none⟩,
      some ⟨⟨2⟩, "bundle_0", [⟨1⟩], [], [⟨2⟩], some { bundleIndex := 0 }⟩] := by decide +kernel

theorem relay_accepted : relayPlane.validateCandidate ⟨0⟩ [⟨2⟩] = .ok true ∧
    relayPlane.validateCandidate ⟨1⟩ [⟨2⟩] = .ok true := by decide +kernel

theorem relay_joins_or_faults :
    (∃ after, addToBundle ⟨1⟩ { bundleIndex := 0 } relayPlane = .ok true after ∧ after.graph.isAcyclic = .ok true ∧
      after.Bundles { bundleIndex := 0 } [⟨1⟩, ⟨2⟩]) ∧
    ∃ after, addToBundle ⟨0⟩ { bundleIndex := 0 } relayPlane = .error (.fault .cyclicFusion) after ∧
      after.graph.isAcyclic = .ok false := by
  have consistent := relay.consistent_graph
  have sound := (built_of_ofAnnotations consistent ofAnnotations_relay).1.sound
  obtain ⟨loopless, named, load, scale⟩ := relay_standing
  obtain ⟨loadAccepted, scaleAccepted⟩ := relay_accepted
  have nodes := relay_nodes
  simp only [List.map_cons, List.map_nil, List.cons.injEq, and_true] at nodes
  obtain ⟨loadThere, scaleThere, bundleThere⟩ := nodes
  have reading : (⟨2⟩ : PlaneNodeId) ∈ relayPlane.graph.consumers ⟨1⟩ ∧
      (⟨2⟩ : PlaneNodeId) ∉ relayPlane.graph.consumers ⟨0⟩ ∧ relayPlane.graph.pathCount ⟨0⟩ ⟨2⟩ ≠ .ok 0 := by
    decide +kernel
  constructor
  next =>
    obtain ⟨after, -, bundles, joins, -⟩ := accepted_joins_unless_detour sound loopless bundleThere rfl named
      scale scaleThere rfl scaleAccepted
    obtain ⟨joined, acyclic⟩ := joins (Or.inl reading.1)
    exact ⟨after, joined, acyclic, bundles⟩
  next =>
    obtain ⟨after, -, -, -, faults⟩ := accepted_joins_unless_detour sound loopless bundleThere rfl named
      load loadThere rfl loadAccepted
    exact ⟨after, faults reading.2.1 reading.2.2⟩

theorem accepted_load_faults : relay.graph.Consistent ∧ relay.graph.isAcyclic = true ∧
    ofAnnotations relay.graph (fun _ => true) = .ok relayPlane ∧ relayPlane.graph.isAcyclic = .ok true ∧
    relayPlane.bundleOf.get? 0 = some ⟨2⟩ ∧
    (relayPlane.graph.nodes.get? ⟨2⟩).map (fun bundle => (bundle.bundle, bundle.members)) =
      some (some { bundleIndex := 0 }, [⟨2⟩]) ∧
    relayPlane.nodeOf.get? ⟨0⟩ = some ⟨0⟩ ∧
    (relayPlane.graph.nodes.get? ⟨0⟩).map PlaneNode.isBundle = some false ∧
    relayPlane.validateCandidate ⟨0⟩ [⟨2⟩] = .ok true ∧
    ∃ after, addToBundle ⟨0⟩ { bundleIndex := 0 } relayPlane = .error (.fault .cyclicFusion) after := by
  have failed : (match addToBundle ⟨0⟩ { bundleIndex := 0 } relayPlane with
      | .error error _ => some error
      | .ok _ _ => none) = some (.fault .cyclicFusion) := by decide +kernel
  refine ⟨relay.consistent_graph, by decide +kernel,
    ofAnnotations_relay, relay_standing.1, relay_standing.2.1, by decide +kernel, relay_standing.2.2.1,
    by decide +kernel, relay_accepted.1, ?_⟩
  cases ran : addToBundle ⟨0⟩ { bundleIndex := 0 } relayPlane with
  | error error after => rw [ran] at failed; cases failed; exact ⟨after, rfl⟩
  | ok made after => rw [ran] at failed; cases failed

end Plane

end Dataflow
