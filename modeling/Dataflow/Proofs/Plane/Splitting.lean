import Dataflow.Proofs.Plane.Quotient

set_option autoImplicit false

namespace Dataflow.Plane

variable {graph : Graph} {plane after : Plane} {node : NodeId}

def Splits (graph : Graph) (plane : Plane) (node : NodeId) (after : Plane) : Prop :=
  ∀ first ∈ graph.nodeIds, ∀ second ∈ graph.nodeIds, after.nodeOf.get? first = after.nodeOf.get? second ↔
    plane.nodeOf.get? first = plane.nodeOf.get? second ∧ (first = node ↔ second = node)

def Between (graph : Graph) (plane : Plane) (node : NodeId) : Prop :=
  ∃ first last, first ≠ node ∧ last ≠ node ∧ plane.nodeOf.get? first = plane.nodeOf.get? node ∧
    plane.nodeOf.get? last = plane.nodeOf.get? node ∧ graph.Feeds .both first node ∧ graph.Feeds .both node last

section Cycles

variable (splits : Splits graph plane node after) (tiles : Tiles graph graph.nodeIds plane)
  (tiled : Tiles graph graph.nodeIds after) (known : node ∈ graph.nodeIds)

include splits tiled

theorem Splits.inner_step {own source target : PlaneNodeId} (stands : after.nodeOf.get? node = some own)
    (feeds : after.graph.Feeds source target) (linked : graph.Linked)
    (inner : ∀ producer consumer, after.nodeOf.get? producer = some source → after.nodeOf.get? consumer = some target →
      plane.nodeOf.get? producer = plane.nodeOf.get? consumer) :
    source = own ∧ target ≠ own ∧ (∃ last, last ≠ node ∧ plane.nodeOf.get? last = plane.nodeOf.get? node ∧
        graph.Feeds .both node last) ∨
      target = own ∧ source ≠ own ∧ ∃ first, first ≠ node ∧ plane.nodeOf.get? first = plane.nodeOf.get? node ∧
        graph.Feeds .both first node := by
  obtain ⟨apart, producer, consumer, fed, left, right⟩ := tiled.feeds_iff.mp feeds
  obtain ⟨producerKnown, consumerKnown⟩ := fed.known linked
  have together := inner producer consumer left right
  -- The two ends stood together and no longer do, so one of them is the node.
  have divided : ¬ (producer = node ↔ consumer = node) := by
    intro both
    have same := (splits producer producerKnown consumer consumerKnown).mpr ⟨together, both⟩
    exact apart (Option.some.inj (left.symm.trans (same.trans right)))
  by_cases leaves : producer = node
  next =>
    subst leaves
    cases stands.symm.trans left
    have other : consumer ≠ producer := fun same => divided (iff_of_true rfl same)
    exact Or.inl ⟨rfl, apart.symm, consumer, other, together.symm, fed⟩
  next =>
    have enters : consumer = node := by_contra fun other => divided (iff_of_false leaves other)
    subst enters
    cases stands.symm.trans right
    exact Or.inr ⟨rfl, apart, producer, leaves, together, fed⟩

include known

theorem Splits.cyclic (linked : graph.Linked) (between : plane.Between graph node) : ¬ Acyclic after.graph.Feeds := by
  obtain ⟨first, last, firstOther, lastOther, firstInside, lastInside, enters, leaves⟩ := between
  have firstKnown := (enters.known linked).1
  have lastKnown := (leaves.known linked).2
  obtain ⟨own, stands⟩ := (tiled.covers node).mpr known
  obtain ⟨rest, firstStands⟩ := (tiled.covers first).mpr firstKnown
  have together := (splits last lastKnown first firstKnown).mpr
    ⟨lastInside.trans firstInside.symm, iff_of_false lastOther firstOther⟩
  have apart : rest ≠ own := by
    rintro rfl
    exact firstOther (((splits first firstKnown node known).mp (firstStands.trans stands.symm)).2.mpr rfl)
  have into : after.graph.Feeds rest own := tiled.feeds_iff.mpr ⟨apart, first, node, enters, firstStands, stands⟩
  have out : after.graph.Feeds own rest :=
    tiled.feeds_iff.mpr ⟨apart.symm, node, last, leaves, stands, together.trans firstStands⟩
  exact fun acyclic => acyclic rest (.tail (.single into) out)

include tiles

theorem Splits.acyclic_iff (linked : graph.Linked) (loopless : Acyclic plane.graph.Feeds) :
    Acyclic after.graph.Feeds ↔ ¬ plane.Between graph node := by
  refine ⟨fun acyclic between => splits.cyclic tiled known linked between acyclic, fun free => ?_⟩
  obtain ⟨oldAt, stood⟩ := tiled.exists_coarser tiles fun first firstKnown second secondKnown same =>
    ((splits first firstKnown second secondKnown).mp same).1
  refine Acyclic.of_classes (f := oldAt) (fun source target feeds => ?_) loopless ?_
  next =>
    obtain ⟨-, producer, consumer, feeds, left, right⟩ := tiled.feeds_iff.mp feeds
    by_cases together : oldAt source = oldAt target
    next => exact Or.inl together
    next => exact Or.inr (tiles.feeds_iff.mpr ⟨together, producer, consumer, feeds, stood _ _ left, stood _ _ right⟩)
  next =>
    obtain ⟨own, stands⟩ := (tiled.covers node).mpr known
    have inner {source target : PlaneNodeId} (feeds : after.graph.Feeds source target)
        (together : oldAt source = oldAt target) := splits.inner_step tiled stands feeds linked
      fun producer consumer left right => (stood _ _ left).trans (together ▸ (stood _ _ right).symm)
    -- All the inner steps lead the same way.
    by_cases entered : ∃ first, first ≠ node ∧ plane.nodeOf.get? first = plane.nodeOf.get? node ∧
        graph.Feeds .both first node
    next =>
      refine .of_rank (fun id => if id = own then 1 else 0) ?_
      rintro source target ⟨feeds, together⟩
      rcases inner feeds together with ⟨-, -, last, other, inside, leaves⟩ | ⟨into, out, -⟩
      next =>
        obtain ⟨first, firstOther, firstInside, enters⟩ := entered
        exact absurd ⟨first, last, firstOther, other, firstInside, inside, enters, leaves⟩ free
      next => simp [into, out]
    next =>
      refine .of_rank (fun id => if id = own then 0 else 1) ?_
      rintro source target ⟨feeds, together⟩
      rcases inner feeds together with ⟨out, into, -⟩ | ⟨-, -, first⟩
      next => simp [into, out]
      next => exact absurd first entered

end Cycles

section Gathers

variable {nodes : List NodeId} {info : BundleInfo} (gathers : plane.Gathers nodes info after)
  (tiles : Tiles graph graph.nodeIds plane) (tiled : Tiles graph graph.nodeIds after)

include gathers tiled

theorem Gathers.nodeOf_eq_iff {first : NodeId} {id : PlaneNodeId} (inside : first ∈ nodes)
    (stands : after.nodeOf.get? first = some id) (other : NodeId) : after.nodeOf.get? other = some id ↔ other ∈ nodes := by
  obtain ⟨found, there, member⟩ := (tiled.sound.nodeOf_iff first id).mp stands
  rcases gathers.cases there with ⟨-, members⟩ | ⟨-, outside⟩
  next => rw [← members, tiled.sound.mem_members_iff there]
  next => exact absurd member (outside first inside)

include tiles

theorem Gathers.nodeOf_of_outside {other : NodeId} (known : other ∈ graph.nodeIds) (outside : other ∉ nodes) :
    after.nodeOf.get? other = plane.nodeOf.get? other := by
  obtain ⟨id, stands⟩ := (tiled.covers other).mpr known
  obtain ⟨found, there, member⟩ := (tiled.sound.nodeOf_iff other id).mp stands
  rcases gathers.cases there with ⟨-, members⟩ | ⟨old, -⟩
  next => exact absurd ((members other).mp member) outside
  next => rw [stands, (tiles.sound.mem_members_iff old other).mp member]

theorem Gathers.together_iff {first second : NodeId} (known : first ∈ graph.nodeIds) (known' : second ∈ graph.nodeIds) :
    after.nodeOf.get? first = after.nodeOf.get? second ↔ first ∈ nodes ∧ second ∈ nodes ∨
      first ∉ nodes ∧ second ∉ nodes ∧ plane.nodeOf.get? first = plane.nodeOf.get? second := by
  obtain ⟨id, stands⟩ := (tiled.covers first).mpr known
  obtain ⟨id', stands'⟩ := (tiled.covers second).mpr known'
  by_cases inside : first ∈ nodes
  next =>
    rw [stands, eq_comm, gathers.nodeOf_eq_iff tiled inside stands]
    simp [inside]
  next =>
    by_cases inside' : second ∈ nodes
    next =>
      rw [stands', gathers.nodeOf_eq_iff tiled inside' stands']
      simp [inside, inside']
    next =>
      rw [gathers.nodeOf_of_outside tiles tiled known inside, gathers.nodeOf_of_outside tiles tiled known' inside']
      simp [inside, inside']

end Gathers

theorem Tiles.removeBundle_ok (consistent : graph.Consistent) (tiles : Tiles graph graph.nodeIds plane)
    {id : PlaneNodeId} {found : PlaneNode} {info : BundleInfo} (stands : plane.nodeOf.get? node = some id)
    (there : plane.graph.nodes.get? id = some found) (bundled : found.bundle = some info)
    (several : found.members.length ≠ 1) :
    ∃ between, Plane.removeBundle graph node plane = .ok () between ∧ Tiles graph graph.nodeIds between ∧
      between.frozen = plane.frozen ∧ between.bundleOf.get? info.bundleIndex = none ∧
      (∀ member ∈ found.members, between.Alone member) ∧
      ∀ other ∈ graph.nodeIds, other ∉ found.members → between.nodeOf.get? other = plane.nodeOf.get? other := by
  have asked := planeNode_eq_ok.mpr ⟨id, stands, there⟩
  cases tiles.sound.indexed.nodeKey there
  have forgotten := tiles.setBundles (plane.bundleOf.erase info.bundleIndex)
  obtain ⟨between, added, tiled, gains⟩ := forgotten.dismantle_ok consistent there
  refine ⟨between, ?_, tiled, gains.frozen_eq, ?_, fun member inside => ?_, fun other known outside => ?_⟩
  next =>
    unfold Plane.removeBundle
    rw [stateful_bind_of_ok _ (query_eq_ok.mpr ⟨asked, rfl⟩)]
    simp only [bundled, if_neg several]
    exact added
  next =>
    rw [gains.bundleOf_eq]
    exact Table.get?_erase_self ..
  next =>
    have known := (tiles.covers member).mp ⟨_, (tiles.sound.mem_members_iff there member).mp inside⟩
    obtain ⟨id, stands⟩ := (tiled.covers member).mpr known
    obtain ⟨own, ownThere, within⟩ := (tiled.sound.nodeOf_iff member id).mp stands
    refine ⟨id, own, stands, ownThere, (gains.cases ownThere).resolve_left fun old => ?_⟩
    -- The plane nodes that were there before have no member of the bundle.
    have left := forgotten.without there
    have stood := (left.sound.mem_members_iff old member).mp within
    simpa [inside] using (left.covers member).mp ⟨id, stood⟩
  next =>
    obtain ⟨id, stands⟩ := (tiles.covers other).mpr known
    rw [stands]
    refine gains.stays ((get?_foldl_erase ..).trans ?_)
    rw [if_neg outside]
    exact stands

theorem splits_of_alone {id : PlaneNodeId} {found : PlaneNode} (tiles : Tiles graph graph.nodeIds plane)
    (stands : plane.nodeOf.get? node = some id) (there : plane.graph.nodes.get? id = some found)
    (alone : found.members = [node]) (same : after.nodeOf = plane.nodeOf) : Splits graph plane node after := by
  have own {other : NodeId} (together : plane.nodeOf.get? other = plane.nodeOf.get? node) : other = node := by
    have inside := (tiles.sound.mem_members_iff there other).mpr (together.trans stands)
    rw [alone] at inside
    exact List.mem_singleton.mp inside
  intro first _ second _
  rw [same]
  refine (and_iff_left_of_imp fun together => ?_).symm
  constructor
  next => rintro rfl; exact own together.symm
  next => rintro rfl; exact own together

section Several

variable {id : PlaneNodeId} {found : PlaneNode} {info : BundleInfo} (tiles : Tiles graph graph.nodeIds plane)
  (there : plane.graph.nodes.get? id = some found)

include tiles there

theorem Tiles.others_ne_nil (inside : node ∈ found.members) (several : found.members.length ≠ 1) :
    found.members.filter (· ≠ node) ≠ [] := by
  intro none
  have all : ∀ other ∈ found.members, other = node := by simpa using none
  have nodup := tiles.distinct there
  rw [List.eq_replicate_of_mem all, List.nodup_replicate] at nodup
  have filled := List.length_pos_of_mem inside
  omega

theorem Gathers.splits (inside : node ∈ found.members) {between : Plane} (dismantled : Tiles graph graph.nodeIds between)
    (tiled : Tiles graph graph.nodeIds after) (alone : ∀ member ∈ found.members, between.Alone member)
    (outside : ∀ other ∈ graph.nodeIds, other ∉ found.members → between.nodeOf.get? other = plane.nodeOf.get? other)
    (gathers : between.Gathers (found.members.filter (· ≠ node)) info after) : Splits graph plane node after := by
  intro first known second known'
  have rest_iff (other : NodeId) : other ∈ found.members.filter (· ≠ node) ↔ other ∈ found.members ∧ other ≠ node := by
    simp
  have member (other : NodeId) := tiles.sound.mem_members_iff there other
  -- A member of the old bundle stood alone in between, and all others stood where they do now.
  have alike {first second : NodeId} (inside : first ∈ found.members) :
      between.nodeOf.get? first = between.nodeOf.get? second ↔ first = second := by
    obtain ⟨own, single, stands, there, unbundled⟩ := alone first inside
    have members := dismantled.sound.members_of_alone stands there unbundled
    rw [stands, eq_comm, ← dismantled.sound.mem_members_iff there, members, List.mem_singleton, eq_comm]
  rw [gathers.together_iff dismantled tiled known known', rest_iff, rest_iff]
  by_cases within : first ∈ found.members
  next =>
    have together : plane.nodeOf.get? first = plane.nodeOf.get? second ↔ second ∈ found.members := by
      rw [(member first).mp within, member, eq_comm]
    rw [alike within, together]
    grind
  next =>
    by_cases within' : second ∈ found.members
    next =>
      have together : plane.nodeOf.get? first = plane.nodeOf.get? second ↔ first ∈ found.members := by
        rw [(member second).mp within', member]
      rw [eq_comm, alike within', together]
      grind
    next =>
      rw [outside first known within, outside second known' within']
      grind

theorem Tiles.unbundle_of_several (consistent : graph.Consistent) (stands : plane.nodeOf.get? node = some id)
    (bundled : found.bundle = some info) (several : found.members.length ≠ 1) :
    ∃ after, Tiles graph graph.nodeIds after ∧ after.frozen = plane.frozen ∧ Splits graph plane node after ∧
      (Acyclic after.graph.Feeds → Plane.unbundle graph node plane = .ok () after) ∧
      (¬ Acyclic after.graph.Feeds → Plane.unbundle graph node plane = .error (.fault .cyclicFusion) after) := by
  obtain ⟨between, removed, dismantled, frozen, free, alone, outside⟩ :=
    tiles.removeBundle_ok consistent stands there bundled several
  have inside := (tiles.sound.mem_members_iff there node).mpr stands
  obtain ⟨after, tiled, gathers, made, failed⟩ := dismantled.createBundle_eq consistent
    (tiles.others_ne_nil there inside several) free
    fun member listed => alone member (List.mem_filter.mp listed).1
  have unbundled : Plane.unbundle graph node plane =
      (discard <| Plane.createBundle (found.members.filter (· ≠ node)) info : PlaneM Unit) between := by
    unfold Plane.unbundle
    rw [stateful_bind_of_ok _ (query_eq_ok.mpr ⟨planeNode_eq_ok.mpr ⟨id, stands, there⟩, rfl⟩)]
    simp only [bundled, if_neg several]
    exact stateful_bind_of_ok _ removed
  refine ⟨after, tiled, gathers.frozen_eq.trans frozen, gathers.splits tiles there inside dismantled tiled alone outside,
    fun acyclic => ?_, fun cyclic => unbundled.trans (stateful_discard_of_error (failed cyclic))⟩
  obtain ⟨id, created⟩ := made acyclic
  exact unbundled.trans (stateful_discard_eq_ok.mpr ⟨id, created⟩)

end Several

theorem Tiles.unbundle_splits (consistent : graph.Consistent) (tiles : Tiles graph graph.nodeIds plane)
    (loopless : Acyclic plane.graph.Feeds) (known : node ∈ graph.nodeIds) :
    ∃ after, Tiles graph graph.nodeIds after ∧ after.frozen = plane.frozen ∧ Splits graph plane node after ∧
      (Acyclic after.graph.Feeds → Plane.unbundle graph node plane = .ok () after) ∧
      (¬ Acyclic after.graph.Feeds → Plane.unbundle graph node plane = .error (.fault .cyclicFusion) after) := by
  obtain ⟨id, stands⟩ := (tiles.covers node).mpr known
  obtain ⟨found, there, inside⟩ := (tiles.sound.nodeOf_iff node id).mp stands
  have asked : query (fun plane => plane.planeNode node) plane = .ok found plane :=
    query_eq_ok.mpr ⟨planeNode_eq_ok.mpr ⟨id, stands, there⟩, rfl⟩
  cases bundled : found.bundle with
  | none =>
    have ran : Plane.unbundle graph node plane = .ok () plane := by
      unfold Plane.unbundle
      rw [stateful_bind_of_ok _ asked]
      simp only [bundled]
      rfl
    have alone := tiles.sound.members_of_alone stands there bundled
    exact ⟨plane, tiles, rfl, splits_of_alone tiles stands there alone rfl, fun _ => ran, absurd loopless⟩
  | some info =>
    by_cases single : found.members.length = 1
    next =>
      obtain ⟨member, alone⟩ := List.length_eq_one_iff.mp single
      rw [alone, List.mem_singleton] at inside
      have ran : Plane.unbundle graph node plane = .ok () { plane with
          bundleOf := plane.bundleOf.erase info.bundleIndex
          graph := plane.graph.modifyNode found.id fun node => { node with bundle := none } } := by
        unfold Plane.unbundle
        rw [stateful_bind_of_ok _ asked]
        simp only [bundled, if_pos single]
        rfl
      have tiled := (tiles.unbundle consistent node).ok ran
      refine ⟨_, tiled, rfl, splits_of_alone tiles stands there (inside ▸ alone) rfl, fun _ => ran, fun cyclic => ?_⟩
      rw [tiles.feeds_congr tiled rfl] at cyclic
      exact absurd loopless cyclic
    next => exact tiles.unbundle_of_several there consistent stands bundled single

end Dataflow.Plane
