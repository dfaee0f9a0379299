import Dataflow.Proofs.Plane.Quotient

set_option autoImplicit false

namespace Dataflow

structure Graph.Grouping (graph : Graph) (groups : List (List NodeId × BundleInfo)) : Prop where
  once : (groups.map fun group => group.2.bundleIndex).Nodup
  occurs : ∀ index, index ∈ groups.map (fun group => group.2.bundleIndex) ↔
    ∃ node ∈ graph.nodeIds, graph.bundleOf node = some index
  members : ∀ group ∈ groups, ∀ node, node ∈ group.1 ↔
    node ∈ graph.nodeIds ∧ graph.bundleOf node = some group.2.bundleIndex

namespace Plane

variable {graph : Graph} {plane : Plane} {indices : List UInt32}

structure Gathered (graph : Graph) (indices : List UInt32) (plane : Plane) : Prop
    extends Tiles graph graph.nodeIds plane where
  holds : ∀ {id found}, plane.graph.nodes.get? id = some found →
    (∃ index ∈ indices, found.Holds graph (.inl index)) ∨
      found.bundle = none ∧ ∀ member ∈ found.members, ∀ index ∈ indices, graph.bundleOf member ≠ some index
  entered : ∀ {index id}, plane.bundleOf.get? index = some id → index ∈ indices
  unfrozen : plane.frozen = false
  accepts : plane.accepts = fun _ => true

theorem gathered_ofGraph (consistent : graph.Consistent) :
    ∃ start, ofGraph graph = .ok start ∧ Gathered graph [] start := by
  obtain ⟨start, made, tiles, gains⟩ := ofGraph_ok consistent
  refine ⟨start, made, tiles, fun {id found} there => ?_, fun {index id} entered => ?_, gains.frozen_eq, gains.accepts_eq⟩
  next =>
    refine Or.inr ⟨(gains.cases there).resolve_left fun old => ?_, by simp⟩
    cases old
  next =>
    rw [gains.bundleOf_eq] at entered
    cases entered

section Between

variable (gathered : Gathered graph indices plane)

include gathered

theorem Gathered.members_of_apart {first second : NodeId} {id other : PlaneNodeId}
    (stands : plane.nodeOf.get? first = some id) (otherStands : plane.nodeOf.get? second = some other)
    (apart : id ≠ other) (same : graph.unitOf first = graph.unitOf second) :
    ∃ found, plane.graph.nodes.get? id = some found ∧ found.members = [first] := by
  obtain ⟨found, there, inside⟩ := (gathered.sound.nodeOf_iff first id).mp stands
  refine ⟨found, there, ?_⟩
  rcases gathered.holds there with ⟨index, -, holds⟩ | ⟨unbundled, -⟩
  next =>
    -- A gathered bundle has all nodes of its unit, so the second node would stand there too.
    have known := (gathered.covers second).mp ⟨other, otherStands⟩
    have within := (holds.mem_iff second).mpr ⟨known, same ▸ ((holds.mem_iff first).mp inside).2⟩
    have stands' := (gathered.sound.mem_members_iff there second).mp within
    exact absurd (Option.some.inj (stands'.symm.trans otherStands)) apart
  next => exact gathered.sound.members_of_alone stands there unbundled

theorem Gathered.unitOf_eq {first second : NodeId} {id : PlaneNodeId} (stands : plane.nodeOf.get? first = some id)
    (otherStands : plane.nodeOf.get? second = some id) : graph.unitOf first = graph.unitOf second := by
  obtain ⟨found, there, inside⟩ := (gathered.sound.nodeOf_iff first id).mp stands
  have within := (gathered.sound.mem_members_iff there second).mpr otherStands
  rcases gathered.holds there with ⟨index, -, holds⟩ | ⟨unbundled, -⟩
  next => rw [((holds.mem_iff first).mp inside).2, ((holds.mem_iff second).mp within).2]
  next =>
    rw [gathered.sound.members_of_alone stands there unbundled, List.mem_singleton] at within
    rw [within]

theorem Gathered.acyclic (acyclic : Acyclic graph.Edge) (quotient : Acyclic graph.UnitEdge) :
    Acyclic plane.graph.Feeds := by
  obtain ⟨unitAt, same⟩ := exists_shared (fun node unit => graph.unitOf node = unit) fun {id first} stands =>
    ⟨graph.unitOf first, fun node stands' => gathered.unitOf_eq stands' stands⟩
  let nodeAt (id : PlaneNodeId) : NodeId := ((plane.graph.nodes.get? id).bind fun found => found.members.head?).getD ⟨0⟩
  -- A cycle of the plane would be one of the units or, inside of one unit, one of the nodes.
  refine Acyclic.of_classes (f := unitAt) (fun source target feeds => ?_) quotient
    (acyclic.comap nodeAt fun source target => ?_)
  next =>
    obtain ⟨-, producer, consumer, feeds, left, right⟩ := gathered.feeds_iff.mp feeds
    by_cases together : unitAt source = unitAt target
    next => exact Or.inl together
    next => exact Or.inr ⟨together, producer, consumer, feeds, same _ _ left, same _ _ right⟩
  next =>
    rintro ⟨feeds, together⟩
    obtain ⟨apart, producer, consumer, feeds, left, right⟩ := gathered.feeds_iff.mp feeds
    have unit : graph.unitOf producer = graph.unitOf consumer := by rw [same _ _ left, same _ _ right, together]
    obtain ⟨found, there, members⟩ := gathered.members_of_apart left right apart unit
    obtain ⟨otherFound, otherThere, otherMembers⟩ := gathered.members_of_apart right left apart.symm unit.symm
    have differ : producer ≠ consumer := by
      rintro rfl
      exact apart (Option.some.inj (left.symm.trans right))
    simpa [nodeAt, there, members, otherThere, otherMembers, Graph.Edge, differ] using feeds

theorem Gathered.alone {node : NodeId} {index : UInt32} (known : node ∈ graph.nodeIds)
    (bundled : graph.bundleOf node = some index) (new : index ∉ indices) : plane.Alone node := by
  obtain ⟨id, stands⟩ := (gathered.covers node).mpr known
  obtain ⟨found, there, inside⟩ := (gathered.sound.nodeOf_iff node id).mp stands
  refine ⟨id, found, stands, there, ?_⟩
  rcases gathered.holds there with ⟨other, old, holds⟩ | ⟨unbundled, -⟩
  next =>
    have own := Graph.unitOf_eq_inl.mp ((holds.mem_iff node).mp inside).2
    cases bundled.symm.trans own
    exact absurd old new
  next => exact unbundled

section Step

variable {nodes : List NodeId} {info : BundleInfo} {after : Plane}
  (occupied : ∃ node ∈ graph.nodeIds, graph.bundleOf node = some info.bundleIndex)
  (members : ∀ node, node ∈ nodes ↔ node ∈ graph.nodeIds ∧ graph.bundleOf node = some info.bundleIndex)

include occupied members

theorem Gathered.gather (tiles : Tiles graph graph.nodeIds after) (gathers : plane.Gathers nodes info after) :
    Gathered graph (indices ++ [info.bundleIndex]) after := by
  obtain ⟨first, known, bundled⟩ := occupied
  constructor
  case toTiles => exact tiles
  case holds =>
    intro id found there
    rcases gathers.cases there with ⟨bundle, inside⟩ | ⟨old, outside⟩
    next =>
      refine Or.inl ⟨info.bundleIndex, by simp, tiles.distinct there, ?_, ?_, ?_⟩
      next => exact List.ne_nil_of_mem ((inside first).mpr ((members first).mpr ⟨known, bundled⟩))
      next => exact fun node => by rw [inside, members, Graph.unitOf_eq_inl]
      next => rw [PlaneNode.bundleIndex?, bundle]; rfl
    next =>
      rcases gathered.holds old with ⟨index, listed, holds⟩ | ⟨unbundled, others⟩
      next => exact Or.inl ⟨index, List.mem_append_left _ listed, holds⟩
      next =>
        refine Or.inr ⟨unbundled, fun member inside index listed bundled' => ?_⟩
        rcases List.mem_append.mp listed with listed | last
        next => exact others member inside index listed bundled'
        next =>
          cases List.mem_singleton.mp last
          have known' := (tiles.covers member).mp ⟨id, (tiles.sound.mem_members_iff there member).mp inside⟩
          exact outside member ((members member).mpr ⟨known', bundled'⟩) inside
  case entered =>
    intro index id entered
    rcases gathers.entered entered with rfl | old
    next => simp
    next => exact List.mem_append_left _ (gathered.entered old)
  case unfrozen => exact gathers.frozen_eq.trans gathered.unfrozen
  case accepts => exact gathers.accepts_eq.trans gathered.accepts

theorem Gathered.createBundle_ok (consistent : graph.Consistent) (acyclic : Acyclic graph.Edge)
    (quotient : Acyclic graph.UnitEdge) (new : info.bundleIndex ∉ indices) :
    ∃ id after, createBundle nodes info plane = .ok id after ∧
      Gathered graph (indices ++ [info.bundleIndex]) after := by
  have ⟨first, known, bundled⟩ := occupied
  have free : plane.bundleOf.get? info.bundleIndex = none := by
    by_contra taken
    obtain ⟨id, entered⟩ := Option.ne_none_iff_exists'.mp taken
    exact new (gathered.entered entered)
  obtain ⟨after, tiles, gathers, made, -⟩ := gathered.toTiles.createBundle_eq consistent
    (List.ne_nil_of_mem ((members first).mpr ⟨known, bundled⟩)) free fun node inside =>
      gathered.alone ((members node).mp inside).1 ((members node).mp inside).2 new
  have extended := gathered.gather occupied members tiles gathers
  -- The new plane lies between the graph and its quotient as well, so it passes the check for cycles.
  obtain ⟨id, created⟩ := made (extended.acyclic acyclic quotient)
  exact ⟨id, after, created, extended⟩

end Step

theorem Gathered.built (all : ∀ index, (∃ node ∈ graph.nodeIds, graph.bundleOf node = some index) → index ∈ indices) :
    Built graph graph.nodeIds plane where
  toTiles := gathered.toTiles
  holds := by
    intro id found there
    rcases gathered.holds there with ⟨index, -, holds⟩ | ⟨unbundled, others⟩
    next => exact ⟨_, holds⟩
    next =>
      obtain ⟨member, single⟩ := (gathered.sound.faithful there).single unbundled
      have stands := (gathered.sound.mem_members_iff there member).mp (by simp [single])
      have known := (gathered.covers member).mp ⟨id, stands⟩
      -- The index of a node that stands alone would have been gathered.
      have free : graph.bundleOf member = none := by
        by_contra bundled
        obtain ⟨index, bundled⟩ := Option.ne_none_iff_exists'.mp bundled
        exact others member (by simp [single]) index (all index ⟨member, known, bundled⟩) bundled
      refine ⟨.inr member, gathered.distinct there, by simp [single], fun node => ?_, ?_⟩
      next =>
        rw [single, List.mem_singleton, Graph.unitOf_eq_inr]
        constructor
        next => rintro rfl; exact ⟨known, free, rfl⟩
        next => exact fun same => same.2.2
      next => rw [PlaneNode.bundleIndex?, unbundled]; rfl
  unfrozen := gathered.unfrozen
  accepts := gathered.accepts

end Between

theorem gather_ok (consistent : graph.Consistent) (acyclic : Acyclic graph.Edge) (quotient : Acyclic graph.UnitEdge)
    {groups : List (List NodeId × BundleInfo)} (grouping : graph.Grouping groups) {start : Plane}
    (gathered : Gathered graph [] start) :
    ∃ final, (groups.forM fun group => discard <| createBundle group.1 group.2) start = .ok ⟨⟩ final ∧
      Gathered graph (groups.map fun group => group.2.bundleIndex) final := by
  -- The invariant speaks of the set of indices that are done, so their order does not matter.
  apply stateful_forM_succeeds fun (done : List (List NodeId × BundleInfo)) plane =>
    Gathered graph (done.map fun group => group.2.bundleIndex) plane
  case start => exact gathered
  case steps =>
    intro done group rest plane split gathered
    have listed : group ∈ groups := by simp [split]
    have new : group.2.bundleIndex ∉ done.map fun group => group.2.bundleIndex := by
      have once := grouping.once
      rw [split, List.map_append] at once
      exact fun old => List.disjoint_of_nodup_append once old (.head _)
    obtain ⟨id, after, created, gathered⟩ := gathered.createBundle_ok
      ((grouping.occurs _).mp (List.mem_map_of_mem listed)) (grouping.members group listed) consistent acyclic quotient new
    exact ⟨after, stateful_discard_eq_ok.mpr ⟨id, created⟩, by simpa using gathered⟩

-- Loops of single members apart, both planes expose the same.
structure Renumbers (graph : Graph) (plane other : Plane) (number : PlaneNodeId → PlaneNodeId) : Prop where
  nodeOf : ∀ node, other.nodeOf.get? node = (plane.nodeOf.get? node).map number
  injective : ∀ first ∈ plane.graph.nodes.keys, ∀ second ∈ plane.graph.nodes.keys,
    number first = number second → first = second
  onto : ∀ id ∈ other.graph.nodes.keys, ∃ old ∈ plane.graph.nodes.keys, number old = id
  kept : ∀ {id found}, plane.graph.nodes.get? id = some found → ∃ twin,
    other.graph.nodes.get? (number id) = some twin ∧ twin.members.Perm found.members ∧
      twin.bundleIndex? = found.bundleIndex? ∧ ∀ usage t, ¬ graph.Loops found.members t →
        (found.Lists plane.tensorOf usage t ↔ twin.Lists other.tensorOf usage t)
  edges : ∀ source ∈ plane.graph.nodes.keys, ∀ target ∈ plane.graph.nodes.keys,
    number target ∈ other.graph.consumers (number source) ↔ target ∈ plane.graph.consumers source

section Units

variable {other : Plane} (built : Built graph graph.nodeIds plane) (otherBuilt : Built graph graph.nodeIds other)

include built

theorem Built.nodeOf_eq_iff {first second : NodeId} (known : first ∈ graph.nodeIds) (known' : second ∈ graph.nodeIds) :
    plane.nodeOf.get? first = plane.nodeOf.get? second ↔ graph.unitOf first = graph.unitOf second := by
  obtain ⟨id, stands⟩ := (built.covers first).mpr known
  rw [stands, eq_comm, built.sound.nodeOf_iff, eq_comm]
  exact built.member_iff ((built.sound.nodeOf_iff first id).mp stands) known'

theorem Built.exists_standing {id : PlaneNodeId} (present : id ∈ plane.graph.nodes.keys) :
    ∃ node ∈ graph.nodeIds, plane.nodeOf.get? node = some id := by
  obtain ⟨found, there⟩ := (Table.mem_keys_iff _ id).mp present
  obtain ⟨node, known, holds⟩ := built.exists_unit there
  exact ⟨node, known, (built.holds_iff known there).mp holds⟩

theorem Built.present_of_standing {node : NodeId} {id : PlaneNodeId} (stands : plane.nodeOf.get? node = some id) :
    id ∈ plane.graph.nodes.keys := by
  obtain ⟨found, there, -⟩ := (built.sound.nodeOf_iff node id).mp stands
  exact Table.mem_keys_of_get? there

include otherBuilt

theorem Built.exists_number : ∃ number : PlaneNodeId → PlaneNodeId,
    (∀ node, other.nodeOf.get? node = (plane.nodeOf.get? node).map number) ∧
      ∀ first ∈ plane.graph.nodes.keys, ∀ second ∈ plane.graph.nodes.keys,
        number first = number second → first = second := by
  obtain ⟨number, renumbered⟩ := built.toTiles.exists_coarser otherBuilt.toTiles fun first known second known' same =>
    (otherBuilt.nodeOf_eq_iff known known').mpr ((built.nodeOf_eq_iff known known').mp same)
  refine ⟨number, fun node => ?_, fun first present second present' same => ?_⟩
  next =>
    cases stands : plane.nodeOf.get? node with
    | some id => exact renumbered id node stands
    | none =>
      have absent : ¬ ∃ id, other.nodeOf.get? node = some id := by
        rw [otherBuilt.covers, ← built.covers, stands]
        simp
      simpa [Option.eq_none_iff_forall_ne_some] using absent
  next =>
    obtain ⟨node, known, stands⟩ := built.exists_standing present
    obtain ⟨node', known', stands'⟩ := built.exists_standing present'
    have together : other.nodeOf.get? node = other.nodeOf.get? node' := by
      rw [renumbered _ node stands, renumbered _ node' stands', same]
    rw [otherBuilt.nodeOf_eq_iff known known', ← built.nodeOf_eq_iff known known', stands, stands'] at together
    exact Option.some.inj together

theorem Built.renumbers : ∃ number, Renumbers graph plane other number := by
  obtain ⟨number, nodeOf, injective⟩ := built.exists_number otherBuilt
  have stands_iff {id : PlaneNodeId} (present : id ∈ plane.graph.nodes.keys) (node : NodeId) :
      other.nodeOf.get? node = some (number id) ↔ plane.nodeOf.get? node = some id := by
    rw [nodeOf, Option.map_eq_some_iff]
    constructor
    next =>
      rintro ⟨old, stands, same⟩
      rw [stands, injective old (built.present_of_standing stands) id present same]
    next => exact fun stands => ⟨id, stands, rfl⟩
  refine ⟨number, nodeOf, injective, ?onto, ?kept, ?edges⟩
  case onto =>
    intro id present
    obtain ⟨node, -, stands⟩ := otherBuilt.exists_standing present
    rw [nodeOf, Option.map_eq_some_iff] at stands
    obtain ⟨old, stands, renumbered⟩ := stands
    exact ⟨old, built.present_of_standing stands, renumbered⟩
  case kept =>
    intro id found there
    have present := Table.mem_keys_of_get? there
    obtain ⟨node, -, stands⟩ := built.exists_standing present
    obtain ⟨twin, twinThere, inside⟩ := (otherBuilt.sound.nodeOf_iff node _).mp ((stands_iff present node).mpr stands)
    -- The twin stands for the same nodes, and they settle both the unit and what is exposed.
    have member_iff (member : NodeId) : member ∈ twin.members ↔ member ∈ found.members := by
      rw [otherBuilt.sound.mem_members_iff twinThere, built.sound.mem_members_iff there, stands_iff present]
    have perm : twin.members.Perm found.members :=
      (List.perm_ext_iff_of_nodup (otherBuilt.distinct twinThere) (built.distinct there)).mpr member_iff
    refine ⟨twin, twinThere, perm, ?_, fun usage t straight => ?_⟩
    next =>
      obtain ⟨unit, holds⟩ := built.holds there
      obtain ⟨otherUnit, otherHolds⟩ := otherBuilt.holds twinThere
      have own := ((holds.mem_iff node).mp ((member_iff node).mp inside)).2
      have otherOwn := ((otherHolds.mem_iff node).mp inside).2
      rw [holds.index, otherHolds.index, ← own, ← otherOwn]
    next => exact (built.boundary there).lists_iff (otherBuilt.boundary twinThere) perm.symm usage straight
  case edges =>
    intro source sourceThere target targetThere
    have apart : number source ≠ number target ↔ source ≠ target :=
      not_congr ⟨injective source sourceThere target targetThere, congrArg number⟩
    rw [PlaneGraph.mem_consumers otherBuilt.sound.indexed, PlaneGraph.mem_consumers built.sound.indexed,
      otherBuilt.toTiles.feeds_iff, built.toTiles.feeds_iff, apart]
    simp only [stands_iff sourceThere, stands_iff targetThere]

end Units

theorem gathered_renumbers_annotated (consistent : graph.Consistent)
    (annotated : ofAnnotations graph (fun _ => true) = .ok plane) {groups : List (List NodeId × BundleInfo)}
    (grouping : graph.Grouping groups) :
    ∃ start final number, ofGraph graph = .ok start ∧
      (groups.forM fun group => discard <| createBundle group.1 group.2) start = .ok ⟨⟩ final ∧
      Renumbers graph plane final number := by
  obtain ⟨built, loopless⟩ := built_of_ofAnnotations consistent annotated
  have acyclic := acyclic_of_ofAnnotations consistent annotated
  have quotient := (built.acyclic_iff consistent.toLinked).mp loopless
  obtain ⟨start, made, gathered⟩ := gathered_ofGraph consistent
  obtain ⟨final, ran, gathered⟩ := gather_ok consistent acyclic quotient grouping gathered
  obtain ⟨number, renumbers⟩ := built.renumbers (gathered.built fun index => (grouping.occurs index).mpr)
  exact ⟨start, final, number, made, ran, renumbers⟩

def staged : GraphDescription :=
  { tensors := [{ name := "loaded" }, { name := "scaled" }, { name := "shifted" }]
    nodes := [{ name := "load", outputs := ["loaded"], bundle := some { bundleIndex := 0 } },
      { name := "scale", inputs := ["loaded"], outputs := ["scaled"], bundle := some { bundleIndex := 0 } },
      { name := "shift", inputs := ["scaled"], outputs := ["shifted"], bundle := some { bundleIndex := 1 } },
      { name := "store", inputs := ["shifted"], bundle := some { bundleIndex := 1 } },
      { name := "log", inputs := ["loaded"] }] }

-- The later stage first, and in each the later node first.
def stagedGroups : List (List NodeId × BundleInfo) :=
  [([⟨3⟩, ⟨2⟩], { bundleIndex := 1 }), ([⟨1⟩, ⟨0⟩], { bundleIndex := 0 })]

theorem grouping_staged : staged.graph.Grouping stagedGroups where
  once := by decide
  occurs := by
    intro index
    have carried : staged.graph.nodeIds.filterMap staged.graph.bundleOf = [0, 0, 1, 1] := rfl
    rw [← List.mem_filterMap, carried]
    simp [stagedGroups, or_comm]
  members := by
    intro group listed node
    have inside : ∀ group ∈ stagedGroups, ∀ node ∈ group.1,
        node ∈ staged.graph.nodeIds ∧ staged.graph.bundleOf node = some group.2.bundleIndex := by decide
    have all : ∀ group ∈ stagedGroups, ∀ node ∈ staged.graph.nodeIds,
        staged.graph.bundleOf node = some group.2.bundleIndex → node ∈ group.1 := by decide
    exact ⟨inside group listed node, fun known => all group listed node known.1 known.2⟩

theorem gathered_staged : ∃ plane start final number, ofAnnotations staged.graph (fun _ => true) = .ok plane ∧
    ofGraph staged.graph = .ok start ∧
    (stagedGroups.forM fun group => discard <| createBundle group.1 group.2) start = .ok ⟨⟩ final ∧
    Renumbers staged.graph plane final number := by
  have valid : (ofAnnotations staged.graph fun _ => true).isOk = true := by decide +kernel
  cases annotated : ofAnnotations staged.graph fun _ => true with
  | error error => rw [annotated] at valid; cases valid
  | ok plane =>
    obtain ⟨start, final, number, made, ran, renumbers⟩ :=
      gathered_renumbers_annotated staged.consistent_graph annotated grouping_staged
    exact ⟨plane, start, final, number, rfl, made, ran, renumbers⟩

end Plane

end Dataflow
