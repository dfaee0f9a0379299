import Dataflow.Plane.Build
import Dataflow.Proofs.Plane.Exposure

set_option autoImplicit false

namespace Dataflow

structure PlaneNode.Holds (graph : Graph) (unit : UInt32 ⊕ NodeId) (node : PlaneNode) : Prop where
  nodup : node.members.Nodup
  occupied : node.members ≠ []
  mem_iff : ∀ member, member ∈ node.members ↔ member ∈ graph.nodeIds ∧ graph.unitOf member = unit
  index : node.bundleIndex? = unit.getLeft?

namespace Graph

variable {graph : Graph}

theorem mem_exposedInputs {node : Node} {t : TensorId} : t ∈ graph.exposedInputs node ↔
    t ∈ node.allInputs ∧ ∀ id, graph.producer? t = some id → ∀ producer, graph.nodes.get? id = some producer →
      node.sameBundle producer = false := by
  rw [exposedInputs, List.mem_filter]
  refine and_congr_right fun _ => ?_
  cases produced : graph.producer? t with
  | none => simp
  | some id =>
    simp only [Option.bind_some, Option.some.injEq, forall_eq']
    cases graph.nodes.get? id <;> simp

theorem mem_exposedOutputs {node : Node} {t : TensorId} : t ∈ graph.exposedOutputs node ↔
    t ∈ node.allOutputs ∧ (graph.tensorConsumers t = [] ∨ ∃ id ∈ graph.tensorConsumers t,
      ∀ consumer, graph.nodes.get? id = some consumer → consumer.sameBundle node = false) := by
  rw [exposedOutputs, List.mem_filter]
  refine and_congr_right fun _ => ?_
  simp only [Bool.or_eq_true, List.isEmpty_iff, List.any_eq_true]
  refine or_congr_right ?_
  refine exists_congr fun id => and_congr_right fun _ => ?_
  cases graph.nodes.get? id <;> simp

theorem sameBundle_symm {node other : Node} (same : node.sameBundle other = true) : other.sameBundle node = true := by
  unfold Node.sameBundle at *
  cases first : node.annotations.bundle <;> cases second : other.annotations.bundle <;>
    simp_all [BundleInfo.same]

theorem sameBundle_of_index {node other : Node} {index : UInt32} (own : node.bundleIndex? = some index) :
    node.sameBundle other = true ↔ other.bundleIndex? = some index := by
  unfold Node.sameBundle Node.bundleIndex? at *
  cases first : node.annotations.bundle with
  | none => rw [first] at own; cases own
  | some info =>
    rw [first] at own
    cases own
    cases second : other.annotations.bundle with
    | none => simp [BundleInfo.same]
    | some info' => simp [BundleInfo.same, eq_comm]

end Graph

namespace Plane

variable {graph : Graph} {plane : Plane}

theorem Clones.append {tensorOf : Table TensorId PlaneTensorId} {first second : List TensorId}
    {firstClones secondClones : List PlaneTensorId} (one : Clones tensorOf first firstClones)
    (two : Clones tensorOf second secondClones) : Clones tensorOf (first ++ second) (firstClones ++ secondClones) := by
  constructor
  case mem_iff =>
    intro clone
    simp only [List.mem_append, one.mem_iff, two.mem_iff, or_and_right, exists_or]
  case total =>
    intro t listed
    rcases List.mem_append.mp listed with listed | listed
    next => exact one.total t listed
    next => exact two.total t listed

theorem Clones.ascending {tensorOf : Table TensorId PlaneTensorId} {tensors : List TensorId}
    {clones : List PlaneTensorId} (cloned : Clones tensorOf tensors clones) :
    Clones tensorOf tensors (Ranked.ascending clones) :=
  ⟨fun clone => by rw [Ranked.mem_ascending, cloned.mem_iff], cloned.total⟩

def cloneExposed (graph : Graph) (node : Node) : PlaneM (List PlaneTensorId × List PlaneTensorId) := do
  let inputs ← (graph.exposedInputs node).mapM (cloneTensor graph)
  let outputs ← (graph.exposedOutputs node).mapM (cloneTensor graph)
  return (inputs, outputs)

theorem Sound.cloneExposed_ok (consistent : graph.Consistent) (sound : plane.Sound graph) {members : List Node}
    (present : ∀ node ∈ members, graph.nodes.get? node.id = some node) :
    ∃ exposed grown, members.mapM (cloneExposed graph) plane = .ok exposed grown ∧ plane.Grows grown ∧
      grown.Sound graph ∧ Clones grown.tensorOf (members.flatMap graph.exposedInputs) (exposed.flatMap Prod.fst) ∧
      Clones grown.tensorOf (members.flatMap graph.exposedOutputs) (exposed.flatMap Prod.snd) := by
  induction members generalizing plane with
  | nil => exact ⟨[], plane, rfl, .refl _, sound, ⟨by simp, by simp⟩, ⟨by simp, by simp⟩⟩
  | cons node rest ih =>
    have own := present node (.head _)
    obtain ⟨inputs, first, mapped⟩ := cloneAll_ok plane fun t listed =>
      consistent.listed own (Or.inl (Graph.mem_exposedInputs.mp listed).1)
    obtain ⟨outputs, second, mapped'⟩ := cloneAll_ok first fun t listed =>
      consistent.listed own (Or.inr (Graph.mem_exposedOutputs.mp listed).1)
    obtain ⟨grows, sound, inputsCloned⟩ := sound.cloneAll_eq_ok consistent.toLinked mapped
    obtain ⟨grows', sound, outputsCloned⟩ := sound.cloneAll_eq_ok consistent.toLinked mapped'
    obtain ⟨exposed, grown, others, grows'', sound, restInputs, restOutputs⟩ :=
      ih sound fun node member => present node (.tail _ member)
    have stepped : cloneExposed graph node plane = .ok (inputs, outputs) second := by
      unfold cloneExposed
      rw [stateful_bind_of_ok _ mapped, stateful_bind_of_ok _ mapped']
      rfl
    refine ⟨(inputs, outputs) :: exposed, grown, ?_, (grows.trans grows').trans grows'', sound, ?_, ?_⟩
    next =>
      rw [List.mapM_cons, stateful_bind_of_ok _ stepped, stateful_bind_of_ok _ others]
      rfl
    next => exact (inputsCloned.grow (grows'.trans grows'')).append restInputs
    next => exact (outputsCloned.grow grows'').append restOutputs

structure Built (graph : Graph) (done : List NodeId) (plane : Plane) : Prop extends Tiles graph done plane where
  holds : ∀ {id found}, plane.graph.nodes.get? id = some found → ∃ unit, found.Holds graph unit
  unfrozen : plane.frozen = false
  accepts : plane.accepts = fun _ => true

theorem built_empty (graph : Graph) : Built graph [] { accepts := fun _ => true } where
  toTiles := tiles_empty graph _
  holds := by intro id found there; cases there
  unfrozen := rfl
  accepts := rfl

theorem Built.pushed {done : List NodeId} {grown : Plane} {node : PlaneNode} {unit : UInt32 ⊕ NodeId}
    (built : Built graph done plane) (grows : plane.Grows grown)
    (tiles : Tiles graph (done ++ node.members) (grown.pushed node)) (holds : node.Holds graph unit) :
    Built graph (done ++ node.members) (grown.pushed node) where
  toTiles := tiles
  holds := by
    intro id found there
    rcases grows.cases_pushed there with rfl | old
    next => exact ⟨unit, holds⟩
    next => exact built.holds old
  unfrozen := grows.frozen_eq.trans built.unfrozen
  accepts := grows.accepts_eq.trans built.accepts

theorem Built.setBundles {done : List NodeId} (built : Built graph done plane)
    (bundleOf : Table UInt32 PlaneNodeId) : Built graph done { plane with bundleOf := bundleOf } :=
  { toTiles := built.toTiles.setBundles bundleOf, holds := built.holds, unfrozen := built.unfrozen
    accepts := built.accepts }

theorem holds_singleNode {node : Node} (present : graph.nodes.get? node.id = some node)
    (unbundled : node.bundleIndex? = none) (id : PlaneNodeId) (inputs outputs : List PlaneTensorId) :
    (singleNode node id inputs outputs).Holds graph (.inr node.id) where
  nodup := List.nodup_singleton _
  occupied := List.cons_ne_nil _ _
  mem_iff := by
    intro member
    rw [Graph.unitOf_eq_inr]
    constructor
    next =>
      intro listed
      cases List.mem_singleton.mp listed
      exact ⟨Table.mem_keys_of_get? present, (Graph.bundleOf_eq present).trans unbundled, rfl⟩
    next => exact fun same => List.mem_singleton.mpr same.2.2
  index := rfl

theorem Built.addSingle_ok {done : List NodeId} (consistent : graph.Consistent) (built : Built graph done plane)
    {node : Node} (present : graph.nodes.get? node.id = some node) (unbundled : node.bundleIndex? = none)
    (new : node.id ∉ done) : ∃ id final, addSingle graph node plane = .ok id final ∧ Built graph (done ++ [node.id]) final := by
  obtain ⟨grown, id, inputs, outputs, grows, added, tiles⟩ := built.toTiles.addSingle_ok consistent present new
  exact ⟨_, _, added, built.pushed grows tiles (holds_singleNode present unbundled id inputs outputs)⟩

theorem Sound.pushBundle {grown : Plane} (sound : grown.Sound graph) (consistent : graph.Consistent)
    {members : List Node} (info : BundleInfo) {inputs outputs : List PlaneTensorId}
    (present : ∀ node ∈ members, graph.nodes.get? node.id = some node)
    (fresh : ∀ node ∈ members, grown.nodeOf.get? node.id = none)
    (inputsCloned : Clones grown.tensorOf (members.flatMap graph.exposedInputs) inputs)
    (outputsCloned : Clones grown.tensorOf (members.flatMap graph.exposedOutputs) outputs) :
    (grown.pushed (bundleNode info ⟨grown.nextNode⟩ inputs outputs (members.map Node.id))).Sound graph := by
  refine sound.pushed rfl ?_ (fun _ _ => rfl) ?_
  next =>
    intro id inside
    obtain ⟨node, member, rfl⟩ := List.mem_map.mp inside
    exact fresh node member
  next =>
    refine faithful_of_clones consistent.toLinked sound (fun none => nomatch none) inputsCloned outputsCloned ?_ ?_ ?_
    next =>
      intro t exposed
      obtain ⟨node, member, exposed⟩ := List.mem_flatMap.mp exposed
      exact ⟨node.id, List.mem_map_of_mem member, node, present node member, (Graph.mem_exposedInputs.mp exposed).1⟩
    next =>
      intro t exposed
      obtain ⟨node, member, exposed⟩ := List.mem_flatMap.mp exposed
      exact ⟨node.id, List.mem_map_of_mem member, node, present node member, (Graph.mem_exposedOutputs.mp exposed).1⟩
    next =>
      intro t exposed
      obtain ⟨node, member, exposed⟩ := List.mem_flatMap.mp exposed
      exact consistent.listed (present node member) (Or.inr (Graph.mem_exposedOutputs.mp exposed).1)

section Bundle

variable {members : List Node} {index : UInt32} {t : TensorId} (consistent : graph.Consistent)
  (mem_iff : ∀ node, node ∈ members ↔ graph.nodes.get? node.id = some node ∧ node.bundleIndex? = some index)

include consistent mem_iff

theorem inside_iff {id : NodeId} {record : Node} (found : graph.nodes.get? id = some record) :
    id ∈ members.map Node.id ↔ record.bundleIndex? = some index := by
  cases consistent.nodeKey found
  rw [List.mem_map]
  constructor
  next =>
    rintro ⟨node, member, same⟩
    obtain ⟨present, own⟩ := (mem_iff node).mp member
    rw [same, found] at present
    cases present
    exact own
  next => exact fun indexed => ⟨record, (mem_iff record).mpr ⟨found, indexed⟩, rfl⟩

theorem exposedInputs_iff : t ∈ members.flatMap graph.exposedInputs ↔ graph.Enters (members.map Node.id) t := by
  rw [List.mem_flatMap]
  constructor
  next =>
    rintro ⟨node, member, exposed⟩
    obtain ⟨reads, apart⟩ := Graph.mem_exposedInputs.mp exposed
    obtain ⟨present, own⟩ := (mem_iff node).mp member
    obtain ⟨tensor, there⟩ := consistent.listed present (Or.inl reads)
    have consumes := (consistent.reads_iff there present).mpr reads
    refine ⟨tensor, there, ⟨node.id, List.mem_map_of_mem member, consumes⟩, ?_⟩
    intro producer produced inside
    obtain ⟨record, found, -⟩ := (consistent.producer_iff there producer).mp produced
    have produces : graph.producer? t = some producer := by rw [Graph.producer?, there]; exact produced
    have same := (Graph.sameBundle_of_index own).mpr ((inside_iff consistent mem_iff found).mp inside)
    rw [apart producer produces record found] at same
    cases same
  next =>
    rintro ⟨tensor, there, ⟨id, inside, consumes⟩, apart⟩
    obtain ⟨node, member, rfl⟩ := List.mem_map.mp inside
    obtain ⟨present, own⟩ := (mem_iff node).mp member
    have reads := (consistent.reads_iff there present).mp consumes
    refine ⟨node, member, Graph.mem_exposedInputs.mpr ⟨reads, fun producer produces record found => ?_⟩⟩
    rw [Graph.producer?, there] at produces
    by_contra same
    rw [Bool.not_eq_false, Graph.sameBundle_of_index own] at same
    exact apart producer produces ((inside_iff consistent mem_iff found).mpr same)

theorem exposedOutputs_iff : t ∈ members.flatMap graph.exposedOutputs ↔ graph.Leaves (members.map Node.id) t := by
  rw [List.mem_flatMap]
  -- A consumer is outside of the bundle exactly if its record is of another one.
  have outside {tensor : Tensor} {node : Node} (there : graph.tensors.get? t = some tensor) (member : node ∈ members)
      {id : NodeId} (consumes : id ∈ tensor.consumers) :
      (∀ consumer, graph.nodes.get? id = some consumer → consumer.sameBundle node = false) ↔
        id ∉ members.map Node.id := by
    obtain ⟨record, found, -⟩ := (consistent.consumer_iff there id).mp consumes
    have own := ((mem_iff node).mp member).2
    have same : record.sameBundle node = true ↔ record.bundleIndex? = some index := by
      rw [← Graph.sameBundle_of_index own]
      exact ⟨Graph.sameBundle_symm, Graph.sameBundle_symm⟩
    simp [found, inside_iff consistent mem_iff found, ← same]
  constructor
  next =>
    rintro ⟨node, member, exposed⟩
    obtain ⟨writes, apart⟩ := Graph.mem_exposedOutputs.mp exposed
    obtain ⟨present, own⟩ := (mem_iff node).mp member
    obtain ⟨tensor, there⟩ := consistent.listed present (Or.inr writes)
    have produces := (consistent.writes_iff there present).mpr writes
    refine ⟨tensor, there, ⟨node.id, List.mem_map_of_mem member, produces⟩, ?_⟩
    rw [Graph.tensorConsumers, there] at apart
    refine apart.imp_right ?_
    rintro ⟨id, consumes, differs⟩
    exact ⟨id, consumes, (outside there member consumes).mp differs⟩
  next =>
    rintro ⟨tensor, there, ⟨id, inside, produces⟩, apart⟩
    obtain ⟨node, member, rfl⟩ := List.mem_map.mp inside
    obtain ⟨present, own⟩ := (mem_iff node).mp member
    have writes := (consistent.writes_iff there present).mp produces
    refine ⟨node, member, Graph.mem_exposedOutputs.mpr ⟨writes, ?_⟩⟩
    rw [Graph.tensorConsumers, there]
    refine apart.imp_right ?_
    rintro ⟨id, consumes, differs⟩
    exact ⟨id, consumes, (outside there member consumes).mpr differs⟩

end Bundle

theorem holds_bundleNode (linked : graph.Linked) {members : List Node} {index : UInt32} {info : BundleInfo}
    (mem_iff : ∀ node, node ∈ members ↔ graph.nodes.get? node.id = some node ∧ node.bundleIndex? = some index)
    (nodup : (members.map Node.id).Nodup) (occupied : members ≠ []) (indexed : info.bundleIndex = index)
    (id : PlaneNodeId) (inputs outputs : List PlaneTensorId) :
    (bundleNode info id inputs outputs (members.map Node.id)).Holds graph (.inl index) where
  nodup := nodup
  occupied := fun none => occupied (List.map_eq_nil_iff.mp none)
  mem_iff := by
    intro member
    show member ∈ members.map Node.id ↔ _
    rw [Graph.mem_nodeIds_iff, Graph.unitOf_eq_inl]
    constructor
    next =>
      intro inside
      obtain ⟨node, listed, rfl⟩ := List.mem_map.mp inside
      obtain ⟨present, own⟩ := (mem_iff node).mp listed
      exact ⟨⟨node, present⟩, (Graph.bundleOf_eq present).trans own⟩
    next =>
      rintro ⟨⟨node, present⟩, bundled⟩
      cases linked.nodeKey present
      exact List.mem_map_of_mem ((mem_iff node).mpr ⟨present, (Graph.bundleOf_eq present).symm.trans bundled⟩)
  index := congrArg some indexed

theorem Built.addAnnotatedBundle_ok {done : List NodeId} (consistent : graph.Consistent)
    (built : Built graph done plane) {members : List Node} {index : UInt32}
    (mem_iff : ∀ node, node ∈ members ↔ graph.nodes.get? node.id = some node ∧ node.bundleIndex? = some index)
    (nodup : (members.map Node.id).Nodup) (new : ∀ node ∈ members, node.id ∉ done) (occupied : members ≠ []) :
    ∃ final, addAnnotatedBundle graph members plane = .ok () final ∧
      Built graph (done ++ members.map Node.id) final := by
  have present : ∀ node ∈ members, graph.nodes.get? node.id = some node := fun node member => ((mem_iff node).mp member).1
  obtain ⟨info, leads, indexed⟩ : ∃ info, (members.head?.bind fun node => node.annotations.bundle) = some info ∧
      info.bundleIndex = index := by
    obtain ⟨first, rest, rfl⟩ := List.exists_cons_of_ne_nil occupied
    exact Option.map_eq_some_iff.mp ((mem_iff first).mp (.head _)).2
  obtain ⟨exposed, grown, mapped, grows, sound, inputsCloned, outputsCloned⟩ :=
    built.sound.cloneExposed_ok consistent present
  have fresh : ∀ node ∈ members, grown.nodeOf.get? node.id = none := by
    intro node member
    rw [grows.nodeOf_eq]
    exact built.absent (new node member)
  have boundary : (bundleNode info ⟨grown.nextNode⟩ (Ranked.ascending (exposed.flatMap Prod.fst))
      (Ranked.ascending (exposed.flatMap Prod.snd)) (members.map Node.id)).Exact graph grown.tensorOf :=
    PlaneNode.exact_of_iff
      (fun t => (inputsCloned.ascending.shown_iff sound.injective t).trans (exposedInputs_iff consistent mem_iff))
      (fun t => (outputsCloned.ascending.shown_iff sound.injective t).trans (exposedOutputs_iff consistent mem_iff))
  have sound := sound.pushBundle consistent info present fresh inputsCloned.ascending
    outputsCloned.ascending
  have holds := holds_bundleNode consistent.toLinked mem_iff nodup occupied indexed ⟨grown.nextNode⟩
    (Ranked.ascending (exposed.flatMap Prod.fst)) (Ranked.ascending (exposed.flatMap Prod.snd))
  refine ⟨_, ?_, (built.pushed grows (built.toTiles.pushed grows sound nodup boundary) holds).setBundles
    (grown.bundleOf.insert info.bundleIndex ⟨grown.nextNode⟩)⟩
  unfold addAnnotatedBundle
  rw [leads]
  show (members.mapM (cloneExposed graph) >>= fun _ => _ : PlaneM Unit) plane = _
  rw [stateful_bind_of_ok _ mapped]
  rfl

theorem mem_filterMap_get? (linked : graph.Linked) {order : List NodeId}
    (mem_order : ∀ id, id ∈ order ↔ id ∈ graph.nodeIds) (node : Node) :
    node ∈ order.filterMap graph.nodes.get? ↔ graph.nodes.get? node.id = some node := by
  rw [List.mem_filterMap]
  constructor
  next =>
    rintro ⟨id, -, found⟩
    rwa [linked.nodeKey found]
  next =>
    intro found
    exact ⟨node.id, (mem_order _).mpr (Table.mem_keys_of_get? found), found⟩

theorem nodup_records (linked : graph.Linked) {order : List NodeId} (nodup : order.Nodup) :
    ((order.filterMap graph.nodes.get?).map Node.id).Nodup := by
  have sublist : ((order.filterMap graph.nodes.get?).map Node.id).Sublist order := by
    clear nodup
    induction order with
    | nil => exact .slnil
    | cons id rest ih =>
      cases found : graph.nodes.get? id with
      | none => rw [List.filterMap_cons_none found]; exact ih.cons id
      | some node =>
        rw [List.filterMap_cons_some found, List.map_cons, linked.nodeKey found]
        exact ih.cons_cons id
  exact nodup.sublist sublist

theorem Built.holds_iff (built : Built graph graph.nodeIds plane) {node : NodeId} (known : node ∈ graph.nodeIds)
    {id : PlaneNodeId} {found : PlaneNode} (there : plane.graph.nodes.get? id = some found) :
    found.Holds graph (graph.unitOf node) ↔ plane.nodeOf.get? node = some id := by
  rw [built.sound.nodeOf_iff]
  constructor
  next => exact fun holds => ⟨found, there, (holds.mem_iff node).mpr ⟨known, rfl⟩⟩
  next =>
    rintro ⟨same, there', inside⟩
    cases there.symm.trans there'
    obtain ⟨unit, holds⟩ := built.holds there
    rwa [((holds.mem_iff node).mp inside).2]

theorem Built.holds_unique {done : List NodeId} (built : Built graph done plane) {unit : UInt32 ⊕ NodeId}
    {id other : PlaneNodeId} {found otherFound : PlaneNode} (there : plane.graph.nodes.get? id = some found)
    (otherThere : plane.graph.nodes.get? other = some otherFound) (holds : found.Holds graph unit)
    (otherHolds : otherFound.Holds graph unit) : id = other := by
  obtain ⟨member, inside⟩ := List.exists_mem_of_ne_nil _ holds.occupied
  have otherInside := (otherHolds.mem_iff member).mpr ((holds.mem_iff member).mp inside)
  have stands := (built.sound.nodeOf_iff member id).mpr ⟨found, there, inside⟩
  have otherStands := (built.sound.nodeOf_iff member other).mpr ⟨otherFound, otherThere, otherInside⟩
  exact Option.some.inj (stands.symm.trans otherStands)

theorem Built.holds_of_index {done : List NodeId} (built : Built graph done plane) {id : PlaneNodeId}
    {found : PlaneNode} {index : UInt32} (there : plane.graph.nodes.get? id = some found)
    (indexed : found.bundleIndex? = some index) : found.Holds graph (.inl index) := by
  obtain ⟨unit, holds⟩ := built.holds there
  cases unit with
  | inl other =>
    cases indexed.symm.trans holds.index
    exact holds
  | inr node => cases indexed.symm.trans holds.index

def indexAt? (plane : Plane) (id : PlaneNodeId) : Option UInt32 :=
  (plane.graph.nodes.get? id).bind PlaneNode.bundleIndex?

theorem countP_isBundle (plane : Plane) : plane.graph.nodes.values.countP PlaneNode.isBundle =
    (plane.graph.nodes.keys.filterMap plane.indexAt?).length := by
  have each : ∀ entry ∈ plane.graph.nodes.entries, plane.indexAt? entry.1 = entry.2.bundleIndex? := by
    intro entry member
    rw [indexAt?, (Table.mem_entries_iff _ entry.1 entry.2).mp member]
    rfl
  rw [Table.keys, List.filterMap_map, Table.values, List.countP_map, List.length_filterMap_eq_countP]
  refine List.countP_congr fun entry member => ?_
  rw [Function.comp_apply, Function.comp_apply, each entry member, PlaneNode.bundleIndex?, Option.isSome_map]
  rfl

theorem Built.bundleCount_eq (built : Built graph graph.nodeIds plane) :
    plane.graph.nodes.values.countP PlaneNode.isBundle =
      (Ranked.ascending ((graph.nodes.values.filter plane.accepts).filterMap Node.bundleIndex?)).length := by
  rw [countP_isBundle]
  -- Two plane nodes of one index would share the members of that bundle.
  have distinct : (plane.graph.nodes.keys.filterMap plane.indexAt?).Nodup := by
    refine List.Nodup.filterMap (fun id other index indexed otherIndexed => ?_) plane.graph.nodes.nodup_keys
    obtain ⟨found, there, own⟩ := Option.bind_eq_some_iff.mp indexed
    obtain ⟨otherFound, otherThere, otherOwn⟩ := Option.bind_eq_some_iff.mp otherIndexed
    exact built.holds_unique there otherThere (built.holds_of_index there own)
      (built.holds_of_index otherThere otherOwn)
  refine ((List.perm_ext_iff_of_nodup distinct (Ranked.nodup_ascending _)).mpr fun index => ?_).length_eq
  rw [Ranked.mem_ascending, List.mem_filterMap, List.mem_filterMap, built.accepts, List.filter_true]
  constructor
  next =>
    rintro ⟨id, -, indexed⟩
    obtain ⟨found, there, own⟩ := Option.bind_eq_some_iff.mp indexed
    have holds := built.holds_of_index there own
    obtain ⟨member, inside⟩ := List.exists_mem_of_ne_nil _ holds.occupied
    obtain ⟨known, same⟩ := (holds.mem_iff member).mp inside
    obtain ⟨node, present⟩ := (Graph.mem_nodeIds_iff member).mp known
    refine ⟨node, (Table.mem_values_iff _ node).mpr ⟨member, present⟩, ?_⟩
    rw [← Graph.bundleOf_eq present, Graph.unitOf_eq_inl.mp same]
  next =>
    rintro ⟨node, listed, indexed⟩
    obtain ⟨member, present⟩ := (Table.mem_values_iff _ node).mp listed
    have known : member ∈ graph.nodeIds := Table.mem_keys_of_get? present
    obtain ⟨id, stands⟩ := (built.covers member).mpr known
    obtain ⟨found, there, -⟩ := (built.sound.nodeOf_iff member id).mp stands
    have holds := (built.holds_iff known there).mpr stands
    rw [Graph.unitOf_eq_inl.mpr ((Graph.bundleOf_eq present).trans indexed)] at holds
    exact ⟨id, Table.mem_keys_of_get? there, Option.bind_eq_some_iff.mpr ⟨found, there, holds.index⟩⟩

theorem Built.validate_eq (built : Built graph graph.nodeIds plane) :
    (Acyclic plane.graph.Feeds → plane.validate graph = .ok ()) ∧
      (¬ Acyclic plane.graph.Feeds → plane.validate graph = .error (.invalidPlane .cyclicPlane)) := by
  obtain ⟨ordered, stuck⟩ := built.sound.indexed.isAcyclic_eq
  unfold validate
  constructor
  next =>
    intro acyclic
    rw [ordered acyclic, built.bundleCount_eq]
    exact if_neg fun differ => differ rfl
  next =>
    intro cyclic
    rw [stuck cyclic]
    rfl

theorem Built.congr {done others : List NodeId} (built : Built graph done plane)
    (same : ∀ node, node ∈ done ↔ node ∈ others) : Built graph others plane :=
  { built with toTiles := built.toTiles.congr same }

theorem addSingles_ok (consistent : graph.Consistent) {nodes : List Node}
    (present : ∀ node ∈ nodes, graph.nodes.get? node.id = some node ∧ node.bundleIndex? = none)
    (nodup : (nodes.map Node.id).Nodup) :
    ∃ final, (nodes.forM fun node => discard <| addSingle graph node) { accepts := fun _ => true } = .ok ⟨⟩ final ∧
      Built graph (nodes.map Node.id) final := by
  apply stateful_forM_succeeds fun done plane => Built graph (done.map Node.id) plane
  case start => exact built_empty graph
  case steps =>
    intro done node rest plane split built
    rw [split, List.map_append] at nodup
    have new : node.id ∉ done.map Node.id :=
      fun member => List.disjoint_of_nodup_append nodup member (.head _)
    obtain ⟨there, unbundled⟩ := present node (by simp [split])
    obtain ⟨id, final, added, built⟩ := built.addSingle_ok consistent there unbundled new
    refine ⟨final, stateful_discard_eq_ok.mpr ⟨id, added⟩, ?_⟩
    rwa [List.map_append]

theorem addBundles_ok {done : List NodeId} (consistent : graph.Consistent) (built : Built graph done plane)
    {nodes : List Node} (mem_iff : ∀ node, node ∈ nodes ↔ graph.nodes.get? node.id = some node)
    (distinct : (nodes.map Node.id).Nodup)
    (unbundled : ∀ node, graph.nodes.get? node.id = some node → node.id ∈ done → node.bundleIndex? = none)
    {indices : List UInt32} (nodup : indices.Nodup)
    (occupied : ∀ index ∈ indices, ∃ node ∈ nodes, node.bundleIndex? = some index) :
    ∃ final, (indices.forM fun index =>
        addAnnotatedBundle graph (nodes.filter fun node => node.bundleIndex? = some index)) plane = .ok ⟨⟩ final ∧
      Built graph (done ++ indices.flatMap fun index =>
        (nodes.filter fun node => node.bundleIndex? = some index).map Node.id) final := by
  apply stateful_forM_succeeds fun finished plane => Built graph (done ++ finished.flatMap fun index =>
    (nodes.filter fun node => node.bundleIndex? = some index).map Node.id) plane
  case start => simpa using built
  case steps =>
    intro finished index rest plane split built
    have members (node : Node) : node ∈ nodes.filter (fun node => node.bundleIndex? = some index) ↔
        graph.nodes.get? node.id = some node ∧ node.bundleIndex? = some index := by
      rw [List.mem_filter, mem_iff, decide_eq_true_iff]
    have new : ∀ node ∈ nodes.filter (fun node => node.bundleIndex? = some index),
        node.id ∉ done ++ finished.flatMap fun index =>
          (nodes.filter fun node => node.bundleIndex? = some index).map Node.id := by
      intro node member inside
      obtain ⟨present, indexed⟩ := (members node).mp member
      rcases List.mem_append.mp inside with inside | inside
      next =>
        rw [unbundled node present inside] at indexed
        cases indexed
      next =>
        obtain ⟨earlier, listed, inside⟩ := List.mem_flatMap.mp inside
        obtain ⟨other, otherMember, same⟩ := List.mem_map.mp inside
        obtain ⟨otherMember, otherIndexed⟩ := List.mem_filter.mp otherMember
        -- A member that was added before carries an earlier index, and no index comes twice.
        have otherPresent := (mem_iff other).mp otherMember
        rw [same, present] at otherPresent
        cases otherPresent
        cases indexed.symm.trans (of_decide_eq_true otherIndexed)
        rw [split] at nodup
        exact List.disjoint_of_nodup_append nodup listed (.head _)
    obtain ⟨node, member, indexed⟩ := occupied index (by simp [split])
    have someone : nodes.filter (fun node => node.bundleIndex? = some index) ≠ [] :=
      List.ne_nil_of_mem (List.mem_filter.mpr ⟨member, decide_eq_true indexed⟩)
    obtain ⟨final, added, built⟩ := built.addAnnotatedBundle_ok consistent members
      (distinct.sublist (List.filter_sublist.map _)) new someone
    refine ⟨final, added, built.congr fun node => ?_⟩
    simp [List.flatMap_append]

theorem addAnnotated_ok (consistent : graph.Consistent) {nodes : List Node}
    (mem_iff : ∀ node, node ∈ nodes ↔ graph.nodes.get? node.id = some node) (nodup : (nodes.map Node.id).Nodup) :
    ∃ singles final, ((nodes.filter fun node => node.bundleIndex?.isNone).forM fun node =>
        discard <| addSingle graph node) { accepts := fun _ => true } = .ok ⟨⟩ singles ∧
      ((Ranked.ascending (nodes.filterMap Node.bundleIndex?)).forM fun index =>
        addAnnotatedBundle graph (nodes.filter fun node => node.bundleIndex? = some index)) singles = .ok ⟨⟩ final ∧
      Built graph graph.nodeIds final := by
  have present : ∀ node ∈ nodes.filter fun node => node.bundleIndex?.isNone,
      graph.nodes.get? node.id = some node ∧ node.bundleIndex? = none := by
    intro node member
    obtain ⟨listed, unbundled⟩ := List.mem_filter.mp member
    exact ⟨(mem_iff node).mp listed, Option.isNone_iff_eq_none.mp unbundled⟩
  obtain ⟨singles, added, built⟩ := addSingles_ok consistent present (nodup.sublist (List.filter_sublist.map _))
  have occupied : ∀ index ∈ Ranked.ascending (nodes.filterMap Node.bundleIndex?),
      ∃ node ∈ nodes, node.bundleIndex? = some index := by
    intro index listed
    rw [Ranked.mem_ascending] at listed
    exact List.mem_filterMap.mp listed
  obtain ⟨final, bundled, built⟩ := addBundles_ok consistent built mem_iff nodup
    (fun node present inside => by
      obtain ⟨other, member, same⟩ := List.mem_map.mp inside
      obtain ⟨member, unbundled⟩ := List.mem_filter.mp member
      have otherPresent := (mem_iff other).mp member
      rw [same, present] at otherPresent
      cases otherPresent
      exact Option.isNone_iff_eq_none.mp unbundled) (Ranked.nodup_ascending _) occupied
  refine ⟨singles, final, added, bundled, built.congr fun id => ?_⟩
  -- Each node is among the singles or under its index, so together these are all nodes.
  rw [Graph.mem_nodeIds_iff, List.mem_append, List.mem_flatMap]
  constructor
  next =>
    rintro (inside | ⟨index, -, inside⟩)
    all_goals
      obtain ⟨node, member, rfl⟩ := List.mem_map.mp inside
      exact ⟨node, (mem_iff node).mp (List.mem_filter.mp member).1⟩
  next =>
    rintro ⟨node, found⟩
    cases consistent.nodeKey found
    have member := (mem_iff node).mpr found
    cases indexed : node.bundleIndex? with
    | none => exact Or.inl (List.mem_map_of_mem (List.mem_filter.mpr ⟨member, by rw [indexed]; rfl⟩))
    | some index =>
      refine Or.inr ⟨index, ?_, List.mem_map_of_mem (List.mem_filter.mpr ⟨member, decide_eq_true indexed⟩)⟩
      rw [Ranked.mem_ascending]
      exact List.mem_filterMap.mpr ⟨node, member, indexed⟩

theorem ofAnnotations_cases (consistent : graph.Consistent) :
    ¬ Acyclic graph.Edge ∧ ofAnnotations graph (fun _ => true) = .error (.invalidPlane .cyclicGraph) ∨
      Acyclic graph.Edge ∧ ∃ plane, Built graph graph.nodeIds plane ∧
        (Acyclic plane.graph.Feeds ∧ ofAnnotations graph (fun _ => true) = .ok plane ∨
          ¬ Acyclic plane.graph.Feeds ∧
            ofAnnotations graph (fun _ => true) = .error (.invalidPlane .cyclicPlane)) := by
  have ordering := Graph.topologicalOrder?_eq consistent.toLinked .both
  rw [Graph.blocks_tensorNetwork consistent.toLinked] at ordering
  by_cases acyclic : Acyclic graph.Edge
  case neg =>
    refine Or.inl ⟨acyclic, ?_⟩
    unfold ofAnnotations buildFromAnnotations
    rw [ordering.2 acyclic]
    rfl
  case pos =>
    obtain ⟨order, ordered, valid⟩ := ordering.1 acyclic
    have mem_iff := mem_filterMap_get? consistent.toLinked valid.mem_iff
    have nodup := nodup_records consistent.toLinked valid.nodup
    rw [← List.filter_true (order.filterMap graph.nodes.get?)] at mem_iff nodup
    obtain ⟨singles, final, added, bundled, whole⟩ := addAnnotated_ok consistent mem_iff nodup
    have outcome : buildFromAnnotations graph { accepts := fun _ => true } =
        query (fun plane => plane.validate graph) final := by
      unfold buildFromAnnotations
      rw [ordered]
      show (get >>= fun _ => _ : PlaneM Unit) _ = _
      rw [stateful_get_bind, stateful_bind_of_ok _ added,
        stateful_bind_of_ok _ bundled]
    refine Or.inr ⟨acyclic, final, whole, ?_⟩
    obtain ⟨accepted, refused⟩ := whole.validate_eq
    unfold ofAnnotations Plane.built
    rw [outcome]
    by_cases loopless : Acyclic final.graph.Feeds
    next => rw [query_eq_ok.mpr ⟨accepted loopless, rfl⟩]; exact Or.inl ⟨loopless, rfl⟩
    next => rw [query_of_error (refused loopless)]; exact Or.inr ⟨loopless, rfl⟩

theorem ofAnnotations_eq (consistent : graph.Consistent) :
    (∃ plane, ofAnnotations graph (fun _ => true) = .ok plane ∧ Built graph graph.nodeIds plane) ∨
      ∃ defect, ofAnnotations graph (fun _ => true) = .error (.invalidPlane defect) := by
  rcases ofAnnotations_cases consistent with ⟨-, failed⟩ | ⟨-, plane, whole, ⟨-, built⟩ | ⟨-, failed⟩⟩
  next => exact Or.inr ⟨_, failed⟩
  next => exact Or.inl ⟨plane, built, whole⟩
  next => exact Or.inr ⟨_, failed⟩

theorem built_of_ofAnnotations (consistent : graph.Consistent)
    (made : ofAnnotations graph (fun _ => true) = .ok plane) :
    Built graph graph.nodeIds plane ∧ Acyclic plane.graph.Feeds := by
  rcases ofAnnotations_cases consistent with ⟨-, failed⟩ | ⟨-, same, built, ⟨loopless, made'⟩ | ⟨-, failed⟩⟩
  next => cases made.symm.trans failed
  next => cases made.symm.trans made'; exact ⟨built, loopless⟩
  next => cases made.symm.trans failed

theorem acyclic_of_ofAnnotations (consistent : graph.Consistent)
    (made : ofAnnotations graph (fun _ => true) = .ok plane) : Acyclic graph.Edge := by
  rcases ofAnnotations_cases consistent with ⟨-, failed⟩ | ⟨acyclic, -⟩
  next => cases made.symm.trans failed
  next => exact acyclic

end Plane

end Dataflow
