import Dataflow.Proofs.Graph.Boundary
import Dataflow.Proofs.Plane.Sound

set_option autoImplicit false

namespace Dataflow

-- There is one member, and it both writes and reads the tensor.
def Graph.Loops (graph : Graph) (members : List NodeId) (t : TensorId) : Prop :=
  ∃ node tensor, members = [node] ∧ graph.tensors.get? t = some tensor ∧ tensor.producer = some node ∧
    node ∈ tensor.consumers

theorem Graph.not_loops {graph : Graph} {members : List NodeId} (several : 2 ≤ members.length) (t : TensorId) :
    ¬ graph.Loops members t := by
  rintro ⟨member, -, rfl, -⟩
  exact absurd several (Nat.not_succ_le_self 1)

section Single

variable {graph : Graph} {id : NodeId} {node : Node} {t : TensorId} (consistent : graph.Consistent)
  (present : graph.nodes.get? id = some node)

include consistent present

namespace Graph

theorem enters_single_iff : graph.Enters [id] t ↔ t ∈ node.allInputs ∧ t ∉ node.allOutputs := by
  constructor
  next =>
    rintro ⟨tensor, there, ⟨member, inside, consumes⟩, apart⟩
    cases List.mem_singleton.mp inside
    refine ⟨(consistent.reads_iff there present).mp consumes, fun written => ?_⟩
    exact apart id ((consistent.writes_iff there present).mpr written) inside
  next =>
    rintro ⟨read, unwritten⟩
    obtain ⟨tensor, there⟩ := consistent.listed present (Or.inl read)
    refine ⟨tensor, there, ⟨id, List.mem_singleton_self id, (consistent.reads_iff there present).mpr read⟩, ?_⟩
    intro producer produced inside
    cases List.mem_singleton.mp inside
    exact unwritten ((consistent.writes_iff there present).mp produced)

theorem loops_single_iff : graph.Loops [id] t ↔ t ∈ node.allInputs ∧ t ∈ node.allOutputs := by
  constructor
  next =>
    rintro ⟨member, tensor, ⟨⟩, there, produced, consumes⟩
    exact ⟨(consistent.reads_iff there present).mp consumes, (consistent.writes_iff there present).mp produced⟩
  next =>
    rintro ⟨read, written⟩
    obtain ⟨tensor, there⟩ := consistent.listed present (Or.inl read)
    exact ⟨id, tensor, rfl, there, (consistent.writes_iff there present).mpr written,
      (consistent.reads_iff there present).mpr read⟩

theorem written_of_leaves (leaves : graph.Leaves [id] t) : t ∈ node.allOutputs := by
  obtain ⟨tensor, there, ⟨member, inside, produced⟩, -⟩ := leaves
  cases List.mem_singleton.mp inside
  exact (consistent.writes_iff there present).mp produced

theorem leaves_single (written : t ∈ node.allOutputs) (unread : t ∉ node.allInputs) : graph.Leaves [id] t := by
  obtain ⟨tensor, there⟩ := consistent.listed present (Or.inr written)
  have produced := (consistent.writes_iff there present).mpr written
  refine ⟨tensor, there, ⟨id, List.mem_singleton_self id, produced⟩, ?_⟩
  cases consumers : tensor.consumers with
  | nil => exact Or.inl rfl
  | cons consumer rest =>
    refine Or.inr ⟨consumer, .head _, fun inside => unread ((consistent.reads_iff there present).mp ?_)⟩
    rw [consumers, ← List.mem_singleton.mp inside]
    exact .head _

end Graph

end Single

namespace PlaneNode

def exposed (node : PlaneNode) : Usage → List PlaneTensorId
  | .input => node.inputs
  | .output => node.outputs

theorem mem_exposed {node : PlaneNode} {usage : Usage} {clone : PlaneTensorId} (lists : clone ∈ node.exposed usage) :
    clone ∈ node.inputs ∨ clone ∈ node.outputs := by
  cases usage with
  | input => exact Or.inl lists
  | output => exact Or.inr lists

def Lists (tensorOf : Table TensorId PlaneTensorId) (node : PlaneNode) (usage : Usage) (t : TensorId) : Prop :=
  ∃ clone, tensorOf.get? t = some clone ∧ clone ∈ node.exposed usage

-- What is exposed crosses the boundary, unless it is a loop that is exposed on both sides.
structure Exact (graph : Graph) (tensorOf : Table TensorId PlaneTensorId) (node : PlaneNode) : Prop where
  enters : ∀ {t}, graph.Enters node.members t → node.Lists tensorOf .input t
  leaves : ∀ {t}, graph.Leaves node.members t → node.Lists tensorOf .output t
  input : ∀ {t}, node.Lists tensorOf .input t →
    graph.Enters node.members t ∨ graph.Loops node.members t ∧ node.Lists tensorOf .output t
  output : ∀ {t}, node.Lists tensorOf .output t →
    graph.Leaves node.members t ∨ graph.Loops node.members t ∧ node.Lists tensorOf .input t

variable {graph : Graph} {tensorOf : Table TensorId PlaneTensorId} {node : PlaneNode}

theorem Exact.of_lists {final : PlaneNode} {finalOf : Table TensorId PlaneTensorId}
    (boundary : node.Exact graph tensorOf) (members : final.members = node.members)
    (lists : ∀ usage t, final.Lists finalOf usage t ↔ node.Lists tensorOf usage t) : final.Exact graph finalOf := by
  constructor
  case enters => intro t; rw [members, lists]; exact boundary.enters
  case leaves => intro t; rw [members, lists]; exact boundary.leaves
  case input => intro t; rw [members, lists, lists]; exact boundary.input
  case output => intro t; rw [members, lists, lists]; exact boundary.output

theorem exact_of_iff (enters : ∀ t, node.Lists tensorOf .input t ↔ graph.Enters node.members t)
    (leaves : ∀ t, node.Lists tensorOf .output t ↔ graph.Leaves node.members t) : node.Exact graph tensorOf where
  enters := (enters _).mpr
  leaves := (leaves _).mpr
  input := fun lists => Or.inl ((enters _).mp lists)
  output := fun lists => Or.inl ((leaves _).mp lists)

theorem Exact.input_iff {t : TensorId} (boundary : node.Exact graph tensorOf) (straight : ¬ graph.Loops node.members t) :
    node.Lists tensorOf .input t ↔ graph.Enters node.members t :=
  ⟨fun lists => (boundary.input lists).resolve_right fun both => straight both.1, boundary.enters⟩

theorem Exact.output_iff {t : TensorId} (boundary : node.Exact graph tensorOf) (straight : ¬ graph.Loops node.members t) :
    node.Lists tensorOf .output t ↔ graph.Leaves node.members t :=
  ⟨fun lists => (boundary.output lists).resolve_right fun both => straight both.1, boundary.leaves⟩

end PlaneNode

namespace Plane

variable {graph : Graph} {plane grown : Plane} {done : List NodeId}

theorem Clones.shown_iff {tensorOf : Table TensorId PlaneTensorId} {tensors : List TensorId}
    {clones : List PlaneTensorId} (cloned : Clones tensorOf tensors clones)
    (injective : ∀ {t other clone}, tensorOf.get? t = some clone → tensorOf.get? other = some clone → t = other)
    (t : TensorId) : (∃ clone, tensorOf.get? t = some clone ∧ clone ∈ clones) ↔ t ∈ tensors := by
  constructor
  next =>
    rintro ⟨clone, stands, lists⟩
    obtain ⟨own, listed, stands'⟩ := (cloned.mem_iff clone).mp lists
    exact injective stands stands' ▸ listed
  next =>
    intro listed
    obtain ⟨clone, stands⟩ := cloned.total t listed
    exact ⟨clone, stands, (cloned.mem_iff clone).mpr ⟨t, listed, stands⟩⟩

theorem Grows.lists_iff (grows : plane.Grows grown) {node : PlaneNode} (faithful : node.Faithful graph plane.tensorOf)
    (injective : ∀ {t other clone}, grown.tensorOf.get? t = some clone → grown.tensorOf.get? other = some clone →
      t = other) (usage : Usage) (t : TensorId) :
    node.Lists grown.tensorOf usage t ↔ node.Lists plane.tensorOf usage t := by
  constructor
  next =>
    -- The clone was listed before, so it stands for the tensor that it stood for before.
    rintro ⟨clone, stands, lists⟩
    obtain ⟨older, stood⟩ := faithful.cloned (PlaneNode.mem_exposed lists)
    cases injective (grows.keeps stood) stands
    exact ⟨clone, stood, lists⟩
  next =>
    rintro ⟨clone, stands, lists⟩
    exact ⟨clone, grows.keeps stands, lists⟩

theorem Grows.cases_pushed (grows : plane.Grows grown) {node found : PlaneNode} {id : PlaneNodeId}
    (there : (grown.pushed node).graph.nodes.get? id = some found) :
    found = node ∨ plane.graph.nodes.get? id = some found := by
  rw [nodes_pushed, grows.graph_eq, Table.get?_insert_eq] at there
  split at there
  next => exact Or.inl (Option.some.inj there).symm
  next => exact Or.inr there

structure Tiles (graph : Graph) (done : List NodeId) (plane : Plane) : Prop where
  sound : plane.Sound graph
  covers : ∀ node, (∃ id, plane.nodeOf.get? node = some id) ↔ node ∈ done
  distinct : ∀ {id found}, plane.graph.nodes.get? id = some found → found.members.Nodup
  boundary : ∀ {id found}, plane.graph.nodes.get? id = some found → found.Exact graph plane.tensorOf

theorem tiles_empty (graph : Graph) (accepts : Node → Bool) : Tiles graph [] { accepts } where
  sound := sound_empty graph accepts
  covers := by
    intro node
    constructor
    next => rintro ⟨id, found⟩; cases found
    next => intro member; cases member
  distinct := by intro id found there; cases there
  boundary := by intro id found there; cases there

theorem Tiles.absent (tiles : Tiles graph done plane) {node : NodeId} (new : node ∉ done) :
    plane.nodeOf.get? node = none := by
  by_contra known
  exact new ((tiles.covers node).mp (Option.ne_none_iff_exists'.mp known))

theorem Tiles.congr {others : List NodeId} (tiles : Tiles graph done plane)
    (same : ∀ node, node ∈ done ↔ node ∈ others) : Tiles graph others plane :=
  { tiles with covers := fun node => (tiles.covers node).trans (same node) }

theorem Tiles.setBundles (tiles : Tiles graph done plane) (bundleOf : Table UInt32 PlaneNodeId) :
    Tiles graph done { plane with bundleOf := bundleOf } :=
  { sound := tiles.sound.setBundles bundleOf, covers := tiles.covers, distinct := tiles.distinct
    boundary := tiles.boundary }

theorem Tiles.pushed {node : PlaneNode} (tiles : Tiles graph done plane) (grows : plane.Grows grown)
    (sound : (grown.pushed node).Sound graph) (distinct : node.members.Nodup)
    (boundary : node.Exact graph grown.tensorOf) : Tiles graph (done ++ node.members) (grown.pushed node) := by
  constructor
  case sound => exact sound
  case covers =>
    intro member
    rw [get?_nodeOf_pushed, grows.nodeOf_eq, List.mem_append, ← tiles.covers]
    by_cases inside : member ∈ node.members <;> simp [inside]
  case distinct =>
    intro id found there
    rcases grows.cases_pushed there with rfl | old
    next => exact distinct
    next => exact tiles.distinct old
  case boundary =>
    intro id found there
    rcases grows.cases_pushed there with rfl | old
    next => exact boundary
    next => exact (tiles.boundary old).of_lists rfl (grows.lists_iff (tiles.sound.faithful old) sound.injective)

theorem exact_singleNode (consistent : graph.Consistent) {node : Node} (present : graph.nodes.get? node.id = some node)
    {tensorOf : Table TensorId PlaneTensorId} {inputs outputs : List PlaneTensorId}
    (injective : ∀ {t other clone}, tensorOf.get? t = some clone → tensorOf.get? other = some clone → t = other)
    (inputsCloned : Clones tensorOf node.allInputs inputs) (outputsCloned : Clones tensorOf node.allOutputs outputs)
    (id : PlaneNodeId) : (singleNode node id inputs outputs).Exact graph tensorOf := by
  have input (t : TensorId) : (singleNode node id inputs outputs).Lists tensorOf .input t ↔ t ∈ node.allInputs :=
    inputsCloned.shown_iff injective t
  have output (t : TensorId) : (singleNode node id inputs outputs).Lists tensorOf .output t ↔ t ∈ node.allOutputs :=
    outputsCloned.shown_iff injective t
  constructor
  case enters => exact fun enters => (input _).mpr ((Graph.enters_single_iff consistent present).mp enters).1
  case leaves => exact fun leaves => (output _).mpr (Graph.written_of_leaves consistent present leaves)
  case input =>
    intro t lists
    have read := (input t).mp lists
    by_cases written : t ∈ node.allOutputs
    next => exact Or.inr ⟨(Graph.loops_single_iff consistent present).mpr ⟨read, written⟩, (output t).mpr written⟩
    next => exact Or.inl ((Graph.enters_single_iff consistent present).mpr ⟨read, written⟩)
  case output =>
    intro t lists
    have written := (output t).mp lists
    by_cases read : t ∈ node.allInputs
    next => exact Or.inr ⟨(Graph.loops_single_iff consistent present).mpr ⟨read, written⟩, (input t).mpr read⟩
    next => exact Or.inl (Graph.leaves_single consistent present written read)

theorem Tiles.addSingle_ok (consistent : graph.Consistent) (tiles : Tiles graph done plane) {node : Node}
    (present : graph.nodes.get? node.id = some node) (new : node.id ∉ done) :
    ∃ grown id inputs outputs, plane.Grows grown ∧
      addSingle graph node plane = .ok id (grown.pushed (singleNode node id inputs outputs)) ∧
      Tiles graph (done ++ [node.id]) (grown.pushed (singleNode node id inputs outputs)) := by
  obtain ⟨id, final, added⟩ := Plane.addSingle_ok (tiles.absent new) fun t listed => consistent.listed present listed
  obtain ⟨grown, inputs, outputs, grows, -, rfl, rfl, sound, inputsCloned, outputsCloned⟩ :=
    tiles.sound.addSingle_eq_ok consistent.toLinked present
      (fun t listed => consistent.listed present (Or.inr listed)) added
  have boundary := exact_singleNode consistent present sound.injective inputsCloned outputsCloned ⟨plane.nextNode⟩
  exact ⟨grown, _, inputs, outputs, grows, added, tiles.pushed grows sound (List.nodup_singleton _) boundary⟩

structure GainsSingles (plane final : Plane) : Prop where
  bundleOf_eq : final.bundleOf = plane.bundleOf
  frozen_eq : final.frozen = plane.frozen
  accepts_eq : final.accepts = plane.accepts
  stays : ∀ {node id}, plane.nodeOf.get? node = some id → final.nodeOf.get? node = some id
  cases : ∀ {id found}, final.graph.nodes.get? id = some found →
    plane.graph.nodes.get? id = some found ∨ found.bundle = none

theorem GainsSingles.pushed {between : Plane} (gains : plane.GainsSingles between) (grows : between.Grows grown)
    {node : PlaneNode} (unbundled : node.bundle = none)
    (new : ∀ member ∈ node.members, between.nodeOf.get? member = none) : plane.GainsSingles (grown.pushed node) where
  bundleOf_eq := grows.bundleOf_eq.trans gains.bundleOf_eq
  frozen_eq := grows.frozen_eq.trans gains.frozen_eq
  accepts_eq := grows.accepts_eq.trans gains.accepts_eq
  stays := by
    intro other id stands
    have stood := gains.stays stands
    rw [get?_nodeOf_pushed, grows.nodeOf_eq, if_neg, stood]
    intro inside
    rw [new other inside] at stood
    cases stood
  cases := by
    intro id found there
    rcases grows.cases_pushed there with rfl | old
    next => exact Or.inr unbundled
    next => exact gains.cases old

theorem Tiles.addSingles_ok {α : Type} (consistent : graph.Consistent) (tiles : Tiles graph done plane)
    {items : List α} {step : α → PlaneM PUnit} (key : α → NodeId)
    (steps : ∀ item ∈ items, ∃ node, graph.nodes.get? node.id = some node ∧ key item = node.id ∧
      step item = discard (addSingle graph node))
    (nodup : (items.map key).Nodup) (new : ∀ item ∈ items, key item ∉ done) :
    ∃ final, items.forM step plane = .ok ⟨⟩ final ∧ Tiles graph (done ++ items.map key) final ∧
      plane.GainsSingles final := by
  apply stateful_forM_succeeds fun added final => Tiles graph (done ++ added.map key) final ∧ plane.GainsSingles final
  case start => exact ⟨by simpa using tiles, rfl, rfl, rfl, id, Or.inl⟩
  case steps =>
    rintro added item rest between split ⟨tiles, gains⟩
    have listed : item ∈ items := by simp [split]
    obtain ⟨node, present, own, stepped⟩ := steps item listed
    have apart : node.id ∉ done ++ added.map key := by
      rw [← own, List.mem_append, not_or]
      refine ⟨new item listed, fun member => ?_⟩
      rw [split, List.map_append] at nodup
      exact List.disjoint_of_nodup_append nodup member (.head _)
    have absent := tiles.absent apart
    obtain ⟨grown, id, inputs, outputs, grows, pushed, tiles⟩ := tiles.addSingle_ok consistent present apart
    refine ⟨_, stepped ▸ stateful_discard_eq_ok.mpr ⟨id, pushed⟩, ?_, gains.pushed grows rfl ?_⟩
    next => rwa [List.map_append, List.map_singleton, own, ← List.append_assoc]
    next => exact fun member inside => by rw [List.mem_singleton.mp inside, absent]

end Plane

end Dataflow
