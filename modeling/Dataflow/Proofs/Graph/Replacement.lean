import Dataflow.Proofs.Description.Build
import Dataflow.Proofs.Graph.Relation

set_option autoImplicit false

namespace Dataflow

def renamed (old new node : NodeId) : NodeId := if node = old then new else node

namespace Graph

variable {graph final : Graph} {old new : Node} {t : TensorId} {tensor : Tensor}

theorem Linked.producer_replaced (linked : graph.Linked) (present : graph.nodes.get? old.id = some old)
    (outputs : new.allOutputs = old.allOutputs) (there : graph.tensors.get? t = some tensor) :
    (entered new t (released old t tensor)).producer = tensor.producer.map (renamed old.id new.id) := by
  have listed_iff : t ∈ old.allOutputs ↔ tensor.producer = some old.id := by
    rw [linked.producer_iff there, present]
    simp
  by_cases listed : t ∈ old.allOutputs
  next => simp [entered, outputs, listed, listed_iff.mp listed, renamed]
  next =>
    have other : tensor.producer ≠ some old.id := mt listed_iff.mpr listed
    simp only [entered, released, outputs, listed, false_and, if_false]
    cases made : tensor.producer with
    | none => rfl
    | some producer =>
      have differs : producer ≠ old.id := by rintro rfl; exact other made
      simp [renamed, differs]

theorem Linked.consumers_replaced (linked : graph.Linked) (present : graph.nodes.get? old.id = some old)
    (inputs : new.allInputs = old.allInputs) (there : graph.tensors.get? t = some tensor) (consumer : NodeId) :
    consumer ∈ (entered new t (released old t tensor)).consumers ↔
      ∃ reader ∈ tensor.consumers, renamed old.id new.id reader = consumer := by
  have listed_iff : t ∈ old.allInputs ↔ old.id ∈ tensor.consumers := by
    rw [linked.consumer_iff there, present]
    simp
  by_cases listed : t ∈ old.allInputs
  next =>
    have reads := listed_iff.mp listed
    simp only [entered, released, inputs, listed, if_true, Ranked.mem_insert, List.mem_filter, decide_eq_true_iff]
    constructor
    next =>
      rintro (rfl | ⟨consumes, other⟩)
      next => exact ⟨old.id, reads, if_pos rfl⟩
      next => exact ⟨consumer, consumes, if_neg other⟩
    next =>
      rintro ⟨reader, consumes, rfl⟩
      by_cases own : reader = old.id
      next => exact Or.inl (if_pos own)
      next => rw [renamed, if_neg own]; exact Or.inr ⟨consumes, own⟩
  next =>
    have unread : old.id ∉ tensor.consumers := mt listed_iff.mpr listed
    have kept : ∀ reader ∈ tensor.consumers, renamed old.id new.id reader = reader := by
      intro reader consumes
      refine if_neg ?_
      rintro rfl
      exact unread consumes
    simp only [entered, released, inputs, listed, if_false]
    constructor
    next => exact fun consumes => ⟨consumer, consumes, kept consumer consumes⟩
    next =>
      rintro ⟨reader, consumes, rfl⟩
      rwa [kept reader consumes]

structure Renames (graph : Graph) (old new : NodeId) (final : Graph) : Prop where
  nextTensor : final.nextTensor = graph.nextTensor
  nodeIds : ∀ id, id ∈ final.nodeIds ↔ id = new ∨ id ≠ old ∧ id ∈ graph.nodeIds
  forth : ∀ {t tensor}, graph.tensors.get? t = some tensor → ∃ after, final.tensors.get? t = some after ∧
    after.producer = tensor.producer.map (renamed old new) ∧
    ∀ consumer, consumer ∈ after.consumers ↔ ∃ reader ∈ tensor.consumers, renamed old new reader = consumer
  back : ∀ {t after}, final.tensors.get? t = some after → ∃ tensor, graph.tensors.get? t = some tensor ∧
    after.producer = tensor.producer.map (renamed old new) ∧
    ∀ consumer, consumer ∈ after.consumers ↔ ∃ reader ∈ tensor.consumers, renamed old new reader = consumer

theorem Linked.get?_nodes_replaceNode (linked : graph.Linked) {old id : NodeId} {spec : NodeSpec} {node : Node}
    (replaced : graph.replaceNode old spec = .ok (id, final)) (found : graph.nodes.get? old = some node)
    (other : NodeId) :
    final.nodes.get? other =
      if other = id then some (spec.node id node.inputs node.outputs node.controlInputs node.controlOutputs)
      else if other = old then none else graph.nodes.get? other := by
  obtain ⟨node, found', rfl, rfl⟩ := replaceNode_eq_ok replaced
  cases found.symm.trans found'
  cases linked.nodeKey found
  exact (get?_nodes_attach _ other).trans (by rw [← get?_nodes_detach]; rfl)

theorem Linked.renames (linked : graph.Linked) {old id : NodeId} {spec : NodeSpec}
    (replaced : graph.replaceNode old spec = .ok (id, final)) : graph.Renames old id final := by
  obtain ⟨node, found, rfl, rfl⟩ := replaceNode_eq_ok replaced
  cases linked.nodeKey found
  let new := spec.node ⟨graph.nextNode⟩ node.inputs node.outputs node.controlInputs node.controlOutputs
  let final := { graph.detach node with nextNode := graph.nextNode + 1 }.attach new
  have inputs : new.allInputs = node.allInputs := rfl
  have outputs : new.allOutputs = node.allOutputs := rfl
  have tensors (t : TensorId) : final.tensors.get? t =
      (graph.tensors.get? t).map fun tensor => entered new t (released node t tensor) := by
    refine (get?_tensors_attach new t).trans ?_
    refine (congrArg (Option.map (entered new t)) (get?_tensors_detach node t)).trans ?_
    rw [Option.map_map]
    rfl
  constructor
  case nextTensor => rfl
  case nodeIds =>
    intro id
    rw [mem_nodeIds_iff, mem_nodeIds_iff]
    rw [linked.get?_nodes_replaceNode replaced found]
    by_cases own : id = ⟨graph.nextNode⟩
    next => simp [own]
    next => by_cases gone : id = node.id <;> simp [own, gone]
  case forth =>
    intro t tensor there
    exact ⟨_, (tensors t).trans (by rw [there]; rfl), linked.producer_replaced found outputs there,
      linked.consumers_replaced found inputs there⟩
  case back =>
    intro t after there
    obtain ⟨tensor, older, rfl⟩ := Option.map_eq_some_iff.mp ((tensors t).symm.trans there)
    exact ⟨tensor, older, linked.producer_replaced found outputs older, linked.consumers_replaced found inputs older⟩

end Graph

section Renaming

variable {old new a b : NodeId}

@[simp] theorem renamed_old : renamed old new old = new := if_pos rfl

theorem renamed_of_ne (other : a ≠ old) : renamed old new a = a := if_neg other

theorem renamed_back {keys : List NodeId} (fresh : new ∉ keys) (known : a ∈ keys) :
    renamed new old (renamed old new a) = a := by
  unfold renamed
  grind

theorem renamed_inj {keys : List NodeId} (fresh : new ∉ keys) (known : a ∈ keys) (known' : b ∈ keys) :
    renamed old new a = renamed old new b ↔ a = b := by
  unfold renamed
  grind

end Renaming

def Table.rename (table : Table NodeId (List NodeId)) (old new : NodeId) : Table NodeId (List NodeId) :=
  .ofList (table.entries.map fun (id, row) => (renamed old new id, Ranked.ascending (row.map (renamed old new))))

def Dependencies.rename (deps : Dependencies) (old new : NodeId) : Dependencies :=
  { blockersOf := deps.blockersOf.rename old new, dependentsOf := deps.dependentsOf.rename old new }

namespace Table

variable {table other : Table NodeId (List NodeId)} {old new : NodeId}

theorem ext_rows (ascending : ∀ {id row}, table.get? id = some row → Ranked.Ascending row)
    (ascending' : ∀ {id row}, other.get? id = some row → Ranked.Ascending row)
    (keys : ∀ id, id ∈ table.keys ↔ id ∈ other.keys)
    (members : ∀ id node, node ∈ (table.get? id).getD [] ↔ node ∈ (other.get? id).getD []) : table = other := by
  refine ext_get? fun id => ?_
  have known := keys id
  rw [mem_keys_iff, mem_keys_iff] at known
  have same := members id
  cases row : table.get? id with
  | none =>
    cases row' : other.get? id with
    | none => rfl
    | some => simp [row, row'] at known
  | some found =>
    cases row' : other.get? id with
    | none => simp [row, row'] at known
    | some found' =>
      rw [row, row'] at same
      rw [(ascending row).ext (ascending' row') same]

theorem get?_rename (fresh : new ∉ table.keys) (id : NodeId) :
    (table.rename old new).get? id = if id ∈ table.keys.map (renamed old new) then
      some (Ranked.ascending (((table.get? (renamed new old id)).getD []).map (renamed old new))) else none := by
  rw [rename, get?_ofList_of_keyed
    (f := fun id => Ranked.ascending (((table.get? (renamed new old id)).getD []).map (renamed old new)))]
  next => rw [keys, List.map_map, List.map_map]; rfl
  next =>
    intro entry member
    obtain ⟨⟨id, row⟩, listed, rfl⟩ := List.mem_map.mp member
    have known : id ∈ table.keys := List.mem_map_of_mem listed
    have back : renamed new old (renamed old new id) = id := renamed_back fresh known
    simp [back, (mem_entries_iff table id row).mp listed]

theorem mem_keys_rename (fresh : new ∉ table.keys) {id : NodeId} :
    id ∈ (table.rename old new).keys ↔ ∃ key ∈ table.keys, renamed old new key = id := by
  rw [mem_keys_iff, ← List.mem_map]
  simp [get?_rename fresh]

theorem ascending_rename (fresh : new ∉ table.keys) {id : NodeId} {row : List NodeId}
    (found : (table.rename old new).get? id = some row) : Ranked.Ascending row := by
  rw [get?_rename fresh] at found
  split at found
  next =>
    cases found
    exact Ranked.ascending_ascending _
  next => cases found

theorem mem_rename (fresh : new ∉ table.keys) {id node : NodeId} :
    node ∈ ((table.rename old new).get? id).getD [] ↔
      Relation.Map (fun key member => member ∈ (table.get? key).getD []) (renamed old new) (renamed old new) id node := by
  rw [get?_rename fresh]
  constructor
  next =>
    intro listed
    split at listed
    next there =>
      obtain ⟨key, known, rfl⟩ := List.mem_map.mp there
      rw [renamed_back fresh known] at listed
      obtain ⟨member, inside, rfl⟩ := List.mem_map.mp (Ranked.mem_ascending.mp listed)
      exact ⟨key, member, inside, rfl, rfl⟩
    next => cases listed
  next =>
    rintro ⟨key, member, inside, rfl, rfl⟩
    have known : key ∈ table.keys := by
      cases row : table.get? key with
      | none => simp [row] at inside
      | some => exact mem_keys_of_get? row
    rw [if_pos (List.mem_map_of_mem known), renamed_back fresh known]
    exact Ranked.mem_ascending.mpr (List.mem_map_of_mem inside)

end Table

namespace Graph

variable {graph final : Graph} {filter : EdgeFilter} {old new : NodeId}

theorem ascending_blockersOf {id : NodeId} {row : List NodeId}
    (found : (graph.dependencies filter).blockersOf.get? id = some row) : Ranked.Ascending row := by
  rw [get?_blockersOf] at found
  obtain ⟨node, -, rfl⟩ := Option.map_eq_some_iff.mp found
  exact Ranked.ascending_ascending _

theorem ascending_dependentsOf {id : NodeId} {row : List NodeId}
    (found : (graph.dependencies filter).dependentsOf.get? id = some row) : Ranked.Ascending row := by
  rw [get?_dependentsOf] at found
  split at found
  next =>
    cases found
    refine List.Pairwise.sublist (List.filter_sublist.map Prod.fst) ?_
    rw [map_fst_rows]
    exact Table.ascending_keys _
  next => cases found

theorem keys_blockersOf : (graph.dependencies filter).blockersOf.keys = graph.nodeIds := nodes_network filter

theorem keys_dependentsOf : (graph.dependencies filter).dependentsOf.keys = graph.nodeIds := by
  refine Ranked.Ascending.ext (Table.ascending_keys _) (Table.ascending_keys _) fun id => ?_
  rw [Table.mem_keys_iff]
  simp [get?_dependentsOf]

section

variable (linked : graph.Linked) (fresh : new ∉ graph.nodeIds)
include linked fresh

theorem mem_blockers_rename {blocking blocked : NodeId} :
    blocking ∈ ((graph.dependencies filter).rename old new).blockers blocked ↔
      Relation.Map (graph.Blocks filter) (renamed old new) (renamed old new) blocking blocked := by
  refine (Table.mem_rename (keys_blockersOf ▸ fresh)).trans ?_
  constructor
  next =>
    rintro ⟨b, a, blocks, rfl, rfl⟩
    exact ⟨a, b, (mem_blockers_iff linked).mp blocks, rfl, rfl⟩
  next =>
    rintro ⟨a, b, blocks, rfl, rfl⟩
    exact ⟨b, a, (mem_blockers_iff linked).mpr blocks, rfl, rfl⟩

theorem mem_dependents_rename {blocking blocked : NodeId} :
    blocked ∈ ((graph.dependencies filter).rename old new).dependents blocking ↔
      Relation.Map (graph.Blocks filter) (renamed old new) (renamed old new) blocking blocked := by
  refine (Table.mem_rename (keys_dependentsOf ▸ fresh)).trans ?_
  constructor
  next =>
    rintro ⟨a, b, blocks, rfl, rfl⟩
    exact ⟨a, b, (mem_dependents_iff linked).mp blocks, rfl, rfl⟩
  next =>
    rintro ⟨a, b, blocks, rfl, rfl⟩
    exact ⟨a, b, (mem_dependents_iff linked).mpr blocks, rfl, rfl⟩

end

theorem Renames.mem_nodeIds (renames : graph.Renames old new final) (known : old ∈ graph.nodeIds) {id : NodeId} :
    id ∈ final.nodeIds ↔ ∃ key ∈ graph.nodeIds, renamed old new key = id := by
  rw [renames.nodeIds]
  constructor
  next =>
    rintro (rfl | ⟨other, there⟩)
    next => exact ⟨old, known, renamed_old⟩
    next => exact ⟨id, there, renamed_of_ne other⟩
  next =>
    rintro ⟨key, there, rfl⟩
    by_cases own : key = old
    next => exact Or.inl (own ▸ renamed_old)
    next =>
      rw [renamed_of_ne own]
      exact Or.inr ⟨own, there⟩

theorem Renames.dependencies_eq_iff (renames : graph.Renames old new final) (linked : graph.Linked)
    (linked' : final.Linked) (known : old ∈ graph.nodeIds) (fresh : new ∉ graph.nodeIds) :
    final.dependencies filter = (graph.dependencies filter).rename old new ↔
      final.Blocks filter = Relation.Map (graph.Blocks filter) (renamed old new) (renamed old new) := by
  constructor
  next =>
    intro same
    funext blocking blocked
    rw [← mem_blockers_iff linked', same, mem_blockers_rename linked fresh]
  next =>
    intro same
    have blockersOf : (final.dependencies filter).blockersOf = (graph.dependencies filter).blockersOf.rename old new := by
      have unused : new ∉ (graph.dependencies filter).blockersOf.keys := keys_blockersOf ▸ fresh
      refine Table.ext_rows ascending_blockersOf (Table.ascending_rename unused) (fun id => ?_) fun blocked blocking => ?_
      next => rw [Table.mem_keys_rename unused, keys_blockersOf, keys_blockersOf, renames.mem_nodeIds known]
      next =>
        refine (mem_blockers_iff linked').trans (Iff.trans ?_ (mem_blockers_rename linked fresh).symm)
        rw [same]
    have dependentsOf :
        (final.dependencies filter).dependentsOf = (graph.dependencies filter).dependentsOf.rename old new := by
      have unused : new ∉ (graph.dependencies filter).dependentsOf.keys := keys_dependentsOf ▸ fresh
      refine Table.ext_rows ascending_dependentsOf (Table.ascending_rename unused) (fun id => ?_) fun blocking blocked => ?_
      next => rw [Table.mem_keys_rename unused, keys_dependentsOf, keys_dependentsOf, renames.mem_nodeIds known]
      next =>
        refine (mem_dependents_iff linked').trans (Iff.trans ?_ (mem_dependents_rename linked fresh).symm)
        rw [same]
    exact congr (congrArg Dependencies.mk blockersOf) dependentsOf

theorem Renames.feeds_iff (renames : graph.Renames old new final) (linked : graph.Linked)
    (fresh : new ∉ graph.nodeIds) {source target : NodeId} (known : source ∈ graph.nodeIds)
    (known' : target ∈ graph.nodeIds) :
    final.Feeds .both (renamed old new source) (renamed old new target) ↔ graph.Feeds .both source target := by
  constructor
  next =>
    rintro ⟨t, after, found, -, produced, consumed⟩
    obtain ⟨tensor, there, producer, consumers⟩ := renames.back found
    rw [producer] at produced
    obtain ⟨maker, produced, same⟩ := Option.map_eq_some_iff.mp produced
    obtain ⟨reader, consumed, same'⟩ := (consumers _).mp consumed
    cases (renamed_inj fresh (linked.producer_known there produced) known).mp same
    cases (renamed_inj fresh (linked.consumer_known there consumed) known').mp same'
    exact ⟨t, tensor, there, rfl, produced, consumed⟩
  next =>
    rintro ⟨t, tensor, there, -, produced, consumed⟩
    obtain ⟨after, found, producer, consumers⟩ := renames.forth there
    exact ⟨t, after, found, rfl, by rw [producer, produced]; rfl, (consumers _).mpr ⟨target, consumed, rfl⟩⟩

-- Barriers are read as they stand: the new node has those of its own, and the others name whom they named.
theorem Linked.bars_replaceNode_iff (linked : graph.Linked) {spec : NodeSpec} {node : Node}
    (replaced : graph.replaceNode old spec = .ok (new, final)) (found : graph.nodes.get? old = some node)
    (carried : spec.annotations.barriers = node.annotations.barriers) (fresh : new ∉ graph.nodeIds)
    {blocking blocked : NodeId} (known : blocked ∈ graph.nodeIds) :
    final.Bars blocking (renamed old new blocked) ↔ graph.Bars blocking blocked := by
  rw [Bars, Bars, linked.get?_nodes_replaceNode replaced found]
  by_cases own : blocked = old
  next => simp [own, found, NodeSpec.node, carried]
  next =>
    have other : blocked ≠ new := by rintro rfl; exact fresh known
    rw [renamed_of_ne own, if_neg other, if_neg own]

theorem Linked.blocks_replaceNode_iff (linked : graph.Linked) {spec : NodeSpec} {node : Node}
    (replaced : graph.replaceNode old spec = .ok (new, final)) (found : graph.nodes.get? old = some node)
    (carried : spec.annotations.barriers = node.annotations.barriers) (fresh : new ∉ graph.nodeIds)
    {blocking blocked : NodeId} (known : blocking ∈ graph.nodeIds) (known' : blocked ∈ graph.nodeIds) :
    final.Blocks .both (renamed old new blocking) (renamed old new blocked) ↔
      blocking ≠ blocked ∧ (graph.Feeds .both blocking blocked ∨ graph.Bars (renamed old new blocking) blocked) := by
  have renames := linked.renames replaced
  have there : old ∈ graph.nodeIds := Table.mem_keys_of_get? found
  have kept : renamed old new blocking ∈ final.nodeIds := (renames.mem_nodeIds there).mpr ⟨_, known, rfl⟩
  have kept' : renamed old new blocked ∈ final.nodeIds := (renames.mem_nodeIds there).mpr ⟨_, known', rfl⟩
  rw [Blocks.both_iff, ne_eq, renamed_inj fresh known known', renames.feeds_iff linked fresh known known',
    linked.bars_replaceNode_iff replaced found carried fresh known']
  simp only [kept, kept', true_and, ne_eq]

theorem Renames.blocks_eq_map_iff (renames : graph.Renames old new final) (known : old ∈ graph.nodeIds)
    (fresh : new ∉ graph.nodeIds) :
    final.Blocks filter = Relation.Map (graph.Blocks filter) (renamed old new) (renamed old new) ↔
      ∀ a ∈ graph.nodeIds, ∀ b ∈ graph.nodeIds,
        (final.Blocks filter (renamed old new a) (renamed old new b) ↔ graph.Blocks filter a b) := by
  constructor
  next =>
    intro same a there b there'
    rw [same]
    constructor
    next =>
      rintro ⟨a', b', blocks, equal, equal'⟩
      cases (renamed_inj fresh blocks.2.1 there).mp equal
      cases (renamed_inj fresh blocks.2.2.1 there').mp equal'
      exact blocks
    next => exact fun blocks => ⟨a, b, blocks, rfl, rfl⟩
  next =>
    intro same
    funext blocking blocked
    refine propext ⟨fun blocks => ?_, ?_⟩
    next =>
      obtain ⟨a, there, rfl⟩ := (renames.mem_nodeIds known).mp blocks.2.1
      obtain ⟨b, there', rfl⟩ := (renames.mem_nodeIds known).mp blocks.2.2.1
      exact ⟨a, b, (same a there b there').mp blocks, rfl, rfl⟩
    next =>
      rintro ⟨a, b, blocks, rfl, rfl⟩
      exact (same a blocks.2.1 b blocks.2.2.1).mpr blocks

theorem exists_replaceNode {node : Node} (found : graph.nodes.get? old = some node) (spec : NodeSpec) :
    ∃ final, graph.replaceNode old spec = .ok (⟨graph.nextNode⟩, final) := by
  unfold replaceNode removeNode get
  rw [found]
  exact ⟨_, rfl⟩

theorem replaceNode_dependencies_eq_rename_iff (linked : graph.Linked) (old : NodeId) {node : Node}
    (found : graph.nodes.get? old = some node) (spec : NodeSpec)
    (carried : spec.annotations.barriers = node.annotations.barriers) :
    ∃ new final, graph.replaceNode old spec = .ok (new, final) ∧ new ∉ graph.nodeIds ∧
      (∀ a ∈ graph.nodeIds, ∀ b ∈ graph.nodeIds,
        (renamed old new a ∈ (final.dependencies .both).blockers (renamed old new b) ↔
          a ≠ b ∧ (graph.Feeds .both a b ∨ graph.Bars (renamed old new a) b))) ∧
      (final.dependencies .both = (graph.dependencies .both).rename old new ↔
        ∀ b ∈ graph.nodeIds, b ≠ old → graph.Feeds .both old b ∨ (graph.Bars old b ↔ graph.Bars new b)) := by
  obtain ⟨final, replaced⟩ := exists_replaceNode found spec
  have renames := linked.renames replaced
  have linked' := linked.replaceNode replaced
  have known : old ∈ graph.nodeIds := Table.mem_keys_of_get? found
  have fresh : ⟨graph.nextNode⟩ ∉ graph.nodeIds := by simp [mem_nodeIds_iff, nextNode_absent linked]
  have blocks_iff {a b : NodeId} (there : a ∈ graph.nodeIds) (there' : b ∈ graph.nodeIds) :=
    linked.blocks_replaceNode_iff replaced found carried fresh there there'
  refine ⟨_, final, replaced, fresh, fun a there b there' => ?_, ?_⟩
  next => exact (mem_blockers_iff linked').trans (blocks_iff there there')
  rw [renames.dependencies_eq_iff linked linked' known fresh, renames.blocks_eq_map_iff known fresh]
  -- Only the barriers that name the old node can be read differently.
  constructor
  next =>
    intro same b there other
    have agree := same old known b there
    rw [blocks_iff known there, renamed_old, Blocks.both_iff] at agree
    by_cases feeds : graph.Feeds .both old b
    next => exact Or.inl feeds
    next => exact Or.inr (by simpa [known, there, other.symm, feeds] using agree.symm)
  next =>
    intro agree a there b there'
    rw [blocks_iff there there', Blocks.both_iff]
    simp only [there, there', true_and]
    refine and_congr_right fun differ => ?_
    by_cases own : a = old
    next =>
      subst own
      rw [renamed_old]
      rcases agree b there' differ.symm with feeds | barred
      next => simp [feeds]
      next => rw [barred]
    next => rw [renamed_of_ne own]

-- A store that waits twice for its load, and a log that waits for the store.
def guarded : GraphDescription :=
  { tensors := [{ name := "loaded" }]
    nodes := [{ name := "load", outputs := ["loaded"] }, { name := "store", inputs := ["loaded"], barriers := ["load"] },
      { name := "log", barriers := ["store"] }] }

theorem replaceNode_guarded_load :
    ∃ final, guarded.graph.replaceNode ⟨0⟩ { name := "stream" } = .ok (⟨3⟩, final) ∧
      (final.dependencies .both).blockers ⟨1⟩ = [⟨3⟩] ∧
      final.dependencies .both = (guarded.graph.dependencies .both).rename ⟨0⟩ ⟨3⟩ := by
  have consistent := guarded.consistent_graph
  have unnamed {barrier : NodeId} (other : barrier ≠ ⟨1⟩) : ¬ guarded.graph.Bars barrier ⟨2⟩ := by
    rintro ⟨node, found, listed⟩
    have barriers : (guarded.graph.nodes.get? ⟨2⟩).map (fun node => node.annotations.barriers) = some [⟨1⟩] := rfl
    rw [found] at barriers
    exact other (List.mem_singleton.mp (Option.some.inj barriers ▸ listed))
  obtain ⟨new, final, replaced, -, -, same_iff⟩ :=
    replaceNode_dependencies_eq_rename_iff consistent.toLinked ⟨0⟩ rfl { name := "stream" } rfl
  obtain ⟨rfl, rfl⟩ : ⟨3⟩ = new ∧ _ = final := Prod.mk.inj (Except.ok.inj replaced)
  refine ⟨_, replaced, rfl, same_iff.mpr fun blocked known other => ?_⟩
  have each : blocked = ⟨1⟩ ∨ blocked = ⟨2⟩ := by
    have listed : guarded.graph.nodeIds = [⟨0⟩, ⟨1⟩, ⟨2⟩] := rfl
    grind
  rcases each with rfl | rfl
  next => exact Or.inl ⟨⟨0⟩, _, rfl, rfl, rfl, by decide⟩
  next => exact Or.inr (iff_of_false (unnamed (by decide)) (unnamed (by decide)))

theorem replaceNode_guarded_store :
    guarded.graph.Consistent ∧ ∃ node final, guarded.graph.nodes.get? ⟨1⟩ = some node ∧
      node.annotations.barriers = [⟨0⟩] ∧
      guarded.graph.replaceNode ⟨1⟩ { name := "write", annotations := { barriers := [⟨0⟩] } } = .ok (⟨3⟩, final) ∧
      final.dependencies .both ≠ (guarded.graph.dependencies .both).rename ⟨1⟩ ⟨3⟩ := by
  refine ⟨guarded.consistent_graph, _, _, rfl, rfl, rfl, ?_⟩
  intro same
  have lost := congrArg (fun deps => deps.blockers ⟨2⟩) same
  revert lost
  decide

end Graph

end Dataflow
