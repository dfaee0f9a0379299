import Mathlib.Data.List.Sort
import Dataflow.Plane.Query
import Dataflow.Proofs.Plane.Annotations

set_option autoImplicit false

namespace Dataflow

structure Graph.IsExecution (graph : Graph) (order : List NodeId) : Prop where
  nodup : order.Nodup
  mem_iff : ∀ node, node ∈ order ↔ node ∈ graph.nodeIds
  ordered : ∀ source target, graph.Edge source target → order.idxOf source < order.idxOf target

theorem Graph.IsExecution.of_isOrder {graph : Graph} {order : List NodeId} (linked : graph.Linked)
    (valid : (graph.tensorNetwork .both).IsOrder order) : graph.IsExecution order where
  nodup := valid.nodup
  mem_iff := valid.mem_iff
  ordered := by
    intro source target edge
    rw [← blocks_tensorNetwork linked] at edge
    refine valid.idxOf_lt (sound_tensorNetwork linked .both) edge ?_
    rw [blocks_tensorNetwork linked] at edge
    exact edge.1

theorem Graph.IsExecution.pairwise {graph : Graph} {order : List NodeId} (valid : graph.IsExecution order) :
    order.Pairwise fun earlier later => ¬ graph.Edge later earlier := by
  rw [List.pairwise_iff_getElem]
  intro i j first second before edge
  have behind := valid.ordered _ _ edge
  rw [valid.nodup.idxOf_getElem, valid.nodup.idxOf_getElem] at behind
  omega

namespace Plane

section Positions

variable {executed : List NodeId}

theorem lastPosition_eq (nodup : executed.Nodup) {node : NodeId} (listed : node ∈ executed) :
    lastPosition executed node = executed.idxOf node := by
  obtain ⟨front, back, rfl⟩ := List.mem_iff_append.mp listed
  rw [List.nodup_middle, List.nodup_cons, List.mem_append, not_or] at nodup
  obtain ⟨⟨notFront, notBack⟩, -⟩ := nodup
  have searched : (front ++ node :: back).reverse.findIdx? (· = node) = some back.length := by
    have absent : back.reverse.findIdx? (· = node) = none := by
      rw [List.findIdx?_eq_none_iff]
      intro other member
      exact decide_eq_false fun same => notBack (same ▸ List.mem_reverse.mp member)
    rw [List.reverse_append, List.reverse_cons, List.append_assoc, List.findIdx?_append, absent]
    simp [List.findIdx?_cons]
  rw [lastPosition, searched, List.idxOf_append, if_neg notFront]
  simp

theorem foldr_placeByPosition (executed members : List NodeId) : members.foldr (placeByPosition executed) [] =
    members.insertionSort (Order.Preimage (lastPosition executed) (· ≤ ·)) := by
  have place (node : NodeId) (placed : List NodeId) : placeByPosition executed node placed =
      placed.orderedInsert (Order.Preimage (lastPosition executed) (· ≤ ·)) node := by
    induction placed with
    | nil => rfl
    | cons other rest ih =>
      rw [placeByPosition, List.orderedInsert_cons, ih]
      rfl
  rw [List.insertionSort, funext fun node => funext (place node)]

theorem pairwise_lastPosition (nodup : executed.Nodup) :
    executed.Pairwise (Order.Preimage (lastPosition executed) (· ≤ ·)) := by
  rw [List.pairwise_iff_getElem]
  intro i j first second before
  show lastPosition executed _ ≤ lastPosition executed _
  rw [lastPosition_eq nodup (List.getElem_mem first), lastPosition_eq nodup (List.getElem_mem second),
    nodup.idxOf_getElem, nodup.idxOf_getElem]
  omega

theorem foldr_placeByPosition_eq_filter (nodup : executed.Nodup) {members : List NodeId} (distinct : members.Nodup)
    (listed : members ⊆ executed) :
    members.foldr (placeByPosition executed) [] = executed.filter (· ∈ members) := by
  rw [foldr_placeByPosition]
  have perm := List.perm_insertionSort (Order.Preimage (lastPosition executed) (· ≤ ·)) members
  -- Both sides hold the members by position, and no two members have the same one.
  refine List.Perm.eq_of_pairwise ?_ (List.pairwise_insertionSort _ _) ((pairwise_lastPosition nodup).filter _) ?_
  next =>
    intro a b first second before behind
    have firstListed := listed (perm.mem_iff.mp first)
    have same : lastPosition executed a = lastPosition executed b := Nat.le_antisymm before behind
    rw [lastPosition_eq nodup firstListed, lastPosition_eq nodup (List.mem_of_mem_filter second)] at same
    exact (List.idxOf_inj firstListed).mp same
  next =>
    refine perm.trans ((List.perm_ext_iff_of_nodup distinct (nodup.filter _)).mpr fun node => ?_)
    rw [List.mem_filter, decide_eq_true_iff]
    exact ⟨fun member => ⟨listed member, member⟩, And.right⟩

end Positions

section Expansion

variable {graph : Graph} {plane : Plane} {executed : List NodeId}

def block (plane : Plane) (executed : List NodeId) (id : PlaneNodeId) : List NodeId :=
  executed.filter fun node => plane.nodeOf.get? node = some id

variable (built : Built graph graph.nodeIds plane) (valid : graph.IsExecution executed)

include built

theorem Built.mem_block {id : PlaneNodeId} {node : NodeId} :
    node ∈ plane.block executed id ↔ node ∈ executed ∧ plane.Member node id := by
  rw [block, List.mem_filter, decide_eq_true_iff, built.sound.nodeOf_iff]
  rfl

include valid

theorem Built.expandNode_eq {id : PlaneNodeId} (there : id ∈ plane.graph.nodes.keys) :
    plane.expandNode executed id = .ok (plane.block executed id) := by
  obtain ⟨found, there⟩ := (Table.mem_keys_iff _ id).mp there
  obtain ⟨unit, holds⟩ := built.holds there
  have single : (!found.isBundle && decide (found.members.length ≠ 1)) = false := by
    cases bundled : found.bundle with
    | none =>
      obtain ⟨member, alone⟩ := (built.sound.faithful there).single bundled
      simp [alone]
    | some info => simp [PlaneNode.isBundle, bundled]
  have listed : found.members ⊆ executed := by
    intro member inside
    exact (valid.mem_iff member).mpr ((holds.mem_iff member).mp inside).1
  unfold expandNode
  rw [there]
  simp only [single, Bool.false_eq_true, if_false]
  rw [foldr_placeByPosition_eq_filter valid.nodup holds.nodup listed, block]
  refine congrArg Except.ok (List.filter_congr fun node _ => decide_eq_decide.mpr ?_)
  rw [built.sound.nodeOf_iff]
  constructor
  next => exact fun inside => ⟨found, there, inside⟩
  next =>
    rintro ⟨same, there', inside⟩
    cases there.symm.trans there'
    exact inside

variable {schedule : List PlaneNodeId} (planned : plane.graph.network.IsOrder schedule)

include planned

theorem Built.expand_eq : plane.expand schedule executed = .ok (schedule.flatMap (plane.block executed)) := by
  have each : ∀ id ∈ schedule, plane.expandNode executed id = .ok (plane.block executed id) :=
    fun id member => built.expandNode_eq valid ((planned.mem_iff id).mp member)
  unfold expand
  rw [mapM_of_ok each]
  rfl

theorem Built.isOrder_expansion (linked : graph.Linked) :
    (graph.tensorNetwork .both).IsOrder (schedule.flatMap (plane.block executed)) := by
  constructor
  case nodup =>
    refine List.nodup_flatMap.mpr ⟨fun id _ => valid.nodup.filter _, planned.nodup.imp ?_⟩
    intro first second differ node inside inside'
    exact differ (built.member_unique (built.mem_block.mp inside).2 (built.mem_block.mp inside').2)
  case mem_iff =>
    intro node
    show _ ↔ node ∈ graph.nodeIds
    rw [List.mem_flatMap]
    constructor
    next =>
      rintro ⟨id, -, inside⟩
      exact (valid.mem_iff node).mp (built.mem_block.mp inside).1
    next =>
      intro known
      obtain ⟨id, found, there, inside⟩ := built.exists_member known
      exact ⟨id, (planned.mem_iff id).mpr (Table.mem_keys_of_get? there),
        built.mem_block.mpr ⟨(valid.mem_iff node).mpr known, found, there, inside⟩⟩
  case ordered =>
    have blocks (later earlier : NodeId) :
        later ∈ (graph.tensorNetwork .both).blockers earlier ↔ graph.Edge later earlier := Graph.mem_producers linked
    simp only [blocks]
    refine List.pairwise_flatMap.mpr ⟨fun id _ => valid.pairwise.filter _, ?_⟩
    refine (planned.nodup.and planned.ordered).imp ?_
    rintro first second ⟨differ, free⟩ earlier inside later inside' edge
    -- An edge back between two blocks would be an edge back in the plane.
    refine free ((PlaneGraph.mem_producers built.sound.indexed).mpr (built.feeds_iff.mpr ?_))
    exact ⟨differ.symm, later, earlier, edge.2, (built.mem_block.mp inside').2, (built.mem_block.mp inside).2⟩

theorem Built.bundle_together (index : UInt32) : ∃ before after, schedule.flatMap (plane.block executed) =
    before ++ executed.filter (fun node => graph.bundleOf node = some index) ++ after := by
  by_cases occupied : ∃ node ∈ graph.nodeIds, graph.unitOf node = .inl index
  next =>
    obtain ⟨first, known, own⟩ := occupied
    obtain ⟨id, found, there, inside⟩ := built.exists_member known
    have same : plane.block executed id = executed.filter (fun node => graph.bundleOf node = some index) := by
      refine List.filter_congr fun node listed => decide_eq_decide.mpr ?_
      rw [built.sound.nodeOf_iff, ← Graph.unitOf_eq_inl, ← own]
      exact built.member_iff ⟨found, there, inside⟩ ((valid.mem_iff node).mp listed)
    obtain ⟨before, after, split⟩ :=
      List.mem_iff_append.mp ((planned.mem_iff id).mpr (Table.mem_keys_of_get? there))
    refine ⟨before.flatMap (plane.block executed), after.flatMap (plane.block executed), ?_⟩
    rw [split, List.flatMap_append, List.flatMap_cons, same, List.append_assoc]
  next =>
    have none : executed.filter (fun node => graph.bundleOf node = some index) = [] := by
      rw [List.filter_eq_nil_iff]
      intro node listed bundled
      refine occupied ⟨node, (valid.mem_iff node).mp listed, ?_⟩
      exact Graph.unitOf_eq_inl.mpr (of_decide_eq_true bundled)
    exact ⟨schedule.flatMap (plane.block executed), [], by rw [none, List.append_nil, List.append_nil]⟩

end Expansion

theorem expand_topologicalOrder {graph : Graph} {plane : Plane} {executed : List NodeId}
    (consistent : graph.Consistent) (made : ofAnnotations graph (fun _ => true) = .ok plane)
    (valid : graph.IsExecution executed) :
    ∃ schedule order, plane.graph.topologicalOrder? = .ok (some schedule) ∧
      plane.expand schedule executed = .ok order ∧ graph.IsExecution order ∧
      ∀ index, ∃ before after,
        order = before ++ executed.filter (fun node => graph.bundleOf node = some index) ++ after := by
  obtain ⟨built, acyclic⟩ := built_of_ofAnnotations consistent made
  obtain ⟨schedule, found, planned⟩ := built.sound.indexed.topologicalOrder?_eq.1 acyclic
  refine ⟨schedule, _, found, built.expand_eq valid planned, ?_, built.bundle_together valid planned⟩
  exact .of_isOrder consistent.toLinked (built.isOrder_expansion valid planned consistent.toLinked)

def besideBundle : GraphDescription :=
  { tensors := [{ name := "product" }, { name := "sum" }, { name := "bias" }]
    nodes := [{ name := "multiply", outputs := ["product"], bundle := some { bundleIndex := 7 } },
      { name := "load", outputs := ["bias"] },
      { name := "add", inputs := ["product"], outputs := ["sum"], bundle := some { bundleIndex := 7 } },
      { name := "store", inputs := ["sum", "bias"] }] }

theorem expand_besideBundle : ∃ plane schedule order,
    ofAnnotations besideBundle.graph (fun _ => true) = .ok plane ∧
      plane.graph.topologicalOrder? = .ok (some schedule) ∧
      plane.expand schedule [⟨0⟩, ⟨1⟩, ⟨2⟩, ⟨3⟩] = .ok order ∧ besideBundle.graph.IsExecution order ∧
      ∃ before after, order = before ++ [⟨0⟩, ⟨2⟩] ++ after := by
  obtain ⟨plane, made⟩ : ∃ plane, ofAnnotations besideBundle.graph (fun _ => true) = .ok plane := by
    have succeeds : (ofAnnotations besideBundle.graph fun _ => true).isOk = true := by decide +kernel
    cases made : ofAnnotations besideBundle.graph fun _ => true with
    | error error => rw [made] at succeeds; cases succeeds
    | ok plane => exact ⟨plane, rfl⟩
  have each : ∀ entry ∈ besideBundle.graph.tensors.entries, ∀ producer ∈ entry.2.producer,
      ∀ consumer ∈ entry.2.consumers, List.idxOf producer [⟨0⟩, ⟨1⟩, ⟨2⟩, ⟨3⟩] <
        List.idxOf consumer [⟨0⟩, ⟨1⟩, ⟨2⟩, ⟨3⟩] := by decide
  have valid : besideBundle.graph.IsExecution [⟨0⟩, ⟨1⟩, ⟨2⟩, ⟨3⟩] := by
    refine ⟨by decide, fun node => Iff.rfl, ?_⟩
    rintro source target ⟨-, t, tensor, there, -, produced, consumed⟩
    exact each (t, tensor) ((Table.mem_entries_iff _ _ _).mpr there) source produced target consumed
  obtain ⟨schedule, order, found, expanded, again, together⟩ :=
    expand_topologicalOrder besideBundle.consistent_graph made valid
  exact ⟨plane, schedule, order, made, found, expanded, again, together 7⟩

end Plane

end Dataflow
