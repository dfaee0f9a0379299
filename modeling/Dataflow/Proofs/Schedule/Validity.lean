import Dataflow.Proofs.Graph.Relation
import Dataflow.Dependencies

set_option autoImplicit false

namespace Dataflow

structure Graph.IsSchedule (graph : Graph) (order : List NodeId) : Prop where
  nodup : order.Nodup
  mem_iff : ∀ node, node ∈ order ↔ node ∈ graph.nodeIds
  ordered : ∀ {blocking blocked}, graph.Blocks .both blocking blocked →
    order.idxOf blocking < order.idxOf blocked

theorem Graph.IsSchedule.of_isOrder {graph : Graph} (linked : graph.Linked) {order : List NodeId}
    (valid : (graph.dependencies .both).network.IsOrder order) : graph.IsSchedule order where
  nodup := valid.nodup
  mem_iff := by simpa only [Graph.nodes_network] using valid.mem_iff
  ordered := by
    intro blocking blocked blocks
    rw [← Graph.blocks_network linked] at blocks
    refine valid.idxOf_lt (Graph.sound_network linked .both) blocks ?_
    rintro rfl
    exact Graph.network_loopless linked .both blocking blocks

section

open Relation

variable {graph : Graph}

theorem Graph.IsSchedule.idxOf_lt_of_path {order : List NodeId} (valid : graph.IsSchedule order) {first last : NodeId}
    (path : TransGen (graph.Blocks .both) first last) : order.idxOf first < order.idxOf last := by
  induction path with
  | single blocks => exact valid.ordered blocks
  | tail _ blocks ih => exact Nat.lt_trans ih (valid.ordered blocks)

theorem Graph.exists_schedule (linked : graph.Linked) (acyclic : Acyclic (graph.Blocks .both)) :
    ∃ order, graph.IsSchedule order := by
  obtain ⟨order, -, valid⟩ := (topologicalOrder?_dependencies linked .both).1 acyclic
  exact ⟨order, .of_isOrder linked valid⟩

-- A control tensor that asks for this order closes no cycle, and the larger graph has a schedule.
theorem Graph.exists_schedule_before (linked : graph.Linked) (acyclic : Acyclic (graph.Blocks .both))
    {early late : NodeId} (earlyThere : early ∈ graph.nodeIds) (lateThere : late ∈ graph.nodeIds)
    (apart : ¬ ReflTransGen (graph.Blocks .both) late early) :
    ∃ order, graph.IsSchedule order ∧ order.idxOf early < order.idxOf late := by
  have differ : early ≠ late := by
    rintro rfl
    exact apart .refl
  have unreached : graph.reaches late early = false := by
    rw [← Bool.not_eq_true, reaches_iff linked lateThere]
    exact apart
  have same := blocks_withControl linked .schedule differ earlyThere lateThere
  obtain ⟨order, valid⟩ := exists_schedule (linked.withControl .schedule earlyThere lateThere)
    ((acyclic_withControl linked .schedule differ earlyThere lateThere unreached).mpr acyclic)
  refine ⟨order, ⟨valid.nodup, ?_, ?_⟩, valid.ordered ((same early late).mpr (Or.inr ⟨rfl, rfl⟩))⟩
  next =>
    intro node
    rw [valid.mem_iff, nodeIds_withControl]
  next => exact fun blocks => valid.ordered ((same _ _).mpr (Or.inl blocks))

theorem Graph.always_before_iff (linked : graph.Linked) (acyclic : Acyclic (graph.Blocks .both))
    {early late : NodeId} (earlyThere : early ∈ graph.nodeIds) (lateThere : late ∈ graph.nodeIds) :
    (∀ order, graph.IsSchedule order → order.idxOf early < order.idxOf late) ↔
      TransGen (graph.Blocks .both) early late := by
  constructor
  next =>
    intro always
    by_contra unordered
    by_cases path : ReflTransGen (graph.Blocks .both) early late
    next =>
      obtain ⟨order, valid⟩ := exists_schedule linked acyclic
      rcases reflTransGen_iff_eq_or_transGen.mp path with rfl | path
      next => exact Nat.lt_irrefl _ (always order valid)
      next => exact unordered path
    next =>
      obtain ⟨order, valid, reversed⟩ := exists_schedule_before linked acyclic lateThere earlyThere path
      exact Nat.lt_asymm reversed (always order valid)
  next => exact fun path order valid => valid.idxOf_lt_of_path path

end

theorem Graph.entryError?_eq_none {graph : Graph} {seen order : List NodeId}
    (known : ∀ node ∈ order, node ∈ graph.nodeIds) (nodup : order.Nodup)
    (fresh : ∀ node ∈ order, node ∉ seen) : graph.entryError? seen order = none := by
  induction order generalizing seen with
  | nil => rfl
  | cons node rest ih =>
    obtain ⟨unrepeated, nodup⟩ := List.nodup_cons.mp nodup
    have present : graph.contains node = true := (Graph.contains_iff node).mpr (known node (.head _))
    rw [entryError?, if_neg (by simp [present]), if_neg (fresh node (.head _))]
    apply ih (fun other member => known other (.tail _ member)) nodup
    intro other member old
    rcases List.mem_cons.mp old with rfl | old
    next => exact unrepeated member
    next => exact fresh other (.tail _ member) old

theorem Dependencies.violation?_eq_none_iff {deps : Dependencies} {order walk : List NodeId} :
    deps.violation? order walk = none ↔
      ∀ node ∈ walk, ∀ blocking ∈ deps.blockers node, order.idxOf blocking < order.idxOf node := by
  simp [violation?]

theorem Graph.validateSchedule_eq_ok {graph : Graph} (linked : graph.Linked) {order : List NodeId}
    (valid : (graph.dependencies .both).network.IsOrder order) : graph.validateSchedule order = .ok () := by
  have sound := Graph.sound_network linked .both
  have known : ∀ node ∈ order, node ∈ graph.nodeIds := by
    intro node member
    simpa only [Graph.nodes_network] using (valid.mem_iff node).mp member
  have length : order.length = graph.size := by
    rw [valid.length_eq sound, Graph.nodes_network, Graph.length_nodeIds]
  have ordered : (graph.dependencies .both).violation? order order = none := by
    refine Dependencies.violation?_eq_none_iff.mpr fun node _ blocking blocks => valid.idxOf_lt sound blocks ?_
    rintro rfl
    exact Graph.network_loopless linked .both blocking blocks
  rw [validateSchedule, validateAlong, Graph.entryError?_eq_none known valid.nodup (by simp)]
  simp only [length, ne_eq, not_true_eq_false, if_false, ordered]

end Dataflow
