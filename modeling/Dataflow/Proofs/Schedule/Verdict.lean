import Dataflow.Proofs.Graph.Replacement
import Dataflow.Proofs.Schedule.Validity

set_option autoImplicit false

namespace Dataflow

namespace Graph

-- Read off tensors and barriers, without the dependency table.
def MustPrecede (graph : Graph) (first second : NodeId) : Prop :=
  first ≠ second ∧
    ((∃ t tensor, graph.tensors.get? t = some tensor ∧ tensor.producer = some first ∧ second ∈ tensor.consumers) ∨
      ∃ node, graph.nodes.get? second = some node ∧ first ∈ node.annotations.barriers ∧ first ∈ graph.nodeIds)

structure Lists (graph : Graph) (order : List NodeId) : Prop where
  nodup : order.Nodup
  known : ∀ node ∈ order, node ∈ graph.nodeIds

structure Complies (graph : Graph) (order : List NodeId) : Prop where
  once : ∀ node ∈ graph.nodeIds, order.count node = 1
  known : ∀ node ∈ order, node ∈ graph.nodeIds
  ordered : ∀ first second, graph.MustPrecede first second → order.idxOf first < order.idxOf second

-- The first entry of its kind; the later kinds of error speak of lists without the earlier defects only.
inductive Faulty (graph : Graph) (order : List NodeId) : ScheduleError → Prop
  | unknown {before after : List NodeId} {node : NodeId} (split : order = before ++ node :: after)
      (lists : graph.Lists before) (foreign : node ∉ graph.nodeIds) : Faulty graph order (.graph (.nodeNotFound node))
  | repeated {before after : List NodeId} {node : NodeId} (split : order = before ++ node :: after)
      (lists : graph.Lists before) (again : node ∈ before) : Faulty graph order (.duplicateNode node)
  | incomplete {node : NodeId} (lists : graph.Lists order) (there : node ∈ graph.nodeIds) (missing : node ∉ order) :
      Faulty graph order (.notAllScheduled order.length graph.size)
  | disordered {first second : NodeId} (lists : graph.Lists order) (complete : ∀ node ∈ graph.nodeIds, node ∈ order)
      (asked : graph.MustPrecede first second) (reversed : order.idxOf second < order.idxOf first) :
      Faulty graph order (.orderViolation first second)

variable {graph : Graph} {order : List NodeId}

theorem mustPrecede_iff (linked : graph.Linked) {first second : NodeId} :
    graph.MustPrecede first second ↔ graph.Blocks .both first second := by
  rw [Blocks.both_iff]
  constructor
  next =>
    rintro ⟨differ, ⟨t, tensor, found, produced, consumes⟩ | ⟨node, found, listed, there⟩⟩
    next =>
      have feeds : graph.Feeds .both first second := ⟨t, tensor, found, rfl, produced, consumes⟩
      exact ⟨differ, (feeds.known linked).1, (feeds.known linked).2, Or.inl feeds⟩
    next => exact ⟨differ, there, Table.mem_keys_of_get? found, Or.inr ⟨node, found, listed⟩⟩
  next =>
    rintro ⟨differ, there, -, ⟨t, tensor, found, -, produced, consumes⟩ | ⟨node, found, listed⟩⟩
    next => exact ⟨differ, Or.inl ⟨t, tensor, found, produced, consumes⟩⟩
    next => exact ⟨differ, Or.inr ⟨node, found, listed, there⟩⟩

theorem Lists.not_mem_front {before after : List NodeId} {node : NodeId}
    (lists : graph.Lists (before ++ node :: after)) : node ∉ before :=
  fun member => (List.nodup_append.mp lists.nodup).2.2 node member node (.head _) rfl

theorem Lists.cons {node : NodeId} (lists : graph.Lists order) (fresh : node ∉ order) (there : node ∈ graph.nodeIds) :
    graph.Lists (node :: order) where
  nodup := List.nodup_cons.mpr ⟨fresh, lists.nodup⟩
  known := by
    intro other member
    rcases List.mem_cons.mp member with rfl | member
    next => exact there
    next => exact lists.known other member

theorem lists_of_entryError?_eq_none {seen : List NodeId} (clear : graph.entryError? seen order = none) :
    graph.Lists order ∧ ∀ node ∈ order, node ∉ seen := by
  induction order generalizing seen with
  | nil => exact ⟨⟨.nil, by simp⟩, by simp⟩
  | cons node rest ih =>
    rw [entryError?] at clear
    split at clear
    next => cases clear
    next present =>
      split at clear
      next => cases clear
      next fresh =>
        obtain ⟨lists, apart⟩ := ih clear
        have there : node ∈ graph.nodeIds := (contains_iff node).mp (by simpa using present)
        refine ⟨lists.cons (fun member => apart node member (.head _)) there, ?_⟩
        intro other member old
        rcases List.mem_cons.mp member with rfl | member
        next => exact fresh old
        next => exact apart other member (.tail _ old)

theorem entryError?_eq_some {seen : List NodeId} {error : ScheduleError}
    (found : graph.entryError? seen order = some error) :
    ∃ before node after, order = before ++ node :: after ∧ graph.Lists before ∧ (∀ entry ∈ before, entry ∉ seen) ∧
      (node ∉ graph.nodeIds ∧ error = .graph (.nodeNotFound node) ∨
        (node ∈ seen ∨ node ∈ before) ∧ error = .duplicateNode node) := by
  induction order generalizing seen with
  | nil => cases found
  | cons node rest ih =>
    rw [entryError?] at found
    split at found
    next foreign =>
      have absent : node ∉ graph.nodeIds := by simpa [← contains_iff] using foreign
      cases found
      exact ⟨[], node, rest, rfl, ⟨.nil, by simp⟩, by simp, Or.inl ⟨absent, rfl⟩⟩
    next present =>
      split at found
      next old =>
        cases found
        exact ⟨[], node, rest, rfl, ⟨.nil, by simp⟩, by simp, Or.inr ⟨Or.inl old, rfl⟩⟩
      next fresh =>
        obtain ⟨before, bad, after, rfl, lists, apart, cause⟩ := ih found
        have there : node ∈ graph.nodeIds := (contains_iff node).mp (by simpa using present)
        refine ⟨node :: before, bad, after, rfl, lists.cons (fun member => apart node member (.head _)) there, ?_, ?_⟩
        next =>
          intro entry member old
          rcases List.mem_cons.mp member with rfl | member
          next => exact fresh old
          next => exact apart entry member (.tail _ old)
        next =>
          simp only [List.mem_cons] at cause ⊢
          tauto

theorem Lists.length_eq_iff (lists : graph.Lists order) :
    order.length = graph.size ↔ ∀ node ∈ graph.nodeIds, node ∈ order := by
  have inside : order.Subperm graph.nodeIds := lists.nodup.subperm lists.known
  rw [← length_nodeIds]
  constructor
  next => exact fun same node there => (inside.perm_of_length_le same.ge).mem_iff.mpr there
  next => exact fun every => Nat.le_antisymm inside.length_le (nodup_nodeIds.subperm every).length_le

end Graph

theorem Dependencies.violation?_eq_some {deps : Dependencies} {order walk : List NodeId} {error : ScheduleError}
    (found : deps.violation? order walk = some error) :
    ∃ node ∈ walk, ∃ blocking ∈ deps.blockers node, order.idxOf node ≤ order.idxOf blocking ∧
      error = .orderViolation blocking node := by
  obtain ⟨node, visited, first⟩ := List.exists_of_findSome?_eq_some found
  obtain ⟨blocking, picked, rfl⟩ := Option.map_eq_some_iff.mp first
  exact ⟨node, visited, blocking, List.mem_of_find?_eq_some picked, by simpa using List.find?_some picked, rfl⟩

namespace Graph

variable {graph : Graph} {order walk : List NodeId}

theorem faulty_of_error (linked : graph.Linked) {error : ScheduleError}
    (refused : graph.validateAlong walk order = .error error) : graph.Faulty order error := by
  rw [validateAlong] at refused
  split at refused
  next entry first =>
    cases refused
    obtain ⟨before, node, after, split, lists, -, ⟨foreign, rfl⟩ | ⟨again, rfl⟩⟩ := entryError?_eq_some first
    next => exact .unknown split lists foreign
    next => exact .repeated split lists (by simpa using again)
  next clear =>
    obtain ⟨lists, -⟩ := lists_of_entryError?_eq_none clear
    split at refused
    next short =>
      cases refused
      have missing := mt lists.length_eq_iff.mpr short
      push Not at missing
      obtain ⟨node, there, absent⟩ := missing
      exact .incomplete lists there absent
    next full =>
      have complete := lists.length_eq_iff.mp (not_not.mp full)
      split at refused
      next violation first =>
        cases refused
        obtain ⟨node, -, blocking, blocks, behind, rfl⟩ := Dependencies.violation?_eq_some first
        have related := (mem_blockers_iff linked).mp blocks
        have asked := (mustPrecede_iff linked).mpr related
        have inside := complete node related.2.2.1
        refine .disordered lists complete asked (Nat.lt_of_le_of_ne behind fun same => asked.1 ?_)
        exact ((List.idxOf_inj inside).mp same).symm
      next => cases refused

theorem complies_of_ok (linked : graph.Linked) (visits : walk.Perm order)
    (accepted : graph.validateAlong walk order = .ok ()) : graph.Complies order := by
  rw [validateAlong] at accepted
  split at accepted
  next => cases accepted
  next clear =>
    obtain ⟨lists, -⟩ := lists_of_entryError?_eq_none clear
    split at accepted
    next => cases accepted
    next full =>
      have complete := lists.length_eq_iff.mp (not_not.mp full)
      split at accepted
      next => cases accepted
      next ahead =>
        refine ⟨fun node there => List.count_eq_one_of_mem lists.nodup (complete node there), lists.known, ?_⟩
        intro first second asked
        have related := (mustPrecede_iff linked).mp asked
        have visited : second ∈ walk := visits.mem_iff.mpr (complete second related.2.2.1)
        exact Dependencies.violation?_eq_none_iff.mp ahead second visited first ((mem_blockers_iff linked).mpr related)

theorem Complies.lists (complies : graph.Complies order) : graph.Lists order where
  nodup := List.nodup_iff_count_eq_one.mpr fun node member => complies.once node (complies.known node member)
  known := complies.known

theorem Faulty.not_complies {error : ScheduleError} (faulty : graph.Faulty order error) : ¬ graph.Complies order := by
  intro complies
  cases faulty with
  | unknown split _ foreign => exact foreign (complies.known _ (by simp [split]))
  | repeated split _ again =>
    have lists := split ▸ complies.lists
    exact lists.not_mem_front again
  | incomplete _ there missing =>
    have once := complies.once _ there
    rw [List.count_eq_zero_of_not_mem missing] at once
    omega
  | disordered _ _ asked reversed => exact Nat.lt_asymm reversed (complies.ordered _ _ asked)

-- Whichever way the entries are visited, the same orders are accepted; which violation is named may differ.
theorem validateSchedule_verdict (consistent : graph.Consistent) (order : List NodeId) :
    ∀ walk : List NodeId, walk.Perm order →
      (graph.validateAlong walk order = .ok () ↔ graph.Complies order) ∧
        ∀ error, graph.validateAlong walk order = .error error → graph.Faulty order error := by
  intro walk visits
  have linked := consistent.toLinked
  refine ⟨⟨complies_of_ok linked visits, fun complies => ?_⟩, fun error => faulty_of_error linked⟩
  cases verdict : graph.validateAlong walk order with
  | ok => rfl
  | error error => exact absurd complies (faulty_of_error linked verdict).not_complies

-- Only a barrier holds the log behind the store. Of the two violations of the last order, each walk names its own.
theorem validateSchedule_guarded :
    guarded.graph.Consistent ∧ guarded.graph.Complies [⟨0⟩, ⟨1⟩, ⟨2⟩] ∧ ¬ guarded.graph.Complies [⟨0⟩, ⟨2⟩, ⟨1⟩] ∧
      guarded.graph.Faulty [⟨0⟩, ⟨2⟩, ⟨1⟩] (.orderViolation ⟨1⟩ ⟨2⟩) ∧
      guarded.graph.Faulty [⟨0⟩, ⟨1⟩, ⟨0⟩, ⟨5⟩] (.duplicateNode ⟨0⟩) ∧
      guarded.graph.Faulty [⟨2⟩, ⟨1⟩, ⟨0⟩] (.orderViolation ⟨1⟩ ⟨2⟩) ∧
      guarded.graph.Faulty [⟨2⟩, ⟨1⟩, ⟨0⟩] (.orderViolation ⟨0⟩ ⟨1⟩) := by
  have consistent := guarded.consistent_graph
  have verdict := validateSchedule_verdict consistent
  have forward (order : List NodeId) := verdict order order (List.Perm.refl order)
  have backward := verdict [⟨2⟩, ⟨1⟩, ⟨0⟩] [⟨0⟩, ⟨1⟩, ⟨2⟩] (by decide)
  refine ⟨consistent, (forward _).1.mp rfl, fun complies => ?_, (forward _).2 _ rfl, (forward _).2 _ rfl,
    (forward _).2 _ rfl, backward.2 _ rfl⟩
  cases (forward _).1.mpr complies

end Graph

end Dataflow
