import Dataflow.Proofs.Description.Build
import Dataflow.Proofs.Schedule.Validity
import Dataflow.Proofs.Workspace.FlashAttention

set_option autoImplicit false

namespace Dataflow

open Relation

namespace Workspace

theorem orderFlashAttention_serializes_reaching {workspace : Workspace} (consistent : workspace.graph.Consistent)
    (acyclic : Acyclic (workspace.graph.Blocks .both)) (tracks : workspace.Tracks) :
    ∃ count after, orderFlashAttention workspace = .ok count after ∧
      ∀ earlier chain next later, neighbours workspace.graph = earlier ++ (chain, next) :: later →
        (∃ added between, earlier.foldlM orderChains 0 workspace = .ok added between ∧
          (between.Skips chain next ∨ ∃ last first, chain.getLast? = some last ∧ next.head? = some first ∧
            ∀ order, after.graph.IsSchedule order →
              ∀ front back, ReflTransGen (after.graph.Blocks .both) front last →
                ReflTransGen (after.graph.Blocks .both) first back → order.idxOf front < order.idxOf back)) ∧
        ((∀ order, after.graph.IsSchedule order → ∀ front ∈ chain, ∀ back ∈ next,
            order.idxOf front < order.idxOf back) ↔
          ∀ front ∈ chain, ∀ back ∈ next, TransGen (after.graph.Blocks .both) front back) := by
  obtain ⟨count, after, ran, ⟨⟨pairs, -, gains⟩, -⟩, turns⟩ := orderFlashAttention_ok consistent tracks
  refine ⟨count, after, ran, fun earlier chain next later split => ⟨?_, ?_⟩⟩
  case refine_1 =>
    obtain ⟨added, between, reached, skips | ⟨last, first, ends, starts, link⟩⟩ := turns earlier (chain, next) later split
    next => exact ⟨added, between, reached, Or.inl skips⟩
    next =>
      refine ⟨added, between, reached, Or.inr ⟨last, first, ends, starts, fun order valid front back into out => ?_⟩⟩
      -- The link runs from the end of the one chain to the start of the other.
      exact valid.idxOf_lt_of_path ((TransGen.trans_right into link).trans_left out)
  case refine_2 =>
    have linked := (gains.consistent consistent).toLinked
    have acyclic' := (gains.acyclic_iff consistent).mpr acyclic
    have listed : (chain, next) ∈ neighbours workspace.graph := by rw [split]; simp
    obtain ⟨left, right⟩ := List.of_mem_zip listed
    have leftThere := (mem_flashAttentionChains consistent.toLinked left).2
    have rightThere := (mem_flashAttentionChains consistent.toLinked (List.mem_of_mem_tail right)).2
    rw [← gains.nodeIds_eq] at leftThere rightThere
    constructor
    next =>
      intro serial front inside back inside'
      rw [← Graph.always_before_iff linked acyclic' (leftThere front inside) (rightThere back inside')]
      exact fun order valid => serial order valid front inside back inside'
    next =>
      intro paths order valid front inside back inside'
      exact valid.idxOf_lt_of_path (paths front inside back inside')

-- Two nodes of one parent that nothing joins, and one node of the next parent.
def looseChains : GraphDescription :=
  { nodes := [{ name := "query", parentId := some 10, flashAttention := true },
      { name := "key", parentId := some 10, flashAttention := true },
      { name := "value", parentId := some 20, flashAttention := true }] }

theorem orderFlashAttention_looseChains :
    ∃ after, orderFlashAttention { graph := looseChains.graph } = .ok 1 after ∧
      (∀ order, after.graph.IsSchedule order → order.idxOf ⟨1⟩ < order.idxOf ⟨2⟩) ∧
      ¬ ∀ order, after.graph.IsSchedule order → order.idxOf ⟨0⟩ < order.idxOf ⟨2⟩ := by
  have consistent := looseChains.consistent_graph
  have acyclic : Acyclic (looseChains.graph.Blocks .both) := Graph.acyclic_of_numbered (by decide) (by decide)
  have ran : orderFlashAttention { graph := looseChains.graph } =
      .ok 1 { graph := looseChains.graph.withControl ⟨1⟩ ⟨2⟩ .schedule } := rfl
  have start : Workspace.Tracks { graph := looseChains.graph } := fun plane none => nomatch none
  obtain ⟨count, after, ran', pairs⟩ := orderFlashAttention_serializes_reaching consistent acyclic start
  rw [ran] at ran'
  cases ran'
  obtain ⟨⟨added, between, reached, ordered⟩, serial_iff⟩ := pairs [] [⟨0⟩, ⟨1⟩] [⟨2⟩] [] rfl
  have lastFirst : ∀ order, (looseChains.graph.withControl ⟨1⟩ ⟨2⟩ .schedule).IsSchedule order →
      order.idxOf ⟨1⟩ < order.idxOf ⟨2⟩ := by
    cases reached
    rcases ordered with ⟨last, first, ends, starts, forbidden⟩ | ⟨last, first, ends, starts, before⟩
    next => cases ends; cases starts; cases forbidden
    next => cases ends; cases starts; exact fun order valid => before order valid _ _ .refl .refl
  refine ⟨_, ran, lastFirst, fun otherFirst => ?_⟩
  have serial := serial_iff.mp fun order valid front inside back inside' => by
    simp only [List.mem_cons, List.not_mem_nil, or_false] at inside inside'
    rcases inside with rfl | rfl <;> subst inside'
    · exact otherFirst order valid
    · exact lastFirst order valid
  have linked := (consistent.withControl .schedule (by decide : ⟨1⟩ ∈ looseChains.graph.nodeIds) (by decide : ⟨2⟩ ∈ _)).toLinked
  have path := (serial ⟨0⟩ (by decide) ⟨2⟩ (by decide)).to_reflTransGen
  rw [← Graph.reaches_iff linked (by decide)] at path
  exact absurd path (by decide +kernel)

end Workspace

end Dataflow
