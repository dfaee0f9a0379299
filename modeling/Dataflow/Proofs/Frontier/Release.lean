import Dataflow.Proofs.Description.Build
import Dataflow.Proofs.Frontier.Offset

set_option autoImplicit false

namespace Dataflow.OffsetFrontier

variable {K : Type} [Ord K] {key : NodeId → K} {free : OffsetFrontier key}

inductive Call where
  | insert (node : NodeId)
  | erase (node : NodeId)
  | pop

def perform (graph : Graph) (free : OffsetFrontier key) : Call → Except Fault (OffsetFrontier key)
  | .insert node => free.insert graph node
  | .erase node => .ok (free.erase node)
  | .pop => .ok ((free.pop?.map Prod.snd).getD free)

theorem Sound.pop (sound : free.Sound) : ((free.pop?.map Prod.snd).getD free).Sound := by
  by_cases empty : free.frontier.nodes = []
  next =>
    rw [pop?_of_nil empty]
    exact sound
  next =>
    obtain ⟨node, rest, popped, sound', -⟩ := pop?_of_ne_nil sound empty
    rw [popped]
    exact sound'

theorem perform_ok {graph : Graph} (fits : graph.OffsetsFit) (sound : free.Sound) (call : Call) :
    ∃ after, free.perform graph call = .ok after ∧ after.Sound := by
  cases call with
  | insert node =>
    obtain ⟨after, inserted, sound', -⟩ := insert_ok fits sound node
    exact ⟨after, inserted, sound'⟩
  | erase node => exact ⟨_, rfl, sound.erase node⟩
  | pop => exact ⟨_, rfl, sound.pop⟩

theorem performs_ok {graph : Graph} (fits : graph.OffsetsFit) (sound : free.Sound) (calls : List Call) :
    ∃ after, calls.foldlM (perform graph) free = .ok after ∧ after.Sound := by
  apply foldlM_succeeds fun _ (free : OffsetFrontier key) => free.Sound
  next => exact fun _ sound => perform_ok fits sound _
  next => exact sound

theorem Sound.drain (sound : free.Sound) (count : Nat) (enough : free.frontier.nodes.length ≤ count) :
    (drain count free).1.Nodup ∧ (∀ node, node ∈ (drain count free).1 ↔ node ∈ free.frontier.nodes) ∧
      (drain count free).2.frontier.nodes = [] := by
  -- Each round takes one node out, so there are as many rounds as nodes.
  induction count generalizing free with
  | zero =>
    have empty : free.frontier.nodes = [] := List.eq_nil_of_length_eq_zero (Nat.le_zero.mp enough)
    simp [OffsetFrontier.drain, empty]
  | succ count ih =>
    by_cases empty : free.frontier.nodes = []
    next => simp [OffsetFrontier.drain, pop?_of_nil empty, empty]
    next =>
      obtain ⟨node, rest, popped, sound', there, left⟩ := pop?_of_ne_nil sound empty
      have fewer : rest.frontier.nodes.length < free.frontier.nodes.length := by
        have subset : node :: rest.frontier.nodes ⊆ free.frontier.nodes := by
          rw [List.cons_subset]
          exact ⟨there, fun other member => ((left other).mp member).1⟩
        have distinct : (node :: rest.frontier.nodes).Nodup :=
          List.nodup_cons.mpr ⟨fun member => ((left node).mp member).2 rfl, sound'.nodup⟩
        exact (distinct.subperm subset).length_le
      obtain ⟨nodup, mem_iff, drained⟩ := ih sound' (by omega)
      simp only [OffsetFrontier.drain, popped]
      refine ⟨List.nodup_cons.mpr ⟨?_, nodup⟩, fun other => ?_, drained⟩
      next =>
        rw [mem_iff, left]
        exact fun again => again.2 rfl
      next =>
        rw [List.mem_cons, mem_iff, left]
        by_cases same : other = node
        next => simp [same, there]
        next => simp [same]

theorem performs_never_deadlock {graph : Graph} (fits : graph.OffsetsFit) (key : NodeId → K) (calls : List Call) :
    ∃ free : OffsetFrontier key, calls.foldlM (perform graph) {} = .ok free ∧
      (∀ a b, b ∈ free.order.dependents a → a ∈ free.frontier.nodes ∧ b ∈ free.frontier.nodes) ∧
      (∀ a b, a ∈ free.order.blockers b ↔ b ∈ free.order.dependents a) ∧
      Acyclic (fun a b => b ∈ free.order.dependents a) ∧
      (∀ a b, b ∈ free.order.dependents a →
        ∃ role, free.order.roles.get? a = some role ∧ free.order.roles.get? b = some role) ∧
      (∀ node, ∃ after, free.insert graph node = .ok after ∧
        ∀ other, other ∈ after.frontier.nodes ↔ other = node ∨ other ∈ free.frontier.nodes) ∧
      (∀ node other, other ∈ (free.erase node).frontier.nodes ↔ other ∈ free.frontier.nodes ∧ other ≠ node) ∧
      (free.frontier.nodes ≠ [] → ∃ node ∈ free.frontier.nodes, free.pop? = some (node, free.erase node)) ∧
      ∀ count, free.frontier.nodes.length ≤ count →
        (drain count free).1.Nodup ∧ (∀ node, node ∈ (drain count free).1 ↔ node ∈ free.frontier.nodes) ∧
          (drain count free).2.pop? = none := by
  have empty : ({} : OffsetFrontier key).Sound := sound_empty
  obtain ⟨free, ran, sound⟩ := performs_ok fits empty calls
  have within := sound.within
  refine ⟨free, ran, fun _ _ => within.inside, within.converse, within.acyclic, fun _ _ => within.roles, ?_, ?_, ?_, ?_⟩
  next =>
    intro node
    obtain ⟨after, inserted, -, listed⟩ := insert_ok fits sound node
    exact ⟨after, inserted, listed⟩
  next => simp [nodes_erase]
  next =>
    intro nonempty
    obtain ⟨node, rest, popped, -, there, -⟩ := pop?_of_ne_nil sound nonempty
    refine ⟨node, there, ?_⟩
    obtain ⟨next, found, same⟩ := Option.map_eq_some_iff.mp popped
    cases same
    exact popped
  next =>
    intro count enough
    obtain ⟨nodup, mem_iff, drained⟩ := sound.drain count enough
    exact ⟨nodup, mem_iff, pop?_of_nil drained⟩

-- Each node writes the start of one buffer and the end of the next, so by offset each goes before the next around.
def ring : GraphDescription :=
  { tensors := [{ name := "a" }, { name := "b" }, { name := "c" }, { name := "endOfA", aliasOf := "a", offset := 4 },
      { name := "endOfB", aliasOf := "b", offset := 4 }, { name := "endOfC", aliasOf := "c", offset := 4 }]
    nodes := [{ name := "first", kind := .logical, outputs := ["a", "endOfC"] },
      { name := "second", kind := .logical, outputs := ["b", "endOfA"] },
      { name := "third", kind := .logical, outputs := ["c", "endOfB"] }] }

def ringCalls : List Call :=
  [.insert ⟨0⟩, .insert ⟨1⟩, .insert ⟨2⟩, .insert ⟨9⟩, .erase ⟨9⟩, .erase ⟨1⟩, .insert ⟨1⟩]

def ringFree : OffsetFrontier fun _ => 0 := (ringCalls.foldlM (perform ring.graph) {}).toOption.getD {}

theorem ring_is_released : ringFree.order.added = 3 ∧ ringFree.order.isBlocked ⟨0⟩ = true ∧
    (drain 3 ringFree).1.Nodup ∧ ∀ node, node ∈ (drain 3 ringFree).1 ↔ node ∈ ringFree.frontier.nodes := by
  have fits : ring.graph.OffsetsFit := Graph.offsetsFit_of_shallow (by decide)
  obtain ⟨free, ran, -, -, -, -, -, -, -, drains⟩ := performs_never_deadlock fits (fun _ => 0) ringCalls
  cases ran
  obtain ⟨nodup, mem_iff, -⟩ := drains 3 (by decide)
  exact ⟨by decide, by decide, nodup, mem_iff⟩

end Dataflow.OffsetFrontier
