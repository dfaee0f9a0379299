import Mathlib.Data.List.Chain
import Mathlib.Order.Bounds.Image
import Dataflow.PathMetrics
import Dataflow.Proofs.Description.Build
import Dataflow.Proofs.Graph.Relation
import Dataflow.Proofs.Results
import Dataflow.Proofs.Topology.PathCount

set_option autoImplicit false

namespace Dataflow

section Chains

variable {κ : Type} {step : κ → κ → Prop} {weight : κ → κ → Nat} {key : κ}

def chainWeight (weight : κ → κ → Nat) : List κ → Nat
  | key :: next :: rest => weight key next + chainWeight weight (next :: rest)
  | _ => 0

theorem chainWeight_append (front back : List κ) (key : κ) : chainWeight weight (front ++ key :: back) =
    chainWeight weight (front ++ [key]) + chainWeight weight (key :: back) := by
  induction front with
  | nil => simp [chainWeight]
  | cons first rest ih =>
    cases rest with
    | nil => simp [chainWeight]
    | cons second rest =>
      simp only [List.cons_append, chainWeight] at ih ⊢
      rw [ih, Nat.add_assoc]

theorem chainWeight_reverse (keys : List κ) :
    chainWeight (fun later earlier => weight earlier later) keys.reverse = chainWeight weight keys := by
  induction keys with
  | nil => rfl
  | cons first rest ih =>
    cases rest with
    | nil => rfl
    | cons second rest =>
      rw [List.reverse_cons, List.reverse_cons, List.append_assoc, List.singleton_append, chainWeight_append,
        ← List.reverse_cons, ih]
      simp only [chainWeight]
      omega

def weightsFrom (step : κ → κ → Prop) (weight : κ → κ → Nat) (key : κ) : Set Nat :=
  {total | ∃ rest, (key :: rest).IsChain step ∧ chainWeight weight (key :: rest) = total}

def weightsThrough (step : κ → κ → Prop) (weight : κ → κ → Nat) (key : κ) : Set Nat :=
  {total | ∃ keys, keys.IsChain step ∧ key ∈ keys ∧ chainWeight weight keys = total}

theorem weightsFrom_eq {neighbours : List κ} (mem_iff : ∀ next, next ∈ neighbours ↔ step key next) :
    weightsFrom step weight key =
      {0} ∪ ⋃ next ∈ neighbours, (· + weight key next) '' weightsFrom step weight next := by
  ext total
  simp only [Set.mem_union, Set.mem_singleton_iff, Set.mem_iUnion, Set.mem_image, mem_iff]
  constructor
  next =>
    rintro ⟨_ | ⟨next, rest⟩, linked, rfl⟩
    next => exact Or.inl rfl
    next =>
      obtain ⟨steps, linked⟩ := List.isChain_cons_cons.mp linked
      exact Or.inr ⟨next, steps, _, ⟨rest, linked, rfl⟩, Nat.add_comm _ _⟩
  next =>
    rintro (rfl | ⟨next, steps, _, ⟨rest, linked, rfl⟩, rfl⟩)
    next => exact ⟨[], .singleton key, rfl⟩
    next => exact ⟨next :: rest, List.isChain_cons_cons.mpr ⟨steps, linked⟩, Nat.add_comm _ _⟩

theorem weightsThrough_eq : weightsThrough step weight key = Set.image2 (· + ·)
    (weightsFrom (fun later earlier => step earlier later) (fun later earlier => weight earlier later) key)
    (weightsFrom step weight key) := by
  -- The chain is cut at the key. Its front part, read backwards, leaves the key as well.
  ext total
  constructor
  next =>
    rintro ⟨keys, linked, passes, rfl⟩
    obtain ⟨front, back, rfl⟩ := List.append_of_mem passes
    obtain ⟨into, out⟩ := List.isChain_split.mp linked
    refine ⟨_, ⟨front.reverse, ?_, rfl⟩, _, ⟨back, out, rfl⟩, ?_⟩
    next => rw [← List.reverse_concat, List.isChain_reverse]; exact into
    next =>
      dsimp only
      rw [← List.reverse_concat, chainWeight_reverse, ← chainWeight_append]
  next =>
    rintro ⟨_, ⟨front, into, rfl⟩, _, ⟨back, out, rfl⟩, rfl⟩
    refine ⟨front.reverse ++ key :: back, List.isChain_split.mpr ⟨?_, out⟩, by simp, ?_⟩
    next => rw [← List.reverse_cons, List.isChain_reverse]; exact into
    next =>
      dsimp only
      rw [chainWeight_append, ← List.reverse_cons, ← chainWeight_reverse, List.reverse_reverse]

end Chains

-- The greatest of the weights, cut off at the largest word.
def IsLongest (weights : Set Nat) (length : Nat) : Prop :=
  ∃ best, IsGreatest weights best ∧ length = min best Word.largest

namespace IsLongest

variable {weights others : Set Nat} {length other : Nat}

theorem zero : IsLongest {0} 0 := ⟨0, isGreatest_singleton, rfl⟩

theorem union (longest : IsLongest weights length) (longest' : IsLongest others other) :
    IsLongest (weights ∪ others) (max length other) := by
  obtain ⟨best, greatest, rfl⟩ := longest
  obtain ⟨best', greatest', rfl⟩ := longest'
  exact ⟨_, greatest.union greatest', (min_max_distrib_right best best' Word.largest).symm⟩

theorem shift (longest : IsLongest weights length) (summand : Nat) :
    IsLongest ((· + summand) '' weights) (Word.saturatingAdd length summand) := by
  obtain ⟨best, greatest, rfl⟩ := longest
  refine ⟨_, Monotone.map_isGreatest (fun _ _ less => Nat.add_le_add_right less summand) greatest, ?_⟩
  simp only [Word.saturatingAdd]
  omega

theorem add (longest : IsLongest weights length) (longest' : IsLongest others other) :
    IsLongest (Set.image2 (· + ·) weights others) (Word.saturatingAdd length other) := by
  obtain ⟨best, greatest, rfl⟩ := longest
  obtain ⟨best', greatest', rfl⟩ := longest'
  refine ⟨best + best', greatest.image2 ?_ ?_ greatest', ?_⟩
  next => exact fun summand _ _ less => Nat.add_le_add_right less summand
  next => exact fun summand _ _ less => Nat.add_le_add_left less summand
  next =>
    rw [Word.saturatingAdd]
    omega

end IsLongest

section Sweep

variable {neighbours : NodeId → List NodeId} {weight : NodeId → NodeId → Nat}

theorem IsLongest.foldl_max {targets : NodeId → Set Nat} {added : NodeId → Nat} {lengths : Table NodeId Nat}
    {nodes : List NodeId} (reckoned : ∀ node ∈ nodes, IsLongest (targets node) ((lengths.get? node).getD 0))
    {weights : Set Nat} {length : Nat} (longest : IsLongest weights length) :
    IsLongest (weights ∪ ⋃ node ∈ nodes, (· + added node) '' targets node)
      (nodes.foldl (fun longest other =>
        max longest (Word.saturatingAdd ((lengths.get? other).getD 0) (added other))) length) := by
  induction nodes generalizing weights length with
  | nil => simpa using longest
  | cons first rest ih =>
    -- The neighbour adds the chains that go on over it.
    have grown := longest.union ((reckoned first List.mem_cons_self).shift (added first))
    have final := ih (fun node member => reckoned node (List.mem_cons_of_mem _ member)) grown
    simpa [Set.iUnion_or, Set.iUnion_union_distrib, Set.union_assoc] using final

def Reckons (neighbours : NodeId → List NodeId) (weight : NodeId → NodeId → Nat) (lengths : Table NodeId Nat)
    (done : List NodeId) : Prop :=
  ∀ node ∈ done, IsLongest (weightsFrom (fun node next => next ∈ neighbours node) weight node)
    ((lengths.get? node).getD 0)

theorem Reckons.insert {lengths : Table NodeId Nat} {done : List NodeId} {node : NodeId}
    (reckons : Reckons neighbours weight lengths done) (ready : ∀ next ∈ neighbours node, next ∈ done) :
    Reckons neighbours weight (lengths.insert node (longestOver (weight node) lengths (neighbours node)))
      (done ++ [node]) := by
  intro other member
  rw [Table.get?_insert_eq]
  split
  next same =>
    subst same
    rw [Option.getD_some, weightsFrom_eq fun next => Iff.rfl]
    exact IsLongest.foldl_max (fun next listed => reckons next (ready next listed)) .zero
  next differ => exact reckons other ((List.mem_append.mp member).resolve_right (by simpa using differ))

theorem reckons_sweep (weight : NodeId → NodeId → Nat) {order : List NodeId}
    (ready : Stepwise (fun done node => ∀ next ∈ neighbours node, next ∈ done) order) :
    Reckons neighbours weight (order.foldl (fun lengths node =>
      lengths.insert node (longestOver (weight node) lengths (neighbours node))) ∅) order := by
  induction order using List.reverseRecOn with
  | nil => exact fun node member => absurd member List.not_mem_nil
  | append_singleton order last ih =>
    obtain ⟨before, now⟩ := stepwise_snoc.mp ready
    rw [List.foldl_concat]
    exact (ih before).insert now

end Sweep

namespace Dependencies

variable {deps : Dependencies} (sound : deps.network.Sound) (loopless : ∀ node, ¬ deps.network.Blocks node node)
  (weight : NodeId → NodeId → Nat) {order : List NodeId} (valid : deps.network.IsOrder order)

include sound loopless valid

theorem reckons_longestFromSource :
    Reckons deps.blockers (fun node next => weight next node) (deps.longestFromSource weight order) order := by
  refine reckons_sweep _ fun done node rest split blocking blocks => ?_
  exact (split ▸ valid).blocker_before sound loopless blocks

theorem reckons_longestToSink : Reckons deps.dependents weight (deps.longestToSink weight order) order := by
  -- Swept from its end, the order puts the dependents of a node before it.
  have ready : Stepwise (fun done node => ∀ next ∈ deps.dependents node, next ∈ done) order.reverse := by
    intro done node rest split next listed
    have forward : order = rest.reverse ++ node :: done.reverse := by
      rw [← List.reverse_reverse order, split]
      simp
    exact List.mem_reverse.mp ((forward ▸ valid).dependent_after sound loopless (sound.converse.mpr listed))
  intro node listed
  have reckons := reckons_sweep weight ready node (List.mem_reverse.mpr listed)
  rwa [List.foldl_reverse] at reckons

end Dependencies

namespace Graph

variable {graph : Graph}

theorem orderForPaths_eq (linked : graph.Linked) (filter : EdgeFilter) :
    (Acyclic (graph.Blocks filter) → ∃ order, (graph.dependencies filter).orderForPaths = .ok order ∧
        (graph.dependencies filter).network.IsOrder order) ∧
      (¬ Acyclic (graph.Blocks filter) →
        (graph.dependencies filter).orderForPaths = .error (.notAllScheduled 0 graph.size)) := by
  unfold Dependencies.orderForPaths
  constructor
  next =>
    intro acyclic
    obtain ⟨order, ordered, valid⟩ := (topologicalOrder?_dependencies linked filter).1 acyclic
    exact ⟨order, by rw [ordered], valid⟩
  next =>
    intro cyclic
    rw [(topologicalOrder?_dependencies linked filter).2 cyclic, size_dependencies]

theorem pathMetrics_eq (linked : graph.Linked) (filter : EdgeFilter) (weight : PathWeight) :
    (Acyclic (graph.Blocks filter) →
        ∃ metrics, PathMetrics.compute graph (graph.dependencies filter) weight = .ok metrics ∧
          ∃ order, (graph.dependencies filter).network.IsOrder order ∧
            metrics.toSink = (graph.dependencies filter).longestToSink (graph.edgeWeight weight) order ∧
            metrics.fromSource = (graph.dependencies filter).longestFromSource (graph.edgeWeight weight) order) ∧
      (¬ Acyclic (graph.Blocks filter) →
        PathMetrics.compute graph (graph.dependencies filter) weight = .error (.notAllScheduled 0 graph.size)) := by
  unfold PathMetrics.compute
  constructor
  next =>
    intro acyclic
    obtain ⟨order, ordered, valid⟩ := (orderForPaths_eq linked filter).1 acyclic
    exact ⟨_, by rw [ordered]; rfl, order, valid, rfl, rfl⟩
  next =>
    intro cyclic
    rw [(orderForPaths_eq linked filter).2 cyclic]
    rfl

theorem exists_longest (linked : graph.Linked) {filter : EdgeFilter} (acyclic : Acyclic (graph.Blocks filter))
    (weight : PathWeight) :
    ∃ metrics, PathMetrics.compute graph (graph.dependencies filter) weight = .ok metrics ∧ ∀ node ∈ graph.nodeIds,
      IsLongest (weightsFrom (graph.Blocks filter) (graph.edgeWeight weight) node) (metrics.maxPath node) ∧
      IsLongest (weightsThrough (graph.Blocks filter) (graph.edgeWeight weight) node) (metrics.chainLength node) := by
  have sound := sound_network linked filter
  have loopless := network_loopless linked filter
  have same : (fun node next => next ∈ (graph.dependencies filter).dependents node) = graph.Blocks filter :=
    funext fun _ => funext fun _ => propext (mem_dependents_iff linked)
  have converse : (fun node next => next ∈ (graph.dependencies filter).blockers node) =
      fun later earlier => graph.Blocks filter earlier later :=
    funext fun _ => funext fun _ => propext (mem_blockers_iff linked)
  obtain ⟨metrics, computed, order, valid, toSink, fromSource⟩ := (pathMetrics_eq linked filter weight).1 acyclic
  refine ⟨metrics, computed, fun node known => ?_⟩
  rw [← nodes_network filter, ← valid.mem_iff] at known
  have out := Dependencies.reckons_longestToSink sound loopless (graph.edgeWeight weight) valid node known
  have into := Dependencies.reckons_longestFromSource sound loopless (graph.edgeWeight weight) valid node known
  rw [same, ← toSink] at out
  rw [converse, ← fromSource] at into
  exact ⟨out, weightsThrough_eq ▸ into.add out⟩

theorem pathMetrics_isLongest (consistent : graph.Consistent) (filter : EdgeFilter) (weight : PathWeight) :
    (¬ Acyclic (fun node next => next ∈ (graph.dependencies filter).dependents node) →
      PathMetrics.compute graph (graph.dependencies filter) weight = .error (.notAllScheduled 0 graph.size)) ∧
    (Acyclic (fun node next => next ∈ (graph.dependencies filter).dependents node) →
      ∃ metrics, PathMetrics.compute graph (graph.dependencies filter) weight = .ok metrics ∧
        ∀ node ∈ graph.nodeIds,
          IsLongest (weightsFrom (fun node next => next ∈ (graph.dependencies filter).dependents node)
            (graph.edgeWeight weight) node) (metrics.maxPath node) ∧
          IsLongest (weightsThrough (fun node next => next ∈ (graph.dependencies filter).dependents node)
            (graph.edgeWeight weight) node) (metrics.chainLength node)) := by
  have linked := consistent.toLinked
  have same : (fun node next => next ∈ (graph.dependencies filter).dependents node) = graph.Blocks filter :=
    funext fun _ => funext fun _ => propext (mem_dependents_iff linked)
  rw [same]
  exact ⟨(pathMetrics_eq linked filter weight).2, fun acyclic => exists_longest linked acyclic weight⟩

def overfull : GraphDescription :=
  { tensors := [{ name := "loaded", sizeBytes := 0xFFFFFFFFFFFFFFFF }, { name := "scaled", sizeBytes := 5 }]
    nodes := [{ name := "load", outputs := ["loaded"] }, { name := "scale", inputs := ["loaded"], outputs := ["scaled"] },
      { name := "store", inputs := ["scaled"] }] }

theorem pathMetrics_overfull :
    Word.largest + 5 ∈ weightsThrough (fun node next => next ∈ (overfull.graph.dependencies .both).dependents node)
      (overfull.graph.edgeWeight .tensorBytes) ⟨2⟩ ∧
    ∃ metrics, PathMetrics.compute overfull.graph (overfull.graph.dependencies .both) .tensorBytes = .ok metrics ∧
      metrics.chainLength ⟨2⟩ = Word.largest ∧
      IsLongest (weightsFrom (fun node next => next ∈ (overfull.graph.dependencies .both).dependents node)
        (overfull.graph.edgeWeight .tensorBytes) ⟨1⟩) (metrics.maxPath ⟨1⟩) := by
  have consistent := overfull.consistent_graph
  have chain : Word.largest + 5 ∈ weightsThrough
      (fun node next => next ∈ (overfull.graph.dependencies .both).dependents node)
      (overfull.graph.edgeWeight .tensorBytes) ⟨2⟩ := by
    refine ⟨[⟨0⟩, ⟨1⟩, ⟨2⟩], ?_, by simp, rfl⟩
    exact .cons_cons (by decide) (.cons_cons (by decide) (.singleton _))
  have ascending : Acyclic (overfull.graph.Blocks .both) := acyclic_of_numbered (by decide) (by decide)
  have acyclic : Acyclic (fun node next => next ∈ (overfull.graph.dependencies .both).dependents node) :=
    ascending.mono fun _ _ => (mem_dependents_iff consistent.toLinked).mp
  obtain ⟨metrics, computed, longest⟩ := (pathMetrics_isLongest consistent .both .tensorBytes).2 acyclic
  refine ⟨chain, metrics, computed, ?_, (longest ⟨1⟩ (by decide)).1⟩
  -- The greatest weight is at least that of the chain, so the length is cut off.
  obtain ⟨best, greatest, cut⟩ := (longest ⟨2⟩ (by decide)).2
  have long := greatest.2 chain
  omega

end Graph

end Dataflow
