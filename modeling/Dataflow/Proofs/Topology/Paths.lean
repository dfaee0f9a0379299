import Mathlib.Data.List.Chain
import Mathlib.Data.Set.Card
import Dataflow.Proofs.Graph.Relation
import Dataflow.Proofs.Plane.Candidate

set_option autoImplicit false

namespace Dataflow

open Relation

variable {κ : Type} {edge : κ → κ → Prop} {source target : κ}

structure IsPath (edge : κ → κ → Prop) (source target : κ) (keys : List κ) : Prop where
  linked : keys.IsChain edge
  starts : keys.head? = some source
  ends : keys.getLast? = some target

theorem isPath_reverse_iff {keys : List κ} : IsPath edge source target keys.reverse ↔
    keys.IsChain (fun later earlier => edge earlier later) ∧ keys.getLast? = some source ∧ keys.head? = some target := by
  constructor
  next =>
    intro path
    exact ⟨List.isChain_reverse.mp path.linked, by simpa using path.starts, by simpa using path.ends⟩
  next =>
    rintro ⟨linked, starts, ends⟩
    exact ⟨List.isChain_reverse.mpr linked, by simpa using starts, by simpa using ends⟩

theorem exists_isPath_iff : (∃ keys, IsPath edge source target keys) ↔ ReflTransGen edge source target := by
  constructor
  next =>
    rintro ⟨keys, path⟩
    cases keys with
    | nil => cases path.starts
    | cons first rest =>
      cases path.starts
      refine List.relationReflTransGen_of_exists_isChain_cons rest path.linked ?_
      exact Option.some.inj ((List.getLast?_eq_getLast_of_ne_nil _).symm.trans path.ends)
  next =>
    intro reached
    obtain ⟨rest, linked, ends⟩ := List.exists_isChain_cons_of_relationReflTransGen reached
    exact ⟨_, linked, rfl, (List.getLast?_eq_getLast_of_ne_nil _).trans (congrArg some ends)⟩

namespace PathCount

theorem way_iff_isPath {successors : κ → List κ} {passed : List κ} : Way successors source target passed ↔
    IsPath (fun key next => next ∈ successors key) source target (target :: passed).reverse := by
  -- A way keeps the keys behind it, the latest first: it is the path read from its end.
  rw [isPath_reverse_iff]
  induction passed generalizing target with
  | nil =>
    constructor
    next => rintro ⟨⟩; exact ⟨.singleton _, rfl, rfl⟩
    next => rintro ⟨-, starts, -⟩; cases starts; exact .start
  | cons latest passed ih =>
    rw [List.isChain_cons_cons, List.getLast?_cons_cons]
    constructor
    next =>
      rintro (_ | ⟨way, step⟩)
      obtain ⟨linked, starts, -⟩ := ih.mp way
      exact ⟨⟨step, linked⟩, starts, rfl⟩
    next =>
      rintro ⟨⟨step, linked⟩, starts, -⟩
      exact (ih.mpr ⟨linked, starts, rfl⟩).step step

structure Counts (edge : κ → κ → Prop) (source target : κ) (number : Nat) : Prop where
  finite : {keys | IsPath edge source target keys}.Finite
  number_eq : number = min {keys | IsPath edge source target keys}.ncard Word.largest

theorem Counts.pos_iff {number : Nat} (counts : Counts edge source target number) :
    0 < number ↔ ReflTransGen edge source target := by
  have some_path := Set.ncard_pos counts.finite
  rw [← exists_isPath_iff, counts.number_eq, Word.largest, lt_min_iff, some_path]
  exact and_iff_left (by decide)

theorem counts_count [Ranked κ] [DecidableEq κ] {net : Network κ} (sound : net.Sound)
    (loopless : ∀ node, ¬ net.Blocks node node) {order : List κ} (valid : net.IsOrder order)
    (known : target ∈ net.nodes) : Counts (fun key next => next ∈ net.dependents key) source target
      (count (some order) net.dependents source target) := by
  obtain ⟨ways, nodup, mem_iff, counted⟩ := count_eq sound loopless valid source known
  let paths := (ways.map fun passed => (target :: passed).reverse).toFinset
  have listed : {keys | IsPath (fun key next => next ∈ net.dependents key) source target keys} = paths := by
    ext keys
    simp only [Set.mem_ofPred_eq, paths, List.coe_toFinset, List.mem_map, mem_iff, way_iff_isPath]
    constructor
    next =>
      intro path
      -- A path ends in its target, which is not among the keys passed before.
      obtain ⟨passed, rfl⟩ := List.getLast?_eq_some_iff.mp path.ends
      exact ⟨passed.reverse, by simpa using path, by simp⟩
    next => rintro ⟨passed, path, rfl⟩; exact path
  have distinct : (ways.map fun passed => (target :: passed).reverse).Nodup :=
    nodup.map fun one other same => (List.cons.inj (List.reverse_injective same)).2
  refine ⟨listed ▸ paths.finite_toSet, ?_⟩
  rw [listed, Set.ncard_coe_finset, List.toFinset_card_of_nodup distinct, List.length_map, counted]

end PathCount

namespace Graph

variable {graph : Graph}

theorem reaches_consumers (linked : graph.Linked) : (fun key next => next ∈ graph.consumers key .both) = graph.Edge := by
  funext key next
  rw [mem_consumers linked, Edge, ne_comm]

theorem blocks_of_unbarred (linked : graph.Linked)
    (unbarred : ∀ {id node}, graph.nodes.get? id = some node → node.annotations.barriers = []) :
    graph.Blocks .both = graph.Edge := by
  funext key next
  rw [eq_iff_iff, Blocks.both_iff, Edge]
  constructor
  next =>
    rintro ⟨differ, -, -, feeds | ⟨node, found, bars⟩⟩
    next => exact ⟨differ, feeds⟩
    next => rw [unbarred found] at bars; cases bars
  next =>
    rintro ⟨differ, feeds⟩
    exact ⟨differ, (feeds.known linked).1, (feeds.known linked).2, Or.inl feeds⟩

theorem counts_pathCount (linked : graph.Linked) (acyclic : Acyclic graph.Edge) (source : NodeId) {target : NodeId}
    (known : target ∈ graph.nodeIds) : PathCount.Counts (fun key next => next ∈ graph.consumers key .both) source target
      (graph.pathCount source target) := by
  obtain ⟨order, found, valid⟩ := (topologicalOrder?_eq linked .both).1 (blocks_tensorNetwork linked ▸ acyclic)
  rw [pathCount, found]
  refine PathCount.counts_count (sound_tensorNetwork linked .both) ?_ valid known
  intro node blocks
  rw [blocks_tensorNetwork linked] at blocks
  exact blocks.1 rfl

end Graph

namespace PlaneGraph

theorem Indexed.counts_pathCount {graph : PlaneGraph} (indexed : graph.Indexed) (acyclic : Acyclic graph.Feeds)
    (source : PlaneNodeId) {target : PlaneNodeId} (known : target ∈ graph.nodes.keys) : ∃ number,
      graph.pathCount source target = .ok number ∧
        PathCount.Counts (fun key next => next ∈ graph.consumers key) source target number := by
  obtain ⟨order, valid, counted⟩ := indexed.pathCount_eq acyclic source target
  exact ⟨_, counted, PathCount.counts_count indexed.sound_network indexed.loopless_network valid known⟩

end PlaneGraph

theorem pathCount_counts_paths :
    (∀ {graph : Graph}, graph.Consistent → Acyclic graph.Edge →
      ∀ {source target : NodeId}, source ∈ graph.nodeIds → target ∈ graph.nodeIds →
        PathCount.Counts (fun key next => next ∈ graph.consumers key .both) source target
          (graph.pathCount source target) ∧
        (source = target → graph.pathCount source target = 1) ∧
        (0 < graph.pathCount source target ↔ ReflTransGen graph.Edge source target) ∧
        ((∀ {id node}, graph.nodes.get? id = some node → node.annotations.barriers = []) →
          (0 < graph.pathCount source target ↔ graph.reaches source target = true))) ∧
    ∀ {graph : PlaneGraph}, graph.Indexed → Acyclic graph.Feeds →
      ∀ {source target : PlaneNodeId}, source ∈ graph.nodes.keys → target ∈ graph.nodes.keys → ∃ number,
        graph.pathCount source target = .ok number ∧
        PathCount.Counts (fun key next => next ∈ graph.consumers key) source target number ∧
        (source = target → number = 1) ∧ (0 < number ↔ ReflTransGen graph.Feeds source target) := by
  constructor
  next =>
    intro graph consistent acyclic source target sourceKnown targetKnown
    have linked := consistent.toLinked
    have counts := Graph.counts_pathCount linked acyclic source targetKnown
    have positive := counts.pos_iff
    rw [Graph.reaches_consumers linked] at positive
    refine ⟨counts, fun same => if_pos same, positive, fun unbarred => ?_⟩
    rw [positive, Graph.reaches_iff linked sourceKnown, Graph.blocks_of_unbarred linked unbarred]
  next =>
    intro graph indexed acyclic source target sourceKnown targetKnown
    obtain ⟨number, counted, counts⟩ := indexed.counts_pathCount acyclic source targetKnown
    refine ⟨number, counted, counts, fun same => ?_, ?_⟩
    next => exact Except.ok.inj (counted.symm.trans (if_pos same))
    next => rw [counts.pos_iff, ← indexed.reaches_consumers]; rfl

def fork : GraphDescription :=
  { tensors := [{ name := "loaded" }, { name := "scaled" }, { name := "shifted" }]
    nodes := [{ name := "load", outputs := ["loaded"] },
      { name := "scale", inputs := ["loaded"], outputs := ["scaled"], bundle := some { bundleIndex := 0 } },
      { name := "shift", inputs := ["loaded"], outputs := ["shifted"], bundle := some { bundleIndex := 0 } },
      { name := "add", inputs := ["scaled", "shifted"] }]
    controlEdges := [{ source := "load", target := "add" }] }

theorem ofAnnotations_forkGraph : ∃ plane, Plane.ofAnnotations fork.graph (fun _ => true) = .ok plane ∧
    ⟨0⟩ ∈ plane.graph.nodes.keys ∧ ⟨1⟩ ∈ plane.graph.nodes.keys ∧ plane.graph.pathCount ⟨0⟩ ⟨1⟩ = .ok 2 := by
  have made : (Plane.ofAnnotations fork.graph fun _ => true).toOption.map (fun plane =>
      (plane.graph.nodes.keys, (plane.graph.pathCount ⟨0⟩ ⟨1⟩).toOption)) =
        some ([⟨0⟩, ⟨1⟩, ⟨2⟩], some 2) := by decide +kernel
  cases annotated : Plane.ofAnnotations fork.graph fun _ => true with
  | error error => rw [annotated] at made; cases made
  | ok plane =>
    rw [annotated] at made
    simp only [Except.toOption, Option.map_some, Option.some.injEq, Prod.mk.injEq] at made
    obtain ⟨keys, counted⟩ := made
    refine ⟨plane, rfl, by simp [keys], by simp [keys], ?_⟩
    cases paths : plane.graph.pathCount ⟨0⟩ ⟨1⟩ with
    | error fault => rw [paths] at counted; cases counted
    | ok number => rw [paths] at counted; cases counted; rfl

theorem pathCount_fork :
    ({keys | IsPath (fun key next => next ∈ fork.graph.consumers key .both) ⟨0⟩ ⟨3⟩ keys}.ncard = 3 ∧
      fork.graph.reaches ⟨0⟩ ⟨3⟩ = true) ∧
    ∃ plane, Plane.ofAnnotations fork.graph (fun _ => true) = .ok plane ∧
      {keys | IsPath (fun key next => next ∈ plane.graph.consumers key) ⟨0⟩ ⟨1⟩ keys}.ncard = 2 := by
  have consistent := fork.consistent_graph
  have acyclic := (Graph.isAcyclic_iff consistent.toLinked).mp (by decide +kernel)
  have counted : fork.graph.pathCount ⟨0⟩ ⟨3⟩ = 3 := by decide +kernel
  have fits {number paths : Nat} (counts : number = min paths Word.largest) (few : number < 4) : paths = number := by
    rw [Word.largest] at counts
    omega
  constructor
  next =>
    obtain ⟨counts, -, -, reaches_iff⟩ := pathCount_counts_paths.1 consistent acyclic
      (by decide : ⟨0⟩ ∈ fork.graph.nodeIds) (by decide : ⟨3⟩ ∈ fork.graph.nodeIds)
    rw [counted] at counts reaches_iff
    refine ⟨fits counts.number_eq (by decide), (reaches_iff fun found => ?_).mp (by decide)⟩
    exact (by decide : ∀ entry ∈ fork.graph.nodes.entries, entry.2.annotations.barriers = [])
      (_, _) ((Table.mem_entries_iff _ _ _).mpr found)
  next =>
    obtain ⟨plane, annotated, sourceKnown, targetKnown, counted⟩ := ofAnnotations_forkGraph
    obtain ⟨built, loopless⟩ := Plane.built_of_ofAnnotations consistent annotated
    obtain ⟨number, counted', counts, -⟩ := pathCount_counts_paths.2 built.sound.indexed loopless sourceKnown targetKnown
    cases counted.symm.trans counted'
    exact ⟨plane, annotated, fits counts.number_eq (by decide)⟩

end Dataflow
