import Dataflow.Proofs.Frontier.Rank
import Dataflow.Proofs.Tables
import Dataflow.Proofs.Network
import Dataflow.Schedule.Traversal

set_option autoImplicit false

namespace Dataflow

namespace Dependencies

variable (deps : Dependencies)

def network : Network NodeId :=
  { nodes := deps.blockersOf.keys, blockers := deps.blockers, dependents := deps.dependents }

theorem length_nodes : deps.network.nodes.length = deps.size := deps.blockersOf.length_keys

theorem blockers_eq {node : NodeId} {blockers : List NodeId} (entry : (node, blockers) ∈ deps.blockersOf.entries) :
    deps.blockers node = blockers := by
  rw [Dependencies.blockers, (deps.blockersOf.mem_entries_iff _ _).mp entry, Option.getD_some]

theorem degrees_inDegrees : deps.network.Degrees [] deps.inDegrees := by
  intro node
  have keyed : ∀ entry ∈ deps.blockersOf.entries.map (fun row => (row.1, row.2.length)),
      entry.2 = deps.inDegree entry.1 := by
    intro entry member
    obtain ⟨⟨id, blockers⟩, listed, rfl⟩ := List.mem_map.mp member
    simp only [inDegree, deps.blockers_eq listed]
  have keys : (deps.blockersOf.entries.map fun row => (row.1, row.2.length)).map Prod.fst =
      deps.network.nodes := by
    rw [List.map_map]
    rfl
  rw [inDegrees, Table.get?_ofList_of_keyed keyed, keys]
  have count : (deps.network.blockers node).countP (· ∉ []) = deps.inDegree node := by
    simp [network, inDegree]
  rw [count]

theorem mem_roots (node : NodeId) : node ∈ deps.roots ↔ deps.network.Free [] node := by
  constructor
  next =>
    intro member
    obtain ⟨⟨id, blockers⟩, listed, rfl⟩ := List.mem_map.mp member
    obtain ⟨entry, empty⟩ := List.mem_filter.mp listed
    refine ⟨List.mem_map_of_mem entry, List.not_mem_nil, ?_⟩
    intro blocking blocks
    simp only [network, deps.blockers_eq entry] at blocks
    simp_all
  next =>
    rintro ⟨known, -, ready⟩
    obtain ⟨⟨id, blockers⟩, entry, rfl⟩ := List.mem_map.mp known
    refine List.mem_map.mpr ⟨(id, blockers), List.mem_filter.mpr ⟨entry, ?_⟩, rfl⟩
    have empty := List.eq_nil_iff_forall_not_mem.mpr fun b member => List.not_mem_nil (ready b member)
    simp only [network, deps.blockers_eq entry] at empty
    simp [empty]

theorem nodup_roots : deps.roots.Nodup :=
  (List.filter_sublist.map Prod.fst).nodup deps.blockersOf.nodup_keys

end Dependencies

theorem release_eq {nodes : List NodeId} (nodup : nodes.Nodup) {degrees : Table NodeId Nat}
    (positive : ∀ node ∈ nodes, ∃ degree, degrees.get? node = some (degree + 1)) :
    ∃ lowered, release degrees nodes = .ok (nodes.filter fun node => degrees.get? node = some 1, lowered) ∧
      ∀ node, lowered.get? node =
        if node ∈ nodes then (degrees.get? node).map (· - 1) else degrees.get? node := by
  induction nodes generalizing degrees with
  | nil => exact ⟨degrees, rfl, by simp⟩
  | cons head rest ih =>
    obtain ⟨degree, found⟩ := positive head List.mem_cons_self
    have distinct := List.nodup_cons.mp nodup
    have elsewhere : ∀ node ∈ rest, (degrees.insert head degree).get? node = degrees.get? node := by
      intro node member
      exact degrees.get?_insert_of_ne degree fun same => distinct.1 (same ▸ member)
    obtain ⟨lowered, released, value⟩ := @ih distinct.2 (degrees.insert head degree) (by
      intro node member
      rw [elsewhere node member]
      exact positive node (List.mem_cons_of_mem _ member))
    refine ⟨lowered, ?_, ?_⟩
    next =>
      have same : rest.filter (fun node => (degrees.insert head degree).get? node = some 1) =
          rest.filter (fun node => degrees.get? node = some 1) :=
        List.filter_congr fun node member => by rw [elsewhere node member]
      rw [release, found]
      simp only [released, same, bind, Except.bind, pure, Except.pure, List.filter_cons, found]
      by_cases zero : degree = 0 <;> simp [zero]
    next =>
      intro node
      rw [value node]
      exact Network.get?_lowered_cons found distinct.1 node

theorem release_dependents {net : Network NodeId} (sound : net.Sound) {placed : List NodeId} {node : NodeId}
    {degrees : Table NodeId Nat} (counted : net.Degrees placed degrees) (fresh : node ∉ placed) :
    ∃ freed lowered, release degrees (net.dependents node) = .ok (freed, lowered) ∧
      net.Degrees (placed ++ [node]) lowered ∧ freed.Nodup ∧
      ∀ other, other ∈ freed ↔
        other ∈ net.dependents node ∧ ∀ blocking ∈ net.blockers other, blocking ∈ placed ++ [node] := by
  obtain ⟨lowered, released, value⟩ := release_eq (sound.nodup_dependents node)
    fun other dependent => ⟨_, counted.of_dependent sound fresh dependent⟩
  refine ⟨_, lowered, released, counted.lowered sound fresh value, (sound.nodup_dependents node).filter _, ?_⟩
  intro other
  rw [List.mem_filter, decide_eq_true_iff]
  exact and_congr_right (counted.last_blocker_iff sound fresh)

theorem requireAll_of_stuck {net : Network NodeId} (sound : net.Sound) (loopless : ∀ node, ¬ net.Blocks node node)
    {placed : List NodeId} (progress : net.Progress placed) (stuck : ∀ node, ¬ net.Free placed node) :
    (Acyclic net.Blocks → requireAll net.nodes.length placed = .ok placed ∧ net.IsOrder placed) ∧
      (¬ Acyclic net.Blocks → requireAll net.nodes.length placed =
        .error (.notAllScheduled placed.length net.nodes.length)) := by
  constructor
  next =>
    intro acyclic
    have valid := progress.isOrder (Network.Progress.full_of_stuck sound acyclic stuck)
    exact ⟨by rw [requireAll, if_pos (valid.length_eq sound)], valid⟩
  next =>
    intro cyclic
    rw [requireAll, if_neg]
    intro full
    have perm := (progress.nodup.subperm progress.known).perm_of_length_le full.ge
    exact cyclic ((progress.isOrder fun node known => perm.mem_iff.mpr known).acyclic sound loopless)

namespace BreadthFirst

variable {K : Type} [Ord K] [Std.TransOrd K] (key : NodeId → K)

theorem emit_greedy {deps : Dependencies} (sound : deps.network.Sound) (count : Nat) {placed : List NodeId}
    {degrees : Table NodeId Nat} {free : Frontier key} (progress : deps.network.Progress placed)
    (counted : deps.network.Degrees placed degrees) (ranked : RankedBy key free.nodes)
    (listed : ∀ node, node ∈ free.nodes ↔ deps.network.Free placed node)
    (enough : deps.network.nodes.length ≤ placed.length + count) :
    ∃ later, emit deps count degrees free = .ok later ∧
      deps.network.Greedy (fun a b => precedes key a b = true) placed later := by
  induction count generalizing placed degrees free with
  | zero => exact ⟨[], rfl, .stuck (progress.not_free_of_full enough)⟩
  | succ count ih =>
    obtain ⟨nodes⟩ := free
    cases nodes with
    | nil => exact ⟨[], rfl, .stuck (by simpa using listed)⟩
    | cons node rest =>
      have ready := (listed node).mp List.mem_cons_self
      obtain ⟨above, others⟩ := List.pairwise_cons.mp ranked
      obtain ⟨freed, lowered, released, counted', distinctFreed, mem_freed⟩ :=
        release_dependents sound counted ready.2.1
      have inRest : ∀ other, other ∈ rest ↔ deps.network.Free placed other ∧ other ≠ node := by
        intro other
        have := listed other
        have irrefl : node ∉ rest := fun again => precedes_asymm (above node again) (above node again)
        grind
      -- A node is free after this turn if it was before, or if the placed one was its last open blocker.
      have listed' : ∀ other, other ∈ (Frontier.insertAll (⟨rest⟩ : Frontier key) freed).nodes ↔
          deps.network.Free (placed ++ [node]) other := by
        intro other
        rw [Frontier.mem_insertAll, progress.free_snoc_iff sound ready, mem_freed, ← inRest, or_comm]
      have ranked' : RankedBy key (Frontier.insertAll (⟨rest⟩ : Frontier key) freed).nodes :=
        RankedBy.insertAll others freed
      obtain ⟨later, emitted, greedy⟩ := ih (progress.snoc ready) counted' ranked' listed' (by simp; omega)
      refine ⟨node :: later, ?_, .take ready (fun other free differs => ?_) greedy⟩
      next =>
        have dependents : deps.network.dependents node = deps.dependents node := rfl
        simp only [emit, ← dependents, released, bind, Except.bind, pure, Except.pure, emitted]
      next => exact above other ((inRest other).mpr ⟨free, differs⟩)

theorem run_greedy {deps : Dependencies} (sound : deps.network.Sound) :
    ∃ placed, run deps key = requireAll deps.network.nodes.length placed ∧
      deps.network.Greedy (fun a b => precedes key a b = true) [] placed := by
  have listed : ∀ node, node ∈ (Frontier.insertAll ({} : Frontier key) deps.roots).nodes ↔
      deps.network.Free [] node := by
    intro node
    rw [Frontier.mem_insertAll, ← deps.mem_roots]
    simp
  obtain ⟨placed, emitted, greedy⟩ := emit_greedy key sound deps.size Network.Progress.nil
    deps.degrees_inDegrees (RankedBy.insertAll List.Pairwise.nil deps.roots) listed (by simp [deps.length_nodes])
  refine ⟨placed, ?_, greedy⟩
  simp only [run, emitted, bind, Except.bind, deps.length_nodes]

theorem run_exhausts {deps : Dependencies} (sound : deps.network.Sound) :
    ∃ placed, run deps key = requireAll deps.network.nodes.length placed ∧
      deps.network.Progress placed ∧ ∀ node, ¬ deps.network.Free placed node := by
  obtain ⟨placed, ran, greedy⟩ := run_greedy key sound
  exact ⟨placed, ran, greedy.exhausts Network.Progress.nil⟩

theorem run_ranked {deps : Dependencies} (sound : deps.network.Sound)
    (along : ∀ {a b}, deps.network.Blocks a b → precedes key a b = true) :
    run deps key = .ok (rankByKey key deps.network.nodes) := by
  have loopless : ∀ node, ¬ deps.network.Blocks node node :=
    fun node loop => precedes_asymm (along loop) (along loop)
  have ranked : RankedBy key (rankByKey key deps.network.nodes) := .rankByKey sound.nodup_nodes
  have perm : (rankByKey key deps.network.nodes).Perm deps.network.nodes := perm_rankByKey _
  have valid : deps.network.IsOrder (rankByKey key deps.network.nodes) :=
    ⟨perm.nodup_iff.mpr sound.nodup_nodes, fun _ => perm.mem_iff,
      List.Pairwise.imp (fun ahead blocks => precedes_asymm ahead (along blocks)) ranked⟩
  obtain ⟨placed, ran, greedy⟩ := run_greedy key sound
  cases greedy.unique precedes_asymm (.of_pairwise sound loopless (by simpa using valid) ranked)
  rw [ran, requireAll, if_pos (valid.length_eq sound)]

end BreadthFirst

end Dataflow
