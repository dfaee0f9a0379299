import Dataflow.Proofs.PathMetrics

set_option autoImplicit false

namespace Dataflow

namespace Graph

-- Each node waits for the one before it in its chain and for nothing else, and all of them have a weight.
structure Chained (graph : Graph) (chains : List (List NodeId)) : Prop where
  perm : chains.flatten.Perm graph.nodeIds
  linear : ∀ chain ∈ chains, chain.IsChain (graph.Blocks .both)
  only : ∀ {blocking blocked}, graph.Blocks .both blocking blocked → ∃ chain ∈ chains, [blocking, blocked] <:+: chain
  weighs : ∀ {id node}, graph.nodes.get? id = some node → node.isLogicalNonDebug = false

-- The longer chain goes first, then the earlier place, then the default key decides.
def Ahead (graph : Graph) (byParent : Bool) (first : List NodeId) (a : NodeId) (second : List NodeId) (b : NodeId) :
    Prop :=
  second.length < first.length ∨ first.length = second.length ∧
    (first.idxOf a < second.idxOf b ∨
      first.idxOf a = second.idxOf b ∧ precedes (graph.defaultKey byParent) a b = true)

theorem Chained.of_table {graph : Graph} (linked : graph.Linked) {chains : List (List NodeId)}
    (perm : chains.flatten.Perm graph.nodeIds)
    (linear : ∀ chain ∈ chains, chain.IsChain fun a b => a ∈ (graph.dependencies .both).blockers b)
    (only : ∀ blocked ∈ graph.nodeIds, ∀ blocking ∈ (graph.dependencies .both).blockers blocked,
      ∃ chain ∈ chains, [blocking, blocked] <:+: chain)
    (weighs : ∀ entry ∈ graph.nodes.entries, entry.2.isLogicalNonDebug = false) : graph.Chained chains where
  perm := perm
  linear chain listed := (linear chain listed).imp fun _ _ => (mem_blockers_iff linked).mp
  only blocks := only _ blocks.2.2.1 _ ((mem_blockers_iff linked).mpr blocks)
  weighs found := weighs _ ((Table.mem_entries_iff _ _ _).mpr found)

namespace Chained

variable {graph : Graph} {chains : List (List NodeId)} (chained : graph.Chained chains) {chain other : List NodeId}
  {node a b : NodeId}
include chained

theorem nodup_flatten : chains.flatten.Nodup := chained.perm.nodup_iff.mpr nodup_nodeIds

theorem nodup (listed : chain ∈ chains) : chain.Nodup := (List.nodup_flatten.mp chained.nodup_flatten).1 chain listed

theorem mem_nodeIds_iff : node ∈ graph.nodeIds ↔ ∃ chain ∈ chains, node ∈ chain := by
  rw [← chained.perm.mem_iff, List.mem_flatten]

theorem eq_of_mem (listed : chain ∈ chains) (listed' : other ∈ chains) (member : node ∈ chain)
    (member' : node ∈ other) : chain = other := by
  by_contra differ
  have symm : Std.Symm (List.Disjoint (α := NodeId)) := ⟨fun _ _ => List.Disjoint.symm⟩
  have disjoint := (List.nodup_flatten.mp chained.nodup_flatten).2.forall listed listed' differ
  exact disjoint member member'

theorem next (listed : chain ∈ chains) (member : a ∈ chain) (blocks : graph.Blocks .both a b) :
    b ∈ chain ∧ chain.idxOf b = chain.idxOf a + 1 := by
  obtain ⟨other, listed', pair⟩ := chained.only blocks
  obtain ⟨inside, inside', place⟩ := List.idxOf_of_infix_pair (chained.nodup listed') pair
  cases chained.eq_of_mem listed listed' member inside
  exact ⟨inside', place⟩

theorem acyclic : Acyclic (graph.Blocks .both) := by
  refine .of_rank chains.flatten.idxOf fun blocking blocked blocks => ?_
  obtain ⟨chain, listed, pair⟩ := chained.only blocks
  -- What is next to each other in a chain is so in the list of all chains.
  have pair : [blocking, blocked] <:+: chains.flatten := pair.trans (List.infix_of_mem_flatten listed)
  obtain ⟨-, -, place⟩ := List.idxOf_of_infix_pair chained.nodup_flatten pair
  omega

theorem walk (listed : chain ∈ chains) {rest : List NodeId} (member : node ∈ chain)
    (path : (node :: rest).IsChain (graph.Blocks .both)) :
    (∀ passed ∈ node :: rest, passed ∈ chain) ∧ chain.idxOf node + rest.length < chain.length := by
  induction rest generalizing node with
  | nil => exact ⟨by simpa using member, List.idxOf_lt_length_iff.mpr member⟩
  | cons step rest ih =>
    obtain ⟨blocks, path⟩ := List.isChain_cons_cons.mp path
    obtain ⟨member', place⟩ := chained.next listed member blocks
    obtain ⟨inside, short⟩ := ih member' path
    exact ⟨List.forall_mem_cons.mpr ⟨member, inside⟩, by simp only [List.length_cons]; omega⟩

theorem edgeWeight_eq (known : a ∈ graph.nodeIds) : graph.edgeWeight .hops a b = 1 := by
  obtain ⟨record, found⟩ := (graph.mem_nodeIds_iff a).mp known
  simp [edgeWeight, found, chained.weighs found]

theorem chainWeight_eq {rest : List NodeId} (path : (node :: rest).IsChain (graph.Blocks .both)) :
    chainWeight (graph.edgeWeight .hops) (node :: rest) = rest.length := by
  induction rest generalizing node with
  | nil => rfl
  | cons step rest ih =>
    obtain ⟨blocks, path⟩ := List.isChain_cons_cons.mp path
    rw [chainWeight, chained.edgeWeight_eq blocks.2.1, ih path, List.length_cons, Nat.add_comm]

theorem greatest_from (listed : chain ∈ chains) (member : node ∈ chain) :
    IsGreatest (weightsFrom (graph.Blocks .both) (graph.edgeWeight .hops) node)
      (chain.length - 1 - chain.idxOf node) := by
  have bound := List.idxOf_lt_length_iff.mpr member
  constructor
  next =>
    have tail := (chained.linear chain listed).drop (chain.idxOf node)
    rw [List.drop_eq_getElem_cons bound, List.getElem_idxOf] at tail
    exact ⟨_, tail, by rw [chained.chainWeight_eq tail, List.length_drop]; omega⟩
  next =>
    rintro _ ⟨rest, path, rfl⟩
    have short := (chained.walk listed member path).2
    rw [chained.chainWeight_eq path]
    omega

theorem greatest_through (listed : chain ∈ chains) (member : node ∈ chain) :
    IsGreatest (weightsThrough (graph.Blocks .both) (graph.edgeWeight .hops) node) (chain.length - 1) := by
  constructor
  next =>
    refine ⟨chain, chained.linear chain listed, member, ?_⟩
    cases chain with
    | nil => rfl
    | cons first rest => exact chained.chainWeight_eq (chained.linear _ listed)
  next =>
    rintro _ ⟨_ | ⟨first, rest⟩, path, passes, rfl⟩
    next => exact Nat.zero_le _
    next =>
      -- The path starts in some chain and stays in it, so that is the chain of the node.
      obtain ⟨other, listed', start⟩ : ∃ other ∈ chains, first ∈ other := by
        cases rest with
        | nil => exact ⟨chain, listed, List.mem_singleton.mp passes ▸ member⟩
        | cons step rest =>
          obtain ⟨other, listed', pair⟩ := chained.only (List.isChain_cons_cons.mp path).1
          exact ⟨other, listed', (List.idxOf_of_infix_pair (chained.nodup listed') pair).1⟩
      obtain ⟨inside, short⟩ := chained.walk listed' start path
      cases chained.eq_of_mem listed listed' member (inside node passes)
      rw [chained.chainWeight_eq path]
      omega

def Measured (metrics : PathMetrics) (chains : List (List NodeId)) : Prop :=
  ∀ chain ∈ chains, ∀ node ∈ chain,
    metrics.chainLength node = chain.length - 1 ∧ metrics.maxPath node = chain.length - 1 - chain.idxOf node

theorem exists_measured (linked : graph.Linked) (fits : graph.size ≤ Word.largest) :
    ∃ metrics, PathMetrics.compute graph (graph.dependencies .both) .hops = .ok metrics ∧ Measured metrics chains := by
  obtain ⟨metrics, computed, longest⟩ := exists_longest linked chained.acyclic .hops
  refine ⟨metrics, computed, fun chain listed node member => ?_⟩
  have short : chain.length ≤ Word.largest :=
    calc chain.length ≤ chains.flatten.length := (List.sublist_flatten_of_mem listed).length_le
      _ = graph.size := chained.perm.length_eq.trans graph.nodes.length_keys
      _ ≤ Word.largest := fits
  obtain ⟨⟨_, remaining, cut⟩, ⟨_, whole, cut'⟩⟩ := longest node (chained.mem_nodeIds_iff.mpr ⟨chain, listed, member⟩)
  rw [remaining.unique (chained.greatest_from listed member)] at cut
  rw [whole.unique (chained.greatest_through listed member)] at cut'
  omega

theorem eq_of_turns {byParent : Bool} {order : List NodeId} (nodup : order.Nodup)
    (ahead_iff : ∀ first ∈ chains, ∀ second ∈ chains, ∀ a ∈ first, ∀ b ∈ second,
      (order.idxOf a < order.idxOf b ↔ graph.Ahead byParent first a second b))
    (listed : chain ∈ chains) (listed' : other ∈ chains) (same : chain.length = other.length) (long : 1 < chain.length)
    (whole : chain <:+: order) (whole' : other <:+: order) : chain = other := by
  match chain, other, same, long with
  | c :: c' :: rest, d :: d' :: rest', same, _ =>
    have pair : [c, c'] <:+: c :: c' :: rest := (List.prefix_append [c, c'] rest).isInfix
    have pair' : [d, d'] <:+: d :: d' :: rest' := (List.prefix_append [d, d'] rest').isInfix
    obtain ⟨known, -, next⟩ := List.idxOf_of_infix_pair nodup (pair.trans whole)
    obtain ⟨-, -, next'⟩ := List.idxOf_of_infix_pair nodup (pair'.trans whole')
    obtain ⟨-, -, place⟩ := List.idxOf_of_infix_pair (chained.nodup listed) pair
    obtain ⟨-, -, place'⟩ := List.idxOf_of_infix_pair (chained.nodup listed') pair'
    rw [List.idxOf_cons_self] at place place'
    -- Each first node goes before the second one of the other chain, so the first nodes stand at one place.
    have before : order.idxOf c < order.idxOf d' :=
      (ahead_iff _ listed _ listed' c (by simp) d' (by simp)).mpr (Or.inr ⟨same, Or.inl (by simp [place'])⟩)
    have before' : order.idxOf d < order.idxOf c' :=
      (ahead_iff _ listed' _ listed d (by simp) c' (by simp)).mpr (Or.inr ⟨same.symm, Or.inl (by simp [place])⟩)
    have equal : c = d := (List.idxOf_inj known).mp (by omega)
    exact chained.eq_of_mem listed listed' List.mem_cons_self (equal ▸ List.mem_cons_self)

section Ranks

variable {metrics : PathMetrics} (measured : Measured metrics chains) {byParent : Bool} (listed : chain ∈ chains)
include measured listed

theorem precedes_iff_ahead (listed' : other ∈ chains) (member : a ∈ chain) (member' : b ∈ other) :
    precedes (metrics.key graph byParent) a b = true ↔ graph.Ahead byParent chain a other b := by
  have weighs (node : NodeId) : (!(graph.nodes.get? node).any Node.isLogicalNonDebug) = true := by
    cases found : graph.nodes.get? node with
    | none => rfl
    | some record => simp [chained.weighs found]
  obtain ⟨whole, remaining⟩ := measured chain listed a member
  obtain ⟨whole', remaining'⟩ := measured other listed' b member'
  have bound := List.idxOf_lt_length_iff.mpr member
  have bound' := List.idxOf_lt_length_iff.mpr member'
  -- Both keys weigh, so they are compared by chain, remaining path, parent and identifier.
  have unfolded : precedes (metrics.key graph byParent) a b = true ↔
      (((compare (metrics.chainLength b) (metrics.chainLength a)).then
        (compare (metrics.maxPath b) (metrics.maxPath a))).then
        (compare (graph.defaultKey byParent a) (graph.defaultKey byParent b))).then (compare a b) = .lt := by
    simp only [precedes, beq_iff_eq, PathMetrics.key, PathMetrics.priority, compare, weighs]
    rfl
  rw [unfolded, Ahead, precedes, beq_iff_eq]
  simp only [Ordering.then_eq_lt, Ordering.then_eq_eq, Nat.compare_eq_lt, Nat.compare_eq_eq, whole, whole', remaining,
    remaining']
  grind

theorem rankedBy_chain : RankedBy (metrics.key graph byParent) chain := by
  refine List.pairwise_iff_getElem.mpr fun i j first second before => ?_
  have nodup := chained.nodup listed
  refine (chained.precedes_iff_ahead measured listed listed (List.getElem_mem _) (List.getElem_mem _)).mpr ?_
  rw [Ahead, nodup.idxOf_getElem, nodup.idxOf_getElem]
  exact Or.inr ⟨rfl, Or.inl before⟩

theorem infix_rankByKey (alone : chain.length ≤ 1 ∨ ∀ other ∈ chains, chain.length = other.length → chain = other) :
    chain <:+: rankByKey (metrics.key graph byParent) graph.nodeIds := by
  have perm : (rankByKey (metrics.key graph byParent) graph.nodeIds).Perm graph.nodeIds := perm_rankByKey _
  have inside : ∀ x ∈ chain, x ∈ rankByKey (metrics.key graph byParent) graph.nodeIds :=
    fun x member => perm.mem_iff.mpr (chained.mem_nodeIds_iff.mpr ⟨chain, listed, member⟩)
  rcases alone with short | alone
  next =>
    match chain, short with
    | [], _ => exact List.nil_infix
    | [node], _ => exact (List.singleton_infix_iff node _).mpr (inside node (List.mem_singleton.mpr rfl))
  next =>
    by_cases nonempty : chain = []
    next => exact nonempty ▸ List.nil_infix
    next =>
      refine (RankedBy.rankByKey nodup_nodeIds).infix_of_apart (chained.rankedBy_chain measured listed) nonempty inside
        fun x known outside => ?_
      -- The chain of `x` is longer or shorter, and goes before or behind as a whole.
      obtain ⟨other, listed', member'⟩ := chained.mem_nodeIds_iff.mp (perm.mem_iff.mp known)
      have differ : chain.length ≠ other.length := fun same => outside (alone other listed' same ▸ member')
      rcases Nat.lt_or_gt_of_ne differ with shorter | longer
      next =>
        left
        exact fun y member => (chained.precedes_iff_ahead measured listed' listed member' member).mpr (Or.inl shorter)
      next =>
        right
        exact fun y member => (chained.precedes_iff_ahead measured listed listed' member member').mpr (Or.inl longer)

end Ranks

end Chained

theorem scheduleMaxPath_chains_take_turns {graph : Graph} (linked : graph.Linked) (fits : graph.size ≤ Word.largest)
    {chains : List (List NodeId)} (chained : graph.Chained chains) (byParent : Bool) :
    ∃ order, graph.scheduleMaxPath .hops byParent = .ok order ∧ order.Perm graph.nodeIds ∧
      (∀ first ∈ chains, ∀ second ∈ chains, ∀ a ∈ first, ∀ b ∈ second,
        (order.idxOf a < order.idxOf b ↔ graph.Ahead byParent first a second b)) ∧
      (∀ chain ∈ chains, (∀ other ∈ chains, chain.length = other.length → chain = other) → chain <:+: order) ∧
      ((∀ chain ∈ chains, chain <:+: order) ↔
        ∀ first ∈ chains, ∀ second ∈ chains, first.length = second.length → 1 < first.length → first = second) := by
  obtain ⟨metrics, computed, measured⟩ := chained.exists_measured linked fits
  have ranked : RankedBy (metrics.key graph byParent) (rankByKey (metrics.key graph byParent) graph.nodeIds) :=
    .rankByKey nodup_nodeIds
  have perm : (rankByKey (metrics.key graph byParent) graph.nodeIds).Perm graph.nodeIds := perm_rankByKey _
  have ran : graph.scheduleMaxPath .hops byParent = .ok (rankByKey (metrics.key graph byParent) graph.nodeIds) := by
    have sound := sound_network linked .both
    rw [scheduleMaxPath, computed, ← nodes_network .both]
    -- A step along a chain goes to a later place, so the ranks ascend along the relation and the run only sorts.
    refine BreadthFirst.run_ranked _ sound fun {a b} blocks => ?_
    have blocks : graph.Blocks .both a b := blocks_network linked .both ▸ blocks
    obtain ⟨chain, listed, member⟩ := chained.mem_nodeIds_iff.mp blocks.2.1
    obtain ⟨member', place⟩ := chained.next listed member blocks
    exact (chained.precedes_iff_ahead measured listed listed member member').mpr (Or.inr ⟨rfl, Or.inl (by omega)⟩)
  have ahead_iff : ∀ first ∈ chains, ∀ second ∈ chains, ∀ a ∈ first, ∀ b ∈ second,
      ((rankByKey (metrics.key graph byParent) graph.nodeIds).idxOf a <
        (rankByKey (metrics.key graph byParent) graph.nodeIds).idxOf b ↔ graph.Ahead byParent first a second b) := by
    intro first listed second listed' a member b member'
    have known := perm.mem_iff.mpr (chained.mem_nodeIds_iff.mpr ⟨first, listed, member⟩)
    have known' := perm.mem_iff.mpr (chained.mem_nodeIds_iff.mpr ⟨second, listed', member'⟩)
    rw [ranked.idxOf_lt_iff known known', chained.precedes_iff_ahead measured listed listed' member member']
  refine ⟨_, ran, perm, ahead_iff, fun chain listed alone => chained.infix_rankByKey measured listed (Or.inr alone), ?_⟩
  constructor
  next =>
    intro whole first listed second listed' same long
    have nodup := perm.nodup_iff.mpr nodup_nodeIds
    exact chained.eq_of_turns nodup ahead_iff listed listed' same long (whole first listed) (whole second listed')
  next =>
    intro differ chain listed
    refine chained.infix_rankByKey measured listed ((Nat.lt_or_ge 1 chain.length).symm.imp id fun long => ?_)
    exact fun other listed' same => differ chain listed other listed' same long

-- Two chains of two nodes and one of three beside a single node.
def strands : GraphDescription :=
  { tensors := [{ name := "loaded" }, { name := "read" }, { name := "fetched" }, { name := "scaled" }]
    nodes := [{ name := "load", outputs := ["loaded"] }, { name := "store", inputs := ["loaded"] },
      { name := "read", outputs := ["read"] }, { name := "write", inputs := ["read"] }, { name := "log" },
      { name := "fetch", outputs := ["fetched"] }, { name := "scale", inputs := ["fetched"], outputs := ["scaled"] },
      { name := "flush", inputs := ["scaled"] }] }

theorem scheduleMaxPath_strands :
    strands.graph.Chained [[⟨0⟩, ⟨1⟩], [⟨2⟩, ⟨3⟩], [⟨4⟩], [⟨5⟩, ⟨6⟩, ⟨7⟩]] ∧
    strands.graph.scheduleMaxPath .hops false = .ok [⟨5⟩, ⟨6⟩, ⟨7⟩, ⟨0⟩, ⟨2⟩, ⟨1⟩, ⟨3⟩, ⟨4⟩] ∧
    strands.graph.Ahead false [⟨2⟩, ⟨3⟩] ⟨2⟩ [⟨0⟩, ⟨1⟩] ⟨1⟩ ∧
    ¬ ∀ chain ∈ [[⟨0⟩, ⟨1⟩], [⟨2⟩, ⟨3⟩], [⟨4⟩], [⟨5⟩, ⟨6⟩, ⟨7⟩]],
      chain <:+: ([⟨5⟩, ⟨6⟩, ⟨7⟩, ⟨0⟩, ⟨2⟩, ⟨1⟩, ⟨3⟩, ⟨4⟩] : List NodeId) := by
  have linked := strands.consistent_graph.toLinked
  have chained : strands.graph.Chained [[⟨0⟩, ⟨1⟩], [⟨2⟩, ⟨3⟩], [⟨4⟩], [⟨5⟩, ⟨6⟩, ⟨7⟩]] :=
    .of_table linked (by decide) (by decide) (by decide) (by decide)
  have scheduled : strands.graph.scheduleMaxPath .hops false = .ok [⟨5⟩, ⟨6⟩, ⟨7⟩, ⟨0⟩, ⟨2⟩, ⟨1⟩, ⟨3⟩, ⟨4⟩] := rfl
  obtain ⟨order, ran, -, ahead_iff, -, whole_iff⟩ :=
    scheduleMaxPath_chains_take_turns linked (by decide) chained false
  cases scheduled.symm.trans ran
  refine ⟨chained, scheduled, ?_, fun whole => ?_⟩
  next => exact (ahead_iff _ (by simp) _ (by simp) _ (by simp) _ (by simp)).mp (by decide)
  next => exact absurd (whole_iff.mp whole [⟨0⟩, ⟨1⟩] (by simp) [⟨2⟩, ⟨3⟩] (by simp) rfl (by decide)) (by decide)

end Graph

end Dataflow
