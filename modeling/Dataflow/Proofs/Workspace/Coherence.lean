import Dataflow.Proofs.Description.Build
import Dataflow.Proofs.Graph.Controls
import Dataflow.Proofs.Schedule.Validity
import Dataflow.Proofs.Workspace.Basic
import Dataflow.Workspace.Coherence

set_option autoImplicit false

namespace Dataflow

open Relation

namespace Graph

def Touches (graph : Graph) (node : NodeId) (writes : Bool) (t : TensorId) : Prop :=
  ∃ record, graph.nodes.get? node = some record ∧ t ∈ (if writes then record.outputs else record.inputs)

def Holds (graph : Graph) (t real : TensorId) (byte : Nat) : Prop :=
  ∃ tensor offset, graph.tensors.get? t = some tensor ∧ graph.Resolves t real offset ∧
    offset ≤ byte ∧ byte < offset + tensor.sizeBytes

def Conflict (graph : Graph) (first second : NodeId) : Prop :=
  first ≠ second ∧ ∃ t u firstWrites secondWrites real byte,
    graph.Touches first firstWrites t ∧ graph.Touches second secondWrites u ∧ t ≠ u ∧
    (firstWrites = true ∨ secondWrites = true) ∧ graph.Holds t real byte ∧ graph.Holds u real byte

def EndsFit (graph : Graph) : Prop :=
  ∀ {node writes t tensor real offset}, graph.Touches node writes t → graph.tensors.get? t = some tensor →
    graph.Resolves t real offset → offset + tensor.sizeBytes ≤ Word.largest

theorem Conflict.known {graph : Graph} {first second : NodeId} (conflict : graph.Conflict first second) :
    first ∈ graph.nodeIds ∧ second ∈ graph.nodeIds := by
  obtain ⟨-, t, u, _, _, _, _, ⟨record, found, -⟩, ⟨record', found', -⟩, -⟩ := conflict
  exact ⟨Table.mem_keys_of_get? found, Table.mem_keys_of_get? found'⟩

end Graph

namespace MemoryAccess

variable {first second : MemoryAccess}

def Clashes (first second : MemoryAccess) : Prop :=
  first.real = second.real ∧ first.node ≠ second.node ∧ first.tensor ≠ second.tensor ∧
    (first.writes = true ∨ second.writes = true) ∧
    ∃ byte, (first.offset ≤ byte ∧ byte < first.offset + first.size) ∧
      second.offset ≤ byte ∧ byte < second.offset + second.size

theorem Clashes.symm (clashes : first.Clashes second) : second.Clashes first := by
  obtain ⟨real, node, tensor, writes, byte, left, right⟩ := clashes
  exact ⟨real.symm, node.symm, tensor.symm, writes.symm, byte, right, left⟩

theorem overlaps_ok (firstFits : first.offset + first.size ≤ Word.largest)
    (secondFits : second.offset + second.size ≤ Word.largest) :
    ∃ answer, first.overlaps second = .ok answer ∧
      (answer = true ↔ ∃ byte, (first.offset ≤ byte ∧ byte < first.offset + first.size) ∧
        second.offset ≤ byte ∧ byte < second.offset + second.size) := by
  have firstEnd : Word.checkedAdd first.offset first.size = .ok (first.offset + first.size) := if_pos firstFits
  have secondEnd : Word.checkedAdd second.offset second.size = .ok (second.offset + second.size) := if_pos secondFits
  unfold overlaps
  rw [firstEnd, secondEnd]
  simp only [bind, Except.bind]
  split
  next empty =>
    refine ⟨false, rfl, ?_⟩
    simp only [Bool.or_eq_true, decide_eq_true_iff] at empty
    simp only [Bool.false_eq_true, false_iff, not_exists]
    intro byte
    omega
  next occupied =>
    simp only [Bool.or_eq_true, decide_eq_true_iff, not_or] at occupied
    split
    next ahead =>
      refine ⟨false, rfl, ?_⟩
      simp only [Bool.false_eq_true, false_iff, not_exists]
      intro byte
      omega
    next =>
      refine ⟨_, rfl, ?_⟩
      rw [decide_eq_true_iff]
      constructor
      next =>
        intro before
        exact ⟨max first.offset second.offset, by omega, by omega⟩
      next =>
        rintro ⟨byte, left, right⟩
        omega

theorem conflicts_ok (firstFits : first.offset + first.size ≤ Word.largest)
    (secondFits : second.offset + second.size ≤ Word.largest) :
    ∃ answer, first.conflicts second = .ok answer ∧ (answer = true ↔ first.Clashes second) := by
  unfold conflicts Clashes
  split
  next unrelated =>
    refine ⟨false, rfl, ?_⟩
    simp only [ne_eq, decide_not, Bool.or_eq_true, Bool.not_eq_true', decide_eq_false_iff_not, decide_eq_true_iff] at unrelated
    simp only [Bool.false_eq_true, false_iff]
    rintro ⟨real, node, tensor, -⟩
    rcases unrelated with (other | same) | same
    next => exact other real
    next => exact node same
    next => exact tensor same
  next related =>
    split
    next reads =>
      refine ⟨false, rfl, ?_⟩
      simp only [Bool.false_eq_true, false_iff]
      rintro ⟨-, -, -, writes, -⟩
      simp_all
    next writes =>
      obtain ⟨answer, answered, iff⟩ := overlaps_ok firstFits secondFits
      have oneWrites : first.writes = true ∨ second.writes = true := by
        cases firstWrites : first.writes with
        | true => exact Or.inl rfl
        | false => exact Or.inr (by simpa [firstWrites] using writes)
      simp only [ne_eq, decide_not, Bool.or_eq_true, Bool.not_eq_true', decide_eq_false_iff_not, decide_eq_true_iff,
        not_or, not_not] at related
      exact ⟨answer, answered, iff.trans ⟨fun shared => ⟨related.1.1, related.1.2, related.2, oneWrites, shared⟩,
        fun clash => clash.2.2.2.2⟩⟩

end MemoryAccess

theorem conflictingPairs_ok {accesses : List MemoryAccess}
    (fit : ∀ access ∈ accesses, access.offset + access.size ≤ Word.largest) :
    ∃ pairs, conflictingPairs accesses = .ok pairs ∧ ∀ a b, (a, b) ∈ pairs ↔
      ∃ first second, [first, second].Sublist accesses ∧ first.Clashes second ∧ first.node = a ∧ second.node = b := by
  induction accesses with
  | nil => exact ⟨[], rfl, by simp⟩
  | cons head rest ih =>
    obtain ⟨later, found, later_iff⟩ := ih fun access member => fit access (.tail _ member)
    obtain ⟨clashing, filtered, clashing_iff⟩ := filterM_ok (f := head.conflicts) (P := head.Clashes)
      fun access (member : access ∈ rest) =>
        MemoryAccess.conflicts_ok (fit head (.head _)) (fit access (.tail _ member))
    refine ⟨clashing.map (fun second => (head.node, second.node)) ++ later, ?_, fun a b => ?_⟩
    next =>
      rw [conflictingPairs, filtered, found]
      rfl
    next =>
      rw [List.mem_append, later_iff, List.mem_map]
      constructor
      next =>
        rintro (⟨second, member, equal⟩ | ⟨first, second, pair, clash, ends⟩)
        next =>
          cases equal
          obtain ⟨member, clash⟩ := (clashing_iff second).mp member
          exact ⟨head, second, .cons_cons _ (List.singleton_sublist.mpr member), clash, rfl, rfl⟩
        next => exact ⟨first, second, pair.cons _, clash, ends⟩
      next =>
        rintro ⟨first, second, pair, clash, rfl, rfl⟩
        cases pair with
        | cons _ pair => exact Or.inr ⟨first, second, pair, clash, rfl, rfl⟩
        | cons_cons _ single =>
          refine Or.inl ⟨second, (clashing_iff second).mpr ⟨List.singleton_sublist.mp single, clash⟩, rfl⟩

namespace Graph

variable {graph : Graph}

def accessOf (graph : Graph) (node : NodeId) (writes : Bool) (t : TensorId) : Option MemoryAccess :=
  (graph.tensors.get? t).map fun found =>
    { node, tensor := t, real := graph.realTensor t, offset := (graph.chainOffsets graph.tensors.size t).sum
      size := found.sizeBytes, writes }

def accessesOf (graph : Graph) (node : Node) : List MemoryAccess :=
  node.inputs.filterMap (graph.accessOf node.id false) ++ node.outputs.filterMap (graph.accessOf node.id true)

theorem access?_eq (linked : graph.Linked) (ends : graph.EndsFit) {node : NodeId} {writes : Bool} {t : TensorId}
    (touches : graph.Touches node writes t) : graph.access? node writes t = .ok (graph.accessOf node writes t) := by
  unfold access? accessOf
  cases found : graph.tensors.get? t with
  | none => rfl
  | some tensor =>
    have fits := ends touches found (resolves_realTensor linked t)
    dsimp only
    rw [realOffset_of_le (by omega)]
    rfl

theorem accesses_eq (linked : graph.Linked) (ends : graph.EndsFit) {node : Node}
    (present : graph.nodes.get? node.id = some node) : graph.accesses node = .ok (graph.accessesOf node) := by
  have reads : node.inputs.mapM (graph.access? node.id false) = .ok (node.inputs.map (graph.accessOf node.id false)) :=
    mapM_of_ok fun t listed => access?_eq linked ends ⟨node, present, listed⟩
  have writes : node.outputs.mapM (graph.access? node.id true) = .ok (node.outputs.map (graph.accessOf node.id true)) :=
    mapM_of_ok fun t listed => access?_eq linked ends ⟨node, present, listed⟩
  unfold accesses
  rw [reads, writes]
  simp only [bind, Except.bind, pure, Except.pure, accessesOf, List.filterMap_append, List.filterMap_map]
  rfl

theorem mem_accessesOf {node : Node} {access : MemoryAccess} : access ∈ graph.accessesOf node ↔
    ∃ t writes, t ∈ (if writes then node.outputs else node.inputs) ∧ graph.accessOf node.id writes t = some access := by
  simp [accessesOf, exists_or]

def allAccesses (graph : Graph) : List MemoryAccess := (graph.nodes.values.map graph.accessesOf).flatten

theorem mem_allAccesses (linked : graph.Linked) {access : MemoryAccess} : access ∈ graph.allAccesses ↔
    ∃ node t writes, graph.Touches node writes t ∧ graph.accessOf node writes t = some access := by
  simp only [allAccesses, List.mem_flatten, List.mem_map, Table.mem_values_iff]
  constructor
  next =>
    rintro ⟨_, ⟨record, ⟨id, found⟩, rfl⟩, member⟩
    obtain ⟨t, writes, listed, equal⟩ := mem_accessesOf.mp member
    cases linked.nodeKey found
    exact ⟨record.id, t, writes, ⟨record, found, listed⟩, equal⟩
  next =>
    rintro ⟨node, t, writes, ⟨record, found, listed⟩, equal⟩
    cases linked.nodeKey found
    exact ⟨_, ⟨record, ⟨record.id, found⟩, rfl⟩, mem_accessesOf.mpr ⟨t, writes, listed, equal⟩⟩

theorem accessOf_eq_some {node : NodeId} {writes : Bool} {t : TensorId} {access : MemoryAccess}
    (equal : graph.accessOf node writes t = some access) : ∃ tensor, graph.tensors.get? t = some tensor ∧
      access = { node, tensor := t, real := graph.realTensor t
                 offset := (graph.chainOffsets graph.tensors.size t).sum, size := tensor.sizeBytes, writes } := by
  obtain ⟨tensor, found, rfl⟩ := Option.map_eq_some_iff.mp equal
  exact ⟨tensor, found, rfl⟩

theorem pairwise_allAccesses (linked : graph.Linked) :
    graph.allAccesses.Pairwise fun first second => first.node.val ≤ second.node.val := by
  have own {node : Node} {access : MemoryAccess} (member : access ∈ graph.accessesOf node) : access.node = node.id := by
    obtain ⟨t, writes, -, equal⟩ := mem_accessesOf.mp member
    obtain ⟨tensor, -, rfl⟩ := accessOf_eq_some equal
    rfl
  unfold allAccesses
  rw [List.pairwise_flatten, List.pairwise_map]
  constructor
  next =>
    intro group listed
    obtain ⟨node, -, rfl⟩ := List.mem_map.mp listed
    refine List.pairwise_of_forall_mem_list fun first member second member' => ?_
    rw [own member, own member']
  next =>
    have ascending : graph.nodes.values.Pairwise fun first second => first.id.val < second.id.val := by
      rw [← List.pairwise_map (f := Node.id) (R := fun first second => first.val < second.val), linked.map_id_nodes]
      exact graph.nodes.ascending_keys
    refine ascending.imp fun less first member second member' => ?_
    rw [own member, own member']
    exact Nat.le_of_lt less

theorem clashes_iff (linked : graph.Linked) {a b : NodeId} :
    (∃ first ∈ graph.allAccesses, ∃ second ∈ graph.allAccesses, first.Clashes second ∧ first.node = a ∧ second.node = b) ↔
      graph.Conflict a b := by
  constructor
  next =>
    rintro ⟨first, member, second, member', clash, rfl, rfl⟩
    obtain ⟨node, t, firstWrites, touches, equal⟩ := (mem_allAccesses linked).mp member
    obtain ⟨tensor, found, rfl⟩ := accessOf_eq_some equal
    obtain ⟨node', u, secondWrites, touches', equal'⟩ := (mem_allAccesses linked).mp member'
    obtain ⟨tensor', found', rfl⟩ := accessOf_eq_some equal'
    obtain ⟨real, nodes, tensors, writes, byte, left, right⟩ := clash
    refine ⟨nodes, t, u, firstWrites, secondWrites, graph.realTensor t, byte, touches, touches', tensors, writes, ?_, ?_⟩
    next => exact ⟨tensor, _, found, resolves_realTensor linked t, left⟩
    next =>
      dsimp only at real
      rw [real]
      exact ⟨tensor', _, found', resolves_realTensor linked u, right⟩
  next =>
    rintro ⟨differ, t, u, firstWrites, secondWrites, real, byte, touches, touches', tensors, writes, holds, holds'⟩
    obtain ⟨tensor, offset, found, resolves, left⟩ := holds
    obtain ⟨tensor', offset', found', resolves', right⟩ := holds'
    obtain ⟨rfl, rfl⟩ := resolves.unique (resolves_realTensor linked t)
    obtain ⟨same, rfl⟩ := resolves'.unique (resolves_realTensor linked u)
    exact ⟨_, (mem_allAccesses linked).mpr ⟨a, t, firstWrites, touches, by rw [accessOf, found]; rfl⟩,
      _, (mem_allAccesses linked).mpr ⟨b, u, secondWrites, touches', by rw [accessOf, found']; rfl⟩,
      ⟨same, differ, tensors, writes, byte, left, right⟩, rfl, rfl⟩

theorem conflicts_ok (linked : graph.Linked) (ends : graph.EndsFit) :
    ∃ pairs, graph.conflicts = .ok pairs ∧
      (∀ pair ∈ pairs, graph.Conflict pair.1 pair.2 ∧ pair.1.val < pair.2.val) ∧
      ∀ a b, graph.Conflict a b → (a, b) ∈ pairs ∨ (b, a) ∈ pairs := by
  have gathered : graph.nodes.values.mapM graph.accesses = .ok (graph.nodes.values.map graph.accessesOf) := by
    refine mapM_of_ok fun node member => ?_
    obtain ⟨id, found⟩ := (Table.mem_values_iff _ _).mp member
    exact accesses_eq linked ends (by rwa [linked.nodeKey found])
  have fit : ∀ access ∈ graph.allAccesses, access.offset + access.size ≤ Word.largest := by
    intro access member
    obtain ⟨node, t, writes, touches, equal⟩ := (mem_allAccesses linked).mp member
    obtain ⟨tensor, found, rfl⟩ := accessOf_eq_some equal
    exact ends touches found (resolves_realTensor linked t)
  obtain ⟨found, answered, found_iff⟩ := conflictingPairs_ok fit
  -- The rows of the nodes, one after the other, hold the pairs that were found and no others.
  have mem_iff (a b : NodeId) : (a, b) ∈ (graph.nodeIds.flatMap fun node =>
      (Ranked.ascending ((found.filter fun pair => pair.1 = node).map Prod.snd)).map fun other => (node, other)) ↔
        a ∈ graph.nodeIds ∧ (a, b) ∈ found := by
    simp only [List.mem_flatMap, List.mem_map, Ranked.mem_ascending, List.mem_filter, decide_eq_true_iff, Prod.mk.injEq,
      Prod.exists, exists_eq_right]
    constructor
    next => rintro ⟨node, there, other, listed, rfl, rfl⟩; exact ⟨there, listed⟩
    next => rintro ⟨there, listed⟩; exact ⟨a, there, b, listed, rfl, rfl⟩
  refine ⟨_, by rw [conflicts, gathered]; simp only [bind, Except.bind]; rw [← allAccesses, answered]; rfl, ?_, ?_⟩
  next =>
    rintro ⟨a, b⟩ listed
    obtain ⟨first, second, pair, clash, rfl, rfl⟩ := (found_iff a b).mp ((mem_iff a b).mp listed).2
    have members := pair.subset
    refine ⟨(clashes_iff linked).mp ⟨first, members (by simp), second, members (by simp), clash, rfl, rfl⟩, ?_⟩
    -- The first access of a pair belongs to the node that comes first, which has the lesser identifier.
    have before := (pairwise_allAccesses linked).sublist pair
    have differ : first.node.val ≠ second.node.val := fun same => clash.2.1 (Ident.ext same)
    have least : first.node.val ≤ second.node.val := by simpa using before
    exact Nat.lt_of_le_of_ne least differ
  next =>
    intro a b conflict
    obtain ⟨first, member, second, member', clash, rfl, rfl⟩ := (clashes_iff linked).mpr conflict
    have known {access : MemoryAccess} (member : access ∈ graph.allAccesses) : access.node ∈ graph.nodeIds := by
      obtain ⟨node, t, writes, ⟨record, present, -⟩, equal⟩ := (mem_allAccesses linked).mp member
      obtain ⟨tensor, -, rfl⟩ := accessOf_eq_some equal
      exact Table.mem_keys_of_get? present
    rcases List.sublist_pair_of_mem member member' (fun same => clash.2.1 (by rw [same])) with pair | pair
    next => exact Or.inl ((mem_iff _ _).mpr ⟨known member, (found_iff _ _).mpr ⟨first, second, pair, clash, rfl, rfl⟩⟩)
    next => exact Or.inr ((mem_iff _ _).mpr ⟨known member', (found_iff _ _).mpr ⟨second, first, pair, clash.symm, rfl, rfl⟩⟩)

variable {after : Graph} {pairs : List (NodeId × NodeId)}

theorem GainsControls.touches (gains : GainsControls .memory graph pairs after) {node : NodeId} {writes : Bool}
    {t : TensorId} (touches : after.Touches node writes t) : graph.Touches node writes t := by
  obtain ⟨record, found, listed⟩ := touches
  obtain ⟨before, present, _, _, rfl⟩ := gains.get?_nodes found
  exact ⟨before, present, listed⟩

theorem GainsControls.touched (gains : GainsControls .memory graph pairs after) (consistent : graph.Consistent)
    {node : NodeId} {writes : Bool} {t : TensorId} {tensor : Tensor} (touches : graph.Touches node writes t)
    (found : after.tensors.get? t = some tensor) : graph.tensors.get? t = some tensor := by
  obtain ⟨record, present, listed⟩ := touches
  obtain ⟨before, there⟩ : ∃ before, graph.tensors.get? t = some before := by
    apply consistent.listed present
    cases writes with
    | false => exact Or.inl (List.mem_append_left _ listed)
    | true => exact Or.inr (List.mem_append_left _ listed)
  rw [there, ← gains.get?_tensors consistent there, found]

theorem GainsControls.conflict (gains : GainsControls .memory graph pairs after) (consistent : graph.Consistent)
    {a b : NodeId} (conflict : after.Conflict a b) : graph.Conflict a b := by
  have kept {node : NodeId} {writes : Bool} {t real : TensorId} {byte : Nat} (touches : graph.Touches node writes t)
      (holds : after.Holds t real byte) : graph.Holds t real byte := by
    obtain ⟨tensor, offset, found, resolves, inside⟩ := holds
    exact ⟨tensor, offset, gains.touched consistent touches found,
      resolves.congr (gains.view?_eq consistent).symm, inside⟩
  obtain ⟨differ, t, u, firstWrites, secondWrites, real, byte, left, right, apart, writes, holds, holds'⟩ := conflict
  exact ⟨differ, t, u, firstWrites, secondWrites, real, byte, gains.touches left, gains.touches right, apart, writes,
    kept (gains.touches left) holds, kept (gains.touches right) holds'⟩

theorem GainsControls.endsFit (gains : GainsControls .memory graph pairs after) (consistent : graph.Consistent)
    (ends : graph.EndsFit) : after.EndsFit := by
  intro node writes t tensor real offset touches found resolves
  have before := gains.touches touches
  exact ends before (gains.touched consistent before found) (resolves.congr (gains.view?_eq consistent).symm)

def Joined (graph : Graph) (pair : NodeId × NodeId) : Prop :=
  ReflTransGen (graph.Blocks .both) pair.1 pair.2 ∨ ReflTransGen (graph.Blocks .both) pair.2 pair.1

theorem Joined.mono {pair : NodeId × NodeId} (joined : graph.Joined pair)
    (grows : ∀ a b, graph.Blocks .both a b → after.Blocks .both a b) : after.Joined pair :=
  joined.imp (ReflTransGen.mono grows _ _) (ReflTransGen.mono grows _ _)

end Graph

namespace Workspace

variable {graph : Graph} {workspace : Workspace}

structure Registering (graph : Graph) (handled : List (NodeId × NodeId)) (added : Nat) (workspace : Workspace) :
    Prop where
  gains : ∃ pairs, graph.GainsControls .memory pairs workspace.graph ∧ pairs.length = added ∧
    ∀ pair ∈ pairs, graph.Conflict pair.1 pair.2 ∧ pair.1.val < pair.2.val
  joined : ∀ pair ∈ handled, workspace.graph.Joined pair
  plane : workspace.plane = none

theorem Registering.orderPair_ok {handled : List (NodeId × NodeId)} {added : Nat} (consistent : graph.Consistent)
    (sofar : Registering graph handled added workspace) {pair : NodeId × NodeId}
    (conflict : graph.Conflict pair.1 pair.2) (less : pair.1.val < pair.2.val) :
    ∃ count after, orderPair added pair workspace = .ok count after ∧
      Registering graph (handled ++ [pair]) count after := by
  obtain ⟨⟨pairs, gains, counted, ascending⟩, joined, plane⟩ := sofar
  have consistent := gains.consistent consistent
  obtain ⟨firstThere, secondThere⟩ := conflict.known
  rw [← gains.nodeIds_eq] at firstThere secondThere
  unfold orderPair
  rw [stateful_get_bind]
  split
  next ordered =>
    refine ⟨added, workspace, rfl, ⟨pairs, gains, counted, ascending⟩, ?_, plane⟩
    intro other member
    rcases List.mem_append.mp member with old | new
    next => exact joined other old
    next =>
      cases List.mem_singleton.mp new
      -- Nothing is added where one of the two already reaches the other.
      rw [Bool.or_eq_true, Graph.reaches_iff consistent.toLinked firstThere,
        Graph.reaches_iff consistent.toLinked secondThere] at ordered
      exact ordered
  next apart =>
    have apart : workspace.graph.reaches pair.2 pair.1 = false := by
      rw [Bool.or_eq_true, not_or] at apart
      simpa using apart.2
    have differ : pair.1 ≠ pair.2 := fun same => Nat.lt_irrefl _ (same ▸ less)
    have tracks : workspace.Tracks := by
      intro attached some
      rw [plane] at some
      cases some
    obtain ⟨after, edited, graph_eq, -, kept⟩ :=
      addControlEdge_ok consistent tracks .memory differ firstThere secondThere apart
    have blocks := Graph.blocks_withControl consistent.toLinked .memory differ firstThere secondThere
    refine ⟨added + 1, after, ?_, ⟨⟨pairs ++ [pair], ?_, by simp [counted], ?_⟩, ?_, kept plane⟩⟩
    next =>
      rw [stateful_bind_of_ok _ (stateful_discard_eq_ok.mpr ⟨_, edited⟩)]
      rfl
    next =>
      rw [graph_eq]
      exact gains.more differ firstThere secondThere apart
    next =>
      intro other member
      rcases List.mem_append.mp member with old | new
      next => exact ascending other old
      next => cases List.mem_singleton.mp new; exact ⟨conflict, less⟩
    next =>
      intro other member
      rw [graph_eq]
      rcases List.mem_append.mp member with old | new
      -- The pairs of before stay joined, since edges are only added.
      next => exact (joined other old).mono fun a b step => (blocks a b).mpr (Or.inl step)
      next =>
        cases List.mem_singleton.mp new
        exact Or.inl (.single ((blocks _ _).mpr (Or.inr ⟨rfl, rfl⟩)))

theorem registerCoherence_ok (consistent : graph.Consistent) (ends : graph.EndsFit) :
    ∃ count after pairs, registerCoherence { graph } = .ok count { graph := after } ∧
      graph.GainsControls .memory pairs after ∧ pairs.length = count ∧
      (∀ pair ∈ pairs, graph.Conflict pair.1 pair.2 ∧ pair.1.val < pair.2.val) ∧
      ∀ a b, graph.Conflict a b → after.Joined (a, b) := by
  obtain ⟨found, answered, conflicts, complete⟩ := Graph.conflicts_ok consistent.toLinked ends
  obtain ⟨count, ⟨after, plane⟩, folded, ⟨pairs, gains, counted, ascending⟩, joined, none⟩ :
      ∃ count after, found.foldlM orderPair 0 { graph } = .ok count after ∧ Registering graph found count after := by
    apply stateful_foldlM_succeeds (Registering graph)
    case start => exact ⟨⟨[], .nothing, rfl, by simp⟩, by simp, rfl⟩
    case steps =>
      intro done pair rest added state split sofar
      obtain ⟨conflict, less⟩ := conflicts pair (by rw [split]; simp)
      exact sofar.orderPair_ok consistent conflict less
  cases none
  refine ⟨count, after, pairs, ?_, gains, counted, ascending, ?_⟩
  next =>
    unfold registerCoherence
    rw [stateful_get_bind]
    dsimp only
    rw [answered]
    exact folded
  next =>
    intro a b conflict
    rcases complete a b conflict with listed | listed
    next => exact joined _ listed
    next => exact (joined _ listed).symm

theorem registerCoherence_of_joined (linked : graph.Linked) (ends : graph.EndsFit)
    (joined : ∀ a b, graph.Conflict a b → graph.Joined (a, b)) :
    registerCoherence { graph } = .ok 0 { graph } := by
  obtain ⟨found, answered, conflicts, -⟩ := Graph.conflicts_ok linked ends
  obtain ⟨count, after, folded, rfl, rfl⟩ : ∃ count after, found.foldlM orderPair 0 { graph } = .ok count after ∧
      count = 0 ∧ after = { graph } := by
    apply stateful_foldlM_succeeds fun _ (count : Nat) (after : Workspace) => count = 0 ∧ after = { graph }
    case start => exact ⟨rfl, rfl⟩
    case steps =>
      rintro done pair rest _ _ split ⟨rfl, rfl⟩
      obtain ⟨conflict, -⟩ := conflicts pair (by rw [split]; simp)
      obtain ⟨firstThere, secondThere⟩ := conflict.known
      have ordered : (graph.reaches pair.1 pair.2 || graph.reaches pair.2 pair.1) = true := by
        rw [Bool.or_eq_true, Graph.reaches_iff linked firstThere, Graph.reaches_iff linked secondThere]
        exact joined _ _ conflict
      refine ⟨0, { graph }, ?_, rfl, rfl⟩
      unfold orderPair
      rw [stateful_get_bind, if_pos ordered]
      rfl
  unfold registerCoherence
  rw [stateful_get_bind]
  dsimp only
  rw [answered]
  exact folded

theorem registerCoherence_orders_conflicts (consistent : graph.Consistent) (ends : graph.EndsFit) :
    ∃ (count : Nat) (after : Graph) (pairs : List (NodeId × NodeId)),
      registerCoherence { graph } = .ok count { graph := after } ∧
      (∀ a b, graph.Conflict a b →
        ReflTransGen (after.Blocks .both) a b ∨ ReflTransGen (after.Blocks .both) b a) ∧
      (Acyclic (graph.Blocks .both) → Acyclic (after.Blocks .both)) ∧
      (∀ a b, graph.Conflict a b → ∀ order other, after.IsSchedule order → after.IsSchedule other →
        (order.idxOf a < order.idxOf b ↔ other.idxOf a < other.idxOf b)) ∧
      after = pairs.foldl (fun graph pair => graph.withControl pair.1 pair.2 .memory) graph ∧
      pairs.length = count ∧ (∀ pair ∈ pairs, graph.Conflict pair.1 pair.2 ∧ pair.1.val < pair.2.val) ∧
      registerCoherence { graph := after } = .ok 0 { graph := after } := by
  obtain ⟨count, after, pairs, registered, gains, counted, ascending, joined⟩ := registerCoherence_ok consistent ends
  refine ⟨count, after, pairs, registered, joined, (gains.acyclic_iff consistent).mpr, ?_, gains.eq_foldl, counted,
    ascending, ?_⟩
  next =>
    intro a b conflict order other valid valid'
    have differ := conflict.1
    rcases joined a b conflict with path | path
    next =>
      have steps := (reflTransGen_iff_eq_or_transGen.mp path).resolve_left differ.symm
      exact iff_of_true (valid.idxOf_lt_of_path steps) (valid'.idxOf_lt_of_path steps)
    next =>
      have steps := (reflTransGen_iff_eq_or_transGen.mp path).resolve_left differ
      have first := valid.idxOf_lt_of_path steps
      have second := valid'.idxOf_lt_of_path steps
      exact iff_of_false (Nat.lt_asymm first) (Nat.lt_asymm second)
  next =>
    have again := (gains.consistent consistent).toLinked
    exact registerCoherence_of_joined again (gains.endsFit consistent ends)
      fun a b conflict => joined a b (gains.conflict consistent conflict)

-- Two nodes write one buffer, the second through a view of its upper half.
def halves : GraphDescription :=
  { tensors := [{ name := "buffer", sizeBytes := 8 }, { name := "upper", sizeBytes := 4, aliasOf := "buffer", offset := 4 }]
    nodes := [{ name := "clear", outputs := ["buffer"] }, { name := "fill", outputs := ["upper"] }] }

theorem registerCoherence_halves : halves.graph.Conflict ⟨0⟩ ⟨1⟩ ∧
    ∃ count after, registerCoherence { graph := halves.graph } = .ok count { graph := after } ∧
      (ReflTransGen (after.Blocks .both) ⟨0⟩ ⟨1⟩ ∨ ReflTransGen (after.Blocks .both) ⟨1⟩ ⟨0⟩) := by
  have consistent := halves.consistent_graph
  have ends : halves.graph.EndsFit := by
    intro node writes t tensor real offset _ found resolves
    have each : ∀ entry ∈ halves.graph.tensors.entries,
        (halves.graph.chainOffsets halves.graph.tensors.size entry.1).sum + entry.2.sizeBytes ≤ Word.largest := by decide
    rw [(resolves.unique (Graph.resolves_realTensor consistent.toLinked t)).2]
    exact each (t, tensor) ((Table.mem_entries_iff _ _ _).mpr found)
  have viewed : halves.graph.view? ⟨1⟩ = some { real := ⟨0⟩, offset := 4 } := rfl
  have upper : halves.graph.Resolves ⟨1⟩ ⟨0⟩ 4 := .view viewed (.real rfl)
  have conflict : halves.graph.Conflict ⟨0⟩ ⟨1⟩ :=
    ⟨by decide, ⟨0⟩, ⟨1⟩, true, true, ⟨0⟩, 4, ⟨_, rfl, by decide⟩, ⟨_, rfl, by decide⟩, by decide, Or.inl rfl,
      ⟨_, 0, rfl, .real rfl, by decide, by decide⟩, ⟨_, 4, rfl, upper, by decide, by decide⟩⟩
  obtain ⟨count, after, -, registered, joined, -⟩ := registerCoherence_orders_conflicts consistent ends
  exact ⟨conflict, count, after, registered, joined _ _ conflict⟩

end Workspace

end Dataflow
