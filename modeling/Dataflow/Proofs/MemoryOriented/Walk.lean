import Dataflow.Proofs.Graph.Consistent
import Dataflow.Proofs.Results
import Dataflow.Proofs.Schedule.Placement
import Dataflow.Proofs.Schedule.Traversal
import Dataflow.Schedule.MemoryOriented
import Mathlib.Algebra.Order.BigOperators.Group.List
import Mathlib.Algebra.Order.Group.Nat
import Mathlib.Algebra.GroupWithZero.Nat

set_option autoImplicit false

namespace Dataflow

open Relation

theorem Word.foldlM_checkedAdd {summands : List Nat} {total : Nat}
    (fits : total + summands.sum ≤ Word.largest) :
    summands.foldlM Word.checkedAdd total = .ok (total + summands.sum) := by
  induction summands generalizing total with
  | nil => rfl
  | cons head rest ih =>
    rw [List.sum_cons, ← Nat.add_assoc] at fits ⊢
    have within : total + head ≤ Word.largest := Nat.le_trans (Nat.le_add_right _ _) fits
    rw [foldlM_cons_ok rest (show Word.checkedAdd total head = .ok (total + head) by
      rw [Word.checkedAdd, if_pos within]), ih fits]

namespace Graph

def totalSize (graph : Graph) (tensors : List TensorId) : Nat :=
  ((tensors.filterMap graph.tensors.get?).map Tensor.sizeBytes).sum

def SizesFit (graph : Graph) : Prop :=
  ∀ id node, graph.nodes.get? id = some node →
    graph.totalSize node.inputs ≤ Word.largest ∧ graph.totalSize node.outputs ≤ Word.largest

variable {graph : Graph}

theorem totalSize_filter_le (graph : Graph) (keep : TensorId → Bool) (tensors : List TensorId) :
    graph.totalSize (tensors.filter keep) ≤ graph.totalSize tensors := by
  apply List.Sublist.sum_le_sum
  next => exact (List.filter_sublist.filterMap _).map _
  next => simp

theorem bytes_ok {tensors : List TensorId} (fits : graph.totalSize tensors ≤ Word.largest) :
    ∃ bytes, graph.bytes tensors = .ok bytes := by
  rw [← Nat.zero_add (graph.totalSize tensors)] at fits
  exact ⟨_, by rw [bytes, Word.checkedSum, Word.foldlM_checkedAdd fits]; rfl⟩

theorem SizesFit.liveBytesDelta_ok (fits : graph.SizesFit) {id : NodeId} {node : Node}
    (found : graph.nodes.get? id = some node) : ∃ delta, graph.liveBytesDelta node = .ok delta := by
  obtain ⟨inputs, outputs⟩ := fits id node found
  obtain ⟨produced, made⟩ := bytes_ok outputs
  obtain ⟨released, freed⟩ := bytes_ok (Nat.le_trans (graph.totalSize_filter_le
    (fun t => (graph.tensorConsumers t).length = 1) node.inputs) inputs)
  exact ⟨produced - released, by simp only [liveBytesDelta, made, freed, bind, Except.bind]; rfl⟩

end Graph

namespace MemoryOriented.Setting

variable {setting : Setting}

theorem walkKey_ok (fits : setting.graph.SizesFit) (node dependent : NodeId) :
    ∃ key, setting.walkKey node dependent = .ok key := by
  rw [walkKey]
  cases found : setting.graph.nodes.get? dependent with
  | none => exact ⟨_, rfl⟩
  | some consumer =>
    obtain ⟨delta, summed⟩ := fits.liveBytesDelta_ok found
    exact ⟨_, by simp only [summed, bind, Except.bind]; rfl⟩

theorem perm_placeKeyed (entry : WalkKey × NodeId) (entries : List (WalkKey × NodeId)) :
    (placeKeyed entry entries).Perm (entry :: entries) := by
  induction entries with
  | nil => exact .refl _
  | cons head rest ih =>
    rw [placeKeyed]
    split
    next => exact .refl _
    next => exact (ih.cons head).trans (.swap _ _ _)

theorem perm_foldr_placeKeyed (entries : List (WalkKey × NodeId)) :
    (entries.foldr placeKeyed []).Perm entries := by
  induction entries with
  | nil => exact .refl _
  | cons head rest ih => exact (perm_placeKeyed head _).trans (ih.cons head)

theorem mapM_walkKey_ok (fits : setting.graph.SizesFit) (node : NodeId) (children : List NodeId) :
    ∃ keyed, children.mapM (fun child => do return (← setting.walkKey node child, child)) = .ok keyed ∧
      keyed.map Prod.snd = children := by
  induction children with
  | nil => exact ⟨[], rfl, rfl⟩
  | cons child rest ih =>
    obtain ⟨keyed, mapped, same⟩ := ih
    obtain ⟨key, compared⟩ := walkKey_ok fits node child
    refine ⟨(key, child) :: keyed, ?_, by simp [same]⟩
    rw [List.mapM_cons, mapped, compared]
    rfl

theorem children_ok (fits : setting.graph.SizesFit) (seen : List NodeId) (node : NodeId) :
    ∃ children, setting.children seen node = .ok children ∧
      children.Perm ((setting.deps.dependents node).filter (· ∉ seen)) := by
  unfold children
  split
  next none => exact ⟨[], rfl, by rw [none]⟩
  next child single => exact ⟨[child], rfl, by rw [single]⟩
  next =>
    obtain ⟨keyed, mapped, same⟩ := mapM_walkKey_ok fits node ((setting.deps.dependents node).filter (· ∉ seen))
    refine ⟨(keyed.foldr placeKeyed []).reverse.map Prod.snd, by rw [mapped]; rfl, ?_⟩
    rw [← same]
    exact ((List.reverse_perm _).trans (perm_foldr_placeKeyed keyed)).map _

end MemoryOriented.Setting

namespace Network

variable {net : Network NodeId} {source : NodeId} {seen seen' seen'' new new' : List NodeId}

-- Whatever waits for the added nodes has been seen as well.
structure Adds (net : Network NodeId) (source : NodeId) (seen new seen' : List NodeId) : Prop where
  mem_iff : ∀ node, node ∈ seen' ↔ node ∈ seen ∨ node ∈ new
  nodup : new.Nodup
  fresh : ∀ node ∈ new, node ∉ seen
  known : ∀ node ∈ new, node ∈ net.nodes
  reached : ∀ node ∈ new, ReflTransGen net.Blocks source node
  closed : ∀ node ∈ new, ∀ waiting ∈ net.dependents node, waiting ∈ seen'
  ordered : new.Pairwise fun earlier later => later ∉ net.blockers earlier

theorem Adds.nil (source : NodeId) (seen : List NodeId) : net.Adds source seen [] seen := by
  constructor <;> simp

-- What a later walk adds was not seen before, so it waits for nothing added before.
theorem Adds.append (sound : net.Sound) (first : net.Adds source seen new seen')
    (second : net.Adds source seen' new' seen'') : net.Adds source seen (new' ++ new) seen'' where
  mem_iff := by
    intro node
    rw [second.mem_iff, first.mem_iff, List.mem_append]
    tauto
  nodup := by
    refine List.nodup_append.mpr ⟨second.nodup, first.nodup, ?_⟩
    rintro node late _ early rfl
    exact second.fresh node late ((first.mem_iff node).mpr (Or.inr early))
  fresh := by
    intro node member
    rcases List.mem_append.mp member with late | early
    next => exact fun old => second.fresh node late ((first.mem_iff node).mpr (Or.inl old))
    next => exact first.fresh node early
  known := by
    intro node member
    rcases List.mem_append.mp member with late | early
    next => exact second.known node late
    next => exact first.known node early
  reached := by
    intro node member
    rcases List.mem_append.mp member with late | early
    next => exact second.reached node late
    next => exact first.reached node early
  closed := by
    intro node member waiting waits
    rcases List.mem_append.mp member with late | early
    next => exact second.closed node late waiting waits
    next => exact (second.mem_iff waiting).mpr (Or.inl (first.closed node early waiting waits))
  ordered := by
    -- What waits for something of the first walk was seen by its end, so the second did not add it.
    refine List.pairwise_append.mpr ⟨second.ordered, first.ordered, ?_⟩
    intro late member early member' blocks
    exact second.fresh late member (first.closed early member' late (sound.converse.mp blocks))

theorem Adds.cons (acyclic : Acyclic net.Blocks) (fresh : source ∉ seen) (known : source ∈ net.nodes)
    (later : net.Adds source (source :: seen) new seen')
    (complete : ∀ waiting ∈ net.dependents source, waiting ∈ seen') :
    net.Adds source seen (source :: new) seen' where
  mem_iff := by
    intro node
    rw [later.mem_iff, List.mem_cons, List.mem_cons]
    tauto
  nodup := List.nodup_cons.mpr ⟨fun member => later.fresh source member (.head _), later.nodup⟩
  fresh := by
    intro node member
    rcases List.mem_cons.mp member with rfl | member
    next => exact fresh
    next => exact fun old => later.fresh node member (.tail _ old)
  known := by
    intro node member
    rcases List.mem_cons.mp member with rfl | member
    next => exact known
    next => exact later.known node member
  reached := by
    intro node member
    rcases List.mem_cons.mp member with rfl | member
    next => exact .refl
    next => exact later.reached node member
  closed := by
    intro node member
    rcases List.mem_cons.mp member with rfl | member
    next => exact complete
    next => exact later.closed node member
  ordered := by
    refine List.pairwise_cons.mpr ⟨fun node member blocks => ?_, later.ordered⟩
    exact acyclic source (TransGen.tail' (later.reached node member) blocks)

theorem Adds.of_blocks {target : NodeId} (blocks : net.Blocks source target)
    (adds : net.Adds target seen new seen') : net.Adds source seen new seen' where
  mem_iff := adds.mem_iff
  nodup := adds.nodup
  fresh := adds.fresh
  known := adds.known
  reached := fun node member => (adds.reached node member).head blocks
  closed := adds.closed
  ordered := adds.ordered

theorem Adds.rearrange {moved : List NodeId} (adds : net.Adds source seen new seen')
    (moves : Rearranged net.blockers new moved) : net.Adds source seen moved seen' where
  mem_iff := fun node => (adds.mem_iff node).trans (or_congr_right moves.perm.mem_iff.symm)
  nodup := moves.perm.nodup_iff.mpr adds.nodup
  fresh := fun node member => adds.fresh node (moves.perm.mem_iff.mp member)
  known := fun node member => adds.known node (moves.perm.mem_iff.mp member)
  reached := fun node member => adds.reached node (moves.perm.mem_iff.mp member)
  closed := fun node member => adds.closed node (moves.perm.mem_iff.mp member)
  ordered := moves.ordered adds.ordered

end Network

namespace MemoryOriented.Setting

variable {setting : Setting}

theorem walkChildren_ok (sound : setting.deps.network.Sound) {depth : Nat}
    (walks : ∀ {node seen segment}, node ∉ seen → node ∈ setting.deps.network.nodes →
      setting.deps.network.nodes.countP (· ∉ seen) ≤ depth →
      ∃ new seen', setting.walk depth node (seen, segment) = .ok (seen', new ++ segment) ∧
        setting.deps.network.Adds node seen new seen' ∧ node ∈ seen')
    {node : NodeId} {children seen segment : List NodeId}
    (wait : ∀ child ∈ children, setting.deps.network.Blocks node child)
    (enough : setting.deps.network.nodes.countP (· ∉ seen) ≤ depth) :
    ∃ new seen', children.foldlM (fun state child =>
        if child ∈ state.1 then pure state else setting.walk depth child state) (seen, segment) =
          .ok (seen', new ++ segment) ∧
      setting.deps.network.Adds node seen new seen' ∧ ∀ child ∈ children, child ∈ seen' := by
  induction children generalizing seen segment with
  | nil => exact ⟨[], seen, rfl, .nil _ _, by simp⟩
  | cons child rest ih =>
    have wait' : ∀ child ∈ rest, setting.deps.network.Blocks node child :=
      fun other member => wait other (.tail _ member)
    by_cases old : child ∈ seen
    next =>
      obtain ⟨new, seen', folded, adds, done⟩ := @ih seen segment wait' enough
      refine ⟨new, seen', ?_, adds, ?_⟩
      next => rw [List.foldlM_cons, if_pos old]; exact folded
      next =>
        intro other member
        rcases List.mem_cons.mp member with rfl | member
        next => exact (adds.mem_iff other).mpr (Or.inl old)
        next => exact done other member
    next =>
      have blocks := wait child (.head _)
      obtain ⟨first, middle, walked, adds, own⟩ := @walks child seen segment old (sound.known blocks).2 enough
      have wider : ∀ other, other ∈ seen → other ∈ middle := fun other old => (adds.mem_iff other).mpr (Or.inl old)
      -- A walk only widens what is seen, so the depth suffices for the children that are left.
      have fewer : setting.deps.network.nodes.countP (· ∉ middle) ≤ depth := by
        refine Nat.le_trans (List.countP_mono_left fun other _ => ?_) enough
        simpa using mt (wider other)
      obtain ⟨second, seen', folded, adds', done⟩ := @ih middle (first ++ segment) wait' fewer
      refine ⟨second ++ first, seen', ?_, (adds.of_blocks blocks).append sound adds', ?_⟩
      next =>
        rw [List.foldlM_cons, if_neg old, walked, List.append_assoc]
        exact folded
      next =>
        intro other member
        rcases List.mem_cons.mp member with rfl | member
        next => exact (adds'.mem_iff other).mpr (Or.inl own)
        next => exact done other member

theorem walk_ok (fits : setting.graph.SizesFit) (sound : setting.deps.network.Sound)
    (acyclic : Acyclic setting.deps.network.Blocks) (depth : Nat) {node : NodeId} {seen segment : List NodeId}
    (fresh : node ∉ seen) (known : node ∈ setting.deps.network.nodes)
    (enough : setting.deps.network.nodes.countP (· ∉ seen) ≤ depth) :
    ∃ new seen', setting.walk depth node (seen, segment) = .ok (seen', new ++ segment) ∧
      setting.deps.network.Adds node seen new seen' ∧ node ∈ seen' := by
  induction depth generalizing node seen segment with
  | zero =>
    have none := List.countP_eq_zero.mp (Nat.le_zero.mp enough) node known
    simp [fresh] at none
  | succ depth ih =>
    obtain ⟨children, listed, perm⟩ := children_ok fits (node :: seen) node
    have mem_children : ∀ child, child ∈ children ↔
        child ∈ setting.deps.network.dependents node ∧ child ∉ node :: seen := by
      intro child
      rw [perm.mem_iff, List.mem_filter, decide_eq_true_iff]
      rfl
    -- The node itself has been seen by then: one node less is open for one level of depth less.
    have fewer : setting.deps.network.nodes.countP (· ∉ node :: seen) ≤ depth := by
      have count := List.countP_unplaced_snoc sound.nodup_nodes fresh
      have same : setting.deps.network.nodes.countP (· ∉ seen ++ [node]) =
          setting.deps.network.nodes.countP (· ∉ node :: seen) :=
        List.countP_congr fun other _ => by simp [and_comm]
      rw [if_pos known, same] at count
      omega
    obtain ⟨new, seen', folded, adds, done⟩ := @walkChildren_ok _ sound depth ih node children
      (node :: seen) segment (fun child member => sound.converse.mpr ((mem_children child).mp member).1) fewer
    refine ⟨node :: new, seen', ?_, adds.cons acyclic fresh known ?_, (adds.mem_iff node).mpr (Or.inl (.head _))⟩
    next =>
      simp only [walk, listed, bind, Except.bind, folded]
      rfl
    next =>
      intro waiting waits
      by_cases old : waiting ∈ node :: seen
      next => exact (adds.mem_iff waiting).mpr (Or.inl old)
      next => exact done waiting ((mem_children waiting).mpr ⟨waits, old⟩)

end MemoryOriented.Setting

end Dataflow
