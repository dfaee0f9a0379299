import Dataflow.Proofs.MemoryOriented.Walk
import Mathlib.Data.List.TakeWhile

set_option autoImplicit false

namespace Dataflow

namespace MemoryOriented.Setting

variable {setting : Setting}

structure Placed (setting : Setting) (staged seen order : List NodeId) : Prop where
  mem_iff : ∀ node, node ∈ seen ↔ node ∈ staged ∨ node ∈ order
  nodup : order.Nodup
  fresh : ∀ node ∈ order, node ∉ staged
  known : ∀ node ∈ order, node ∈ setting.deps.network.nodes
  closed : ∀ node ∈ order, ∀ waiting ∈ setting.deps.dependents node, waiting ∈ seen
  ordered : order.Pairwise fun earlier later => later ∉ setting.deps.blockers earlier

theorem perm_splice (order segment : List NodeId) : (setting.splice order segment).Perm (segment ++ order) := by
  have swap : (order.takeWhile (!setting.waitsFor segment ·) ++ segment).Perm
      (segment ++ order.takeWhile (!setting.waitsFor segment ·)) := List.perm_append_comm
  have whole := swap.append_right (order.dropWhile (!setting.waitsFor segment ·))
  rwa [List.append_assoc segment, List.takeWhile_append_dropWhile] at whole

theorem ordered_splice (sound : setting.deps.network.Sound) {source : NodeId}
    {staged seen seen' order segment : List NodeId} (placed : setting.Placed staged seen order)
    (adds : setting.deps.network.Adds source seen segment seen') :
    (setting.splice order segment).Pairwise fun earlier later => later ∉ setting.deps.blockers earlier := by
  have apart : ∀ node ∈ order, node ∉ segment := fun node member new =>
    adds.fresh node new ((placed.mem_iff node).mpr (Or.inr member))
  have ordered := placed.ordered
  rw [← List.takeWhile_append_dropWhile (p := (!setting.waitsFor segment ·)) (l := order)] at ordered
  obtain ⟨front, back, across⟩ := List.pairwise_append.mp ordered
  refine List.pairwise_append.mpr ⟨List.pairwise_append.mpr ⟨front, adds.ordered, ?_⟩, back, ?_⟩
  next =>
    -- What stays in front waits for no member of the segment.
    intro early member new member' blocks
    have waits : early ∈ setting.deps.dependents new := sound.converse.mp blocks
    have passed : setting.waitsFor segment early = false := by
      simpa using List.mem_takeWhile_imp member
    have outside := apart early ((List.takeWhile_sublist _).subset member)
    have waiting : setting.waitsFor segment early = true :=
      List.any_eq_true.mpr ⟨new, member', by simp [waits, outside]⟩
    rw [passed] at waiting
    cases waiting
  next =>
    intro first member late member'
    rcases List.mem_append.mp member with early | new
    next => exact across first early late member'
    next =>
      -- A placed node blocks no node that this walk was the first to see.
      intro blocks
      have inside := (List.dropWhile_sublist _).subset member'
      exact adds.fresh first new (placed.closed late inside first (sound.converse.mp blocks))

theorem Placed.splice (sound : setting.deps.network.Sound) {source : NodeId}
    {staged seen seen' order segment : List NodeId} (placed : setting.Placed staged seen order)
    (adds : setting.deps.network.Adds source seen segment seen') :
    setting.Placed staged seen' (setting.splice order segment) where
  mem_iff := by
    intro node
    rw [adds.mem_iff, placed.mem_iff, (perm_splice order segment).mem_iff, List.mem_append]
    tauto
  nodup := by
    refine (perm_splice order segment).nodup_iff.mpr (List.nodup_append.mpr ⟨adds.nodup, placed.nodup, ?_⟩)
    rintro node new _ old rfl
    exact adds.fresh node new ((placed.mem_iff node).mpr (Or.inr old))
  fresh := by
    intro node member staged
    rcases List.mem_append.mp ((perm_splice order segment).mem_iff.mp member) with new | old
    next => exact adds.fresh node new ((placed.mem_iff node).mpr (Or.inl staged))
    next => exact placed.fresh node old staged
  known := by
    intro node member
    rcases List.mem_append.mp ((perm_splice order segment).mem_iff.mp member) with new | old
    next => exact adds.known node new
    next => exact placed.known node old
  closed := by
    intro node member waiting waits
    rcases List.mem_append.mp ((perm_splice order segment).mem_iff.mp member) with new | old
    next => exact adds.closed node new waiting waits
    next => exact (adds.mem_iff waiting).mpr (Or.inl (placed.closed node old waiting waits))
  ordered := ordered_splice sound placed adds

section

variable (fits : setting.graph.SizesFit) (sound : setting.deps.network.Sound)
  (acyclic : Acyclic setting.deps.network.Blocks) (size : setting.deps.network.nodes.length = setting.graph.size)
include fits sound acyclic size

theorem walkRoot_ok {staged seen order : List NodeId} (placed : setting.Placed staged seen order) {root : NodeId}
    (known : root ∈ setting.deps.network.nodes) :
    ∃ seen' order', setting.walkRoot (seen, order) root = .ok (seen', order') ∧
      setting.Placed staged seen' order' ∧ seen ⊆ seen' ∧ root ∈ seen' := by
  by_cases old : root ∈ seen
  next =>
    refine ⟨seen, order, ?_, placed, List.Subset.refl _, old⟩
    simp only [walkRoot, old, if_true]
    rfl
  next =>
    have enough : setting.deps.network.nodes.countP (· ∉ seen) ≤ setting.graph.size :=
      size ▸ List.countP_le_length
    obtain ⟨segment, seen', walked, adds, own⟩ := @walk_ok _ fits sound acyclic _ _ _ [] old known enough
    rw [List.append_nil] at walked
    have moves : Rearranged setting.deps.blockers segment (setting.graph.gatherLogical setting.deps segment).2 :=
      gatherLogical_rearranged fun _ _ _ => sound.converse.mp
    refine ⟨seen', _, ?_, placed.splice sound (adds.rearrange moves), ?_, own⟩
    next =>
      simp only [walkRoot, old, if_false, walked, bind, Except.bind]
      rfl
    next => exact fun other member => (adds.mem_iff other).mpr (Or.inl member)

theorem walkRoots_ok {staged seen order : List NodeId} (placed : setting.Placed staged seen order)
    (roots : List NodeId) (known : ∀ root ∈ roots, root ∈ setting.deps.network.nodes) :
    ∃ seen' order', roots.foldlM setting.walkRoot (seen, order) = .ok (seen', order') ∧
      setting.Placed staged seen' order' ∧ ∀ root ∈ roots, root ∈ seen' := by
  have walks : ∃ final, roots.foldlM setting.walkRoot (seen, order) = .ok final ∧
      setting.Placed staged final.1 final.2 ∧ ∀ root ∈ roots, root ∈ final.1 := by
    apply foldlM_succeeds fun done (state : List NodeId × List NodeId) =>
      setting.Placed staged state.1 state.2 ∧ ∀ root ∈ done, root ∈ state.1
    next =>
      rintro done root rest ⟨seen, order⟩ split ⟨placed, done⟩
      obtain ⟨seen', order', walked, placed', wider, own⟩ := walkRoot_ok fits sound acyclic size placed
        (known root (by simp [split]))
      refine ⟨(seen', order'), walked, placed', ?_⟩
      intro other member
      rcases List.mem_append.mp member with earlier | last
      next => exact wider (done other earlier)
      next => rw [List.mem_singleton.mp last]; exact own
    next => exact ⟨placed, by simp⟩
  obtain ⟨⟨seen', order'⟩, folded, placed, done⟩ := walks
  exact ⟨seen', order', folded, placed, done⟩

end

end MemoryOriented.Setting

namespace MemoryOriented

structure Staged (deps : Dependencies) (staged roots : List NodeId) : Prop where
  nodup : staged.Nodup
  free : ∀ node ∈ staged, deps.network.Free [] node
  covers : ∀ node, deps.network.Free [] node → node ∈ staged ∨ node ∈ roots
  waiting : ∀ node ∈ staged, ∀ waiting ∈ deps.dependents node, waiting ∈ roots
  known : ∀ root ∈ roots, root ∈ deps.network.nodes

theorem staged_nil (deps : Dependencies) : Staged deps [] deps.roots where
  nodup := .nil
  free := by simp
  covers := fun node free => Or.inr ((deps.mem_roots node).mpr free)
  waiting := by simp
  known := fun root member => ((deps.mem_roots root).mp member).1

theorem mem_foldl_append (rest nodes : List NodeId) (node : NodeId) :
    node ∈ nodes.foldl (fun roots node => if node ∈ roots then roots else roots ++ [node]) rest ↔
      node ∈ rest ∨ node ∈ nodes := by
  induction nodes generalizing rest with
  | nil => simp
  | cons head tail ih =>
    rw [List.foldl_cons, ih]
    split
    next old => grind
    next => simp [or_assoc]

theorem staged_stageRoots (graph : Graph) {deps : Dependencies} (sound : deps.network.Sound) :
    Staged deps (stageRoots graph deps).1 (stageRoots graph deps).2 := by
  have free : ∀ node ∈ (stageRoots graph deps).1, deps.network.Free [] node := by
    intro node member
    rw [stageRoots, List.partition_eq_filter_filter] at member
    exact (deps.mem_roots node).mp (List.mem_of_mem_filter member)
  have mem_roots (node : NodeId) : node ∈ (stageRoots graph deps).2 ↔
      (node ∈ deps.roots ∧ node ∉ (stageRoots graph deps).1) ∨
        ∃ blocking ∈ (stageRoots graph deps).1, node ∈ deps.dependents blocking := by
    simp only [stageRoots, List.partition_eq_filter_filter, mem_foldl_append, List.mem_flatMap, List.mem_filter]
    grind
  constructor
  case nodup =>
    rw [stageRoots, List.partition_eq_filter_filter]
    exact deps.nodup_roots.filter _
  case free => exact free
  case covers =>
    intro node ready
    by_cases early : node ∈ (stageRoots graph deps).1
    next => exact Or.inl early
    next => exact Or.inr ((mem_roots node).mpr (Or.inl ⟨(deps.mem_roots node).mpr ready, early⟩))
  case waiting => exact fun node early waiting waits => (mem_roots waiting).mpr (Or.inr ⟨node, early, waits⟩)
  case known =>
    intro root member
    rcases (mem_roots root).mp member with ⟨listed, -⟩ | ⟨blocking, -, waits⟩
    next => exact ((deps.mem_roots root).mp listed).1
    next => exact (sound.known (sound.converse.mpr waits)).2

section

variable {setting : Setting} (fits : setting.graph.SizesFit) (sound : setting.deps.network.Sound)
  (acyclic : Acyclic setting.deps.network.Blocks) (nodes : setting.deps.network.nodes = setting.graph.nodeIds)
include fits sound acyclic nodes

omit fits nodes in
-- The earliest unseen node would be a root or wait for a node that has been walked.
theorem all_seen {staged roots seen order : List NodeId} (stages : Staged setting.deps staged roots)
    (placed : setting.Placed staged seen order) (done : ∀ root ∈ roots, root ∈ seen) :
    ∀ node ∈ setting.deps.network.nodes, node ∈ seen := by
  intro node known
  by_contra missed
  have nonempty : setting.deps.network.nodes.filter (· ∉ seen) ≠ [] :=
    List.ne_nil_of_mem (List.mem_filter.mpr ⟨known, by simpa using missed⟩)
  obtain ⟨least, member, minimal⟩ := acyclic.exists_minimal nonempty
  obtain ⟨known, unseen⟩ := List.mem_filter.mp member
  have unseen : least ∉ seen := by simpa using unseen
  have behind : ∀ blocking ∈ setting.deps.network.blockers least, blocking ∈ seen := by
    intro blocking blocks
    by_contra missed
    exact minimal blocking
      (List.mem_filter.mpr ⟨(sound.known blocks).1, by simpa using missed⟩) blocks
  apply unseen
  cases blockers : setting.deps.network.blockers least with
  | nil =>
    have free : setting.deps.network.Free [] least := ⟨known, by simp, by simp [blockers]⟩
    rcases stages.covers least free with early | root
    next => exact (placed.mem_iff least).mpr (Or.inl early)
    next => exact done least root
  | cons blocking rest =>
    have blocks : blocking ∈ setting.deps.network.blockers least := by simp [blockers]
    have waits := sound.converse.mp blocks
    rcases (placed.mem_iff blocking).mp (behind blocking blocks) with early | walked
    next => exact done least (stages.waiting blocking early least waits)
    next => exact placed.closed blocking walked least waits

omit fits sound acyclic nodes in
theorem isOrder_staged {staged roots seen order : List NodeId} (stages : Staged setting.deps staged roots)
    (placed : setting.Placed staged seen order)
    (complete : ∀ node ∈ setting.deps.network.nodes, node ∈ seen) :
    setting.deps.network.IsOrder (staged ++ order) where
  nodup := by
    refine List.nodup_append.mpr ⟨stages.nodup, placed.nodup, ?_⟩
    rintro node early _ late rfl
    exact placed.fresh node late early
  mem_iff := by
    intro node
    rw [List.mem_append, ← placed.mem_iff]
    constructor
    next =>
      intro seen
      rcases (placed.mem_iff node).mp seen with early | late
      next => exact (stages.free node early).1
      next => exact placed.known node late
    next => exact complete node
  ordered := by
    have unblocked : ∀ node ∈ staged, ∀ other, other ∉ setting.deps.network.blockers node :=
      fun node early other blocks => by simpa using (stages.free node early).2.2 other blocks
    refine List.pairwise_append.mpr ⟨?_, placed.ordered, fun node early other _ => unblocked node early other⟩
    exact List.pairwise_of_forall_mem_list fun node early other _ => unblocked node early other

theorem run_ok (ioInDram : Bool) :
    ∃ order, run setting ioInDram = .ok order ∧ setting.deps.network.IsOrder order := by
  have size : setting.deps.network.nodes.length = setting.graph.size := by rw [nodes, Graph.length_nodeIds]
  obtain ⟨staged, roots, chosen, stages⟩ : ∃ staged roots,
      (if ioInDram then stageRoots setting.graph setting.deps else ([], setting.deps.roots)) = (staged, roots) ∧
        Staged setting.deps staged roots := by
    cases ioInDram with
    | false => exact ⟨_, _, rfl, staged_nil _⟩
    | true => exact ⟨_, _, rfl, staged_stageRoots _ sound⟩
  have start : setting.Placed staged staged [] := by constructor <;> simp
  have ranked : (setting.rankRoots roots).Perm roots := perm_rankByKey roots
  obtain ⟨seen, order, walked, placed, done⟩ := Setting.walkRoots_ok fits sound acyclic size start
    (setting.rankRoots roots) fun root member => stages.known root (ranked.mem_iff.mp member)
  have complete := all_seen sound acyclic stages placed fun root member => done root (ranked.mem_iff.mpr member)
  have valid := isOrder_staged stages placed complete
  have none : setting.graph.nodeIds.find? (· ∉ seen) = none := by
    rw [List.find?_eq_none]
    intro node member
    simpa using complete node (nodes ▸ member)
  refine ⟨staged ++ order, ?_, valid⟩
  simp only [run, chosen, walked, none, requireAll, valid.length_eq sound, size, if_true]

end

end MemoryOriented

end Dataflow
