import Dataflow.Proofs.Description.Build
import Dataflow.Proofs.Graph.Relation
import Dataflow.Proofs.Schedule.Placement
import Dataflow.Schedule.Traversal

set_option autoImplicit false

namespace Dataflow

open Relation

-- Trees side by side: each root, then what hangs below it, then the trees behind it.
inductive PreorderWalk (children : NodeId → List NodeId) : List NodeId → List NodeId → Prop
  | nil : PreorderWalk children [] []
  | cons {root : NodeId} {roots below later : List NodeId} (inner : PreorderWalk children (children root) below)
      (outer : PreorderWalk children roots later) : PreorderWalk children (root :: roots) (root :: below ++ later)

namespace PreorderWalk

variable {children : NodeId → List NodeId} {roots order : List NodeId}

theorem split {front back : List NodeId} (walk : PreorderWalk children (front ++ back) order) :
    ∃ first second, order = first ++ second ∧ PreorderWalk children front first ∧ PreorderWalk children back second := by
  induction front generalizing order with
  | nil => exact ⟨[], order, rfl, .nil, walk⟩
  | cons root front ih =>
    cases walk with
    | @cons _ _ below later inner outer =>
      obtain ⟨first, second, rfl, walked, rest⟩ := ih outer
      exact ⟨root :: below ++ first, second, by simp, .cons inner walked, rest⟩

theorem mem_iff (walk : PreorderWalk children roots order) (node : NodeId) :
    node ∈ order ↔ ∃ root ∈ roots, ReflTransGen (fun parent child => child ∈ children parent) root node := by
  induction walk with
  | nil => simp
  | @cons root roots below later _ _ inner outer =>
    rw [List.cons_append, List.mem_cons, List.mem_append, inner, outer]
    simp only [List.mem_cons, exists_eq_or_imp]
    rw [ReflTransGen.cases_head_iff]
    grind

theorem exists_block (walk : PreorderWalk children roots order) {node : NodeId} (listed : node ∈ order) :
    ∃ before block after, order = before ++ node :: block ++ after ∧ PreorderWalk children (children node) block := by
  induction walk with
  | nil => cases listed
  | @cons root roots below later walked _ inner outer =>
    rw [List.cons_append, List.mem_cons, List.mem_append] at listed
    rcases listed with rfl | inside | behind
    next => exact ⟨[], below, later, rfl, walked⟩
    next =>
      obtain ⟨before, block, after, rfl, found⟩ := inner inside
      exact ⟨root :: before, block, after ++ later, by simp, found⟩
    next =>
      obtain ⟨before, block, after, rfl, found⟩ := outer behind
      exact ⟨root :: below ++ before, block, after, by simp, found⟩

end PreorderWalk

namespace Dependencies

variable (deps : Dependencies)

def LastBlocker (order : List NodeId) (parent child : NodeId) : Prop :=
  parent ∈ deps.blockers child ∧ ∀ blocking ∈ deps.blockers child, order.idxOf blocking ≤ order.idxOf parent

instance (order : List NodeId) (parent child : NodeId) : Decidable (deps.LastBlocker order parent child) :=
  inferInstanceAs (Decidable (_ ∧ _))

variable {deps}

theorem lastBlocker_iff {placed later : List NodeId} {parent child : NodeId} (fresh : parent ∉ placed) :
    deps.LastBlocker (placed ++ parent :: later) parent child ↔
      parent ∈ deps.blockers child ∧ ∀ blocking ∈ deps.blockers child, blocking ∈ placed ++ [parent] := by
  refine and_congr_right fun _ => forall₂_congr fun blocking _ => ?_
  rw [List.idxOf_split fresh, List.append_cons, List.idxOf_append]
  have length : (placed ++ [parent]).length = placed.length + 1 := by simp
  split
  next inside =>
    have bound := List.idxOf_lt_length_iff.mpr inside
    simp only [inside, iff_true]
    omega
  next outside =>
    simp only [outside, iff_false]
    omega

def freedBy {K : Type} [Ord K] (deps : Dependencies) (key : NodeId → K) (order : List NodeId) (parent : NodeId) :
    List NodeId :=
  rankByKey key ((deps.dependents parent).filter fun child => deps.LastBlocker order parent child)

section

variable {K : Type} [Ord K] [Std.TransOrd K] {key : NodeId → K} (sound : deps.network.Sound)
include sound

omit [Std.TransOrd K] in
theorem mem_freedBy {order : List NodeId} {parent child : NodeId} :
    child ∈ deps.freedBy key order parent ↔ deps.LastBlocker order parent child := by
  rw [freedBy, (perm_rankByKey _).mem_iff, List.mem_filter, decide_eq_true_iff]
  exact ⟨And.right, fun last => ⟨sound.converse.mp last.1, last⟩⟩

theorem ranked_freedBy (order : List NodeId) (parent : NodeId) : RankedBy key (deps.freedBy key order parent) :=
  .rankByKey ((sound.nodup_dependents parent).filter _)

theorem rankByKey_eq_freedBy {placed later freed : List NodeId} {node : NodeId} (fresh : node ∉ placed)
    (distinct : freed.Nodup)
    (mem_freed : ∀ other, other ∈ freed ↔ other ∈ deps.network.dependents node ∧
      ∀ blocking ∈ deps.network.blockers other, blocking ∈ placed ++ [node]) :
    rankByKey key freed = deps.freedBy key (placed ++ node :: later) node := by
  -- Both lists ascend, so they are equal as soon as they hold the same nodes.
  refine (RankedBy.rankByKey distinct).eq_of_perm (ranked_freedBy sound _ node) ?_
  refine (perm_rankByKey freed).trans ((List.perm_ext_iff_of_nodup distinct ?_).mpr fun other => ?_)
  next => exact (perm_rankByKey _).nodup_iff.mpr ((sound.nodup_dependents node).filter _)
  next =>
    rw [mem_freed, mem_freedBy sound, lastBlocker_iff fresh, ← sound.converse]
    rfl

end

end Dependencies

namespace DepthFirst

variable {K : Type} [Ord K] [Std.TransOrd K] (key : NodeId → K)

theorem emit_preorder {deps : Dependencies} (sound : deps.network.Sound) (count : Nat) {placed : List NodeId}
    {degrees : Table NodeId Nat} {stack : List NodeId} (progress : deps.network.Progress placed)
    (counted : deps.network.Degrees placed degrees) (distinct : stack.Nodup)
    (listed : ∀ node, node ∈ stack ↔ deps.network.Free placed node)
    (enough : deps.network.nodes.length ≤ placed.length + count) :
    ∃ later, emit key deps count degrees stack = .ok later ∧
      (deps.network.Progress (placed ++ later) ∧ ∀ node, ¬ deps.network.Free (placed ++ later) node) ∧
      PreorderWalk (deps.freedBy key (placed ++ later)) stack later := by
  induction count generalizing placed degrees stack with
  | zero =>
    have stuck := progress.not_free_of_full enough
    have empty : stack = [] := List.eq_nil_iff_forall_not_mem.mpr fun node => mt (listed node).mp (stuck node)
    subst empty
    exact ⟨[], by simp [emit], by simpa using ⟨progress, stuck⟩, .nil⟩
  | succ count ih =>
    cases stack with
    | nil =>
      have stuck : ∀ node, ¬ deps.network.Free placed node := by simpa using listed
      exact ⟨[], by simp [emit], by simpa using ⟨progress, stuck⟩, .nil⟩
    | cons node rest =>
      have ready := (listed node).mp List.mem_cons_self
      have others := List.nodup_cons.mp distinct
      obtain ⟨freed, lowered, released, counted', distinctFreed, mem_freed⟩ :=
        release_dependents sound counted ready.2.1
      have inRest : ∀ other, other ∈ rest ↔ deps.network.Free placed other ∧ other ≠ node := by
        intro other
        have := listed other
        grind
      have listed' : ∀ other, other ∈ rankByKey key freed ++ rest ↔
          deps.network.Free (placed ++ [node]) other := by
        intro other
        rw [List.mem_append, (perm_rankByKey freed).mem_iff, progress.free_snoc_iff sound ready, mem_freed,
          ← inRest, or_comm]
      have distinct' : (rankByKey key freed ++ rest).Nodup := by
        refine List.nodup_append.mpr ⟨(perm_rankByKey freed).nodup_iff.mpr distinctFreed, others.2, ?_⟩
        intro other member later old same
        subst same
        have blocks := sound.converse.mpr ((mem_freed other).mp ((perm_rankByKey freed).mem_iff.mp member)).1
        -- What is still on the stack was free before, so the node just placed does not block it.
        exact ready.2.1 (((inRest other).mp old).1.2.2 node blocks)
      obtain ⟨later, emitted, final, walk⟩ := ih (progress.snoc ready) counted' distinct' listed' (by simp; omega)
      rw [← List.append_cons] at final walk
      -- The walk goes on from what was freed on top of the rest, so it splits there: the tree of the node
      -- comes first, and then the trees that were waiting on the stack.
      obtain ⟨below, behind, rfl, inner, outer⟩ := walk.split
      rw [Dependencies.rankByKey_eq_freedBy sound ready.2.1 distinctFreed mem_freed] at inner
      refine ⟨node :: (below ++ behind), ?_, final, .cons inner outer⟩
      have dependents : deps.network.dependents node = deps.dependents node := rfl
      simp only [emit, ← dependents, released, bind, Except.bind, pure, Except.pure, emitted]

theorem run_preorder {deps : Dependencies} (sound : deps.network.Sound) :
    ∃ placed, run key deps = requireAll deps.network.nodes.length placed ∧
      (deps.network.Progress placed ∧ ∀ node, ¬ deps.network.Free placed node) ∧
      PreorderWalk (deps.freedBy key placed) (rankByKey key deps.roots) placed := by
  have listed : ∀ node, node ∈ rankByKey key deps.roots ↔ deps.network.Free [] node := by
    intro node
    rw [(perm_rankByKey deps.roots).mem_iff, deps.mem_roots]
  obtain ⟨placed, emitted, final⟩ := emit_preorder key sound deps.size Network.Progress.nil
    deps.degrees_inDegrees ((perm_rankByKey deps.roots).nodup_iff.mpr deps.nodup_roots) listed
    (by simp [deps.length_nodes])
  refine ⟨placed, ?_, final⟩
  simp only [run, emitted, bind, Except.bind, deps.length_nodes]

theorem run_exhausts {deps : Dependencies} (sound : deps.network.Sound) :
    ∃ placed, run key deps = requireAll deps.network.nodes.length placed ∧
      deps.network.Progress placed ∧ ∀ node, ¬ deps.network.Free placed node := by
  obtain ⟨placed, ran, final, -⟩ := run_preorder key sound
  exact ⟨placed, ran, final⟩

end DepthFirst

namespace Graph

variable {graph : Graph}

theorem scheduleDepthFirst_preorder (consistent : graph.Consistent) (filter : EdgeFilter) (byParent : Bool)
    (acyclic : Acyclic (graph.Blocks filter)) :
    ∃ order roots children, graph.scheduleDepthFirst filter byParent = .ok order ∧
      (graph.dependencies filter).network.IsOrder order ∧
      (∀ root, root ∈ roots ↔ root ∈ (graph.dependencies filter).roots) ∧
      RankedBy (graph.defaultKey byParent) roots ∧
      (∀ parent child, child ∈ children parent ↔ (graph.dependencies filter).LastBlocker order parent child) ∧
      (∀ parent, RankedBy (graph.defaultKey byParent) (children parent)) ∧
      PreorderWalk children roots order ∧
      ∀ node ∈ order, ∃ before block after, order = before ++ node :: block ++ after ∧
        ∀ other, other ∈ block ↔ TransGen ((graph.dependencies filter).LastBlocker order) node other := by
  have linked := consistent.toLinked
  have sound := sound_network linked filter
  obtain ⟨order, ran, ⟨progress, stuck⟩, walk⟩ := DepthFirst.run_preorder (graph.defaultKey byParent) sound
  rw [← blocks_network linked] at acyclic
  obtain ⟨complete, valid⟩ := (requireAll_of_stuck sound (network_loopless linked filter) progress stuck).1 acyclic
  refine ⟨order, _, _, ran.trans complete, valid, fun root => (perm_rankByKey _).mem_iff,
    .rankByKey (Dependencies.nodup_roots _), fun parent child => Dependencies.mem_freedBy sound,
    Dependencies.ranked_freedBy sound order, walk, fun node listed => ?_⟩
  obtain ⟨before, block, after, split, below⟩ := walk.exists_block listed
  refine ⟨before, block, after, split, fun other => ?_⟩
  simp only [below.mem_iff, Dependencies.mem_freedBy sound]
  exact TransGen.head'_iff.symm

def summed : GraphDescription :=
  { tensors := [{ name := "left" }, { name := "right" }, { name := "sum" }]
    nodes := [{ name := "loadLeft", outputs := ["left"] }, { name := "loadRight", outputs := ["right"] },
      { name := "add", inputs := ["left", "right"], outputs := ["sum"] }, { name := "storeSum", inputs := ["sum"] },
      { name := "storeLeft", inputs := ["left"] }] }

theorem scheduleDepthFirst_summed :
    summed.graph.scheduleDepthFirst .both false = .ok [⟨0⟩, ⟨4⟩, ⟨1⟩, ⟨2⟩, ⟨3⟩] ∧
      ∃ before block after, [⟨0⟩, ⟨4⟩, ⟨1⟩, ⟨2⟩, ⟨3⟩] = before ++ (⟨1⟩ : NodeId) :: block ++ after ∧
        ∀ other, other ∈ block ↔
          TransGen ((summed.graph.dependencies .both).LastBlocker [⟨0⟩, ⟨4⟩, ⟨1⟩, ⟨2⟩, ⟨3⟩]) ⟨1⟩ other := by
  have consistent := summed.consistent_graph
  have acyclic : Acyclic (summed.graph.Blocks .both) := acyclic_of_numbered (by decide) (by decide)
  have scheduled : summed.graph.scheduleDepthFirst .both false = .ok [⟨0⟩, ⟨4⟩, ⟨1⟩, ⟨2⟩, ⟨3⟩] := rfl
  obtain ⟨order, roots, children, ran, -, -, -, -, -, -, blocks⟩ :=
    scheduleDepthFirst_preorder consistent .both false acyclic
  cases scheduled.symm.trans ran
  exact ⟨scheduled, blocks ⟨1⟩ (by simp)⟩

end Graph

end Dataflow
