import Dataflow.Proofs.Acyclic
import Dataflow.Proofs.Lists
import Dataflow.Table

set_option autoImplicit false

namespace Dataflow

structure Network (κ : Type) where
  nodes : List κ
  blockers : κ → List κ
  dependents : κ → List κ

namespace Network

variable {κ : Type} (net : Network κ)

def Blocks (blocking blocked : κ) : Prop := blocking ∈ net.blockers blocked

structure Sound : Prop where
  nodup_nodes : net.nodes.Nodup
  nodup_blockers : ∀ node, (net.blockers node).Nodup
  nodup_dependents : ∀ node, (net.dependents node).Nodup
  converse : ∀ {blocking blocked}, blocking ∈ net.blockers blocked ↔ blocked ∈ net.dependents blocking
  known : ∀ {blocking blocked}, blocking ∈ net.blockers blocked →
    blocking ∈ net.nodes ∧ blocked ∈ net.nodes

def Free (placed : List κ) (node : κ) : Prop :=
  node ∈ net.nodes ∧ node ∉ placed ∧ ∀ blocking ∈ net.blockers node, blocking ∈ placed

structure Progress (placed : List κ) : Prop where
  nodup : placed.Nodup
  known : ∀ node ∈ placed, node ∈ net.nodes
  closed : ∀ node ∈ placed, ∀ blocking ∈ net.blockers node, blocking ∈ placed
  ordered : placed.Pairwise fun earlier later => later ∉ net.blockers earlier

structure IsOrder (order : List κ) : Prop where
  nodup : order.Nodup
  mem_iff : ∀ node, node ∈ order ↔ node ∈ net.nodes
  ordered : order.Pairwise fun earlier later => later ∉ net.blockers earlier

variable {net}

theorem Progress.nil : net.Progress [] where
  nodup := List.nodup_nil
  known := by simp
  closed := by simp
  ordered := List.Pairwise.nil

theorem Progress.snoc {placed : List κ} {node : κ} (progress : net.Progress placed)
    (free : net.Free placed node) : net.Progress (placed ++ [node]) := by
  obtain ⟨known, fresh, ready⟩ := free
  constructor
  case nodup =>
    refine List.nodup_append.mpr ⟨progress.nodup, List.nodup_singleton node, ?_⟩
    intro earlier member later last same
    rw [same, List.mem_singleton.mp last] at member
    exact fresh member
  case known =>
    intro other member
    rcases List.mem_append.mp member with earlier | last
    next => exact progress.known other earlier
    next => rw [List.mem_singleton.mp last]; exact known
  case closed =>
    intro other member blocking blocks
    rcases List.mem_append.mp member with earlier | last
    next => exact List.mem_append_left _ (progress.closed other earlier blocking blocks)
    next =>
      rw [List.mem_singleton.mp last] at blocks
      exact List.mem_append_left _ (ready blocking blocks)
  case ordered =>
    refine List.pairwise_append.mpr ⟨progress.ordered, List.pairwise_singleton _ _, ?_⟩
    intro earlier member later last blocks
    rw [List.mem_singleton.mp last] at blocks
    exact fresh (progress.closed earlier member node blocks)

theorem Progress.not_free_of_full {placed : List κ} (progress : net.Progress placed)
    (full : net.nodes.length ≤ placed.length) (node : κ) : ¬ net.Free placed node := by
  rintro ⟨known, fresh, -⟩
  have perm := (progress.nodup.subperm progress.known).perm_of_length_le full
  exact fresh (perm.mem_iff.mpr known)

theorem Progress.isOrder {placed : List κ} (progress : net.Progress placed)
    (full : ∀ node ∈ net.nodes, node ∈ placed) : net.IsOrder placed where
  nodup := progress.nodup
  mem_iff := fun node => ⟨progress.known node, full node⟩
  ordered := progress.ordered

theorem IsOrder.length_eq {order : List κ} (valid : net.IsOrder order) (sound : net.Sound) :
    order.length = net.nodes.length :=
  ((List.perm_ext_iff_of_nodup valid.nodup sound.nodup_nodes).mpr valid.mem_iff).length_eq

theorem IsOrder.idxOf_lt [DecidableEq κ] {order : List κ} (valid : net.IsOrder order)
    (sound : net.Sound) {blocking blocked : κ} (blocks : net.Blocks blocking blocked)
    (differ : blocking ≠ blocked) : order.idxOf blocking < order.idxOf blocked :=
  List.idxOf_lt_of_pairwise valid.ordered ((valid.mem_iff blocking).mpr (sound.known blocks).1)
    ((valid.mem_iff blocked).mpr (sound.known blocks).2) blocks differ

theorem IsOrder.acyclic [DecidableEq κ] {order : List κ} (valid : net.IsOrder order)
    (sound : net.Sound) (loopless : ∀ node, ¬ net.Blocks node node) : Acyclic net.Blocks :=
  .of_rank order.idxOf fun _ _ blocks => valid.idxOf_lt sound blocks fun same => loopless _ (same ▸ blocks)

theorem Progress.full_of_stuck [DecidableEq κ] {placed : List κ} (sound : net.Sound)
    (acyclic : Acyclic net.Blocks) (stuck : ∀ node, ¬ net.Free placed node) :
    ∀ node ∈ net.nodes, node ∈ placed := by
  intro node known
  by_contra missing
  have nonempty : net.nodes.filter (· ∉ placed) ≠ [] :=
    List.ne_nil_of_mem (List.mem_filter.mpr ⟨known, by simpa using missing⟩)
  obtain ⟨least, member, minimal⟩ := acyclic.exists_minimal nonempty
  obtain ⟨known, fresh⟩ := List.mem_filter.mp member
  apply stuck least
  refine ⟨known, by simpa using fresh, ?_⟩
  intro blocking blocks
  by_contra missing
  exact minimal blocking (List.mem_filter.mpr ⟨(sound.known blocks).1, by simpa using missing⟩) blocks

theorem Progress.free_snoc_iff {placed : List κ} {node : κ}
    (progress : net.Progress placed) (sound : net.Sound) (free : net.Free placed node) (other : κ) :
    net.Free (placed ++ [node]) other ↔
      net.Free placed other ∧ other ≠ node ∨
        other ∈ net.dependents node ∧ ∀ blocking ∈ net.blockers other, blocking ∈ placed ++ [node] := by
  constructor
  next =>
    rintro ⟨known, fresh, ready⟩
    by_cases waits : other ∈ net.dependents node
    next => exact Or.inr ⟨waits, ready⟩
    next =>
      refine Or.inl ⟨⟨known, fun old => fresh (List.mem_append_left _ old), ?_⟩, by grind⟩
      intro blocking blocks
      rcases List.mem_append.mp (ready blocking blocks) with old | last
      next => exact old
      next =>
        rw [List.mem_singleton.mp last] at blocks
        exact absurd (sound.converse.mp blocks) waits
  next =>
    rintro (⟨⟨known, fresh, ready⟩, differs⟩ | ⟨waits, ready⟩)
    next =>
      refine ⟨known, by simp [fresh, differs], ?_⟩
      intro blocking blocks
      exact List.mem_append_left _ (ready blocking blocks)
    next =>
      have blocks := sound.converse.mpr waits
      refine ⟨(sound.known blocks).2, ?_, ready⟩
      intro member
      rcases List.mem_append.mp member with old | last
      next => exact free.2.1 (progress.closed other old node blocks)
      next =>
        rw [List.mem_singleton.mp last] at blocks
        exact free.2.1 (free.2.2 node blocks)

section Order

variable (sound : net.Sound) (loopless : ∀ node, ¬ net.Blocks node node) {front rest : List κ}

include sound loopless

theorem IsOrder.blocker_before {key blocking : κ} (valid : net.IsOrder (front ++ key :: rest))
    (blocks : net.Blocks blocking key) : blocking ∈ front := by
  have listed := (valid.mem_iff blocking).mpr (sound.known blocks).1
  obtain ⟨-, behind, -⟩ := List.pairwise_append.mp valid.ordered
  rcases List.mem_append.mp listed with before | after
  next => exact before
  next =>
    rcases List.mem_cons.mp after with same | later
    next => exact absurd (same ▸ blocks) (loopless key)
    next => exact absurd blocks ((List.pairwise_cons.mp behind).1 blocking later)

theorem IsOrder.free_next {key : κ} (valid : net.IsOrder (front ++ key :: rest)) : net.Free front key := by
  refine ⟨(valid.mem_iff key).mp (by simp), ?_, fun _ => valid.blocker_before sound loopless⟩
  exact fun inside => (List.nodup_append.mp valid.nodup).2.2 key inside key List.mem_cons_self rfl

theorem IsOrder.closed_front (valid : net.IsOrder (front ++ rest)) {key blocking : κ} (member : key ∈ front)
    (blocks : net.Blocks blocking key) : blocking ∈ front := by
  obtain ⟨before, after, rfl⟩ := List.append_of_mem member
  rw [List.append_assoc, List.cons_append] at valid
  exact List.mem_append_left _ (valid.blocker_before sound loopless blocks)

theorem IsOrder.dependent_after {key blocked : κ} (valid : net.IsOrder (front ++ key :: rest))
    (blocks : net.Blocks key blocked) : blocked ∈ rest := by
  have listed := (valid.mem_iff blocked).mpr (sound.known blocks).2
  rcases List.mem_append.mp listed with before | after
  next =>
    have inside := valid.closed_front sound loopless before blocks
    exact absurd rfl ((List.nodup_append.mp valid.nodup).2.2 key inside key List.mem_cons_self)
  next =>
    rcases List.mem_cons.mp after with same | later
    next => exact absurd (same ▸ blocks) (loopless key)
    next => exact later

end Order

section Greedy

variable {before : κ → κ → Prop} {placed later rival : List κ}

-- Each node of `later` comes before all others that are free at its turn, until none is free.
inductive Greedy (net : Network κ) (before : κ → κ → Prop) : List κ → List κ → Prop
  | stuck {placed : List κ} (none : ∀ node, ¬ net.Free placed node) : Greedy net before placed []
  | take {placed later : List κ} {node : κ} (free : net.Free placed node)
      (foremost : ∀ other, net.Free placed other → other ≠ node → before node other)
      (rest : Greedy net before (placed ++ [node]) later) : Greedy net before placed (node :: later)

namespace Greedy

theorem exhausts (greedy : net.Greedy before placed later) (progress : net.Progress placed) :
    net.Progress (placed ++ later) ∧ ∀ node, ¬ net.Free (placed ++ later) node := by
  induction greedy with
  | stuck none => simpa using ⟨progress, none⟩
  | take free _ _ ih => simpa using ih (progress.snoc free)

theorem congr {net' : Network κ} {before' : κ → κ → Prop} (greedy : net.Greedy before placed later)
    (free_iff : ∀ placed node, net.Free placed node ↔ net'.Free placed node)
    (weaker : ∀ {a b}, before a b → before' a b) : net'.Greedy before' placed later := by
  induction greedy with
  | stuck none => exact .stuck fun node free => none node ((free_iff _ node).mpr free)
  | take free foremost _ ih =>
    refine .take ((free_iff _ _).mp free) (fun other free' differs => ?_) ih
    exact weaker (foremost other ((free_iff _ other).mpr free') differs)

theorem unique (asymm : ∀ {a b}, before a b → ¬ before b a) (greedy : net.Greedy before placed later)
    (greedy' : net.Greedy before placed rival) : later = rival := by
  induction greedy generalizing rival with
  | stuck none =>
    cases greedy' with
    | stuck => rfl
    | take free => exact absurd free (none _)
  | @take placed later node free foremost _ ih =>
    cases greedy' with
    | stuck none => exact absurd free (none _)
    | @take _ _ node' free' foremost' rest =>
      by_cases same : node = node'
      next =>
        subst same
        rw [ih rest]
      -- Two different choices at one turn would each come before the other.
      next => exact absurd (foremost' node free same) (asymm (foremost node' free' (Ne.symm same)))

theorem of_pairwise (sound : net.Sound) (loopless : ∀ node, ¬ net.Blocks node node)
    (valid : net.IsOrder (placed ++ later)) (ascends : later.Pairwise before) : net.Greedy before placed later := by
  induction later generalizing placed with
  | nil => exact .stuck fun node free => free.2.1 (by simpa using (valid.mem_iff node).mpr free.1)
  | cons node rest ih =>
    obtain ⟨above, ascends⟩ := List.pairwise_cons.mp ascends
    refine .take (valid.free_next sound loopless) (fun other free differs => above other ?_)
      (ih (by simpa using valid) ascends)
    have listed := (valid.mem_iff other).mpr free.1
    simpa [free.2.1, differs] using listed

theorem least (greedy : net.Greedy before placed later) (sound : net.Sound)
    (loopless : ∀ node, ¬ net.Blocks node node) (valid : net.IsOrder (placed ++ rival)) :
    later = rival ∨ List.Lex before later rival := by
  induction greedy generalizing rival with
  | stuck none =>
    cases rival with
    | nil => exact Or.inl rfl
    | cons node => exact absurd (valid.free_next sound loopless) (none node)
  | @take placed later node free foremost _ ih =>
    cases rival with
    | nil =>
      have listed := (valid.mem_iff node).mpr free.1
      exact absurd (by simpa using listed) free.2.1
    | cons node' rest =>
      by_cases same : node' = node
      next =>
        subst same
        rw [List.append_cons] at valid
        exact (ih valid).imp (congrArg _) .cons
      -- The first place where they differ: what the rival holds there was free at this turn as well.
      next => exact Or.inr (.rel (foremost node' (valid.free_next sound loopless) same))

end Greedy

end Greedy

section Degrees

variable [DecidableEq κ]

def Degrees [Ranked κ] (net : Network κ) (placed : List κ) (degrees : Table κ Nat) : Prop :=
  ∀ node, degrees.get? node =
    if node ∈ net.nodes then some ((net.blockers node).countP (· ∉ placed)) else none

theorem count_open_snoc (sound : net.Sound) {placed : List κ} {node : κ} (fresh : node ∉ placed)
    (other : κ) :
    (net.blockers other).countP (· ∉ placed) =
      (net.blockers other).countP (· ∉ placed ++ [node]) + if node ∈ net.blockers other then 1 else 0 :=
  List.countP_unplaced_snoc (sound.nodup_blockers other) fresh

theorem open_eq_zero_iff {placed : List κ} {node : κ} :
    (net.blockers node).countP (· ∉ placed) = 0 ↔ ∀ blocking ∈ net.blockers node, blocking ∈ placed := by
  simp [List.countP_eq_zero]

variable [Ranked κ] {placed : List κ} {degrees : Table κ Nat} {node other : κ}

theorem get?_lowered_cons {rest : List κ} {degree : Nat} (found : degrees.get? node = some (degree + 1))
    (distinct : node ∉ rest) (key : κ) :
    (if key ∈ rest then ((degrees.insert node degree).get? key).map (· - 1)
      else (degrees.insert node degree).get? key) =
      if key ∈ node :: rest then (degrees.get? key).map (· - 1) else degrees.get? key := by
  by_cases same : key = node
  next =>
    subst same
    simp [distinct, found]
  next => simp [same, Table.get?_insert_of_ne]

theorem Degrees.of_dependent (counted : net.Degrees placed degrees) (sound : net.Sound) (fresh : node ∉ placed)
    (dependent : other ∈ net.dependents node) :
    degrees.get? other = some ((net.blockers other).countP (· ∉ placed ++ [node]) + 1) := by
  have blocks := sound.converse.mpr dependent
  rw [counted other, if_pos (sound.known blocks).2, count_open_snoc sound fresh, if_pos blocks]

theorem Degrees.last_blocker_iff (counted : net.Degrees placed degrees) (sound : net.Sound) (fresh : node ∉ placed)
    (dependent : other ∈ net.dependents node) :
    degrees.get? other = some 1 ↔ ∀ blocking ∈ net.blockers other, blocking ∈ placed ++ [node] := by
  rw [counted.of_dependent sound fresh dependent, ← open_eq_zero_iff]
  simp

theorem Degrees.lowered {lowered : Table κ Nat} (counted : net.Degrees placed degrees) (sound : net.Sound)
    (fresh : node ∉ placed)
    (value : ∀ other, lowered.get? other =
      if other ∈ net.dependents node then (degrees.get? other).map (· - 1) else degrees.get? other) :
    net.Degrees (placed ++ [node]) lowered := by
  intro other
  rw [value other]
  by_cases dependent : other ∈ net.dependents node
  next =>
    have known := (sound.known (sound.converse.mpr dependent)).2
    simp only [dependent, if_true, counted.of_dependent sound fresh dependent, known]
    rfl
  next =>
    have unblocked : node ∉ net.blockers other := fun blocks => dependent (sound.converse.mp blocks)
    have same := count_open_snoc sound fresh other
    rw [if_neg unblocked, Nat.add_zero] at same
    rw [if_neg dependent, counted other, same]

end Degrees

end Network

end Dataflow
