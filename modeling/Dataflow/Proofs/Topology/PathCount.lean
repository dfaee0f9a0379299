import Dataflow.Proofs.Network
import Dataflow.Proofs.Tables
import Dataflow.Topology

set_option autoImplicit false

namespace Dataflow

open Relation

namespace PathCount

section Ways

variable {κ : Type} {successors : κ → List κ} {source : κ}

-- The keys passed on the way, the latest first.
inductive Way (successors : κ → List κ) (source : κ) : κ → List κ → Prop
  | start : Way successors source source []
  | step {key next : κ} {passed : List κ} : Way successors source key passed → next ∈ successors key →
    Way successors source next (key :: passed)

theorem Way.exists_passing {middle target : κ} {passed : List κ} (way : Way successors source middle passed)
    (path : TransGen (fun a b => b ∈ successors a) middle target) :
    ∃ passed, Way successors source target passed ∧ middle ∈ passed := by
  induction path with
  | single step => exact ⟨_, way.step step, List.mem_cons_self⟩
  | tail _ step ih =>
    obtain ⟨passed, way, passes⟩ := ih
    exact ⟨_, way.step step, List.mem_cons_of_mem _ passes⟩

theorem exists_way_iff {target : κ} :
    (∃ passed, Way successors source target passed) ↔ ReflTransGen (fun a b => b ∈ successors a) source target := by
  constructor
  next =>
    rintro ⟨passed, way⟩
    induction way with
    | start => exact .refl
    | step _ listed ih => exact ih.tail listed
  next =>
    intro path
    induction path with
    | refl => exact ⟨[], .start⟩
    | tail _ step ih =>
      obtain ⟨passed, way⟩ := ih
      exact ⟨_, way.step step⟩

theorem Way.within {done : List κ} (closed : ∀ key ∈ done, ∀ earlier, key ∈ successors earlier → earlier ∈ done)
    {target : κ} {passed : List κ} (way : Way successors source target passed)
    (preceded : ∀ earlier, target ∈ successors earlier → earlier ∈ done) : passed ⊆ done := by
  induction way with
  | start => exact List.nil_subset _
  | step _ listed ih =>
    -- The key before the last step is inside, so all that precedes it is inside as well.
    have inside := preceded _ listed
    exact List.cons_subset.mpr ⟨inside, ih (closed _ inside)⟩

structure Lists (successors : κ → List κ) (source : κ) (done : List κ) (target : κ) (ways : List (List κ)) : Prop where
  nodup : ways.Nodup
  mem_iff : ∀ passed, passed ∈ ways ↔ Way successors source target passed ∧ passed ⊆ done

theorem lists_nil [DecidableEq κ] (target : κ) :
    Lists successors source [] target (if target = source then [[]] else []) := by
  by_cases same : target = source
  next =>
    rw [if_pos same, same]
    refine ⟨List.nodup_singleton [], fun passed => ?_⟩
    rw [List.mem_singleton, List.subset_nil]
    exact ⟨fun empty => ⟨empty ▸ .start, empty⟩, And.right⟩
  next =>
    rw [if_neg same]
    refine ⟨List.nodup_nil, fun passed => ⟨fun member => absurd member List.not_mem_nil, ?_⟩⟩
    rintro ⟨way, nothing⟩
    cases way with
    | start => exact absurd rfl same
    | step => exact absurd (List.subset_nil.mp nothing) (List.cons_ne_nil _ _)

theorem Way.source_mem {target : κ} {passed : List κ} (way : Way successors source target passed) :
    passed = [] ∨ source ∈ passed := by
  induction way with
  | start => exact Or.inl rfl
  | @step key _ passed before _ ih =>
    refine Or.inr ?_
    rcases ih with rfl | earlier
    next => cases before; exact List.mem_cons_self
    next => exact List.mem_cons_of_mem _ earlier

section Latest

variable {done : List κ} {key target : κ} {before ways : List (List κ)}
  (lists : Lists successors source done target ways) (reaching : Lists successors source done key before)
  (closed : ∀ other ∈ done, ∀ earlier, other ∈ successors earlier → earlier ∈ done)
  (preceded : ∀ earlier, key ∈ successors earlier → earlier ∈ done)

include lists reaching closed preceded

theorem Lists.way_iff (passed : List κ) : Way successors source target passed ∧ passed ⊆ done ++ [key] ↔
    passed ∈ ways ∨ target ∈ successors key ∧ ∃ front ∈ before, key :: front = passed := by
  constructor
  next =>
    rintro ⟨way, inside⟩
    cases way with
    | start => exact Or.inl ((lists.mem_iff []).mpr ⟨.start, List.nil_subset _⟩)
    | @step latest _ passed way listed =>
      obtain ⟨latestInside, -⟩ := List.cons_subset.mp inside
      rcases List.mem_append.mp latestInside with old | last
      next =>
        refine Or.inl ((lists.mem_iff _).mpr ⟨way.step listed, List.cons_subset.mpr ⟨old, ?_⟩⟩)
        exact way.within closed (closed latest old)
      next =>
        cases List.mem_singleton.mp last
        exact Or.inr ⟨listed, passed, (reaching.mem_iff passed).mpr ⟨way, way.within closed preceded⟩, rfl⟩
  next =>
    rintro (old | ⟨listed, front, leads, rfl⟩)
    next =>
      obtain ⟨way, inside⟩ := (lists.mem_iff passed).mp old
      exact ⟨way, fun other member => List.mem_append_left _ (inside member)⟩
    next =>
      obtain ⟨way, inside⟩ := (reaching.mem_iff front).mp leads
      refine ⟨way.step listed, List.cons_subset.mpr ⟨by simp, fun other member => ?_⟩⟩
      exact List.mem_append_left _ (inside member)

theorem Lists.snoc [DecidableEq κ] (fresh : key ∉ done) : Lists successors source (done ++ [key]) target
    (if target ∈ successors key then ways ++ before.map (key :: ·) else ways) := by
  have way_iff := lists.way_iff reaching closed preceded
  split
  next listed =>
    refine ⟨List.nodup_append.mpr ⟨lists.nodup, reaching.nodup.map fun _ _ same => (List.cons.inj same).2, ?_⟩, ?_⟩
    next =>
      intro old member new extended same
      obtain ⟨front, -, rfl⟩ := List.mem_map.mp extended
      exact fresh (((lists.mem_iff old).mp member).2 (same ▸ List.mem_cons_self))
    next =>
      intro passed
      rw [way_iff, List.mem_append, List.mem_map]
      simp [listed]
  next unlisted =>
    refine ⟨lists.nodup, fun passed => ?_⟩
    rw [way_iff]
    simp [unlisted]

end Latest

def recorded (ways : List (List κ)) : Option Nat :=
  if ways = [] then none else some (min ways.length Word.largest)

theorem getD_recorded (ways : List (List κ)) : (recorded ways).getD 0 = min ways.length Word.largest := by
  cases ways <;> simp [recorded]

theorem recorded_append {ways more : List (List κ)} (some_more : more ≠ []) :
    recorded (ways ++ more) =
      some (Word.saturatingAdd ((recorded ways).getD 0) (min more.length Word.largest)) := by
  rw [getD_recorded, recorded, if_neg (by simp [some_more]), List.length_append, Word.saturatingAdd]
  congr 1
  omega

end Ways

variable {κ : Type} [Ranked κ] [DecidableEq κ] {source : κ}

theorem get?_foldl_push {keys : List κ} (nodup : keys.Nodup) (number : Nat) (counts : Table κ Nat) (key : κ) :
    (keys.foldl (push number) counts).get? key =
      if key ∈ keys then some (Word.saturatingAdd ((counts.get? key).getD 0) number) else counts.get? key := by
  induction keys generalizing counts with
  | nil => simp
  | cons first rest ih =>
    obtain ⟨fresh, nodup⟩ := List.nodup_cons.mp nodup
    rw [List.foldl_cons, ih nodup, push, Table.get?_insert_eq]
    by_cases same : key = first
    next => simp [same, fresh]
    next => simp [same]

def Tallies (successors : κ → List κ) (source : κ) (done : List κ) (counts : Table κ Nat) : Prop :=
  ∀ key, ∃ ways, Lists successors source done key ways ∧ counts.get? key = recorded ways

theorem tallies_start (successors : κ → List κ) (source : κ) :
    Tallies successors source [] (Table.empty.insert source 1) := by
  intro key
  refine ⟨_, lists_nil key, ?_⟩
  rw [Table.get?_insert_eq]
  split
  next => rfl
  next => exact Table.get?_empty _

def handOn (successors : κ → List κ) (counts : Table κ Nat) (key : κ) : Table κ Nat :=
  match counts.get? key with
  | none => counts
  | some number => (successors key).foldl (push number) counts

theorem forward_cons (successors : κ → List κ) (target key : κ) (rest : List κ) (counts : Table κ Nat) :
    forward successors target (key :: rest) counts =
      if key = target then counts else forward successors target rest (handOn successors counts key) := by
  rw [forward, handOn]
  cases counts.get? key <;> rfl

theorem Tallies.handOn {successors : κ → List κ} {done : List κ} {counts : Table κ Nat} {key : κ}
    (tallies : Tallies successors source done counts) (nodup : (successors key).Nodup) (fresh : key ∉ done)
    (closed : ∀ other ∈ done, ∀ earlier, other ∈ successors earlier → earlier ∈ done)
    (preceded : ∀ earlier, key ∈ successors earlier → earlier ∈ done) :
    Tallies successors source (done ++ [key]) (PathCount.handOn successors counts key) := by
  obtain ⟨before, reaching, own⟩ := tallies key
  intro target
  obtain ⟨ways, lists, count⟩ := tallies target
  refine ⟨_, lists.snoc reaching closed preceded fresh, ?_⟩
  unfold PathCount.handOn
  by_cases unreached : before = []
  next => simp [own, unreached, recorded, count]
  next =>
    rw [own, recorded, if_neg unreached]
    show ((successors key).foldl (push _) counts).get? target = _
    rw [get?_foldl_push nodup, count]
    split
    next => rw [recorded_append (by simpa using unreached), List.length_map]
    next => rfl

section Order

variable {net : Network κ} (sound : net.Sound) (loopless : ∀ node, ¬ net.Blocks node node)

include sound loopless

omit [Ranked κ] [DecidableEq κ] in
theorem Way.before_turn {front rest passed : List κ} {key : κ} (way : Way net.dependents source key passed)
    (valid : net.IsOrder (front ++ key :: rest)) : passed ⊆ front :=
  way.within
    (fun _ member _ succeeds => valid.closed_front sound loopless member (sound.converse.mpr succeeds))
    fun _ succeeds => valid.blocker_before sound loopless (sound.converse.mpr succeeds)

theorem Tallies.forward {done rest : List κ} {target : κ} {counts : Table κ Nat}
    (tallies : Tallies net.dependents source done counts) (valid : net.IsOrder (done ++ rest))
    (ahead : target ∈ rest) : ∃ ways : List (List κ), ways.Nodup ∧
      (∀ passed, passed ∈ ways ↔ Way net.dependents source target passed) ∧
      ((PathCount.forward net.dependents target rest counts).get? target).getD 0 = min ways.length Word.largest := by
  -- The tables are followed up to the turn of the target: no way to it can pass a later key.
  induction rest generalizing done counts with
  | nil => cases ahead
  | cons key rest ih =>
    rw [forward_cons]
    split
    next turn =>
      subst turn
      obtain ⟨ways, lists, count⟩ := tallies key
      refine ⟨ways, lists.nodup, fun passed => ?_, by rw [count, getD_recorded]⟩
      rw [lists.mem_iff, and_iff_left_iff_imp]
      exact fun way => way.before_turn sound loopless valid
    next earlier =>
      have fresh : key ∉ done := fun old =>
        (List.nodup_append.mp valid.nodup).2.2 key old key List.mem_cons_self rfl
      have step := tallies.handOn (sound.nodup_dependents key) fresh
        (fun _ member _ listed => valid.closed_front sound loopless member (sound.converse.mpr listed))
        fun _ listed => valid.blocker_before sound loopless (sound.converse.mpr listed)
      refine ih step ?_ ?_
      next => rwa [List.append_assoc]
      next => exact (List.mem_cons.mp ahead).resolve_left (Ne.symm earlier)

theorem count_eq {order : List κ} (valid : net.IsOrder order) (source : κ) {target : κ} (known : target ∈ net.nodes) :
    ∃ ways : List (List κ), ways.Nodup ∧ (∀ passed, passed ∈ ways ↔ Way net.dependents source target passed) ∧
      count (some order) net.dependents source target = min ways.length Word.largest := by
  have listed := (valid.mem_iff target).mpr known
  unfold count
  split
  next same =>
    subst same
    obtain ⟨front, back, rfl⟩ := List.append_of_mem listed
    refine ⟨[[]], List.nodup_singleton [], fun passed => ?_, rfl⟩
    rw [List.mem_singleton]
    refine ⟨fun empty => empty ▸ .start, fun way => way.source_mem.resolve_right fun returns => ?_⟩
    -- A way back to the source passes only keys before it, so it cannot pass the source.
    have inside := way.before_turn sound loopless valid
    exact (List.nodup_append.mp valid.nodup).2.2 source (inside returns) source List.mem_cons_self rfl
  next =>
    refine Tallies.forward sound loopless (tallies_start net.dependents source) ?_ listed
    exact valid

theorem count_eq_zero_iff {order : List κ} (valid : net.IsOrder order) {target : κ} (known : target ∈ net.nodes) :
    count (some order) net.dependents source target = 0 ↔
      ¬ ReflTransGen (fun a b => b ∈ net.dependents a) source target := by
  obtain ⟨ways, -, mem_iff, counted⟩ := count_eq sound loopless valid source known
  rw [counted, ← exists_way_iff, not_exists]
  simp only [← mem_iff, ← List.eq_nil_iff_forall_not_mem, ← List.length_eq_zero_iff, Word.largest]
  omega

theorem one_lt_count {order : List κ} (valid : net.IsOrder order) {target : κ} (known : target ∈ net.nodes)
    {one other : List κ} (way : Way net.dependents source target one) (way' : Way net.dependents source target other)
    (differ : one ≠ other) : 1 < count (some order) net.dependents source target := by
  obtain ⟨ways, nodup, mem_iff, counted⟩ := count_eq sound loopless valid source known
  have pair : [one, other].Nodup := by simpa using differ
  have two := (pair.subperm (by simp [mem_iff, way, way'] : [one, other] ⊆ ways)).length_le
  simp only [List.length_cons, List.length_nil] at two
  rw [counted, Word.largest]
  omega

end Order

end PathCount

end Dataflow
