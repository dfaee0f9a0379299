import Mathlib.Data.List.Nodup
import Mathlib.Logic.Relation
import Dataflow.Proofs.Tables
import Dataflow.Topology

set_option autoImplicit false

namespace Dataflow.Reach

open Relation

variable {κ : Type} {successors : κ → List κ} {keys : List κ}

theorem mem_of_closed {seen : List κ} (closed : ∀ a ∈ seen, ∀ b ∈ successors a, b ∈ seen) {a b : κ}
    (start : a ∈ seen) (path : ReflTransGen (fun a b => b ∈ successors a) a b) : b ∈ seen := by
  induction path with
  | refl => exact start
  | tail _ step ih => exact closed _ ih _ step

structure Spreading (successors : κ → List κ) (keys seen front : List κ) : Prop where
  nodup : seen.Nodup
  known : seen ⊆ keys
  latest : front ⊆ seen
  closed : ∀ a ∈ seen, a ∉ front → ∀ b ∈ successors a, b ∈ seen

variable [Ranked κ] [DecidableEq κ] {seen front : List κ}

def fresh (successors : κ → List κ) (seen front : List κ) : List κ :=
  (Ranked.ascending (front.flatMap successors)).filter (· ∉ seen)

@[simp] theorem mem_fresh {key : κ} :
    key ∈ fresh successors seen front ↔ (∃ a ∈ front, key ∈ successors a) ∧ key ∉ seen := by
  simp [fresh]

theorem nodup_fresh : (fresh successors seen front).Nodup := (Ranked.nodup_ascending _).filter _

namespace Spreading

theorem round (spreading : Spreading successors keys seen front)
    (inside : ∀ a ∈ keys, ∀ b ∈ successors a, b ∈ keys) :
    Spreading successors keys (seen ++ fresh successors seen front) (fresh successors seen front) where
  nodup := by
    refine List.nodup_append.mpr ⟨spreading.nodup, nodup_fresh, ?_⟩
    intro a old b new same
    exact (mem_fresh.mp new).2 (same ▸ old)
  known := by
    refine List.append_subset.mpr ⟨spreading.known, ?_⟩
    intro b new
    obtain ⟨⟨a, earlier, step⟩, -⟩ := mem_fresh.mp new
    exact inside a (spreading.known (spreading.latest earlier)) b step
  latest := List.subset_append_right _ _
  closed := by
    intro a member settled b step
    have old : a ∈ seen := (List.mem_append.mp member).resolve_right settled
    by_cases already : b ∈ seen
    next => exact List.mem_append_left _ already
    -- A successor that was not seen comes from the front of this round, so the round adds it.
    next =>
      have last : a ∈ front := by
        by_contra behind
        exact already (spreading.closed a old behind b step)
      exact List.mem_append_right _ (mem_fresh.mpr ⟨⟨a, last, step⟩, already⟩)

theorem leads_round_iff (spreading : Spreading successors keys seen front) (target : κ) :
    (∃ a ∈ seen ++ fresh successors seen front, ReflTransGen (fun a b => b ∈ successors a) a target) ↔
      ∃ a ∈ seen, ReflTransGen (fun a b => b ∈ successors a) a target := by
  constructor
  next =>
    rintro ⟨a, member, path⟩
    rcases List.mem_append.mp member with old | new
    next => exact ⟨a, old, path⟩
    next =>
      obtain ⟨⟨b, earlier, step⟩, -⟩ := mem_fresh.mp new
      exact ⟨b, spreading.latest earlier, path.head step⟩
  next =>
    rintro ⟨a, member, path⟩
    exact ⟨a, List.mem_append_left _ member, path⟩

theorem closed_of_done (spreading : Spreading successors keys seen front)
    (done : fresh successors seen front = []) : ∀ a ∈ seen, ∀ b ∈ successors a, b ∈ seen := by
  intro a member b step
  by_cases last : a ∈ front
  next =>
    by_contra missed
    have new : b ∈ fresh successors seen front := mem_fresh.mpr ⟨⟨a, last, step⟩, missed⟩
    simp [done] at new
  next => exact spreading.closed a member last b step

theorem mem_spread_iff (spreading : Spreading successors keys seen front)
    (inside : ∀ a ∈ keys, ∀ b ∈ successors a, b ∈ keys) (rounds : Nat)
    (enough : keys.length < seen.length + rounds) (target : κ) :
    target ∈ spread successors rounds seen front ↔
      ∃ a ∈ seen, ReflTransGen (fun a b => b ∈ successors a) a target := by
  -- Each round but the last finds a key that was not seen, and there are no more keys than rounds left.
  induction rounds generalizing seen front with
  | zero =>
    have bound := (spreading.nodup.subperm spreading.known).length_le
    omega
  | succ rounds ih =>
    rw [spread, ← fresh]
    cases equal : fresh successors seen front with
    | nil =>
      constructor
      next => exact fun found => ⟨target, found, ReflTransGen.refl⟩
      next =>
        rintro ⟨a, start, path⟩
        exact mem_of_closed (spreading.closed_of_done equal) start path
    | cons first others =>
      have further := spreading.round inside
      have leads := spreading.leads_round_iff target
      rw [equal] at further leads
      have more : keys.length < (seen ++ first :: others).length + rounds := by
        simp only [List.length_append, List.length_cons]
        omega
      rw [← leads]
      exact ih further more

end Spreading

theorem reaches_iff (inside : ∀ a ∈ keys, ∀ b ∈ successors a, b ∈ keys) {rounds : Nat}
    {source : κ} (known : source ∈ keys) (enough : keys.length ≤ rounds) (target : κ) :
    reaches successors rounds source target = true ↔
      ReflTransGen (fun a b => b ∈ successors a) source target := by
  have spreading : Spreading successors keys [source] [source] :=
    ⟨List.nodup_singleton source, by simpa using known, List.Subset.refl _, by simp⟩
  rw [reaches, decide_eq_true_iff, spreading.mem_spread_iff inside rounds (by simp; omega)]
  simp

end Dataflow.Reach
