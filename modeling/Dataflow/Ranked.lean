set_option autoImplicit false

namespace Dataflow

class Ranked (κ : Type) where
  rank : κ → Nat
  rank_injective : ∀ {a b : κ}, rank a = rank b → a = b

export Ranked (rank rank_injective)

instance : Ranked Nat := ⟨id, id⟩

instance : Ranked UInt32 := ⟨UInt32.toNat, UInt32.toNat_inj.mp⟩

instance : Ranked UInt64 := ⟨UInt64.toNat, UInt64.toNat_inj.mp⟩

namespace Ranked

variable {κ : Type} [Ranked κ]

def Ascending (keys : List κ) : Prop :=
  keys.Pairwise fun a b => rank a < rank b

def insert (a : κ) : List κ → List κ
  | [] => [a]
  | b :: rest =>
    if rank a < rank b then a :: b :: rest
    else if rank a = rank b then b :: rest
    else b :: insert a rest

def ascending : List κ → List κ
  | [] => []
  | a :: rest => insert a (ascending rest)

@[simp] theorem mem_insert {a x : κ} {keys : List κ} : x ∈ insert a keys ↔ x = a ∨ x ∈ keys := by
  induction keys with
  | nil => simp [insert]
  | cons b rest ih =>
    rw [insert]
    split
    next => simp
    next =>
      split
      next same => have := rank_injective same; grind
      next => simp [ih]; grind

@[simp] theorem mem_ascending {x : κ} {keys : List κ} : x ∈ ascending keys ↔ x ∈ keys := by
  induction keys with
  | nil => simp [ascending]
  | cons b rest ih => simp [ascending, ih]

theorem ascending_insert (a : κ) {keys : List κ} (ordered : Ascending keys) :
    Ascending (insert a keys) := by
  induction keys with
  | nil => simp [insert, Ascending]
  | cons b rest ih =>
    have above := (List.pairwise_cons.mp ordered).1
    have tail := ih (List.pairwise_cons.mp ordered).2
    rw [insert]
    split
    next below =>
      refine List.pairwise_cons.mpr ⟨?_, ordered⟩
      intro c member
      rcases List.mem_cons.mp member with same | later
      next => simpa [same] using below
      next => exact Nat.lt_trans below (above c later)
    next notBelow =>
      split
      next => exact ordered
      next differs =>
        refine List.pairwise_cons.mpr ⟨?_, tail⟩
        intro c member
        rcases mem_insert.mp member with same | later
        next => rw [same]; omega
        next => exact above c later

theorem ascending_ascending (keys : List κ) : Ascending (ascending keys) := by
  induction keys with
  | nil => exact List.Pairwise.nil
  | cons a rest ih => exact ascending_insert a ih

end Ranked

end Dataflow
