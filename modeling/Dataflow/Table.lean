import Dataflow.Ranked

set_option autoImplicit false

namespace Dataflow

structure Table (κ β : Type) [Ranked κ] where
  entries : List (κ × β)
  ordered : entries.Pairwise fun a b => rank a.1 < rank b.1

namespace Table

variable {κ β : Type} [Ranked κ]

def empty : Table κ β := ⟨[], List.Pairwise.nil⟩

instance : EmptyCollection (Table κ β) := ⟨empty⟩

instance : Inhabited (Table κ β) := ⟨empty⟩

def lookup (k : κ) : List (κ × β) → Option β
  | [] => none
  | (key, value) :: rest => if rank k = rank key then some value else lookup k rest

def bind (k : κ) (v : β) : List (κ × β) → List (κ × β)
  | [] => [(k, v)]
  | entry :: rest =>
    if rank k < rank entry.1 then (k, v) :: entry :: rest
    else if rank k = rank entry.1 then (k, v) :: rest
    else entry :: bind k v rest

theorem mem_bind {k : κ} {v : β} {entries : List (κ × β)} {x : κ × β}
    (member : x ∈ bind k v entries) : x = (k, v) ∨ x ∈ entries := by
  induction entries with
  | nil => simpa [bind] using member
  | cons entry rest ih =>
    rw [bind] at member
    split at member
    next => simpa using member
    next =>
      split at member
      next => simp at member; grind
      next => simp at member; grind

theorem ordered_bind (k : κ) (v : β) {entries : List (κ × β)}
    (ordered : entries.Pairwise fun a b => rank a.1 < rank b.1) :
    (bind k v entries).Pairwise fun a b => rank a.1 < rank b.1 := by
  induction entries with
  | nil => simp [bind]
  | cons entry rest ih =>
    have above := (List.pairwise_cons.mp ordered).1
    have tail := (List.pairwise_cons.mp ordered).2
    rw [bind]
    split
    next below =>
      refine List.pairwise_cons.mpr ⟨?_, ordered⟩
      intro x member
      rcases List.mem_cons.mp member with same | later
      next => simpa [same] using below
      next => exact Nat.lt_trans below (above x later)
    next notBelow =>
      split
      next same =>
        refine List.pairwise_cons.mpr ⟨?_, tail⟩
        intro x member
        simpa [same] using above x member
      next differs =>
        refine List.pairwise_cons.mpr ⟨?_, ih tail⟩
        intro x member
        rcases mem_bind member with same | later
        next => rw [same]; show rank entry.1 < rank k; omega
        next => exact above x later

def get? (t : Table κ β) (k : κ) : Option β := lookup k t.entries

def contains (t : Table κ β) (k : κ) : Bool := (t.get? k).isSome

def keys (t : Table κ β) : List κ := t.entries.map Prod.fst

def values (t : Table κ β) : List β := t.entries.map Prod.snd

def size (t : Table κ β) : Nat := t.entries.length

def insert (t : Table κ β) (k : κ) (v : β) : Table κ β :=
  ⟨bind k v t.entries, ordered_bind k v t.ordered⟩

def erase (t : Table κ β) (k : κ) : Table κ β :=
  ⟨t.entries.filter fun entry => rank entry.1 != rank k, t.ordered.filter _⟩

def modify (t : Table κ β) (k : κ) (f : β → β) : Table κ β :=
  match t.get? k with
  | none => t
  | some v => t.insert k (f v)

-- A later binding of a key wins.
def ofList (entries : List (κ × β)) : Table κ β :=
  entries.foldl (fun t entry => t.insert entry.1 entry.2) empty

@[simp] theorem lookup_bind (k x : κ) (v : β) (entries : List (κ × β)) :
    lookup x (bind k v entries) = if rank x = rank k then some v else lookup x entries := by
  induction entries with
  | nil => simp [bind, lookup]
  | cons entry rest ih =>
    rw [bind]
    split
    next => simp [lookup]
    next =>
      split
      next same => simp only [lookup, same]; split <;> rfl
      next differs =>
        simp only [lookup, ih]
        split
        next atEntry => rw [if_neg (by omega)]
        next => rfl

theorem lookup_filter (k x : κ) (entries : List (κ × β)) :
    lookup x (entries.filter fun entry => rank entry.1 != rank k) =
      if rank x = rank k then none else lookup x entries := by
  induction entries with
  | nil => simp [lookup]
  | cons entry rest ih =>
    by_cases removed : rank entry.1 = rank k
    next =>
      rw [List.filter_cons_of_neg (by simp [removed]), ih, lookup, removed]
      split <;> rfl
    next =>
      rw [List.filter_cons_of_pos (by simp [removed]), lookup, lookup, ih]
      split
      next same => rw [if_neg (by omega)]
      next => rfl

@[simp] theorem get?_empty (k : κ) : (empty : Table κ β).get? k = none := rfl

theorem get?_insert (t : Table κ β) (k x : κ) (v : β) :
    (t.insert k v).get? x = if rank x = rank k then some v else t.get? x :=
  lookup_bind k x v t.entries

@[simp] theorem get?_insert_self (t : Table κ β) (k : κ) (v : β) : (t.insert k v).get? k = some v := by
  simp [get?_insert]

theorem get?_insert_of_ne (t : Table κ β) {k x : κ} (v : β) (differs : x ≠ k) :
    (t.insert k v).get? x = t.get? x := by
  rw [get?_insert, if_neg fun same => differs (rank_injective same)]

theorem get?_erase (t : Table κ β) (k x : κ) :
    (t.erase k).get? x = if rank x = rank k then none else t.get? x :=
  lookup_filter k x t.entries

@[simp] theorem get?_erase_self (t : Table κ β) (k : κ) : (t.erase k).get? k = none := by
  simp [get?_erase]

theorem get?_erase_of_ne (t : Table κ β) {k x : κ} (differs : x ≠ k) :
    (t.erase k).get? x = t.get? x := by
  rw [get?_erase, if_neg fun same => differs (rank_injective same)]

theorem get?_modify (t : Table κ β) (k x : κ) (f : β → β) :
    (t.modify k f).get? x = if rank x = rank k then (t.get? k).map f else t.get? x := by
  rw [modify]
  split
  next absent =>
    split
    next same => rw [rank_injective same, absent]; rfl
    next => rfl
  next v present => simp [get?_insert, present]

theorem mem_entries_iff (t : Table κ β) (k : κ) (v : β) : (k, v) ∈ t.entries ↔ t.get? k = some v := by
  obtain ⟨entries, ordered⟩ := t
  simp only [get?]
  induction entries with
  | nil => simp [lookup]
  | cons entry rest ih =>
    have above := (List.pairwise_cons.mp ordered).1
    have tail := ih (List.pairwise_cons.mp ordered).2
    rw [lookup, List.mem_cons]
    split
    next same =>
      have key := rank_injective same
      constructor
      next =>
        rintro (rfl | later)
        next => rfl
        next => have := above _ later; simp [same] at this
      next => rintro ⟨rfl⟩; exact Or.inl (by rw [key])
    next differs =>
      rw [← tail]
      constructor
      next =>
        rintro (rfl | later)
        next => exact absurd rfl differs
        next => exact later
      next => exact Or.inr

theorem mem_keys_iff (t : Table κ β) (k : κ) : k ∈ t.keys ↔ ∃ v, t.get? k = some v := by
  simp [keys, mem_entries_iff]

theorem ascending_keys (t : Table κ β) : Ranked.Ascending t.keys :=
  List.pairwise_map.mpr t.ordered

theorem ext_get? {s t : Table κ β} (same : ∀ k, s.get? k = t.get? k) : s = t := by
  obtain ⟨left, leftOrdered⟩ := s
  obtain ⟨right, rightOrdered⟩ := t
  have listed : ∀ x, x ∈ left ↔ x ∈ right := fun x => by
    have := same x.1
    rw [show x = (x.1, x.2) from rfl, mem_entries_iff ⟨left, leftOrdered⟩,
      mem_entries_iff ⟨right, rightOrdered⟩, this]
  have equal : left = right := by
    clear same
    induction left generalizing right with
    | nil =>
      cases right with
      | nil => rfl
      | cons entry rest => simpa using listed entry
    | cons entry rest ih =>
      cases right with
      | nil => simpa using listed entry
      | cons entry' rest' =>
        have above := List.pairwise_cons.mp leftOrdered
        have above' := List.pairwise_cons.mp rightOrdered
        have heads : entry = entry' := by
          rcases List.mem_cons.mp ((listed entry).mp List.mem_cons_self) with same | later
          next => exact same
          next =>
            rcases List.mem_cons.mp ((listed entry').mpr List.mem_cons_self) with same | earlier
            next => exact same.symm
            next => have := above'.1 _ later; have := above.1 _ earlier; omega
        subst heads
        refine congrArg _ (ih above.2 rest' above'.2 fun x => ?_)
        constructor
        next =>
          intro member
          rcases List.mem_cons.mp ((listed x).mp (List.mem_cons_of_mem _ member)) with same | later
          next => have := above.1 _ member; simp [same] at this
          next => exact later
        next =>
          intro member
          rcases List.mem_cons.mp ((listed x).mpr (List.mem_cons_of_mem _ member)) with same | later
          next => have := above'.1 _ member; simp [same] at this
          next => exact later
  subst equal
  rfl

end Table

end Dataflow
