import Mathlib.Data.List.Perm.Subperm
import Dataflow.Table

set_option autoImplicit false

namespace Dataflow

namespace Ranked

variable {κ : Type} [Ranked κ]

theorem Ascending.nodup {keys : List κ} (ordered : Ascending keys) : keys.Nodup := by
  refine List.Pairwise.imp ?_ ordered
  intro a b less same
  exact Nat.lt_irrefl _ (same ▸ less)

theorem Ascending.filter {keys : List κ} (ordered : Ascending keys) (p : κ → Bool) :
    Ascending (keys.filter p) :=
  List.Pairwise.filter p ordered

theorem nodup_ascending (keys : List κ) : (ascending keys).Nodup :=
  (ascending_ascending keys).nodup

theorem Ascending.ext {left right : List κ} (leftOrdered : Ascending left)
    (rightOrdered : Ascending right) (same : ∀ key, key ∈ left ↔ key ∈ right) : left = right := by
  have perm := (List.perm_ext_iff_of_nodup leftOrdered.nodup rightOrdered.nodup).mpr same
  refine perm.eq_of_pairwise ?_ leftOrdered rightOrdered
  intro a b _ _ less greater
  omega

theorem insert_insert (a : κ) (keys : List κ) : insert a (insert a keys) = insert a keys := by
  induction keys with
  | nil => simp [insert]
  | cons b rest ih =>
    by_cases below : rank a < rank b
    next => simp [insert, below]
    next => by_cases same : rank a = rank b <;> simp [insert, same, below, ih]

end Ranked

namespace Table

variable {κ β : Type} [Ranked κ]

theorem nodup_keys (t : Table κ β) : t.keys.Nodup := t.ascending_keys.nodup

theorem length_keys (t : Table κ β) : t.keys.length = t.size := List.length_map ..

theorem contains_iff (t : Table κ β) (k : κ) : t.contains k = true ↔ k ∈ t.keys := by
  rw [mem_keys_iff, contains, Option.isSome_iff_exists]

theorem mem_keys_of_get? {t : Table κ β} {k : κ} {v : β} (found : t.get? k = some v) : k ∈ t.keys :=
  (t.mem_keys_iff k).mpr ⟨v, found⟩

theorem get?_modify_eq [DecidableEq κ] (t : Table κ β) (k x : κ) (f : β → β) :
    (t.modify k f).get? x = (t.get? x).map fun v => if x = k then f v else v := by
  rw [get?_modify]
  by_cases same : x = k
  next => simp [same]
  next => simp [same, mt rank_injective same]

theorem get?_insert_eq [DecidableEq κ] (t : Table κ β) (k x : κ) (v : β) :
    (t.insert k v).get? x = if x = k then some v else t.get? x := by
  by_cases same : x = k
  next => rw [if_pos same, same, get?_insert_self]
  next => rw [if_neg same, get?_insert_of_ne _ _ same]

theorem get?_insert_eq_some [DecidableEq κ] {t : Table κ β} {k x : κ} {v w : β} :
    (t.insert k v).get? x = some w ↔ x = k ∧ w = v ∨ x ≠ k ∧ t.get? x = some w := by
  rw [get?_insert_eq]
  by_cases same : x = k <;> simp [same, eq_comm]

theorem get?_erase_eq [DecidableEq κ] (t : Table κ β) (k x : κ) :
    (t.erase k).get? x = if x = k then none else t.get? x := by
  by_cases same : x = k
  next => rw [if_pos same, same, get?_erase_self]
  next => rw [if_neg same, get?_erase_of_ne _ same]

theorem mem_values_iff (t : Table κ β) (v : β) : v ∈ t.values ↔ ∃ k, t.get? k = some v := by
  simp [values, ← mem_entries_iff]

theorem get?_foldl_insert {f : κ → β} {entries : List (κ × β)} (keyed : ∀ entry ∈ entries, entry.2 = f entry.1)
    [DecidableEq κ] (t : Table κ β) (k : κ) :
    (entries.foldl (fun t entry => t.insert entry.1 entry.2) t).get? k =
      if k ∈ entries.map Prod.fst then some (f k) else t.get? k := by
  induction entries generalizing t with
  | nil => simp
  | cons entry rest ih =>
    rw [List.foldl_cons, ih fun x member => keyed x (List.mem_cons_of_mem _ member)]
    by_cases later : k ∈ rest.map Prod.fst
    next => simp only [later, if_true, List.map_cons, List.mem_cons, or_true]
    next =>
      by_cases same : k = entry.1
      next =>
        have value := keyed entry List.mem_cons_self
        simp [same, value]
      next => simp [later, same, get?_insert_of_ne]

theorem get?_ofList_of_keyed [DecidableEq κ] {f : κ → β} {entries : List (κ × β)}
    (keyed : ∀ entry ∈ entries, entry.2 = f entry.1) (k : κ) :
    (ofList entries).get? k = if k ∈ entries.map Prod.fst then some (f k) else none := by
  rw [ofList, get?_foldl_insert keyed, get?_empty]

theorem get?_foldl_modify [DecidableEq κ] {f : β → β} (idempotent : ∀ v, f (f v) = f v) (keys : List κ)
    (t : Table κ β) (k : κ) :
    (keys.foldl (fun t key => t.modify key f) t).get? k =
      if k ∈ keys then (t.get? k).map f else t.get? k := by
  induction keys generalizing t with
  | nil => simp
  | cons key rest ih =>
    rw [List.foldl_cons, ih, get?_modify]
    by_cases same : k = key
    next =>
      subst same
      cases t.get? k <;> simp [idempotent]
    next =>
      have differs : rank k ≠ rank key := fun equal => same (rank_injective equal)
      simp [same, differs]

end Table

end Dataflow
