import Dataflow.Graph.Basic
import Dataflow.Proofs.Graph.Consistent
import Mathlib.Algebra.GroupWithZero.Nat

set_option autoImplicit false

namespace Dataflow.Graph

variable {graph : Graph}

def chainOffsets (graph : Graph) : Nat → TensorId → List Nat
  | 0, _ => []
  | links + 1, tensor =>
    match graph.view? tensor with
    | some view => view.offset :: chainOffsets graph links view.real
    | none => []

-- However far a chain of views is followed, its offsets sum to a word.
def OffsetsFit (graph : Graph) : Prop :=
  ∀ links tensor, (graph.chainOffsets links tensor).sum ≤ Word.largest

theorem offsetWithin_eq {links : Nat} {tensor : TensorId} {offset : Nat} (small : offset ≤ Word.largest) :
    graph.offsetWithin links tensor offset = Word.checkedAdd offset (graph.chainOffsets links tensor).sum := by
  induction links generalizing tensor offset with
  | zero => exact (if_pos small).symm
  | succ links ih =>
    rw [offsetWithin, chainOffsets]
    cases viewed : graph.view? tensor with
    | none => exact (if_pos small).symm
    | some view =>
      by_cases within : offset + view.offset ≤ Word.largest
      next =>
        have added : Word.checkedAdd offset view.offset = .ok (offset + view.offset) := if_pos within
        simp only [added, bind, Except.bind, List.sum_cons]
        rw [ih within, Word.checkedAdd, Word.checkedAdd, Nat.add_assoc]
      next =>
        have added : Word.checkedAdd offset view.offset = .error .sumOverflow := if_neg within
        simp only [added, bind, Except.bind, List.sum_cons]
        exact (if_neg (by omega)).symm

theorem realOffset_eq_checkedAdd (tensor : TensorId) :
    graph.realOffset tensor = Word.checkedAdd 0 (graph.chainOffsets graph.tensors.size tensor).sum :=
  offsetWithin_eq (Nat.zero_le _)

theorem realOffset_of_le {tensor : TensorId}
    (fits : (graph.chainOffsets graph.tensors.size tensor).sum ≤ Word.largest) :
    graph.realOffset tensor = .ok (graph.chainOffsets graph.tensors.size tensor).sum := by
  rw [realOffset_eq_checkedAdd, Word.checkedAdd, Nat.zero_add, if_pos fits]

theorem OffsetsFit.realOffset_eq (fits : graph.OffsetsFit) (tensor : TensorId) :
    graph.realOffset tensor = .ok (graph.chainOffsets graph.tensors.size tensor).sum :=
  realOffset_of_le (fits _ tensor)

inductive Resolves (graph : Graph) : TensorId → TensorId → Nat → Prop
  | real {t : TensorId} (own : graph.view? t = none) : Resolves graph t t 0
  | view {t real : TensorId} {view : Alias} {offset : Nat} (viewed : graph.view? t = some view)
      (rest : Resolves graph view.real real offset) : Resolves graph t real (view.offset + offset)

theorem Resolves.unique {t real other : TensorId} {offset otherOffset : Nat} (first : graph.Resolves t real offset)
    (second : graph.Resolves t other otherOffset) : real = other ∧ offset = otherOffset := by
  induction first generalizing otherOffset with
  | real own =>
    cases second with
    | real => exact ⟨rfl, rfl⟩
    | view viewed => rw [own] at viewed; cases viewed
  | view viewed _ ih =>
    cases second with
    | real own => rw [own] at viewed; cases viewed
    | view viewed' rest' =>
      cases viewed.symm.trans viewed'
      obtain ⟨rfl, rfl⟩ := ih rest'
      exact ⟨rfl, rfl⟩

theorem Resolves.congr {other : Graph} (same : other.view? = graph.view?) {t real : TensorId} {offset : Nat}
    (resolves : graph.Resolves t real offset) : other.Resolves t real offset := by
  induction resolves with
  | real own => exact .real (same ▸ own)
  | view viewed _ ih => exact .view (same ▸ viewed) ih

def ViewsDescend (graph : Graph) : Prop := ∀ t view, graph.view? t = some view → view.real.val < t.val

theorem Linked.viewsDescend (linked : graph.Linked) : graph.ViewsDescend := by
  intro t view viewed
  obtain ⟨tensor, found, views⟩ := Option.bind_eq_some_iff.mp viewed
  exact linked.viewBelow found views

theorem ViewsDescend.resolves_within (descends : graph.ViewsDescend) {links : Nat} {t : TensorId}
    (enough : graph.tensors.keys.countP (fun key => key.val ≤ t.val) ≤ links) :
    graph.Resolves t (graph.realWithin links t) (graph.chainOffsets links t).sum := by
  induction links generalizing t with
  | zero =>
    refine .real ?_
    by_contra viewed
    obtain ⟨view, viewed⟩ := Option.ne_none_iff_exists'.mp viewed
    obtain ⟨tensor, found, -⟩ := Option.bind_eq_some_iff.mp viewed
    have absent := List.countP_eq_zero.mp (Nat.le_zero.mp enough) t (Table.mem_keys_of_get? found)
    simp at absent
  | succ links ih =>
    rw [realWithin, chainOffsets]
    cases viewed : graph.view? t with
    | none => exact .real viewed
    | some view =>
      obtain ⟨tensor, found, -⟩ := Option.bind_eq_some_iff.mp viewed
      have older := descends t view viewed
      refine .view viewed (ih (Nat.le_of_lt_succ (Nat.lt_of_lt_of_le ?_ enough)))
      -- The tensor itself is one that its real tensor and the older ones are not.
      apply List.countP_lt_countP
      case weaker => simp only [decide_eq_true_iff]; omega
      case member => exact Table.mem_keys_of_get? found
      case fails => simpa using older
      case holds => simp

theorem ViewsDescend.resolves (descends : graph.ViewsDescend) (t : TensorId) :
    graph.Resolves t (graph.realTensor t) (graph.chainOffsets graph.tensors.size t).sum :=
  descends.resolves_within (by rw [← Table.length_keys]; exact List.countP_le_length)

theorem resolves_realTensor (linked : graph.Linked) (t : TensorId) :
    graph.Resolves t (graph.realTensor t) (graph.chainOffsets graph.tensors.size t).sum :=
  linked.viewsDescend.resolves t

theorem offsetsFit_of_bound (bound : TensorId → Nat) (small : ∀ t, bound t ≤ Word.largest)
    (falls : ∀ entry ∈ graph.tensors.entries, ∀ view ∈ entry.2.view, view.offset + bound view.real ≤ bound entry.1) :
    graph.OffsetsFit := by
  intro links t
  refine Nat.le_trans ?_ (small t)
  induction links generalizing t with
  | zero => exact Nat.zero_le _
  | succ links ih =>
    rw [chainOffsets]
    cases viewed : graph.view? t with
    | none => exact Nat.zero_le _
    | some view =>
      obtain ⟨tensor, found, own⟩ := Option.bind_eq_some_iff.mp viewed
      have lower : view.offset + bound view.real ≤ bound t :=
        falls (t, tensor) ((Table.mem_entries_iff _ _ _).mpr found) view own
      have rest := ih view.real
      simp only [List.sum_cons]
      omega

theorem offsetsFit_of_shallow (shallow : ∀ entry ∈ graph.tensors.entries, ∀ view ∈ entry.2.view,
    view.offset ≤ Word.largest ∧ graph.view? view.real = none) : graph.OffsetsFit := by
  refine offsetsFit_of_bound (fun t => ((graph.view? t).map Alias.offset).getD 0) (fun t => ?_) ?_
  next =>
    cases viewed : graph.view? t with
    | none => exact Nat.zero_le _
    | some view =>
      obtain ⟨tensor, found, own⟩ := Option.bind_eq_some_iff.mp viewed
      exact (shallow (t, tensor) ((Table.mem_entries_iff _ _ _).mpr found) view own).1
  next =>
    rintro ⟨t, tensor⟩ member view own
    have viewed : graph.view? t = some view :=
      Option.bind_eq_some_iff.mpr ⟨tensor, (Table.mem_entries_iff _ _ _).mp member, own⟩
    simp [viewed, (shallow _ member view own).2]

theorem offsetsFit_of_viewless (viewless : ∀ entry ∈ graph.tensors.entries, entry.2.view = none) :
    graph.OffsetsFit := by
  refine offsetsFit_of_shallow fun entry member view viewed => ?_
  rw [viewless entry member] at viewed
  cases viewed

end Dataflow.Graph
