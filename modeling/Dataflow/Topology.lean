import Dataflow.Error

set_option autoImplicit false

namespace Dataflow.Kahn

variable {κ : Type} [Ranked κ]

structure Pending (κ : Type) [Ranked κ] where
  degrees : Table κ Nat
  ready : List κ

def Pending.release (pending : Pending κ) (key : κ) : Except Fault (Pending κ) :=
  match pending.degrees.get? key with
  | none => .ok pending
  | some 0 => .error .differenceOverflow
  | some (degree + 1) =>
    .ok { degrees := pending.degrees.insert key degree
          ready := if degree = 0 then Ranked.insert key pending.ready else pending.ready }

def emit (successors : κ → List κ) : Nat → Pending κ → Except Fault (List κ)
  | 0, _ => .ok []
  | count + 1, pending =>
    match pending.ready with
    | [] => .ok []
    | key :: ready => do
      let pending ← (successors key).foldlM Pending.release { pending with ready }
      return key :: (← emit successors count pending)

def order? (degrees : Table κ Nat) (successors : κ → List κ) : Except Fault (Option (List κ)) := do
  let ready := (degrees.entries.filter fun entry => entry.2 == 0).map Prod.fst
  let order ← emit successors degrees.size { degrees, ready }
  return if order.length = degrees.size then some order else none

end Dataflow.Kahn

namespace Dataflow.PathCount

variable {κ : Type} [Ranked κ] [DecidableEq κ]

def push (count : Nat) (counts : Table κ Nat) (successor : κ) : Table κ Nat :=
  counts.insert successor (Word.saturatingAdd ((counts.get? successor).getD 0) count)

def forward (successors : κ → List κ) (target : κ) : List κ → Table κ Nat → Table κ Nat
  | [], counts => counts
  | key :: rest, counts =>
    if key = target then counts
    else
      match counts.get? key with
      | none => forward successors target rest counts
      | some count => forward successors target rest ((successors key).foldl (push count) counts)

def count (order : Option (List κ)) (successors : κ → List κ) (source target : κ) : Nat :=
  if source = target then 1
  else
    match order with
    | none => 0
    | some order =>
      ((forward successors target order (Table.empty.insert source 1)).get? target).getD 0

end Dataflow.PathCount

namespace Dataflow.Reach

variable {κ : Type} [Ranked κ] [DecidableEq κ]

def spread (successors : κ → List κ) : Nat → List κ → List κ → List κ
  | 0, seen, _ => seen
  | rounds + 1, seen, front =>
    match (Ranked.ascending (front.flatMap successors)).filter fun key => key ∉ seen with
    | [] => seen
    | fresh => spread successors rounds (seen ++ fresh) fresh

def reaches (successors : κ → List κ) (rounds : Nat) (source target : κ) : Bool :=
  target ∈ spread successors rounds [source] [source]

end Dataflow.Reach
