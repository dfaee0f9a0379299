import Dataflow.Table

set_option autoImplicit false

namespace Dataflow

inductive Entity where
  | node
  | tensor
  | planeNode
  | planeTensor
  deriving DecidableEq

structure Ident (entity : Entity) where
  val : Nat
  deriving DecidableEq

abbrev NodeId := Ident .node
abbrev TensorId := Ident .tensor
abbrev PlaneNodeId := Ident .planeNode
abbrev PlaneTensorId := Ident .planeTensor

def Entity.letters : Entity → String
  | .node => "n"
  | .tensor => "t"
  | .planeNode => "bp"
  | .planeTensor => "bpt"

namespace Ident

variable {entity : Entity}

theorem ext {a b : Ident entity} (same : a.val = b.val) : a = b := by
  cases a; cases b; exact congrArg _ same

instance : Inhabited (Ident entity) := ⟨⟨0⟩⟩

instance : LawfulBEq (Ident entity) := inferInstance

instance : Ranked (Ident entity) := ⟨val, ext⟩

instance : LT (Ident entity) := ⟨fun a b => a.val < b.val⟩

instance (a b : Ident entity) : Decidable (a < b) := inferInstanceAs (Decidable (a.val < b.val))

instance : Ord (Ident entity) := ⟨fun a b => compare a.val b.val⟩

@[simp] theorem rank_eq (a : Ident entity) : rank a = a.val := rfl

def text (a : Ident entity) : String := entity.letters ++ toString a.val

instance : ToString (Ident entity) := ⟨text⟩

end Ident

end Dataflow
