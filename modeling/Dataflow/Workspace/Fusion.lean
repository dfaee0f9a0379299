import Dataflow.Workspace.Transaction

set_option autoImplicit false

namespace Dataflow

namespace Graph

variable (graph : Graph)

def externalTensors (members : List NodeId) (nodes : List Node) : List TensorId × List TensorId :=
  let inputs := (nodes.flatMap Node.allInputs).filter fun t => !(graph.producer? t).any (· ∈ members)
  let outputs := (nodes.flatMap Node.allOutputs).filter fun t =>
    let consumers := graph.tensorConsumers t
    consumers.isEmpty || consumers.any (· ∉ members)
  (Ranked.ascending inputs, Ranked.ascending outputs)

end Graph

namespace Workspace

def collapse (members : List NodeId) (inputs outputs : List TensorId) : TransactionM Bool := do
  members.forM Transaction.removeNode
  discard <| Transaction.addNode { name := "fusion_probe" } inputs outputs
  return !(← get).workspace.graph.isAcyclic

-- Only the counters move on.
def fusionCreatesCycle (nodes : List NodeId) : EditM Bool := do
  let members := Ranked.ascending nodes
  let graph := (← get).graph
  match members.mapM graph.get with
  | .error error => throw error
  | .ok found =>
    let (inputs, outputs) := graph.externalTensors members found
    let (answer, transaction) := match collapse members inputs outputs (Transaction.speculate (← get)) with
      | .ok cyclic transaction => (Except.ok cyclic, transaction)
      | .error error transaction => (Except.error error, transaction)
    match transaction.finish false with
    | .error fault => throw (.fault fault)
    | .ok workspace =>
      set workspace
      match answer with
      | .ok cyclic => return cyclic
      | .error error => throw error

end Workspace

end Dataflow
