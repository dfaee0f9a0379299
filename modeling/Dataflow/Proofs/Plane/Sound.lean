import Dataflow.Plane.Update
import Dataflow.Proofs.Graph.Edit
import Dataflow.Proofs.Operations
import Dataflow.Proofs.Plane.Graph

set_option autoImplicit false

namespace Dataflow

structure PlaneNode.Faithful (graph : Graph) (tensorOf : Table TensorId PlaneTensorId) (node : PlaneNode) :
    Prop where
  single : node.bundle = none → ∃ member, node.members = [member]
  cloned : ∀ {clone}, clone ∈ node.inputs ∨ clone ∈ node.outputs → ∃ t, tensorOf.get? t = some clone
  produces : ∀ {clone t}, clone ∈ node.outputs → tensorOf.get? t = some clone →
    ∃ tensor, graph.tensors.get? t = some tensor ∧ ∃ producer ∈ node.members, tensor.producer = some producer
  -- An exposed input may be gone from the graph.
  consumes : ∀ {clone t tensor}, clone ∈ node.inputs → tensorOf.get? t = some clone →
    graph.tensors.get? t = some tensor → ∃ consumer ∈ node.members, consumer ∈ tensor.consumers

namespace Plane

variable {graph : Graph} {plane : Plane}

theorem query_eq_ok {α : Type} {question : Plane → Except GraphError α} {answer : α} {after : Plane} :
    query question plane = .ok answer after ↔ question plane = .ok answer ∧ after = plane := by
  unfold query
  rw [stateful_get_bind]
  cases question plane with
  | error error =>
    constructor
    next => intro ended; cases ended
    next => rintro ⟨answered, -⟩; cases answered
  | ok found =>
    constructor
    next => rintro ⟨⟩; exact ⟨rfl, rfl⟩
    next => rintro ⟨⟨⟩, rfl⟩; rfl

theorem query_bind_eq_ok {α β : Type} {question : Plane → Except GraphError α} {next : α → PlaneM β} {result : β}
    {after : Plane} : (query question >>= next) plane = .ok result after ↔
      ∃ answer, question plane = .ok answer ∧ next answer plane = .ok result after := by
  rw [stateful_bind_eq_ok]
  constructor
  next =>
    rintro ⟨answer, between, asked, rest⟩
    obtain ⟨answered, rfl⟩ := query_eq_ok.mp asked
    exact ⟨answer, answered, rest⟩
  next => exact fun ⟨answer, answered, rest⟩ => ⟨answer, plane, query_eq_ok.mpr ⟨answered, rfl⟩, rest⟩

theorem query_of_error {α : Type} {question : Plane → Except GraphError α} {error : GraphError}
    (fails : question plane = .error error) : query question plane = .error error plane := by
  unfold query
  rw [stateful_get_bind]
  rw [fails]
  rfl

theorem concludes_query {α : Type} {P : Plane → Prop} {question : Plane → Except GraphError α} (holds : P plane) :
    Maintains P (query question) plane := by
  cases answered : question plane with
  | error => exact concludes_of_refused (query_of_error answered) holds
  | ok => exact concludes_of_ok (query_eq_ok.mpr ⟨answered, rfl⟩) holds

theorem concludes_query_bind {α β : Type} {made refused : Plane → Prop} {question : Plane → Except GraphError α}
    {next : α → PlaneM β} (holds : refused plane)
    (rest : ∀ {answer}, question plane = .ok answer → Concludes made refused (next answer) plane) :
    Concludes made refused (query question >>= next) plane := by
  cases answered : question plane with
  | error error => exact concludes_of_refused (stateful_bind_of_error _ (query_of_error answered)) holds
  | ok answer => exact .of_eq (stateful_bind_of_ok next (query_eq_ok.mpr ⟨answered, rfl⟩)) (rest answered)

theorem concludes_query_bind_of_ok {α β : Type} {made refused : Plane → Prop} {question : Plane → Except GraphError α}
    {next : α → PlaneM β} {answer : α} (answered : question plane = .ok answer)
    (rest : Concludes made refused (next answer) plane) : Concludes made refused (query question >>= next) plane :=
  .of_eq (stateful_bind_of_ok next (query_eq_ok.mpr ⟨answered, rfl⟩)) rest

structure Sound (graph : Graph) (plane : Plane) : Prop where
  indexed : plane.graph.Indexed
  nodeOf_iff : ∀ node id, plane.nodeOf.get? node = some id ↔
    ∃ found, plane.graph.nodes.get? id = some found ∧ node ∈ found.members
  nodeBelow : ∀ {id found}, plane.graph.nodes.get? id = some found → id.val < plane.nextNode
  cloneBelow : ∀ {t clone}, plane.tensorOf.get? t = some clone → clone.val < plane.nextTensor
  originBelow : ∀ {t clone}, plane.tensorOf.get? t = some clone → t.val < graph.nextTensor
  injective : ∀ {t other clone}, plane.tensorOf.get? t = some clone →
    plane.tensorOf.get? other = some clone → t = other
  faithful : ∀ {id found}, plane.graph.nodes.get? id = some found → found.Faithful graph plane.tensorOf

theorem sound_empty (graph : Graph) (accepts : Node → Bool) : Sound graph { accepts } := by
  constructor
  case indexed => exact PlaneGraph.indexed_empty
  case nodeOf_iff =>
    intro node id
    constructor
    next => intro found; cases found
    next => rintro ⟨found, there, -⟩; cases there
  all_goals intros; contradiction

structure Grows (plane grown : Plane) : Prop where
  graph_eq : grown.graph = plane.graph
  nodeOf_eq : grown.nodeOf = plane.nodeOf
  bundleOf_eq : grown.bundleOf = plane.bundleOf
  frozen_eq : grown.frozen = plane.frozen
  accepts_eq : grown.accepts = plane.accepts
  nextNode_eq : grown.nextNode = plane.nextNode
  keeps : ∀ {t clone}, plane.tensorOf.get? t = some clone → grown.tensorOf.get? t = some clone

theorem Grows.refl (plane : Plane) : plane.Grows plane := ⟨rfl, rfl, rfl, rfl, rfl, rfl, id⟩

theorem Grows.trans {grown final : Plane} (first : plane.Grows grown) (second : grown.Grows final) :
    plane.Grows final where
  graph_eq := second.graph_eq.trans first.graph_eq
  nodeOf_eq := second.nodeOf_eq.trans first.nodeOf_eq
  bundleOf_eq := second.bundleOf_eq.trans first.bundleOf_eq
  frozen_eq := second.frozen_eq.trans first.frozen_eq
  accepts_eq := second.accepts_eq.trans first.accepts_eq
  nextNode_eq := second.nextNode_eq.trans first.nextNode_eq
  keeps := second.keeps ∘ first.keeps

def withClone (plane : Plane) (t : TensorId) (tensor : Tensor) : Plane :=
  { plane with
    tensors := plane.tensors.insert ⟨plane.nextTensor⟩
      { id := ⟨plane.nextTensor⟩, origin := t, name := tensor.name, sizeBytes := tensor.sizeBytes }
    tensorOf := plane.tensorOf.insert t ⟨plane.nextTensor⟩
    nextTensor := plane.nextTensor + 1 }

theorem cloneTensor_of_known {t : TensorId} {clone : PlaneTensorId}
    (known : plane.tensorOf.get? t = some clone) : cloneTensor graph t plane = .ok clone plane := by
  unfold cloneTensor
  rw [stateful_get_bind]
  rw [known]
  rfl

theorem cloneTensor_of_new {t : TensorId} {tensor : Tensor} (new : plane.tensorOf.get? t = none)
    (found : graph.tensors.get? t = some tensor) :
    cloneTensor graph t plane = .ok ⟨plane.nextTensor⟩ (plane.withClone t tensor) := by
  unfold cloneTensor
  rw [stateful_get_bind]
  rw [new]
  simp only [found]
  rfl

theorem cloneTensor_of_missing {t : TensorId} (new : plane.tensorOf.get? t = none)
    (missing : graph.tensors.get? t = none) : cloneTensor graph t plane = .error (.tensorNotFound t) plane := by
  unfold cloneTensor
  rw [stateful_get_bind]
  rw [new]
  simp only [missing]
  rfl

theorem Sound.withClone (sound : plane.Sound graph) {t : TensorId} {tensor : Tensor}
    (new : plane.tensorOf.get? t = none) (below : t.val < graph.nextTensor) :
    (plane.withClone t tensor).Sound graph := by
  have cases_get {other : TensorId} {clone : PlaneTensorId}
      (stands : (plane.withClone t tensor).tensorOf.get? other = some clone) :
      other = t ∧ clone = ⟨plane.nextTensor⟩ ∨ other ≠ t ∧ plane.tensorOf.get? other = some clone :=
    Table.get?_insert_eq_some.mp stands
  have older {other : TensorId} : plane.tensorOf.get? other ≠ some ⟨plane.nextTensor⟩ :=
    fun stood => Nat.lt_irrefl _ (sound.cloneBelow stood)
  -- A clone that some node lists is older than the new one, so it stands for the tensor it stood for.
  have listed {found : PlaneNode} {clone : PlaneTensorId} {other : TensorId}
      (faithful : found.Faithful graph plane.tensorOf) (lists : clone ∈ found.inputs ∨ clone ∈ found.outputs)
      (stands : (plane.withClone t tensor).tensorOf.get? other = some clone) :
      plane.tensorOf.get? other = some clone := by
    rcases cases_get stands with ⟨-, rfl⟩ | ⟨-, old⟩
    next =>
      obtain ⟨_, stood⟩ := faithful.cloned lists
      exact absurd stood older
    next => exact old
  constructor
  case indexed => exact sound.indexed
  case nodeOf_iff => exact sound.nodeOf_iff
  case nodeBelow => exact sound.nodeBelow
  case cloneBelow =>
    intro other clone stands
    rcases cases_get stands with ⟨-, rfl⟩ | ⟨-, old⟩
    next => exact Nat.lt_succ_self _
    next => exact Nat.lt_succ_of_lt (sound.cloneBelow old)
  case originBelow =>
    intro other clone stands
    rcases cases_get stands with ⟨rfl, -⟩ | ⟨-, old⟩
    next => exact below
    next => exact sound.originBelow old
  case injective =>
    intro left right clone leftStands rightStands
    rcases cases_get leftStands with ⟨rfl, rfl⟩ | ⟨-, first⟩ <;> rcases cases_get rightStands with ⟨rfl, same⟩ | ⟨-, second⟩
    · rfl
    · exact absurd second older
    · exact absurd (same ▸ first) older
    · exact sound.injective first second
  case faithful =>
    intro id found there
    have faithful := sound.faithful there
    refine ⟨faithful.single, fun lists => ?_, ?_, ?_⟩
    next =>
      obtain ⟨older, stood⟩ := faithful.cloned lists
      have differs : older ≠ t := by rintro rfl; rw [new] at stood; cases stood
      exact ⟨older, (Table.get?_insert_of_ne _ _ differs).trans stood⟩
    next => exact fun lists stands => faithful.produces lists (listed faithful (Or.inr lists) stands)
    next => exact fun lists stands => faithful.consumes lists (listed faithful (Or.inl lists) stands)

theorem grows_withClone {t : TensorId} {tensor : Tensor} (new : plane.tensorOf.get? t = none) :
    plane.Grows (plane.withClone t tensor) := by
  refine ⟨rfl, rfl, rfl, rfl, rfl, rfl, fun {other clone} stands => ?_⟩
  have differs : other ≠ t := by rintro rfl; rw [new] at stands; cases stands
  exact (Table.get?_insert_of_ne _ _ differs).trans stands

theorem Sound.cloneTensor_eq_ok (linked : graph.Linked) (sound : plane.Sound graph) {t : TensorId}
    {clone : PlaneTensorId} {grown : Plane} (cloned : cloneTensor graph t plane = .ok clone grown) :
    plane.Grows grown ∧ grown.Sound graph ∧ grown.tensorOf.get? t = some clone := by
  cases known : plane.tensorOf.get? t with
  | some old =>
    rw [cloneTensor_of_known known] at cloned
    cases cloned
    exact ⟨.refl _, sound, known⟩
  | none =>
    cases found : graph.tensors.get? t with
    | none =>
      rw [cloneTensor_of_missing known found] at cloned
      cases cloned
    | some tensor =>
      rw [cloneTensor_of_new known found] at cloned
      cases cloned
      exact ⟨grows_withClone known, sound.withClone known (linked.tensorBelow found), Table.get?_insert_self ..⟩

theorem cloneTensor_ok (plane : Plane) {t : TensorId} {tensor : Tensor} (found : graph.tensors.get? t = some tensor) :
    ∃ clone grown, cloneTensor graph t plane = .ok clone grown := by
  cases known : plane.tensorOf.get? t with
  | some old => exact ⟨old, plane, cloneTensor_of_known known⟩
  | none => exact ⟨_, _, cloneTensor_of_new known found⟩

theorem cloneAll_ok (plane : Plane) {tensors : List TensorId}
    (found : ∀ t ∈ tensors, ∃ tensor, graph.tensors.get? t = some tensor) :
    ∃ clones grown, tensors.mapM (cloneTensor graph) plane = .ok clones grown := by
  induction tensors generalizing plane with
  | nil => exact ⟨[], plane, rfl⟩
  | cons t rest ih =>
    obtain ⟨tensor, present⟩ := found t (.head _)
    obtain ⟨clone, grown, cloned⟩ := cloneTensor_ok plane present
    obtain ⟨clones, final, mapped⟩ := ih grown fun other member => found other (.tail _ member)
    refine ⟨clone :: clones, final, ?_⟩
    rw [List.mapM_cons, stateful_bind_of_ok _ cloned, stateful_bind_of_ok _ mapped]
    rfl

structure Clones (tensorOf : Table TensorId PlaneTensorId) (tensors : List TensorId) (clones : List PlaneTensorId) :
    Prop where
  mem_iff : ∀ clone, clone ∈ clones ↔ ∃ t ∈ tensors, tensorOf.get? t = some clone
  total : ∀ t ∈ tensors, ∃ clone, tensorOf.get? t = some clone

theorem Clones.grow {grown : Plane} {tensors : List TensorId} {clones : List PlaneTensorId}
    (cloned : Clones plane.tensorOf tensors clones) (grows : plane.Grows grown) :
    Clones grown.tensorOf tensors clones := by
  constructor
  case mem_iff =>
    intro clone
    rw [cloned.mem_iff]
    constructor
    next => exact fun ⟨t, listed, stands⟩ => ⟨t, listed, grows.keeps stands⟩
    next =>
      rintro ⟨t, listed, stands⟩
      obtain ⟨older, stood⟩ := cloned.total t listed
      cases (grows.keeps stood).symm.trans stands
      exact ⟨t, listed, stood⟩
  case total =>
    intro t listed
    obtain ⟨clone, stands⟩ := cloned.total t listed
    exact ⟨clone, grows.keeps stands⟩

theorem Sound.cloneAll_eq_ok (linked : graph.Linked) (sound : plane.Sound graph) {tensors : List TensorId}
    {clones : List PlaneTensorId} {grown : Plane}
    (mapped : tensors.mapM (cloneTensor graph) plane = .ok clones grown) :
    plane.Grows grown ∧ grown.Sound graph ∧ Clones grown.tensorOf tensors clones := by
  induction tensors generalizing plane clones with
  | nil => cases mapped; exact ⟨.refl _, sound, by simp, by simp⟩
  | cons t rest ih =>
    rw [List.mapM_cons] at mapped
    obtain ⟨clone, between, cloned, mapped⟩ := stateful_bind_eq_ok.mp mapped
    obtain ⟨others, final, mapped, ended⟩ := stateful_bind_eq_ok.mp mapped
    cases ended
    obtain ⟨grows, sound, own⟩ := sound.cloneTensor_eq_ok linked cloned
    obtain ⟨grows', sound, others⟩ := ih sound mapped
    have kept := grows'.keeps own
    refine ⟨grows.trans grows', sound, fun other => ?_, ?_⟩
    next => simp [others.mem_iff, kept, eq_comm]
    next =>
      intro other listed
      rcases List.mem_cons.mp listed with rfl | listed
      next => exact ⟨clone, kept⟩
      next => exact others.total other listed

theorem get?_foldl_insert_members (members : List NodeId) (id : PlaneNodeId) (nodeOf : Table NodeId PlaneNodeId)
    (node : NodeId) : (members.foldl (fun nodeOf member => nodeOf.insert member id) nodeOf).get? node =
      if node ∈ members then some id else nodeOf.get? node := by
  have keyed : ∀ entry ∈ members.map fun member => (member, id), entry.2 = id := by simp
  simpa [List.foldl_map, Function.comp_def] using Table.get?_foldl_insert (f := fun _ => id) keyed nodeOf node

def pushed (plane : Plane) (node : PlaneNode) : Plane :=
  { plane with
    graph := plane.graph.addNode node
    nodeOf := node.members.foldl (fun nodeOf member => nodeOf.insert member ⟨plane.nextNode⟩) plane.nodeOf
    nextNode := plane.nextNode + 1 }

theorem pushNode_eq (record : PlaneNodeId → PlaneNode) (plane : Plane) :
    pushNode record plane = .ok ⟨plane.nextNode⟩ (plane.pushed (record ⟨plane.nextNode⟩)) := rfl

theorem nodes_pushed (node : PlaneNode) : (plane.pushed node).graph.nodes = plane.graph.nodes.insert node.id node :=
  PlaneGraph.nodes_addNode _ _

theorem get?_nodeOf_pushed (node : PlaneNode) (member : NodeId) : (plane.pushed node).nodeOf.get? member =
    if member ∈ node.members then some ⟨plane.nextNode⟩ else plane.nodeOf.get? member :=
  get?_foldl_insert_members ..

theorem cases_pushed {node found : PlaneNode} {id : PlaneNodeId}
    (there : (plane.pushed node).graph.nodes.get? id = some found) :
    id = node.id ∧ found = node ∨ id ≠ node.id ∧ plane.graph.nodes.get? id = some found := by
  rw [nodes_pushed] at there
  exact Table.get?_insert_eq_some.mp there

theorem Sound.nextNode_unused (sound : plane.Sound graph) : plane.graph.nodes.get? ⟨plane.nextNode⟩ = none := by
  by_contra present
  obtain ⟨found, there⟩ := Option.ne_none_iff_exists'.mp present
  exact Nat.lt_irrefl _ (sound.nodeBelow there)

theorem Sound.unproduced_of_fresh (sound : plane.Sound graph) {node : PlaneNode}
    (fresh : ∀ member ∈ node.members, plane.nodeOf.get? member = none) (faithful : node.Faithful graph plane.tensorOf)
    {clone : PlaneTensorId} (lists : clone ∈ node.outputs) : plane.graph.producerOf.get? clone = none := by
  by_contra produced
  obtain ⟨id, produced⟩ := Option.ne_none_iff_exists'.mp produced
  obtain ⟨other, there, otherLists⟩ := (sound.indexed.producer_iff clone id).mp produced
  obtain ⟨t, stands⟩ := faithful.cloned (Or.inr lists)
  obtain ⟨tensor, present, producer, member, produces⟩ := faithful.produces lists stands
  -- An older node that shows the clone would have the one producer of the tensor among its members.
  obtain ⟨tensor', present', producer', member', produces'⟩ := (sound.faithful there).produces otherLists stands
  cases present.symm.trans present'
  cases produces.symm.trans produces'
  have mapped := (sound.nodeOf_iff producer id).mpr ⟨other, there, member'⟩
  rw [fresh producer member] at mapped
  cases mapped

theorem Sound.pushed (sound : plane.Sound graph) {node : PlaneNode} {nodeOf : Table NodeId PlaneNodeId}
    (own : node.id = ⟨plane.nextNode⟩) (fresh : ∀ member ∈ node.members, plane.nodeOf.get? member = none)
    (agrees : ∀ other, other ∉ node.members → nodeOf.get? other = plane.nodeOf.get? other)
    (faithful : node.Faithful graph plane.tensorOf) :
    Sound graph ({ plane with nodeOf := nodeOf }.pushed node) := by
  have absent : plane.graph.nodes.get? node.id = none := own ▸ sound.nextNode_unused
  constructor
  case indexed => exact sound.indexed.addNode absent fun _ lists => sound.unproduced_of_fresh fresh faithful lists
  case nodeOf_iff =>
    intro member id
    have members : (∃ found, ({ plane with nodeOf := nodeOf }.pushed node).graph.nodes.get? id = some found ∧
        member ∈ found.members) ↔ id = node.id ∧ member ∈ node.members ∨ plane.nodeOf.get? member = some id := by
      rw [nodes_pushed, Table.get?_insert_eq, sound.nodeOf_iff]
      by_cases new : id = node.id
      next => simp [new, absent]
      next => simp [new]
    rw [members, get?_nodeOf_pushed]
    by_cases within : member ∈ node.members
    next => simp [within, fresh member within, own, eq_comm]
    next => simpa [within] using congrArg (· = some id) (agrees member within)
  case nodeBelow =>
    intro id found there
    rcases cases_pushed there with ⟨rfl, rfl⟩ | ⟨-, old⟩
    next => rw [own]; exact Nat.lt_succ_self _
    next => exact Nat.lt_succ_of_lt (sound.nodeBelow old)
  case cloneBelow => exact sound.cloneBelow
  case originBelow => exact sound.originBelow
  case injective => exact sound.injective
  case faithful =>
    intro id found there
    rcases cases_pushed there with ⟨rfl, rfl⟩ | ⟨-, old⟩
    next => exact faithful
    next => exact sound.faithful old

def singleNode (node : Node) (id : PlaneNodeId) (inputs outputs : List PlaneTensorId) : PlaneNode :=
  { id, name := node.name, inputs, outputs, members := [node.id] }

theorem addSingle_of_absent {node : Node} (absent : plane.nodeOf.get? node.id = none) :
    addSingle graph node plane = (do
      let inputs ← node.allInputs.mapM (cloneTensor graph)
      let outputs ← node.allOutputs.mapM (cloneTensor graph)
      pushNode fun id => singleNode node id inputs.eraseDups outputs) plane := by
  have unknown : plane.nodeOf.contains node.id = false := by rw [Table.contains, absent]; rfl
  unfold addSingle
  rw [stateful_get_bind]
  rw [unknown]
  rfl

theorem faithful_of_clones (linked : graph.Linked) (sound : plane.Sound graph) {node : PlaneNode}
    {reads writes : List TensorId} (single : node.bundle = none → ∃ member, node.members = [member])
    (readsCloned : Clones plane.tensorOf reads node.inputs) (writesCloned : Clones plane.tensorOf writes node.outputs)
    (read : ∀ t ∈ reads, ∃ id ∈ node.members, ∃ member, graph.nodes.get? id = some member ∧ t ∈ member.allInputs)
    (written : ∀ t ∈ writes, ∃ id ∈ node.members, ∃ member, graph.nodes.get? id = some member ∧ t ∈ member.allOutputs)
    (there : ∀ t ∈ writes, ∃ tensor, graph.tensors.get? t = some tensor) :
    node.Faithful graph plane.tensorOf := by
  constructor
  case single => exact single
  case cloned =>
    rintro clone (lists | lists)
    next =>
      obtain ⟨t, -, stands⟩ := (readsCloned.mem_iff clone).mp lists
      exact ⟨t, stands⟩
    next =>
      obtain ⟨t, -, stands⟩ := (writesCloned.mem_iff clone).mp lists
      exact ⟨t, stands⟩
  case produces =>
    intro clone t lists stands
    obtain ⟨own, listed, ownStands⟩ := (writesCloned.mem_iff clone).mp lists
    cases sound.injective stands ownStands
    obtain ⟨id, inside, member, present, lists⟩ := written t listed
    obtain ⟨tensor, there⟩ := there t listed
    exact ⟨tensor, there, id, inside, (linked.producer_iff there _).mpr ⟨member, present, lists⟩⟩
  case consumes =>
    intro clone t tensor lists stands there
    obtain ⟨own, listed, ownStands⟩ := (readsCloned.mem_iff clone).mp lists
    cases sound.injective stands ownStands
    obtain ⟨id, inside, member, present, lists⟩ := read t listed
    exact ⟨id, inside, (linked.consumer_iff there _).mpr ⟨member, present, lists⟩⟩

theorem Sound.addSingle_eq_ok (linked : graph.Linked) (sound : plane.Sound graph) {node : Node}
    (present : graph.nodes.get? node.id = some node)
    (outputsThere : ∀ t ∈ node.allOutputs, ∃ tensor, graph.tensors.get? t = some tensor) {id : PlaneNodeId}
    {final : Plane} (added : addSingle graph node plane = .ok id final) :
    ∃ grown inputs outputs, plane.Grows grown ∧ plane.nodeOf.get? node.id = none ∧ id = ⟨plane.nextNode⟩ ∧
      final = grown.pushed (singleNode node id inputs outputs) ∧ final.Sound graph ∧
      Clones grown.tensorOf node.allInputs inputs ∧ Clones grown.tensorOf node.allOutputs outputs := by
  cases known : plane.nodeOf.get? node.id with
  | some old =>
    have fails : addSingle graph node plane = .error (.alreadyInPlane node.id) plane := by
      have there : plane.nodeOf.contains node.id = true := by rw [Table.contains, known]; rfl
      unfold addSingle
      rw [stateful_get_bind]
      rw [there]
      rfl
    rw [fails] at added
    cases added
  | none =>
    rw [addSingle_of_absent known] at added
    obtain ⟨inputs, between, mapped, added⟩ := stateful_bind_eq_ok.mp added
    obtain ⟨outputs, grown, mapped', added⟩ := stateful_bind_eq_ok.mp added
    rw [pushNode_eq] at added
    cases added
    obtain ⟨grows, sound, inputsCloned⟩ := sound.cloneAll_eq_ok linked mapped
    obtain ⟨grows', sound, outputsCloned⟩ := sound.cloneAll_eq_ok linked mapped'
    have grows := grows.trans grows'
    have inputsCloned : Clones grown.tensorOf node.allInputs inputs.eraseDups :=
      have cloned := inputsCloned.grow grows'
      ⟨fun clone => by rw [List.mem_eraseDups, cloned.mem_iff], cloned.total⟩
    refine ⟨grown, _, outputs, grows, rfl, by rw [grows.nextNode_eq], rfl, ?_, inputsCloned, outputsCloned⟩
    refine sound.pushed rfl ?_ (fun _ _ => rfl) ?_
    next =>
      intro member listed
      rw [List.mem_singleton.mp listed, grows.nodeOf_eq, known]
    next =>
      exact faithful_of_clones linked sound (fun _ => ⟨node.id, rfl⟩) inputsCloned outputsCloned
        (fun t listed => ⟨node.id, .head _, node, present, listed⟩)
        (fun t listed => ⟨node.id, .head _, node, present, listed⟩) outputsThere

theorem addSingle_ok {node : Node} (absent : plane.nodeOf.get? node.id = none)
    (there : ∀ t, t ∈ node.allInputs ∨ t ∈ node.allOutputs → ∃ tensor, graph.tensors.get? t = some tensor) :
    ∃ id final, addSingle graph node plane = .ok id final := by
  obtain ⟨inputs, between, mapped⟩ := cloneAll_ok plane fun t listed => there t (Or.inl listed)
  obtain ⟨outputs, grown, mapped'⟩ := cloneAll_ok between fun t listed => there t (Or.inr listed)
  rw [addSingle_of_absent absent, stateful_bind_of_ok _ mapped, stateful_bind_of_ok _ mapped', pushNode_eq]
  exact ⟨_, _, rfl⟩

theorem Sound.setBundles (sound : plane.Sound graph) (bundleOf : Table UInt32 PlaneNodeId) :
    Sound graph { plane with bundleOf := bundleOf } :=
  { indexed := sound.indexed, nodeOf_iff := sound.nodeOf_iff, nodeBelow := sound.nodeBelow
    cloneBelow := sound.cloneBelow, originBelow := sound.originBelow, injective := sound.injective
    faithful := sound.faithful }

def bundleNode (info : BundleInfo) (id : PlaneNodeId) (inputs outputs : List PlaneTensorId) (members : List NodeId) :
    PlaneNode :=
  { id, name := bundleName info, inputs, outputs, members, bundle := some info }

theorem pushBundle_eq (info : BundleInfo) (inputs outputs : List PlaneTensorId) (members : List NodeId)
    (plane : Plane) : pushBundle info inputs outputs members plane = .ok ⟨plane.nextNode⟩
      { plane.pushed (bundleNode info ⟨plane.nextNode⟩ inputs outputs members) with
        bundleOf := plane.bundleOf.insert info.bundleIndex ⟨plane.nextNode⟩ } := rfl

end Plane

end Dataflow
