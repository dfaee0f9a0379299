import Dataflow.Proofs.Plane.Moves

set_option autoImplicit false

namespace Dataflow

def Graph.Keyed (graph : Graph) : Prop := ∀ id node, graph.nodes.get? id = some node → node.id = id

namespace Plane

variable {graph : Graph} {plane grown after : Plane} {done : List NodeId}

def Available (graph : Graph) (plane : Plane) (t : TensorId) : Prop :=
  (∃ clone, plane.tensorOf.get? t = some clone) ∨ ∃ tensor, graph.tensors.get? t = some tensor

inductive Lacks (graph : Graph) (plane : Plane) (node : NodeId) : GraphError → Prop
  | node (absent : graph.nodes.get? node = none) : Lacks graph plane node (.nodeNotFound node)
  | tensor {record : Node} {t : TensorId} (present : graph.nodes.get? node = some record)
      (listed : t ∈ record.allInputs ∨ t ∈ record.allOutputs) (missing : ¬ plane.Available graph t) :
      Lacks graph plane node (.tensorNotFound t)

theorem Lacks.congr {node : NodeId} {error : GraphError} (lacks : plane.Lacks graph node error)
    (available : ∀ t, after.Available graph t ↔ plane.Available graph t) : after.Lacks graph node error := by
  cases lacks with
  | node absent => exact .node absent
  | tensor present listed missing => exact .tensor present listed fun found => missing ((available _).mp found)

structure Provides (graph : Graph) (plane grown : Plane) : Prop extends plane.Grows grown where
  available_iff : ∀ t, grown.Available graph t ↔ plane.Available graph t

theorem Provides.refl (graph : Graph) (plane : Plane) : Provides graph plane plane := ⟨.refl _, fun _ => Iff.rfl⟩

theorem Provides.trans (first : Provides graph plane grown) (second : Provides graph grown after) :
    Provides graph plane after :=
  ⟨first.toGrows.trans second.toGrows, fun t => (second.available_iff t).trans (first.available_iff t)⟩

theorem cloneTensor_cases (graph : Graph) (plane : Plane) (t : TensorId) :
    (∃ clone grown, cloneTensor graph t plane = .ok clone grown ∧ plane.Available graph t ∧
      Provides graph plane grown) ∨
    cloneTensor graph t plane = .error (.tensorNotFound t) plane ∧ ¬ plane.Available graph t := by
  cases known : plane.tensorOf.get? t with
  | some clone => exact Or.inl ⟨clone, plane, cloneTensor_of_known known, Or.inl ⟨clone, known⟩, .refl graph plane⟩
  | none =>
    cases found : graph.tensors.get? t with
    | none =>
      refine Or.inr ⟨cloneTensor_of_missing known found, ?_⟩
      rintro (⟨clone, stands⟩ | ⟨tensor, present⟩)
      next => rw [known] at stands; cases stands
      next => rw [found] at present; cases present
    | some tensor =>
      refine Or.inl ⟨_, _, cloneTensor_of_new known found, Or.inr ⟨tensor, found⟩, grows_withClone known, ?_⟩
      intro other
      have new : (plane.withClone t tensor).tensorOf.get? other =
          if other = t then some ⟨plane.nextTensor⟩ else plane.tensorOf.get? other := Table.get?_insert_eq ..
      unfold Available
      rw [new]
      split
      next same => rw [same, found]; simp
      next => rfl

theorem cloneAll_cases (graph : Graph) (plane : Plane) (tensors : List TensorId) :
    (∃ clones grown, tensors.mapM (cloneTensor graph) plane = .ok clones grown ∧
      (∀ t ∈ tensors, plane.Available graph t) ∧ Provides graph plane grown) ∨
    ∃ t grown, tensors.mapM (cloneTensor graph) plane = .error (.tensorNotFound t) grown ∧
      t ∈ tensors ∧ ¬ plane.Available graph t ∧ Provides graph plane grown := by
  induction tensors generalizing plane with
  | nil => exact Or.inl ⟨[], plane, rfl, by simp, .refl graph plane⟩
  | cons t rest ih =>
    rw [List.mapM_cons]
    rcases cloneTensor_cases graph plane t with ⟨clone, grown, cloned, available, provides⟩ | ⟨failed, missing⟩
    next =>
      rw [stateful_bind_of_ok _ cloned]
      rcases ih grown with ⟨clones, final, mapped, each, provides'⟩ | ⟨other, final, failed, listed, missing, provides'⟩
      next =>
        rw [stateful_bind_of_ok _ mapped]
        refine Or.inl ⟨clone :: clones, final, rfl, fun other listed => ?_, provides.trans provides'⟩
        rcases List.mem_cons.mp listed with rfl | listed
        next => exact available
        next => exact (provides.available_iff other).mp (each other listed)
      next =>
        rw [stateful_bind_of_error _ failed]
        have missing : ¬ plane.Available graph other := fun found => missing ((provides.available_iff other).mpr found)
        exact Or.inr ⟨other, final, rfl, .tail _ listed, missing, provides.trans provides'⟩
    next =>
      rw [stateful_bind_of_error _ failed]
      exact Or.inr ⟨t, plane, rfl, .head _, missing, .refl graph plane⟩

theorem addSingle_cases (graph : Graph) {record : Node} (absent : plane.nodeOf.get? record.id = none) :
    (∃ grown inputs outputs, Provides graph plane grown ∧
      (∀ t, t ∈ record.allInputs ∨ t ∈ record.allOutputs → plane.Available graph t) ∧
      addSingle graph record plane =
        .ok ⟨grown.nextNode⟩ (grown.pushed (singleNode record ⟨grown.nextNode⟩ inputs outputs))) ∨
    ∃ t grown, Provides graph plane grown ∧ (t ∈ record.allInputs ∨ t ∈ record.allOutputs) ∧
      ¬ plane.Available graph t ∧ addSingle graph record plane = .error (.tensorNotFound t) grown := by
  rw [addSingle_of_absent absent]
  rcases cloneAll_cases graph plane record.allInputs with
    ⟨inputs, between, mapped, available, provides⟩ | ⟨t, grown, failed, listed, missing, provides⟩
  next =>
    rw [stateful_bind_of_ok _ mapped]
    rcases cloneAll_cases graph between record.allOutputs with
      ⟨outputs, grown, mapped', available', provides'⟩ | ⟨t, grown, failed, listed, missing, provides'⟩
    next =>
      rw [stateful_bind_of_ok _ mapped', pushNode_eq]
      refine Or.inl ⟨grown, _, outputs, provides.trans provides', fun t listed => ?_, rfl⟩
      rcases listed with reads | writes
      next => exact available t reads
      next => exact (provides.available_iff t).mp (available' t writes)
    next =>
      rw [stateful_bind_of_error _ failed]
      exact Or.inr ⟨t, grown, provides.trans provides', Or.inr listed,
        fun found => missing ((provides.available_iff t).mpr found), rfl⟩
  next =>
    rw [stateful_bind_of_error _ failed]
    exact Or.inr ⟨t, grown, provides, Or.inl listed, missing, rfl⟩

structure Regains (graph : Graph) (plane : Plane) (done : List NodeId) (after : Plane) : Prop where
  seated : after.Seated
  bundleOf_eq : after.bundleOf = plane.bundleOf
  available_iff : ∀ t, after.Available graph t ↔ plane.Available graph t
  nextNode_le : plane.nextNode ≤ after.nextNode
  nodes_eq : ∀ id : PlaneNodeId, id.val < plane.nextNode → after.graph.nodes.get? id = plane.graph.nodes.get? id
  alone : ∀ node ∈ done, after.Alone node
  nodeOf_eq : ∀ node, node ∉ done → after.nodeOf.get? node = plane.nodeOf.get? node

namespace Regains

theorem start (graph : Graph) (seated : plane.Seated) : Regains graph plane [] plane where
  seated := seated
  bundleOf_eq := rfl
  available_iff _ := Iff.rfl
  nextNode_le := Nat.le_refl _
  nodes_eq _ _ := rfl
  alone _ listed := by cases listed
  nodeOf_eq _ _ := rfl

theorem provided (regains : Regains graph plane done after) (provides : Provides graph after grown) :
    Regains graph plane done grown where
  seated := regains.seated.of_same (by rw [provides.graph_eq]) provides.nodeOf_eq provides.nextNode_eq
  bundleOf_eq := provides.bundleOf_eq.trans regains.bundleOf_eq
  available_iff t := (provides.available_iff t).trans (regains.available_iff t)
  nextNode_le := provides.nextNode_eq ▸ regains.nextNode_le
  nodes_eq id older := by rw [provides.graph_eq]; exact regains.nodes_eq id older
  alone node listed := by
    unfold Alone
    rw [provides.nodeOf_eq, provides.graph_eq]
    exact regains.alone node listed
  nodeOf_eq node other := provides.nodeOf_eq ▸ regains.nodeOf_eq node other

theorem pushed (regains : Regains graph plane done after) {record : Node} (absent : after.nodeOf.get? record.id = none)
    (inputs outputs : List PlaneTensorId) :
    Regains graph plane (done ++ [record.id])
      (after.pushed (singleNode record ⟨after.nextNode⟩ inputs outputs)) := by
  have nodeOf (node : NodeId) : (after.pushed (singleNode record ⟨after.nextNode⟩ inputs outputs)).nodeOf.get? node =
      if node ∈ [record.id] then some ⟨after.nextNode⟩ else after.nodeOf.get? node := get?_nodeOf_pushed ..
  have nodes (id : PlaneNodeId) :
      (after.pushed (singleNode record ⟨after.nextNode⟩ inputs outputs)).graph.nodes.get? id =
        if id = ⟨after.nextNode⟩ then some (singleNode record ⟨after.nextNode⟩ inputs outputs)
        else after.graph.nodes.get? id := by
    show (after.graph.addNode _).nodes.get? id = _
    rw [PlaneGraph.nodes_addNode]
    exact Table.get?_insert_eq ..
  constructor
  case seated =>
    have move : Move True after (after.pushed (singleNode record ⟨after.nextNode⟩ inputs outputs)) :=
      .arrive rfl rfl rfl absent
    exact regains.seated.move move
  case bundleOf_eq => exact regains.bundleOf_eq
  case available_iff => exact regains.available_iff
  case nextNode_le => exact Nat.le_succ_of_le regains.nextNode_le
  case nodes_eq =>
    intro id older
    have other : id ≠ ⟨after.nextNode⟩ := by
      rintro rfl
      exact Nat.not_lt.mpr regains.nextNode_le older
    rw [nodes, if_neg other, regains.nodes_eq id older]
  case alone =>
    intro node listed
    rcases List.mem_append.mp listed with earlier | last
    next =>
      obtain ⟨id, found, stands, there, plain⟩ := regains.alone node earlier
      have differs : node ∉ [record.id] := by
        intro last
        rw [List.mem_singleton.mp last, absent] at stands
        cases stands
      -- The plane nodes of the members that came before are numbered below the new one.
      have other : id ≠ ⟨after.nextNode⟩ := by
        rintro rfl
        exact Nat.lt_irrefl _ (regains.seated.below (PlaneGraph.seat?_of_found there))
      exact ⟨id, found, by rw [nodeOf, if_neg differs, stands], by rw [nodes, if_neg other, there], plain⟩
    next => exact ⟨_, _, by rw [nodeOf, if_pos last], by rw [nodes, if_pos rfl], rfl⟩
  case nodeOf_eq =>
    intro node other
    obtain ⟨earlier, last⟩ := not_or.mp (mt List.mem_append.mpr other)
    rw [nodeOf, if_neg last, regains.nodeOf_eq node earlier]

theorem restore (regains : Regains graph plane done after) (keyed : graph.Keyed) {member : NodeId}
    (absent : after.nodeOf.get? member = none) :
    (∃ final, restoreMember graph member after = .ok ⟨⟩ final ∧ (∀ error, ¬ plane.Lacks graph member error) ∧
      Regains graph plane (done ++ [member]) final) ∨
    ∃ error final, restoreMember graph member after = .error error final ∧ plane.Lacks graph member error ∧
      Regains graph plane done final := by
  have same (t : TensorId) := (regains.available_iff t).symm
  unfold restoreMember Graph.get
  cases present : graph.nodes.get? member with
  | none => exact Or.inr ⟨_, after, rfl, .node present, regains⟩
  | some record =>
    cases keyed member record present
    rcases addSingle_cases graph absent with
      ⟨grown, inputs, outputs, provides, available, added⟩ | ⟨t, grown, provides, listed, missing, failed⟩
    next =>
      refine Or.inl ⟨_, stateful_discard_eq_ok.mpr ⟨_, added⟩, fun error lacks => ?_, ?_⟩
      next =>
        cases lacks with
        | node gone => rw [present] at gone; cases gone
        | tensor present' listed missing =>
          cases present.symm.trans present'
          exact missing ((same _).mpr (available _ listed))
      next => exact (regains.provided provides).pushed (provides.nodeOf_eq ▸ absent) inputs outputs
    next =>
      refine Or.inr ⟨_, grown, stateful_discard_of_error failed, ?_, regains.provided provides⟩
      exact .congr (.tensor present listed missing) same

theorem restoreAll (keyed : graph.Keyed) (members : List NodeId) (regains : Regains graph plane done after)
    (distinct : (done ++ members).Nodup) (absent : ∀ member ∈ members, plane.nodeOf.get? member = none) :
    (∃ final, members.forM (restoreMember graph) after = .ok ⟨⟩ final ∧
      (∀ member ∈ members, ∀ error, ¬ plane.Lacks graph member error) ∧
      Regains graph plane (done ++ members) final) ∨
    ∃ error final front member rest, members.forM (restoreMember graph) after = .error error final ∧
      members = front ++ member :: rest ∧ plane.Lacks graph member error ∧
      Regains graph plane (done ++ front) final := by
  -- The list of those that are back grows at its end, so the invariant is about the whole of it.
  induction members generalizing done after with
  | nil => exact Or.inl ⟨after, rfl, by simp, by simpa using regains⟩
  | cons member rest ih =>
    obtain ⟨new, -⟩ := List.nodup_cons.mp (List.nodup_middle.mp distinct)
    have outside : member ∉ done := fun earlier => new (List.mem_append_left _ earlier)
    have split : done ++ member :: rest = done ++ [member] ++ rest := by simp
    rw [split] at distinct ⊢
    rcases regains.restore keyed ((regains.nodeOf_eq member outside).trans (absent member (.head _))) with
      ⟨between, added, fine, regains⟩ | ⟨error, final, failed, lacks, regains⟩
    next =>
      have continues := stateful_bind_of_ok (fun _ => rest.forM (restoreMember graph)) added
      rcases ih regains distinct fun other listed => absent other (.tail _ listed) with
        ⟨final, ended, each, regains⟩ | ⟨error, final, front, other, later, failed, rfl, lacks, regains⟩
      next =>
        refine Or.inl ⟨final, continues.trans ended, fun other listed => ?_, regains⟩
        rcases List.mem_cons.mp listed with rfl | listed
        next => exact fine
        next => exact each other listed
      next =>
        refine Or.inr ⟨error, final, member :: front, other, later, continues.trans failed, rfl, lacks, ?_⟩
        simpa using regains
    next =>
      refine Or.inr ⟨error, final, [], member, rest, stateful_bind_of_error _ failed, rfl, lacks, ?_⟩
      simpa using regains

end Regains

-- The members before the one that the error is about stand alone, this one and those after it nowhere.
structure Strands (graph : Graph) (plane : Plane) (found : PlaneNode) (error : GraphError) (after : Plane) : Prop where
  there : plane.graph.nodes.get? found.id = some found
  stood : ∀ node ∈ found.members, plane.nodeOf.get? node = some found.id
  gone : after.graph.nodes.get? found.id = none
  forgotten : ∀ index, found.bundleIndex? = some index → after.bundleOf.get? index = none
  split : ∃ front member rest, found.members = front ++ member :: rest ∧ plane.Lacks graph member error ∧
    (∀ node ∈ front, after.Alone node) ∧ ∀ node ∈ member :: rest, after.nodeOf.get? node = none

def Frail (graph : Graph) (plane : Plane) (node : NodeId) : Prop :=
  ∃ found, plane.planeNode node = .ok found ∧ found.isBundle ∧ found.members.length ≠ 1 ∧
    ∃ member ∈ found.members, ∃ error, plane.Lacks graph member error

section Dismantling

variable {node : NodeId} {found : PlaneNode} {info : BundleInfo} (seated : plane.Seated) (keyed : graph.Keyed)
include seated keyed

theorem removeBundle_cases (asked : plane.planeNode node = .ok found) (bundle : found.bundle = some info)
    (several : found.members.length ≠ 1) :
    (∃ final, removeBundle graph node plane = .ok ⟨⟩ final ∧ ¬ plane.Frail graph node ∧
      Regains graph (plane.dismissed found) found.members final) ∨
    ∃ error final, removeBundle graph node plane = .error error final ∧ plane.Frail graph node ∧
      plane.Strands graph found error final := by
  obtain ⟨id, stands, there⟩ := planeNode_eq_ok.mp asked
  cases seated.id_eq there
  have seat := PlaneGraph.seat?_of_found there
  have move : Move True plane (plane.dismissed found) := .dismiss there
  have absent (member : NodeId) (inside : member ∈ found.members) :
      (plane.dismissed found).nodeOf.get? member = none := by
    refine (get?_foldl_erase found.members plane.nodeOf member).trans ?_
    rw [if_pos inside]
  rw [removeBundle_of_several asked bundle several]
  have distinct : found.members.Nodup := seated.distinct seat
  -- The bundle is gone before the first member is put back; from there on it is the run over the members.
  rcases (Regains.start graph (seated.move move)).restoreAll keyed found.members distinct absent with
    ⟨final, ended, each, regains⟩ | ⟨error, final, front, member, rest, failed, members, lacks, regains⟩
  next =>
    refine Or.inl ⟨final, ended, ?_, regains⟩
    rintro ⟨same, asked', -, -, member, inside, error, lacks⟩
    cases asked.symm.trans asked'
    exact each member inside error (lacks.congr fun _ => Iff.rfl)
  next =>
    have lacks : plane.Lacks graph member error := lacks.congr fun _ => Iff.rfl
    have bundled : found.isBundle := by rw [PlaneNode.isBundle, bundle]; rfl
    have inside : member ∈ found.members := by simp [members]
    refine Or.inr ⟨error, final, failed, ⟨found, asked, bundled, several, member, inside, error, lacks⟩, ?_⟩
    constructor
    case there => exact there
    case stood => exact fun node inside => (seated.mem_iff seat node).mp inside
    case gone =>
      rw [regains.nodes_eq found.id (seated.below seat)]
      show (plane.graph.removeNode found).nodes.get? found.id = none
      rw [PlaneGraph.nodes_removeNode, Table.get?_erase_self]
    case forgotten =>
      intro index has
      rw [regains.bundleOf_eq, dismissed, has]
      exact Table.get?_erase_self ..
    case split =>
      refine ⟨front, member, rest, members, lacks, regains.alone, fun node left => ?_⟩
      rw [members] at distinct
      have later : node ∉ [] ++ front := fun earlier => List.disjoint_of_nodup_append distinct earlier left
      rw [regains.nodeOf_eq node later]
      exact absent node (members ▸ List.mem_append_right front left)

end Dismantling

theorem fuse_declines (nodes : List PlaneNodeId) (info : BundleInfo) : Declines (fuse nodes info) plane :=
  ⟨fun _ => trivial, fuse_eq_error⟩

theorem createBundle_declines (nodes : List NodeId) (info : BundleInfo) : Declines (createBundle nodes info) plane := by
  unfold createBundle
  by_cases empty : nodes.isEmpty
  next => rw [if_pos empty]; exact concludes_of_refused rfl rfl
  next =>
    rw [if_neg empty]
    refine concludes_get_bind ?_
    by_cases taken : plane.bundleOf.contains info.bundleIndex
    next => rw [if_pos taken]; exact concludes_of_refused rfl rfl
    next => rw [if_neg taken]; exact concludes_query_bind rfl fun _ => fuse_declines _ info

theorem addNewBundle_declines (node : NodeId) (info : BundleInfo) : Declines (addNewBundle node info) plane := by
  unfold addNewBundle
  refine concludes_query_bind rfl fun _ => concludes_query_bind rfl fun {found} _ => ?_
  split
  next => exact concludes_of_ok rfl trivial
  next => exact concludes_of_ok rfl trivial

theorem addToBundle_declines (node : NodeId) (info : BundleInfo) : Declines (addToBundle node info) plane := by
  unfold addToBundle
  refine concludes_get_bind ?_
  cases plane.bundleOf.get? info.bundleIndex with
  | none => exact addNewBundle_declines node info
  | some bundle =>
    refine concludes_query_bind rfl fun {candidate} _ => ?_
    by_cases same : candidate = bundle
    next => rw [if_pos same]; exact concludes_of_ok rfl trivial
    next =>
      rw [if_neg same]
      by_cases bundled : (plane.graph.nodes.get? candidate).any PlaneNode.isBundle
      next => rw [if_pos bundled]; exact concludes_of_refused rfl rfl
      next =>
        rw [if_neg bundled]
        exact (fuse_declines _ info).discard.bind fun _ _ => concludes_of_ok rfl trivial

theorem replaceNode_declines (old new : NodeId) : Declines (replaceNode old new) plane := by
  unfold replaceNode unlessFrozen
  refine concludes_get_bind ?_
  split
  next => exact concludes_of_ok rfl trivial
  next =>
    refine concludes_query_bind rfl fun _ => concludes_get_bind ?_
    by_cases known : plane.nodeOf.contains new
    next => rw [if_pos known]; exact concludes_of_refused rfl rfl
    next => rw [if_neg known]; exact concludes_of_ok rfl trivial

theorem createBundle_completes {nodes : List NodeId} {info : BundleInfo} (occupied : nodes ≠ [])
    (free : plane.bundleOf.get? info.bundleIndex = none) (alone : ∀ node ∈ nodes, plane.Alone node) :
    Completes (fun _ => True) (createBundle nodes info) plane := by
  obtain ⟨ids, asked, mem_iff⟩ := mapM_ok fun node inside => by
    obtain ⟨id, found, stands, there, plain⟩ := alone node inside
    exact ⟨id, unbundled_of_alone stands there plain⟩
  obtain ⟨members, mapped, -⟩ := @mapM_ok _ _ _ plane.membersOf ids.eraseDups fun id listed => by
    obtain ⟨node, -, answered⟩ := (mem_iff id).mp (List.mem_eraseDups.mp listed)
    obtain ⟨found, there, -⟩ := plain_of_unbundled answered
    exact ⟨found.members, by rw [membersOf, there]⟩
  unfold createBundle
  rw [if_neg (by simpa using occupied)]
  refine concludes_get_bind ?_
  rw [Table.contains, free]
  exact concludes_query_bind_of_ok asked (fuse_completes mapped trivial)

theorem Seated.others_ne_nil (seated : plane.Seated) {node : NodeId} {found : PlaneNode}
    (asked : plane.planeNode node = .ok found) (several : found.members.length ≠ 1) :
    found.members.filter (· ≠ node) ≠ [] := by
  obtain ⟨id, stands, there⟩ := planeNode_eq_ok.mp asked
  have inside : node ∈ found.members := (seated.mem_iff (PlaneGraph.seat?_of_found there) node).mpr stands
  have distinct : found.members.Nodup := seated.distinct (PlaneGraph.seat?_of_found there)
  intro none
  have same (member : NodeId) (listed : member ∈ found.members) : member = node := by
    simpa using List.filter_eq_nil_iff.mp none member listed
  refine several (Nat.le_antisymm ?_ (List.length_pos_of_mem inside))
  exact (List.Nodup.subperm distinct fun member listed => List.mem_singleton.mpr (same member listed)).length_le

section Dismantling

variable {node : NodeId} (seated : plane.Seated) (keyed : graph.Keyed)
include seated keyed

theorem removeBundle_declines (sturdy : ¬ plane.Frail graph node) : Declines (removeBundle graph node) plane := by
  cases asked : plane.planeNode node with
  | error error => exact concludes_of_refused (stateful_bind_of_error _ (query_of_error asked)) rfl
  | ok found =>
    cases bundle : found.bundle with
    | none => exact concludes_of_refused (removeBundle_of_plain asked bundle) rfl
    | some info =>
      by_cases several : found.members.length = 1
      next => exact concludes_of_ok (removeBundle_of_alone asked bundle several) trivial
      next =>
        rcases removeBundle_cases seated keyed asked bundle several with ⟨final, ended, -⟩ | ⟨_, _, -, frail, -⟩
        next => exact concludes_of_ok ended trivial
        next => exact absurd frail sturdy

theorem unbundle_declines (sturdy : ¬ plane.Frail graph node) : Declines (unbundle graph node) plane := by
  cases asked : plane.planeNode node with
  | error error => exact concludes_of_refused (stateful_bind_of_error _ (query_of_error asked)) rfl
  | ok found =>
    cases bundle : found.bundle with
    | none => exact concludes_of_ok (unbundle_of_plain asked bundle) trivial
    | some info =>
      by_cases several : found.members.length = 1
      next => exact concludes_of_ok (unbundle_of_alone asked bundle several) trivial
      next =>
        rcases removeBundle_cases seated keyed asked bundle several with
          ⟨final, ended, -, regains⟩ | ⟨_, _, -, frail, -⟩
        next =>
          -- The others stand alone now and the index of their bundle is free, so nothing but a cycle is in the way.
          have free : final.bundleOf.get? info.bundleIndex = none := by
            rw [regains.bundleOf_eq, dismissed, PlaneNode.bundleIndex?, bundle]
            exact Table.get?_erase_self ..
          have alone (member : NodeId) (left : member ∈ found.members.filter (· ≠ node)) : final.Alone member :=
            regains.alone member (List.mem_of_mem_filter left)
          have occupied := seated.others_ne_nil asked several
          refine .of_eq (unbundle_of_several asked bundle several) (.of_eq (stateful_bind_of_ok _ ended) ?_)
          exact (createBundle_completes occupied free alone).discard.mono id False.elim
        next => exact absurd frail sturdy

variable (frail : plane.Frail graph node)
include frail

theorem removeBundle_strands : ∃ found error after,
    removeBundle graph node plane = .error error after ∧ plane.Strands graph found error after := by
  obtain ⟨found, asked, bundled, several, -⟩ := id frail
  obtain ⟨info, bundle⟩ := Option.isSome_iff_exists.mp bundled
  rcases removeBundle_cases seated keyed asked bundle several with
    ⟨_, -, sturdy, -⟩ | ⟨error, after, failed, -, strands⟩
  next => exact absurd frail sturdy
  next => exact ⟨found, error, after, failed, strands⟩

theorem unbundle_strands : ∃ found error after,
    unbundle graph node plane = .error error after ∧ plane.Strands graph found error after := by
  obtain ⟨same, asked, bundled, several, -⟩ := id frail
  obtain ⟨info, bundle⟩ := Option.isSome_iff_exists.mp bundled
  obtain ⟨found, error, after, failed, strands⟩ := removeBundle_strands seated keyed frail
  refine ⟨found, error, after, ?_, strands⟩
  rw [unbundle_of_several asked bundle several, stateful_bind_of_error _ failed]

end Dismantling

namespace Rebundling

def Breaks (graph : Graph) (plane : Plane) : Rebundling → Prop
  | .regroup (.create _ _) => False
  | .regroup (.add _ _) => False
  | .regroup (.remove node) => plane.Frail graph node
  | .regroup (.unbundle node) => plane.Frail graph node
  | .mark _ _ => False
  | .replace _ _ => False

variable {operation : Rebundling} (seated : plane.Seated) (keyed : graph.Keyed)
include seated keyed

theorem declines (careful : ¬ operation.Breaks graph plane) : Declines (operation.perform graph) plane := by
  cases operation with
  | regroup operation =>
    cases operation with
    | create nodes info => exact (createBundle_declines nodes info).discard
    | add node info => exact (addToBundle_declines node info).discard
    | remove node => exact removeBundle_declines seated keyed careful
    | unbundle node => exact unbundle_declines seated keyed careful
  | mark node info => exact (addNewBundle_declines node info).discard
  | replace old new => exact replaceNode_declines old new

theorem strands (breaks : operation.Breaks graph plane) : ∃ found error after,
    operation.perform graph plane = .error error after ∧ plane.Strands graph found error after := by
  cases operation with
  | regroup operation =>
    cases operation with
    | create | add => cases breaks
    | remove node => exact removeBundle_strands seated keyed breaks
    | unbundle node => exact unbundle_strands seated keyed breaks
  | mark | replace => cases breaks

end Rebundling

end Plane

end Dataflow
