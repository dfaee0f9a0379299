import Dataflow.Proofs.Schedule.Passes

set_option autoImplicit false

namespace Dataflow

def SameBut (node : NodeId) (order moved : List NodeId) : Prop :=
  moved.filter (· ≠ node) = order.filter (· ≠ node)

def OnlyBetween (property : NodeId → Prop) (order : List NodeId) (first last : NodeId) : Prop :=
  ∀ other ∈ order, order.idxOf first < order.idxOf other → order.idxOf other < order.idxOf last → property other

structure IsEarliest (order nodes : List NodeId) (first : NodeId) : Prop where
  listed : first ∈ nodes
  inside : first ∈ order
  least : ∀ other ∈ nodes, other ∈ order → order.idxOf first ≤ order.idxOf other

theorem isEarliest_earliest? {order nodes : List NodeId} {first : NodeId} (found : earliest? order nodes = some first) :
    IsEarliest order nodes first := by
  obtain ⟨listed, inside, least⟩ := earliest?_eq_some found
  exact ⟨listed, inside, least⟩

theorem exists_earliest? {order nodes : List NodeId} {node : NodeId} (listed : node ∈ nodes) (inside : node ∈ order) :
    ∃ first, earliest? order nodes = some first :=
  exists_pick_placed (fun index => (index : Int)) (by simp) listed inside

namespace SameBut

variable {node : NodeId} {order moved : List NodeId}

theorem moveBefore {anchor : NodeId} (move : moveBefore? order node anchor = some moved) :
    SameBut node order moved := by
  obtain ⟨before, mid, after, rfl, rfl, -⟩ := moveBefore?_eq_some move
  simp [SameBut]

variable (same : SameBut node order moved)
include same

theorem mem_iff {other : NodeId} (differs : other ≠ node) : other ∈ moved ↔ other ∈ order := by
  have kept := congrArg (other ∈ ·) same
  simpa [differs] using kept

theorem idxOf_lt_iff {a b : NodeId} (differs : a ≠ node) (differs' : b ≠ node) :
    moved.idxOf a < moved.idxOf b ↔ order.idxOf a < order.idxOf b := by
  have kept (other : NodeId) (apart : other ≠ node) : decide (other ≠ node) = true := decide_eq_true apart
  rw [← List.idxOf_filter_lt_iff (· ≠ node) (kept a differs) (kept b differs') moved, same,
    List.idxOf_filter_lt_iff (· ≠ node) (kept a differs) (kept b differs') order]

theorem idxOf_le_iff {a b : NodeId} (differs : a ≠ node) (differs' : b ≠ node) :
    moved.idxOf a ≤ moved.idxOf b ↔ order.idxOf a ≤ order.idxOf b := by
  rw [← Nat.not_lt, same.idxOf_lt_iff differs' differs, Nat.not_lt]

theorem isEarliest {nodes : List NodeId} {first : NodeId} (unlisted : node ∉ nodes)
    (earliest : IsEarliest order nodes first) : IsEarliest moved nodes first := by
  have differs : ∀ other ∈ nodes, other ≠ node := fun other listed equal => unlisted (equal ▸ listed)
  have differ := differs first earliest.listed
  refine ⟨earliest.listed, (same.mem_iff differ).mpr earliest.inside, fun other listed inside => ?_⟩
  rw [same.idxOf_le_iff differ (differs other listed)]
  exact earliest.least other listed ((same.mem_iff (differs other listed)).mp inside)

theorem onlyBetween {property : NodeId → Prop} {first last : NodeId} (holds : property node) (differs : first ≠ node)
    (differs' : last ≠ node) (only : OnlyBetween property order first last) : OnlyBetween property moved first last := by
  intro other inside behind ahead
  by_cases isNode : other = node
  -- Nothing else can have come between the two.
  next => exact isNode ▸ holds
  next =>
    rw [same.idxOf_lt_iff differs isNode] at behind
    rw [same.idxOf_lt_iff isNode differs'] at ahead
    exact only other ((same.mem_iff isNode).mp inside) behind ahead

end SameBut

theorem idxOf_anchor_le {order : List NodeId} {node anchor : NodeId} (nodup : order.Nodup) (inside : node ∈ order)
    (inside' : anchor ∈ order) :
    ((moveBefore? order node anchor).getD order).idxOf anchor ≤
      ((moveBefore? order node anchor).getD order).idxOf node + 1 := by
  cases move : moveBefore? order node anchor with
  | none =>
    -- A node stays where it is only if it is next to its anchor or behind it.
    simp only [moveBefore?, Option.bind_eq_bind, position?_eq_some.mpr ⟨inside, rfl⟩,
      position?_eq_some.mpr ⟨inside', rfl⟩, Option.bind_some] at move
    split at move
    next => cases move
    next close => exact Nat.not_lt.mp close
  | some moved =>
    obtain ⟨before, mid, after, rfl, rfl, fresh⟩ := moveBefore?_eq_some move
    have first : node ∉ before ++ mid := by
      simp only [List.nodup_append, List.nodup_cons, List.mem_append, List.mem_cons] at nodup ⊢
      grind
    have second : anchor ∉ before ++ mid ++ [node] := by simpa [or_assoc, or_comm, or_left_comm] using fresh
    have place := List.idxOf_split second after
    simp only [List.append_assoc, List.cons_append, List.nil_append] at place
    rw [Option.getD_some, List.idxOf_split first]
    simp [place, Nat.add_assoc]

theorem moveEach_settles {move : List NodeId → NodeId → Option (List NodeId)} {P : List NodeId → Prop}
    {Settled : NodeId → List NodeId → Prop} {apart : NodeId → NodeId → Prop} {nodes order : List NodeId}
    (pairwise : nodes.Pairwise apart) (start : P order)
    (keeps : ∀ {order node moved}, node ∈ nodes → P order → move order node = some moved → P moved)
    (settles : ∀ {order node}, node ∈ nodes → P order → Settled node ((move order node).getD order))
    (lasts : ∀ {order node done moved}, node ∈ nodes → apart done node → P order → Settled done order →
      move order node = some moved → Settled done moved) :
    ∀ node ∈ nodes, Settled node (moveEach move order nodes).2 := by
  induction nodes generalizing order with
  | nil => simp
  | cons head rest ih =>
    obtain ⟨separate, pairwise⟩ := List.pairwise_cons.mp pairwise
    have unfolded : (moveEach move order (head :: rest)).2 = (moveEach move ((move order head).getD order) rest).2 := by
      rw [moveEach]
      cases move order head <;> rfl
    have kept : P ((move order head).getD order) := by
      cases moves : move order head with
      | none => exact start
      | some moved => exact keeps (.head _) start moves
    rw [unfolded, List.forall_mem_cons]
    constructor
    next =>
      -- From here on the head counts as done.
      refine (moveEach_invariant (P := fun order => P order ∧ Settled head order) ⟨kept, settles (.head _) start⟩ ?_).2
      intro order node moved member holds moves
      exact ⟨keeps (.tail _ member) holds.1 moves, lasts (.tail _ member) (separate node member) holds.1 holds.2 moves⟩
    next =>
      exact ih pairwise kept (fun member => keeps (.tail _ member)) (fun member => settles (.tail _ member))
        fun member => lasts (.tail _ member)

namespace Graph

variable {graph : Graph} {deps : Dependencies} {order moved : List NodeId} {node : NodeId}

def FreeMemset (graph : Graph) (id : NodeId) : Prop :=
  ∃ node, graph.nodes.get? id = some node ∧ node.isMemset = true ∧ node.bundleIndex? = none

structure HeadsBundle (graph : Graph) (order : List NodeId) (node head : NodeId) : Prop where
  inside : head ∈ order
  bundle : graph.bundleOf head = graph.bundleOf node
  alone : graph.bundleOf node = none → head = node
  least : graph.bundleOf node ≠ none → ∀ other ∈ order, graph.bundleOf other = graph.bundleOf node →
    order.idxOf head ≤ order.idxOf other

theorem FreeMemset.bundleOf (free : graph.FreeMemset node) : graph.bundleOf node = none := by
  obtain ⟨found, known, -, loose⟩ := free
  simp [Graph.bundleOf, known, loose]

theorem FreeMemset.known (free : graph.FreeMemset node) : node ∈ graph.nodeIds := by
  obtain ⟨found, known, -⟩ := free
  simp [mem_nodeIds_iff, known]

theorem heads_memsetAnchor (graph : Graph) {first : NodeId} (inside : first ∈ order) :
    graph.HeadsBundle order first (graph.memsetAnchor order first) := by
  cases bundled : graph.bundleOf first with
  | none =>
    have alone : graph.memsetAnchor order first = first := by simp [memsetAnchor, bundled]
    rw [alone]
    exact ⟨inside, rfl, fun _ => rfl, fun grouped => absurd bundled grouped⟩
  | some bundle =>
    have some : ∃ head, order.find? (fun node => graph.bundleOf node = some bundle) = some head := by
      rw [← Option.isSome_iff_exists, List.find?_isSome]
      exact ⟨first, inside, by simpa using bundled⟩
    obtain ⟨head, found⟩ := some
    have anchor : ∀ other, graph.bundleOf other = some bundle → graph.memsetAnchor order other = head := by
      intro other member
      simp [memsetAnchor, member, found]
    rw [anchor first bundled]
    refine ⟨List.mem_of_find?_eq_some found, ?_, fun alone => ?_, fun _ other _ member => ?_⟩
    next => simpa [bundled] using List.find?_some found
    next => simp [bundled] at alone
    next =>
      rw [bundled] at member
      exact anchor other member ▸ idxOf_memsetAnchor_le graph order other

theorem HeadsBundle.sameBut {first head : NodeId} (heads : graph.HeadsBundle order first head) (same : SameBut node order moved)
    (loose : graph.bundleOf node = none) (differs : first ≠ node) : graph.HeadsBundle moved first head ∧ head ≠ node := by
  have grouped : ∀ other, graph.bundleOf first ≠ none → graph.bundleOf other = graph.bundleOf first → other ≠ node := by
    rintro other some member rfl
    exact some (member.symm.trans loose)
  have differs' : head ≠ node := by
    cases bundled : graph.bundleOf first with
    | none => exact heads.alone bundled ▸ differs
    | some bundle => exact grouped head (by simp [bundled]) heads.bundle
  refine ⟨⟨(same.mem_iff differs').mpr heads.inside, heads.bundle, heads.alone, ?_⟩, differs'⟩
  intro some other inside member
  have differs'' := grouped other some member
  rw [same.idxOf_le_iff differs' differs'']
  exact heads.least some other ((same.mem_iff differs'').mp inside) member

def MemsetSettled (graph : Graph) (deps : Dependencies) (memset : NodeId) (order : List NodeId) : Prop :=
  ∃ first anchor, IsEarliest order (deps.dependents memset) first ∧ graph.HeadsBundle order first anchor ∧
    anchor ≠ memset ∧ OnlyBetween graph.FreeMemset order memset anchor

section Memsets

variable {memset first anchor : NodeId}

theorem anchored_sameBut (same : SameBut node order moved) (free : graph.FreeMemset node)
    (unserved : node ∉ deps.dependents memset) (earliest : IsEarliest order (deps.dependents memset) first)
    (heads : graph.HeadsBundle order first anchor) :
    IsEarliest moved (deps.dependents memset) first ∧ graph.HeadsBundle moved first anchor ∧ anchor ≠ node := by
  have differs : first ≠ node := fun equal => unserved (equal ▸ earliest.listed)
  exact ⟨same.isEarliest unserved earliest, heads.sameBut same free.bundleOf differs⟩

theorem moveMemset_sameBut (move : graph.moveMemset deps order node = some moved) : SameBut node order moved := by
  simp only [moveMemset, Option.bind_eq_bind, Option.bind_eq_some_iff] at move
  obtain ⟨first, -, move⟩ := move
  exact .moveBefore move

theorem MemsetSettled.sameBut (settled : graph.MemsetSettled deps memset order) (same : SameBut node order moved)
    (free : graph.FreeMemset node) (unserved : node ∉ deps.dependents memset) (differs : memset ≠ node) :
    graph.MemsetSettled deps memset moved := by
  obtain ⟨first, anchor, earliest, heads, apart, only⟩ := settled
  obtain ⟨earliest', heads', differs'⟩ := anchored_sameBut same free unserved earliest heads
  exact ⟨first, anchor, earliest', heads', apart, same.onlyBetween free differs differs' only⟩

theorem settled_moveMemset (nodup : order.Nodup) (inside : memset ∈ order) (free : graph.FreeMemset memset)
    (loopless : memset ∉ deps.dependents memset) (serves : ∃ waiting ∈ deps.dependents memset, waiting ∈ order) :
    graph.MemsetSettled deps memset ((graph.moveMemset deps order memset).getD order) := by
  obtain ⟨waiting, listed, present⟩ := serves
  obtain ⟨first, found⟩ := exists_earliest? listed present
  have earliest := isEarliest_earliest? found
  have heads := heads_memsetAnchor graph earliest.inside
  have close := idxOf_anchor_le nodup inside heads.inside
  have moves : graph.moveMemset deps order memset = moveBefore? order memset (graph.memsetAnchor order first) := by
    simp [moveMemset, found]
  rw [← moves] at close
  have same : SameBut memset order ((graph.moveMemset deps order memset).getD order) := by
    cases move : graph.moveMemset deps order memset with
    | none => rfl
    | some moved => exact moveMemset_sameBut move
  -- The memset itself is the only node that moved, so the anchor it was moved to is its anchor still.
  obtain ⟨earliest', heads', apart⟩ := anchored_sameBut same free loopless earliest heads
  refine ⟨first, _, earliest', heads', apart, fun other _ behind ahead => ?_⟩
  omega

theorem known_of_mem_blockers {filter : EdgeFilter} {blocking blocked : NodeId}
    (blocks : blocking ∈ (graph.dependencies filter).blockers blocked) : blocked ∈ graph.nodeIds := by
  rw [Dependencies.blockers, get?_blockersOf] at blocks
  cases present : graph.nodes.get? blocked with
  | none => simp [present] at blocks
  | some node => simp [mem_nodeIds_iff, present]

def usedMemsets (graph : Graph) (deps : Dependencies) (order : List NodeId) : List NodeId :=
  (graph.having (fun node => node.isMemset && node.bundleIndex?.isNone) order).filter
    fun node => !(deps.dependents node).isEmpty

theorem optimizeMemsets_eq (graph : Graph) (deps : Dependencies) (order : List NodeId) :
    graph.optimizeMemsets deps order = moveEach (graph.moveMemset deps) order (graph.usedMemsets deps order).reverse := rfl

theorem mem_usedMemsets :
    memset ∈ graph.usedMemsets deps order ↔ memset ∈ order ∧ graph.FreeMemset memset ∧ deps.dependents memset ≠ [] := by
  simp only [usedMemsets, having, FreeMemset, List.mem_filter, Option.any_eq_true, Bool.and_eq_true,
    Option.isNone_iff_eq_none, Bool.not_eq_true', List.isEmpty_eq_false_iff, and_assoc]

theorem usedMemsets_sublist : (graph.usedMemsets deps order).Sublist order :=
  List.filter_sublist.trans List.filter_sublist

theorem usedMemsets_apart {filter : EdgeFilter} (nodup : order.Nodup)
    (inOrder : (graph.dependencies filter).InOrder order) :
    (graph.usedMemsets (graph.dependencies filter) order).reverse.Pairwise fun done node =>
      done ≠ node ∧ node ∉ (graph.dependencies filter).dependents done := by
  obtain ⟨pairwise, -⟩ := (Dependencies.inOrder_iff nodup).mp inOrder
  -- The pass goes from behind, so what it has yet to move stands earlier in the order than what it has moved,
  -- and cannot wait for it.
  rw [List.pairwise_reverse]
  apply List.Pairwise.sublist usedMemsets_sublist
  refine (List.pairwise_and_iff.mpr ⟨nodup, pairwise⟩).imp ?_
  rintro earlier later ⟨differ, unblocked⟩
  exact ⟨differ.symm, fun waits => unblocked (mem_dependents.mp waits).2⟩

theorem optimizeMemsets_settled {filter : EdgeFilter} (nodup : order.Nodup)
    (total : ∀ node, node ∈ order ↔ node ∈ graph.nodeIds) (inOrder : (graph.dependencies filter).InOrder order) :
    ∀ memset ∈ (graph.usedMemsets (graph.dependencies filter) order).reverse,
      graph.MemsetSettled (graph.dependencies filter) memset (graph.optimizeMemsets (graph.dependencies filter) order).2 := by
  have complete := dependents_complete filter fun node => (total node).mp
  rw [optimizeMemsets_eq]
  refine moveEach_settles (P := fun between => between.Perm order) (usedMemsets_apart nodup inOrder) (.refl _)
    ?_ ?_ ?_
  next =>
    intro between memset moved _ perm moves
    exact (moveMemset_rearranged (complete_of_perm complete perm) moves).perm.trans perm
  next =>
    intro between memset listed perm
    obtain ⟨inside, free, used⟩ := mem_usedMemsets.mp (List.mem_reverse.mp listed)
    have loopless : memset ∉ (graph.dependencies filter).dependents memset := fun waits =>
      Nat.lt_irrefl _ (inOrder memset inside memset inside (mem_dependents.mp waits).2)
    obtain ⟨waiting, waits⟩ := List.exists_mem_of_ne_nil _ used
    have present := (total waiting).mpr (known_of_mem_blockers (mem_dependents.mp waits).2)
    exact settled_moveMemset (perm.nodup_iff.mpr nodup) (perm.mem_iff.mpr inside) free loopless
      ⟨waiting, waits, perm.mem_iff.mpr present⟩
  next =>
    rintro between memset done moved listed ⟨differs, unserved⟩ perm settled moves
    obtain ⟨-, free, -⟩ := mem_usedMemsets.mp (List.mem_reverse.mp listed)
    exact settled.sameBut (moveMemset_sameBut moves) free unserved differs

end Memsets

theorem optimizeMemsets_locality (graph : Graph) (filter : EdgeFilter) {order : List NodeId} (nodup : order.Nodup)
    (total : ∀ node, node ∈ order ↔ node ∈ graph.nodeIds) (inOrder : (graph.dependencies filter).InOrder order) :
    ∃ final, (graph.optimizeMemsets (graph.dependencies filter) order).2 = final ∧ final.Perm order ∧
      ∀ memset, graph.FreeMemset memset → (graph.dependencies filter).dependents memset ≠ [] →
        ∃ first anchor, IsEarliest final ((graph.dependencies filter).dependents memset) first ∧
          graph.HeadsBundle final first anchor ∧
          (final.idxOf anchor < final.idxOf memset ∨
            final.idxOf memset < final.idxOf anchor ∧ OnlyBetween graph.FreeMemset final memset anchor) := by
  have complete := dependents_complete filter fun node => (total node).mp
  refine ⟨_, rfl, (optimizeMemsets_rearranged complete).perm, fun memset free used => ?_⟩
  have inside : memset ∈ order := (total memset).mpr free.known
  obtain ⟨first, anchor, earliest, heads, apart, only⟩ := optimizeMemsets_settled nodup total inOrder memset
    (List.mem_reverse.mpr (mem_usedMemsets.mpr ⟨inside, free, used⟩))
  refine ⟨first, anchor, earliest, heads, ?_⟩
  have differ := mt (List.idxOf_inj heads.inside).mp apart
  rcases Nat.lt_or_gt_of_ne differ with ahead | behind
  next => exact .inl ahead
  next => exact .inr ⟨behind, only⟩

def blanked : GraphDescription :=
  { tensors := [{ name := "rows" }, { name := "columns" }, { name := "input" }, { name := "scaled" }]
    nodes := [{ name := "clearRows", kind := .memset, outputs := ["rows"] },
      { name := "clearColumns", kind := .memset, outputs := ["columns"] },
      { name := "load", outputs := ["input"] },
      { name := "scale", inputs := ["input"], outputs := ["scaled"], bundle := some { bundleIndex := 1 } },
      { name := "add", inputs := ["scaled", "rows", "columns"], bundle := some { bundleIndex := 1 } }] }

theorem optimizeMemsets_blanked :
    ∃ final first anchor, final = [⟨2⟩, ⟨1⟩, ⟨0⟩, ⟨3⟩, ⟨4⟩] ∧
      (blanked.graph.optimizeMemsets (blanked.graph.dependencies .both) blanked.graph.nodeIds).2 = final ∧
      IsEarliest final ((blanked.graph.dependencies .both).dependents ⟨1⟩) first ∧
      blanked.graph.HeadsBundle final first anchor ∧
      (final.idxOf anchor < final.idxOf ⟨1⟩ ∨
        final.idxOf ⟨1⟩ < final.idxOf anchor ∧ OnlyBetween blanked.graph.FreeMemset final ⟨1⟩ anchor) := by
  have inOrder : (blanked.graph.dependencies .both).InOrder blanked.graph.nodeIds := by
    unfold Dependencies.InOrder
    decide +kernel
  obtain ⟨final, ran, -, near⟩ :=
    optimizeMemsets_locality blanked.graph .both nodup_nodeIds (fun _ => Iff.rfl) inOrder
  obtain ⟨first, anchor, close⟩ := near ⟨1⟩ ⟨_, rfl, rfl, rfl⟩ (by decide +kernel)
  exact ⟨final, first, anchor, ran.symm.trans rfl, ran, close⟩

end Graph

end Dataflow
