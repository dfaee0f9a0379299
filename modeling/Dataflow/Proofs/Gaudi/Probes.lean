import Dataflow.Proofs.Gaudi.Contiguity

set_option autoImplicit false

namespace Dataflow

section

variable {kind : NodeId → Prop} {before mid after : List NodeId} {anchor node : NodeId}

variable (nodup : (before ++ anchor :: mid ++ node :: after).Nodup)
  (together : Together kind (before ++ anchor :: mid ++ node :: after))
include nodup together

theorem Together.ahead_of_outside (outside : ¬ kind node)
    (last : kind anchor → ∀ other ∈ mid ++ node :: after, ¬ kind other) :
    Together kind (before ++ anchor :: node :: mid ++ after) := by
  intro first between final sublist firstHolds finalHolds
  have differs {other : NodeId} (holds : kind other) : other ≠ node := fun same => outside (same ▸ holds)
  by_cases own : between = node
  case neg =>
    -- Without the node nothing has moved.
    have kept := sublist.filter (fun other => decide (other ≠ node))
    have rest : (before ++ anchor :: node :: mid ++ after).filter (fun other => decide (other ≠ node)) =
        (before ++ anchor :: mid ++ node :: after).filter fun other => decide (other ≠ node) := by
      simp [List.filter_append, List.filter_cons]
    have whole : [first, between, final].filter (fun other => decide (other ≠ node)) = [first, between, final] := by
      simp [differs firstHolds, own, differs finalHolds]
    rw [rest, whole] at kept
    exact together first between final (kept.trans List.filter_sublist) firstHolds finalHolds
  case pos =>
    subst own
    have split : before ++ anchor :: between :: mid ++ after = (before ++ [anchor]) ++ between :: (mid ++ after) := by simp
    have nodup' := List.perm_ahead.nodup_iff.mpr nodup
    rw [split] at sublist nodup'
    obtain ⟨ahead, behind⟩ := List.mem_sides nodup' sublist
    have behind : final ∈ mid ++ between :: after := by
      rcases List.mem_append.mp behind with member | member <;> simp [member]
    by_cases anchored : kind anchor
    next => exact absurd finalHolds (last anchored final behind)
    next =>
      rcases List.mem_append.mp ahead with member | member
      next =>
        have split : before ++ anchor :: mid ++ between :: after = before ++ anchor :: (mid ++ between :: after) := by simp
        rw [split] at together
        exact absurd (together first anchor final (List.sublist_of_sides member behind) firstHolds finalHolds) anchored
      next => exact absurd (List.mem_singleton.mp member ▸ firstHolds) anchored

theorem Together.ahead_of_members (holds : kind node) (within : ∀ other ∈ mid, kind other)
    (enters : ∀ first ∈ before, kind first → kind anchor) : Together kind (before ++ anchor :: node :: mid ++ after) := by
  intro first between final sublist firstHolds finalHolds
  have nodup' := List.perm_ahead.nodup_iff.mpr nodup
  have member := sublist.subset (show between ∈ [first, between, final] by simp)
  simp only [List.mem_append, List.mem_cons] at member
  rcases member with (inside | rfl | rfl | inside) | inside
  case inl.inl =>
    obtain ⟨front, back, rfl⟩ := List.append_of_mem inside
    simp only [List.append_assoc, List.cons_append] at sublist nodup' together
    obtain ⟨ahead, -⟩ := List.mem_sides nodup' sublist
    have anchored := enters first (List.mem_append_left _ ahead) firstHolds
    exact together first between anchor (List.sublist_of_sides ahead (by simp)) firstHolds anchored
  case inl.inr.inl =>
    simp only [List.append_assoc, List.cons_append] at sublist nodup'
    exact enters first (List.mem_sides nodup' sublist).1 firstHolds
  case inl.inr.inr.inl => exact holds
  case inl.inr.inr.inr => exact within between inside
  case inr =>
    obtain ⟨front, back, rfl⟩ := List.append_of_mem inside
    rw [← List.append_assoc] at sublist nodup'
    obtain ⟨-, behind⟩ := List.mem_sides nodup' sublist
    have split : before ++ anchor :: mid ++ node :: (front ++ between :: back) =
        (before ++ anchor :: mid ++ node :: front) ++ between :: back := by simp
    rw [split] at together
    exact together node between final (List.sublist_of_sides (by simp) behind) holds finalHolds

theorem Together.ahead_out_iff (holds : kind node) (outside : ¬ kind anchor) :
    Together kind (before ++ anchor :: node :: mid ++ after) ↔
      (∀ other ∈ mid, kind other) ∨ ∀ other ∈ before ++ anchor :: mid ++ node :: after, kind other → other = node := by
  have none : ∀ first ∈ before, ¬ kind first := by
    intro first member firstHolds
    have split : before ++ anchor :: mid ++ node :: after = before ++ anchor :: (mid ++ node :: after) := by simp
    rw [split] at together
    exact outside (together first anchor node (List.sublist_of_sides member (by simp)) firstHolds holds)
  constructor
  next =>
    intro moved
    by_contra splits
    obtain ⟨inWay, mates⟩ := not_or.mp splits
    push Not at inWay mates
    obtain ⟨outsider, member, fails⟩ := inWay
    obtain ⟨mate, listed, mateHolds, differs⟩ := mates
    obtain ⟨front, back, rfl⟩ := List.append_of_mem member
    have split : before ++ anchor :: node :: (front ++ outsider :: back) ++ after =
        (before ++ anchor :: node :: front) ++ outsider :: (back ++ after) := by simp
    have split' : before ++ anchor :: (front ++ outsider :: back) ++ node :: after =
        (before ++ anchor :: front) ++ outsider :: (back ++ node :: after) := by simp
    rw [split] at moved
    rw [split'] at together listed
    simp only [List.mem_append, List.mem_cons] at listed
    -- A member in front of the outsider had it between itself and the node, one behind it has so now.
    rcases listed with (member | rfl | member) | rfl | member | rfl | member
    next => exact none mate member mateHolds
    next => exact outside mateHolds
    next => exact fails (together mate outsider node (List.sublist_of_sides (by simp [member]) (by simp)) mateHolds holds)
    next => exact fails mateHolds
    next => exact fails (moved node outsider mate (List.sublist_of_sides (by simp) (by simp [member])) holds mateHolds)
    next => exact differs rfl
    next => exact fails (moved node outsider mate (List.sublist_of_sides (by simp) (by simp [member])) holds mateHolds)
  next =>
    rintro (within | alone)
    next => exact together.ahead_of_members nodup holds within fun first member firstHolds => absurd firstHolds (none first member)
    next =>
      intro first between final sublist firstHolds finalHolds
      have nodup' := List.perm_ahead.nodup_iff.mpr nodup
      have only {other : NodeId} (member : other ∈ [first, between, final]) (otherHolds : kind other) : other = node :=
        alone other (List.perm_ahead.mem_iff.mp (sublist.subset member)) otherHolds
      have repeated : [first, between, final].Nodup := sublist.nodup nodup'
      rw [only (by simp) firstHolds, only (by simp) finalHolds] at repeated
      simp at repeated

end

namespace Graph

variable {graph : Graph} {deps : Dependencies} {order moved : List NodeId} {probe target : NodeId} {bundle : UInt32}

theorem bundleOf_probeAnchor (graph : Graph) (order : List NodeId) (probe target : NodeId) :
    graph.bundleOf (graph.probeAnchor order probe target) = graph.bundleOf target := by
  unfold probeAnchor
  cases own : graph.bundleOf target with
  | none => exact own
  | some bundle =>
    dsimp only
    split
    next => exact own
    next =>
      cases found : order.reverse.find? fun node => graph.bundleOf node = some bundle with
      | none => exact own
      | some last => simpa using List.find?_some found

theorem probeAnchor_last {before after : List NodeId} {anchor : NodeId} (nodup : (before ++ anchor :: after).Nodup)
    (anchored : graph.probeAnchor (before ++ anchor :: after) probe target = anchor)
    (bundled : graph.bundleOf anchor = some bundle) (outside : graph.bundleOf probe ≠ some bundle) :
    ∀ node ∈ after, graph.bundleOf node ≠ some bundle := by
  intro node member inBundle
  have own : graph.bundleOf target = some bundle := by
    rw [← bundleOf_probeAnchor graph (before ++ anchor :: after) probe, anchored, bundled]
  simp only [probeAnchor, own, if_neg outside] at anchored
  obtain ⟨last, found⟩ : ∃ last, after.reverse.find? (fun node => graph.bundleOf node = some bundle) = some last := by
    rw [← Option.isSome_iff_exists, List.find?_isSome]
    exact ⟨node, List.mem_reverse.mpr member, decide_eq_true inBundle⟩
  rw [List.reverse_append, List.reverse_cons, List.append_assoc, List.find?_append, found, Option.some_or,
    Option.getD_some] at anchored
  have again : anchor ∈ after := List.mem_reverse.mp (anchored ▸ List.mem_of_find?_eq_some found)
  exact (List.nodup_cons.mp (List.nodup_append.mp nodup).2.1).1 again

theorem moveProbe_eq_some (move : graph.moveProbe deps order probe = some moved) :
    ∃ target before mid after, graph.probed? probe = some target ∧ latest? order (deps.blockers probe) = some target ∧
      order = before ++ graph.probeAnchor order probe target :: mid ++ probe :: after ∧
      moved = before ++ graph.probeAnchor order probe target :: probe :: mid ++ after := by
  simp only [moveProbe, Option.bind_eq_bind, Option.bind_eq_some_iff] at move
  obtain ⟨target, checked, move⟩ := move
  split at move
  next waits =>
    obtain ⟨before, mid, after, split, moved_eq, -⟩ := moveAfter?_eq_some move
    exact ⟨target, before, mid, after, checked, waits, split, moved_eq⟩
  next => cases move

def Contiguous (graph : Graph) (order : List NodeId) (bundle : UInt32) : Prop :=
  ∃ before inside after, order = before ++ inside ++ after ∧ ∀ node, node ∈ inside ↔ graph.bundleOf node = some bundle

theorem contiguous_of_parts {before inside after : List NodeId}
    (total : ∀ node, node ∈ before ++ inside ++ after ↔ node ∈ graph.nodeIds)
    (within : ∀ node ∈ inside, graph.bundleOf node = some bundle)
    (without : ∀ node, node ∈ before ∨ node ∈ after → graph.bundleOf node ≠ some bundle) :
    graph.Contiguous (before ++ inside ++ after) bundle := by
  refine ⟨before, inside, after, rfl, fun node => ⟨within node, fun bundled => ?_⟩⟩
  have member := (total node).mpr (Gaudi.known_of_bundleOf bundled)
  rw [List.append_assoc, List.mem_append, List.mem_append] at member
  rcases member with member | member | member
  next => exact absurd bundled (without node (Or.inl member))
  next => exact member
  next => exact absurd bundled (without node (Or.inr member))

theorem contiguous_iff_together (nodup : order.Nodup) (total : ∀ node, node ∈ order ↔ node ∈ graph.nodeIds) :
    graph.Contiguous order bundle ↔ Together (fun node => graph.bundleOf node = some bundle) order := by
  constructor
  next =>
    rintro ⟨before, inside, after, rfl, members⟩ first between last sublist firstIn lastIn
    have firstIn := (members first).mpr firstIn
    have lastIn := (members last).mpr lastIn
    have listed := sublist.subset (show between ∈ [first, between, last] by simp)
    simp only [List.mem_append] at listed
    rcases listed with (member | member) | member
    next =>
      obtain ⟨front, back, rfl⟩ := List.append_of_mem member
      have split : front ++ between :: back ++ inside ++ after = front ++ between :: (back ++ inside ++ after) := by simp
      have ahead := (List.mem_sides (split ▸ nodup) (split ▸ sublist)).1
      have apart := (List.nodup_append.mp (List.nodup_append.mp nodup).1).2.2
      exact absurd rfl (apart first (by simp [ahead]) first firstIn)
    next => exact (members between).mp member
    next =>
      obtain ⟨front, back, rfl⟩ := List.append_of_mem member
      rw [← List.append_assoc] at nodup sublist
      have behind := (List.mem_sides nodup sublist).2
      have apart := (List.nodup_append.mp nodup).2.2
      exact absurd rfl (apart last (by simp [lastIn]) last (by simp [behind]))
  next =>
    intro together
    obtain ⟨before, inside, after, rfl, within, without⟩ := together.split
    exact contiguous_of_parts total within without

-- The probe goes after a node outside of its bundle, and not only members stand in the way.
def Strays (graph : Graph) (deps : Dependencies) (order : List NodeId) (probe : NodeId) : Prop :=
  ∃ bundle target before mid after, graph.bundleOf probe = some bundle ∧
    graph.probed? probe = some target ∧ latest? order (deps.blockers probe) = some target ∧
    graph.bundleOf target ≠ some bundle ∧
    order = before ++ graph.probeAnchor order probe target :: mid ++ probe :: after ∧
    (∃ mate ∈ order, graph.bundleOf mate = some bundle ∧ mate ≠ probe) ∧
    ∃ outsider ∈ mid, graph.bundleOf outsider ≠ some bundle

theorem together_moveProbe (nodup : order.Nodup) (move : graph.moveProbe deps order probe = some moved)
    (stays : ∀ target, graph.probed? probe = some target → graph.bundleOf probe = some bundle →
      graph.bundleOf target = some bundle)
    (together : Together (fun node => graph.bundleOf node = some bundle) order) :
    Together (fun node => graph.bundleOf node = some bundle) moved := by
  obtain ⟨target, before, mid, after, checked, -, split, rfl⟩ := moveProbe_eq_some move
  have anchorBundle := bundleOf_probeAnchor graph order probe target
  generalize anchored : graph.probeAnchor order probe target = anchor at split anchorBundle
  subst split
  by_cases own : graph.bundleOf probe = some bundle
  next =>
    have bundled : graph.bundleOf anchor = some bundle := anchorBundle.trans (stays target checked own)
    refine together.ahead_of_members nodup own ?_ fun _ _ _ => bundled
    intro other member
    obtain ⟨front, back, rfl⟩ := List.append_of_mem member
    have split : before ++ anchor :: (front ++ other :: back) ++ probe :: after =
        (before ++ anchor :: front) ++ other :: (back ++ probe :: after) := by simp
    rw [split] at together
    exact together anchor other probe (List.sublist_of_sides (by simp) (by simp)) bundled own
  next =>
    refine together.ahead_of_outside nodup own fun bundled => ?_
    have split : before ++ anchor :: mid ++ probe :: after = before ++ anchor :: (mid ++ probe :: after) := by simp
    rw [split] at nodup anchored
    exact probeAnchor_last nodup anchored bundled own

theorem moveProbe_of_split {target : NodeId} {before mid after : List NodeId} (nodup : order.Nodup)
    (checked : graph.probed? probe = some target) (waits : latest? order (deps.blockers probe) = some target)
    (split : order = before ++ graph.probeAnchor order probe target :: mid ++ probe :: after) (apart : mid ≠ []) :
    graph.moveProbe deps order probe =
      some (before ++ graph.probeAnchor order probe target :: probe :: mid ++ after) := by
  rw [split] at nodup
  obtain ⟨front, -, behind⟩ := List.nodup_append.mp nodup
  simp only [moveProbe, checked, waits, Option.bind_eq_bind, Option.bind_some, if_true]
  conv => lhs; arg 1; rw [split]
  exact moveAfter?_split (fun inside => (List.nodup_append.mp front).2.2 _ inside _ (.head _) rfl)
    (fun inside => behind _ inside _ (.head _) rfl) apart

theorem together_ahead_outside_iff {target : NodeId} {before mid after : List NodeId} (nodup : order.Nodup)
    (together : Together (fun node => graph.bundleOf node = some bundle) order)
    (own : graph.bundleOf probe = some bundle) (outside : graph.bundleOf target ≠ some bundle)
    (split : order = before ++ graph.probeAnchor order probe target :: mid ++ probe :: after) :
    Together (fun node => graph.bundleOf node = some bundle)
        (before ++ graph.probeAnchor order probe target :: probe :: mid ++ after) ↔
      (∀ other ∈ mid, graph.bundleOf other = some bundle) ∨
        ∀ other ∈ order, graph.bundleOf other = some bundle → other = probe := by
  rw [split] at together nodup
  conv => rhs; rw [split]
  exact together.ahead_out_iff nodup own (by rwa [bundleOf_probeAnchor])

theorem together_moveProbe_iff (nodup : order.Nodup)
    (together : ∀ bundle, Together (fun node => graph.bundleOf node = some bundle) order) (probe : NodeId) :
    (∀ bundle, Together (fun node => graph.bundleOf node = some bundle) ((graph.moveProbe deps order probe).getD order)) ↔
      ¬ graph.Strays deps order probe := by
  constructor
  next =>
    rintro kept ⟨bundle, target, before, mid, after, own, checked, waits, outside, split, ⟨mate, listed, bundled, differs⟩,
      outsider, member, fails⟩
    have move := moveProbe_of_split nodup checked waits split (List.ne_nil_of_mem member)
    have after := kept bundle
    rw [move, Option.getD_some, together_ahead_outside_iff nodup (together bundle) own outside split] at after
    rcases after with within | alone
    next => exact fails (within outsider member)
    next => exact differs (alone mate listed bundled)
  next =>
    intro stays bundle
    cases move : graph.moveProbe deps order probe with
    | none => exact together bundle
    | some moved =>
      obtain ⟨target, before, mid, after, checked, waits, split, rfl⟩ := moveProbe_eq_some move
      rw [Option.getD_some]
      by_cases leaves : graph.bundleOf probe = some bundle ∧ graph.bundleOf target ≠ some bundle
      next =>
        rw [together_ahead_outside_iff nodup (together bundle) leaves.1 leaves.2 split]
        by_contra broken
        obtain ⟨inWay, mates⟩ := not_or.mp broken
        push Not at inWay mates
        exact stays ⟨bundle, target, before, mid, after, leaves.1, checked, waits, leaves.2, split, mates, inWay⟩
      next =>
        refine together_moveProbe nodup move ?_ (together bundle)
        intro other checked' own
        rw [checked] at checked'
        cases checked'
        by_contra outside
        exact leaves ⟨own, outside⟩

theorem moveEach_snoc (move : List NodeId → NodeId → Option (List NodeId)) (order done : List NodeId) (node : NodeId) :
    (moveEach move order (done ++ [node])).2 =
      (move (moveEach move order done).2 node).getD (moveEach move order done).2 := by
  induction done generalizing order with
  | nil =>
    simp only [List.nil_append, moveEach]
    cases move order node <;> rfl
  | cons head rest ih =>
    rw [List.cons_append, moveEach, moveEach]
    cases move order head with
    | none => exact ih order
    | some moved => exact ih moved

theorem reorderProbes_keeps_bundles_unless_stray (graph : Graph) (deps : Dependencies) {order : List NodeId}
    (nodup : order.Nodup) (total : ∀ node, node ∈ order ↔ node ∈ graph.nodeIds)
    (whole : ∀ bundle, graph.Contiguous order bundle) :
    (∀ bundle, (∀ probe ∈ graph.having Node.isProbe order, ∀ target, graph.probed? probe = some target →
        graph.bundleOf probe = some bundle → graph.bundleOf target = some bundle) →
      graph.Contiguous (graph.reorderProbes deps order).2 bundle) ∧
    ((∀ done rest, graph.having Node.isProbe order = done ++ rest →
        ∀ bundle, graph.Contiguous (moveEach (graph.moveProbe deps) order done).2 bundle) ↔
      ∀ done probe rest, graph.having Node.isProbe order = done ++ probe :: rest →
        ¬ graph.Strays deps (moveEach (graph.moveProbe deps) order done).2 probe) := by
  have moves (probes : List NodeId) : Rearranged deps.blockers order (moveEach (graph.moveProbe deps) order probes).2 :=
    .moveEach (fun perm move => moveProbe_rearranged (perm.nodup_iff.mpr nodup) move) probes
  have nodup' (probes : List NodeId) := (moves probes).perm.nodup_iff.mpr nodup
  have same (probes : List NodeId) (bundle : UInt32) :=
    @contiguous_iff_together graph _ bundle (nodup' probes) fun node => (moves probes).perm.mem_iff.trans (total node)
  have together bundle := (contiguous_iff_together nodup total).mp (whole bundle)
  constructor
  case left =>
    intro bundle own
    refine (same _ bundle).mpr ?_
    have kept := @moveEach_invariant (graph.moveProbe deps)
      (fun order => order.Nodup ∧ Together (fun node => graph.bundleOf node = some bundle) order) order
      (graph.having Node.isProbe order) ⟨nodup, together bundle⟩
    refine (kept ?_).2
    intro between probe moved listed ⟨nodup, together⟩ move
    exact ⟨(moveProbe_rearranged nodup move).perm.nodup_iff.mpr nodup,
      together_moveProbe nodup move (own probe listed) together⟩
  case right =>
    simp only [same]
    constructor
    next =>
      intro kept done probe rest split
      rw [← together_moveProbe_iff (nodup' done) (kept done (probe :: rest) split) probe, ← moveEach_snoc]
      exact kept (done ++ [probe]) rest (by rw [split]; simp)
    next =>
      intro stays done
      -- From the back, since each probe is judged by the order that those before it have left.
      induction done using List.reverseRecOn with
      | nil => exact fun _ _ => together
      | append_singleton done probe ih =>
        intro rest split
        rw [List.append_assoc, List.singleton_append] at split
        rw [moveEach_snoc, together_moveProbe_iff (nodup' done) (ih (probe :: rest) split)]
        exact stays done probe rest split

def watched : GraphDescription :=
  { tensors := [{ name := "input" }, { name := "sum" }]
    nodes := [{ name := "load", outputs := ["input"] },
      { name := "wait" },
      { name := "multiply", bundle := some { bundleIndex := 0 } },
      { name := "check", kind := .nanInfProbe, inputs := ["input"], bundle := some { bundleIndex := 0 } },
      { name := "add", outputs := ["sum"], bundle := some { bundleIndex := 1 } },
      { name := "scale", bundle := some { bundleIndex := 1 } },
      { name := "watch", kind := .nanInfProbe, inputs := ["sum"], bundle := some { bundleIndex := 1 } }] }

theorem contiguous_watched (bundle : UInt32) : watched.graph.Contiguous watched.graph.nodeIds bundle := by
  by_cases first : bundle = 0
  next =>
    subst first
    exact @contiguous_of_parts watched.graph 0 [⟨0⟩, ⟨1⟩] [⟨2⟩, ⟨3⟩] [⟨4⟩, ⟨5⟩, ⟨6⟩] (fun _ => Iff.rfl) (by decide)
      (by simp only [← List.mem_append]; decide)
  next =>
    by_cases second : bundle = 1
    next =>
      subst second
      exact @contiguous_of_parts watched.graph 1 [⟨0⟩, ⟨1⟩, ⟨2⟩, ⟨3⟩] [⟨4⟩, ⟨5⟩, ⟨6⟩] [] (fun _ => Iff.rfl) (by decide)
        (by simp only [← List.mem_append]; decide)
    next =>
      have either : ∀ node ∈ watched.graph.nodeIds, watched.graph.bundleOf node ∈ [none, some 0, some 1] := by decide
      refine @contiguous_of_parts watched.graph bundle [] [] watched.graph.nodeIds (fun _ => Iff.rfl) (by simp) ?_
      intro node member bundled
      have cases := either node (by simpa using member)
      rw [bundled] at cases
      simp [first, second] at cases

theorem reorderProbes_watched :
    (watched.graph.reorderProbes (watched.graph.dependencies .both) watched.graph.nodeIds).2 =
        [⟨0⟩, ⟨3⟩, ⟨1⟩, ⟨2⟩, ⟨4⟩, ⟨6⟩, ⟨5⟩] ∧
      watched.graph.Contiguous (watched.graph.reorderProbes (watched.graph.dependencies .both) watched.graph.nodeIds).2 1 ∧
      ¬ watched.graph.Contiguous (watched.graph.reorderProbes (watched.graph.dependencies .both) watched.graph.nodeIds).2 0 ∧
      ∃ done rest, watched.graph.having Node.isProbe watched.graph.nodeIds = done ++ rest ∧ ∃ bundle,
        ¬ watched.graph.Contiguous (moveEach (watched.graph.moveProbe (watched.graph.dependencies .both))
          watched.graph.nodeIds done).2 bundle := by
  obtain ⟨keeps, exact_iff⟩ := reorderProbes_keeps_bundles_unless_stray watched.graph (watched.graph.dependencies .both)
    nodup_nodeIds (fun _ => Iff.rfl) contiguous_watched
  have placed : (watched.graph.reorderProbes (watched.graph.dependencies .both) watched.graph.nodeIds).2 =
      [⟨0⟩, ⟨3⟩, ⟨1⟩, ⟨2⟩, ⟨4⟩, ⟨6⟩, ⟨5⟩] := by decide +kernel
  refine ⟨placed, keeps 1 ?_, ?_, ?_⟩
  next =>
    have inside : ∀ probe ∈ watched.graph.having Node.isProbe watched.graph.nodeIds,
        ∀ target ∈ watched.graph.probed? probe, watched.graph.bundleOf probe = some 1 →
          watched.graph.bundleOf target = some 1 := by decide
    exact fun probe listed target checked => inside probe listed target checked
  next =>
    rw [placed]
    have perm : [⟨0⟩, ⟨3⟩, ⟨1⟩, ⟨2⟩, ⟨4⟩, ⟨6⟩, ⟨5⟩].Perm watched.graph.nodeIds := by decide
    rw [contiguous_iff_together (perm.nodup_iff.mpr nodup_nodeIds) fun _ => perm.mem_iff]
    intro together
    exact absurd (together ⟨3⟩ ⟨1⟩ ⟨2⟩ (by decide) (by decide) (by decide)) (by decide)
  next =>
    have strays : watched.graph.Strays (watched.graph.dependencies .both) watched.graph.nodeIds ⟨3⟩ :=
      ⟨0, ⟨0⟩, [], [⟨1⟩, ⟨2⟩], [⟨4⟩, ⟨5⟩, ⟨6⟩], by decide, by decide, by decide, by decide, by decide,
        ⟨⟨2⟩, by decide, by decide, by decide⟩, ⟨1⟩, by decide, by decide⟩
    have broken : ¬ _ := fun kept => exact_iff.mp kept [] ⟨3⟩ [⟨6⟩] (by decide) strays
    push Not at broken
    exact broken

end Graph

end Dataflow
