import Zebra.Lib.TableInvariant


namespace Zebra
open Function Base Base.LinkedTree List Option Slot Links Nat Prefix
namespace RouteTable
variable {Info : Type} {table : RouteTable Info} {p : Prefix}

/-- The walk guided by the bits of `p`, over the nodes that include `p`. -/
abbrev Walk (table : RouteTable Info) (p : Prefix) :=
  Descent table.links (fun q => q.Covers p) (fun q => checkBit p.octets q.prefixlen)

theorem Wellformed.walk_exists (wf : table.Wellformed) (p : Prefix) :
    ∃ path stop, Walk table p table.top path stop ∧ path.length < p.prefixlen + 2 := by
  obtain ⟨path, stop, walk, short⟩ :=
    wf.tree.descent_exists prefixOrder (fun q => q.Covers p)
      (fun q => checkBit p.octets q.prefixlen) p.prefixlen
      (fun _ covers => covers.1)
  exact ⟨path, stop, walk, by omega⟩

theorem walk_test_iff (q p : Prefix) : (q.prefixlen ≤ p.prefixlen ∧ prefixMatch q p = true) ↔
    q.Covers p := by
  rw [prefixMatch_iff]
  exact ⟨fun both => both.2, fun covers => ⟨covers.1, covers⟩⟩

variable {path : List NodeId} {stop start : Option NodeId} {node : RouteNode Info}
  {slot : Slot NodeId}

theorem Wellformed.mem_walk (wf : table.Wellformed) (walk : Walk table p table.top path stop) {id}
    (found : table.nodes id = some node) (covers : node.p.Covers p) : id ∈ path :=
  wf.tree.mem_descent prefixOrder (fun above inside => above.upward inside) walk
    (cell_of_node found) covers

theorem walk_covers (walk : Walk table p start path stop) {id} (member : id ∈ path) :
    ∃ node, table.nodes id = some node ∧ node.p.Covers p := by
  obtain ⟨cell, present, covers⟩ := walk.covered member
  obtain ⟨node, found, samePrefix, _⟩ := node_of_cell present
  exact ⟨node, found, samePrefix ▸ covers⟩

theorem Wellformed.prefix_unique (wf : table.Wellformed) {first second}
    {firstNode secondNode} (firstFound : table.nodes first = some firstNode)
    (secondFound : table.nodes second = some secondNode)
    (same : firstNode.p.SameMasked secondNode.p) : first = second :=
  wf.tree.covered_unique prefixOrder (fun q => q.Covers secondNode.p)
    (fun q => checkBit secondNode.p.octets q.prefixlen)
    (fun above inside => above.upward inside) secondNode.p.prefixlen (fun _ covers => covers.1)
    (cell_of_node firstFound) (cell_of_node secondFound) same.covers (.refl _) same.1

def hasInfo (table : RouteTable Info) (id : NodeId) : Bool :=
  match table.nodes id with
  | some node => node.info.isSome
  | none => false

theorem hasInfo_of_node {id} (found : table.nodes id = some node) :
    table.hasInfo id = node.info.isSome := by
  simp [hasInfo, found]

/-- A walk as its loops go through it: the test of each node decides whether it goes on below. -/
theorem walk_rounds {motive : ∀ start path stop, Walk table p start path stop → Prop}
    (null : motive none [] none .null)
    (miss : ∀ {id node}, table.nodes id = some node →
      ¬ (node.p.prefixlen ≤ p.prefixlen ∧ prefixMatch node.p p = true) →
      ¬ node.p.Covers p → ∀ walk, motive (some id) [] (some id) walk)
    (step : ∀ {id node path stop}, table.nodes id = some node →
      node.p.prefixlen ≤ p.prefixlen ∧ prefixMatch node.p p = true →
      ∀ rest walk, motive (node.link (checkBit p.octets node.p.prefixlen)) path stop rest →
        motive (some id) (id :: path) stop walk)
    {start path stop} (walk : Walk table p start path stop) : motive start path stop walk := by
  induction walk with
  | null => exact null
  | miss present outside =>
    obtain ⟨node, found, samePrefix, _⟩ := node_of_cell present
    rw [← samePrefix] at outside
    exact miss found (mt (walk_test_iff node.p p).mp outside) outside _
  | @step id cell path stop present inside rest ih =>
    obtain ⟨node, found, samePrefix, _⟩ := node_of_cell present
    rw [← samePrefix] at inside
    have next := @step id node path stop found ((walk_test_iff node.p p).mpr inside)
    rw [← slot_of_node found, samePrefix] at next
    exact next rest _ ih

section
variable (walk : Walk table p start path stop) {fuel : Nat} (enough : path.length < fuel)
include walk enough

theorem matchLoop_eq (matched : Option NodeId) : matchLoop table p fuel start matched =
      some (path.foldl (fun best id => if table.hasInfo id then some id else best) matched) := by
  obtain ⟨spare, rfl⟩ := Nat.exists_eq_add_of_lt enough
  clear enough
  induction walk using walk_rounds generalizing matched with
  | null => rfl
  | miss found failed => simp [matchLoop, found, failed]
  | @step id node path stop found passed rest walk ih =>
    rw [length_cons, Nat.add_right_comm path.length]
    simp only [matchLoop, found, bind_eq_bind, bind_some, if_pos passed,
      foldl_cons, hasInfo_of_node found]
    exact ih _

theorem lookupLoop_eq : ∃ result, lookupLoop table p fuel start = some result ∧
      (∀ id, result = some id → id ∈ path ∧ ∃ node, table.nodes id = some node ∧
        node.p.prefixlen = p.prefixlen ∧ node.info.isSome) ∧
      (result = none → ∀ id ∈ path, ∀ node, table.nodes id = some node →
        ¬ (node.p.prefixlen = p.prefixlen ∧ node.info.isSome)) := by
  obtain ⟨spare, rfl⟩ := Nat.exists_eq_add_of_lt enough
  clear enough
  induction walk using walk_rounds with
  | null => exact ⟨none, rfl, by simp, by simp⟩
  | miss found failed => exact ⟨none, by simp [lookupLoop, found, failed], by simp, by simp⟩
  | @step id node path stop found passed rest walk ih =>
    rw [length_cons, Nat.add_right_comm path.length]
    by_cases hit : node.p.prefixlen = p.prefixlen ∧ node.info.isSome
    · refine ⟨some id, ?_, ?_, by simp⟩
      · simp only [lookupLoop, found, bind_eq_bind, bind_some, if_pos passed, if_pos hit]
      · intro other same
        cases same
        exact ⟨mem_cons_self, node, found, hit⟩
    · obtain ⟨result, ran, hits, misses⟩ := ih
      refine ⟨result, ?_, ?_, ?_⟩
      · simp only [lookupLoop, found, bind_eq_bind, bind_some, if_pos passed, if_neg hit]
        exact ran
      · intro other same
        obtain ⟨member, rest⟩ := hits other same
        exact ⟨.tail _ member, rest⟩
      · intro empty other member otherNode otherFound
        rcases mem_cons.mp member with here | later
        · rw [here, found] at otherFound
          cases otherFound
          exact hit
        · exact misses empty other later otherNode otherFound

/-- The slot a walk for `p` has reached: the root, or the chosen side of a strictly
shorter node that includes `p`. -/
def Reached (table : RouteTable Info) (p : Prefix) (slot : Slot NodeId) : Prop :=
  ∀ owner side, slot = some (owner, side) → ∃ node, table.nodes owner = some node ∧
    node.p.Covers p ∧ node.p.prefixlen < p.prefixlen ∧ checkBit p.octets node.p.prefixlen = side

/-- The get loop ends at the node with the masked prefix of `p`, or at the slot
where that node belongs. -/
theorem getLoop_eq (slot : Slot NodeId) (stored : table.links.slot slot = start)
    (reached : table.Reached p slot) :
    (∃ id node, getLoop table p fuel start (owner slot) = some (.found id) ∧
      table.nodes id = some node ∧ node.p.SameMasked p) ∨
    ∃ place, getLoop table p fuel start (owner slot) =
        some (.missing (owner place) (table.links.slot place)) ∧
      table.Reached p place ∧ ∀ id, table.links.slot place = some id →
        ∃ node, table.nodes id = some node ∧ ¬ node.p.Covers p := by
  obtain ⟨spare, rfl⟩ := Nat.exists_eq_add_of_lt enough
  clear enough
  induction walk using walk_rounds generalizing slot with
  | null =>
    refine .inr ⟨slot, by rw [stored]; rfl, reached, ?_⟩
    intro id present
    rw [stored] at present
    cases present
  | @miss id node found failed outside walk =>
    refine .inr ⟨slot, by simp [getLoop, found, failed, stored], reached, ?_⟩
    intro other same
    rw [stored] at same
    cases same
    exact ⟨node, found, outside⟩
  | @step id node path stop found passed rest walk ih =>
    rw [length_cons, Nat.add_right_comm path.length]
    have covers := (walk_test_iff node.p p).mp passed
    by_cases level : node.p.prefixlen = p.prefixlen
    · refine .inl ⟨id, node, ?_, found, level, covers.2⟩
      simp only [getLoop, found, bind_eq_bind, bind_some, if_pos passed, if_pos level]
    · have next := ih (some (id, checkBit p.octets node.p.prefixlen)) (slot_of_node found _) (by
        intro owner side same
        cases same
        exact ⟨node, found, covers, lt_of_le_of_ne covers.1 level, rfl⟩)
      have unfolded : getLoop table p (path.length + spare + 1 + 1) (some id) (owner slot) =
          getLoop table p (path.length + spare + 1) (node.link (checkBit p.octets node.p.prefixlen))
            (some id) := by
        simp only [getLoop, found, bind_eq_bind, bind_some, if_pos passed, if_neg level]
      rw [unfolded]
      exact next

end

theorem Reached.admits (reached : table.Reached p slot) :
    table.links.Admits Above slot (prefixCopy p) := by
  rcases slot with _ | ⟨owner, side⟩
  · trivial
  · obtain ⟨node, found, covers, shorter, chosen⟩ := reached owner side rfl
    have copy := sameMasked_prefixCopy p
    refine ⟨_, cell_of_node found, shorter, covers.2.trans (copy.2.symm.mono covers.1), ?_⟩
    rw [← chosen, checkBit_eq]
    exact copy.2 node.p.prefixlen shorter

/-- The common part of `p` and of a node it does not include is strictly shorter
than the node, and they part right after it. -/
theorem glue_above {q} (outside : ¬ q.Covers p) :
    (glueOf q p).Above (checkBit q.octets (glueOf q p).prefixlen) q := by
  obtain ⟨short, common, copied, _⟩ := routeCommon_spec q p
  refine ⟨?_, copied.trans common.symm, (checkBit_eq _ _).symm⟩
  by_contra long
  have length : q.prefixlen ≤ (routeCommon q p).1 := Nat.le_of_not_lt long
  exact outside ⟨le_trans length short, common.mono length⟩

theorem glue_parts {q} (shorter : (glueOf q p).prefixlen ≠ p.prefixlen) :
    checkBit p.octets (glueOf q p).prefixlen ≠ checkBit q.octets (glueOf q p).prefixlen := by
  obtain ⟨short, _, _, differs⟩ := routeCommon_spec q p
  rw [checkBit_eq, checkBit_eq]
  exact (differs (lt_of_le_of_ne short shorter)).symm

/-- The slot of a node takes the common part with `p` when a walk for `p` got there. -/
theorem Reached.admits_glue (wf : table.Wellformed) {id} (reached : table.Reached p slot)
    (found : table.nodes id = some node) (stored : table.links.slot slot = some id) :
    table.links.Admits Prefix.Above slot (glueOf node.p p) := by
  rcases slot with _ | ⟨owner, side⟩
  · trivial
  · obtain ⟨upper, upperFound, covers, shorter, chosen⟩ := reached owner side rfl
    obtain ⟨cell, cellFound, _, upperCell, upperHere, above⟩ := wf.tree.child stored
    rw [cell_of_node found] at cellFound
    rw [cell_of_node upperFound] at upperHere
    cases cellFound
    cases upperHere
    obtain ⟨short, common, copied, differs⟩ := routeCommon_spec node.p p
    rw [checkBit_eq] at chosen
    -- node and `p` agree with the owner, and both lie on the same side of it
    have longer : upper.p.prefixlen < (routeCommon node.p p).1 := by
      by_contra long
      have length : (routeCommon node.p p).1 ≤ upper.p.prefixlen := Nat.le_of_not_lt long
      apply differs (by omega)
      rcases Nat.eq_or_lt_of_le length with same | below
      · rw [same]
        exact above.2.2.trans chosen.symm
      · exact (above.2.1 _ below).symm.trans (covers.2 _ below)
    refine ⟨_, cell_of_node upperFound, longer, ?_, ?_⟩
    · exact covers.2.trans (copied.symm.mono (le_of_lt longer))
    · rw [← chosen]
      exact copied upper.p.prefixlen longer

/-- The leaf branch of `route_node_get` restores the invariant; the owner of the
slot may be a glue node that still lacks this child. -/
theorem addLeaf_wellformed (tree : table.links.Wellformed Prefix.Above)
    (allocated : ∀ id, table.fresh ≤ id → table.nodes id = none) (slot : Slot NodeId)
    (empty : table.links.slot slot = none)
    (admits : table.links.Admits Prefix.Above slot (prefixCopy p))
    (others : ∀ other, owner slot ≠ some other → table.Glued other)
    (owner : ∀ owner side, slot = some (owner, side) → ∀ q info,
      table.status owner = some (q, 0, info) →
        info = none ∧ (table.links.slot (some (owner, !side))).isSome) :
    ∃ result, table.addLeaf p (Slot.owner slot) = some (result, table.fresh) ∧ result.Wellformed ∧
      result.status = update table.status table.fresh (some (prefixCopy p, 1, none)) := by
  have unused : table.nodes table.fresh = none := allocated _ le_rfl
  obtain ⟨result, ran, resultFresh, sameLinks, changed⟩ := addLeaf_spec p slot unused (by
    intro upper side same
    subst same
    obtain ⟨cell, cellFound, above⟩ := admits
    obtain ⟨node, found, samePrefix, _⟩ := node_of_cell cellFound
    exact ⟨node, found, by rw [checkBit_eq, samePrefix]; exact above.2.2⟩)
  refine ⟨result, ran, ⟨?_, ?_, ?_⟩, changed⟩
  · rw [sameLinks]
    exact tree.attach empty (cell_eq_none.mpr unused) admits
  · intro id beyond
    rw [resultFresh] at beyond
    have apart : id ≠ table.fresh := ne_of_gt beyond
    rw [← status_eq_none, changed, update_of_ne apart, status_eq_none]
    exact allocated id (le_of_succ_le beyond)
  · intro other q info present
    rw [changed] at present
    by_cases new : other = table.fresh
    · rw [new, update_self] at present
      cases present
    · rw [update_of_ne new] at present
      have grows {side} (full : (table.links.slot (some (other, side))).isSome) :
          (result.links.slot (some (other, side))).isSome := by
        rw [sameLinks]
        by_cases here : some (other, side) = slot
        · simp [Links.attach, here]
        · simpa [Links.attach, here] using full
      by_cases owned : Slot.owner slot = some other
      · rcases slot with _ | ⟨upper, side⟩
        · cases owned
        · have same : upper = other := by simpa [Slot.owner] using owned
          subst upper
          obtain ⟨bare, sibling⟩ := owner other side rfl q info present
          refine ⟨bare, ?_⟩
          intro otherSide
          by_cases here : otherSide = side
          · subst otherSide
            rw [sameLinks]
            simp [Links.attach]
          · have flipped : otherSide = !side := Bool.eq_not.mpr here
            exact grows (flipped ▸ sibling)
      · obtain ⟨bare, children⟩ := others other owned q info present
        exact ⟨bare, fun side => grows (children side)⟩

/-- What `route_node_get` leaves: the returned node has the masked prefix of `p`
and one more lock; besides it, at most one bare glue node is new. -/
structure Added (before after : RouteTable Info) (p : Prefix) (id : NodeId) : Prop where
  wellformed : after.Wellformed
  target : ∃ q lock info, after.status id = some (q, lock + 1, info) ∧ q.SameMasked p ∧
    (before.status id = some (q, lock, info) ∨ before.status id = none ∧ lock = 0 ∧ info = none)
  named : ∀ q lock info, before.status id = none → after.status id = some (q, lock, info) →
    q = prefixCopy p ∨ ∃ other lower, before.nodes other = some lower ∧
      p.prefixlen < lower.p.prefixlen
  others : ∃ glue : Option NodeId, ∀ other, other ≠ id →
    (glue ≠ some other → after.status other = before.status other) ∧
    (glue = some other → before.status other = none ∧ ∃ q, after.status other = some (q, 0, none))

/-- `set_link (new, node)`: below an inserted glue node only that node hangs. -/
private theorem insertAbove_sibling (tree : table.links.Wellformed Above)
    (unused : table.nodes table.fresh = none) {id q side}
    (stored : table.links.slot slot = some id) {other} (apart : other ≠ side) :
    (table.links.insertAbove slot table.fresh q side id).slot (some (table.fresh, other)) =
      none := by
  have free := tree.fresh_slots (cell_eq_none.mpr unused) other
  have elsewhere : some (table.fresh, other) ≠ slot := by
    intro same
    rw [← same, free] at stored
    cases stored
  simp [insertAbove, elsewhere, apart, free]

theorem Wellformed.addGlue (wf : table.Wellformed) {id} (reached : table.Reached p slot)
    (found : table.nodes id = some node) (stored : table.links.slot slot = some id)
    (outside : ¬ node.p.Covers p) :
    ∃ result new, table.addGlue p (owner slot) id = some (result, new) ∧
      Added table result p new := by
  have unused : table.nodes table.fresh = none := wf.allocated _ le_rfl
  have admits := reached.admits_glue wf found stored
  have above := glue_above outside
  obtain ⟨spliced, ran, splicedFresh, splicedLinks, splicedStatus⟩ :=
    spliceAbove_spec (glueOf node.p p) slot unused found (by
      intro owner side same
      subst same
      obtain ⟨_, cellFound, _, upperCell, upperFound, hangs⟩ := wf.tree.child stored
      rw [cell_of_node found] at cellFound
      cases cellFound
      obtain ⟨cell, again, glueAbove⟩ := admits
      have sameCell : cell = upperCell := some.inj (again.symm.trans upperFound)
      subst cell
      obtain ⟨upper, upperHere, samePrefix, _⟩ := node_of_cell upperFound
      refine ⟨?_, upper, upperHere, by rw [checkBit_eq, samePrefix]; exact glueAbove.2.2⟩
      intro same
      rw [same, found] at upperHere
      cases upperHere
      exact lt_irrefl _ (samePrefix ▸ hangs.1))
  have tree : spliced.links.Wellformed Prefix.Above := by
    rw [splicedLinks]
    exact wf.tree.insertAbove prefixOrder stored (cell_eq_none.mpr unused) (cell_of_node found)
      admits above
  have allocated : ∀ other, spliced.fresh ≤ other → spliced.nodes other = none := by
    intro other beyond
    rw [splicedFresh] at beyond
    rw [← status_eq_none, splicedStatus, update_of_ne (ne_of_gt beyond), status_eq_none]
    exact wf.allocated other (le_of_succ_le beyond)
  have glueStatus : spliced.status table.fresh = some (glueOf node.p p, 0, none) := by
    rw [splicedStatus, update_self]
  have others : ∀ other, other ≠ table.fresh → spliced.Glued other := by
    intro other apart q info present
    rw [splicedStatus, update_of_ne apart] at present
    obtain ⟨bare, children⟩ := wf.glued other q info present
    refine ⟨bare, ?_⟩
    intro side
    have inner : some (other, side) ≠
        some (table.fresh, checkBit node.p.octets (glueOf node.p p).prefixlen) := by
      simp [apart]
    rw [splicedLinks]
    by_cases here : some (other, side) = slot
    · rw [here] at inner
      simp [insertAbove, here, inner]
    · simpa [insertAbove, here, inner] using children side
  by_cases shorter : (glueOf node.p p).prefixlen ≠ p.prefixlen
  · have parts := glue_parts shorter
    have common := (routeCommon_spec node.p p)
    have below : (glueOf node.p p).prefixlen < p.prefixlen := lt_of_le_of_ne common.1 shorter
    have sameGlue : (glueOf node.p p).Covers p := ⟨common.1, common.2.2.1⟩
    have place : spliced.Reached p
        (some (table.fresh, checkBit p.octets (glueOf node.p p).prefixlen)) := by
      intro owner side same
      cases same
      obtain ⟨glue, glueFound, gluePrefix, _⟩ := node_of_views glueStatus
      exact ⟨glue, glueFound, gluePrefix ▸ sameGlue, gluePrefix ▸ below, by rw [gluePrefix]⟩
    obtain ⟨result, added, resultWf, changed⟩ := addLeaf_wellformed (p := p) tree allocated
      (some (table.fresh, checkBit p.octets (glueOf node.p p).prefixlen))
      (by rw [splicedLinks]; exact insertAbove_sibling wf.tree unused stored parts)
      place.admits
      (fun other apart => others other (by simpa [owner] using Ne.symm apart))
      (by
        intro owner side same q info present
        cases same
        rw [glueStatus] at present
        cases present
        have flipped := Bool.not_eq.mpr parts
        rw [flipped, splicedLinks]
        simp [insertAbove])
    have named : result.status spliced.fresh = some (prefixCopy p, 1, none) := by simp [changed]
    refine ⟨result, spliced.fresh, ?_, resultWf, ?_, fun q lock info _ present => ?_,
      some table.fresh, ?_⟩
    · have leaf := added
      simp only [RouteTable.addGlue, found, ran, bind_eq_bind, bind_some, if_pos shorter]
      exact leaf
    · refine ⟨prefixCopy p, 0, none, by simp [changed], sameMasked_prefixCopy p,
        .inr ⟨?_, rfl, rfl⟩⟩
      rw [status_eq_none]
      exact wf.allocated _ (by rw [splicedFresh]; exact le_succ _)
    · rw [named] at present
      cases present
      exact .inl rfl
    · intro other apart
      refine ⟨?_, ?_⟩
      · intro notGlue
        have different : other ≠ table.fresh := fun same => notGlue (by rw [same])
        rw [changed, update_of_ne apart, splicedStatus, update_of_ne different]
      · intro isGlue
        have same : table.fresh = other := some.inj isGlue
        subst other
        exact ⟨status_eq_none.mpr unused, glueOf node.p p, by
          rw [changed, update_of_ne apart, glueStatus]⟩
  · have level : (glueOf node.p p).prefixlen = p.prefixlen := not_not.mp shorter
    obtain ⟨glue, glueFound, gluePrefix, glueLock, glueInfo⟩ := node_of_views glueStatus
    obtain ⟨result, locked, sameLinks, sameFresh, changed⟩ := routeLockNode_spec glueFound
    rw [gluePrefix, glueLock, glueInfo] at changed
    refine ⟨result, table.fresh, ?_, ⟨sameLinks ▸ tree, ?_, ?_⟩, ?_,
      fun _ _ _ _ _ => .inr ⟨id, node, found, level ▸ above.1⟩, none, ?_⟩
    · simp only [RouteTable.addGlue, found, ran, Option.bind_eq_bind, Option.bind_some,
        if_neg shorter, locked, Option.pure_def]
    · intro other beyond
      rw [sameFresh] at beyond
      have apart : other ≠ table.fresh := by
        rw [splicedFresh] at beyond
        exact ne_of_gt beyond
      rw [← status_eq_none, changed, update_of_ne apart, status_eq_none]
      exact allocated other beyond
    · intro other q info present
      by_cases here : other = table.fresh
      · rw [changed, here, update_self] at present
        cases present
      · rw [changed, update_of_ne here] at present
        rw [sameLinks]
        exact others other here q info present
    · refine ⟨glueOf node.p p, 0, none, by simp [changed], ⟨level, ?_⟩, .inr ⟨?_, rfl, rfl⟩⟩
      · exact (routeCommon_spec node.p p).2.2.1
      · exact status_eq_none.mpr unused
    · intro other apart
      exact ⟨fun _ => by rw [changed, update_of_ne apart, splicedStatus, update_of_ne apart],
        fun absurd => by cases absurd⟩

theorem Wellformed.get (wf : table.Wellformed) (p : Prefix) :
    ∃ result id, table.routeNodeGet p = some (result, id) ∧ Added table result p id := by
  obtain ⟨path, stop, walk, short⟩ := wf.walk_exists p
  rcases getLoop_eq walk short none rfl (by intro owner side same; cases same) with
    ⟨id, node, ended, found, same⟩ | ⟨slot, ended, reached, live⟩
  · obtain ⟨result, locked, resultWf, _, _, changed⟩ := wf.lock found
    refine ⟨result, id, ?_, resultWf, ?_, fun q lock info absent _ => ?_, none, ?_⟩
    · have start : getLoop table p (p.prefixlen + 2) table.top none = some (.found id) := ended
      simp [routeNodeGet, start, locked]
    · exact ⟨node.p, node.lock, node.info, by simp [changed], same, .inl (status_of_node found)⟩
    · rw [status_of_node found] at absent
      cases absent
    · intro other apart
      exact ⟨fun _ => by rw [changed, update_of_ne apart], fun absurd => by cases absurd⟩
  · have start : getLoop table p (p.prefixlen + 2) table.top none =
        some (.missing (Slot.owner slot) (table.links.slot slot)) := ended
    cases stored : table.links.slot slot with
    | none =>
      obtain ⟨result, added, resultWf, changed⟩ :=
        addLeaf_wellformed (p := p) wf.tree wf.allocated slot
        stored reached.admits (fun other _ => wf.glued other) (by
          -- a glue node has no empty side
          intro owner side same q info present
          have full := (wf.glued owner q info present).2 side
          rw [← same, stored] at full
          cases full)
      have named : result.status table.fresh = some (prefixCopy p, 1, none) := by simp [changed]
      refine ⟨result, table.fresh, ?_, resultWf, ?_, fun q lock info _ present => ?_, none, ?_⟩
      · simp [routeNodeGet, start, stored, added]
      · exact ⟨prefixCopy p, 0, none, by simp [changed], sameMasked_prefixCopy p,
          .inr ⟨status_eq_none.mpr (wf.allocated _ le_rfl), rfl, rfl⟩⟩
      · rw [named] at present
        cases present
        exact .inl rfl
      · intro other apart
        exact ⟨fun _ => by rw [changed, update_of_ne apart], fun absurd => by cases absurd⟩
    | some id =>
      obtain ⟨node, found, outside⟩ := live id stored
      obtain ⟨result, new, ran, added⟩ := wf.addGlue reached found stored outside
      exact ⟨result, new, by simp [routeNodeGet, start, stored, ran], added⟩

end RouteTable
end Zebra
