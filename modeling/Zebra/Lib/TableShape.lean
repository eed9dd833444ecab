import Mathlib.Data.Option.Basic
import Zebra.Lib.Table

namespace Zebra
open Function Base Base.LinkedTree Slot Links Option

/-- `lower` is a longer prefix inside `upper`, on the given side of it. -/
def Prefix.Above (upper : Prefix) (side : Bool) (lower : Prefix) : Prop :=
  upper.prefixlen < lower.prefixlen ∧ Agree upper.prefixlen upper.octets lower.octets ∧
    lower.bit upper.prefixlen = side

theorem Prefix.Above.covers {upper lower : Prefix} {side} (above : upper.Above side lower) :
    upper.Covers lower :=
  ⟨le_of_lt above.1, above.2.1⟩

def prefixOrder : LinkedTree.Order Prefix.Above where
  rank p := p.prefixlen
  deeper above := above.1
  side_unique first second := first.2.2.symm.trans second.2.2
  trans := by
    intro upper side middle other lower first second
    refine ⟨Nat.lt_trans first.1 second.1,
      first.2.1.trans (second.2.1.mono (Nat.le_of_lt first.1)), ?_⟩
    rw [← first.2.2]
    exact (second.2.1 upper.prefixlen first.1).symm

/-- Covering a longer prefix passes to the nodes above, and fixes the side. -/
theorem Prefix.Above.upward {p upper lower : Prefix} {side} (above : upper.Above side lower)
    (covers : lower.Covers p) : upper.Covers p ∧ checkBit p.octets upper.prefixlen = side := by
  refine ⟨above.covers.trans covers, ?_⟩
  rw [checkBit_eq, ← above.2.2]
  exact (covers.2 upper.prefixlen above.1).symm

namespace RouteTable
variable {Info : Type}

section
variable (table : RouteTable Info)

/-- The child pointers and parent pointers of a table. -/
def links : Links Prefix NodeId where
  slot
    | none => table.top
    | some (id, side) => (table.nodes id).bind fun node => node.link side
  cell id := (table.nodes id).map fun node => ⟨node.p, node.parent⟩

/-- Prefix, lock and info of each node. -/
def status (id : NodeId) : Option (Prefix × Nat × Option Info) :=
  (table.nodes id).map fun node => (node.p, node.lock, node.info)

theorem links_slot_root : table.links.slot none = table.top := rfl

theorem links_slot_link (id : NodeId) (side : Bool) :
    table.links.slot (some (id, side)) = (table.nodes id).bind fun node => node.link side := rfl

theorem links_cell (id : NodeId) :
    table.links.cell id = (table.nodes id).map fun node => ⟨node.p, node.parent⟩ := rfl

end

variable {table : RouteTable Info} {node : RouteNode Info}

theorem cell_eq_none {id} : table.links.cell id = none ↔ table.nodes id = none := by
  simp [links_cell]

theorem status_put (table : RouteTable Info) (id : NodeId) (next : RouteNode Info) :
    (table.put id next).status = update table.status id (some (next.p, next.lock, next.info)) := by
  funext other
  by_cases here : other = id
  · subst other
    simp [status, put]
  · simp [status, put, here]

theorem links_ext {first second : Links Prefix NodeId} (root : first.slot none = second.slot none)
    (sides : ∀ id side, first.slot (some (id, side)) = second.slot (some (id, side)))
    (cells : ∀ id, first.cell id = second.cell id) : first = second := by
  cases first
  congr 1
  · funext slot
    rcases slot with _ | ⟨id, side⟩
    · exact root
    · exact sides id side
  · funext id
    exact cells id

theorem links_put {id : NodeId} {next} (found : table.nodes id = some node)
    (samePrefix : next.p = node.p) (sameParent : next.parent = node.parent)
    (sameLink : next.link = node.link) :
    (table.put id next).links = table.links := by
  apply links_ext
  · rfl
  · intro other side
    by_cases here : other = id
    · subst other
      simp [links_slot_link, put, found, sameLink]
    · simp [links_slot_link, put, here]
  · intro other
    by_cases here : other = id
    · subst other
      simp [links_cell, put, found, samePrefix, sameParent]
    · simp [links_cell, put, here]

section
variable {id} (found : table.nodes id = some node)
include found

theorem cell_of_node : table.links.cell id = some ⟨node.p, node.parent⟩ := by
  simp [links_cell, found]

theorem slot_of_node (side : Bool) : table.links.slot (some (id, side)) = node.link side := by
  simp [links_slot_link, found]

theorem status_put_same {next}
    (samePrefix : next.p = node.p) (sameLock : next.lock = node.lock)
    (sameInfo : next.info = node.info) :
    (table.put id next).status = table.status := by
  rw [status_put]
  funext other
  by_cases here : other = id
  · subst other
    simp [status, found, samePrefix, sameLock, sameInfo]
  · simp [here]

theorem routeLockNode_spec :
    ∃ result, table.routeLockNode id = some result ∧ result.links = table.links ∧
      result.fresh = table.fresh ∧
      result.status = update table.status id (some (node.p, node.lock + 1, node.info)) := by
  refine ⟨table.put id { node with lock := node.lock + 1 }, ?_, ?_, rfl, ?_⟩
  · simp [routeLockNode, found]
  · exact links_put found rfl rfl rfl
  · exact status_put _ _ _

theorem status_of_node : table.status id = some (node.p, node.lock, node.info) := by
  simp [status, found]

end

theorem setLink_spec {owner new parent child} (apart : owner ≠ new)
    (ownerFound : table.nodes owner = some parent) (newFound : table.nodes new = some child) :
    ∃ result, table.setLink owner new = some result ∧ result.fresh = table.fresh ∧
      result.status = table.status ∧
      result.links.slot =
        update table.links.slot (some (owner, checkBit child.p.octets parent.p.prefixlen))
        (some new) ∧
      result.links.cell = update table.links.cell new (some ⟨child.p, some owner⟩) := by
  obtain ⟨middle, isMiddle⟩ : ∃ middle, table.put owner { parent with
      link := update parent.link (checkBit child.p.octets parent.p.prefixlen) (some new) } =
        middle :=
    ⟨_, rfl⟩
  have kept : middle.nodes new = some child := by
    simp [← isMiddle, put, apart.symm, newFound]
  refine ⟨middle.put new { child with parent := some owner }, ?_, ?_, ?_, ?_, ?_⟩
  · simp [setLink, ownerFound, newFound, isMiddle, kept]
  · simp [← isMiddle, put]
  · have inner : middle.status = table.status := by
      rw [← isMiddle]
      exact status_put_same ownerFound rfl rfl rfl
    rw [← inner]
    exact status_put_same kept rfl rfl rfl
  · funext slot
    rcases slot with _ | ⟨id, side⟩
    · simp [← isMiddle, put, links]
    · by_cases isNew : id = new
      · subst id
        simp [links_slot_link, put, apart.symm, newFound]
      · by_cases isOwner : id = owner
        · subst id
          by_cases here : side = checkBit child.p.octets parent.p.prefixlen
          · simp [links_slot_link, ← isMiddle, put, apart, here]
          · simp [links_slot_link, ← isMiddle, put, apart, ownerFound, here]
        · simp [links_slot_link, ← isMiddle, put, isNew, isOwner]
  · funext id
    by_cases isNew : id = new
    · subst id
      simp [links_cell, put]
    · by_cases isOwner : id = owner
      · subst id
        simp [links_cell, ← isMiddle, put, apart, ownerFound]
      · simp [links_cell, ← isMiddle, put, isNew, isOwner]

theorem setLinkOrTop_spec (slot : Slot NodeId) {new child}
    (newFound : table.nodes new = some child) (unparented : child.parent = none)
    (fits : ∀ owner side, slot = some (owner, side) → owner ≠ new ∧
      ∃ parent, table.nodes owner = some parent ∧
        checkBit child.p.octets parent.p.prefixlen = side) :
    ∃ result, table.setLinkOrTop (owner slot) new = some result ∧
      result.fresh = table.fresh ∧ result.status = table.status ∧
      result.links.slot = update table.links.slot slot (some new) ∧
      result.links.cell = update table.links.cell new (some ⟨child.p, owner slot⟩) := by
  rcases slot with _ | ⟨owner, side⟩
  · refine ⟨{ table with top := some new }, rfl, rfl, rfl, ?_, ?_⟩
    · funext slot
      rcases slot with _ | ⟨id, side⟩
      · simp [links]
      · simp [links]
    · funext id
      by_cases isNew : id = new
      · subst id
        simp [links_cell, newFound, unparented, owner]
      · simp [links_cell, isNew]
  · obtain ⟨apart, parent, ownerFound, chosen⟩ := fits owner side rfl
    obtain ⟨result, ran, sameFresh, sameStatus, slots, cells⟩ :=
      setLink_spec apart ownerFound newFound
    exact ⟨result, ran, sameFresh, sameStatus, by rw [slots, chosen], cells⟩

theorem node_of_views {id p lock info} (present : table.status id = some (p, lock, info)) :
    ∃ node, table.nodes id = some node ∧ node.p = p ∧ node.lock = lock ∧ node.info = info := by
  cases found : table.nodes id with
  | none => simp [status, found] at present
  | some node =>
    simp only [status, found, map_some, some.injEq, Prod.mk.injEq] at present
    exact ⟨node, rfl, present⟩

theorem addLeaf_spec (p : Prefix) (slot : Slot NodeId) (unused : table.nodes table.fresh = none)
    (fits : ∀ owner side, slot = some (owner, side) →
      ∃ parent, table.nodes owner = some parent ∧
        checkBit (prefixCopy p).octets parent.p.prefixlen = side) :
    ∃ result, table.addLeaf p (Slot.owner slot) = some (result, table.fresh) ∧
      result.fresh = table.fresh + 1 ∧
      result.links = table.links.attach slot table.fresh (prefixCopy p) ∧
      result.status = update table.status table.fresh (some (prefixCopy p, 1, none)) := by
  obtain ⟨start, isStart⟩ : ∃ start, table.alloc { p := prefixCopy p } = start := ⟨_, rfl⟩
  have newFound : start.nodes table.fresh = some { p := prefixCopy p } := by
    simp [← isStart, alloc]
  have others (id : NodeId) (apart : id ≠ table.fresh) : start.nodes id = table.nodes id := by
    simp [← isStart, alloc, apart]
  obtain ⟨linked, ran, linkedFresh, linkedStatus, slots, cells⟩ :=
    setLinkOrTop_spec slot newFound rfl (by
      intro owner side same
      obtain ⟨parent, ownerFound, chosen⟩ := fits owner side same
      have apart : owner ≠ table.fresh := by
        intro same
        rw [same, unused] at ownerFound
        cases ownerFound
      exact ⟨apart, parent, by rw [others owner apart, ownerFound], chosen⟩)
  have startStatus :
      start.status = update table.status table.fresh (some (prefixCopy p, 0, none)) := by
    funext id
    by_cases here : id = table.fresh
    · subst id
      simp [status, newFound]
    · simp [status, others id here, here]
  have present : linked.status table.fresh = some (prefixCopy p, 0, none) := by
    rw [linkedStatus, startStatus]
    simp
  obtain ⟨node, nodeFound, nodePrefix, nodeLock, nodeInfo⟩ := node_of_views present
  obtain ⟨result, locked, resultLinks, resultFresh, resultStatus⟩ := routeLockNode_spec nodeFound
  refine ⟨result, ?_, ?_, ?_, ?_⟩
  · simp [addLeaf, isStart, ran, locked]
  · rw [resultFresh, linkedFresh, ← isStart]
    rfl
  · rw [resultLinks]
    apply links_ext
    · rw [slots]
      by_cases root : slot = none
      · simp [Links.attach, root]
      · simp [Links.attach, Ne.symm root, links_slot_root, ← isStart, alloc]
    · intro id side
      rw [slots]
      by_cases here : some (id, side) = slot
      · simp [Links.attach, here]
      · by_cases new : id = table.fresh
        · subst id
          simp [Links.attach, here, links_slot_link, newFound, unused]
        · simp [Links.attach, here, links_slot_link, others id new]
    · intro id
      rw [cells]
      by_cases new : id = table.fresh
      · subst id
        simp [Links.attach]
      · simp [Links.attach, new, links_cell, others id new]
  · rw [resultStatus, linkedStatus, startStatus, nodePrefix, nodeLock, nodeInfo]
    simp

theorem node_of_cell {id cell} (present : table.links.cell id = some cell) :
    ∃ node, table.nodes id = some node ∧ node.p = cell.label ∧ node.parent = cell.parent := by
  cases found : table.nodes id with
  | none => simp [links_cell, found] at present
  | some node =>
    have same : ⟨node.p, node.parent⟩ = cell := by simpa [links_cell, found] using present
    subst cell
    exact ⟨node, rfl, rfl, rfl⟩

theorem spliceAbove_spec (glue : Prefix) (slot : Slot NodeId) {id : NodeId}
    (unused : table.nodes table.fresh = none)
    (found : table.nodes id = some node)
    (fits : ∀ owner side, slot = some (owner, side) → owner ≠ id ∧
      ∃ parent, table.nodes owner = some parent ∧
        checkBit glue.octets parent.p.prefixlen = side) :
    ∃ result, table.spliceAbove glue (owner slot) id = some (result, table.fresh) ∧
      result.fresh = table.fresh + 1 ∧
      result.links = table.links.insertAbove slot table.fresh glue
        (checkBit node.p.octets glue.prefixlen) id ∧
      result.status = update table.status table.fresh (some (glue, 0, none)) := by
  have idApart : id ≠ table.fresh := by
    intro same
    rw [same, unused] at found
    cases found
  obtain ⟨start, isStart⟩ : ∃ start, table.alloc { p := glue } = start := ⟨_, rfl⟩
  have newFound : start.nodes table.fresh = some { p := glue } := by
    simp [← isStart, alloc]
  have others (other : NodeId) (apart : other ≠ table.fresh) :
      start.nodes other = table.nodes other := by
    simp [← isStart, alloc, apart]
  obtain ⟨lower, lowerRan, lowerFresh, lowerStatus, lowerSlots, lowerCells⟩ :=
    setLink_spec idApart.symm newFound ((others id idApart).trans found)
  have newCell : lower.links.cell table.fresh = some ⟨glue, none⟩ := by
    rw [lowerCells, update_of_ne idApart.symm]
    exact cell_of_node newFound
  obtain ⟨new, newHere, newPrefix, newParent⟩ := node_of_cell newCell
  obtain ⟨result, ran, resultFresh, resultStatus, slots, cells⟩ :=
    setLinkOrTop_spec slot newHere newParent (by
      intro owner side same
      obtain ⟨ownerId, parent, ownerFound, chosen⟩ := fits owner side same
      have apart : owner ≠ table.fresh := by
        intro same
        rw [same, unused] at ownerFound
        cases ownerFound
      have ownerCell : lower.links.cell owner = some ⟨parent.p, parent.parent⟩ := by
        rw [lowerCells, update_of_ne ownerId]
        exact cell_of_node ((others owner apart).trans ownerFound)
      obtain ⟨kept, keptFound, keptPrefix, _⟩ := node_of_cell ownerCell
      exact ⟨apart, kept, keptFound, by rw [newPrefix, keptPrefix, chosen]⟩)
  refine ⟨result, ?_, ?_, ?_, ?_⟩
  · simp [spliceAbove, isStart, lowerRan, ran]
  · rw [resultFresh, lowerFresh, ← isStart]
    rfl
  · have slotApart : some (table.fresh, checkBit node.p.octets glue.prefixlen) ≠ slot := by
      intro same
      obtain ⟨_, parent, ownerFound, _⟩ := fits _ _ same.symm
      rw [unused] at ownerFound
      cases ownerFound
    apply links_ext
    · by_cases root : slot = none
      · simp [slots, insertAbove, root]
      · rw [slots, lowerSlots]
        simp [insertAbove, Ne.symm root, links_slot_root, ← isStart, alloc]
    · intro other side
      by_cases inner :
        some (other, side) = some (table.fresh, checkBit node.p.octets glue.prefixlen)
      · simp [inner, slots, lowerSlots, insertAbove, slotApart]
      · by_cases outer : some (other, side) = slot
        · rw [outer] at inner
          simp [slots, insertAbove, inner, outer]
        · rw [slots, lowerSlots]
          simp only [insertAbove, update_of_ne inner, update_of_ne outer]
          by_cases isNew : other = table.fresh
          · simp [isNew, links_slot_link, newFound, unused]
          · simp [links_slot_link, others other isNew]
    · intro other
      by_cases isNew : other = table.fresh
      · simp [isNew, cells, insertAbove, newPrefix]
      · by_cases moved : other = id
        · rw [moved, cells, lowerCells]
          simp [insertAbove, idApart, cell_of_node found]
        · rw [cells, lowerCells]
          simp [insertAbove, isNew, moved, links_cell, others other isNew]
  · rw [resultStatus, lowerStatus]
    funext other
    by_cases isNew : other = table.fresh
    · simp [isNew, status, newFound]
    · simp [isNew, status, others other isNew]

theorem setParent_spec (table : RouteTable Info) (child parent : Option NodeId)
    (live : ∀ lower, child = some lower → ∃ node, table.nodes lower = some node) :
    ∃ result, table.setParent child parent = some result ∧
      result.top = table.top ∧ result.fresh = table.fresh ∧
      ∀ other, result.nodes other = if child = some other then
        (table.nodes other).map fun node => { node with parent := parent }
        else table.nodes other := by
  cases child with
  | none => exact ⟨table, rfl, rfl, rfl, by simp⟩
  | some lower =>
    obtain ⟨node, found⟩ := live lower rfl
    refine ⟨table.put lower { node with parent := parent }, by
      simp [setParent, found], rfl, rfl, ?_⟩
    intro other
    by_cases here : lower = other
    · subst other
      simp [put, found]
    · simp [put, here, Ne.symm here]

theorem unlinkNode_spec (wf : table.links.Wellformed Prefix.Above) {slot : Slot NodeId} {id}
    {child : Option NodeId} (found : table.nodes id = some node)
    (stored : table.links.slot slot = some id)
    (below : ∀ lower, child = some lower → ∃ side, node.link side = some lower) :
    ∃ result, table.unlinkNode id node child = some (result, Slot.owner slot) ∧
      result.fresh = table.fresh ∧ result.links = table.links.remove slot id child ∧
      result.status = update table.status id none := by
  obtain ⟨cell, cellFound, owned, admits⟩ := wf.child stored
  have sameCell : ⟨node.p, node.parent⟩ = cell :=
    some.inj ((cell_of_node found).symm.trans cellFound)
  subst cell
  have childLive (lower : NodeId) (has : child = some lower) :
      ∃ lowerNode, table.nodes lower = some lowerNode ∧
        node.p.prefixlen < lowerNode.p.prefixlen := by
    obtain ⟨side, linked⟩ := below lower has
    obtain ⟨lowerCell, lowerFound, _, upper, upperFound, fits⟩ :=
      wf.child ((slot_of_node found side).trans linked)
    obtain ⟨lowerNode, lowerHere, lowerPrefix, _⟩ := node_of_cell lowerFound
    have same : upper = ⟨node.p, node.parent⟩ :=
      some.inj (upperFound.symm.trans (cell_of_node found))
    subst upper
    exact ⟨lowerNode, lowerHere, lowerPrefix ▸ fits.1⟩
  obtain ⟨middle, moved, middleTop, middleFresh, middleNodes⟩ :=
    setParent_spec table child node.parent fun lower has =>
      (childLive lower has).imp fun _ here => here.1
  have parentIs : node.parent = Slot.owner slot := owned
  rcases slot with _ | ⟨owner, side⟩
  · refine ⟨routeNodeFree { middle with top := child } id, ?_, middleFresh, ?_, ?_⟩
    · have orphan : node.parent = none := owned
      rw [orphan] at moved
      simp [unlinkNode, replaceChild, moved, orphan, Slot.owner]
    · apply links_ext
      · simp [links, routeNodeFree, remove]
      · intro other side
        by_cases gone : other = id
        · simp [gone, links_slot_link, routeNodeFree, remove, Slot.owner]
        · by_cases lower : child = some other
          · simp [links_slot_link, routeNodeFree, remove, Slot.owner, gone, middleNodes, lower,
              bind_map]
          · simp [links_slot_link, routeNodeFree, remove, Slot.owner, gone, middleNodes, lower]
      · intro other
        by_cases gone : other = id
        · simp [gone, links_cell, routeNodeFree, remove]
        · by_cases lower : child = some other
          · simp [links_cell, routeNodeFree, remove, gone, middleNodes, lower, parentIs,
              comp_def]
          · simp [links_cell, routeNodeFree, remove, gone, middleNodes, lower]
    · funext other
      by_cases gone : other = id
      · simp [gone, status, routeNodeFree]
      · by_cases lower : child = some other
        · simp [status, routeNodeFree, gone, middleNodes, lower, comp_def]
        · simp [status, routeNodeFree, gone, middleNodes, lower]
  · obtain ⟨upperCell, upperFound, fits⟩ := admits
    obtain ⟨upper, upperHere, upperPrefix, _⟩ := node_of_cell upperFound
    have linked : upper.link side = some id := (slot_of_node upperHere side).symm.trans stored
    have shallower : upper.p.prefixlen < node.p.prefixlen := upperPrefix ▸ fits.1
    have ownerApart : owner ≠ id := by
      intro same
      rw [same, found] at upperHere
      cases upperHere
      exact lt_irrefl _ shallower
    have ownerNotChild : child ≠ some owner := by
      intro has
      obtain ⟨lowerNode, lowerHere, deeper⟩ := childLive owner has
      rw [upperHere] at lowerHere
      cases lowerHere
      omega
    have middleUpper : middle.nodes owner = some upper := by
      simp [middleNodes, ownerNotChild, upperHere]
    have chosen : (!(upper.link false == some id)) = side := by
      cases side with
      | false => simp [linked]
      | true =>
        have notLeft : upper.link false ≠ some id := by
          intro left
          have same := wf.slot_unique prefixOrder ((slot_of_node upperHere false).trans left) stored
          simp at same
        simpa using notLeft
    refine ⟨(middle.put owner { upper with link := update upper.link side child }).routeNodeFree id,
      ?_, middleFresh, ?_, ?_⟩
    · have parent : node.parent = some owner := owned
      rw [parent] at moved
      simp only [unlinkNode, replaceChild, parent, moved, bind_eq_bind, bind_some,
        middleUpper, chosen, pure_def, Slot.owner, map_some]
    · apply links_ext
      · simp [links, routeNodeFree, put, remove, middleTop, Slot.owner]
      · intro other otherSide
        by_cases gone : other = id
        · simp [gone, links_slot_link, routeNodeFree, remove, Slot.owner, ownerApart.symm]
        · by_cases isOwner : other = owner
          · subst other
            by_cases here : otherSide = side
            · simp [links_slot_link, routeNodeFree, put, remove, ownerApart, here]
            · simp [links_slot_link, routeNodeFree, put, remove, Slot.owner, ownerApart, here,
                upperHere]
          · by_cases lower : child = some other
            · simp [links_slot_link, routeNodeFree, put, remove, Slot.owner, gone, isOwner,
                middleNodes, lower, bind_map]
            · simp [links_slot_link, routeNodeFree, put, remove, Slot.owner, gone, isOwner,
                middleNodes, lower]
      · intro other
        by_cases gone : other = id
        · simp [gone, links_cell, routeNodeFree, remove]
        · by_cases isOwner : other = owner
          · subst other
            simp [links_cell, routeNodeFree, put, remove, gone, ownerNotChild, upperHere]
          · by_cases lower : child = some other
            · simp [links_cell, routeNodeFree, put, remove, gone, isOwner, middleNodes, lower,
                parentIs, comp_def]
            · simp [links_cell, routeNodeFree, put, remove, gone, isOwner, middleNodes, lower]
    · funext other
      by_cases gone : other = id
      · simp [gone, status, routeNodeFree]
      · by_cases isOwner : other = owner
        · subst other
          simp [status, routeNodeFree, put, gone, upperHere]
        · by_cases lower : child = some other
          · simp [status, routeNodeFree, put, gone, isOwner, middleNodes, lower, comp_def]
          · simp [status, routeNodeFree, put, gone, isOwner, middleNodes, lower]

end RouteTable
end Zebra
