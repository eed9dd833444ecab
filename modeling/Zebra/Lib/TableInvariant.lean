import Zebra.Lib.TableShape


namespace Zebra
open Function Base Base.LinkedTree
namespace RouteTable
variable {Info : Type}

/-- An unlocked node is pure glue: no info, and a child on either side. -/
def Glued (table : RouteTable Info) (id : NodeId) : Prop :=
  ∀ p info, table.status id = some (p, 0, info) →
    info = none ∧ ∀ side, (table.links.slot (some (id, side))).isSome

structure Wellformed (table : RouteTable Info) : Prop where
  tree : table.links.Wellformed Prefix.Above
  allocated : ∀ id, table.fresh ≤ id → table.nodes id = none
  glued : ∀ id, table.Glued id

theorem wellformed_routeTableInit : (routeTableInit : RouteTable Info).Wellformed where
  tree := by
    constructor
    · intro slot node stored
      rcases slot with _ | ⟨owner, side⟩ <;> simp [routeTableInit, links] at stored
    · intro node cell found
      simp [routeTableInit, links] at found
  allocated _ _ := rfl
  glued id p info present := by simp [routeTableInit, status] at present

variable {table : RouteTable Info} {node : RouteNode Info}

theorem status_eq_none {id} : table.status id = none ↔ table.nodes id = none := by
  simp [status]

theorem nodes_none_of_status {before after : RouteTable Info} {id}
    (same : after.status id = before.status id) :
    after.nodes id = none ↔ before.nodes id = none := by
  rw [← status_eq_none, same, status_eq_none]

/-- Nodes only leave: those that do were unlocked and carried no info. -/
def Pruned (before after : RouteTable Info) : Prop :=
  ∀ id, after.status id = before.status id ∨
    after.status id = none ∧ ∃ p, before.status id = some (p, 0, none)

theorem Pruned.refl (table : RouteTable Info) : Pruned table table :=
  fun _ => .inl rfl

theorem Pruned.trans {first second third : RouteTable Info} (left : Pruned first second)
    (right : Pruned second third) : Pruned first third := by
  intro id
  rcases right id with same | ⟨gone, p, unlocked⟩
  · rw [same]
    exact left id
  · rcases left id with kept | ⟨absent, _⟩
    · exact .inr ⟨gone, p, kept ▸ unlocked⟩
    · rw [absent] at unlocked
      cases unlocked

theorem Wellformed.live_lt (wf : table.Wellformed) {id} (found : table.nodes id = some node) :
    id < table.fresh := by
  by_contra beyond
  rw [wf.allocated id (Nat.le_of_not_lt beyond)] at found
  cases found

/-- The child `route_node_delete` keeps: the left one if there is one. -/
def onlyChild (node : RouteNode Info) : Option NodeId :=
  if (node.link false).isSome then node.link false else node.link true

theorem onlyChild_below {lower} (has : onlyChild node = some lower) :
    ∃ side, node.link side = some lower := by
  unfold onlyChild at has
  split at has
  · exact ⟨false, has⟩
  · exact ⟨true, has⟩

theorem onlyChild_single (notFull : ¬ ((node.link false).isSome ∧ (node.link true).isSome)) {side}
    {lower} (linked : node.link side = some lower) : onlyChild node = some lower := by
  unfold onlyChild
  cases side with
  | false => simp [linked]
  | true =>
    have empty : ¬ (node.link false).isSome := fun left => notFull ⟨left, by simp [linked]⟩
    rw [if_neg empty, linked]

/-- `route_node_delete` restores the invariant where only the given node may
break it: it frees the node and, upwards, every glue node left with one child. -/
theorem routeNodeDelete_spec (fuel : Nat) {id : NodeId} (tree : table.links.Wellformed Prefix.Above)
    (allocated : ∀ id, table.fresh ≤ id → table.nodes id = none)
    (others : ∀ other, other ≠ id → table.Glued other)
    (found : table.nodes id = some node) (unlocked : node.lock = 0) (bare : node.info = none)
    (enough : node.p.prefixlen < fuel) :
    ∃ result, routeNodeDelete fuel table id = some result ∧ result.Wellformed ∧
      result.fresh = table.fresh ∧ Pruned table result := by
  induction fuel generalizing table id node with
  | zero => omega
  | succ fuel ih =>
    by_cases full : (node.link false).isSome ∧ (node.link true).isSome
    · refine ⟨table, ?_, ⟨tree, allocated, ?_⟩, rfl, .refl table⟩
      · simp [routeNodeDelete, found, unlocked, bare, full]
      · intro other
        by_cases here : other = id
        · subst other
          intro p info present
          rw [status_of_node found, bare] at present
          refine ⟨(Prod.mk.inj (Prod.mk.inj (Option.some.inj present)).2).2.symm, ?_⟩
          intro side
          rw [slot_of_node found side]
          cases side with
          | false => exact full.1
          | true => exact full.2
        · exact others other here
    · obtain ⟨slot, owned, stored⟩ := tree.held (cell_of_node found)
      obtain ⟨after, unlinked, sameFresh, sameLinks, sameStatus⟩ :=
        unlinkNode_spec tree found stored fun lower has => onlyChild_below has
      have afterTree : after.links.Wellformed Prefix.Above := by
        rw [sameLinks]
        apply tree.remove prefixOrder stored
        · intro side lower linked
          rw [slot_of_node found side] at linked
          exact onlyChild_single full linked
        · intro lower has
          obtain ⟨side, linked⟩ := onlyChild_below has
          exact ⟨side, (slot_of_node found side).trans linked⟩
      have afterAllocated : ∀ other, after.fresh ≤ other → after.nodes other = none := by
        intro other beyond
        rw [← status_eq_none, sameStatus]
        by_cases here : other = id
        · simp [here]
        · rw [update_of_ne here, status_eq_none]
          exact allocated other (sameFresh ▸ beyond)
      have afterPruned : Pruned table after := by
        intro other
        rw [sameStatus]
        by_cases here : other = id
        · subst other
          exact .inr ⟨by simp, node.p, by rw [status_of_node found, unlocked, bare]⟩
        · exact .inl (by simp [here])
      -- away from the removed node and its owner no link changed
      have afterGlued : ∀ other, Slot.owner slot ≠ some other → after.Glued other := by
        intro other apart p info present
        rw [sameStatus] at present
        have here : other ≠ id := by
          intro same
          simp [same] at present
        rw [update_of_ne here] at present
        obtain ⟨clear, children⟩ := others other here p info present
        refine ⟨clear, ?_⟩
        intro side
        have place : some (other, side) ≠ slot := by
          intro same
          exact apart (by rw [← same]; rfl)
        have outside : Slot.owner (some (other, side)) ≠ some id := by
          simpa [Slot.owner] using here
        rw [sameLinks]
        simpa only [Links.remove, if_neg place, if_neg outside] using children side
      have step : routeNodeDelete (fuel + 1) table id =
          (Slot.owner slot).elim (some after) fun parent =>
          (after.nodes parent).bind fun upper => if upper.lock = 0 then
            routeNodeDelete fuel after parent else some after := by
        have ran : table.unlinkNode id node
            (if (node.link false).isSome then node.link false else node.link true) =
            some (after, Slot.owner slot) := unlinked
        simp only [routeNodeDelete, found, unlocked, bare, full, ran, Option.bind_eq_bind,
          Option.bind_some, Option.pure_def, ne_eq, not_true_eq_false, Option.isSome_none,
          Bool.false_eq_true, or_self, ↓reduceIte]
        cases Slot.owner slot <;> rfl
      rcases slot with _ | ⟨owner, side⟩
      · refine ⟨after, by rw [step]; rfl, ⟨afterTree, afterAllocated, ?_⟩, sameFresh, afterPruned⟩
        intro other
        exact afterGlued other (by simp [Slot.owner])
      · obtain ⟨cell, cellFound, _, upperCell, upperFound, fits⟩ := tree.child stored
        obtain ⟨upper, upperHere, upperPrefix, _⟩ := node_of_cell upperFound
        have shallower : upper.p.prefixlen < node.p.prefixlen := by
          rw [cell_of_node found] at cellFound
          cases cellFound
          exact upperPrefix ▸ fits.1
        have ownerApart : owner ≠ id := by
          intro same
          rw [same, found] at upperHere
          cases upperHere
          exact lt_irrefl _ shallower
        have upperStatus : after.status owner = some (upper.p, upper.lock, upper.info) := by
          rw [sameStatus, update_of_ne ownerApart, status_of_node upperHere]
        obtain ⟨kept, keptFound, keptPrefix, keptLock, keptInfo⟩ := node_of_views upperStatus
        by_cases free : upper.lock = 0
        · have plain : upper.info = none := by
            have glue := others owner ownerApart upper.p upper.info
            rw [status_of_node upperHere, free] at glue
            exact (glue rfl).1
          obtain ⟨result, ran, resultWf, resultFresh, resultPruned⟩ :=
            ih afterTree afterAllocated
              (fun other apart => afterGlued other (by simpa [Slot.owner] using Ne.symm apart))
              keptFound (keptLock.trans free) (keptInfo.trans plain) (by rw [keptPrefix]; omega)
          refine ⟨result, ?_, resultWf, resultFresh.trans sameFresh, afterPruned.trans resultPruned⟩
          rw [step]
          simp [Slot.owner, keptFound, keptLock, free, ran]
        · refine ⟨after, ?_, ⟨afterTree, afterAllocated, ?_⟩, sameFresh, afterPruned⟩
          · rw [step]
            simp [Slot.owner, keptFound, keptLock, free]
          · intro other
            by_cases here : other = owner
            · subst other
              intro p info present
              rw [upperStatus] at present
              exact absurd (Prod.mk.inj (Prod.mk.inj (Option.some.inj present)).2).1 free
            · exact afterGlued other (by simpa [Slot.owner] using Ne.symm here)

section
variable (wf : table.Wellformed)
include wf

theorem Wellformed.unlock {id} (found : table.nodes id = some node)
    (held : 0 < node.lock) (cleared : node.info.isSome → 1 < node.lock) :
    ∃ result, table.routeUnlockNode id = some result ∧ result.Wellformed ∧
      result.fresh = table.fresh ∧
      Pruned (table.put id { node with lock := node.lock - 1 }) result := by
  obtain ⟨lowered, isLowered⟩ :
      ∃ lowered, table.put id { node with lock := node.lock - 1 } = lowered :=
    ⟨_, rfl⟩
  have sameLinks : lowered.links = table.links := by
    rw [← isLowered]
    exact links_put found rfl rfl rfl
  have loweredStatus : lowered.status = update table.status id
      (some (node.p, node.lock - 1, node.info)) := by
    rw [← isLowered]
    exact status_put _ _ _
  have sameFresh : lowered.fresh = table.fresh := by
    rw [← isLowered]
    rfl
  have others : ∀ other, other ≠ id → lowered.Glued other := by
    intro other apart p info present
    rw [loweredStatus, update_of_ne apart] at present
    rw [sameLinks]
    exact wf.glued other p info present
  have allocated : ∀ other, lowered.fresh ≤ other → lowered.nodes other = none := by
    intro other beyond
    have apart : other ≠ id :=
      ne_of_gt (lt_of_lt_of_le (wf.live_lt found) (sameFresh ▸ beyond))
    rw [← status_eq_none, loweredStatus, update_of_ne apart, status_eq_none]
    exact wf.allocated other (sameFresh ▸ beyond)
  have nonzero : node.lock ≠ 0 := by omega
  rw [isLowered]
  by_cases last : node.lock - 1 = 0
  · have bare : node.info = none := by
      cases carried : node.info with
      | none => rfl
      | some _ =>
        have more := cleared (by simp [carried])
        omega
    have loweredFound : lowered.nodes id = some { node with lock := node.lock - 1 } := by
      simp [← isLowered, put]
    obtain ⟨result, ran, resultWf, resultFresh, pruned⟩ :=
      routeNodeDelete_spec (node.p.prefixlen + 1)
        (sameLinks ▸ wf.tree) allocated others loweredFound
        last bare (Nat.lt_succ_self _)
    refine ⟨result, ?_, resultWf, resultFresh.trans sameFresh, pruned⟩
    simp only [routeUnlockNode, found, nonzero, isLowered, Option.bind_eq_bind, Option.bind_some,
      ↓reduceIte]
    rw [if_pos last, ran]
  · refine ⟨lowered, ?_, ⟨sameLinks ▸ wf.tree, allocated, ?_⟩, sameFresh, .refl _⟩
    · simp [routeUnlockNode, found, nonzero, last, isLowered]
    · intro other
      by_cases here : other = id
      · subst other
        intro p info present
        rw [loweredStatus, update_self] at present
        exact absurd (Prod.mk.inj (Prod.mk.inj (Option.some.inj present)).2).1 last
      · exact others other here

/-- A change of one node that moves no pointer keeps the invariant, if the node
still holds a lock or is glue as before. -/
theorem Wellformed.restate {result : RouteTable Info} {id : NodeId} {p lock}
    {info : Option Info} (live : table.nodes id ≠ none) (sameLinks : result.links = table.links)
    (sameFresh : result.fresh = table.fresh)
    (changed : result.status = update table.status id (some (p, lock, info))) (held : 0 < lock) :
    result.Wellformed := by
  refine ⟨sameLinks ▸ wf.tree, ?_, ?_⟩
  · intro other beyond
    rw [sameFresh] at beyond
    have apart : other ≠ id := by
      intro same
      exact live (same ▸ wf.allocated other beyond)
    rw [← status_eq_none, changed, update_of_ne apart, status_eq_none]
    exact wf.allocated other beyond
  · intro other q carried present
    rw [changed] at present
    by_cases here : other = id
    · rw [here, update_self] at present
      have zero := (Prod.mk.inj (Prod.mk.inj (Option.some.inj present)).2).1
      omega
    · rw [update_of_ne here] at present
      rw [sameLinks]
      exact wf.glued other q carried present

theorem Wellformed.lock {id : NodeId} (found : table.nodes id = some node) :
    ∃ result, table.routeLockNode id = some result ∧ result.Wellformed ∧
      result.links = table.links ∧ result.fresh = table.fresh ∧
      result.status = update table.status id (some (node.p, node.lock + 1, node.info)) := by
  obtain ⟨result, ran, sameLinks, sameFresh, changed⟩ := routeLockNode_spec found
  exact ⟨result, ran, wf.restate (by simp [found]) sameLinks sameFresh changed (Nat.succ_pos _),
    sameLinks, sameFresh, changed⟩

theorem Wellformed.setInfo {id : NodeId} (found : table.nodes id = some node)
    (held : 0 < node.lock) (info : Option Info) :
    ∃ result, table.setInfo id info = some result ∧ result.Wellformed ∧
      result.fresh = table.fresh ∧
      result.status = update table.status id (some (node.p, node.lock, info)) := by
  refine ⟨table.put id { node with info := info }, by simp [RouteTable.setInfo, found], ?_, rfl,
    status_put _ _ _⟩
  exact wf.restate (by simp [found]) (links_put found rfl rfl rfl) rfl (status_put _ _ _) held

end
end RouteTable
end Zebra
