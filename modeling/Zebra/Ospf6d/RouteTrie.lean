import Zebra.Ospf6d.LsdbTable
import Zebra.Ospf6d.LsdbWalks

namespace Zebra.Ospf6d
open Function Base RouteTable Option Prefix
variable {Info : Type} {table after : RouteTable Info} {place : NodeId} {node : RouteNode Info}
  {info : Info}

/-- The nodes are still there and carry what they did; their locks may differ. -/
structure Keeps (table after : RouteTable Info) : Prop where
  wf : after.Wellformed
  nodes : ∀ {place node}, table.nodes place = some node →
    ∃ now, after.nodes place = some now ∧ now.p.bits = node.p.bits
  carries : ∀ {word info}, Carries after word info ↔ Carries table word info

variable (wf : table.Wellformed)
include wf

theorem Keeps.refl : Keeps table table :=
  ⟨wf, fun found => ⟨_, found, rfl⟩, Iff.rfl⟩

theorem keeps_hold (found : table.nodes place = some node) : Keeps table (table.hold place) := by
  have changed : (table.hold place).status =
      update table.status place (some (node.p, node.lock + 1, node.info)) := by
    funext other
    by_cases same : other = place
    · rw [same, update_self, status, nodes_hold_self found]
      rfl
    · rw [update_of_ne same, status, status, nodes_hold_ne same]
  refine ⟨wf.hold found, fun {other otherNode} present => ?_, fun {word other} => ?_⟩
  · obtain ⟨now, there, same⟩ := spelled_hold.mpr ⟨otherNode, present, rfl⟩
    exact ⟨now, there, same⟩
  · rw [carries_restate wf found changed]
    split
    · rename_i same
      constructor
      · exact fun carried => ⟨place, node, found, same.symm, carried⟩
      · rintro ⟨there, otherNode, otherFound, equal, carried⟩
        have here := place_unique wf otherFound found (equal.trans same)
        rw [here, found] at otherFound
        cases otherFound
        exact carried
    · rfl

theorem keeps_holding {result}
    (live : ∀ place, result = some place → ∃ node, table.nodes place = some node)
    : Keeps table (table.holding result) := by
  cases result with
  | none => exact Keeps.refl wf
  | some place =>
    obtain ⟨node, found⟩ := live place rfl
    exact keeps_hold wf found

theorem lookup_keeps (p : Prefix) :
    ∃ result, table.routeNodeLookup p = some (table.holding result, result) ∧
      Keeps table (table.holding result) ∧
      (∀ place, result = some place → ∃ node info, (table.holding result).nodes place = some node ∧
        node.p.bits = p.bits ∧
        0 < node.lock ∧ node.info = some info) ∧
      (result = none → ∀ info, ¬ Carries table p.bits info) := by
  obtain ⟨result, ran, hits⟩ := lookup_holding wf p
  refine ⟨result, ran, keeps_holding wf fun place same => ?_, fun place same => ?_,
    fun missing info carries => ?_⟩
  · obtain ⟨node, found, _⟩ := (hits place).mp same
    exact ⟨node, found⟩
  · obtain ⟨node, found, masked, full⟩ := (hits place).mp same
    obtain ⟨info, carried⟩ := isSome_iff_exists.mp full
    subst same
    exact ⟨_, info, nodes_hold_self found, bits_eq.mpr masked, Nat.succ_pos _, carried⟩
  · obtain ⟨place, node, found, same, carried⟩ := carries
    have hit := (hits place).mpr ⟨node, found, bits_eq.mp same, by rw [carried]; rfl⟩
    rw [missing] at hit
    cases hit

theorem match_unlock (p : Prefix) :
    ∃ held result, table.routeNodeMatch p = some (held, result) ∧ (result = none → held = table) ∧
      ∀ place, result = some place → ∃ node info, held.routeUnlockNode place = some table ∧
        table.nodes place = some node ∧ node.info = some info := by
  obtain ⟨held, result, ran, longest, locks⟩ := wf.routeNodeMatch p
  refine ⟨held, result, ran, ?_, fun place same => ?_⟩
  · rintro rfl
    obtain ⟨_, same⟩ | ⟨_, _, absent, _⟩ := locks
    · exact same
    · cases absent
  · subst same
    obtain ⟨node, found, full, _⟩ := longest.1 place rfl
    obtain ⟨info, carried⟩ := isSome_iff_exists.mp full
    have same : held = table.hold place := by
      rw [routeNodeMatch] at ran
      cases loop : table.matchLoop p (p.prefixlen + 2) table.top none with
      | none =>
        rw [loop] at ran
        cases ran
      | some answer =>
        rw [loop] at ran
        cases answer with
        | none => cases ran
        | some other =>
          simp only [bind_eq_bind, bind_some] at ran
          cases present : table.nodes other with
          | none =>
            rw [routeLockNode, present] at ran
            cases ran
          | some otherNode =>
            rw [routeLockNode_hold present] at ran
            cases ran
            rfl
    subst same
    exact ⟨node, info, wf.unlock_hold found, found, carried⟩

theorem get_keeps (p : Prefix) :
    ∃ after place node, table.routeNodeGet p = some (after, place) ∧ Keeps table after ∧
      after.nodes place = some node ∧ node.p.bits = p.bits ∧ 0 < node.lock := by
  obtain ⟨after, place, ran, added⟩ := wf.get p
  obtain ⟨q, lock, info, present, same, origin⟩ := added.target
  obtain ⟨node, found, samePrefix, sameLock, sameInfo⟩ := node_of_views present
  refine ⟨after, place, node, ran,
    ⟨added.wellformed, fun {other otherNode} there => ?_, added_carries added⟩, found,
    by rw [samePrefix, bits_eq.mpr same], by omega⟩
  · by_cases here : other = place
    · subst here
      rcases origin with before | ⟨absent, _⟩
      · rw [status_of_node there, some.injEq, Prod.mk.injEq] at before
        exact ⟨node, found, by rw [samePrefix, before.1]⟩
      · rw [status_of_node there] at absent
        cases absent
    · obtain ⟨now, nowFound, equal, _⟩ :=
        node_of_views (added_lasting added here (status_of_node there))
      exact ⟨now, nowFound, by rw [equal]⟩

theorem setInfo_carries (found : table.nodes place = some node) (held : 0 < node.lock)
    (info : Option Info) :
    ∃ after now, table.setInfo place info = some after ∧ after.Wellformed ∧
      (∀ {other otherNode}, table.nodes other = some otherNode →
        ∃ now, after.nodes other = some now ∧
        now.p.bits = otherNode.p.bits) ∧
      after.nodes place = some now ∧ now.p.bits = node.p.bits ∧
      ∀ word other, Carries after word other ↔ if word = node.p.bits then info = some other
        else Carries table word other := by
  obtain ⟨after, ran, afterWf, _, changed⟩ := wf.setInfo found held info
  have nodes : ∀ {other otherNode}, table.nodes other = some otherNode →
      ∃ now, after.nodes other = some now ∧
      now.p.bits = otherNode.p.bits := by
    intro other otherNode there
    by_cases here : other = place
    · subst here
      have written : after.status other = some (node.p, node.lock, info) := by
        rw [changed, update_self]
      obtain ⟨now, nowFound, equal, _⟩ := node_of_views written
      rw [found] at there
      cases there
      exact ⟨now, nowFound, by rw [equal]⟩
    · have status := status_of_node there
      rw [← update_of_ne here (some (node.p, node.lock, info)) table.status, ← changed] at status
      obtain ⟨now, nowFound, equal, _⟩ := node_of_views status
      exact ⟨now, nowFound, by rw [equal]⟩
  obtain ⟨now, nowFound, same⟩ := nodes found
  exact ⟨after, now, ran, afterWf, nodes, nowFound, same,
    fun word other => carries_restate wf found changed⟩

end Zebra.Ospf6d
