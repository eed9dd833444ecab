import Zebra.Base.Run
import Zebra.Lib.TableLookup
import Zebra.Lib.TableOrder

/-! Runs of route table calls. Callers hold locks, store `rn->info` only under a lock they hold, and
give back no more locks than they took. -/

namespace Zebra
open Function Base Base.LinkedTree Option RouteTable List
namespace RouteTable
variable {Info : Type} {table : RouteTable Info}

/-- `route_node_match` answers the longest covering prefix with info. -/
def MatchLongest (table : RouteTable Info) (p : Prefix) (result : Option NodeId) : Prop :=
  (∀ id, result = some id → ∃ node, table.nodes id = some node ∧ node.info.isSome ∧
    node.p.Covers p ∧ ∀ other otherNode, table.nodes other = some otherNode →
      otherNode.info.isSome → otherNode.p.Covers p → otherNode.p.prefixlen ≤ node.p.prefixlen) ∧
  (result = none ↔ ∀ other otherNode, table.nodes other = some otherNode →
    otherNode.info.isSome → ¬ otherNode.p.Covers p)

/-- `route_node_lookup` answers the node with this masked prefix, if it has info. -/
def LookupExact (table : RouteTable Info) (p : Prefix) (result : Option NodeId) : Prop :=
  ∀ id, result = some id ↔
    ∃ node, table.nodes id = some node ∧ node.p.SameMasked p ∧ node.info.isSome

/-- `route_node_get` answers a node with this masked prefix. Every node that was
there keeps prefix, info and lock, but for one more lock on the answer; at most
the answer and one glue node are new. -/
def GetExact (table after : RouteTable Info) (p : Prefix) (id : NodeId) : Prop :=
  (∃ node, after.nodes id = some node ∧ node.p.SameMasked p) ∧
  (∀ other node, table.nodes other = some node → ∃ node', after.nodes other = some node' ∧
    node'.p = node.p ∧ node'.info = node.info ∧
    node'.lock = if other = id then node.lock + 1 else node.lock) ∧
  ∃ glue, ∀ other, other ≠ id → other ≠ glue → table.nodes other = none → after.nodes other = none

private theorem foldl_last {path : List NodeId} {Rel} (test : NodeId → Bool)
    (sorted : path.Pairwise Rel) (matched : Option NodeId) :
    (path.foldl (fun best id => if test id then some id else best) matched = matched ∧
      ∀ id ∈ path, test id = false) ∨
    ∃ id ∈ path, path.foldl (fun best id => if test id then some id else best) matched = some id ∧
      test id = true ∧ ∀ other ∈ path, test other = true → other = id ∨ Rel other id := by
  induction sorted generalizing matched with
  | nil => exact .inl ⟨rfl, by simp⟩
  | @cons head path before _ ih =>
    simp only [foldl_cons]
    rcases ih (if test head then some head else matched) with
      ⟨same, none⟩ | ⟨id, member, same, holds, last⟩
    · by_cases hit : test head = true
      · refine .inr ⟨head, mem_cons_self, by rw [same, if_pos hit], hit, ?_⟩
        intro other otherMember otherHolds
        rcases mem_cons.mp otherMember with here | later
        · exact .inl here
        · rw [none other later] at otherHolds
          cases otherHolds
      · refine .inl ⟨by rw [same, if_neg hit], ?_⟩
        intro other otherMember
        rcases mem_cons.mp otherMember with here | later
        · simpa [here] using hit
        · exact none other later
    · refine .inr ⟨id, .tail _ member, same, holds, ?_⟩
      intro other otherMember otherHolds
      rcases mem_cons.mp otherMember with here | later
      · exact .inr (here ▸ before id member)
      · exact last other later otherHolds

/-- A call that returns a node, or none, locks exactly that node. -/
def LocksResult (table after : RouteTable Info) (result : Option NodeId) : Prop :=
  (result = none ∧ after = table) ∨
    ∃ id node, result = some id ∧ table.nodes id = some node ∧ after.Wellformed ∧
      after.status = update table.status id (some (node.p, node.lock + 1, node.info))

theorem Wellformed.routeNodeMatch (wf : table.Wellformed) (p : Prefix) :
    ∃ after result, table.routeNodeMatch p = some (after, result) ∧
      table.MatchLongest p result ∧ LocksResult table after result := by
  obtain ⟨path, stop, walk, short⟩ := wf.walk_exists p
  have loop := matchLoop_eq walk short none
  have everyone {id : NodeId} {node} (found : table.nodes id = some node)
      (carries : node.info.isSome) (covers : node.p.Covers p) :
        id ∈ path ∧ table.hasInfo id = true :=
    ⟨wf.mem_walk walk found covers, by rw [hasInfo_of_node found, carries]⟩
  rcases foldl_last table.hasInfo (walk.sorted prefixOrder wf.tree) none with
    ⟨same, none⟩ | ⟨id, member, same, holds, last⟩
  · refine ⟨table, Option.none, ?_, ⟨by simp, ?_⟩, .inl ⟨rfl, rfl⟩⟩
    · simp [RouteTable.routeNodeMatch, loop, same]
    · simp only [true_iff]
      intro other node found carries covers
      obtain ⟨member, holds⟩ := everyone found carries covers
      rw [none other member] at holds
      cases holds
  · obtain ⟨node, found, covers⟩ := walk_covers walk member
    obtain ⟨after, locked, afterWf, _, _, changed⟩ := wf.lock found
    have carried : node.info.isSome = true := by rw [← hasInfo_of_node found, holds]
    refine ⟨after, some id, ?_, ⟨?_, ?_⟩, .inr ⟨id, node, rfl, found, afterWf, changed⟩⟩
    · simp [RouteTable.routeNodeMatch, loop, same, locked]
    · intro other isResult
      cases isResult
      refine ⟨node, found, carried, covers, ?_⟩
      intro other otherNode otherFound otherCarries otherCovers
      obtain ⟨otherMember, otherHolds⟩ := everyone otherFound otherCarries otherCovers
      rcases last other otherMember otherHolds with same | shallower
      · rw [same, found] at otherFound
        cases otherFound
        exact le_rfl
      · exact le_of_lt (shallower _ _ (cell_of_node otherFound) (cell_of_node found))
    · constructor
      · intro absurd
        cases absurd
      · intro noneCovers
        exact absurd covers (noneCovers id node found carried)

theorem Wellformed.routeNodeLookup (wf : table.Wellformed) (p : Prefix) :
    ∃ after result, table.routeNodeLookup p = some (after, result) ∧
      table.LookupExact p result ∧ LocksResult table after result := by
  obtain ⟨path, stop, walk, short⟩ := wf.walk_exists p
  obtain ⟨result, loop, hits, misses⟩ := lookupLoop_eq walk short
  cases result with
  | none =>
    refine ⟨table, none, by simp [RouteTable.routeNodeLookup, loop], ?_, .inl ⟨rfl, rfl⟩⟩
    intro id
    constructor
    · intro absurd
      cases absurd
    · intro ⟨node, found, same, carries⟩
      exact absurd ⟨same.1, carries⟩
        (misses rfl id (wf.mem_walk walk found same.covers) node found)
  | some id =>
    obtain ⟨member, node, found, level, carries⟩ := hits id rfl
    obtain ⟨again, foundAgain, covers⟩ := walk_covers walk member
    have sameNode : again = node := some.inj (foundAgain.symm.trans found)
    subst again
    obtain ⟨after, locked, afterWf, _, _, changed⟩ := wf.lock found
    refine ⟨after, some id, by simp [RouteTable.routeNodeLookup, loop, locked], ?_,
      .inr ⟨id, node, rfl, found, afterWf, changed⟩⟩
    intro other
    constructor
    · intro isResult
      cases isResult
      exact ⟨node, found, ⟨level, covers.2⟩, carries⟩
    · intro ⟨otherNode, otherFound, same, _⟩
      have sameMasked : node.p.SameMasked otherNode.p :=
        Prefix.SameMasked.trans ⟨level, covers.2⟩ same.symm
      rw [wf.prefix_unique found otherFound sameMasked]

theorem Added.exact {after p id} (added : Added table after p id) : GetExact table after p id := by
  obtain ⟨q, lock, info, present, same, origin⟩ := added.target
  obtain ⟨glue, others⟩ := added.others
  obtain ⟨node, found, nodePrefix, nodeLock, nodeInfo⟩ := node_of_views present
  refine ⟨⟨node, found, nodePrefix ▸ same⟩, ?_, glue.getD id, ?_⟩
  · intro other otherNode otherFound
    by_cases here : other = id
    · subst other
      rcases origin with before | ⟨absent, _⟩
      · rw [status_of_node otherFound] at before
        cases before
        exact ⟨node, found, nodePrefix, nodeInfo, by simp [nodeLock]⟩
      · rw [status_of_node otherFound] at absent
        cases absent
    · have kept : after.status other = table.status other := by
        apply (others other here).1
        intro isGlue
        have absent := ((others other here).2 isGlue).1
        rw [status_of_node otherFound] at absent
        cases absent
      rw [status_of_node otherFound] at kept
      obtain ⟨node', found', samePrefix, sameLock, sameInfo⟩ := node_of_views kept
      exact ⟨node', found', samePrefix, sameInfo, by simp [here, sameLock]⟩
  · intro other apart notGlue absent
    have kept : after.status other = table.status other := by
      apply (others other apart).1
      intro isGlue
      exact notGlue (by rw [isGlue]; rfl)
    exact (nodes_none_of_status kept).mpr absent

/-- What the nodes of a table satisfy: children lie strictly below their parent on
the side of their next bit, parent and link pointers answer each other, masked
prefixes are distinct, and an unlocked node is bare glue with two children. -/
structure Represents (table : RouteTable Info) : Prop where
  child : ∀ {id node side lower}, table.nodes id = some node → node.link side = some lower →
    ∃ lowerNode, table.nodes lower = some lowerNode ∧ lowerNode.parent = some id ∧
      node.p.prefixlen < lowerNode.p.prefixlen ∧
      (∀ index < node.p.prefixlen, node.p.bit index = lowerNode.p.bit index) ∧
      lowerNode.p.bit node.p.prefixlen = side
  parent : ∀ {id node upper}, table.nodes id = some node → node.parent = some upper →
    ∃ upperNode, table.nodes upper = some upperNode ∧
      upperNode.link (node.p.bit upperNode.p.prefixlen) = some id
  top : ∀ {id}, table.top = some id ↔ ∃ node, table.nodes id = some node ∧ node.parent = none
  distinct : ∀ {first second firstNode secondNode}, table.nodes first = some firstNode →
    table.nodes second = some secondNode → firstNode.p.SameMasked secondNode.p → first = second
  glue : ∀ {id node}, table.nodes id = some node → node.lock = 0 →
    node.info = none ∧ (node.link false).isSome ∧ (node.link true).isSome

theorem Wellformed.represents (wf : table.Wellformed) : table.Represents where
  child {id node side lower} found linked := by
    obtain ⟨cell, cellFound, parent, upperCell, upperFound, above⟩ :=
      wf.tree.child ((slot_of_node found side).trans linked)
    obtain ⟨lowerNode, lowerFound, samePrefix, sameParent⟩ := node_of_cell cellFound
    rw [cell_of_node found] at upperFound
    cases upperFound
    refine ⟨lowerNode, lowerFound, sameParent.trans parent, ?_⟩
    rw [samePrefix]
    exact above
  parent {id node upper} found isParent := by
    obtain ⟨slot, owned, stored⟩ := wf.tree.held (cell_of_node found)
    have owner : Slot.owner slot = some upper := owned.trans isParent
    rcases slot with _ | ⟨upperId, side⟩
    · cases owner
    · have same : upperId = upper := by simpa [Slot.owner] using owner
      subst upperId
      obtain ⟨cell, cellFound, _, upperCell, upperFound, above⟩ := wf.tree.child stored
      rw [cell_of_node found] at cellFound
      cases cellFound
      obtain ⟨upperNode, upperHere, samePrefix, _⟩ := node_of_cell upperFound
      refine ⟨upperNode, upperHere, ?_⟩
      rw [samePrefix, above.2.2, ← slot_of_node upperHere]
      exact stored
  top {id} := by
    constructor
    · intro isTop
      obtain ⟨cell, cellFound, parent, _⟩ := wf.tree.child
        (show table.links.slot none = some id from isTop)
      obtain ⟨node, found, _, sameParent⟩ := node_of_cell cellFound
      exact ⟨node, found, sameParent.trans parent⟩
    · rintro ⟨node, found, orphan⟩
      obtain ⟨slot, owned, stored⟩ := wf.tree.held (cell_of_node found)
      have owner : Slot.owner slot = none := owned.trans orphan
      rcases slot with _ | ⟨upper, side⟩
      · exact stored
      · cases owner
  distinct firstFound secondFound same := wf.prefix_unique firstFound secondFound same
  glue {id node} found unlocked := by
    have glued := wf.glued id node.p node.info
    rw [status_of_node found, unlocked] at glued
    obtain ⟨bare, children⟩ := glued rfl
    exact ⟨bare, slot_of_node found false ▸ children false, slot_of_node found true ▸ children true⟩

end RouteTable

/-- A table with the number of locks its callers hold on each node. -/
structure Session (Info : Type) where
  table : RouteTable Info
  held : NodeId → Nat

inductive Call (Info : Type) where
  | get (p : Prefix)
  | lookup (p : Prefix)
  | longestMatch (p : Prefix)
  | lock (id : NodeId)
  | unlock (id : NodeId)
  | top
  | next (id : NodeId)
  | setInfo (id : NodeId) (info : Info)
  | clearInfo (id : NodeId)

namespace Session
variable {Info : Type}

def init : Session Info :=
  { table := routeTableInit, held := fun _ => 0 }

def infoOf (session : Session Info) (id : NodeId) : Option Info :=
  (session.table.nodes id).bind fun node => node.info

/-- The callers now hold the lock a call took on its result. -/
def taking (held : NodeId → Nat) : Option NodeId → NodeId → Nat
  | none => held
  | some id => update held id (held id + 1)

/-- The discipline of the callers. A node whose info is set is not unlocked for
the last time. -/
def permits (session : Session Info) : Call Info → Prop
  | .lock id => (session.table.nodes id).isSome
  | .unlock id | .next id =>
    0 < session.held id ∧ ((session.infoOf id).isSome → 1 < session.held id)
  | .setInfo id _ | .clearInfo id => 0 < session.held id
  | .get _ | .lookup _ | .longestMatch _ | .top => True

instance (session : Session Info) : (call : Call Info) → Decidable (session.permits call)
  | .lock _ => inferInstanceAs (Decidable (_ = true))
  | .unlock _ | .next _ => inferInstanceAs (Decidable (_ ∧ (_ → _)))
  | .setInfo _ _ | .clearInfo _ => inferInstanceAs (Decidable (_ < _))
  | .get _ | .lookup _ | .longestMatch _ | .top => .isTrue trivial

/-- One call; `none` would be a failed assertion or a dangling pointer. -/
def run (session : Session Info) : Call Info → Option (Session Info)
  | .get p => do
    let (table, id) ← session.table.routeNodeGet p
    return ⟨table, taking session.held (some id)⟩
  | .lookup p => do
    let (table, id) ← session.table.routeNodeLookup p
    return ⟨table, taking session.held id⟩
  | .longestMatch p => do
    let (table, id) ← session.table.routeNodeMatch p
    return ⟨table, taking session.held id⟩
  | .lock id => do
    let table ← session.table.routeLockNode id
    return ⟨table, taking session.held (some id)⟩
  | .unlock id => do
    let table ← session.table.routeUnlockNode id
    return ⟨table, update session.held id (session.held id - 1)⟩
  | .top => do
    let (table, id) ← session.table.routeTop
    return ⟨table, taking session.held id⟩
  | .next id => do
    let (table, next) ← session.table.routeNext id
    let held := taking session.held next
    return ⟨table, update held id (held id - 1)⟩
  | .setInfo id info => do
    let table ← session.table.setInfo id (some info)
    return { session with table := table }
  | .clearInfo id => do
    let table ← session.table.setInfo id none
    return { session with table := table }

/-- Sessions that callers keeping the discipline can bring about. -/
inductive Reachable : Session Info → Prop where
  | init : Reachable init
  | step {session next : Session Info} (earlier : Reachable session) (call : Call Info)
      (permitted : session.permits call) (ran : session.run call = some next) : Reachable next

/-- The lock of each node counts the locks its callers hold. -/
structure Sound (session : Session Info) : Prop where
  wellformed : session.table.Wellformed
  counted : ∀ id, session.held id = ((session.table.status id).map fun state => state.2.1).getD 0

variable {session : Session Info}

theorem Sound.held_of_node (sound : session.Sound) {id node}
    (found : session.table.nodes id = some node) : session.held id = node.lock := by
  simp [sound.counted id, status_of_node found]

theorem Sound.node_of_held (sound : session.Sound) {id} (holding : 0 < session.held id) :
    ∃ node, session.table.nodes id = some node ∧ node.lock = session.held id := by
  cases found : session.table.nodes id with
  | none =>
    rw [sound.counted id, status_eq_none.mpr found] at holding
    simp at holding
  | some node => exact ⟨node, rfl, (sound.held_of_node found).symm⟩

theorem sound_init : (init : Session Info).Sound where
  wellformed := wellformed_routeTableInit
  counted id := by simp [init, routeTableInit, status]

theorem sound_taking {held} {table : RouteTable Info} {id p} {lock} {info : Option Info}
    (wf : table.Wellformed)
    (present : table.status id = some (p, lock + 1, info)) (before : held id = lock)
    (others : ∀ other, other ≠ id →
      ((table.status other).map fun state => state.2.1).getD 0 = held other) :
    Sound ⟨table, taking held (some id)⟩ := by
  refine ⟨wf, ?_⟩
  intro other
  by_cases here : other = id
  · subst other
    simp [taking, present, before]
  · simp [taking, here, others other here]

section
variable (sound : session.Sound)
include sound

theorem Sound.locksResult {table} {result : Option NodeId}
    (locks : LocksResult session.table table result) :
    Sound ⟨table, taking session.held result⟩ := by
  rcases locks with ⟨rfl, rfl⟩ | ⟨id, node, rfl, found, wf, changed⟩
  · exact ⟨sound.wellformed, sound.counted⟩
  · refine sound_taking wf (by rw [changed, update_self]) (sound.held_of_node found) ?_
    intro other apart
    rw [changed, update_of_ne apart, sound.counted other]

theorem Sound.lock {id node}
    (found : session.table.nodes id = some node) :
    ∃ table, session.table.routeLockNode id = some table ∧
      Sound ⟨table, taking session.held (some id)⟩ := by
  obtain ⟨table, ran, wf, _, _, changed⟩ := sound.wellformed.lock found
  exact ⟨table, ran, sound.locksResult (.inr ⟨id, node, rfl, found, wf, changed⟩)⟩

theorem Sound.unlock {id} (permitted : session.permits (.unlock id)) :
    ∃ table, session.table.routeUnlockNode id = some table ∧
      Sound ⟨table, update session.held id (session.held id - 1)⟩ := by
  obtain ⟨holding, cleared⟩ := permitted
  obtain ⟨node, found, counted⟩ := sound.node_of_held holding
  rw [← counted] at holding cleared
  have carried : session.infoOf id = node.info := by simp [infoOf, found]
  rw [carried] at cleared
  obtain ⟨table, ran, wf, _, pruned⟩ := sound.wellformed.unlock found holding cleared
  refine ⟨table, ran, wf, ?_⟩
  intro other
  have lowered : ((((session.table.put id { node with lock := node.lock - 1 }).status other).map
      fun state => state.2.1).getD 0) = update session.held id (session.held id - 1) other := by
    rw [status_put]
    by_cases here : other = id
    · simp [here, counted]
    · simp [here, sound.counted other]
  refine lowered.symm.trans ?_
  rcases pruned other with same | ⟨gone, p, bare⟩
  · rw [same]
  · simp [gone, bare]

theorem Sound.setInfo {id} (holding : 0 < session.held id) (info : Option Info) :
    ∃ table, session.table.setInfo id info = some table ∧
      Sound { session with table := table } := by
  obtain ⟨node, found, counted⟩ := sound.node_of_held holding
  obtain ⟨table, ran, wf, _, changed⟩ := sound.wellformed.setInfo found (counted ▸ holding) info
  refine ⟨table, ran, wf, ?_⟩
  intro other
  rw [changed]
  by_cases here : other = id
  · simp [here, counted]
  · simp [here, sound.counted other]

theorem Sound.run {call : Call Info} (permitted : session.permits call) :
    ∃ next, session.run call = some next ∧ next.Sound := by
  cases call with
  | get p =>
    obtain ⟨table, id, ran, added⟩ := sound.wellformed.get p
    refine ⟨⟨table, taking session.held (some id)⟩, by simp [Session.run, ran], ?_⟩
    obtain ⟨q, lock, info, present, _, origin⟩ := added.target
    obtain ⟨glue, others⟩ := added.others
    refine sound_taking added.wellformed present ?_ ?_
    · rcases origin with before | ⟨absent, fresh, _⟩
      · simp [sound.counted id, before]
      · simp [sound.counted id, absent, fresh]
    · intro other apart
      rw [sound.counted other]
      by_cases isGlue : glue = some other
      · obtain ⟨absent, q, bare⟩ := (others other apart).2 isGlue
        simp [absent, bare]
      · rw [(others other apart).1 isGlue]
  | lookup p =>
    obtain ⟨table, result, ran, _, locks⟩ := sound.wellformed.routeNodeLookup p
    exact ⟨_, by simp [Session.run, ran], sound.locksResult locks⟩
  | longestMatch p =>
    obtain ⟨table, result, ran, _, locks⟩ := sound.wellformed.routeNodeMatch p
    exact ⟨_, by simp [Session.run, ran], sound.locksResult locks⟩
  | lock id =>
    obtain ⟨node, found⟩ := isSome_iff_exists.mp permitted
    obtain ⟨table, ran, next⟩ := sound.lock found
    exact ⟨_, by simp [Session.run, ran], next⟩
  | unlock id =>
    obtain ⟨table, ran, next⟩ := sound.unlock permitted
    exact ⟨_, by simp [Session.run, ran], next⟩
  | top =>
    cases isTop : session.table.top with
    | none =>
      exact ⟨session, by simp [Session.run, routeTop, isTop, taking], sound⟩
    | some id =>
      obtain ⟨node, found, _⟩ := (sound.wellformed.represents.top).mp isTop
      obtain ⟨table, ran, next⟩ := sound.lock found
      exact ⟨_, by simp [Session.run, routeTop, isTop, ran], next⟩
  | next id =>
    obtain ⟨node, found, _⟩ := sound.node_of_held permitted.1
    obtain ⟨result, chosen, place⟩ := sound.wellformed.nextOf_next found
    cases result with
    | none =>
      obtain ⟨table, ran, next⟩ := sound.unlock permitted
      exact ⟨_, by simp [Session.run, routeNext, chosen, ran, taking], next⟩
    | some following =>
      obtain ⟨_, ⟨nextNode, nextFound, _⟩, _⟩ := place
      obtain ⟨locked, lockRan, lockedSound⟩ := sound.lock nextFound
      -- the lock on the following node leaves the lock on this one releasable
      have still : permits ⟨locked, taking session.held (some following)⟩ (.unlock id) := by
        obtain ⟨_, lockRan', _, _, changed⟩ := routeLockNode_spec nextFound
        rw [lockRan] at lockRan'
        cases lockRan'
        have sameInfo : infoOf ⟨locked, taking session.held (some following)⟩ id =
            session.infoOf id := by
          have present : locked.status id = update session.table.status following
              (some (nextNode.p, nextNode.lock + 1, nextNode.info)) id := by rw [changed]
          by_cases here : id = following
          · subst following
            rw [update_self] at present
            obtain ⟨after, afterFound, _, _, afterInfo⟩ := node_of_views present
            simp [infoOf, afterFound, afterInfo, nextFound]
          · rw [update_of_ne here, status_of_node found] at present
            obtain ⟨after, afterFound, _, _, afterInfo⟩ := node_of_views present
            simp [infoOf, afterFound, afterInfo, found]
        have more : session.held id ≤ taking session.held (some following) id := by
          by_cases here : id = following
          · simp [taking, here]
          · simp [taking, here]
        refine ⟨lt_of_lt_of_le permitted.1 more, ?_⟩
        intro carries
        rw [sameInfo] at carries
        exact lt_of_lt_of_le (permitted.2 carries) more
      obtain ⟨table, unlockRan, next⟩ := lockedSound.unlock still
      exact ⟨_, by simp [Session.run, routeNext, chosen, lockRan, unlockRan], next⟩
  | setInfo id info =>
    obtain ⟨table, ran, next⟩ := sound.setInfo permitted (some info)
    exact ⟨_, by simp [Session.run, ran], next⟩
  | clearInfo id =>
    obtain ⟨table, ran, next⟩ := sound.setInfo permitted none
    exact ⟨_, by simp [Session.run, ran], next⟩

end

theorem Reachable.sound (reachable : session.Reachable) : session.Sound := by
  induction reachable with
  | init => exact sound_init
  | step _ call permitted ran ih =>
    obtain ⟨next, ran', sound⟩ := ih.run permitted
    rw [ran] at ran'
    cases ran'
    exact sound

theorem sampleTen_fits : 8 ≤ 8 * Family.inet.bytelen := by decide

theorem sampleTen_size :
    (#[10, 0, 0, 0, 0, 0, 0, 0, 0, 0, 0, 0, 0, 0, 0, 0] : Array Octet).size = 16 := rfl

theorem sampleEleven_size :
    (#[11, 0, 0, 0, 0, 0, 0, 0, 0, 0, 0, 0, 0, 0, 0, 0] : Array Octet).size = 16 := rfl

/-- 10.0.0.0/8 and 11.0.0.0/8. -/
def sampleTen : Prefix :=
  ⟨.inet, 8, ⟨#[10, 0, 0, 0, 0, 0, 0, 0, 0, 0, 0, 0, 0, 0, 0, 0], sampleTen_size⟩, sampleTen_fits⟩

def sampleEleven : Prefix :=
  ⟨.inet, 8, ⟨#[11, 0, 0, 0, 0, 0, 0, 0, 0, 0, 0, 0, 0, 0, 0, 0], sampleEleven_size⟩,
    sampleTen_fits⟩

/-- Every run of permitted calls keeps the representation invariant, and no
permitted call fails an assertion or follows a dangling pointer. -/
theorem route_table_invariant {session : Session Info} (reachable : session.Reachable) :
    session.table.Represents ∧ ∀ call, session.permits call → (session.run call).isSome := by
  refine ⟨reachable.sound.wellformed.represents, ?_⟩
  intro call permitted
  obtain ⟨next, ran, _⟩ := reachable.sound.run permitted
  simp [ran]

/-- Two routes that part in their last octet bit: the run builds a glue node. -/
theorem route_table_invariant_two_routes :
    ∃ session : Session Unit, session.held 2 = 1 ∧ session.table.Represents := by
  obtain ⟨first, ranFirst⟩ := isSome_iff_exists.mp
    (show ((init : Session Unit).run (.get sampleTen)).isSome by decide)
  have reachable : first.Reachable := .step .init (.get sampleTen) trivial ranFirst
  obtain ⟨second, ranSecond⟩ := isSome_iff_exists.mp
    ((route_table_invariant reachable).2 (.get sampleEleven) trivial)
  have counted : ((init : Session Unit).run (.get sampleTen)).bind
      (fun session => (session.run (.get sampleEleven)).map fun session => session.held 2) =
        some 1 := by
    decide +kernel
  simp only [ranFirst, bind_some, ranSecond, map_some, some.injEq] at counted
  exact ⟨second, counted,
    (route_table_invariant (.step reachable (.get sampleEleven) trivial ranSecond)).1⟩

/-- The lookups of a reachable table answer as a finite map from masked prefixes
would, and `route_node_get` extends it without disturbing what is there. -/
theorem route_table_refines_map {session : Session Info} (reachable : session.Reachable)
    (p : Prefix) :
    (∃ after result, session.table.routeNodeMatch p = some (after, result) ∧
      session.table.MatchLongest p result) ∧
    (∃ after result, session.table.routeNodeLookup p = some (after, result) ∧
      session.table.LookupExact p result) ∧
    ∃ after id, session.table.routeNodeGet p = some (after, id) ∧
      GetExact session.table after p id := by
  have wf := reachable.sound.wellformed
  refine ⟨?_, ?_, ?_⟩
  · obtain ⟨after, result, ran, longest, _⟩ := wf.routeNodeMatch p
    exact ⟨after, result, ran, longest⟩
  · obtain ⟨after, result, ran, lookup, _⟩ := wf.routeNodeLookup p
    exact ⟨after, result, ran, lookup⟩
  · obtain ⟨after, id, ran, added⟩ := wf.get p
    exact ⟨after, id, ran, added.exact⟩

theorem sampleHost_fits : 32 ≤ 8 * Family.inet.bytelen := by decide

theorem sampleSixteen_fits : 16 ≤ 8 * Family.inet.bytelen := by decide

/-- 10.1.0.0/16 and 10.2.0.0/16. -/
def sampleSixteen (second : Octet) : Prefix :=
  ⟨.inet, 16, #v[10, second, 0, 0, 0, 0, 0, 0, 0, 0, 0, 0, 0, 0, 0, 0], sampleSixteen_fits⟩

/-- 10.1.2.3/32. -/
def sampleHost : Prefix :=
  ⟨.inet, 32, #v[10, 1, 2, 3, 0, 0, 0, 0, 0, 0, 0, 0, 0, 0, 0, 0], sampleHost_fits⟩

/-- 10.0.0.0/8, 10.1.0.0/16 and 10.2.0.0/16 with info. -/
def sampleCalls : List (Call Unit) :=
  [.get sampleTen, .setInfo 0 (), .get (sampleSixteen 1), .setInfo 1 (), .get (sampleSixteen 2),
    .setInfo 3 ()]


/-- Two of the prefixes with info cover 10.1.2.3 and the longer one is the answer; a lookup finds
the third, and `route_node_get` makes a node for 10.1.2.3 itself. -/
theorem route_table_refines_map_longest :
    ∃ session : Session Unit, attempt permits run init sampleCalls = some session ∧
      (∃ after, session.table.routeNodeMatch sampleHost = some (after, some 1) ∧
        session.table.MatchLongest sampleHost (some 1)) ∧
      (∃ after, session.table.routeNodeLookup (sampleSixteen 2) = some (after, some 3) ∧
        session.table.LookupExact (sampleSixteen 2) (some 3)) ∧
      ∃ after, session.table.routeNodeGet sampleHost = some (after, 4) ∧
        GetExact session.table after sampleHost 4 := by
  obtain ⟨session, ran⟩ := isSome_iff_exists.mp
    (by decide +kernel : (attempt permits run init sampleCalls).isSome)
  have matched : (attempt permits run init sampleCalls).bind (fun session =>
      (session.table.routeNodeMatch sampleHost).map Prod.snd) = some (some 1) := by decide +kernel
  have looked : (attempt permits run init sampleCalls).bind (fun session =>
      (session.table.routeNodeLookup (sampleSixteen 2)).map Prod.snd) = some (some 3) := by
        decide +kernel
  have got : (attempt permits run init sampleCalls).bind (fun session =>
      (session.table.routeNodeGet sampleHost).map Prod.snd) = some 4 := by decide +kernel
  rw [ran, bind_some] at matched looked got
  have reachable : session.Reachable := attempt_invariant (fun earlier => earlier.step _) .init ran
  obtain ⟨⟨_, _, ranMatch, longest⟩, _, ⟨_, _, ranGet, exact⟩⟩ :=
    route_table_refines_map reachable sampleHost
  obtain ⟨_, ⟨_, _, ranLookup, found⟩, _⟩ := route_table_refines_map reachable (sampleSixteen 2)
  rw [ranMatch, map_some, some.injEq] at matched
  rw [ranLookup, map_some, some.injEq] at looked
  rw [ranGet, map_some, some.injEq] at got
  subst matched looked got
  exact ⟨session, ran, ⟨_, ranMatch, longest⟩, ⟨_, ranLookup, found⟩, _, ranGet, exact⟩

end Session
end Zebra
