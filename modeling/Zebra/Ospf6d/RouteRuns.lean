import Zebra.Base.Run
import Zebra.Ospf6d.RouteOperations

namespace Zebra.Ospf6d
open Base Base.Linked List

/-- What a table is for: one route for each prefix, destination type and origin. -/
abbrev RouteSet := List (RouteId × Ospf6Route)

namespace RouteSet

/-- A route replaces the one with its prefix, type and origin, unless it is identical. -/
def add (members : RouteSet) (id : RouteId) (route : Ospf6Route) : RouteSet :=
  match members.find? fun member => member.2.Kin route ∧ member.2.SameOrigin route with
  | some old => if old.2.IsIdentical route then members else (id, route) :: members.erase old
  | none => (id, route) :: members

def remove (members : RouteSet) (id : RouteId) : RouteSet :=
  members.filter fun member => member.1 ≠ id

end RouteSet

namespace Ospf6RouteTable
variable {t after : Ospf6RouteTable} {held : RouteId → Nat} {order front back listed : List RouteId}
  {id : RouteId} {route : Ospf6Route} {members : RouteSet}

/-- The routes of a list of identities, with these. -/
def entries (t : Ospf6RouteTable) (order : List RouteId) : RouteSet :=
  order.filterMap fun id => (t.routes id).map fun route => (id, route)

theorem entries_append : t.entries (front ++ back) = t.entries front ++ t.entries back :=
  filterMap_append

theorem entries_cons (found : t.routes id = some route) :
    t.entries (id :: back) = (id, route) :: t.entries back :=
  filterMap_cons_some (by rw [found]; rfl)

theorem entries_congr (routes : ∀ id ∈ order, after.routes id = t.routes id) :
    after.entries order = t.entries order :=
  filterMap_congr fun id member => by rw [routes id member]

theorem mem_entries : (id, route) ∈ t.entries order ↔ id ∈ order ∧ t.routes id = some route := by
  rw [entries, mem_filterMap]
  constructor
  · rintro ⟨other, inside, same⟩
    obtain ⟨found, present, equal⟩ := Option.map_eq_some_iff.mp same
    cases equal
    exact ⟨inside, present⟩
  · rintro ⟨inside, present⟩
    exact ⟨id, inside, by rw [present]; rfl⟩

/-- A table and its routes in order: the links go through exactly the routes that should be in it,
grouped by prefix in the order of the trie; within a prefix and a type they are sorted and have
different origins; the info of a node is the first route of its prefix, and that one alone is marked
as the best. -/
structure Represents (t : Ospf6RouteTable) (members : RouteSet) (order : List RouteId) : Prop where
  listed : members.Perm (t.entries order)
  nodup : order.Nodup
  live : ∀ id ∈ order, t.routes id ≠ none
  links : ∀ {before id after}, order = before ++ id :: after →
    t.next id = after.head? ∧ t.prev id = before.getLast?
  grouped : InOrder t.wordOf order
  sorted : order.Pairwise t.Sorts
  count : t.count = members.length % 2 ^ 32
  info : ∀ {node seat}, t.table.nodes node = some seat →
    seat.info = leader t.wordOf order seat.p.bits
  seats : ∀ id ∈ order, ∃ node seat, t.table.nodes node = some seat ∧ seat.p.bits = t.wordOf id
  best : ∀ id ∈ order, (IsBest (t.flag id) ↔ leader t.wordOf order (t.wordOf id) = some id)

instance (t : Ospf6RouteTable) (order : List RouteId) (route : Ospf6Route) :
    Decidable (t.Agrees order route) :=
  inferInstanceAs (Decidable (∀ found ∈ t.contents order, _ → _))

/-- The routes behind a link, at most so many. -/
def linked (t : Ospf6RouteTable) : Nat → Option RouteId → List RouteId
  | size + 1, some id => id :: t.linked size (t.next id)
  | _, _ => []

theorem Represents.linked (represents : t.Represents members order) :
    t.linked members.length order.head? = order := by
  have size : members.length = order.length := by
    have live := represents.live
    rw [represents.listed.length_eq]
    clear represents
    induction order with
    | nil => rfl
    | cons id order ih =>
      obtain ⟨here, later⟩ := forall_mem_cons.mp live
      obtain ⟨route, found⟩ := Option.ne_none_iff_exists'.mp here
      rw [entries_cons found, length_cons, ih later, length_cons]
  have next : ∀ before id after, order = before ++ id :: after → t.next id = after.head? :=
    fun _ _ _ split => (represents.links split).1
  rw [size]
  clear represents size
  induction order with
  | nil => rfl
  | cons id order ih =>
    rw [length_cons, head?_cons, Ospf6RouteTable.linked, next [] id order rfl]
    rw [ih fun before other after split => next (id :: before) other after (by rw [split]; rfl)]

namespace Sound
section
variable (sound : t.Sound held order)
include sound

theorem length_entries : (t.entries order).length = order.length := by
  have map : (t.entries order).map Prod.fst = order := by
    have alive : ∀ id ∈ order, t.routes id ≠ none := fun id member => sound.alive member
    clear sound
    induction order with
    | nil => rfl
    | cons id order ih =>
      obtain ⟨here, later⟩ := forall_mem_cons.mp alive
      obtain ⟨route, found⟩ := Option.ne_none_iff_exists'.mp here
      rw [entries_cons found, map_cons, ih later]
  calc (t.entries order).length = ((t.entries order).map Prod.fst).length := (length_map _).symm
    _ = order.length := by rw [map]

section
variable (perm : members.Perm (t.entries order))
include perm

theorem represents : t.Represents members order where
  listed := perm
  nodup := sound.nodup
  live _ member := sound.alive member
  links split := ⟨sound.chained.next split, sound.chained.prev split⟩
  grouped := sound.inOrder
  sorted := sound.sorted
  count := by rw [sound.count, perm.length_eq, sound.length_entries]
  info found := sound.info_eq found
  seats _ member := by
    obtain ⟨node, seat, _, found, same⟩ := sound.node member
    exact ⟨node, seat, found, same⟩
  best _ member := sound.best member

theorem find_origin {old found}
    (member : old ∈ order) (present : t.routes old = some found) (kin : found.Kin route)
    (origin : found.SameOrigin route) :
    (members.find? fun member => member.2.Kin route ∧ member.2.SameOrigin route) =
      some (old, found) := by
  have inside : (old, found) ∈ members := perm.mem_iff.mpr (mem_entries.mpr ⟨member, present⟩)
  have some_ :
      (members.find? fun member => member.2.Kin route ∧ member.2.SameOrigin route).isSome := by
    rw [find?_isSome]
    exact ⟨_, inside, decide_eq_true ⟨kin, origin⟩⟩
  obtain ⟨⟨other, otherRoute⟩, isFound⟩ := Option.isSome_iff_exists.mp some_
  have both := find?_some isFound
  obtain ⟨otherKin, otherOrigin⟩ := of_decide_eq_true both
  obtain ⟨otherMember, otherPresent⟩ :=
    mem_entries.mp (perm.mem_iff.mp (mem_of_find?_eq_some isFound))
  obtain rfl : other = old := by
    refine sound.origins otherMember member otherPresent present
      ⟨otherKin.1.trans kin.1.symm, otherKin.2.trans kin.2.symm⟩ ?_
    exact ⟨otherOrigin.1.trans origin.1.symm, otherOrigin.2.trans origin.2.symm⟩
  rw [present] at otherPresent
  cases otherPresent
  exact isFound

theorem comes (comes : t.Comes t.fresh route order listed)
    (routes : ∀ id ∈ listed, after.routes id = if id = t.fresh then some route else t.routes id) :
    (members.add t.fresh route).Perm (after.entries listed) := by
  obtain ⟨out, _⟩ := sound.fresh_out
  have kept : ∀ {id}, id ∈ order → id ∈ listed → after.routes id = t.routes id := by
    intro id member inside
    rw [routes id inside, if_neg]
    rintro rfl
    exact out member
  cases comes with
  | @stays _ old found member present kin same =>
    have origin : found.SameOrigin route := by
      rw [same]
      exact ⟨rfl, rfl⟩
    rw [RouteSet.add, sound.find_origin perm member present kin origin]
    dsimp only
    rw [if_pos same, entries_congr fun id inside => kept inside inside]
    exact perm
  | @replaces front back old found present kin origin differs =>
    have member : old ∈ front ++ old :: back := mem_append_cons_self
    have early : after.entries front = t.entries front :=
      entries_congr fun id inside => kept (mem_append_left _ inside) (mem_append_left _ inside)
    have late : after.entries back = t.entries back :=
      entries_congr fun id inside => kept (mem_append_right _ (.tail _ inside))
        (mem_append_right _ (.tail _ inside))
    have new : after.routes t.fresh = some route := by
      rw [routes _ mem_append_cons_self, if_pos rfl]
    rw [RouteSet.add, sound.find_origin perm member present kin origin]
    dsimp only
    rw [if_neg differs, entries_append, entries_cons new, early, late]
    rw [entries_append, entries_cons present] at perm
    have inside : (old, found) ∈ members := perm.mem_iff.mpr mem_append_cons_self
    have rest := ((perm_cons_erase inside).symm.trans perm).trans perm_middle
    exact (rest.cons_inv.cons _).trans perm_middle.symm
  | @inserts front back new =>
    have early : after.entries front = t.entries front :=
      entries_congr fun id inside => kept (mem_append_left _ inside) (mem_append_left _ inside)
    have late : after.entries back = t.entries back :=
      entries_congr fun id inside => kept (mem_append_right _ inside)
        (mem_append_right _ (.tail _ inside))
    have newRoute : after.routes t.fresh = some route := by
      rw [routes _ mem_append_cons_self, if_pos rfl]
    have missing :
        (members.find? fun member => member.2.Kin route ∧ member.2.SameOrigin route) = none := by
      rw [find?_eq_none]
      rintro ⟨other, found⟩ inside both
      obtain ⟨kin, origin⟩ := of_decide_eq_true both
      obtain ⟨member, present⟩ := mem_entries.mp (perm.mem_iff.mp inside)
      exact new other member found present kin origin
    rw [RouteSet.add, missing]
    rw [entries_append, entries_cons newRoute, early, late]
    rw [entries_append] at perm
    exact (perm.cons _).trans perm_middle.symm

end
end

theorem goes (sound : t.Sound held (front ++ id :: back))
    (perm : members.Perm (t.entries (front ++ id :: back)))
    (routes : ∀ other ∈ front ++ back, after.routes other = t.routes other) :
    (members.remove id).Perm (after.entries (front ++ back)) := by
  obtain ⟨route, found, _⟩ := sound.live (mem_append_right front mem_cons_self)
  have notId : ∀ other ∈ front ++ back, other ≠ id := by
    have nodup := sound.nodup
    rintro other inside rfl
    rcases mem_append.mp inside with early | late
    · exact (nodup_append.mp nodup).2.2 other early other mem_cons_self rfl
    · exact (nodup_cons.mp (nodup_append.mp nodup).2.1).1 late
  have keeps : ∀ {part}, (∀ other ∈ part, other ≠ id) →
      (t.entries part).filter (fun member => member.1 ≠ id) = t.entries part := by
    intro part others
    rw [filter_eq_self]
    rintro ⟨other, otherRoute⟩ inside
    exact decide_eq_true (others other (mem_entries.mp inside).1)
  have filtered := perm.filter fun member => member.1 ≠ id
  rw [entries_congr routes]
  refine filtered.trans ?_
  have drops : ((id, route) :: t.entries back).filter (fun member => member.1 ≠ id) =
      (t.entries back).filter fun member => member.1 ≠ id := filter_cons_of_neg (by simp)
  rw [entries_append, entries_cons found, filter_append, drops,
    keeps fun other inside => notId other (mem_append_left _ inside),
    keeps fun other inside => notId other (mem_append_right _ inside), entries_append]

end Sound
end Ospf6RouteTable

/-- A table with the routes that should be in it and the locks of its readers. -/
structure RouteSession where
  t : Ospf6RouteTable := {}
  members : RouteSet := []
  held : RouteId → Nat := fun _ => 0

/-- What happens to a table. A route that is added is new, and a copy of another one has its
  flags. -/
inductive RouteMove where
  | add (route : Ospf6Route) (flag : BitVec 8)
  | remove (id : RouteId)
  | lookup (p : Prefix)
  | lookupIdentical (route : Ospf6Route)
  | lookupBestmatch (p : Prefix)
  | lock (id : RouteId)
  | unlock (id : RouteId)
  | head
  | next (id : RouteId)
  | bestNext (id : RouteId)
  | matchHead (p : Prefix)
  | matchNext (p : Prefix) (id : RouteId)

namespace RouteSession
open Ospf6RouteTable
section
variable (s : RouteSession)

/-- The route should be in the table. -/
def Lists (id : RouteId) : Prop :=
  id ∈ s.members.map Prod.fst

/-- A reader holds the route it goes on from, and what that leads to is in the table or held by a
  reader. -/
def Leaves (id : RouteId) : Prop :=
  0 < s.held id ∧ ∀ next, s.t.next id = some next → s.Lists next ∨ next ≠ id ∧ 0 < s.held next

/-- Callers add routes with a path type, remove what is in the table and unlock what they locked. -/
def permits : RouteMove → Prop
  | .add route _ => route.ValidPath
  | .remove id => s.Lists id
  | .lock id => s.Lists id ∨ 0 < s.held id
  | .unlock id | .bestNext id => 0 < s.held id
  | .next id | .matchNext _ id => s.Leaves id
  | .lookup _ | .lookupIdentical _ | .lookupBestmatch _ | .head | .matchHead _ => True

/-- A reader gets a lock on what a search returns. -/
def reads (result : Ospf6RouteTable × Option RouteId) : RouteSession :=
  { s with t := result.1, held := taking s.held result.2 }

/-- A reader gives back its lock and gets one on what it goes on to. -/
def passes (id : RouteId) (result : Ospf6RouteTable × Option RouteId) : RouteSession :=
  { s with t := result.1, held := taking (release s.held id) result.2 }

def move : RouteMove → Option RouteSession
  | .add route flag => ((s.t.create route flag).ospf6RouteAdd s.t.fresh).map fun result =>
      { s with t := result.1, members := s.members.add s.t.fresh route }
  | .remove id => (s.t.ospf6RouteRemove id).map fun t =>
    { s with t, members := s.members.remove id }
  | .lookup p => (s.t.ospf6RouteLookup p).map fun result => { s with t := result.1 }
  | .lookupIdentical route => (s.t.ospf6RouteLookupIdentical route).map fun result =>
    { s with t := result.1 }
  | .lookupBestmatch p => (s.t.ospf6RouteLookupBestmatch p).map fun result =>
    { s with t := result.1 }
  | .lock id => (s.t.ospf6RouteLock id).map fun t => s.reads (t, some id)
  | .unlock id => (s.t.ospf6RouteUnlock id).map fun t => s.passes id (t, none)
  | .head => s.t.ospf6RouteHead.map s.reads
  | .next id => (s.t.ospf6RouteNext id).map (s.passes id)
  -- the lock on the last route stays
  | .bestNext id => (s.t.ospf6RouteBestNext id).map fun result =>
      if result.2 = none then { s with t := result.1 } else s.passes id result
  | .matchHead p => (s.t.ospf6RouteMatchHead p).map s.reads
  | .matchNext p id => (s.t.ospf6RouteMatchNext p id).map (s.passes id)

/-- A route fits into the table: the routes of its prefix have the same address in all bits, there
is a place for it among them, and if it is marked as the best it gets in front. -/
def Fits (route : Ospf6Route) (flag : BitVec 8) : Prop :=
  ∀ order, s.t.Represents s.members order →
    s.t.Agrees order route ∧ route.Takes (s.t.contents order) ∧
      (IsBest flag → route.Leads (s.t.contents order))

/-- No lock is about to wrap around, and what is added fits. -/
def Meets (move : RouteMove) : Prop :=
  s.t.FewLocks ∧ ∀ route flag, move = .add route flag → s.Fits route flag

end

/-- A removal of a listed route, or an addition, not marked, that fits wherever the links start. -/
def FitsHere (s : RouteSession) : RouteMove → Prop
  | .add route flag => route.ValidPath ∧ ¬ IsBest flag ∧
  ∀ start ∈ none :: s.members.map fun member => some member.1,
      s.t.Agrees (s.t.linked s.members.length start) route ∧
        route.Takes (s.t.contents (s.t.linked s.members.length start))
  | .remove id => s.Lists id
  | _ => False

def MeetsHere (s : RouteSession) (move : RouteMove) : Prop :=
  (∀ id < s.t.fresh, s.t.lock id < 2 ^ 32 - 1) ∧ s.FitsHere move

instance (s : RouteSession) : (move : RouteMove) → Decidable (s.FitsHere move)
  | .add _ flag =>
    inferInstanceAs (Decidable (_ ∧ ¬ IsBest flag ∧ ∀ start ∈ (_ : List (Option RouteId)), _ ∧ _))
  | .remove id => inferInstanceAs (Decidable (id ∈ s.members.map Prod.fst))
  | .lookup _ | .lookupIdentical _ | .lookupBestmatch _ | .lock _ | .unlock _ | .head | .next
    _ | .bestNext _
  | .matchHead _ | .matchNext _ _ => .isFalse False.elim

instance (s : RouteSession) (move : RouteMove) : Decidable (s.MeetsHere move) :=
  inferInstanceAs (Decidable (_ ∧ _))

/-- The sessions that moves meeting a condition lead to. -/
inductive Reached (condition : RouteSession → RouteMove → Prop) : RouteSession → Prop where
  | init : Reached condition {}
  | step {s after : RouteSession} (earlier : Reached condition s) (move : RouteMove)
      (permitted : s.permits move)
      (meets : condition s move) (ran : s.move move = some after) : Reached condition after

/-- The invariant of a session. -/
def Sound (s : RouteSession) (order : List RouteId) : Prop :=
  s.t.Sound s.held order ∧ s.members.Perm (s.t.entries order)

section Moves
variable {s : RouteSession} {order : List RouteId} {id : RouteId}

theorem sound_init : ({} : RouteSession).Sound [] := by
  refine ⟨⟨RouteTable.wellformed_routeTableInit, Linked.Chained.nil _ _, nodup_nil, ?_,
    Pairwise.nil, Pairwise.nil, ?_, ?_,
    ?_, fun there => absurd rfl there, fun more => absurd more (lt_irrefl 0), fun _ _ => rfl, rfl⟩,
      Perm.nil⟩
  · exact fun member => nomatch member
  · exact @fun _ _ => ⟨fun ⟨_, _, found, _⟩ => (nomatch found), fun leads => (nomatch leads)⟩
  · exact fun member => nomatch member
  · rintro id (member | more)
    · exact nomatch member
    · exact absurd more (lt_irrefl 0)

theorem passed (order : List RouteId) {Result} {call : Option Result} {result}
    {after : Result → RouteSession} (ran : call = some result)
    (sound : (after result).Sound order) :
    ∃ next listed, call.map after = some next ∧ next.Sound listed :=
  ⟨_, order, congrArg _ ran, sound⟩

section
variable (sound : s.Sound order)
include sound

theorem Sound.lists : s.Lists id ↔ id ∈ order := by
  rw [Lists, mem_map]
  constructor
  · rintro ⟨⟨id, route⟩, member, rfl⟩
    exact (mem_entries.mp (sound.2.mem_iff.mp member)).1
  · intro member
    obtain ⟨route, found, _⟩ := sound.1.live member
    exact ⟨(id, route), sound.2.mem_iff.mpr (mem_entries.mpr ⟨member, found⟩), rfl⟩

theorem Sound.keep {after : RouteSession} (members : after.members = s.members)
    (afterSound : after.t.Sound after.held order)
    (routes : ∀ id ∈ order, after.t.routes id = s.t.routes id) :
    after.Sound order := by
  refine ⟨afterSound, ?_⟩
  rw [members, entries_congr routes]
  exact sound.2

theorem Sound.leaves (leaves : s.Leaves id) :
    ∀ next, s.t.next id = some next → next ∈ order ∨ next ≠ id ∧ 0 < s.held next :=
  fun next same => (leaves.2 next same).imp_left sound.lists.mp

theorem Sound.adds {route flag} (valid : route.ValidPath) (few : s.t.FewLocks)
    (fits : s.Fits route flag) : ∃ after listed, s.move (.add route flag) = some after ∧
    after.Sound listed := by
  obtain ⟨agrees, takes, unmarked⟩ := fits order (sound.1.represents sound.2)
  obtain ⟨t, result, listed, ran, tSound, comes, routes⟩ :=
    sound.1.add few valid agrees takes unmarked
  refine passed listed ran ?_
  exact ⟨tSound, sound.1.comes sound.2 comes routes⟩

theorem Sound.removes (lists : s.Lists id) (few : s.t.FewLocks) :
    ∃ after listed, s.move (.remove id) = some after ∧ after.Sound listed := by
  obtain ⟨front, back, split⟩ := append_of_mem (sound.lists.mp lists)
  obtain ⟨t, ran, tSound, routes, _⟩ := sound.1.remove few split
  subst split
  refine passed (front ++ back) ran ?_
  exact ⟨tSound, sound.1.goes sound.2 fun other inside => routes other (.inl inside)⟩

theorem Sound.move (move : RouteMove) (permitted : s.permits move) (meets : s.Meets move) :
    ∃ after listed, s.move move = some after ∧ after.Sound listed := by
  obtain ⟨few, fits⟩ := meets
  cases move with
  | add route flag => exact sound.adds permitted few (fits route flag rfl)
  | remove id => exact sound.removes permitted few
  | lookup p =>
    obtain ⟨table, ran, tSound⟩ := sound.1.ospf6RouteLookup p
    refine passed order ran ?_
    exact sound.keep rfl tSound fun _ _ => rfl
  | lookupIdentical route =>
    obtain ⟨table, result, ran, tSound⟩ := sound.1.ospf6RouteLookupIdentical route
    refine passed order ran ?_
    exact sound.keep rfl tSound fun _ _ => rfl
  | lookupBestmatch p =>
    obtain ⟨result, ran⟩ := sound.1.ospf6RouteLookupBestmatch p
    refine passed order ran ?_
    exact sound
  | lock id =>
    have used : id ∈ order ∨ 0 < s.held id := permitted.imp_left sound.lists.mp
    have alive : s.t.routes id ≠ none := used.elim sound.1.alive sound.1.holders
    have ran := ospf6RouteLock_hold few alive
    refine passed order ran ?_
    exact sound.keep rfl (sound.1.hold alive used) fun _ _ => rfl
  | unlock id =>
    obtain ⟨t, ran, tSound, routes, _⟩ := sound.1.unlock permitted
    refine passed order ran ?_
    exact sound.keep rfl tSound (tSound.undeleted routes)
  | head =>
    have ran := sound.1.ospf6RouteHead few
    refine passed order ran ?_
    cases first : order.head? with
    | none => exact sound
    | some head =>
      have member := mem_of_head? first
      exact sound.keep rfl (sound.1.hold (sound.1.alive member) (.inl member)) fun _ _ => rfl
  | next id =>
    obtain ⟨t, ran, tSound, routes⟩ :=
      sound.1.ospf6RouteNext few permitted.1 (sound.leaves permitted)
    refine passed order ran ?_
    exact sound.keep rfl tSound routes
  | bestNext id =>
    obtain ⟨t, next, ran, tSound, routes⟩ := sound.1.ospf6RouteBestNext few permitted
    refine passed order ran ?_
    cases next with
    | none => exact sound.keep rfl tSound routes
    | some next => exact sound.keep rfl tSound routes
  | matchHead p =>
    obtain ⟨t, result, ran, tSound, routes⟩ := sound.1.ospf6RouteMatchHead p few
    refine passed order ran ?_
    exact sound.keep rfl tSound routes
  | matchNext p id =>
    obtain ⟨t, result, ran, tSound, routes⟩ :=
      sound.1.ospf6RouteMatchNext p few permitted.1 (sound.leaves permitted)
    refine passed order ran ?_
    exact sound.keep rfl tSound routes

end

theorem Reached.sound (reached : Reached Meets s) : ∃ order, s.Sound order := by
  induction reached with
  | init => exact ⟨[], sound_init⟩
  | step earlier move permitted meets ran ih =>
    obtain ⟨order, sound⟩ := ih
    obtain ⟨after, listed, does, afterSound⟩ := sound.move move permitted meets
    rw [ran] at does
    cases does
    exact ⟨listed, afterSound⟩

theorem Reached.meets (reached : Reached Meets s) {move} (here : s.MeetsHere move) :
    s.permits move ∧ s.Meets move := by
  obtain ⟨order, sound⟩ := reached.sound
  have few : s.t.FewLocks := fun id there =>
    here.1 id (not_le.mp fun beyond => there (sound.1.allocated id beyond))
  cases move with
  | add route flag =>
    obtain ⟨valid, unmarked, fits⟩ := here.2
    refine ⟨valid, few, fun route flag same order represents => ?_⟩
    cases same
    have start : order.head? ∈ none :: s.members.map fun member => some member.1 := by
      cases order with
      | nil => exact mem_cons_self
      | cons id order =>
        obtain ⟨route, found⟩ := Option.ne_none_iff_exists'.mp (represents.live id mem_cons_self)
        have inside := represents.listed.mem_iff.mpr (mem_entries.mpr ⟨mem_cons_self, found⟩)
        exact .tail _ (mem_map.mpr ⟨_, inside, rfl⟩)
    obtain ⟨agrees, takes⟩ := fits _ start
    rw [represents.linked] at agrees takes
    exact ⟨agrees, takes, fun best => absurd best unmarked⟩
  | remove id => exact ⟨here.2, few, by rintro _ _ ⟨⟩⟩
  | _ => exact here.2.elim

theorem Reached.attempt {moves} {after : RouteSession}
    (ran : attempt MeetsHere move {} moves = some after) : Reached Meets after :=
  attempt_invariant (fun reached here step =>
    .step reached _ (reached.meets here).1 (reached.meets here).2 step) .init ran

/-- In every session whose moves meet the condition the table has the right routes in the right
order, and the next move that meets it goes through. -/
theorem ospf6_route_table_represents (reached : Reached Meets s) :
    (∃ order, s.t.Represents s.members order) ∧
      ∀ move, s.permits move → s.Meets move → ∃ after, s.move move = some after := by
  obtain ⟨order, sound⟩ := reached.sound
  refine ⟨⟨order, sound.1.represents sound.2⟩, fun move permitted meets => ?_⟩
  obtain ⟨after, _, ran, _⟩ := sound.move move permitted meets
  exact ⟨after, ran⟩

end Moves

/-- A route for 2001:db8::/32 with an origin and a cost. -/
def sampleRoute (origin cost : BitVec 32) : Ospf6Route where
  p := ⟨.inet6, 32, #v[0x20, 0x01, 0x0d, 0xb8, 0, 0, 0, 0, 0, 0, 0, 0, 0, 0, 0, 0], by decide⟩
  type := 2
  path := { origin := ⟨0x2009, origin, 1⟩, type := 1, cost }

/-- A cheaper route gets in front, one replaces the route of its origin, one has another prefix, one
  is removed. -/
def sampleMoves : List RouteMove :=
  [.add (sampleRoute 1 10) 0, .add (sampleRoute 2 20) 0, .add (sampleRoute 3 5) 0,
    .add (sampleRoute 1 8) 0,
    .add { sampleRoute 4 1 with
      p := ⟨.inet6, 0, #v[0, 0, 0, 0, 0, 0, 0, 0, 0, 0, 0, 0, 0, 0, 0, 0], Nat.zero_le _⟩ } 0,
    .remove 1]

/-- Three routes are left, in the order of the links, and the next removal goes through. -/
theorem ospf6_route_table_represents_several :
    ∃ s, attempt MeetsHere move {} sampleMoves = some s ∧ s.t.linked 3 (some 4) = [4, 2, 3] ∧
      IsBest (s.t.flag 2) ∧ (∃ order, s.t.Represents s.members order) ∧
      ∃ after, s.move (.remove 2) = some after := by
  obtain ⟨s, ran⟩ :=
    Option.isSome_iff_exists.mp (by decide +kernel : (attempt MeetsHere move {} sampleMoves).isSome)
  have seen : (attempt MeetsHere move {} sampleMoves).map (fun s =>
      (s.t.linked 3 (some 4), decide (IsBest (s.t.flag 2)), decide (s.MeetsHere (.remove 2)))) =
        some ([4, 2, 3], true, true) := by decide +kernel
  rw [ran, Option.map_some, Option.some_inj, Prod.mk.injEq, Prod.mk.injEq] at seen
  obtain ⟨order, best, meets⟩ := seen
  have reached : Reached Meets s := .attempt ran
  obtain ⟨permitted, meets⟩ := reached.meets (of_decide_eq_true meets)
  have represents := ospf6_route_table_represents reached
  exact ⟨s, ran, order, of_decide_eq_true best, represents.1,
    represents.2 (.remove 2) permitted meets⟩

/-- A route goes in front of the first one it is preferred over, although one with its origin is
  behind that. -/
theorem ospf6_route_add_duplicates :
    ∃ s first second, Reached (fun _ _ => True) s ∧ s.t.routes 2 = some first ∧
      s.t.routes 1 = some second ∧
      s.t.next 2 = some 0 ∧ s.t.next 0 = some 1 ∧ first.Kin second ∧ first.SameOrigin second ∧
      ∀ order, ¬ s.t.Represents s.members order := by
  obtain ⟨run, isRun⟩ := @exists_eq _ (((({} : RouteSession).move (.add (sampleRoute 1 10) 0)).bind
    (move · (.add (sampleRoute 2 20) 0))).bind (move · (.add (sampleRoute 2 5) 0)))
  have routes : run.map (fun s => (s.t.routes 2, s.t.routes 1)) =
      some (some (sampleRoute 2 5), some (sampleRoute 2 20)) := by
    rw [isRun]
    decide +kernel
  have links : run.map (fun s => (s.t.next 2, s.t.next 0, s.t.count, s.members.length)) =
      some (some 0, some 1, 3, 2) := by
    rw [isRun]
    decide +kernel
  obtain ⟨three, same, seen⟩ := Option.map_eq_some_iff.mp routes
  rw [same, Option.map_some, Option.some_inj] at links
  rw [same] at isRun
  obtain ⟨two, ranTwo, ranThree⟩ := Option.bind_eq_some_iff.mp isRun.symm
  obtain ⟨one, ranOne, ranTwo⟩ := Option.bind_eq_some_iff.mp ranTwo
  have reached : Reached (fun _ _ => True) three :=
    .step (.step (.step .init (.add (sampleRoute 1 10) 0)
      (by decide : (sampleRoute 1 10).ValidPath) trivial ranOne)
      (.add (sampleRoute 2 20) 0) (by decide : (sampleRoute 2 20).ValidPath) trivial ranTwo)
      (.add (sampleRoute 2 5) 0) (by decide : (sampleRoute 2 5).ValidPath) trivial ranThree
  simp only [Prod.mk.injEq] at seen links
  obtain ⟨early, late, count, members⟩ := links
  refine ⟨three, _, _, reached, seen.1, seen.2, early, late, by decide, by
    decide, fun order represents => ?_⟩
  have counted := represents.count
  rw [count, members] at counted
  cases counted

end RouteSession
end Zebra.Ospf6d
