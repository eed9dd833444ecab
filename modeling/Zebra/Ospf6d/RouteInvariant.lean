import Zebra.Base.Linked
import Zebra.Ospf6d.Route
import Zebra.Ospf6d.RouteTrie

namespace Zebra.Ospf6d
open Function Base Base.Linked Option Nat List
section Flags
variable {flag other : BitVec 8}

theorem isBest_set (flag : BitVec 8) : IsBest (flag ||| ospf6RouteBestFlag) := by
  revert flag
  decide

theorem not_isBest_unset (flag : BitVec 8) : ¬ IsBest (flag &&& ~~~ospf6RouteBestFlag) := by
  revert flag
  decide

theorem isBest_or (apart : other &&& ospf6RouteBestFlag = 0) :
    IsBest (flag ||| other) ↔ IsBest flag := by
  have clear : flag &&& ospf6RouteBestFlag ||| 0 = flag &&& ospf6RouteBestFlag := BitVec.or_zero
  rw [IsBest, IsBest, BitVec.and_or_distrib_right, apart, clear]

end Flags

section Prefixes
variable {p q r : Prefix}

theorem PrefixSame.symm (same : PrefixSame p q) : PrefixSame q p := by
  obtain ⟨family, length, known, octets⟩ := same
  rw [octetsEqualBelow_iff] at octets
  exact ⟨family.symm, length.symm, family ▸ known, (octetsEqualBelow_iff ..).mpr fun octet bound =>
    (octets octet (family ▸ bound)).symm⟩

theorem PrefixSame.trans (first : PrefixSame p q) (second : PrefixSame q r) : PrefixSame p r := by
  obtain ⟨family, length, known, octets⟩ := first
  obtain ⟨family', length', _, octets'⟩ := second
  rw [octetsEqualBelow_iff] at octets octets'
  exact ⟨family.trans family', length.trans length', known,
      (octetsEqualBelow_iff ..).mpr fun octet bound =>
    (octets octet bound).trans (octets' octet (family ▸ bound))⟩

theorem PrefixSame.bits (same : PrefixSame p q) : p.bits = q.bits := by
  obtain ⟨family, length, _, octets⟩ := same
  rw [octetsEqualBelow_iff] at octets
  refine Prefix.bits_eq.mpr ⟨length, fun index bound => ?_⟩
  have fits := p.fits
  rw [bitAt, bitAt, octets (index / 8) (by omega)]

end Prefixes

theorem Ospf6Route.SameOrigin.symm {ra rb : Ospf6Route} (same : ra.SameOrigin rb) :
    rb.SameOrigin ra :=
  ⟨same.1.symm, same.2.symm⟩

namespace Ospf6RouteTable
variable {t after : Ospf6RouteTable} {held : RouteId → Nat} {order : List RouteId}
  {id other : RouteId} {route : Ospf6Route}

/-- The word of the prefix of a route. -/
def wordOf (t : Ospf6RouteTable) (id : RouteId) : List Bool :=
  (t.routes id).elim [] fun route => route.p.bits

theorem wordOf_eq (found : t.routes id = some route) : t.wordOf id = route.p.bits := by
  rw [wordOf, found, elim_some]

/-- One route may stand before another: within a prefix and a destination type it is not less
preferred, and has another origin. -/
def Sorts (t : Ospf6RouteTable) (first second : RouteId) : Prop :=
  ∀ ra rb, t.routes first = some ra → t.routes second = some rb → ra.p.bits = rb.p.bits →
    ra.IsSame rb ∧ (ra.type = rb.type → ra.preference rb ≤ 0 ∧ ¬ ra.SameOrigin rb)

/-- The links go through the routes in the order of their prefixes. A node of the table carries
the first route of its prefix. A route has one lock for being in the table, and those its
readers hold. -/
structure Sound (t : Ospf6RouteTable) (held : RouteId → Nat) (order : List RouteId) : Prop where
  wf : t.table.Wellformed
  chained : Chained t.next t.prev order
  nodup : order.Nodup
  live : ∀ {id}, id ∈ order → ∃ route, t.routes id = some route ∧ route.ValidPath
  inOrder : InOrder t.wordOf order
  sorted : order.Pairwise t.Sorts
  first : ∀ {word id}, Carries t.table word id ↔ leader t.wordOf order word = some id
  best : ∀ {id}, id ∈ order → (IsBest (t.flag id) ↔ leader t.wordOf order (t.wordOf id) = some id)
  rnode : ∀ {id}, id ∈ order ∨ 0 < held id →
    ∃ place node, t.rnode id = some place ∧ t.table.nodes place = some node ∧
      (id ∈ order → node.p.bits = t.wordOf id)
  lock : ∀ {id}, t.routes id ≠ none → t.lock id = (if id ∈ order then 1 else 0) + held id
  holders : ∀ {id}, 0 < held id → t.routes id ≠ none
  allocated : ∀ id, t.fresh ≤ id → t.routes id = none
  count : t.count = order.length % 2 ^ 32

/-- The nodes of a table carry the first route of each prefix, and the flags mark it as the best
  one. -/
structure Led (t : Ospf6RouteTable) (order : List RouteId) (table : RouteTable RouteId)
    (flag : RouteId → BitVec 8) : Prop where
  wf : table.Wellformed
  nodes : ∀ {place was}, t.table.nodes place = some was →
    ∃ now, table.nodes place = some now ∧ now.p.bits = was.p.bits
  first : ∀ {word id}, Carries table word id ↔ leader t.wordOf order word = some id
  best : ∀ id ∈ order, IsBest (flag id) ↔ leader t.wordOf order (t.wordOf id) = some id

/-- No lock is about to wrap around. -/
def FewLocks (t : Ospf6RouteTable) : Prop :=
  ∀ id, t.routes id ≠ none → t.lock id < 2 ^ 32 - 1

theorem FewLocks.mono (few : t.FewLocks)
    (locks : ∀ id, after.routes id ≠ none → after.lock id ≤ 1 ∨
      t.routes id ≠ none ∧ after.lock id ≤ t.lock id) :
    after.FewLocks := by
  intro id there
  rcases locks id there with once | ⟨before, fewer⟩
  · exact lt_of_le_of_lt once (by decide)
  · exact lt_of_le_of_lt fewer (few id before)

namespace Sound

theorem alive (sound : t.Sound held order) (member : id ∈ order) : t.routes id ≠ none := by
  obtain ⟨route, found, _⟩ := sound.live member
  rw [found]
  exact nofun

theorem length_le (sound : t.Sound held order) : order.length ≤ t.fresh := by
  have below : order ⊆ List.range t.fresh := fun id member => by
    rw [List.mem_range]
    by_contra beyond
    exact sound.alive member (sound.allocated id (Nat.le_of_not_lt beyond))
  have short := (List.subperm_of_subset sound.nodup below).length_le
  rwa [List.length_range] at short

theorem node (sound : t.Sound held order) (member : id ∈ order) :
    ∃ place node, t.rnode id = some place ∧ t.table.nodes place = some node ∧
      node.p.bits = t.wordOf id := by
  obtain ⟨place, node, kept, found, same⟩ := sound.rnode (.inl member)
  exact ⟨place, node, kept, found, same member⟩

/-- The routes of a table linked in an order of their prefixes, under nodes that are led by it. -/
theorem of_led {others} (led : t.Led order after.table after.flag)
    (chained : Chained after.next after.prev order)
    (nodup : order.Nodup)
    (live : ∀ {id}, id ∈ order → ∃ route, t.routes id = some route ∧ route.ValidPath)
    (inOrder : InOrder t.wordOf order) (sorted : order.Pairwise t.Sorts)
    (routes : ∀ id ∈ order, after.routes id = t.routes id)
    (rnode : ∀ {id}, id ∈ order ∨ 0 < others id →
      ∃ place node, after.rnode id = some place ∧ t.table.nodes place = some node ∧
      (id ∈ order → node.p.bits = t.wordOf id))
    (lock : ∀ {id}, after.routes id ≠ none →
      after.lock id = (if id ∈ order then 1 else 0) + others id)
    (holders : ∀ {id}, 0 < others id → after.routes id ≠ none)
    (allocated : ∀ id, after.fresh ≤ id → after.routes id = none)
    (count : after.count = order.length % 2 ^ 32) : after.Sound others order := by
  have words : ∀ id ∈ order, after.wordOf id = t.wordOf id :=
    fun id member => by rw [wordOf, wordOf, routes id member]
  have leads : ∀ word, leader after.wordOf order word = leader t.wordOf order word := fun word =>
    find?_congr fun id member => by rw [words id member]
  refine ⟨led.wf, chained, nodup, fun {id} member => ?_, ?_, ?_, fun {word id} => ?_,
    fun {id} member => ?_,
    fun {id} needed => ?_, lock, holders, allocated, count⟩
  · rw [routes id member]
    exact live member
  · exact inOrder.imp_of_mem fun here there less => by rwa [words _ here, words _ there]
  · refine sorted.imp_of_mem fun here there sorts ra rb => ?_
    rw [routes _ here, routes _ there]
    exact sorts ra rb
  · rw [led.first, leads]
  · rw [led.best id member, leads, words id member]
  · obtain ⟨place, node, kept, found, same⟩ := rnode needed
    obtain ⟨now, nowFound, equal⟩ := led.nodes found
    refine ⟨place, now, kept, nowFound, fun member => ?_⟩
    rw [equal, words id member, same member]

section
variable (sound : t.Sound held order)
include sound

theorem reshape {others} (keeps : Keeps t.table after.table)
    (next : ∀ id ∈ order, after.next id = t.next id)
    (prev : ∀ id ∈ order, after.prev id = t.prev id) (count : after.count = t.count)
    (rnode : ∀ id, id ∈ order ∨ 0 < others id → after.rnode id = t.rnode id)
    (routes : ∀ id ∈ order, after.routes id = t.routes id)
    (flag : ∀ id ∈ order, IsBest (after.flag id) ↔ IsBest (t.flag id))
    (lock : ∀ {id}, after.routes id ≠ none →
      after.lock id = (if id ∈ order then 1 else 0) + others id)
    (holders : ∀ {id}, 0 < others id → after.routes id ≠ none ∧ (id ∈ order ∨ 0 < held id))
    (allocated : ∀ id, after.fresh ≤ id → after.routes id = none) : after.Sound others order := by
  have led : t.Led order after.table after.flag := by
    refine ⟨keeps.wf, keeps.nodes, fun {word id} => ?_, fun id member => ?_⟩
    · rw [keeps.carries, sound.first]
    · rw [flag id member, sound.best member]
  refine of_led led
    (sound.chained.congr next prev) sound.nodup sound.live sound.inOrder sound.sorted routes
    (fun {id} needed => ?_) lock (fun more => (holders more).1) allocated (count.trans sound.count)
  obtain ⟨place, node, kept, found, same⟩ :=
    sound.rnode (needed.elim .inl fun more => (holders more).2)
  exact ⟨place, node, (rnode id needed).trans kept, found, same⟩

/-- Locks may change, and routes that are not in the table. -/
theorem relock {others routes lock} (same : ∀ id ∈ order, routes id = t.routes id)
    (locks : ∀ {id}, routes id ≠ none → lock id = (if id ∈ order then 1 else 0) + others id)
    (holders : ∀ {id}, 0 < others id → routes id ≠ none ∧ (id ∈ order ∨ 0 < held id))
    (allocated : ∀ id, t.fresh ≤ id → routes id = none) :
    ({ t with routes, lock } : Ospf6RouteTable).Sound others order :=
  sound.reshape (Keeps.refl sound.wf) (fun _ _ => rfl)
    (fun _ _ => rfl) rfl (fun _ _ => rfl) same (fun _ _ => Iff.rfl) locks
    holders allocated

theorem retable {table} (keeps : Keeps t.table table) :
    ({ t with table } : Ospf6RouteTable).Sound held order :=
  sound.reshape keeps (fun _ _ => rfl) (fun _ _ => rfl) rfl (fun _ _ => rfl) (fun _ _ => rfl)
    (fun _ _ => Iff.rfl) sound.lock
    (fun more => ⟨sound.holders more, .inr more⟩) sound.allocated

theorem setFlag (id : RouteId) {flag} (apart : flag &&& ospf6RouteBestFlag = 0) :
    ({ t with flag := update t.flag id (t.flag id ||| flag) } : Ospf6RouteTable).Sound
      held order := by
  refine sound.reshape (Keeps.refl sound.wf) (fun _ _ => rfl) (fun _ _ => rfl) rfl (fun _ _ => rfl)
    (fun _ _ => rfl)
    (fun other member => ?_) sound.lock
      (fun more => ⟨sound.holders more, .inr more⟩) sound.allocated
  by_cases same : other = id
  · subst same
    dsimp only
    rw [update_self]
    exact isBest_or apart
  · dsimp only
    rw [update_of_ne same]

end
end Sound

/-- One more lock on a route. -/
def hold (t : Ospf6RouteTable) (id : RouteId) : Ospf6RouteTable :=
  { t with lock := update t.lock id (t.lock id + 1) }

theorem hold_lock_self : (t.hold id).lock id = t.lock id + 1 :=
  update_self ..

/-- One more lock on the route a search returns. -/
def holding (t : Ospf6RouteTable) : Option RouteId → Ospf6RouteTable
  | none => t
  | some id => t.hold id

theorem ospf6RouteLock_hold (few : t.FewLocks) (there : t.routes id ≠ none) :
    t.ospf6RouteLock id = some (t.hold id) := by
  obtain ⟨route, found⟩ := ne_none_iff_exists'.mp there
  have small := few id there
  rw [ospf6RouteLock, found, mod_eq_of_lt (by omega)]
  rfl

theorem unlock_hold (there : t.routes id ≠ none) (locked : t.lock id ≠ 0) :
    (t.hold id).ospf6RouteUnlock id = some t := by
  obtain ⟨route, found⟩ := ne_none_iff_exists'.mp there
  have again : (t.hold id).routes id = some route := found
  have more : (t.hold id).lock id = t.lock id + 1 := hold_lock_self
  rw [ospf6RouteUnlock, again]
  simp only [bind_eq_bind, bind_some, more, Nat.succ_ne_zero, if_false, Nat.add_sub_cancel,
    update_self, if_neg locked]
  simp only [hold, update_idem, update_eq_self]
  rfl

theorem unlock_eq (alive : t.routes id ≠ none) (locked : t.lock id ≠ 0) :
    t.ospf6RouteUnlock id = some { t with
      lock := update t.lock id (t.lock id - 1)
      routes := if t.lock id - 1 = 0 then update t.routes id none else t.routes } := by
  obtain ⟨route, found⟩ := ne_none_iff_exists'.mp alive
  rw [ospf6RouteUnlock, found]
  simp only [bind_eq_bind, bind_some, if_neg locked, update_self]
  split <;> rfl

namespace Sound

theorem hold (sound : t.Sound held order) (there : t.routes id ≠ none)
    (added : id ∈ order ∨ 0 < held id) :
    (t.hold id).Sound (update held id (held id + 1)) order := by
  refine sound.relock (fun _ _ => rfl) (fun {other} present => ?_)
    (fun {other} more => ?_) sound.allocated
  · by_cases same : other = id
    · subst same
      rw [update_self, update_self, sound.lock present, add_assoc]
    · rw [update_of_ne same, update_of_ne same]
      exact sound.lock present
  · by_cases same : other = id
    · subst same
      exact ⟨there, added⟩
    · rw [update_of_ne same] at more
      exact ⟨sound.holders more, .inr more⟩

theorem unlock (sound : t.Sound held order) (holds : 0 < held id) :
    ∃ after, t.ospf6RouteUnlock id = some after ∧ after.Sound (update held id (held id - 1)) order ∧
      (∀ other, after.routes other = if other = id ∧ t.lock id = 1 then none else t.routes other) ∧
      after.next = t.next ∧ (∀ other ≠ id, after.lock other = t.lock other) ∧
      (t.FewLocks → after.FewLocks) := by
  have lock := sound.lock (sound.holders holds)
  obtain ⟨routes, isRoutes⟩ :=
    @exists_eq _ (if t.lock id - 1 = 0 then update t.routes id none else t.routes)
  have kept : ∀ other, routes other = if other = id ∧ t.lock id = 1 then none
      else t.routes other := by
    intro other
    rw [isRoutes]
    by_cases last : t.lock id - 1 = 0
    · rw [if_pos last, update_apply]
      exact if_congr (iff_self_and.mpr fun _ => by omega) rfl rfl
    · rw [if_neg last, if_neg fun both => last (by omega)]
  have alive : ∀ {other}, routes other ≠ none → t.routes other ≠ none :=
    fun there gone => there (by rw [kept, gone, ite_self])
  rw [unlock_eq (sound.holders holds) (by omega), ← isRoutes]
  refine ⟨_, rfl, sound.relock (fun other member => ?_) (fun {other} there => ?_)
    (fun {other} more => ?_)
    fun other beyond => ?_, kept, rfl, fun other apart => update_of_ne apart .., fun few => ?_⟩
  · rw [kept, if_neg]
    rintro ⟨rfl, once⟩
    rw [if_pos member] at lock
    omega
  · by_cases same : other = id
    · subst same
      rw [update_self, update_self]
      omega
    · rw [update_of_ne same, update_of_ne same]
      exact sound.lock (alive there)
  · by_cases same : other = id
    · subst same
      rw [update_self] at more
      rw [kept, if_neg (by omega)]
      exact ⟨sound.holders holds, .inr holds⟩
    · rw [update_of_ne same] at more
      rw [kept, if_neg fun both => same both.1]
      exact ⟨sound.holders more, .inr more⟩
  · rw [kept, sound.allocated other beyond, ite_self]
  · exact few.mono fun other there => .inr ⟨alive there, update_le_self_iff.mpr (sub_le ..) other⟩

/-- A lock that was taken on top goes again. -/
theorem unlock_taken (sound : t.Sound (update held id (held id + 1)) order) :
    ∃ after, t.ospf6RouteUnlock id = some after ∧ after.Sound held order ∧
      (∀ other, after.routes other = if other = id ∧ t.lock id = 1 then none else t.routes other) ∧
      after.next = t.next ∧ (∀ other ≠ id, after.lock other = t.lock other) ∧
      (t.FewLocks → after.FewLocks) := by
  have restored :
      update (update held id (held id + 1)) id (update held id (held id + 1) id - 1) = held := by
    rw [update_self, update_idem, Nat.add_sub_cancel, update_eq_self]
  have holds : 0 < update held id (held id + 1) id := by
    rw [update_self]
    exact Nat.succ_pos _
  have given := sound.unlock holds
  rwa [restored] at given

end Sound
end Ospf6RouteTable
end Zebra.Ospf6d
