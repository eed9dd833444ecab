import Zebra.Base.Deque
import Zebra.Ospf6d.RoutePlace

namespace Zebra.Ospf6d
open Function Base Base.Linked Base.Deque Option List Ospf6Route
namespace Ospf6RouteTable
variable {t after : Ospf6RouteTable} {held : RouteId → Nat} {order front back gone : List RouteId}
  {id other : RouteId} {route found : Ospf6Route} {place : Option RouteId} {node : NodeId}

section Writes

def withNext (t : Ospf6RouteTable) (place next : Option RouteId) : Ospf6RouteTable :=
  { t with next := writeAt t.next place next }

def withPrev (t : Ospf6RouteTable) (place prev : Option RouteId) : Ospf6RouteTable :=
  { t with prev := writeAt t.prev place prev }

section
variable (alive : ∀ there, place = some there → t.routes there ≠ none)
include alive

theorem setNext_eq (next : Option RouteId) :
    t.setNext place next = some (t.withNext place next) := by
  cases place with
  | none => rfl
  | some there =>
    obtain ⟨route, found⟩ := ne_none_iff_exists'.mp (alive there rfl)
    rw [setNext, found]
    rfl

theorem setPrev_eq (prev : Option RouteId) :
    t.setPrev place prev = some (t.withPrev place prev) := by
  cases place with
  | none => rfl
  | some there =>
    obtain ⟨route, found⟩ := ne_none_iff_exists'.mp (alive there rfl)
    rw [setPrev, found]
    rfl

end

variable (alive : t.routes id ≠ none)
include alive

theorem setFlag_eq (flag : BitVec 8) :
    t.setFlag id flag = some { t with flag := update t.flag id (t.flag id ||| flag) } := by
  obtain ⟨route, found⟩ := ne_none_iff_exists'.mp alive
  rw [setFlag, found]
  rfl

theorem unsetFlag_eq (flag : BitVec 8) :
    t.unsetFlag id flag = some { t with flag := update t.flag id (t.flag id &&& ~~~flag) } := by
  obtain ⟨route, found⟩ := ne_none_iff_exists'.mp alive
  rw [unsetFlag, found]
  rfl

theorem lock_first (unlocked : t.lock id = 0) :
    t.ospf6RouteLock id = some { t with lock := update t.lock id 1 } := by
  obtain ⟨route, found⟩ := ne_none_iff_exists'.mp alive
  rw [ospf6RouteLock, found, unlocked]
  rfl

theorem unlock_lock (unlocked : t.lock id = 0) (apart : other ≠ id) (there : t.routes other ≠ none)
    (locked : t.lock other ≠ 0) :
    (t.ospf6RouteUnlock other).bind (·.ospf6RouteLock id) =
      ({ t with lock := update t.lock id 1 } : Ospf6RouteTable).ospf6RouteUnlock other := by
  have same : update t.lock id 1 other = t.lock other := update_of_ne apart ..
  have still : update t.lock id 1 other ≠ 0 := same ▸ locked
  rw [unlock_eq there locked, unlock_eq (t := { t with lock := update t.lock id 1 }) there still,
    bind_some, lock_first]
  · dsimp only
    simp only [same, update_comm apart]
  · dsimp only
    split
    · rwa [update_of_ne apart.symm]
    · exact alive
  · dsimp only
    rwa [update_of_ne apart.symm]

end Writes

/-- A node with the prefix of a route, and the identity of the route for its `rnode`. -/
structure Seated (t : Ospf6RouteTable) (id : RouteId) (route : Ospf6Route) (node : NodeId) :
    Prop where
  found : t.routes id = some route
  rnode : t.rnode id = some node
  lock : t.lock id = 0
  seat : ∃ seat, t.table.nodes node = some seat ∧ seat.p.bits = route.p.bits ∧ 0 < seat.lock

namespace Sound

theorem info_eq (sound : t.Sound held order) {seat} (found : t.table.nodes node = some seat) :
    seat.info = leader t.wordOf order seat.p.bits := by
  cases info : seat.info with
  | some first => exact (sound.first.mp ⟨node, seat, found, rfl, info⟩).symm
  | none =>
    symm
    rw [eq_none_iff_forall_ne_some]
    intro first leads
    obtain ⟨there, other, otherFound, same, carried⟩ := sound.first.mpr leads
    have here := place_unique sound.wf otherFound found same
    rw [here, found] at otherFound
    cases otherFound
    rw [info] at carried
    cases carried

theorem put (sound : t.Sound held (front ++ gone ++ back)) {others} (out : id ∉ front ++ back)
    (seated : t.Seated id route node)
    (valid : route.ValidPath) (nodup : (front ++ back).Nodup)
    (led : t.Led (front ++ id :: back) after.table after.flag) (next : ∀ other, after.next other =
      if other = id then back.head? else if front.getLast? = some other then some id
      else t.next other)
    (prev : ∀ other, after.prev other =
      if other = id then front.getLast? else if back.head? = some other then some id
      else t.prev other)
    (routes : after.routes = t.routes) (rnode : after.rnode = t.rnode)
    (fresh : after.fresh = t.fresh)
    (inOrder : InOrder t.wordOf (front ++ id :: back))
    (sorted : (front ++ id :: back).Pairwise t.Sorts)
    (lock : ∀ {other}, t.routes other ≠ none →
      after.lock other = (if other ∈ front ++ id :: back then 1 else 0) + others other)
    (holders : ∀ {other}, 0 < others other → t.routes other ≠ none ∧
      (other ∈ front ++ gone ++ back ∨ 0 < held other))
    (count : after.count = (front ++ id :: back).length % 2 ^ 32) :
    after.Sound others (front ++ id :: back) := by
  have mem : ∀ {other}, other ∈ front ++ id :: back ↔
      other = id ∨ other ∈ front ∨ other ∈ back := by
    simp only [mem_append, mem_cons]
    tauto
  have apart : ∀ {other}, other ∈ front ∨ other ∈ back → other ≠ id := by
    rintro other inside rfl
    exact out (mem_append.mpr inside)
  have stays : ∀ {other}, other ∈ front ∨ other ∈ back → other ∈ front ++ gone ++ back := by
    simp only [mem_append]
    tauto
  have whole : (front ++ id :: back).Nodup := by
    rw [nodup_append] at nodup ⊢
    refine ⟨nodup.1, nodup_cons.mpr ⟨fun inside => out (mem_append_right _ inside), nodup.2.1⟩, ?_⟩
    intro one here another there
    rcases mem_cons.mp there with rfl | later
    · exact apart (.inl here)
    · exact nodup.2.2 one here another later
  refine of_led led ?_ whole (fun {other} member => ?_) inOrder sorted
    (fun other _ => by rw [routes]) (fun {other} needed => ?_)
    (routes.symm ▸ lock) (fun more => routes ▸ (holders more).1)
      (fresh.symm ▸ routes.symm ▸ sound.allocated) count
  · refine sound.chained.put whole ?_ ?_ ?_ ?_ ?_ ?_
    · intro other inside
      rw [next, if_neg (apart (.inl inside))]
    · intro other inside
      have notLast : front.getLast? ≠ some other := fun last =>
        (nodup_append.mp nodup).2.2 other (mem_of_getLast? last) other inside rfl
      rw [next, if_neg (apart (.inr inside)), if_neg notLast]
    · intro other inside
      have notHead : back.head? ≠ some other := fun head =>
        (nodup_append.mp nodup).2.2 other inside other (mem_of_head? head) rfl
      rw [prev, if_neg (apart (.inl inside)), if_neg notHead]
    · intro other inside
      rw [prev, if_neg (apart (.inr inside))]
    · rw [next, if_pos rfl]
    · rw [prev, if_pos rfl]
  · rcases mem.mp member with rfl | inside
    · exact ⟨route, seated.found, valid⟩
    · exact sound.live (stays inside)
  · by_cases here : other = id
    · obtain ⟨seat, present, same, _⟩ := seated.seat
      exact ⟨node, seat, by rw [rnode, here, seated.rnode], present, fun _ => by
        rw [same, here, wordOf_eq seated.found]⟩
    · have before : other ∈ front ++ gone ++ back ∨ 0 < held other := by
        rcases needed with member | more
        · exact .inl (stays ((mem.mp member).resolve_left here))
        · exact (holders more).2
      obtain ⟨there, was, kept, present, same⟩ := sound.rnode before
      exact ⟨there, was, by rw [rnode, kept], present,
        fun member => same (stays ((mem.mp member).resolve_left here))⟩

/-- Who leads each prefix once a route has come in: nothing changes behind another route of its
prefix, and otherwise the node carries the route and its old leader loses the flag. -/
theorem lead (sound : t.Sound held order) (split : order = front ++ (gone ++ back))
    (out : id ∉ order) (goneWord : ∀ other ∈ gone, t.wordOf other = t.wordOf id) {table flag}
    (leads : leader t.wordOf front (t.wordOf id) ≠ none ∧ table = t.table ∧ flag = t.flag ∧
      ¬ IsBest (t.flag id) ∨
      leader t.wordOf front (t.wordOf id) = none ∧ table.Wellformed ∧
      (∀ {place was}, t.table.nodes place = some was →
        ∃ now, table.nodes place = some now ∧ now.p.bits = was.p.bits) ∧
      (∀ word other, Carries table word other ↔ if word = t.wordOf id then some id = some other
        else Carries t.table word other) ∧
      IsBest (flag id) ∧ ∀ other ∈ front ++ back, IsBest (flag other) ↔
      IsBest (t.flag other) ∧ leader t.wordOf order (t.wordOf id) ≠ some other) :
    t.Led (front ++ id :: back) table flag := by
  have other_word : ∀ {word}, t.wordOf id ≠ word →
      leader t.wordOf (front ++ id :: back) word = leader t.wordOf order word := by
    intro word differs
    have none_ : leader t.wordOf gone word = none :=
      leader_none.mpr fun other member => by rwa [goneWord other member]
    rw [leader_insert, if_neg differs, split, leader_append, leader_append, leader_append,
      none_, none_or]
  have stays : ∀ {other}, other ∈ front ++ id :: back → other ≠ id →
      other ∈ order ∧ other ∈ front ++ back := by
    intro other member apart
    rw [split]
    simp only [mem_append, mem_cons] at member ⊢
    tauto
  rcases leads with ⟨some_, rfl, rfl, notBest⟩ | ⟨none_, wf, nodes, carries, best, others⟩
  · obtain ⟨first, isFirst⟩ := ne_none_iff_exists'.mp some_
    have unchanged : ∀ word, leader t.wordOf (front ++ id :: back) word =
        leader t.wordOf order word := by
      intro word
      by_cases here : t.wordOf id = word
      · rw [← here, split, leader_append, leader_append, isFirst, some_or, some_or]
      · exact other_word here
    refine ⟨sound.wf, fun found => ⟨_, found, rfl⟩, fun {word other} => by
      rw [unchanged, sound.first], fun other inside => ?_⟩
    rw [unchanged]
    by_cases same : other = id
    · rw [same, iff_false_left notBest]
      exact fun leads => out (leader_mem leads)
    · exact sound.best (stays inside same).1
  · have mine : leader t.wordOf (front ++ id :: back) (t.wordOf id) = some id := by
      rw [leader_insert, if_pos rfl, none_, none_or]
    refine ⟨wf, nodes, fun {word other} => ?_, fun other inside => ?_⟩
    · rw [carries]
      by_cases here : word = t.wordOf id
      · rw [if_pos here, here, mine]
      · rw [if_neg here, other_word (Ne.symm here), sound.first]
    · by_cases same : other = id
      · rw [same, mine]
        exact iff_of_true best rfl
      · obtain ⟨member, here⟩ := stays inside same
        rw [others other here, sound.best member]
        by_cases equal : t.wordOf id = t.wordOf other
        · rw [← equal, mine]
          exact iff_of_false (fun both => both.2 both.1) fun leads => same (some.inj leads).symm
        · rw [other_word equal]
          exact and_iff_left fun leads => equal (leader_key leads).symm

end Sound

/-- A route is linked in between two others. -/
def between (t : Ospf6RouteTable) (id : RouteId) (prev next : Option RouteId) : Ospf6RouteTable :=
  { t with
    next := writeAt (writeAt t.next prev (some id)) (some id) next
    prev := writeAt (writeAt t.prev (some id) prev) next (some id) }

section Between
variable {prev next : Option RouteId}

theorem between_next : (t.between id prev next).next other =
    if other = id then next else if prev = some other then some id else t.next other := by
  rw [between]
  dsimp only
  rw [writeAt_apply, writeAt_apply]
  exact if_congr (by rw [some_inj, eq_comm]) rfl rfl

theorem between_prev (apart : next ≠ some id) : (t.between id prev next).prev other =
    if other = id then prev else if next = some other then some id else t.prev other := by
  rw [between]
  dsimp only
  rw [writeAt_apply, writeAt_apply]
  by_cases same : other = id
  · subst same
    rw [if_neg apart, if_pos rfl, if_pos rfl]
  · rw [if_neg same, if_neg fun equal => same (some.inj equal).symm]

end Between

/-- Where the search of a route that has others with its prefix ended: behind the routes of the
  prefix it passed. -/
structure Searched (t : Ospf6RouteTable) (order : List RouteId) (route : Ospf6Route)
    (front passed back : List RouteId) (place : Place) : Prop where
  split : order = front ++ (passed ++ back)
  before : ∀ id ∈ front, t.wordOf id < route.p.bits
  passes : ∀ id ∈ passed, ∃ found, t.routes id = some found ∧ found.IsSame route ∧
    route.Passes found
  behind : ∀ id ∈ back, route.p.bits ≤ t.wordOf id
  leads : leader t.wordOf order route.p.bits = (passed ++ back).head?
  some_ : passed ++ back ≠ []
  stops : Stops t route passed.getLast? back place

/-- The routes of the prefix agree in all bits of their addresses. -/
def Agrees (t : Ospf6RouteTable) (order : List RouteId) (route : Ospf6Route) : Prop :=
  ∀ found ∈ t.contents order, found.p.bits = route.p.bits → found.IsSame route

/-- Routes that fit behind the place come after the new one, or have another prefix or type. -/
theorem sorts_back {behind : List RouteId} (present : t.routes id = some route)
    (agrees : t.Agrees order route) (inside : ∀ other ∈ behind, other ∈ order)
    (fits : ∀ other ∈ behind, ∀ found, t.routes other = some found → found.Kin route →
      route.preference found ≤ 0 ∧ ¬ found.SameOrigin route) : ∀ other ∈ behind,
      t.Sorts id other := by
  intro other member ra rb foundId foundOther same
  rw [present] at foundId
  cases foundId
  have isSame := agrees rb (mem_contents.mpr ⟨other, inside other member, foundOther⟩) same.symm
  refine ⟨isSame.symm, fun types => ?_⟩
  obtain ⟨less, differ⟩ := fits other member rb foundOther ⟨isSame, types.symm⟩
  exact ⟨less, fun origin => differ origin.symm⟩

namespace Searched
variable {passed : List RouteId} {result : Place}
variable (searched : t.Searched order route front passed back result)
include searched

theorem word : ∀ id ∈ passed, t.wordOf id = route.p.bits := by
  intro id member
  obtain ⟨found, present, same, _⟩ := searched.passes id member
  rw [wordOf_eq present, same.bits]

theorem front_le : ∀ id ∈ front ++ passed, t.wordOf id ≤ route.p.bits := by
  intro id member
  rcases mem_append.mp member with early | late
  · exact le_of_lt (searched.before id early)
  · exact le_of_eq (searched.word id late)

theorem leader_front : leader t.wordOf (front ++ passed) route.p.bits = passed.head? := by
  have notFront : leader t.wordOf front route.p.bits = none :=
    leader_none.mpr fun other member => ne_of_lt (searched.before other member)
  rw [leader_append, notFront, none_or]
  cases split : passed with
  | nil => rfl
  | cons first rest =>
    rw [leader_cons, if_pos (searched.word first (split ▸ mem_cons_self)), head?_cons]

theorem takes : route.Takes (t.contents order) ↔ route.Takes (t.contents back) := by
  rw [searched.split, contents_append, contents_append, takes_append, takes_append]
  · intro found member
    obtain ⟨id, inside, present⟩ := mem_contents.mp member
    obtain ⟨again, presentAgain, _, passes⟩ := searched.passes id inside
    rw [present] at presentAgain
    cases presentAgain
    exact passes
  · intro found member kin
    obtain ⟨id, inside, present⟩ := mem_contents.mp member
    have less := searched.before id inside
    rw [wordOf_eq present, kin.1.bits] at less
    exact absurd less (lt_irrefl _)

theorem sorts_front (present : t.routes id = some route) :
    ∀ other ∈ front ++ passed, t.Sorts other id := by
  intro other member ra rb foundOther foundId same
  rw [present] at foundId
  cases foundId
  rcases mem_append.mp member with early | late
  · have less := searched.before other early
    rw [wordOf_eq foundOther, same] at less
    exact absurd less (lt_irrefl _)
  · obtain ⟨found, presentOther, isSame, passes⟩ := searched.passes other late
    rw [foundOther] at presentOther
    cases presentOther
    exact ⟨isSame, fun types => ⟨(passes ⟨isSame, types⟩).2, (passes ⟨isSame, types⟩).1⟩⟩

theorem fits (sound : t.Sound held order) (agrees : t.Agrees order route)
    (takes : route.Takes (t.contents order))
    (new : result.old = none) : ∀ other ∈ back, ∀ found, t.routes other = some found →
    found.Kin route →
      route.preference found ≤ 0 ∧ ¬ found.SameOrigin route := by
  have later := searched.takes.mp takes
  have stops := searched.stops
  cases stops with
  | ends => simp
  | origin => cases new
  | @other current rest head presentHead apart =>
    -- behind a route of another prefix there is none of this one
    intro other member found present kin
    have bound := searched.behind current mem_cons_self
    have most : t.wordOf current ≤ t.wordOf other := by
      have inOrder := sound.inOrder
      rw [searched.split] at inOrder
      have tail := (pairwise_append.mp (pairwise_append.mp inOrder).2.1).2.1
      rcases mem_cons.mp member with rfl | behind
      · exact le_refl _
      · exact (pairwise_cons.mp tail).1 other behind
    rw [wordOf_eq present, kin.1.bits] at most
    rw [wordOf_eq presentHead] at bound most
    have inside : current ∈ order := by
      rw [searched.split]
      exact mem_append_right _ mem_append_cons_self
    exact absurd
      (agrees head (mem_contents.mpr ⟨current, inside, presentHead⟩) (le_antisymm most bound)) apart
  | @less current rest head presentHead kin apart more =>
    rw [contents_cons presentHead, Takes, if_neg (not_not.mpr kin), if_neg apart,
      if_pos more] at later
    intro other member found present
    refine later found ?_
    rw [← contents_cons presentHead]
    exact mem_contents.mpr ⟨other, member, present⟩

end Searched
end Ospf6RouteTable
end Zebra.Ospf6d
