import Zebra.Ospf6d.RouteIterate

namespace Zebra.Ospf6d
open Function Base Base.Linked List
namespace Ospf6Route

/-- Routes with one prefix and one destination type. -/
def Kin (found route : Ospf6Route) : Prop :=
  found.IsSame route ∧ found.type = route.type

instance (found route : Ospf6Route) : Decidable (found.Kin route) :=
  inferInstanceAs (Decidable (_ ∧ _))

/-- The routes of a table, in order, have a place for a route: the first one with its origin, or the
first one it is preferred over. None behind that place is preferred over the route, and where it has
no route to replace none has its origin. -/
def Takes (route : Ospf6Route) : List Ospf6Route → Prop
  | [] => True
  | found :: rest =>
    if ¬ found.Kin route then Takes route rest
    else if found.SameOrigin route then
      found.IsIdentical route ∨ ∀ other ∈ rest, other.Kin route → route.preference other ≤ 0
    else if 0 < found.preference route then
      ∀ other ∈ found :: rest, other.Kin route →
        route.preference other ≤ 0 ∧ ¬ other.SameOrigin route
    else Takes route rest

instance decidableTakes (route : Ospf6Route) :
    (routes : List Ospf6Route) → Decidable (route.Takes routes)
  | [] => .isTrue trivial
  | found :: rest =>
    have := decidableTakes route rest
    inferInstanceAs (Decidable (if ¬ found.Kin route then Takes route rest
      else if found.SameOrigin route then
        found.IsIdentical route ∨ ∀ other ∈ rest, other.Kin route → route.preference other ≤ 0
      else if 0 < found.preference route then
        ∀ other ∈ found :: rest, other.Kin route →
          route.preference other ≤ 0 ∧ ¬ other.SameOrigin route
      else Takes route rest))

/-- A route is in the table already, or gets in front of the first one with its prefix. -/
def Leads (route : Ospf6Route) (routes : List Ospf6Route) : Prop :=
  (∃ found ∈ routes, found.IsIdentical route) ∨
    ∀ first, routes.find? (fun found => found.IsSame route) = some first →
      first.type = route.type ∧ (first.SameOrigin route ∨ 0 < first.preference route)

variable {route : Ospf6Route} {front back : List Ospf6Route}

/-- The search passes a route. -/
def Passes (route found : Ospf6Route) : Prop :=
  found.Kin route → ¬ found.SameOrigin route ∧ found.preference route ≤ 0

theorem takes_append (passes : ∀ found ∈ front, route.Passes found) :
    route.Takes (front ++ back) ↔ route.Takes back := by
  induction front with
  | nil => rfl
  | cons found front ih =>
    obtain ⟨here, later⟩ := forall_mem_cons.mp passes
    rw [cons_append, Takes, ih later]
    by_cases kin : found.Kin route
    · obtain ⟨other, less⟩ := here kin
      rw [if_neg (not_not.mpr kin), if_neg other, if_neg (not_lt.mpr less)]
    · rw [if_pos kin]

end Ospf6Route

namespace Ospf6RouteTable
variable {t : Ospf6RouteTable} {held : RouteId → Nat} {order front back : List RouteId}
  {id current : RouteId} {route found : Ospf6Route} {prev : Option RouteId}

/-- The routes of a list of identities. -/
def contents (t : Ospf6RouteTable) (order : List RouteId) : List Ospf6Route :=
  order.filterMap t.routes

theorem contents_cons (present : t.routes id = some route) :
    t.contents (id :: back) = route :: t.contents back :=
  filterMap_cons_some present

theorem contents_append : t.contents (front ++ back) = t.contents front ++ t.contents back :=
  filterMap_append

theorem mem_contents : found ∈ t.contents order ↔ ∃ id ∈ order, t.routes id = some found :=
  mem_filterMap

/-- Where the search ends: behind the last route, at a route of another prefix, at the one with the
origin of the new route, or at one the new route is preferred over. -/
inductive Stops (t : Ospf6RouteTable) (route : Ospf6Route) (prev : Option RouteId) :
    List RouteId → Place → Prop where
  | ends : Stops t route prev [] { prev }
  | other {current rest found} (present : t.routes current = some found)
      (apart : ¬ found.IsSame route) :
      Stops t route prev (current :: rest) { prev, next := some current }
  | origin {current rest found} (present : t.routes current = some found) (kin : found.Kin route)
      (same : found.SameOrigin route) :
        Stops t route prev (current :: rest) { prev, old := some current }
  | less {current rest found} (present : t.routes current = some found) (kin : found.Kin route)
      (apart : ¬ found.SameOrigin route) (more : 0 < found.preference route) :
      Stops t route prev (current :: rest) { prev, next := some current }

theorem Stops.prev_eq {place} (stops : t.Stops route prev back place) : place.prev = prev := by
  cases stops <;> rfl

theorem Stops.next_eq {place} (stops : t.Stops route prev back place) (new : place.old = none) :
    place.next = back.head? := by
  cases stops with
  | origin => cases new
  | ends | other | less => rfl

/-- The last of the routes passed, or the one in front of them. -/
def lastOf (prev : Option RouteId) (passed : List RouteId) : Option RouteId :=
  passed.getLast?.or prev

theorem lastOf_cons (passed : List RouteId) :
    lastOf (some current) passed = lastOf prev (current :: passed) := by
  cases passed with
  | nil => rfl
  | cons first rest =>
    rw [lastOf, lastOf, getLast?_cons_cons]
    obtain ⟨last, same⟩ :=
      Option.isSome_iff_exists.mp (getLast?_isSome.mpr (cons_ne_nil first rest))
    rfl

namespace Sound

theorem findPlace (sound : t.Sound held order) (valid : route.ValidPath) {before rest}
    (split : order = before ++ rest) (fuel : Nat) (enough : rest.length < fuel)
    (prev : Option RouteId) :
    ∃ place passed after, t.findPlace route fuel rest.head? prev = some place ∧
      rest = passed ++ after ∧
      (∀ id ∈ passed, ∃ found, t.routes id = some found ∧ found.IsSame route ∧ route.Passes found) ∧
      Stops t route (lastOf prev passed) after place := by
  induction rest generalizing before fuel prev with
  | nil =>
    cases fuel with
    | zero => exact nomatch enough
    | succ fuel => exact ⟨{ prev }, [], [], rfl, rfl, by simp, .ends⟩
  | cons current rest ih =>
    cases fuel with
    | zero => exact nomatch enough
    | succ fuel =>
      obtain ⟨found, present, validFound⟩ := sound.live (split ▸ mem_append_cons_self)
      have later := ih (split.trans (append_cons before current rest)) fuel
        (Nat.lt_of_succ_lt_succ enough) (some current)
      -- the search goes on behind a route it passes
      have goes (passes : found.IsSame route ∧ route.Passes found)
          (step : t.findPlace route (fuel + 1) (some current) prev =
            t.findPlace route fuel rest.head? (some current)) :
          ∃ place passed after, t.findPlace route (fuel + 1) (some current) prev = some place ∧
            current :: rest = passed ++ after ∧
            (∀ id ∈ passed, ∃ found, t.routes id = some found ∧ found.IsSame route ∧
              route.Passes found) ∧
            Stops t route (lastOf prev passed) after place := by
        obtain ⟨place, passed, after, ran, rfl, all, stops⟩ := later
        refine ⟨place, current :: passed, after, step.trans ran, rfl, ?_,
          lastOf_cons passed ▸ stops⟩
        exact forall_mem_cons.mpr ⟨⟨found, present, passes⟩, all⟩
      have step : t.findPlace route (fuel + 1) (some current) prev =
          if ¬ found.IsSame route then some { prev, next := some current }
          else if found.type ≠ route.type then t.findPlace route fuel rest.head? (some current)
          else if found.SameOrigin route then some { prev, old := some current }
          else (found.ospf6RouteCmp route).bind fun result =>
            if 0 < result then some { prev, next := some current }
              else t.findPlace route fuel rest.head? (some current) := by
        rw [Ospf6RouteTable.findPlace, present, sound.chained.next split]
        rfl
      by_cases same : found.IsSame route
      · rw [if_neg (not_not.mpr same)] at step
        by_cases types : found.type = route.type
        · rw [if_neg (not_not.mpr types)] at step
          by_cases origin : found.SameOrigin route
          · rw [if_pos origin] at step
            exact ⟨_, [], current :: rest, step, rfl, by simp, .origin present ⟨same, types⟩ origin⟩
          · have compared : found.ospf6RouteCmp route = some (found.preference route) :=
              if_pos ⟨same, validFound, valid⟩
            rw [if_neg origin, compared, Option.bind_some] at step
            by_cases more : 0 < found.preference route
            · rw [if_pos more] at step
              exact ⟨_, [], current :: rest, step, rfl, by
                simp, .less present ⟨same, types⟩ origin more⟩
            · rw [if_neg more] at step
              exact goes ⟨same, fun _ => ⟨origin, not_lt.mp more⟩⟩ step
        · rw [if_pos types] at step
          exact goes ⟨same, fun kin => absurd kin.2 types⟩ step
      · rw [if_pos same] at step
        exact ⟨_, [], current :: rest, step, rfl, by simp, .other present same⟩

theorem origins (sound : t.Sound held order) {other otherFound} (here : id ∈ order)
    (there : other ∈ order) (present : t.routes id = some found)
    (presentToo : t.routes other = some otherFound)
    (kin : found.Kin otherFound) (same : found.SameOrigin otherFound) : id = other := by
  by_contra apart
  obtain ⟨front, back, split⟩ := append_of_mem here
  have sorted := sound.sorted
  rw [split] at sorted there
  obtain ⟨_, first, across⟩ := pairwise_append.mp sorted
  rcases mem_append.mp there with early | late
  · obtain ⟨_, differ⟩ :=
      across other early id mem_cons_self otherFound found presentToo present kin.1.symm.bits
    exact (differ kin.2.symm).2 same.symm
  · rcases mem_cons.mp late with equal | behind
    · exact apart equal.symm
    · obtain ⟨_, differ⟩ :=
        (pairwise_cons.mp first).1 other behind found otherFound present presentToo kin.1.bits
      exact (differ kin.2).2 same

end Sound
end Ospf6RouteTable
end Zebra.Ospf6d
