import Zebra.Ospf6d.Lsdb

/-! The route table of ospf6d/ospf6_route.c. Times, hooks, route options and link state ids for
advertising are left out. The result `none` is a failed assertion, a dangling pointer or a loop that
does not end. -/
namespace Zebra.Ospf6d
open Function Base

abbrev RouteId := Nat

/-- `struct ospf6_ls_origin`. -/
structure Ospf6LsOrigin where
  type : BitVec 16
  id : BitVec 32
  advRouter : BitVec 32
deriving DecidableEq

/-- `struct ospf6_path`; the area id is in host order. -/
structure Ospf6Path where
  origin : Ospf6LsOrigin
  routerBits : BitVec 8 := 0
  options : BitVec 24 := 0
  prefixOptions : BitVec 8 := 0
  areaId : BitVec 32 := 0
  type : BitVec 8
  subtype : BitVec 8 := 0
  metricType : BitVec 8 := 0
  cost : BitVec 32 := 0
  costE2 : BitVec 32 := 0
deriving DecidableEq

structure Ospf6Nexthop where
  ifindex : BitVec 32 := 0
  address : BitVec 128 := 0
deriving DecidableEq

def ospf6MultiPathLimit : Nat := 4

/-- The part of `struct ospf6_route` a table does not change. -/
structure Ospf6Route where
  p : Prefix
  type : BitVec 8
  path : Ospf6Path
  nexthop : Vector Ospf6Nexthop ospf6MultiPathLimit := Vector.replicate _ {}
deriving DecidableEq

def ospf6PathTypeNone : BitVec 8 := 0
def ospf6PathTypeExternal2 : BitVec 8 := 4
def ospf6PathTypeMax : BitVec 8 := 6

def ospf6RouteChangeFlag : BitVec 8 := 0x01
def ospf6RouteAddFlag : BitVec 8 := 0x02
def ospf6RouteBestFlag : BitVec 8 := 0x08
def ospf6RouteWasRemovedFlag : BitVec 8 := 0x40

/-- `ospf6_route_is_best`. -/
def IsBest (flag : BitVec 8) : Prop :=
  flag &&& ospf6RouteBestFlag ≠ 0

instance (flag : BitVec 8) : Decidable (IsBest flag) :=
  inferInstanceAs (Decidable (_ ≠ _))

/-- `prefix_same`. -/
def PrefixSame (p1 p2 : Prefix) : Prop :=
  p1.family = p2.family ∧ p1.prefixlen = p2.prefixlen ∧ p1.family ≠ .unspec ∧
    octetsEqualBelow p1.octets p2.octets p1.family.bytelen = true

instance (p1 p2 : Prefix) : Decidable (PrefixSame p1 p2) :=
  inferInstanceAs (Decidable (_ ∧ _ ∧ _ ∧ _))

namespace Ospf6Route

/-- `ospf6_route_is_same`. -/
abbrev IsSame (ra rb : Ospf6Route) : Prop :=
  PrefixSame ra.p rb.p

/-- `ospf6_route_is_same_origin`. -/
def SameOrigin (ra rb : Ospf6Route) : Prop :=
  ra.path.areaId = rb.path.areaId ∧ ra.path.origin = rb.path.origin

instance (ra rb : Ospf6Route) : Decidable (SameOrigin ra rb) :=
  inferInstanceAs (Decidable (_ ∧ _))

/-- `ospf6_route_is_identical`: nothing a table leaves alone differs. -/
def IsIdentical (ra rb : Ospf6Route) : Prop :=
  ra = rb

instance (ra rb : Ospf6Route) : Decidable (IsIdentical ra rb) :=
  inferInstanceAs (Decidable (_ = _))

/-- What `ospf6_route_cmp` asserts of the type of a path. -/
def ValidPath (route : Ospf6Route) : Prop :=
  ospf6PathTypeNone < route.path.type ∧ route.path.type < ospf6PathTypeMax

instance (route : Ospf6Route) : Decidable route.ValidPath :=
  inferInstanceAs (Decidable (_ ∧ _))

/-- What `ospf6_route_cmp` returns: an unsigned difference is read as an `int`. -/
def preference (ra rb : Ospf6Route) : Int :=
  if ra.type ≠ rb.type then (ra.type.toNat : Int) - rb.type.toNat
  else if ra.path.areaId ≠ rb.path.areaId then (ra.path.areaId - rb.path.areaId).toInt
  else if ra.path.type ≠ rb.path.type then (ra.path.type.toNat : Int) - rb.path.type.toNat
  else if ra.path.type = ospf6PathTypeExternal2 then
    if ra.path.costE2 ≠ rb.path.costE2 then (ra.path.costE2 - rb.path.costE2).toInt else 0
  else
    if ra.path.cost ≠ rb.path.cost then (ra.path.cost - rb.path.cost).toInt else 0

/-- `ospf6_route_cmp` with its assertions. -/
def ospf6RouteCmp (ra rb : Ospf6Route) : Option Int :=
  if IsSame ra rb ∧ ra.ValidPath ∧ rb.ValidPath then some (preference ra rb) else none

end Ospf6Route

/-- `struct ospf6_route_table` with the heap of the routes. What a table changes in a route is in
maps of their own; `count` is a `u_int32_t` and a lock an `unsigned int`. -/
structure Ospf6RouteTable where
  table : RouteTable RouteId := routeTableInit
  count : Nat := 0
  routes : RouteId → Option Ospf6Route := fun _ => none
  rnode : RouteId → Option NodeId := fun _ => none
  prev : RouteId → Option RouteId := fun _ => none
  next : RouteId → Option RouteId := fun _ => none
  lock : RouteId → Nat := fun _ => 0
  flag : RouteId → BitVec 8 := fun _ => 0
  fresh : RouteId := 0

namespace Ospf6RouteTable
section
variable (t : Ospf6RouteTable)

/-- `ospf6_route_create` or `ospf6_route_copy`, and what the caller fills in; a copy keeps the
  flags. -/
def create (route : Ospf6Route) (flag : BitVec 8) : Ospf6RouteTable :=
  { t with
    routes := update t.routes t.fresh (some route)
    rnode := update t.rnode t.fresh none
    prev := update t.prev t.fresh none
    next := update t.next t.fresh none
    lock := update t.lock t.fresh 0
    flag := update t.flag t.fresh flag
    fresh := t.fresh + 1 }

def ospf6RouteDelete (id : RouteId) : Ospf6RouteTable :=
  { t with routes := update t.routes id none }

def ospf6RouteLock (id : RouteId) : Option Ospf6RouteTable := do
  let _ ← t.routes id
  return { t with lock := update t.lock id ((t.lock id + 1) % 2 ^ 32) }

def ospf6RouteUnlock (id : RouteId) : Option Ospf6RouteTable := do
  let _ ← t.routes id
  if t.lock id = 0 then none
  else
    let t := { t with lock := update t.lock id (t.lock id - 1) }
    return if t.lock id = 0 then t.ospf6RouteDelete id else t

/-- `if (place) place->next = next;` -/
def setNext (place next : Option RouteId) : Option Ospf6RouteTable :=
  match place with
  | none => some t
  | some place => do
    let _ ← t.routes place
    return { t with next := update t.next place next }

/-- `if (place) place->prev = prev;` -/
def setPrev (place prev : Option RouteId) : Option Ospf6RouteTable :=
  match place with
  | none => some t
  | some place => do
    let _ ← t.routes place
    return { t with prev := update t.prev place prev }

/-- `SET_FLAG (route->flag, …);` -/
def setFlag (id : RouteId) (flag : BitVec 8) : Option Ospf6RouteTable := do
  let _ ← t.routes id
  return { t with flag := update t.flag id (t.flag id ||| flag) }

/-- `UNSET_FLAG (route->flag, …);` -/
def unsetFlag (id : RouteId) (flag : BitVec 8) : Option Ospf6RouteTable := do
  let _ ← t.routes id
  return { t with flag := update t.flag id (t.flag id &&& ~~~flag) }

/-- `node->info = …;` -/
def setInfo (t : Ospf6RouteTable) (node : NodeId) (info : Option RouteId) :
    Option Ospf6RouteTable := do
  return { t with table := ← t.table.setInfo node info }

/-- `ospf6_route_lookup`. The lock `route_node_lookup` takes is not given back. -/
def ospf6RouteLookup (p : Prefix) : Option (Ospf6RouteTable × Option RouteId) := do
  let (table, found) ← t.table.routeNodeLookup p
  match found with
  | none => return ({ t with table }, none)
  | some node => return ({ t with table }, (← table.nodes node).info)

/-- Loop of `ospf6_route_lookup_identical`. -/
def identicalLoop (t : Ospf6RouteTable) (route : Ospf6Route) :
    Nat → Option RouteId → Option (Option RouteId)
  | 0, _ => none
  | _ + 1, none => some none
  | fuel + 1, some target => do
    if Ospf6Route.IsIdentical (← t.routes target) route then return some target
    else identicalLoop t route fuel (t.next target)

def ospf6RouteLookupIdentical (route : Ospf6Route) : Option (Ospf6RouteTable × Option RouteId) := do
  let (t, first) ← t.ospf6RouteLookup route.p
  return (t, ← t.identicalLoop route (t.fresh + 1) first)

def ospf6RouteLookupBestmatch (p : Prefix) : Option (Ospf6RouteTable × Option RouteId) := do
  let (table, found) ← t.table.routeNodeMatch p
  match found with
  | none => return ({ t with table }, none)
  | some node =>
    let table ← table.routeUnlockNode node
    return ({ t with table }, (← table.nodes node).info)

/-- The node a head function starts at, if it holds info or one behind it does; it is not locked
  then. -/
def infoFrom (table : RouteTable RouteId) (start : Option NodeId) :
    Option (RouteTable RouteId × Option NodeId) := do
  let table ← lockStart table start
  let (table, node) ← skipBare RouteTable.routeNext (table.fresh + 1) table start
  match node with
  | none => return (table, none)
  | some node => return (← table.routeUnlockNode node, some node)

def ospf6RouteHead : Option (Ospf6RouteTable × Option RouteId) := do
  let (table, node) ← infoFrom t.table t.table.top
  let t := { t with table }
  match node with
  | none => return (t, none)
  | some node =>
    let route ← (← table.nodes node).info
    let _ ← t.routes route
    if t.prev route ≠ none then none
    else return (← t.ospf6RouteLock route, some route)

/-- `if (route) ospf6_route_lock (route);` -/
def lockNext : Option RouteId → Option Ospf6RouteTable
  | none => some t
  | some id => t.ospf6RouteLock id

def ospf6RouteNext (id : RouteId) : Option (Ospf6RouteTable × Option RouteId) := do
  let next := t.next id
  let t ← t.ospf6RouteUnlock id
  return (← t.lockNext next, next)

/-- `ospf6_route_best_next`. The lock on the last route is not given back. -/
def ospf6RouteBestNext (id : RouteId) : Option (Ospf6RouteTable × Option RouteId) := do
  let _ ← t.routes id
  let rnode ← t.rnode id
  let (table, found) ← besideInfo RouteTable.routeNext t.table rnode
  match found with
  | none => return ({ t with table }, none)
  | some node =>
    let table ← table.routeUnlockNode node
    let next ← (← table.nodes node).info
    let t ← { t with table }.ospf6RouteUnlock id
    return (← t.ospf6RouteLock next, some next)

/-- `/* Walk down tree. */` of `ospf6_route_match_head`. -/
def matchDown (table : RouteTable RouteId) (p : Prefix) :
    Nat → Option NodeId → Option (Option NodeId)
  | 0, _ => none
  | _ + 1, none => some none
  | fuel + 1, some id => do
    let node ← table.nodes id
    if node.p.prefixlen < p.prefixlen ∧ prefixMatch node.p p then
      matchDown table p fuel (node.link (checkBit p.octets node.p.prefixlen))
    else return some id

def ospf6RouteMatchHead (p : Prefix) : Option (Ospf6RouteTable × Option RouteId) := do
  let start ← matchDown t.table p (p.prefixlen + 2) t.table.top
  let (table, node) ← infoFrom t.table start
  let t := { t with table }
  match node with
  | none => return (t, none)
  | some node =>
    let found ← table.nodes node
    if prefixMatch p found.p then
      let route ← found.info
      return (← t.ospf6RouteLock route, some route)
    else return (t, none)

def ospf6RouteMatchNext (p : Prefix) (id : RouteId) :
    Option (Ospf6RouteTable × Option RouteId) := do
  let (t, next) ← t.ospf6RouteNext id
  match next with
  | none => return (t, none)
  | some next =>
    if prefixMatch p (← t.routes next).p then return (t, some next)
    else return (← t.ospf6RouteUnlock next, none)

end

/-- The loop of `_route_count_assert`. -/
def countLoop : Nat → Ospf6RouteTable → Option RouteId → Option (Ospf6RouteTable × Nat)
  | 0, _, _ => none
  | _ + 1, t, none => some (t, 0)
  | fuel + 1, t, some debug => do
    let (t, next) ← t.ospf6RouteNext debug
    let (t, num) ← countLoop fuel t next
    return (t, num + 1)

section
variable (t : Ospf6RouteTable)

/-- `_route_count_assert`: an `int` compared as `u_int32_t`. -/
def routeCountAssert : Option Ospf6RouteTable := do
  let (t, first) ← t.ospf6RouteHead
  let (t, num) ← countLoop (t.fresh + 1) t first
  if num % 2 ^ 32 = t.count then return t else none

/-- Where the search for a place ends. -/
structure Place where
  prev : Option RouteId := none
  old : Option RouteId := none
  next : Option RouteId := none

/-- `/* find place to insert */` -/
def findPlace (t : Ospf6RouteTable) (route : Ospf6Route) :
    Nat → Option RouteId → Option RouteId → Option Place
  | 0, _, _ => none
  | _ + 1, none, prev => some { prev }
  | fuel + 1, some current, prev => do
    let found ← t.routes current
    if ¬ found.IsSame route then return { prev, next := some current }
    else if found.type ≠ route.type then findPlace t route fuel (t.next current) (some current)
    else if found.SameOrigin route then return { prev, old := some current }
    else if 0 < (← found.ospf6RouteCmp route) then return { prev, next := some current }
    else findPlace t route fuel (t.next current) (some current)

/-- `if (node->info == old)` -/
def leadReplaced (node : NodeId) (id old : RouteId) : Option Ospf6RouteTable := do
  if (← t.table.nodes node).info = some old then
    let t ← t.setInfo node (some id)
    t.setFlag id ospf6RouteBestFlag
  else return t

/-- `/* replace old one if exists */` -/
def replace (node : NodeId) (id old : RouteId) : Option Ospf6RouteTable := do
  let t ← t.leadReplaced node id old
  let t ← t.setNext (t.prev old) (some id)
  let t ← t.setPrev (some id) (t.prev old)
  let t ← t.setPrev (t.next old) (some id)
  let t ← t.setNext (some id) (t.next old)
  let t ← t.ospf6RouteUnlock old
  let t ← t.ospf6RouteLock id
  let t ← t.setFlag id ospf6RouteChangeFlag
  t.routeCountAssert

section
variable (node : NodeId) (id : RouteId)

/-- `if (node->info == next)` -/
def leadInstead (next : Option RouteId) : Option Ospf6RouteTable := do
  if (← t.table.nodes node).info = next then
    let next ← next
    if t.rnode next ≠ some node then none
    else
      let t ← t.setInfo node (some id)
      let t ← t.unsetFlag next ospf6RouteBestFlag
      t.setFlag id ospf6RouteBestFlag
  else return t

/-- `/* insert if previous or next node found */` -/
def insertBetween (prev next : Option RouteId) : Option Ospf6RouteTable := do
  let prev := if prev = none then next.bind t.prev else prev
  let next := if next = none then prev.bind t.next else next
  let t ← t.setNext prev (some id)
  let t ← t.setPrev (some id) prev
  let t ← t.setPrev next (some id)
  let t ← t.setNext (some id) next
  let t ← t.leadInstead node id next
  let t ← t.ospf6RouteLock id
  let t := { t with count := (t.count + 1) % 2 ^ 32 }
  let t ← t.routeCountAssert
  t.setFlag id ospf6RouteAddFlag

/-- `while (prev->next && ospf6_route_is_same (prev, prev->next))` -/
def lastSame (t : Ospf6RouteTable) : Nat → RouteId → Option RouteId
  | 0, _ => none
  | fuel + 1, prev => do
    let found ← t.routes prev
    match t.next prev with
    | none => return prev
    | some next => if found.IsSame (← t.routes next) then lastSame t fuel next else return prev

/-- `/* set next link */` -/
def linkNext : Option Ospf6RouteTable := do
  let (table, nextnode) ← besideInfo RouteTable.routeNext t.table node
  let t := { t with table }
  match nextnode with
  | none => t.setNext (some id) none
  | some nextnode =>
    let t := { t with table := ← table.routeUnlockNode nextnode }
    let next ← (← t.table.nodes nextnode).info
    let t ← t.setNext (some id) (some next)
    t.setPrev (some next) (some id)

/-- `/* set prev link */` -/
def linkPrev : Option Ospf6RouteTable := do
  let (table, prevnode) ← besideInfo routePrev t.table node
  let t := { t with table }
  match prevnode with
  | none => t.setPrev (some id) none
  | some prevnode =>
    let t := { t with table := ← table.routeUnlockNode prevnode }
    let prev ← t.lastSame (t.fresh + 1) (← (← t.table.nodes prevnode).info)
    let t ← t.setPrev (some id) (some prev)
    t.setNext (some prev) (some id)

/-- `/* Else, this is the brand new route regarding to the prefix */` -/
def addBrandNew : Option Ospf6RouteTable := do
  if (← t.table.nodes node).info ≠ none then none
  else
    let t ← t.setInfo node (some id)
    let t ← t.setFlag id ospf6RouteBestFlag
    let t ← t.ospf6RouteLock id
    let t ← t.linkNext node id
    let t ← t.linkPrev node id
    let t := { t with count := (t.count + 1) % 2 ^ 32 }
    let t ← t.routeCountAssert
    t.setFlag id ospf6RouteAddFlag

end

/-- `ospf6_route_add`. Returns the route that is in the table then. -/
def ospf6RouteAdd (id : RouteId) : Option (Ospf6RouteTable × RouteId) := do
  let route ← t.routes id
  if t.rnode id ≠ none ∨ t.lock id ≠ 0 ∨ t.next id ≠ none ∨ t.prev id ≠ none then none
  else
    let (table, node) ← t.table.routeNodeGet route.p
    let t := { t with table, rnode := update t.rnode id (some node) }
    let place ← t.findPlace route (t.fresh + 1) (← t.table.nodes node).info none
    match place.old with
    | some old =>
      if Ospf6Route.IsIdentical (← t.routes old) route then
        let t ← (t.ospf6RouteDelete id).setFlag old ospf6RouteAddFlag
        return (← t.routeCountAssert, old)
      else return (← t.replace node id old, id)
    | none =>
      if place.prev ≠ none ∨ place.next ≠ none then
        return (← t.insertBetween node id place.prev place.next, id)
      else return (← t.addBrandNew node id, id)

/-- `/* find the route to remove, making sure that the route pointer is from the route table. */` -/
def findRoute (t : Ospf6RouteTable) (id : RouteId) (route : Ospf6Route) :
    Nat → Option RouteId → Option (Option RouteId)
  | 0, _ => none
  | _ + 1, none => some none
  | fuel + 1, some current => do
    if Ospf6Route.IsSame (← t.routes current) route ∧
      current ≠ id then findRoute t id route fuel (t.next current)
    else return some current

/-- `if (route->next && ospf6_route_is_same (route->next, route))` -/
def nextSame (id : RouteId) (route : Ospf6Route) : Option (Option RouteId) :=
  match t.next id with
  | none => some none
  | some next => do
    if Ospf6Route.IsSame (← t.routes next) route then return some next else return none

/-- `if (node->info == route)` -/
def leadNext (node : NodeId) (id : RouteId) (route : Ospf6Route) : Option Ospf6RouteTable := do
  if (← t.table.nodes node).info = some id then
    match ← t.nextSame id route with
    | some next => do
      let t ← t.setInfo node (some next)
      t.setFlag next ospf6RouteBestFlag
    | none => t.setInfo node none
  else return t

def ospf6RouteRemove (id : RouteId) : Option Ospf6RouteTable := do
  let route ← t.routes id
  let (table, found) ← t.table.routeNodeLookup route.p
  let node ← found
  let t := { t with table }
  let current ← t.findRoute id route (t.fresh + 1) (← t.table.nodes node).info
  if current ≠ some id then none
  else
    let t ← t.setNext (t.prev id) (t.next id)
    let t ← t.setPrev (t.next id) (t.prev id)
    let t ← t.leadNext node id route
    let t := { t with count := (t.count + (2 ^ 32 - 1)) % 2 ^ 32 }
    let t ← t.routeCountAssert
    let t ← t.setFlag id ospf6RouteWasRemovedFlag
    t.ospf6RouteUnlock id

end

/-- The loop of `ospf6_route_remove_all`. -/
def removeLoop : Nat → Ospf6RouteTable → Option RouteId → Option Ospf6RouteTable
  | 0, _, _ => none
  | _ + 1, t, none => some t
  | fuel + 1, t, some route => do
    let t ← t.ospf6RouteRemove route
    let (t, next) ← t.ospf6RouteNext route
    removeLoop fuel t next

def ospf6RouteRemoveAll (t : Ospf6RouteTable) : Option Ospf6RouteTable := do
  let (t, first) ← t.ospf6RouteHead
  removeLoop (t.fresh + 1) t first

end Ospf6RouteTable
end Zebra.Ospf6d
