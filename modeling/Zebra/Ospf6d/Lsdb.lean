import Zebra.Lib.Table
import Zebra.Ospf6d.Lsa

/-! The link state database of ospf6d/ospf6_lsdb.c. The hooks of a database are left out. The result
`none` is a failed assertion, a dangling pointer or a loop that does not end. -/
namespace Zebra.Ospf6d
open Function Base

abbrev LsaId := Nat

/-- The fields of `struct ospf6_lsa` a database uses; `lock` is an `unsigned char`. -/
structure LsaCell where
  key : Ospf6LsaKey
  prev : Option LsaId := none
  next : Option LsaId := none
  lock : Nat := 0

/-- `struct ospf6_lsdb` with the heap of the advertisements; `count` is a `u_int32_t`. -/
structure Ospf6Lsdb where
  table : RouteTable LsaId := routeTableInit
  count : Nat := 0
  lsas : LsaId → Option LsaCell := fun _ => none
  fresh : LsaId := 0

/-- Type, advertising router and id in network order. -/
def Ospf6LsaKey.value (key : Ospf6LsaKey) : BitVec 80 :=
  key.type ++ key.advRouter ++ key.id

/-- The prefix `ospf6_lsdb_set_key` puts together: the first bits of a key are set, the rest is
  zero. -/
def keyPrefix (value : BitVec 80) (prefixlen : Nat) (short : prefixlen ≤ 80) : Prefix where
  family := .inet6
  prefixlen
  octets := Vector.ofFn fun index => if index.val < 10 then
    value.extractLsb' (72 - 8 * index.val) 8 else 0
  fits := Nat.le_trans short (by decide)

def Ospf6LsaKey.lsdbKey (key : Ospf6LsaKey) : Prefix :=
  keyPrefix key.value 80 (Nat.le_refl _)

/-- Which advertisements an iteration goes through. -/
inductive Scope where
  | all
  | type (wanted : BitVec 16)
  | typeRouter (wanted : BitVec 16) (advRouter : BitVec 32)
deriving DecidableEq

namespace Scope

/-- The key `ospf6_lsdb_type_head` and `ospf6_lsdb_type_router_head` look for. -/
def key : Scope → Prefix
  | .all => keyPrefix 0 0 (by decide)
  | .type wanted => keyPrefix (Ospf6LsaKey.value ⟨wanted, 0, 0⟩) 16 (by decide)
  | .typeRouter wanted advRouter =>
    keyPrefix (Ospf6LsaKey.value ⟨wanted, advRouter, 0⟩) 48 (by decide)

/-- What `ospf6_lsdb_type_next` and `ospf6_lsdb_type_router_next` ask of the next advertisement. -/
def Has : Scope → Ospf6LsaKey → Prop
  | .all, _ => True
  | .type wanted, key => key.type = wanted
  | .typeRouter wanted advRouter, key => key.type = wanted ∧ key.advRouter = advRouter

instance (scope : Scope) (key : Ospf6LsaKey) : Decidable (scope.Has key) :=
  match scope with
  | .all => .isTrue trivial
  | .type wanted => inferInstanceAs (Decidable (key.type = wanted))
  | .typeRouter wanted advRouter =>
    inferInstanceAs (Decidable (key.type = wanted ∧ key.advRouter = advRouter))

end Scope

section Walks
variable {Info : Type}

/-- Loop of `route_prev`: the node in front of `last`, from `node` on. -/
def prevLoop (last : NodeId) : Nat → RouteTable Info → NodeId → Option (RouteTable Info × NodeId)
  | 0, _, _ => none
  | fuel + 1, table, node => do
    let (table, next) ← table.routeNext node
    match next with
    | none => return (table, node)
    | some next =>
      if next = last then return (← table.routeUnlockNode next, node)
      else prevLoop last fuel table next

/-- `route_prev` of ospf6d/ospf6d.c. -/
def routePrev (table : RouteTable Info) (node : NodeId) :
    Option (RouteTable Info × Option NodeId) := do
  match (← table.nodes node).parent with
  | none => return (← table.routeUnlockNode node, none)
  | some parent =>
    let table ← table.routeLockNode parent
    let (table, prev) ← prevLoop node (table.fresh + 1) table parent
    let table ← table.routeUnlockNode node
    return (← table.routeLockNode prev, some prev)

/-- `while (node && node->info == NULL)`, with the function that moves on. -/
def skipBare (step : RouteTable Info → NodeId → Option (RouteTable Info × Option NodeId)) :
    Nat → RouteTable Info → Option NodeId → Option (RouteTable Info × Option NodeId)
  | 0, _, _ => none
  | _ + 1, table, none => some (table, none)
  | fuel + 1, table, some node => do
    if (← table.nodes node).info.isSome then return (table, some node)
    let (table, next) ← step table node
    skipBare step fuel table next

/-- `do { … } while (node && node->info == NULL)` on a node that is locked first. -/
def besideInfo (step : RouteTable Info → NodeId → Option (RouteTable Info × Option NodeId))
    (table : RouteTable Info) (node : NodeId) : Option (RouteTable Info × Option NodeId) := do
  let table ← table.routeLockNode node
  let (table, next) ← step table node
  skipBare step (table.fresh + 1) table next

/-- The walk down a table as long as the nodes include the key. -/
def walkDown (table : RouteTable Info) (key : Prefix) : Nat → Option NodeId → Option (Option NodeId)
  | 0, _ => none
  | _ + 1, none => some none
  | fuel + 1, some id => do
    let node ← table.nodes id
    if node.p.prefixlen ≤ key.prefixlen ∧ prefixMatch node.p key then
      walkDown table key fuel (node.link (checkBit key.octets node.p.prefixlen))
    else return some id

/-- `if (node) route_lock_node (node);` -/
def lockStart (table : RouteTable Info) : Option NodeId → Option (RouteTable Info)
  | none => some table
  | some node => table.routeLockNode node

end Walks

namespace Ospf6Lsdb
section
variable (db : Ospf6Lsdb)

def modify (id : LsaId) (change : LsaCell → LsaCell) : Option Ospf6Lsdb := do
  let lsa ← db.lsas id
  return { db with lsas := update db.lsas id (some (change lsa)) }

def ospf6LsaLock (id : LsaId) : Option Ospf6Lsdb :=
  db.modify id fun lsa => { lsa with lock := (lsa.lock + 1) % 256 }

/-- `ospf6_lsa_unlock` with its assertion; `ospf6_lsa_delete` frees the advertisement. -/
def ospf6LsaUnlock (id : LsaId) : Option Ospf6Lsdb := do
  let lsa ← db.lsas id
  if lsa.lock = 0 then none
  else if lsa.lock - 1 = 0 then return { db with lsas := update db.lsas id none }
  else return { db with lsas := update db.lsas id (some { lsa with lock := lsa.lock - 1 }) }

/-- `if (place) place->next = next;` -/
def setNext (place next : Option LsaId) : Option Ospf6Lsdb :=
  match place with
  | none => some db
  | some place => db.modify place fun lsa => { lsa with next }

/-- `if (place) place->prev = prev;` -/
def setPrev (place prev : Option LsaId) : Option Ospf6Lsdb :=
  match place with
  | none => some db
  | some place => db.modify place fun lsa => { lsa with prev }

/-- The branch of `ospf6_lsdb_add` for an advertisement that replaces `old`. -/
def relink (old id : LsaId) : Option Ospf6Lsdb := do
  let db ← db.setNext (← db.lsas old).prev (some id)
  let db ← db.setPrev (← db.lsas old).next (some id)
  let db ← db.setNext (some id) (← db.lsas old).next
  db.setPrev (some id) (← db.lsas old).prev

/-- `route_unlock_node` on the node a search ended at, if there is one. Returns its info. -/
def infoBeside (table : RouteTable LsaId) (node : Option NodeId) :
    Option (RouteTable LsaId × Option LsaId) :=
  match node with
  | none => some (table, none)
  | some node => do
    let found ← table.nodes node
    return (← table.routeUnlockNode node, found.info)

/-- `/* next link */` -/
def linkNext (current : NodeId) (id : LsaId) : Option Ospf6Lsdb := do
  let (table, node) ← besideInfo RouteTable.routeNext db.table current
  let (table, next) ← infoBeside table node
  let db ← { db with table }.setNext (some id) next
  db.setPrev next (some id)

/-- `/* prev link */` -/
def linkPrev (current : NodeId) (id : LsaId) : Option Ospf6Lsdb := do
  let (table, node) ← besideInfo routePrev db.table current
  let (table, prev) ← infoBeside table node
  let db ← { db with table }.setPrev (some id) prev
  db.setNext prev (some id)

def ospf6LsdbAdd (id : LsaId) : Option Ospf6Lsdb := do
  let lsa ← db.lsas id
  let (table, current) ← db.table.routeNodeGet lsa.key.lsdbKey
  let old := (← table.nodes current).info
  let table ← table.setInfo current (some id)
  let db ← { db with table }.ospf6LsaLock id
  match old with
  | some old =>
    let db ← db.relink old id
    db.ospf6LsaUnlock old
  | none =>
    let db ← db.linkNext current id
    let db ← db.linkPrev current id
    return { db with count := (db.count + 1) % 2 ^ 32 }

/-- `ospf6_lsdb_lookup`. The lock `route_node_lookup` takes is not given back. -/
def ospf6LsdbLookup (key : Ospf6LsaKey) : Option (Ospf6Lsdb × Option LsaId) := do
  let (table, found) ← db.table.routeNodeLookup key.lsdbKey
  match found with
  | none => return ({ db with table }, none)
  | some node => return ({ db with table }, (← table.nodes node).info)

/-- Where the head functions start: at the top, or where the walk for their key ends. -/
def headStart (scope : Scope) : Option (Option NodeId) :=
  match scope with
  | .all => some db.table.top
  | scope => walkDown db.table scope.key (scope.key.prefixlen + 2) db.table.top

/-- `ospf6_lsdb_head`, `ospf6_lsdb_type_head` and `ospf6_lsdb_type_router_head`; the key of the
first one includes every node. -/
def ospf6LsdbHead (scope : Scope) : Option (Ospf6Lsdb × Option LsaId) := do
  let start ← db.headStart scope
  let table ← lockStart db.table start
  let (table, node) ← skipBare RouteTable.routeNext (table.fresh + 1) table start
  match node with
  | none => return ({ db with table }, none)
  | some node =>
    let table ← table.routeUnlockNode node
    let found ← table.nodes node
    if prefixMatch scope.key found.p then
      let lsa ← found.info
      return (← { db with table }.ospf6LsaLock lsa, some lsa)
    else return ({ db with table }, none)

/-- `if (lsa) ospf6_lsa_lock (lsa);` -/
def lockNext : Option LsaId → Option Ospf6Lsdb
  | none => some db
  | some id => db.ospf6LsaLock id

/-- The next advertisement, unless the scope ends before it. -/
def nextWithin (scope : Scope) : Option LsaId → Option (Option LsaId)
  | none => some none
  | some next => do
    let lsa ← db.lsas next
    return if scope.Has lsa.key then some next else none

/-- `ospf6_lsdb_next`, which unlocks first, and `ospf6_lsdb_type_next` and
  `ospf6_lsdb_type_router_next`. -/
def ospf6LsdbNext (scope : Scope) (id : LsaId) : Option (Ospf6Lsdb × Option LsaId) := do
  let lsa ← db.lsas id
  match scope with
  | .all =>
    let db ← db.ospf6LsaUnlock id
    return (← db.lockNext lsa.next, lsa.next)
  | scope =>
    let next ← db.nextWithin scope lsa.next
    let db ← db.lockNext next
    return (← db.ospf6LsaUnlock id, next)

end

/-- An iteration from an advertisement on, with its body. Returns what it visits. -/
def iterateFrom (scope : Scope) (body : Ospf6Lsdb → LsaId → Option Ospf6Lsdb) :
    Nat → Ospf6Lsdb → Option LsaId → Option (Ospf6Lsdb × List LsaId)
  | 0, _, _ => none
  | _ + 1, db, none => some (db, [])
  | fuel + 1, db, some id => do
    let db ← body db id
    let (db, next) ← db.ospf6LsdbNext scope id
    let (db, visited) ← iterateFrom scope body fuel db next
    return (db, id :: visited)

variable (db : Ospf6Lsdb)

/-- `for (lsa = ospf6_lsdb_head (lsdb); lsa; lsa = ospf6_lsdb_next (lsa))` and the loops like it. -/
def iterate (scope : Scope) (body : Ospf6Lsdb → LsaId → Option Ospf6Lsdb) :
    Option (Ospf6Lsdb × List LsaId) := do
  let (db, first) ← db.ospf6LsdbHead scope
  iterateFrom scope body (db.fresh + 1) db first

/-- `_lsdb_count_assert`: the loop counts in an `int`, compared as `u_int32_t`. -/
def lsdbCountAssert : Option Ospf6Lsdb := do
  let (db, visited) ← db.iterate .all fun db _ => some db
  if visited.length % 2 ^ 32 = db.count then return db else none

/-- `assert (node && node->info == lsa)` -/
def assertFiled (table : RouteTable LsaId) (found : Option NodeId) (id : LsaId) :
    Option NodeId := do
  let node ← found
  if (← table.nodes node).info = some id then return node else none

/-- `ospf6_lsdb_remove`: of the locks on the node, it gives back the one `route_node_lookup`
  takes. -/
def ospf6LsdbRemove (id : LsaId) : Option Ospf6Lsdb := do
  let lsa ← db.lsas id
  let (table, found) ← db.table.routeNodeLookup lsa.key.lsdbKey
  let node ← assertFiled table found id
  let db := { db with table }
  let db ← db.setNext (← db.lsas id).prev (← db.lsas id).next
  let db ← db.setPrev (← db.lsas id).next (← db.lsas id).prev
  let table ← db.table.setInfo node none
  let db := { db with table, count := (db.count + (2 ^ 32 - 1)) % 2 ^ 32 }
  let db ← db.ospf6LsaUnlock id
  let table ← db.table.routeUnlockNode node
  { db with table }.lsdbCountAssert

/-- A loop body that removes some of the advertisements it is given. -/
def removing (removes : LsaId → Bool) (db : Ospf6Lsdb) (id : LsaId) : Option Ospf6Lsdb :=
  if removes id then db.ospf6LsdbRemove id else some db

def ospf6LsdbRemoveAll : Option (Ospf6Lsdb × List LsaId) :=
  db.iterate .all (removing fun _ => true)

/-- The advertisement is in the table. -/
def Stores (id : LsaId) : Prop :=
  ∃ place node, db.table.nodes place = some node ∧ node.info = some id

end Ospf6Lsdb

/-- What happens to a database. A new advertisement is not stored yet. -/
inductive Move where
  | create (key : Ospf6LsaKey)
  | add (id : LsaId)
  | remove (id : LsaId)
  | lookup (key : Ospf6LsaKey)
  | removeAll
  | iterate (scope : Scope) (removes : LsaId → Bool)

namespace Ospf6Lsdb

def create (db : Ospf6Lsdb) (key : Ospf6LsaKey) : Ospf6Lsdb :=
  { db with lsas := update db.lsas db.fresh (some { key }), fresh := db.fresh + 1 }

/-- Callers add advertisements that exist, and remove stored ones. -/
def permits (db : Ospf6Lsdb) : Move → Prop
  | .add id => db.lsas id ≠ none
  | .remove id => db.Stores id
  | .create _ | .lookup _ | .removeAll | .iterate _ _ => True

def move (db : Ospf6Lsdb) : Move → Option Ospf6Lsdb
  | .create key => some (db.create key)
  | .add id => db.ospf6LsdbAdd id
  | .remove id => db.ospf6LsdbRemove id
  | .lookup key => (db.ospf6LsdbLookup key).map Prod.fst
  | .removeAll => db.ospf6LsdbRemoveAll.map Prod.fst
  | .iterate scope removes => (db.iterate scope (removing removes)).map Prod.fst

/-- The databases that moves meeting a condition lead to. -/
inductive Reached (condition : Ospf6Lsdb → Move → Prop) : Ospf6Lsdb → Prop where
  | init : Reached condition {}
  | step {db after : Ospf6Lsdb} (earlier : Reached condition db) (move : Move)
      (permitted : db.permits move)
      (meets : condition db move) (ran : db.move move = some after) : Reached condition after

end Ospf6Lsdb
end Zebra.Ospf6d
