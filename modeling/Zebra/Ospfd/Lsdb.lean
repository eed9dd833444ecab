import Zebra.Base.Tally
import Zebra.Ospfd.Lsa

/-! The link state databases of ospfd/ospf_lsdb.c. Of the route tables below them the nodes that
only branch are left out. -/
namespace Zebra.Ospfd
open Base AList Option Function Nat

abbrev NbrId := Nat

inductive DbId where
  | as
  | area (area : AreaId)
  | dbSum (nbr : NbrId)
  | lsReq (nbr : NbrId)
  | lsRxmt (nbr : NbrId)
deriving DecidableEq

/-- A node with a prefix of 64 bits. -/
structure LsdbNode where
  lock : Nat
  info : Option LsaId
deriving DecidableEq

/-- `struct ospf_lsdb`. A counter that wrapped below zero is negative here. -/
structure Lsdb where
  nodes : Assoc LsaKey LsdbNode := ∅
  count : LsaType → Int := fun _ => 0
  countSelf : LsaType → Int := fun _ => 0
  total : Int := 0

namespace Lsdb

/-- `ospf_lsdb_lookup`, which gives back the lock it takes. -/
def lookup (lsdb : Lsdb) (key : LsaKey) : Option LsaId :=
  (lsdb.nodes.lookup key).bind LsdbNode.info

/-- The node that `route_node_get` returns, locked. -/
def routeNodeGet (lsdb : Lsdb) (key : LsaKey) : LsdbNode :=
  match lsdb.nodes.lookup key with
  | none => ⟨1, none⟩
  | some node => { node with lock := node.lock + 1 }

def setNode (lsdb : Lsdb) (key : LsaKey) (node : LsdbNode) : Lsdb :=
  { lsdb with nodes := lsdb.nodes.insert key node }

/-- `route_unlock_node`: the last lock takes the node with it. -/
def routeUnlockNode (lsdb : Lsdb) (key : LsaKey) (node : LsdbNode) : Lsdb :=
  if node.lock ≤ 1 then { lsdb with nodes := lsdb.nodes.erase key }
  else lsdb.setNode key { node with lock := node.lock - 1 }

/-- The counters, for one more or one less instance. -/
def counted (lsdb : Lsdb) (type : LsaType) (self : Bool) (amount : Int) : Lsdb :=
  { lsdb with
    count := Function.update lsdb.count type (lsdb.count type + amount)
    countSelf := if self then Function.update lsdb.countSelf type (lsdb.countSelf type + amount)
      else lsdb.countSelf
    total := lsdb.total + amount }

end Lsdb

/-- The instances and the databases they are in. `held` is what the others hold: the lists of
acknowledgements and updates to send, the MaxAge list, the refresh queue and whoever made
the instance. -/
structure Store where
  lsa : LsaId → OspfLsa
  lsdbs : Assoc DbId Lsdb := ∅
  held : LsaId → Int := fun _ => 0

namespace Store
variable (store : Store)
variable (db : DbId)

def lsdb : Lsdb :=
  (store.lsdbs.lookup db).getD {}

def setLsdb (lsdb : Lsdb) : Store :=
  { store with lsdbs := store.lsdbs.insert db lsdb }

section
variable (id : LsaId)

def modifyLsa (change : OspfLsa → OspfLsa) : Store :=
  { store with lsa := Function.update store.lsa id (change (store.lsa id)) }

/-- The lock of an instance, on behalf of a database. -/
def lockLsa (amount : Int) : Store :=
  store.modifyLsa id fun lsa => { lsa with lock := lsa.lock + amount }

/-- `ospf_lsa_lock` by another holder. -/
def ospfLsaLock : Store :=
  { store.lockLsa id 1 with held := Function.update store.held id (store.held id + 1) }

/-- `ospf_lsa_unlock` by another holder. -/
def ospfLsaUnlock : Store :=
  { store.lockLsa id (-1) with held := Function.update store.held id (store.held id - 1) }

def ospfLsdbAdd : Store :=
  let lsa := store.lsa id
  let lsdb := store.lsdb db
  let rn := lsdb.routeNodeGet lsa.key
  match rn.info with
  | none =>
    (store.setLsdb db
      ((lsdb.counted lsa.key.type lsa.self 1).setNode lsa.key ⟨rn.lock, some id⟩)).lockLsa id 1
  | some old =>
    -- the same object again: the lock of the node is not given back
    if old = id then store.setLsdb db (lsdb.setNode lsa.key rn)
    else ((store.lockLsa old (-1)).setLsdb db
      (lsdb.setNode lsa.key ⟨rn.lock - 1, some id⟩)).lockLsa id 1

/-- What is done with the node of an instance that goes. -/
def dropInfo (key : LsaKey) (node : LsdbNode) (id : LsaId) : Store :=
  (store.setLsdb db (((store.lsdb db).counted key.type (store.lsa id).self (-1)).routeUnlockNode key
    { node with info := none })).lockLsa id (-1)

def ospfLsdbDelete : Store :=
  let key := (store.lsa id).key
  match (store.lsdb db).nodes.lookup key with
  | none => store
  | some node =>
    match node.info with
    | none => store
    | some stored =>
      if stored = id then store.dropInfo db key node id
      -- the lock taken by the lookup stays
      else store.setLsdb db ((store.lsdb db).setNode key { node with lock := node.lock + 1 })

end

/-- One turn of the loop of `ospf_lsdb_delete_all`. -/
def deleteNode (store : Store) (key : LsaKey) : Store :=
  match (store.lsdb db).nodes.lookup key with
  | none => store
  | some node =>
    match node.info with
    | none => store
    | some id => store.dropInfo db key node id

def ospfLsdbDeleteAll : Store :=
  (store.lsdb db).nodes.keys.foldl (deleteNode db) store

end Store

def stored (_ : LsaKey) (node : LsdbNode) : Bool :=
  node.info.isSome

def storedOf (type : LsaType) (key : LsaKey) (node : LsdbNode) : Bool :=
  key.type = type && node.info.isSome

def storedSelf (lsa : LsaId → OspfLsa) (type : LsaType) (key : LsaKey) (node : LsdbNode) : Bool :=
  key.type = type && node.info.any fun id => (lsa id).self

namespace Lsdb

/-- The counters count what is stored, and each stored instance has the one lock of its node. -/
structure Accounted (lsa : LsaId → OspfLsa) (lsdb : Lsdb) : Prop where
  filed : ∀ key node, lsdb.nodes.lookup key = some node →
    node.lock = 1 ∧ ∃ id, node.info = some id ∧ (lsa id).key = key
  count : ∀ type, lsdb.count type = tally (storedOf type) lsdb.nodes
  countSelf : ∀ type, lsdb.countSelf type = tally (storedSelf lsa type) lsdb.nodes
  total : lsdb.total = tally stored lsdb.nodes

variable {lsa : LsaId → OspfLsa} {lsdb : Lsdb}

theorem counted_count (type other : LsaType) (self : Bool) (amount : Int) :
    (lsdb.counted type self amount).count other = lsdb.count other + if type = other then amount
    else 0 := by
  by_cases same : type = other
  · subst same
    simp [counted]
  · simp [counted, update_of_ne (Ne.symm same), same]

theorem counted_countSelf (type other : LsaType) (self : Bool) (amount : Int) :
    (lsdb.counted type self amount).countSelf other =
      lsdb.countSelf other + if type = other ∧ self = true then amount else 0 := by
  cases self with
  | false => simp [counted]
  | true =>
    by_cases same : type = other
    · subst same
      simp [counted]
    · simp [counted, update_of_ne (Ne.symm same), same]

theorem accounted_empty : Accounted lsa {} where
  filed := fun _ _ found => by cases found
  count := fun _ => rfl
  countSelf := fun _ => rfl
  total := rfl

section
variable (accounted : lsdb.Accounted lsa)
include accounted

/-- The marks and the keys of what is stored are all that counts. -/
theorem Accounted.congr {other}
    (same : ∀ key id, lsdb.lookup key = some id →
      (other id).key = (lsa id).key ∧ (other id).self = (lsa id).self) :
    lsdb.Accounted other := by
  have here (key : LsaKey) (node : LsdbNode) (id : LsaId)
      (found : lsdb.nodes.lookup key = some node)
      (info : node.info = some id) : lsdb.lookup key = some id := by
    rw [Lsdb.lookup, found]
    exact info
  refine ⟨fun key node found => ?_, accounted.count, fun type => ?_, accounted.total⟩
  · obtain ⟨lock, id, info, filed⟩ := accounted.filed key node found
    exact ⟨lock, id, info, (same key id (here key node id found info)).1.trans filed⟩
  · rw [accounted.countSelf]
    congr 1
    apply tally_congr
    intro key node found
    obtain ⟨-, id, info, -⟩ := accounted.filed key node found
    rw [storedSelf, storedSelf, info, any_some, any_some,
      (same key id (here key node id found info)).2]

theorem Accounted.lookup_eq {key id} (found : lsdb.lookup key = some id) :
    lsdb.nodes.lookup key = some ⟨1, some id⟩ ∧ (lsa id).key = key := by
  obtain ⟨node, here, info⟩ := bind_eq_some_iff.mp found
  obtain ⟨lock, filed, info', key_eq⟩ := accounted.filed key node here
  have same : filed = id := some.inj (info'.symm.trans info)
  subst same
  refine ⟨?_, key_eq⟩
  rw [here, ← lock, ← info]

theorem Accounted.lookup_none {key} (missing : lsdb.lookup key = none) :
    lsdb.nodes.lookup key = none := by
  cases here : lsdb.nodes.lookup key with
  | none => rfl
  | some node =>
    obtain ⟨-, id, info, -⟩ := accounted.filed key node here
    rw [Lsdb.lookup, here] at missing
    cases info.symm.trans missing

theorem Accounted.change {after : Lsdb} (key : LsaKey) (new : Option LsdbNode)
    (tallies : ∀ kind, tally kind after.nodes + share kind key (lsdb.nodes.lookup key) =
      tally kind lsdb.nodes + share kind key new)
    (filed : ∀ other node, after.nodes.lookup other = some node →
      node.lock = 1 ∧ ∃ id, node.info = some id ∧ (lsa id).key = other)
    (count : ∀ type, after.count type + share (storedOf type) key (lsdb.nodes.lookup key) =
      lsdb.count type + share (storedOf type) key new)
    (countSelf : ∀ type, after.countSelf type + share (storedSelf lsa type) key
      (lsdb.nodes.lookup key) =
      lsdb.countSelf type + share (storedSelf lsa type) key new)
    (total : after.total + share stored key (lsdb.nodes.lookup key) =
      lsdb.total + share stored key new) :
    after.Accounted lsa where
  filed := filed
  count := fun type => by
    have here := tallies (storedOf type)
    have counter := count type
    rw [accounted.count type] at counter
    omega
  countSelf := fun type => by
    have here := tallies (storedSelf lsa type)
    have counter := countSelf type
    rw [accounted.countSelf type] at counter
    omega
  total := by
    have here := tallies stored
    rw [accounted.total] at total
    omega

end

theorem share_storedOf (type : LsaType) (key : LsaKey) (lock : Nat) (id : LsaId) :
    share (storedOf type) key (some ⟨lock, some id⟩) = if key.type = type then 1 else 0 := by
  simp [share, storedOf]

theorem share_storedSelf (type : LsaType) (key : LsaKey) (lock : Nat) (id : LsaId) :
    share (storedSelf lsa type) key (some ⟨lock, some id⟩) = if key.type = type ∧
    (lsa id).self = true then 1 else 0 := by
  simp [share, storedSelf]

theorem share_stored (key : LsaKey) (lock : Nat) (id : LsaId) :
    share stored key (some ⟨lock, some id⟩) = 1 := rfl

section
variable (accounted : lsdb.Accounted lsa)
include accounted

theorem filed_insert (id : LsaId) (other : LsaKey) (node : LsdbNode)
    (found : (lsdb.nodes.insert (lsa id).key ⟨1, some id⟩).lookup other = some node) :
    node.lock = 1 ∧ ∃ id, node.info = some id ∧ (lsa id).key = other := by
  by_cases same : other = (lsa id).key
  · subst same
    rw [lookup_insert] at found
    cases found
    exact ⟨rfl, id, rfl, rfl⟩
  · rw [lookup_insert_ne same] at found
    exact accounted.filed other node found

theorem Accounted.enter {id : LsaId} (missing : lsdb.lookup (lsa id).key = none) :
    ((lsdb.counted (lsa id).key.type (lsa id).self 1).setNode (lsa id).key ⟨1, some id⟩).Accounted
      lsa := by
  have before : lsdb.nodes.lookup (lsa id).key = none := accounted.lookup_none missing
  refine accounted.change _ _ (fun kind => tally_insert kind ..)
    (filed_insert accounted id) ?_ ?_ ?_
  · intro type
    rw [before, share_storedOf, setNode, counted_count]
    split <;> simp
  · intro type
    rw [before, share_storedSelf, setNode, counted_countSelf]
    split <;> simp
  · rw [before, share_stored]
    simp [setNode, counted]

theorem Accounted.replace {id old : LsaId} (found : lsdb.lookup (lsa id).key = some old)
    (alike : (lsa old).self = (lsa id).self) :
    (lsdb.setNode (lsa id).key ⟨1, some id⟩).Accounted lsa := by
  have before := (accounted.lookup_eq found).1
  refine accounted.change _ _ (fun kind => tally_insert kind ..)
    (filed_insert accounted id) ?_ ?_ ?_
  · intro type
    rw [before, share_storedOf, share_storedOf]
    rfl
  · intro type
    rw [before, share_storedSelf, share_storedSelf, alike]
    rfl
  · rw [before]
    rfl

theorem Accounted.leave {key : LsaKey} {id} (found : lsdb.lookup key = some id) :
    ((lsdb.counted key.type (lsa id).self (-1)).routeUnlockNode key ⟨1, none⟩).Accounted lsa := by
  have before := (accounted.lookup_eq found).1
  refine accounted.change key none ?_ ?_ ?_ ?_ ?_
  · intro kind
    rw [tally_erase kind lsdb.nodes key]
    rfl
  · intro other node found
    by_cases same : other = key
    · subst same
      exact absurd found (by rw [routeUnlockNode, if_pos (le_refl 1), lookup_erase]; simp)
    · rw [routeUnlockNode, if_pos (le_refl 1), lookup_erase_ne same] at found
      exact accounted.filed other node found
  · intro type
    rw [before, share_storedOf, routeUnlockNode, if_pos (le_refl 1), counted_count, share_none]
    split <;> omega
  · intro type
    rw [before, share_storedSelf, routeUnlockNode, if_pos (le_refl 1),
      counted_countSelf, share_none]
    split <;> omega
  · rw [before, share_stored, routeUnlockNode, if_pos (le_refl 1), share_none]
    simp only [counted]
    omega

end

theorem lookup_setNode (lsdb : Lsdb) (key other : LsaKey) (node : LsdbNode) :
    (lsdb.setNode key node).lookup other = if other = key then node.info
    else lsdb.lookup other := by
  by_cases same : other = key
  · subst same
    rw [if_pos rfl, Lsdb.lookup, setNode, lookup_insert]
    rfl
  · rw [if_neg same, Lsdb.lookup, setNode, lookup_insert_ne same]
    rfl

theorem lookup_routeUnlockNode (lsdb : Lsdb) (key other : LsaKey) :
    (lsdb.routeUnlockNode key ⟨1, none⟩).lookup other = if other = key then none
    else lsdb.lookup other := by
  rw [routeUnlockNode, if_pos (le_refl 1), Lsdb.lookup]
  by_cases same : other = key
  · subst same
    rw [if_pos rfl, lookup_erase]
    rfl
  · rw [if_neg same, lookup_erase_ne same]
    rfl

/-- Whether the database has this very object. -/
def stores (lsa : LsaId → OspfLsa) (id : LsaId) (_ : DbId) (lsdb : Lsdb) : Bool :=
  lsdb.lookup (lsa id).key = some id

end Lsdb

namespace Store

/-- Every database counts right, and an instance has one lock for each database it is in on top of
what the others hold. -/
structure Accounted (store : Store) : Prop where
  lsdbs : ∀ db, (store.lsdb db).Accounted store.lsa
  locks : ∀ id, (store.lsa id).lock = store.held id + tally (Lsdb.stores store.lsa id) store.lsdbs

variable {store : Store}

section
variable (store : Store)

@[simp] theorem lsdb_setLsdb (db : DbId) (lsdb : Lsdb) :
    (store.setLsdb db lsdb).lsdb db = lsdb := by
  rw [Store.lsdb, setLsdb, lookup_insert]
  rfl

theorem lsdb_setLsdb_ne {db other} (lsdb : Lsdb) (apart : other ≠ db) :
    (store.setLsdb db lsdb).lsdb other = store.lsdb other := by
  rw [Store.lsdb, setLsdb, lookup_insert_ne apart]
  rfl

theorem share_stores (db : DbId) (id : LsaId) :
    share (Lsdb.stores store.lsa id) db (store.lsdbs.lookup db) =
      share (Lsdb.stores store.lsa id) db (some (store.lsdb db)) := by
  rw [Store.lsdb]
  cases store.lsdbs.lookup db with
  | none => rfl
  | some lsdb => rfl

theorem modifyLsa_self (id : LsaId) (change : OspfLsa → OspfLsa) :
    (store.modifyLsa id change).lsa id = change (store.lsa id) :=
  update_self ..

theorem modifyLsa_of_ne {id other} (change : OspfLsa → OspfLsa) (apart : other ≠ id) :
    (store.modifyLsa id change).lsa other = store.lsa other :=
  update_of_ne apart ..

theorem lockLsa_same (id : LsaId) (amount : Int) (other : LsaId) :
    ((store.lockLsa id amount).lsa other).key = (store.lsa other).key ∧
      ((store.lockLsa id amount).lsa other).self = (store.lsa other).self := by
  rw [lockLsa]
  by_cases same : other = id
  · subst same
    rw [modifyLsa_self]
    exact ⟨rfl, rfl⟩
  · rw [modifyLsa_of_ne store _ same]
    exact ⟨rfl, rfl⟩

theorem lockLsa_lock (id : LsaId) (amount : Int) (other : LsaId) :
    ((store.lockLsa id amount).lsa other).lock = (store.lsa other).lock + if other = id then amount
    else 0 := by
  rw [lockLsa]
  by_cases same : other = id
  · subst same
    rw [modifyLsa_self, if_pos rfl]
  · rw [modifyLsa_of_ne store _ same, if_neg same, Int.add_zero]

end

theorem Accounted.place (accounted : store.Accounted) {db lsdb lsa}
    (same : ∀ id, (lsa id).key = (store.lsa id).key ∧ (lsa id).self = (store.lsa id).self)
    (here : lsdb.Accounted store.lsa)
    (locks : ∀ id, (lsa id).lock + share (Lsdb.stores store.lsa id) db (some (store.lsdb db)) =
      (store.lsa id).lock + share (Lsdb.stores store.lsa id) db (some lsdb)) :
    ({ store with lsa := lsa, lsdbs := store.lsdbs.insert db lsdb } : Store).Accounted where
  lsdbs := fun other => by
    refine Lsdb.Accounted.congr ?_ fun _ id _ => same id
    by_cases at_db : other = db
    · subst at_db
      exact (lsdb_setLsdb store other lsdb).symm ▸ here
    · exact (lsdb_setLsdb_ne store lsdb at_db).symm ▸ accounted.lsdbs other
  locks := fun id => by
    have moved := tally_insert (Lsdb.stores store.lsa id) store.lsdbs db lsdb
    have kinds : tally (Lsdb.stores lsa id) (store.lsdbs.insert db lsdb) =
        tally (Lsdb.stores store.lsa id) (store.lsdbs.insert db lsdb) :=
      tally_congr fun _ _ _ => by rw [Lsdb.stores, Lsdb.stores, (same id).1]
    have lock := locks id
    rw [share_stores] at moved
    rw [accounted.locks id] at lock
    dsimp only
    rw [kinds]
    omega

/-- What a database adds to the locks of an instance, by what it has under the key. -/
theorem share_stores_of {lsa id lsdb found} (db : DbId) (here : lsdb.lookup (lsa id).key = found) :
    share (Lsdb.stores lsa id) db (some lsdb) = if found = some id then 1 else 0 := by
  simp [share, Lsdb.stores, here]

section
variable (accounted : store.Accounted)
include accounted

/-- The node is found as it was left, so its lock is one before and after. -/
theorem Accounted.routeNodeGet (db : DbId) (key : LsaKey) :
    (store.lsdb db).routeNodeGet key = match (store.lsdb db).lookup key with
      | none => ⟨1, none⟩
      | some id => ⟨2, some id⟩ := by
  rw [Lsdb.routeNodeGet]
  cases found : (store.lsdb db).lookup key with
  | none => rw [(accounted.lsdbs db).lookup_none found]
  | some id => rw [((accounted.lsdbs db).lookup_eq found).1]

/-- An addition that does not find the same object, nor another one with another mark. -/
def AddsApart (store : Store) (db : DbId) (id : LsaId) : Prop :=
  ∀ old ∈ (store.lsdb db).lookup (store.lsa id).key, old ≠ id ∧
    (store.lsa old).self = (store.lsa id).self

theorem Accounted.placeAt {db lsdb lsa} (key : LsaKey)
    (same : ∀ id, (lsa id).key = (store.lsa id).key ∧ (lsa id).self = (store.lsa id).self)
    (here : lsdb.Accounted store.lsa)
    (elsewhere : ∀ other, other ≠ key → lsdb.lookup other = (store.lsdb db).lookup other)
    (locks : ∀ id,
      (lsa id).lock + ((if (store.lsdb db).lookup key = some id then 1 else 0 : Nat) : Int) =
      (store.lsa id).lock + ((if lsdb.lookup key = some id then 1 else 0 : Nat) : Int)) :
    ({ store with lsa := lsa, lsdbs := store.lsdbs.insert db lsdb } : Store).Accounted := by
  refine accounted.place same here ?_
  intro id
  have lock := locks id
  by_cases key_eq : (store.lsa id).key = key
  · rw [share_stores_of db rfl, share_stores_of db rfl, key_eq]
    exact lock
  · have before : (store.lsdb db).lookup key ≠ some id := fun found =>
      key_eq ((accounted.lsdbs db).lookup_eq found).2
    have after : lsdb.lookup key ≠ some id := fun found => key_eq (here.lookup_eq found).2
    rw [if_neg before, if_neg after] at lock
    rw [share_stores_of db (elsewhere _ key_eq), share_stores_of db rfl]
    omega

theorem Accounted.ospfLsdbAdd {db id} (apart : store.AddsApart db id) :
    (store.ospfLsdbAdd db id).Accounted := by
  have node := accounted.routeNodeGet db (store.lsa id).key
  rw [Store.ospfLsdbAdd]
  cases found : (store.lsdb db).lookup (store.lsa id).key with
  | none =>
    rw [found] at node
    rw [node]
    refine @placeAt store accounted db _ (store.lockLsa id 1).lsa (store.lsa id).key
      (lockLsa_same store id 1)
      ((accounted.lsdbs db).enter found) ?_ ?_
    · intro other apart
      exact (Lsdb.lookup_setNode ..).trans (if_neg apart)
    · intro other
      rw [lockLsa_lock, found, Lsdb.lookup_setNode]
      by_cases same : other = id
      · simp [same]
      · simp [same, Ne.symm same]
  | some old =>
    rw [found] at node
    obtain ⟨other_object, alike⟩ := apart old found
    rw [node]
    dsimp only
    rw [if_neg other_object]
    refine @placeAt store accounted db _ ((store.lockLsa old (-1)).lockLsa id 1).lsa
      (store.lsa id).key ?_
      ((accounted.lsdbs db).replace found alike) ?_ ?_
    · intro other
      have first := lockLsa_same store old (-1) other
      have second := lockLsa_same (store.lockLsa old (-1)) id 1 other
      exact ⟨second.1.trans first.1, second.2.trans first.2⟩
    · intro other apart
      exact (Lsdb.lookup_setNode ..).trans (if_neg apart)
    · intro other
      rw [lockLsa_lock, lockLsa_lock, found, Lsdb.lookup_setNode, if_pos rfl]
      by_cases new : other = id
      · simp [new, other_object, Ne.symm other_object]
      · by_cases gone : other = old
        · have absent : ¬({ lock := 2 - 1, info := some id } : LsdbNode).info = some other :=
            fun equal => new (some.inj equal).symm
          rw [if_pos gone, if_neg new, if_pos (congrArg some gone.symm), if_neg absent]
          omega
        · simp [new, gone, Ne.symm new, Ne.symm gone]

/-- A deletion that does not find another object. -/
def DeletesSame (store : Store) (db : DbId) (id : LsaId) : Prop :=
  ∀ stored ∈ (store.lsdb db).lookup (store.lsa id).key, stored = id

theorem Accounted.dropInfo {db key id}
    (found : (store.lsdb db).lookup key = some id) :
    (store.dropInfo db key ⟨1, some id⟩ id).Accounted := by
  refine @placeAt store accounted db _ (store.lockLsa id (-1)).lsa key (lockLsa_same store id (-1))
    ((accounted.lsdbs db).leave found) ?_ ?_
  · intro other apart
    exact (Lsdb.lookup_routeUnlockNode ..).trans (if_neg apart)
  · intro other
    rw [lockLsa_lock, found, Lsdb.lookup_routeUnlockNode, if_pos rfl]
    by_cases same : other = id
    · rw [if_pos same, if_pos (congrArg some same.symm), if_neg (some_ne_none other).symm]
      omega
    · simp [same, Ne.symm same]

theorem Accounted.ospfLsdbDelete {db id} (same : store.DeletesSame db id) :
    (store.ospfLsdbDelete db id).Accounted := by
  rw [Store.ospfLsdbDelete]
  cases found : (store.lsdb db).lookup (store.lsa id).key with
  | none =>
    rw [(accounted.lsdbs db).lookup_none found]
    exact accounted
  | some stored =>
    have here := same stored found
    subst here
    rw [((accounted.lsdbs db).lookup_eq found).1]
    dsimp only
    rw [if_pos rfl]
    exact accounted.dropInfo found

theorem Accounted.deleteNode (db : DbId) (key : LsaKey) : (store.deleteNode db key).Accounted := by
  rw [Store.deleteNode]
  cases found : (store.lsdb db).lookup key with
  | none =>
    rw [(accounted.lsdbs db).lookup_none found]
    exact accounted
  | some id =>
    rw [((accounted.lsdbs db).lookup_eq found).1]
    exact accounted.dropInfo found

theorem Accounted.ospfLsdbDeleteAll (db : DbId) : (store.ospfLsdbDeleteAll db).Accounted := by
  rw [Store.ospfLsdbDeleteAll]
  generalize (store.lsdb db).nodes.keys = keys
  induction keys generalizing store with
  | nil => exact accounted
  | cons key rest ih => exact ih (accounted.deleteNode db key)

end
end Store
end Zebra.Ospfd
