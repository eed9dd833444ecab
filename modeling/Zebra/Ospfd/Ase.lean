import Mathlib.Data.List.Sort
import Zebra.Base.Reader
import Zebra.Ospfd.Lsa

/-! AS external routes of ospfd/ospf_ase.c, and what they use of ospfd/ospf_route.c. Route tables
are functions of the destination; the interface of a path stands for its index. -/
namespace Zebra.Ospfd
open Base

def ospfLsInfinity : Nat := 0xffffff

/-- How often an octet is shifted left until nothing is left of it. -/
def shiftsOf : Nat → Octet → Nat
  | 0, _ => 0
  | fuel + 1, val => if val = 0 then 0 else 1 + shiftsOf fuel (val <<< 1)

def ipMasklen (netmask : InAddr) : Nat :=
  let octets := toOctets 4 netmask.toNat
  let full := (octets.takeWhile (· = 0xff)).length
  8 * full + shiftsOf 8 (octets.getD full 0)

def masklen2ip (masklen : Nat) : InAddr :=
  BitVec.allOnes 32 <<< (32 - masklen)

/-- `struct prefix_ipv4` with the host bits cleared: what finds a node of a table. -/
structure Dest where
  addr : InAddr
  prefixlen : Nat
deriving DecidableEq

/-- `apply_mask_ipv4`. -/
def applyMask (addr : InAddr) (prefixlen : Nat) : Dest :=
  ⟨addr &&& masklen2ip prefixlen, prefixlen⟩

/-- `struct as_external_lsa` behind the header, without the entries for other types of service. -/
structure AsExternal where
  mask : InAddr
  external : Bool
  metric : Nat
  fwdAddr : InAddr
  routeTag : BitVec 32
deriving DecidableEq

def OspfLsa.asExternal (lsa : OspfLsa) : AsExternal where
  mask := field lsa.body 0 4
  external := 0x80 &&& lsa.body.getD 4 0 ≠ 0
  metric := (field lsa.body 5 3).toNat
  fwdAddr := field lsa.body 8 4
  routeTag := field lsa.body 12 4

/-- The destination of an AS-external-LSA. -/
def OspfLsa.dest (lsa : OspfLsa) : Dest :=
  applyMask lsa.key.id (ipMasklen lsa.asExternal.mask)

/-- What is changed in place. -/
def OspfLsa.aged (lsa : OspfLsa) (lsAge : BitVec 16) (tvRecv : Time) (self : Bool) : OspfLsa :=
  { lsa with data := { lsa.data with lsAge := lsAge }, tvRecv, self }

/-- `ospf_lsa_different`. -/
def ospfLsaDifferent (now : Time) (l1 l2 : OspfLsa) : Bool :=
  l1.data.options ≠ l2.data.options || l1.isMaxage now ≠ l2.isMaxage now || l1.data.length ≠
    l2.data.length || l1.data.length = 0 ||
    l1.body ≠ l2.body

/-- `OSPF_PATH_INTRA_AREA` and so on, in the order of preference. -/
inductive PathType where
  | intraArea
  | interArea
  | type1External
  | type2External
deriving DecidableEq

def PathType.code : PathType → Int
  | .intraArea => 1
  | .interArea => 2
  | .type1External => 3
  | .type2External => 4

/-- `struct ospf_path`. Its `adv_router` is never set. -/
structure OspfPath where
  nexthop : InAddr
  oi : Option Nat
deriving DecidableEq

/-- `struct ospf_route` of an internal destination, a network or a router. -/
structure OspfRoute where
  pathType : PathType
  cost : BitVec 32
  areaId : InAddr := 0
  asbr : Bool := false
  path : List OspfPath := []
deriving DecidableEq

/-- `struct ospf_route` of an external destination. -/
structure ExtRoute where
  id : InAddr
  mask : InAddr
  pathType : PathType
  cost : BitVec 32
  type2Cost : BitVec 32 := 0
  origin : LsaId
  tag : BitVec 32
  asbr : OspfRoute
  path : List OspfPath := []
deriving DecidableEq

abbrev ExtTable := Dest → Option ExtRoute

structure AddressOf where
  address : InAddr
  up : Bool := true
  virtualLink : Bool := false
deriving DecidableEq

/-- The outcome of the last SPF calculation, and the configuration that is looked at. -/
structure Internal where
  rfc1583Compatible : Bool := false
  newTable : Dest → Option OspfRoute := fun _ => none
  newRtrs : InAddr → Option (List OspfRoute) := fun _ => none
  oiflist : List AddressOf := []

namespace Internal

/-- The better of two routes to an ASBR. -/
def asbrBest (best : Option OspfRoute) (route : OspfRoute) : Option OspfRoute :=
  if ospfLsInfinity ≤ route.cost.toNat then best
  else
    match best with
    | none => some route
    | some old => if route.cost < old.cost ∨ old.cost = route.cost ∧
      old.areaId < route.areaId then some route else some old

variable (internal : Internal)

def ospfFindAsbrRoute (asbr : InAddr) : Option OspfRoute :=
  (internal.newRtrs asbr).bind fun info =>
    let chosen :=
      if internal.rfc1583Compatible then []
      else info.filter fun route => route.cost.toNat < ospfLsInfinity && route.areaId ≠ 0 &&
        route.pathType = .intraArea
    (if chosen = [] then info else chosen).foldl asbrBest none

/-- `ospf_ase_forward_address_check`: the address is not ours. -/
def forwardAddressCheck (fwdAddr : InAddr) : Bool :=
  internal.oiflist.all fun oi => !(oi.up && !oi.virtualLink && oi.address = fwdAddr)

/-- `route_node_match` of an address: the longest prefix with a route. -/
def routeNodeMatch (addr : InAddr) : Option OspfRoute :=
  (List.range 33).reverse.findSome? fun prefixlen => internal.newTable (applyMask addr prefixlen)

/-- Steps (1) to (3) of `ospf_ase_calculate_route`: the route to the ASBR or to the forwarding
  address. -/
def asbrRoute (now : Time) (lsa : OspfLsa) : Option OspfRoute :=
  if ospfLsInfinity ≤ lsa.asExternal.metric then none
  else if lsa.isMaxage now then none
  else if lsa.self then none
  else
    (internal.ospfFindAsbrRoute lsa.key.advRouter).bind fun route =>
      if route.asbr = false then none
      else if lsa.asExternal.fwdAddr = 0 then some route
      else if internal.forwardAddressCheck lsa.asExternal.fwdAddr = false then none
      else internal.routeNodeMatch lsa.asExternal.fwdAddr

end Internal

/-- `ospf_ase_calculate_new_route`. -/
def ospfAseCalculateNewRoute (id : LsaId) (lsa : OspfLsa) (asbr : OspfRoute) : ExtRoute :=
  let al := lsa.asExternal
  if al.external then
    { id := lsa.key.id, mask := al.mask, pathType := .type2External, cost := asbr.cost,
      type2Cost := BitVec.ofNat 32 al.metric
      origin := id, tag := al.routeTag, asbr }
  else
    { id := lsa.key.id, mask := al.mask, pathType := .type1External,
      cost := asbr.cost + BitVec.ofNat 32 al.metric
      origin := id, tag := al.routeTag, asbr }

/-- How 16.4.1 ranks a path to an ASBR. -/
def OspfRoute.asbrType (route : OspfRoute) : PathType :=
  if route.areaId = 0 then .interArea else route.pathType

def ospfAsbrRouteCmp (compatible : Bool) (r1 r2 : OspfRoute) : Int :=
  if compatible then 0 else r1.asbrType.code - r2.asbrType.code

/-- `ospf_route_cmp`: negative when the first is better. Costs are subtracted as they are. -/
def ospfRouteCmp (compatible : Bool) (r1 r2 : ExtRoute) : Int :=
  if r1.pathType ≠ r2.pathType then r1.pathType.code - r2.pathType.code
  else if r1.pathType = .type2External ∧ r1.type2Cost ≠ r2.type2Cost then
    (r1.type2Cost - r2.type2Cost).toInt
  else if ospfAsbrRouteCmp compatible r1.asbr r2.asbr ≠ 0 then
    ospfAsbrRouteCmp compatible r1.asbr r2.asbr
  else (r1.cost - r2.cost).toInt

/-- `ospf_path_lookup` and `ospf_path_dup`: a path with the same next hop counts as there. -/
def addPath (paths : List OspfPath) (path : OspfPath) : List OspfPath :=
  if paths.any fun op => op.nexthop = path.nexthop then paths else paths ++ [path]

def ospfRouteCopyNexthops (target source : List OspfPath) : List OspfPath :=
  source.foldl addPath target

/-- `ospf_ase_complete_direct_routes`, when there is a forwarding address. -/
def completeDirectRoutes (fwdAddr : InAddr) (paths : List OspfPath) : List OspfPath :=
  if fwdAddr = 0 then paths
    else paths.map fun op => if op.nexthop = 0 then { op with nexthop := fwdAddr } else op

/-- Step (6) of `ospf_ase_calculate_route`: the entry of the destination. The route to the ASBR is
set whichever route is better. -/
def installPath (compatible : Bool) (entry : Option ExtRoute) (new : ExtRoute) (fwdAddr : InAddr) :
    ExtRoute :=
  let fresh :=
    { new with path := completeDirectRoutes fwdAddr (ospfRouteCopyNexthops [] new.asbr.path) }
  match entry with
  | none => fresh
  | some route =>
    let ret := ospfRouteCmp compatible new route
    if ret < 0 then fresh
    else if 0 < ret then { route with asbr := new.asbr }
    else { route with asbr := new.asbr, path := completeDirectRoutes fwdAddr
                        (ospfRouteCopyNexthops route.path new.asbr.path) }

/-- `ospf_ase_route_match_same`. -/
def ospfAseRouteMatchSame (old : Option ExtRoute) (new : ExtRoute) : Bool :=
  old.any fun route => route.pathType = new.pathType && route.cost = new.cost &&
    (route.pathType ≠ .type2External || route.type2Cost = new.type2Cost) &&
    route.path.map OspfPath.nexthop = new.path.map OspfPath.nexthop

inductive ZebraNexthop where
  | ipv4 (addr : InAddr)
  | ifindex (oi : Option Nat)
deriving DecidableEq

structure ZebraRoute where
  metric : BitVec 32
  nexthops : List ZebraNexthop
deriving DecidableEq

inductive ZebraMessage where
  | add (route : ZebraRoute)
  | delete
deriving DecidableEq

def OspfPath.zebraNexthop (path : OspfPath) : ZebraNexthop :=
  if path.nexthop ≠ 0 then .ipv4 path.nexthop else .ifindex path.oi

/-- What `ospf_zebra_add` sends of an external route. -/
def ExtRoute.zebraRoute (route : ExtRoute) : ZebraRoute where
  metric := if route.pathType = .type1External then route.cost + route.type2Cost
    else route.type2Cost
  nexthops := route.path.map OspfPath.zebraNexthop

/-- `ospf_ase_compare_tables`: the message about each destination. -/
def ospfAseCompareTables (new old : ExtTable) (p : Dest) : Option ZebraMessage :=
  match new p with
  | none => if (old p).isSome then some .delete else none
  | some route => if ospfAseRouteMatchSame (old p) route then none else some (.add route.zebraRoute)

/-- What zebra has after the messages. -/
def heard (zebra : Dest → Option ZebraRoute) (sent : Dest → Option ZebraMessage) (p : Dest) :
    Option ZebraRoute :=
  match sent p with
  | none => zebra p
  | some .delete => none
  | some (.add route) => some route

/-- `struct ospf`. `lsdb` holds the AS-external-LSAs in the order of their keys, and `externalLsas`
the lists of those for each destination. -/
structure AseState where
  now : Time := 0
  lsa : LsaId → OspfLsa
  next : LsaId := 0
  lsdb : List LsaId := []
  externalLsas : Dest → Option (List LsaId) := fun _ => none
  internal : Option Internal := none
  newExternalRoute : ExtTable := fun _ => none
  oldExternalRoute : ExtTable := fun _ => none
  aseCalc : Bool := false
  zebra : Dest → Option ZebraRoute := fun _ => none

namespace AseState

def asbrRoute (s : AseState) (id : LsaId) : Option OspfRoute :=
  s.internal.bind fun internal => internal.asbrRoute s.now (s.lsa id)

section
variable (s : AseState)

/-- `RFC1583Compatibility`. -/
def compatible : Bool :=
  s.internal.any Internal.rfc1583Compatible

/-- An intra-area or inter-area route to the destination. -/
def internalRoute (p : Dest) : Option OspfRoute :=
  s.internal.bind fun internal => internal.newTable p

def ospfAseCalculateRoute (new : ExtTable) (id : LsaId) : ExtTable :=
  match s.asbrRoute id with
  | none => new
  | some asbr =>
    let lsa := s.lsa id
    if (s.internalRoute lsa.dest).isSome then new
    else
      Function.update new lsa.dest
        (some (installPath s.compatible (new lsa.dest)
          (ospfAseCalculateNewRoute id lsa asbr) lsa.asExternal.fwdAddr))

/-- `ospf_ase_calculate_timer`, when a calculation is due. -/
def aseCalculate : AseState :=
  let new := s.lsdb.foldl s.ospfAseCalculateRoute s.newExternalRoute
  { s with
    aseCalc := false
    oldExternalRoute := new
    newExternalRoute := fun _ => none
    zebra := heard s.zebra (ospfAseCompareTables new s.oldExternalRoute) }

def ospfAseCalculateTimer : AseState :=
  if s.aseCalc then s.aseCalculate else s

def ospfAseIncrementalUpdate (id : LsaId) : AseState :=
  let p := (s.lsa id).dest
  if s.internal.isNone then s
  else if (s.internalRoute p).isSome then s
  else
    let new := ((s.externalLsas p).getD []).foldl s.ospfAseCalculateRoute s.newExternalRoute
    let tmpOld := Function.update (fun _ => none) p (s.oldExternalRoute p)
    { s with
      oldExternalRoute := Function.update s.oldExternalRoute p (new p)
      newExternalRoute := Function.update new p none
      zebra := heard s.zebra (ospfAseCompareTables new tmpOld) }

def ospfAseRegisterExternalLsa (id : LsaId) : AseState :=
  let p := (s.lsa id).dest
  { s with externalLsas := Function.update s.externalLsas p
             (some ((s.externalLsas p).getD [] ++ [id])) }

def ospfAseUnregisterExternalLsa (id : LsaId) : AseState :=
  let p := (s.lsa id).dest
  { s with externalLsas := Function.update s.externalLsas p ((s.externalLsas p).map (·.erase id)) }

/-- The order of the keys in the table of a database. -/
def before (first second : LsaId) : Prop :=
  (s.lsa first).key.id < (s.lsa second).key.id ∨
    (s.lsa first).key.id = (s.lsa second).key.id ∧
      (s.lsa first).key.advRouter ≤ (s.lsa second).key.advRouter

end

instance (s : AseState) : DecidableRel s.before :=
  fun _ _ => inferInstanceAs (Decidable (_ ∨ _ ∧ _))

variable (s : AseState)

/-- `ospf_lsdb_lookup`. -/
def lookup (key : LsaKey) : Option LsaId :=
  s.lsdb.find? fun id => (s.lsa id).key = key

/-- `ospf_lsdb_add`, in the place of an instance with the same key. -/
def ospfLsdbAdd (id : LsaId) : AseState :=
  { s with lsdb := (s.lsdb.filter fun found => (s.lsa found).key ≠ (s.lsa id).key).orderedInsert
             s.before id }

def ospfLsdbDelete (id : LsaId) : AseState :=
  { s with lsdb := s.lsdb.erase id }

/-- What `ospf_discard_from_db` does here. -/
def ospfDiscardFromDb (key : LsaKey) : AseState :=
  match s.lookup key with
  | none => s
  | some old => s.ospfAseUnregisterExternalLsa old

/-- A new instance. -/
def alloc (lsa : OspfLsa) : AseState :=
  { s with lsa := Function.update s.lsa s.next lsa, next := s.next + 1 }

/-- `ospf_lsa_install` up to the calculation of routes. -/
def enter (lsa : OspfLsa) : AseState :=
  (((s.alloc lsa).ospfDiscardFromDb lsa.key).ospfLsdbAdd s.next).ospfAseRegisterExternalLsa s.next

/-- `rt_recalc`, for an instance that is not our own. -/
def recalculates (lsa : OspfLsa) : Bool :=
  !lsa.self && (s.lookup lsa.key).all fun old => ospfLsaDifferent s.now (s.lsa old) lsa

end AseState

/-- Installing an instance, one turn of the walker, the removal of an instance, and what happens
  besides. -/
inductive AseOp where
  | install (lsa : OspfLsa)
  | walk (id : LsaId)
  | remove (id : LsaId)
  | age (id : LsaId) (lsAge : BitVec 16) (tvRecv : Time) (self : Bool)
  | tick (seconds : Nat)
  | spf (internal : Internal)
  | timer

namespace AseState

/-- The LSA whose destination an operation recalculates. -/
def recalculated (s : AseState) : AseOp → Option LsaId
  | .install lsa => if s.recalculates lsa then some s.next else none
  | .walk id => if (s.lsa id).isMaxage s.now ∧ (s.lsa id).self = false then some id else none
  | _ => none

/-- An operation up to the recalculation of a destination. -/
def prepared (s : AseState) : AseOp → AseState
  | .install lsa => s.enter lsa
  | .walk _ => s
  | .remove id => (s.ospfDiscardFromDb (s.lsa id).key).ospfLsdbDelete id
  | .age id lsAge tvRecv self =>
    { s with lsa := Function.update s.lsa id ((s.lsa id).aged lsAge tvRecv self) }
  | .tick seconds => { s with now := s.now + seconds }
  | .spf internal => { s with internal := some internal, aseCalc := true }
  | .timer => s.ospfAseCalculateTimer

def step (s : AseState) (op : AseOp) : AseState :=
  match s.recalculated op with
  | none => s.prepared op
  | some id => (s.prepared op).ospfAseIncrementalUpdate id

/-- The walker and the remover come to instances of the database. -/
def Allowed (s : AseState) : AseOp → Prop
  | .walk id | .remove id => id ∈ s.lsdb
  | _ => True

end AseState
end Zebra.Ospfd
