import Zebra.Ospfd.Ase

/-! Routes of ripd/ripd.c from their arrival to their end. The table is a function of the masked
destination that also counts the locks of its node; the glue nodes of the tree hold none. Zebra
takes RIP routes. -/
namespace Zebra.Ripd
open Ospfd (InAddr Dest applyMask ipMasklen)

def ripMetricInfinity : Nat := 16

/-- `ZEBRA_ROUTE_SYSTEM` to `ZEBRA_ROUTE_BGP`. -/
inductive RouteType where
  | system
  | kernel
  | connect
  | static
  | rip
  | ripng
  | ospf
  | ospf6
  | bgp
deriving DecidableEq

/-- `RIP_ROUTE_RTE` and so on. -/
inductive SubType where
  | rte
  | static
  | default
  | redistribute
  | interface
deriving DecidableEq

/-- `struct rip_info`. A timer is whether its thread is there. -/
structure RipInfo where
  type : RouteType
  subType : SubType
  metric : Nat
  tag : BitVec 16 := 0
  nexthop : InAddr := 0
  sender : InAddr := 0
  ifindex : Nat := 0
  fib : Bool := false
  changed : Bool := false
  tTimeout : Bool := false
  tGarbageCollect : Bool := false
  distance : Nat := 0
deriving DecidableEq

/-- `rip_route_rte`. -/
def RipInfo.ripRouteRte (rinfo : RipInfo) : Bool :=
  rinfo.type = .rip && rinfo.subType = .rte

/-- What `rip_zebra_ipv4_add` tells zebra of a route. -/
structure ZebraRip where
  nexthop : InAddr
  metric : Nat
  distance : Nat
deriving DecidableEq

/-- The locks of a node are an unsigned int in the source: this is about runs with fewer than 2 ^ 32
  on one. -/
structure Rip where
  info : Dest → Option RipInfo := fun _ => none
  lock : Dest → Nat := fun _ => 0
  zebra : Dest → Option ZebraRip := fun _ => none

namespace Rip
variable (rip : Rip) (p : Dest)

def setInfo (info : Option RipInfo) : Rip :=
  { rip with info := Function.update rip.info p info }

/-- `route_node_get`, or a `route_node_lookup` that finds a node. -/
def lockNode : Rip :=
  { rip with lock := Function.update rip.lock p (rip.lock p + 1) }

def routeUnlockNode : Rip :=
  { rip with lock := Function.update rip.lock p (rip.lock p - 1) }

def ripZebraIpv4Add (nexthop : InAddr) (metric distance : Nat) : Rip :=
  { rip with zebra := Function.update rip.zebra p (some ⟨nexthop, metric, distance⟩) }

/-- `rip_zebra_ipv4_delete`; zebra goes by the prefix and the type. -/
def ripZebraIpv4Delete : Rip :=
  { rip with zebra := Function.update rip.zebra p none }

end Rip

/-- `rip_timeout_update`. -/
def RipInfo.ripTimeoutUpdate (rinfo : RipInfo) : RipInfo :=
  if rinfo.metric ≠ ripMetricInfinity then { rinfo with tTimeout := true } else rinfo

def ntohs (value : BitVec 16) : BitVec 16 :=
  value.extractLsb' 0 8 ++ value.extractLsb' 8 8

/-- `rip_destination_check`. -/
def ripDestinationCheck (addr : InAddr) : Bool :=
  if addr &&& 0xff000000 = 0x7f000000 then false
  else if addr &&& 0xff000000 = 0 ∧ addr ≠ 0 then false
  else addr &&& 0x80000000 = 0 || addr &&& 0xc0000000 =
    0x80000000 || addr &&& 0xe0000000 = 0xc0000000

/-- `struct rte` as `rip_response_process` passes it on, with what the configuration and the
interfaces make of it. -/
structure Rte where
  addr : InAddr
  mask : InAddr
  nexthop : InAddr
  metric : BitVec 32
  /-- In network order. -/
  tag : BitVec 16
  sender : InAddr
  ifindex : Nat
  ifMetric : BitVec 32
  /-- `rip_incoming_filter` refuses it. -/
  filtered : Bool
  /-- The metric that `rip_offset_list_apply_in` sets, if there is a list for it. -/
  offset : Option (BitVec 32)
  /-- The addresses of the router, which `rip_nexthop_check` refuses. -/
  locals : List InAddr
  /-- `rip_distance_apply`. -/
  distance : Nat
  /-- Only valid destinations are passed on. -/
  valid : ripDestinationCheck (applyMask addr (ipMasklen mask)).addr = true

namespace Rte
variable (rte : Rte)

def dest : Dest := applyMask rte.addr (ipMasklen rte.mask)

/-- The metric after the costs of the network, infinity at most. -/
def cost : Nat :=
  min (rte.offset.getD (rte.metric + rte.ifMetric)).toNat ripMetricInfinity

def gateway : InAddr :=
  if rte.nexthop = 0 then rte.sender else rte.nexthop

/-- It passes the filters and the check of its next hop. -/
def accepted : Bool :=
  !rte.filtered && !rte.locals.contains rte.gateway

/-- The route for an entry of a destination that has none. -/
def route : RipInfo :=
  RipInfo.ripTimeoutUpdate
    { type := .rip, subType := .rte, metric := rte.cost, tag := ntohs rte.tag,
      nexthop := rte.gateway
      sender := rte.sender, ifindex := rte.ifindex, distance := rte.distance, changed :=
        true, fib := true }

variable (rinfo : RipInfo)

/-- What is taken over from an entry in any case. -/
def adopted : RipInfo :=
  { rinfo with
    metric := rte.cost, tag := ntohs rte.tag, sender := rte.sender, ifindex := rte.ifindex
    distance := rte.distance, changed := true }

/-- `rinfo` is a redistributed route or a static one, and in use. -/
def keepsOut : Bool :=
  (rinfo.type ≠ .rip || rinfo.subType = .static) && rinfo.metric ≠ ripMetricInfinity

/-- The same router has the route still: its timeout starts anew. -/
def refreshed : RipInfo :=
  if rinfo.sender = rte.sender then rinfo.ripTimeoutUpdate else rinfo

/-- The entry is to take the place of the route. -/
def replaces : Bool :=
  (rinfo.sender = rte.sender &&
    (rinfo.metric ≠ rte.cost || rinfo.tag ≠ rte.tag || rte.nexthop ≠ rinfo.nexthop)) ||
    rte.cost < rinfo.metric

end Rte

namespace Rip
section
variable (rip : Rip) (rte : Rte) (rinfo : RipInfo)

/-- A new route while the old one was about to be deleted. -/
def adoptGarbage : Rip :=
  if rte.cost < ripMetricInfinity then
    (rip.ripZebraIpv4Add rte.dest rte.gateway rte.cost rte.distance).setInfo rte.dest
      (some { rte.adopted rinfo with
        type := .rip, subType := .rte, tGarbageCollect := false, nexthop := rte.gateway, fib :=
          true }.ripTimeoutUpdate)
  else rip.setInfo rte.dest (some (rte.adopted rinfo))

/-- A new metric or next hop for a route in use, or its end. -/
def adoptLive : Rip :=
  let rip :=
    (rip.ripZebraIpv4Delete rte.dest).ripZebraIpv4Add rte.dest rte.gateway rte.cost rte.distance
  if rte.cost = ripMetricInfinity then
    (rip.ripZebraIpv4Delete rte.dest).setInfo rte.dest
      (some { rte.adopted rinfo with
        nexthop := rte.gateway, tGarbageCollect := true, tTimeout := false, fib := false })
  else rip.setInfo rte.dest
    (some { rte.adopted rinfo with nexthop := rte.gateway, fib := true }.ripTimeoutUpdate)

/-- What an entry makes of a route that may be replaced. -/
def rteUpdate : Rip :=
  if rte.replaces rinfo then
    if rinfo.metric = ripMetricInfinity then rip.adoptGarbage rte rinfo else rip.adoptLive rte rinfo
  else rip.setInfo rte.dest (some rinfo)

end

def ripRteProcess (rip : Rip) (rte : Rte) : Rip :=
  if rte.accepted then
    let rip := rip.lockNode rte.dest
    match rip.info rte.dest with
    | none =>
      if rte.cost ≠ ripMetricInfinity then
        (rip.setInfo rte.dest (some rte.route)).ripZebraIpv4Add rte.dest rte.gateway rte.cost
          rte.distance
      else rip
    | some rinfo =>
      if Rte.keepsOut rinfo then rip
      else (rip.rteUpdate rte (rte.refreshed rinfo)).routeUnlockNode rte.dest
  else rip

/-- `rip_timeout`, when the timer of the route runs out. -/
def ripTimeout (rip : Rip) (p : Dest) (rinfo : RipInfo) : Rip :=
  (rip.ripZebraIpv4Delete p).setInfo p
    (some { rinfo with
      tTimeout := false, tGarbageCollect := true, metric := ripMetricInfinity, fib :=
        false, changed := true })

/-- `rip_garbage_collect`. -/
def ripGarbageCollect (rip : Rip) (p : Dest) : Rip :=
  (rip.setInfo p none).routeUnlockNode p

end Rip

/-- What the callers redistribute: routes of other protocols and of interfaces, and RIP's own
static ones. -/
structure Source where
  type : RouteType
  subType : SubType
  foreign : type ≠ .rip ∨ subType = .static

/-- A route in use that is not given up for a redistributed one. -/
def refusesSource (source : Source) (rinfo : RipInfo) : Bool :=
  (rinfo.type = .connect && rinfo.subType = .interface && rinfo.metric ≠ ripMetricInfinity) ||
    (rinfo.type = .rip && rinfo.subType = .static &&
      (source.type ≠ .rip || source.subType ≠ .static))

/-- A redistributed route that is withdrawn. -/
def RipInfo.poisoned (rinfo : RipInfo) : RipInfo :=
  { rinfo with metric := ripMetricInfinity, tGarbageCollect := true, tTimeout := false,
               changed := true }

namespace Rip
section
variable (rip : Rip) (source : Source) (p : Dest) (ifindex : Nat) (nexthop : InAddr)

/-- The new route of `rip_redistribute_add`. -/
def insertSource : Rip :=
  rip.setInfo p (some {
    type := source.type, subType := source.subType, metric := 1, ifindex, nexthop
    fib := true, changed := true })

def ripRedistributeAdd : Rip :=
  if ripDestinationCheck p.addr then
    let rip := rip.lockNode p
    match rip.info p with
    | none => rip.insertSource source p ifindex nexthop
    | some rinfo =>
      if refusesSource source rinfo then rip.routeUnlockNode p
      else
        let rip := if rinfo.ripRouteRte then rip.ripZebraIpv4Delete p else rip
        ((rip.setInfo p none).routeUnlockNode p).insertSource source p ifindex nexthop
  else rip

end

/-- `rip_redistribute_delete`. A node is found when it has a route. -/
def ripRedistributeDelete (rip : Rip) (type : RouteType) (subType : SubType) (p : Dest)
    (ifindex : Nat) : Rip :=
  if ripDestinationCheck p.addr then
    match rip.info p with
    | none => rip
    | some rinfo =>
      let rip := rip.lockNode p
      if rinfo.type = type ∧ rinfo.subType = subType ∧
        rinfo.ifindex = ifindex then rip.setInfo p (some rinfo.poisoned)
      else rip
  else rip

/-- `rip_redistribute_withdraw`; the walk over the table gives back the locks it takes. -/
def ripRedistributeWithdraw (rip : Rip) (type : RouteType) : Rip :=
  { rip with
    info := fun p => (rip.info p).map fun rinfo =>
      if rinfo.type = type ∧ rinfo.subType ≠ .interface then rinfo.poisoned else rinfo }

/-- What `rip_if_down` does about one route. -/
def ripIfDown (rip : Rip) (ifindex : Nat) (p : Dest) : Rip :=
  match rip.info p with
  | none => rip
  | some rinfo =>
    if rinfo.ifindex = ifindex ∧ rinfo.ripRouteRte then
      (rip.ripZebraIpv4Delete p).ripRedistributeDelete rinfo.type rinfo.subType p rinfo.ifindex
    else if rinfo.ifindex = ifindex ∧ rinfo.type ≠ .static ∧ rinfo.type ≠ .system then
      rip.ripRedistributeDelete rinfo.type rinfo.subType p rinfo.ifindex
    else rip

end Rip
end Zebra.Ripd
