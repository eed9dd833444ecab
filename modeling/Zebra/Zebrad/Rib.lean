import Mathlib.Logic.Function.Basic
import Zebra.Base.Octets

/-! The IPv4 unicast RIB of zebra/zebra_rib.c. A node without ribs is one whose `info` is NULL. -/
namespace Zebra.Zebrad
open Base Function BitVec

abbrev InAddr := BitVec 32

structure PrefixIpv4 where
  addr : InAddr
  prefixlen : Fin 33
deriving DecidableEq

instance prefixlen_neZero : @NeZero Nat .ofOfNat0 33 := ⟨by decide⟩

def netmask (prefixlen : Fin 33) : InAddr :=
  BitVec.allOnes 32 <<< (32 - prefixlen.val)

def applyMaskIpv4 (p : PrefixIpv4) : PrefixIpv4 :=
  { p with addr := p.addr &&& netmask p.prefixlen }

theorem applyMaskIpv4_idem (p : PrefixIpv4) :
    applyMaskIpv4 (applyMaskIpv4 p) = applyMaskIpv4 p := by
  rw [applyMaskIpv4, applyMaskIpv4, BitVec.and_assoc, BitVec.and_self]

def routeKernel : Octet := 1
def routeConnect : Octet := 2
def routeStatic : Octet := 3
def routeBgp : Octet := 8
def distanceInfinity : Octet := 255

/-- `ZEBRA_FLAG_*`. -/
inductive ZebraFlag where
  | internal
  | selfroute
  | blackhole
  | ibgp
  | selected
  | changed
deriving DecidableEq

def ZebraFlag.bit : ZebraFlag → Nat
  | .internal => 0
  | .selfroute => 1
  | .blackhole => 2
  | .ibgp => 3
  | .selected => 4
  | .changed => 5

/-- The nexthop types that IPv4 routes get. -/
inductive NexthopType where
  | ifindex
  | ifname
  | ipv4
  | ipv4Ifindex
  | blackhole
deriving DecidableEq

/-- `struct nexthop`; the flags are `NEXTHOP_FLAG_*`. -/
structure Nexthop where
  type : NexthopType
  active : Bool := false
  fib : Bool := false
  recursive : Bool := false
  ifindex : BitVec 32 := 0
  ifname : String := ""
  gate : InAddr := 0
  rtype : Option NexthopType := none
  rifindex : BitVec 32 := 0
  rgate : InAddr := 0
deriving DecidableEq

/-- `struct rib`; both counts are `u_char`. -/
structure Rib where
  type : Octet
  table : Int := 0
  distance : Octet := 0
  flags : Octet := 0
  metric : BitVec 32 := 0
  refcnt : Nat := 0
  nexthopNum : Octet := 0
  nexthopActiveNum : Octet := 0
  nexthop : List Nexthop := []
deriving DecidableEq

namespace Rib
variable (rib : Rib)

def check (flag : ZebraFlag) : Bool :=
  rib.flags.getLsbD flag.bit

def setFlag (flag : ZebraFlag) : Rib :=
  { rib with flags := rib.flags ||| 1#8 <<< flag.bit }

def unsetFlag (flag : ZebraFlag) : Rib :=
  { rib with flags := rib.flags &&& ~~~(1#8 <<< flag.bit) }

@[simp] theorem check_setFlag (flag other : ZebraFlag) :
    (rib.setFlag flag).check other = (rib.check other || decide (flag = other)) := by
  simp only [check, setFlag, getLsbD_or]
  congr 1
  cases flag <;> cases other <;> decide

@[simp] theorem check_unsetFlag (flag other : ZebraFlag) :
    (rib.unsetFlag flag).check other = (rib.check other && decide (flag ≠ other)) := by
  simp only [check, unsetFlag, getLsbD_and]
  congr 1
  cases flag <;> cases other <;> decide

/-- `RIB_SYSTEM_ROUTE`. -/
def system : Bool :=
  rib.type = routeKernel || rib.type = routeConnect

def nexthopAdd (nexthop : Nexthop) : Rib :=
  { rib with nexthop := rib.nexthop ++ [nexthop], nexthopNum := rib.nexthopNum + 1 }

def nexthopDelete (index : Nat) : Rib :=
  { rib with nexthop := rib.nexthop.eraseIdx index, nexthopNum := rib.nexthopNum - 1 }

def nexthopIfindexAdd (ifindex : BitVec 32) : Rib :=
  rib.nexthopAdd { type := .ifindex, ifindex }

def nexthopIfnameAdd (ifname : String) : Rib :=
  rib.nexthopAdd { type := .ifname, ifname }

def nexthopIpv4Add (ipv4 : InAddr) : Rib :=
  rib.nexthopAdd { type := .ipv4, gate := ipv4 }

def nexthopIpv4IfindexAdd (ipv4 : InAddr) (ifindex : BitVec 32) : Rib :=
  rib.nexthopAdd { type := .ipv4Ifindex, gate := ipv4, ifindex }

def nexthopBlackholeAdd : Rib :=
  (rib.setFlag .blackhole).nexthopAdd { type := .blackhole }

def setFib (fib : Bool) : Rib :=
  { rib with nexthop := rib.nexthop.map fun nexthop => { nexthop with fib } }

end Rib

abbrev RibTable := PrefixIpv4 → List Rib

structure Interface where
  ifindex : BitVec 32
  up : Bool
deriving DecidableEq

/-- What the functions find outside the table: the interfaces, the configured
`MULTIPATH_NUM`, and the octets that lie behind `route_info`. -/
structure Surroundings where
  ifLookupByIndex : BitVec 32 → Option Interface
  ifLookupByName : String → Option Interface
  multipathNum : Nat := 1
  beyondRouteInfo : Octet → Octet := fun _ => 0

/-- The place of a call of `rib_process`. -/
structure Scene extends Surroundings where
  table : RibTable
  top : PrefixIpv4

/-- The prefixes that match an address, the longest first. -/
def covering (addr : InAddr) : List PrefixIpv4 :=
  (List.finRange 33).reverse.map fun prefixlen => applyMaskIpv4 ⟨addr, prefixlen⟩

/-- The loop of `nexthop_active_ipv4`: nodes without ribs are passed, and so are nodes
without a selected rib and nodes that select a BGP route. -/
def Scene.lookup (scene : Scene) : List PrefixIpv4 → Option Rib
  | [] => none
  | p :: rest =>
    if (scene.table p).isEmpty then scene.lookup rest
    else if p = scene.top then none
    else
      match (scene.table p).find? fun rib => rib.check .selected with
      | none => scene.lookup rest
      | some found => if found.type = routeBgp then scene.lookup rest else some found

/-- The recursive nexthop, where `set` asks for it. -/
def Nexthop.resolve (nexthop newhop : Nexthop) : Nexthop :=
  { nexthop with
    recursive := true
    rtype := some newhop.type
    rgate := if newhop.type = .ipv4 ∨ newhop.type = .ipv4Ifindex then newhop.gate else nexthop.rgate
    rifindex := if newhop.type = .ifindex ∨ newhop.type = .ifname ∨
      newhop.type = .ipv4Ifindex then newhop.ifindex
      else nexthop.rifindex }

section
variable (scene : Scene)

def Scene.nexthopActiveIpv4 (rib : Rib) (nexthop : Nexthop) (set : Bool) : Bool × Nexthop :=
  let nexthop := if nexthop.type = .ipv4 then { nexthop with ifindex := 0 } else nexthop
  let nexthop := if set then { nexthop with recursive := false } else nexthop
  match scene.lookup (covering nexthop.gate) with
  | none => (false, nexthop)
  | some found =>
    if found.type = routeConnect then
      match found.nexthop with
      | newhop :: _ =>
        (true, if nexthop.type = .ipv4 then { nexthop with ifindex := newhop.ifindex } else nexthop)
      | [] => (true, nexthop)
    else if rib.check .internal then
      match found.nexthop.find? fun newhop => newhop.fib && !newhop.recursive with
      | some newhop => (true, if set then nexthop.resolve newhop else nexthop)
      | none => (false, nexthop)
    else (false, nexthop)

def Scene.nexthopActiveCheck (rib : Rib) (set : Bool) (nexthop : Nexthop) : Nexthop :=
  match nexthop.type with
  | .ifindex => { nexthop with active := (scene.ifLookupByIndex nexthop.ifindex).any Interface.up }
  | .ifname =>
    match (scene.ifLookupByName nexthop.ifname).filter Interface.up with
    | some ifp =>
      { nexthop with active := true, ifindex := if set then ifp.ifindex else nexthop.ifindex }
    | none => { nexthop with active := false, ifindex := if set then 0 else nexthop.ifindex }
  | .ipv4 | .ipv4Ifindex =>
    let checked := scene.nexthopActiveIpv4 rib nexthop set
    { checked.2 with active := checked.1 }
  | .blackhole => { nexthop with active := true }

/-- `nexthop_active_update`; what it returns is `nexthopActiveNum`. -/
def Scene.nexthopActiveUpdate (set : Bool) (rib : Rib) : Rib :=
  let nexthop := rib.nexthop.map (scene.nexthopActiveCheck rib set)
  let changed := rib.nexthop.map Nexthop.active ≠ nexthop.map Nexthop.active
  let updated := { rib.unsetFlag .changed with
    nexthop := nexthop
    nexthopActiveNum := BitVec.ofNat 8 (nexthop.countP Nexthop.active) }
  if changed then updated.setFlag .changed else updated

/-- The nexthops that `netlink_route_multipath` installs get `NEXTHOP_FLAG_FIB`, at most
`room` of them. -/
def markFib : (room : Option Nat) → List Nexthop → List Nexthop
  | _, [] => []
  | some 0, rest => rest
  | room, nexthop :: rest =>
    if nexthop.active then { nexthop with fib := true } :: markFib (room.map (· - 1)) rest
    else nexthop :: markFib room rest

/-- `kernel_add_ipv4` with an answer of success. -/
def Surroundings.kernelAddIpv4 (env : Surroundings) (rib : Rib) : Rib :=
  if rib.check .blackhole then rib.setFib true
  else if rib.nexthopActiveNum = 1 ∨ env.multipathNum = 1 then
    { rib with nexthop := markFib (some 1) rib.nexthop }
  else { rib with
    nexthop := markFib (if env.multipathNum = 0 then none else some env.multipathNum) rib.nexthop }

inductive RibCall where
  | install (p : PrefixIpv4)
  | uninstall (p : PrefixIpv4)
  | redistributeAdd (p : PrefixIpv4) (rib : Rib)
  | redistributeDelete (p : PrefixIpv4) (rib : Rib)
deriving DecidableEq

/-- `rib_uninstall_kernel`, and the announcement before it. -/
def withdraw (p : PrefixIpv4) (rib : Rib) : Rib × List RibCall :=
  if rib.system then (rib, [.redistributeDelete p rib])
  else (rib.setFib false, [.redistributeDelete p rib, .uninstall p])

def ribUninstall (p : PrefixIpv4) (rib : Rib) : Rib × List RibCall :=
  if rib.check .selected then
    let withdrawn := withdraw p rib
    (withdrawn.1.unsetFlag .selected, withdrawn.2)
  else (rib, [])

/-- Whether the loop of `rib_process` takes a rib in place of its choice so far. -/
def Rib.replaces (rib : Rib) (select : Option Rib) : Bool :=
  rib.nexthopActiveNum ≠ 0 && rib.distance ≠ distanceInfinity &&
    (select.all (fun select => rib.distance < select.distance) || rib.type = routeConnect)

/-- The loop of `rib_process` over ribs that are updated: the index of `select`. -/
def selectLoop (ribs : List Rib) (select : Option Nat) : List Nat → Option Nat
  | [] => select
  | index :: rest =>
    match ribs[index]? with
    | none => selectLoop ribs select rest
    | some rib =>
      if rib.replaces (select.bind (ribs[·]?)) then selectLoop ribs (some index) rest
      else selectLoop ribs select rest

def selectRib (ribs : List Rib) : Option Nat :=
  selectLoop ribs none (List.range ribs.length)

/-- The same loop's `fib`, the last selected rib. -/
def fibRib (ribs : List Rib) : Option Nat :=
  (List.range ribs.length).reverse.find? fun index => ribs[index]?.any fun rib =>
    rib.check .selected

/-- "Uninstall old rib from forwarding table": a rib of the list, unless a deleted rib was
selected. -/
def Scene.dropFib (ribs : List Rib) (del : Option Rib) : List Rib × List RibCall :=
  match del.filter (fun del => del.check .selected) with
  | some del => (ribs, (withdraw scene.top del).2)
  | none =>
    match fibRib ribs with
    | none => (ribs, [])
    | some fib =>
      (ribs.modify fib fun rib =>
          scene.nexthopActiveUpdate true ((withdraw scene.top rib).1.unsetFlag .selected),
        (ribs[fib]?.map fun rib => (withdraw scene.top rib).2).getD [])

/-- "Install new rib into forwarding table". -/
def Scene.installRib (rib : Rib) : Rib :=
  let rib := scene.nexthopActiveUpdate true rib
  (if rib.system then rib else scene.kernelAddIpv4 rib).setFlag .selected

def Scene.takeSelect (ribs : List Rib) (select : Option Nat) : List Rib × List RibCall :=
  match select with
  | none => (ribs, [])
  | some select =>
    (ribs.modify select scene.installRib,
      (ribs[select]?.map fun rib => (if rib.system then [] else [.install scene.top]) ++
        [.redistributeAdd scene.top (scene.installRib rib)]).getD [])

/-- "Same route is selected": it is installed anew when its nexthops have changed. -/
def Scene.refreshRib (rib : Rib) : Rib :=
  let rib := scene.nexthopActiveUpdate true (withdraw scene.top rib).1
  if rib.system then rib else scene.kernelAddIpv4 rib

def Scene.refreshCalls (rib : Rib) : List RibCall :=
  (withdraw scene.top rib).2 ++ (if rib.system then [] else [.install scene.top]) ++
    [.redistributeAdd scene.top (scene.refreshRib rib)]

/-- `rib_process`. The lookups stop at the node itself, so they find the same table
throughout. -/
def Scene.ribProcess (del : Option Rib) : List Rib × List RibCall :=
  let ribs := (scene.table scene.top).map (scene.nexthopActiveUpdate false)
  let select := selectRib ribs
  if select.isSome ∧ select = fibRib ribs ∧ ¬ del.any (fun del => del.check .selected) then
    match select.bind (ribs[·]?) with
    | none => (ribs, [])
    | some rib =>
      if rib.check .changed then
        (ribs.modify (select.getD 0) scene.refreshRib, scene.refreshCalls rib)
      else (ribs, [])
  else
    let dropped := scene.dropFib ribs del
    let taken := scene.takeSelect dropped.1 select
    (taken.1, dropped.2 ++ taken.2)

end

variable (env : Surroundings) (table : RibTable)

/-- The table with the ribs of one node changed and processed. -/
def Surroundings.process (p : PrefixIpv4) (ribs : List Rib) (del : Option Rib) :
    RibTable × List RibCall :=
  let scene : Scene := { env with table := update table p ribs, top := p }
  let processed := scene.ribProcess del
  (update table p processed.1, processed.2)

def routeInfo : List Octet := [0, 0, 0, 1, 120, 120, 110, 110, 20]

/-- "Set default distance by route type". -/
def Surroundings.defaultDistance (env : Surroundings) (rib : Rib) : Rib :=
  if rib.distance ≠ 0 then rib
  else if rib.type = routeBgp ∧ rib.check .ibgp then { rib with distance := 200 }
  else { rib with distance := routeInfo[rib.type.toNat]?.getD (env.beyondRouteInfo rib.type) }

/-- "If this route is kernel route, set FIB flag to the route". -/
def Rib.ownFib (rib : Rib) : Rib :=
  if rib.system then rib.setFib true else rib

/-- Where `rib_add_ipv4` and `rib_delete_ipv4` stop: a connected route of the same
interface, or a route of another type that is asked for. -/
def Rib.meets (type : Octet) (ifindex : BitVec 32) (rib : Rib) : Bool :=
  if rib.type = routeConnect then
    rib.type = type && rib.nexthop.head?.any fun nexthop =>
      nexthop.type = .ifindex && nexthop.ifindex = ifindex
  else rib.type = type

/-- The rib that `rib_add_ipv4` makes. -/
def Surroundings.newRib (env : Surroundings) (type flags : Octet) (gate : Option InAddr)
    (ifindex : BitVec 32) (metric : BitVec 32) (distance : Octet) : Rib :=
  let rib := env.defaultDistance { type, distance, flags, metric }
  let rib := match gate with
    | some gate => if ifindex ≠ 0 then rib.nexthopIpv4IfindexAdd gate ifindex
      else rib.nexthopIpv4Add gate
    | none => rib.nexthopIfindexAdd ifindex
  rib.ownFib

def Surroundings.ribAddIpv4 (type flags : Octet) (p : PrefixIpv4) (gate : Option InAddr)
    (ifindex metric : BitVec 32) (distance : Octet) : RibTable × List RibCall :=
  let p := applyMaskIpv4 p
  let ribs := table p
  let rib := env.newRib type flags gate ifindex metric distance
  match ribs.findIdx? (Rib.meets type ifindex) with
  | none => env.process table p (rib :: ribs) none
  | some index =>
    if type = routeConnect then
      -- "Duplicate connected route comes in."
      (update table p (ribs.modify index fun rib => { rib with refcnt := rib.refcnt + 1 }), [])
    else env.process table p (rib :: ribs.eraseIdx index) ribs[index]?

def Surroundings.ribAddIpv4Multipath (p : PrefixIpv4) (rib : Rib) : RibTable × List RibCall :=
  let p := applyMaskIpv4 p
  let ribs := table p
  let rib := (env.defaultDistance rib).ownFib
  match ribs.findIdx? fun same => same.type = rib.type && same.table =
    rib.table && same.type ≠ routeConnect with
  | none => env.process table p (rib :: ribs) none
  | some index => env.process table p (rib :: ribs.eraseIdx index) ribs[index]?

/-- `rib_delete_ipv4`. Without a rib of its type a kernel route takes the selected rib
with it, which the kernel has removed. -/
def Surroundings.ribDeleteIpv4 (type : Octet) (p : PrefixIpv4) (ifindex : BitVec 32) :
    RibTable × List RibCall :=
  let p := applyMaskIpv4 p
  let ribs := table p
  match ribs.findIdx? (Rib.meets type ifindex) with
  | some index =>
    if type = routeConnect ∧ ribs[index]?.any fun rib => rib.refcnt ≠ 0 then
      (update table p (ribs.modify index fun rib => { rib with refcnt := rib.refcnt - 1 }), [])
    else env.process table p (ribs.eraseIdx index) ribs[index]?
  | none =>
    match fibRib ribs with
    | none => (table, [])
    | some fib =>
      if type = routeKernel then
        env.process table p (ribs.modify fib fun rib => (rib.setFib false).unsetFlag .selected) none
      else (table, [])

/-- `rib_update` over the nodes in some order. -/
def Surroundings.ribUpdate (env : Surroundings) (table : RibTable) :
    List PrefixIpv4 → RibTable × List RibCall
  | [] => (table, [])
  | p :: rest =>
    let first := env.process table p (table p) none
    let others := env.ribUpdate first.1 rest
    (others.1, first.2 ++ others.2)

/-- A nexthop as `zread_ipv4_add` reads it. -/
inductive MessageNexthop where
  | ifindex (ifindex : BitVec 32)
  | ipv4 (ipv4 : InAddr)
  | blackhole
  /-- A name, an IPv6 address or an unknown type, which add nothing. -/
  | skipped
deriving DecidableEq

def Rib.nexthopMessageAdd (rib : Rib) : MessageNexthop → Rib
  | .ifindex ifindex => rib.nexthopIfindexAdd ifindex
  | .ipv4 ipv4 => rib.nexthopIpv4Add ipv4
  | .blackhole => rib.nexthopBlackholeAdd
  | .skipped => rib

/-- A route that a client sends; the number of nexthops is an octet. -/
structure RouteMessage where
  type : Octet
  flags : Octet
  p : PrefixIpv4
  nexthops : List MessageNexthop
  distance : Octet
  metric : BitVec 32
  few : nexthops.length < 256

/-- The rib that `zread_ipv4_add` makes. -/
def RouteMessage.rib (message : RouteMessage) : Rib :=
  let rib :=
    message.nexthops.foldl Rib.nexthopMessageAdd { type := message.type, flags := message.flags }
  { rib with distance := message.distance, metric := message.metric }

def Surroundings.zreadIpv4Add (message : RouteMessage) : RibTable × List RibCall :=
  env.ribAddIpv4Multipath table message.p message.rib

end Zebra.Zebrad
