import Zebra.Zebrad.Rib

namespace Zebra.Zebrad
open Base Function

/-- `type` and `gate` of `struct static_ipv4`. -/
inductive StaticGate where
  | gateway (ipv4 : InAddr)
  | ifname (ifname : String)
  | blackhole
deriving DecidableEq

structure StaticIpv4 where
  distance : Octet
  gate : StaticGate
deriving DecidableEq

/-- A node of the static table with the references on it. -/
structure StaticNode where
  info : List StaticIpv4 := []
  lock : Nat := 0

/-- Both tables of the default VRF. -/
structure Vrf where
  table : RibTable := fun _ => []
  stable : PrefixIpv4 → StaticNode := fun _ => {}

/-- The nexthop of a static route, added to a rib. -/
def Rib.nexthopStaticAdd (rib : Rib) : StaticGate → Rib
  | .gateway ipv4 => rib.nexthopIpv4Add ipv4
  | .ifname ifname => rib.nexthopIfnameAdd ifname
  | .blackhole => rib.nexthopBlackholeAdd

/-- The rib that static routes of a distance share. -/
def Rib.servesStatic (distance : Octet) (rib : Rib) : Bool :=
  rib.type = routeStatic && rib.distance = distance

/-- `static_ipv4_nexthop_same`. -/
def staticIpv4NexthopSame (nexthop : Nexthop) : StaticGate → Bool
  | .gateway ipv4 => nexthop.type = .ipv4 && nexthop.gate = ipv4
  | .ifname ifname => nexthop.type = .ifname && nexthop.ifname = ifname
  | .blackhole => nexthop.type = .blackhole

section
variable (env : Surroundings) (table : RibTable) (p : PrefixIpv4) (si : StaticIpv4)

def Surroundings.staticInstallIpv4 : RibTable × List RibCall :=
  let ribs := table p
  match ribs.findIdx? (Rib.servesStatic si.distance) with
  | some index =>
    -- "Same distance static route is there.  Update it with new nexthop."
    let processed := env.process table p
      (ribs.modify index fun rib => (ribUninstall p rib).1.nexthopStaticAdd si.gate) none
    (processed.1, (ribs[index]?.map fun rib => (ribUninstall p rib).2).getD [] ++ processed.2)
  | none =>
    let rib : Rib := { type := routeStatic, distance := si.distance }
    env.process table p (rib.nexthopStaticAdd si.gate :: ribs) none

def Surroundings.staticUninstallIpv4 : RibTable × List RibCall :=
  let ribs := table p
  match ribs.findIdx? (Rib.servesStatic si.distance) with
  | none => (table, [])
  | some index =>
    match ribs[index]? with
    | none => (table, [])
    | some rib =>
      match rib.nexthop.findIdx? fun nexthop => staticIpv4NexthopSame nexthop si.gate with
      | none => (table, [])
      | some nexthop =>
        if rib.nexthopNum = 1 then env.process table p (ribs.eraseIdx index) (some rib)
        else
          let rest := (ribUninstall p rib).1.nexthopDelete nexthop
          let processed := env.process table p (ribs.set index rest) (some rest)
          (processed.1, (ribUninstall p rib).2 ++ processed.2)

end

namespace Vrf
variable (vrf : Vrf) (env : Surroundings) (p : PrefixIpv4)

/-- `static_delete_ipv4`, which does not look at the distance. The node stays locked
when a static route is found. -/
def staticDeleteIpv4 (gate : StaticGate) (vrfId : Nat) : Vrf × List RibCall :=
  if vrfId ≠ 0 then (vrf, [])
  else
    let p := applyMaskIpv4 p
    let node := vrf.stable p
    match node.info.findIdx? fun si => si.gate = gate with
    | none => (vrf, [])
    | some index =>
      match node.info[index]? with
      | none => (vrf, [])
      | some si =>
        let uninstalled := env.staticUninstallIpv4 vrf.table p si
        (⟨uninstalled.1, update vrf.stable p ⟨node.info.eraseIdx index, node.lock + 1⟩⟩,
          uninstalled.2)

/-- "Sort by distance value and gateway address": a new static route goes before these. -/
def staticBefore (si cp : StaticIpv4) : Bool :=
  si.distance < cp.distance || si.distance = cp.distance &&
    match si.gate, cp.gate with
    | .gateway ipv4, .gateway other => ipv4 < other
    | _, _ => false

def staticInsert (si : StaticIpv4) (info : List StaticIpv4) : List StaticIpv4 :=
  info.takeWhile (fun cp => !staticBefore si cp) ++ si :: info.dropWhile fun cp =>
    !staticBefore si cp

def lockStatic (vrf : Vrf) (p : PrefixIpv4) : Vrf :=
  { vrf with stable := update vrf.stable p ⟨(vrf.stable p).info, (vrf.stable p).lock + 1⟩ }

/-- "Distance chaged": the static route of the same gate goes first. -/
def staticOutdate (gate : StaticGate) (vrfId : Nat) : Vrf × List RibCall :=
  if (vrf.stable p).info.any fun si => si.gate = gate then vrf.staticDeleteIpv4 env p gate vrfId
    else (vrf, [])

/-- "Make new static route structure", link it and install it. -/
def staticLink (si : StaticIpv4) : Vrf × List RibCall :=
  let installed := env.staticInstallIpv4 vrf.table p si
  (⟨installed.1, update vrf.stable p ⟨staticInsert si (vrf.stable p).info, (vrf.stable p).lock⟩⟩,
    installed.2)

def staticAddIpv4 (gate : StaticGate) (distance : Octet) (vrfId : Nat) : Vrf × List RibCall :=
  if vrfId ≠ 0 then (vrf, [])
  else
    let p := applyMaskIpv4 p
    if (vrf.stable p).info.any fun si => si.gate = gate && si.distance = distance then (vrf, [])
    else
      let outdated := (vrf.lockStatic p).staticOutdate env p gate vrfId
      let linked := outdated.1.staticLink env p { distance, gate }
      (linked.1, outdated.2 ++ linked.2)

end Vrf

/-- A call of the configuration. -/
inductive StaticOp where
  | add (env : Surroundings) (p : PrefixIpv4) (gate : StaticGate) (distance : Octet) (vrfId : Nat)
  | delete (env : Surroundings) (p : PrefixIpv4) (gate : StaticGate) (vrfId : Nat)

def Vrf.configure (vrf : Vrf) : StaticOp → Vrf × List RibCall
  | .add env p gate distance vrfId => vrf.staticAddIpv4 env p gate distance vrfId
  | .delete env p gate vrfId => vrf.staticDeleteIpv4 env p gate vrfId

end Zebra.Zebrad
