import Zebra.Bgpd.AttrParse
import Zebra.Bgpd.Holdings

/-! Receiving an UPDATE, `bgp_update_receive` of bgpd/bgp_packet.c. -/
namespace Zebra.Bgpd
open Base

/-- The address families that an UPDATE is processed for. -/
inductive AddressFamily where
  | ipUnicast
  | ipMulticast
  | ipVpn
  | ip6Unicast
  | ip6Multicast
deriving DecidableEq

namespace AddressFamily

def afi : AddressFamily → Afi
  | ipUnicast | ipMulticast | ipVpn => .ip
  | ip6Unicast | ip6Multicast => .ip6

def safi : AddressFamily → Safi
  | ipUnicast | ip6Unicast => .unicast
  | ipMulticast | ip6Multicast => .multicast
  | ipVpn => .mplsVpn

/-- The codes on the wire. -/
def afiCode : AddressFamily → BitVec 16
  | ipUnicast | ipMulticast | ipVpn => afiIp
  | ip6Unicast | ip6Multicast => afiIp6

def safiCode : AddressFamily → Octet
  | ipUnicast | ip6Unicast => safiUnicast
  | ipMulticast | ip6Multicast => safiMulticast
  | ipVpn => bgpSafiVpnv4

def all : List AddressFamily := [ipUnicast, ipMulticast, ipVpn, ip6Unicast, ip6Multicast]

/-- NLRI of this family. -/
def carries (family : AddressFamily) (nlri : Nlri) : Bool :=
  nlri.afi = family.afiCode && nlri.safi = family.safiCode

end AddressFamily

/-- What names a node: the leading bits of the prefix and, for VPN routes, the route
distinguisher. -/
structure NlriKey where
  rd : List Octet := []
  bits : List Bool
deriving DecidableEq

def leadingBits (octets : List Octet) (prefixlen : Nat) : List Bool :=
  (List.range prefixlen).map fun index => (octets.getD (index / 8) 0).getMsbD (index % 8)

/-- The configuration of a peer for one address family. -/
structure PeerFamily where
  afc : Bool := false
  allowasIn : Nat := 0
  maxPrefix : Option Nat := none
  maxPrefixWarning : Bool := false

/-- The configuration of the daemon. -/
structure Speaker where
  bgp : Bgp
  peerFamily : AddressFamily → PeerId → PeerFamily
  dampening : AddressFamily → Bool := fun _ => false
  damp : DampConfig
  /-- The summary-only marks of the aggregates over a node. -/
  aggregates : AddressFamily → NlriKey → List Bool := fun _ _ => []

/-- The configuration as one address family sees it. -/
def Speaker.view (speaker : Speaker) (family : AddressFamily) : Bgp :=
  { speaker.bgp with
    afi := family.afi
    safi := family.safi
    dampening := speaker.dampening family
    peer := fun id =>
      let settings := speaker.peerFamily family id
      { speaker.bgp.peer id with
        allowasIn := settings.allowasIn
        maxPrefix := settings.maxPrefix
        maxPrefixWarning := settings.maxPrefixWarning } }

/-- The arguments of `bgp_attr_aggregate_intern`. -/
structure Summary where
  origin : Octet
  aspath : Option Aspath := none
  community : Option Community := none
  asSet : Bool := false

/-- `bgp_attr_aggregate_intern`. -/
def bgpAttrAggregate (bgp : Bgp) (summary : Summary) : Attr :=
  let attr : Attr := {
    origin := summary.origin
    aspath := some (summary.aspath.getD ⟨[]⟩)
    community := summary.community
    weight := 32768
    mpNexthopLen := 16
    aggregatorAs := if bgp.confederation then bgp.confedId else bgp.as
    aggregatorAddr := bgp.routerId }
  let attr := ((attr.mark .origin).mark .asPath).mark .nextHop
  let attr := if summary.community.isSome then attr.mark .communities else attr
  (if summary.asSet then attr else attr.mark .atomicAggregate).mark .aggregator

/-- What a call on a RIB meets: the answers of filters, route maps and caches, and what
becomes of the aggregates over the node. -/
structure Circumstances where
  env : Environment
  summaries : List (NlriKey × Option Summary) := []

/-- A route that `bgp_update` has let in: whether it came in MP_REACH_NLRI, and the
attributes it has in the RIB. -/
structure Route where
  family : AddressFamily
  key : NlriKey
  multiprotocol : Bool
  attr : Attr

/-- The state that an UPDATE of one peer works on. The Adj-RIB-In and the references to shared
objects do not show here: no decision depends on them. -/
structure Daemon where
  established : Bool := true
  nsfWait : Bool := false
  nsf : AddressFamily → Bool := fun _ => false
  rib : AddressFamily → Rib NlriKey := fun _ => {}
  /-- How many calls the RIBs have taken. -/
  calls : Nat := 0
  /-- The routes that the message has brought in so far. -/
  routes : List Route := []

namespace Daemon

section Calls
variable (speaker : Speaker) (peer : PeerId) (meets : Nat → Circumstances)

/-- One call on the RIB of a family. -/
def call (family : AddressFamily) (daemon : Daemon) (op : Op NlriKey) : Daemon :=
  let rib := daemon.rib family
  { daemon with
    rib := Function.update daemon.rib family
      (rib.step (speaker.view family) speaker.damp (speaker.aggregates family) op) }

/-- A call and what it does to the aggregates' own nodes. -/
def perform (family : AddressFamily) (op : Op NlriKey) (daemon : Daemon) : Daemon :=
  let summaries := (meets daemon.calls).summaries.map fun (key, summary) =>
    Op.aggregateReplace key (summary.map (bgpAttrAggregate speaker.bgp))
  (op :: summaries).foldl (call speaker family) { daemon with calls := daemon.calls + 1 }

/-- `bgp_clear_route` of the peer. -/
def bgpClearRoute (family : AddressFamily) (daemon : Daemon) : Daemon :=
  daemon.perform speaker meets family (.clearRoute peer (daemon.nsfWait && daemon.nsf family))

/-- PEER_STATUS_PREFIX_LIMIT goes with the other flags of the session. -/
def resetLimits (daemon : Daemon) : Daemon :=
  { daemon with
    rib := fun family =>
      { daemon.rib family with
        accounts := Function.update (daemon.rib family).accounts peer
          { (daemon.rib family).accounts peer with prefixLimit := false } } }

/-- `bgp_stop`, which `bgp_notify_send` ends with: an established session loses its
routes at once. -/
def bgpStop (daemon : Daemon) : Daemon :=
  let daemon := if daemon.established then
      AddressFamily.all.foldl (fun daemon family => daemon.bgpClearRoute speaker peer meets family)
        { daemon with
          established := false
          nsf := fun family => daemon.nsfWait && daemon.nsf family }
    else daemon
  daemon.resetLimits peer

section
variable (family : AddressFamily)

/-- `bgp_clear_stale_route` of the peer. -/
def bgpClearStaleRoute (daemon : Daemon) : Daemon :=
  daemon.perform speaker meets family (.clearStale peer)

/-- The identity of the routes that a peer sends. -/
def receivedId : PathId := ⟨peer, 9, .normal⟩

/-- Whether a new path makes `bgp_maximum_prefix_overflow` give up the session. -/
def overflows (key : NlriKey) (attrNew : Option Attr) (daemon : Daemon) : Bool :=
  let rib := daemon.rib family
  attrNew.isSome && ((rib.node key).find? (receivedId peer)).isNone &&
    ((rib.accounts peer).increment.maximumPrefixOverflow ((speaker.view family).peer peer)).1

/-- The attributes that `bgp_update` lets a route in with. -/
def accepted (attr : Attr) (daemon : Daemon) : Option Attr :=
  acceptUpdate (speaker.view family) ((speaker.view family).peer peer) (meets daemon.calls).env attr

section
variable (multiprotocol : Bool) (attr : Attr) (key : NlriKey) (daemon : Daemon)

/-- `bgp_update` up to the check of the maximum prefix count. -/
def storeRoute : Daemon :=
  let updated := daemon.perform speaker meets family
    (.update key (receivedId peer) attr (meets daemon.calls).env)
  { updated with
    routes := ((daemon.accepted speaker peer meets family attr).map
      fun attrNew => ⟨family, key, multiprotocol, attrNew⟩).toList ++ updated.routes }

/-- `bgp_update` of a received prefix; `false` is the negative return value. -/
def bgpUpdate : Bool × Daemon :=
  let updated := daemon.storeRoute speaker peer meets family multiprotocol attr key
  if daemon.overflows speaker peer family key (daemon.accepted speaker peer meets family attr) then
    (false, updated.bgpStop speaker peer meets)
  else (true, updated)

end

/-- `bgp_withdraw` of a received prefix. -/
def bgpWithdraw (key : NlriKey) (daemon : Daemon) : Bool × Daemon :=
  (true, daemon.perform speaker meets family
    (.withdraw key (receivedId peer) (meets daemon.calls).env.withdrawTime))

/-- An update if there are attributes, else a withdraw. -/
def receivePrefix (multiprotocol : Bool) (attr : Option Attr) (key : NlriKey) (daemon : Daemon) :
    Bool × Daemon :=
  match attr with
  | some attr => daemon.bgpUpdate speaker peer meets family multiprotocol attr key
  | none => daemon.bgpWithdraw speaker peer meets family key

end

/-- An IPv4 address of class D. -/
def classD (octets : List Octet) : Bool :=
  (field octets 0 4).extractLsb' 28 4 = 0xe

/-- The rounds of `bgp_nlri_parse`. -/
def nlriParseLoop (data : List Octet) (family : AddressFamily) (multiprotocol : Bool)
    (attr : Option Attr) (lim : Nat) : Nat → Nat → Daemon → Daemon
  | 0, _, daemon => daemon
  | fuel + 1, pnt, daemon =>
    let prefixlen := ofOctets (slice data pnt 1)
    let octets := slice data (pnt + 1) (psize prefixlen)
    let next := pnt + 1 + psize prefixlen
    if lim ≤ pnt then daemon
    else if !prefixlenFits family.afiCode prefixlen then daemon
    else if lim < next then daemon
    else if family = .ipUnicast && classD octets then daemon.bgpStop speaker peer meets
    else if family = .ip6Unicast && linkLocal (field octets 0 16) then
      nlriParseLoop data family multiprotocol attr lim fuel next daemon
    else
      match receivePrefix speaker peer meets family multiprotocol attr
        { bits := leadingBits octets prefixlen } daemon with
      | (false, daemon) => daemon
      | (true, daemon) => nlriParseLoop data family multiprotocol attr lim fuel next daemon

/-- The types of a route distinguisher. -/
def rdTypeAs : Nat := 0
def rdTypeIp : Nat := 1

/-- The rounds of `bgp_nlri_parse_vpnv4`, which looks at no return value. -/
def nlriParseVpnv4Loop (data : List Octet) (multiprotocol : Bool) (attr : Option Attr) (lim : Nat) :
    Nat → Nat → Daemon → Daemon
  | 0, _, daemon => daemon
  | fuel + 1, pnt, daemon =>
    let prefixlen := ofOctets (slice data pnt 1)
    let type := ofOctets (slice data (pnt + 4) 2)
    let octets := slice data (pnt + 12) (psize prefixlen - 11)
    let next := pnt + 1 + psize prefixlen
    if lim ≤ pnt then daemon
    else if prefixlen < 88 then daemon
    else if type ≠ rdTypeAs && type ≠ rdTypeIp then daemon
    else if lim < next then daemon
    else nlriParseVpnv4Loop data multiprotocol attr lim fuel next
      (receivePrefix speaker peer meets .ipVpn multiprotocol attr
        { rd := slice data (pnt + 4) 8, bits := leadingBits octets (prefixlen - 88) } daemon).2

/-- `bgp_nlri_parse`, or `bgp_nlri_parse_vpnv4` for VPN routes. -/
def bgpNlriParse (data : List Octet) (family : AddressFamily) (multiprotocol : Bool)
    (attr : Option Attr) (packet : Nlri) (daemon : Daemon) : Daemon :=
  let lim := packet.nlri + packet.length
  if !daemon.established then daemon
  else if family = .ipVpn then
    nlriParseVpnv4Loop speaker peer meets data multiprotocol attr lim packet.length
      packet.nlri daemon
  else nlriParseLoop speaker peer meets data family multiprotocol attr lim packet.length
    packet.nlri daemon

end Calls
end Daemon

/-- An UPDATE as it is before anything is processed. -/
structure Message where
  withdraw : Nlri
  attributeLen : Nat
  parsed : Parsed
  update : Nlri

/-- NLRI of the message itself. -/
def takeIpNlri (length : Nat) : AttrReader Nlri :=
  if length = 0 then pure {}
  else do
    let pnt ← Reader.getp
    bgpNlriSanityCheck afiIp pnt length
    Reader.forward length
    pure { afi := afiIp, safi := safiUnicast, nlri := pnt, length := length }

/-- A length field and the check that so many octets follow. -/
def takeLength (endp : Nat) : AttrReader Nat := do
  let getp ← Reader.getp
  if endp < getp + 2 then notify .malAttr
  else
    let length ← Reader.number 2
    if endp < getp + 2 + length.toNat then notify .malAttr else pure length.toNat

/-- The attributes, if there are any. -/
def takeAttributes (bgp : Bgp) (peer : Peer) (attributeLen : Nat) : AttrReader Parsed :=
  if attributeLen = 0 then pure {} else bgpAttrParse bgp peer attributeLen

/-- What comes before the attributes: the withdrawn routes and the attributes' length. -/
def readWithdraw (endp : Nat) : AttrReader (Nlri × Nat) := do
  let withdrawLen ← takeLength endp
  let withdraw ← takeIpNlri withdrawLen
  let attributeLen ← takeLength endp
  pure (withdraw, attributeLen)

/-- What is left of the message is NLRI; its length is kept in sixteen bits. -/
def readNlri (endp : Nat) : AttrReader Nlri := do
  let getp ← Reader.getp
  takeIpNlri (((endp : Int) - getp) % 2 ^ 16).toNat

/-- The cursor that a message is read with. -/
def messageCursor (start size : Nat) (refs : Refs) : Cursor Refs :=
  { getp := start, lo := start, hi := start + size, world := refs }

/-- The reading half of `bgp_update_receive`. -/
def readUpdate (bgp : Bgp) (peer : Peer) (endp : Nat) : AttrReader Message := do
  let (withdraw, attributeLen) ← readWithdraw endp
  let parsed ← takeAttributes bgp peer attributeLen
  let update ← readNlri endp
  pure { withdraw := withdraw, attributeLen := attributeLen, parsed := parsed, update := update }

namespace Daemon
section Process
variable (speaker : Speaker) (peer : PeerId) (meets : Nat → Circumstances) (data : List Octet)
  (message : Message)

section
variable (family : AddressFamily) (daemon : Daemon)

/-- NLRI of the multiprotocol attributes, if it is for this family. -/
def processMp : Daemon :=
  let update := message.parsed.mpUpdate
  let withdraw := message.parsed.mpWithdraw
  let daemon := if update.length ≠ 0 ∧ family.carries update then
      daemon.bgpNlriParse speaker peer meets data family true (some message.parsed.attr) update
    else daemon
  if withdraw.length ≠ 0 ∧ family.carries withdraw then
    daemon.bgpNlriParse speaker peer meets data family true none withdraw
  else daemon

/-- End-of-RIB: what a restarted peer has not sent again goes. VPN routes stay. -/
def endOfRib : Daemon :=
  if family ≠ .ipVpn ∧ daemon.nsf family then daemon.bgpClearStaleRoute speaker peer meets family
    else daemon

/-- A family other than IPv4 unicast. -/
def processFamily : Daemon :=
  let withdraw := message.parsed.mpWithdraw
  if (speaker.peerFamily family peer).afc then
    let daemon := daemon.processMp speaker peer meets data message family
    if message.withdraw.length = 0 ∧ family.carries withdraw ∧ withdraw.length = 0 then
      daemon.endOfRib speaker peer meets family
    else daemon
  else daemon

end

section
variable (daemon : Daemon)

/-- The withdrawn routes of the message itself. -/
def processWithdraw : Daemon :=
  if message.withdraw.length ≠ 0 then
    daemon.bgpNlriParse speaker peer meets data .ipUnicast false none message.withdraw
  else daemon

/-- The NLRI of the message itself; only here are the well-known attributes checked. -/
def processNlri : Bool × Daemon :=
  if message.update.length = 0 then (true, daemon)
  else if (missingAttr speaker.bgp (speaker.bgp.peer peer) message.parsed.attr).isSome then
    (false, daemon.bgpStop speaker peer meets)
  else (true, daemon.bgpNlriParse speaker peer meets data .ipUnicast false
    (some message.parsed.attr) message.update)

/-- IPv4 unicast after the message's own NLRI. -/
def processIpRest : Daemon :=
  let daemon := daemon.processMp speaker peer meets data message .ipUnicast
  if message.attributeLen = 0 ∧ message.withdraw.length = 0 then
    daemon.endOfRib speaker peer meets .ipUnicast
  else daemon

/-- IPv4 unicast. -/
def processIp : Bool × Daemon :=
  if (speaker.peerFamily .ipUnicast peer).afc then
    match (daemon.processWithdraw speaker peer meets data message).processNlri speaker peer meets
      data message with
    | (false, daemon) => (false, daemon)
    | (true, daemon) => (true, daemon.processIpRest speaker peer meets data message)
  else (true, daemon)

/-- The other families, in the order of the source. -/
def processRest : Daemon :=
  [AddressFamily.ipMulticast, .ip6Unicast, .ip6Multicast, .ipVpn].foldl
    (fun daemon family => daemon.processFamily speaker peer meets data message family) daemon

/-- The processing half of `bgp_update_receive`. -/
def process : Bool × Daemon :=
  match daemon.processIp speaker peer meets data message with
  | (false, daemon) => (false, daemon)
  | (true, daemon) =>
    (true, daemon.processRest speaker peer meets data message)

end

/-- The state after an error in the reading half: a NOTIFICATION ends the session. -/
def afterFailure (failure : Failure) (daemon : Daemon) : Daemon :=
  if failure.subcode.isSome then daemon.bgpStop speaker peer meets else daemon

/-- `bgp_update_receive` of the `size` octets at `start`; `refs` are the references that it finds,
and `false` is the return value -1. -/
def bgpUpdateReceive (start size : Nat) (refs : Refs) (daemon : Daemon) : Bool × Daemon :=
  let daemon := { daemon with routes := [] }
  if !daemon.established then (false, daemon.bgpStop speaker peer meets)
  else
    match ((readUpdate speaker.bgp (speaker.bgp.peer peer) (start + size)).run data
      (messageCursor start size refs)).1 with
    | .error failure => (false, daemon.afterFailure speaker peer meets failure)
    | .ok message => daemon.process speaker peer meets data message

end Process
end Daemon
end Zebra.Bgpd
