import Zebra.Bgpd.Attr

/-! The configuration of `struct bgp` and `struct peer`, for one address family. -/
namespace Zebra.Bgpd

inductive PeerSort where
  | ibgp
  | ebgp
  | internal
  | confed
deriving DecidableEq

/-- `union sockunion`, without the port. -/
inductive Sockunion where
  | inet (addr : Ipv4)
  | inet6 (addr : Ipv6)
deriving DecidableEq

/-- `sockunion_cmp`: the family decides first. The octets of an IPv6 address are
compared from the first on, which is the order of the numbers. -/
def sockunionCmp : Sockunion → Sockunion → Int
  | .inet _, .inet6 _ => -1
  | .inet6 _, .inet _ => 1
  | .inet addr1, .inet addr2 => if addr1 = addr2 then 0 else if addr2 < addr1 then 1 else -1
  | .inet6 addr1, .inet6 addr2 => if addr1 = addr2 then 0 else if addr2 < addr1 then 1 else -1

theorem sockunionCmp_neg (su1 su2 : Sockunion) : sockunionCmp su2 su1 = -sockunionCmp su1 su2 := by
  cases su1 <;> cases su2 <;> simp only [sockunionCmp] <;> grind

theorem sockunionCmp_eq_zero {su1 su2} (same : sockunionCmp su1 su2 = 0) : su1 = su2 := by
  cases su1 <;> cases su2 <;> simp only [sockunionCmp] at same <;> grind

theorem sockunionCmp_cases (su1 su2 : Sockunion) :
    sockunionCmp su1 su2 = -1 ∨ sockunionCmp su1 su2 = 0 ∨ sockunionCmp su1 su2 = 1 := by
  cases su1 <;> cases su2 <;> simp only [sockunionCmp] <;> grind

inductive Afi where
  | ip
  | ip6
deriving DecidableEq

inductive Safi where
  | unicast
  | multicast
  | mplsVpn
deriving DecidableEq

abbrev PeerId := Nat

/-- A configured neighbour; peer groups are not peers of a path. -/
structure Peer where
  as : As
  localAs : As
  changeLocalAs : As := 0
  remoteId : Ipv4
  suRemote : Sockunion
  ttl : Nat := 1
  disableConnectedCheck : Bool := false
  localAsNoPrepend : Bool := false
  allowasIn : Nat := 0
  sendCommunity : Bool := false
  sendExtCommunity : Bool := false
  rserverClient : Bool := false
  aspathUnchanged : Bool := false
  reflectorClient : Bool := false
  /-- `pmax`, when PEER_FLAG_MAX_PREFIX is set. -/
  maxPrefix : Option Nat := none
  maxPrefixWarning : Bool := false
  nexthopV4 : Ipv4 := 0

structure Bgp where
  as : As
  afi : Afi := .ip
  safi : Safi := .unicast
  confederation : Bool := false
  confedId : As := 0
  confedPeers : List As := []
  routerId : Ipv4 := 0
  /-- `cluster_id`, when BGP_CONFIG_CLUSTER_ID is set. -/
  clusterId : Option Ipv4 := none
  defaultLocalPref : BitVec 32 := 100
  alwaysCompareMed : Bool := false
  deterministicMed : Bool := false
  medMissingAsWorst : Bool := false
  medConfed : Bool := false
  aspathIgnore : Bool := false
  compareRouterId : Bool := false
  costCommunityIgnore : Bool := false
  noEnforceFirstAs : Bool := false
  dampening : Bool := false
  peer : PeerId → Peer
  peerSelf : PeerId

/-- `peer_sort`. -/
def peerSort (bgp : Bgp) (peer : Peer) : PeerSort :=
  if bgp.confederation then
    if peer.localAs = 0 then .internal
    else if peer.localAs = peer.as then
      if peer.localAs = bgp.confedId then .ebgp else .ibgp
    else if bgp.confedPeers.contains peer.as then .confed
    else .ebgp
  else if peer.localAs = 0 then .internal
  else if peer.localAs = peer.as then .ibgp
  else .ebgp

end Zebra.Bgpd
