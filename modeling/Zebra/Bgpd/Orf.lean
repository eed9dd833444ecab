import Zebra.Bgpd.AttrParse
import Zebra.Bgpd.Fsm
import Zebra.Lib.Plist

/-! ROUTE-REFRESH messages with an outbound route filter, of bgpd/bgp_packet.c and lib/plist.c. -/
namespace Zebra.Bgpd
open Base

def Afi.code : Afi → BitVec 16
  | .ip => afiIp
  | .ip6 => afiIp6

def Afi.family : Afi → Family
  | .ip => .inet
  | .ip6 => .inet6

def Safi.code : Safi → Octet
  | .unicast => safiUnicast
  | .multicast => safiMulticast
  | .mplsVpn => bgpSafiVpnv4

def orfTypePrefix : Octet := 64
def orfTypePrefixOld : Octet := 128
def refreshImmediate : Octet := 1
def refreshDefer : Octet := 2
def orfCommonPartAdd : Octet := 0x00
def orfCommonPartRemove : Octet := 0x80
def orfCommonPartRemoveAll : Octet := 0xc0
def orfCommonPartPermit : Octet := 0x00
def orfCommonPartDeny : Octet := 0x20

def bgpMaxPacketSize : Nat := 4096

/-! The stream of a message. A write past its size that is not noticed makes it longer than that. -/

section
variable (s : List Octet)

def streamRemain : Nat :=
  (bgpMaxPacketSize + 2 ^ 64 - s.length) % 2 ^ 64

def streamPutc (c : Octet) : List Octet :=
  if bgpMaxPacketSize ≤ s.length then s else s ++ [c]

def streamPutw (w : BitVec 16) : List Octet :=
  if streamRemain s < 2 then s else s ++ toOctets 2 w.toNat

def streamPutl (l : BitVec 32) : List Octet :=
  if streamRemain s < 4 then s else s ++ toOctets 4 l.toNat

/-- `stream_put_prefix`, whose check forgets the octet of the length. -/
def streamPutPrefix (p : EntryPrefix) : List Octet :=
  if streamRemain s < psize p.prefixlen then s
  else streamPutc s (BitVec.ofNat 8 p.prefixlen) ++ p.octets.toList.take (psize p.prefixlen)

def streamPutwAt (putp : Nat) (w : Nat) : List Octet :=
  (s.set putp (BitVec.ofNat 8 (w / 256))).set (putp + 1) (BitVec.ofNat 8 w)

def orfFlag (type : PrefixListType) : Octet :=
  orfCommonPartAdd ||| if type = .permit then orfCommonPartPermit else orfCommonPartDeny

def putOrfEntry (pentry : PrefixListEntry) : List Octet :=
  streamPutPrefix
    (streamPutc (streamPutc (streamPutl (streamPutc s (orfFlag pentry.type)) pentry.seq)
      (BitVec.ofNat 8 pentry.ge)) (BitVec.ofNat 8 pentry.le))
    pentry.route

def prefixBgpOrfEntry (plist : PrefixList) : List Octet :=
  plist.entries.foldl putOrfEntry s

/-- The marker, the place of the length and the type. -/
def bgpPacketSetMarker (msgType : Octet) : List Octet :=
  List.replicate 16 0xff ++ [0, 0] ++ [msgType]

/-- The filter behind the address family: all of a list, or that there is none. -/
def putOrf (orfType whenToRefresh : Octet) (remove : Bool) (plist : PrefixList) : List Octet :=
  let start := streamPutc (streamPutc s whenToRefresh) orfType
  let filled := streamPutw start 0
  let filled := if remove then streamPutc filled orfCommonPartRemoveAll
    else prefixBgpOrfEntry filled plist
  streamPutwAt filled start.length ((filled.length - start.length - 2) % 2 ^ 16)

end

/-- `bgp_route_refresh_send`: the message. `msgType` is what the neighbour's capability asks for,
and `plist` the list for routes from the neighbour. -/
def bgpRouteRefreshSend (msgType : Octet) (afi : Afi) (safi : Safi) (orfType whenToRefresh : Octet)
    (remove : Bool) (plist : Option PrefixList) : List Octet :=
  let s := streamPutc (streamPutc (streamPutw (bgpPacketSetMarker msgType) afi.code) 0) safi.code
  let s :=
    if (orfType = orfTypePrefix ∨ orfType = orfTypePrefixOld) ∧ (remove ∨ plist.isSome) then
      putOrf s orfType whenToRefresh remove (plist.getD {})
    else s
  streamPutwAt s 16 s.length

/-- `prefix_bgp_orf_set`, for the list of one neighbour and address family: whether it succeeded,
and the list. -/
def prefixBgpOrfSet (family : Family) (plist : Option PrefixList) (orfp : PrefixListEntry)
    (set : Bool) : Bool × Option PrefixList :=
  if rangeInvalid orfp.route.prefixlen orfp.ge orfp.le then (false, plist)
  else
    let orfp := { orfp with le := lastBound family orfp.ge orfp.le }
    let plist := plist.getD {}
    if set then
      if plist.prefixEntryDupCheck orfp then (false, some plist)
        else (true, some (plist.prefixListEntryAdd orfp))
    else plist.prefixListEntryDelete orfp.route orfp.type orfp.seq orfp.le orfp.ge

/-- The entry at the front of a buffer. -/
def readOrf (family : Family) (rest : List Octet) : PrefixListEntry where
  seq := BitVec.ofNat 32 (ofOctets [rest.getD 1 0, rest.getD 2 0, rest.getD 3 0, rest.getD 4 0])
  ge := (rest.getD 5 0).toNat
  le := (rest.getD 6 0).toNat
  type := if rest.getD 0 0 &&& orfCommonPartDeny ≠ 0 then .deny else .permit
  route :=
    { family
      prefixlen := (rest.getD 7 0).toNat
      octets := Vector.ofFn fun i => if i.val < psize (rest.getD 7 0).toNat then
        rest.getD (8 + i.val) 0 else 0 }

/-- The loop over the entries, `left` octets long. Whatever is wrong removes the whole list. -/
def orfEntries (family : Family) : Nat → Nat → List Octet → Option PrefixList → Option PrefixList
  | 0, _, _, plist => plist
  | fuel + 1, left, rest, plist =>
    if left = 0 then plist
    else if rest.getD 0 0 &&& orfCommonPartRemoveAll ≠ 0 then none
    else
      let ret := prefixBgpOrfSet family plist (readOrf family rest)
        (rest.getD 0 0 &&& orfCommonPartRemove = 0)
      if ret.1 then
        orfEntries family fuel (left - (8 + psize (rest.getD 7 0).toNat))
          (rest.drop (8 + psize (rest.getD 7 0).toNat)) ret.2
      else none

/-- The loop over the filters of a message, `left` octets long. -/
def orfParts (family : Family) : Nat → Nat → List Octet → Option PrefixList → Option PrefixList
  | 0, _, _, plist => plist
  | fuel + 1, left, rest, plist =>
    if left = 0 then plist
    else
      let orfLen := ofOctets [rest.getD 1 0, rest.getD 2 0]
      let plist :=
        if rest.getD 0 0 = orfTypePrefix ∨ rest.getD 0 0 = orfTypePrefixOld then
          orfEntries family orfLen orfLen (rest.drop 3) plist else plist
      orfParts family fuel (left - (3 + orfLen)) (rest.drop (3 + orfLen)) plist

def Afi.ofCode (code : BitVec 16) : Option Afi :=
  if code = afiIp then some .ip else if code = afiIp6 then some .ip6 else none

def Safi.ofCode (code : Octet) : Option Safi :=
  if code = safiUnicast then some .unicast
  else if code = safiMulticast then some .multicast
  else if code = bgpSafiVpnv4 then some .mplsVpn
  else none

/-- What the receiver keeps of a neighbour. `orfPlist` is the list under the neighbour's name. -/
structure OrfPeer where
  refreshAdv : Bool := true
  status : Fsm.Status := .established
  orfPlist : Afi → Safi → Option PrefixList := fun _ _ => none
  waitRefresh : Afi → Safi → Bool := fun _ _ => false

inductive RefreshOutcome where
  | notify (code subcode : Octet)
  | ignored
  | deferred
  | announced (afi : Afi) (safi : Safi)
deriving DecidableEq

namespace OrfPeer

def setOrfPlist (peer : OrfPeer) (afi : Afi) (safi : Safi) (plist : Option PrefixList) : OrfPeer :=
  { peer with orfPlist := fun a s => if a = afi ∧ s = safi then plist else peer.orfPlist a s }

/-- The routes go out now. -/
def announce (peer : OrfPeer) (afi : Afi) (safi : Safi) : RefreshOutcome × OrfPeer :=
  (.announced afi safi, { peer with
    waitRefresh := fun a s => !(a = afi && s = safi) && peer.waitRefresh a s })

/-- `bgp_route_refresh_receive`, with the message from behind its header. -/
def bgpRouteRefreshReceive (peer : OrfPeer) (size : Nat) (ibuf : List Octet) :
    RefreshOutcome × OrfPeer :=
  if peer.refreshAdv = false then (.notify 1 3, peer)
  else if peer.status ≠ .established then (.notify 5 0, peer)
  else
    match Afi.ofCode (BitVec.ofNat 16 (ofOctets [ibuf.getD 0 0, ibuf.getD 1 0])),
      Safi.ofCode (ibuf.getD 3 0) with
    | some afi, some safi =>
      if size = 4 then peer.announce afi safi
      else if (size : Int) - 4 < 5 then (.notify 6 0, peer)
      else
        let peer := peer.setOrfPlist afi safi
          (orfParts afi.family size (size - 5) (ibuf.drop 5) (peer.orfPlist afi safi))
        if ibuf.getD 4 0 = refreshDefer then (.deferred, peer) else peer.announce afi safi
    | _, _ => (.ignored, peer)

end OrfPeer
end Zebra.Bgpd
