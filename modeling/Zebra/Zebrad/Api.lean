import Zebra.Base.Codec
import Zebra.Zebrad.MessageQueue
import Zebra.Zebrad.Rib

/-! The messages between zebra and its clients, from zebra/zserv.c, lib/zclient.c and
bgpd/bgp_zebra.c. -/
namespace Zebra.Zebrad
open Base

inductive Family where
  | inet
  | inet6
deriving DecidableEq

/-- `AF_INET` and `AF_INET6`. -/
def Family.value : Family → Octet
  | .inet => 2
  | .inet6 => 10

def prefixBlen (family : Octet) : Nat :=
  if family = Family.inet.value then 4 else if family = Family.inet6.value then 16 else 0

structure Connected where
  flags : Octet
  family : Family
  address : List Octet
  prefixlen : Octet
  destination : Option (List Octet)
  addressSize : address.length = prefixBlen family.value
  destinationSize : ∀ octets ∈ destination, octets.length = prefixBlen family.value

/-- The destination as it is put: zeros where there is none. -/
def Connected.destinationPut (ifc : Connected) : List Octet :=
  ifc.destination.getD (List.replicate (prefixBlen ifc.family.value) 0)

def zsendInterfaceAddressAdd (ifindex : BitVec 32) (ifc : Connected) : List Octet :=
  framed zebraMaxPacketSiz 3 [.whole (toOctets 4 ifindex.toNat), .whole [ifc.flags],
    .whole [ifc.family.value],
    .part ifc.address, .whole [ifc.prefixlen], .part ifc.destinationPut]

/-- `zsend_interface_address_delete`, which puts no prefix length. -/
def zsendInterfaceAddressDelete (ifindex : BitVec 32) (ifc : Connected) : List Octet :=
  framed zebraMaxPacketSiz 4 [.whole (toOctets 4 ifindex.toNat), .whole [ifc.flags],
    .whole [ifc.family.value],
    .part ifc.address, .part ifc.destinationPut]

structure AddressRead where
  ifindex : BitVec 32
  flags : Octet
  family : Octet
  address : List Octet
  prefixlen : Octet
  destination : List Octet
deriving DecidableEq

/-- Both readers of addresses. A client that does not know the interface stops at its index. -/
def interfaceAddressRead (known : BitVec 32 → Bool) : Decoder (Option AddressRead) := do
  let ifindex ← Decoder.long
  if known ifindex then
    let flags ← Decoder.octet
    let family ← Decoder.octet
    let address ← Decoder.take (prefixBlen family)
    let prefixlen ← Decoder.octet
    let destination ← Decoder.take (prefixBlen family)
    pure (some { ifindex, flags, family, address, prefixlen, destination })
  else pure none

def zebraInterfaceAddressAddRead (known : BitVec 32 → Bool) : Decoder (Option AddressRead) :=
  interfaceAddressRead known

def zebraInterfaceAddressDeleteRead (known : BitVec 32 → Bool) : Decoder (Option AddressRead) :=
  interfaceAddressRead known

structure RoutePrefix (count : Nat) where
  addr : BitVec (8 * count)
  prefixlen : Fin (8 * count + 1)

/-- `PSIZE`. -/
def psize (prefixlen : Nat) : Nat :=
  (prefixlen + 7) / 8

/-- An address of which only the first octets are given. -/
def leading (count : Nat) (octets : List Octet) : BitVec (8 * count) :=
  BitVec.ofNat _ (ofOctets (octets ++ List.replicate (count - octets.length) 0))

namespace RoutePrefix
variable {count : Nat}

def octets (p : RoutePrefix count) : List Octet :=
  (toOctets count p.addr.toNat).take (psize p.prefixlen)

/-- The prefix of the octets that are put of it. -/
def sent (p : RoutePrefix count) : RoutePrefix count :=
  ⟨leading count p.octets, p.prefixlen⟩

def puts (p : RoutePrefix count) : List Put :=
  [.whole [BitVec.ofNat 8 p.prefixlen], .part p.octets]

/-- A prefix length that is too great has the octets written over the end of the address. -/
def read : Decoder (RoutePrefix count) := do
  let prefixlen ← Decoder.octet
  if fits : prefixlen.toNat < 8 * count + 1 then
    let octets ← Decoder.take (psize prefixlen.toNat)
    pure ⟨leading count octets, prefixlen.toNat, fits⟩
  else failure

end RoutePrefix

abbrev PrefixIpv6 := RoutePrefix 16

def PrefixIpv4.route (p : PrefixIpv4) : RoutePrefix 4 :=
  ⟨p.addr, p.prefixlen⟩

def RoutePrefix.ipv4 (p : RoutePrefix 4) : PrefixIpv4 :=
  ⟨p.addr, p.prefixlen⟩

/-- The bits of `ZAPI_MESSAGE_*`. -/
inductive ZapiMessage where
  | nexthop
  | ifindex
  | distance
  | metric

def ZapiMessage.bit : ZapiMessage → Nat
  | .nexthop => 0
  | .ifindex => 1
  | .distance => 2
  | .metric => 3

def has (message : Octet) (field : ZapiMessage) : Bool :=
  message.getLsbD field.bit

/-- `stream_put_in_addr`, or `stream_write` of 16 octets. -/
def gatePut {count : Nat} (gate : BitVec (8 * count)) : Put :=
  if count = 4 then .whole (toOctets count gate.toNat) else .part (toOctets count gate.toNat)

/-- What the functions `zsend_*_multipath` put: the first nexthop that is in the FIB, if
there is one. -/
def zsendMultipath {count : Nat} (command type flags message : Octet) (p : RoutePrefix count)
    (hop : Option (BitVec (8 * count) × BitVec 32)) (metric : Option (BitVec 32)) : List Octet :=
  let hopPuts :=
    hop.elim [] fun hop => [.whole [1], gatePut hop.1, .whole [1], .whole (toOctets 4 hop.2.toNat)]
  let metricPuts := metric.elim [] fun metric => [.whole (toOctets 4 metric.toNat)]
  framed zebraMaxPacketSiz command
    ([.whole [type], .whole [flags], .whole [message]] ++ p.puts ++ hopPuts ++ metricPuts)

def fibHop (rib : Rib) (gate : Nexthop → InAddr) : Option (InAddr × BitVec 32) :=
  (rib.nexthop.find? Nexthop.fib).map fun nexthop => (gate nexthop, nexthop.ifindex)

def addGate (nexthop : Nexthop) : InAddr :=
  if nexthop.type = .ipv4 ∨ nexthop.type = .ipv4Ifindex then nexthop.gate else 0

def deleteGate (nexthop : Nexthop) : InAddr :=
  if nexthop.type = .ipv4 then nexthop.gate else 0

def zsendIpv4AddMultipath (p : PrefixIpv4) (rib : Rib) : List Octet :=
  zsendMultipath 7 rib.type rib.flags 0x0b p.route (fibHop rib addGate) (some rib.metric)

def zsendIpv4DeleteMultipath (p : PrefixIpv4) (rib : Rib) : List Octet :=
  zsendMultipath 8 rib.type rib.flags 0x03 p.route (fibHop rib deleteGate) none

/-- A nexthop of an IPv6 route, as far as it is sent. -/
structure Nexthop6 where
  ipv6 : Bool
  fib : Bool
  gate : BitVec (8 * 16)
  ifindex : BitVec 32

structure Rib6 where
  type : Octet
  flags : Octet
  metric : BitVec 32
  nexthop : List Nexthop6

def fibHop6 (rib : Rib6) : Option (BitVec (8 * 16) × BitVec 32) :=
  (rib.nexthop.find? Nexthop6.fib).map fun nexthop =>
    (if nexthop.ipv6 then nexthop.gate else 0, nexthop.ifindex)

def zsendIpv6AddMultipath (p : PrefixIpv6) (rib : Rib6) : List Octet :=
  zsendMultipath 9 rib.type rib.flags 0x0b p (fibHop6 rib) (some rib.metric)

def zsendIpv6DeleteMultipath (p : PrefixIpv6) (rib : Rib6) : List Octet :=
  zsendMultipath 10 rib.type rib.flags 0x03 p (fibHop6 rib) none

/-- What a client has read of a route, a field being `none` that the message does not have. -/
structure ClientRoute (count : Nat) where
  type : Octet
  flags : Octet
  message : Octet
  p : RoutePrefix count
  nexthop : Option (Octet × BitVec (8 * count))
  ifindex : Option (Octet × BitVec 32)
  distance : Option Octet
  metric : Option (BitVec 32)

/-- A field behind its number. -/
def counted {Value : Type} (decoder : Decoder Value) : Decoder (Option (Octet × Value)) := do
  let num ← Decoder.octet
  let value ← decoder
  pure (some (num, value))

def given {Value : Type} (decoder : Decoder Value) : Decoder (Option Value) := do
  let value ← decoder
  pure (some value)

def zebraRead (count : Nat) : Decoder (ClientRoute count) := do
  let type ← Decoder.octet
  let flags ← Decoder.octet
  let message ← Decoder.octet
  let p ← RoutePrefix.read
  let nexthop ← Decoder.optional (has message .nexthop) (counted (Decoder.number count)) none
  let ifindex ← Decoder.optional (has message .ifindex) (counted (Decoder.long)) none
  let distance ← Decoder.optional (has message .distance) (given Decoder.octet) none
  let metric ← Decoder.optional (has message .metric) (given Decoder.long) none
  pure { type, flags, message, p, nexthop, ifindex, distance, metric }

def zebraReadIpv4 : Decoder (ClientRoute 4) :=
  zebraRead 4

def zebraReadIpv6 : Decoder (ClientRoute 16) :=
  zebraRead 16

/-- `struct zapi_ipv4` and `struct zapi_ipv6`. -/
structure ZapiRoute (count : Nat) where
  type : Octet
  flags : Octet
  message : Octet
  nexthop : List (BitVec (8 * count))
  ifindex : List (BitVec 32)
  distance : Octet
  metric : BitVec 32
  fewNexthops : nexthop.length < 256
  fewIfindexes : ifindex.length < 256

/-- The nexthops that the functions `zapi_*` put; a blackhole is counted in their place. -/
def ZapiRoute.hopPuts {count : Nat} (api : ZapiRoute count) (nexthopType : Octet)
    (blackhole : Bool) : List Put :=
  (if blackhole then [.whole [1], .whole [9]]
    else [.whole [BitVec.ofNat 8 (api.nexthop.length + api.ifindex.length)]]) ++
  (api.nexthop.flatMap fun gate => [.whole [nexthopType], gatePut gate]) ++
  api.ifindex.flatMap fun ifindex => [.whole [1], .whole (toOctets 4 ifindex.toNat)]

def zapiRoute {count : Nat} (command nexthopType : Octet) (blackhole : Bool) (p : RoutePrefix count)
    (api : ZapiRoute count) : List Octet :=
  framed zebraMaxPacketSiz command
    ([.whole [api.type], .whole [api.flags], .whole [api.message]] ++ p.puts ++
    (if has api.message .nexthop then api.hopPuts nexthopType blackhole else []) ++
    (if has api.message .distance then [.whole [api.distance]] else []) ++
    (if has api.message .metric then [.whole (toOctets 4 api.metric.toNat)] else []))

def ZapiRoute.blackhole (api : ZapiRoute 4) : Bool :=
  api.flags.getLsbD ZebraFlag.blackhole.bit

def zapiIpv4Add (p : PrefixIpv4) (api : ZapiRoute 4) : List Octet :=
  zapiRoute 7 3 api.blackhole p.route api

def zapiIpv4Delete (p : PrefixIpv4) (api : ZapiRoute 4) : List Octet :=
  zapiRoute 8 3 api.blackhole p.route api

def zapiIpv6Add (p : PrefixIpv6) (api : ZapiRoute 16) : List Octet :=
  zapiRoute 9 6 false p api

def zapiIpv6Delete (p : PrefixIpv6) (api : ZapiRoute 16) : List Octet :=
  zapiRoute 10 6 false p api

/-- The cases of `nexthop_type` in `zread_ipv4_add`; those of `zread_ipv4_delete` take the
same octets. -/
def readMessageNexthop : Decoder MessageNexthop := do
  let type ← Decoder.octet
  if type = 1 then
    let ifindex ← Decoder.long
    pure (.ifindex ifindex)
  else if type = 2 then
    let length ← Decoder.octet
    let _ ← Decoder.take length.toNat
    pure .skipped
  else if type = 3 then
    let ipv4 ← Decoder.long
    pure (.ipv4 ipv4)
  else if type = 6 then
    let _ ← Decoder.take 16
    pure .skipped
  else if type = 9 then pure .blackhole
  else pure .skipped

/-- As many nexthops as the octet in front says. -/
def readHops {Hop : Type} (readHop : Decoder Hop) :
    Decoder { hops : List Hop // hops.length < 256 } := do
  let num ← Decoder.octet
  let hops ← Decoder.repeated readHop num.toNat
  pure ⟨hops.1, hops.2.trans_lt num.isLt⟩

/-- What every reader of zebra begins and ends with. -/
structure ZapiRead (count : Nat) (Hop : Type) where
  type : Octet
  flags : Octet
  p : RoutePrefix count
  hops : { hops : List Hop // hops.length < 256 }
  distance : Octet
  metric : BitVec 32

def zread {count : Nat} {Hop : Type} (readHop : Decoder Hop) : Decoder (ZapiRead count Hop) := do
  let type ← Decoder.octet
  let flags ← Decoder.octet
  let message ← Decoder.octet
  let p ← RoutePrefix.read
  let hops ← Decoder.optional (has message .nexthop) (readHops readHop) ⟨[], Nat.zero_lt_succ 255⟩
  let distance ← Decoder.optional (has message .distance) Decoder.octet 0
  let metric ← Decoder.optional (has message .metric) (Decoder.long) 0
  pure { type, flags, p, hops, distance, metric }

/-- The route that `zread_ipv4_add` hands to the RIB. -/
def zreadIpv4AddMessage : Decoder RouteMessage := do
  let read : ZapiRead 4 MessageNexthop ← zread readMessageNexthop
  pure ⟨read.type, read.flags, read.p.ipv4, read.hops.1, read.distance, read.metric, read.hops.2⟩

/-- What the readers that know one nexthop have read. -/
structure LastRead (count : Nat) where
  type : Octet
  flags : Octet
  p : RoutePrefix count
  nexthop : BitVec (8 * count)
  ifindex : BitVec 32
  distance : Octet
  metric : BitVec 32

/-- A nexthop for them: each takes the place of the one before. -/
inductive LastHop (count : Nat) where
  | nexthop (gate : BitVec (8 * count))
  | ifindex (ifindex : BitVec 32)
  | other

def LastHop.take {count : Nat} (last : BitVec (8 * count) × BitVec 32) :
    LastHop count → BitVec (8 * count) × BitVec 32
  | .nexthop gate => (gate, last.2)
  | .ifindex index => (last.1, index)
  | .other => last

def zreadLast {count : Nat} (readHop : Decoder (LastHop count)) : Decoder (LastRead count) := do
  let read ← zread readHop
  let last := read.hops.1.foldl LastHop.take (0, 0)
  pure ⟨read.type, read.flags, read.p, last.1, last.2, read.distance, read.metric⟩

def MessageNexthop.last : MessageNexthop → LastHop 4
  | .ifindex index => .ifindex index
  | .ipv4 gate => .nexthop gate
  | .blackhole | .skipped => .other

def readLastHop4 : Decoder (LastHop 4) := do
  let hop ← readMessageNexthop
  pure hop.last

def readLastHop6 : Decoder (LastHop 16) := do
  let type ← Decoder.octet
  if type = 6 then
    let gate ← Decoder.number 16
    pure (.nexthop gate)
  else if type = 1 then
    let ifindex ← Decoder.long
    pure (.ifindex ifindex)
  else pure .other

def zreadIpv4Delete : Decoder (LastRead 4) :=
  zreadLast readLastHop4

def zreadIpv6Add : Decoder (LastRead 16) :=
  zreadLast readLastHop6

def zreadIpv6Delete : Decoder (LastRead 16) :=
  zreadLast readLastHop6

end Zebra.Zebrad
