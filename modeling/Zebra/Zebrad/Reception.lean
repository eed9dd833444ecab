import Zebra.Base.Unpack
import Zebra.Base.Workspace
import Zebra.Zebrad.Api

/-! How zebra and its clients receive messages, from zebra/zserv.c, lib/zclient.c and
lib/stream.c. -/
namespace Zebra.Reception
open Base Zebrad

/-- `struct stream`; the size is that of the data. -/
structure Stream where
  data : List Octet
  getp : Nat := 0
  putp : Nat := 0
  endp : Nat := 0

def Stream.size (s : Stream) : Nat := s.data.length

def streamNew (size : Nat) : Stream := { data := List.replicate size 0 }

def Stream.reset (s : Stream) : Stream := { s with getp := 0, putp := 0, endp := 0 }

/-- A socket: the octets that the other side still sends. Behind them a read fails, or finds the
  end. -/
structure Socket where
  octets : List Octet
  broken : Bool

/-- What `readn` returns. -/
def Socket.readn (sock : Socket) (nbytes : Nat) : Int :=
  if nbytes ≤ sock.octets.length then nbytes else if sock.broken then -1 else sock.octets.length

def Socket.rest (sock : Socket) (nbytes : Nat) : Socket :=
  { sock with octets := sock.octets.drop nbytes }

/-- `stream_read`: the octets are stored wherever the put pointer is. -/
def Stream.read (s : Stream) (sock : Socket) (size : Nat) : Stream :=
  let nbytes := sock.readn size
  let data := overwrite s.data s.putp (sock.octets.take size)
  if 0 < nbytes then { s with data, putp := s.putp + nbytes.toNat, endp := s.endp + nbytes.toNat }
    else { s with data }

/-- Where the octets end that `stream_read` stores, and how many the stream holds. -/
def Stream.stores (s : Stream) (sock : Socket) (size : Nat) : Nat × Nat :=
  (s.putp + (sock.octets.take size).length, s.size)

/-- The numbers of octets that were copied into structures, and how many these hold. -/
abbrev Copies := List (Nat × Nat)

abbrev ApiReader := Reader Copies Empty

def streamGetc : ApiReader Octet := Reader.octet

def streamGetl : ApiReader (BitVec 32) := Reader.number 4

def streamForward (size : Nat) : ApiReader Unit := Reader.forward size

/-- `stream_get` into a structure that holds so many octets. -/
def streamGet (size holds : Nat) : ApiReader (List Octet) := do
  Reader.change ((size, holds) :: ·)
  Reader.take size

/-- A prefix as the readers leave it, of which the length may be too great. -/
structure SentPrefix (count : Nat) where
  prefixlen : Octet
  addr : BitVec (8 * count)
deriving DecidableEq

def readPrefix (count : Nat) : ApiReader (SentPrefix count) := do
  let prefixlen ← streamGetc
  let octets ← streamGet (Zebrad.psize prefixlen.toNat) count
  pure ⟨prefixlen, leading count (octets.take count)⟩

/-- What zebra is called with. -/
inductive RouteCall where
  | ribAddIpv4Multipath (p : SentPrefix 4) (type flags : Octet) (nexthops : List MessageNexthop)
      (distance : Octet)
      (metric : BitVec 32)
  | ribDeleteIpv4 (type flags : Octet) (p : SentPrefix 4) (gate : BitVec (8 * 4))
    (ifindex : BitVec 32) (table : Int)
  | ribAddIpv6 (type flags : Octet) (p : SentPrefix 16) (gate : Option (BitVec (8 * 16)))
    (ifindex : BitVec 32)
  | ribDeleteIpv6 (type flags : Octet) (p : SentPrefix 16) (gate : Option (BitVec (8 * 16)))
    (ifindex : BitVec 32)
deriving DecidableEq

/-- The cases of `nexthop_type` for IPv4. -/
def readNexthop : ApiReader MessageNexthop := do
  let type ← streamGetc
  if type = 1 then
    let ifindex ← streamGetl
    pure (.ifindex ifindex)
  else if type = 2 then
    let ifnameLen ← streamGetc
    let _ ← streamForward ifnameLen.toNat
    pure .skipped
  else if type = 3 then
    let ipv4 ← streamGetl
    pure (.ipv4 ipv4)
  else if type = 6 then
    let _ ← streamForward 16
    pure .skipped
  else if type = 9 then pure .blackhole
  else pure .skipped

/-- The cases of `nexthop_type` for IPv6. -/
def readNexthop6 : ApiReader (LastHop 16) := do
  let type ← streamGetc
  if type = 6 then
    let octets ← streamGet 16 16
    pure (.nexthop (BitVec.ofNat _ (ofOctets octets)))
  else if type = 1 then
    let ifindex ← streamGetl
    pure (.ifindex ifindex)
  else pure .other

/-- What every reader of zebra begins and ends with. -/
structure StreamRead (count : Nat) (Hop : Type) where
  type : Octet
  flags : Octet
  p : SentPrefix count
  hops : List Hop
  distance : Octet
  metric : BitVec 32

def readHops {Hop : Type} (readHop : ApiReader Hop) : ApiReader (List Hop) := do
  let nexthopNum ← streamGetc
  readHop.repeated nexthopNum.toNat

def zread {Hop : Type} (count : Nat) (readHop : ApiReader Hop) :
    ApiReader (StreamRead count Hop) := do
  let type ← streamGetc
  let flags ← streamGetc
  let message ← streamGetc
  let p ← readPrefix count
  let hops ← Reader.optional (has message .nexthop) (readHops readHop) []
  let distance ← Reader.optional (has message .distance) streamGetc 0
  let metric ← Reader.optional (has message .metric) streamGetl 0
  pure { type, flags, p, hops, distance, metric }

def zreadIpv4Add : ApiReader RouteCall := do
  let read ← zread 4 readNexthop
  pure (.ribAddIpv4Multipath read.p read.type read.flags read.hops read.distance read.metric)

/-- The last nexthop and the last interface. -/
def lastHops {count : Nat} (hops : List (LastHop count)) : BitVec (8 * count) × BitVec 32 :=
  hops.foldl LastHop.take (0, 0)

def zreadIpv4Delete (table : Int) : ApiReader RouteCall := do
  let read ← zread 4 (do let hop ← readNexthop; pure hop.last)
  pure (.ribDeleteIpv4 read.type read.flags read.p (lastHops read.hops).1
    (lastHops read.hops).2 table)

/-- `IN6_IS_ADDR_UNSPECIFIED`. -/
def specified (gate : BitVec (8 * 16)) : Option (BitVec (8 * 16)) :=
  if gate = 0 then none else some gate

def zreadIpv6Add : ApiReader RouteCall := do
  let read ← zread 16 readNexthop6
  pure (.ribAddIpv6 read.type read.flags read.p
    (specified (lastHops read.hops).1) (lastHops read.hops).2)

def zreadIpv6Delete : ApiReader RouteCall := do
  let read ← zread 16 readNexthop6
  pure (.ribDeleteIpv6 read.type read.flags read.p
    (specified (lastHops read.hops).1) (lastHops read.hops).2)

/-- The reader of a command, where it is about a route. -/
def routeReader (table : Int) (command : Octet) : Option (ApiReader RouteCall) :=
  if command = 7 then some zreadIpv4Add
  else if command = 8 then some (zreadIpv4Delete table)
  else if command = 9 then some zreadIpv6Add
  else if command = 10 then some zreadIpv6Delete
  else none

/-- What a call did: where the octets ended that it stored and how many the stream holds, whether
the length wrapped when the header was taken off, how a reader left the stream, and the route that
it handed on. -/
structure Report where
  stored : List (Nat × Nat) := []
  wrapped : Bool := false
  reading : Option (Cursor Copies) := none
  route : Option RouteCall := none

/-- A client of zebra, `struct zserv`, with the socket that it writes to. -/
structure Zserv where
  ibuf : Stream
  sock : Socket
  rtmTable : Int

def zebraClientCreate (sock : Socket) (rtmTable : Int) : Zserv :=
  { ibuf := streamNew zebraMaxPacketSiz, sock, rtmTable }

/-- The `switch` on the command, of which the other cases hand on no route. -/
def Zserv.serve (client : Zserv) (command : Octet) (stored : List (Nat × Nat)) : Report :=
  match routeReader client.rtmTable command with
  | none => { stored }
  | some reader =>
    let outcome := reader.run client.ibuf.data {
      getp := client.ibuf.getp, lo := 0, hi := client.ibuf.endp, world := [] }
    { stored, reading := some outcome.2, route := outcome.1.toOption }

/-- The length that the header says, and the command. -/
def Stream.header (s : Stream) : Nat × Octet :=
  ((field s.data s.getp 2).toNat, field s.data (s.getp + 2) 1)

/-- `zebra_client_read`. A client that is closed is no more. -/
def zebraClientRead (client : Zserv) : Option Zserv × Report :=
  let stored := [client.ibuf.stores client.sock 3]
  if client.sock.readn 3 ≤ 0 then (none, { stored })
  else
    let ibuf := client.ibuf.read client.sock 3
    let sock := client.sock.rest 3
    let (length, command) := ibuf.header
    let ibuf := { ibuf with getp := ibuf.getp + 3 }
    if length < 3 then (none, { stored })
    else
      let length := length - 3
      if length = 0 then
        let client := { client with ibuf, sock }
        (some { client with ibuf := ibuf.reset }, client.serve command stored)
      else
        let stored := ibuf.stores sock length :: stored
        if sock.readn length ≤ 0 then (none, { stored })
        else
          let ibuf := ibuf.read sock length
          let client := { client with ibuf, sock := sock.rest length }
          (some { client with ibuf := ibuf.reset }, client.serve command stored)

/-- The clients of the first calls. -/
def zebraCalls : Nat → Zserv → List Zserv
  | 0, _ => []
  | calls + 1, client => client :: ((zebraClientRead client).1.elim [] (zebraCalls calls))

/-- `struct zclient`, a client's own side. -/
structure Zclient where
  ibuf : Stream
  sock : Socket

def zclientNew (sock : Socket) : Zclient := { ibuf := streamNew zebraMaxPacketSiz, sock }

/-- `zclient_read`, and whether the socket stays; the length is of 16 bits. -/
def zclientRead (zclient : Zclient) : Bool × Zclient × Report :=
  let ibuf := zclient.ibuf.reset
  let stored := [ibuf.stores zclient.sock 3]
  let after := ibuf.read zclient.sock 3
  let sock := zclient.sock.rest 3
  if zclient.sock.readn 3 ≠ 3 then (false, { ibuf := after, sock }, { stored })
  else
    let length := after.header.1
    let ibuf := if after.size ≤ length then streamNew (length + 1)
      else { after with getp := after.getp + 3 }
    let wrapped := decide (length < 3)
    let length := (length + 65536 - 3) % 65536
    let stored := ibuf.stores sock length :: stored
    (sock.readn length = length, { ibuf := ibuf.read sock length, sock := sock.rest length },
      { stored, wrapped })

/-- The client of the first calls; the buffer stays when it connects again. -/
def zclientCalls : Nat → Zclient → List Socket → List Zclient
  | 0, _, _ => []
  | calls + 1, zclient, socks =>
    let outcome := zclientRead zclient
    zclient :: if outcome.1 then zclientCalls calls outcome.2.1 socks
      else
        match socks with
        | [] => []
        | sock :: rest => zclientCalls calls { ibuf := outcome.2.1.ibuf, sock } rest

end Zebra.Reception
