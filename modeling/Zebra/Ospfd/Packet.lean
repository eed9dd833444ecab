import Zebra.Base.Workspace
import Zebra.Ospfd.Ase
import Zebra.Ospfd.Nsm

/-! Reception of ospfd/ospf_packet.c, as far as it works on the datagram, without the options for
opaque and NSSA LSAs. -/
namespace Zebra.Ospfd.Packet
open Base

structure CryptKey where
  keyId : Octet
  authKey : Vector Octet 16
deriving DecidableEq

inductive AuthType where
  | null
  | simple
  | cryptographic
deriving DecidableEq

def AuthType.code : AuthType → Nat
  | .null => 0
  | .simple => 1
  | .cryptographic => 2

/-- What reception asks of `struct ospf_neighbor`. -/
structure Neighbor where
  /-- The address of its table entry. -/
  src : InAddr
  routerId : InAddr
  state : NsmState
  /-- The state the event TwoWayReceived leads to. -/
  twoWay : NsmState
  cryptSeqnum : BitVec 32
  dd : DdState
  /-- `ospf_ls_retransmit_lookup` finds an LSA. -/
  retransmits : Octet → InAddr → InAddr → Bool

/-- What reception asks of `struct ospf_interface`, its parameters and its area. -/
structure Interface where
  ifp : Nat
  type : IfType
  address : InAddr
  prefixlen : Nat
  /-- The far end, `connected->destination`. -/
  destination : InAddr
  /-- The state is ISM_DR or ISM_Backup. -/
  designated : Bool
  areaId : InAddr
  externalRouting : ExternalRouting
  authType : AuthType
  authSimple : Vector Octet 8
  authCrypt : List CryptKey
  passive : Bool
  vHello : Nat
  vWait : Nat
  options : Octet
  priority : Octet
  mtu : Nat
  nbrs : List Neighbor
  /-- `ospf_lsa_lookup` finds an LSA. -/
  lsdb : Nat → InAddr → InAddr → Bool

/-- `struct ospf_vl_data`. -/
structure VlData where
  vlAreaId : InAddr
  vlPeer : InAddr
  vlOi : Interface
  up : Bool

/-- The router that receives: `struct ospf`, and the interface the datagram came in on. -/
structure Receiver where
  routerId : InAddr
  oiflist : List Interface
  areas : List InAddr
  vlinks : List VlData
  ifp : Option Nat

def ospfHeaderSize : Nat := 24
def ospfHelloMinSize : Nat := 20
def ospfDbDescMinSize : Nat := 8
def ospfLsUpdMinSize : Nat := 4
def ospfLsaHeaderSize : Nat := 20
def ospfLsaKeySize : Nat := 12
def ospfAuthSimpleSize : Nat := 8
def ospfAuthMd5Size : Nat := 16
def ospfAlldrouters : InAddr := 0xe0000006

/-- A number of the datagram in host order. -/
def number (data : List Octet) (pos count : Nat) : Nat := (field data pos count).toNat

def sameNetwork (oi : Interface) (addr : InAddr) : Bool :=
  oi.address &&& masklen2ip oi.prefixlen = addr &&& masklen2ip oi.prefixlen

def ospfIfLookupByLocalAddr (ospf : Receiver) (ifp : Option Nat) (address : InAddr) :
    Option Interface :=
  ospf.oiflist.find? fun oi =>
    decide (oi.type ≠ .virtuallink) && ifp.all (· = oi.ifp) && decide (address = oi.address)

/-- A point-to-point interface is taken at once, of the others the last one whose network it is. -/
def recvIf (src : InAddr) (found : Option Interface) : List Interface → Option Interface
  | [] => found
  | oi :: rest =>
    if oi.type = .virtuallink then recvIf src found rest
    else if oi.type = .pointopoint then
      if oi.destination = src then some oi else recvIf src found rest
    else if sameNetwork oi src then recvIf src (some oi) rest
    else recvIf src found rest

def ospfIfLookupRecvIf (ospf : Receiver) (src : InAddr) : Option Interface :=
  recvIf src none ospf.oiflist

section
variable (oi : Interface)

def ospfNbrLookupByAddr (addr : InAddr) : Option Neighbor :=
  oi.nbrs.find? fun nbr => nbr.src = addr

def ospfNbrLookupByRouterid (id : InAddr) : Option Neighbor :=
  oi.nbrs.find? fun nbr => nbr.routerId = id

/-- The octets `recvmsg` leaves in the buffer, when the datagram is not dropped. -/
def ospfRecvPacket (datagram : List Octet) : Option (List Octet) :=
  if datagram.length < 20 then none
  else if datagram.length < number datagram 2 2 then none
  else some (datagram.take (number datagram 2 2))

/-- `IN_MULTICAST`. -/
def inMulticast (addr : InAddr) : Bool := addr &&& 0xf0000000 = 0xe0000000

/-- The virtual links one after the other; `none` where the function falls through. -/
def associateVlink (rcvOi : Interface) (areas : List InAddr) (h : Nat) :
    List VlData → Workspace → Option (Option Interface) × Workspace
  | [], work => (none, work)
  | vlData :: rest, work =>
    let data := work.data
    if vlData.vlAreaId ∈ areas ∧ vlData.vlAreaId = rcvOi.areaId then
      let work := work.see (h + 4) 4
      if vlData.vlPeer = field data (h + 4) 4 then
        (some (if vlData.up then some vlData.vlOi else none), work)
      else associateVlink rcvOi areas h rest work
    else associateVlink rcvOi areas h rest work

def ospfAssociatePacketVl (ospf : Receiver) (oi : Option Interface) (h : Nat) (work : Workspace) :
    Option Interface × Workspace :=
  let data := work.data
  let work := work.see 16 4
  if inMulticast (field data 16 4) then (oi, work)
  else
    let work := work.see (h + 8) 4
    if field data (h + 8) 4 ≠ 0 then (oi, work)
    else
      match oi.or (ospfIfLookupByLocalAddr ospf ospf.ifp (field data 16 4)) with
      | none => (none, work)
      | some rcvOi =>
        match associateVlink rcvOi ospf.areas h ospf.vlinks work with
        | (some found, work) => (found, work)
        | (none, work) => (oi, work)

/-- `ospf_auth_type`: without a key, the Cisco way. -/
def ospfAuthType : AuthType :=
  if oi.authType = .cryptographic ∧ oi.authCrypt = [] then .null else oi.authType

def ospfCheckNetworkMask (src : InAddr) : Bool :=
  oi.type = .pointopoint || oi.type = .virtuallink || sameNetwork oi src

/-- The keys one after the other. -/
def checkCrypt (h : Nat) : List CryptKey → Workspace → Bool × Workspace
  | [], work => (false, work)
  | ck :: rest, work =>
    let data := work.data
    let work := work.see (h + 19) 1
    if number data (h + 19) 1 = ospfAuthMd5Size then
      let work := work.see (h + 18) 1
      if field data (h + 18) 1 = ck.keyId then
        let work := work.see (h + 2) 2
        if number data (h + 2) 2 + ospfAuthSimpleSize ≤ data.length then (true, work)
        else checkCrypt h rest work
      else checkCrypt h rest work
    else checkCrypt h rest work

def ospfCheckAuth (h : Nat) (work : Workspace) : Bool × Workspace :=
  let data := work.data
  let work := work.see (h + 14) 2
  let authType := number data (h + 14) 2
  if authType = AuthType.null.code then (true, work)
  else if authType = AuthType.simple.code then
    let work := work.see (h + 16) ospfAuthSimpleSize
    (decide (oi.authSimple.toList = slice data (h + 16) ospfAuthSimpleSize), work)
  else if authType = AuthType.cryptographic.code then checkCrypt h oi.authCrypt work
  else (false, work)

/-- The 16-bit words of a packet, an odd octet at its end filled up with zero. -/
def words : List Octet → List Nat
  | first :: second :: rest => (256 * first.toNat + second.toNat) :: words rest
  | [odd] => [256 * odd.toNat]
  | [] => []

/-- `in_cksum`. The result does not depend on the byte order of the words. -/
def inCksum (octets : List Octet) : BitVec 16 :=
  let sum := (words octets).sum
  let sum := sum / 65536 + sum % 65536
  let sum := sum + sum / 65536
  ~~~ BitVec.ofNat 16 sum

/-- The packet with the authentication data and the checksum cleared. -/
def cleared (data : List Octet) (h : Nat) : List Octet :=
  overwrite (overwrite data (h + 16) (List.replicate 8 0)) (h + 12) [0, 0]

def ospfCheckSum (h : Nat) (work : Workspace) : Bool × Workspace :=
  let work := work.put (h + 16) (List.replicate 8 0)
  let work := work.see (h + 12) 2
  let sum := field work.data (h + 12) 2
  let work := work.put (h + 12) [0, 0]
  let work := work.see (h + 2) 2
  let length := number work.data (h + 2) 2
  let work := work.see h length
  (decide (inCksum (slice work.data h length) = sum), work)

def ospfCryptKeyLookup (keyId : Octet) : Option CryptKey :=
  oi.authCrypt.find? fun ck => ck.keyId = keyId

end

variable (md5 : List Octet → List Octet)

/-- The digest behind the packet is that of the packet and the key. -/
def digestMatches (data : List Octet) (h length : Nat) (ck : CryptKey) : Bool :=
  slice data (h + length) ospfAuthMd5Size = md5 (slice data h length ++ ck.authKey.toList)

def compareDigest (h length : Nat) (ck : CryptKey) (work : Workspace) : Bool × Workspace :=
  let data := work.data
  let work := work.see h length
  let work := work.see (h + length) ospfAuthMd5Size
  (digestMatches md5 data h length ck, work)

def ospfCheckMd5Digest (oi : Interface) (h length : Nat) (work : Workspace) : Bool × Workspace :=
  let data := work.data
  let work := work.see (h + 18) 1
  match ospfCryptKeyLookup oi (field data (h + 18) 1) with
  | none => (false, work)
  | some ck =>
    let work := work.see (h + 4) 4
    match ospfNbrLookupByRouterid oi (field data (h + 4) 4) with
    | none => compareDigest md5 h length ck work
    | some nbr =>
      let work := work.see (h + 20) 4
      if number data (h + 20) 4 < nbr.cryptSeqnum.toNat then (false, work)
      else compareDigest md5 h length ck work

/-- The checksum, or the digest in its place. -/
def checkSumOrDigest (oi : Interface) (h : Nat) (work : Workspace) : Bool × Workspace :=
  let data := work.data
  let work := work.see (h + 14) 2
  if number data (h + 14) 2 ≠ AuthType.cryptographic.code then ospfCheckSum h work
  else
    let work := work.see (h + 12) 2
    if field data (h + 12) 2 ≠ 0 then (false, work)
    else
      let work := work.see (h + 2) 2
      ospfCheckMd5Digest md5 oi h (number data (h + 2) 2) work

def ospfVerifyHeader (oi : Interface) (h : Nat) (work : Workspace) : Bool × Workspace :=
  let data := work.data
  let work := work.see h 1
  if number data h 1 ≠ 2 then (false, work)
  else
    let work := work.see (h + 8) 4
    if field data (h + 8) 4 ≠ oi.areaId then (false, work)
    else
      let work := work.see 12 4
      if !ospfCheckNetworkMask oi (field data 12 4) then (false, work)
      else
        let work := work.see (h + 14) 2
        if number data (h + 14) 2 ≠ (ospfAuthType oi).code then (false, work)
        else
          match ospfCheckAuth oi h work with
          | (false, work) => (false, work)
          | (true, work) => checkSumOrDigest md5 oi h work

def ospfOptionT : Octet := 1
def ospfOptionE : Octet := 2

/-- The neighbours listed in a Hello until one of them is this router. -/
def ospfNbrBidirectional (routerId : InAddr) : Nat → Nat → Workspace → Bool × Workspace
  | _, 0, work => (false, work)
  | pos, max + 1, work =>
    let data := work.data
    let work := work.see pos 4
    if routerId = field data pos 4 then (true, work)
    else ospfNbrBidirectional routerId (pos + 4) max work

/-- What the neighbour is told to be afterwards. -/
def helloStore (body : Nat) (work : Workspace) : Workspace :=
  ((work.see (body + 7) 1).see (body + 12) 4).see (body + 16) 4

section
variable (ospf : Receiver) (oi : Interface)

/-- The part of `ospf_hello` behind its checks. -/
def helloAccepted (src : InAddr) (body size : Nat) (work : Workspace) : Workspace :=
  let oldState := ((ospfNbrLookupByAddr oi src).map (·.state)).getD .down
  let work := if oi.type = .nbma ∧ oi.priority = 0 then work.see (body + 7) 1 else work
  if oi.type = .nbma ∧ (oldState = .down ∨ oldState = .attempt) then helloStore body work
  else
    let work := work.minus size ospfHelloMinSize
    match ospfNbrBidirectional ospf.routerId (body + ospfHelloMinSize)
      ((size - ospfHelloMinSize) / 4) work with
    | (true, work) => helloStore body (work.see (body + 6) 1)
    | (false, work) => helloStore body work

def ospfHello (src : InAddr) (h size : Nat) (work : Workspace) : Workspace :=
  let data := work.data
  let body := h + ospfHeaderSize
  let work := work.see (h + 4) 4
  if field data (h + 4) 4 = ospf.routerId then work
  else if oi.passive then work
  else
    let work := work.see body 4
    if oi.type ≠ .pointopoint ∧ oi.type ≠ .virtuallink ∧
      oi.prefixlen ≠ ipMasklen (field data body 4) then work
    else
      let work := work.see (body + 4) 2
      if oi.vHello ≠ number data (body + 4) 2 then work
      else
        let work := work.see (body + 8) 4
        if oi.vWait ≠ number data (body + 8) 4 then work
        else
          let work := work.see (body + 6) 1
          if field data (body + 6) 1 &&& ospfOptionT ≠ 0 then work
          else if oi.options &&& ospfOptionE ≠ field data (body + 6) 1 &&& ospfOptionE then work
          else helloAccepted ospf oi src body size work

def knownType (type : Nat) : Bool := 1 ≤ type && type < 6

/-- The headers of a description; `false` where the function returns early. -/
def dbDescHeaders (oi : Interface) : Nat → Nat → Workspace → Bool × Workspace
  | _, 0, work => (true, work)
  | pos, rounds + 1, work =>
    let data := work.data
    let work := work.see (pos + 3) 1
    let type := number data (pos + 3) 1
    if !knownType type then (false, work)
    else if type = 5 ∧ oi.externalRouting ≠ .default then (false, work)
    else dbDescHeaders oi (pos + ospfLsaHeaderSize) rounds (work.see pos ospfLsaHeaderSize)

/-- `ospf_db_desc_proc`; the remaining size is a 16-bit number. -/
def ospfDbDescProc (oi : Interface) (body size : Nat) (work : Workspace) : Workspace :=
  let work := work.minus size ospfDbDescMinSize
  let size := (size + 65536 - ospfDbDescMinSize) % 65536
  match dbDescHeaders oi (body + ospfDbDescMinSize) (size / ospfLsaHeaderSize) work with
  | (false, work) => work
  | (true, work) => ((work.see (body + 3) 1).see (body + 4) 4).see (body + 2) 1

section
variable (data : List Octet) (body : Nat)

/-- What `ospf_db_desc` reads as `struct ospf_db_desc`. -/
def ddOptions : Octet := field data (body + 2) 1
def ddFlags : Octet := field data (body + 3) 1
def ddSeqnum : BitVec 32 := field data (body + 4) 4

end

def ospfDbDescIsDup (nbr : Neighbor) (body : Nat) (work : Workspace) : Bool × Workspace :=
  let data := work.data
  let work := work.see (body + 2) 1
  if ddOptions data body ≠ nbr.dd.lastRecv.2.1 then (false, work)
  else
    let work := work.see (body + 3) 1
    if ddFlags data body ≠ nbr.dd.lastRecv.1 then (false, work)
    else
      let work := work.see (body + 4) 4
      (decide (ddSeqnum data body = nbr.dd.lastRecv.2.2), work)

/-- The case of state ExStart. -/
def dbDescExStart (nbr : Neighbor) (body size : Nat) (work : Workspace) : Workspace :=
  let data := work.data
  let work := work.see (body + 3) 1
  let flags := ddFlags data body
  if flags &&& ospfDdFlagAll = ospfDdFlagAll ∧ size = ospfDbDescMinSize then
    if ospf.routerId.toNat < nbr.routerId.toNat then
      ospfDbDescProc oi body size ((work.see (body + 4) 4).see (body + 2) 1)
    else work
  else if !isSetDdMs flags && !isSetDdI flags then
    let work := work.see (body + 4) 4
    if ddSeqnum data body = nbr.dd.ddSeqnum ∧ nbr.routerId.toNat < ospf.routerId.toNat then
      ospfDbDescProc oi body size (work.see (body + 2) 1)
    else work
  else work

/-- The number that comes next. -/
def expectedSeqnum (nbr : Neighbor) : BitVec 32 :=
  if isSetDdMs nbr.dd.ddFlags then nbr.dd.ddSeqnum else nbr.dd.ddSeqnum + 1

/-- The case of state Exchange. -/
def dbDescExchange (oi : Interface) (nbr : Neighbor) (body size : Nat) (work : Workspace) :
    Workspace :=
  let data := work.data
  match ospfDbDescIsDup nbr body work with
  | (true, work) => work
  | (false, work) =>
    let work := work.see (body + 3) 1
    if isSetDdMs (ddFlags data body) ≠ isSetDdMs nbr.dd.lastRecv.1 then work
    else if isSetDdI (ddFlags data body) then work
    else
      let work := work.see (body + 2) 1
      if ddOptions data body ≠ nbr.dd.options then work
      else
        let work := work.see (body + 4) 4
        if ddSeqnum data body ≠ expectedSeqnum nbr then work
        else ospfDbDescProc oi body size work

def ospfDbDesc (src : InAddr) (h size : Nat) (work : Workspace) : Workspace :=
  let data := work.data
  let body := h + ospfHeaderSize
  match ospfNbrLookupByAddr oi src with
  | none => work
  | some nbr =>
    let work := work.see body 2
    if oi.mtu < number data body 2 then work
    else
      let work := work.see (body + 2) 1
      if ddOptions data body &&& ospfOptionT ≠ 0 then work
      else
        match nbr.state with
        | .init => if nbr.twoWay = .exStart then dbDescExStart ospf oi nbr body size work else work
        | .exStart => dbDescExStart ospf oi nbr body size work
        | .exchange => dbDescExchange oi nbr body size work
        | .loading | .full => (ospfDbDescIsDup nbr body work).2
        | _ => work

/-- The requests as long as one is left. -/
def lsReqEntries (oi : Interface) : Nat → Nat → Workspace → Workspace
  | _, 0, work => work
  | pos, rounds + 1, work =>
    let data := work.data
    let work := ((work.see pos 4).see (pos + 4) 4).see (pos + 8) 4
    let lsType := number data pos 4
    if !knownType lsType then work
    else if !oi.lsdb lsType (field data (pos + 4) 4) (field data (pos + 8) 4) then work
    else lsReqEntries oi (pos + ospfLsaKeySize) rounds work

def ospfLsReq (oi : Interface) (src : InAddr) (h size : Nat) (work : Workspace) : Workspace :=
  match ospfNbrLookupByAddr oi src with
  | none => work
  | some nbr =>
    if nbr.state ≠ .exchange ∧ nbr.state ≠ .loading ∧ nbr.state ≠ .full then work
    else lsReqEntries oi (h + ospfHeaderSize) (size / ospfLsaKeySize) work

/-- The checksum of RFC 1008 over the octets behind the age. The sums are reduced at the end only:
the source does it in between so that they stay small. -/
def fletcher (octets : List Octet) : BitVec 16 :=
  let sums := octets.foldl
    (fun (sums : Nat × Nat) octet => (sums.1 + octet.toNat, sums.2 + (sums.1 + octet.toNat))) (0, 0)
  let c0 : Int := (sums.1 % 255 : Nat)
  let c1 : Int := (sums.2 % 255 : Nat)
  let x := (((octets.length : Int) - 15) * c0 - c1).tmod 255
  let x := if x ≤ 0 then x + 255 else x
  let y := 510 - c0 - x
  let y := if 255 < y then y - 255 else y
  BitVec.ofInt 16 (256 * x + y)

/-- `ospf_lsa_checksum`, which leaves its result in the LSA. -/
def ospfLsaChecksum (pos : Nat) (work : Workspace) : BitVec 16 × Workspace :=
  let work := work.put (pos + 16) [0, 0]
  let work := work.see (pos + 18) 2
  let length := number work.data (pos + 18) 2
  let work := work.minus length 2
  let length := (length + 65536 - 2) % 65536
  let work := work.see (pos + 2) length
  let sum := fletcher (slice work.data (pos + 2) length)
  (sum, work.put (pos + 16) (toOctets 2 sum.toNat))

/-- An age above MaxAge is MaxAge. -/
def limitAge (pos : Nat) (work : Workspace) : Workspace :=
  let work := work.see pos 2
  if 3600 < number work.data pos 2 then work.put pos (toOctets 2 3600) else work

/-- One LSA of an update that does not exceed it. -/
def updLsa (pos length : Nat) (work : Workspace) : Workspace :=
  let work := work.see (pos + 16) 2
  let sum := field work.data (pos + 16) 2
  match ospfLsaChecksum pos work with
  | (computed, work) =>
    if sum ≠ computed then work
    else
      let work := work.see (pos + 3) 1
      if !knownType (number work.data (pos + 3) 1) then work
      else (limitAge pos work).copy pos length

/-- The loop of `ospf_ls_upd_list_lsa`. -/
def updLsas : Nat → Nat → Nat → Workspace → Workspace
  | 0, _, _, work => work
  | count + 1, pos, size, work =>
    if size < ospfLsaHeaderSize then work
    else
      let work := work.see (pos + 18) 2
      let length := number work.data (pos + 18) 2
      if size < length then work
      else updLsas count (pos + length) (size - length) (updLsa pos length work)

/-- `ospf_ls_upd_list_lsa`; what is left of the size is a 64-bit number, the number of LSAs has 16
  bits. -/
def ospfLsUpdListLsa (body size : Nat) (work : Workspace) : Workspace :=
  let data := work.data
  let work := work.see body 4
  let count := number data body 4 % 65536
  let work := work.minus size ospfLsUpdMinSize
  updLsas count (body + ospfLsUpdMinSize) ((size + 2 ^ 64 - ospfLsUpdMinSize) % 2 ^ 64) work

/-- `ospf_ls_upd` until the LSAs are copied. -/
def ospfLsUpd (oi : Interface) (src : InAddr) (h size : Nat) (work : Workspace) : Workspace :=
  match ospfNbrLookupByAddr oi src with
  | none => work
  | some nbr =>
    if nbr.state.rank < NsmState.exchange.rank then work
    else ospfLsUpdListLsa (h + ospfHeaderSize) size work

def lsAckHeaders (nbr : Neighbor) : Nat → Nat → Workspace → Workspace
  | _, 0, work => work
  | pos, rounds + 1, work =>
    let data := work.data
    let work := work.see (pos + 3) 1
    if !knownType (number data (pos + 3) 1) then
      lsAckHeaders nbr (pos + ospfLsaHeaderSize) rounds work
    else
      let work := (work.see (pos + 4) 4).see (pos + 8) 4
      let found := nbr.retransmits (field data (pos + 3) 1) (field data (pos + 4) 4)
        (field data (pos + 8) 4)
      lsAckHeaders nbr (pos + ospfLsaHeaderSize) rounds
        (if found then work.see (pos + 12) 4 else work)

def ospfLsAck (oi : Interface) (src : InAddr) (h size : Nat) (work : Workspace) : Workspace :=
  match ospfNbrLookupByAddr oi src with
  | none => work
  | some nbr =>
    if nbr.state.rank < NsmState.exchange.rank then work
    else lsAckHeaders nbr (h + ospfHeaderSize) (size / ospfLsaHeaderSize) work

/-- The routine for the type of the packet. -/
def handle (src : InAddr) (h length : Nat) (work : Workspace) : Workspace :=
  let data := work.data
  let work := work.see (h + 1) 1
  let type := number data (h + 1) 1
  if type = 1 then ospfHello ospf oi src h length work
  else if type = 2 then ospfDbDesc ospf oi src h length work
  else if type = 3 then ospfLsReq oi src h length work
  else if type = 4 then ospfLsUpd oi src h length work
  else if type = 5 then ospfLsAck oi src h length work
  else work

/-- `ospf_read` from the verification of the header on. -/
def verified (h : Nat) (work : Workspace) : Workspace :=
  match ospfVerifyHeader md5 oi h work with
  | (false, work) => work
  | (true, work) =>
    let data := work.data
    let length := number data (h + 2) 2
    let work := (work.see (h + 2) 2).minus length ospfHeaderSize
    handle ospf oi (field data 12 4) h ((length + 65536 - ospfHeaderSize) % 65536) work

end

/-- Where the IP header ends. -/
def headerEnd (data : List Octet) : Nat := 4 * (number data 0 1 % 16)

/-- `ospf_read` with a packet in its buffer. -/
def received (ospf : Receiver) (work : Workspace) : Workspace :=
  let data := work.data
  let work := work.see 12 4
  let src := field data 12 4
  if (ospfIfLookupByLocalAddr ospf none src).isSome then work
  else
    let work := work.see 0 1
    let h := headerEnd data
    let oi := ospfIfLookupRecvIf ospf src
    if oi.any fun oi => ospf.ifp.any (· ≠ oi.ifp) then work
    else
      match ospfAssociatePacketVl ospf oi h work with
      | (none, work) => work
      | (some oi, work) =>
        let work := work.see 16 4
        if field data 16 4 = ospfAlldrouters ∧ !oi.designated then work
        else verified md5 ospf oi h (work.see (h + 1) 1)

/-- What `ospf_read` does with a datagram. -/
def ospfRead (ospf : Receiver) (datagram : List Octet) : Workspace :=
  match ospfRecvPacket datagram with
  | none => { data := [] }
  | some data => received md5 ospf { data := data }

end Zebra.Ospfd.Packet
