import Zebra.Base.Workspace

/-! Reception of ospf6d/ospf6_message.c, as far as it works on the datagram. Debugging is off. -/
namespace Zebra.Ospf6d.Message
open Base

inductive NeighborState where
  | down
  | attempt
  | init
  | twoWay
  | exstart
  | exchange
  | loading
  | full
deriving DecidableEq

/-- What reception asks of `struct ospf6_neighbor`. -/
structure Neighbor where
  routerId : BitVec 32
  state : NeighborState
  needAdjacency : Bool
  dbdescSeqnum : BitVec 32
  options : Vector Octet 3
  dbdescLast : Vector Octet 12

/-- What reception asks of `struct ospf6_interface` and its area. -/
structure Interface where
  passive : Bool
  areaId : BitVec 32
  instanceId : Octet
  helloInterval : BitVec 16
  deadInterval : BitVec 16
  /-- The last octet of the area's options. -/
  options : Octet
  stub : Bool
  ifmtu : Nat
  neighbors : List Neighbor
  /-- `ospf6_lsdb_lookup` finds an LSA. -/
  lsdb : BitVec 16 → BitVec 32 → BitVec 32 → Bool

/-- The router, and the interface that the datagram came in on, where it is one of an area. -/
structure Receiver where
  routerId : BitVec 32
  oi : Option Interface

def headerSize : Nat := 16
def helloSize : Nat := 20
def dbdescSize : Nat := 12
def lsreqEntrySize : Nat := 12
def lsupdateSize : Nat := 4
def lsaHeaderSize : Nat := 20

/-- `OSPF6_MESSAGE_END`, from the length that the message says. -/
def messageEnd (data : List Octet) : Nat := (field data 2 2).toNat

def octetOf (data : List Octet) (pos : Nat) : Octet := field data pos 1

/-- `OSPF6_LSA_SCOPE`. -/
def lsaScope (type : BitVec 16) : BitVec 16 := type &&& 0x6000

def scopeAs : BitVec 16 := 0x4000
def scopeReserved : BitVec 16 := 0x6000
def lstypeAsExternal : BitVec 16 := 0x4005

def ospf6NeighborLookup (routerId : BitVec 32) (oi : Interface) : Option Neighbor :=
  oi.neighbors.find? fun on => on.routerId = routerId

/-- The loop over parts of one size that the message has room for; a part may end the function. -/
def forParts (size : Nat) (positive : 0 < size) (part : Nat → Workspace → Bool × Workspace)
    (end_ : Nat) (p : Nat) (work : Workspace) : Bool × Workspace :=
  if p + size ≤ end_ then
    match part p work with
    | (true, work) => forParts size positive part end_ (p + size) work
    | (false, work) => (false, work)
  else (true, work)
termination_by end_ - p

section
variable (oi : Interface) (work : Workspace)

/-- `ospf6_header_examin`. -/
def ospf6HeaderExamin : Bool × Workspace :=
  let data := work.data
  let work := work.see 0 1
  if octetOf data 0 ≠ 3 then (false, work)
  else
    let work := work.see 8 4
    if field data 8 4 ≠ oi.areaId then (false, work)
    else
      let work := work.see 14 1
      if octetOf data 14 ≠ oi.instanceId then (false, work) else (true, work.see 4 4)

/-- A router-id of a Hello. -/
def helloPart (p : Nat) (work : Workspace) : Bool × Workspace := (true, work.see p 4)

/-- `OSPF6_OPT_ISSET (x, OSPF6_OPT_E)`. -/
def optE (options : Octet) : Bool := options.getLsbD 1

def ospf6HelloRecv : Workspace :=
  match ospf6HeaderExamin oi work with
  | (false, work) => work
  | (true, work) =>
    let data := work.data
    let work := work.see 24 2
    if field data 24 2 ≠ oi.helloInterval then work
    else
      let work := work.see 26 2
      if field data 26 2 ≠ oi.deadInterval then work
      else
        let work := work.see 23 1
        if optE (octetOf data 23) ≠ optE oi.options then work
        else
          -- a neighbor that is made takes the routers and the priority at once
          let work := if (ospf6NeighborLookup (field data 4 4) oi).isNone then
            ((work.see 28 4).see 32 4).see 20 1 else work
          let work := work.see 16 4
          let work :=
            (forParts 4 (by decide) helloPart (messageEnd data) (headerSize + helloSize) work).2
          ((work.see 20 1).see 28 4).see 32 4

def bitMs (bits : Octet) : Bool := bits.getLsbD 0
def bitM (bits : Octet) : Bool := bits.getLsbD 1
def bitI (bits : Octet) : Bool := bits.getLsbD 2

/-- `memcmp` of the fixed part with the last one that was received. -/
def duplicated (on : Neighbor) (data : List Octet) : Bool :=
  slice data headerSize dbdescSize = on.dbdescLast.toList

/-- The cases of `OSPF6_NEIGHBOR_EXCHANGE`, where a master wants the bit unset and its own number,
and a slave the bit set and the next number. -/
def dbdescExchange (master : Bool) (on : Neighbor) (work : Workspace) : Bool × Workspace :=
  let data := work.data
  let work := work.see headerSize dbdescSize
  if duplicated on data then (false, work)
  else
    let work := work.see 23 1
    if bitMs (octetOf data 23) = master then (false, work)
    else if bitI (octetOf data 23) then (false, work)
    else
      let work := work.see 17 3
      if slice data 17 3 ≠ on.options.toList then (false, work)
      else
        let work := work.see 24 4
        (decide (field data 24 4 = if master then on.dbdescSeqnum else on.dbdescSeqnum + 1), work)

/-- `OSPF6_NEIGHBOR_EXSTART` of a master, which goes on with the case of Exchange. -/
def masterExstart (on : Neighbor) (work : Workspace) : Bool × Workspace :=
  let data := work.data
  let work := work.see 23 1
  if bitMs (octetOf data 23) || bitI (octetOf data 23) then (false, work)
  else
    let work := work.see 24 4
    if field data 24 4 ≠ on.dbdescSeqnum then (false, work)
    else
      let work := work.see 17 3
      dbdescExchange true { on with
        options := Vector.ofFn fun index => octetOf data (17 + index) } work

/-- `OSPF6_NEIGHBOR_EXSTART` of a slave. -/
def slaveExstart (work : Workspace) : Bool × Workspace :=
  let data := work.data
  let work := work.see 23 1
  if bitI (octetOf data 23) && bitM (octetOf data 23) && bitMs (octetOf data 23) then
    if messageEnd data = headerSize + dbdescSize then (true, (work.see 24 4).see 17 3)
      else (false, work)
  else (false, work)

/-- The `switch` on the state. -/
def dbdescGate (master : Bool) (on : Neighbor) (work : Workspace) : Bool × Workspace :=
  let exstart (work : Workspace) := if master then masterExstart on work else slaveExstart work
  match on.state with
  | .down | .attempt | .twoWay => (false, work)
  | .init => if on.needAdjacency then exstart work else (false, work)
  | .exstart => exstart work
  | .exchange => dbdescExchange master on work
  | .loading | .full => (false, work.see headerSize dbdescSize)

/-- An LSA header, of which a stub area takes no external one. -/
def dbdescPart (master stub : Bool) (p : Nat) (work : Workspace) : Bool × Workspace :=
  let type : BitVec 16 := field work.data (p + 2) 2
  let refused :=
    stub && (if master then decide (type = lstypeAsExternal) else decide (lsaScope type = scopeAs))
  (!refused, work.see p lsaHeaderSize)

/-- What the two functions for a description do, which differ in the numbers and bits that they
  want. -/
def dbdescRecv (master : Bool) (oi : Interface) (on : Neighbor) (work : Workspace) : Workspace :=
  match dbdescGate master on work with
  | (false, work) => work
  | (true, work) =>
    match forParts lsaHeaderSize (by decide) (dbdescPart master oi.stub) (messageEnd work.data)
      (headerSize + dbdescSize) work with
    | (false, work) => work
    | (true, work) => (if master then work.see 23 1 else work.see 24 4).see headerSize dbdescSize

def ospf6DbdescRecvMaster : Interface → Neighbor → Workspace → Workspace := dbdescRecv true

def ospf6DbdescRecvSlave : Interface → Neighbor → Workspace → Workspace := dbdescRecv false

def ospf6DbdescRecv (receiver : Receiver) (oi : Interface) (work : Workspace) : Workspace :=
  match ospf6HeaderExamin oi work with
  | (false, work) => work
  | (true, work) =>
    let data := work.data
    match ospf6NeighborLookup (field data 4 4) oi with
    | none => work
    | some on =>
      let work := work.see 20 2
      if (field data 20 2).toNat ≠ oi.ifmtu then work
      else
        let work := work.see 16 1
        let work := if octetOf data 16 = 0 then work.see 22 1 else work
        let work := if octetOf data 16 ≠ 0 ∨ octetOf data 22 ≠ 0 then (work.put 16 [0]).put 22 [0]
          else work
        if field data 4 4 < receiver.routerId then ospf6DbdescRecvMaster oi on work
        else if receiver.routerId < field data 4 4 then ospf6DbdescRecvSlave oi on work
        else work

/-- The neighbor is in Exchange or later. -/
def NeighborState.exchanging : NeighborState → Bool
  | .exchange | .loading | .full => true
  | _ => false

/-- An entry of a request; one that is not found ends the function. -/
def lsreqPart (oi : Interface) (p : Nat) (work : Workspace) : Bool × Workspace :=
  let data := work.data
  let work := work.see (p + 2) 2
  if lsaScope (field data (p + 2) 2) = scopeReserved then (true, work)
  else (oi.lsdb (field data (p + 2) 2) (field data (p + 4) 4) (field data (p + 8) 4),
    work.see (p + 4) 8)

def ospf6LsreqRecv : Workspace :=
  match ospf6HeaderExamin oi work with
  | (false, work) => work
  | (true, work) =>
    match ospf6NeighborLookup (field work.data 4 4) oi with
    | none => work
    | some on =>
      if on.state.exchanging then
        (forParts lsreqEntrySize (by decide) (lsreqPart oi)
          (messageEnd work.data) headerSize work).2
      else work

/-- The length that an LSA says. -/
def lsaSize (data : List Octet) (p : Nat) : Nat := (field data (p + 18) 2).toNat

/-- The loop over the LSAs, which are handed to `ospf6_receive_lsa`. -/
def lsupdateLsas (end_ num p : Nat) (work : Workspace) : Workspace :=
  if p < end_ then
    let size := lsaSize work.data p
    let seen := work.see (p + 18) 2
    if p + size ≤ end_ then
      if num = 0 then seen
      else if size < lsaHeaderSize then seen
      else lsupdateLsas end_ (num - 1) (p + size) (seen.copy p size)
    else seen
  else work
termination_by end_ - p
decreasing_by
  have header : lsaHeaderSize = 20 := rfl
  omega

def ospf6LsupdateRecv : Workspace :=
  match ospf6HeaderExamin oi work with
  | (false, work) => work
  | (true, work) =>
    match ospf6NeighborLookup (field work.data 4 4) oi with
    | none => work
    | some on =>
      if on.state.exchanging then
        let data := work.data
        lsupdateLsas (messageEnd data) (field data headerSize 4).toNat (headerSize + lsupdateSize)
          (work.see headerSize lsupdateSize)
      else work

/-- The header of an LSA that is acknowledged. -/
def lsackPart (p : Nat) (work : Workspace) : Bool × Workspace := (true, work.see p lsaHeaderSize)

def ospf6LsackRecv : Workspace :=
  match ospf6HeaderExamin oi work with
  | (false, work) => work
  | (true, work) =>
    match ospf6NeighborLookup (field work.data 4 4) oi with
    | none => work
    | some on =>
      if on.state.exchanging then
        (forParts lsaHeaderSize (by decide) lsackPart (messageEnd work.data) headerSize work).2
      else work

end

/-- `ospf6_receive`. The buffer is zero behind the datagram. -/
def ospf6Receive (receiver : Receiver) (datagram : List Octet) : Workspace :=
  let work : Workspace := { data := datagram }
  if datagram.length < headerSize then work
  else
    match receiver.oi with
    | none => work
    | some oi =>
      if oi.passive then work
      else
        let type := octetOf datagram 1
        let work := work.see 1 1
        if type = 1 then ospf6HelloRecv oi work
        else if type = 2 then ospf6DbdescRecv receiver oi work
        else if type = 3 then ospf6LsreqRecv oi work
        else if type = 4 then ospf6LsupdateRecv oi work
        else if type = 5 then ospf6LsackRecv oi work
        else work

end Zebra.Ospf6d.Message
