import Zebra.Ospfd.DrElection
import Zebra.Ospfd.LsUpdQueue

/-! Acknowledgements of ospfd/ospf_packet.c. The rounds of `while (listcount (ack))` are counted;
where they run out there is no result. -/
namespace Zebra.Ospfd.Packet
open Base Lib List Nat

/-- A neighbour in the table of its interface; `oi->nbr_self` is one of them. -/
structure AckNeighbor where
  address : InAddr
  self : Bool
  state : NsmState
deriving DecidableEq

/-- What acknowledgements need of `struct ospf_interface`. -/
structure AckInterface where
  out : OutInterface
  type : IfType
  state : IsmState
  /-- `vl_data->peer_addr` -/
  peerAddr : InAddr
  nbrs : List AckNeighbor
  addresses : (nbrs.map AckNeighbor.address).Nodup

/-- The lists of an interface, and whether the event is scheduled. -/
structure AckLists where
  direct : List OutLsa := []
  dst : InAddr := 0
  scheduled : Bool := false
  delayed : List OutLsa := []

namespace OutInterface
variable (oi : OutInterface)

/-- `for (node = listhead (ack); node; nextnode (node))`: what is put, the length and the stream. -/
def lsAckLoop (delta : Nat) : List OutLsa → BitVec 16 → Stream →
    Option (List OutLsa × BitVec 16 × Stream)
  | [], length, s => some ([], length, s)
  | lsa :: ack, length, s =>
    if oi.packetLimit < length.toNat + delta then some ([], length, s)
    else do
      let s ← s.streamPut (lsa.data.take ospfLsaHeaderSize)
      let (rmList, length, s) ← lsAckLoop delta ack (length + BitVec.ofNat 16 ospfLsaHeaderSize) s
      return (lsa :: rmList, length, s)

def ospfMakeLsAck (ack : List OutLsa) (s : Stream) : Option (List OutLsa × BitVec 16 × Stream) := do
  let delta := s.putp + 24
  let (rmList, length, s) ← oi.lsAckLoop delta ack 0 s
  return (rmList.foldl List.erase ack, length, s)

/-- The packet, and what is left of the list. -/
def ospfLsAckSendList (ack : List OutLsa) (dst : InAddr) : Option (OspfPacket × List OutLsa) := do
  let s ← oi.ospfMakeHeader 5 (Stream.streamNew oi.mtu)
  let (ack, length, s) ← oi.ospfMakeLsAck ack s
  let length := BitVec.ofNat 16 ospfHeaderSize + length
  let s ← oi.ospfFillHeader s length
  return ({ s := s, dst := dst, length := length }, ack)

/-- `while (listcount (ack)) ospf_ls_ack_send_list (oi, ack, dst);` -/
def sendAcks (dst : InAddr) (rounds : Nat) (ack : List OutLsa) : Option (List OspfPacket) :=
  drain (oi.ospfLsAckSendList · dst) rounds ack

end OutInterface

namespace AckLists

def ospfLsAckSend (lists : AckLists) (nbr : InAddr) (lsa : OutLsa) : AckLists :=
  { lists with
    dst := if lists.direct.length = 0 then nbr else lists.dst
    direct := lists.direct ++ [lsa]
    scheduled := true }

end AckLists

namespace AckInterface
variable (oi : AckInterface)
variable (rounds : Nat) (lists : AckLists)

def ospfLsAckSendEvent : Option (List OspfPacket × AckLists) := do
  let packets ← oi.out.sendAcks lists.dst rounds lists.direct
  return (packets, { lists with direct := [], scheduled := false })

/-- `nbr != oi->nbr_self && nbr->state >= NSM_Exchange` -/
def adjacent (nbr : AckNeighbor) : Bool := !nbr.self && NsmState.exchange.rank ≤ nbr.state.rank

/-- The loop over the neighbours of an NBMA network: the packets, and what is left. -/
def sendEach (rounds : Nat) : List AckNeighbor → List OutLsa →
    Option (List OspfPacket × List OutLsa)
  | [], ack => some ([], ack)
  | nbr :: nbrs, ack =>
    if adjacent nbr then do
      let packets ← oi.out.sendAcks nbr.address rounds ack
      let (later, rest) ← sendEach rounds nbrs []
      return (packets ++ later, rest)
    else sendEach rounds nbrs ack

def ospfLsAckSendDelayed : Option (List OspfPacket × AckLists) :=
  if oi.type = .nbma then do
    let (packets, rest) ← oi.sendEach rounds oi.nbrs lists.delayed
    return (packets, { lists with delayed := rest })
  else
    let dst :=
      if oi.type = .virtuallink then oi.peerAddr
      else if oi.state = .dr ∨ oi.state = .backup then 0xe0000005
      else if oi.type = .pointopoint then 0xe0000005
      else ospfAlldrouters
    do
      let packets ← oi.out.sendAcks dst rounds lists.delayed
      return (packets, { lists with delayed := [] })

/-- `ospf_ls_ack_timer` -/
def ospfLsAckTimer : Option (List OspfPacket × AckLists) :=
  if 0 < lists.delayed.length then oi.ospfLsAckSendDelayed rounds lists else some ([], lists)

end AckInterface

/-- What reception does with the lists before an event or the timer runs. -/
inductive AckOp where
  /-- `ospf_ls_ack_send`, with the address of the neighbour. -/
  | direct (nbr : InAddr) (lsa : OutLsa)
  /-- `listnode_add (inbr->oi->ls_ack, ospf_lsa_lock (lsa))` -/
  | delayed (lsa : OutLsa)

def AckLists.step (lists : AckLists) : AckOp → AckLists
  | .direct nbr lsa => lists.ospfLsAckSend nbr lsa
  | .delayed lsa => { lists with delayed := lists.delayed ++ [lsa] }

def AckOp.received : AckOp → Option (InAddr × OutLsa)
  | .direct nbr lsa => some (nbr, lsa)
  | .delayed _ => none

namespace OutInterface
variable (oi : OutInterface)

/-- The packet holds the headers of these LSAs and nothing else. -/
structure Acknowledges (group : List OutLsa) (op : OspfPacket) : Prop where
  length : op.length.toNat = ospfHeaderSize + ospfLsaHeaderSize * group.length
  within : op.length.toNat ≤ oi.mtu
  content : ∃ header, header.length = ospfHeaderSize ∧ field header 2 2 = op.length ∧
    op.s.data.take op.length.toNat = header ++ group.flatMap fun lsa =>
      lsa.data.take ospfLsaHeaderSize

/-- All that is acknowledged at once goes to the neighbour that it came from. -/
def Acked (batch : List (InAddr × OutLsa)) (packets : List OspfPacket) : Prop :=
  ∃ groups : List (List (InAddr × OutLsa)), groups.flatten.Perm batch ∧
    List.Forall₂ (fun group op => (∀ entry ∈ group, entry.1 = op.dst) ∧
      oi.Acknowledges (group.map Prod.snd) op) groups packets

/-- A neighbour is sent these LSAs. -/
def Reaches (ack : List OutLsa) (dst : InAddr) (packets : List OspfPacket) : Prop :=
  ∃ groups : List (List OutLsa), groups.flatten.Perm ack ∧
    List.Forall₂ oi.Acknowledges groups (packets.filter fun op => op.dst = dst)

/-- So many headers can be sent. A negative `OSPF_PACKET_MAX` is no limit, and one that is greater
than the length of a packet can be is none either. -/
def AcksFit (count : Nat) : Prop :=
  if oi.ospfPacketMax < 0 then ospfHeaderSize + ospfLsaHeaderSize * count ≤ oi.mtu
  else 48 ≤ oi.ospfPacketMax ∧ (oi.ospfPacketMax ≤ 65547 ∨ count ≤ 3275)

end OutInterface

namespace OutInterface
variable {oi : OutInterface} {s s' : Stream} {front room : List Octet} {group rest : List OutLsa}
  {dst : InAddr} {op : OspfPacket}

/-- The headers of LSAs. -/
def headers (group : List OutLsa) : List Octet :=
  group.flatMap fun lsa => lsa.data.take ospfLsaHeaderSize

theorem length_take (lsa : OutLsa) : (lsa.data.take ospfLsaHeaderSize).length = 20 :=
  length_take_of_le lsa.header

theorem length_headers (group : List OutLsa) : (headers group).length = 20 * group.length := by
  induction group with
  | nil => rfl
  | cons lsa group ih =>
    rw [headers] at ih ⊢
    rw [flatMap_cons, length_append, length_take, ih, length_cons, mul_succ, add_comm]

/-- Each deletion of the loop over `rm_list` finds its LSA at the front. -/
theorem foldl_erase (taken rest : List OutLsa) : taken.foldl List.erase (taken ++ rest) = rest := by
  induction taken with
  | nil => rfl
  | cons lsa taken ih => rw [List.foldl_cons, List.cons_append, List.erase_cons_head, ih]

theorem lsAckLoop_group {n} (is : s.data = front ++ room) (here : s.putp = front.length)
    (fits : 20 * group.length ≤ room.length) (small : n + 20 * group.length < 65536)
    (within : group ≠ [] → n + 20 * group.length + 28 ≤ oi.packetLimit)
    (full : rest ≠ [] → oi.packetLimit < n + 20 * group.length + 48) :
    ∃ s', oi.lsAckLoop 48 (group ++ rest)
    (BitVec.ofNat 16 n) s = some (group, BitVec.ofNat 16 (n + 20 * group.length), s') ∧
      s'.data = front ++ headers group ++ room.drop (20 * group.length) := by
  induction group generalizing n s front room with
  | nil =>
    refine ⟨s, ?_, by simpa [headers] using is⟩
    cases rest with
    | nil => rfl
    | cons lsa rest =>
      have stop := full nofun
      rw [length_nil, mul_zero, add_zero] at small stop
      rw [nil_append, lsAckLoop, if_pos]
      · rfl
      · rwa [BitVec.toNat_ofNat, mod_eq_of_lt small]
  | cons lsa group ih =>
    rw [length_cons, mul_succ] at fits small within full
    have first : ¬ oi.packetLimit < (BitVec.ofNat 16 n).toNat + 48 := by
      have room := within nofun
      rw [BitVec.toNat_ofNat, mod_eq_of_lt (by omega)]
      omega
    have length : BitVec.ofNat 16 n + BitVec.ofNat 16 ospfLsaHeaderSize =
        BitVec.ofNat 16 (n + 20) := by
      rw [ospfLsaHeaderSize, BitVec.ofNat_add]
    have put : s.streamPut (lsa.data.take ospfLsaHeaderSize) =
        some { s.advance 20 with
          data := front ++ lsa.data.take ospfLsaHeaderSize ++ room.drop 20 } := by
      rw [← length_take lsa]
      exact Stream.streamPut_room is here (by rw [length_take]; omega)
    obtain ⟨next, isNext⟩ := @exists_eq _ { s.advance 20 with
      data := front ++ lsa.data.take ospfLsaHeaderSize ++ room.drop 20 }
    have nextIs : next.data = front ++ lsa.data.take ospfLsaHeaderSize ++ room.drop 20 := by
      rw [isNext]
    have nextHere : next.putp = (front ++ lsa.data.take ospfLsaHeaderSize).length := by
      rw [isNext, length_append, length_take, ← here]
      rfl
    obtain ⟨s', loop, data⟩ :=
      ih (n := n + 20) nextIs nextHere (by rw [length_drop]; omega) (by omega)
      (fun _ => by have room := within nofun; omega)
        (fun some_ => by have stop := full some_; omega)
    refine ⟨s', ?_, ?_⟩
    · rw [cons_append, lsAckLoop, if_neg first, put, length, ← isNext]
      refine bind_ran rfl (bind_ran loop ?_)
      rw [length_cons, mul_succ, add_assoc n, add_comm 20]
      rfl
    · rw [data, headers, headers, flatMap_cons, drop_drop, length_cons, mul_succ, add_comm 20]
      simp only [append_assoc]

theorem ospfLsAckSendList_group (dst : InAddr)
    (small : 24 + 20 * group.length ≤ 65535) (room : 24 + 20 * group.length ≤ oi.mtu)
    (within : 28 + 20 * group.length ≤ oi.packetLimit)
    (full : rest ≠ [] → oi.packetLimit < 48 + 20 * group.length) :
    ∃ op, oi.ospfLsAckSendList (group ++ rest) dst = some (op, rest) ∧ op.dst = dst ∧
      oi.Acknowledges group op := by
  obtain ⟨header, size, made⟩ := oi.ospfMakeHeader_new 5 (by rw [ospfHeaderSize]; omega)
  obtain ⟨s', loop, data⟩ := @lsAckLoop_group oi
    { data := header ++ replicate (oi.mtu - ospfHeaderSize) 0, putp := ospfHeaderSize,
      endp := 0 } header _ group rest 0 rfl size.symm
    (by rw [length_replicate, ospfHeaderSize]; omega) (by omega) (fun _ => by omega)
      (fun more => by have stop := full more; omega)
  rw [zero_add] at loop
  have body : oi.ospfMakeLsAck (group ++ rest)
      { data := header ++ replicate (oi.mtu - ospfHeaderSize) 0, putp := ospfHeaderSize,
        endp := 0 } =
      some (rest, BitVec.ofNat 16 (20 * group.length), s') := by
    refine bind_ran loop ?_
    simp only [Option.pure_def, foldl_erase]
  have length : BitVec.ofNat 16 ospfHeaderSize + BitVec.ofNat 16 (20 * group.length) =
      BitVec.ofNat 16 (24 + 20 * group.length) := by
    rw [ospfHeaderSize, ← BitVec.ofNat_add]
  have exact_ : (BitVec.ofNat 16 (24 + 20 * group.length)).toNat = 24 + 20 * group.length := by
    rw [BitVec.toNat_ofNat, mod_eq_of_lt (by omega)]
  rw [append_assoc] at data
  have short : (BitVec.ofNat 16 (24 + 20 * group.length)).toNat ≤ s'.size := by
    rw [exact_, Stream.size, data, length_append, length_append, length_headers, size,
      ospfHeaderSize]
    omega
  obtain ⟨filled, filledSize, filledLength, fill⟩ :=
    oi.ospfFillHeader_front s' (BitVec.ofNat 16 (24 + 20 * group.length)) data size short
  refine ⟨⟨{ s' with
    data := filled ++
    (headers group ++ (replicate (oi.mtu - ospfHeaderSize) 0).drop (20 * group.length)) }, dst,
    BitVec.ofNat 16 (24 + 20 * group.length)⟩, ?_, rfl, ?_⟩
  · rw [ospfLsAckSendList, made]
    refine bind_ran rfl (bind_ran body ?_)
    dsimp only
    rw [length]
    exact bind_ran fill rfl
  · refine ⟨by rw [exact_, ospfHeaderSize, ospfLsaHeaderSize], by
      rwa [exact_], filled, filledSize, filledLength, ?_⟩
    have whole : (filled ++ headers group).length = 24 + 20 * group.length := by
      rw [length_append, filledSize, length_headers, ospfHeaderSize]
    rw [exact_]
    exact (congrArg (take _) (append_assoc ..).symm).trans (take_left' whole)

end OutInterface
end Zebra.Ospfd.Packet
