import Zebra.Base.Drain
import Zebra.Ospfd.Send

/-! The queue of LSAs that wait for LS Update packets, of ospfd/ospf_packet.c. The rounds of `while
(!list_isempty (update))` are counted; where they run out there is no result. -/
namespace Zebra.Ospfd.Packet
open Base Lib List BitVec Stream

/-- What the queue needs of `struct ospf_lsa`: the octets at `data`, and `LS_AGE`. -/
structure OutLsa where
  data : List Octet
  age : Nat
  header : ospfLsaHeaderSize ≤ data.length
  framed : (field data 18 2).toNat = data.length
deriving DecidableEq

/-- `ntohs (lsa->data->length)` -/
def OutLsa.length (lsa : OutLsa) : BitVec 16 := field lsa.data 18 2

theorem OutLsa.toNat_length (lsa : OutLsa) : lsa.length.toNat = lsa.data.length := lsa.framed

def lsAgeIncrement (lsa : OutLsa) (delay : Nat) : Nat :=
  let age := if lsa.age = 3600 then 3600 else lsa.age + delay
  if 3600 < age then 3600 else age

namespace OutInterface
variable (oi : OutInterface)

/-- `while ((node = listhead (update)) != NULL)`: what is left, the length, the number of LSAs, and
  the stream. -/
def lsUpdLoop (delta : Nat) : List OutLsa → BitVec 16 → BitVec 32 → Stream →
    Option (List OutLsa × BitVec 16 × BitVec 32 × Stream)
  | [], length, count, s => some ([], length, count, s)
  | lsa :: update, length, count, s =>
    if oi.packetLimit < length.toNat + delta + lsa.length.toNat then
      some (lsa :: update, length, count, s)
    else do
      let lsah := s.putp
      let s ← s.streamPut lsa.data
      let s ← s.store lsah (toOctets 2 (lsAgeIncrement lsa oi.transmitDelay))
      lsUpdLoop delta update (length + lsa.length) (count + 1) s

def ospfMakeLsUpd (update : List OutLsa) (s : Stream) :
    Option (List OutLsa × BitVec 16 × Stream) := do
  let delta := s.putp
  let pp := s.putp
  let s := s.streamSetPutp (s.putp + ospfLsUpdMinSize)
  let (update, length, count, s) ← oi.lsUpdLoop delta update (BitVec.ofNat 16 ospfLsUpdMinSize) 0 s
  let s ← (s.streamSetPutp pp).streamPutl count
  return (update, length, s.streamSetPutp s.endp)

/-- The packet, and what is left of the list. -/
def ospfLsUpdQueueSend (update : List OutLsa) (addr : InAddr) :
    Option (OspfPacket × List OutLsa) := do
  let s ← oi.ospfMakeHeader 4 (Stream.streamNew oi.mtu)
  let (update, length, s) ← oi.ospfMakeLsUpd update s
  let length := BitVec.ofNat 16 ospfHeaderSize + length
  let s ← oi.ospfFillHeader s length
  return ({ s := s, dst := addr, length := length }, update)

/-- The packets in their order, when `rounds` suffice for every destination. -/
def ospfLsUpdSendQueueEvent (rounds : Nat) (queue : List (InAddr × List OutLsa)) :
    Option (List (List OspfPacket)) :=
  queue.mapM fun entry => drain (oi.ospfLsUpdQueueSend · entry.1) rounds entry.2

/-- An LSA as it leaves the router. -/
def aged (lsa : OutLsa) : List Octet :=
  overwrite lsa.data 0 (toOctets 2 (lsAgeIncrement lsa oi.transmitDelay))

/-- The packet holds these LSAs, with their number and the lengths that they have. -/
structure Carries (group : List OutLsa) (op : OspfPacket) : Prop where
  length : op.length.toNat = ospfHeaderSize + ospfLsUpdMinSize + load
    (fun lsa => lsa.data.length) group
  within : op.length.toNat ≤ oi.mtu
  content : ∃ header, header.length = ospfHeaderSize ∧ field header 2 2 = op.length ∧
    op.s.data.take op.length.toNat = header ++ toOctets 4 group.length ++ group.flatMap oi.aged
  endp : op.s.endp = op.length.toNat

/-- The packets go to the destination and hold each of its LSAs once. -/
def Sent (entry : InAddr × List OutLsa) (packets : List OspfPacket) : Prop :=
  ∃ groups : List (List OutLsa), groups.flatten = entry.2 ∧
    List.Forall₂ (fun group op => op.dst = entry.1 ∧ oi.Carries group op) groups packets

/-- Every LSA fits into a packet. A negative `OSPF_PACKET_MAX` is no limit at all, and one that is
greater than the length of a packet can be is none either. -/
def Drainable (lsas : List OutLsa) : Prop :=
  let total := load fun lsa : OutLsa => lsa.data.length
  if oi.ospfPacketMax < 0 then lsas = [] ∨ 28 + total lsas ≤ oi.mtu
  else if oi.ospfPacketMax ≤ 65535 then ∀ lsa ∈ lsas, 28 + lsa.data.length ≤ oi.ospfPacketMax
  else ∃ groups : List (List OutLsa), groups.flatten = lsas ∧
    (∀ group ∈ groups, group ≠ [] ∧ 28 + total group ≤ 65535) ∧
    groups.IsChain fun group next => ∀ lsa ∈ next.head?,
      oi.ospfPacketMax < 28 + total group + lsa.data.length

variable {oi} {delta : Nat} {s s' : Stream} {front room : List Octet} {group rest : List OutLsa}
  {addr : InAddr} {op : OspfPacket}

theorem aged_eq (lsa : OutLsa) :
    oi.aged lsa = toOctets 2 (lsAgeIncrement lsa oi.transmitDelay) ++ lsa.data.drop 2 := by
  have header := lsa.header
  rw [ospfLsaHeaderSize] at header
  have same : (lsa.data.take 2).length =
      (toOctets 2 (lsAgeIncrement lsa oi.transmitDelay)).length := by
    rw [length_toOctets, length_take_of_le (by omega)]
  have split : [] ++ lsa.data.take 2 ++ lsa.data.drop 2 = lsa.data := take_append_drop ..
  exact (congrArg (overwrite · 0 _) split.symm).trans (overwrite_middle same)

theorem length_aged (lsa : OutLsa) : (oi.aged lsa).length = lsa.data.length := length_overwrite ..

theorem length_flatMap_aged (group : List OutLsa) :
    (group.flatMap oi.aged).length = load (fun lsa => lsa.data.length) group := by
  induction group with
  | nil => rfl
  | cons lsa group ih => rw [flatMap_cons, length_append, length_aged, ih, load_cons]

theorem put_aged (oi : OutInterface) (lsa : OutLsa) (is : s.data = front ++ room)
    (here : s.putp = front.length) (fits : lsa.data.length ≤ room.length) :
    (do
      let s' ← s.streamPut lsa.data
      s'.store s.putp (toOctets 2 (lsAgeIncrement lsa oi.transmitDelay))) =
      some { s.advance lsa.data.length with
        data := front ++ oi.aged lsa ++ room.drop lsa.data.length } := by
  have header := lsa.header
  rw [ospfLsaHeaderSize] at header
  have split : front ++ lsa.data ++ room.drop lsa.data.length =
      front ++ lsa.data.take 2 ++ (lsa.data.drop 2 ++ room.drop lsa.data.length) := by
    rw [List.append_assoc front, List.append_assoc front, ← List.append_assoc (lsa.data.take 2),
      List.take_append_drop]
  have same : (lsa.data.take 2).length =
      (toOctets 2 (lsAgeIncrement lsa oi.transmitDelay)).length := by
    rw [length_toOctets, List.length_take_of_le (by omega)]
  rw [streamPut_room is here fits, here]
  refine (store_middle split same).trans ?_
  simp only [aged_eq, List.append_assoc]

theorem lsUpdLoop_group {n m} (is : s.data = front ++ room) (here : s.putp = front.length)
    (fits : load (fun lsa => lsa.data.length) group ≤ room.length)
    (small : n + load (fun lsa => lsa.data.length) group < 65536)
    (within : n + load (fun lsa => lsa.data.length) group + delta ≤ oi.packetLimit)
    (full : ∀ lsa ∈ rest.head?, oi.packetLimit <
      n + load (fun lsa => lsa.data.length) group + delta + lsa.data.length) :
    oi.lsUpdLoop delta (group ++ rest) (BitVec.ofNat 16 n) (BitVec.ofNat 32 m) s =
      some (rest, BitVec.ofNat 16 (n + load (fun lsa => lsa.data.length) group),
        BitVec.ofNat 32 (m + group.length),
        { data := front ++ group.flatMap oi.aged ++ room.drop
            (load (fun lsa => lsa.data.length) group)
          putp := s.putp + load (fun lsa => lsa.data.length) group
          endp := if group = [] then s.endp
            else max s.endp (s.putp + load (fun lsa => lsa.data.length) group) }) := by
  induction group generalizing n m s front room with
  | nil =>
    have stop : oi.lsUpdLoop delta rest (BitVec.ofNat 16 n) (BitVec.ofNat 32 m) s =
        some (rest, BitVec.ofNat 16 n, BitVec.ofNat 32 m, s) := by
      cases rest with
      | nil => rfl
      | cons lsa rest =>
        have beyond := full lsa rfl
        rw [lsUpdLoop, if_pos]
        rw [OutLsa.toNat_length, toNat_ofNat, Nat.mod_eq_of_lt (by simpa using small)]
        simpa using beyond
    rw [nil_append, stop]
    simp only [load_nil, Nat.add_zero, length_nil, flatMap_nil, append_nil, drop_zero,
      if_true, ← is]
  | cons lsa group ih =>
    rw [load_cons] at fits small within full
    have first : ¬ oi.packetLimit < (BitVec.ofNat 16 n).toNat + delta + lsa.length.toNat := by
      rw [OutLsa.toNat_length, toNat_ofNat]
      omega
    have length : BitVec.ofNat 16 n + lsa.length = BitVec.ofNat 16 (n + lsa.data.length) := by
      refine eq_of_toNat_eq ?_
      rw [toNat_add, OutLsa.toNat_length, toNat_ofNat, toNat_ofNat, Nat.mod_add_mod]
    have count : BitVec.ofNat 32 m + 1 = BitVec.ofNat 32 (m + 1) := (BitVec.ofNat_add m 1).symm
    have put := put_aged oi lsa is here (by omega)
    obtain ⟨next, isNext⟩ := @exists_eq _ { s.advance lsa.data.length with
      data := front ++ oi.aged lsa ++ room.drop lsa.data.length }
    rw [← isNext] at put
    have step : oi.lsUpdLoop delta (lsa :: (group ++ rest)) (BitVec.ofNat 16 n)
        (BitVec.ofNat 32 m) s =
        oi.lsUpdLoop delta (group ++ rest) (BitVec.ofNat 16 (n + lsa.data.length))
          (BitVec.ofNat 32 (m + 1)) next := by
      rw [lsUpdLoop, if_neg first, length, count]
      cases done : s.streamPut lsa.data with
      | none =>
        rw [done] at put
        cases put
      | some copied =>
        rw [done] at put
        exact bind_ran rfl (bind_ran put rfl)
    rw [List.cons_append, step]
    have nextIs : next.data = front ++ oi.aged lsa ++ room.drop lsa.data.length := by rw [isNext]
    have nextHere : next.putp = (front ++ oi.aged lsa).length := by
      rw [isNext, length_append, length_aged, ← here]
      rfl
    refine (ih nextIs nextHere ?_ ?_ ?_ ?_).trans ?_
    · rw [length_drop]
      omega
    · omega
    · omega
    · intro next is
      have beyond := full next is
      omega
    · rw [isNext, load_cons, flatMap_cons, drop_drop, Nat.add_assoc n, length_cons, Nat.add_assoc m,
        Nat.add_comm 1, append_assoc front, append_assoc front, if_neg (cons_ne_nil _ _)]
      simp only [advance, Nat.add_assoc]
      have ends : (if group = [] then max s.endp (s.putp + lsa.data.length)
          else max (max s.endp (s.putp + lsa.data.length))
            (s.putp + (lsa.data.length + load (fun lsa => lsa.data.length) group))) =
          max s.endp (s.putp + (lsa.data.length + load (fun lsa => lsa.data.length) group)) := by
        split
        · rw [‹group = []›, load_nil, Nat.add_zero]
        · omega
      rw [ends]

theorem ospfMakeLsUpd_group {header : List Octet} (is : s.data = header ++ room)
    (size : header.length = ospfHeaderSize)
    (here : s.putp = ospfHeaderSize) (start : s.endp = 0) (some_ : group ≠ [])
    (fits : ospfLsUpdMinSize + load (fun lsa => lsa.data.length) group ≤ room.length)
    (small : 28 + load (fun lsa => lsa.data.length) group ≤ 65535)
    (within : 28 + load (fun lsa => lsa.data.length) group ≤ oi.packetLimit)
    (full : ∀ lsa ∈ rest.head?, oi.packetLimit <
      28 + load (fun lsa => lsa.data.length) group + lsa.data.length) :
    ∃ tail, oi.ospfMakeLsUpd (group ++ rest) s =
      some (rest, BitVec.ofNat 16 (4 + load (fun lsa => lsa.data.length) group),
        { data := header ++ (toOctets 4 group.length ++ group.flatMap oi.aged ++ tail)
          putp := 28 + load (fun lsa => lsa.data.length) group
          endp := 28 + load (fun lsa => lsa.data.length) group }) := by
  obtain ⟨total, isTotal⟩ := @exists_eq _ (load (fun lsa : OutLsa => lsa.data.length) group)
  rw [← isTotal] at fits small within full
  rw [ospfHeaderSize] at size here
  rw [ospfLsUpdMinSize] at fits
  have gap : (room.take 4).length = 4 := List.length_take_of_le (by omega)
  have atBody : (s.streamSetPutp 28).data = header ++ room.take 4 ++ room.drop 4 := by
    rw [List.append_assoc, List.take_append_drop, ← is]
    rfl
  have bodyHere : (s.streamSetPutp 28).putp = (header ++ room.take 4).length := by
    rw [List.length_append, size, gap]
    rfl
  have loop := @lsUpdLoop_group oi 24 (s.streamSetPutp 28) _ _ group rest 4 0 atBody bodyHere
    (by rw [← isTotal, List.length_drop]; omega) (by omega) (by omega) (fun lsa next => by
      have beyond := full lsa next
      omega)
  rw [← isTotal, if_neg some_] at loop
  obtain ⟨counted, isCounted⟩ :=
    @exists_eq Stream {
    data := header ++ (room.take 4 ++ group.flatMap oi.aged ++ (room.drop 4).drop total), putp :=
    24, endp := 28 + total }
  have wrapped : toOctets 4 (group.length % 2 ^ 32) = toOctets 4 group.length :=
    toOctets_mod 4 group.length
  have four : (toOctets 4 (BitVec.ofNat 32 group.length).toNat).length = 4 := length_toOctets ..
  have put : counted.streamPutl (BitVec.ofNat 32 group.length) =
      some { counted.advance 4 with
        data := header ++ toOctets 4 group.length ++
          (group.flatMap oi.aged ++ (room.drop 4).drop total) } := by
    rw [Stream.streamPutl]
    have room_ : counted.data = header ++
      (room.take 4 ++ group.flatMap oi.aged ++ (room.drop 4).drop total) := by rw [isCounted]
    refine (Stream.putWhole_room room_ (by rw [isCounted, size]) ?_).trans ?_
    · rw [List.length_append, List.length_append]
      omega
    · rw [four, BitVec.toNat_ofNat, wrapped, List.append_assoc (room.take 4), List.drop_left' gap]
  refine ⟨(room.drop 4).drop total, ?_⟩
  rw [ospfMakeLsUpd, here]
  have state : Stream.streamSetPutp {
      data := header ++ room.take 4 ++ group.flatMap oi.aged ++ (room.drop 4).drop total
      putp := (s.streamSetPutp 28).putp + total
      endp := max (s.streamSetPutp 28).endp ((s.streamSetPutp 28).putp + total) } 24 =
        counted := by
    rw [isCounted, Stream.streamSetPutp, Stream.streamSetPutp, start]
    simp only [List.append_assoc, Nat.zero_max]
  refine bind_ran loop ?_
  rw [zero_add]
  refine bind_ran ((congrArg (Stream.streamPutl · _) state).trans put) ?_
  rw [← isTotal]
  have ends : max (28 + total) (24 + 4) = 28 + total := by omega
  simp only [Option.pure_def, Stream.streamSetPutp, Stream.advance, isCounted, ends,
    List.append_assoc]

theorem ospfLsUpdQueueSend_group (addr : InAddr) (some_ : group ≠ [])
    (small : 28 + load (fun lsa => lsa.data.length) group ≤ 65535)
    (room : 28 + load (fun lsa => lsa.data.length) group ≤ oi.mtu)
    (within : 28 + load (fun lsa => lsa.data.length) group ≤ oi.packetLimit)
    (full : ∀ lsa ∈ rest.head?, oi.packetLimit <
      28 + load (fun lsa => lsa.data.length) group + lsa.data.length) :
    ∃ op, oi.ospfLsUpdQueueSend (group ++ rest) addr = some (op, rest) ∧ op.dst = addr ∧
      oi.Carries group op := by
  obtain ⟨total, isTotal⟩ := @exists_eq _ (load (fun lsa : OutLsa => lsa.data.length) group)
  obtain ⟨header, size, made⟩ := oi.ospfMakeHeader_new 4 (by rw [ospfHeaderSize]; omega)
  obtain ⟨tail, body⟩ := @ospfMakeLsUpd_group oi
    { data := header ++ List.replicate (oi.mtu - ospfHeaderSize) 0, putp := ospfHeaderSize,
      endp := 0 } _ group rest header rfl size rfl rfl
    some_ (by rw [List.length_replicate, ospfHeaderSize, ospfLsUpdMinSize]; omega) small within full
  rw [← isTotal] at body small room
  have length : BitVec.ofNat 16 ospfHeaderSize + BitVec.ofNat 16 (4 + total) =
      BitVec.ofNat 16 (28 + total) := by
    rw [ospfHeaderSize, ← BitVec.ofNat_add, ← add_assoc]
  have exact_ : (BitVec.ofNat 16 (28 + total)).toNat = 28 + total := by
    rw [BitVec.toNat_ofNat, Nat.mod_eq_of_lt (by omega)]
  have bodyLength : (toOctets 4 group.length ++ group.flatMap oi.aged).length = 4 + total := by
    rw [List.length_append, length_toOctets, length_flatMap_aged, isTotal]
  have short : (BitVec.ofNat 16 (28 + total)).toNat ≤
      (header ++ (toOctets 4 group.length ++ group.flatMap oi.aged ++ tail)).length := by
    rw [List.length_append, List.length_append, size, ospfHeaderSize]
    omega
  obtain ⟨filled, filledSize, filledLength, fill⟩ := oi.ospfFillHeader_front
    { data := header ++ (toOctets 4 group.length ++ group.flatMap oi.aged ++ tail),
      putp := 28 + total, endp := 28 + total }
    (BitVec.ofNat 16 (28 + total)) rfl size short
  refine ⟨⟨⟨filled ++ (toOctets 4 group.length ++ group.flatMap oi.aged ++ tail), 28 + total,
    28 + total⟩, addr, BitVec.ofNat 16 (28 + total)⟩, ?_, rfl, ?_⟩
  · rw [ospfLsUpdQueueSend, made]
    refine bind_ran rfl (bind_ran body ?_)
    dsimp only
    rw [length]
    exact bind_ran fill rfl
  · refine ⟨?_, ?_, ⟨filled, filledSize, filledLength, ?_⟩, exact_.symm⟩
    · rw [exact_, isTotal]
      rfl
    · rw [exact_]
      exact room
    · have whole : (filled ++ (toOctets 4 group.length ++ group.flatMap oi.aged)).length =
          28 + total := by
        rw [List.length_append, filledSize, ospfHeaderSize]
        omega
      rw [exact_, ← List.append_assoc, List.take_left' whole, ← List.append_assoc]

end OutInterface
end Zebra.Ospfd.Packet
