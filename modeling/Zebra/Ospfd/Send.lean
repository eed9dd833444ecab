import Zebra.Lib.Stream
import Zebra.Ospfd.Packet

/-! The frame of the packets that ospfd/ospf_packet.c sends. -/
namespace Zebra.Ospfd.Packet
open Base Lib Stream Option

/-- What the packets of an interface are made from. `ifp->mtu` is an `int`. -/
structure OutInterface where
  routerId : InAddr
  areaId : InAddr
  authType : AuthType
  authSimple : Vector Octet 8
  authCrypt : List CryptKey
  mtu : Nat
  mtuInt : mtu ≤ 2147483647
  transmitDelay : Nat

theorem ethernet_mtu : 1500 ≤ 2147483647 := by decide

/-- `struct ospf_packet` -/
structure OspfPacket where
  s : Stream
  dst : InAddr
  length : BitVec 16

namespace OutInterface
variable (oi : OutInterface)

def ospfPacketMax : Int :=
  if oi.authType = .cryptographic then oi.mtu - ospfAuthMd5Size - 88 else oi.mtu - 88

/-- What `OSPF_PACKET_MAX` is in a comparison with an `unsigned long`. -/
def packetLimit : Nat := (BitVec.ofInt 64 oi.ospfPacketMax).toNat

def ospfMakeHeader (type : Octet) (s : Stream) : Option Stream := do
  let s ← s.store 0 [2, type]
  let s ← s.store 4 (toOctets 4 oi.routerId.toNat ++ toOctets 4 oi.areaId.toNat ++ [0, 0] ++
    toOctets 2 oi.authType.code ++ List.replicate ospfAuthSimpleSize 0)
  return s.streamSetPutp (s.putp + ospfHeaderSize)

def ospfMakeAuth (s : Stream) : Option Stream :=
  match oi.authType with
  | .null => some s
  | .simple => s.store 16 oi.authSimple.toList
  | .cryptographic => s.store 16 [0, 0, (oi.authCrypt.getLast?).elim 0 CryptKey.keyId, 16]

/-- `/* Calculate checksum. */` -/
def fillChecksum (s : Stream) (length : BitVec 16) : Option Stream :=
  if oi.authType = .cryptographic then s.store 12 [0, 0]
  else (s.load 0 length.toNat).bind fun octets => s.store 12 (toOctets 2 (inCksum octets).toNat)

def ospfFillHeader (s : Stream) (length : BitVec 16) : Option Stream := do
  let s ← s.store 2 (toOctets 2 length.toNat)
  let s ← oi.fillChecksum s length
  oi.ospfMakeAuth s

end OutInterface

namespace OutInterface
variable (oi : OutInterface) {header rest : List Octet}

theorem ospfMakeHeader_new (type : Octet) (room : ospfHeaderSize ≤ oi.mtu) :
    ∃ header, header.length = ospfHeaderSize ∧ oi.ospfMakeHeader type (streamNew oi.mtu) =
      some { data := header ++ List.replicate (oi.mtu - ospfHeaderSize) 0, putp := ospfHeaderSize,
             endp := 0 } := by
  have split : (streamNew oi.mtu).data =
      List.replicate ospfHeaderSize 0 ++ List.replicate (oi.mtu - ospfHeaderSize) 0 := by
    rw [List.replicate_append_replicate, Nat.add_sub_cancel' room]
    rfl
  obtain ⟨fields, isFields⟩ :=
    @exists_eq _ (toOctets 4 oi.routerId.toNat ++ toOctets 4 oi.areaId.toNat ++ [0, 0] ++
    toOctets 2 oi.authType.code ++ List.replicate ospfAuthSimpleSize 0)
  have twenty : fields.length = 20 := by
    rw [isFields]
    simp [ospfAuthSimpleSize]
  have first : (streamNew oi.mtu).store 0 [2, type] = some { streamNew oi.mtu with
      data := overwrite (List.replicate ospfHeaderSize 0) 0 [2, type] ++ List.replicate
        (oi.mtu - ospfHeaderSize) 0 } :=
    store_front split (by simp [ospfHeaderSize])
  have size : (overwrite (List.replicate ospfHeaderSize 0) 0 [2, type]).length =
      ospfHeaderSize := by
    rw [length_overwrite, List.length_replicate]
  refine ⟨overwrite (overwrite (List.replicate ospfHeaderSize 0) 0 [2, type]) 4 fields, by
    rw [length_overwrite, size], ?_⟩
  rw [ospfMakeHeader, first, ← isFields]
  refine (congrArg (bind · _) (store_front rfl ?_)).trans rfl
  rw [size, twenty, ospfHeaderSize]

theorem store_putp {s s' : Stream} {pos octets} (stored : s.store pos octets = some s') :
    s'.putp = s.putp := by
  rw [store] at stored
  split at stored
  · rw [← some.inj stored]
  · cases stored

theorem ospfMakeHeader_putp {type : Octet} {headed}
    (made : oi.ospfMakeHeader type (streamNew oi.mtu) = some headed) :
    headed.putp = 24 := by
  obtain ⟨first, wrote, made⟩ := bind_eq_some_iff.mp made
  obtain ⟨second, wrote', made⟩ := bind_eq_some_iff.mp made
  rw [← some.inj made, streamSetPutp, store_putp wrote', store_putp wrote]
  rfl

theorem ospfFillHeader_front (s : Stream) (length : BitVec 16) (is : s.data = header ++ rest)
    (size : header.length = ospfHeaderSize) (short : length.toNat ≤ s.size) :
    ∃ filled, filled.length = ospfHeaderSize ∧ field filled 2 2 = length ∧
      oi.ospfFillHeader s length = some { s with data := filled ++ rest } := by
  have room : 24 ≤ header.length := size.ge
  obtain ⟨sized, isSized⟩ := @exists_eq _ (overwrite header 2 (toOctets 2 length.toNat))
  have sizedLength : sized.length = 24 := by rw [isSized, length_overwrite]; exact size
  have first : s.store 2 (toOctets 2 length.toNat) = some { s with data := sized ++ rest } := by
    rw [isSized]
    exact store_front is (by rw [length_toOctets]; omega)
  have read : field sized 2 2 = length := isSized ▸ field_overwrite_same (by omega)
  have sum : ∃ sum, sum.length = 2 ∧
      oi.fillChecksum { s with data := sized ++ rest } length =
        some { s with data := overwrite sized 12 sum ++ rest } := by
    rw [fillChecksum]
    split
    · exact ⟨[0, 0], rfl, store_front rfl (by simp [sizedLength])⟩
    · refine ⟨toOctets 2 (inCksum (slice (sized ++ rest) 0 length.toNat)).toNat,
        length_toOctets 2 _, ?_⟩
      have inside : 0 + length.toNat ≤ ({ s with data := sized ++ rest } : Stream).size := by
        rw [Stream.size, is, List.length_append, size] at short
        rw [Stream.size, List.length_append, sizedLength]
        exact (zero_add _).le.trans short
      rw [Stream.load, if_pos inside]
      exact store_front rfl (by rw [length_toOctets]; omega)
  obtain ⟨sum, two, summed⟩ := sum
  have summedLength : (overwrite sized 12 sum).length = 24 := by rw [length_overwrite, sizedLength]
  have kept : field (overwrite sized 12 sum) 2 2 = length := by
    rw [field_overwrite (.inl (by omega)), read]
  have auth : ∃ filled, filled.length = 24 ∧ field filled 2 2 = length ∧
      oi.ospfMakeAuth { s with data := overwrite sized 12 sum ++ rest } =
        some { s with data := filled ++ rest } := by
    rw [ospfMakeAuth]
    split
    · exact ⟨_, summedLength, kept, rfl⟩
    · refine ⟨_, ?_, ?_, store_front rfl (by simp [summedLength])⟩
      · rw [length_overwrite, summedLength]
      · rw [field_overwrite (.inl (by omega)), kept]
    · refine ⟨_, ?_, ?_, store_front rfl (by simp [summedLength])⟩
      · rw [length_overwrite, summedLength]
      · rw [field_overwrite (.inl (by omega)), kept]
  obtain ⟨filled, filledLength, filledField, made⟩ := auth
  refine ⟨filled, filledLength, filledField, ?_⟩
  rw [ospfFillHeader, first]
  exact (congrArg (Option.bind · oi.ospfMakeAuth) summed).trans made

theorem packetLimit_eq :
    (0 ≤ oi.ospfPacketMax ∧ (oi.packetLimit : Int) = oi.ospfPacketMax ∧ oi.packetLimit ≤ oi.mtu) ∨
    oi.ospfPacketMax < 0 ∧ oi.mtu < 104 ∧ 131070 < oi.packetLimit := by
  have range := oi.mtuInt
  have bounds : oi.ospfPacketMax = oi.mtu - 88 ∨ oi.ospfPacketMax = oi.mtu - 16 - 88 := by
    rw [ospfPacketMax]
    split
    · exact .inr rfl
    · exact .inl rfl
  rw [packetLimit, BitVec.toNat_ofInt]
  omega

end OutInterface
end Zebra.Ospfd.Packet
