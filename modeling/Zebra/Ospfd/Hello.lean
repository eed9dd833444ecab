import Zebra.Ospfd.RouterLsa

namespace Zebra.Ospfd.Originate
open Base Lib Packet Option Stream Nat List OutInterface

/-- What a Hello is made from; the neighbours are those of the table. -/
structure HelloInterface where
  out : OutInterface
  type : IfType
  address : InAddr
  prefixlen : Nat
  vHello : BitVec 32
  options : Octet
  priority : Octet
  vWait : BitVec 32
  dr : InAddr := 0
  bdr : InAddr := 0
  nbrs : List SeenNeighbor

namespace HelloInterface
variable (oi : HelloInterface)

/-- The neighbours that are listed in the Hello. -/
def seen : List SeenNeighbor :=
  oi.nbrs.filter fun nbr => nbr.routerId ≠ 0 && nbr.state ≠ .attempt && nbr.state ≠ .down &&
    nbr.routerId ≠ oi.out.routerId

/-- `/* Check neighbor is sane? */` -/
def insane (nbr : SeenNeighbor) : Bool :=
  nbr.dRouter ≠ 0 && nbr.dRouter = oi.address && nbr.bdRouter = oi.address

/-- `/* Add neighbor seen. */` -/
def helloLoop : List SeenNeighbor → BitVec 16 → Stream → Option (BitVec 16 × Stream)
  | [], length, s => some (length, s)
  | nbr :: nbrs, length, s => do
    let s ← s.streamPutIpv4 nbr.routerId
    helloLoop nbrs (length + 4) s

def ospfMakeHello (s : Stream) : Option (BitVec 16 × Stream) := do
  let mask := if oi.type ≠ .pointopoint ∧ oi.type ≠ .virtuallink then masklen2ip oi.prefixlen else 0
  let s ← s.streamPutIpv4 mask
  let s ← s.streamPutw (oi.vHello.setWidth 16)
  let s ← s.streamPutc oi.options
  let s ← s.streamPutc oi.priority
  let s ← s.streamPutl oi.vWait
  let s ← s.streamPutIpv4 oi.dr
  let p := s.putp
  let s ← s.streamPutIpv4 oi.bdr
  let (length, s) ← helloLoop oi.seen (BitVec.ofNat 16 ospfHelloMinSize) s
  if oi.seen.any oi.insane then do
    let s ← (s.streamSetPutp p).streamPutIpv4 0
    return (length, s)
  else return (length, s)

/-- The packet of `ospf_hello_send`, before it gets a destination. -/
def helloPacket : Option OspfPacket := do
  let s ← oi.out.ospfMakeHeader 1 (Stream.streamNew oi.out.mtu)
  let (length, s) ← oi.ospfMakeHello s
  let length := BitVec.ofNat 16 ospfHeaderSize + length
  let s ← oi.out.ospfFillHeader s length
  return { s := s, dst := 0, length := length }

/-- The octets of a Hello for which there is room: a field that does not fit is left out. -/
def helloRoom (mtu count : Nat) : Nat :=
  if 44 ≤ mtu then 44 + 4 * min count ((mtu - 44) / 4)
  else if mtu = 24 then 0
  else if mtu < 32 then mtu
  else mtu / 4 * 4

end HelloInterface

/-- The positions after a field of so many octets is put. -/
def putAt (size : Nat) (pos : Nat × Nat) (count : Nat) : Nat × Nat :=
  if pos.1 + count ≤ size then (pos.1 + count, max pos.2 (pos.1 + count)) else pos

section Positions
variable {s : Stream} {size : Nat}

/-- A stream of this size with its positions. -/
structure Stands (s : Stream) (size : Nat) (pos : Nat × Nat) : Prop where
  sized : s.size = size
  put : s.putp = pos.1
  ends : s.endp = pos.2
  inside : pos.1 ≤ size

variable {pos : Nat × Nat}

theorem store_stands {octets} (stands : Stands s size pos) (fits : pos.1 + octets.length ≤ size) :
    ∃ s', (s.store s.putp octets).map (fun s => s.advance octets.length) = some s' ∧
      Stands s' size (pos.1 + octets.length, max pos.2 (pos.1 + octets.length)) := by
  rw [store, if_pos (by rw [stands.put, stands.sized]; exact fits)]
  refine ⟨_, rfl, ?_, ?_, ?_, fits⟩
  · rw [← stands.sized]
    exact length_overwrite ..
  · exact congrArg (· + octets.length) stands.put
  · simp only [advance, stands.put, stands.ends]

theorem putWhole_stands {octets} (stands : Stands s size pos) :
    ∃ s', s.putWhole octets = some s' ∧ Stands s' size (putAt size pos octets.length) := by
  have inside := stands.inside
  rw [putWhole, putAt, if_neg (by rw [stands.sized, stands.put]; omega)]
  by_cases fits : pos.1 + octets.length ≤ size
  · rw [if_neg (by rw [stands.sized, stands.put]; omega), if_pos fits]
    exact store_stands stands fits
  · rw [if_pos (by rw [stands.sized, stands.put]; omega), if_neg fits]
    exact ⟨s, rfl, stands⟩

theorem streamPutc_stands {c} (stands : Stands s size pos) :
    ∃ s', s.streamPutc c = some s' ∧ Stands s' size (putAt size pos 1) := by
  rw [streamPutc, putAt]
  by_cases fits : pos.1 + 1 ≤ size
  · rw [if_neg (by rw [stands.sized, stands.put]; omega), if_pos fits]
    exact @store_stands s size pos [c] stands fits
  · rw [if_pos (by rw [stands.sized, stands.put]; omega), if_neg fits]
    exact ⟨s, rfl, stands⟩

theorem streamPutIpv4_stands {value} (stands : Stands s size pos) :
    ∃ s', s.streamPutIpv4 value = some s' ∧ Stands s' size (putAt size pos 4) := by
  have put := @putWhole_stands s size pos (toOctets 4 value.toNat) stands
  rwa [length_toOctets] at put

theorem streamPutw_stands {value} (stands : Stands s size pos) :
    ∃ s', s.streamPutw value = some s' ∧ Stands s' size (putAt size pos 2) := by
  have put := @putWhole_stands s size pos (toOctets 2 value.toNat) stands
  rwa [length_toOctets] at put

theorem streamPutl_stands {value} (stands : Stands s size pos) :
    ∃ s', s.streamPutl value = some s' ∧ Stands s' size (putAt size pos 4) :=
      streamPutIpv4_stands stands

/-- The positions after `count` neighbours. -/
def seenAt (size : Nat) : Nat → Nat × Nat → Nat × Nat
  | 0, pos => pos
  | rest + 1, pos => seenAt size rest (putAt size pos 4)

theorem helloLoop_stands (nbrs : List SeenNeighbor) (length : BitVec 16)
    (stands : Stands s size pos) :
    ∃ s', HelloInterface.helloLoop nbrs length s =
      some (length + BitVec.ofNat 16 (4 * nbrs.length), s') ∧
      Stands s' size (seenAt size nbrs.length pos) := by
  induction nbrs generalizing length s pos with
  | nil => exact ⟨s, by simp [HelloInterface.helloLoop], stands⟩
  | cons nbr nbrs ih =>
    obtain ⟨next, put, stands⟩ := @streamPutIpv4_stands s size pos nbr.routerId stands
    obtain ⟨s', later, stands⟩ := ih (length + 4) stands
    refine ⟨s', ?_, stands⟩
    rw [HelloInterface.helloLoop, put]
    refine later.trans ?_
    rw [length_cons, mul_succ, Nat.add_comm _ 4, BitVec.ofNat_add, BitVec.add_assoc]
    rfl

theorem seenAt_room (count : Nat) {start} (inside : start ≤ size) :
    seenAt size count (start, start) =
      (start + 4 * min count ((size - start) / 4), start + 4 * min count ((size - start) / 4)) := by
  induction count generalizing start with
  | zero => simp [seenAt]
  | succ count ih =>
    rw [seenAt, putAt]
    by_cases fits : start + 4 ≤ size
    · rw [if_pos fits, max_eq_right (by omega), ih fits]
      have step : start + 4 + 4 * min count ((size - (start + 4)) / 4) = start + 4 * min (count + 1)
        ((size - start) / 4) := by omega
      rw [step]
    · rw [if_neg fits, ih inside]
      have none_ : (size - start) / 4 = 0 := by omega
      rw [none_, min_zero, min_zero]

theorem seenAt_full (count : Nat) (full : size < pos.1 + 4) : seenAt size count pos = pos := by
  induction count with
  | zero => rfl
  | succ count ih => rw [seenAt, putAt, if_neg (not_le.mpr full), ih]

/-- Where DR ends, and where BDR does. -/
def fixedAt (size : Nat) : Nat × Nat :=
  putAt size (putAt size (putAt size (putAt size (putAt size (putAt size (24, 0) 4) 2) 1) 1) 4) 4

theorem fixedAt_room (room : 44 ≤ size) : fixedAt size = (40, 40) := by
  have each (start end_ count : Nat) (short : start + count ≤ 44) (behind : end_ ≤ start + count) :
      putAt size (start, end_) count = (start + count, start + count) := by
    rw [putAt, if_pos (by omega), max_eq_right behind]
  rw [fixedAt, each 24 0 4, each 28 28 2, each 30 30 1, each 31 31 1, each 32 32 4,
    each 36 36 4] <;> decide

theorem fixedAt_small (header : 24 ≤ size) (small : size < 44) (count : Nat) :
    size < (fixedAt size).1 + 4 ∧ (fixedAt size).2 = HelloInterface.helloRoom size count := by
  rw [HelloInterface.helloRoom, if_neg (not_le.mpr small)]
  interval_cases size <;> decide

/-- Where the packet ends, and that BDR is not at its end. -/
theorem endsAt_room (header : 24 ≤ size) (count : Nat) :
    (seenAt size count (putAt size (fixedAt size) 4)).2 = HelloInterface.helloRoom size count ∧
      ((fixedAt size).1 + 4 ≤ size →
        (fixedAt size).1 + 4 ≤ (seenAt size count (putAt size (fixedAt size) 4)).2) := by
  by_cases room : 44 ≤ size
  · have bdr : putAt size (40, 40) 4 = (44, 44) := if_pos room
    rw [fixedAt_room room, bdr, seenAt_room count room, HelloInterface.helloRoom, if_pos room]
    exact ⟨rfl, fun _ => Nat.le_add_right 44 _⟩
  · obtain ⟨full, ends⟩ := fixedAt_small header (Nat.lt_of_not_le room) count
    have bdr : putAt size (fixedAt size) 4 = fixedAt size := if_neg (not_le.mpr full)
    rw [bdr, seenAt_full count full]
    exact ⟨ends, fun fits => absurd fits (not_le.mpr full)⟩

end Positions

namespace HelloInterface
variable {oi : HelloInterface} {s : Stream}

theorem ospfMakeHello_stands (stands : Stands s oi.out.mtu (24, 0)) (header : 24 ≤ oi.out.mtu) :
    ∃ s', oi.ospfMakeHello s = some (BitVec.ofNat 16 (20 + 4 * oi.seen.length), s') ∧
      s'.size = oi.out.mtu ∧
      s'.endp = helloRoom oi.out.mtu oi.seen.length := by
  obtain ⟨mask, isMask⟩ := @exists_eq _
    (if oi.type ≠ .pointopoint ∧ oi.type ≠ .virtuallink then masklen2ip oi.prefixlen else 0)
  obtain ⟨s1, put1, stands⟩ := @streamPutIpv4_stands _ _ _ mask stands
  obtain ⟨s2, put2, stands⟩ := @streamPutw_stands _ _ _ (oi.vHello.setWidth 16) stands
  obtain ⟨s3, put3, stands⟩ := @streamPutc_stands _ _ _ oi.options stands
  obtain ⟨s4, put4, stands⟩ := @streamPutc_stands _ _ _ oi.priority stands
  obtain ⟨s5, put5, stands⟩ := @streamPutl_stands _ _ _ oi.vWait stands
  obtain ⟨s6, put6, stands⟩ := @streamPutIpv4_stands _ _ _ oi.dr stands
  have here : Stands s6 oi.out.mtu (fixedAt oi.out.mtu) := stands
  obtain ⟨s7, put7, stands⟩ := @streamPutIpv4_stands _ _ _ oi.bdr here
  obtain ⟨s8, listed, stands⟩ := helloLoop_stands oi.seen (BitVec.ofNat 16 ospfHelloMinSize) stands
  rw [← BitVec.ofNat_add] at listed
  have ends := endsAt_room header oi.seen.length
  -- a neighbour that is not sane has BDR written again
  have again : ∃ s9, (s8.streamSetPutp s6.putp).streamPutIpv4 0 = some s9 ∧ s9.size = oi.out.mtu ∧
      s9.endp = s8.endp := by
    have back : Stands (s8.streamSetPutp s6.putp) oi.out.mtu ((fixedAt oi.out.mtu).1, s8.endp) :=
      ⟨stands.sized, here.put, rfl, here.inside⟩
    obtain ⟨s9, put9, stands'⟩ := @streamPutIpv4_stands _ _ _ 0 back
    refine ⟨s9, put9, stands'.sized, stands'.ends.trans ?_⟩
    rw [putAt]
    split
    · exact max_eq_left (by rw [stands.ends]; exact ends.2 ‹_›)
    · rfl
  obtain ⟨s9, put9, sized9, ends9⟩ := again
  have made : oi.ospfMakeHello s = if oi.seen.any oi.insane then
      some (BitVec.ofNat 16 (20 + 4 * oi.seen.length), s9)
      else some (BitVec.ofNat 16 (20 + 4 * oi.seen.length), s8) := by
    rw [ospfMakeHello, ← isMask]
    refine bind_ran put1 ?_
    refine bind_ran put2 ?_
    refine bind_ran put3 ?_
    refine bind_ran put4 ?_
    refine bind_ran put5 ?_
    refine bind_ran put6 ?_
    refine bind_ran put7 ?_
    refine bind_ran listed ?_
    dsimp only
    rw [put9]
    rfl
  rw [made]
  split
  · exact ⟨s9, rfl, sized9, by rw [ends9, stands.ends]; exact ends.1⟩
  · exact ⟨s8, rfl, stands.sized, stands.ends.trans ends.1⟩

section
variable {s' : Stream} {pos : Nat} {octets : List Octet} (stored : s.store pos octets = some s')
include stored

theorem store_endp : s'.endp = s.endp := by
  rw [store] at stored
  split at stored
  · rw [← Option.some.inj stored]
  · cases stored

theorem store_size : s'.size = s.size := by
  rw [store] at stored
  split at stored
  · rw [← Option.some.inj stored]
    exact length_overwrite ..
  · cases stored

theorem store_fits : pos + octets.length ≤ s.size := by
  rw [store] at stored
  split at stored
  · assumption
  · cases stored

end

theorem ospfFillHeader_endp {out : OutInterface} {s' length}
    (filled : out.ospfFillHeader s length = some s') : s'.endp = s.endp := by
  obtain ⟨sized, stored, filled⟩ := bind_eq_some_iff.mp filled
  obtain ⟨summed, sum, auth⟩ := bind_eq_some_iff.mp filled
  have first := store_endp stored
  have second : summed.endp = sized.endp := by
    rw [fillChecksum] at sum
    split at sum
    · exact store_endp sum
    · obtain ⟨octets, -, sum⟩ := bind_eq_some_iff.mp sum
      exact store_endp sum
  have third : s'.endp = summed.endp := by
    rw [ospfMakeAuth] at auth
    split at auth
    · rw [← Option.some.inj auth]
    · exact store_endp auth
    · exact store_endp auth
  rw [third, second, first]

theorem ospfMakeHeader_room {out : OutInterface} {type headed}
    (made : out.ospfMakeHeader type (streamNew out.mtu) = some headed) :
    ospfHeaderSize ≤ out.mtu := by
  obtain ⟨first, wrote, made⟩ := bind_eq_some_iff.mp made
  obtain ⟨second, wrote', -⟩ := bind_eq_some_iff.mp made
  have same := store_size wrote
  have fits := store_fits wrote'
  rw [same, Stream.size, streamNew] at fits
  simpa [ospfAuthSimpleSize, ospfHeaderSize] using fits

theorem helloRoom_le (mtu count : Nat) : helloRoom mtu count ≤ mtu := by
  rw [helloRoom]
  split
  · omega
  · split
    · omega
    · split <;> omega

/-- A Hello goes out with a length that is the one of its octets, and not above the MTU. -/
def HelloConsistent (oi : HelloInterface) : Prop :=
  ∃ op, oi.helloPacket = some op ∧ op.length.toNat = op.s.endp ∧ op.s.endp ≤ oi.out.mtu ∧
    field op.s.data 2 2 = op.length

/-- It does exactly when there is room for a header, and for all neighbours: or for so many that the
  length comes to the same. -/
theorem hello_iff : oi.HelloConsistent ↔
    ospfHeaderSize ≤ oi.out.mtu ∧ (44 + 4 * oi.seen.length) % 65536 =
      helloRoom oi.out.mtu oi.seen.length := by
  have total : BitVec.ofNat 16 ospfHeaderSize + BitVec.ofNat 16 (20 + 4 * oi.seen.length) =
      BitVec.ofNat 16 (44 + 4 * oi.seen.length) := by
    rw [← BitVec.ofNat_add, ← add_assoc]
    rfl
  have body (room : ospfHeaderSize ≤ oi.out.mtu) :
      ∃ headed s, oi.out.ospfMakeHeader 1 (streamNew oi.out.mtu) = some headed ∧
      oi.ospfMakeHello headed = some (BitVec.ofNat 16 (20 + 4 * oi.seen.length), s) ∧
        s.size = oi.out.mtu ∧
      s.endp = helloRoom oi.out.mtu oi.seen.length := by
    obtain ⟨header, size, made⟩ := oi.out.ospfMakeHeader_new 1 room
    obtain ⟨s, hello, sized, ends⟩ := @ospfMakeHello_stands oi
      { data := header ++ replicate (oi.out.mtu - ospfHeaderSize) 0,
        putp := ospfHeaderSize, endp := 0 }
      ⟨by rw [Stream.size, length_append, size, length_replicate, Nat.add_sub_cancel' room], rfl,
        rfl, room⟩ room
    exact ⟨_, s, made, hello, sized, ends⟩
  constructor
  · rintro ⟨op, sent, same, -, -⟩
    obtain ⟨headed, made, sent⟩ := Option.bind_eq_some_iff.mp sent
    have room := ospfMakeHeader_room made
    obtain ⟨headed', s, made', hello, sized, ends⟩ := body room
    obtain rfl : headed = headed' := Option.some.inj (made.symm.trans made')
    obtain ⟨⟨length, s'⟩, hello', sent⟩ := Option.bind_eq_some_iff.mp sent
    cases Option.some.inj (hello.symm.trans hello')
    obtain ⟨s', filled, sent⟩ := Option.bind_eq_some_iff.mp sent
    rw [← Option.some.inj sent] at same
    rw [total, ospfFillHeader_endp filled, ends] at same
    exact ⟨room, same⟩
  · rintro ⟨room, exact_⟩
    obtain ⟨headed, s, made, hello, sized, ends⟩ := body room
    obtain ⟨length, isLength⟩ := @exists_eq _ (BitVec.ofNat 16 (44 + 4 * oi.seen.length))
    have long : length.toNat = helloRoom oi.out.mtu oi.seen.length := by
      rw [isLength, BitVec.toNat_ofNat, exact_]
    have short := helloRoom_le oi.out.mtu oi.seen.length
    obtain ⟨filled, size, lengthField, filledTo⟩ :=
      oi.out.ospfFillHeader_front s length (take_append_drop 24 s.data).symm
      (length_take_of_le (by rw [← Stream.size, sized]; exact room))
        (by rw [long, sized]; exact short)
    refine ⟨{ s := { s with data := filled ++ s.data.drop 24 }, dst := 0, length := length }, ?_,
      long.trans ends.symm, ?_, ?_⟩
    · rw [helloPacket, made]
      refine bind_ran rfl (bind_ran hello ?_)
      dsimp only
      rw [total, ← isLength, filledTo]
      rfl
    · exact ends.trans_le short
    · exact (field_front (by rw [size]; decide)).trans lengthField

end HelloInterface

/-- A router-LSA whose number of links and whose length are those of the links in it. -/
def OriginArea.RouterLsaConsistent (area : OriginArea) : Prop :=
  ∃ data links, area.ospfRouterLsaNew = some data ∧ Describes data links

/-- A router-LSA tells how many links it has up to 123 of them, where its lengths still fit, and a
Hello packet how long it is if all neighbours that were seen have room in it. -/
theorem originated_consistent (area : OriginArea) (oi : HelloInterface) :
    (area.RouterLsaConsistent ↔ area.links.length ≤ 123 ∨ area.links.length % 65536 = 123) ∧
    (oi.HelloConsistent ↔
      ospfHeaderSize ≤ oi.out.mtu ∧ (44 + 4 * oi.seen.length) % 65536 =
        HelloInterface.helloRoom oi.out.mtu oi.seen.length) :=
  ⟨area.routerLsa_describes_iff, oi.hello_iff⟩

/-- A point-to-point interface without a neighbour, with a network of its own. -/
def stubInterface (i : Nat) : LinkInterface where
  routerId := 0x0a000001
  type := .pointopoint
  state := .pointToPoint
  address := BitVec.ofNat 32 (0x0a010001 + 256 * i)
  prefixlen := 24
  outputCost := 10
  nbrs := []

/-- A router with 124 of them. -/
def wideArea : OriginArea where
  routerId := 0x0a000001
  flags := 0
  oiflist := (List.range 124).map stubInterface

/-- An Ethernet interface with 365 neighbours. -/
def crowdedInterface : HelloInterface where
  out := { routerId := 0x0a000001, areaId := 0, authType := .null,
           authSimple := Vector.replicate 8 0, authCrypt := [], mtu := 1500,
           mtuInt := ethernet_mtu, transmitDelay := 1 }
  type := .broadcast
  address := 0x0a010101
  prefixlen := 16
  vHello := 10
  options := 2
  priority := 1
  vWait := 40
  nbrs := (List.range 365).map fun i =>
    { routerId := BitVec.ofNat 32 (0x0a000002 + i), address := BitVec.ofNat 32 (0x0a010102 + i),
      state := .full }

theorem originated_short : ¬ wideArea.RouterLsaConsistent ∧ ¬ crowdedInterface.HelloConsistent := by
  constructor
  · intro consistent
    have links : wideArea.links.length = 124 := by decide +kernel
    have room := wideArea.routerLsa_describes_iff.mp consistent
    rw [links] at room
    exact nomatch room
  · intro consistent
    have seen : crowdedInterface.seen.length = 365 := by decide +kernel
    have room := (crowdedInterface.hello_iff.mp consistent).2
    rw [seen] at room
    exact nomatch room

end Zebra.Ospfd.Originate
