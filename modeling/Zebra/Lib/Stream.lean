import Zebra.Base.Workspace

/-! `struct stream` of lib/stream.c. The result `none` is an access outside of the buffer: the
positions are `unsigned long`, and `size - putp` wraps where `putp` is behind the end. -/
namespace Zebra.Lib
open Base List Nat

structure Stream where
  data : List Octet
  putp : Nat := 0
  endp : Nat := 0
deriving DecidableEq

namespace Stream

def streamNew (size : Nat) : Stream where
  data := List.replicate size 0

section
variable (s : Stream)

def size : Nat := s.data.length

/-- Octets written at a position without moving `putp`. -/
def store (pos : Nat) (octets : List Octet) : Option Stream :=
  if pos + octets.length ≤ s.size then some { s with data := overwrite s.data pos octets } else none

/-- Octets read at a position. -/
def load (pos count : Nat) : Option (List Octet) :=
  if pos + count ≤ s.size then some (slice s.data pos count) else none

def streamSetPutp (pos : Nat) : Stream := { s with putp := pos }

/-- `s->putp += size; if (s->putp > s->endp) s->endp = s->putp;` -/
def advance (count : Nat) : Stream :=
  { s with putp := s.putp + count, endp := max s.endp (s.putp + count) }

/-- As much as there is room for. -/
def streamPut (src : List Octet) : Option Stream :=
  if s.size < s.putp then none
  else
    let src := src.take (s.size - s.putp)
    (s.store s.putp src).map fun s => s.advance src.length

def streamPutc (c : Octet) : Option Stream :=
  if s.size ≤ s.putp then some s else (s.store s.putp [c]).map fun s => s.advance 1

/-- Two octets or more, or nothing where there is no room. -/
def putWhole (octets : List Octet) : Option Stream :=
  if s.size < s.putp then none
  else if s.size - s.putp < octets.length then some s
  else (s.store s.putp octets).map fun s => s.advance octets.length

def streamPutw (w : BitVec 16) : Option Stream := s.putWhole (toOctets 2 w.toNat)
def streamPutl (l : BitVec 32) : Option Stream := s.putWhole (toOctets 4 l.toNat)
def streamPutIpv4 (l : BitVec 32) : Option Stream := s.putWhole (toOctets 4 l.toNat)
def streamPutInAddr (addr : BitVec 32) : Option Stream := s.putWhole (toOctets 4 addr.toNat)

end

variable {s : Stream} {front old back octets room : List Octet}

theorem overwrite_middle (same : old.length = octets.length) :
    overwrite (front ++ old ++ back) front.length octets = front ++ octets ++ back := by
  refine ext_getElem? fun index => ?_
  rw [overwrite, getElem?_mapIdx]
  rcases lt_or_ge index front.length with first | later
  · rw [append_assoc, append_assoc, getElem?_append_left first, getElem?_append_left first]
    simp [not_le.mpr first]
  · rcases lt_or_ge index (front.length + octets.length) with inside | behind
    · have short : index - front.length < octets.length := by omega
      have short' : index - front.length < old.length := by omega
      rw [append_assoc, append_assoc, getElem?_append_right later, getElem?_append_right later,
        getElem?_append_left short, getElem?_append_left short', getElem?_eq_getElem short,
        getElem?_eq_getElem short']
      simp [later, inside, getD_eq_getElem?_getD, getElem?_eq_getElem short]
    · have last : (front ++ octets).length ≤ index := by simpa using behind
      have last' : (front ++ old).length ≤ index := by simpa [same] using behind
      rw [getElem?_append_right last, getElem?_append_right last']
      simp [not_lt.mpr behind, same]

theorem store_middle (is : s.data = front ++ old ++ back) (same : old.length = octets.length) :
    s.store front.length octets = some { s with data := front ++ octets ++ back } := by
  have inside : front.length + octets.length ≤ s.size := by
    rw [size, is, length_append, length_append, same]
    exact Nat.le_add_right ..
  rw [store, if_pos inside, is, overwrite_middle same]

theorem store_room (is : s.data = front ++ room) (fits : octets.length ≤ room.length) :
    s.store front.length octets = some { s with
      data := front ++ octets ++ room.drop octets.length } := by
  have split : s.data = front ++ room.take octets.length ++ room.drop octets.length := by
    rw [is, append_assoc, take_append_drop]
  exact store_middle split (length_take_of_le fits)

theorem room_left (is : s.data = front ++ room) (here : s.putp = front.length) :
    s.size - s.putp = room.length ∧ ¬ s.size < s.putp := by
  rw [size, is, here, length_append]
  omega

section
variable (is : s.data = front ++ room) (here : s.putp = front.length)
  (fits : octets.length ≤ room.length)
include is here fits

theorem streamPut_room :
    s.streamPut octets = some { s.advance octets.length with
      data := front ++ octets ++ room.drop octets.length } := by
  obtain ⟨whole, inside⟩ := room_left is here
  rw [streamPut, if_neg inside, whole, take_of_length_le fits, here]
  exact (congrArg (Option.map _) (store_room is fits)).trans rfl

theorem putWhole_room :
    s.putWhole octets = some { s.advance octets.length with
      data := front ++ octets ++ room.drop octets.length } := by
  obtain ⟨whole, inside⟩ := room_left is here
  rw [putWhole, if_neg inside, whole, if_neg (not_lt.mpr fits), here, store_room is fits]
  rfl

/-- A stream between what is in front of `putp` and the room behind it; it ends there, or at `least`
  where that is later. -/
def standing (front room : List Octet) (least : Nat) : Stream where
  data := front ++ room
  putp := front.length
  endp := max least front.length

theorem putWhole_standing :
    s.putWhole octets = some (standing (front ++ octets) (room.drop octets.length) s.endp) := by
  rw [putWhole_room is here fits, advance, standing, here, length_append]

end

theorem putc_standing {c} (is : s.data = front ++ room) (here : s.putp = front.length)
    (fits : 1 ≤ room.length) :
    s.streamPutc c = some (standing (front ++ [c]) (room.drop 1) s.endp) := by
  have inside : ¬ s.size ≤ s.putp := by
    rw [size, is, here, length_append]
    omega
  rw [streamPutc, if_neg inside, here, @store_room s front [c] room is fits]
  simp [advance, standing, here]

theorem put_standing (is : s.data = front ++ room) (here : s.putp = front.length)
    (fits : octets.length ≤ room.length) :
    s.streamPut octets = some (standing (front ++ octets) (room.drop octets.length) s.endp) := by
  rw [streamPut_room is here fits, advance, standing, here, length_append]

theorem standing_endp {front' room' least} (longer : front.length ≤ front'.length) :
    standing front' room' (standing front room least).endp = standing front' room' least := by
  have same : max (max least front.length) front'.length = max least front'.length := by omega
  simp only [standing, same]

theorem putWhole_on {least} (fits : octets.length ≤ room.length) :
    (standing front room least).putWhole octets =
      some (standing (front ++ octets) (room.drop octets.length) least) := by
  rw [putWhole_standing rfl rfl fits,
    standing_endp (by rw [length_append]; exact Nat.le_add_right ..)]

theorem putc_on {c least} (fits : 1 ≤ room.length) :
    (standing front room least).streamPutc c =
      some (standing (front ++ [c]) (room.drop 1) least) := by
  rw [putc_standing rfl rfl fits, standing_endp (by rw [length_append]; exact Nat.le_add_right ..)]

theorem put_on {least} (fits : octets.length ≤ room.length) :
    (standing front room least).streamPut octets =
      some (standing (front ++ octets) (room.drop octets.length) least) := by
  rw [put_standing rfl rfl fits, standing_endp (by rw [length_append]; exact Nat.le_add_right ..)]

end Stream

section Front
variable {s : Stream} {front rest octets : List Octet} {pos : Nat}

theorem overwrite_front (inside : pos + octets.length ≤ front.length) :
    overwrite (front ++ rest) pos octets = overwrite front pos octets ++ rest := by
  refine ext_getElem? fun index => ?_
  rw [overwrite, getElem?_mapIdx]
  rcases lt_or_ge index front.length with first | later
  · rw [getElem?_append_left first, getElem?_append_left (by rwa [length_overwrite]), overwrite,
      getElem?_mapIdx]
  · have behind : ¬ index < pos + octets.length := by omega
    rw [getElem?_append_right later, getElem?_append_right (by rwa [length_overwrite]),
      length_overwrite]
    simp [behind]

theorem store_front (is : s.data = front ++ rest) (inside : pos + octets.length ≤ front.length) :
    s.store pos octets = some { s with data := overwrite front pos octets ++ rest } := by
  have fits : pos + octets.length ≤ s.size := by
    rw [Stream.size, is, length_append]
    exact le_trans inside (Nat.le_add_right ..)
  rw [Stream.store, if_pos fits, is, overwrite_front inside]

theorem slice_overwrite_same (inside : pos + octets.length ≤ front.length) :
    slice (overwrite front pos octets) pos octets.length = octets := by
  refine ext_getElem (length_slice ..) fun index short short' => ?_
  have here : pos + index < front.length := by omega
  simp only [slice, getElem_map, getElem_range, getD_eq_getElem?_getD, overwrite, getElem?_mapIdx,
    getElem?_eq_getElem here]
  simp [short']

theorem field_overwrite_same {value} (inside : pos + 2 ≤ front.length) :
    field (overwrite front pos (toOctets 2 value.toNat)) pos 2 = value := by
  have two : (toOctets 2 value.toNat).length = 2 := length_toOctets 2 _
  have written : slice (overwrite front pos (toOctets 2 value.toNat)) pos 2 =
      toOctets 2 value.toNat :=
    slice_overwrite_same (inside.trans' (by rw [two]))
  rw [field, written]
  refine BitVec.eq_of_toNat_eq ?_
  rw [@ofOctets_toOctets_toNat 2 value, BitVec.toNat_ofNat, mod_eq_of_lt value.isLt]

theorem field_front {count} (inside : pos + count ≤ front.length) :
    field (front ++ rest) pos count = field front pos count := by
  have same : slice (front ++ rest) pos count = slice front pos count := by
    refine map_congr_left fun index member => ?_
    have below := mem_range.mp member
    rw [getD_eq_getElem?_getD, getD_eq_getElem?_getD, getElem?_append_left (by omega)]
  rw [field, same, field]

theorem slice_middle (front octets back : List Octet) :
    slice (front ++ octets ++ back) front.length octets.length = octets := by
  refine ext_getElem (length_slice ..) fun index short short' => ?_
  have behind : front.length ≤ front.length + index := Nat.le_add_right ..
  have here : front.length + index - front.length < octets.length := by omega
  simp only [slice, getElem_map, getElem_range, getD_eq_getElem?_getD]
  rw [append_assoc, getElem?_append_right behind, getElem?_append_left here]
  simp [short']

theorem slice_whole (octets back : List Octet) : slice (octets ++ back) 0 octets.length = octets :=
  slice_middle [] octets back

theorem field_middle (front back : List Octet) (value : BitVec 16) :
    field (front ++ toOctets 2 value.toNat ++ back) front.length 2 = value := by
  have two : (toOctets 2 value.toNat).length = 2 := length_toOctets 2 _
  have written := slice_middle front (toOctets 2 value.toNat) back
  rw [two] at written
  rw [field, written]
  refine BitVec.eq_of_toNat_eq ?_
  rw [@ofOctets_toOctets_toNat 2 value, BitVec.toNat_ofNat, mod_eq_of_lt value.isLt]

end Front
end Zebra.Lib
