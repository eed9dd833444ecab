import Zebra.Base.Run
import Zebra.Lib.Plist
import Zebra.Lib.Stream

namespace Zebra.Lib
open Base List Lib.Stream
namespace Stream
variable (s : Stream)

/-- `stream_put_prefix`, whose check does not count the octet of the length. -/
def streamPutPrefix (p : Prefix) : Option Stream :=
  if s.putp ≤ s.size ∧ s.size - s.putp < psize p.prefixlen then some s
  else (s.streamPutc (.ofNat 8 p.prefixlen)).bind fun s =>
    (s.store s.putp (p.octets.toList.take (psize p.prefixlen))).map fun s =>
      s.advance (psize p.prefixlen)

def streamGetcFrom (pos : Nat) : Octet := s.data.getD pos 0
def streamGetwFrom (pos : Nat) : BitVec 16 := field s.data pos 2
/-- `stream_getl` where `getp` is the position. -/
def streamGetlFrom (pos : Nat) : BitVec 32 := field s.data pos 4

end Stream

structure StreamState extends Stream where
  getp : BitVec 64 := 0

/-- The calls; those that read at `getp` differ in how many octets they read. -/
inductive StreamOp where
  | put (src : List Octet)
  | putc (c : Octet)
  | putw (w : BitVec 16)
  | putl (l : BitVec 32)
  | putIpv4 (l : BitVec 32)
  | putInAddr (addr : BitVec 32)
  | putPrefix (p : Prefix)
  | putcAt (pos : Nat) (c : Octet)
  | putwAt (pos : Nat) (w : BitVec 16)
  | putlAt (pos : Nat) (l : BitVec 32)
  | setGetp (pos : BitVec 64)
  | setPutp (pos : Nat)
  | forward (size : BitVec 64)
  | get (size : BitVec 64)
  | reset

namespace StreamState
variable (s : StreamState)

def onto (written : Option Stream) : Option StreamState :=
  written.map fun after => { s with toStream := after }

/-- One call; nothing where it writes outside of the buffer. -/
def act : StreamOp → Option StreamState
  | .put src => s.onto (s.streamPut src)
  | .putc c => s.onto (s.streamPutc c)
  | .putw w => s.onto (s.streamPutw w)
  | .putl l => s.onto (s.streamPutl l)
  | .putIpv4 l => s.onto (s.streamPutIpv4 l)
  | .putInAddr addr => s.onto (s.streamPutInAddr addr)
  | .putPrefix p => s.onto (s.streamPutPrefix p)
  | .putcAt pos c => s.onto (s.store pos [c])
  | .putwAt pos w => s.onto (s.store pos (toOctets 2 w.toNat))
  | .putlAt pos l => s.onto (s.store pos (toOctets 4 l.toNat))
  | .setGetp pos => some { s with getp := pos }
  | .setPutp pos => s.onto (s.streamSetPutp pos)
  | .forward size => some { s with getp := s.getp + size }
  | .get size => some { s with getp := s.getp + size }
  | .reset => some { s with putp := 0, endp := 0, getp := 0 }

end StreamState

namespace StreamOp

/-- A position that is given lies within the buffer, and a prefix does not need exactly the room
  that is left. -/
def Fits (s : Stream) : StreamOp → Prop
  | .putPrefix p => ¬ (0 < psize p.prefixlen ∧ s.putp + psize p.prefixlen = s.size)
  | .putcAt pos _ => pos + 1 ≤ s.size
  | .putwAt pos _ => pos + 2 ≤ s.size
  | .putlAt pos _ => pos + 4 ≤ s.size
  | .setPutp pos => pos ≤ s.size
  | _ => True

instance (s : Stream) : (op : StreamOp) → Decidable (op.Fits s)
  | .putPrefix _ => inferInstanceAs (Decidable (¬ (_ < _ ∧ _ = _)))
  | .putcAt _ _ | .putwAt _ _ | .putlAt _ _ | .setPutp _ => inferInstanceAs (Decidable (_ ≤ _))
  | .put _ | .putc _ | .putw _ | .putl _ | .putIpv4 _ | .putInAddr _ | .setGetp _ | .forward
    _ | .get _ | .reset =>
    .isTrue trivial

/-- How many octets a value takes. -/
def count : StreamOp → Nat
  | .putc _ => 1
  | .putw _ => 2
  | .putl _ => 4
  | .putPrefix p => 1 + psize p.prefixlen
  | _ => 0

/-- Reading at a position gives the value that was put. -/
def ReadAt (after : Stream) (pos : Nat) : StreamOp → Prop
  | .putc c => after.streamGetcFrom pos = c
  | .putw w => after.streamGetwFrom pos = w
  | .putl l => after.streamGetlFrom pos = l
  | .putPrefix p => after.streamGetcFrom pos = .ofNat 8 p.prefixlen ∧
      slice after.data (pos + 1) (psize p.prefixlen) = p.octets.toList.take (psize p.prefixlen)
  | _ => True

end StreamOp

/-- A stream of some size after calls that fit. -/
inductive StreamRun (size : Nat) : StreamState → Prop where
  | new : StreamRun size ⟨Stream.streamNew size, 0⟩
  | step {s after : StreamState} (run : StreamRun size s) (op : StreamOp)
    (fits : op.Fits s.toStream) (acted : s.act op = some after) :
    StreamRun size after

theorem length_psize (p : Prefix) :
    (p.octets.toList.take (psize p.prefixlen)).length = psize p.prefixlen := by
  have short := p.fits
  have sixteen := p.family.bytelen_le
  rw [length_take, Vector.length_toList, psize]
  omega

theorem getc_of_slice {s : Stream} {pos c} (is : slice s.data pos 1 = [c]) :
    s.streamGetcFrom pos = c :=
  (cons.inj is).1

structure Stream.Kept (size : Nat) (s : Stream) : Prop where
  same : s.size = size
  putp : s.putp ≤ size
  endp : s.endp ≤ size

namespace Stream.Kept
variable {size : Nat} {s : Stream} (kept : s.Kept size)
include kept

theorem store (pos : Nat) (octets : List Octet) (inside : pos + octets.length ≤ size) :
    ∃ after, s.store pos octets = some after ∧ after.Kept size := by
  rw [← kept.same] at inside
  exact ⟨_, if_pos inside, ⟨(length_overwrite ..).trans kept.same, kept.putp, kept.endp⟩⟩

/-- What is stored at `putp` stays within the buffer and can be read there. -/
theorem append (octets : List Octet) (inside : s.putp + octets.length ≤ size) :
    ∃ after, ((s.store s.putp octets).map fun s => s.advance octets.length) = some after ∧
      after.Kept size ∧
      after.putp = s.putp + octets.length ∧ after.data = overwrite s.data s.putp octets ∧
      slice after.data s.putp octets.length = octets := by
  rw [Stream.store, if_pos (by rw [kept.same]; exact inside)]
  exact ⟨_, rfl, ⟨(length_overwrite ..).trans kept.same, inside, max_le kept.endp inside⟩, rfl, rfl,
    slice_overwrite_same (inside.trans (le_of_eq kept.same.symm))⟩

theorem putWhole (octets : List Octet) :
    ∃ after, s.putWhole octets = some after ∧ after.Kept size ∧
      (s.putp + octets.length ≤ size → after.putp = s.putp + octets.length ∧
        slice after.data s.putp octets.length = octets) := by
  have here := kept.putp
  rw [Stream.putWhole, kept.same, if_neg (not_lt.mpr here)]
  split
  · exact ⟨s, rfl, kept, fun inside => by omega⟩
  · obtain ⟨after, stored, kept', putp, _, written⟩ := kept.append octets (by omega)
    exact ⟨after, stored, kept', fun _ => ⟨putp, written⟩⟩

theorem putc (c : Octet) : s.streamPutc c = s.putWhole [c] := by
  have here := kept.putp
  rw [streamPutc, Stream.putWhole, kept.same, if_neg (not_lt.mpr here)]
  refine if_congr ?_ rfl rfl
  rw [length_singleton]
  omega

theorem put (src : List Octet) : ∃ after, s.streamPut src = some after ∧ after.Kept size := by
  have here := kept.putp
  rw [streamPut, kept.same, if_neg (not_lt.mpr here)]
  obtain ⟨after, stored, kept', _⟩ :=
    kept.append (src.take (size - s.putp)) (by rw [length_take]; omega)
  exact ⟨after, stored, kept'⟩

/-- The octet of the length goes first. -/
theorem putPrefix_eq {p} (enough : s.putp + psize p.prefixlen ≤ size) :
    s.streamPutPrefix p = (s.putWhole [.ofNat 8 p.prefixlen]).bind fun s =>
      (s.store s.putp (p.octets.toList.take (psize p.prefixlen))).map fun s =>
        s.advance (p.octets.toList.take (psize p.prefixlen)).length := by
  rw [streamPutPrefix, kept.same, if_neg (by omega), kept.putc, length_psize]

theorem putPrefix (p : Prefix)
    (fits : ¬ (0 < psize p.prefixlen ∧ s.putp + psize p.prefixlen = size)) :
    ∃ after, s.streamPutPrefix p = some after ∧ after.Kept size ∧
      (s.putp + (1 + psize p.prefixlen) ≤ size → (StreamOp.putPrefix p).ReadAt after s.putp) := by
  have here := kept.putp
  have length := length_psize p
  by_cases enough : s.putp + psize p.prefixlen ≤ size
  · rw [kept.putPrefix_eq enough]
    dsimp only [StreamOp.ReadAt]
    generalize p.octets.toList.take (psize p.prefixlen) = octets at *
    obtain ⟨first, stored, kept1, wrote⟩ := kept.putWhole [.ofNat 8 p.prefixlen]
    rw [length_singleton] at wrote
    have inside : first.putp + octets.length ≤ size := by
      by_cases room : s.putp + 1 ≤ size
      · omega
      · have bound := kept1.putp
        omega
    obtain ⟨after, stored', kept2, _, data, written'⟩ := kept1.append octets inside
    refine ⟨after, by rw [stored]; exact stored', kept2, fun room => ?_⟩
    obtain ⟨next, written⟩ := wrote (by omega)
    rw [next] at data written'
    exact ⟨getc_of_slice (by rw [data, slice_overwrite (.inl le_rfl), written]), length ▸ written'⟩
  · exact ⟨s, if_pos ⟨by rw [kept.same]; exact here, by rw [kept.same]; omega⟩, kept,
      fun room => by omega⟩

end Stream.Kept

theorem field_of_slice {data} {pos count} {value : BitVec (8 * count)}
    (is : slice data pos count = toOctets count value.toNat) :
    field data pos count = value := by
  rw [field, is]
  exact BitVec.eq_of_toNat_eq
    (by rw [ofOctets_toOctets_toNat, BitVec.toNat_ofNat, Nat.mod_eq_of_lt value.isLt])

section
variable {size : Nat} {s : StreamState} (kept : s.toStream.Kept size)
include kept

theorem act_fits {op : StreamOp} (fits : op.Fits s.toStream) :
    ∃ after, s.act op = some after ∧ after.toStream.Kept size ∧
    (s.putp + op.count ≤ size → op.ReadAt after.toStream s.putp) := by
  have lands {written after} (is : written = some after) (kept' : after.Kept size)
      (read : s.putp + op.count ≤ size → op.ReadAt after s.putp) :
      ∃ after, s.onto written = some after ∧ after.toStream.Kept size ∧
        (s.putp + op.count ≤ size → op.ReadAt after.toStream s.putp) :=
    ⟨_, congrArg s.onto is, kept', read⟩
  have inside {last} (within : last ≤ s.size) : last ≤ size := within.trans (le_of_eq kept.same)
  cases op with
  | put src =>
    obtain ⟨after, is, kept'⟩ := kept.put src
    exact lands is kept' fun _ => trivial
  | putc c =>
    obtain ⟨after, is, kept', read⟩ := kept.putWhole [c]
    exact lands ((kept.putc c).trans is) kept' fun room => getc_of_slice (read room).2
  | putw w =>
    obtain ⟨after, is, kept', read⟩ := kept.putWhole (toOctets 2 w.toNat)
    exact lands is kept' fun room => field_of_slice (read room).2
  | putl l =>
    obtain ⟨after, is, kept', read⟩ := kept.putWhole (toOctets 4 l.toNat)
    exact lands is kept' fun room => field_of_slice (read room).2
  | putIpv4 l | putInAddr l =>
    obtain ⟨after, is, kept', _⟩ := kept.putWhole (toOctets 4 l.toNat)
    exact lands is kept' fun _ => trivial
  | putPrefix p =>
    obtain ⟨after, is, kept', read⟩ := kept.putPrefix p (kept.same ▸ fits)
    exact lands is kept' read
  | putcAt pos c =>
    obtain ⟨after, is, kept'⟩ := kept.store pos [c] (inside fits)
    exact lands is kept' fun _ => trivial
  | putwAt pos w =>
    obtain ⟨after, is, kept'⟩ := kept.store pos (toOctets 2 w.toNat) (inside fits)
    exact lands is kept' fun _ => trivial
  | putlAt pos l =>
    obtain ⟨after, is, kept'⟩ := kept.store pos (toOctets 4 l.toNat) (inside fits)
    exact lands is kept' fun _ => trivial
  | setGetp pos | forward size | get size => exact ⟨_, rfl, kept, fun _ => trivial⟩
  | setPutp pos => exact ⟨_, rfl, ⟨kept.same, kept.same ▸ fits, kept.endp⟩, fun _ => trivial⟩
  | reset => exact ⟨_, rfl, ⟨kept.same, Nat.zero_le _, Nat.zero_le _⟩, fun _ => trivial⟩

theorem act_apart {op} {after} (apart : ¬ op.Fits s.toStream) (acted : s.act op = some after) :
    ¬ after.putp ≤ size := by
  have outside {pos octets} (behind : ¬ pos + octets.length ≤ s.size)
      (acted : s.onto (s.store pos octets) = some after) : ¬ after.putp ≤ size := by
    rw [store, if_neg behind] at acted
    cases acted
  cases op with
  | putPrefix p =>
    obtain ⟨some_, full⟩ := not_not.mp apart
    rw [kept.same] at full
    obtain ⟨first, stored, kept1, wrote⟩ := kept.putWhole [.ofNat 8 p.prefixlen]
    have next := (wrote (by rw [length_singleton]; omega)).1
    rw [StreamState.act, kept.putPrefix_eq (le_of_eq full), stored, Option.bind_some, store,
      if_neg (by rw [kept1.same, next, length_psize, length_singleton]; omega)] at acted
    cases acted
  | putcAt pos c | putwAt pos c | putlAt pos c => exact outside apart acted
  | setPutp pos =>
    cases acted
    rwa [StreamOp.Fits, kept.same] at apart
  | _ => exact absurd trivial apart

end

theorem StreamRun.kept {size s} (run : StreamRun size s) : s.toStream.Kept size := by
  induction run with
  | new => exact ⟨length_replicate, Nat.zero_le _, Nat.zero_le _⟩
  | step _ op fits acted ih =>
    obtain ⟨_, is, kept, _⟩ := act_fits ih fits
    cases is.symm.trans acted
    exact kept

/-- As long as every call fits, both pointers stay within the buffer, nothing is written outside of
it, and a value that there is room for can be read where it was put. A call that does not fit breaks
this. -/
theorem stream_bounds_exact {size s} (run : StreamRun size s) :
    (s.data.length = size ∧ s.putp ≤ size ∧ s.endp ≤ size) ∧ ∀ op : StreamOp,
      (op.Fits s.toStream ↔ ∃ after, s.act op = some after ∧ after.putp ≤ size ∧
        after.endp ≤ size) ∧
      ∀ after, s.act op = some after → op.Fits s.toStream → s.putp + op.count ≤ size →
        op.ReadAt after.toStream s.putp := by
  have kept := run.kept
  refine ⟨⟨kept.same, kept.putp, kept.endp⟩, fun op =>
    ⟨⟨fun fits => ?_, fun bounded => ?_⟩, fun after acted fits room => ?_⟩⟩
  · obtain ⟨after, is, kept', _⟩ := act_fits kept fits
    exact ⟨after, is, kept'.putp, kept'.endp⟩
  · obtain ⟨after, acted, bound, _⟩ := bounded
    by_contra apart
    exact act_apart kept apart acted bound
  · obtain ⟨_, is, _, read⟩ := act_fits kept fits
    cases is.symm.trans acted
    exact read room

/-- Values of one and two octets, one of them put again at its place, octets that are given up
  again, and reads. -/
def sampleOps : List StreamOp :=
  [.putc 7, .putw 258, .putwAt 1 515, .put [9, 9], .forward 1, .get 2, .setPutp 3]

theorem sampleSixteen_fits : 16 ≤ 8 * Family.inet.bytelen := by decide

/-- 10.1.0.0/16. -/
def sampleSixteen : Prefix :=
  ⟨.inet, 16, #v[10, 1, 0, 0, 0, 0, 0, 0, 0, 0, 0, 0, 0, 0, 0, 0], sampleSixteen_fits⟩

/-- A prefix behind three octets of eight stays within them, and is read where it was put. -/
theorem stream_bounds_exact_prefix :
    ∃ s after, attempt (fun s op => StreamOp.Fits s.toStream op) StreamState.act
    ⟨streamNew 8, 0⟩ sampleOps = some s ∧ s.data = [7, 2, 3, 9, 9, 0, 0, 0] ∧ s.putp = 3 ∧
    s.endp ≤ 8 ∧
    s.act (.putPrefix sampleSixteen) = some after ∧ (after.putp ≤ 8 ∧ after.endp ≤ 8) ∧
    (StreamOp.putPrefix sampleSixteen).ReadAt after.toStream 3 := by
  obtain ⟨s, ran⟩ := Option.isSome_iff_exists.mp
    (by decide : (attempt (fun s op => StreamOp.Fits s.toStream op) StreamState.act
    ⟨streamNew 8, 0⟩ sampleOps).isSome)
  have seen :
      (attempt (fun s op => StreamOp.Fits s.toStream op) StreamState.act
      ⟨streamNew 8, 0⟩ sampleOps).map (fun s =>
      (s.data, s.putp, decide ((StreamOp.putPrefix sampleSixteen).Fits s.toStream))) =
        some ([7, 2, 3, 9, 9, 0, 0, 0], 3, true) := by decide
  rw [ran, Option.map_some, Option.some_inj, Prod.mk.injEq, Prod.mk.injEq] at seen
  obtain ⟨data, putp, fits⟩ := seen
  have run : StreamRun 8 s := attempt_invariant (fun earlier => earlier.step _) .new ran
  obtain ⟨bounds, call⟩ := stream_bounds_exact run
  obtain ⟨exact, read⟩ := call (.putPrefix sampleSixteen)
  obtain ⟨after, acted, bounded⟩ := exact.mp (of_decide_eq_true fits)
  have reads := read after acted (of_decide_eq_true fits) (by rw [putp]; decide)
  rw [putp] at reads
  exact ⟨s, after, ran, data, putp, bounds.2.2, acted, bounded, reads⟩

/-- Three octets of room for a prefix that takes one and three. -/
theorem stream_put_prefix_outside : StreamRun 3 ⟨streamNew 3, 0⟩ ∧
    (⟨streamNew 3, 0⟩ : StreamState).act
      (.putPrefix ⟨.inet, 24, .replicate 16 0, by decide⟩) = none :=
  ⟨.new, by decide⟩

end Zebra.Lib
