import Zebra.Base.Reader

/-! A buffer that is worked on in place, with every access to it. -/
namespace Zebra.Base
open List

structure Workspace where
  data : List Octet
  /-- Position and number of octets. -/
  accesses : List (Nat × Nat) := []
  wrapped : Bool := false
  copies : List (List Octet) := []
deriving DecidableEq

/-- The octets from `pos` on are replaced; what would lie behind the buffer is not written. -/
def overwrite (data : List Octet) (pos : Nat) (octets : List Octet) : List Octet :=
  data.mapIdx fun index old => if pos ≤ index ∧
    index < pos + octets.length then octets.getD (index - pos) 0 else old

@[simp] theorem length_overwrite (data : List Octet) (pos : Nat) (octets : List Octet) :
    (overwrite data pos octets).length = data.length := by
  rw [overwrite, length_mapIdx]

section
variable {data octets : List Octet} {pos start count : Nat}
  (apart : start + count ≤ pos ∨ pos + octets.length ≤ start)
include apart

/-- What is written elsewhere does not show. -/
theorem slice_overwrite : slice (overwrite data pos octets) start count =
    slice data start count := by
  apply map_congr_left
  intro index member
  have below := mem_range.mp member
  rw [getD_eq_getElem?_getD, getD_eq_getElem?_getD, overwrite, getElem?_mapIdx]
  rw [show (fun old => if pos ≤ start + index ∧ start + index < pos + octets.length
    then octets.getD (start + index - pos) 0 else old) = id from funext fun old =>
      if_neg (by omega)]
  rw [Option.map_id_fun, id]

theorem field_overwrite : field (overwrite data pos octets) start count =
    field data start count := by
  rw [field, slice_overwrite apart, field]

end

namespace Workspace

def see (work : Workspace) (pos count : Nat) : Workspace :=
  { work with accesses := (pos, count) :: work.accesses }

def put (work : Workspace) (pos : Nat) (octets : List Octet) : Workspace :=
  { work with data := overwrite work.data pos octets,
              accesses := (pos, octets.length) :: work.accesses }

/-- `minuend - subtrahend` is computed in an unsigned type. -/
def minus (work : Workspace) (minuend subtrahend : Nat) : Workspace :=
  { work with wrapped := work.wrapped || decide (minuend < subtrahend) }

def copy (work : Workspace) (pos count : Nat) : Workspace :=
  { work.see pos count with copies := slice work.data pos count :: work.copies }

/-- Nothing outside the buffer was touched, nothing wrapped, and no copy is too short. -/
structure Safe (least : Nat) (work : Workspace) : Prop where
  inside : ∀ access ∈ work.accesses, access.1 + access.2 ≤ work.data.length
  exact : work.wrapped = false
  whole : ∀ octets ∈ work.copies, least ≤ octets.length

section Data
variable (work : Workspace) (pos count minuend subtrahend : Nat) (octets : List Octet)

@[simp] theorem see_data : (work.see pos count).data = work.data := rfl

@[simp] theorem put_data : (work.put pos octets).data = overwrite work.data pos octets := rfl

@[simp] theorem minus_data : (work.minus minuend subtrahend).data = work.data := rfl

@[simp] theorem copy_data : (work.copy pos count).data = work.data := rfl

end Data

section Safe
variable {least : Nat} {work : Workspace} {pos count minuend subtrahend : Nat} {octets : List Octet}

theorem safe_start (data : List Octet) : Safe least { data := data } :=
  ⟨fun _ member => (not_mem_nil member).elim, rfl, fun _ member => (not_mem_nil member).elim⟩

@[simp] theorem safe_see : Safe least (work.see pos count) ↔
    Safe least work ∧ pos + count ≤ work.data.length := by
  constructor
  · intro safe
    have all := forall_mem_cons.mp safe.inside
    exact ⟨⟨all.2, safe.exact, safe.whole⟩, all.1⟩
  · rintro ⟨safe, fits⟩
    exact ⟨forall_mem_cons.mpr ⟨fits, safe.inside⟩, safe.exact, safe.whole⟩

@[simp] theorem safe_put :
    Safe least (work.put pos octets) ↔ Safe least work ∧
    pos + octets.length ≤ work.data.length := by
  have size : (work.put pos octets).data.length = work.data.length := length_overwrite ..
  constructor
  · intro safe
    have all := forall_mem_cons.mp safe.inside
    rw [size] at all
    exact ⟨⟨all.2, safe.exact, safe.whole⟩, all.1⟩
  · rintro ⟨safe, fits⟩
    refine ⟨?_, safe.exact, safe.whole⟩
    rw [size]
    exact forall_mem_cons.mpr ⟨fits, safe.inside⟩

@[simp] theorem safe_minus : Safe least (work.minus minuend subtrahend) ↔
    Safe least work ∧ subtrahend ≤ minuend := by
  constructor
  · intro safe
    have none := safe.exact
    rw [minus, Bool.or_eq_false_iff, decide_eq_false_iff_not, not_lt] at none
    exact ⟨⟨safe.inside, none.1, safe.whole⟩, none.2⟩
  · rintro ⟨safe, enough⟩
    refine ⟨safe.inside, ?_, safe.whole⟩
    rw [minus, Bool.or_eq_false_iff, decide_eq_false_iff_not, not_lt]
    exact ⟨safe.exact, enough⟩

@[simp] theorem safe_copy :
    Safe least (work.copy pos count) ↔ Safe least work ∧ pos + count ≤ work.data.length ∧
    least ≤ count := by
  constructor
  · intro safe
    have all := forall_mem_cons.mp safe.inside
    have long := forall_mem_cons.mp safe.whole
    rw [length_slice] at long
    exact ⟨⟨all.2, safe.exact, long.2⟩, all.1, long.1⟩
  · rintro ⟨safe, fits, long⟩
    refine ⟨forall_mem_cons.mpr ⟨fits, safe.inside⟩, safe.exact,
      forall_mem_cons.mpr ⟨?_, safe.whole⟩⟩
    rw [length_slice]
    exact long

theorem Safe.of_see (safe : Safe least (work.see pos count)) : Safe least work :=
  (safe_see.mp safe).1

/-- Nothing went wrong, and the buffer holds this. -/
structure Holds (least : Nat) (work : Workspace) (data : List Octet) : Prop where
  safe : Safe least work
  same : work.data = data

theorem Safe.intact (safe : Safe least work) : Holds least work work.data := ⟨safe, rfl⟩

section
variable {data : List Octet} (holds : Holds least work data)
include holds

theorem Holds.see (pos count : Nat) (fits : pos + count ≤ data.length) :
    Holds least (work.see pos count) data :=
  ⟨safe_see.mpr ⟨holds.safe, by rwa [holds.same]⟩, holds.same⟩

theorem Holds.minus (enough : subtrahend ≤ minuend) :
    Holds least (work.minus minuend subtrahend) data :=
  ⟨safe_minus.mpr ⟨holds.safe, enough⟩, holds.same⟩

end
end Safe
end Workspace
end Zebra.Base
