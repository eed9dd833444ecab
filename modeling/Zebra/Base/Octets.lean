import Mathlib.Data.Nat.Basic

/-! Octet strings read as bit strings, most significant bit first. -/

namespace Zebra.Base

abbrev Octet := BitVec 8

variable {size : Nat}

section
variable (octets : Vector Octet size)

/-- The octet at an index; an index past the end reads zero. -/
def octetAt (index : Nat) : Octet :=
  octets[index]?.getD 0

/-- Bit number `index`, counted from the most significant bit of octet zero. -/
def bitAt (index : Nat) : Bool :=
  (octetAt octets (index / 8)).getMsbD (index % 8)

/-- The two strings agree on their first `length` bits. -/
def Agree (length : Nat) (first second : Vector Octet size) : Prop :=
  ∀ index < length, bitAt first index = bitAt second index

theorem Agree.refl (length : Nat) (octets : Vector Octet size) : Agree length octets octets :=
  fun _ _ => rfl

theorem Agree.symm {length} {first second : Vector Octet size}
    (agree : Agree length first second) : Agree length second first :=
  fun index bound => (agree index bound).symm

theorem Agree.trans {length} {first second third : Vector Octet size}
    (left : Agree length first second) (right : Agree length second third) :
    Agree length first third :=
  fun index bound => (left index bound).trans (right index bound)

theorem Agree.mono {short long} {first second : Vector Octet size}
    (agree : Agree long first second) (bound : short ≤ long) : Agree short first second :=
  fun index below => agree index (lt_of_lt_of_le below bound)

@[simp] theorem octetAt_setIfInBounds (target index : Nat) (value : Octet) (bound : target < size) :
    octetAt (octets.setIfInBounds target value) index =
      if target = index then value else octetAt octets index := by
  unfold octetAt
  by_cases same : target = index
  · subst index
    simp [bound]
  · simp [same]

theorem octet_eq_iff (first second : Octet) :
    first = second ↔ ∀ index < 8, first.getMsbD index = second.getMsbD index := by
  constructor
  · intro same index _
    rw [same]
  · intro agree
    exact BitVec.eq_of_getMsbD_eq fun index bound => agree index bound

theorem bitAt_octet (octet index : Nat) (bound : index < 8) :
    bitAt octets (8 * octet + index) = (octetAt octets octet).getMsbD index := by
  have quotient : (8 * octet + index) / 8 = octet := by omega
  have remainder : (8 * octet + index) % 8 = index := by omega
  rw [bitAt, quotient, remainder]

end

/-- Whole octets first, then the leading bits of the last, incomplete octet. -/
theorem agree_iff_octets (length : Nat) (first second : Vector Octet size) :
    Agree length first second ↔
      (∀ octet < length / 8, octetAt first octet = octetAt second octet) ∧
      ∀ index < length % 8,
        (octetAt first (length / 8)).getMsbD index =
          (octetAt second (length / 8)).getMsbD index := by
  constructor
  · intro agree
    constructor
    · intro octet bound
      rw [octet_eq_iff]
      intro index small
      have pointwise := agree (8 * octet + index) (by omega)
      rwa [bitAt_octet _ _ _ small, bitAt_octet _ _ _ small] at pointwise
    · intro index bound
      have small : index < 8 := by omega
      have pointwise := agree (8 * (length / 8) + index) (by omega)
      rwa [bitAt_octet _ _ _ small, bitAt_octet _ _ _ small] at pointwise
  · intro ⟨whole, lastOctet⟩ index bound
    unfold bitAt
    rcases Nat.lt_or_ge (index / 8) (length / 8) with inside | last
    · rw [whole _ inside]
    · have same : index / 8 = length / 8 := by omega
      rw [same]
      exact lastOctet _ (by omega)

end Zebra.Base
