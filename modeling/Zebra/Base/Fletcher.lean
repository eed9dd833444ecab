import Mathlib.Data.Int.ModEq
import Mathlib.Tactic.Linarith
import Mathlib.Tactic.LinearCombination
import Mathlib.Tactic.Ring
import Zebra.Base.Octets

/-! The two sums of Fletcher's checksum. -/
namespace Zebra.Base
open BitVec Int

/-- The sum of the octets. -/
def firstSum : List Octet → Nat
  | [] => 0
  | octet :: rest => octet.toNat + firstSum rest

/-- The sum of the first sums of all heads of the list. -/
def secondSum : List Octet → Nat
  | [] => 0
  | octet :: rest => (rest.length + 1) * octet.toNat + secondSum rest

variable {front back octets : List Octet} {modulus : Nat}

@[simp] theorem firstSum_nil : firstSum [] = 0 := rfl
@[simp] theorem secondSum_nil : secondSum [] = 0 := rfl

@[simp] theorem firstSum_cons (octet : Octet) (rest : List Octet) :
    firstSum (octet :: rest) = octet.toNat + firstSum rest := rfl

@[simp] theorem secondSum_cons (octet : Octet) (rest : List Octet) :
    secondSum (octet :: rest) = (rest.length + 1) * octet.toNat + secondSum rest := rfl

variable (front back : List Octet)

theorem firstSum_append : firstSum (front ++ back) = firstSum front + firstSum back := by
  induction front with
  | nil => simp
  | cons octet rest ih => simp [ih, add_assoc]

theorem secondSum_append :
    secondSum (front ++ back) =
      secondSum front + back.length * firstSum front + secondSum back := by
  induction front with
  | nil => simp
  | cons octet rest ih =>
    simp only [List.cons_append, secondSum_cons, firstSum_cons, ih, List.length_append]
    ring

theorem secondSum_le (octets : List Octet) :
    2 * secondSum octets ≤ 255 * (octets.length * (octets.length + 1)) := by
  induction octets with
  | nil => simp
  | cons octet rest ih =>
    have small : octet.toNat ≤ 255 := Nat.le_of_lt_succ octet.isLt
    have head : (rest.length + 1) * octet.toNat ≤ (rest.length + 1) * 255 :=
      Nat.mul_le_mul_left _ small
    simp only [secondSum_cons, List.length_cons]
    linarith

/-- Both sums vanish. -/
def Balanced (modulus : Nat) (octets : List Octet) : Prop :=
  modulus ∣ firstSum octets ∧ modulus ∣ secondSum octets

/-- Two octets in the middle balance the list exactly if they are these two numbers. -/
theorem balanced_iff (x y : Octet) : Balanced modulus (front ++ x :: y :: back) ↔
      (x.toNat : Int) ≡ (back.length + 1) * firstSum (front ++ 0 :: 0 :: back) - secondSum
        (front ++ 0 :: 0 :: back) [ZMOD modulus] ∧
        (y.toNat : Int) ≡ -firstSum (front ++ 0 :: 0 :: back) - x.toNat [ZMOD modulus] := by
  have first : (firstSum (front ++ x :: y :: back) : Int) =
      firstSum (front ++ 0 :: 0 :: back) + x.toNat + y.toNat := by
    simp only [firstSum_append, firstSum_cons, ofNat_eq_ofNat, toNat_ofNat, Nat.zero_mod]
    push_cast
    ring
  have second : (secondSum (front ++ x :: y :: back) : Int) =
      secondSum (front ++ 0 :: 0 :: back) + (back.length + 2) * x.toNat + (back.length + 1) *
        y.toNat := by
    simp only [secondSum_append, secondSum_cons, List.length_cons, ofNat_eq_ofNat, toNat_ofNat,
      Nat.zero_mod]
    push_cast
    ring
  rw [Balanced, ← natCast_dvd_natCast, ← natCast_dvd_natCast, first, second]
  generalize (back.length : Int) = r
  rw [modEq_comm, modEq_iff_dvd, modEq_comm, modEq_iff_dvd]
  constructor
  · rintro ⟨⟨k, isK⟩, ⟨l, isL⟩⟩
    exact ⟨⟨l - (r + 1) * k, by linear_combination isL - (r + 1) * isK⟩,
      ⟨k, by linear_combination isK⟩⟩
  · rintro ⟨⟨k, isK⟩, ⟨l, isL⟩⟩
    exact ⟨⟨l, by linear_combination isL⟩,
      ⟨k + (r + 1) * l, by linear_combination isK + (r + 1) * isL⟩⟩

end Zebra.Base
