import Zebra.Base.Octets
import Mathlib.Tactic.Ring

namespace Zebra.Base
open Nat

/-- The low `count` octets of a number, most significant first. -/
def toOctets : Nat → Nat → List Octet
  | 0, _ => []
  | count + 1, value => BitVec.ofNat 8 (value / 256 ^ count) :: toOctets count value

def ofOctets (octets : List Octet) : Nat :=
  octets.foldl (fun value octet => 256 * value + octet.toNat) 0

variable (count value : Nat)

@[simp] theorem length_toOctets : (toOctets count value).length = count := by
  induction count with
  | zero => rfl
  | succ count ih => simp [toOctets, ih]

private theorem foldl_octets (octets : List Octet) (value : Nat) :
    octets.foldl (fun value octet => 256 * value + octet.toNat) value =
      value * 256 ^ octets.length + ofOctets octets := by
  induction octets generalizing value with
  | nil => simp [ofOctets]
  | cons head rest ih =>
    have whole : ofOctets (head :: rest) =
        (256 * 0 + head.toNat) * 256 ^ rest.length + ofOctets rest := ih _
    rw [List.foldl_cons, ih, whole, List.length_cons]
    ring

theorem ofOctets_cons (head : Octet) (rest : List Octet) :
    ofOctets (head :: rest) = head.toNat * 256 ^ rest.length + ofOctets rest := by
  rw [ofOctets, List.foldl_cons, foldl_octets]
  ring

theorem toOctets_mod : toOctets count (value % 256 ^ count) = toOctets count value := by
  induction count generalizing value with
  | zero => rfl
  | succ count ih =>
    have low : value % 256 ^ (count + 1) % 256 ^ count = value % 256 ^ count :=
      mod_mod_of_dvd _ (pow_dvd_pow _ (le_succ count))
    have high : value % 256 ^ (count + 1) / 256 ^ count = value / 256 ^ count % 256 := by
      rw [pow_succ, mod_mul_right_div_self]
    rw [toOctets, toOctets, high, ← ih, low, ih]
    congr 1
    apply BitVec.eq_of_toNat_eq
    simp

theorem ofOctets_toOctets : ofOctets (toOctets count value) = value % 256 ^ count := by
  induction count with
  | zero => simp [toOctets, ofOctets, mod_one]
  | succ count ih =>
    rw [toOctets, ofOctets_cons, length_toOctets, ih, pow_succ, mod_mul, BitVec.toNat_ofNat]
    ring

theorem ofOctets_toOctets_toNat {count} (value : BitVec (8 * count)) :
    ofOctets (toOctets count value.toNat) = value.toNat := by
  rw [ofOctets_toOctets, mod_eq_of_lt]
  have bound := value.isLt
  rwa [pow_mul] at bound

end Zebra.Base
