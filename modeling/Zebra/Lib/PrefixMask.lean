import Zebra.Lib.Prefix

/-! Masked prefixes: `apply_mask`, `prefix_cmp`, and the order that `prefix_match` gives. -/
namespace Zebra
open Base

/-- `while (index < size) pnt[index++] = 0;`, which has `count` rounds. -/
def zeroOctets (octets : Vector Octet 16) : Nat → Nat → Vector Octet 16
  | 0, _ => octets
  | count + 1, index => zeroOctets (octets.setIfInBounds index 0) count (index + 1)

theorem octetAt_zeroOctets (octets : Vector Octet 16) {count index} (room : index + count ≤ 16)
    (octet : Nat) :
    octetAt (zeroOctets octets count index) octet =
      if index ≤ octet ∧ octet < index + count then 0 else octetAt octets octet := by
  induction count generalizing octets index with
  | zero => rw [zeroOctets, if_neg (by omega)]
  | succ count ih =>
    rw [zeroOctets, ih _ (by omega), octetAt_setIfInBounds _ _ _ _ (by omega)]
    split_ifs <;> first | rfl | omega

/-- `prefix_cmp`: zero where the prefixes are the same after masking. -/
def prefixCmp (p1 p2 : Prefix) : Nat :=
  if p1.family ≠ p2.family ∨ p1.prefixlen ≠ p2.prefixlen then 1
  else
    let offset := p1.prefixlen / 8
    let shift := p1.prefixlen % 8
    if shift ≠ 0 ∧
      maskbit shift &&& (octetAt p1.octets offset ^^^ octetAt p2.octets offset) ≠ 0 then 1
    else if octetsEqualBelow p1.octets p2.octets offset then 0 else 1

theorem prefixCmp_eq_zero {p1 p2 : Prefix} :
    prefixCmp p1 p2 = 0 ↔ p1.family = p2.family ∧ p1.prefixlen = p2.prefixlen ∧
    prefixMatch p1 p2 = true := by
  by_cases family : p1.family = p2.family
  · by_cases length : p1.prefixlen = p2.prefixlen
    · simp only [prefixCmp, prefixMatch, family, length, ne_eq, not_true_eq_false, or_self,
        if_false, lt_irrefl, true_and]
      split <;> simp
    · simp [prefixCmp, length]
  · simp [prefixCmp, family]

namespace Prefix
section
variable (size : Nat) (p : Prefix)

/-- The body that `apply_mask_ipv4` and `apply_mask_ipv6` share; `size` octets are the address. -/
def maskOctets : Prefix :=
  let index := p.prefixlen / 8
  if index < size then
    let offset := p.prefixlen % 8
    let masked := p.octets.setIfInBounds index (octetAt p.octets index &&& maskbit offset)
    { p with octets := zeroOctets masked (size - (index + 1)) (index + 1) }
  else p

def applyMaskIpv4 : Prefix := p.maskOctets 4
def applyMaskIpv6 : Prefix := p.maskOctets 16

def applyMask : Prefix :=
  match p.family with
  | .inet => p.applyMaskIpv4
  | .inet6 => p.applyMaskIpv6
  | .unspec => p

/-- The bits of the address behind the length are zero. -/
def Masked : Prop := ∀ index < 8 * p.family.bytelen, p.prefixlen ≤ index → p.bit index = false

end

variable {size : Nat} {p q : Prefix}

theorem maskOctets_rest : (p.maskOctets size).family = p.family ∧
    (p.maskOctets size).prefixlen = p.prefixlen := by
  rw [maskOctets]
  split <;> exact ⟨rfl, rfl⟩

theorem maskOctets_bit (small : size ≤ 16) (fits : p.prefixlen ≤ 8 * size) (index : Nat) :
    (p.maskOctets size).bit index = if p.prefixlen ≤ index ∧ index < 8 * size then false
    else p.bit index := by
  rw [maskOctets]
  split
  · simp only [bit, bitAt, octetAt_zeroOctets _
      (show p.prefixlen / 8 + 1 + (size - (p.prefixlen / 8 + 1)) ≤ 16 by omega),
      octetAt_setIfInBounds _ _ _ _ (show p.prefixlen / 8 < 16 by omega)]
    have masked := maskbit_getMsbD (p.prefixlen % 8) (index % 8) (by omega) (by omega)
    rcases lt_trichotomy (index / 8) (p.prefixlen / 8) with before | within | behind
    · rw [if_neg (by omega), if_neg (by omega), if_neg (by omega)]
    · rw [if_neg (by omega), if_pos within.symm, BitVec.getMsbD_and, masked, within]
      by_cases kept : index < p.prefixlen
      · rw [if_neg (by omega), decide_eq_true (by omega), Bool.and_true]
      · rw [if_pos (by omega), decide_eq_false (by omega), Bool.and_false]
    · by_cases inside : index < 8 * size
      · rw [if_pos (by omega), if_pos (by omega)]
        exact BitVec.getMsbD_zero
      · rw [if_neg (by omega), if_neg (by omega), if_neg (by omega)]
  · rw [if_neg (by omega)]

theorem eq_of (family : p.family = q.family) (length : p.prefixlen = q.prefixlen)
    (octets : p.octets = q.octets) : p = q := by
  cases p
  cases q
  simp_all

theorem maskOctets_idem (small : size ≤ 16) (fits : p.prefixlen ≤ 8 * size) :
    (p.maskOctets size).maskOctets size = p.maskOctets size := by
  obtain ⟨family, length⟩ := @maskOctets_rest size p
  obtain ⟨family', length'⟩ := @maskOctets_rest size (p.maskOctets size)
  have bits : Agree (8 * 16)
      ((p.maskOctets size).maskOctets size).octets (p.maskOctets size).octets := by
    intro index _
    refine (maskOctets_bit small (length ▸ fits) index).trans ?_
    rw [length, maskOctets_bit small fits]
    change _ = bit _ index
    rw [maskOctets_bit small fits]
    split <;> rfl
  have octets : ((p.maskOctets size).maskOctets size).octets = (p.maskOctets size).octets :=
    Vector.ext fun index bound => by
      simpa [octetAt, bound] using ((agree_iff_octets (8 * 16) _ _).mp bits).1 index (by omega)
  exact eq_of family' length' octets

theorem applyMask_family (known : p.family ≠ .unspec) :
    p.applyMask = p.maskOctets p.family.bytelen := by
  rw [applyMask]
  cases family : p.family with
  | inet => rfl
  | inet6 => rfl
  | unspec => exact absurd family known

end Prefix

open Prefix

/-- Whole octets and the last bits by the mask table make one order on the masked prefixes of a
  family. -/
theorem prefixMatch_order :
    (∀ n p : Prefix, prefixMatch n p = true ↔
      n.prefixlen ≤ p.prefixlen ∧ ∀ index < n.prefixlen, n.bit index = p.bit index) ∧
    (∀ a b : Prefix, a.family = b.family →
      (prefixCmp a b = 0 ↔ prefixMatch a b = true ∧ prefixMatch b a = true)) ∧
    (∀ p : Prefix, p.family ≠ .unspec → p.applyMask.family = p.family ∧
      p.applyMask.prefixlen = p.prefixlen ∧
      (∀ index, p.applyMask.bit index =
        if p.prefixlen ≤ index ∧ index < 8 * p.family.bytelen then false else p.bit index) ∧
      p.applyMask.applyMask = p.applyMask) ∧
    (∀ p : Prefix, prefixMatch p p = true) ∧
    (∀ p q r : Prefix, prefixMatch p q = true → prefixMatch q r = true → prefixMatch p r = true) ∧
    ∀ a b : Prefix, a.family = b.family → a.Masked → b.Masked → prefixMatch a b = true →
      prefixMatch b a = true →
      a.prefixlen = b.prefixlen ∧ Agree (8 * a.family.bytelen) a.octets b.octets := by
  simp only [prefixCmp_eq_zero, prefixMatch_iff]
  refine ⟨fun _ _ => Iff.rfl, fun a b family => ?_, fun p known => ?_, Covers.refl,
    fun _ _ _ => Covers.trans,
    fun a b family masked masked' first second => ?_⟩
  · rw [← sameMasked_iff_covers]
    exact ⟨fun same => ⟨same.2.1, same.2.2.2⟩, fun same => ⟨family, same.1, same.covers⟩⟩
  · obtain ⟨family, length⟩ := @maskOctets_rest p.family.bytelen p
    rw [applyMask_family known, applyMask_family (family.symm ▸ known), family]
    exact ⟨rfl, length, maskOctets_bit p.family.bytelen_le p.fits,
      maskOctets_idem p.family.bytelen_le p.fits⟩
  · have same := sameMasked_iff_covers.mpr ⟨first, second⟩
    refine ⟨same.1, fun index bound => ?_⟩
    by_cases inside : index < a.prefixlen
    · exact same.2 index inside
    · exact (masked index bound (by omega)).trans
        (masked' index (family ▸ bound) (same.1 ▸ by omega)).symm

end Zebra
