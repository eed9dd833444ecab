import Zebra.Base.Octets

/-! `struct prefix` of lib/prefix.h and the bit comparisons of lib/prefix.c. The address union is
its sixteen octets; every family uses a leading part of them. -/

namespace Zebra
open Base

/-- Address families of `prefix_copy`; `unspec` is the link-state and route
distinguisher form, which keeps eight octets. -/
inductive Family where
  | inet
  | inet6
  | unspec
deriving DecidableEq

/-- Octets that `prefix_copy` copies for each family. -/
def Family.bytelen : Family → Nat
  | .inet => 4
  | .inet6 => 16
  | .unspec => 8

theorem Family.bytelen_le (family : Family) : family.bytelen ≤ 16 := by
  cases family <;> decide

/-- A prefix whose length fits its family, as every caller guarantees; the
assertion of `check_bit` follows from it. -/
structure Prefix where
  family : Family
  prefixlen : Nat
  octets : Vector Octet 16
  fits : prefixlen ≤ 8 * family.bytelen
deriving DecidableEq

namespace Prefix

def bit (p : Prefix) (index : Nat) : Bool :=
  bitAt p.octets index

/-- The route of `p` covers the route of `q`: no longer, and equal on its bits. -/
def Covers (p q : Prefix) : Prop :=
  p.prefixlen ≤ q.prefixlen ∧ Agree p.prefixlen p.octets q.octets

/-- Equal after masking: the same length and the same leading bits. -/
def SameMasked (p q : Prefix) : Prop :=
  p.prefixlen = q.prefixlen ∧ Agree p.prefixlen p.octets q.octets

theorem Covers.refl (p : Prefix) : Covers p p :=
  ⟨le_rfl, Agree.refl _ _⟩

theorem Covers.trans {p q r} (first : Covers p q) (second : Covers q r) : Covers p r :=
  ⟨le_trans first.1 second.1, first.2.trans (second.2.mono first.1)⟩

theorem SameMasked.symm {p q} (same : SameMasked p q) : SameMasked q p :=
  ⟨same.1.symm, same.1 ▸ same.2.symm⟩

theorem SameMasked.covers {p q} (same : SameMasked p q) : Covers p q :=
  ⟨le_of_eq same.1, same.2⟩

theorem sameMasked_iff_covers {p q} : SameMasked p q ↔ Covers p q ∧ Covers q p := by
  constructor
  · intro same
    exact ⟨same.covers, same.symm.covers⟩
  · intro ⟨forward, backward⟩
    exact ⟨le_antisymm forward.1 backward.1, forward.2⟩

theorem SameMasked.trans {p q r} (first : SameMasked p q) (second : SameMasked q r) :
    SameMasked p r :=
  ⟨first.1.trans second.1, first.2.trans (first.1 ▸ second.2)⟩

end Prefix

/-- The mask table `maskbit[]` of lib/prefix.c and lib/table.c. -/
def maskbit (count : Nat) : Octet :=
  octetAt (#v[0x00, 0x80, 0xc0, 0xe0, 0xf0, 0xf8, 0xfc, 0xfe, 0xff] : Vector Octet 9) count

theorem maskbit_getMsbD (count index : Nat) (small : count ≤ 8) (bound : index < 8) :
    (maskbit count).getMsbD index = decide (index < count) := by
  have table : ∀ count < 9, ∀ index < 8,
      (maskbit count).getMsbD index = decide (index < count) := by decide
  exact table count (by omega) index bound

/-- The masked difference vanishes exactly when the leading bits agree. -/
theorem maskbit_xor_eq_zero (count : Nat) (small : count ≤ 8) (first second : Octet) :
    maskbit count &&& (first ^^^ second) = 0 ↔
      ∀ index < count, first.getMsbD index = second.getMsbD index := by
  rw [octet_eq_iff]
  constructor
  · intro clear index bound
    have masked := clear index (by omega)
    have kept := maskbit_getMsbD count index small (by omega)
    simp_all
  · intro agree index bound
    have kept := maskbit_getMsbD count index small bound
    by_cases below : index < count
    · simp_all
    · simp_all

/-- `while (offset--) if (np[offset] != pp[offset]) return 0;` -/
def octetsEqualBelow (np pp : Vector Octet 16) : Nat → Bool
  | 0 => true
  | offset + 1 => octetAt np offset == octetAt pp offset && octetsEqualBelow np pp offset

theorem octetsEqualBelow_iff (np pp : Vector Octet 16) (count : Nat) :
    octetsEqualBelow np pp count = true ↔ ∀ octet < count, octetAt np octet = octetAt pp octet := by
  induction count with
  | zero => simp [octetsEqualBelow]
  | succ count ih =>
    simp only [octetsEqualBelow, Bool.and_eq_true, beq_iff_eq, ih]
    constructor
    · intro ⟨last, earlier⟩ octet bound
      rcases Nat.lt_succ_iff_lt_or_eq.mp bound with below | same
      · exact earlier octet below
      · exact same ▸ last
    · intro all
      exact ⟨all count (Nat.lt_succ_self _), fun octet bound => all octet (Nat.lt_succ_of_lt bound)⟩

/-- `prefix_match`: does `n` include `p`? -/
def prefixMatch (n p : Prefix) : Bool :=
  if p.prefixlen < n.prefixlen then false
  else
    let offset := n.prefixlen / 8
    let shift := n.prefixlen % 8
    if shift ≠ 0 ∧ maskbit shift &&& (octetAt n.octets offset ^^^ octetAt p.octets offset) ≠ 0 then
      false
    else
      octetsEqualBelow n.octets p.octets offset

theorem prefixMatch_iff (n p : Prefix) : prefixMatch n p = true ↔ n.Covers p := by
  unfold prefixMatch Prefix.Covers
  rw [agree_iff_octets]
  have small : n.prefixlen % 8 ≤ 8 := by omega
  have masked := maskbit_xor_eq_zero (n.prefixlen % 8) small
    (octetAt n.octets (n.prefixlen / 8)) (octetAt p.octets (n.prefixlen / 8))
  by_cases longer : p.prefixlen < n.prefixlen
  · simp only [longer, ↓reduceIte, Bool.false_eq_true, false_iff, not_and]
    omega
  · simp only [longer, ↓reduceIte, Nat.le_of_not_lt longer, true_and]
    by_cases whole : n.prefixlen % 8 = 0
    · simp [whole, octetsEqualBelow_iff]
    · by_cases equal : maskbit (n.prefixlen % 8) &&&
          (octetAt n.octets (n.prefixlen / 8) ^^^ octetAt p.octets (n.prefixlen / 8)) = 0
      · simp only [equal, ne_eq, not_true_eq_false, and_false, ↓reduceIte, octetsEqualBelow_iff]
        exact ⟨fun octets => ⟨octets, masked.mp equal⟩, fun both => both.1⟩
      · simp only [whole, equal, ne_eq, not_false_eq_true, and_self, ↓reduceIte,
          Bool.false_eq_true, false_iff, not_and]
        intro _ agree
        exact equal (masked.mpr agree)

/-- `prefix_copy` into a node from `XCALLOC`: only the octets of the family are
written, the rest of the union stays zero. -/
def prefixCopy (src : Prefix) : Prefix :=
  { src with
    octets := Vector.ofFn fun index =>
      if index.val < src.family.bytelen then octetAt src.octets index.val else 0 }

theorem octetAt_prefixCopy (src : Prefix) (index : Nat) (bound : index < src.family.bytelen) :
    octetAt (prefixCopy src).octets index = octetAt src.octets index := by
  have inside : index < 16 := lt_of_lt_of_le bound src.family.bytelen_le
  simp [octetAt, prefixCopy, bound, inside]

theorem sameMasked_prefixCopy (src : Prefix) : (prefixCopy src).SameMasked src := by
  refine ⟨rfl, ?_⟩
  intro index bound
  have fits := src.fits
  have small : index < src.prefixlen := bound
  unfold bitAt
  rw [octetAt_prefixCopy src (index / 8) (by omega)]

/-- `check_bit`: bit number `prefixlen` of an address. -/
def checkBit (octets : Vector Octet 16) (prefixlen : Nat) : Bool :=
  octetAt octets (prefixlen / 8) >>> (7 - prefixlen % 8) &&& 1 ≠ 0

theorem checkBit_eq (octets : Vector Octet 16) (prefixlen : Nat) :
    checkBit octets prefixlen = bitAt octets prefixlen := by
  have table : ∀ octet : Octet, ∀ index < 8,
      decide (octet >>> (7 - index) &&& 1 ≠ 0) = octet.getMsbD index := by decide
  exact table _ _ (Nat.mod_lt _ (by omega))

end Zebra
