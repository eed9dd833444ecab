import Zebra.Lib.Prefix

namespace Zebra
open Base BitVec

/-- First loop of `route_common`: copy the leading octets both sides share. -/
def commonOctets (np pp : Vector Octet 16) :
    Nat → Nat → Vector Octet 16 → Nat × Vector Octet 16
  | 0, i, newp => (i, newp)
  | count + 1, i, newp =>
    if octetAt np i = octetAt pp i then
      commonOctets np pp count (i + 1) (newp.setIfInBounds i (octetAt np i))
    else (i, newp)

/-- Second loop of `route_common`; the count is `p->prefixlen - new->prefixlen`. -/
def commonBits (diff : Octet) : Nat → Octet → Nat → Nat
  | 0, _, prefixlen => prefixlen
  | count + 1, mask, prefixlen =>
    if mask &&& diff = 0 then commonBits diff count (mask >>> 1) (prefixlen + 1) else prefixlen

/-- `route_common`: length and octets of the common part of `n` and `p`. -/
def routeCommon (n p : Prefix) : Nat × Vector Octet 16 :=
  let (i, newp) := commonOctets n.octets p.octets (p.prefixlen / 8) 0 (Vector.replicate 16 0)
  let prefixlen := i * 8
  if prefixlen ≠ p.prefixlen then
    let diff := octetAt n.octets i ^^^ octetAt p.octets i
    let prefixlen := commonBits diff (p.prefixlen - prefixlen) 0x80#8 prefixlen
    (prefixlen, newp.setIfInBounds i (octetAt n.octets i &&& maskbit (prefixlen % 8)))
  else (prefixlen, newp)

theorem commonOctets_spec (np pp : Vector Octet 16) (count i : Nat) (newp : Vector Octet 16)
    (room : i + count ≤ 16) :
    let result := commonOctets np pp count i newp
    i ≤ result.1 ∧ result.1 ≤ i + count ∧
      (∀ octet, i ≤ octet → octet < result.1 → octetAt np octet = octetAt pp octet) ∧
      (result.1 < i + count → octetAt np result.1 ≠ octetAt pp result.1) ∧
      ∀ octet, octetAt result.2 octet =
        if i ≤ octet ∧ octet < result.1 then octetAt np octet else octetAt newp octet := by
  induction count generalizing i newp with
  | zero =>
    refine ⟨le_rfl, le_rfl, ?_, ?_, ?_⟩
    · intro octet lower upper
      simp only [commonOctets] at upper
      omega
    · simp [commonOctets]
    · intro octet
      have outside : ¬ (i ≤ octet ∧ octet < i) := by omega
      simp [commonOctets, outside]
  | succ count ih =>
    by_cases same : octetAt np i = octetAt pp i
    · have step := ih (i + 1) (newp.setIfInBounds i (octetAt np i)) (by omega)
      simp only [commonOctets, if_pos same]
      obtain ⟨lower, upper, equal, stopped, written⟩ := step
      refine ⟨by omega, by omega, ?_, ?_, ?_⟩
      · intro octet low high
        rcases Nat.eq_or_lt_of_le low with first | later
        · exact first ▸ same
        · exact equal octet later high
      · intro short
        exact stopped (by omega)
      · intro octet
        rw [written octet, octetAt_setIfInBounds _ _ _ _ (by omega)]
        by_cases first : i = octet
        · subst octet
          have inside : i ≤ i ∧ i < (commonOctets np pp count (i + 1)
              (newp.setIfInBounds i (octetAt np i))).1 := by omega
          simp [inside]
        · by_cases later : i + 1 ≤ octet ∧ octet < (commonOctets np pp count (i + 1)
              (newp.setIfInBounds i (octetAt np i))).1
          · rw [if_pos later, if_pos (by omega)]
          · rw [if_neg later, if_neg first, if_neg (by omega)]
    · simp only [commonOctets, if_neg same]
      refine ⟨le_rfl, by omega, ?_, fun _ => same, ?_⟩
      · intro octet lower upper
        omega
      · intro octet
        have outside : ¬ (i ≤ octet ∧ octet < i) := by omega
        simp [outside]

theorem mask_and_eq_zero (diff : Octet) (index : Nat) :
    (0x80#8 >>> index) &&& diff = 0 ↔ diff.getMsbD index = false := by
  have mask : ∀ position < 8, (0x80#8 >>> index).getMsbD position = decide (position = index) := by
    intro position bound
    by_cases before : position < index
    · have different : position ≠ index := by omega
      simp [bound, before, different]
    · have top : ∀ distance < 8, (0x80#8).getMsbD distance = decide (distance = 0) := by decide
      have value := top (position - index) (by omega)
      by_cases same : position = index
      · subst index
        simp [bound]
      · have apart : position - index ≠ 0 := by omega
        simp only [apart, decide_false] at value
        simp [bound, before, same, value]
  rw [octet_eq_iff]
  constructor
  · intro clear
    by_cases bound : index < 8
    · have here := clear index bound
      simpa [mask index bound] using here
    · exact getMsbD_of_ge _ _ (by omega)
  · intro unset position bound
    by_cases same : position = index
    · subst index
      simp [unset]
    · simp [mask position bound, same]

theorem commonBits_spec (diff : Octet) (base count index : Nat) :
    let result := commonBits diff count (0x80#8 >>> index) (base + index)
    base + index ≤ result ∧ result ≤ base + index + count ∧
      (∀ position, index ≤ position → base + position < result → diff.getMsbD position = false) ∧
      (result < base + index + count → diff.getMsbD (result - base) = true) := by
  induction count generalizing index with
  | zero =>
    refine ⟨le_rfl, le_rfl, ?_, ?_⟩
    · intro position lower upper
      simp only [commonBits] at upper
      omega
    · simp [commonBits]
  | succ count ih =>
    by_cases clear : (0x80#8 >>> index) &&& diff = 0
    · have unset := (mask_and_eq_zero diff index).mp clear
      have step := ih (index + 1)
      rw [← Nat.add_assoc, shiftRight_add] at step
      simp only [commonBits, if_pos clear]
      obtain ⟨lower, upper, agree, stopped⟩ := step
      refine ⟨by omega, by omega, ?_, ?_⟩
      · intro position low high
        rcases Nat.eq_or_lt_of_le low with first | later
        · exact first ▸ unset
        · exact agree position later high
      · intro short
        exact stopped (by omega)
    · simp only [commonBits, if_neg clear]
      refine ⟨le_rfl, by omega, ?_, ?_⟩
      · intro position lower upper
        omega
      · intro _
        have set := mt (mask_and_eq_zero diff index).mpr clear
        simpa using set

/-- The common part is the longest one both prefixes share within `p`. -/
theorem routeCommon_spec (n p : Prefix) :
    (routeCommon n p).1 ≤ p.prefixlen ∧ Agree (routeCommon n p).1 n.octets p.octets ∧
      Agree (routeCommon n p).1 (routeCommon n p).2 p.octets ∧
      ((routeCommon n p).1 < p.prefixlen →
        n.bit (routeCommon n p).1 ≠ p.bit (routeCommon n p).1) := by
  have limit : p.prefixlen ≤ 128 := by
    have fits := p.fits
    have bytelen := p.family.bytelen_le
    omega
  have octetsSpec := commonOctets_spec n.octets p.octets (p.prefixlen / 8) 0
    (Vector.replicate 16 0) (by omega)
  obtain ⟨i, newp, copied⟩ : ∃ i newp, commonOctets n.octets p.octets (p.prefixlen / 8) 0
      (Vector.replicate 16 0) = (i, newp) := ⟨_, _, rfl⟩
  simp only [copied, Nat.zero_le, true_and, Nat.zero_add, forall_const] at octetsSpec
  obtain ⟨bound, equal, stopped, written⟩ := octetsSpec
  by_cases exact : i * 8 = p.prefixlen
  · have whole : ∀ octet < p.prefixlen / 8, octetAt n.octets octet = octetAt p.octets octet :=
      fun octet below => equal octet (by omega)
    simp only [routeCommon, copied, exact, ne_eq, not_true_eq_false, ↓reduceIte, le_refl,
      lt_irrefl, false_imp_iff, and_true, true_and]
    rw [agree_iff_octets, agree_iff_octets]
    refine ⟨⟨whole, by omega⟩, ⟨?_, by omega⟩⟩
    intro octet below
    have inside : octet < i := by omega
    rw [written octet, if_pos inside, whole octet below]
  · obtain ⟨length, found⟩ : ∃ length, commonBits (octetAt n.octets i ^^^ octetAt p.octets i)
        (p.prefixlen - i * 8) 0x80#8 (i * 8) = length := ⟨_, rfl⟩
    have bitsSpec := commonBits_spec (octetAt n.octets i ^^^ octetAt p.octets i) (i * 8)
      (p.prefixlen - i * 8) 0
    simp only [ushiftRight_zero, Nat.add_zero, found, Nat.zero_le, forall_const] at bitsSpec
    obtain ⟨lower, upper, agree, differs⟩ := bitsSpec
    have shorter : length < i * 8 + 8 := by
      by_contra long
      have all : ∀ position < 8,
          (octetAt n.octets i ^^^ octetAt p.octets i).getMsbD position = false :=
        fun position below => agree position (by omega)
      have same : octetAt n.octets i = octetAt p.octets i := by
        rw [octet_eq_iff]
        intro position below
        simpa [below] using all position below
      exact stopped (by omega) same
    have quotient : length / 8 = i := by omega
    have common : Agree length n.octets p.octets := by
      rw [agree_iff_octets, quotient]
      refine ⟨equal, ?_⟩
      intro position below
      have inside : position < 8 := by omega
      simpa [inside] using agree position (by omega)
    simp only [routeCommon, copied, ne_eq, exact, not_false_eq_true, ↓reduceIte, found]
    refine ⟨by omega, common, ?_, ?_⟩
    · refine Agree.trans ?_ common
      rw [agree_iff_octets, quotient]
      constructor
      · intro octet below
        have apart : i ≠ octet := by omega
        rw [octetAt_setIfInBounds _ _ _ _ (by omega), if_neg apart, written octet, if_pos below]
      · intro position below
        have kept := maskbit_getMsbD (length % 8) position (by omega) (by omega)
        rw [octetAt_setIfInBounds _ _ _ _ (by omega), if_pos rfl, getMsbD_and, kept]
        simp [below]
    · intro short
      have set := differs (by omega)
      unfold Prefix.bit bitAt
      rw [quotient]
      have remainder : length - i * 8 = length % 8 := by omega
      rw [remainder] at set
      have inside : length % 8 < 8 := by omega
      simpa [inside] using set

theorem routeCommon_le (n p : Prefix) : (routeCommon n p).1 ≤ p.prefixlen :=
  (routeCommon_spec n p).1

end Zebra
