import Zebra.Base.Fletcher
import Zebra.Base.Reader
import Zebra.Ospfd.Install

/-! `ospf_lsa_checksum` of ospfd/ospf_lsa.c on the octets of an LSA, with the arithmetic of `int`.
The result `none` is a signed overflow. -/
namespace Zebra.Ospfd
open Base List BitVec Nat Int

/-- What an `int` can hold. -/
def int (value : Int) : Option Int :=
  if -2147483648 ≤ value ∧ value ≤ 2147483647 then some value else none

def modx : Nat := 4102
def lsaChecksumOffset : Int := 15

def fletcherStep (sums : Int × Int) (p : Octet) : Option (Int × Int) := do
  let c0 ← int (sums.1 + p.toNat)
  let c1 ← int (sums.2 + c0)
  return (c0, c1)

/-- `for (ep = sp + length; sp < ep; sp = q)` -/
def fletcherLoop (sp : List Octet) (sums : Int × Int) : Option (Int × Int) :=
  if sp = [] then some sums
  else (sp.take modx).foldlM fletcherStep sums |>.bind fun sums =>
    fletcherLoop (sp.drop modx) (sums.1.tmod 255, sums.2.tmod 255)
termination_by sp.length
decreasing_by
  have some_ := List.length_pos_iff.mpr ‹sp ≠ []›
  rw [List.length_drop, modx]
  omega

/-- The two octets that are stored. -/
def checkOctets (length c0 c1 : Int) : Option (Int × Int) := do
  let product ← int ((length - lsaChecksumOffset) * c0)
  let difference ← int (product - c1)
  let x := difference.tmod 255
  let x := if x ≤ 0 then x + 255 else x
  let y := 510 - c0 - x
  return (x, if 255 < y then y - 255 else y)

/-- An LSA with the octets of its age, from its header on. -/
abbrev LsaOctets := List Octet

namespace LsaOctets
variable (lsa : LsaOctets)

/-- `ntohs (lsa->length)` -/
def headerLength : BitVec 16 := field lsa 18 2

def checksum : BitVec 16 := field lsa 16 2

/-- `lsa->checksum = value` -/
def setChecksum (x y : Octet) : LsaOctets :=
  (lsa.set 16 x).set 17 y

/-- What the checksum is about: the LSA without its age. -/
def covered : List Octet :=
  (lsa.drop 2).take (lsa.headerLength - 2).toNat

/-- The checksum in host order, and the LSA with it. -/
def ospfLsaChecksum : Option (BitVec 16 × LsaOctets) := do
  let lsa := lsa.setChecksum 0 0
  let (c0, c1) ← fletcherLoop lsa.covered (0, 0)
  let (x, y) ← checkOctets (lsa.headerLength - 2).toNat c0 c1
  let value := BitVec.ofInt 16 (256 * x + y)
  return (value, lsa.setChecksum (value.extractLsb' 8 8) (value.extractLsb' 0 8))

end LsaOctets

theorem int_nat {value : Nat} (small : value ≤ 2147483647) : int value = some (value : Int) :=
  if_pos (by omega)

theorem foldlM_fletcherStep (octets : List Octet) (c0 c1 : Nat)
    (fits : c1 + octets.length * c0 + secondSum octets ≤ 2147483647) :
    octets.foldlM fletcherStep ((c0 : Int), (c1 : Int)) =
      some (((c0 + firstSum octets : Nat) : Int),
        ((c1 + octets.length * c0 + secondSum octets : Nat) : Int)) := by
  induction octets generalizing c0 c1 with
  | nil => simp
  | cons p rest ih =>
    simp only [length_cons, secondSum_cons] at fits
    have sums : c1 + (c0 + p.toNat) + rest.length * (c0 + p.toNat) + secondSum rest =
        c1 + (rest.length + 1) * c0 + ((rest.length + 1) * p.toNat + secondSum rest) := by ring
    have first : int ((c0 : Int) + p.toNat) = some ((c0 + p.toNat : Nat) : Int) := by
      refine (congrArg int (by push_cast; rfl)).trans (int_nat ?_)
      exact le_trans (by omega) fits
    have second : int ((c1 : Int) + ((c0 + p.toNat : Nat) : Int)) =
        some ((c1 + (c0 + p.toNat) : Nat) : Int) := by
      refine (congrArg int (by push_cast; rfl)).trans (int_nat ?_)
      exact le_trans (by omega) (sums ▸ fits)
    have step : fletcherStep ((c0 : Int), (c1 : Int)) p =
        some (((c0 + p.toNat : Nat) : Int), ((c1 + (c0 + p.toNat) : Nat) : Int)) := by
      rw [fletcherStep, first]
      exact bind_ran rfl (bind_ran second rfl)
    rw [foldlM_cons, step]
    refine (ih _ _ (sums ▸ fits)).trans ?_
    rw [sums, firstSum_cons, secondSum_cons, length_cons]
    simp only [add_assoc]

/-- Reducing the sums every 4102 octets is often enough. -/
theorem block_fits {octets : List Octet} {c0 c1 : Nat} (short : octets.length ≤ modx)
    (first : c0 < 255) (second : c1 < 255) :
    c1 + octets.length * c0 + secondSum octets ≤ 2147483647 := by
  have bound := secondSum_le octets
  have most : octets.length * (octets.length + 1) ≤ 4102 * 4103 :=
    Nat.mul_le_mul short (Nat.succ_le_succ short)
  have product : octets.length * c0 ≤ 4102 * 254 := Nat.mul_le_mul short (Nat.le_of_lt_succ first)
  omega

/-- The loop never overflows and ends with both sums modulo 255. -/
theorem fletcherLoop_eq (octets : List Octet) {c0 c1 : Nat} (first : c0 < 255) (second : c1 < 255) :
    fletcherLoop octets ((c0 : Int), (c1 : Int)) =
      some ((((c0 + firstSum octets) % 255 : Nat) : Int),
        (((c1 + octets.length * c0 + secondSum octets) % 255 : Nat) : Int)) := by
  induction size : octets.length using Nat.strongRecOn generalizing octets c0 c1 with
  | ind n ih =>
    rw [fletcherLoop]
    by_cases empty : octets = []
    · subst empty
      rw [if_pos rfl]
      rw [← size, firstSum_nil, secondSum_nil, length_nil, Nat.zero_mul, Nat.add_zero, Nat.add_zero,
        Nat.mod_eq_of_lt first, Nat.mod_eq_of_lt second]
    · have some_ := length_pos_iff.mpr empty
      have block :=
        foldlM_fletcherStep (octets.take modx) c0 c1 (block_fits (length_take_le ..) first second)
      rw [if_neg empty, block]
      have later := ih (octets.drop modx).length (by rw [length_drop, modx]; omega)
        (octets.drop modx)
        (Nat.mod_lt (c0 + firstSum (octets.take modx)) (by decide : 0 < 255))
        (Nat.mod_lt (c1 + (octets.take modx).length * c0 + secondSum (octets.take modx))
          (by decide : 0 < 255)) rfl
      refine later.trans ?_
      have split := take_append_drop modx octets
      have firsts :
          firstSum octets = firstSum (octets.take modx) + firstSum (octets.drop modx) := by
        rw [← firstSum_append, split]
      have seconds : secondSum octets =
          secondSum (octets.take modx) + (octets.drop modx).length * firstSum (octets.take modx) +
          secondSum (octets.drop modx) := by rw [← secondSum_append, split]
      have lengths : octets.length = (octets.take modx).length + (octets.drop modx).length := by
        rw [← length_append, split]
      rw [← size, firsts, seconds, lengths]
      refine congrArg some (Prod.ext (congrArg Nat.cast ?_) (congrArg Nat.cast ?_))
      · exact ((Nat.mod_modEq _ 255).add_right _).trans (congrArg (fun sum => sum % 255) (by ring))
      · refine Nat.ModEq.trans
          (((Nat.mod_modEq _ 255).add ((Nat.mod_modEq _ 255).mul_left _)).add_right _) ?_
        exact congrArg (fun sum => sum % 255) (by ring)

section
variable {length c0 c1 : Nat} (least : 15 ≤ length) (most : length ≤ 65533) (first : c0 < 255)
  (second : c1 < 255)
include least most first second

theorem checkOctets_some : checkOctets length c0 c1 = some (
      let x := (((length : Int) - 15) * c0 - c1).tmod 255
      let x := if x ≤ 0 then x + 255 else x
      let y := 510 - (c0 : Int) - x
      (x, if 255 < y then y - 255 else y)) := by
  have product : (length - 15) * c0 ≤ 65518 * 254 := Nat.mul_le_mul (by omega) (by omega)
  obtain ⟨d, isD⟩ := @exists_eq Nat ((length - 15) * c0)
  have cast : ((length : Int) - 15) * c0 = (d : Int) := by
    rw [isD]
    push_cast [Nat.cast_sub least]
    ring
  have inner : int (((length : Int) - lsaChecksumOffset) * c0) = some (d : Int) := by
    rw [lsaChecksumOffset, cast]
    exact int_nat (by omega)
  have outer : int ((d : Int) - c1) = some ((d : Int) - c1) := if_pos (by omega)
  rw [checkOctets, inner, cast]
  exact bind_ran rfl (bind_ran outer rfl)

/-- The two octets are between 1 and 255, and are what balances the sums. -/
theorem checkOctets_eq :
    ∃ x y : Nat, checkOctets length c0 c1 = some ((x : Int), (y : Int)) ∧ (1 ≤ x ∧ x ≤ 255) ∧
    (1 ≤ y ∧ y ≤ 255) ∧
      (x : Int) ≡ (length - 15) * c0 - c1 [ZMOD 255] ∧ (y : Int) ≡ -c0 - x [ZMOD 255] := by
  rw [checkOctets_some least most first second]
  obtain ⟨d, isD⟩ := @exists_eq _ (((length : Int) - 15) * c0 - c1)
  rw [← isD]
  have split := Int.tmod_add_mul_tdiv d 255
  have low := Int.lt_tmod_of_pos d (by decide : (0 : Int) < 255)
  have high := Int.tmod_lt_of_pos d (by decide : (0 : Int) < 255)
  generalize d.tdiv 255 = q at split
  generalize d.tmod 255 = t at split low high ⊢
  dsimp only
  obtain ⟨x, isX, less, more⟩ : ∃ x :
      Nat, (x : Int) = (if t ≤ 0 then t + 255 else t) ∧ 1 ≤ x ∧ x ≤ 255 := by
    by_cases negative : t ≤ 0
    · exact ⟨(t + 255).toNat, by rw [if_pos negative]; omega, by omega, by omega⟩
    · exact ⟨t.toNat, by rw [if_neg negative]; omega, by omega, by omega⟩
  rw [← isX]
  obtain ⟨z, isZ⟩ := @exists_eq _ (510 - (c0 : Int) - x)
  rw [← isZ]
  obtain ⟨y, isY, below, above⟩ : ∃ y :
      Nat, (y : Int) = (if 255 < z then z - 255 else z) ∧ 1 ≤ y ∧ y ≤ 255 := by
    by_cases large : 255 < z
    · exact ⟨(z - 255).toNat, by rw [if_pos large]; omega, by omega, by omega⟩
    · exact ⟨z.toNat, by rw [if_neg large]; omega, by omega, by omega⟩
  refine ⟨x, y, by rw [isY], ⟨less, more⟩, ⟨below, above⟩, ?_, ?_⟩
  · rw [Int.modEq_comm, Int.modEq_iff_dvd, isX]
    split_ifs
    · exact ⟨1 - q, by omega⟩
    · exact ⟨-q, by omega⟩
  · rw [Int.modEq_comm, Int.modEq_iff_dvd, isY]
    split_ifs
    · exact ⟨1, by omega⟩
    · exact ⟨2, by omega⟩

end

namespace LsaOctets
variable {lsa : LsaOctets} {x y : Octet}

theorem setChecksum_getD {i : Nat} (first : i ≠ 16) (second : i ≠ 17) :
    (lsa.setChecksum x y).getD i 0 = lsa.getD i 0 := by
  rw [setChecksum, getD_eq_getElem?_getD, getElem?_set_ne second.symm, getElem?_set_ne first.symm,
    getD_eq_getElem?_getD]

theorem length_setChecksum : length (lsa.setChecksum x y) = length lsa := by
  simp [setChecksum]

theorem headerLength_setChecksum : (lsa.setChecksum x y).headerLength = lsa.headerLength := by
  have same : slice (lsa.setChecksum x y) 18 2 = slice lsa 18 2 := by
    simp only [slice, range_succ, range_zero, nil_append, map_append, map_cons, map_nil]
    rw [setChecksum_getD (by decide) (by decide), setChecksum_getD (by decide) (by decide)]
  rw [headerLength, field, same]
  rfl

theorem setChecksum_again (a b : Octet) :
    (lsa.setChecksum a b).setChecksum x y = lsa.setChecksum x y := by
  rw [setChecksum, setChecksum, setChecksum, set_comm _ _ (by decide : 17 ≠ 16), set_set, set_set]

theorem setChecksum_eq (long : 18 ≤ length lsa) :
    lsa.setChecksum x y = lsa.take 16 ++ x :: y :: lsa.drop 18 := by
  have first : lsa.set 16 x = lsa.take 16 ++ x :: lsa.drop 17 :=
    set_eq_take_append_cons_drop.trans (if_pos (by omega))
  have front : (lsa.take 16).length = 16 := length_take_of_le (by omega)
  obtain ⟨z, rest⟩ : ∃ z, lsa.drop 17 = z :: lsa.drop 18 := ⟨_, drop_eq_getElem_cons (by omega)⟩
  rw [setChecksum, first, rest, set_append_right _ _ (by omega), front]
  rfl

theorem checksum_setChecksum (long : 18 ≤ length lsa) :
    (lsa.setChecksum x y).checksum = x ++ y := by
  have front : (lsa.take 16).length = 16 := length_take_of_le (by omega)
  have same : slice (lsa.setChecksum x y) 16 2 = [x, y] := by
    rw [setChecksum_eq long]
    simp only [slice, range_succ, range_zero, nil_append, map_append, map_cons, map_nil,
      getD_eq_getElem?_getD]
    rw [getElem?_append_right (by omega), getElem?_append_right (by omega), front]
    rfl
  rw [checksum, field, same]
  apply eq_of_toNat_eq
  have second := y.isLt
  rw [toNat_append, ← Nat.shiftLeft_add_eq_or_of_lt second]
  show (256 * (256 * 0 + x.toNat) + y.toNat) % 65536 = _
  omega

section
variable (least : 20 ≤ lsa.headerLength.toNat) (inside : lsa.headerLength.toNat ≤ List.length lsa)
include least inside

theorem covered_setChecksum :
    (lsa.setChecksum x y).covered = (lsa.take 16).drop 2 ++ x :: y :: (lsa.drop 18).take
      (lsa.headerLength.toNat - 18) := by
  have two : (2 : BitVec 16).toNat = 2 := rfl
  have count : (lsa.headerLength - 2).toNat = lsa.headerLength.toNat - 2 :=
    toNat_sub_of_le (le_def.mpr (by omega))
  have front : (lsa.take 16).length = 16 := length_take_of_le (by omega)
  have middle : ((lsa.take 16).drop 2).length = 14 := by rw [length_drop, front]
  obtain ⟨more, isMore⟩ := Nat.exists_eq_add_of_le (by omega : 18 ≤ lsa.headerLength.toNat)
  rw [covered, headerLength_setChecksum, count, setChecksum_eq (by omega),
    drop_append_of_le_length (by omega), isMore, show 18 + more - 2 =
    ((lsa.take 16).drop 2).length + (more + 2) by omega, take_length_add_append,
    show 18 + more - 18 = more by omega]
  rfl

theorem ospfLsaChecksum_eq : ∃ x y :
    Octet, (x ≠ 0 ∧ y ≠ 0) ∧ Balanced 255 (lsa.setChecksum x y).covered ∧
      lsa.ospfLsaChecksum = some (x ++ y, lsa.setChecksum x y) := by
  have two : (2 : BitVec 16).toNat = 2 := rfl
  have count : (lsa.headerLength - 2).toNat = lsa.headerLength.toNat - 2 :=
    BitVec.toNat_sub_of_le (BitVec.le_def.mpr (by omega))
  obtain ⟨front, isFront⟩ := @exists_eq _ ((lsa.take 16).drop 2)
  obtain ⟨back, isBack⟩ := @exists_eq _ ((lsa.drop 18).take (lsa.headerLength.toNat - 18))
  have behind : back.length = lsa.headerLength.toNat - 18 := by
    rw [isBack]
    exact List.length_take_of_le (by rw [List.length_drop]; omega)
  obtain ⟨c0, isC0⟩ := @exists_eq _ ((0 + firstSum (front ++ 0 :: 0 :: back)) % 255)
  obtain ⟨c1, isC1⟩ := @exists_eq _
    ((0 + (front ++ 0 :: 0 :: back).length * 0 + secondSum (front ++ 0 :: 0 :: back)) % 255)
  have loop := fletcherLoop_eq (front ++ 0 :: 0 :: back) (by decide : 0 < 255) (by decide : 0 < 255)
  rw [← isC0, ← isC1] at loop
  obtain ⟨x, y, ran, ⟨xLeast, xMost⟩, ⟨yLeast, yMost⟩, isX, isY⟩ :=
    checkOctets_eq (by omega : 15 ≤ lsa.headerLength.toNat - 2)
    (by omega) (by omega : c0 < 255) (by omega : c1 < 255)
  have sizeX : (BitVec.ofNat 8 x).toNat = x := Nat.mod_eq_of_lt (by omega)
  have sizeY : (BitVec.ofNat 8 y).toNat = y := Nat.mod_eq_of_lt (by omega)
  refine ⟨BitVec.ofNat 8 x, BitVec.ofNat 8 y, ⟨fun zero => ?_, fun zero => ?_⟩, ?_, ?_⟩
  · rw [zero] at sizeX
    exact absurd (show 0 = x from sizeX) (by omega)
  · rw [zero] at sizeY
    exact absurd (show 0 = y from sizeY) (by omega)
  · have first : (c0 : Int) ≡ firstSum (front ++ 0 :: 0 :: back) [ZMOD (255 : Nat)] := by
      rw [isC0, Nat.zero_add]
      exact (Int.natCast_modEq_iff.mpr (Nat.mod_modEq ..))
    have second : (c1 : Int) ≡ secondSum (front ++ 0 :: 0 :: back) [ZMOD (255 : Nat)] := by
      rw [isC1, Nat.mul_zero, Nat.zero_add]
      exact (Int.natCast_modEq_iff.mpr (Nat.mod_modEq ..))
    have weight : ((lsa.headerLength.toNat - 2 : Nat) : Int) - 15 = back.length + 1 := by omega
    rw [weight] at isX
    rw [covered_setChecksum least inside, ← isFront, ← isBack, balanced_iff, sizeX, sizeY]
    exact ⟨isX.trans ((first.mul_left _).sub second), isY.trans (first.neg.sub_right _)⟩
  · have value : BitVec.ofInt 16 (256 * (x : Int) + y) = BitVec.ofNat 8 x ++ BitVec.ofNat 8 y := by
      apply BitVec.eq_of_toNat_eq
      rw [BitVec.toNat_append, ← Nat.shiftLeft_add_eq_or_of_lt (BitVec.isLt _), BitVec.toNat_ofInt]
      omega
    have high : (BitVec.ofNat 8 x ++ BitVec.ofNat 8 y).extractLsb' 8 8 = BitVec.ofNat 8 x := by
      apply BitVec.eq_of_toNat_eq
      rw [BitVec.extractLsb'_toNat,
        BitVec.toNat_append, ← Nat.shiftLeft_add_eq_or_of_lt (BitVec.isLt _), Nat.shiftLeft_eq,
        Nat.shiftRight_eq_div_pow, sizeX, sizeY]
      omega
    have low : (BitVec.ofNat 8 x ++ BitVec.ofNat 8 y).extractLsb' 0 8 = BitVec.ofNat 8 y := by
      apply BitVec.eq_of_toNat_eq
      rw [BitVec.extractLsb'_toNat,
        BitVec.toNat_append, ← Nat.shiftLeft_add_eq_or_of_lt (BitVec.isLt _), Nat.shiftLeft_eq,
        Nat.shiftRight_eq_div_pow, sizeX, sizeY]
      omega
    rw [ospfLsaChecksum, covered_setChecksum least inside, ← isFront, ← isBack]
    refine bind_ran loop ?_
    rw [headerLength_setChecksum, count]
    refine bind_ran ran ?_
    dsimp only
    rw [value, high, low, setChecksum_again]
    rfl

/-- An LSA whose sums vanish, with check octets that are not zero, has the checksum that it
  should. -/
theorem ospfLsaChecksum_of_balanced (x_ne : x ≠ 0) (y_ne : y ≠ 0)
    (balanced : Balanced 255 (lsa.setChecksum x y).covered) :
    lsa.ospfLsaChecksum = some (x ++ y, lsa.setChecksum x y) := by
  obtain ⟨x', y', ⟨x_ne', y_ne'⟩, balanced', ran⟩ := ospfLsaChecksum_eq least inside
  rw [covered_setChecksum least inside, balanced_iff] at balanced balanced'
  have unique : ∀ {a b : Octet}, a ≠ 0 → b ≠ 0 →
      (a.toNat : Int) ≡ b.toNat [ZMOD (255 : Nat)] → a = b := by
    intro a b a_ne b_ne same
    have aPos : a.toNat ≠ 0 := fun zero => a_ne (eq_of_toNat_eq zero)
    have bPos : b.toNat ≠ 0 := fun zero => b_ne (eq_of_toNat_eq zero)
    obtain ⟨k, isK⟩ := modEq_iff_dvd.mp same
    refine eq_of_toNat_eq ?_
    omega
  obtain rfl : x = x' := unique x_ne x_ne' (balanced.1.trans balanced'.1.symm)
  obtain rfl : y = y' := unique y_ne y_ne' (balanced.2.trans balanced'.2.symm)
  exact ran

end

/-- The checksum of an LSA of any length and content: nothing overflows, two octets that are not
zero are stored, both sums over the LSA without its age vanish, and computing it again changes
nothing. -/
theorem ospf_lsa_checksum_balances (lsa : LsaOctets) (least : 20 ≤ lsa.headerLength.toNat)
    (inside : lsa.headerLength.toNat ≤ length lsa) :
    ∃ x y : Octet, (1 ≤ x.toNat ∧ x.toNat ≤ 255) ∧ (1 ≤ y.toNat ∧ y.toNat ≤ 255) ∧
      lsa.ospfLsaChecksum = some (x ++ y, lsa.setChecksum x y) ∧
      (lsa.setChecksum x y).checksum = x ++ y ∧
      Balanced 255 (lsa.setChecksum x y).covered ∧
      (lsa.setChecksum x y).ospfLsaChecksum =
        some ((lsa.setChecksum x y).checksum, lsa.setChecksum x y) := by
  obtain ⟨x, y, ⟨x_ne, y_ne⟩, balanced, ran⟩ := ospfLsaChecksum_eq least inside
  have some_ : ∀ {a : Octet}, a ≠ 0 → 1 ≤ a.toNat ∧ a.toNat ≤ 255 := fun {a} a_ne =>
    ⟨one_le_iff_ne_zero.mpr fun zero => a_ne (eq_of_toNat_eq zero), le_of_lt_succ a.isLt⟩
  have stored : (lsa.setChecksum x y).checksum = x ++ y := checksum_setChecksum (by omega)
  have again : (lsa.setChecksum x y).setChecksum x y = lsa.setChecksum x y := setChecksum_again x y
  refine ⟨x, y, some_ x_ne, some_ y_ne, ran, stored, balanced, ?_⟩
  rw [stored, ospfLsaChecksum_of_balanced (by rwa [headerLength_setChecksum])
    (by rwa [headerLength_setChecksum, length_setChecksum])
    x_ne y_ne (by rwa [again]), again]

/-- A router-LSA without links. -/
def emptyRouter : LsaOctets :=
  [0, 1, 2, 1, 10, 0, 0, 1, 10, 0, 0, 1, 0x80, 0, 0, 1, 0, 0, 0, 24, 0, 0, 0, 0]

theorem ospf_lsa_checksum_router : emptyRouter.headerLength = 24 ∧
    ∃ x y : Octet, (1 ≤ x.toNat ∧ x.toNat ≤ 255) ∧ (1 ≤ y.toNat ∧ y.toNat ≤ 255) ∧
      emptyRouter.ospfLsaChecksum = some (x ++ y, emptyRouter.setChecksum x y) ∧
      (emptyRouter.setChecksum x y).checksum = x ++ y ∧
      Balanced 255 (emptyRouter.setChecksum x y).covered ∧
      (emptyRouter.setChecksum x y).ospfLsaChecksum =
        some ((emptyRouter.setChecksum x y).checksum, emptyRouter.setChecksum x y) :=
  ⟨by decide +kernel, ospf_lsa_checksum_balances emptyRouter
    (by decide +kernel) (by decide +kernel)⟩

end LsaOctets

end Zebra.Ospfd
