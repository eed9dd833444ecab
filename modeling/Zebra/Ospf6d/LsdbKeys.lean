import Zebra.Lib.TableRuns
import Zebra.Ospf6d.Lsdb

namespace Zebra.Ospf6d
open Function Base List BitVec Ospf6LsaKey Scope

/-- The bits of a number, the most significant one first. -/
def msbs {width : Nat} (value : BitVec width) : List Bool :=
  (List.range width).map value.getMsbD

theorem msbs_cons {width} (first : Bool) (rest : BitVec width) :
    msbs (rest.cons first) = first :: msbs rest := by
  rw [msbs, range_succ_eq_map, map_cons, map_map]
  refine congrArg₂ List.cons getMsbD_cons_zero ?_
  exact map_congr_left fun index _ => getMsbD_cons_succ

theorem msbs_lt_iff {width} (first second : BitVec width) :
    msbs first < msbs second ↔ first.toNat < second.toNat := by
  induction width with
  | zero =>
    rw [eq_nil first, eq_nil second]
    simp
  | succ width ih =>
    rw [← cons_msb_setWidth first, ← cons_msb_setWidth second, msbs_cons, msbs_cons,
      cons_lt_cons_iff, ih, toNat_cons', toNat_cons', Nat.shiftLeft_eq, Nat.shiftLeft_eq]
    have low := (first.setWidth width).isLt
    have high := (second.setWidth width).isLt
    cases first.msb
    · cases second.msb
      · simp
      · simp only [Bool.false_lt_true, true_or, Bool.toNat_false, Bool.toNat_true, true_iff]
        omega
    · cases second.msb
      · simp only [Bool.toNat_false, Bool.toNat_true, Bool.true_eq_false, false_and, or_false]
        exact iff_of_false (by decide) (by omega)
      · simp

section Prefixes
variable {value : BitVec 80} {prefixlen : Nat} {short : prefixlen ≤ 80}

theorem keyPrefix_octet {index} (bound : index < 10) :
    octetAt (keyPrefix value prefixlen short).octets index =
      value.extractLsb' (72 - 8 * index) 8 := by
  have inside : index < 16 := by omega
  rw [octetAt, keyPrefix, Vector.getElem?_ofFn, dif_pos inside, Option.getD_some, if_pos bound]

theorem keyPrefix_bit {index} (bound : index < 80) :
    (keyPrefix value prefixlen short).bit index = value.getMsbD index := by
  have inside : index % 8 < 8 := Nat.mod_lt _ (by decide)
  have within : 72 - 8 * (index / 8) + 8 - index % 8 ≤ 80 := by omega
  have place : 80 - (72 - 8 * (index / 8) + 8 - index % 8) = index := by omega
  rw [Prefix.bit, bitAt, keyPrefix_octet (by omega), getMsbD_extractLsb', decide_eq_true inside,
    decide_eq_true within, place, Bool.true_and, Bool.true_and]

theorem keyPrefix_bits : (keyPrefix value prefixlen short).bits = (msbs value).take prefixlen := by
  rw [Prefix.bits, msbs, ← map_take, take_range, Nat.min_eq_left short]
  refine map_congr_left fun index member => keyPrefix_bit ?_
  exact lt_of_lt_of_le (mem_range.mp member) short

end Prefixes

/-- The word of a key. -/
def Ospf6LsaKey.word (key : Ospf6LsaKey) : List Bool :=
  key.lsdbKey.bits

theorem word_eq (key : Ospf6LsaKey) : key.word = msbs key.value := by
  rw [word, lsdbKey, keyPrefix_bits, take_of_length_le]
  rw [msbs, length_map, length_range]

theorem word_lt_iff (first second : Ospf6LsaKey) :
    first.word < second.word ↔ first.value.toNat < second.value.toNat := by
  rw [word_eq, word_eq, msbs_lt_iff]

theorem msbs_append {high low} (first : BitVec high) (second : BitVec low) :
    msbs (first ++ second) = msbs first ++ msbs second := by
  rw [msbs, range_add, map_append, map_map]
  refine congrArg₂ List.append (map_congr_left fun index member => ?_)
    (map_congr_left fun index _ => ?_)
  · rw [getMsbD_append, if_neg (not_le.mpr (mem_range.mp member))]
  · rw [comp_apply, getMsbD_append, if_pos (Nat.le_add_right _ _), Nat.add_sub_cancel_left]

@[simp] theorem length_msbs {width} (value : BitVec width) : (msbs value).length = width := by
  rw [msbs, length_map, length_range]

theorem msbs_injective {width} {first second : BitVec width} (same : msbs first = msbs second) :
    first = second := by
  have forward := mt (msbs_lt_iff first second).mpr (by rw [same]; exact lt_irrefl _)
  have backward := mt (msbs_lt_iff second first).mpr (by rw [same]; exact lt_irrefl _)
  exact eq_of_toNat_eq (by omega)

theorem word_parts (key : Ospf6LsaKey) :
    key.word = msbs key.type ++ msbs key.advRouter ++ msbs key.id := by
  rw [word_eq, value, msbs_append, msbs_append]

theorem word_injective {first second : Ospf6LsaKey} (same : first.word = second.word) :
    first = second := by
  rw [word_parts, word_parts] at same
  obtain ⟨front, ids⟩ := append_inj' same (by rw [length_msbs, length_msbs])
  obtain ⟨types, routers⟩ := append_inj' front (by rw [length_msbs, length_msbs])
  rw [mk.injEq]
  exact ⟨msbs_injective types, msbs_injective routers, msbs_injective ids⟩

theorem Scope.has_iff (scope : Scope) (key : Ospf6LsaKey) :
    scope.Has key ↔ scope.key.bits <+: key.word := by
  cases scope with
  | all =>
    exact iff_of_true trivial nil_prefix
  | type wanted =>
    have front : (type wanted).key.bits = msbs wanted := by
      rw [Scope.key, keyPrefix_bits, value, msbs_append, msbs_append, List.append_assoc]
      exact take_left' (length_msbs wanted)
    rw [front, word_parts, List.append_assoc]
    constructor
    · rintro rfl
      exact prefix_append _ _
    · intro begins
      have whole := prefix_of_prefix_length_le begins (prefix_append (msbs key.type) _) (by
        rw [length_msbs, length_msbs])
      exact (msbs_injective (whole.eq_of_length (by rw [length_msbs, length_msbs]))).symm
  | typeRouter wanted advRouter =>
    have front : (typeRouter wanted advRouter).key.bits = msbs wanted ++ msbs advRouter := by
      rw [Scope.key, keyPrefix_bits, value, msbs_append, msbs_append]
      exact take_left' (by rw [length_append, length_msbs, length_msbs])
    have lengths : (msbs wanted ++ msbs advRouter).length =
        (msbs key.type ++ msbs key.advRouter).length := by
      rw [length_append, length_append, length_msbs, length_msbs, length_msbs, length_msbs]
    rw [front, word_parts]
    constructor
    · rintro ⟨rfl, rfl⟩
      exact prefix_append _ _
    · intro begins
      have whole := prefix_of_prefix_length_le begins (prefix_append _ _) (le_of_eq lengths)
      obtain ⟨types, routers⟩ :=
        append_inj' (whole.eq_of_length lengths) (by rw [length_msbs, length_msbs])
      exact ⟨(msbs_injective types).symm, (msbs_injective routers).symm⟩

theorem Scope.key_short (scope : Scope) : scope.key.prefixlen < 80 := by
  cases scope with
  | all => exact (by decide : 0 < 80)
  | type => exact (by decide : 16 < 80)
  | typeRouter => exact (by decide : 48 < 80)

theorem Scope.key_ends (scope : Scope) : scope.key.bit scope.key.prefixlen = false := by
  cases scope with
  | all => decide
  | type wanted =>
    have bit : (type wanted).key.bit 16 = (value ⟨wanted, 0, 0⟩).getMsbD 16 := by
      rw [key]
      exact keyPrefix_bit (by decide)
    rw [value, getMsbD_append, getMsbD_append] at bit
    exact bit.trans (by simp)
  | typeRouter wanted advRouter =>
    have bit : (typeRouter wanted advRouter).key.bit 48 =
        (value ⟨wanted, advRouter, 0⟩).getMsbD 48 := by
      rw [key]
      exact keyPrefix_bit (by decide)
    rw [value, getMsbD_append, getMsbD_append] at bit
    exact bit.trans (by simp)

end Zebra.Ospf6d
