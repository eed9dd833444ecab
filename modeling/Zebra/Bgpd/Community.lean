import Zebra.Bgpd.AttrParse
import Zebra.Bgpd.ClistMatch

/-! Community attributes of bgpd/bgp_community.c as sets. -/
namespace Zebra.Bgpd.Clist
open Base List

/-- `community_merge` -/
def communityMerge (com1 com2 : Community) : Community := com1 ++ com2

/-- `community_delete`; `none` is an access beyond the block of the first set. -/
def communityDelete : Community → Community → Option Community
  | com1, [] => some com1
  | com1, val :: com2 => (communityDelVal com1 val).bind fun com1 => communityDelete com1 com2

theorem uniq_fold (vals new : Community) (distinct : new.Nodup) :
    let all := vals.foldl (fun new val => if val ∈ new then new else new ++ [val]) new
    all.Nodup ∧ ∀ val, val ∈ all ↔ val ∈ new ∨ val ∈ vals := by
  induction vals generalizing new with
  | nil => simp [distinct]
  | cons first vals ih =>
    by_cases known : first ∈ new
    · have same : ∀ val, (val ∈ new ∨ val = first ∨ val ∈ vals) ↔ (val ∈ new ∨ val ∈ vals) := by
        intro val
        by_cases here : val = first <;> simp [here, known]
      simpa [known, same] using ih new distinct
    · have longer : (new ++ [first]).Nodup := by
        simpa [List.nodup_append, distinct] using fun one member =>
          ne_of_mem_of_not_mem member known
      simpa [known, or_assoc] using ih (new ++ [first]) longer

variable (vals : Community)

theorem uniqSort_sorted : (communityUniqSort vals).Pairwise (· < ·) := by
  have distinct : (communityUniqSort vals).Nodup :=
    (perm_insertionSort _ _).nodup_iff.mpr (uniq_fold vals [] nodup_nil).1
  refine ((pairwise_insertionSort _ _).and distinct).imp fun {one other} both => ?_
  exact BitVec.not_le.mp fun le => both.2 (BitVec.le_antisymm both.1 le)

theorem mem_uniqSort (val : Comval) : val ∈ communityUniqSort vals ↔ val ∈ vals := by
  rw [communityUniqSort, mem_insertionSort, (uniq_fold vals [] nodup_nil).2]
  simp

theorem communityDelVal_absent (com : Community) (val : Comval) (apart : val ∉ com) :
    communityDelVal com val = some com := by
  have none_ : com.findIdx? (fun one => decide (one = val)) = none :=
    findIdx?_eq_none_iff.mpr fun one member => decide_eq_false fun same => apart (same ▸ member)
  rw [communityDelVal, none_]

section
variable (com1 com2 : Community) (sorted1 : com1.Pairwise (· < ·)) (sorted2 : com2.Pairwise (· < ·))
include com1 com2 sorted1 sorted2

theorem communityDelete_eq : communityDelete com1 com2 =
      if ∀ val ∈ com2, val ∉ com1.dropLast then some (com1.filter fun val => val ∉ com2)
      else none := by
  induction com2 generalizing com1 with
  | nil => simp [communityDelete]
  | cons val com2 ih =>
    obtain ⟨first, rest2⟩ := pairwise_cons.mp sorted2
    by_cases member : val ∈ com1
    · obtain ⟨kept, rest, rfl⟩ := append_of_mem member
      obtain ⟨early1, -, less⟩ := pairwise_append.mp sorted1
      have before : ∀ one ∈ kept, one < val := fun one early => less one early val mem_cons_self
      rw [communityDelete, communityDelVal_found kept rest val fun early =>
        BitVec.lt_irrefl val (before val early)]
      cases rest with
      | cons next rest => simp
      | nil =>
        have others : ∀ one ∈ com2, one ∉ kept :=
          fun one late early => BitVec.lt_asymm (before one early) (first one late)
        have here : val ∉ kept := fun early => BitVec.lt_irrefl val (before val early)
        have drop : ∀ one ∈ com2, one ∉ kept.dropLast :=
          fun one late early => others one late (dropLast_subset kept early)
        have same : (kept.filter fun one => one ∉ com2) = kept.filter fun one =>
            one ∉ val :: com2 :=
          filter_congr fun one early => by
            simp [show one ≠ val from fun same => here (same ▸ early)]
        rw [if_pos rfl, Option.bind_some, ih kept early1 rest2, if_pos drop, same]
        simpa [here] using others
    · have early : val ∉ com1.dropLast := fun early => member (dropLast_subset com1 early)
      have same : (com1.filter fun one => one ∉ val :: com2) = com1.filter fun one => one ∉ com2 :=
        filter_congr fun one inside => by
          simp [show one ≠ val from fun same => member (same ▸ inside)]
      rw [communityDelete, communityDelVal_absent com1 val member, Option.bind_some,
        ih com1 sorted1 rest2, same]
      simp [early]

theorem matchFrom_iff : matchFrom com1 com2 = true ↔ ∀ val ∈ com2, val ∈ com1 := by
  fun_induction matchFrom com1 com2 with
  | case1 com1 => simp
  | case2 val com2 =>
    exact iff_of_false nofun fun within => absurd (within val mem_cons_self) not_mem_nil
  | case3 com1 val com2 ih =>
    obtain ⟨first, rest⟩ := pairwise_cons.mp sorted2
    simp only [ih sorted1.tail rest, mem_cons, forall_eq_or_imp, true_or, true_and]
    exact forall₂_congr fun one member =>
      (or_iff_right (BitVec.ne_of_lt (first one member)).symm).symm
  | case4 one com1 val com2 apart ih =>
    obtain ⟨first, rest⟩ := pairwise_cons.mp sorted2
    obtain ⟨least, rest1⟩ := pairwise_cons.mp sorted1
    rw [ih rest1 sorted2]
    refine ⟨fun within other member => .tail _ (within other member), fun within other member => ?_⟩
    have less : one < val :=
      least val ((mem_cons.mp (within val mem_cons_self)).resolve_left (Ne.symm apart))
    refine (mem_cons.mp (within other member)).resolve_left ?_
    rcases mem_cons.mp member with rfl | late
    · exact (BitVec.ne_of_lt less).symm
    · exact (BitVec.ne_of_lt (BitVec.lt_trans less (first other late))).symm

theorem communityMatch_iff : communityMatch (some com1) (some com2) = true ↔
    ∀ val ∈ com2, val ∈ com1 := by
  rw [communityMatch]
  split
  · rename_i short
    refine iff_of_false Bool.false_ne_true fun within => ?_
    have distinct : com2.Nodup := sorted2.imp BitVec.ne_of_lt
    exact absurd (subperm_of_subset distinct within).length_le (not_le.mpr short)
  · exact matchFrom_iff com1 com2 sorted1 sorted2

end

/-- The values `members` describes, each once and in order. -/
def IsSet (com : Community) (members : Comval → Prop) : Prop :=
  com.Pairwise (· < ·) ∧ ∀ val, val ∈ com ↔ members val

theorem isSet_uniqSort : IsSet (communityUniqSort vals) (· ∈ vals) :=
  ⟨uniqSort_sorted vals, mem_uniqSort vals⟩

/-- What the operations make of octets, of a list of values, and of two sets. -/
structure ActAsSets (octets : List Octet) (vals com1 com2 : Community) : Prop where
  parsed : octets.length % 4 = 0 → ∃ com, communityParse octets = some com ∧
    IsSet com.val (· ∈ words 4 (octets.length / 4) octets)
  sorted : IsSet (communityUniqSort vals) (· ∈ vals)
  merged : IsSet (communityUniqSort (communityMerge com1 com2)) fun val => val ∈ com1 ∨ val ∈ com2
  deleted : ∃ com, communityDelete com1 com2 = some com ∧
    IsSet com fun val => val ∈ com1 ∧ val ∉ com2
  matched : communityMatch (some com1) (some com2) = true ↔ ∀ val ∈ com2, val ∈ com1

/-- Communities behave as sets, but only the last value of a set can be deleted within its block. -/
theorem communities_exact (octets : List Octet) (vals com1 com2 : Community)
    (sorted1 : com1.Pairwise (· < ·))
    (sorted2 : com2.Pairwise (· < ·)) : ActAsSets octets vals com1 com2 ↔
    ∀ val ∈ com2, val ∉ com1.dropLast := by
  have result := communityDelete_eq com1 com2 sorted1 sorted2
  constructor
  · rintro ⟨-, -, -, ⟨com, deleted, -⟩, -⟩
    by_contra reached
    simp [if_neg reached, deleted] at result
  · intro last
    refine ⟨fun whole => ⟨_, if_neg (not_not.mpr whole), isSet_uniqSort _⟩, isSet_uniqSort vals, ?_,
      ⟨_, result.trans (if_pos last), sorted1.sublist filter_sublist, ?_⟩,
        communityMatch_iff com1 com2 sorted1 sorted2⟩
    · exact ⟨uniqSort_sorted _, fun val => (mem_uniqSort _ val).trans mem_append⟩
    · simp

/-- Three values out of order, one of them twice; and the last value of a set is deleted. -/
theorem communities_exact_last : ActAsSets [0, 1, 0, 2, 0, 1, 0, 1, 0, 1, 0, 2] [7, 3, 7]
    [1, 2, 5] [5] :=
  (communities_exact [0, 1, 0, 2, 0, 1, 0, 1, 0, 1, 0, 2] [7, 3, 7] [1, 2, 5] [5] (by decide)
    (by decide)).mpr
    (by simp)

/-- The first of two values is deleted: four octets behind the block are copied. -/
theorem communities_beyond : ¬ ActAsSets [] [] [1, 2] [1] := by
  rintro ⟨-, -, -, ⟨com, deleted, -⟩, -⟩
  have beyond : communityDelete [1, 2] [1] = none := by decide +kernel
  cases beyond.symm.trans deleted

end Zebra.Bgpd.Clist
