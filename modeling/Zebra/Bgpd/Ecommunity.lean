import Zebra.Bgpd.AttrParse

namespace Zebra.Bgpd
open List Base Ecommunity EcommunityCost

theorem mem_addVal {vals eval val} : val ∈ ecommunityAddVal vals eval ↔
    val = eval ∨ val ∈ vals := by
  fun_induction ecommunityAddVal vals eval with grind

theorem addVal_sorted {vals} (eval : BitVec 64) (sorted : vals.Pairwise (· < ·)) :
    (ecommunityAddVal vals eval).Pairwise (· < ·) := by
  fun_induction ecommunityAddVal vals eval with
  | case1 => exact pairwise_singleton ..
  | case2 => exact sorted
  | case3 first rest eval apart less =>
    refine pairwise_cons.mpr ⟨fun val member => ?_, sorted⟩
    rcases mem_cons.mp member with rfl | later
    · exact less
    · exact BitVec.lt_trans less (rel_of_pairwise_cons sorted later)
  | case4 first rest eval apart notLess ih =>
    refine pairwise_cons.mpr ⟨fun val member => ?_, ih sorted.of_cons⟩
    rcases mem_addVal.mp member with rfl | later
    · exact BitVec.not_le.mp fun le => apart (BitVec.le_antisymm (BitVec.not_lt.mp notLess) le)
    · exact rel_of_pairwise_cons sorted later

theorem ecommunityUniqSort_sorted (evals : List (BitVec 64)) :
    (ecommunityUniqSort evals).Pairwise (· < ·) :=
  foldlRecOn _ _ List.Pairwise.nil fun _ sorted _ _ => addVal_sorted _ sorted

theorem mem_ecommunityUniqSort {evals val} : val ∈ ecommunityUniqSort evals ↔ val ∈ evals := by
  have adds (vals : List (BitVec 64)) : val ∈ evals.foldl ecommunityAddVal vals ↔
      val ∈ vals ∨ val ∈ evals := by
    induction evals generalizing vals with
    | nil => exact (or_iff_left not_mem_nil).symm
    | cons eval rest ih => rw [foldl_cons, ih, mem_addVal, mem_cons, or_assoc, or_left_comm]
  exact (adds []).trans (or_iff_right not_mem_nil)

/-- The octets of the values, as the array has them. -/
def Ecommunity.octets (ecom : Ecommunity) : List Octet :=
  ecom.val.flatMap fun value => toOctets 8 value.toNat

/-- The eight octets at an offset. -/
def Ecommunity.octetsAt (ecom : Ecommunity) (offset : Nat) : List Octet :=
  (ecom.octets.drop offset).take 8

section
variable (ecom1 ecom2 : Ecommunity)

/-- The loop of `ecommunity_match`, whose indices are offsets of octets; where `j` gets. -/
def ecommunityMatchLoop (i j : Nat) : Nat :=
  if i < ecom1.val.length ∧ j < ecom2.val.length then
    ecommunityMatchLoop (i + 1) (if ecom1.octetsAt i = ecom2.octetsAt j then j + 1 else j)
  else j
termination_by ecom1.val.length - i

def ecommunityMatch : Option Ecommunity → Option Ecommunity → Bool
  | none, none => true
  | some ecom1, some ecom2 => !(ecom1.val.length < ecom2.val.length) &&
    ecommunityMatchLoop ecom1 ecom2 0 0 = ecom2.val.length
  | _, _ => false

/-- The eight octets at every offset that is below the number of values. -/
def Ecommunity.windows (ecom : Ecommunity) : List (List Octet) :=
  (range ecom.val.length).map ecom.octetsAt

end

theorem matchLoop_iff (ecom1 ecom2 : Ecommunity) (i : Nat) {j} (inside : j ≤ ecom2.val.length) :
    ecommunityMatchLoop ecom1 ecom2 i j = ecom2.val.length ↔
    (ecom2.windows.drop j).Sublist (ecom1.windows.drop i) := by
  have length (ecom : Ecommunity) : ecom.windows.length = ecom.val.length := by
    rw [windows, length_map, length_range]
  have drops {ecom : Ecommunity} {k} (bound : k < ecom.val.length) :
      ecom.windows.drop k = ecom.octetsAt k :: ecom.windows.drop (k + 1) := by
    rw [drop_eq_getElem_cons (by rwa [length])]
    exact congrArg (· :: _) (by simp only [windows, getElem_map, getElem_range])
  fun_induction ecommunityMatchLoop ecom1 ecom2 i j with
  | case1 i j within ih =>
    rw [drops within.1, drops within.2]
    by_cases same : ecom1.octetsAt i = ecom2.octetsAt j
    · rw [dif_pos same] at ih
      rw [if_pos same, same, cons_sublist_cons]
      exact ih within.2
    · rw [dif_neg same] at ih
      rw [if_neg same]
      refine (ih inside).trans ?_
      rw [drops within.2, cons_sublist_cons', or_iff_left fun both => same both.1.symm]
  | case2 i j stops =>
    by_cases done : j = ecom2.val.length
    · rw [drop_eq_nil_of_le (by rw [length, done])]
      exact iff_of_true done (nil_sublist _)
    · have past : ecom1.val.length ≤ i := by omega
      have nothing : ecom1.windows.drop i = [] := drop_eq_nil_of_le (by rwa [length])
      rw [nothing, drops (by omega)]
      exact iff_of_false done nofun

theorem ecommunityMatch_iff (ecom1 ecom2 : Ecommunity) :
    ecommunityMatch (some ecom1) (some ecom2) = true ↔ ecom2.windows.Sublist ecom1.windows := by
  rw [ecommunityMatch, Bool.and_eq_true, decide_eq_true_eq,
    matchLoop_iff ecom1 ecom2 0 (Nat.zero_le _), drop_zero, drop_zero]
  refine and_iff_right_of_imp fun sub => ?_
  have shorter := sub.length_le
  rw [windows, windows, length_map, length_map, length_range, length_range] at shorter
  rw [decide_eq_false (not_lt.mpr shorter)]
  rfl

theorem octetsAt_zero (first : BitVec 64) (rest : List (BitVec 64)) :
    (⟨first :: rest⟩ : Ecommunity).octetsAt 0 = toOctets 8 first.toNat := by
  rw [octetsAt, octets, drop_zero, flatMap_cons]
  exact take_left' (length_toOctets 8 _)

theorem windows_cons (first : BitVec 64) (rest : List (BitVec 64)) :
    ∃ others, (⟨first :: rest⟩ : Ecommunity).windows = toOctets 8 first.toNat :: others := by
  rw [windows, length_cons, range_succ_eq_map, map_cons, octetsAt_zero]
  exact ⟨_, rfl⟩

/-- The second array is longer, the same, no more than the first value of the other, or starts with
octets that the other neither has for a value nor shows at an offset that is looked at. -/
def PlainlyCompared (vals1 vals2 : List (BitVec 64)) : Prop :=
  vals1.length < vals2.length ∨ vals1 = vals2 ∨ vals2 <+: vals1.take 1 ∨
    ∀ first ∈ vals2.head?, first ∉ vals1 ∧ toOctets 8 first.toNat ∉ (⟨vals1⟩ : Ecommunity).windows

theorem PlainlyCompared.match_iff {vals1 vals2 : List (BitVec 64)}
    (plain : PlainlyCompared vals1 vals2) (once : vals2.Nodup) :
    (⟨vals2⟩ : Ecommunity).windows.Sublist (⟨vals1⟩ : Ecommunity).windows ↔ vals2 ⊆ vals1 := by
  have length (vals : List (BitVec 64)) : (⟨vals⟩ : Ecommunity).windows.length = vals.length := by
    rw [windows, length_map, length_range]
  rcases plain with longer | rfl | first | other
  · refine iff_of_false (fun sub => ?_) fun inside => ?_
    · have bound := sub.length_le
      rw [length, length] at bound
      omega
    · have bound := (List.subperm_of_subset once inside).length_le
      omega
  · exact iff_of_true (.refl _) (List.Subset.refl _)
  · obtain ⟨more, split⟩ := first
    cases vals1 with
    | nil =>
      obtain ⟨rfl, -⟩ := append_eq_nil_iff.mp split
      exact iff_of_true (.refl _) (nil_subset _)
    | cons top rest =>
      rcases append_eq_singleton_iff.mp split with ⟨rfl, -⟩ | ⟨rfl, -⟩
      · exact iff_of_true (nil_sublist _) (nil_subset _)
      · obtain ⟨others, shown⟩ := windows_cons top rest
        obtain ⟨none, alone⟩ := windows_cons top []
        have empty : none = [] := by
          have size := length [top]
          rw [alone, length_cons, length_singleton] at size
          exact length_eq_zero_iff.mp (by omega)
        rw [shown, alone, empty]
        exact iff_of_true ((nil_sublist _).cons_cons _) (by simp)
  · cases vals2 with
    | nil => exact iff_of_true (nil_sublist _) (nil_subset _)
    | cons first rest =>
      obtain ⟨absent, unseen⟩ := other first rfl
      obtain ⟨others, shown⟩ := windows_cons first rest
      refine iff_of_false (fun sub => unseen ?_) fun inside => absent (inside mem_cons_self)
      exact sub.subset (shown ▸ mem_cons_self)

/-- Adding gives the set of what is added. Two sets are compared by the octets at offsets that count
values, which gives the right answer where no offset inside a value matters. -/
theorem ecommunity_match_exact (evals1 evals2 : List (BitVec 64)) :
    ((ecommunityUniqSort evals1).Pairwise (· < ·) ∧ ∀ value, value ∈ ecommunityUniqSort evals1 ↔
      value ∈ evals1) ∧
    (ecommunityMatch (some ⟨ecommunityUniqSort evals1⟩) (some ⟨ecommunityUniqSort evals2⟩) = true ↔
      (⟨ecommunityUniqSort evals2⟩ : Ecommunity).windows.Sublist
        (⟨ecommunityUniqSort evals1⟩ : Ecommunity).windows) ∧
    (PlainlyCompared (ecommunityUniqSort evals1) (ecommunityUniqSort evals2) →
      (ecommunityMatch (some ⟨ecommunityUniqSort evals1⟩)
        (some ⟨ecommunityUniqSort evals2⟩) = true ↔
        ∀ value ∈ evals2, value ∈ evals1)) := by
  have exact := ecommunityMatch_iff ⟨ecommunityUniqSort evals1⟩ ⟨ecommunityUniqSort evals2⟩
  refine ⟨⟨ecommunityUniqSort_sorted evals1, fun _ => mem_ecommunityUniqSort⟩, exact,
    fun plain => exact.trans ?_⟩
  rw [plain.match_iff ((ecommunityUniqSort_sorted evals2).imp fun less => BitVec.ne_of_lt less)]
  exact forall_congr' fun value => imp_congr mem_ecommunityUniqSort mem_ecommunityUniqSort

/-- The same set in another order, the first value alone, and a set that starts with a value of its
  own. -/
theorem ecommunity_match_plain :
    (ecommunityMatch (some ⟨ecommunityUniqSort [3, 1, 2]⟩)
      (some ⟨ecommunityUniqSort [2, 3, 1, 2]⟩) = true ↔
      ∀ value ∈ ([2, 3, 1, 2] : List (BitVec 64)), value ∈ ([3, 1, 2] : List (BitVec 64))) ∧
    (ecommunityMatch (some ⟨ecommunityUniqSort [3, 1, 2]⟩) (some ⟨ecommunityUniqSort [1]⟩) = true ↔
      ∀ value ∈ ([1] : List (BitVec 64)), value ∈ ([3, 1, 2] : List (BitVec 64))) ∧
    (ecommunityMatch (some ⟨ecommunityUniqSort [3, 1, 2]⟩)
      (some ⟨ecommunityUniqSort [9, 4]⟩) = true ↔
      ∀ value ∈ ([9, 4] : List (BitVec 64)), value ∈ ([3, 1, 2] : List (BitVec 64))) := by
  have same : ecommunityUniqSort [3, 1, 2] = ecommunityUniqSort [2, 3, 1, 2] := by decide +kernel
  have first : ecommunityUniqSort [1] <+: (ecommunityUniqSort [3, 1, 2]).take 1 := by decide +kernel
  have head : (ecommunityUniqSort [9, 4]).head? = some 4 := by decide +kernel
  have absent : 4 ∉ ecommunityUniqSort [3, 1, 2] := by decide +kernel
  have unseen :
      toOctets 8 (4 : BitVec 64).toNat ∉ (⟨ecommunityUniqSort [3, 1, 2]⟩ : Ecommunity).windows := by
    decide +kernel
  have other : ∀ first ∈ (ecommunityUniqSort [9, 4]).head?, first ∉ ecommunityUniqSort [3, 1, 2] ∧
      toOctets 8 first.toNat ∉ (⟨ecommunityUniqSort [3, 1, 2]⟩ : Ecommunity).windows := by
    intro first here
    rw [head] at here
    cases here
    exact ⟨absent, unseen⟩
  exact ⟨(ecommunity_match_exact _ _).2.2 (.inr (.inl same)),
    (ecommunity_match_exact _ _).2.2 (.inr (.inr (.inl first))),
    (ecommunity_match_exact _ _).2.2 (.inr (.inr (.inr other)))⟩

/-- The second of two values is not found. -/
theorem ecommunity_match_second :
    ecommunityMatch (some ⟨ecommunityUniqSort [0x0002000100000001, 0x0002000100000002]⟩)
      (some ⟨ecommunityUniqSort [0x0002000100000002]⟩) = false := by
  decide +kernel

/-- A lower id, or the same one and a lower cost. -/
def EcommunityCost.Before (cost1 cost2 : EcommunityCost) : Prop :=
  cost1.id < cost2.id ∨ cost1.id = cost2.id ∧ cost1.val < cost2.val

def EcommunityCost.At (poi : Octet) (cost : EcommunityCost) : Prop :=
  cost.type = costCommunityType ∧ cost.poi = poi

namespace EcommunityCost
variable {cost1 cost2 cost3 cost4 : EcommunityCost}

theorem Before.trans (first : cost1.Before cost2) (second : cost2.Before cost3) :
    cost1.Before cost3 := by
  simp only [Before, BitVec.lt_def, ← BitVec.toNat_inj] at *
  omega

theorem Before.congr (before : cost2.Before cost3) (id1 : cost1.id = cost2.id)
    (val1 : cost1.val = cost2.val) (id3 : cost3.id = cost4.id)
    (val3 : cost3.val = cost4.val) : cost1.Before cost4 := by
  rwa [Before, id1, val1, ← id3, ← val3]

theorem Before.apart (before : cost1.Before cost2) :
    ¬ (cost2.Before cost1 ∨ cost2.id = cost1.id ∧ cost2.val = cost1.val) := by
  simp only [Before, BitVec.lt_def, ← BitVec.toNat_inj] at *
  omega

theorem cases (cost1 cost2 : EcommunityCost) :
    cost1.Before cost2 ∨ (cost1.id = cost2.id ∧ cost1.val = cost2.val) ∨ cost2.Before cost1 := by
  simp only [Before, BitVec.lt_def, ← BitVec.toNat_inj]
  omega

end EcommunityCost

section
variable {cost1 cost2 : EcommunityCost} {rest1 rest2 : List EcommunityCost}

theorem costCmp_end : 0 ≤ costCmpLoop (cost1 :: rest1) [] ↔
    cost1.val ≤ costCommunityDefaultCost := by
  rw [costCmpLoop, BitVec.le_def]
  simp only [BitVec.lt_def]
  split
  · exact iff_of_true (by decide) (by omega)
  · split
    · exact iff_of_false (by decide) (by omega)
    · exact iff_of_true (by decide) (by omega)

theorem end_costCmp : 0 ≤ costCmpLoop [] (cost2 :: rest2) ↔
    costCommunityDefaultCost ≤ cost2.val := by
  rw [costCmpLoop, BitVec.le_def]
  simp only [BitVec.lt_def]
  split
  · exact iff_of_true (by decide) (by omega)
  · split
    · exact iff_of_false (by decide) (by omega)
    · exact iff_of_true (by decide) (by omega)

theorem costCmp_cons : 0 ≤ costCmpLoop (cost1 :: rest1) (cost2 :: rest2) ↔
    cost1.Before cost2 ∨ (cost1.id = cost2.id ∧ cost1.val = cost2.val) ∧
    0 ≤ costCmpLoop rest1 rest2 := by
  rw [costCmpLoop, Before]
  simp only [BitVec.lt_def, ← BitVec.toNat_inj]
  split
  · omega
  · split
    · omega
    · split
      · omega
      · split
        · omega
        · split
          · omega
          · omega

end

/-- Of two of these costs the first one is below the default cost, or both are above it. -/
def Steady (among : EcommunityCost → Prop) : Prop :=
  ∀ cost1 cost2, among cost1 → among cost2 → cost1.Before cost2 →
    cost1.val < costCommunityDefaultCost ∨ costCommunityDefaultCost < cost1.val ∧
      costCommunityDefaultCost < cost2.val

/-- Growing costs out of some. -/
def Growing (among : EcommunityCost → Prop) (costs : List EcommunityCost) : Prop :=
  costs.Pairwise EcommunityCost.Before ∧ ∀ cost ∈ costs, among cost

theorem Growing.tail {among cost costs} (growing : Growing among (cost :: costs)) :
    Growing among costs :=
  ⟨growing.1.of_cons, fun other member => growing.2 other (.tail _ member)⟩

theorem last_of_default {among cost rest} (steady : Steady among)
    (growing : Growing among (cost :: rest))
    (default : cost.val = costCommunityDefaultCost) : rest = [] := by
  refine eq_nil_iff_forall_not_mem.mpr fun other member => ?_
  have before := rel_of_pairwise_cons growing.1 member
  rcases steady _ _ (growing.2 _ mem_cons_self)
    (growing.2 _ (.tail _ member)) before with low | high
  · exact BitVec.lt_irrefl _ (default ▸ low)
  · exact BitVec.lt_irrefl _ (default ▸ high.1)

theorem costCmpLoop_trans {among costs1 costs2 costs3} (steady : Steady among)
    (first : Growing among costs1) (second : Growing among costs2)
    (third : Growing among costs3) (le : 0 ≤ costCmpLoop costs1 costs2)
    (next : 0 ≤ costCmpLoop costs2 costs3) :
    0 ≤ costCmpLoop costs1 costs3 := by
  induction costs1 generalizing costs2 costs3 with
  | nil =>
    cases costs3 with
    | nil => exact Int.le_refl 0
    | cons cost3 rest3 =>
      cases costs2 with
      | nil => exact next
      | cons cost2 rest2 =>
        rw [end_costCmp] at le ⊢
        rcases costCmp_cons.mp next with before | ⟨same, _⟩
        · rcases steady _ _ (second.2 _ mem_cons_self)
            (third.2 _ mem_cons_self) before with low | high
          · exact absurd low (BitVec.not_lt.mpr le)
          · exact BitVec.le_of_lt high.2
        · exact same.2 ▸ le
  | cons cost1 rest1 ih =>
    have among1 := first.2 _ mem_cons_self
    cases costs2 with
    | nil =>
      cases costs3 with
      | nil => exact le
      | cons cost3 rest3 =>
        rw [costCmp_end] at le
        rw [end_costCmp] at next
        rcases EcommunityCost.cases cost1 cost3 with before | ⟨same, equal⟩ | before
        · exact costCmp_cons.mpr (.inl before)
        · have default := BitVec.le_antisymm le (equal ▸ next)
          rw [last_of_default steady first default, last_of_default steady third (equal ▸ default)]
          exact costCmp_cons.mpr (.inr ⟨⟨same, equal⟩, Int.le_refl 0⟩)
        · rcases steady _ _ (third.2 _ mem_cons_self) among1 before with low | high
          · exact absurd low (BitVec.not_lt.mpr next)
          · exact absurd high.2 (BitVec.not_lt.mpr le)
    | cons cost2 rest2 =>
      cases costs3 with
      | nil =>
        rw [costCmp_end] at next ⊢
        rcases costCmp_cons.mp le with before | ⟨same, _⟩
        · rcases steady _ _ among1 (second.2 _ mem_cons_self) before with low | high
          · exact BitVec.le_of_lt low
          · exact absurd high.2 (BitVec.not_lt.mpr next)
        · exact same.2 ▸ next
      | cons cost3 rest3 =>
        rw [costCmp_cons] at le next ⊢
        rcases le with before | ⟨same, le⟩
        · refine .inl ?_
          rcases next with after | ⟨equal, _⟩
          · exact before.trans after
          · exact before.congr rfl rfl equal.1 equal.2
        · rcases next with after | ⟨equal, next⟩
          · exact .inl (after.congr same.1 same.2 rfl rfl)
          · exact .inr ⟨⟨same.1.trans equal.1, same.2.trans equal.2⟩,
              ih (first.tail) (second.tail) (third.tail) le next⟩

/-- None, or growing values out of some. -/
def SetOf (among : BitVec 64 → Prop) (ecom : Option Ecommunity) : Prop :=
  ∀ set ∈ ecom, set.val.Pairwise (· < ·) ∧ ∀ value ∈ set.val, among value

/-- The costs at one point of insertion that are among some values. -/
def costsAmong (among : BitVec 64 → Prop) (poi : Octet) (cost : EcommunityCost) : Prop :=
  ∃ value, among value ∧ ecommunityCost value = cost ∧ cost.At poi

theorem before_iff {poi value1 value2} (first : (ecommunityCost value1).At poi)
    (second : (ecommunityCost value2).At poi) :
    (ecommunityCost value1).Before (ecommunityCost value2) ↔ value1 < value2 := by
  have types := congrArg BitVec.toNat (first.1.trans second.1.symm)
  have points := congrArg BitVec.toNat (first.2.trans second.2.symm)
  simp only [Before, ecommunityCost, BitVec.lt_def, ← BitVec.toNat_inj, BitVec.extractLsb'_toNat,
    Nat.shiftRight_eq_div_pow] at *
  omega

theorem growing_costs {among ecom} (set : SetOf among ecom) (poi : Octet) :
    Growing (costsAmong among poi) (costsAt poi ecom) := by
  cases ecom with
  | none => exact ⟨.nil, nofun⟩
  | some ecom =>
    obtain ⟨sorted, all⟩ := set ecom rfl
    have cost_at (cost : EcommunityCost) (member : cost ∈ costsAt poi (some ecom)) :
        costsAmong among poi cost := by
      obtain ⟨value, here, same⟩ := mem_map.mp (mem_filter.mp member).1
      have kind := (mem_filter.mp member).2
      rw [Bool.and_eq_true, decide_eq_true_eq, decide_eq_true_eq] at kind
      exact ⟨value, all value here, same, kind⟩
    refine ⟨?_, cost_at⟩
    rw [costsAt, pairwise_filter, pairwise_map]
    refine sorted.imp fun less kind1 kind2 => ?_
    rw [Bool.and_eq_true, decide_eq_true_eq, decide_eq_true_eq] at kind1 kind2
    exact (before_iff kind1 kind2).mpr less

/-- The comparison is antisymmetric, and a preference among the sets of some values exactly if of
two cost communities among them the lower one costs less than the default, or both cost more. -/
theorem cost_cmp_preference (among : BitVec 64 → Prop) (poi : Octet) :
    (∀ ecom1 ecom2, ecommunityCostCmp ecom1 ecom2 poi < 0 ↔ 0 < ecommunityCostCmp ecom2 ecom1 poi) ∧
    ((∀ ecom1 ecom2 ecom3, SetOf among ecom1 → SetOf among ecom2 → SetOf among ecom3 →
        0 ≤ ecommunityCostCmp ecom1 ecom2 poi → 0 ≤ ecommunityCostCmp ecom2 ecom3 poi →
        0 ≤ ecommunityCostCmp ecom1 ecom3 poi) ↔
      ∀ value1 value2, among value1 → among value2 → (ecommunityCost value1).At poi →
      (ecommunityCost value2).At poi → value1 < value2 →
        (ecommunityCost value1).val < costCommunityDefaultCost ∨
          costCommunityDefaultCost < (ecommunityCost value1).val ∧
          costCommunityDefaultCost < (ecommunityCost value2).val) := by
  refine ⟨fun ecom1 ecom2 => ?_, fun prefers value1 value2 among1 among2 at1 at2 less => ?_,
    fun steady ecom1 ecom2 ecom3 set1 set2 set3 le next => ?_⟩
  · rw [ecommunityCostCmp_neg ecom1 ecom2]
    omega
  · have before := (before_iff at1 at2).mpr less
    have costs {values} (all : ∀ value ∈ values, (ecommunityCost value).At poi) :
        costsAt poi (some ⟨values⟩) = values.map ecommunityCost := by
      refine filter_eq_self.mpr fun cost member => ?_
      obtain ⟨value, here, rfl⟩ := mem_map.mp member
      rw [decide_eq_true (all value here).1, decide_eq_true (all value here).2]
      rfl
    have set1 : SetOf among (some ⟨[value1]⟩) := by
      rintro _ ⟨⟩
      exact ⟨pairwise_singleton .., forall_mem_singleton.mpr among1⟩
    have set2 : SetOf among (some ⟨[value2]⟩) := by
      rintro _ ⟨⟩
      exact ⟨pairwise_singleton .., forall_mem_singleton.mpr among2⟩
    have both : SetOf among (some ⟨[value1, value2]⟩) := by
      rintro _ ⟨⟩
      exact ⟨pairwise_pair.mpr less, forall_mem_cons.mpr ⟨among1, forall_mem_singleton.mpr among2⟩⟩
    have costs1 := costs (forall_mem_singleton.mpr at1)
    have none_ : SetOf among none := nofun
    refine or_iff_not_imp_left.mpr fun notLow => ?_
    rw [BitVec.not_lt] at notLow
    have high2 : costCommunityDefaultCost < (ecommunityCost value2).val := by
      by_contra notHigh
      have wrong := prefers _ _ _ set2 none_ set1
      rw [ecommunityCostCmp, ecommunityCostCmp, ecommunityCostCmp, costs1,
        costs (forall_mem_singleton.mpr at2)] at wrong
      have chosen := costCmp_cons.mp
        (wrong (costCmp_end.mpr (BitVec.not_lt.mp notHigh)) (end_costCmp.mpr notLow))
      exact before.apart (chosen.imp_right And.left)
    refine ⟨?_, high2⟩
    by_contra notHigh
    have wrong := prefers _ _ _ both none_ set1
    rw [ecommunityCostCmp, ecommunityCostCmp, ecommunityCostCmp, costs1,
      costs (forall_mem_cons.mpr ⟨at1, forall_mem_singleton.mpr at2⟩)] at wrong
    rcases costCmp_cons.mp (wrong (costCmp_end.mpr (BitVec.not_lt.mp notHigh))
      (end_costCmp.mpr notLow)) with itself | ⟨_, more⟩
    · exact itself.apart (.inl itself)
    · exact BitVec.not_le.mpr high2 (costCmp_end.mp more)
  · refine costCmpLoop_trans ?_ (growing_costs set1 poi) (growing_costs set2 poi)
      (growing_costs set3 poi) le next
    rintro _ _ ⟨value1, among1, rfl, at1⟩ ⟨value2, among2, rfl, at2⟩ before
    exact steady value1 value2 among1 among2 at1 at2 ((before_iff at1 at2).mp before)

/-- No cost community, one with id 1 above the default cost and one with id 2 below it are a
  cycle. -/
theorem cost_cmp_cycle :
    ecommunityCostCmp (some ⟨[0x4301810200000005]⟩) none costPoiIgp = 1 ∧
    ecommunityCostCmp none (some ⟨[0x43018101FFFFFFFF]⟩) costPoiIgp = 1 ∧
      ecommunityCostCmp (some ⟨[0x43018101FFFFFFFF]⟩)
      (some ⟨[0x4301810200000005]⟩) costPoiIgp = 1 := by
  decide

end Zebra.Bgpd
