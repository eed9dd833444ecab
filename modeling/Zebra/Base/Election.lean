/-! Choosing the candidates with the lowest rank, where all that have it pool what they bring. -/
namespace Zebra.Base
variable {Candidate Share : Type}

/-- `best` is the lowest rank of the candidates seen, and `pool` what those with that rank bring. -/
structure Elected (rank : Candidate → Nat) (share : Candidate → Share → Prop)
    (seen : Candidate → Prop) (best : Nat) (pool : Share → Prop) : Prop where
  reached : ∃ candidate, seen candidate ∧ rank candidate = best
  least : ∀ candidate, seen candidate → best ≤ rank candidate
  pooled : ∀ item, pool item ↔ ∃ candidate, seen candidate ∧ rank candidate = best ∧
    share candidate item

namespace Elected
variable {rank : Candidate → Nat} {share : Candidate → Share → Prop} {seen seen' : Candidate → Prop}
  {best best' : Nat} {pool pool' : Share → Prop}

theorem first (next : Candidate) : Elected rank share (· = next) (rank next) (share next) where
  reached := ⟨next, rfl, rfl⟩
  least := fun _ same => Nat.le_of_eq (congrArg rank same.symm)
  pooled :=
    fun _ => ⟨fun brings => ⟨next, rfl, rfl, brings⟩, fun ⟨_, same, _, brings⟩ => same ▸ brings⟩

section
variable (elected : Elected rank share seen best pool) (next : Candidate)
include elected next

theorem better (lower : rank next < best) :
    Elected rank share (fun candidate => seen candidate ∨ candidate = next) (rank next)
    (share next) where
  reached := ⟨next, .inr rfl, rfl⟩
  least := by
    rintro candidate (before | rfl)
    · exact Nat.le_of_lt (Nat.lt_of_lt_of_le lower (elected.least candidate before))
    · exact Nat.le_refl _
  pooled := by
    intro item
    constructor
    · intro brings
      exact ⟨next, .inr rfl, rfl, brings⟩
    · rintro ⟨candidate, before | rfl, same, brings⟩
      · exact absurd (elected.least candidate before) (by omega)
      · exact brings

theorem worse (higher : best < rank next) :
    Elected rank share (fun candidate => seen candidate ∨ candidate = next) best pool where
  reached := by
    obtain ⟨candidate, before, same⟩ := elected.reached
    exact ⟨candidate, .inl before, same⟩
  least := by
    rintro candidate (before | rfl)
    · exact elected.least candidate before
    · exact Nat.le_of_lt higher
  pooled := by
    intro item
    rw [elected.pooled item]
    constructor
    · rintro ⟨candidate, before, rest⟩
      exact ⟨candidate, .inl before, rest⟩
    · rintro ⟨candidate, before | rfl, same, brings⟩
      · exact ⟨candidate, before, same, brings⟩
      · exact absurd same (by omega)

theorem equal (same : rank next = best)
    (merged : ∀ item, pool' item ↔ pool item ∨ share next item) :
    Elected rank share (fun candidate => seen candidate ∨ candidate = next) best pool' where
  reached := ⟨next, .inr rfl, same⟩
  least := by
    rintro candidate (before | rfl)
    · exact elected.least candidate before
    · exact Nat.le_of_eq same.symm
  pooled := by
    intro item
    rw [merged item, elected.pooled item]
    constructor
    · rintro (⟨candidate, before, rest⟩ | brings)
      · exact ⟨candidate, .inl before, rest⟩
      · exact ⟨next, .inr rfl, same, brings⟩
    · rintro ⟨candidate, before | rfl, same, brings⟩
      · exact .inl ⟨candidate, before, same, brings⟩
      · exact .inr brings

end

theorem unique (first : Elected rank share seen best pool)
    (second : Elected rank share seen' best' pool')
    (alike : ∀ candidate, seen candidate ↔ seen' candidate) :
    best = best' ∧ ∀ item, pool item ↔ pool' item := by
  obtain ⟨one, oneSeen, oneBest⟩ := first.reached
  obtain ⟨other, otherSeen, otherBest⟩ := second.reached
  have low := first.least other ((alike other).mpr otherSeen)
  have high := second.least one ((alike one).mp oneSeen)
  have same : best = best' := by omega
  refine ⟨same, fun item => ?_⟩
  rw [first.pooled item, second.pooled item, same]
  exact exists_congr fun candidate => and_congr_left fun _ => alike candidate

end Elected
end Zebra.Base
