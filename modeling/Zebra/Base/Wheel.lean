import Mathlib.Data.List.Nodup

/-! Slots in a circle, and a mark that moves forward over them. -/
namespace Zebra.Base.Wheel
open List Nat

/-- How far a slot is ahead of the mark. -/
def ahead (slots mark slot : Nat) : Nat := (slot + slots - mark) % slots

section Ahead
variable {slots mark slot : Nat}
variable (inside : mark < slots)
include inside

theorem ahead_lt : ahead slots mark slot < slots :=
  mod_lt _ (zero_lt_of_lt inside)

theorem ahead_put (distance : Nat) :
    ahead slots mark ((mark + distance) % slots) = distance % slots := by
  have behind : (mark + distance) % slots + slots - mark =
    (mark + distance) % slots + (slots - mark) := by omega
  rw [ahead, behind, mod_add_mod]
  have around : mark + distance + (slots - mark) = distance + slots := by omega
  rw [around, add_mod_right]

theorem put_ahead (there : slot < slots) : (mark + ahead slots mark slot) % slots = slot := by
  rw [ahead, add_mod_mod]
  have around : mark + (slot + slots - mark) = slot + slots := by omega
  rw [around, add_mod_right, mod_eq_of_lt there]

/-- A mark that does not pass a slot comes nearer. -/
theorem ahead_moved (there : slot < slots) {distance} (short : distance ≤ ahead slots mark slot) :
    ahead slots ((mark + distance) % slots) slot = ahead slots mark slot - distance := by
  have bound : ahead slots mark slot < slots := ahead_lt inside
  have moved : (mark + distance) % slots < slots := mod_lt _ (zero_lt_of_lt inside)
  have same : slot = ((mark + distance) % slots + (ahead slots mark slot - distance)) % slots := by
    have sum : mark + distance + (ahead slots mark slot - distance) =
      mark + ahead slots mark slot := by omega
    rw [mod_add_mod, sum, put_ahead inside there]
  calc ahead slots ((mark + distance) % slots) slot
      = ahead slots ((mark + distance) % slots)
          (((mark + distance) % slots + (ahead slots mark slot - distance)) % slots) := by
            rw [← same]
    _ = (ahead slots mark slot - distance) % slots := ahead_put moved _
    _ = ahead slots mark slot - distance := mod_eq_of_lt (by omega)

end Ahead

/-- The slots from `slot` on before `stop`; a walk that does not come there within one turn never
  ends. -/
def visited (slots : Nat) : Nat → Nat → Nat → Option (List Nat)
  | 0, _, _ => none
  | fuel + 1, slot, stop =>
    if slot = stop then some [] else (visited slots fuel ((slot + 1) % slots) stop).map (slot :: ·)

section Visited
variable {slots mark stop : Nat}

theorem visited_outside (inside : mark < slots) (outside : slots ≤ stop) (fuel : Nat) :
    visited slots fuel mark stop = none := by
  induction fuel generalizing mark with
  | zero => rfl
  | succ fuel ih =>
    have next : (mark + 1) % slots < slots := mod_lt _ (zero_lt_of_lt inside)
    rw [visited, if_neg (by omega), ih next]
    rfl

theorem visited_eq (inside : mark < slots) (there : stop < slots) {fuel}
    (enough : ahead slots mark stop < fuel) :
    visited slots fuel mark stop =
      some ((range (ahead slots mark stop)).map fun step => (mark + step) % slots) := by
  induction fuel generalizing mark with
  | zero => exact nomatch enough
  | succ fuel ih =>
    have put := put_ahead inside there
    by_cases same : mark = stop
    · have none_ : ahead slots mark stop = 0 := by
        rw [ahead, same, Nat.add_sub_cancel_left, Nat.mod_self]
      rw [visited, if_pos same, none_]
      rfl
    · have some_ : 0 < ahead slots mark stop := by
        rcases Nat.eq_zero_or_pos (ahead slots mark stop) with zero | positive
        · rw [zero, Nat.add_zero, Nat.mod_eq_of_lt inside] at put
          exact absurd put same
        · exact positive
      have next : (mark + 1) % slots < slots := Nat.mod_lt _ (Nat.zero_lt_of_lt inside)
      have nearer : ahead slots ((mark + 1) % slots) stop = ahead slots mark stop - 1 :=
        ahead_moved inside there some_
      obtain ⟨rest, whole⟩ : ∃ rest, ahead slots mark stop = rest + 1 :=
        ⟨_, (Nat.sub_add_cancel some_).symm⟩
      have here : (mark + 0) % slots = mark := Nat.mod_eq_of_lt inside
      rw [visited, if_neg same, ih next (by omega), nearer, whole, Nat.add_sub_cancel,
        Option.map_some, range_succ_eq_map, map_cons, map_map, here]
      refine congrArg (fun rest => some (mark :: rest)) (map_congr_left fun step _ => ?_)
      rw [Nat.mod_add_mod, Function.comp, Nat.add_right_comm, Nat.add_assoc]

theorem visited_mem (inside : mark < slots) {distance slot} (within : distance ≤ slots)
    (there : slot < slots) :
    slot ∈ (range distance).map (fun step => (mark + step) % slots) ↔
    ahead slots mark slot < distance := by
  rw [mem_map]
  constructor
  · rintro ⟨step, early, rfl⟩
    have low := mem_range.mp early
    rwa [ahead_put inside, Nat.mod_eq_of_lt (Nat.lt_of_lt_of_le low within)]
  · intro early
    exact ⟨_, mem_range.mpr early, put_ahead inside there⟩

end Visited
end Zebra.Base.Wheel
