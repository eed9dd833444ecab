import Mathlib.Data.List.Basic

/-! Named items in a row, where a name is looked up from the front. -/
namespace Zebra.Base
open List

abbrev Row (Name Item : Type) := List (Name × Item)

namespace Row
variable {Name Item : Type} [DecidableEq Name]

def lookup : Row Name Item → Name → Option Item
  | [], _ => none
  | (other, item) :: row, name => if other = name then some item else lookup row name

/-- The first item of this name is replaced. -/
def replace : Row Name Item → Name → Item → Row Name Item
  | [], _, _ => []
  | (other, old) :: row, name, item => if other = name then (other, item) :: row
    else (other, old) :: replace row name item

/-- The first item of this name is taken out. -/
def remove : Row Name Item → Name → Row Name Item
  | [], _ => []
  | (other, item) :: row, name => if other = name then row else (other, item) :: remove row name

/-- A new item goes in front of the first name that stops it. -/
def place (stop : Name → Bool) (name : Name) (item : Item) : Row Name Item → Row Name Item
  | [] => [(name, item)]
  | (other, old) :: row => if stop other then (name, item) :: (other, old) :: row
    else (other, old) :: place stop name item row

variable {row : Row Name Item} {name : Name} {item old new : Item} {stop : Name → Bool}

theorem lookup_place (absent : lookup row name = none) :
    lookup (place stop name item row) name = some item := by
  induction row with
  | nil => simp [place, lookup]
  | cons head row ih =>
    rw [lookup] at absent
    split at absent
    · cases absent
    next different =>
      rw [place]
      split
      · simp [lookup]
      · rw [lookup, if_neg different, ih absent]

theorem remove_place (absent : lookup row name = none) :
    remove (place stop name item row) name = row := by
  induction row with
  | nil => simp [place, remove]
  | cons head row ih =>
    rw [lookup] at absent
    split at absent
    · cases absent
    next different =>
      rw [place]
      split
      · simp [remove]
      · rw [remove, if_neg different, ih absent]

theorem lookup_replace (present : lookup row name = some old) :
    lookup (replace row name new) name = some new := by
  induction row with
  | nil => cases present
  | cons head row ih =>
    rw [lookup] at present
    rw [replace]
    split at present
    next same => rw [if_pos same, lookup, if_pos same]
    next different => rw [if_neg different, lookup, if_neg different, ih present]

theorem replace_replace : replace (replace row name new) name item = replace row name item := by
  induction row with
  | nil => rfl
  | cons head row ih =>
    obtain ⟨other, kept⟩ := head
    by_cases same : other = name
    · simp [replace, same]
    · simp [replace, same, ih]

theorem replace_self (present : lookup row name = some item) : replace row name item = row := by
  induction row with
  | nil => rfl
  | cons head row ih =>
    obtain ⟨other, kept⟩ := head
    rw [lookup] at present
    split at present
    next same =>
      obtain rfl : kept = item := Option.some.inj present
      rw [replace, if_pos same]
    next different => rw [replace, if_neg different, ih present]

theorem remove_replace : remove (replace row name new) name = remove row name := by
  induction row with
  | nil => rfl
  | cons head row ih =>
    obtain ⟨other, kept⟩ := head
    by_cases same : other = name
    · simp [replace, remove, same]
    · simp [replace, remove, same, ih]

theorem length_remove (present : lookup row name = some item) :
    (remove row name).length + 1 = row.length := by
  induction row with
  | nil => cases present
  | cons head row ih =>
    rw [lookup] at present
    split at present
    next same => rw [remove, if_pos same, length_cons]
    next different => rw [remove, if_neg different, length_cons, length_cons, ih present]

variable {Good : Item → Prop}

section
variable (good : ∀ entry ∈ row, Good entry.2)
include good

theorem good_lookup (present : lookup row name = some item) : Good item := by
  induction row with
  | nil => cases present
  | cons head row ih =>
    have all := forall_mem_cons.mp good
    rw [lookup] at present
    split at present
    · exact Option.some.inj present ▸ all.1
    · exact ih all.2 present

omit [DecidableEq Name] in
theorem good_place (new : Good item) : ∀ entry ∈ place stop name item row, Good entry.2 := by
  induction row with
  | nil => simpa [place] using new
  | cons head row ih =>
    have all := forall_mem_cons.mp good
    rw [place]
    split
    · exact forall_mem_cons.mpr ⟨new, good⟩
    · exact forall_mem_cons.mpr ⟨all.1, ih all.2⟩

theorem good_replace (fresh : Good new) : ∀ entry ∈ replace row name new, Good entry.2 := by
  induction row with
  | nil => exact good
  | cons head row ih =>
    have all := forall_mem_cons.mp good
    rw [replace]
    split
    · exact forall_mem_cons.mpr ⟨fresh, all.2⟩
    · exact forall_mem_cons.mpr ⟨all.1, ih all.2⟩

theorem good_remove : ∀ entry ∈ remove row name, Good entry.2 := by
  induction row with
  | nil => exact good
  | cons head row ih =>
    have all := forall_mem_cons.mp good
    rw [remove]
    split
    · exact all.2
    · exact forall_mem_cons.mpr ⟨all.1, ih all.2⟩

end
end Row
end Zebra.Base
