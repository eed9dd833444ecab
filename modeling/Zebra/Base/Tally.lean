import Mathlib

/-! Counting the entries of a table under an update of one key. -/
namespace Zebra.Base
open List AList
variable {Key Value : Type} [DecidableEq Key]

abbrev Assoc (Key Value : Type) := AList fun _ : Key => Value

/-- How many entries there are of a kind. -/
def tally (kind : Key → Value → Bool) (table : Assoc Key Value) : Nat :=
  table.entries.countP fun entry => kind entry.1 entry.2

/-- What one key adds to the count. -/
def share (kind : Key → Value → Bool) (key : Key) : Option Value → Nat
  | none => 0
  | some value => if kind key value then 1 else 0

omit [DecidableEq Key] in
@[simp] theorem share_none (kind : Key → Value → Bool) (key : Key) : share kind key none = 0 := rfl

section
variable (kind : Key → Value → Bool) (table : Assoc Key Value) (key : Key)

theorem tally_erase :
    tally kind table = tally kind (table.erase key) + share kind key (table.lookup key) := by
  by_cases known : key ∈ table.keys
  · obtain ⟨value, front, back, absent, whole, rest⟩ := exists_of_kerase known
    have found : table.lookup key = some value := by
      apply mem_lookup_iff.mpr
      rw [whole]
      exact mem_append_cons_self
    have left : (table.erase key).entries = front ++ back := rest
    rw [tally, tally, left, whole, found, countP_append, countP_cons, countP_append]
    exact (add_assoc ..).symm
  · have same : (table.erase key).entries = table.entries := kerase_of_notMem_keys known
    have absent : table.lookup key = none := lookup_eq_none.mpr known
    rw [tally, tally, same, absent]
    rfl

theorem tally_insert (value : Value) :
    tally kind (table.insert key value) + share kind key (table.lookup key) =
      tally kind table + share kind key (some value) := by
  have new : tally kind (table.insert key value) =
      tally kind (table.erase key) + share kind key (some value) := by
    rw [tally, entries_insert, countP_cons]
    rfl
  rw [new, tally_erase kind table key]
  exact Nat.add_right_comm ..

end

theorem tally_congr {table : Assoc Key Value} {kind other}
    (same : ∀ key value, table.lookup key = some value → kind key value = other key value) :
    tally kind table = tally other table := by
  apply countP_congr
  rintro ⟨key, value⟩ member
  rw [same key value (mem_lookup_iff.mpr member)]

theorem tally_eq_zero {table : Assoc Key Value} {kind}
    (no : ∀ key value, table.lookup key = some value → kind key value = false) :
    tally kind table = 0 := by
  apply countP_eq_zero.mpr
  rintro ⟨key, value⟩ member
  rw [no key value (mem_lookup_iff.mpr member)]
  exact nofun

section
variable {Item Value : Type} {items : List Item} {item : Item}

theorem exists_rest {before after : Item → Value} (nodup : items.Nodup) (member : item ∈ items)
    (same : ∀ other ∈ items, other ≠ item → after other = before other) :
    ∃ rest, items.Perm (item :: rest) ∧ ∀ other ∈ rest, after other = before other := by
  obtain ⟨front, back, rfl⟩ := append_of_mem member
  have apart := (nodup_cons.mp (nodup_middle.mp nodup)).1
  refine ⟨front ++ back, perm_middle, fun other inside => same other ?_ fun equal =>
    apart (equal ▸ inside)⟩
  exact perm_middle.mem_iff.mpr (.tail _ inside)

theorem countP_change {before after : Item → Bool} (nodup : items.Nodup) (member : item ∈ items)
    (same : ∀ other ∈ items, other ≠ item → after other = before other) :
    items.countP after + (if before item then 1 else 0) =
      items.countP before + (if after item then 1 else 0) := by
  obtain ⟨rest, perm, same⟩ := exists_rest nodup member same
  have others : rest.countP after = rest.countP before :=
    countP_congr fun other inside => by rw [same other inside]
  rw [perm.countP_eq, perm.countP_eq, countP_cons, countP_cons, others]
  exact Nat.add_right_comm ..

theorem sum_change {before after : Item → Int} (nodup : items.Nodup) (member : item ∈ items)
    (same : ∀ other ∈ items, other ≠ item → after other = before other) :
    (items.map after).sum + before item = (items.map before).sum + after item := by
  obtain ⟨rest, perm, same⟩ := exists_rest nodup member same
  rw [(perm.map after).sum_eq, (perm.map before).sum_eq, map_cons, map_cons, map_congr_left same,
    sum_cons, sum_cons]
  omega

end

theorem countP_erase_of_neg {Item : Type} [DecidableEq Item] {kind item} (other : kind item = false)
    (items : List Item) : (items.erase item).countP kind = items.countP kind := by
  by_cases member : item ∈ items
  · rw [(perm_cons_erase member).countP_eq kind, countP_cons_of_neg (Bool.not_eq_true _ ▸ other)]
  · rw [erase_of_not_mem member]

theorem find?_of_nodup_map {Item Name : Type} [DecidableEq Name] {name : Item → Name}
    {items : List Item} {item : Item}
    (nodup : (items.map name).Nodup) (member : item ∈ items) :
    items.find? (fun other => name other = name item) = some item := by
  induction items with
  | nil => cases member
  | cons first rest ih =>
    obtain ⟨apart, unique⟩ := nodup_cons.mp nodup
    rcases mem_cons.mp member with here | later
    · rw [here, find?_cons, decide_eq_true rfl]
    · have other : name first ≠ name item := fun same => apart (same ▸ mem_map_of_mem later)
      rw [find?_cons, decide_eq_false other]
      exact ih unique later

end Zebra.Base
