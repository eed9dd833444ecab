import Mathlib.Data.List.Nodup
import Mathlib.Data.List.Sort
import Mathlib.Order.Basic
import Mathlib.Order.RelClasses

/-! Which of some items with distinct keys comes next behind a mark. -/
namespace Zebra.Base
open Function List
variable {Item Key : Type} {before : Key → Key → Prop} {stored : List Item} {key : Item → Key}
  {mark : Key}

/-- The first stored item behind a mark, if there is one. -/
def Follower (before : Key → Key → Prop) (stored : List Item) (key : Item → Key) (mark : Key) :
    Option Item → Prop
  | none => ∀ other ∈ stored, ¬ before mark (key other)
  | some next => next ∈ stored ∧ before mark (key next) ∧
      ∀ other ∈ stored, before mark (key other) → ¬ before (key other) (key next)

/-- No two stored items have one key. -/
def Distinct (stored : List Item) (key : Item → Key) : Prop :=
  ∀ first ∈ stored, ∀ second ∈ stored, key first = key second → first = second

theorem Follower.congr {other result} (follower : Follower before stored key mark result)
    {others} (members : ∀ item, item ∈ others ↔ item ∈ stored)
    (same : ∀ item ∈ stored, other item = key item) :
    Follower before others other mark result := by
  cases result with
  | none =>
    intro item member
    rw [same item ((members item).mp member)]
    exact follower item ((members item).mp member)
  | some next =>
    obtain ⟨inside, behind, first⟩ := follower
    refine ⟨(members next).mpr inside, by rwa [same next inside], fun item member later => ?_⟩
    have there := (members item).mp member
    rw [same item there] at later ⊢
    rw [same next inside]
    exact first item there later

section Order
variable [IsStrictTotalOrder Key before]

theorem Follower.unique (distinct : Distinct stored key) {first second}
    (left : Follower before stored key mark first)
    (right : Follower before stored key mark second) : first = second := by
  cases first with
  | none =>
    cases second with
    | none => rfl
    | some next => exact absurd right.2.1 (left next right.1)
  | some next =>
    cases second with
    | none => exact absurd left.2.1 (right next left.1)
    | some other =>
      have same : key next = key other := by
        rcases trichotomous_of before (key next) (key other) with less | same | more
        · exact absurd less (right.2.2 next left.1 left.2.1)
        · exact same
        · exact absurd more (left.2.2 other right.1 right.2.1)
      rw [distinct next left.1 other right.1 same]

/-- A new item is the follower of the one in front of it; the others keep theirs. -/
theorem Follower.insert [DecidableEq Item] (distinct : Distinct stored key) {item new}
    {front follower} (member : item ∈ stored) (fresh : ∀ other ∈ stored, key other ≠ key new)
    (kept : Follower before stored key (key item) follower)
    (leads : Follower (swap before) stored key (key new) front) :
    Follower before (new :: stored) key (key item)
    (if front = some item then some new else follower) := by
  by_cases here : front = some item
  · subst here
    rw [if_pos rfl]
    refine ⟨mem_cons_self, leads.2.1, fun other inside later => ?_⟩
    rcases mem_cons.mp inside with rfl | inside
    · exact irrefl_of before _
    · exact fun less => leads.2.2 other inside less later
  · rw [if_neg here]
    -- when the new item is behind, its front is, and so is the follower no later
    have front_behind : before (key item) (key new) → ∃ next, front = some next ∧ next ∈ stored ∧
        before (key item) (key next) ∧ before (key next) (key new) := by
      intro less
      cases front with
      | none => exact absurd less (leads item member)
      | some next =>
        refine ⟨next, rfl, leads.1, ?_, leads.2.1⟩
        rcases trichotomous_of before (key item) (key next) with behind | same | ahead
        · exact behind
        · exact absurd (congrArg some (distinct item member next leads.1 same)).symm here
        · exact absurd ahead (leads.2.2 item member less)
    cases follower with
    | none =>
      intro other inside later
      rcases mem_cons.mp inside with rfl | inside
      · obtain ⟨next, _, there, behind, _⟩ := front_behind later
        exact kept next there behind
      · exact kept other inside later
    | some after =>
      refine ⟨.tail _ kept.1, kept.2.1, fun other inside later less => ?_⟩
      rcases mem_cons.mp inside with rfl | inside
      · obtain ⟨next, _, there, behind, ahead⟩ := front_behind later
        exact kept.2.2 next there behind (trans_of before ahead less)
      · exact kept.2.2 other inside later less

theorem Follower.insert_self {new follower} (kept : Follower before stored key (key new) follower) :
    Follower before (new :: stored) key (key new) follower := by
  cases follower with
  | none =>
    intro other inside
    rcases mem_cons.mp inside with rfl | inside
    · exact irrefl_of before _
    · exact kept other inside
  | some after =>
    refine ⟨.tail _ kept.1, kept.2.1, fun other inside later => ?_⟩
    rcases mem_cons.mp inside with rfl | inside
    · exact absurd later (irrefl_of before _)
    · exact kept.2.2 other inside later

theorem Follower.drop_self {new follower}
    (kept : Follower before (new :: stored) key (key new) follower) :
    Follower before stored key (key new) follower := by
  cases follower with
  | none => exact fun other inside => kept other (.tail _ inside)
  | some after =>
    obtain ⟨inside, behind, first⟩ := kept
    refine ⟨?_, behind, fun other there => first other (.tail _ there)⟩
    rcases mem_cons.mp inside with rfl | inside
    · exact absurd behind (irrefl_of before _)
    · exact inside

variable [DecidableEq Item]

theorem Follower.erase_self (nodup : stored.Nodup) {old follower}
    (kept : Follower before stored key (key old) follower) :
    Follower before (stored.erase old) key (key old) follower := by
  cases follower with
  | none => exact fun other inside => kept other (mem_of_mem_erase inside)
  | some after =>
    have apart : after ≠ old := fun same => irrefl_of before _ (same ▸ kept.2.1)
    exact ⟨(nodup.mem_erase_iff).mpr ⟨apart, kept.1⟩, kept.2.1,
      fun other inside => kept.2.2 other (mem_of_mem_erase inside)⟩

/-- The item in front of one that goes takes over its follower; the others keep theirs. -/
theorem Follower.erase (distinct : Distinct stored key) (nodup : stored.Nodup) {item old}
    {front follower next} (member : item ∈ stored) (gone : old ∈ stored) (apart : item ≠ old)
    (kept : Follower before stored key (key item) follower)
    (leads : Follower (swap before) stored key (key old) front)
    (follows : Follower before stored key (key old) next) :
    Follower before (stored.erase old) key (key item)
    (if front = some item then next else follower) := by
  have only : ∀ {other}, other ∈ stored.erase old → other ∈ stored ∧ key other ≠ key old :=
      fun inside =>
    ⟨mem_of_mem_erase inside, fun same => (nodup.mem_erase_iff.mp inside).1
      (distinct _ (mem_of_mem_erase inside) _ gone same)⟩
  by_cases here : front = some item
  · subst here
    rw [if_pos rfl]
    -- what is behind the item is behind the old one
    have later : ∀ other ∈ stored.erase old, before (key item) (key other) →
        before (key old) (key other) := by
      intro other inside behind
      obtain ⟨there, different⟩ := only inside
      rcases trichotomous_of before (key old) (key other) with less | same | more
      · exact less
      · exact absurd same.symm different
      · exact absurd behind (leads.2.2 other there more)
    cases next with
    | none =>
      exact fun other inside behind => follows other (only inside).1 (later other inside behind)
    | some next =>
      have different : next ≠ old := fun same => irrefl_of before _ (same ▸ follows.2.1)
      exact ⟨nodup.mem_erase_iff.mpr ⟨different, follows.1⟩, trans_of before leads.2.1 follows.2.1,
        fun other inside behind => follows.2.2 other (only inside).1 (later other inside behind)⟩
  · rw [if_neg here]
    cases follower with
    | none => exact fun other inside => kept other (only inside).1
    | some after =>
      have different : after ≠ old := by
        rintro rfl
        cases front with
        | none => exact leads item member kept.2.1
        | some next =>
          rcases trichotomous_of before (key item) (key next) with behind | same | ahead
          · exact kept.2.2 next leads.1 behind leads.2.1
          · exact here (congrArg some (distinct item member next leads.1 same)).symm
          · exact leads.2.2 item member kept.2.1 ahead
      exact ⟨nodup.mem_erase_iff.mpr ⟨different, kept.1⟩, kept.2.1,
        fun other inside => kept.2.2 other (only inside).1⟩

/-- An item that takes the place of one with its key is the follower of the one in front of that. -/
theorem Follower.replace (distinct : Distinct stored key) (nodup : stored.Nodup) {item old new}
    {front follower next} (member : item ∈ stored.erase old) (gone : old ∈ stored)
    (same : key old = key new)
    (kept : Follower before stored key (key item) follower)
    (leads : Follower (swap before) stored key (key old) front)
    (follows : Follower before stored key (key old) next) :
    Follower before (new :: stored.erase old) key (key item)
    (if front = some item then some new else follower) := by
  have only : ∀ {other}, other ∈ stored.erase old → other ∈ stored ∧ other ≠ old := fun inside =>
    ⟨mem_of_mem_erase inside, (nodup.mem_erase_iff.mp inside).1⟩
  have fresh : ∀ other ∈ stored.erase old, key other ≠ key new := fun other inside equal =>
    (only inside).2 (distinct other (only inside).1 old gone (equal.trans same.symm))
  have remaining : Distinct (stored.erase old) key := fun first here second there =>
    distinct first (only here).1 second (only there).1
  have erased := kept.erase distinct nodup (only member).1 gone (only member).2 leads follows
  have ahead := leads.erase_self nodup
  rw [same] at ahead
  have inserted := erased.insert remaining member fresh ahead
  split at inserted
  · rename_i here
    rwa [if_pos here]
  · rename_i elsewhere
    rwa [if_neg elsewhere]

end Order

section Sorted
variable {sorted first rest : List Item} {item : Item}

section
variable (ordered : (first ++ item :: rest).Pairwise fun one other => before (key one) (key other))
include ordered

/-- In a sorted list the follower of an item stands behind it. -/
theorem follower_of_sorted [IsStrictTotalOrder Key before] :
    Follower before (first ++ item :: rest) key (key item) rest.head? := by
  obtain ⟨_, tail, ahead⟩ := pairwise_append.mp ordered
  obtain ⟨behind, tail⟩ := pairwise_cons.mp tail
  have later : ∀ other ∈ first ++ item :: rest, before (key item) (key other) → other ∈ rest := by
    intro other member less
    rcases mem_append.mp member with early | late
    · exact absurd (trans_of before less (ahead other early item mem_cons_self))
        (irrefl_of before _)
    · rcases mem_cons.mp late with rfl | late
      · exact absurd less (irrefl_of before _)
      · exact late
  cases rest with
  | nil => exact fun other member less => not_mem_nil (later other member less)
  | cons next rest =>
    refine ⟨by simp, behind next mem_cons_self, fun other member less => ?_⟩
    rcases mem_cons.mp (later other member less) with rfl | late
    · exact irrefl_of before _
    · exact fun more => irrefl_of before _
        (trans_of before more ((pairwise_cons.mp tail).1 other late))

theorem leader_of_sorted [IsStrictTotalOrder Key before] :
    Follower (swap before) (first ++ item :: rest) key (key item) first.getLast? := by
  have turned : (rest.reverse ++ item :: first.reverse).Pairwise fun one other =>
      swap before (key one) (key other) := by
    have reversed := pairwise_reverse.mpr ordered
    rwa [reverse_append, reverse_cons, append_assoc, singleton_append] at reversed
  have follower := follower_of_sorted turned
  rw [head?_reverse] at follower
  refine follower.congr (fun other => ?_) fun _ _ => rfl
  simp only [mem_append, mem_cons, mem_reverse]
  tauto

end

theorem exists_sorted [LinearOrder Key] (nodup : stored.Nodup) (distinct : Distinct stored key) :
    ∃ sorted : List Item, sorted.Perm stored ∧
      sorted.Pairwise fun one other => key one < key other := by
  refine ⟨stored.mergeSort fun one other => decide (key one ≤ key other), mergeSort_perm .., ?_⟩
  have perm := mergeSort_perm stored fun one other => decide (key one ≤ key other)
  have ordered : (stored.mergeSort fun one other => decide (key one ≤ key other)).Pairwise
      fun one other => decide (key one ≤ key other) = true := pairwise_mergeSort
    (fun _ _ _ first second =>
      decide_eq_true ((of_decide_eq_true first).trans (of_decide_eq_true second)))
    (fun one other => by
      rcases le_total (key one) (key other) with less | more
      · simp [less]
      · simp [more]) stored
  refine (ordered.and (perm.nodup_iff.mpr nodup)).imp_of_mem fun {one other} here there both => ?_
  refine lt_of_le_of_ne (of_decide_eq_true both.1) fun same => both.2 ?_
  exact distinct one (perm.mem_iff.mp here) other (perm.mem_iff.mp there) same

end Sorted
end Zebra.Base
