import Mathlib.Data.List.GetD
import Mathlib.Tactic.Common

/-! The priority queue of lib/pqueue.c: a binary heap in an array. -/
namespace Zebra
open List
variable {Data : Type}

def pqueueInitArraysize : Nat := 32

/-- `struct pqueue`: the slots in use, and how many there are. -/
structure Pqueue (Data : Type) where
  array : List Data := []
  arraySize : Nat := pqueueInitArraysize

def parentOf (index : Nat) : Nat := (index - 1) / 2
def leftOf (index : Nat) : Nat := 2 * index + 1
def rightOf (index : Nat) : Nat := 2 * index + 2

theorem parentOf_le (index : Nat) : parentOf index ≤ index := by
  rw [parentOf]
  omega

theorem parentOf_lt {index} (positive : 0 < index) : parentOf index < index := by
  rw [parentOf]
  omega

/-- Any other data goes up from a slot until its parent is upper. -/
def trickleUp (cmp : Data → Data → Int) (tmp : Data) (index : Nat) (array : List Data) :
    List Data :=
  if 0 < index ∧ cmp tmp (array.getD (parentOf index) tmp) < 0 then
    trickleUp cmp tmp (parentOf index) (array.set index (array.getD (parentOf index) tmp))
  else array.set index tmp
termination_by index
decreasing_by exact parentOf_lt (by omega)

section
variable (cmp : Data → Data → Int) (tmp : Data) (index : Nat) (array : List Data)

/-- The child that is upper; the left one where there is no right one. -/
def upperChild : Nat :=
  if rightOf index < array.length ∧ 0 < cmp (array.getD (leftOf index) tmp)
    (array.getD (rightOf index) tmp) then rightOf index
  else leftOf index

theorem upperChild_eq :
    upperChild cmp tmp index array = leftOf index ∨
    upperChild cmp tmp index array = rightOf index ∧ rightOf index < array.length := by
  rw [upperChild]
  split
  · rename_i right
    exact .inr ⟨rfl, right.1⟩
  · exact .inl rfl

end

/-- It goes down until both children are lower. -/
def trickleDown (cmp : Data → Data → Int) (tmp : Data) (index : Nat) (array : List Data) :
    List Data :=
  if index < array.length / 2 ∧ ¬ 0 < cmp (array.getD (upperChild cmp tmp index array) tmp) tmp then
    trickleDown cmp tmp (upperChild cmp tmp index array)
      (array.set index (array.getD (upperChild cmp tmp index array) tmp))
  else array.set index tmp
termination_by array.length - index
decreasing_by
  rw [List.length_set]
  rcases upperChild_eq cmp tmp index array with left | ⟨right, _⟩
  · rw [left, leftOf]
    omega
  · rw [right, rightOf]
    omega

namespace Pqueue

/-- `pqueue_enqueue`, with `pqueue_expand`. -/
def pqueueEnqueue (cmp : Data → Data → Int) (data : Data) (queue : Pqueue Data) : Pqueue Data where
  array := trickleUp cmp data queue.array.length (queue.array ++ [data])
  arraySize := if queue.arraySize ≤ queue.array.length + 2 then 2 * queue.arraySize
    else queue.arraySize

/-- `pqueue_dequeue`, of a queue that is not empty. -/
def pqueueDequeue (cmp : Data → Data → Int) (queue : Pqueue Data) : Option (Data × Pqueue Data) :=
  match queue.array with
  | [] => none
  | data :: rest => some (data, { queue with
    array := trickleDown cmp (rest.getLastD data) 0 ((data :: rest).dropLast) })

end Pqueue

/-- Comparing is a total preorder of some data. -/
structure TotalOn (cmp : Data → Data → Int) (among : Data → Prop) : Prop where
  swap : ∀ {a b}, among a → among b → (cmp a b < 0 ↔ 0 < cmp b a)
  trans : ∀ {a b c}, among a → among b → among c → cmp a b ≤ 0 → cmp b c ≤ 0 → cmp a c ≤ 0

namespace TotalOn
variable {cmp : Data → Data → Int} {among : Data → Prop} {a b : Data}

theorem refl (total : TotalOn cmp among) (here : among a) : cmp a a ≤ 0 := by
  have both := total.swap here here
  omega

theorem le_of_lt (total : TotalOn cmp among) (first : among a) (second : among b)
    (above : 0 < cmp a b) : cmp b a ≤ 0 :=
  Int.le_of_lt ((total.swap second first).mpr above)

theorem le_of_not_lt (total : TotalOn cmp among) (first : among a) (second : among b)
    (notLess : ¬ cmp a b < 0) : cmp b a ≤ 0 := by
  by_contra above
  exact notLess ((total.swap first second).mpr (Int.lt_of_not_ge above))

end TotalOn

/-- No data is upper than its parent. -/
def HeapOrdered (cmp : Data → Data → Int) (array : List Data) : Prop :=
  ∀ i a p, 0 < i → array[i]? = some a → array[parentOf i]? = some p → cmp p a ≤ 0

section Order
variable {cmp : Data → Data → Int} {among : Data → Prop} {array : List Data} {tmp : Data}
  {index : Nat}

theorem getD_set (array : List Data) (inside : index < array.length) (data other : Data) (i : Nat) :
    (array.set index data).getD i other = if i = index then data else array.getD i other := by
  rw [getD_eq_getElem?_getD, getElem?_set, getD_eq_getElem?_getD]
  by_cases same : index = i
  · rw [if_pos same, if_pos (by omega), if_pos same.symm, Option.getD_some]
  · rw [if_neg same, if_neg (Ne.symm same)]

theorem getD_mem {i} (inside : i < array.length) (other : Data) : array.getD i other ∈ array := by
  rw [getD_eq_getElem _ _ inside]
  exact getElem_mem inside

theorem heapOrdered_iff (other : Data) :
    HeapOrdered cmp array ↔ ∀ i < array.length, 0 < i →
    cmp (array.getD (parentOf i) other) (array.getD i other) ≤ 0 := by
  constructor
  · intro ordered i inside positive
    have above : parentOf i < array.length := Nat.lt_of_le_of_lt (parentOf_le i) inside
    rw [getD_eq_getElem _ _ inside, getD_eq_getElem _ _ above]
    exact ordered i _ _ positive (getElem?_eq_getElem inside) (getElem?_eq_getElem above)
  · intro ordered i a p positive here above
    obtain ⟨inside, rfl⟩ := List.getElem?_eq_some_iff.mp here
    obtain ⟨within, rfl⟩ := List.getElem?_eq_some_iff.mp above
    have this := ordered i inside positive
    rwa [getD_eq_getElem _ _ inside, getD_eq_getElem _ _ within] at this

/-- The array around a hole that something is to go into: what does not touch the hole is in order,
and the children of the hole are not upper than its parent. -/
structure Hole (cmp : Data → Data → Int) (array : List Data) (index : Nat) (tmp : Data) : Prop where
  inside : index < array.length
  apart : ∀ i < array.length, 0 < i → i ≠ index → parentOf i ≠ index →
    cmp (array.getD (parentOf i) tmp) (array.getD i tmp) ≤ 0
  across : 0 < index → ∀ i < array.length, 0 < i → parentOf i = index →
    cmp (array.getD (parentOf index) tmp) (array.getD i tmp) ≤ 0

namespace Hole
variable (hole : Hole cmp array index tmp)
include hole

theorem fill (above : 0 < index → cmp (array.getD (parentOf index) tmp) tmp ≤ 0)
    (below : ∀ i < array.length, 0 < i → parentOf i = index → cmp tmp (array.getD i tmp) ≤ 0) :
    HeapOrdered cmp (array.set index tmp) := by
  rw [heapOrdered_iff tmp, length_set]
  intro i inside positive
  rw [getD_set array hole.inside, getD_set array hole.inside]
  by_cases same : i = index
  · subst same
    rw [if_pos rfl, if_neg (Nat.ne_of_lt (parentOf_lt positive))]
    exact above positive
  · rw [if_neg same]
    by_cases child : parentOf i = index
    · rw [if_pos child]
      exact below i inside positive child
    · rw [if_neg child]
      exact hole.apart i inside positive same child

theorem up (positive : 0 < index) (total : TotalOn cmp among) (all : ∀ a ∈ array, among a) :
    Hole cmp (array.set index (array.getD (parentOf index) tmp)) (parentOf index) tmp := by
  have inside := hole.inside
  have lower := parentOf_lt positive
  have higher := parentOf_le (parentOf index)
  have notAbove : parentOf (parentOf index) ≠ index := by omega
  refine ⟨by rw [length_set]; omega, fun i bound some_ apart away => ?_,
    fun above i bound some_ child => ?_⟩
  · rw [length_set] at bound
    have other : i ≠ index := by
      rintro rfl
      exact away rfl
    rw [getD_set array inside, getD_set array inside, if_neg other]
    by_cases here : parentOf i = index
    · rw [if_pos here]
      exact hole.across positive i bound some_ here
    · rw [if_neg here]
      exact hole.apart i bound some_ other here
  · rw [length_set] at bound
    have step := hole.apart (parentOf index) (by omega) above (Nat.ne_of_lt lower) notAbove
    rw [getD_set array inside, getD_set array inside, if_neg notAbove]
    by_cases here : i = index
    · rw [if_pos here]
      exact step
    · rw [if_neg here]
      have next := hole.apart i bound some_ here (by rw [child]; exact Nat.ne_of_lt lower)
      rw [child] at next
      have mem := fun {j} (within : j < array.length) => all _ (getD_mem within tmp)
      exact total.trans (mem (by omega)) (mem (by omega)) (mem bound) step next

theorem down {child} (isChild : parentOf child = index) (lower : index < child)
    (bound : child < array.length)
    (upper : ∀ i < array.length, 0 < i → parentOf i = index →
      cmp (array.getD child tmp) (array.getD i tmp) ≤ 0) :
    Hole cmp (array.set index (array.getD child tmp)) child tmp := by
  have inside := hole.inside
  refine ⟨by rw [length_set]; exact bound, fun i within some_ apart away => ?_,
    fun positive i within some_ below => ?_⟩
  · rw [length_set] at within
    rw [getD_set array inside, getD_set array inside]
    by_cases here : i = index
    · subst here
      rw [if_neg (Nat.ne_of_lt (parentOf_lt some_)), if_pos rfl]
      exact hole.across some_ child bound (by omega) isChild
    · rw [if_neg here]
      by_cases sibling : parentOf i = index
      · rw [if_pos sibling]
        exact upper i within some_ sibling
      · rw [if_neg sibling]
        exact hole.apart i within some_ here sibling
  · rw [length_set] at within
    have other : i ≠ index := by
      rw [parentOf] at below
      omega
    rw [isChild, getD_set array inside, getD_set array inside, if_pos rfl, if_neg other]
    have next := hole.apart i within some_ other (by rw [below]; exact Nat.ne_of_gt lower)
    rwa [below] at next

end Hole

theorem among_set (all : ∀ a ∈ array, among a) {data} (here : among data) :
    ∀ a ∈ array.set index data, among a := by
  intro a member
  rcases mem_or_eq_of_mem_set member with before | rfl
  · exact all a before
  · exact here

theorem set_move_perm {other} (inside : index < array.length) (bound : other < array.length)
    (apart : index ≠ other) :
    ((array.set index (array.getD other tmp)).set other tmp).Perm (array.set index tmp) := by
  have lengths : (array.set index tmp).length = array.length := length_set ..
  have here : index < (array.set index tmp).length := by omega
  have there : other < (array.set index tmp).length := by omega
  have swapped := set_set_perm here there
  rw [getElem_set_self, getElem_set_ne apart, set_set] at swapped
  rwa [getD_eq_getElem _ _ bound]

theorem trickleUp_perm (cmp : Data → Data → Int) (inside : index < array.length) :
    (trickleUp cmp tmp index array).Perm (array.set index tmp) := by
  induction index, array using trickleUp.induct cmp tmp with
  | case1 index array moves ih =>
    have lower := parentOf_lt moves.1
    rw [trickleUp, if_pos moves]
    exact (ih (by rw [length_set]; omega)).trans (set_move_perm inside (by omega) (by omega))
  | case2 index array stops =>
    rw [trickleUp, if_neg stops]

theorem trickleUp_ordered (total : TotalOn cmp among) (hole : Hole cmp array index tmp)
    (all : ∀ a ∈ array, among a) (here : among tmp)
    (below : ∀ i < array.length, 0 < i → parentOf i = index → cmp tmp (array.getD i tmp) ≤ 0) :
    HeapOrdered cmp (trickleUp cmp tmp index array) := by
  induction index, array using trickleUp.induct cmp tmp with
  | case1 index array moves ih =>
    obtain ⟨positive, less⟩ := moves
    have inside := hole.inside
    have lower := parentOf_lt positive
    have mem := fun {j} (within : j < array.length) => all _ (getD_mem within tmp)
    rw [trickleUp, if_pos ⟨positive, less⟩]
    refine ih (hole.up positive total all)
      (among_set all (mem (by omega))) fun i bound some_ child => ?_
    rw [length_set] at bound
    rw [getD_set array inside]
    by_cases same : i = index
    · rw [if_pos same]
      exact Int.le_of_lt less
    · rw [if_neg same]
      have next := hole.apart i bound some_ same (by rw [child]; exact Nat.ne_of_lt lower)
      rw [child] at next
      exact total.trans here (mem (by omega)) (mem bound) (Int.le_of_lt less) next
  | case2 index array stops =>
    rw [trickleUp, if_neg stops]
    refine hole.fill (fun positive => ?_) below
    have inside := hole.inside
    have above : parentOf index < array.length := Nat.lt_of_le_of_lt (parentOf_le index) inside
    exact total.le_of_not_lt here (all _ (getD_mem above tmp)) fun less => stops ⟨positive, less⟩

theorem upperChild_spec (total : TotalOn cmp among) (all : ∀ a ∈ array, among a)
    (children : index < array.length / 2) :
    parentOf (upperChild cmp tmp index array) = index ∧ index < upperChild cmp tmp index array ∧
      upperChild cmp tmp index array < array.length ∧
      ∀ i < array.length, 0 < i → parentOf i = index →
        cmp (array.getD (upperChild cmp tmp index array) tmp) (array.getD i tmp) ≤ 0 := by
  have leftIn : leftOf index < array.length := by
    rw [leftOf]
    omega
  have parentLeft : parentOf (leftOf index) = index := by
    rw [parentOf, leftOf]
    omega
  have parentRight : parentOf (rightOf index) = index := by
    rw [parentOf, rightOf]
    omega
  have sides : ∀ i, 0 < i → parentOf i = index → i = leftOf index ∨ i = rightOf index := by
    intro i positive child
    rw [parentOf] at child
    rw [leftOf, rightOf]
    omega
  have mem := fun {j} (within : j < array.length) => all _ (getD_mem within tmp)
  rw [upperChild]
  by_cases right : rightOf index < array.length ∧ 0 < cmp (array.getD (leftOf index) tmp)
    (array.getD (rightOf index) tmp)
  · rw [if_pos right]
    refine ⟨parentRight, by rw [rightOf]; omega, right.1, fun i bound positive child => ?_⟩
    rcases sides i positive child with rfl | rfl
    · exact total.le_of_lt (mem leftIn) (mem right.1) right.2
    · exact total.refl (mem right.1)
  · rw [if_neg right]
    refine ⟨parentLeft, by rw [leftOf]; omega, leftIn, fun i bound positive child => ?_⟩
    rcases sides i positive child with rfl | rfl
    · exact total.refl (mem leftIn)
    · exact Int.not_lt.mp fun above => right ⟨bound, above⟩

theorem trickleDown_perm (cmp : Data → Data → Int) (inside : index < array.length) :
    (trickleDown cmp tmp index array).Perm (array.set index tmp) := by
  induction index, array using trickleDown.induct cmp tmp with
  | case1 index array moves ih =>
    have bounds : index < upperChild cmp tmp index array ∧
        upperChild cmp tmp index array < array.length := by
      rcases upperChild_eq cmp tmp index array with left | ⟨right, bound⟩
      · rw [left, leftOf]
        omega
      · rw [right]
        refine ⟨?_, bound⟩
        rw [rightOf]
        omega
    rw [trickleDown, if_pos moves]
    exact (ih (by rw [length_set]; exact bounds.2)).trans
      (set_move_perm inside bounds.2 (Nat.ne_of_lt bounds.1))
  | case2 index array stops =>
    rw [trickleDown, if_neg stops]

theorem trickleDown_ordered (total : TotalOn cmp among) (hole : Hole cmp array index tmp)
    (all : ∀ a ∈ array, among a) (here : among tmp)
    (above : 0 < index → cmp (array.getD (parentOf index) tmp) tmp ≤ 0) :
    HeapOrdered cmp (trickleDown cmp tmp index array) := by
  induction index, array using trickleDown.induct cmp tmp with
  | case1 index array moves ih =>
    obtain ⟨children, notBelow⟩ := moves
    obtain ⟨isChild, lower, bound, upper⟩ := upperChild_spec total all children
    rw [trickleDown, if_pos ⟨children, notBelow⟩]
    refine ih (hole.down isChild lower bound upper)
      (among_set all (all _ (getD_mem bound tmp))) fun _ => ?_
    rw [isChild, getD_set array hole.inside, if_pos rfl]
    exact Int.not_lt.mp notBelow
  | case2 index array stops =>
    rw [trickleDown, if_neg stops]
    refine hole.fill above fun i bound positive child => ?_
    have children : index < array.length / 2 := by
      rw [parentOf] at child
      omega
    obtain ⟨_, _, inside, upper⟩ := upperChild_spec total all children
    have below : 0 < cmp (array.getD (upperChild cmp tmp index array) tmp) tmp := by
      by_contra notBelow
      exact stops ⟨children, notBelow⟩
    have mem := fun {j} (within : j < array.length) => all _ (getD_mem within tmp)
    exact total.trans here (mem inside) (mem bound) (total.le_of_lt (mem inside) here below)
      (upper i bound positive child)

theorem HeapOrdered.first (ordered : HeapOrdered cmp array) (total : TotalOn cmp among)
    (all : ∀ a ∈ array, among a) {first}
    (top : array[0]? = some first) : ∀ a ∈ array, cmp first a ≤ 0 := by
  have each : ∀ (i : Nat) (a : Data), array[i]? = some a → cmp first a ≤ 0 := by
    intro i
    induction i using Nat.strongRecOn with
    | ind i ih =>
      intro a here
      by_cases zero : i = 0
      · subst zero
        rw [top] at here
        cases here
        exact total.refl (all _ (mem_of_getElem? top))
      · have lower := parentOf_lt (Nat.pos_of_ne_zero zero)
        obtain ⟨inside, _⟩ := List.getElem?_eq_some_iff.mp here
        have above : array[parentOf i]? = some array[parentOf i] := getElem?_eq_getElem (by omega)
        exact total.trans (all _ (mem_of_getElem? top)) (all _ (mem_of_getElem? above))
          (all _ (mem_of_getElem? here))
          (ih (parentOf i) lower _ above) (ordered i a _ (Nat.pos_of_ne_zero zero) here above)
  intro a member
  obtain ⟨i, here⟩ := mem_iff_getElem?.mp member
  exact each i a here

end Order

namespace Pqueue
variable {cmp : Data → Data → Int} {among : Data → Prop} {queue : Pqueue Data} {data : Data}

theorem pqueueEnqueue_perm (cmp : Data → Data → Int) (data : Data) (queue : Pqueue Data) :
    (queue.pqueueEnqueue cmp data).array.Perm (data :: queue.array) := by
  have inside : queue.array.length < (queue.array ++ [data]).length := by
    rw [length_append, length_singleton]
    omega
  have moved := @trickleUp_perm _ (queue.array ++ [data]) data queue.array.length cmp inside
  have last : (queue.array ++ [data]).set queue.array.length data = queue.array ++ [data] := by
    rw [set_append_right _ _ (Nat.le_refl _), Nat.sub_self, set_cons_zero]
  rw [last] at moved
  exact moved.trans (perm_append_singleton ..)

theorem pqueueEnqueue_ordered (total : TotalOn cmp among) (ordered : HeapOrdered cmp queue.array)
    (all : ∀ a ∈ queue.array, among a)
    (here : among data) : HeapOrdered cmp (queue.pqueueEnqueue cmp data).array := by
  have inside : queue.array.length < (queue.array ++ [data]).length := by
    rw [length_append, length_singleton]
    omega
  have slot : ∀ {i}, i < queue.array.length →
      (queue.array ++ [data]).getD i data = queue.array.getD i data := fun bound =>
    getD_append _ _ _ _ bound
  have childless : ∀ i < (queue.array ++ [data]).length, 0 < i →
      parentOf i ≠ queue.array.length := by
    intro i bound positive child
    rw [length_append, length_singleton] at bound
    rw [parentOf] at child
    omega
  refine trickleUp_ordered total
    ⟨inside, fun i bound positive apart _ => ?_, fun _ i bound positive child => ?_⟩ ?_ here ?_
  · rw [length_append, length_singleton] at bound
    have within : i < queue.array.length := by omega
    have above : parentOf i < queue.array.length := Nat.lt_of_le_of_lt (parentOf_le i) within
    rw [slot within, slot above]
    exact (heapOrdered_iff data).mp ordered i within positive
  · exact absurd child (childless i bound positive)
  · intro a member
    rcases mem_append.mp member with before | new
    · exact all a before
    · rwa [mem_singleton.mp new]
  · exact fun i bound positive child => absurd child (childless i bound positive)

theorem pqueueDequeue_perm (cmp : Data → Data → Int) {rest} (some_ : queue.array = data :: rest) :
    ∃ after, queue.pqueueDequeue cmp = some (data, after) ∧ after.array.Perm rest := by
  refine ⟨_, by rw [pqueueDequeue, some_], ?_⟩
  rcases eq_nil_or_concat rest with rfl | ⟨front, last, rfl⟩
  · -- the array is empty then
    rw [trickleDown, if_neg (by simp)]
    rfl
  · have shorter : (data :: (front ++ [last])).dropLast = data :: front := by
      rw [← cons_append, dropLast_concat]
    have isLast : (front ++ [last]).getLastD data = last := getLastD_concat ..
    have inside : 0 < (data :: front).length := Nat.succ_pos _
    rw [concat_eq_append, shorter, isLast]
    exact (trickleDown_perm cmp inside).trans (perm_append_singleton last front).symm

theorem pqueueDequeue_ordered (total : TotalOn cmp among) (ordered : HeapOrdered cmp queue.array)
    (all : ∀ a ∈ queue.array, among a)
    {after} (ran : queue.pqueueDequeue cmp = some (data, after)) :
    HeapOrdered cmp after.array ∧ ∀ a ∈ queue.array, cmp data a ≤ 0 := by
  cases some_ : queue.array with
  | nil =>
    rw [pqueueDequeue, some_] at ran
    cases ran
  | cons first rest =>
    rw [pqueueDequeue, some_] at ran
    cases ran
    have top : queue.array[0]? = some data := by rw [some_]; rfl
    have least := ordered.first total all top
    rw [some_] at least
    refine ⟨?_, least⟩
    rcases eq_nil_or_concat rest with rfl | ⟨front, last, rfl⟩
    · intro i a p _ here _
      have empty : trickleDown cmp data 0 ([] : List Data) = [] := by
        rw [trickleDown, if_neg (by simp)]
        rfl
      rw [show trickleDown cmp (([] : List Data).getLastD data) 0 [data].dropLast = [] from
        empty] at here
      cases here
    · have shorter : (data :: (front ++ [last])).dropLast = data :: front := by
        rw [← cons_append, dropLast_concat]
      have isLast : (front ++ [last]).getLastD data = last := getLastD_concat ..
      have inside : 0 < (data :: front).length := Nat.succ_pos _
      have part : ∀ {i}, i < (data :: front).length →
          queue.array.getD i last = (data :: front).getD i last := by
        intro i bound
        rw [some_, concat_eq_append]
        exact getD_append (data :: front) [last] last i bound
      have members : ∀ a ∈ data :: front, among a := by
        intro a member
        refine all a (some_ ▸ ?_)
        rw [concat_eq_append]
        exact mem_append_left [last] member
      have lastAmong : among last := all last (some_ ▸ by simp)
      rw [concat_eq_append, shorter, isLast]
      refine trickleDown_ordered total ⟨inside, fun i bound positive apart away => ?_,
        fun positive => absurd positive (Nat.lt_irrefl 0)⟩
        members lastAmong fun positive => absurd positive (Nat.lt_irrefl 0)
      rw [← part bound, ← part (Nat.lt_of_le_of_lt (parentOf_le i) bound)]
      refine (heapOrdered_iff last).mp ordered i ?_ positive
      rw [some_, concat_eq_append]
      simp only [length_cons, length_append] at bound ⊢
      omega

/-- What a queue is after some data were put in and some taken out, the last ones first. -/
inductive Operated (cmp : Data → Data → Int) : List Data → List Data → Pqueue Data → Prop
  | create : Operated cmp [] [] {}
  | enqueue {put taken queue} (data : Data) :
    Operated cmp put taken queue → Operated cmp (data :: put) taken (queue.pqueueEnqueue cmp data)
  | dequeue {put taken queue data after} :
    Operated cmp put taken queue → queue.pqueueDequeue cmp = some (data, after) →
      Operated cmp put (data :: taken) after

theorem pqueueEnqueue_room (room : queue.array.length + 2 ≤ queue.arraySize) :
    (queue.pqueueEnqueue cmp data).array.length + 2 ≤ (queue.pqueueEnqueue cmp data).arraySize := by
  rw [(pqueueEnqueue_perm cmp data queue).length_eq, length_cons, pqueueEnqueue]
  dsimp only
  split
  · omega
  · omega

theorem pqueueDequeue_inv {after} (ran : queue.pqueueDequeue cmp = some (data, after)) :
    queue.array.Perm (data :: after.array) ∧ after.arraySize = queue.arraySize := by
  cases some_ : queue.array with
  | nil =>
    rw [pqueueDequeue, some_] at ran
    cases ran
  | cons first rest =>
    obtain ⟨_, taken, same⟩ := pqueueDequeue_perm cmp some_
    rw [taken] at ran
    cases ran
    rw [pqueueDequeue, some_] at taken
    cases taken
    exact ⟨same.symm.cons data, rfl⟩

theorem operated_spec {put taken} (total : TotalOn cmp fun _ => True)
    (ran : Operated cmp put taken queue) :
    HeapOrdered cmp queue.array ∧ (taken ++ queue.array).Perm put ∧
    queue.array.length + 2 ≤ queue.arraySize := by
  induction ran with
  | create => exact ⟨nofun, .refl _, (by decide : 2 ≤ 32)⟩
  | @enqueue _ _ queue data _ ih =>
    obtain ⟨ordered, same, room⟩ := ih
    exact ⟨pqueueEnqueue_ordered total ordered (fun _ _ => trivial) trivial,
      ((pqueueEnqueue_perm cmp data queue).append_left _).trans
        (perm_middle.trans (same.cons data)), pqueueEnqueue_room room⟩
  | dequeue _ taken_ ih =>
    obtain ⟨ordered, same, room⟩ := ih
    obtain ⟨left, size⟩ := pqueueDequeue_inv taken_
    refine ⟨(pqueueDequeue_ordered total ordered (fun _ _ => trivial) taken_).1,
      perm_middle.symm.trans ((left.symm.append_left _).trans same), ?_⟩
    rw [left.length_eq, length_cons] at room
    omega

/-- Under a total preorder the array is always a heap with room behind it, holds what was put in and
not yet taken out, and gives an element that is minimal whenever it holds one. -/
theorem operated_correct {put taken} (total : TotalOn cmp fun _ => True)
    (ran : Operated cmp put taken queue) :
    HeapOrdered cmp queue.array ∧ (taken ++ queue.array).Perm put ∧
    queue.array.length < queue.arraySize ∧
      (queue.array ≠ [] → ∃ data after, queue.pqueueDequeue cmp = some (data, after) ∧
        data ∈ queue.array ∧ ∀ a ∈ queue.array, cmp data a ≤ 0) := by
  obtain ⟨ordered, same, room⟩ := operated_spec total ran
  refine ⟨ordered, same, by omega, fun some_ => ?_⟩
  obtain ⟨data, rest, shape⟩ := exists_cons_of_ne_nil some_
  obtain ⟨after, gives, _⟩ := pqueueDequeue_perm cmp shape
  exact ⟨data, after, gives, shape ▸ mem_cons_self,
    (pqueueDequeue_ordered total ordered (fun _ _ => trivial) gives).2⟩

def intCmp (a b : Int) : Int := a - b

def threeInts : Pqueue Int :=
  ((({} : Pqueue Int).pqueueEnqueue intCmp 3).pqueueEnqueue intCmp 1).pqueueEnqueue intCmp 2

/-- Three numbers go in, the smallest comes out, and two more go in. -/
theorem operated_correct_ints : ∃ after, threeInts.pqueueDequeue intCmp = some (1, after) ∧
    HeapOrdered intCmp ((after.pqueueEnqueue intCmp 0).pqueueEnqueue intCmp 5).array ∧
    ([1] ++ ((after.pqueueEnqueue intCmp 0).pqueueEnqueue intCmp 5).array).Perm
    [5, 0, 2, 1, 3] := by
  have total : TotalOn intCmp (fun _ => True) := by
    constructor <;> intros <;> simp only [intCmp] at * <;> omega
  have three : Operated intCmp [2, 1, 3] [] threeInts :=
    ((Operated.create.enqueue 3).enqueue 1).enqueue 2
  obtain ⟨-, held, -, least⟩ := operated_correct total three
  have held : threeInts.array.Perm [2, 1, 3] := held
  obtain ⟨data, after, gives, member, first⟩ :=
    least fun none => by simpa [none] using held.length_eq
  have smallest := first 1 (held.mem_iff.mpr (by decide))
  obtain rfl : data = 1 := by
    have one_of : data = 2 ∨ data = 1 ∨ data = 3 := by simpa using held.mem_iff.mp member
    simp only [intCmp] at smallest
    omega
  obtain ⟨ordered, same, -⟩ := operated_correct total (((three.dequeue gives).enqueue 0).enqueue 5)
  exact ⟨after, gives, ordered, same⟩

end Pqueue
end Zebra
