import Mathlib

/-! Lists that are linked in both directions, and lists that are grouped by a key. -/
namespace Zebra.Base.Linked
open Function List
variable {Head Node : Type}

section Splits
variable {before after first second : List Node} {node : Node}

theorem split_append (joined : first ++ second = before ++ node :: after) :
    (∃ rest, first = before ++ node :: rest ∧ after = rest ++ second) ∨
      ∃ rest, before = first ++ rest ∧ second = rest ++ node :: after := by
  obtain ⟨rest, early, late⟩ | ⟨rest, early, late⟩ := append_eq_append_iff.mp joined
  · exact .inr ⟨rest, early, late⟩
  · cases rest with
    | nil =>
      rw [append_nil] at early
      exact .inr ⟨[], by rw [early, append_nil], late.symm⟩
    | cons head rest =>
      obtain ⟨rfl, follow⟩ := cons.inj late
      exact .inl ⟨rest, early, follow⟩

theorem last_iff (nodup : (before ++ node :: after).Nodup) :
    (before ++ node :: after).getLast? = some node ↔ after = [] := by
  constructor
  · intro last
    by_contra more
    rw [getLast?_append_cons, getLast?_cons_of_ne_nil more] at last
    have twice := mem_of_getLast? last
    exact (nodup_cons.mp (nodup_append.mp nodup).2.1).1 twice
  · rintro rfl
    exact getLast?_concat

theorem first_iff (nodup : (before ++ node :: after).Nodup) :
    (before ++ node :: after).head? = some node ↔ before = [] := by
  constructor
  · intro first
    cases before with
    | nil => rfl
    | cons head rest =>
      obtain rfl : head = node := Option.some.inj first
      exact absurd (mem_append_right rest mem_cons_self) (nodup_cons.mp nodup).1
  · rintro rfl
    rfl

end Splits

/-- The links of each node lead to its neighbours. -/
structure Chained (next prev : Node → Option Node) (nodes : List Node) : Prop where
  next : ∀ {before node after}, nodes = before ++ node :: after → next node = after.head?
  prev : ∀ {before node after}, nodes = before ++ node :: after → prev node = before.getLast?

theorem Chained.nil (next prev : Node → Option Node) : Chained next prev [] :=
  ⟨by simp, by simp⟩

section Changes
variable {next prev : Node → Option Node} {front back : List Node} {node : Node}
variable {next' prev' : Node → Option Node}

theorem Chained.congr {nodes} (chained : Chained next prev nodes)
    (nexts : ∀ node ∈ nodes, next' node = next node)
    (prevs : ∀ node ∈ nodes, prev' node = prev node) :
    Chained next' prev' nodes where
  next split := (nexts _ (split ▸ mem_append_cons_self)).trans (chained.next split)
  prev split := (prevs _ (split ▸ mem_append_cons_self)).trans (chained.prev split)

variable [DecidableEq Node]

section
variable {gone} (chained : Chained next prev (front ++ gone ++ back))
include chained

theorem Chained.splice {come} (nodup : (front ++ come ++ back).Nodup)
    (nextFront : ∀ node ∈ front, next' node = if front.getLast? = some node then
      (come ++ back).head? else next node)
    (nextBack : ∀ node ∈ back, next' node = next node)
    (prevFront : ∀ node ∈ front, prev' node = prev node)
    (prevBack : ∀ node ∈ back, prev' node = if back.head? = some node then (front ++ come).getLast?
      else prev node)
    (inner : ∀ {before node after}, come = before ++ node :: after →
      next' node = (after ++ back).head? ∧ prev' node = (front ++ before).getLast?) :
    Chained next' prev' (front ++ come ++ back) := by
  have outer := nodup_append.mp nodup
  have inside := nodup_append.mp outer.1
  refine ⟨fun {before node after} split => ?_, fun {before node after} split => ?_⟩
  · obtain ⟨rest, early, rfl⟩ | ⟨rest, rfl, late⟩ := split_append split
    · obtain ⟨tail, here, rfl⟩ | ⟨tail, rfl, there⟩ := split_append early
      · have member : node ∈ front := here ▸ mem_append_cons_self
        have frontNodup : (before ++ node :: tail).Nodup := here ▸ inside.1
        rw [nextFront node member, here]
        by_cases last : tail = []
        · rw [if_pos ((last_iff frontNodup).mpr last), last, nil_append]
        · rw [if_neg (mt (last_iff frontNodup).mp last)]
          have was : front ++ gone ++ back = before ++ node :: (tail ++ gone ++ back) := by
            rw [here]
            simp only [append_assoc, cons_append]
          rw [chained.next was]
          obtain ⟨first, others, rfl⟩ := exists_cons_of_ne_nil last
          rfl
      · exact (inner there).1
    · have member : node ∈ back := late ▸ mem_append_cons_self
      rw [nextBack node member]
      have was : front ++ gone ++ back = (front ++ gone ++ rest) ++ node :: after := by
        rw [late, append_assoc _ rest]
      exact chained.next was
  · obtain ⟨rest, early, rfl⟩ | ⟨rest, rfl, late⟩ := split_append split
    · obtain ⟨tail, here, rfl⟩ | ⟨tail, rfl, there⟩ := split_append early
      · have member : node ∈ front := here ▸ mem_append_cons_self
        rw [prevFront node member]
        have was : front ++ gone ++ back = before ++ node :: (tail ++ gone ++ back) := by
          rw [here]
          simp only [append_assoc, cons_append]
        exact chained.prev was
      · exact (inner there).2
    · have member : node ∈ back := late ▸ mem_append_cons_self
      have backNodup : (rest ++ node :: after).Nodup := late ▸ outer.2.1
      rw [prevBack node member, late]
      by_cases first : rest = []
      · rw [if_pos ((first_iff backNodup).mpr first), first, append_nil]
      · rw [if_neg (mt (first_iff backNodup).mp first)]
        have was : front ++ gone ++ back = (front ++ gone ++ rest) ++ node :: after := by
          rw [late, append_assoc _ rest]
        rw [chained.prev was]
        simp only [getLast?_append_of_ne_nil _ first]

theorem Chained.put (nodup : (front ++ node :: back).Nodup)
    (nextFront : ∀ other ∈ front, next' other = if front.getLast? = some other then some node
      else next other)
    (nextBack : ∀ other ∈ back, next' other = next other)
    (prevFront : ∀ other ∈ front, prev' other = prev other)
    (prevBack : ∀ other ∈ back, prev' other = if back.head? = some other then some node
      else prev other)
    (nextNode : next' node = back.head?) (prevNode : prev' node = front.getLast?) :
    Chained next' prev' (front ++ node :: back) := by
  have whole : front ++ node :: back = front ++ [node] ++ back := by simp
  rw [whole] at nodup ⊢
  refine chained.splice nodup nextFront nextBack prevFront ?_ ?_
  · rw [getLast?_concat]
    exact prevBack
  · intro before other after split
    obtain ⟨rfl, rfl, rfl⟩ : before = [] ∧ node = other ∧ after = [] := by
      cases before with
      | nil =>
        obtain ⟨here, empty⟩ := cons.inj split
        exact ⟨rfl, here, empty.symm⟩
      | cons head rest => simp at split
    rw [nil_append, append_nil]
    exact ⟨nextNode, prevNode⟩

theorem Chained.cut (nodup : (front ++ back).Nodup)
    (nextFront : ∀ other ∈ front, next' other = if front.getLast? = some other then back.head?
      else next other)
    (nextBack : ∀ other ∈ back, next' other = next other)
    (prevFront : ∀ other ∈ front, prev' other = prev other)
    (prevBack : ∀ other ∈ back, prev' other = if back.head? = some other then front.getLast?
      else prev other) :
    Chained next' prev' (front ++ back) := by
  have whole : front ++ back = front ++ [] ++ back := by rw [append_nil]
  rw [whole] at nodup ⊢
  refine chained.splice nodup nextFront nextBack prevFront ?_ ?_
  · rw [append_nil]
    exact prevBack
  · intro before other after split
    exact absurd split (by simp)

end
end Changes

/-- No node is on two of the lists. -/
def Apart (lists : Head → List Node) : Prop :=
  ∀ {list other node}, node ∈ lists list → node ∈ lists other → list = other

theorem Apart.update [DecidableEq Head] {lists : Head → List Node} (apart : Apart lists)
    {list : Head} {nodes}
    (mine : ∀ node ∈ nodes, ∀ other, node ∈ lists other → other = list) :
    Apart (update lists list nodes) := by
  intro one other node first second
  rw [update_apply] at first second
  split at first <;> split at second
  · rename_i here there
    exact here.trans there.symm
  · rename_i here there
    exact absurd (mine node first other second) there
  · rename_i here there
    exact absurd (mine node second one first) here
  · exact apart first second

section Groups
variable {Key : Type} (key : Node → Key) {nodes front back : List Node} {node other : Node}
  {word : Key}

section Leaders
variable [DecidableEq Key]

/-- The first node with a key. -/
def leader (nodes : List Node) (word : Key) : Option Node :=
  nodes.find? fun node => key node = word

variable {key}

theorem leader_append : leader key (front ++ back) word =
    (leader key front word).or (leader key back word) :=
  find?_append

theorem leader_cons : leader key (node :: back) word = if key node = word then some node
    else leader key back word := by
  by_cases same : key node = word <;> simp [same, leader]

theorem leader_none : leader key nodes word = none ↔ ∀ node ∈ nodes, key node ≠ word := by
  rw [leader, find?_eq_none]
  simp

theorem leader_split : leader key nodes word = some node ↔
    key node = word ∧ ∃ front back, nodes = front ++ node :: back ∧
    ∀ other ∈ front, key other ≠ word := by
  rw [leader, find?_eq_some_iff_append]
  simp

theorem leader_mem (leads : leader key nodes word = some node) : node ∈ nodes :=
  mem_of_find?_eq_some leads

theorem leader_key (leads : leader key nodes word = some node) : key node = word :=
  (leader_split.mp leads).1

theorem leader_exists (member : node ∈ nodes) :
    ∃ first, leader key nodes (key node) = some first := by
  rw [← Option.isSome_iff_exists, leader, find?_isSome]
  exact ⟨node, member, by simp⟩

theorem leader_insert : leader key (front ++ node :: back) word =
    if key node = word then (leader key front word).or (some node)
    else leader key (front ++ back) word := by
  rw [leader_append, leader_cons, leader_append]
  split <;> rfl

end Leaders

section Order
variable [LinearOrder Key]

/-- The nodes stand in the order of their keys. -/
abbrev InOrder (nodes : List Node) : Prop :=
  nodes.Pairwise fun first second => key first ≤ key second

variable {key}

theorem inOrder_cut (inOrder : InOrder key nodes) (word : Key) :
    ∃ front back, nodes = front ++ back ∧ (∀ node ∈ front, key node < word) ∧
    ∀ node ∈ back, word ≤ key node := by
  induction nodes with
  | nil => exact ⟨[], [], rfl, by simp, by simp⟩
  | cons first rest ih =>
    obtain ⟨least, later⟩ := pairwise_cons.mp inOrder
    rcases lt_or_ge (key first) word with less | more
    · obtain ⟨front, back, rfl, below, above⟩ := ih later
      exact ⟨first :: front, back, rfl, forall_mem_cons.mpr ⟨less, below⟩, above⟩
    · refine ⟨[], first :: rest, rfl, by simp, forall_mem_cons.mpr ⟨more, fun node member => ?_⟩⟩
      exact more.trans (least node member)

theorem inOrder_before (inOrder : InOrder key (front ++ node :: back))
    (others : ∀ other ∈ front, key other ≠ key node) :
    ∀ other ∈ front, key other < key node := fun other member =>
  lt_of_le_of_ne ((pairwise_append.mp inOrder).2.2 other member node mem_cons_self)
    (others other member)

theorem inOrder_after (inOrder : InOrder key (front ++ node :: back)) :
    ∀ other ∈ back, key node ≤ key other :=
  (pairwise_cons.mp (pairwise_append.mp inOrder).2.1).1

theorem pairwise_insert {related} (pairwise : (front ++ back).Pairwise related)
    (behind : ∀ other ∈ front, related other node) (before : ∀ other ∈ back, related node other) :
    (front ++ node :: back).Pairwise related := by
  obtain ⟨early, late, across⟩ := pairwise_append.mp pairwise
  refine pairwise_append.mpr
    ⟨early, pairwise_cons.mpr ⟨before, late⟩, fun one here another there => ?_⟩
  rcases mem_cons.mp there with rfl | later
  · exact behind one here
  · exact across one here another later

end Order
end Groups
end Zebra.Base.Linked
