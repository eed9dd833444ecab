import Zebra.Base.TreeOrder
import Zebra.Lib.TableInvariant

namespace Zebra
open Function Base Base.LinkedTree List Prefix Option Finset RouteTable

def Prefix.bits (p : Prefix) : List Bool :=
  (List.range p.prefixlen).map p.bit

@[simp] theorem Prefix.length_bits (p : Prefix) : p.bits.length = p.prefixlen := by
  rw [bits, length_map, length_range]

theorem Prefix.getElem_bits (p : Prefix) (index : Nat) (bound : index < p.bits.length) :
    p.bits[index] = p.bit index := by
  simp [bits]

theorem Prefix.bits_begins {p q : Prefix} : p.bits <+: q.bits ↔ p.Covers q := by
  rw [prefix_iff_getElem]
  constructor
  · rintro ⟨short, same⟩
    rw [length_bits, length_bits] at short
    refine ⟨short, fun index bound => ?_⟩
    have here := same index (by rw [length_bits]; exact bound)
    rw [getElem_bits, getElem_bits] at here
    exact here
  · rintro ⟨short, agree⟩
    refine ⟨by rw [length_bits, length_bits]; exact short, fun index bound => ?_⟩
    rw [getElem_bits, getElem_bits]
    exact agree index (by rwa [length_bits] at bound)

theorem Prefix.bits_eq {p q : Prefix} : p.bits = q.bits ↔ p.SameMasked q := by
  rw [sameMasked_iff_covers, ← bits_begins, ← bits_begins]
  constructor
  · intro same
    rw [same]
    exact ⟨prefix_rfl, prefix_rfl⟩
  · rintro ⟨first, second⟩
    exact first.eq_of_length (le_antisymm first.length_le second.length_le)

theorem Prefix.above_iff {upper lower : Prefix} {side} :
    upper.Above side lower ↔ upper.bits ++ [side] <+: lower.bits := by
  constructor
  · rintro ⟨shorter, agree, bit⟩
    obtain ⟨rest, whole⟩ := bits_begins.mpr ⟨le_of_lt shorter, agree⟩
    have length : upper.prefixlen + rest.length = lower.prefixlen := by
      rw [← length_bits upper, ← length_append, whole, length_bits]
    cases rest with
    | nil =>
      rw [length_nil] at length
      omega
    | cons first rest =>
      have here := getElem_bits lower upper.prefixlen (by rw [length_bits]; exact shorter)
      have there : (upper.bits ++ first :: rest)[upper.prefixlen]? = some first := by
        rw [getElem?_append_right (by rw [length_bits]), length_bits, Nat.sub_self]
        rfl
      rw [whole, getElem?_eq_getElem (by rw [length_bits]; exact shorter), here, bit] at there
      cases there
      exact ⟨rest, by rw [append_assoc, singleton_append, whole]⟩
  · intro begins
    have length := begins.length_le
    rw [length_append, length_bits, length_bits] at length
    have covers := bits_begins.mp ((prefix_append _ _).trans begins)
    refine ⟨length, covers.2, ?_⟩
    have here := getElem_bits lower upper.prefixlen (by rw [length_bits]; exact length)
    have there := side_of_begins begins
    rw [length_bits, getD_eq_getElem?_getD, getElem?_eq_getElem (by rw [length_bits]; exact length),
      here] at there
    exact there

theorem spelling : Spelling Prefix.Above bits :=
  ⟨above_iff⟩

namespace RouteTable
variable {Info : Type} {table : RouteTable Info}

/-- A node with these bits is in the table. -/
def Spelled (table : RouteTable Info) (id : NodeId) (word : List Bool) : Prop :=
  ∃ node, table.nodes id = some node ∧ node.p.bits = word

variable {word : List Bool} {first second : RouteTable Info}

theorem spelled_links {id} : table.links.Spelled bits id word ↔ table.Spelled id word := by
  constructor
  · rintro ⟨cell, found, rfl⟩
    obtain ⟨node, here, same, _⟩ := node_of_cell found
    exact ⟨node, here, by rw [same]⟩
  · rintro ⟨node, found, rfl⟩
    exact ⟨_, cell_of_node found, rfl⟩

theorem Wellformed.child_word (wf : table.Wellformed) {id child : NodeId} {node side}
    (found : table.nodes id = some node) (linked : node.link side = some child) :
    ∃ word, table.Spelled child word ∧ node.p.bits ++ [side] <+: word := by
  obtain ⟨cell, childFound, _, upper, upperFound, above⟩ :=
    wf.tree.child ((slot_of_node found side).trans linked)
  rw [cell_of_node found] at upperFound
  cases upperFound
  exact ⟨_, spelled_links.mp ⟨cell, childFound, rfl⟩, above_iff.mp above⟩

theorem Wellformed.below_child (wf : table.Wellformed) {id lower node side}
    (found : table.nodes id = some node) (there : table.Spelled lower word)
    (begins : node.p.bits ++ [side] <+: word) :
    ∃ child first, node.link side = some child ∧ table.Spelled child first ∧ first <+: word := by
  obtain ⟨child, first, seat, spelled, covers⟩ := child_begins spelling wf.tree
    (spelled_links.mpr ⟨node, found, rfl⟩) (spelled_links.mpr there) begins
  rw [slot_of_node found] at seat
  exact ⟨child, first, seat, spelled_links.mp spelled, covers⟩

theorem Spelled.unique {id first second} (left : table.Spelled id first)
    (right : table.Spelled id second) : first = second :=
  (spelled_links.mpr left).unique (spelled_links.mpr right)

section
variable (wf : table.Wellformed)
include wf

/-- The first node behind a word, if there is one. -/
def NextIn (table : RouteTable Info) (word : List Bool) : Option NodeId → Prop
  | none => ∀ id letters, table.Spelled id letters → ¬ word < letters
  | some next => ∃ first, table.Spelled next first ∧ word < first ∧
      ∀ id letters, table.Spelled id letters → word < letters → first ≤ letters

section
variable {id node} (found : table.nodes id = some node)
include found

theorem Wellformed.top_begins
    : ∃ root rootNode, table.top = some root ∧
      table.nodes root = some rootNode ∧ rootNode.p.bits <+: node.p.bits := by
  have here := spelled_links.mpr ⟨node, found, rfl⟩
  obtain ⟨root, first, top, spelled, above⟩ := exists_root spelling wf.tree here
  obtain ⟨rootNode, rootFound, rfl⟩ := spelled_links.mp spelled
  exact ⟨root, rootNode, top, rootFound, above⟩

theorem Wellformed.next_child {child side} (linked : node.link side = some child)
    (first : side = true → node.link false = none) : table.NextIn node.p.bits (some child) := by
  obtain ⟨word, spelled, begins⟩ := wf.child_word found linked
  have proper : node.p.bits ≠ node.p.bits ++ [side] :=
    fun same => cons_ne_nil _ _ (self_eq_append_right.mp same)
  have behind : node.p.bits < word :=
    lt_of_lt_of_le (lt_of_proper (prefix_append _ _) proper) (le_of_begins begins)
  refine ⟨word, spelled, behind, fun other letters there later => ?_⟩
  by_cases inside : node.p.bits <+: letters
  · obtain ⟨place, below⟩ := exists_side inside (ne_of_lt later)
    by_cases same : place = side
    · obtain ⟨_, top, seat, spelledTop, covers⟩ := wf.below_child found there (same ▸ below)
      rw [linked] at seat
      cases seat
      rw [spelledTop.unique spelled] at covers
      exact le_of_begins covers
    · cases side with
      | false =>
        rw [Bool.not_eq_false] at same
        exact le_of_lt (lt_of_fork Bool.false_lt_true begins (same ▸ below))
      | true =>
        rw [Bool.not_eq_true] at same
        obtain ⟨_, _, seat, _⟩ := wf.below_child found there (same ▸ below)
        rw [first rfl] at seat
        cases seat
  · rcases before_or_behind inside with before | after
    · exact absurd before (lt_asymm later)
    · exact le_of_lt (after word ((prefix_append _ _).trans begins))

/-- A node is on top, or linked from a node that is shorter. -/
theorem Wellformed.seat_of :
    node.parent = none ∧ table.links.slot none = some id ∨
    ∃ owner upper side, node.parent = some owner ∧
      table.nodes owner = some upper ∧ upper.link side = some id ∧ upper.p.Above side node.p := by
  obtain ⟨slot, owned, stored⟩ := wf.tree.held (cell_of_node found)
  rcases slot with _ | ⟨owner, side⟩
  · exact .inl ⟨owned.symm, stored⟩
  · obtain ⟨cell, cellFound, _, upperCell, upperFound, above⟩ := wf.tree.child stored
    rw [cell_of_node found] at cellFound
    cases cellFound
    obtain ⟨upper, upperHere, samePrefix, _⟩ := node_of_cell upperFound
    rw [← samePrefix] at above
    exact .inr ⟨owner, upper, side, owned.symm, upperHere,
      (slot_of_node upperHere side).symm.trans stored, above⟩

end

/-- Climbing ends at the next node, when nothing below where it starts is behind the word. -/
theorem Wellformed.climb_next (fuel : Nat) {id : NodeId} {node}
    (found : table.nodes id = some node) (enough : node.p.prefixlen < fuel)
    (covers : node.p.bits <+: word)
    (done : ∀ other letters, table.Spelled other letters → node.p.bits <+: letters →
      ¬ word < letters) :
    ∃ result, climbLoop table fuel id = some result ∧ table.NextIn word result := by
  induction fuel generalizing id node with
  | zero => omega
  | succ fuel ih =>
    rcases wf.seat_of found with
      ⟨orphan, stored⟩ | ⟨owner, upper, side, isParent, upperHere, linked, above⟩
    · refine ⟨none, by simp [climbLoop, found, orphan], fun other letters there later => ?_⟩
      have below := root_begins spelling wf.tree stored (spelled_links.mpr ⟨node, found, rfl⟩)
        (spelled_links.mpr there)
      exact done other letters there below later
    · have hangs : upper.p.bits ++ [side] <+: node.p.bits := above_iff.mp above
      -- what hangs on the side the climb comes from is behind it already
      have sided : ∀ other letters, table.Spelled other letters →
          upper.p.bits ++ [side] <+: letters →
          ¬ word < letters := by
        intro other letters there begins
        obtain ⟨_, first, seat, spelled, below⟩ := wf.below_child upperHere there begins
        rw [linked] at seat
        cases seat
        rw [spelled.unique ⟨node, found, rfl⟩] at below
        exact done other letters there below
      by_cases turn : upper.link false = some id ∧ (upper.link true).isSome
      · obtain ⟨right, isRight⟩ := isSome_iff_exists.mp turn.2
        have left : side = false := by
          cases side with
          | false => rfl
          | true =>
            have fork :=
              wf.tree.slot_unique prefixOrder ((slot_of_node upperHere false).trans turn.1)
              ((slot_of_node upperHere true).trans linked)
            cases fork
        subst left
        refine ⟨some right, ?_, ?_⟩
        · simp only [climbLoop, found, isParent, upperHere, bind_eq_bind, bind_some, if_pos turn]
          rw [isRight]
        · obtain ⟨first, spelled, begins⟩ := wf.child_word upperHere isRight
          refine ⟨first, spelled, lt_of_fork Bool.false_lt_true (hangs.trans covers) begins, ?_⟩
          intro other letters there later
          by_cases inside : upper.p.bits <+: letters
          · have apart : upper.p.bits ≠ letters := by
              intro same
              rw [← same] at later
              exact absurd later
                (not_lt.mpr (le_of_begins ((prefix_append _ _).trans (hangs.trans covers))))
            obtain ⟨place, below⟩ := exists_side inside apart
            cases place with
            | false => exact absurd later (sided other letters there below)
            | true =>
              obtain ⟨_, top, seat, spelledTop, below⟩ := wf.below_child upperHere there below
              rw [isRight] at seat
              cases seat
              rw [spelledTop.unique spelled] at below
              exact le_of_begins below
          · rcases before_or_behind inside with before | after
            · have stem : upper.p.bits ≤ word :=
                le_of_begins ((prefix_append _ _).trans (hangs.trans covers))
              exact absurd (lt_of_lt_of_le before stem) (lt_asymm later)
            · exact le_of_lt (after first ((prefix_append _ _).trans begins))
      · have step : climbLoop table (fuel + 1) id = climbLoop table fuel owner := by
          simp only [climbLoop, found, isParent, upperHere, bind_eq_bind, bind_some, if_neg turn]
        rw [step]
        have shorter : upper.p.prefixlen < node.p.prefixlen := above.1
        refine ih upperHere (by omega) ((prefix_append _ _).trans (hangs.trans covers)) ?_
        intro other letters there below later
        have apart : upper.p.bits ≠ letters := by
          intro same
          rw [← same] at later
          exact absurd later
            (not_lt.mpr (le_of_begins ((prefix_append _ _).trans (hangs.trans covers))))
        obtain ⟨place, begins⟩ := exists_side below apart
        by_cases same : place = side
        · exact sided other letters there (same ▸ begins) later
        · cases side with
          | true =>
            rw [Bool.not_eq_true] at same
            rw [same] at begins
            exact absurd (lt_of_fork Bool.false_lt_true begins (hangs.trans covers))
              (lt_asymm later)
          | false =>
            rw [Bool.not_eq_false] at same
            obtain ⟨_, _, seat, _⟩ := wf.below_child upperHere there (same ▸ begins)
            exact turn ⟨linked, by rw [seat]; rfl⟩

theorem Wellformed.nextOf_next {id node}
    (found : table.nodes id = some node) :
    ∃ result, table.nextOf id = some result ∧ table.NextIn node.p.bits result := by
  cases left : node.link false with
  | some child =>
    refine ⟨some child, by simp [nextOf, found, left],
      wf.next_child found left fun side => nomatch side⟩
  | none =>
    cases right : node.link true with
    | some child =>
      exact ⟨some child, by simp [nextOf, found, left, right],
      wf.next_child found right fun _ => left⟩
    | none =>
      obtain ⟨result, ran, next⟩ :=
          wf.climb_next (node.p.prefixlen + 1) found (Nat.lt_succ_self _) prefix_rfl (by
        intro other letters there below later
        obtain ⟨side, begins⟩ := exists_side below (ne_of_lt later)
        obtain ⟨_, _, seat, _⟩ := wf.below_child found there begins
        cases side with
        | false => rw [left] at seat; cases seat
        | true => rw [right] at seat; cases seat)
      exact ⟨result, by simp [nextOf, found, left, right, ran], next⟩

end

/-- One more lock on a node. -/
def hold (table : RouteTable Info) (id : NodeId) : RouteTable Info :=
  { table with nodes := update table.nodes id
                 ((table.nodes id).map fun node => { node with lock := node.lock + 1 }) }

theorem nodes_hold_self {id node} (found : table.nodes id = some node) :
    (table.hold id).nodes id = some { node with lock := node.lock + 1 } := by
  rw [hold, found]
  exact update_self ..

theorem nodes_hold_ne {id other} (apart : other ≠ id) :
    (table.hold id).nodes other = table.nodes other :=
  update_of_ne apart ..

theorem hold_comm (first second : NodeId) :
    (table.hold first).hold second = (table.hold second).hold first := by
  by_cases same : first = second
  · rw [same]
  · have other := Ne.symm same
    simp only [hold, update_of_ne same, update_of_ne other]
    rw [update_comm same]

theorem routeLockNode_hold {id node} (found : table.nodes id = some node) :
    table.routeLockNode id = some (table.hold id) := by
  rw [routeLockNode, hold, found]
  rfl

theorem Wellformed.hold (wf : table.Wellformed) {id node}
    (found : table.nodes id = some node) : (table.hold id).Wellformed := by
  obtain ⟨result, ran, held, _⟩ := wf.lock found
  rw [routeLockNode_hold found] at ran
  cases ran
  exact held

/-- Giving back the lock taken last changes nothing: a node without locks has two children. -/
theorem Wellformed.unlock_hold (wf : table.Wellformed) {id node}
    (found : table.nodes id = some node) : (table.hold id).routeUnlockNode id = some table := by
  have restored : (table.hold id).put id { node with lock := node.lock } = table := by
    cases table
    simp only [RouteTable.hold, put, update_idem, mk.injEq, true_and, and_true]
    rw [← found]
    exact update_eq_self id _
  rw [routeUnlockNode, nodes_hold_self found]
  simp only [bind_eq_bind, bind_some, Nat.succ_ne_zero, if_false, Nat.add_sub_cancel, restored]
  split
  · rename_i unlocked
    obtain ⟨bare, both⟩ := wf.glued id node.p node.info (by rw [status_of_node found, unlocked])
    simp only [slot_of_node found] at both
    simp only [routeNodeDelete, found, bind_eq_bind, bind_some, unlocked, bare]
    simp [both]
  · rfl

/-- What `route_next` follows: no lock is part of it. -/
def SamePaths (first second : RouteTable Info) : Prop :=
  ∀ id, (first.nodes id).map (fun node => (node.p, node.parent, node.link)) =
    (second.nodes id).map fun node => (node.p, node.parent, node.link)

theorem samePaths_hold (id : NodeId) : SamePaths (table.hold id) table := by
  intro other
  by_cases same : other = id
  · subst same
    have here : (table.hold other).nodes other =
        (table.nodes other).map fun node => { node with lock := node.lock + 1 } := update_self ..
    rw [here, Option.map_map]
    rfl
  · rw [nodes_hold_ne same]

section
variable (same : SamePaths first second)
include same

theorem SamePaths.node (id : NodeId) :
    first.nodes id = none ∧ second.nodes id = none ∨ ∃ left right, first.nodes id = some left ∧
      second.nodes id = some right ∧ left.p = right.p ∧ left.parent = right.parent ∧
      left.link = right.link := by
  have here := same id
  cases left : first.nodes id with
  | none =>
    rw [left, map_none, eq_comm, map_eq_none_iff] at here
    exact .inl ⟨rfl, here⟩
  | some node =>
    rw [left, map_some, eq_comm, map_eq_some_iff] at here
    obtain ⟨other, found, parts⟩ := here
    simp only [Prod.mk.injEq] at parts
    exact .inr ⟨node, other, rfl, found, parts.1.symm, parts.2.1.symm, parts.2.2.symm⟩

theorem SamePaths.climbLoop (fuel : Nat) (id : NodeId) :
    first.climbLoop fuel id = second.climbLoop fuel id := by
  induction fuel generalizing id with
  | zero => rfl
  | succ fuel ih =>
    rw [RouteTable.climbLoop, RouteTable.climbLoop]
    rcases same.node id with ⟨left, right⟩ | ⟨left, right, foundLeft, foundRight, _, parents, _⟩
    · rw [left, right]
      rfl
    · rw [foundLeft, foundRight]
      simp only [bind_eq_bind, bind_some, parents]
      cases right.parent with
      | none => rfl
      | some owner =>
        rcases same.node owner with
          ⟨gone, also⟩ | ⟨upper, other, foundUpper, foundOther, _, _, links⟩
        · simp only [gone, also, bind_none]
        · simp only [foundUpper, foundOther, links, bind_some, ih]

theorem SamePaths.nextOf (id : NodeId) : first.nextOf id = second.nextOf id := by
  rw [RouteTable.nextOf, RouteTable.nextOf]
  rcases same.node id with ⟨left, right⟩ | ⟨left, right, foundLeft, foundRight, prefixes, _, links⟩
  · rw [left, right]
    rfl
  · rw [foundLeft, foundRight]
    simp only [bind_eq_bind, bind_some, prefixes, links, same.climbLoop]

end

/-- A table in which a result is locked, if there is one. -/
def holding (table : RouteTable Info) : Option NodeId → RouteTable Info
  | some id => table.hold id
  | none => table

theorem Wellformed.routeNext (wf : table.Wellformed) {id node}
    (found : table.nodes id = some node) :
    ∃ result, (table.hold id).routeNext id = some (table.holding result, result) ∧
      table.NextIn node.p.bits result := by
  obtain ⟨result, moves, next⟩ := wf.nextOf_next found
  have same : (table.hold id).nextOf id = some result := ((samePaths_hold id).nextOf id).trans moves
  refine ⟨result, ?_, next⟩
  rw [RouteTable.routeNext, same]
  cases result with
  | none =>
    simp only [bind_eq_bind, bind_some, wf.unlock_hold found]
    rfl
  | some other =>
    obtain ⟨first, ⟨otherNode, otherFound, rfl⟩, later, _⟩ := next
    have apart : other ≠ id := by
      intro equal
      rw [equal, found] at otherFound
      cases otherFound
      exact lt_irrefl _ later
    have there : (table.hold id).nodes other = some otherNode :=
      (nodes_hold_ne apart).trans otherFound
    have here : (table.hold other).nodes id = some node :=
      (nodes_hold_ne (Ne.symm apart)).trans found
    simp only [bind_eq_bind, bind_some, routeLockNode_hold there, hold_comm id other,
      (wf.hold otherFound).unlock_hold here]
    rfl

section Behind
variable (before : List Bool → List Bool → Prop) [DecidableRel before]

/-- The nodes behind a word, in the given order. -/
def behind (table : RouteTable Info) (word : List Bool) : Finset NodeId :=
  (Finset.range table.fresh).filter fun id => (table.nodes id).any fun node =>
    decide (before word node.p.bits)

theorem behind_card_le (word : List Bool) : (table.behind before word).card ≤ table.fresh :=
  (card_filter_le ..).trans_eq (card_range _)

variable {before}
variable (wf : table.Wellformed) {id : NodeId} {node : RouteNode Info}
  (found : table.nodes id = some node)
include wf found

theorem Wellformed.mem_behind {word} : id ∈ table.behind before word ↔ before word node.p.bits := by
  rw [behind, Finset.mem_filter, Finset.mem_range, found, any_some, decide_eq_true_iff]
  exact and_iff_right (wf.live_lt found)

theorem Wellformed.behind_card_lt [IsStrictTotalOrder (List Bool) before] :
    (table.behind before node.p.bits).card < table.fresh := by
  refine (card_lt_card ⟨filter_subset _ _, fun all => ?_⟩).trans_eq (card_range _)
  have member := all (Finset.mem_range.mpr (wf.live_lt found))
  exact irrefl_of before _ ((wf.mem_behind found).mp member)

theorem Wellformed.behind_lt [IsStrictTotalOrder (List Bool) before] {word}
    (later : before word node.p.bits) :
    (table.behind before node.p.bits).card < (table.behind before word).card := by
  refine card_lt_card ⟨fun other member => ?_, fun all => ?_⟩
  · rw [behind, Finset.mem_filter, Option.any_eq_true] at member ⊢
    obtain ⟨live, otherNode, otherFound, behind⟩ := member
    exact ⟨live, otherNode, otherFound,
      decide_eq_true (trans_of before later (of_decide_eq_true behind))⟩
  · have member := all ((wf.mem_behind found).mpr later)
    exact irrefl_of before _ ((wf.mem_behind found).mp member)

end Behind

theorem spelled_hold {id other} : (table.hold id).Spelled other word ↔
    table.Spelled other word := by
  by_cases same : other = id
  · subst same
    have here : (table.hold other).nodes other =
        (table.nodes other).map fun node => { node with lock := node.lock + 1 } := update_self ..
    constructor
    · rintro ⟨node, found, rfl⟩
      rw [here, map_eq_some_iff] at found
      obtain ⟨before, present, rfl⟩ := found
      exact ⟨before, present, rfl⟩
    · rintro ⟨node, found, rfl⟩
      exact ⟨_, nodes_hold_self found, rfl⟩
  · rw [Spelled, Spelled, nodes_hold_ne same]

end RouteTable
end Zebra
