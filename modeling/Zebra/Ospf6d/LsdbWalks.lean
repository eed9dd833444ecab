import Zebra.Lib.TableRuns
import Zebra.Ospf6d.Lsdb

namespace Zebra.Ospf6d
open Function Base Base.LinkedTree Option RouteTable Prefix List
variable {Info : Type} {table : RouteTable Info}

/-- The node next to a word, in the given order, if there is one. -/
def Beside (table : RouteTable Info) (before : List Bool → List Bool → Prop) (word : List Bool) :
    Option NodeId → Prop
  | none => ∀ id node, table.nodes id = some node → ¬ before word node.p.bits
  | some next => ∃ found, table.nodes next = some found ∧ before word found.p.bits ∧
      ∀ id node, table.nodes id = some node → before word node.p.bits →
        ¬ before node.p.bits found.p.bits

theorem beside_next {word result} (next : table.NextIn word result) :
    Beside table (· < ·) word result := by
  cases result with
  | none => exact fun id node found => next id _ ⟨node, found, rfl⟩
  | some id =>
    obtain ⟨_, ⟨node, found, rfl⟩, later, first⟩ := next
    exact ⟨node, found, later, fun other otherNode present behind =>
      not_lt.mpr (first other _ ⟨otherNode, present, rfl⟩ behind)⟩

section
variable (wf : table.Wellformed)
include wf

theorem prevLoop_spec {last lastNode} (lastFound : table.nodes last = some lastNode)
    (fuel : Nat) {id node}
    (found : table.nodes id = some node) (earlier : node.p.bits < lastNode.p.bits)
    (enough : (table.behind (· < ·) node.p.bits).card < fuel) :
    ∃ prev, prevLoop last fuel (table.hold id) id = some (table, prev) ∧
      Beside table (· > ·) lastNode.p.bits (some prev) := by
  induction fuel generalizing id node with
  | zero => omega
  | succ fuel ih =>
    obtain ⟨result, ran, next⟩ := wf.routeNext found
    rw [prevLoop, ran]
    cases result with
    | none => exact absurd earlier (next last _ ⟨lastNode, lastFound, rfl⟩)
    | some after =>
      obtain ⟨_, ⟨afterNode, afterFound, rfl⟩, later, first⟩ := next
      by_cases same : after = last
      · subst same
        rw [lastFound] at afterFound
        cases afterFound
        refine ⟨id, ?_, node, found, earlier, fun other otherNode present front behind => ?_⟩
        · simp only [bind_eq_bind, bind_some, if_pos, holding, wf.unlock_hold lastFound]
          rfl
        · exact absurd front (not_lt.mpr (first other _ ⟨otherNode, present, rfl⟩ behind))
      · have before : afterNode.p.bits < lastNode.p.bits := by
          refine lt_of_le_of_ne (first last _ ⟨lastNode, lastFound, rfl⟩ earlier)
            fun equal => same ?_
          exact wf.prefix_unique afterFound lastFound (bits_eq.mp equal)
        have fewer : (table.behind (· < ·) afterNode.p.bits).card <
            (table.behind (· < ·) node.p.bits).card :=
          wf.behind_lt afterFound later
        obtain ⟨prev, finished, beside⟩ := ih afterFound before (by omega)
        refine ⟨prev, ?_, beside⟩
        simp only [bind_eq_bind, bind_some, if_neg same, holding, finished]

theorem routePrev_spec {id node} (found : table.nodes id = some node) :
    ∃ result, routePrev (table.hold id) id = some (table.holding result, result) ∧
      Beside table (· > ·) node.p.bits result := by
  have here := nodes_hold_self found
  rcases wf.seat_of found with
    ⟨orphan, stored⟩ | ⟨owner, upper, side, isParent, upperHere, linked, above⟩
  · refine ⟨none, ?_, fun other otherNode present front => ?_⟩
    · simp only [routePrev, here, bind_eq_bind, bind_some, orphan, wf.unlock_hold found]
      rfl
    · have below := root_begins spelling wf.tree stored (spelled_links.mpr ⟨node, found, rfl⟩)
        (spelled_links.mpr ⟨otherNode, present, rfl⟩)
      exact absurd front (not_lt.mpr (le_of_begins below))
  · have apart : owner ≠ id := by
      rintro rfl
      rw [found] at upperHere
      cases upperHere
      exact lt_irrefl _ above.1
    have begins : upper.p.bits ++ [side] <+: node.p.bits := above_iff.mp above
    have proper : upper.p.bits ≠ node.p.bits := by
      intro same
      have length := begins.length_le
      rw [← same, length_append, length_singleton] at length
      omega
    have earlier : upper.p.bits < node.p.bits :=
      lt_of_proper ((prefix_append _ _).trans begins) proper
    have held : (table.hold id).nodes owner = some upper := (nodes_hold_ne apart).trans upperHere
    obtain ⟨prev, ran, prevNode, prevFound, front, nearest⟩ := prevLoop_spec (wf.hold found) here
      (table.fresh + 1) held earlier (Nat.lt_succ_of_le (behind_card_le ..))
    obtain ⟨plain, plainFound, samePlain⟩ := spelled_hold.mp ⟨prevNode, prevFound, rfl⟩
    refine ⟨some prev, ?_, plain, plainFound, by
      rw [samePlain]; exact front, fun other otherNode present => ?_⟩
    · have fresh : ((table.hold id).hold owner).fresh = table.fresh := rfl
      simp only [routePrev, here, bind_eq_bind, bind_some, isParent, routeLockNode_hold held,
        fresh, ran, wf.unlock_hold found, routeLockNode_hold plainFound]
      rfl
    · obtain ⟨again, againFound, same⟩ := spelled_hold.mpr ⟨otherNode, present, rfl⟩
      rw [samePlain, ← same]
      exact nearest other again againFound

/-- A function moves a lock to the node next to its own. -/
def Moves (table : RouteTable Info) (before : List Bool → List Bool → Prop)
    (step : RouteTable Info → NodeId → Option (RouteTable Info × Option NodeId)) : Prop :=
  ∀ id node, table.nodes id = some node → ∃ result,
    step (table.hold id) id = some (table.holding result, result) ∧
    Beside table before node.p.bits result

theorem moves_next : Moves table (· < ·) routeNext := by
  intro id node found
  obtain ⟨result, ran, next⟩ := wf.routeNext found
  exact ⟨result, ran, beside_next next⟩

theorem moves_prev : Moves table (· > ·) routePrev :=
  fun _ _ found => routePrev_spec wf found

end

/-- Of the nodes with info at the words a search reaches, the first one. -/
def FirstInfo (table : RouteTable Info) (before : List Bool → List Bool → Prop)
    (reaches : List Bool → Prop) :
    Option NodeId → Prop
  | none => ∀ id node, table.nodes id = some node → node.info.isSome → ¬ reaches node.p.bits
  | some next => ∃ found, table.nodes next = some found ∧ found.info.isSome ∧ reaches found.p.bits ∧
      ∀ id node, table.nodes id = some node → node.info.isSome → reaches node.p.bits →
        ¬ before node.p.bits found.p.bits

theorem FirstInfo.congr {before} {reaches reaches' : List Bool → Prop}
    (further : ∀ other node, table.nodes other = some node → node.info.isSome →
      (reaches node.p.bits ↔ reaches' node.p.bits)) {result}
    (first : FirstInfo table before reaches result) : FirstInfo table before reaches' result := by
  cases result with
  | none =>
    exact fun other node present carries =>
    mt (further other node present carries).mpr (first other node present carries)
  | some last =>
    obtain ⟨node, found, carries, reached, least⟩ := first
    refine ⟨node, found, carries, (further last node found carries).mp reached, ?_⟩
    exact fun other node present full reaches =>
      least other node present full ((further other node present full).mpr reaches)

section Search
variable {before : List Bool → List Bool → Prop} [DecidableRel before]
  [IsStrictTotalOrder (List Bool) before]
  {step : RouteTable Info → NodeId → Option (RouteTable Info × Option NodeId)}

theorem skipBare_spec (wf : table.Wellformed) (moves : Moves table before step) (fuel : Nat) {id}
    {node} (found : table.nodes id = some node)
    (enough : (table.behind before node.p.bits).card + 1 < fuel) :
    ∃ result, skipBare step fuel (table.hold id) (some id) = some (table.holding result, result) ∧
      FirstInfo table before (fun word => ¬ before word node.p.bits) result := by
  induction fuel generalizing id node with
  | zero => omega
  | succ fuel ih =>
    rw [skipBare, nodes_hold_self found]
    simp only [bind_eq_bind, bind_some]
    by_cases full : node.info.isSome
    · rw [if_pos full]
      exact ⟨some id, rfl, node, found, full, irrefl_of before _, fun _ _ _ _ reached => reached⟩
    · rw [if_neg full]
      obtain ⟨result, ran, beside⟩ := moves id node found
      -- a node without info is passed over
      have passed : ∀ other otherNode, table.nodes other = some otherNode → otherNode.info.isSome →
          ¬ before otherNode.p.bits node.p.bits → before node.p.bits otherNode.p.bits := by
        intro other otherNode present carries reached
        rcases trichotomous_of before node.p.bits otherNode.p.bits with less | same | more
        · exact less
        · have equal := wf.prefix_unique found present (bits_eq.mp same)
          rw [equal, present] at found
          cases found
          exact absurd carries full
        · exact absurd more reached
      simp only [ran, bind_some]
      cases result with
      | none =>
        obtain ⟨fuel, rfl⟩ : ∃ smaller, fuel = smaller + 1 := ⟨fuel - 1, by omega⟩
        exact ⟨none, rfl, fun other otherNode present carries reached =>
          beside other otherNode present (passed other otherNode present carries reached)⟩
      | some next =>
        obtain ⟨nextNode, nextFound, later, nearest⟩ := beside
        have fewer := wf.behind_lt nextFound later
        obtain ⟨result, finished, first⟩ := ih nextFound (by omega)
        refine ⟨result, finished, first.congr fun other otherNode present carries => ?_⟩
        refine ⟨fun reached less => reached (trans_of before less later), fun reached => ?_⟩
        exact nearest other otherNode present (passed other otherNode present carries reached)

theorem besideInfo_spec (wf : table.Wellformed) (moves : Moves table before step) {id node}
    (found : table.nodes id = some node) :
    ∃ result, besideInfo step table id = some (table.holding result, result) ∧
      FirstInfo table before (fun word => before node.p.bits word) result := by
  obtain ⟨result, ran, beside⟩ := moves id node found
  simp only [besideInfo, routeLockNode_hold found, bind_eq_bind, bind_some, ran]
  cases result with
  | none => exact ⟨none, rfl, fun other otherNode present _ => beside other otherNode present⟩
  | some next =>
    obtain ⟨nextNode, nextFound, later, nearest⟩ := beside
    have fewer := wf.behind_lt nextFound later
    have all := table.behind_card_le before node.p.bits
    obtain ⟨result, finished, first⟩ :=
      skipBare_spec wf moves (table.fresh + 1) nextFound (by omega)
    refine ⟨result, finished, first.congr fun other otherNode present _ =>
      ⟨fun reached => ?_, nearest other otherNode present⟩⟩
    rcases trichotomous_of before nextNode.p.bits otherNode.p.bits with less | same | more
    · exact trans_of before later less
    · exact same ▸ later
    · exact absurd more reached

end Search

section Head
variable {key : Prefix} {node : RouteNode Info} {id : NodeId}

/-- A node with info inside a key. -/
def Inside (table : RouteTable Info) (key : Prefix) (word : List Bool) : Prop :=
  ∃ id node, table.nodes id = some node ∧ node.info.isSome ∧ node.p.bits = word ∧
    key.bits <+: word ∧ key.bits ≠ word

/-- Where a walk for a key ends: in front of everything inside the key, and not in front of the
  key. -/
def Starts (table : RouteTable Info) (key : Prefix) (result : Option NodeId) : Prop :=
  (∀ id, result = some id → table.nodes id ≠ none) ∧ ∀ word, Inside table key word →
    ∃ id node, result = some id ∧ table.nodes id = some node ∧ key.bits ≤ node.p.bits ∧
      node.p.bits ≤ word

theorem starts_outside (found : table.nodes id = some node) (outside : ¬ node.p.Covers key)
    (begins : ∀ word, Inside table key word → node.p.bits <+: word) :
    Starts table key (some id) := by
  refine ⟨fun other same => ?_, fun word inside =>
    ⟨id, node, rfl, found, ?_, le_of_begins (begins word inside)⟩⟩
  · cases same
    rw [found]
    exact nofun
  · have stem := begins word inside
    obtain ⟨_, _, _, _, _, below, _⟩ := inside
    rcases prefix_or_prefix_of_prefix stem below with short | long
    · exact absurd (bits_begins.mp short) outside
    · exact le_of_begins long

theorem starts_left (wf : table.Wellformed) (found : table.nodes id = some node)
    (same : node.p.bits = key.bits)
    (glue : node.lock = 0) : Starts table key (node.link false) := by
  obtain ⟨bare, left, right⟩ := wf.represents.glue found glue
  obtain ⟨child, linked⟩ := isSome_iff_exists.mp left
  obtain ⟨first, ⟨childNode, childFound, rfl⟩, begins⟩ := wf.child_word found linked
  rw [linked]
  refine ⟨fun other equal => ?_, fun word inside => ⟨child, childNode, rfl, childFound, ?_, ?_⟩⟩
  · cases equal
    rw [childFound]
    exact nofun
  · rw [← same]
    exact le_of_begins ((prefix_append _ _).trans begins)
  · obtain ⟨other, otherNode, present, _, rfl, below, proper⟩ := inside
    rw [← same] at below proper
    obtain ⟨side, further⟩ := exists_side below proper
    cases side with
    | false =>
      obtain ⟨_, top, seat, spelled, covers⟩ :=
        wf.below_child found ⟨otherNode, present, rfl⟩ further
      rw [linked] at seat
      cases seat
      rw [spelled.unique ⟨childNode, childFound, rfl⟩] at covers
      exact le_of_begins covers
    | true => exact le_of_lt (lt_of_fork Bool.false_lt_true begins further)

section
variable (wf : table.Wellformed) (ends : key.bit key.prefixlen = false)
  (glue : ∀ id node, table.nodes id = some node → node.p.bits = key.bits → node.lock = 0)
include wf ends glue

theorem walkDown_spec (fuel : Nat) (found : table.nodes id = some node)
    (enough : key.prefixlen + 1 - node.p.prefixlen < fuel)
    (begins : ∀ word, Inside table key word → node.p.bits <+: word) :
    ∃ result, walkDown table key fuel (some id) = some result ∧ Starts table key result := by
  induction fuel generalizing id node with
  | zero => omega
  | succ fuel ih =>
    rw [walkDown, found]
    simp only [bind_eq_bind, bind_some]
    by_cases covers : node.p.Covers key
    · rw [if_pos ((walk_test_iff node.p key).mpr covers), checkBit_eq]
      have short := covers.1
      obtain ⟨fuel, rfl⟩ : ∃ smaller, fuel = smaller + 1 := ⟨fuel - 1, by omega⟩
      by_cases level : node.p.prefixlen = key.prefixlen
      · have same : node.p.bits = key.bits := bits_eq.mpr ⟨level, covers.2⟩
        have left : bitAt key.octets node.p.prefixlen = false := by
          rw [level]
          exact ends
        have starts := starts_left wf found same (glue id node found same)
        rw [left]
        cases linked : node.link false with
        | none => exact ⟨none, rfl, linked ▸ starts⟩
        | some child =>
          obtain ⟨_, ⟨childNode, childFound, rfl⟩, longer⟩ := wf.child_word found linked
          have length := longer.length_le
          rw [length_append, length_bits, length_bits, length_singleton] at length
          refine ⟨some child, ?_, linked ▸ starts⟩
          have outside :
              ¬ (childNode.p.prefixlen ≤ key.prefixlen ∧ prefixMatch childNode.p key = true) :=
            fun both => by omega
          simp only [walkDown, childFound, bind_eq_bind, bind_some, if_neg outside]
          rfl
      · have above : node.p.Above (bitAt key.octets node.p.prefixlen) key :=
          ⟨by omega, covers.2, rfl⟩
        have further := above_iff.mp above
        cases linked : node.link (bitAt key.octets node.p.prefixlen) with
        | none =>
          refine ⟨none, rfl, nofun, fun word inside => ?_⟩
          obtain ⟨other, otherNode, present, _, rfl, below, _⟩ := inside
          obtain ⟨_, _, seat, _⟩ :=
            wf.below_child found ⟨otherNode, present, rfl⟩ (further.trans below)
          rw [linked] at seat
          cases seat
        | some child =>
          obtain ⟨_, ⟨childNode, childFound, rfl⟩, longer⟩ := wf.child_word found linked
          have length := longer.length_le
          rw [length_append, length_bits, length_bits, length_singleton] at length
          refine ih childFound (by omega) fun word inside => ?_
          obtain ⟨other, otherNode, present, _, rfl, below, _⟩ := inside
          obtain ⟨_, top, seat, spelled, under⟩ :=
            wf.below_child found ⟨otherNode, present, rfl⟩ (further.trans below)
          rw [linked] at seat
          cases seat
          rwa [spelled.unique ⟨childNode, childFound, rfl⟩] at under
    · rw [if_neg (mt (walk_test_iff node.p key).mp covers)]
      exact ⟨some id, rfl, starts_outside found covers begins⟩

theorem walkDown_top :
    ∃ result, walkDown table key (key.prefixlen + 2) table.top = some result ∧
      Starts table key result := by
  cases top : table.top with
  | none =>
    refine ⟨none, rfl, nofun, fun word inside => ?_⟩
    obtain ⟨id, node, found, _⟩ := inside
    obtain ⟨root, _, present, _⟩ := wf.top_begins found
    rw [top] at present
    cases present
  | some root =>
    obtain ⟨rootNode, rootFound, _⟩ := wf.represents.top.mp top
    refine walkDown_spec wf ends glue _ rootFound (by omega) fun word inside => ?_
    obtain ⟨id, node, found, _, rfl, _⟩ := inside
    obtain ⟨_, _, present, again, begins⟩ := wf.top_begins found
    rw [top] at present
    cases present
    rw [rootFound] at again
    cases again
    exact begins

end

theorem starts_top (wf : table.Wellformed) (everything : key.bits = []) :
    Starts table key table.top := by
  refine ⟨fun id top => ?_, fun word inside => ?_⟩
  · obtain ⟨node, found, _⟩ := wf.represents.top.mp top
    rw [found]
    exact nofun
  · obtain ⟨id, node, found, _, rfl, _⟩ := inside
    obtain ⟨root, rootNode, top, rootFound, begins⟩ := wf.top_begins found
    exact ⟨root, rootNode, top, rootFound, everything ▸ le_of_begins nil_prefix,
      le_of_begins begins⟩

/-- The node the head functions end at: the first one inside the key, unless nothing is inside. -/
def Heads (table : RouteTable Info) (key : Prefix) : Option NodeId → Prop
  | none => ∀ word, ¬ Inside table key word
  | some id => ∃ node, table.nodes id = some node ∧ node.info.isSome ∧
      (key.bits <+: node.p.bits → ∀ word, Inside table key word → node.p.bits ≤ word) ∧
      (¬ key.bits <+: node.p.bits → ∀ word, ¬ Inside table key word)

theorem head_of_start (wf : table.Wellformed) {start} (starts : Starts table key start) :
    ∃ held result, lockStart table start = some held ∧
      skipBare routeNext (held.fresh + 1) held start = some (table.holding result, result) ∧
      Heads table key result := by
  cases start with
  | none =>
    refine ⟨table, none, rfl, rfl, fun word inside => ?_⟩
    obtain ⟨_, _, absent, _⟩ := starts.2 word inside
    cases absent
  | some id =>
    obtain ⟨node, found⟩ := ne_none_iff_exists'.mp (starts.1 id rfl)
    obtain ⟨result, ran, first⟩ :=
      skipBare_spec wf (moves_next wf) ((table.hold id).fresh + 1) found
      (Nat.succ_lt_succ (wf.behind_card_lt found))
    refine ⟨table.hold id, result, routeLockNode_hold found, ran, ?_⟩
    -- what is inside the key is not in front of where the search starts
    have reached : ∀ word, Inside table key word → key.bits ≤ node.p.bits ∧ node.p.bits ≤ word := by
      intro word inside
      obtain ⟨_, _, same, present, behind, before⟩ := starts.2 word inside
      cases same
      rw [found] at present
      cases present
      exact ⟨behind, before⟩
    cases result with
    | none =>
      intro word inside
      have start := (reached word inside).2
      obtain ⟨other, otherNode, present, carries, rfl, _⟩ := inside
      exact first other otherNode present carries (not_lt.mpr start)
    | some last =>
      obtain ⟨lastNode, lastFound, carries, behind, least⟩ := first
      have ahead : ∀ word, Inside table key word → lastNode.p.bits ≤ word := by
        intro word inside
        have start := (reached word inside).2
        obtain ⟨other, otherNode, present, full, rfl, _⟩ := inside
        exact not_lt.mp (least other otherNode present full (not_lt.mpr start))
      refine ⟨lastNode, lastFound, carries, fun _ => ahead, fun outside word inside => outside ?_⟩
      have middle : key.bits ≤ lastNode.p.bits := (reached word inside).1.trans (not_lt.mp behind)
      have last := ahead word inside
      obtain ⟨_, _, _, _, _, below, _⟩ := inside
      exact begins_of_between below middle last

end Head
end Zebra.Ospf6d
