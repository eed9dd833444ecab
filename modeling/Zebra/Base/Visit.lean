import Mathlib.Data.List.Basic
import Mathlib.Logic.Relation

/-! A depth-first walk. A vertex is handled, then each child that is not marked yet is walked and
marked. -/
namespace Zebra.Base
open List Option

universe u w x
variable {V : Type u} {S : Type w} [DecidableEq V]

/-- The walk from a vertex: what is marked, and what the handling has made so far. -/
def visit (children : V → List V) (handle : S → V → S) : Nat → V → List V × S → Option (List V × S)
  | 0, _, _ => none
  | fuel + 1, v, (marked, s) =>
    (children v).foldlM (fun (state : List V × S) child =>
      if child ∈ state.1 then some state
      else (visit children handle fuel child state).map fun (marked, s) => (child :: marked, s))
        (marked, handle s v)

/-- The next child in the loop of a walk. -/
def visitChild (children : V → List V) (handle : S → V → S) (fuel : Nat) (state : List V × S)
    (child : V) : Option (List V × S) :=
  if child ∈ state.1 then some state
  else (visit children handle fuel child state).map fun (marked, s) => (child :: marked, s)

variable {children : V → List V} {handle : S → V → S}

theorem visit_succ (fuel : Nat) (v : V) (state : List V × S) :
    visit children handle (fuel + 1) v state =
      (children v).foldlM (visitChild children handle fuel) (state.1, handle state.2 v) := rfl

section Map
variable {T : Type x} {handle' : T → V → T} (image : S → T)

theorem foldlM_visitChild_map {fuel}
    (walk : ∀ v marked s, visit children handle' fuel v (marked, image s) =
      (visit children handle fuel v (marked, s)).map fun state => (state.1, image state.2))
    (rest : List V) (marked : List V) (s : S) :
    rest.foldlM (visitChild children handle' fuel) (marked, image s) =
      (rest.foldlM (visitChild children handle fuel) (marked, s)).map fun state =>
        (state.1, image state.2) := by
  induction rest generalizing marked s with
  | nil => rfl
  | cons child rest ih =>
    rw [foldlM_cons, foldlM_cons, visitChild, visitChild]
    by_cases old : child ∈ marked
    · rw [if_pos old, if_pos old]
      exact ih marked s
    · rw [if_neg old, if_neg old, walk]
      cases visit children handle fuel child (marked, s) with
      | none => rfl
      | some state => exact ih (child :: state.1) state.2

theorem visit_map (same : ∀ s v, handle' (image s) v = image (handle s v)) (fuel : Nat) (v : V)
    (marked : List V) (s : S) :
    visit children handle' fuel v (marked, image s) =
      (visit children handle fuel v (marked, s)).map fun state => (state.1, image state.2) := by
  induction fuel generalizing v marked s with
  | zero => rfl
  | succ fuel ih =>
    rw [visit_succ, visit_succ]
    rw [same]
    exact foldlM_visitChild_map image ih (children v) marked (handle s v)

end Map

/-- The vertices in the order in which they are handled. -/
def visitOrder (children : V → List V) (fuel : Nat) (v : V) (marked : List V) :
    Option (List V × List V) :=
  visit children (fun order v => order ++ [v]) fuel v (marked, [])

theorem visit_order (fuel : Nat) (v : V) (marked : List V) (s : S) :
    visit children handle fuel v (marked, s) =
      (visitOrder children fuel v marked).map fun state => (state.1, state.2.foldl handle s) :=
  visit_map (fun order => order.foldl handle s) (fun _ _ => (foldl_concat ..).symm) fuel v marked []

/-- A way along children. -/
def Reach (children : V → List V) : V → V → Prop :=
  Relation.ReflTransGen fun v child => child ∈ children v

/-- What a walk has done, which handled the vertices of an order. -/
structure Visited (children : V → List V) (v : V) (before after order : List V) : Prop where
  start : v ∈ order
  reached : ∀ u ∈ order, Reach children v u
  kept : ∀ u ∈ before, u ∈ after
  marked : ∀ u ∈ after, u ∈ before ∨ u ∈ order
  closed : ∀ u ∈ order, ∀ child ∈ children u, child ∈ after

/-- What the loop over some children has done. -/
structure WalkedAll (children : V → List V) (v : V) (rest before after order : List V) : Prop where
  reached : ∀ u ∈ order, Reach children v u
  kept : ∀ u ∈ before, u ∈ after
  marked : ∀ u ∈ after, u ∈ before ∨ u ∈ order
  closed : ∀ u ∈ order, ∀ child ∈ children u, child ∈ after
  all : ∀ child ∈ rest, child ∈ after

theorem passed_loop {fuel v}
    (walk : ∀ child before after order result, visit children
      (fun order v => order ++ [v]) fuel child (before, order) = some (after, result) →
      ∃ more, result = order ++ more ∧ Visited children child before after more)
    (rest : List V) (listed : ∀ child ∈ rest, child ∈ children v)
    (before after order result : List V)
    (done : rest.foldlM (visitChild children (fun order v => order ++ [v]) fuel) (before, order) =
      some (after, result)) :
    ∃ more, result = order ++ more ∧ WalkedAll children v rest before after more := by
  induction rest generalizing before order with
  | nil =>
    cases done
    refine ⟨[], (append_nil _).symm, ?_⟩
    exact ⟨nofun, fun u member => member, fun u member => .inl member, nofun, nofun⟩
  | cons child rest ih =>
    have inRest : ∀ other ∈ rest, other ∈ children v :=
      fun other member => listed other (.tail _ member)
    rw [foldlM_cons, visitChild] at done
    by_cases old : child ∈ before
    · rw [if_pos old] at done
      obtain ⟨more, same, passed⟩ := ih inRest before order done
      refine ⟨more, same, passed.reached, passed.kept, passed.marked, passed.closed,
        fun other member => ?_⟩
      rcases mem_cons.mp member with rfl | member
      · exact passed.kept other old
      · exact passed.all other member
    · rw [if_neg old] at done
      cases first : visit children (fun order v => order ++ [v]) fuel child (before, order) with
      | none =>
        rw [first] at done
        cases done
      | some state =>
        obtain ⟨between, sofar⟩ := state
        rw [first] at done
        obtain ⟨front, rfl, visited⟩ := walk child before between order sofar first
        obtain ⟨more, same, passed⟩ := ih inRest (child :: between) (order ++ front) done
        have down := Relation.ReflTransGen.single (r := fun v child => child ∈ children v)
          (listed child mem_cons_self)
        refine ⟨front ++ more, same.trans (append_assoc ..), ?_, ?_, ?_, ?_, ?_⟩
        · intro u member
          rcases mem_append.mp member with here | later
          · exact down.trans (visited.reached u here)
          · exact passed.reached u later
        · intro u member
          exact passed.kept u (.tail _ (visited.kept u member))
        · intro u member
          rcases passed.marked u member with old | new
          · rcases mem_cons.mp old with rfl | old
            · exact .inr (mem_append_left _ visited.start)
            · exact (visited.marked u old).imp_right (mem_append_left _)
          · exact .inr (mem_append_right _ new)
        · intro u member other inside
          rcases mem_append.mp member with here | later
          · exact passed.kept other (.tail _ (visited.closed u here other inside))
          · exact passed.closed u later other inside
        · intro other member
          rcases mem_cons.mp member with rfl | member
          · exact passed.kept other mem_cons_self
          · exact passed.all other member

theorem visited_walk (fuel : Nat) (v : V) (before after order result : List V)
    (done : visit children (fun order v => order ++ [v]) fuel v (before, order) =
      some (after, result)) :
    ∃ more, result = order ++ more ∧ Visited children v before after more := by
  induction fuel generalizing v before after order result with
  | zero => cases done
  | succ fuel ih =>
    obtain ⟨more, same, passed⟩ := passed_loop (v := v) ih (children v)
      (fun _ member => member) before after (order ++ [v]) result done
    refine ⟨v :: more, same.trans (append_assoc ..), mem_cons_self, ?_, passed.kept, ?_, ?_⟩
    · intro u member
      rcases mem_cons.mp member with rfl | member
      · exact .refl
      · exact passed.reached u member
    · intro u member
      exact (passed.marked u member).imp_right (.tail _)
    · intro u member child inside
      rcases mem_cons.mp member with rfl | member
      · exact passed.all child inside
      · exact passed.closed u member child inside

/-- A walk with nothing marked handles what can be reached. -/
theorem mem_visitOrder {fuel v after order}
    (done : visitOrder children fuel v [] = some (after, order)) (u : V) :
    u ∈ order ↔ Reach children v u := by
  obtain ⟨more, rfl, visited⟩ := visited_walk fuel v [] after [] order done
  refine ⟨visited.reached u, fun way => ?_⟩
  induction way with
  | refl => exact visited.start
  | tail _ last ih => exact (visited.marked _ (visited.closed _ ih _ last)).resolve_left not_mem_nil

/-- Children are lower than their vertex, among the vertices that count. -/
def Lowers (children : V → List V) (counts : V → Prop) (rank : V → Nat) : Prop :=
  ∀ v, counts v → ∀ child ∈ children v, counts child ∧ rank child < rank v

theorem visit_ends {counts rank} (lowers : Lowers children counts rank) (fuel : Nat) (v : V)
    (inside : counts v)
    (enough : rank v < fuel) (state : List V × S) :
    (visit children handle fuel v state).isSome := by
  induction fuel generalizing v state with
  | zero => cases enough
  | succ fuel ih =>
    have loop (rest : List V) (listed : ∀ child ∈ rest, child ∈ children v) (state : List V × S) :
        (rest.foldlM (visitChild children handle fuel) state).isSome := by
      induction rest generalizing state with
      | nil => rfl
      | cons child rest each =>
        have later := each fun other member => listed other (.tail _ member)
        rw [foldlM_cons, visitChild]
        by_cases old : child ∈ state.1
        · rw [if_pos old]
          exact later state
        · obtain ⟨counted, lower⟩ := lowers v inside child (listed child mem_cons_self)
          obtain ⟨next, walked⟩ := isSome_iff_exists.mp (ih child counted (by omega) state)
          rw [if_neg old, walked]
          exact later _
    exact loop (children v) (fun _ member => member) _

theorem visit_mono {fuel more} (bound : fuel ≤ more) {v state result}
    (done : visit children handle fuel v state = some result) :
    visit children handle more v state = some result := by
  induction fuel generalizing more v state result with
  | zero => cases done
  | succ fuel ih =>
    obtain ⟨less, rfl⟩ := Nat.exists_eq_add_of_le' bound
    have loop (rest : List V) (state result : List V × S)
        (done : rest.foldlM (visitChild children handle fuel) state = some result) :
        rest.foldlM (visitChild children handle (less + fuel)) state = some result := by
      induction rest generalizing state with
      | nil => exact done
      | cons child rest each =>
        obtain ⟨next, step, later⟩ := bind_eq_some_iff.mp done
        have step' : visitChild children handle (less + fuel) state child = some next := by
          rw [visitChild] at step ⊢
          by_cases old : child ∈ state.1
          · rwa [if_pos old] at step ⊢
          · rw [if_neg old] at step ⊢
            obtain ⟨walked, walk, same⟩ := map_eq_some_iff.mp step
            rw [ih (Nat.le_add_left fuel less) walk]
            exact congrArg some same
        exact bind_eq_some_iff.mpr ⟨next, step', each next later⟩
    exact loop (children v) _ result done

end Zebra.Base
