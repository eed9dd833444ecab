import Mathlib.Logic.Function.Basic
import Mathlib.Order.Lattice.Nat

/-! Walks from a root, and a search that settles the nearest vertex first. -/
namespace Zebra.Base
open Function
variable {Vertex : Type}

/-- A walk from the root, with the sum of its links. -/
inductive Walk (links : Vertex → List (Vertex × Nat)) (root : Vertex) : Vertex → Nat → Prop where
  | start : Walk links root root 0
  | step {vertex next : Vertex} {cost link : Nat} :
    Walk links root vertex cost → (next, link) ∈ links vertex → Walk links root next (cost + link)

/-- The least cost of a walk. -/
structure Nearest (links : Vertex → List (Vertex × Nat)) (root vertex : Vertex) (cost : Nat) :
    Prop where
  walk : Walk links root vertex cost
  least : ∀ other, Walk links root vertex other → cost ≤ other

theorem Walk.nearest {links : Vertex → List (Vertex × Nat)} {root vertex cost}
    (walk : Walk links root vertex cost) :
    ∃ least ≤ cost, Nearest links root vertex least :=
  ⟨_, Nat.sInf_le walk, Nat.sInf_mem ⟨cost, walk⟩, fun _ => Nat.sInf_le⟩

structure Cut (links : Vertex → List (Vertex × Nat)) (root last : Vertex)
    (pending : List (Vertex × Nat)) (tree near : Vertex → Option Nat) : Prop where
  rooted : tree root = some 0
  settled : ∀ vertex cost, tree vertex = some cost → Walk links root vertex cost
  reached : ∀ vertex cost, near vertex = some cost → Walk links root vertex cost
  apart : ∀ vertex cost, tree vertex = some cost → near vertex = none
  scanned : ∀ vertex cost, tree vertex = some cost → ∀ next link, (next, link) ∈ links vertex →
    vertex = last ∧ (next, link) ∈ pending ∨ ∃ found ≤ cost + link, tree next = some found ∨
      near next = some found
  ahead : ∀ vertex cost, tree vertex = some cost → ∀ other found, near other = some found →
    cost ≤ found
  latest : ∃ cost, tree last = some cost ∧ ∀ vertex found, tree vertex = some found → found ≤ cost

variable {links : Vertex → List (Vertex × Nat)} {root last vertex next : Vertex}
  {pending : List (Vertex × Nat)} {tree near : Vertex → Option Nat} {cost link : Nat}

theorem Cut.initial [DecidableEq Vertex] :
    Cut links root root (links root) (update (fun _ => none) root (some 0)) fun _ => none := by
  have only (vertex : Vertex) (cost : Nat)
      (here : update (fun _ => none) root (some 0) vertex = some cost) :
      vertex = root ∧ cost = 0 := by
    by_cases same : vertex = root
    · rw [same, update_self] at here
      exact ⟨same, (Option.some.inj here).symm⟩
    · rw [update_of_ne same] at here
      cases here
  refine ⟨update_self .., fun vertex cost here => ?_, fun _ _ missing => ?_, fun _ _ _ => rfl,
    fun vertex cost here next link listed => ?_, fun _ _ _ _ _ missing => ?_, 0, update_self .., ?_⟩
  · obtain ⟨rfl, rfl⟩ := only vertex cost here
    exact .start
  · cases missing
  · exact .inl ⟨(only vertex cost here).1, (only vertex cost here).1 ▸ listed⟩
  · cases missing
  · intro vertex found here
    exact Nat.le_of_eq (only vertex found here).2

section
variable (cut : Cut links root last ((next, link) :: pending) tree near)
  (here : tree last = some cost)
include cut here

theorem Cut.pass (enough : ∃ found ≤ cost + link, tree next = some found ∨ near next = some found)
    : Cut links root last pending tree near := by
  refine { cut with scanned := fun vertex at_cost settled other length listed => ?_ }
  rcases cut.scanned vertex at_cost settled other length listed with ⟨same, waits⟩ | done
  · rcases List.mem_cons.mp waits with first | rest
    · cases first
      rw [same, here] at settled
      cases settled
      exact .inr enough
    · exact .inl ⟨same, rest⟩
  · exact .inr done

theorem Cut.skip {found} (known : tree next = some found) :
    Cut links root last pending tree near := by
  obtain ⟨most, at_last, all⟩ := cut.latest
  rw [here] at at_last
  cases at_last
  exact cut.pass here ⟨found, Nat.le_add_right_of_le (all next found known), .inl known⟩

theorem Cut.approach [DecidableEq Vertex] (listed : (next, link) ∈ links last)
    (outside : tree next = none) (nearer : ∀ found, near next = some found → cost + link ≤ found) :
    Cut links root last pending tree (update near next (some (cost + link))) := by
  have moved (vertex : Vertex) (found : Nat)
      (at_near : update near next (some (cost + link)) vertex = some found) :
      vertex = next ∧ found = cost + link ∨ near vertex = some found := by
    by_cases same : vertex = next
    · rw [same, update_self] at at_near
      exact .inl ⟨same, (Option.some.inj at_near).symm⟩
    · rw [update_of_ne same] at at_near
      exact .inr at_near
  have placed : ∃ found ≤ cost + link, tree next = some found ∨
      update near next (some (cost + link)) next = some found :=
    ⟨cost + link, Nat.le_refl _, .inr (update_self ..)⟩
  refine ⟨cut.rooted, cut.settled, fun vertex found at_near => ?_, fun vertex found settled => ?_,
    fun vertex found settled other length member => ?_,
      fun vertex at_cost settled other found at_near => ?_, cut.latest⟩
  · rcases moved vertex found at_near with ⟨rfl, rfl⟩ | before
    · exact (cut.settled last cost here).step listed
    · exact cut.reached vertex found before
  · rw [update_of_ne]
    · exact cut.apart vertex found settled
    · rintro rfl
      rw [outside] at settled
      cases settled
  · rcases cut.scanned vertex found settled other length member with
      ⟨same, waits⟩ | ⟨at_other, bound, known⟩
    · rcases List.mem_cons.mp waits with first | rest
      · cases first
        rw [same, here] at settled
        cases settled
        exact .inr placed
      · exact .inl ⟨same, rest⟩
    · by_cases same : other = next
      · subst same
        have short : cost + link ≤ found + length := by
          rcases known with known | known
          · rw [outside] at known
            cases known
          · exact Nat.le_trans (nearer at_other known) bound
        exact .inr ⟨cost + link, short, .inr (update_self ..)⟩
      · rw [update_of_ne same]
        exact .inr ⟨at_other, bound, known⟩
  · rcases moved other found at_near with ⟨rfl, rfl⟩ | before
    · obtain ⟨most, at_last, all⟩ := cut.latest
      rw [here] at at_last
      cases at_last
      exact Nat.le_add_right_of_le (all vertex at_cost settled)
    · exact cut.ahead vertex at_cost settled other found before

end

variable (cut : Cut links root last [] tree near)
include cut

theorem Cut.walk_cases (walk : Walk links root vertex cost) :
    (∃ found ≤ cost, tree vertex = some found) ∨ ∃ other found, found ≤ cost ∧
      near other = some found := by
  induction walk with
  | start => exact .inl ⟨0, Nat.le_refl _, cut.rooted⟩
  | @step vertex next cost link walk listed ih =>
    rcases ih with ⟨found, bound, settled⟩ | ⟨other, found, bound, known⟩
    · rcases cut.scanned vertex found settled next link listed with
        ⟨-, waits⟩ | ⟨at_next, short, known | known⟩
      · cases waits
      · exact .inl ⟨at_next, Nat.le_trans short (Nat.add_le_add_right bound link), known⟩
      · exact .inr ⟨next, at_next, Nat.le_trans short (Nat.add_le_add_right bound link), known⟩
    · exact .inr ⟨other, found, Nat.le_add_right_of_le bound, known⟩

section
variable (here : near vertex = some cost)
  (first : ∀ other found, near other = some found → cost ≤ found)
include here first

/-- The nearest of what is near is at its least cost. -/
theorem Cut.nearest : Nearest links root vertex cost := by
  refine ⟨cut.reached vertex cost here, fun other walk => ?_⟩
  rcases cut.walk_cases walk with ⟨found, bound, settled⟩ | ⟨at_other, found, bound, known⟩
  · rw [cut.apart vertex found settled] at here
    cases here
  · exact Nat.le_trans (first at_other found known) bound

theorem Cut.settle [DecidableEq Vertex] :
    Cut links root vertex (links vertex) (update tree vertex (some cost))
    (update near vertex none) := by
  have moved (other : Vertex) (found : Nat)
      (at_tree : update tree vertex (some cost) other = some found) :
      other = vertex ∧ found = cost ∨ other ≠ vertex ∧ tree other = some found := by
    by_cases same : other = vertex
    · rw [same, update_self] at at_tree
      exact .inl ⟨same, (Option.some.inj at_tree).symm⟩
    · rw [update_of_ne same] at at_tree
      exact .inr ⟨same, at_tree⟩
  have still (other : Vertex) (found : Nat) (at_near : update near vertex none other = some found) :
      other ≠ vertex ∧ near other = some found := by
    by_cases same : other = vertex
    · rw [same, update_self] at at_near
      cases at_near
    · rw [update_of_ne same] at at_near
      exact ⟨same, at_near⟩
  refine ⟨?_, fun other found at_tree => ?_, fun other found at_near =>
    cut.reached other found (still other found at_near).2,
    fun other found at_tree => ?_, fun other found at_tree next link listed => ?_,
    fun other found at_tree another at_another at_near => ?_, cost, update_self ..,
      fun other found at_tree => ?_⟩
  · rw [update_of_ne]
    · exact cut.rooted
    · rintro rfl
      rw [cut.apart root 0 cut.rooted] at here
      cases here
  · rcases moved other found at_tree with ⟨rfl, rfl⟩ | ⟨-, before⟩
    · exact cut.reached other found here
    · exact cut.settled other found before
  · rcases moved other found at_tree with ⟨rfl, -⟩ | ⟨different, before⟩
    · exact update_self ..
    · rw [update_of_ne different]
      exact cut.apart other found before
  · rcases moved other found at_tree with ⟨rfl, rfl⟩ | ⟨-, before⟩
    · exact .inl ⟨rfl, listed⟩
    · rcases cut.scanned other found before next link listed with
        ⟨-, waits⟩ | ⟨at_next, bound, known⟩
      · cases waits
      · refine .inr ⟨at_next, bound, ?_⟩
        by_cases same : next = vertex
        · subst same
          left
          rcases known with known | known
          · rw [cut.apart next at_next known] at here
            cases here
          · rw [update_self, ← here, known]
        · rw [update_of_ne same, update_of_ne same]
          exact known
  · obtain ⟨-, known⟩ := still another at_another at_near
    rcases moved other found at_tree with ⟨rfl, rfl⟩ | ⟨-, before⟩
    · exact first another at_another known
    · exact cut.ahead other found before another at_another known
  · rcases moved other found at_tree with ⟨-, same⟩ | ⟨-, before⟩
    · exact Nat.le_of_eq same
    · exact cut.ahead other found before vertex cost here

end

theorem Cut.walk_settled (empty : ∀ vertex, near vertex = none)
    (walk : Walk links root vertex cost) :
    ∃ found ≤ cost, tree vertex = some found := by
  rcases cut.walk_cases walk with settled | ⟨at_near, found, -, known⟩
  · exact settled
  · rw [empty at_near] at known
    cases known

theorem Cut.complete (empty : ∀ vertex, near vertex = none) :
    tree vertex = some cost ↔ Nearest links root vertex cost := by
  constructor
  · intro settled
    refine ⟨cut.settled vertex cost settled, fun other walk => ?_⟩
    obtain ⟨found, bound, known⟩ := cut.walk_settled empty walk
    rw [settled] at known
    cases known
    exact bound
  · intro nearest
    obtain ⟨found, bound, known⟩ := cut.walk_settled empty nearest.walk
    rw [known, Nat.le_antisymm (nearest.least found (cut.settled vertex found known)) bound]

end Zebra.Base
