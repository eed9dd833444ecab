import Mathlib
import Zebra.Base.LinkedTree

/-! The preorder of a linked tree whose labels are words is the lexicographic order. -/
namespace Zebra.Base
open List
section Words
variable {Letter : Type} [LinearOrder Letter] {stem word left right other : List Letter}

theorem lt_of_proper (begins : stem <+: word) (proper : stem ≠ word) : stem < word := by
  obtain ⟨rest, rfl⟩ := begins
  cases rest with
  | nil => exact absurd (append_nil stem).symm proper
  | cons letter rest =>
    have longer : stem ++ [] < stem ++ letter :: rest := append_left_lt (nil_lt_cons letter rest)
    rwa [append_nil] at longer

theorem le_of_begins (begins : stem <+: word) : stem ≤ word := by
  by_cases same : stem = word
  · exact le_of_eq same
  · exact le_of_lt (lt_of_proper begins same)

/-- Words that fork behind a stem are ordered by the letters there. -/
theorem lt_of_fork {first second} (less : first < second) (here : stem ++ [first] <+: left)
    (there : stem ++ [second] <+: right) : left < right := by
  obtain ⟨_, rfl⟩ := here
  obtain ⟨_, rfl⟩ := there
  rw [append_assoc, append_assoc]
  exact append_left_lt (cons_lt_cons_iff.mpr (.inl less))

/-- A word that does not begin with a stem is in front of all that do, or behind them. -/
theorem before_or_behind (outside : ¬ stem <+: word) :
    word < stem ∨ ∀ other, stem <+: other → other < word := by
  induction stem generalizing word with
  | nil => exact absurd nil_prefix outside
  | cons letter stem ih =>
    cases word with
    | nil => exact .inl (nil_lt_cons ..)
    | cons first rest =>
      rcases lt_trichotomy first letter with less | rfl | more
      · exact .inl (cons_lt_cons_iff.mpr (.inl less))
      · have apart : ¬ stem <+: rest := fun begins => outside ((prefix_cons_inj first).mpr begins)
        rcases ih apart with before | behind
        · exact .inl (cons_lt_cons_iff.mpr (.inr ⟨rfl, before⟩))
        · refine .inr fun other begins => ?_
          obtain ⟨tail, rfl⟩ := begins
          exact cons_lt_cons_iff.mpr (.inr ⟨rfl, behind _ ⟨tail, rfl⟩⟩)
      · refine .inr fun other begins => ?_
        obtain ⟨tail, rfl⟩ := begins
        exact cons_lt_cons_iff.mpr (.inl more)

/-- What lies between a stem and a word that begins with it begins with it too. -/
theorem begins_of_between (begins : stem <+: word) (behind : stem ≤ other) (before : other ≤ word) :
    stem <+: other := by
  by_contra outside
  rcases before_or_behind outside with early | late
  · exact absurd early (not_lt.mpr behind)
  · exact absurd (late word begins) (not_lt.mpr before)

end Words

namespace LinkedTree
variable {Label Node : Type} {Fits : Label → Bool → Label → Prop} {links : Links Label Node}
  {word : Label → List Bool}

/-- Labels hang where their words say. -/
structure Spelling (Fits : Label → Bool → Label → Prop) (word : Label → List Bool) : Prop where
  fits_iff : ∀ {upper side lower}, Fits upper side lower ↔ word upper ++ [side] <+: word lower

section
variable (spelling : Spelling Fits word) {upper lower : Label} {side : Bool}
  (fits : Fits upper side lower)
include spelling fits

theorem Spelling.begins : word upper <+: word lower :=
  (prefix_append _ _).trans (spelling.fits_iff.mp fits)

theorem Spelling.shorter : (word upper).length < (word lower).length := by
  have length := (spelling.fits_iff.mp fits).length_le
  rwa [length_append, length_singleton] at length

end

theorem side_of_begins {stem whole side} (begins : stem ++ [side] <+: whole) :
    whole.getD stem.length false = side := by
  obtain ⟨rest, rfl⟩ := begins
  simp

theorem exists_side {stem whole : List Bool} (begins : stem <+: whole) (proper : stem ≠ whole) :
    ∃ side, stem ++ [side] <+: whole := by
  obtain ⟨rest, rfl⟩ := begins
  cases rest with
  | nil => exact absurd (append_nil stem).symm proper
  | cons side rest => exact ⟨side, rest, by rw [append_assoc, singleton_append]⟩

def Spelling.order (spelling : Spelling Fits word) : Order Fits where
  rank label := (word label).length
  deeper fits := spelling.shorter fits
  side_unique first second :=
    (side_of_begins (spelling.fits_iff.mp first)).symm.trans
      (side_of_begins (spelling.fits_iff.mp second))
  trans first second :=
    spelling.fits_iff.mpr ((spelling.fits_iff.mp first).trans (spelling.begins second))

/-- The word of a node. -/
def Links.Spelled (links : Links Label Node) (word : Label → List Bool) (node : Node)
    (letters : List Bool) : Prop :=
  ∃ cell, links.cell node = some cell ∧ word cell.label = letters

theorem Links.Spelled.unique {node first second} (left : links.Spelled word node first)
    (right : links.Spelled word node second) : first = second := by
  obtain ⟨cell, found, rfl⟩ := left
  obtain ⟨_, again, rfl⟩ := right
  rw [found] at again
  cases again
  rfl

section Preorder
variable (spelling : Spelling Fits word) (wf : links.Wellformed Fits)
include spelling wf

theorem node_unique {first second letters} (left : links.Spelled word first letters)
    (right : links.Spelled word second letters) : first = second := by
  obtain ⟨cell, found, rfl⟩ := left
  obtain ⟨other, again, same⟩ := right
  refine wf.covered_unique spelling.order (fun label => word label <+: word cell.label)
    (fun label => (word cell.label).getD (word label).length false) (fun fits inside => ?_)
    (word cell.label).length (fun _ covers => covers.length_le) found again prefix_rfl
    (same ▸ prefix_rfl) (congrArg length same.symm)
  exact ⟨(spelling.begins fits).trans inside,
    side_of_begins ((spelling.fits_iff.mp fits).trans inside)⟩

theorem exists_root {node letters} (here : links.Spelled word node letters) :
    ∃ root first, links.slot none = some root ∧ links.Spelled word root first ∧
      first <+: letters := by
  obtain ⟨size, measured⟩ : ∃ size, letters.length = size := ⟨_, rfl⟩
  induction size using Nat.strongRecOn generalizing node letters with
  | _ size ih =>
    obtain ⟨cell, found, rfl⟩ := here
    obtain ⟨slot, _, stored⟩ := wf.held found
    rcases slot with _ | ⟨owner, side⟩
    · exact ⟨node, _, stored, ⟨cell, found, rfl⟩, prefix_rfl⟩
    · obtain ⟨same, again, _, upper, upperFound, fits⟩ := wf.child stored
      cases found.symm.trans again
      obtain ⟨root, first, top, spelled, above⟩ :=
        ih _ (measured ▸ spelling.shorter fits) ⟨upper, upperFound, rfl⟩ rfl
      exact ⟨root, first, top, spelled, above.trans (spelling.begins fits)⟩

theorem root_begins {root node first letters} (top : links.slot none = some root)
    (spelled : links.Spelled word root first) (here : links.Spelled word node letters) :
    first <+: letters := by
  obtain ⟨_, _, again, same, above⟩ := exists_root spelling wf here
  cases top.symm.trans again
  exact spelled.unique same ▸ above

/-- A node whose word begins with that of another one and a side is its child there, or below the
  child. -/
theorem child_begins {node lower letters below side}
    (here : links.Spelled word node letters) (there : links.Spelled word lower below)
    (begins : letters ++ [side] <+: below) :
    ∃ child first, links.slot (some (node, side)) = some child ∧ links.Spelled word child first ∧
      first <+: below := by
  obtain ⟨size, measured⟩ : ∃ size, below.length = size := ⟨_, rfl⟩
  induction size using Nat.strongRecOn generalizing node letters side lower below with
  | _ size ih =>
    obtain ⟨cell, found, rfl⟩ := there
    have short := begins.length_le
    rw [length_append, length_singleton] at short
    obtain ⟨slot, _, stored⟩ := wf.held found
    rcases slot with _ | ⟨owner, place⟩
    · have covers := (root_begins spelling wf stored ⟨cell, found, rfl⟩ here).length_le
      omega
    · obtain ⟨same, again, _, upper, upperFound, fits⟩ := wf.child stored
      rw [found] at again
      cases again
      have spelled : links.Spelled word owner (word upper.label) := ⟨upper, upperFound, rfl⟩
      have hangs := spelling.fits_iff.mp fits
      have shallow := spelling.shorter fits
      rcases Nat.lt_trichotomy (word upper.label).length letters.length with higher | level | deeper
      · -- the node lies between the owner and its child
        have between : word upper.label ++ [place] <+: letters := by
          refine prefix_of_prefix_length_le hangs ((prefix_append _ _).trans begins) ?_
          rw [length_append, length_singleton]
          exact higher
        obtain ⟨child, first, seat, childSpelled, covers⟩ :=
          ih _ (by omega) spelled here between rfl
        rw [stored] at seat
        cases seat
        rw [childSpelled.unique ⟨cell, found, rfl⟩] at covers
        have length := covers.length_le
        omega
      · have sameWord : word upper.label = letters := by
          have stem := prefix_of_prefix_length_le (spelling.begins fits)
            ((prefix_append letters [side]).trans begins) (le_of_eq level)
          exact stem.eq_of_length level
        have sameNode : owner = node := node_unique spelling wf (sameWord ▸ spelled) here
        have sameSide : place = side := by
          rw [← side_of_begins hangs, sameWord, side_of_begins begins]
        rw [sameNode, sameSide] at stored
        exact ⟨lower, _, stored, ⟨cell, found, rfl⟩, prefix_rfl⟩
      · have between : letters ++ [side] <+: word upper.label := by
          refine prefix_of_prefix_length_le begins (spelling.begins fits) ?_
          rw [length_append, length_singleton]
          exact deeper
        obtain ⟨child, first, seat, childSpelled, covers⟩ :=
          ih _ (measured ▸ shallow) here spelled between rfl
        exact ⟨child, first, seat, childSpelled, covers.trans (spelling.begins fits)⟩

end Preorder
end LinkedTree
end Zebra.Base
