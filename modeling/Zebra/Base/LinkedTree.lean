import Mathlib.Logic.Function.Basic

/-! Binary trees linked in both directions. `Fits` says which labels may hang below which, and on
which side. -/

namespace Zebra.Base.LinkedTree
open Function List
variable {Label Node : Type}

abbrev Slot (Node : Type) := Option (Node × Bool)

/-- The node a slot belongs to; the root slot belongs to none. -/
def Slot.owner (slot : Slot Node) : Option Node :=
  slot.map Prod.fst

structure Cell (Label Node : Type) where
  label : Label
  parent : Option Node

/-- Child pointers and node contents of one tree, as two partial maps. -/
structure Links (Label Node : Type) where
  slot : Slot Node → Option Node
  cell : Node → Option (Cell Label Node)

/-- A label may be stored in a slot: always at the root, else below its owner. -/
def Links.Admits (Fits : Label → Bool → Label → Prop) (links : Links Label Node) :
    Slot Node → Label → Prop
  | none, _ => True
  | some (owner, side), label => ∃ cell, links.cell owner = some cell ∧ Fits cell.label side label

structure Links.Wellformed (Fits : Label → Bool → Label → Prop) (links : Links Label Node) :
    Prop where
  child : ∀ {slot node}, links.slot slot = some node →
    ∃ cell, links.cell node = some cell ∧ cell.parent = Slot.owner slot ∧
      links.Admits Fits slot cell.label
  held : ∀ {node cell}, links.cell node = some cell →
    ∃ slot, Slot.owner slot = cell.parent ∧ links.slot slot = some node

/-- What the labels of a sorted tree satisfy: a child has one side, sits strictly
deeper, and may replace any node on the way up to an ancestor. -/
structure Order (Fits : Label → Bool → Label → Prop) where
  rank : Label → Nat
  deeper : ∀ {upper side lower}, Fits upper side lower → rank upper < rank lower
  side_unique : ∀ {upper side other lower},
    Fits upper side lower → Fits upper other lower → side = other
  trans : ∀ {upper side middle other lower},
    Fits upper side middle → Fits middle other lower → Fits upper side lower

section Shape
variable {Fits : Label → Bool → Label → Prop} {links : Links Label Node}

theorem Links.Wellformed.live_owner (wf : links.Wellformed Fits) {owner node side}
    (stored : links.slot (some (owner, side)) = some node) :
    ∃ cell, links.cell owner = some cell := by
  obtain ⟨_, _, _, upper, found, _⟩ := wf.child stored
  exact ⟨upper, found⟩

theorem Links.Wellformed.slot_unique (order : Order Fits) (wf : links.Wellformed Fits)
    {first second node} (left : links.slot first = some node)
    (right : links.slot second = some node) : first = second := by
  obtain ⟨cell, found, parent, admits⟩ := wf.child left
  obtain ⟨other, again, parent', admits'⟩ := wf.child right
  have same : cell = other := Option.some.inj (found.symm.trans again)
  subst other
  have owners : Slot.owner first = Slot.owner second := parent.symm.trans parent'
  rcases first with _ | ⟨owner, side⟩
  · rcases second with _ | ⟨owner', side'⟩
    · rfl
    · simp [Slot.owner] at owners
  · rcases second with _ | ⟨owner', side'⟩
    · simp [Slot.owner] at owners
    · have sameOwner : owner = owner' := by simpa [Slot.owner] using owners
      subst owner'
      obtain ⟨upper, here, fits⟩ := admits
      obtain ⟨upper', there, fits'⟩ := admits'
      have sameUpper : upper = upper' := Option.some.inj (here.symm.trans there)
      subst upper'
      rw [order.side_unique fits fits']

theorem Links.Wellformed.fresh_slots (wf : links.Wellformed Fits) {fresh}
    (unused : links.cell fresh = none) (side : Bool) : links.slot (some (fresh, side)) = none := by
  cases stored : links.slot (some (fresh, side)) with
  | none => rfl
  | some node =>
    obtain ⟨cell, found⟩ := wf.live_owner stored
    rw [unused] at found
    cases found

theorem Links.Wellformed.fresh_unstored (wf : links.Wellformed Fits) {fresh}
    (unused : links.cell fresh = none) (slot : Slot Node) : links.slot slot ≠ some fresh := by
  intro stored
  obtain ⟨cell, found, _⟩ := wf.child stored
  rw [unused] at found
  cases found

/-- Labels that survive an update keep every admission they support. -/
theorem Links.Admits.of_labels {next : Links Label Node} {slot label}
    (admits : links.Admits Fits slot label)
    (kept : ∀ node cell, Slot.owner slot = some node → links.cell node = some cell →
      ∃ cell', next.cell node = some cell' ∧ cell'.label = cell.label) :
        next.Admits Fits slot label := by
  rcases slot with _ | ⟨owner, side⟩
  · trivial
  · obtain ⟨cell, found, fits⟩ := admits
    obtain ⟨cell', found', same⟩ := kept owner cell rfl found
    exact ⟨cell', found', same ▸ fits⟩

end Shape

section Updates
variable [DecidableEq Node]

section
variable (links : Links Label Node) (slot : Slot Node)

/-- Store a new leaf in an empty slot. -/
def Links.attach (fresh : Node) (label : Label) : Links Label Node where
  slot := update links.slot slot (some fresh)
  cell := update links.cell fresh (some ⟨label, Slot.owner slot⟩)

/-- Store a new node in the slot of `lower` and hang `lower` below it. -/
def Links.insertAbove (fresh : Node) (label : Label) (side : Bool) (lower : Node) :
    Links Label Node where
  slot := update (update links.slot slot (some fresh)) (some (fresh, side)) (some lower)
  cell := update
    (update links.cell lower ((links.cell lower).map fun cell => { cell with
      parent := some fresh }))
    fresh (some ⟨label, Slot.owner slot⟩)

/-- Take a node with at most one child out of its slot; the child moves up. -/
def Links.remove (node : Node) (child : Option Node) : Links Label Node where
  slot place :=
    if place = slot then child else if Slot.owner place = some node then none else links.slot place
  cell other :=
    if other = node then none
    else if child = some other then
      (links.cell other).map fun cell => { cell with parent := Slot.owner slot }
    else links.cell other

end

variable {Fits : Label → Bool → Label → Prop} {links : Links Label Node}

theorem Links.Wellformed.attach (wf : links.Wellformed Fits) {slot : Slot Node} {fresh}
    {label : Label} (empty : links.slot slot = none) (unused : links.cell fresh = none)
    (admits : links.Admits Fits slot label) : (links.attach slot fresh label).Wellformed Fits := by
  have kept {place : Slot Node} {lower} (old : links.Admits Fits place lower) :
      (links.attach slot fresh label).Admits Fits place lower := by
    apply old.of_labels
    intro node cell _ found
    have apart : node ≠ fresh := by
      intro same
      rw [same, unused] at found
      cases found
    exact ⟨cell, by simpa [Links.attach, apart] using found, rfl⟩
  constructor
  · intro place node stored
    by_cases here : place = slot
    · subst place
      have same : fresh = node := by simpa [Links.attach] using stored
      subst node
      exact ⟨⟨label, Slot.owner slot⟩, by simp [Links.attach], rfl, kept admits⟩
    · have old : links.slot place = some node := by simpa [Links.attach, here] using stored
      obtain ⟨cell, found, parent, fits⟩ := wf.child old
      have apart : node ≠ fresh := by
        intro same
        exact wf.fresh_unstored unused place (same ▸ old)
      exact ⟨cell, by simpa [Links.attach, apart] using found, parent, kept fits⟩
  · intro node cell found
    by_cases here : node = fresh
    · subst node
      have same : (⟨label, Slot.owner slot⟩ : Cell Label Node) = cell := by
        simpa [Links.attach] using found
      subst cell
      exact ⟨slot, rfl, by simp [Links.attach]⟩
    · have old : links.cell node = some cell := by simpa [Links.attach, here] using found
      obtain ⟨place, owner, stored⟩ := wf.held old
      have apart : place ≠ slot := by
        intro same
        rw [same, empty] at stored
        cases stored
      exact ⟨place, owner, by simpa [Links.attach, apart] using stored⟩

theorem Links.Wellformed.insertAbove (order : Order Fits) (wf : links.Wellformed Fits)
    {slot : Slot Node} {fresh lower label side cell}
    (stored : links.slot slot = some lower) (unused : links.cell fresh = none)
    (found : links.cell lower = some cell) (admits : links.Admits Fits slot label)
    (fits : Fits label side cell.label) :
    (links.insertAbove slot fresh label side lower).Wellformed Fits := by
  have lowerApart : lower ≠ fresh := by
    intro same
    rw [same, unused] at found
    cases found
  have slotApart : some (fresh, side) ≠ slot := by
    intro same
    rw [← same, wf.fresh_slots unused] at stored
    cases stored
  have kept {place : Slot Node} {below} (old : links.Admits Fits place below) :
      (links.insertAbove slot fresh label side lower).Admits Fits place below := by
    apply old.of_labels
    intro node cell' _ present
    have apart : node ≠ fresh := by
      intro same
      rw [same, unused] at present
      cases present
    by_cases moved : node = lower
    · subst node
      exact ⟨{ cell' with parent := some fresh }, by simp [Links.insertAbove, apart, present], rfl⟩
    · exact ⟨cell', by simpa [Links.insertAbove, apart, moved] using present, rfl⟩
  constructor
  · intro place node here
    by_cases inner : place = some (fresh, side)
    · subst place
      have same : lower = node := by simpa [Links.insertAbove] using here
      subst node
      refine ⟨{ cell with parent := some fresh }, ?_, rfl, ?_⟩
      · simp [Links.insertAbove, lowerApart, found]
      · exact ⟨⟨label, Slot.owner slot⟩, by simp [Links.insertAbove], fits⟩
    · by_cases outer : place = slot
      · subst place
        have same : fresh = node := by simpa [Links.insertAbove, inner] using here
        subst node
        exact ⟨⟨label, Slot.owner slot⟩, by simp [Links.insertAbove], rfl, kept admits⟩
      · have old : links.slot place = some node := by
          simpa [Links.insertAbove, inner, outer] using here
        obtain ⟨cell', present, parent, admits'⟩ := wf.child old
        have apart : node ≠ fresh := by
          intro same
          exact wf.fresh_unstored unused place (same ▸ old)
        have unmoved : node ≠ lower := by
          intro same
          exact outer (wf.slot_unique order (same ▸ old) stored)
        exact ⟨cell', by simpa [Links.insertAbove, apart, unmoved] using present, parent,
          kept admits'⟩
  · intro node cell' present
    by_cases new : node = fresh
    · subst node
      have same : (⟨label, Slot.owner slot⟩ : Cell Label Node) = cell' := by
        simpa [Links.insertAbove] using present
      subst cell'
      exact ⟨slot, rfl, by simp [Links.insertAbove, slotApart.symm]⟩
    · by_cases moved : node = lower
      · subst node
        have same : { cell with parent := some fresh } = cell' := by
          simpa [Links.insertAbove, new, found] using present
        subst cell'
        exact ⟨some (fresh, side), rfl, by simp [Links.insertAbove]⟩
      · have old : links.cell node = some cell' := by
          simpa [Links.insertAbove, new, moved] using present
        obtain ⟨place, owner, seat⟩ := wf.held old
        have inner : place ≠ some (fresh, side) := by
          intro same
          rw [same, wf.fresh_slots unused] at seat
          cases seat
        have outer : place ≠ slot := by
          intro same
          rw [same, stored] at seat
          exact moved (Option.some.inj seat).symm
        exact ⟨place, owner, by simpa [Links.insertAbove, inner, outer] using seat⟩

theorem Links.Wellformed.remove (order : Order Fits) (wf : links.Wellformed Fits)
    {slot : Slot Node} {node child} (stored : links.slot slot = some node)
    (single : ∀ side lower, links.slot (some (node, side)) = some lower → child = some lower)
    (below : ∀ lower, child = some lower → ∃ side, links.slot (some (node, side)) = some lower) :
    (links.remove slot node child).Wellformed Fits := by
  obtain ⟨cell, found, _, admits⟩ := wf.child stored
  have childApart (lower : Node) (has : child = some lower) : lower ≠ node := by
    obtain ⟨side, seat⟩ := below lower has
    obtain ⟨lowerCell, lowerFound, _, upper, upperFound, fits⟩ := wf.child seat
    intro same
    subst lower
    have same : lowerCell = upper := Option.some.inj (lowerFound.symm.trans upperFound)
    exact Nat.lt_irrefl _ (order.deeper (same ▸ fits))
  have ownerApart : Slot.owner slot ≠ some node := by
    intro same
    rcases slot with _ | ⟨owner, side⟩
    · cases same
    · have ownerSame : owner = node := by simpa [Slot.owner] using same
      obtain ⟨upper, upperFound, fits⟩ := admits
      rw [ownerSame, found] at upperFound
      have same : cell = upper := Option.some.inj upperFound
      exact Nat.lt_irrefl _ (order.deeper (same ▸ fits))
  have kept {place : Slot Node} {lower} (old : links.Admits Fits place lower)
      (apart : Slot.owner place ≠ some node) :
      (links.remove slot node child).Admits Fits place lower := by
    apply old.of_labels
    intro other cell' owner present
    have different : other ≠ node := fun same => apart (same ▸ owner)
    by_cases moved : child = some other
    · exact ⟨{ cell' with parent := Slot.owner slot }, by
        simp [Links.remove, different, moved, present], rfl⟩
    · exact ⟨cell', by simpa [Links.remove, different, moved] using present, rfl⟩
  constructor
  · intro place lower here
    by_cases outer : place = slot
    · subst place
      have has : child = some lower := by simpa [Links.remove] using here
      obtain ⟨side, seat⟩ := below lower has
      obtain ⟨lowerCell, lowerFound, _, upper, upperFound, fits⟩ := wf.child seat
      have same : upper = cell := Option.some.inj (upperFound.symm.trans found)
      refine ⟨{ lowerCell with parent := Slot.owner slot }, ?_, rfl, ?_⟩
      · simp [Links.remove, childApart lower has, has, lowerFound]
      · apply kept _ ownerApart
        -- the child inherits the side of the removed node
        rcases slot with _ | ⟨owner, ownerSide⟩
        · trivial
        · obtain ⟨ownerCell, ownerFound, ownerFits⟩ := admits
          exact ⟨ownerCell, ownerFound, order.trans ownerFits (same ▸ fits)⟩
    · by_cases inner : Slot.owner place = some node
      · simp [Links.remove, outer, inner] at here
      · have old : links.slot place = some lower := by
          simpa [Links.remove, outer, inner] using here
        obtain ⟨lowerCell, lowerFound, parent, lowerAdmits⟩ := wf.child old
        have different : lower ≠ node := by
          intro same
          exact outer (wf.slot_unique order (same ▸ old) stored)
        have unmoved : child ≠ some lower := by
          intro has
          obtain ⟨side, seat⟩ := below lower has
          have same := wf.slot_unique order old seat
          exact inner (by rw [same]; rfl)
        exact ⟨lowerCell, by simpa [Links.remove, different, unmoved] using lowerFound, parent,
          kept lowerAdmits inner⟩
  · intro other cell' present
    by_cases gone : other = node
    · simp [Links.remove, gone] at present
    · by_cases moved : child = some other
      · obtain ⟨old, _, same⟩ : ∃ old, links.cell other = some old ∧
            { old with parent := Slot.owner slot } = cell' := by
          simpa [Links.remove, gone, moved] using present
        subst cell'
        exact ⟨slot, rfl, by simp [Links.remove, moved]⟩
      · have old : links.cell other = some cell' := by
          simpa [Links.remove, gone, moved] using present
        obtain ⟨place, owner, seat⟩ := wf.held old
        have outer : place ≠ slot := by
          intro same
          rw [same, stored] at seat
          exact gone (Option.some.inj seat).symm
        have inner : Slot.owner place ≠ some node := by
          intro owned
          rcases place with _ | ⟨upper, side⟩
          · cases owned
          · have same : upper = node := by simpa [Slot.owner] using owned
            exact moved (single side other (same ▸ seat))
        exact ⟨place, owner, by simpa [Links.remove, outer, inner] using seat⟩

end Updates

/-! A descent follows the side a key chooses at each label it covers. -/

inductive Descent (links : Links Label Node) (covers : Label → Prop) (choose : Label → Bool) :
    Option Node → List Node → Option Node → Prop where
  | null : Descent links covers choose none [] none
  | miss {node : Node} {cell : Cell Label Node} (found : links.cell node = some cell)
      (outside : ¬ covers cell.label) : Descent links covers choose (some node) [] (some node)
  | step {node : Node} {cell : Cell Label Node} {path : List Node} {stop : Option Node}
      (found : links.cell node = some cell) (inside : covers cell.label)
      (rest : Descent links covers choose
        (links.slot (some (node, choose cell.label))) path stop) :
      Descent links covers choose (some node) (node :: path) stop

section Descents
variable {Fits : Label → Bool → Label → Prop} {links : Links Label Node}
variable {covers : Label → Prop} {choose : Label → Bool}
variable {node : Node} {cell : Cell Label Node} {start stop : Option Node} {path : List Node}
variable (order : Order Fits)

/-- Depth strictly grows along a descent, so a bound on the covering labels
bounds its length. -/
theorem Links.Wellformed.descent_from (wf : links.Wellformed Fits) (covers : Label → Prop)
    (choose : Label → Bool) (bound : Nat)
    (bounded : ∀ label, covers label → order.rank label ≤ bound)
    (found : links.cell node = some cell) :
    ∃ path stop, Descent links covers choose (some node) path stop ∧
      path.length ≤ bound + 1 - order.rank cell.label := by
  obtain ⟨gap, measured⟩ : ∃ gap, bound + 1 - order.rank cell.label = gap := ⟨_, rfl⟩
  induction gap using Nat.strongRecOn generalizing node cell with
  | _ gap ih =>
    by_cases inside : covers cell.label
    · have limit := bounded _ inside
      cases next : links.slot (some (node, choose cell.label)) with
      | none =>
        refine ⟨[node], none, .step found inside (by rw [next]; exact .null), ?_⟩
        simp only [length_singleton]
        omega
      | some lower =>
        obtain ⟨lowerCell, lowerFound, _, upper, upperFound, fits⟩ := wf.child next
        have same : upper = cell := Option.some.inj (upperFound.symm.trans found)
        have deeper := order.deeper fits
        rw [same] at deeper
        obtain ⟨path, stop, rest, short⟩ :=
          ih (bound + 1 - order.rank lowerCell.label) (by omega) lowerFound rfl
        refine ⟨node :: path, stop, .step found inside (by rw [next]; exact rest), ?_⟩
        simp only [length_cons]
        omega
    · exact ⟨[], some node, .miss found inside, Nat.zero_le _⟩

theorem Links.Wellformed.descent_exists (wf : links.Wellformed Fits)
    (covers : Label → Prop) (choose : Label → Bool) (bound : Nat)
    (bounded : ∀ label, covers label → order.rank label ≤ bound) :
    ∃ path stop, Descent links covers choose (links.slot none) path stop ∧
      path.length ≤ bound + 1 := by
  cases root : links.slot none with
  | none => exact ⟨[], none, .null, Nat.zero_le _⟩
  | some node =>
    obtain ⟨cell, found, _⟩ := wf.child root
    obtain ⟨path, stop, descent, short⟩ :=
      wf.descent_from order covers choose bound bounded found
    exact ⟨path, stop, descent, by omega⟩

theorem Descent.covered (descent : Descent links covers choose start path stop)
    (member : node ∈ path) :
    ∃ cell, links.cell node = some cell ∧ covers cell.label := by
  induction descent with
  | null => cases member
  | miss => cases member
  | step found inside rest ih =>
    rcases mem_cons.mp member with same | later
    · exact same ▸ ⟨_, found, inside⟩
    · exact ih later

theorem Descent.head_mem (descent : Descent links covers choose (some node) path stop)
    (found : links.cell node = some cell) (inside : covers cell.label) : node ∈ path := by
  cases descent with
  | miss found' outside =>
    have same := Option.some.inj (found.symm.trans found')
    exact absurd (same ▸ inside) outside
  | step => simp

theorem Descent.next_mem {lower lowerCell}
    (descent : Descent links covers choose start path stop) (member : node ∈ path)
    (found : links.cell node = some cell)
    (stored : links.slot (some (node, choose cell.label)) = some lower)
    (lowerFound : links.cell lower = some lowerCell) (inside : covers lowerCell.label) :
    lower ∈ path := by
  induction descent with
  | null => cases member
  | miss => cases member
  | @step here hereCell path stop hereFound _ rest ih =>
    rcases mem_cons.mp member with same | later
    · subst node
      have same : hereCell = cell := Option.some.inj (hereFound.symm.trans found)
      subst hereCell
      rw [stored] at rest
      exact .tail _ (rest.head_mem lowerFound inside)
    · exact .tail _ (ih later)

/-- The descent from the root lists every covered node: covering passes to the
parent and fixes the side the child hangs on. -/
theorem Links.Wellformed.mem_descent (order : Order Fits) (wf : links.Wellformed Fits)
    (upward : ∀ {upper side lower}, Fits upper side lower → covers lower →
      covers upper ∧ choose upper = side)
      (descent : Descent links covers choose (links.slot none) path stop)
    (found : links.cell node = some cell) (inside : covers cell.label) : node ∈ path := by
  obtain ⟨rank, measured⟩ : ∃ rank, order.rank cell.label = rank := ⟨_, rfl⟩
  induction rank using Nat.strongRecOn generalizing node cell with
  | _ rank ih =>
    obtain ⟨slot, _, stored⟩ := wf.held found
    rcases slot with _ | ⟨owner, side⟩
    · rw [stored] at descent
      exact descent.head_mem found inside
    · obtain ⟨same, again, _, upper, upperFound, fits⟩ := wf.child stored
      have sameCell : same = cell := Option.some.inj (again.symm.trans found)
      subst same
      obtain ⟨upperInside, chosen⟩ := upward fits inside
      have deeper := order.deeper fits
      have upperMember := ih (order.rank upper.label) (by omega) upperFound upperInside rfl
      exact descent.next_mem upperMember upperFound (by rw [chosen]; exact stored) found inside

theorem Descent.sorted (wf : links.Wellformed Fits)
    (descent : Descent links covers choose start path stop) :
    path.Pairwise fun first second => ∀ cell lowerCell, links.cell first = some cell →
      links.cell second = some lowerCell → order.rank cell.label < order.rank lowerCell.label := by
  induction descent with
  | null => exact .nil
  | miss => exact .nil
  | @step node cell path stop found inside rest ih =>
    refine pairwise_cons.mpr ⟨?_, ih⟩
    intro second member cell' lowerCell cellFound lowerFound
    have same : cell' = cell := Option.some.inj (cellFound.symm.trans found)
    subst cell'
    generalize start_eq : links.slot (some (node, choose cell.label)) = start at rest
    cases rest with
    | null => cases member
    | miss => cases member
    | @step next nextCell _ _ nextFound nextInside tail =>
      obtain ⟨again, againFound, _, upper, upperFound, fits⟩ := wf.child start_eq
      have sameNext : again = nextCell := Option.some.inj (againFound.symm.trans nextFound)
      have sameUpper : upper = cell := Option.some.inj (upperFound.symm.trans found)
      subst again upper
      have first := order.deeper fits
      rcases mem_cons.mp member with same | later
      · subst second
        have same : nextCell = lowerCell := Option.some.inj (nextFound.symm.trans lowerFound)
        exact same ▸ first
      · have deeper := (pairwise_cons.mp ih).1 second later nextCell lowerCell nextFound lowerFound
        omega

theorem pairwise_compare {Item : Type} {Rel : Item → Item → Prop} {items : List Item}
    (sorted : items.Pairwise Rel) {first second} (firstMember : first ∈ items)
    (secondMember : second ∈ items) : first = second ∨ Rel first second ∨ Rel second first := by
  induction sorted with
  | nil => cases firstMember
  | cons before _ ih =>
    rcases List.mem_cons.mp firstMember with same | later
    · rcases mem_cons.mp secondMember with same' | later'
      · exact .inl (same.trans same'.symm)
      · exact .inr (.inl (same ▸ before _ later'))
    · rcases mem_cons.mp secondMember with same' | later'
      · exact .inr (.inr (same' ▸ before _ later))
      · exact ih later later'

theorem Links.Wellformed.covered_unique (wf : links.Wellformed Fits)
    (covers : Label → Prop) (choose : Label → Bool)
    (upward : ∀ {upper side lower}, Fits upper side lower → covers lower →
      covers upper ∧ choose upper = side)
    (bound : Nat) (bounded : ∀ label, covers label → order.rank label ≤ bound)
    {first second firstCell secondCell}
    (firstFound : links.cell first = some firstCell)
    (secondFound : links.cell second = some secondCell)
    (firstInside : covers firstCell.label) (secondInside : covers secondCell.label)
    (level : order.rank firstCell.label = order.rank secondCell.label) : first = second := by
  obtain ⟨path, stop, descent, _⟩ := wf.descent_exists order covers choose bound bounded
  have firstMember := wf.mem_descent order upward descent firstFound firstInside
  have secondMember := wf.mem_descent order upward descent secondFound secondInside
  have sorted := descent.sorted order wf
  rcases pairwise_compare sorted firstMember secondMember with same | before | after
  · exact same
  · have deeper := before _ _ firstFound secondFound
    omega
  · have deeper := after _ _ secondFound firstFound
    omega

end Descents
end Zebra.Base.LinkedTree
