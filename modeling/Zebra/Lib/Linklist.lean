import Zebra.Base.Deque
import Zebra.Base.Run

namespace Zebra
open Function List Base Deque Linked

/-- One list, its nodes in both directions, and the nodes in use. `links` counts for itself; `count`
is the field of `struct list`. -/
structure Linklist (Node Data : Type) where
  links : Links Unit Node := {}
  count : Int := 0
  data : Node → Data
  nodes : List Node := []

/-- The calls with the node that `listnode_new` gives. -/
inductive ListCall (Node Data : Type) where
  | add (val : Data) (new : Node)
  | addSort (val : Data) (new : Node)
  | addAfter (pp : Option Node) (val : Data) (new : Node)
  | addNodePrev (current : Node) (val : Data) (new : Node)
  | addNodeNext (current : Node) (val : Data) (new : Node)
  | delete (val : Data)
  | deleteNode (node : Node)
  | deleteAllNode

namespace Linklist
variable {Node Data : Type} [DecidableEq Node]
variable (cmp : Option (Data → Data → Int)) (list : Linklist Node Data)

def insert (val : Data) (new : Node) (links : Links Unit Node) : Linklist Node Data :=
  { links, count := list.count + 1, data := update list.data new val, nodes := new :: list.nodes }

def listnodeAdd (val : Data) (new : Node) : Linklist Node Data :=
  let links := list.links
  let first := (links.head ()).isNone
  list.insert val new
    { head := if first then update links.head () (some new) else links.head
      tail := update links.tail () (some new)
      count := update links.count () (links.count () + 1)
      next := if first then update links.next new none
        else writeAt (update links.next new none) (links.tail ()) (some new)
      prev := update links.prev new (links.tail ()) }

/-- A walk meets each node in use at most once. -/
def find (wanted : Node → Bool) : Option Node :=
  list.links.find wanted list.nodes.length (list.links.head ())

def listnodeAddSort (val : Data) (new : Node) : Linklist Node Data :=
  list.insert val new <|
    match cmp.bind fun cmp => list.find fun n => cmp val (list.data n) < 0 with
    | some n => list.links.insertBefore () n new
    | none => list.links.append () new

def listAddNodePrev (current : Node) (val : Data) (new : Node) : Linklist Node Data :=
  list.insert val new (list.links.insertBefore () current new)

/-- What `list_add_node_prev` does with the two directions exchanged. -/
def listAddNodeNext (current : Node) (val : Data) (new : Node) : Linklist Node Data :=
  list.insert val new (list.links.flip.insertBefore () current new).flip

/-- The count stays as it is. -/
def listnodeAddAfter (pp : Option Node) (val : Data) (new : Node) : Linklist Node Data :=
  let added := match pp with
    | none => list.insert val new (list.links.flip.append () new).flip
    | some pp => list.listAddNodeNext pp val new
  { added with count := list.count }

def listDeleteNode (node : Node) : Linklist Node Data :=
  { list with links := list.links.delete () node, count := list.count - 1,
              nodes := list.nodes.erase node }

def listnodeDelete [DecidableEq Data] (val : Data) : Linklist Node Data :=
  match list.find fun node => list.data node = val with
  | some node => list.listDeleteNode node
  | none => list

def listDeleteAllNode : Linklist Node Data :=
  { list with links := list.links.clear (), count := 0, nodes := [] }

def call [DecidableEq Data] (cmp : Option (Data → Data → Int)) (list : Linklist Node Data) :
    ListCall Node Data → Linklist Node Data
  | .add val new => list.listnodeAdd val new
  | .addSort val new => list.listnodeAddSort cmp val new
  | .addAfter pp val new => list.listnodeAddAfter pp val new
  | .addNodePrev current val new => list.listAddNodePrev current val new
  | .addNodeNext current val new => list.listAddNodeNext current val new
  | .delete val => list.listnodeDelete val
  | .deleteNode node => list.listDeleteNode node
  | .deleteAllNode => list.listDeleteAllNode

/-- A new node is not in use, and a node that is named is on the list. -/
def Fits : ListCall Node Data → Prop
  | .add _ new | .addSort _ new | .addAfter none _ new => new ∉ list.nodes
  | .addAfter (some current) _ new | .addNodePrev current _ new | .addNodeNext current _ new =>
    new ∉ list.nodes ∧ current ∈ list.nodes
  | .deleteNode node => node ∈ list.nodes
  | .delete _ | .deleteAllNode => True

instance (list : Linklist Node Data) : (call : ListCall Node Data) → Decidable (list.Fits call)
  | .add _ _ | .addSort _ _ | .addAfter none _ _ => inferInstanceAs (Decidable (_ ∉ _))
  | .addAfter (some _) _ _ | .addNodePrev _ _ _ | .addNodeNext _ _ _ =>
    inferInstanceAs (Decidable (_ ∉ _ ∧ _ ∈ _))
  | .deleteNode _ => inferInstanceAs (Decidable (_ ∈ _))
  | .delete _ | .deleteAllNode => .isTrue trivial

/-- How many nodes the count leaves out. -/
def uncounted (missed : Nat) : ListCall Node Data → Nat
  | .addAfter .. => missed + 1
  | .deleteAllNode => 0
  | _ => missed

def forward (rounds : Nat) : List Data :=
  (list.links.walk rounds (list.links.head ())).map list.data
def backward (rounds : Nat) : List Data :=
  (list.links.flip.walk rounds (list.links.tail ())).map list.data

structure Kept (missed : Nat) (order : List Node) : Prop where
  linked : list.links.Holds () order
  used : order.Perm list.nodes
  count : list.count + missed = order.length

/-- No element is less than one before it. -/
abbrev Sorted (cmp : Data → Data → Int) (elements : List Data) : Prop :=
  elements.Pairwise fun first second => ¬ cmp second first < 0

/-- What a list that is sorted by `cmp` needs of it. -/
structure CmpOrder (cmp : Data → Data → Int) : Prop where
  asymm : ∀ {first second}, cmp first second < 0 → ¬ cmp second first < 0
  trans : ∀ {first second third}, ¬ cmp second first < 0 → ¬ cmp third second < 0 →
    ¬ cmp third first < 0

variable {cmp list} {missed : Nat} {order : List Node}

namespace Kept
variable (kept : list.Kept missed order)
include kept

omit [DecidableEq Node] in
theorem find (wanted : Node → Bool) : list.find wanted = order.find? wanted := by
  rw [Linklist.find, kept.linked.head]
  exact kept.linked.find wanted (nil_append order).symm (Nat.le_of_eq kept.used.length_eq)

omit [DecidableEq Node] in
theorem walks {rounds} (enough : list.nodes.length ≤ rounds) :
    list.forward rounds = order.map list.data ∧
    list.backward rounds = (order.map list.data).reverse := by
  have long := kept.used.length_eq.trans_le enough
  rw [forward, backward, kept.linked.head, show list.links.tail () = order.reverse.head? from
    kept.linked.flip.head,
    kept.linked.walk (nil_append order).symm long,
      kept.linked.flip.walk (nil_append order.reverse).symm (length_reverse.trans_le long),
    map_reverse]
  exact ⟨rfl, rfl⟩

theorem grow {links val new front back} (split : order = front ++ back)
    (linked : links.Holds () (front ++ new :: back)) :
    (list.insert val new links).Kept missed (front ++ new :: back) := by
  refine ⟨linked, perm_middle.trans ((split ▸ kept.used).cons new), ?_⟩
  have count := kept.count
  simp only [split, length_append, length_cons, insert] at count ⊢
  omega

omit [DecidableEq Node] in
theorem miss {count} (short : list.count = count + 1) :
    ({ list with count } : Linklist Node Data).Kept (missed + 1) order := by
  refine ⟨kept.linked, kept.used, ?_⟩
  have whole := kept.count
  dsimp only
  omega

section
variable {new : Node} (unused : new ∉ order) (val : Data)
include unused

theorem add : (list.listnodeAdd val new).Kept missed (order ++ [new]) := by
  have same : list.listnodeAdd val new = list.insert val new (list.links.append () new) := by
    rw [listnodeAdd, Links.append, kept.linked.head, kept.linked.tail]
    cases order with
    | nil => simp [writeAt]
    | cons first rest => simp [getLast?_cons]
  rw [same]
  exact kept.grow (append_nil order).symm (kept.linked.append unused)

theorem insertBefore {point front back} (split : order = front ++ point :: back) :
    (list.insert val new (list.links.insertBefore () point new)).Kept missed
      (front ++ new :: point :: back) :=
  kept.grow split ((split ▸ kept.linked).insertBefore (split ▸ unused))

theorem addNodeNext {point front back} (split : order = front ++ point :: back) :
    (list.listAddNodeNext point val new).Kept missed ((front ++ [point]) ++ new :: back) := by
  have mirrored : order.reverse = back.reverse ++ point :: front.reverse := by simp [split]
  have linked :=
    ((mirrored ▸ kept.linked.flip).insertBefore (mirrored ▸ mt mem_reverse.mp unused)).flip
  have whole : (back.reverse ++ new :: point :: front.reverse).reverse =
    (front ++ [point]) ++ new :: back := by simp
  exact kept.grow (split.trans (by simp)) (whole ▸ linked)

theorem prepend :
    (list.insert val new (list.links.flip.append () new).flip).Kept missed (new :: order) := by
  have linked := (kept.linked.flip.append (mt mem_reverse.mp unused)).flip
  rw [reverse_append, reverse_reverse] at linked
  exact kept.grow (nil_append order).symm linked

/-- The new node stands behind all that it is not less than, before the first that it is less
  than. -/
theorem addSort : ∃ front back, order = front ++ back ∧
    (list.listnodeAddSort cmp val new).Kept missed (front ++ new :: back) ∧
    ∀ less, cmp = some less → (∀ n ∈ front, ¬ less val (list.data n) < 0) ∧
    ∀ n ∈ back.head?, less val (list.data n) < 0 := by
  rw [listnodeAddSort]
  have last : (list.insert val new (list.links.append () new)).Kept missed (order ++ [new]) :=
    kept.grow (append_nil order).symm (kept.linked.append unused)
  cases cmp with
  | none => exact ⟨order, [], (append_nil order).symm, last, nofun⟩
  | some less =>
    rw [Option.bind_some, kept.find]
    cases found : order.find? fun n => less val (list.data n) < 0 with
    | none =>
      refine ⟨order, [], (append_nil order).symm, last, fun _ same => ⟨fun n member => ?_, nofun⟩⟩
      simpa [← Option.some.inj same] using find?_eq_none.mp found n member
    | some n =>
      obtain ⟨before, front, back, split, others⟩ := find?_eq_some_iff_append.mp found
      refine ⟨front, n :: back, split, kept.insertBefore unused val split,
        fun _ same => ⟨fun m member => ?_, ?_⟩⟩
      · simpa [← Option.some.inj same] using others m member
      · simpa [← Option.some.inj same] using before

end

theorem deleteNode {node front back} (split : order = front ++ node :: back) :
    (list.listDeleteNode node).Kept missed (front ++ back) := by
  have gone : node ∉ front := fun early =>
    (nodup_cons.mp (nodup_middle.mp (split ▸ kept.linked.nodup))).1 (mem_append_left _ early)
  have left : order.erase node = front ++ back := by
    rw [split, erase_append_right _ gone, erase_cons_head]
  refine ⟨(split ▸ kept.linked).delete, left ▸ kept.used.erase node, ?_⟩
  have count := kept.count
  simp only [split, length_append, length_cons, listDeleteNode] at count ⊢
  omega

theorem call [DecidableEq Data] {call : ListCall Node Data} (fits : list.Fits call) :
    ∃ order', (list.call cmp call).Kept (uncounted missed call) order' := by
  have same : ∀ {node}, node ∈ order ↔ node ∈ list.nodes := kept.used.mem_iff
  have place : ∀ {node}, node ∈ list.nodes → ∃ front back, order = front ++ node :: back :=
    fun there => append_of_mem (same.mpr there)
  cases call with
  | add val new => exact ⟨_, kept.add (mt same.mp fits) val⟩
  | addSort val new =>
    obtain ⟨_, _, _, added, _⟩ := @addSort _ _ _ cmp _ _ _ kept new (mt same.mp fits) val
    exact ⟨_, added⟩
  | addAfter pp val new =>
    cases pp with
    | none => exact ⟨_, (kept.prepend (mt same.mp fits) val).miss rfl⟩
    | some pp =>
      obtain ⟨front, back, split⟩ := place fits.2
      exact ⟨_, (kept.addNodeNext (mt same.mp fits.1) val split).miss rfl⟩
  | addNodePrev current val new =>
    obtain ⟨front, back, split⟩ := place fits.2
    exact ⟨_, kept.insertBefore (mt same.mp fits.1) val split⟩
  | addNodeNext current val new =>
    obtain ⟨front, back, split⟩ := place fits.2
    exact ⟨_, kept.addNodeNext (mt same.mp fits.1) val split⟩
  | delete val =>
    rw [Linklist.call, listnodeDelete, kept.find]
    cases found : order.find? fun node => list.data node = val with
    | none => exact ⟨order, kept⟩
    | some node =>
      obtain ⟨_, front, back, split, _⟩ := find?_eq_some_iff_append.mp found
      exact ⟨_, kept.deleteNode split⟩
  | deleteNode node =>
    obtain ⟨front, back, split⟩ := place fits
    exact ⟨_, kept.deleteNode split⟩
  | deleteAllNode =>
    refine ⟨[],
      ⟨?_, ?_, ?_, fun split => absurd split (by simp), fun split => absurd split (by simp),
      nodup_nil⟩, .nil, rfl⟩ <;> simp [Linklist.call, listDeleteAllNode, Links.clear]

theorem run [DecidableEq Data] {calls : List (ListCall Node Data)}
    (run : Allowed (Linklist.call cmp) Fits list calls) :
    ∃ order', (calls.foldl (Linklist.call cmp) list).Kept
      (calls.foldl uncounted missed) order' := by
  induction calls generalizing list missed order with
  | nil => exact ⟨order, kept⟩
  | cons call rest ih =>
    obtain ⟨_, after⟩ := @Kept.call _ _ _ cmp _ _ _ kept _ call run.1
    exact ih after run.2

theorem sorted {less : Data → Data → Int} (ordered : CmpOrder less) {new}
    (unused : new ∉ list.nodes) (val : Data)
    (sorted : Sorted less (list.forward list.nodes.length)) :
    Sorted less ((list.listnodeAddSort (some less) val new).forward (list.nodes.length + 1)) := by
  have fresh : new ∉ order := mt kept.used.mem_iff.mp unused
  obtain ⟨front, back, rfl, added, place⟩ := @addSort _ _ _ (some less) _ _ _ kept new fresh val
  obtain ⟨early, late⟩ := place less rfl
  have own : (list.listnodeAddSort (some less) val new).data new = val := update_self ..
  have old : ∀ n ∈ front ++ back, (list.listnodeAddSort (some less) val new).data n =
      list.data n := by
    intro n member
    refine update_of_ne ?_ ..
    rintro rfl
    exact fresh member
  rw [(kept.walks (Nat.le_refl _)).1, Sorted, pairwise_map] at sorted
  rw [(added.walks (Nat.le_refl (list.nodes.length + 1))).1, Sorted, pairwise_map]
  refine pairwise_insert (sorted.imp_of_mem fun {first second} firstIn secondIn => ?_)
    (fun n member => ?_) fun n member => ?_
  · rw [old first firstIn, old second secondIn]
    exact id
  · rw [own, old n (mem_append_left _ member)]
    exact early n member
  · rw [own, old n (mem_append_right _ member)]
    cases back with
    | nil => exact absurd member not_mem_nil
    | cons top back =>
      have below := ordered.asymm (late top rfl)
      rcases mem_cons.mp member with rfl | behind
      · exact below
      · exact ordered.trans below ((pairwise_cons.mp (pairwise_append.mp sorted).2.1).1 n behind)

end Kept

omit [DecidableEq Node] in
theorem kept_new (data : Node → Data) : ({ data } : Linklist Node Data).Kept 0 [] :=
  ⟨⟨rfl, rfl, rfl, fun split => absurd split (by simp), fun split => absurd split (by simp),
    nodup_nil⟩, .nil, rfl⟩

/-- The links are right in both directions whatever is called, and the count is where
`listnode_add_after` was not called since the list was emptied. -/
theorem listnode_walks [DecidableEq Data] (data : Node → Data) (calls : List (ListCall Node Data))
    (run : Allowed (Linklist.call cmp) Fits { data } calls) :
    let list := calls.foldl (Linklist.call cmp) { data }
    (∀ rounds ≥ list.nodes.length, list.forward rounds = (list.backward rounds).reverse ∧
      (list.forward rounds).Perm (list.nodes.map list.data)) ∧
    (list.count = (list.forward list.nodes.length).length ↔ calls.foldl uncounted 0 = 0) ∧
    ∀ less, cmp = some less → CmpOrder less → ∀ val new, list.Fits (.addSort val new) →
      Sorted less (list.forward list.nodes.length) →
      Sorted less ((list.listnodeAddSort cmp val new).forward (list.nodes.length + 1)) := by
  obtain ⟨order, kept⟩ := (kept_new data).run run
  refine ⟨fun rounds enough => ?_, ?_, ?_⟩
  · obtain ⟨there, back⟩ := kept.walks enough
    rw [there, back, reverse_reverse]
    exact ⟨rfl, kept.used.map _⟩
  · have count := kept.count
    rw [(kept.walks (Nat.le_refl _)).1, length_map]
    omega
  · rintro less rfl ordered val new unused sorted
    exact kept.sorted ordered unused val sorted

def numberCmp (first second : Nat) : Int := first - second

/-- Additions in front, at the end, beside a node and where they belong; two nodes go. -/
def sampleCalls : List (ListCall Nat Nat) :=
  [.add 5 0, .addSort 9 1, .addSort 3 2, .addNodePrev 1 7 3, .addNodeNext 2 4 4, .addNodeNext 1 9 5,
    .delete 9, .deleteNode 4,
    .addSort 6 6]

/-- The walks of a sorted list, its count, and one more element where it belongs. -/
theorem listnode_walks_sorted :
    let list := sampleCalls.foldl (call (some numberCmp)) { data := id }
    list.forward 5 = [3, 5, 6, 7, 9] ∧ list.forward 5 = (list.backward 5).reverse ∧ list.count = 5 ∧
      Sorted numberCmp ((list.listnodeAddSort (some numberCmp) 8 7).forward 6) := by
  have run : Allowed (call (some numberCmp)) Fits { data := id } sampleCalls := by decide
  have walks := listnode_walks id sampleCalls run
  have ordered : CmpOrder numberCmp := by
    constructor <;> simp only [numberCmp] <;> omega
  exact ⟨by decide, (walks.1 5 (by decide)).1, walks.2.1.mpr (by decide),
    walks.2.2 numberCmp rfl ordered 8 7 (by decide) (by decide +kernel)⟩

/-- The one element of a list whose count is zero. -/
theorem listnode_uncounted :
    let list := ({ data := id } : Linklist Nat Nat).listnodeAddAfter none 5 0
    list.forward 1 = [5] ∧ list.count = 0 := by decide

end Linklist
end Zebra
