import Zebra.Base.Linked

/-! Lists that are linked through their nodes, in both directions. A list is known by its head; a
node has one pair of links and so can be on one list only. -/
namespace Zebra.Base.Chain
open Function Linked List
variable {Head Node : Type}

/-- The heads of the lists and the links of the nodes. -/
structure Links (Head Node : Type) where
  head : Head → Option Node := fun _ => none
  next : Node → Option Node := fun _ => none
  prev : Node → Option Node := fun _ => none

/-- The nodes from `first` on, the node before it being `before`. -/
def Follows (links : Links Head Node) : Option Node → Option Node → List Node → Prop
  | _, first, [] => first = none
  | before, first, node :: rest =>
    first = some node ∧ links.prev node = before ∧ Follows links (some node) (links.next node) rest

/-- The nodes from `first` on, by their forward links alone. -/
def Trail (links : Links Head Node) : Option Node → List Node → Prop
  | first, [] => first = none
  | first, node :: rest => first = some node ∧ Trail links (links.next node) rest

section Follows
variable {links other : Links Head Node} {before first : Option Node} {nodes : List Node}

theorem follows_iff : Follows links before first nodes ↔ first = nodes.head? ∧
    ∀ {front node back}, nodes = front ++ node :: back →
      links.next node = back.head? ∧ links.prev node = front.getLast?.or before := by
  induction nodes generalizing before first with
  | nil => exact ⟨fun none => ⟨none, by simp⟩, And.left⟩
  | cons top rest ih =>
    rw [Follows, ih]
    constructor
    · rintro ⟨starts, prev, next, linked⟩
      refine ⟨starts, fun {front node back} split => ?_⟩
      cases front with
      | nil =>
        cases split
        exact ⟨next, prev⟩
      | cons head front =>
        obtain ⟨rfl, later⟩ := cons.inj split
        obtain ⟨after, back⟩ := linked later
        refine ⟨after, back.trans ?_⟩
        cases front <;> simp [getLast?_cons]
    · rintro ⟨starts, linked⟩
      obtain ⟨next, prev⟩ := linked (nil_append (top :: rest)).symm
      refine ⟨starts, prev, next, fun {front node back} split => ?_⟩
      obtain ⟨after, back⟩ :=
        linked (show top :: rest = (top :: front) ++ node :: back from congrArg (top :: ·) split)
      refine ⟨after, back.trans ?_⟩
      cases front <;> simp [getLast?_cons]

section
variable (follows : Follows links before first nodes)
include follows

theorem Follows.congr
    (same : ∀ node ∈ nodes, other.next node = links.next node ∧ other.prev node = links.prev node) :
    Follows other before first nodes := by
  induction nodes generalizing before first with
  | nil => exact follows
  | cons node rest ih =>
    obtain ⟨starts, prev, follows⟩ := follows
    have here := same node mem_cons_self
    refine ⟨starts, here.2.trans prev, ?_⟩
    rw [here.1]
    exact ih follows fun other member => same other (.tail _ member)

theorem Follows.trail : Trail links first nodes := by
  induction nodes generalizing before first with
  | nil => exact follows
  | cons node rest ih => exact ⟨follows.1, ih follows.2.2⟩

theorem Follows.first_mem {node} (starts : first = some node) : node ∈ nodes := by
  cases nodes with
  | nil => cases starts.symm.trans follows
  | cons head rest =>
    have same : head = node := Option.some.inj (follows.1.symm.trans starts)
    exact same ▸ mem_cons_self

theorem Follows.next_ne (nodup : nodes.Nodup) {node} (member : node ∈ nodes) :
    links.next node ≠ some node := by
  obtain ⟨front, back, rfl⟩ := append_of_mem member
  rw [((follows_iff.mp follows).2 rfl).1]
  exact fun loop => (nodup_cons.mp (nodup_append.mp nodup).2.1).1 (mem_of_head? loop)

end

theorem Trail.congr (trail : Trail links first nodes)
    (same : ∀ node ∈ nodes, other.next node = links.next node) :
    Trail other first nodes := by
  induction nodes generalizing first with
  | nil => exact trail
  | cons node rest ih =>
    refine ⟨trail.1, ?_⟩
    rw [same node mem_cons_self]
    exact ih trail.2 fun other member => same other (.tail _ member)

theorem follows_none : Follows links none first nodes ↔
    first = nodes.head? ∧ Chained links.next links.prev nodes := by
  simp only [follows_iff, Option.or_none]
  exact and_congr_right fun _ =>
    ⟨fun linked => ⟨fun split => (linked split).1, fun split => (linked split).2⟩,
    fun chained _ _ _ split => ⟨chained.next split, chained.prev split⟩⟩

end Follows

variable [DecidableEq Head] [DecidableEq Node]

section
variable (links : Links Head Node) (head : Head)

/-- A node is put in front of a list. -/
def Links.push (node : Node) : Links Head Node :=
  let alone := update links.prev node none
  { head := update links.head head (some node)
    next := update links.next node (links.head head)
    prev := match links.head head with
      | some first => update alone first (some node)
      | none => alone }

/-- A node is taken out of a list; the head is written where the node has no predecessor. -/
def Links.unlink (node : Node) : Links Head Node :=
  let prev := match links.next node with
    | some after => update links.prev after (links.prev node)
    | none => links.prev
  match prev node with
  | some before => { links with prev, next := update links.next before (links.next node) }
  | none => { links with prev, head := update links.head head (links.next node) }

/-- The head of a list is cleared. -/
def Links.detach : Links Head Node :=
  { links with head := update links.head head none }

end

/-- The lists of all heads; no node is on two of them. -/
structure Links.Filed (links : Links Head Node) (lists : Head → List Node) : Prop where
  follows : ∀ head, Follows links none (links.head head) (lists head)
  nodup : ∀ head, (lists head).Nodup
  apart : ∀ {head other node}, node ∈ lists head → node ∈ lists other → head = other

section Filed
variable {links : Links Head Node} {lists : Head → List Node}

theorem push_next {head node other} (apart : other ≠ node) :
    (links.push head node).next other = links.next other :=
  update_of_ne apart ..

theorem push_prev {head node other} (apart : other ≠ node) (later : links.head head ≠ some other) :
    (links.push head node).prev other = links.prev other := by
  rw [Links.push]
  split
  · rename_i first found
    have different : other ≠ first := fun same => later (same ▸ found)
    dsimp only
    rw [update_of_ne different, update_of_ne apart]
  · exact update_of_ne apart ..

/-- What taking a node out does to the links of the other nodes, where no node follows itself. -/
theorem unlink_links (links : Links Head Node) (head : Head) {node}
    (forward : links.next node ≠ some node) :
    (∀ other, (links.unlink head node).prev other =
        if links.next node = some other then links.prev node else links.prev other) ∧
    (∀ other, (links.unlink head node).next other =
        if links.prev node = some other then links.next node else links.next other) ∧
    ∀ other, (links.unlink head node).head other =
        if links.prev node = none ∧ other = head then links.next node else links.head other := by
  have prevs : ∀ other, (match links.next node with
      | some after => update links.prev after (links.prev node)
      | none => links.prev) other = if links.next node = some other then links.prev node
        else links.prev other := by
    intro other
    cases links.next node with
    | none => simp
    | some after =>
      by_cases same : other = after
      · subst same
        simp
      · rw [if_neg fun equal => same (Option.some.inj equal).symm]
        exact update_of_ne same ..
  have own := prevs node
  rw [if_neg forward] at own
  rw [Links.unlink]
  split
  · rename_i before found
    rw [own] at found
    refine ⟨prevs, fun other => ?_, fun other => ?_⟩
    · by_cases same : other = before
      · subst same
        rw [if_pos found]
        exact update_self ..
      · rw [if_neg fun equal => same (Option.some.inj (found.symm.trans equal)).symm]
        exact update_of_ne same ..
    · rw [if_neg fun both => absurd (both.1.symm.trans found) (by simp)]
  · rename_i found
    rw [own] at found
    refine ⟨prevs, fun other => ?_, fun other => ?_⟩
    · rw [if_neg fun equal => absurd (found.symm.trans equal) (by simp)]
    · by_cases same : other = head
      · subst same
        rw [if_pos ⟨found, rfl⟩]
        exact update_self ..
      · rw [if_neg fun both => same both.2]
        exact update_of_ne same ..

section
variable (filed : links.Filed lists)
include filed

omit [DecidableEq Node] in
theorem Links.Filed.change {changed : Links Head Node} {head : Head} {nodes : List Node}
    (follows : Follows changed none (changed.head head) nodes) (nodup : nodes.Nodup)
    (others : ∀ other ≠ head, changed.head other = links.head other ∧
      ∀ node ∈ lists other, changed.next node = links.next node ∧
        changed.prev node = links.prev node)
    (mine : ∀ node ∈ nodes, ∀ other, node ∈ lists other → other = head) :
    changed.Filed (update lists head nodes) := by
  refine ⟨fun other => ?_, fun other => ?_, Apart.update (fun {_ _ _} => filed.apart) mine⟩
  · by_cases same : other = head
    · rwa [same, update_self]
    · rw [update_of_ne same, (others other same).1]
      exact (filed.follows other).congr (others other same).2
  · by_cases same : other = head
    · rwa [same, update_self]
    · rw [update_of_ne same]
      exact filed.nodup other

theorem Links.Filed.push (head : Head) {node} (fresh : ∀ head, node ∉ lists head) :
    (links.push head node).Filed (update lists head (node :: lists head)) := by
  have different : ∀ other, ∀ member ∈ lists other, member ≠ node := fun other member inside same =>
    fresh other (same ▸ inside)
  obtain ⟨starts, chained⟩ := follows_none.mp (filed.follows head)
  have nodup : (node :: lists head).Nodup := nodup_cons.mpr ⟨fresh head, filed.nodup head⟩
  have prevs : ∀ other ≠ node, (links.push head node).prev other =
      if (lists head).head? = some other then some node else links.prev other := by
    intro other apart
    by_cases first : (lists head).head? = some other
    · rw [if_pos first, Links.push, starts, first]
      exact update_self ..
    · rw [if_neg first]
      exact push_prev apart (starts ▸ first)
  refine filed.change (follows_none.mpr ⟨update_self .., ?_⟩) nodup
    (fun other apart => ⟨update_of_ne apart .., ?_⟩) ?_
  · refine @Chained.put _ _ _ [] (lists head) node _ _ _ [] chained nodup (by simp)
      (fun other member => ?_) (by simp)
      (fun other member => ?_) (starts ▸ update_self ..) ?_
    · exact push_next (different head other member)
    · exact prevs other (different head other member)
    · rw [Links.push]
      split
      · rename_i first found
        have apart : node ≠ first :=
          fun same => fresh head (same ▸ mem_of_head? (starts.symm.trans found))
        dsimp only
        rw [update_of_ne apart, update_self]
        rfl
      · exact update_self ..
  · intro member inside
    refine ⟨push_next (different other member inside), ?_⟩
    rw [prevs member (different other member inside), if_neg]
    exact fun first => apart (filed.apart inside (mem_of_head? first))
  · intro member inside other there
    rcases mem_cons.mp inside with rfl | mine
    · exact absurd there (fresh other)
    · exact filed.apart there mine

omit [DecidableEq Node] in
theorem Links.Filed.detach (head : Head) : (links.detach head).Filed (update lists head []) :=
  filed.change (update_self ..) List.nodup_nil
    (fun _ apart => ⟨update_of_ne apart .., fun _ _ => ⟨rfl, rfl⟩⟩)
    nofun

theorem Links.Filed.unlink {head node} (member : node ∈ lists head) :
    (links.unlink head node).Filed (update lists head ((lists head).erase node)) := by
  obtain ⟨prevs, nexts, heads⟩ :=
    unlink_links links head ((filed.follows head).next_ne (filed.nodup head) member)
  obtain ⟨starts, chained⟩ := follows_none.mp (filed.follows head)
  obtain ⟨front, back, split⟩ := append_of_mem member
  have next := chained.next split
  have prev := chained.prev split
  have nodup := filed.nodup head
  rw [split] at nodup starts
  obtain ⟨gone, nodup⟩ := nodup_cons.mp (nodup_middle.mp nodup)
  have apart := (nodup_append.mp nodup).2.2
  have left : (lists head).erase node = front ++ back := by
    rw [split, erase_append_right _ fun inside => gone (mem_append_left _ inside), erase_cons_head]
  have inside : ∀ {other}, other ∈ front ++ back → other ∈ lists head := by
    rw [split]
    simp only [mem_append, mem_cons] at member ⊢
    tauto
  have whole : Chained links.next links.prev (front ++ [node] ++ back) := by
    rw [append_assoc]
    exact split ▸ chained
  rw [left]
  refine filed.change (follows_none.mpr ⟨?_, ?_⟩) nodup
    (fun other differs => ⟨?_, fun inner there => ⟨?_, ?_⟩⟩)
    fun other member list there => filed.apart there (inside member)
  · rw [heads, prev, next, starts]
    cases front <;> simp
  · refine whole.cut nodup (fun other _ => by rw [nexts, prev, next]) (fun other member => ?_)
      (fun other member => ?_)
      fun other _ => by rw [prevs, prev, next]
    · rw [nexts, prev, if_neg]
      exact fun last => apart other (mem_of_getLast? last) other member rfl
    · rw [prevs, next, if_neg]
      exact fun first => apart other member other (mem_of_head? first) rfl
  · rw [heads, if_neg fun both => differs both.2]
  · rw [nexts, prev, if_neg]
    exact fun last =>
      differs (filed.apart there (inside (mem_append_left _ (mem_of_getLast? last))))
  · rw [prevs, next, if_neg]
    exact fun first =>
      differs (filed.apart there (inside (mem_append_right _ (mem_of_head? first))))

end
end Filed
end Zebra.Base.Chain
