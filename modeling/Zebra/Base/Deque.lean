import Zebra.Base.Linked

/-! Lists with a head, a tail and a count, linked through their nodes in both directions. A node has
one pair of links and so can be on one list only. -/
namespace Zebra.Base.Deque
open Function Linked List
variable {Head Node : Type}

/-- The heads, tails and counts of the lists and the links of the nodes. -/
structure Links (Head Node : Type) where
  head : Head → Option Node := fun _ => none
  tail : Head → Option Node := fun _ => none
  count : Head → Int := fun _ => 0
  next : Node → Option Node := fun _ => none
  prev : Node → Option Node := fun _ => none

section Operations
variable [DecidableEq Head] [DecidableEq Node]

/-- A link of the node at `place` is written, if there is one. -/
def writeAt (link : Node → Option Node) (place value : Option Node) : Node → Option Node :=
  match place with
  | some node => update link node value
  | none => link

theorem writeAt_apply (link : Node → Option Node) (place value : Option Node) (node : Node) :
    writeAt link place value node = if place = some node then value else link node := by
  cases place with
  | none => rfl
  | some there =>
    rw [writeAt, update_apply]
    exact if_congr (by rw [Option.some_inj, eq_comm]) rfl rfl

section
variable (links : Links Head Node) (list : Head)

/-- A node is put at the end of a list. -/
def Links.append (node : Node) : Links Head Node where
  head := if (links.tail list).isSome then links.head else update links.head list (some node)
  tail := update links.tail list (some node)
  count := update links.count list (links.count list + 1)
  next := writeAt (update links.next node none) (links.tail list) (some node)
  prev := update links.prev node (links.tail list)

/-- A node is put before `point`. -/
def Links.insertBefore (point node : Node) : Links Head Node where
  head := if (links.prev point).isSome then links.head else update links.head list (some node)
  tail := links.tail
  count := update links.count list (links.count list + 1)
  next := writeAt (update links.next node (some point)) (links.prev point) (some node)
  prev := update (update links.prev node (links.prev point)) point (some node)

/-- A node is taken out of a list. -/
def Links.delete (node : Node) : Links Head Node where
  head := if (links.prev node).isSome then links.head else update links.head list (links.next node)
  tail := if (links.next node).isSome then links.tail else update links.tail list (links.prev node)
  count := update links.count list (links.count list - 1)
  next := update (writeAt links.next (links.prev node) (links.next node)) node none
  prev := update (writeAt links.prev (links.next node) (links.prev node)) node none

/-- A list is empty; its nodes are no longer used. -/
def Links.clear : Links Head Node :=
  { links with
    head := update links.head list none
    tail := update links.tail list none
    count := update links.count list 0 }

end

section Fields
variable (links : Links Head Node) (list : Head) (point node other : Node)

omit [DecidableEq Node] in
theorem unless_apply (ends : Head → Option Node) (neighbour value : Option Node) :
    (if neighbour.isSome then ends else update ends list value) list = if neighbour.isSome then
      ends list else value := by
  split
  · rfl
  · exact update_self ..

omit [DecidableEq Node] in
theorem unless_apply_ne {other : Head} (different : other ≠ list) (ends : Head → Option Node)
    (neighbour value : Option Node) :
    (if neighbour.isSome then ends else update ends list value) other = ends other := by
  split
  · rfl
  · exact update_of_ne different ..

theorem append_next : (links.append list node).next other =
    if links.tail list = some other then some node else if other = node then none
    else links.next other :=
  (writeAt_apply ..).trans (by rw [update_apply])

theorem append_prev : (links.append list node).prev other = if other = node then links.tail list
    else links.prev other :=
  update_apply ..

theorem insertBefore_next : (links.insertBefore list point node).next other =
    if links.prev point = some other then some node else if other = node then some point
    else links.next other :=
  (writeAt_apply ..).trans (by rw [update_apply])

theorem insertBefore_prev : (links.insertBefore list point node).prev other =
    if other = point then some node else if other = node then links.prev point
    else links.prev other :=
  (update_apply ..).trans (by rw [update_apply])

theorem delete_next : (links.delete list node).next other =
    if other = node then none else if links.prev node = some other then links.next node
    else links.next other :=
  (update_apply ..).trans (by rw [writeAt_apply])

theorem delete_prev : (links.delete list node).prev other =
    if other = node then none else if links.next node = some other then links.prev node
    else links.prev other :=
  (update_apply ..).trans (by rw [writeAt_apply])

end Fields
end Operations

/-- The first node from `start` on that is looked for. -/
def Links.find (links : Links Head Node) (wanted : Node → Bool) : Nat → Option Node → Option Node
  | 0, _ => none
  | _ + 1, none => none
  | fuel + 1, some node => if wanted node then some node
    else links.find wanted fuel (links.next node)

/-- The nodes from `start` on, in order. -/
def Links.walk (links : Links Head Node) : Nat → Option Node → List Node
  | 0, _ => []
  | _ + 1, none => []
  | fuel + 1, some node => node :: links.walk fuel (links.next node)

theorem Links.find_eq (links : Links Head Node) (wanted : Node → Bool) (fuel : Nat)
    (start : Option Node) :
    links.find wanted fuel start = (links.walk fuel start).find? wanted := by
  induction fuel generalizing start with
  | zero => rfl
  | succ fuel ih =>
    cases start with
    | none => rfl
    | some node =>
      rw [find, walk, find?_cons, ih]
      cases wanted node <;> rfl

/-- The lists seen from the other end. -/
def Links.flip (links : Links Head Node) : Links Head Node where
  head := links.tail
  tail := links.head
  count := links.count
  next := links.prev
  prev := links.next

/-- The nodes of one list. -/
structure Links.Holds (links : Links Head Node) (list : Head) (nodes : List Node) : Prop where
  head : links.head list = nodes.head?
  tail : links.tail list = nodes.getLast?
  count : links.count list = nodes.length
  next : ∀ {before node after}, nodes = before ++ node :: after → links.next node = after.head?
  prev : ∀ {before node after}, nodes = before ++ node :: after → links.prev node = before.getLast?
  nodup : nodes.Nodup

/-- The nodes of all lists; no node is on two of them. -/
structure Links.Filed (links : Links Head Node) (lists : Head → List Node) : Prop where
  holds : ∀ list, links.Holds list (lists list)
  apart : ∀ {list other node}, node ∈ lists list → node ∈ lists other → list = other

theorem find_erase {Item : Type} (wanted : Item → Bool) (items : List Item) :
    (items.find? wanted = none ∧ items.eraseP wanted = items) ∨
      ∃ before found after, items.find? wanted = some found ∧ items = before ++ found :: after ∧
        items.eraseP wanted = before ++ after := by
  induction items with
  | nil => exact .inl ⟨rfl, rfl⟩
  | cons item rest ih =>
    cases hit : wanted item with
    | true =>
      rw [find?_cons_of_pos hit, eraseP_cons_of_pos hit]
      exact .inr ⟨[], item, rest, rfl, rfl, rfl⟩
    | false =>
      rw [find?_cons_of_neg (Bool.not_eq_true _ ▸ hit),
        eraseP_cons_of_neg (Bool.not_eq_true _ ▸ hit)]
      obtain ⟨absent, kept⟩ | ⟨before, found, after, present, whole, left⟩ := ih
      · exact .inl ⟨absent, congrArg (item :: ·) kept⟩
      · exact .inr ⟨item :: before, found, after, present, congrArg (item :: ·) whole,
          congrArg (item :: ·) left⟩

section Holds
variable {links : Links Head Node} {list : Head} {nodes : List Node}

section
variable (holds : links.Holds list nodes)
include holds

theorem Links.Holds.walk {before rest} (split : nodes = before ++ rest)
    {fuel} (enough : rest.length ≤ fuel) : links.walk fuel rest.head? = rest := by
  induction rest generalizing before fuel with
  | nil => cases fuel <;> rfl
  | cons node rest ih =>
    cases fuel with
    | zero => exact absurd enough (Nat.not_succ_le_zero _)
    | succ fuel =>
      rw [head?_cons, Links.walk, holds.next split]
      exact congrArg (node :: ·)
        (ih (split.trans (append_cons before node rest)) (Nat.le_of_succ_le_succ enough))

theorem Links.Holds.find (wanted : Node → Bool) {before rest}
    (split : nodes = before ++ rest) {fuel} (enough : rest.length ≤ fuel) :
    links.find wanted fuel rest.head? = rest.find? wanted := by
  rw [find_eq, holds.walk split enough]

theorem Links.Holds.congr {changed : Links Head Node}
    (head : changed.head list = links.head list) (tail : changed.tail list = links.tail list)
    (count : changed.count list = links.count list)
    (nexts : ∀ node ∈ nodes, changed.next node = links.next node)
    (prevs : ∀ node ∈ nodes, changed.prev node = links.prev node) : changed.Holds list nodes where
  head := head.trans holds.head
  tail := tail.trans holds.tail
  count := count.trans holds.count
  next split := (nexts _ (split ▸ mem_append_cons_self)).trans (holds.next split)
  prev split := (prevs _ (split ▸ mem_append_cons_self)).trans (holds.prev split)
  nodup := holds.nodup

end

variable [DecidableEq Head] [DecidableEq Node] {node : Node}

omit [DecidableEq Head] [DecidableEq Node] in
theorem Links.Holds.chained (holds : links.Holds list nodes) :
    Chained links.next links.prev nodes :=
  ⟨holds.next, holds.prev⟩

omit [DecidableEq Head] [DecidableEq Node] in
theorem Links.Holds.flip (holds : links.Holds list nodes) :
    links.flip.Holds list nodes.reverse where
  head := holds.tail.trans head?_reverse.symm
  tail := holds.head.trans getLast?_reverse.symm
  count := holds.count.trans (congrArg _ length_reverse.symm)
  next {before node after} split := by
    have back : nodes = after.reverse ++ node :: before.reverse := by
      simpa using congrArg reverse split
    exact (holds.prev back).trans getLast?_reverse
  prev {before node after} split := by
    have back : nodes = after.reverse ++ node :: before.reverse := by
      simpa using congrArg reverse split
    exact (holds.next back).trans head?_reverse
  nodup := nodup_reverse.mpr holds.nodup

theorem Links.Holds.append (holds : links.Holds list nodes) (fresh : node ∉ nodes) :
    (links.append list node).Holds list (nodes ++ [node]) := by
  have nodup : (nodes ++ [node]).Nodup :=
    holds.nodup.append (nodup_singleton node) (disjoint_singleton.mpr fresh)
  have different : ∀ other ∈ nodes, other ≠ node := fun other member same => fresh (same ▸ member)
  have whole : Chained links.next links.prev (nodes ++ [] ++ []) := by
    rw [append_nil, append_nil]
    exact holds.chained
  have chained :
      Chained (links.append list node).next (links.append list node).prev (nodes ++ [node]) := by
    refine whole.put nodup (fun other member => ?_) (by simp) (fun other member => ?_)
      (by simp) ?_ ?_
    · rw [append_next, holds.tail, if_neg (different other member)]
    · rw [append_prev, if_neg (different other member)]
    · rw [append_next, holds.tail, if_neg fun last => fresh (mem_of_getLast? last), if_pos rfl]
      rfl
    · rw [append_prev, if_pos rfl, holds.tail]
  refine ⟨?_, (update_self ..).trans getLast?_concat.symm, ?_, chained.next, chained.prev, nodup⟩
  · refine (unless_apply ..).trans ?_
    rw [holds.tail, holds.head]
    cases nodes <;> simp
  · rw [length_append, Int.natCast_add, ← holds.count]
    exact update_self ..

theorem Links.Holds.insertBefore {before after point}
    (holds : links.Holds list (before ++ point :: after))
    (fresh : node ∉ before ++ point :: after) :
    (links.insertBefore list point node).Holds list (before ++ node :: point :: after) := by
  have prev := holds.prev rfl
  have nodup : (before ++ node :: point :: after).Nodup :=
    nodup_middle.mpr (nodup_cons.mpr ⟨fresh, holds.nodup⟩)
  obtain ⟨_, behind, apart⟩ := nodup_append.mp holds.nodup
  have different : ∀ other, other ∈ before ∨ other ∈ point :: after → other ≠ node :=
      fun other member same =>
    fresh (same ▸ mem_append.mpr member)
  have notLast : ∀ other, other ∉ before → before.getLast? ≠ some other :=
    fun other out last => out (mem_of_getLast? last)
  have whole : Chained links.next links.prev (before ++ [] ++ point :: after) := by
    rw [append_nil]
    exact holds.chained
  have chained :
      Chained (links.insertBefore list point node).next (links.insertBefore list point node).prev
      (before ++ node :: point :: after) := by
    refine whole.put nodup (fun other member => ?_) (fun other member => ?_)
      (fun other member => ?_) (fun other member => ?_) ?_ ?_
    · rw [insertBefore_next, prev, if_neg (different other (.inl member))]
    · rw [insertBefore_next, prev, if_neg (different other (.inr member)),
        if_neg (notLast other fun inside => apart other inside other member rfl)]
    · rw [insertBefore_prev, if_neg (different other (.inl member)),
        if_neg (apart other member point mem_cons_self)]
    · rw [insertBefore_prev, if_neg (different other (.inr member))]
      exact if_congr (by rw [head?_cons, Option.some_inj, eq_comm]) rfl rfl
    · rw [insertBefore_next, prev,
        if_neg (notLast node fun inside => fresh (mem_append_left _ inside)), if_pos rfl]
      rfl
    · rw [insertBefore_prev, prev, if_neg (different point (.inr mem_cons_self)).symm, if_pos rfl]
  refine ⟨?_, ?_, ?_, chained.next, chained.prev, nodup⟩
  · refine (unless_apply ..).trans ?_
    rw [prev, holds.head]
    cases before <;> simp
  · refine holds.tail.trans ?_
    rw [getLast?_append_cons, getLast?_append_cons, getLast?_cons_cons]
  · refine (update_self ..).trans ?_
    rw [holds.count, length_append, length_append, length_cons, length_cons, length_cons]
    omega

theorem Links.Holds.delete {before after} (holds : links.Holds list (before ++ node :: after)) :
    (links.delete list node).Holds list (before ++ after) := by
  have prev := holds.prev rfl
  have next := holds.next rfl
  obtain ⟨gone, nodup⟩ := nodup_cons.mp (nodup_middle.mp holds.nodup)
  have apart := (nodup_append.mp nodup).2.2
  have different : ∀ other, other ∈ before ∨ other ∈ after → other ≠ node :=
      fun other member same =>
    gone (same ▸ mem_append.mpr member)
  have whole : Chained links.next links.prev (before ++ [node] ++ after) := by
    rw [append_assoc]
    exact holds.chained
  have chained :
      Chained (links.delete list node).next (links.delete list node).prev (before ++ after) := by
    refine whole.cut nodup (fun other member => ?_) (fun other member => ?_)
      (fun other member => ?_) fun other member => ?_
    · rw [delete_next, prev, next, if_neg (different other (.inl member))]
    · rw [delete_next, prev, if_neg (different other (.inr member)), if_neg]
      exact fun last => apart other (mem_of_getLast? last) other member rfl
    · rw [delete_prev, next, if_neg (different other (.inl member)), if_neg]
      exact fun first => apart other member other (mem_of_head? first) rfl
    · rw [delete_prev, prev, next, if_neg (different other (.inr member))]
  refine ⟨?_, ?_, ?_, chained.next, chained.prev, nodup⟩
  · refine (unless_apply ..).trans ?_
    rw [prev, next, holds.head]
    cases before <;> simp
  · refine (unless_apply ..).trans ?_
    rw [prev, next, holds.tail]
    cases after <;> simp
  · refine (update_self ..).trans ?_
    rw [holds.count, length_append, length_append, length_cons]
    omega

end Holds

section Filed
variable {links changed : Links Head Node} {lists : Head → List Node} [DecidableEq Head]

/-- One list changes, by nodes that were on no other list, and with it only the links of nodes that
  were on it or are. -/
theorem Links.Filed.change (filed : links.Filed lists) {list nodes}
    (holds : changed.Holds list nodes)
    (ends : ∀ other ≠ list, changed.head other = links.head other ∧
      changed.tail other = links.tail other ∧
      changed.count other = links.count other)
    (linked : ∀ m, m ∉ lists list → m ∉ nodes →
      changed.next m = links.next m ∧ changed.prev m = links.prev m)
    (mine : ∀ node ∈ nodes, node ∈ lists list ∨ ∀ other, node ∉ lists other) :
    changed.Filed (update lists list nodes) := by
  have outside : ∀ {m other}, m ∈ lists other → other ≠ list → m ∉ lists list ∧ m ∉ nodes := by
    intro m other there different
    have out : m ∉ lists list := fun here => different (filed.apart there here)
    exact ⟨out, fun inside => (mine m inside).elim out fun fresh => fresh other there⟩
  refine ⟨fun other => ?_, Apart.update (fun {_ _ _} => filed.apart) fun m inside other there => ?_⟩
  · by_cases same : other = list
    · subst same
      rw [update_self]
      exact holds
    · rw [update_of_ne same]
      obtain ⟨head, tail, count⟩ := ends other same
      have kept : ∀ m ∈ lists other, changed.next m = links.next m ∧
          changed.prev m = links.prev m := fun m there =>
        linked m (outside there same).1 (outside there same).2
      exact (filed.holds other).congr head tail count (fun m there => (kept m there).1)
        fun m there => (kept m there).2
  · by_contra different
    exact (outside there different).2 inside

variable [DecidableEq Node] {node : Node} {list : Head}

section
variable (filed : links.Filed lists)
include filed

theorem Links.Filed.append (list : Head) (fresh : ∀ list, node ∉ lists list) :
    (links.append list node).Filed (update lists list (lists list ++ [node])) := by
  refine filed.change ((filed.holds list).append (fresh list)) (fun other different =>
    ⟨unless_apply_ne list different .., update_of_ne different .., update_of_ne different ..⟩)
      (fun m out new => ?_) ?_
  · have apart : m ≠ node := fun same => new (same ▸ mem_concat_self)
    rw [append_next, append_prev, (filed.holds list).tail,
      if_neg fun last => out (mem_of_getLast? last), if_neg apart, if_neg apart]
    exact ⟨rfl, rfl⟩
  · intro m member
    rcases mem_append.mp member with mine | new
    · exact .inl mine
    · exact .inr (mem_singleton.mp new ▸ fresh)

theorem Links.Filed.insertBefore {before after : List Node} {point}
    (split : lists list = before ++ point :: after) (fresh : ∀ list, node ∉ lists list) :
    (links.insertBefore list point node).Filed
      (update lists list (before ++ node :: point :: after)) := by
  have prev := (filed.holds list).prev split
  refine filed.change ((split ▸ filed.holds list).insertBefore (split ▸ fresh list))
      (fun other different =>
    ⟨unless_apply_ne list different .., rfl, update_of_ne different ..⟩) (fun m _ out => ?_) ?_
  · obtain ⟨early, apart, notPoint, -⟩ :
      m ∉ before ∧ m ≠ node ∧ m ≠ point ∧ m ∉ after := by simpa using out
    rw [insertBefore_next, insertBefore_prev, prev, if_neg fun last => early (mem_of_getLast? last),
      if_neg apart, if_neg notPoint, if_neg apart]
    exact ⟨rfl, rfl⟩
  · intro m member
    rw [mem_append, mem_cons, ← or_left_comm, ← mem_append, ← split] at member
    rcases member with rfl | mine
    · exact .inr fresh
    · exact .inl mine

theorem Links.Filed.delete {before after : List Node}
    (split : lists list = before ++ node :: after) :
    (links.delete list node).Filed (update lists list (before ++ after)) := by
  have holds := filed.holds list
  have prev := holds.prev split
  have next := holds.next split
  refine filed.change (split ▸ holds).delete (fun other different =>
    ⟨unless_apply_ne list different .., unless_apply_ne list different ..,
      update_of_ne different ..⟩) (fun m out _ => ?_) ?_
  · obtain ⟨early, apart, late⟩ : m ∉ before ∧ m ≠ node ∧ m ∉ after := by simpa [split] using out
    rw [delete_next, delete_prev, prev, next, if_neg apart, if_neg apart,
      if_neg fun last => early (mem_of_getLast? last),
      if_neg fun first => late (mem_of_head? first)]
    exact ⟨rfl, rfl⟩
  · exact fun m member =>
      .inl (split ▸ ((sublist_cons_self node after).append_left before).subset member)

omit [DecidableEq Node] in
theorem Links.Filed.clear (list : Head) : (links.clear list).Filed (update lists list []) := by
  refine filed.change ?_ (fun other different =>
    ⟨update_of_ne different .., update_of_ne different .., update_of_ne different ..⟩)
    (fun _ _ _ => ⟨rfl, rfl⟩) nofun
  exact ⟨update_self .., update_self .., update_self .., by simp, by simp,
    nodup_nil⟩

end
end Filed
end Zebra.Base.Deque
