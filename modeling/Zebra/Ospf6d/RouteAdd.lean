import Zebra.Ospf6d.RouteUpdate

namespace Zebra.Ospf6d
open Option
open Function Base.Linked Base.Deque List
namespace Ospf6RouteTable
variable {t after : Ospf6RouteTable} {held : RouteId → Nat} {order front passed back : List RouteId}
  {id old other : RouteId} {route found : Ospf6Route} {place : Place} {node : NodeId}

/-- What a table has to be for a route to be added: sound, with a seat for the route. -/
structure Ready (t : Ospf6RouteTable) (held : RouteId → Nat) (order : List RouteId) (id : RouteId)
    (route : Ospf6Route) (node : NodeId) : Prop where
  sound : t.Sound held order
  few : t.FewLocks
  out : id ∉ order
  free : held id = 0
  seated : t.Seated id route node
  valid : route.ValidPath
  agrees : t.Agrees order route

/-- A route that is marked as the best one gets in front, or replaces nothing it does not equal. -/
def Unmarked (t : Ospf6RouteTable) (order : List RouteId) (id : RouteId)
    (route : Ospf6Route) : Prop :=
  IsBest (t.flag id) → route.Leads (t.contents order)

namespace Ready
section
variable (ready : t.Ready held order id route node)
include ready

theorem alive : t.routes id ≠ none := by
  rw [ready.seated.found]
  exact nofun

theorem lock {listed : List RouteId} (here : id ∈ listed)
    (others : ∀ other ≠ id, other ∈ listed ↔ other ∈ order) (there : t.routes other ≠ none) :
    update t.lock id 1 other = (if other ∈ listed then 1 else 0) + held other := by
  by_cases same : other = id
  · rw [same, update_self, if_pos here, ready.free]
  · rw [update_of_ne same, ready.sound.lock there, if_congr (others other same) rfl rfl]

theorem fewLocks (routes : after.routes = t.routes) (lock : after.lock = update t.lock id 1) :
    after.FewLocks := by
  refine ready.few.mono fun other there => ?_
  rw [lock]
  by_cases same : other = id
  · rw [same, update_self]
    exact .inl (Nat.le_refl 1)
  · rw [update_of_ne same]
    exact .inr ⟨routes ▸ there, le_rfl⟩

end
end Ready

section Insert

/-- Where a route comes in the table stays in order, and a route with a passed route in front of it
is not marked as the best one, unless it is in the table already. -/
theorem Searched.comes_in {gone}
    (searched : t.Searched order route front passed (gone ++ back) place)
    (ready : t.Ready held order id route node) (unmarked : t.Unmarked order id route)
    (differs : ∀ other ∈ gone, ∀ found, t.routes other = some found → ¬ found.IsIdentical route)
    (fits : ∀ other ∈ back, ∀ found, t.routes other = some found → found.Kin route →
      route.preference found ≤ 0 ∧ ¬ found.SameOrigin route) :
    InOrder t.wordOf (front ++ passed ++ id :: back) ∧
    (front ++ passed ++ id :: back).Pairwise t.Sorts ∧
      (passed ≠ [] → ¬ IsBest (t.flag id)) := by
  have agrees := ready.agrees
  have kept : (front ++ passed ++ back).Sublist order := by
    rw [searched.split, ← append_assoc front]
    exact Sublist.append_left (sublist_append_right gone back) _
  have behind : ∀ other ∈ back, other ∈ order :=
    fun other member => kept.subset (mem_append_right _ member)
  have word := wordOf_eq ready.seated.found
  refine ⟨pairwise_insert (ready.sound.inOrder.sublist kept) (fun other member => ?_)
    fun other member => ?_,
    pairwise_insert (ready.sound.sorted.sublist kept) (searched.sorts_front ready.seated.found)
      (sorts_back ready.seated.found agrees behind fits), fun more marked => ?_⟩
  · rw [word]
    exact searched.front_le other member
  · rw [word]
    exact searched.behind other (mem_append_right _ member)
  have new : ∀ other ∈ gone ++ back, ∀ found, t.routes other = some found →
      ¬ found.IsIdentical route := by
    intro other inside found present identical
    rcases mem_append.mp inside with out | member
    · exact differs other out found present identical
    · have same := agrees found (mem_contents.mpr ⟨other, behind other member, present⟩)
        (by rw [identical])
      refine (fits other member found present ⟨same, by rw [identical]⟩).2 ?_
      rw [identical]
      exact ⟨rfl, rfl⟩
  obtain ⟨first, rest, isPassed⟩ := exists_cons_of_ne_nil more
  obtain ⟨found, present, same, passes⟩ := searched.passes first (isPassed ▸ mem_cons_self)
  have notFront : ∀ other ∈ t.contents front, other.p.bits ≠ route.p.bits := by
    intro other member equal
    obtain ⟨place, inside, presentOther⟩ := mem_contents.mp member
    have less := searched.before place inside
    rw [wordOf_eq presentOther, equal] at less
    exact lt_irrefl _ less
  have split : t.contents order = t.contents front ++
      found :: (t.contents rest ++ t.contents (gone ++ back)) := by
    rw [searched.split, contents_append, isPassed, cons_append, contents_cons present,
      contents_append]
  obtain ⟨same_, member, identical⟩ | leads := unmarked marked
  · have kin : same_.Kin route := ⟨agrees same_ member (by rw [identical]), by rw [identical]⟩
    have origin : same_.SameOrigin route := by
      rw [identical]
      exact ⟨rfl, rfl⟩
    obtain ⟨other, inside, presentOther⟩ := mem_contents.mp member
    rw [searched.split] at inside
    rcases mem_append.mp inside with early | late
    · exact notFront same_ (mem_contents.mpr ⟨other, early, presentOther⟩) kin.1.bits
    · rcases mem_append.mp late with passed | behind
      · obtain ⟨again, presentAgain, _, skipped⟩ := searched.passes other passed
        rw [presentOther] at presentAgain
        cases presentAgain
        exact (skipped kin).1 origin
      · exact new other behind same_ presentOther identical
  · have isFirst : (t.contents order).find? (fun found => found.IsSame route) = some found := by
      have none_ : (t.contents front).find? (fun found => found.IsSame route) = none := by
        rw [find?_eq_none]
        intro other member isSame
        exact notFront other member (of_decide_eq_true isSame).bits
      rw [split, find?_append, none_, none_or]
      exact find?_cons_of_pos (decide_eq_true same)
    obtain ⟨types, origin | less⟩ := leads found isFirst
    · exact (passes ⟨same, types⟩).1 origin
    · exact not_lt.mpr (passes ⟨same, types⟩).2 less

/-- The neighbours of an inserted route: the last route in front of its place, and the first one
  behind it. -/
theorem neighbours (sound : t.Sound held order)
    (searched : t.Searched order route front passed back place) (new : place.old = none) :
    (if place.prev = none then place.next.bind t.prev else place.prev) =
      (front ++ passed).getLast? ∧
      (if place.next = none then (front ++ passed).getLast?.bind t.next else place.next) =
        back.head? := by
  have regroup : order = front ++ passed ++ back := searched.split.trans (append_assoc ..).symm
  rw [searched.stops.prev_eq, searched.stops.next_eq new]
  constructor
  · cases isPassed : passed with
    | nil =>
      rw [getLast?_nil, if_pos rfl, append_nil]
      have more := searched.some_
      rw [isPassed, nil_append] at more
      obtain ⟨first, rest, isBack⟩ := exists_cons_of_ne_nil more
      rw [isPassed, isBack, append_nil] at regroup
      rw [isBack, head?_cons, bind_some, sound.chained.prev regroup]
    | cons first rest =>
      have some_ : (first :: rest).getLast? ≠ none := by simp
      rw [if_neg some_, getLast?_append_of_ne_nil _ (cons_ne_nil first rest)]
  · cases isBack : back with
    | nil =>
      have more := searched.some_
      rw [isBack, append_nil] at more
      obtain ⟨rest, last, isPassed⟩ := (eq_nil_or_concat passed).resolve_left more
      rw [concat_eq_append] at isPassed
      have whole : order = (front ++ rest) ++ last :: [] := by
        rw [regroup, isBack, isPassed, append_nil, append_assoc]
      rw [isPassed, ← append_assoc, getLast?_concat, bind_some, sound.chained.next whole]
      rfl
    | cons first rest => rfl

/-- A route that comes in between and replaces none. -/
theorem Ready.inserts (ready : t.Ready held order id route node) (split : order = front ++ back)
    (led : t.Led (front ++ id :: back) after.table after.flag)
    (next : ∀ other, after.next other =
      if other = id then back.head? else if front.getLast? = some other then some id
      else t.next other)
    (prev : ∀ other, after.prev other =
      if other = id then front.getLast? else if back.head? = some other then some id
      else t.prev other)
    (inOrder : InOrder t.wordOf (front ++ id :: back))
    (sorted : (front ++ id :: back).Pairwise t.Sorts)
    (routes : after.routes = t.routes) (rnode : after.rnode = t.rnode)
    (fresh : after.fresh = t.fresh)
    (lock : after.lock = update t.lock id 1) (count : after.count = (t.count + 1) % 2 ^ 32) :
    after.Sound held (front ++ id :: back) ∧ after.FewLocks ∧ after.routes id ≠ none := by
  have sound := ready.sound
  have before : t.Sound held (front ++ [] ++ back) := by
    rw [append_nil]
    exact split ▸ sound
  refine ⟨before.put (split ▸ ready.out) ready.seated ready.valid
    (split ▸ sound.nodup) led next prev routes rnode fresh
    inOrder sorted (fun {other} there => ?_) (fun more => ⟨sound.holders more, .inr more⟩) ?_,
      ready.fewLocks routes lock,
    routes ▸ ready.alive⟩
  · rw [lock]
    refine ready.lock mem_append_cons_self (fun another apart => ?_) there
    rw [split]
    simp only [mem_append, mem_cons, apart, false_or]
  · rw [count, sound.count, split]
    simp only [length_append, length_cons]
    omega

/-- Who leads the prefix of a route that comes in behind those it passed: the first of them, or else
the route itself, once the node carries it. -/
theorem Searched.led {gone : List RouteId}
    (searched : t.Searched order route front passed (gone ++ back) place)
    (ready : t.Ready held order id route node) (notBest : passed ≠ [] → ¬ IsBest (t.flag id))
    (goneWord : ∀ other ∈ gone, t.wordOf other = route.p.bits) :
    ∃ seat, t.table.nodes node = some seat ∧ seat.p.bits = route.p.bits ∧
      seat.info = (passed ++ (gone ++ back)).head? ∧
      (passed ≠ [] → t.Led (front ++ passed ++ id :: back) t.table t.flag) ∧
      (passed = [] → ∃ table, t.table.setInfo node (some id) = some table ∧
        ∀ flag, IsBest (flag id) →
        (∀ other ∈ front ++ passed ++ back, IsBest (flag other) ↔
          IsBest (t.flag other) ∧ (passed ++ (gone ++ back)).head? ≠ some other) →
        t.Led (front ++ passed ++ id :: back) table flag) := by
  have sound := ready.sound
  obtain ⟨seat, present, seatWord, locked⟩ := ready.seated.seat
  have word := wordOf_eq ready.seated.found
  have regroup : order = front ++ passed ++ (gone ++ back) :=
    searched.split.trans (append_assoc ..).symm
  have lead := @Sound.lead t held order (front ++ passed) back gone id sound regroup ready.out
      fun other member =>
    (goneWord other member).trans word.symm
  rw [word, searched.leader_front, searched.leads] at lead
  refine ⟨seat, present, seatWord, by rw [sound.info_eq present, seatWord, searched.leads],
    fun more => ?_, fun none_ => ?_⟩
  · exact lead (.inl ⟨head?_eq_none_iff.not.mpr more, rfl, rfl, notBest more⟩)
  · obtain ⟨table, now, ran, wf, nodes, -, -, carries⟩ :=
      setInfo_carries sound.wf present locked (some id)
    exact ⟨table, ran, fun flag best others =>
      lead (.inr ⟨head?_eq_none_iff.mpr none_, wf, nodes, seatWord ▸ carries, best, others⟩)⟩

variable (ready : t.Ready held order id route node)
  (searched : t.Searched order route front passed back place)
include ready searched

theorem leadInstead_spec (notBest : passed ≠ [] → ¬ IsBest (t.flag id)) {linked : Ospf6RouteTable}
    (same : linked.table = t.table ∧ linked.routes = t.routes ∧ linked.rnode = t.rnode ∧
      linked.flag = t.flag) :
    ∃ table flag, linked.leadInstead node id back.head? = some { linked with table, flag } ∧
      t.Led (front ++ passed ++ id :: back) table flag := by
  obtain ⟨sameTable, sameRoutes, sameRnode, sameFlag⟩ := same
  have sound := ready.sound
  have whole : t.Searched order route front passed ([] ++ back) place := searched
  obtain ⟨seat, present, seatWord, info, kept, taken⟩ := whole.led ready notBest nofun
  rw [leadInstead, sameTable, present]
  simp only [bind_eq_bind, bind_some, info]
  cases split : passed with
  | cons first rest =>
    -- another route of the prefix stays in front
    have stays : (first :: rest ++ ([] ++ back)).head? ≠ back.head? := by
      intro equal
      have inside : first ∈ back := mem_of_head? equal.symm
      have nodup := sound.nodup
      rw [searched.split, split] at nodup
      exact (nodup_append.mp (nodup_append.mp nodup).2.1).2.2 first mem_cons_self first inside rfl
    rw [if_neg stays, ← split]
    exact ⟨t.table, t.flag, by rw [← sameTable, ← sameFlag]; rfl, kept (by rw [split]; exact nofun)⟩
  | nil =>
    obtain ⟨table, ran, led⟩ := taken split
    rw [split] at searched led
    obtain ⟨first, rest, isBack⟩ := exists_cons_of_ne_nil searched.some_
    subst isBack
    have memberFirst : first ∈ order := by
      rw [searched.split]
      exact mem_append_cons_self
    have firstWord : t.wordOf first = route.p.bits := leader_key searched.leads
    obtain ⟨there, other, kept, otherFound, same⟩ := sound.node memberFirst
    have here : there = node :=
      place_unique sound.wf otherFound present (by rw [same, firstWord, seatWord])
    have wanted : linked.rnode first = some node := by rw [sameRnode, kept, here]
    have apart : first ≠ id := by
      rintro rfl
      exact ready.out memberFirst
    have one : linked.setInfo node (some id) = some { linked with table } := by
      rw [setInfo, sameTable, ran]
      rfl
    have aliveFirst : ({ linked with table } : Ospf6RouteTable).routes first ≠ none := by
      rw [sameRoutes]
      exact sound.alive memberFirst
    have two := unsetFlag_eq aliveFirst ospf6RouteBestFlag
    refine ⟨table, update (update t.flag first (t.flag first &&& ~~~ospf6RouteBestFlag)) id
      (t.flag id ||| ospf6RouteBestFlag),
      ?_, led _ ?_ fun other inside => ?_⟩
    · rw [nil_append, nil_append, if_pos rfl, head?_cons, bind_some, if_neg (not_not.mpr wanted),
        one, bind_some, two, bind_some,
        setFlag_eq (by dsimp only; rw [sameRoutes]; exact ready.alive)]
      dsimp only
      rw [sameFlag, update_of_ne (Ne.symm apart)]
    · rw [update_self]
      exact isBest_set _
    · have notId : other ≠ id := by
        rintro rfl
        refine ready.out ?_
        rw [searched.split]
        rwa [append_nil] at inside
      rw [update_of_ne notId]
      by_cases isFirst : other = first
      · rw [isFirst, update_self]
        exact iff_of_false (not_isBest_unset _) fun both => both.2 rfl
      · rw [update_of_ne isFirst]
        exact (and_iff_left fun lead => isFirst (some.inj lead).symm).symm

theorem insertBetween_spec (takes : route.Takes (t.contents order)) (new : place.old = none)
    (unmarked : t.Unmarked order id route) :
    ∃ after, t.insertBetween node id place.prev place.next = some after ∧
      after.Sound held (front ++ passed ++ id :: back) ∧ after.routes = t.routes := by
  have sound := ready.sound
  have regroup : order = front ++ passed ++ back := searched.split.trans (append_assoc ..).symm
  have fits := searched.fits sound ready.agrees takes new
  obtain ⟨prev, next⟩ := neighbours sound searched new
  have apartNext : back.head? ≠ some id :=
    fun head => ready.out (regroup ▸ mem_append_right _ (mem_of_head? head))
  have alivePrev : ∀ there, (front ++ passed).getLast? = some there → t.routes there ≠ none :=
      fun there last =>
    sound.alive (regroup ▸ mem_append_left _ (mem_of_getLast? last))
  have aliveNext : ∀ there, back.head? = some there → t.routes there ≠ none := fun there head =>
    sound.alive (regroup ▸ mem_append_right _ (mem_of_head? head))
  have aliveSelf : ∀ there, some id = some there → t.routes there ≠ none := fun there same =>
    some.inj same ▸ ready.alive
  obtain ⟨inOrder, sorted, notBest⟩ :=
    @Searched.comes_in t held order front passed back id route place node [] searched ready unmarked
    (nofun) fits
  obtain ⟨table, flag, ran, led⟩ := leadInstead_spec ready searched notBest
    (show (t.between id (front ++ passed).getLast? back.head?).table = t.table ∧
      _ from ⟨rfl, rfl, rfl, rfl⟩)
  obtain ⟨placed, isPlaced⟩ :=
      @exists_eq Ospf6RouteTable { t.between id (front ++ passed).getLast? back.head? with
      table, flag, lock := update t.lock id 1, count := (t.count + 1) % 2 ^ 32 }
  obtain ⟨placedSound, few, alive⟩ : placed.Sound held (front ++ passed ++ id :: back) ∧
      placed.FewLocks ∧ placed.routes id ≠ none := by
    rw [isPlaced]
    exact ready.inserts regroup led (fun other => between_next)
      (fun other => between_prev apartNext) inOrder sorted rfl rfl rfl rfl rfl
  refine ⟨_, ?_, placedSound.setFlag id
    (show ospf6RouteAddFlag &&& ospf6RouteBestFlag = 0 by decide), by rw [isPlaced]; rfl⟩
  have counted := placedSound.routeCountAssert few
  have locked := lock_first (t := { t.between id (front ++ passed).getLast? back.head? with
    table, flag }) ready.alive ready.seated.lock
  rw [isPlaced] at counted alive ⊢
  rw [insertBetween]
  rw [prev, next]
  simp only [bind_eq_bind]
  rw [setNext_eq alivePrev, bind_some, setPrev_eq (t := t.withNext _ _) aliveSelf, bind_some,
    setPrev_eq (t := (t.withNext _ _).withPrev _ _) aliveNext, bind_some,
    setNext_eq (t := ((t.withNext _ _).withPrev _ _).withPrev _ _) aliveSelf, bind_some]
  refine (congrArg (Option.bind · _) ran).trans ?_
  rw [bind_some, locked]
  refine (congrArg (Option.bind · _) counted).trans ?_
  exact setFlag_eq alive _

end Insert

section Replace
variable (ready : t.Ready held order id route node)
  (searched : t.Searched order route front passed (old :: back) place)
include ready searched

theorem leadReplaced_spec (notBest : passed ≠ [] → ¬ IsBest (t.flag id))
    (same : t.wordOf old = route.p.bits)
    (apartOld : ∀ {other}, other ∈ front ++ passed ++ back → other ≠ old) :
    ∃ table flag, t.leadReplaced node id old = some { t with table, flag } ∧
      t.Led (front ++ passed ++ id :: back) table flag := by
  have whole := searched
  obtain ⟨seat, present, -, info, kept, taken⟩ :=
    whole.led ready notBest fun other member => mem_singleton.mp member ▸ same
  rw [leadReplaced, present]
  simp only [bind_eq_bind, bind_some, info]
  cases split : passed with
  | cons first rest =>
    have stays : (first :: rest ++ ([old] ++ back)).head? ≠ some old := fun equal =>
      apartOld (mem_append_left _ (mem_append_right _ (split ▸ mem_cons_self))) (some.inj equal)
    rw [if_neg stays, ← split]
    exact ⟨t.table, t.flag, rfl, kept (by rw [split]; exact nofun)⟩
  | nil =>
    obtain ⟨table, ran, led⟩ := taken split
    rw [split] at led apartOld
    have one : t.setInfo node (some id) = some { t with table } := by
      rw [setInfo, ran]
      rfl
    refine ⟨table, update t.flag id (t.flag id ||| ospf6RouteBestFlag), ?_,
      led _ ?_ fun other inside => ?_⟩
    · rw [nil_append, singleton_append, head?_cons, if_pos rfl, one]
      exact setFlag_eq (t := { t with table }) ready.alive _
    · rw [update_self]
      exact isBest_set _
    · have notId : other ≠ id := by
        rintro rfl
        refine ready.out ?_
        rw [searched.split]
        simp only [mem_append, mem_cons] at inside ⊢
        tauto
      rw [update_of_ne notId]
      exact (and_iff_left fun lead => apartOld inside (some.inj lead).symm).symm

theorem replace_spec (takes : route.Takes (t.contents order)) (unmarked : t.Unmarked order id route)
    (present : t.routes old = some found) (kin : found.Kin route) (origin : found.SameOrigin route)
    (differs : ¬ found.IsIdentical route) :
    ∃ after, t.replace node id old = some after ∧ after.Sound held (front ++ passed ++ id :: back) ∧
      ∀ other ∈ front ++ passed ++ id :: back, after.routes other = t.routes other := by
  have sound := ready.sound
  have regroup : order = front ++ passed ++ old :: back :=
    searched.split.trans (append_assoc ..).symm
  have memberOld : old ∈ order := regroup ▸ mem_append_cons_self
  have same : t.wordOf old = route.p.bits := by rw [wordOf_eq present, kin.1.bits]
  have nodup := sound.nodup
  rw [regroup] at nodup
  have nodupOthers : (front ++ passed ++ back).Nodup :=
    nodup.sublist (Sublist.append_left (sublist_cons_self old back) _)
  have apartOld : ∀ {other}, other ∈ front ++ passed ++ back → other ≠ old := fun inside same =>
    (nodup_cons.mp (nodup_middle.mp nodup)).1 (same ▸ inside)
  have apart : old ≠ id := by
    rintro rfl
    exact ready.out memberOld
  -- among the routes behind the replaced one none has its origin
  have later := searched.takes.mp takes
  rw [contents_cons present, Ospf6Route.Takes, if_neg (not_not.mpr kin), if_pos origin] at later
  have fits : ∀ other ∈ back, ∀ found, t.routes other = some found → found.Kin route →
      route.preference found ≤ 0 ∧ ¬ found.SameOrigin route := by
    intro other member behind there kinOther
    refine ⟨later.resolve_left differs behind (mem_contents.mpr ⟨other, member, there⟩) kinOther,
      fun sameOrigin => ?_⟩
    refine apartOld (mem_append_right _ member)
      (sound.origins ?_ memberOld there present
      ⟨kinOther.1.trans kin.1.symm, kinOther.2.trans kin.2.symm⟩
      ⟨sameOrigin.1.trans origin.1.symm, sameOrigin.2.trans origin.2.symm⟩)
    rw [regroup]
    exact mem_append_right _ (.tail _ member)
  obtain ⟨inOrder, sorted, notBest⟩ :=
    @Searched.comes_in t held order front passed back id route place node [old] searched ready
    unmarked (fun other isOld there presentOther identical => by
      rw [mem_singleton.mp isOld, present] at presentOther
      cases presentOther
      exact differs identical) fits
  obtain ⟨table, flag, ran, led⟩ := leadReplaced_spec ready searched notBest same apartOld
  have prev : t.prev old = (front ++ passed).getLast? := sound.chained.prev regroup
  have next : t.next old = back.head? := sound.chained.next regroup
  have mem : ∀ {other}, other ≠ id → other ≠ old →
      (other ∈ front ++ passed ++ id :: back ↔ other ∈ order) := by
    intro other notId notOld
    rw [regroup]
    simp only [mem_append, mem_cons, notId, notOld, false_or]
  have outOld : old ∉ front ++ passed ++ id :: back := by
    intro inside
    rcases mem_append.mp inside with early | late
    · exact apartOld (mem_append_left _ early) rfl
    · exact apartOld (mem_append_right _ ((mem_cons.mp late).resolve_left apart)) rfl
  have out : id ∉ front ++ passed ++ back := by
    intro inside
    refine ready.out ?_
    rw [regroup]
    simp only [mem_append, mem_cons] at inside ⊢
    tauto
  have apartNext : back.head? ≠ some id := fun head => out (mem_append_right _ (mem_of_head? head))
  obtain ⟨linked, isLinked⟩ :=
    @exists_eq _ { t.between id (front ++ passed).getLast? back.head? with
    table, flag, lock := update t.lock id 1 }
  -- the replaced route has left the order, and still has its lock
  have linkedSound : linked.Sound (update held old (held old + 1))
      (front ++ passed ++ id :: back) := by
    have before : t.Sound held (front ++ passed ++ [old] ++ back) := by
      rw [append_assoc _ [old]]
      exact regroup ▸ sound
    rw [isLinked]
    refine before.put out ready.seated ready.valid nodupOthers led (fun other => between_next)
      (fun other => between_prev apartNext)
      rfl rfl rfl inOrder sorted (fun {other} there => ?_) (fun {other} more => ?_) ?_
    · dsimp only
      by_cases isId : other = id
      · rw [isId, update_self, if_pos mem_append_cons_self,
          update_of_ne (Ne.symm apart), ready.free]
      · rw [update_of_ne isId, sound.lock there]
        by_cases isOld : other = old
        · rw [isOld, if_pos memberOld, if_neg outOld, update_self, zero_add, add_comm]
        · rw [update_of_ne isOld, if_congr (mem isId isOld) rfl rfl]
    · by_cases isOld : other = old
      · rw [isOld]
        exact ⟨sound.alive memberOld, .inl (mem_append_left _ mem_append_cons_self)⟩
      · rw [update_of_ne isOld] at more
        exact ⟨sound.holders more, .inr more⟩
    · rw [between, sound.count, regroup]
      simp only [length_append, length_cons]
  obtain ⟨given, gave, givenSound, routes, -, -, few⟩ := linkedSound.unlock_taken
  have keeps := givenSound.undeleted routes
  have flagged :=
    givenSound.setFlag id (show ospf6RouteChangeFlag &&& ospf6RouteBestFlag = 0 by decide)
  refine ⟨_, ?_, flagged, fun other inside => (keeps other inside).trans (by rw [isLinked]; rfl)⟩
  have counted :=
    flagged.routeCountAssert (few (ready.fewLocks (by rw [isLinked]; rfl) (by rw [isLinked])))
  have aliveSelf : ∀ there, some id = some there → t.routes there ≠ none := fun there same =>
    some.inj same ▸ ready.alive
  have alivePrev : ∀ there, (front ++ passed).getLast? = some there → t.routes there ≠ none :=
      fun there last =>
    sound.alive (regroup ▸ mem_append_left _ (mem_of_getLast? last))
  have aliveNext : ∀ there, back.head? = some there → t.routes there ≠ none := fun there head => by
    refine sound.alive ?_
    rw [regroup]
    exact mem_append_right _ (.tail _ (mem_of_head? head))
  have apartPrev : (front ++ passed).getLast? ≠ some old :=
    fun last => apartOld (mem_append_left _ (mem_of_getLast? last)) rfl
  have readPrev :
      ((({ t with table, flag } : Ospf6RouteTable)).withNext (front ++ passed).getLast?
      (some id)).prev old =
      (front ++ passed).getLast? := prev
  have readNext :
      (((({ t with table, flag } : Ospf6RouteTable)).withNext (front ++ passed).getLast?
      (some id)).withPrev (some id)
      (front ++ passed).getLast?).next old = back.head? :=
        (writeAt_apply ..).trans ((if_neg apartPrev).trans next)
  have readAgain :
      ((((({ t with table, flag } : Ospf6RouteTable)).withNext (front ++ passed).getLast?
      (some id)).withPrev (some id)
      (front ++ passed).getLast?).withPrev back.head? (some id)).next old = back.head? := readNext
  have swapped := unlock_lock
    (t := { t.between id (front ++ passed).getLast? back.head? with table, flag }) ready.alive
    ready.seated.lock apart (sound.alive memberOld)
      (show t.lock old ≠ 0 by rw [sound.lock (sound.alive memberOld), if_pos memberOld]; omega)
  rw [replace, ran, bind_eq_bind, bind_some]
  rw [show ({ t with table, flag } : Ospf6RouteTable).prev old =
    (front ++ passed).getLast? from prev,
    setNext_eq (t := { t with table, flag }) alivePrev, bind_some, readPrev,
    setPrev_eq (t := ({ t with table, flag } : Ospf6RouteTable).withNext _ _) aliveSelf,
      bind_some, readNext,
    setPrev_eq (t := (({ t with table, flag } : Ospf6RouteTable).withNext _ _).withPrev _ _)
      aliveNext, bind_some, readAgain,
    setNext_eq
      (t := ((({ t with table, flag } : Ospf6RouteTable).withNext _ _).withPrev _ _).withPrev _ _)
      aliveSelf,
    bind_some]
  refine (bind_assoc ..).symm.trans
    ((congrArg (bind · _) (swapped.trans (isLinked ▸ gave))).trans ?_)
  exact (congrArg (bind · _) (setFlag_eq (givenSound.alive mem_append_cons_self) _)).trans counted

end Replace
end Ospf6RouteTable
end Zebra.Ospf6d
