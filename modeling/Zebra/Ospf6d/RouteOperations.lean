import Zebra.Ospf6d.RouteFirst

namespace Zebra.Ospf6d
open Function Base.Linked Base.Deque List
namespace Ospf6RouteTable
variable {t : Ospf6RouteTable} {held : RouteId → Nat} {order front back : List RouteId}
  {id : RouteId} {route : Ospf6Route} {node : NodeId}

theorem contents_congr {after : Ospf6RouteTable}
    (routes : ∀ id ∈ order, after.routes id = t.routes id) :
    after.contents order = t.contents order :=
  filterMap_congr routes

namespace Sound

theorem fresh_out (sound : t.Sound held order) : t.fresh ∉ order ∧ held t.fresh = 0 := by
  have gone := sound.allocated t.fresh le_rfl
  refine ⟨fun member => sound.alive member gone, ?_⟩
  by_contra more
  exact sound.holders (Nat.pos_of_ne_zero more) gone

theorem create (sound : t.Sound held order) (route : Ospf6Route) (flag : BitVec 8) :
    (t.create route flag).Sound held order := by
  obtain ⟨out, free⟩ := sound.fresh_out
  have apart : ∀ {id}, id ∈ order ∨ 0 < held id → id ≠ t.fresh := by
    rintro id used rfl
    rcases used with member | more
    · exact out member
    · omega
  refine sound.reshape (Keeps.refl sound.wf)
    (fun id member => update_of_ne (apart (.inl member)) ..)
    (fun id member => update_of_ne (apart (.inl member)) ..) rfl
      (fun id used => update_of_ne (apart used) ..)
    (fun id member => update_of_ne (apart (.inl member)) ..) (fun id member => ?_)
      (fun {id} there => ?_) (fun {id} more => ?_)
    fun id beyond => ?_
  · rw [show (t.create route flag).flag id = t.flag id from update_of_ne (apart (.inl member)) ..]
  · by_cases same : id = t.fresh
    · rw [same, if_neg out, free]
      exact update_self ..
    · have before : t.routes id ≠ none := by
        rwa [show (t.create route flag).routes id = t.routes id from update_of_ne same ..] at there
      exact (update_of_ne same ..).trans (sound.lock before)
  · refine ⟨?_, .inr more⟩
    rw [show (t.create route flag).routes id = t.routes id from update_of_ne (apart (.inr more)) ..]
    exact sound.holders more
  · have different : id ≠ t.fresh := ne_of_gt (show t.fresh + 1 ≤ id from beyond)
    exact (update_of_ne different ..).trans (sound.allocated id (Nat.le_of_succ_le beyond))

end Sound

/-- How the order changes when a route is added: an identical one stays, one with the origin is
replaced, or the route comes in between. -/
inductive Comes (t : Ospf6RouteTable) (id : RouteId) (route : Ospf6Route) :
    List RouteId → List RouteId → Prop where
  | stays {order : List RouteId} {old : RouteId} {found : Ospf6Route} (member : old ∈ order)
      (present : t.routes old = some found) (kin : found.Kin route)
      (same : found.IsIdentical route) : Comes t id route order order
  | replaces {front back : List RouteId} {old : RouteId} {found : Ospf6Route}
      (present : t.routes old = some found) (kin : found.Kin route)
      (origin : found.SameOrigin route)
      (differs : ¬ found.IsIdentical route) :
        Comes t id route (front ++ old :: back) (front ++ id :: back)
  | inserts {front back : List RouteId}
      (new : ∀ other ∈ front ++ back, ∀ found, t.routes other = some found → found.Kin route →
      ¬ found.SameOrigin route) :
      Comes t id route (front ++ back) (front ++ id :: back)

namespace Sound
section
variable (sound : t.Sound held order) (few : t.FewLocks) (valid : route.ValidPath)
  (agrees : t.Agrees order route)
include sound few valid agrees

theorem ready (flag : BitVec 8) : ∃ table node, t.table.routeNodeGet route.p = some (table, node) ∧
      ({ t.create route flag with
        table, rnode := update (t.create route flag).rnode t.fresh (some node) } :
        Ospf6RouteTable).Ready held order t.fresh route node := by
  obtain ⟨out, free⟩ := sound.fresh_out
  obtain ⟨table, node, seat, ran, keeps, present, word, locked⟩ := get_keeps sound.wf route.p
  have created := sound.create route flag
  have routes : ∀ id ∈ order, (t.create route flag).routes id = t.routes id := by
    intro id member
    refine update_of_ne ?_ ..
    rintro rfl
    exact out member
  refine ⟨table, node, ran, ?_, ?_, out, free,
    ⟨update_self .., update_self .., update_self .., seat, present, word, locked⟩, valid, ?_⟩
  · refine created.reshape keeps (fun _ _ => rfl) (fun _ _ => rfl) rfl (fun id used => ?_)
      (fun _ _ => rfl) (fun _ _ => Iff.rfl)
      created.lock (fun more => ⟨created.holders more, .inr more⟩) created.allocated
    refine update_of_ne ?_ ..
    rintro rfl
    rcases used with member | more
    · exact out member
    · omega
  · intro id there
    by_cases same : id = t.fresh
    · rw [same]
      exact lt_of_le_of_lt (le_of_eq (update_self ..)) (by decide)
    · have before : t.routes id ≠ none := fun gone => there ((update_of_ne same ..).trans gone)
      exact lt_of_le_of_lt (le_of_eq (update_of_ne same ..)) (few id before)
  · intro found member
    have same := contents_congr routes
    exact agrees found (same ▸ (show found ∈ (t.create route flag).contents order from member))

theorem add (takes : route.Takes (t.contents order)) {flag : BitVec 8}
    (unmarked : IsBest flag → route.Leads (t.contents order)) :
    ∃ after result listed, (t.create route flag).ospf6RouteAdd t.fresh = some (after, result) ∧
      after.Sound held listed ∧
      t.Comes t.fresh route order listed ∧
      ∀ id ∈ listed, after.routes id = if id = t.fresh then some route else t.routes id := by
  obtain ⟨out, free⟩ := sound.fresh_out
  obtain ⟨table, node, ran, ready⟩ := sound.ready few valid agrees flag
  obtain ⟨now, isNow⟩ := @exists_eq Ospf6RouteTable { t.create route flag with
    table, rnode := update (t.create route flag).rnode t.fresh (some node) }
  rw [← isNow] at ready
  have routes : ∀ id, now.routes id = if id = t.fresh then some route else t.routes id := by
    intro id
    rw [isNow]
    exact update_apply ..
  have kept : ∀ {id}, id ∈ order → now.routes id = t.routes id := by
    intro id member
    rw [routes, if_neg]
    rintro rfl
    exact out member
  have sameContents : now.contents order = t.contents order :=
    contents_congr fun id member => kept member
  have marked : now.Unmarked order t.fresh route := by
    rw [Unmarked, sameContents, isNow]
    exact fun best =>
      unmarked (by rwa [show (t.create route flag).flag t.fresh = flag from update_self ..] at best)
  have takesNow : route.Takes (now.contents order) := by rwa [sameContents]
  obtain ⟨seat, present, seatWord, locked⟩ := ready.seated.seat
  have info : seat.info = leader now.wordOf order route.p.bits := by
    rw [ready.sound.info_eq present, seatWord]
  have asserted :
      ¬ ((t.create route flag).rnode t.fresh ≠ none ∨ (t.create route flag).lock t.fresh ≠ 0 ∨
      (t.create route flag).next t.fresh ≠ none ∨ (t.create route flag).prev t.fresh ≠ none) := by
    simp only [Ospf6RouteTable.create, update_self, ne_eq, not_true_eq_false, or_self,
      not_false_eq_true]
  have start : (t.create route flag).ospf6RouteAdd t.fresh = (do
      let place ← now.findPlace route (now.fresh + 1) (leader now.wordOf order route.p.bits) none
      place.old.elim (do
        if place.prev ≠ none ∨ place.next ≠ none then
          return (← now.insertBetween node t.fresh place.prev place.next, t.fresh)
        else return (← now.addBrandNew node t.fresh, t.fresh)) fun old => do
        if Ospf6Route.IsIdentical (← now.routes old) route then
          let t_1 ← (now.ospf6RouteDelete t.fresh).setFlag old ospf6RouteAddFlag
          return (← t_1.routeCountAssert, old)
        else return (← now.replace node t.fresh old, t.fresh)) := by
    have found : (t.create route flag).routes t.fresh = some route := update_self ..
    rw [ospf6RouteAdd, found]
    simp only [Option.bind_eq_bind, Option.bind_some, if_neg asserted]
    rw [show (t.create route flag).table = t.table from rfl, ran]
    simp only [Option.bind_some]
    rw [← isNow]
    have nodes : table.nodes node = some seat := by
      rw [isNow] at present
      exact present
    simp only [nodes, Option.bind_some, info]
    rw [show (t.create route flag).fresh = now.fresh by
      rw [isNow], show (t.create route flag).routes = now.routes by rw [isNow]]
    congr 1
    funext place
    cases place.old <;> rfl
  have soundNow := ready.sound
  rw [start]
  cases leads : leader now.wordOf order route.p.bits with
  | none =>
    -- brand new: every route stands in front of the prefix or behind it
    have absent := leader_none.mp leads
    obtain ⟨front, back, split, before, behind⟩ := inOrder_cut soundNow.inOrder route.p.bits
    have parted : now.Parted order route.p.bits front back := by
      refine ⟨split, before, fun id member => lt_of_le_of_ne (behind id member) fun same => ?_⟩
      exact absent id (split ▸ mem_append_right _ member) same.symm
    obtain ⟨after, added, afterSound, afterRoutes⟩ := addBrandNew_spec ready parted
    refine ⟨after, t.fresh, front ++ t.fresh :: back, ?_, afterSound, ?_, fun id _ => by
      rw [afterRoutes, routes]⟩
    · have searching : now.findPlace route (now.fresh + 1) none none = some {} := rfl
      have nowhere : ¬ (({} : Place).prev ≠ none ∨ ({} : Place).next ≠ none) := by simp
      rw [added]
      rfl
    · rw [split]
      refine .inserts fun other member found there kin => absurd ?_ (absent other (split ▸ member))
      rw [wordOf_eq ((kept (split ▸ member)).trans there), kin.1.bits]
  | some first =>
    obtain ⟨sameWord, front, rest, split, others⟩ := leader_split.mp leads
    have short : (first :: rest).length < now.fresh + 1 := by
      have all := soundNow.length_le
      rw [split, length_append] at all
      omega
    obtain ⟨place, passed, back, searching, isRest, passes, stops⟩ :=
      soundNow.findPlace valid split _ short none
    have searched : now.Searched order route front passed back place := by
      have inOrder := soundNow.inOrder
      rw [split] at inOrder
      refine ⟨by rw [split, isRest], fun id member => ?_, passes, fun id member => ?_, ?_, ?_, ?_⟩
      · rw [← sameWord]
        exact inOrder_before inOrder (fun other inside => sameWord ▸ others other inside) id member
      · have inside : id ∈ first :: rest := isRest ▸ mem_append_right _ member
        rw [← sameWord]
        rcases mem_cons.mp inside with here | later
        · rw [here]
        · exact inOrder_after inOrder id later
      · rw [leads, ← isRest]
        rfl
      · rw [← isRest]
        exact cons_ne_nil _ _
      · rw [lastOf, Option.or_none] at stops
        exact stops
    rw [head?_cons] at searching
    simp only [Option.bind_eq_bind, searching, Option.bind_some]
    have regroup : order = front ++ passed ++ back := searched.split.trans (append_assoc ..).symm
    cases old : place.old with
    | none =>
      obtain ⟨after, added, afterSound, afterRoutes⟩ :=
        insertBetween_spec ready searched takesNow old marked
      refine ⟨after, t.fresh, front ++ passed ++ t.fresh :: back, ?_, afterSound, ?_, fun id _ => by
        rw [afterRoutes, routes]⟩
      · have found : place.prev ≠ none ∨ place.next ≠ none := by
          rw [searched.stops.prev_eq, searched.stops.next_eq old]
          have more := searched.some_
          rw [ne_eq, append_eq_nil_iff, not_and_or] at more
          rcases more with more | more
          · exact .inl (by rwa [ne_eq, getLast?_eq_none_iff])
          · exact .inr (by rwa [ne_eq, head?_eq_none_iff])
        simp only [Option.elim_none, if_pos found, added, Option.bind_some]
        rfl
      · rw [regroup]
        refine .inserts fun other member found there kin => ?_
        have present := (kept (regroup ▸ member)).trans there
        rcases mem_append.mp member with early | late
        · rcases mem_append.mp early with before | among
          · have less := searched.before other before
            rw [wordOf_eq present, kin.1.bits] at less
            exact absurd less (lt_irrefl _)
          · obtain ⟨again, presentAgain, _, skipped⟩ := searched.passes other among
            rw [present] at presentAgain
            cases presentAgain
            exact (skipped kin).1
        · exact (searched.fits soundNow ready.agrees takesNow old other late found present kin).2
    | some replaced =>
      have isOld := searched.stops
      cases isOld with
      | ends | other | less => cases old
      | @origin current others found present kin origin =>
        obtain rfl : current = replaced := Option.some.inj old
        have memberOld : current ∈ order := regroup ▸ mem_append_cons_self
        simp only [Option.elim_some, present, Option.bind_some]
        by_cases identical : found.IsIdentical route
        · -- the new route goes away
          rw [if_pos identical]
          have deletedRoutes :
              ∀ id ∈ order, (now.ospf6RouteDelete t.fresh).routes id = now.routes id := by
            intro id member
            refine update_of_ne ?_ ..
            rintro rfl
            exact out member
          have deletedNone : ∀ {id}, (now.ospf6RouteDelete t.fresh).routes id ≠ none →
              now.routes id ≠ none := by
            intro id there
            by_cases same : id = t.fresh
            · rw [same] at there
              exact absurd (update_self ..) there
            · exact fun gone => there ((update_of_ne same ..).trans gone)
          have deleted : (now.ospf6RouteDelete t.fresh).Sound held order := by
            refine soundNow.relock deletedRoutes
              (fun {id} there => soundNow.lock (deletedNone there))
              (fun {id} more => ⟨?_, .inr more⟩) fun id beyond => ?_
            · have apart : id ≠ t.fresh := by
                rintro rfl
                omega
              intro gone
              exact soundNow.holders more ((update_of_ne apart ..).symm.trans gone)
            · by_contra there
              exact deletedNone there (soundNow.allocated id beyond)
          have flagged :=
            deleted.setFlag current (show ospf6RouteAddFlag &&& ospf6RouteBestFlag = 0 by decide)
          have fewNow : (now.ospf6RouteDelete t.fresh).FewLocks :=
            ready.few.mono fun id there => .inr ⟨deletedNone there, le_rfl⟩
          have counted := flagged.routeCountAssert fewNow
          rw [setFlag_eq (deleted.alive memberOld), Option.bind_some, counted]
          refine ⟨_, current, order, rfl, flagged,
            .stays memberOld ((kept memberOld).symm.trans present) kin identical,
            fun id member => ?_⟩
          exact (deletedRoutes id member).trans (routes id)
        · obtain ⟨after, added, afterSound, afterRoutes⟩ :=
            replace_spec ready searched takesNow marked present kin origin identical
          rw [if_neg identical, added]
          refine ⟨after, t.fresh, front ++ passed ++ t.fresh :: others, rfl, afterSound, ?_,
            fun id member => ?_⟩
          · rw [regroup]
            exact .replaces ((kept memberOld).symm.trans present) kin origin identical
          · rw [afterRoutes id member, routes]

end

theorem findRoute (sound : t.Sound held order) (found : t.routes id = some route) {middle}
    (split : order = front ++ (middle ++ id :: back))
    (same : ∀ other ∈ middle, t.wordOf other = t.wordOf id)
    (fuel : Nat) (enough : middle.length < fuel) :
    t.findRoute id route fuel (middle ++ id :: back).head? = some (some id) := by
  induction middle generalizing front fuel with
  | nil =>
    cases fuel with
    | zero => exact nomatch enough
    | succ fuel =>
      rw [nil_append, head?_cons, findRoute, found]
      simp only [Option.bind_eq_bind, Option.bind_some, ne_eq, not_true_eq_false,
        and_false, if_false]
      rfl
  | cons current middle ih =>
    cases fuel with
    | zero => exact nomatch enough
    | succ fuel =>
      have nodup := sound.nodup
      have sorted := sound.sorted
      rw [split] at nodup sorted
      have behind : id ∈ middle ++ id :: back := mem_append_cons_self
      obtain ⟨currentRoute, present, _⟩ := sound.live (split ▸ mem_append_cons_self)
      have apart : current ≠ id := by
        rintro rfl
        exact (nodup_cons.mp (nodup_append.mp nodup).2.1).1 behind
      have isSame : currentRoute.IsSame route := by
        refine ((pairwise_cons.mp (pairwise_append.mp sorted).2.1).1 id behind currentRoute route
          present found ?_).1
        rw [← wordOf_eq present, ← wordOf_eq found, same current mem_cons_self]
      have next := sound.chained.next split
      rw [cons_append, head?_cons, findRoute, present]
      simp only [Option.bind_eq_bind, Option.bind_some,
        if_pos (show currentRoute.IsSame route ∧ current ≠ id from ⟨isSame, apart⟩), next]
      have shifted : order = (front ++ [current]) ++ (middle ++ id :: back) := by
        rw [split]
        exact append_cons front current (middle ++ id :: back)
      exact ih shifted (fun other inside => same other (.tail _ inside)) fuel
        (Nat.lt_of_succ_lt_succ enough)

theorem leadNext_spec (sound : t.Sound held order) (found : t.routes id = some route)
    (split : order = front ++ id :: back)
    {seat : RouteNode RouteId} (present : t.table.nodes node = some seat)
    (word : seat.p.bits = t.wordOf id) (locked : 0 < seat.lock) {linked : Ospf6RouteTable}
    (same : linked.table = t.table ∧ linked.routes = t.routes ∧ linked.flag = t.flag ∧
      linked.next id = t.next id) :
    ∃ table flag, linked.leadNext node id route = some { linked with table, flag } ∧
      t.Led (front ++ back) table flag := by
  obtain ⟨sameTable, sameRoutes, sameFlag, sameNext⟩ := same
  have nodup := sound.nodup
  have sorted := sound.sorted
  have inOrder := sound.inOrder
  rw [split] at nodup sorted inOrder
  have info : seat.info = (leader t.wordOf front (t.wordOf id)).or (some id) := by
    rw [sound.info_eq present, word, split, leader_insert, if_pos rfl]
  have leads : ∀ wanted, leader t.wordOf order wanted =
      if t.wordOf id = wanted then (leader t.wordOf front wanted).or (some id)
        else leader t.wordOf (front ++ back) wanted := by
    intro wanted
    rw [split, leader_insert]
  have next : linked.next id = back.head? := sameNext.trans (sound.chained.next split)
  have notId : ∀ {other}, other ∈ front ++ back → other ≠ id := fun inside same =>
    (nodup_cons.mp (nodup_middle.mp nodup)).1 (same ▸ inside)
  have stays : ∀ {other}, other ∈ front ++ back → other ∈ order := fun inside =>
    split ▸ ((sublist_cons_self id back).append_left front).subset inside
  rw [leadNext, sameTable, present]
  simp only [Option.bind_eq_bind, Option.bind_some, info]
  cases leadsFront : leader t.wordOf front (t.wordOf id) with
  | some first =>
    -- another route of the prefix is in front
    have notSelf : (some first).or (some id) ≠ some id := by
      intro equal
      exact notId (mem_append_left _ (leader_mem leadsFront)) (Option.some.inj equal)
    have unchanged : ∀ wanted, leader t.wordOf (front ++ back) wanted =
        leader t.wordOf order wanted := by
      intro wanted
      rw [leads]
      split
      · rename_i here
        rw [← here, leader_append, leadsFront]
        rfl
      · rfl
    rw [if_neg notSelf]
    refine ⟨t.table, t.flag, by rw [← sameTable, ← sameFlag]; rfl, sound.wf,
      fun there => ⟨_, there, rfl⟩, ?_, ?_⟩
    · intro wanted other
      rw [unchanged, sound.first]
    · intro other inside
      rw [unchanged, sound.best (stays inside)]
  | none =>
    have isId : (none : Option RouteId).or (some id) = some id := rfl
    rw [if_pos isId]
    -- what the node carries next is the route behind, if it has the prefix
    have heir : linked.nextSame id route = some (leader t.wordOf back (t.wordOf id)) := by
      rw [nextSame, next]
      cases isBack : back with
      | nil => rfl
      | cons head rest =>
        obtain ⟨headRoute, headFound, _⟩ :=
          sound.live (stays (isBack ▸ mem_append_cons_self : head ∈ front ++ back))
        have headRoutes : linked.routes head = some headRoute := by rw [sameRoutes, headFound]
        rw [head?_cons]
        simp only [Option.bind_eq_bind, headRoutes, Option.bind_some]
        have related :=
          (pairwise_cons.mp (pairwise_append.mp sorted).2.1).1 head (isBack ▸ mem_cons_self) route
          headRoute found headFound
        by_cases isSame : headRoute.IsSame route
        · rw [if_pos isSame, leader_cons,
            if_pos (by rw [wordOf_eq headFound, wordOf_eq found, isSame.bits])]
          rfl
        · have differs : t.wordOf head ≠ t.wordOf id := by
            intro equal
            rw [wordOf_eq headFound, wordOf_eq found] at equal
            exact isSame (related equal.symm).1.symm
          have absent : leader t.wordOf (head :: rest) (t.wordOf id) = none := by
            rw [leader_none]
            rw [isBack] at inOrder
            have least := inOrder_after inOrder head mem_cons_self
            have more := lt_of_le_of_ne least (Ne.symm differs)
            intro other inside
            rcases mem_cons.mp inside with here | later
            · rw [here]
              exact differs
            · have further :=
                (pairwise_cons.mp (pairwise_cons.mp (pairwise_append.mp inOrder).2.1).2).1
                other later
              exact ne_of_gt (lt_of_lt_of_le more further)
          rw [if_neg isSame, absent]
          rfl
    obtain ⟨table, now, ran, wf, nodes, nowFound, nowWord, carries⟩ :=
      setInfo_carries sound.wf present locked (leader t.wordOf back (t.wordOf id))
    have set : linked.setInfo node (leader t.wordOf back (t.wordOf id)) =
        some { linked with table } := by
      rw [setInfo, sameTable, ran]
      rfl
    have leadsNow : leader t.wordOf (front ++ back)
        (t.wordOf id) = leader t.wordOf back (t.wordOf id) := by
      rw [leader_append, leadsFront, Option.none_or]
    have first : ∀ {wanted other}, Carries table wanted other ↔
        leader t.wordOf (front ++ back) wanted = some other := by
      intro wanted other
      rw [carries, word]
      by_cases here : wanted = t.wordOf id
      · rw [if_pos here, here, leadsNow]
      · rw [if_neg here, sound.first, leads, if_neg (Ne.symm here)]
    -- a route that does not follow keeps its flag
    have keeps : ∀ {other}, other ∈ front ++ back →
        leader t.wordOf (front ++ back) (t.wordOf id) ≠ some other →
        (IsBest (t.flag other) ↔ leader t.wordOf (front ++ back) (t.wordOf other) =
          some other) := by
      intro other inside notHeir
      rw [sound.best (stays inside), leads]
      by_cases equal : t.wordOf id = t.wordOf other
      · rw [if_pos equal, ← equal, leadsFront]
        exact iff_of_false (fun lead => notId inside (Option.some.inj lead).symm) notHeir
      · rw [if_neg equal]
    rw [heir, Option.bind_some]
    cases leadsBack : leader t.wordOf back (t.wordOf id) with
    | none =>
      rw [leadsBack] at set leadsNow
      refine ⟨table, t.flag, ?_, wf, nodes, first,
        fun other inside => keeps inside (by rw [leadsNow]; exact (Option.some_ne_none _).symm)⟩
      rw [← sameFlag]
      exact set
    | some heir =>
      rw [leadsBack] at set leadsNow
      have memberHeir : heir ∈ front ++ back := mem_append_right _ (leader_mem leadsBack)
      have aliveHeir : ({ linked with table } : Ospf6RouteTable).routes heir ≠ none := by
        rw [sameRoutes]
        exact sound.alive (stays memberHeir)
      refine ⟨table, update t.flag heir (t.flag heir ||| ospf6RouteBestFlag), ?_, wf, nodes, first,
        fun other inside => ?_⟩
      · dsimp only
        rw [set, Option.bind_some, setFlag_eq aliveHeir]
        rw [sameFlag]
      · by_cases isHeir : other = heir
        · rw [isHeir, update_self, leader_key leadsBack, leadsNow]
          exact iff_of_true (isBest_set _) rfl
        · rw [update_of_ne isHeir]
          exact keeps inside
            (by rw [leadsNow]; exact fun equal => isHeir (Option.some.inj equal).symm)

theorem remove (sound : t.Sound held order) (few : t.FewLocks)
    (split : order = front ++ id :: back) :
    ∃ after, t.ospf6RouteRemove id = some after ∧ after.Sound held (front ++ back) ∧
      (∀ other, other ∈ front ++ back ∨ 0 < held other → after.routes other = t.routes other) ∧
        after.next id = t.next id ∧
      ∀ other ≠ id, after.lock other = t.lock other := by
  have member : id ∈ order := split ▸ mem_append_cons_self
  obtain ⟨route, found, valid⟩ := sound.live member
  have word := wordOf_eq found
  obtain ⟨result, looked, keeps, hits, misses⟩ := lookup_keeps sound.wf route.p
  obtain ⟨first, _, _, leads, _⟩ := sound.carries_leader member
  rw [word] at leads
  cases result with
  | none => exact absurd (sound.first.mpr leads) (misses rfl first)
  | some node =>
  obtain ⟨seat, info, present, seatWord, locked, carried⟩ := hits node rfl
  have locatedSound := sound.retable keeps
  obtain ⟨located, isLocated⟩ :=
    @exists_eq Ospf6RouteTable { t with table := t.table.holding (some node) }
  rw [← isLocated] at locatedSound
  have presentHere : located.table.nodes node = some seat := by rw [isLocated]; exact present
  have routes : located.routes = t.routes := by rw [isLocated]
  have words : located.wordOf = t.wordOf := by rw [isLocated]; rfl
  have foundHere : located.routes id = some route := by rw [routes, found]
  have isFirst : info = first := by
    have info_ := locatedSound.info_eq presentHere
    rw [seatWord, words, leads, carried] at info_
    exact Option.some.inj info_
  -- the route is found behind the first one of its prefix
  obtain ⟨sameWord, early, late, splitFirst, others⟩ := leader_split.mp leads
  have nodup := sound.nodup
  have walked : ∃ middle, early ++ (middle ++ id :: back) = order ∧
      (middle ++ id :: back).head? = some first ∧
      ∀ other ∈ middle, t.wordOf other = t.wordOf id := by
    obtain ⟨rest, isEarly, _⟩ | ⟨rest, isFront, isLate⟩ :=
      split_append (splitFirst.symm.trans split : early ++ first :: late = front ++ id :: back)
    · exact absurd word (others id (isEarly ▸ mem_append_cons_self))
    · refine ⟨rest, ?_, by rw [← isLate]; rfl, fun other inside => ?_⟩
      · rw [← append_assoc, ← isFront, ← split]
      · have inOrder := sound.inOrder
        rw [splitFirst] at inOrder
        have within : other ∈ first :: late := isLate ▸ mem_append_left _ inside
        have least : t.wordOf first ≤ t.wordOf other := by
          rcases mem_cons.mp within with here | later
          · rw [here]
          · exact inOrder_after inOrder other later
        rw [isLate] at inOrder
        have most :=
          (pairwise_append.mp (pairwise_append.mp inOrder).2.1).2.2 other inside id mem_cons_self
        rw [sameWord, ← word] at least
        exact le_antisymm most least
  obtain ⟨middle, regroup, head, same⟩ := walked
  have short : middle.length < located.fresh + 1 := by
    have all := locatedSound.length_le
    rw [← regroup, length_append, length_append] at all
    omega
  have seen := locatedSound.findRoute foundHere regroup.symm (by rw [words]; exact same) _ short
  rw [head] at seen
  have prev : located.prev id = front.getLast? := locatedSound.chained.prev split
  have next : located.next id = back.head? := locatedSound.chained.next split
  rw [split] at nodup
  have notId : ∀ {other}, other ∈ front ++ back → other ≠ id := fun inside same =>
    (nodup_cons.mp (nodup_middle.mp nodup)).1 (same ▸ inside)
  have stays : ∀ {other}, other ∈ front ++ back → other ∈ order := fun inside =>
    split ▸ ((sublist_cons_self id back).append_left front).subset inside
  have apartPrev : front.getLast? ≠ some id :=
    fun last => notId (mem_append_left _ (mem_of_getLast? last)) rfl
  obtain ⟨linked, isLinked⟩ := @exists_eq Ospf6RouteTable
    ((located.withNext front.getLast? back.head?).withPrev back.head? front.getLast?)
  have readNext : (located.withNext front.getLast? back.head?).next id = back.head? :=
    (writeAt_apply ..).trans ((if_neg apartPrev).trans next)
  have linkedNext : linked.next id = located.next id := by
    rw [isLinked, next]
    exact readNext
  obtain ⟨table, flag, marked, led⟩ := locatedSound.leadNext_spec foundHere split presentHere
    (by rw [seatWord, words, word]) locked (show linked.table = located.table ∧
      linked.routes = located.routes ∧ linked.flag = located.flag ∧ _
      by rw [isLinked]; exact ⟨rfl, rfl, rfl, readNext.trans next.symm⟩)
  obtain ⟨placed, isPlaced⟩ := @exists_eq Ospf6RouteTable { linked with
    table, flag, count := (located.count + (2 ^ 32 - 1)) % 2 ^ 32 }
  have placedRoutes : placed.routes = located.routes := by rw [isPlaced, isLinked]; rfl
  have sub_ := (sublist_cons_self id back).append_left front
  have placedSound : placed.Sound (update held id (held id + 1)) (front ++ back) := by
    have inOrder := locatedSound.inOrder
    have sorted := locatedSound.sorted
    have chained := locatedSound.chained
    rw [split] at inOrder sorted chained
    rw [isPlaced, isLinked]
    refine of_led led ?_ (nodup.sublist sub_) (fun inside => locatedSound.live (stays inside))
      (inOrder.sublist sub_)
      (sorted.sublist sub_) (fun _ _ => rfl) (fun {other} needed => ?_) (fun {other} there => ?_)
        (fun {other} more => ?_)
      locatedSound.allocated ?_
    · have whole : front ++ id :: back = front ++ [id] ++ back := by simp
      rw [whole] at chained
      have across := (nodup_append.mp (nodup.sublist sub_)).2.2
      refine chained.cut (nodup.sublist sub_) (fun other inside => ?_) (fun other inside => ?_)
        (fun other inside => ?_) fun other inside => ?_
      · exact writeAt_apply ..
      · refine (writeAt_apply ..).trans (if_neg fun last => ?_)
        exact across other (mem_of_getLast? last) other inside rfl
      · refine (writeAt_apply ..).trans (if_neg fun head => ?_)
        exact across other inside other (mem_of_head? head) rfl
      · exact writeAt_apply ..
    · have used : other ∈ order ∨ 0 < held other := by
        rcases needed with inside | more
        · exact .inl (stays inside)
        · by_cases same : other = id
          · rw [same]
            exact .inl member
          · rw [update_of_ne same] at more
            exact .inr more
      obtain ⟨place, was, kept, there, same⟩ := locatedSound.rnode used
      exact ⟨place, was, kept, there, fun inside => same (stays inside)⟩
    · refine (locatedSound.lock there).trans ?_
      by_cases same : other = id
      · rw [same, if_pos member, if_neg (fun inside => notId inside rfl), update_self]
        omega
      · rw [update_of_ne same, split]
        simp only [mem_append, mem_cons, same, false_or]
    · by_cases same : other = id
      · rw [same]
        exact locatedSound.alive member
      · rw [update_of_ne same] at more
        exact locatedSound.holders more
    · rw [locatedSound.count, split]
      simp only [length_append, length_cons]
      omega
  have placedFew : placed.FewLocks := by
    rw [isPlaced, isLinked, isLocated]
    exact few
  have counted := placedSound.routeCountAssert placedFew
  have aliveId : placed.routes id ≠ none := by
    rw [placedRoutes]
    exact locatedSound.alive member
  have flagged :=
    placedSound.setFlag id (show ospf6RouteWasRemovedFlag &&& ospf6RouteBestFlag = 0 by decide)
  obtain ⟨after, gave, afterSound, afterRoutes, afterNext, afterLocks, -⟩ := flagged.unlock_taken
  have lockId : placed.lock id = 1 + held id := by
    rw [show placed.lock = located.lock by rw [isPlaced, isLinked]; rfl,
      locatedSound.lock (locatedSound.alive member), if_pos member]
  refine ⟨after, ?_, afterSound, fun other used => ?_, ?_, fun other apart => ?_⟩
  · have alivePrev : ∀ there, front.getLast? = some there → located.routes there ≠ none :=
        fun there last =>
      locatedSound.alive (stays (mem_append_left _ (mem_of_getLast? last)))
    have aliveNext : ∀ there, back.head? = some there →
        (located.withNext front.getLast? back.head?).routes there ≠ none :=
      fun there head => locatedSound.alive (stays (mem_append_right _ (mem_of_head? head)))
    have readPrev : (located.withNext front.getLast? back.head?).prev id = front.getLast? := prev
    have visited : ¬ some id ≠ some id := by simp
    have start : t.table.routeNodeLookup route.p = some (located.table, some node) := by
      rw [looked, isLocated]
    have back_ : ({ t with table := located.table } : Ospf6RouteTable) = located := by
      rw [isLocated]
    rw [ospf6RouteRemove, found]
    simp only [Option.bind_eq_bind, Option.bind_some, start]
    rw [back_, presentHere, Option.bind_some, carried, isFirst, show t.fresh = located.fresh by
      rw [isLocated], seen,
      Option.bind_some, if_neg visited, show t.prev id = front.getLast? from
        sound.chained.prev split,
      show t.next id = back.head? from sound.chained.next split, setNext_eq alivePrev,
        Option.bind_some, readNext, readPrev,
      setPrev_eq aliveNext, Option.bind_some, ← isLinked, marked, Option.bind_some]
    have countLinked : linked.count = located.count := by rw [isLinked]; rfl
    rw [countLinked]
    rw [isPlaced] at counted aliveId gave
    refine (congrArg (Option.bind · _) counted).trans ?_
    exact (congrArg (Option.bind · _) (setFlag_eq aliveId _)).trans gave
  · rw [afterRoutes, if_neg]
    · rw [placedRoutes, routes]
    · rintro ⟨rfl, once⟩
      rcases used with inside | more
      · exact notId inside rfl
      · dsimp only at once
        omega
  · rw [afterNext]
    rw [isPlaced]
    rw [linkedNext, isLocated]
  · rw [afterLocks other apart]
    rw [isPlaced, isLinked, isLocated]
    rfl

end Sound

section RemoveAll
variable {fuel : Nat}

theorem taking_le (held : RouteId → Nat) (target : Option RouteId) (id : RouteId) :
    taking held target id ≤ held id + 1 := by
  cases target with
  | none => exact Nat.le_succ _
  | some target =>
    rw [taking, update_apply]
    split
    · rename_i same
      rw [same]
    · exact Nat.le_succ _

theorem release_taking (held : RouteId → Nat) (id : RouteId) :
    release (taking held (some id)) id = held := by
  rw [release, taking, update_self, Nat.add_sub_cancel, update_idem, update_eq_self]

theorem Sound.fewLocks {target} (sound : t.Sound (taking held target) order)
    (few : ∀ id, (if id ∈ order then 1 else 0) + held id < 2 ^ 32 - 2) : t.FewLocks := by
  intro id there
  rw [sound.lock there]
  have below := few id
  have more := taking_le held target id
  omega

/-- Each round removes the route the reader is at, and goes on from what it was linked to. -/
theorem Sound.removeLoop (sound : t.Sound (taking held order.head?) order)
    (few : ∀ id, (if id ∈ order then 1 else 0) + held id < 2 ^ 32 - 2)
    (enough : order.length < fuel) :
    ∃ after, removeLoop fuel t order.head? = some after ∧ after.Sound held [] := by
  induction order generalizing fuel t with
  | nil =>
    obtain ⟨fuel, rfl⟩ := Nat.exists_eq_succ_of_ne_zero (Nat.ne_zero_of_lt enough)
    exact ⟨t, rfl, sound⟩
  | cons id back ih =>
    obtain ⟨fuel, rfl⟩ := Nat.exists_eq_succ_of_ne_zero (Nat.ne_zero_of_lt enough)
    have fewer : ∀ other, (if other ∈ back then 1 else 0) + held other < 2 ^ 32 - 2 := by
      intro other
      refine lt_of_le_of_lt (Nat.add_le_add_right ?_ _) (few other)
      by_cases inside : other ∈ back <;> simp [inside]
    have split : id :: back = [] ++ id :: back := rfl
    have next : t.next id = back.head? := sound.chained.next split
    obtain ⟨removed, ran, removedSound, -, kept, -⟩ :=
      sound.remove (sound.fewLocks few) split
    rw [nil_append] at removedSound
    have holds : 0 < taking held (some id) id := by
      rw [taking, update_self]
      exact Nat.succ_pos _
    obtain ⟨passed, went, passedSound, -⟩ :=
      removedSound.ospf6RouteNext (removedSound.fewLocks fewer) holds fun target leads =>
        .inl (mem_of_head? (next ▸ kept ▸ leads))
    rw [kept, next] at went passedSound
    rw [head?_cons, release_taking] at passedSound
    obtain ⟨after, loop, afterSound⟩ :=
      ih passedSound fewer (Nat.lt_of_succ_lt_succ enough)
    refine ⟨after, ?_, afterSound⟩
    rw [head?_cons, Ospf6RouteTable.removeLoop, ran]
    exact (congrArg (Option.bind · _) went).trans loop

/-- Nothing is left in the table, and nothing goes wrong on the way. -/
theorem Sound.ospf6RouteRemoveAll (sound : t.Sound held order)
    (few : ∀ id, t.routes id ≠ none → t.lock id < 2 ^ 32 - 2) :
    ∃ after, t.ospf6RouteRemoveAll = some after ∧ after.Sound held [] := by
  have small : ∀ id, (if id ∈ order then 1 else 0) + held id < 2 ^ 32 - 2 := by
    intro id
    by_cases used : id ∈ order ∨ 0 < held id
    · have there : t.routes id ≠ none := used.elim sound.alive sound.holders
      exact sound.lock there ▸ few id there
    · obtain ⟨out, none⟩ := not_or.mp used
      rw [if_neg out, Nat.eq_zero_of_not_pos none]
      decide
  have unread : t.Sound (taking held none) order := sound
  have head := sound.ospf6RouteHead (unread.fewLocks small)
  have start : (t.holding order.head?).Sound (taking held order.head?) order := by
    cases first : order.head? with
    | none => exact sound
    | some id =>
      have member := mem_of_head? first
      exact sound.hold (sound.alive member) (.inl member)
  obtain ⟨after, ran, afterSound⟩ :=
    start.removeLoop small (Nat.lt_succ_of_le start.length_le)
  refine ⟨after, ?_, afterSound⟩
  rw [Ospf6RouteTable.ospf6RouteRemoveAll, head]
  exact ran

end RemoveAll
end Ospf6RouteTable
end Zebra.Ospf6d
