import Zebra.Ospf6d.RouteAdd

namespace Zebra.Ospf6d
open Function Base.Linked Base.Deque List Option
namespace Ospf6RouteTable
variable {t linked : Ospf6RouteTable} {held : RouteId → Nat} {order front back : List RouteId}
  {id last : RouteId} {route : Ospf6Route} {node : NodeId}

/-- No route has the prefix yet: the others stand in front of it or behind it. -/
structure Parted (t : Ospf6RouteTable) (order : List RouteId) (word : List Bool)
    (front back : List RouteId) : Prop where
  split : order = front ++ back
  before : ∀ id ∈ front, t.wordOf id < word
  behind : ∀ id ∈ back, word < t.wordOf id

/-- The table with the brand new route in its node. -/
def Filed (t : Ospf6RouteTable) (order : List RouteId) (id : RouteId) (word : List Bool)
    (table : RouteTable RouteId) : Prop :=
  ∀ wanted other, Carries table wanted other ↔
    if wanted = word then some id = some other else leader t.wordOf order wanted = some other

section Beside
variable {table : RouteTable RouteId} {word : List Bool}

theorem Filed.carried (filed : t.Filed order id word table) {place found info}
    (present : table.nodes place = some found) (carried : found.info = some info)
    (apart : found.p.bits ≠ word) :
    leader t.wordOf order found.p.bits = some info := by
  have carries := (filed found.p.bits info).mp ⟨place, found, present, rfl, carried⟩
  rwa [if_neg apart] at carries

theorem Filed.node_of (filed : t.Filed order id word table) {first}
    (leads : leader t.wordOf order (t.wordOf first) = some last) (apart : t.wordOf first ≠ word) :
    ∃ place found, table.nodes place = some found ∧ found.p.bits = t.wordOf first ∧
      found.info = some last := by
  have carries := (filed (t.wordOf first) last).mpr (by rwa [if_neg apart])
  obtain ⟨place, found, present, same, carried⟩ := carries
  exact ⟨place, found, present, same, carried⟩

variable (sound : t.Sound held order) (parted : t.Parted order word front back)
  (filed : t.Filed order id word table)
include sound parted filed

theorem next_beside {result}
    (first : FirstInfo table (· < ·) (fun wanted => word < wanted) result) :
    match result with
    | none => back = []
    | some next => ∃ found, table.nodes next = some found ∧ found.info = back.head? ∧
      back ≠ [] := by
  have inOrder := sound.inOrder
  rw [parted.split] at inOrder
  -- the first route behind leads its prefix
  have leads : ∀ head rest, back = head :: rest →
      leader t.wordOf order (t.wordOf head) = some head := by
    rintro head rest rfl
    refine leader_split.mpr ⟨rfl, front, rest, parted.split, fun other member => ?_⟩
    exact ne_of_lt ((parted.before other member).trans (parted.behind head mem_cons_self))
  cases result with
  | none =>
    cases isBack : back with
    | nil => rfl
    | cons head rest =>
      have later := parted.behind head (isBack ▸ mem_cons_self)
      obtain ⟨place, found, present, same, carried⟩ :=
        filed.node_of (leads head rest isBack) (ne_of_gt later)
      exact absurd (same ▸ later) (first place found present (by rw [carried]; rfl))
  | some next =>
    obtain ⟨found, present, full, later, least⟩ := first
    obtain ⟨info, carried⟩ := isSome_iff_exists.mp full
    have leadsInfo := filed.carried present carried (ne_of_gt later)
    have member := leader_mem leadsInfo
    rw [parted.split] at member
    have behind : info ∈ back := by
      refine (mem_append.mp member).resolve_left fun early => ?_
      have less := parted.before info early
      rw [leader_key leadsInfo] at less
      exact lt_asymm less later
    obtain ⟨head, rest, isBack⟩ := exists_cons_of_ne_nil (ne_nil_of_mem behind)
    have laterHead := parted.behind head (isBack ▸ mem_cons_self)
    obtain ⟨place, other, otherFound, same, otherCarried⟩ :=
      filed.node_of (leads head rest isBack) (ne_of_gt laterHead)
    have most :=
      not_lt.mp (least place other otherFound (by rw [otherCarried]; rfl) (same ▸ laterHead))
    have fewest : t.wordOf head ≤ t.wordOf info := by
      rw [isBack] at inOrder behind
      rcases mem_cons.mp behind with here | further
      · rw [here]
      · exact inOrder_after inOrder info further
    have equal : found.p.bits = t.wordOf head :=
      le_antisymm (same ▸ most) ((leader_key leadsInfo) ▸ fewest)
    rw [equal, leads head rest isBack] at leadsInfo
    refine ⟨found, present, ?_, ne_nil_of_mem behind⟩
    rw [carried, isBack, ← leadsInfo]
    rfl

theorem prev_beside {result}
    (first : FirstInfo table (· > ·) (fun wanted => word > wanted) result) :
    match result with
    | none => front = []
    | some prev => ∃ found lead last rest, table.nodes prev = some found ∧ found.info = some lead ∧
        front = rest ++ [last] ∧
        leader t.wordOf order (t.wordOf last) = some lead := by
  have inOrder := sound.inOrder
  rw [parted.split] at inOrder
  have member : ∀ {other}, other ∈ front → other ∈ order :=
    fun inside => parted.split ▸ mem_append_left _ inside
  cases result with
  | none =>
    rcases eq_nil_or_concat front with empty | ⟨rest, last, isFront⟩
    · exact empty
    · rw [concat_eq_append] at isFront
      have inside : last ∈ front := isFront ▸ mem_append_cons_self
      have less := parted.before last inside
      obtain ⟨lead, leads⟩ : ∃ lead, leader t.wordOf order (t.wordOf last) = some lead :=
        leader_exists (member inside)
      obtain ⟨place, found, present, same, carried⟩ := filed.node_of leads (ne_of_lt less)
      exact absurd (same ▸ less) (first place found present (by rw [carried]; rfl))
  | some prev =>
    obtain ⟨found, present, full, less, most⟩ := first
    obtain ⟨info, carried⟩ := isSome_iff_exists.mp full
    have leadsInfo := filed.carried present carried (ne_of_lt less)
    have inOrderInfo := leader_mem leadsInfo
    rw [parted.split] at inOrderInfo
    have early : info ∈ front := by
      refine (mem_append.mp inOrderInfo).resolve_right fun late => ?_
      have later := parted.behind info late
      rw [leader_key leadsInfo] at later
      exact lt_asymm less later
    obtain ⟨rest, last, isFront⟩ := (eq_nil_or_concat front).resolve_left (ne_nil_of_mem early)
    rw [concat_eq_append] at isFront
    have inside : last ∈ front := isFront ▸ mem_append_cons_self
    have lessLast := parted.before last inside
    obtain ⟨lead, leads⟩ : ∃ lead, leader t.wordOf order (t.wordOf last) = some lead :=
      leader_exists (member inside)
    obtain ⟨place, other, otherFound, same, otherCarried⟩ := filed.node_of leads (ne_of_lt lessLast)
    have bound :=
      not_lt.mp (most place other otherFound (by rw [otherCarried]; rfl) (same ▸ lessLast))
    have least : t.wordOf info ≤ t.wordOf last := by
      rw [isFront] at early
      rcases mem_append.mp early with before | here
      · have sorted := (pairwise_append.mp inOrder).1
        rw [isFront] at sorted
        exact (pairwise_append.mp sorted).2.2 info before last mem_cons_self
      · rw [mem_singleton.mp here]
    have equal : found.p.bits = t.wordOf last :=
      le_antisymm ((leader_key leadsInfo) ▸ least) (same ▸ bound)
    rw [equal, leads] at leadsInfo
    refine ⟨found, lead, last, rest, present, ?_, isFront, leads⟩
    rw [carried, leadsInfo]

end Beside

theorem lastSame_spec (sound : t.Sound held order) (routes : linked.routes = t.routes)
    (nexts : ∀ id ∈ order, linked.next id = t.next id) {first rest}
    (split : order = front ++ first :: rest ++ back)
    (same : ∀ id ∈ rest, t.wordOf id = t.wordOf first)
    (ends : ∀ id, back.head? = some id → t.wordOf id ≠ t.wordOf first) (fuel : Nat)
    (enough : rest.length < fuel) :
    ∃ last, (first :: rest).getLast? = some last ∧ linked.lastSame fuel first = some last := by
  induction rest generalizing front first fuel with
  | nil =>
    cases fuel with
    | zero => exact nomatch enough
    | succ fuel =>
      have whole : order = front ++ first :: back := by
        rw [split, append_assoc, cons_append, nil_append]
      have member : first ∈ order := whole ▸ mem_append_cons_self
      obtain ⟨found, present, _⟩ := sound.live member
      refine ⟨first, rfl, ?_⟩
      rw [lastSame, routes, present]
      simp only [bind_eq_bind, bind_some, nexts first member, sound.chained.next whole]
      cases isBack : back with
      | nil => rfl
      | cons next others =>
        have memberNext : next ∈ order := by
          rw [whole, isBack]
          exact mem_append_right _ (.tail _ mem_cons_self)
        obtain ⟨nextFound, nextPresent, _⟩ := sound.live memberNext
        have apart : ¬ found.IsSame nextFound := by
          intro isSame
          refine ends next (by rw [isBack]; rfl) ?_
          rw [wordOf_eq nextPresent, wordOf_eq present, isSame.bits]
        rw [head?_cons]
        simp only [nextPresent, bind_some, if_neg apart]
        rfl
  | cons second rest ih =>
    cases fuel with
    | zero => exact nomatch enough
    | succ fuel =>
      have whole : order = front ++ first :: (second :: rest ++ back) := by
        rw [split, append_assoc]; rfl
      have member : first ∈ order := whole ▸ mem_append_cons_self
      have memberSecond : second ∈ order :=
        whole ▸ mem_append_right _ (.tail _ (mem_append_left _ mem_cons_self))
      obtain ⟨found, present, _⟩ := sound.live member
      obtain ⟨nextFound, nextPresent, _⟩ := sound.live memberSecond
      have words := same second mem_cons_self
      have isSame : found.IsSame nextFound := by
        have sorted := sound.sorted
        rw [whole] at sorted
        refine ((pairwise_cons.mp (pairwise_append.mp sorted).2.1).1 second
          (mem_append_left _ mem_cons_self) found nextFound present nextPresent ?_).1
        rw [← wordOf_eq present, ← wordOf_eq nextPresent, words]
      have shifted : order = (front ++ [first]) ++ second :: rest ++ back := by
        rw [split]
        simp only [append_assoc, cons_append, nil_append]
      obtain ⟨last, isLast, ran⟩ :=
        ih shifted (fun id inside => (same id (.tail _ inside)).trans words.symm)
        (fun id head equal => ends id head (equal.trans words)) fuel (Nat.lt_of_succ_lt_succ enough)
      refine ⟨last, by rw [getLast?_cons_cons, isLast], ?_⟩
      rw [lastSame, routes, present]
      simp only [bind_eq_bind, bind_some, nexts first member, sound.chained.next whole, cons_append,
        head?_cons, nextPresent, if_pos isSame, ran]

section
variable (sound : t.Sound held order) {word : List Bool} (parted : t.Parted order word front back)
  {table : RouteTable RouteId} (filed : t.Filed order id word table) (wf : table.Wellformed)
  {seat : RouteNode RouteId} (present : table.nodes node = some seat)
include sound parted filed wf present
variable (same : seat.p.bits = word) (routes : linked.routes = t.routes)
  (isTable : linked.table = table) (alive : t.routes id ≠ none)
include same routes isTable alive

theorem linkNext_spec :
    linked.linkNext node id =
      some ((linked.withNext (some id) back.head?).withPrev back.head? (some id)) := by
  obtain ⟨result, ran, first⟩ := besideInfo_spec wf (moves_next wf) present
  rw [same] at first
  have beside := next_beside sound parted filed first
  have aliveSelf : ∀ there, some id = some there → linked.routes there ≠ none := fun there equal =>
    routes ▸ Option.some.inj equal ▸ alive
  have back_ : ({ linked with table } : Ospf6RouteTable) = linked := by rw [← isTable]
  rw [linkNext, isTable, ran]
  simp only [bind_eq_bind, bind_some]
  cases result with
  | none =>
    rw [beside]
    simp only [RouteTable.holding, back_, setNext_eq aliveSelf]
    rfl
  | some next =>
    obtain ⟨found, nextFound, carried, some_⟩ := beside
    obtain ⟨head, rest, isBack⟩ := exists_cons_of_ne_nil some_
    have member : head ∈ order := by
      rw [parted.split, isBack]
      exact mem_append_cons_self
    have aliveHead : ∀ there, some head = some there →
        (linked.withNext (some id) (some head)).routes there ≠ none :=
      fun there equal => Option.some.inj equal ▸
        (routes ▸ sound.alive member : linked.routes head ≠ none)
    rw [isBack, List.head?_cons] at carried
    rw [isBack, List.head?_cons]
    simp only [RouteTable.holding, wf.unlock_hold nextFound, bind_some, back_, nextFound, carried,
      setNext_eq aliveSelf, setPrev_eq aliveHead]

theorem linkPrev_spec (nexts : ∀ id ∈ order, linked.next id = t.next id)
    (fresh : linked.fresh = t.fresh) :
    linked.linkPrev node id =
      some ((linked.withPrev (some id) front.getLast?).withNext front.getLast? (some id)) := by
  obtain ⟨result, ran, first⟩ := besideInfo_spec wf (moves_prev wf) present
  rw [same] at first
  have beside := prev_beside sound parted filed first
  have aliveSelf : ∀ there, some id = some there → linked.routes there ≠ none := fun there equal =>
    routes ▸ Option.some.inj equal ▸ alive
  have back_ : ({ linked with table } : Ospf6RouteTable) = linked := by rw [← isTable]
  rw [linkPrev, isTable, ran]
  simp only [bind_eq_bind, bind_some]
  cases result with
  | none =>
    rw [beside]
    simp only [RouteTable.holding, back_, setPrev_eq aliveSelf]
    rfl
  | some prev =>
    obtain ⟨found, lead, last, rest, prevFound, carried, isFront, leads⟩ := beside
    obtain ⟨sameWord, early, late, split, others⟩ := leader_split.mp leads
    -- from the first route of the prefix to the last one in front of the place
    have member : last ∈ order := by
      rw [parted.split, isFront]
      exact mem_append_left _ mem_append_cons_self
    have walked : ∃ middle, order = early ++ lead :: middle ++ back ∧
        (∀ id ∈ middle, t.wordOf id = t.wordOf lead) ∧
        (lead :: middle).getLast? = some last := by
      have joined : front ++ back = early ++ lead :: late := parted.split.symm.trans split
      obtain ⟨middle, isEarly, rfl⟩ | ⟨others, _, isBack⟩ := split_append joined
      · refine ⟨middle, ?_, fun other inside => ?_, ?_⟩
        · rw [split, append_assoc, cons_append]
        · have inOrder := sound.inOrder
          rw [parted.split] at inOrder
          have sorted := (pairwise_append.mp inOrder).1
          have least := inOrder_after (isEarly ▸ sorted) other inside
          refine le_antisymm ?_ least
          rw [sameWord]
          have early : other ∈ front := isEarly ▸ mem_append_right _ (.tail _ inside)
          rw [isFront] at sorted early
          rcases mem_append.mp early with before | here
          · exact (pairwise_append.mp sorted).2.2 other before last mem_cons_self
          · rw [mem_singleton.mp here]
        · rw [← getLast?_append_of_ne_nil early (cons_ne_nil lead middle), ← isEarly, isFront,
            getLast?_concat]
      · have later := parted.behind lead (isBack ▸ mem_append_cons_self)
        rw [sameWord] at later
        exact absurd later (lt_asymm (parted.before last (isFront ▸ mem_append_cons_self)))
    obtain ⟨middle, whole, words, isLast⟩ := walked
    have ends : ∀ id, back.head? = some id → t.wordOf id ≠ t.wordOf lead := by
      intro id head equal
      have later := parted.behind id (mem_of_head? head)
      have less := parted.before last (isFront ▸ mem_append_cons_self)
      rw [equal, sameWord] at later
      exact lt_asymm less later
    have enough : middle.length < linked.fresh + 1 := by
      have short := sound.length_le
      rw [whole, length_append, length_append, length_cons] at short
      rw [fresh]
      omega
    obtain ⟨again, isAgain, loop⟩ :=
      lastSame_spec sound routes nexts whole words ends (linked.fresh + 1) enough
    rw [isLast] at isAgain
    cases isAgain
    have aliveLast : ∀ there, some last = some there →
        (linked.withPrev (some id) (some last)).routes there ≠ none :=
      fun there equal => Option.some.inj equal ▸
        (routes ▸ sound.alive member : linked.routes last ≠ none)
    rw [isFront, getLast?_concat]
    simp only [RouteTable.holding, wf.unlock_hold prevFound, bind_some, back_, prevFound, carried,
      loop, setPrev_eq aliveSelf, setNext_eq aliveLast]

end

theorem addBrandNew_spec (ready : t.Ready held order id route node)
    (parted : t.Parted order route.p.bits front back) :
    ∃ after, t.addBrandNew node id = some after ∧ after.Sound held (front ++ id :: back) ∧
      after.routes = t.routes := by
  have sound := ready.sound
  obtain ⟨seat, present, seatWord, locked⟩ := ready.seated.seat
  have word := wordOf_eq ready.seated.found
  have absent : leader t.wordOf order route.p.bits = none := by
    rw [leader_none, parted.split]
    intro other member
    rcases mem_append.mp member with early | late
    · exact ne_of_lt (parted.before other early)
    · exact ne_of_gt (parted.behind other late)
  have info : seat.info = none := by rw [sound.info_eq present, seatWord, absent]
  obtain ⟨table, now, ran, wf, nodes, nowFound, nowWord, carries⟩ :=
    setInfo_carries sound.wf present locked (some id)
  rw [seatWord] at carries nowWord
  have filed : t.Filed order id route.p.bits table := by
    intro wanted other
    rw [carries, sound.first]
  have out : id ∉ front ++ back := parted.split ▸ ready.out
  have apartPrev : front.getLast? ≠ some id :=
    fun last => out (mem_append_left _ (mem_of_getLast? last))
  have notFront : leader t.wordOf front route.p.bits = none :=
    leader_none.mpr fun other member => ne_of_lt (parted.before other member)
  have lead := @Sound.lead t held order front back [] id sound parted.split ready.out
    (nofun) table (update t.flag id (t.flag id ||| ospf6RouteBestFlag))
  rw [word, absent] at lead
  have led :=
      lead (.inr ⟨notFront, wf, nodes, carries, by
      rw [update_self]; exact isBest_set _, fun other inside => by
    have apart : other ≠ id := by
      rintro rfl
      exact out inside
    rw [update_of_ne apart]
    exact (and_iff_left (some_ne_none other).symm).symm⟩)
  obtain ⟨linked, isLinked⟩ := @exists_eq _ { t with
    table, flag := update t.flag id (t.flag id ||| ospf6RouteBestFlag), lock := update t.lock id 1 }
  obtain ⟨placed, isPlaced⟩ :=
      @exists_eq _
      { ((((linked.withNext (some id) back.head?).withPrev back.head? (some id)).withPrev
      (some id) front.getLast?).withNext
      front.getLast? (some id)) with count := (t.count + 1) % 2 ^ 32 }
  obtain ⟨placedSound, few, alive⟩ :
      placed.Sound held (front ++ id :: back) ∧ placed.FewLocks ∧ placed.routes id ≠ none := by
    have inOrder : InOrder t.wordOf (front ++ back) := parted.split ▸ sound.inOrder
    have sorted : (front ++ back).Pairwise t.Sorts := parted.split ▸ sound.sorted
    have alone : ∀ other ∈ front ++ back, t.wordOf other ≠ t.wordOf id := by
      intro other member
      rw [word]
      exact leader_none.mp absent other (parted.split ▸ member)
    rw [isPlaced, isLinked]
    refine ready.inserts parted.split led (fun other => ?_)
      (fun other => ?_) ?_ ?_ rfl rfl rfl rfl rfl
    · have written : writeAt t.next (some id) back.head? other = if other = id then back.head?
          else t.next other := by
        rw [writeAt_apply]
        exact if_congr (by rw [some_inj, eq_comm]) rfl rfl
      have linkedTwice :
          writeAt (writeAt t.next (some id) back.head?) front.getLast? (some id) other =
          if other = id then back.head? else if front.getLast? = some other then some id
            else t.next other := by
        rw [writeAt_apply, written]
        by_cases same : other = id
        · rw [same, if_neg apartPrev, if_pos rfl, if_pos rfl]
        · rw [if_neg same, if_neg same]
      exact linkedTwice
    · have linkedTwice : writeAt (writeAt t.prev back.head? (some id))
          (some id) front.getLast? other =
          if other = id then front.getLast? else if back.head? = some other then some id
            else t.prev other := by
        rw [writeAt_apply, writeAt_apply]
        exact if_congr (by rw [some_inj, eq_comm]) rfl rfl
      exact linkedTwice
    · refine pairwise_insert inOrder (fun other member => ?_) fun other member => ?_
      · rw [word]
        exact le_of_lt (parted.before other member)
      · rw [word]
        exact le_of_lt (parted.behind other member)
    · refine pairwise_insert sorted (fun other member ra rb foundOther foundId same => ?_)
        fun other member ra rb foundId foundOther same => ?_
      · refine absurd ?_ (alone other (mem_append_left _ member))
        rw [wordOf_eq foundOther, wordOf_eq foundId, same]
      · refine absurd ?_ (alone other (mem_append_right _ member))
        rw [wordOf_eq foundOther, wordOf_eq foundId, same]
  refine ⟨_, ?_, placedSound.setFlag id
      (show ospf6RouteAddFlag &&& ospf6RouteBestFlag = 0 by decide), by
    rw [isPlaced, isLinked]; rfl⟩
  have set : t.setInfo node (some id) = some { t with table } := by
    rw [Ospf6RouteTable.setInfo, ran]
    rfl
  have marked := setFlag_eq (t := { t with table }) ready.alive ospf6RouteBestFlag
  have taken := lock_first
    (t := { t with table, flag := update t.flag id (t.flag id ||| ospf6RouteBestFlag) }) ready.alive
    ready.seated.lock
  have nextLinked := linkNext_spec sound parted filed wf nowFound nowWord
    (show linked.routes = t.routes by rw [isLinked])
    (by rw [isLinked]) ready.alive
  have prevLinked :
      ((linked.withNext (some id) back.head?).withPrev back.head? (some id)).linkPrev node id =
      some ((((linked.withNext (some id) back.head?).withPrev back.head? (some id)).withPrev
        (some id) front.getLast?).withNext
        front.getLast? (some id)) := by
    rw [isLinked]
    refine linkPrev_spec sound parted filed wf nowFound nowWord rfl rfl ready.alive
      (fun other member => ?_) rfl
    have apart : other ≠ id := by
      rintro rfl
      exact ready.out member
    exact (writeAt_apply ..).trans (if_neg fun equal => apart (some.inj equal).symm)
  have counted := placedSound.routeCountAssert few
  rw [addBrandNew, present]
  simp only [bind_eq_bind, bind_some, info, ne_eq, not_true_eq_false, if_false, set, marked, taken]
  rw [← isLinked, nextLinked, bind_some, prevLinked]
  rw [isPlaced, isLinked] at counted alive ⊢
  exact (congrArg (bind · _) counted).trans (setFlag_eq alive _)

end Ospf6RouteTable
end Zebra.Ospf6d
