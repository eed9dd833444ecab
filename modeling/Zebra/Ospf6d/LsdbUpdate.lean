import Zebra.Ospf6d.LsdbIterate

namespace Zebra.Ospf6d
open Function Base Option List RouteTable
namespace Ospf6Lsdb
variable {db after : Ospf6Lsdb} {extra : LsaId → Nat} {stored kept : List LsaId}
  {id other old : LsaId} {lsa : LsaCell}

/-- The cells of a database change in place, under their keys. -/
structure Rewritten (db after : Ospf6Lsdb) (change : LsaId → LsaCell → LsaCell) : Prop where
  lsas : ∀ id, after.lsas id = (db.lsas id).map (change id)
  keys : ∀ id lsa, (change id lsa).key = lsa.key
  fresh : after.fresh = db.fresh

theorem Rewritten.wordOf {change} (rewritten : Rewritten db after change) (id : LsaId) :
    after.wordOf id = db.wordOf id := by
  rw [Ospf6Lsdb.wordOf, Ospf6Lsdb.wordOf, rewritten.lsas]
  cases db.lsas id with
  | none => rfl
  | some lsa => exact congrArg Ospf6LsaKey.word (rewritten.keys id lsa)

theorem Sound.rewrite (sound : db.Sound extra stored) {change}
    (rewritten : Rewritten db after change) {others} (keyed : Keyed after.table)
    (nodup : kept.Nodup)
    (carries : ∀ word id, Carries after.table word id ↔ id ∈ kept ∧ db.wordOf id = word)
    (live : ∀ id ∈ kept, db.lsas id ≠ none)
    (next : ∀ id lsa, id ∈ kept → db.lsas id = some lsa →
      Follower (· < ·) kept db.wordOf (db.wordOf id) (change id lsa).next)
    (prev : ∀ id lsa, id ∈ kept → db.lsas id = some lsa →
      Follower (· > ·) kept db.wordOf (db.wordOf id) (change id lsa).prev)
    (lock : ∀ id lsa, db.lsas id = some lsa →
      (change id lsa).lock = (if id ∈ kept then 1 else 0) + others id)
    (held : ∀ id, 0 < others id → db.lsas id ≠ none) (count : after.count = kept.length % 2 ^ 32) :
    after.Sound others kept := by
  refine sound.recast keyed nodup carries rewritten.fresh (fun {id lsa} found => ?_)
    (fun {id} needed => ?_) count
  · rw [rewritten.lsas] at found
    obtain ⟨cell, there, rfl⟩ := map_eq_some_iff.mp found
    exact ⟨cell, there, rewritten.keys id cell,
      fun member => ⟨next id cell member there, prev id cell member there⟩,
      lock id cell there⟩
  · rw [rewritten.lsas]
    exact mt map_eq_none_iff.mp (needed.elim (live id) (held id))

theorem Sound.retable (sound : db.Sound extra stored) {table} (keyed : Keyed table)
    (carries : ∀ word id, Carries table word id ↔ Carries db.table word id) :
    { db with table }.Sound extra stored where
  keyed := keyed
  nodup := sound.nodup
  filed id := (sound.filed id).trans (exists_congr fun word => (carries word id).symm)
  words carried := sound.words ((carries _ _).mp carried)
  next := sound.next
  prev := sound.prev
  lock := sound.lock
  held := sound.held
  allocated := sound.allocated
  count := sound.count

section Links

/-- `place->next` is written, where there is a place. -/
def withNext (db : Ospf6Lsdb) (place next : Option LsaId) : Ospf6Lsdb :=
  { db with lsas := fun id => (db.lsas id).map fun lsa =>
              { lsa with next := if place = some id then next else lsa.next } }

def withPrev (db : Ospf6Lsdb) (place prev : Option LsaId) : Ospf6Lsdb :=
  { db with lsas := fun id => (db.lsas id).map fun lsa =>
              { lsa with prev := if place = some id then prev else lsa.prev } }

theorem modify_eq {place change} {written : LsaId → LsaCell → LsaCell}
    (live : ∀ id, place = some id → db.lsas id ≠ none)
    (here : ∀ id, place = some id → written id = change)
    (elsewhere : ∀ id, place ≠ some id → written id = fun lsa => lsa) :
    (match place with | none => some db | some place => db.modify place change) =
      some { db with lsas := fun id => (db.lsas id).map (written id) } := by
  cases place with
  | none =>
    refine congrArg some (congrArg (fun lsas => { db with lsas }) (funext fun id => ?_))
    rw [elsewhere id (by simp)]
    exact (Option.map_id' ..).symm
  | some place =>
    obtain ⟨lsa, found⟩ := ne_none_iff_exists'.mp (live place rfl)
    simp only [modify, found, bind_eq_bind, bind_some]
    refine congrArg some (congrArg (fun lsas => { db with lsas }) (funext fun id => ?_))
    by_cases same : id = place
    · subst same
      rw [update_self, found, map_some, here id rfl]
    · rw [update_of_ne same, elsewhere id fun equal => same (some.inj equal).symm]
      exact (Option.map_id' ..).symm

theorem setNext_eq {place : Option LsaId} (next : Option LsaId)
    (live : ∀ id, place = some id → db.lsas id ≠ none) :
    db.setNext place next = some (db.withNext place next) :=
  modify_eq live (fun id same => by simp only [if_pos same]) fun id apart => by
    simp only [if_neg apart]

theorem setPrev_eq {place : Option LsaId} (prev : Option LsaId)
    (live : ∀ id, place = some id → db.lsas id ≠ none) :
    db.setPrev place prev = some (db.withPrev place prev) :=
  modify_eq live (fun id same => by simp only [if_pos same]) fun id apart => by
    simp only [if_neg apart]

theorem withNext_lsas (place next : Option LsaId) (id : LsaId) : (db.withNext place next).lsas id =
    (db.lsas id).map fun lsa =>
      { lsa with next := if place = some id then next else lsa.next } := rfl

theorem withPrev_lsas (place prev : Option LsaId) (id : LsaId) : (db.withPrev place prev).lsas id =
    (db.lsas id).map fun lsa =>
      { lsa with prev := if place = some id then prev else lsa.prev } := rfl

theorem withNext_live {place next} : (db.withNext place next).lsas id ≠ none ↔ db.lsas id ≠ none :=
  not_congr map_eq_none_iff

theorem withPrev_live {place prev} : (db.withPrev place prev).lsas id ≠ none ↔ db.lsas id ≠ none :=
  not_congr map_eq_none_iff

end Links

theorem neighbour {before} [IsStrictTotalOrder (List Bool) before] {key}
    {beside} (follower : Follower before stored key (key id) beside) (found : beside = some other) :
    other ∈ stored ∧ other ≠ id := by
  subst found
  refine ⟨follower.1, ?_⟩
  rintro rfl
  exact irrefl_of before _ follower.2.1

section Remove

/-- The links around an advertisement that goes. -/
def unlinked (db : Ospf6Lsdb) (lsa : LsaCell) : Ospf6Lsdb :=
  (db.withNext lsa.prev lsa.next).withPrev lsa.next lsa.prev

theorem unlinked_rewritten (db : Ospf6Lsdb) (lsa : LsaCell) (table : RouteTable LsaId)
    (count : Nat) :
    Rewritten db { db.unlinked lsa with table, count } fun other cell => { cell with
      next := if lsa.prev = some other then lsa.next else cell.next
      prev := if lsa.next = some other then lsa.prev else cell.prev } :=
  ⟨fun _ => map_map .., fun _ _ => rfl, rfl⟩

section
variable (sound : db.Sound extra stored)
include sound

/-- Where the node of an advertisement is cleared and its neighbours are linked to each other, it is
no longer stored, and its lock is one of a reader. -/
theorem Sound.unlink (member : id ∈ stored) (found : db.lsas id = some lsa) {table}
    (keyed : Keyed table)
    (carries : ∀ word other, Carries table word other ↔ if word = db.wordOf id then False
      else Carries db.table word other) :
    { db.unlinked lsa with table, count := (db.count + (2 ^ 32 - 1)) % 2 ^ 32 }.Sound
      (update extra id (extra id + 1)) (stored.erase id) := by
  have next := sound.next member found
  have prev := sound.prev member found
  have only : ∀ {other}, other ∈ stored.erase id → other ∈ stored ∧ other ≠ id := fun inside =>
    ⟨mem_of_mem_erase inside, (sound.nodup.mem_erase_iff.mp inside).1⟩
  refine sound.rewrite (db.unlinked_rewritten lsa table _) keyed
    (sound.nodup.erase id) ?_ ?_ ?_ ?_ ?_ ?_ ?_
  · intro word other
    rw [carries, sound.carries_iff, sound.nodup.mem_erase_iff]
    split
    · rename_i same
      refine ⟨False.elim, fun ⟨⟨apart, inside⟩, equal⟩ => apart ?_⟩
      exact sound.distinct other inside id member (equal.trans same)
    · rename_i different
      refine ⟨fun ⟨inside, equal⟩ => ⟨⟨?_, inside⟩, equal⟩,
        fun ⟨⟨_, inside⟩, equal⟩ => ⟨inside, equal⟩⟩
      rintro rfl
      exact different equal.symm
  · exact fun other inside => sound.alive (only inside).1
  · intro other cell inside there
    obtain ⟨here, apart⟩ := only inside
    exact (sound.next here there).erase sound.distinct sound.nodup here member apart prev next
  · intro other cell inside there
    obtain ⟨here, apart⟩ := only inside
    exact (sound.prev here there).erase sound.distinct sound.nodup here member apart next prev
  · intro other cell there
    have lock := sound.lock there
    by_cases same : other = id
    · subst same
      rw [if_pos member] at lock
      rw [if_neg (fun inside => (only inside).2 rfl), update_self, lock]
      omega
    · rw [update_of_ne same, lock]
      simp only [sound.nodup.mem_erase_iff, ne_eq, same, not_false_eq_true, true_and]
  · intro other more
    by_cases same : other = id
    · rw [same, found]
      exact nofun
    · rw [update_of_ne same] at more
      exact sound.held more
  · rw [length_erase_of_mem member]
    have positive := length_pos_of_mem member
    have count := sound.count
    dsimp only
    omega

theorem Sound.clear (member : id ∈ stored) (found : db.lsas id = some lsa) :
    ∃ place node cleared, db.table.routeNodeLookup lsa.key.lsdbKey =
      some (db.table.hold place, some place) ∧
      assertFiled (db.table.hold place) (some place) id = some place ∧
      (db.table.hold place).setInfo place none = some cleared ∧ cleared.nodes place = some node ∧
      1 < node.lock ∧
      Keyed cleared ∧
      ∀ word other, Carries cleared word other ↔ if word = db.wordOf id then False
        else Carries db.table word other := by
  have carried := sound.carried member
  rw [wordOf_eq found] at carried
  obtain ⟨result, ran, missing, hit⟩ := sound.keyed.lookup lsa.key
  cases result with
  | none => exact absurd carried (missing rfl id)
  | some place =>
    obtain ⟨node, present, bits, full⟩ := hit place rfl
    obtain ⟨other, isInfo⟩ := isSome_iff_exists.mp full
    have same : other = id :=
      info_unique sound.keyed.wf ⟨place, node, present, bits, isInfo⟩ carried
    subst same
    have heldFound := nodes_hold_self present
    have locked := sound.keyed.lock_ne present full
    obtain ⟨cleared, written, wf, _, changed⟩ :=
      (sound.keyed.wf.hold present).setInfo heldFound (Nat.succ_pos _) none
    have whole := sound.keyed.named present locked
    have status :
        cleared.status = update db.table.status place (some (node.p, node.lock + 1, none)) := by
      rw [changed]
      funext there
      by_cases here : there = place
      · rw [here, update_self, update_self]
      · rw [update_of_ne here, update_of_ne here, status, status, nodes_hold_ne here]
    obtain ⟨last, lastFound, _, lastLock, _⟩ := node_of_views (show cleared.status place = _ by
      rw [status, update_self])
    refine ⟨place, last, cleared, ran, ?_, written, lastFound, by
      omega, sound.keyed.restate wf status whole, ?_⟩
    · simp only [assertFiled, bind_eq_bind, bind_some, heldFound, if_pos isInfo]
      rfl
    · intro word other
      rw [carries_restate sound.keyed.wf present status, bits, wordOf_eq found]
      simp only [reduceCtorEq]

theorem Sound.ospf6LsdbRemove (few : ∀ id, extra id < 199) (member : id ∈ stored)
    (found : db.lsas id = some lsa) :
    ∃ after, db.ospf6LsdbRemove id = some after ∧ after.Sound extra (stored.erase id) ∧
      (∀ other, other ≠ id → after.wordOf other = db.wordOf other) ∧
      (0 < extra id → ∃ cell, after.lsas id = some cell ∧ cell.next = lsa.next) := by
  obtain ⟨place, node, cleared, ran, filed, written, nodeFound, more, keyed, carries⟩ :=
    sound.clear member found
  obtain ⟨table, unlocked, tableKeyed, tableCarries⟩ := keyed.unlock nodeFound more
  have next := sound.next member found
  have prev := sound.prev member found
  have before : lsa.prev ≠ some id := fun same => (neighbour prev same).2 rfl
  have after : lsa.next ≠ some id := fun same => (neighbour next same).2 rfl
  have unlinking := sound.unlink member found keyed carries
  obtain ⟨left, leaves, leftSound, sameTable⟩ := unlinking.unlock
  have leftover : { left with table := table }.Sound extra (stored.erase id) :=
    leftSound.retable tableKeyed fun word other => by rw [tableCarries, sameTable]
  have first : ({ db with table := db.table.hold place } : Ospf6Lsdb).setNext lsa.prev lsa.next =
      some ({ db with table := db.table.hold place }.withNext lsa.prev lsa.next) :=
    setNext_eq _ fun _ same => sound.alive (neighbour prev same).1
  have kept :
      (({ db with table := db.table.hold place } : Ospf6Lsdb).withNext lsa.prev lsa.next).lsas id =
      some lsa := by
    simp only [withNext, found, map_some, if_neg before]
  have second :
      (({ db with table := db.table.hold place } : Ospf6Lsdb).withNext lsa.prev lsa.next).setPrev
      lsa.next lsa.prev =
      some ({ db.unlinked lsa with table := db.table.hold place }) :=
    setPrev_eq _ fun _ same => withNext_live.mpr (sound.alive (neighbour next same).1)
  have leaving : ({ db.unlinked lsa with
      table := cleared, count := ((db.unlinked lsa).count + (2 ^ 32 - 1)) % 2 ^ 32 } :
        Ospf6Lsdb).ospf6LsaUnlock id =
      some left := leaves
  refine ⟨{ left with table := table }, ?_, leftover, fun other apart => ?_, fun reads => ?_⟩
  · simp only [Ospf6Lsdb.ospf6LsdbRemove, found, ran, filed, first, kept, second, written, leaving,
      sameTable, unlocked, bind_eq_bind, bind_some]
    exact leftover.lsdbCountAssert fun other => Nat.lt_succ_of_lt (few other)
  · have same : ({ left with table := table } : Ospf6Lsdb).wordOf other = left.wordOf other := rfl
    rw [Ospf6Lsdb.wordOf, unlock_ne apart leaves]
    exact (db.unlinked_rewritten lsa cleared _).wordOf other
  · obtain ⟨cell, survives⟩ := ne_none_iff_exists'.mp (leftSound.held reads)
    obtain ⟨last, lastFound, sameNext⟩ := unlock_next leaves survives
    refine ⟨cell, survives, sameNext.trans ?_⟩
    rw [(db.unlinked_rewritten lsa cleared _).lsas, found, map_some, if_neg before] at lastFound
    cases lastFound
    rfl

end
end Remove

section Add

/-- The advertisement a search beside a word ends at. -/
def CarriedBeside (table : RouteTable LsaId) (before : List Bool → List Bool → Prop)
    (word : List Bool) : Option LsaId → Prop
  | none => ∀ other id, Carries table other id → ¬ before word other
  | some next => ∃ first, Carries table first next ∧ before word first ∧
      ∀ other id, Carries table other id → before word other → ¬ before other first

variable {table : RouteTable LsaId} {place : NodeId} {node : RouteNode LsaId}

theorem infoBeside_spec (keyed : Keyed table) {before} [DecidableRel before]
    [IsStrictTotalOrder (List Bool) before] {step} (moves : Moves table before step)
    (found : table.nodes place = some node) :
    ∃ held result next, besideInfo step table place = some (held, result) ∧
      infoBeside held result = some (table, next) ∧
      CarriedBeside table before node.p.bits next := by
  obtain ⟨result, ran, first⟩ := besideInfo_spec keyed.wf moves found
  cases result with
  | none =>
    refine ⟨_, none, none, ran, rfl, fun word id ⟨other, otherNode, present, same, carried⟩ => ?_⟩
    rw [← same]
    exact first other otherNode present (by rw [carried]; rfl)
  | some next =>
    obtain ⟨nextNode, nextFound, full, later, least⟩ := first
    obtain ⟨id, carried⟩ := isSome_iff_exists.mp full
    refine ⟨_, some next, some id, ran, ?_, _, ⟨next, nextNode, nextFound, rfl, carried⟩, later, ?_⟩
    · simp only [infoBeside, holding, nodes_hold_self nextFound, bind_eq_bind, bind_some,
        keyed.wf.unlock_hold nextFound, carried]
      rfl
    · rintro word other ⟨there, otherNode, present, rfl, carries⟩ behind
      exact least there otherNode present (by rw [carries]; rfl) behind

theorem CarriedBeside.follower {before word result}
    (beside : CarriedBeside table before word result) {key}
    (carries : ∀ word id, Carries table word id ↔ id ∈ stored ∧ key id = word) :
    Follower before stored key word result := by
  cases result with
  | none => exact fun id member => beside _ id ((carries _ id).mpr ⟨member, rfl⟩)
  | some next =>
    obtain ⟨first, carried, later, least⟩ := beside
    obtain ⟨member, rfl⟩ := (carries first next).mp carried
    exact ⟨member, later, fun id inside => least _ id ((carries _ id).mpr ⟨inside, rfl⟩)⟩

/-- The links around a new advertisement. -/
def linked (db : Ospf6Lsdb) (id : LsaId) (next prev : Option LsaId) : Ospf6Lsdb :=
  (((db.withNext (some id) next).withPrev next (some id)).withPrev (some id) prev).withNext prev
    (some id)

/-- The links of an advertisement that replaces another one. -/
def relinked (db : Ospf6Lsdb) (old : LsaCell) (id : LsaId) : Ospf6Lsdb :=
  (((db.withNext old.prev (some id)).withPrev old.next (some id)).withNext
    (some id) old.next).withPrev (some id) old.prev

section
variable (db : Ospf6Lsdb)

theorem linkNext_eq (keyed : Keyed db.table) (found : db.table.nodes place = some node)
    (live : db.lsas id ≠ none)
    (all : ∀ word other, Carries db.table word other → db.lsas other ≠ none) :
    ∃ next, db.linkNext place id = some ((db.withNext (some id) next).withPrev next (some id)) ∧
      CarriedBeside db.table (· < ·) node.p.bits next := by
  obtain ⟨held, result, next, ran, unlocked, beside⟩ :=
    infoBeside_spec keyed (moves_next keyed.wf) found
  refine ⟨next, ?_, beside⟩
  have first : db.setNext (some id) next = some (db.withNext (some id) next) :=
      setNext_eq _ fun other same => by
    cases same
    exact live
  have second : (db.withNext (some id) next).setPrev next (some id) =
      some ((db.withNext (some id) next).withPrev next (some id)) :=
        setPrev_eq _ fun other same => by
    subst same
    obtain ⟨word, carried, _⟩ := beside
    exact withNext_live.mpr (all word other carried)
  simp only [linkNext, ran, unlocked, bind_eq_bind, bind_some]
  exact (congrArg (fun made => made.bind fun db => db.setPrev next (some id)) first).trans second

theorem linkPrev_eq (keyed : Keyed db.table) (found : db.table.nodes place = some node)
    (live : db.lsas id ≠ none)
    (all : ∀ word other, Carries db.table word other → db.lsas other ≠ none) :
    ∃ prev, db.linkPrev place id = some ((db.withPrev (some id) prev).withNext prev (some id)) ∧
      CarriedBeside db.table (· > ·) node.p.bits prev := by
  obtain ⟨held, result, prev, ran, unlocked, beside⟩ :=
    infoBeside_spec keyed (moves_prev keyed.wf) found
  refine ⟨prev, ?_, beside⟩
  have first : db.setPrev (some id) prev = some (db.withPrev (some id) prev) :=
      setPrev_eq _ fun other same => by
    cases same
    exact live
  have second : (db.withPrev (some id) prev).setNext prev (some id) =
      some ((db.withPrev (some id) prev).withNext prev (some id)) :=
        setNext_eq _ fun other same => by
    subst same
    obtain ⟨word, carried, _⟩ := beside
    exact withPrev_live.mpr (all word other carried)
  simp only [linkPrev, ran, unlocked, bind_eq_bind, bind_some]
  exact (congrArg (fun made => made.bind fun db => db.setNext prev (some id)) first).trans second

theorem linked_rewritten (id : LsaId) (next prev : Option LsaId) (table : RouteTable LsaId)
    (count : Nat) :
    Rewritten db { (db.holdLsa id).linked id next prev with table, count } fun other cell =>
      { cell with
      next := if prev = some other then some id else if some id = some other then next
      else cell.next
      prev := if some id = some other then prev else if next = some other then some id
        else cell.prev
      lock := if other = id then cell.lock + 1 else cell.lock } := by
  refine ⟨fun other => ?_, fun _ _ => rfl, rfl⟩
  simp only [linked, withNext, withPrev, holdLsa_lsas, Option.map_map]
  rfl

theorem relinked_rewritten (old : LsaCell) (id : LsaId) (table : RouteTable LsaId) :
    Rewritten db { (db.holdLsa id).relinked old id with table } fun other cell => { cell with
      next := if some id = some other then old.next else if old.prev = some other then some id
      else cell.next
      prev := if some id = some other then old.prev else if old.next = some other then some id
        else cell.prev
      lock := if other = id then cell.lock + 1 else cell.lock } := by
  refine ⟨fun other => ?_, fun _ _ => rfl, rfl⟩
  simp only [relinked, withNext, withPrev, holdLsa_lsas, Option.map_map]
  rfl

end

theorem relink_eq {cell} (live : db.lsas id ≠ none) (found : db.lsas old = some cell)
    (before : cell.prev ≠ some old)
    (behind : cell.next ≠ some old) (prevs : ∀ other, cell.prev = some other → db.lsas other ≠ none)
    (nexts : ∀ other, cell.next = some other → db.lsas other ≠ none) :
    db.relink old id = some (db.relinked cell id) := by
  obtain ⟨one, isOne⟩ : ∃ one, db.withNext cell.prev (some id) = one := ⟨_, rfl⟩
  obtain ⟨two, isTwo⟩ : ∃ two, one.withPrev cell.next (some id) = two := ⟨_, rfl⟩
  obtain ⟨three, isThree⟩ : ∃ three, two.withNext (some id) cell.next = three := ⟨_, rfl⟩
  have oneFound : one.lsas old = some cell := by
    rw [← isOne, withNext_lsas, found, map_some, if_neg before]
  have twoFound : two.lsas old = some cell := by
    rw [← isTwo, withPrev_lsas, oneFound, map_some, if_neg behind]
  have threeFound : three.lsas old = some cell := by
    rw [← isThree, withNext_lsas, twoFound, map_some, ite_self]
  have oneLive : ∀ other, db.lsas other ≠ none → one.lsas other ≠ none := fun other there =>
    isOne ▸ withNext_live.mpr there
  have twoLive : two.lsas id ≠ none := isTwo ▸ withPrev_live.mpr (oneLive id live)
  have threeLive : three.lsas id ≠ none := isThree ▸ withNext_live.mpr twoLive
  have first : db.setNext cell.prev (some id) = some one := isOne ▸ setNext_eq _ prevs
  have second : one.setPrev cell.next (some id) = some two :=
    isTwo ▸ setPrev_eq _ fun other same => oneLive other (nexts other same)
  have third : two.setNext (some id) cell.next = some three :=
      isThree ▸ setNext_eq _ fun other same =>
    some.inj same ▸ twoLive
  have fourth : three.setPrev (some id) cell.prev = some (three.withPrev (some id) cell.prev) :=
    setPrev_eq _ fun other same => some.inj same ▸ threeLive
  simp only [relink, found, first, oneFound, second, twoFound, third, threeFound, fourth,
    bind_eq_bind, bind_some]
  rw [← isThree, ← isTwo, ← isOne]
  rfl

section
variable (sound : db.Sound extra stored)
include sound

theorem Sound.file (lsa : LsaCell) (id : LsaId) :
    ∃ table place node filed, db.table.routeNodeGet lsa.key.lsdbKey = some (table, place) ∧
      table.nodes place = some node ∧ table.setInfo place (some id) = some filed ∧ Keyed filed ∧
      (∃ last, filed.nodes place = some last ∧ last.p.bits = lsa.key.word) ∧
      (∀ other, node.info = some other ↔ Carries db.table lsa.key.word other) ∧
      (∀ word other, Carries filed word other ↔ if word = lsa.key.word then other = id
        else Carries db.table word other) ∧
      (Exact db.table → (∀ other, ¬ Carries db.table lsa.key.word other) → Exact filed) := by
  obtain ⟨table, place, node, ran, keyed, present, bits, locked, carries, exacts⟩ :=
    sound.keyed.get lsa.key
  obtain ⟨filed, written, wf, _, changed⟩ := keyed.wf.setInfo present locked (some id)
  have whole := keyed.named present (ne_of_gt locked)
  obtain ⟨last, lastFound, lastPrefix, lastLock, lastInfo⟩ :=
      node_of_views (show filed.status place = _ by
    rw [changed, update_self])
  refine ⟨table, place, node, filed, ran, present, written, keyed.restate wf changed whole,
    ⟨last, lastFound, by rw [lastPrefix, bits]⟩, fun other => ?_, fun word other => ?_,
      fun exact absent => ?_⟩
  · rw [← carries]
    constructor
    · exact fun carried => ⟨place, node, present, bits, carried⟩
    · rintro ⟨there, otherNode, also, same, carried⟩
      have here := place_unique keyed.wf also present (same.trans bits.symm)
      rw [here, present] at also
      cases also
      exact carried
  · rw [carries_restate keyed.wf present changed, bits, carries]
    simp only [some.injEq, eq_comm]
  · obtain ⟨once, others⟩ := exacts exact absent
    intro there otherNode also held
    by_cases here : there = place
    · rw [here, lastFound] at also
      cases also
      rw [lastLock, lastInfo]
      exact ⟨once, rfl⟩
    · have status := status_of_node also
      rw [changed, update_of_ne here] at status
      obtain ⟨before, beforeFound, _, sameLock, sameInfo⟩ := node_of_views status
      rw [← sameLock, ← sameInfo]
      exact others there before beforeFound (by rwa [sameLock]) here

/-- What the table carries where an advertisement is put under its key. -/
theorem Sound.members
    (mem : ∀ other, other ∈ kept ↔ other = id ∨ other ∈ stored ∧ db.wordOf other ≠ db.wordOf id)
    (carries : ∀ word other, Carries table word other ↔ if word = db.wordOf id then other = id
      else Carries db.table word other)
    (word : List Bool) (other : LsaId) : Carries table word other ↔
    other ∈ kept ∧ db.wordOf other = word := by
  rw [carries, mem]
  split
  · rename_i here
    constructor
    · rintro rfl
      exact ⟨.inl rfl, here.symm⟩
    · rintro ⟨same | inside, word⟩
      · exact same
      · exact absurd (word.trans here) inside.2
  · rename_i apart
    rw [sound.carries_iff]
    constructor
    · rintro ⟨inside, rfl⟩
      exact ⟨.inr ⟨inside, apart⟩, rfl⟩
    · rintro ⟨rfl | inside, rfl⟩
      · exact absurd rfl apart
      · exact ⟨inside.1, rfl⟩

theorem Sound.insert (found : db.lsas id = some lsa) (keyed : Keyed table)
    (fresh : ∀ other ∈ stored, db.wordOf other ≠ db.wordOf id)
    (carries : ∀ word other, Carries table word other ↔
      other ∈ id :: stored ∧ db.wordOf other = word)
    {next prev} (follower : Follower (· < ·) (id :: stored) db.wordOf (db.wordOf id) next)
    (leader : Follower (· > ·) (id :: stored) db.wordOf (db.wordOf id) prev) :
    { (db.holdLsa id).linked id next prev with table, count := (db.count + 1) % 2 ^ 32 }.Sound extra
      (id :: stored) := by
  have outside : id ∉ stored := fun member => fresh id member rfl
  have different : ∀ {other}, other ∈ stored → other ≠ id :=
    fun member same => outside (same ▸ member)
  refine sound.rewrite (db.linked_rewritten id next prev table _) keyed
    (nodup_cons.mpr ⟨outside, sound.nodup⟩) carries
    ?_ ?_ ?_ ?_ ?_ ?_
  · intro other member
    rcases mem_cons.mp member with rfl | member
    · rw [found]
      exact nofun
    · exact sound.alive member
  · intro other cell member there
    dsimp only
    rcases mem_cons.mp member with rfl | member
    · rw [if_neg fun same => (neighbour leader same).2 rfl, if_pos rfl]
      exact follower
    · rw [if_neg fun same : some id = some other => different member (some.inj same).symm]
      exact (sound.next member there).insert sound.distinct member fresh leader.drop_self
  · intro other cell member there
    rcases mem_cons.mp member with rfl | member
    · rw [if_pos rfl]
      exact leader
    · rw [if_neg fun same : some id = some other => different member (some.inj same).symm]
      exact (sound.prev member there).insert sound.distinct member fresh follower.drop_self
  · intro other cell there
    have lock := sound.lock there
    dsimp only
    by_cases same : other = id
    · subst same
      rw [if_neg outside] at lock
      rw [if_pos rfl, if_pos mem_cons_self]
      omega
    · rw [if_neg same, lock]
      simp only [mem_cons, same, false_or]
  · exact fun other => sound.held
  · rw [length_cons]
    have count := sound.count
    dsimp only
    omega

/-- An advertisement takes the place of one with its key; the lock of that one is left to be given
  back. -/
theorem Sound.replace (found : db.lsas id = some lsa) {cell}
    (member : old ∈ stored) (oldFound : db.lsas old = some cell)
    (same : db.wordOf old = db.wordOf id) {table} (keyed : Keyed table)
    (carries : ∀ word other, Carries table word other ↔
      other ∈ id :: stored.erase old ∧ db.wordOf other = word) :
    { (db.holdLsa id).relinked cell id with table }.Sound (update extra old (extra old + 1))
    (id :: stored.erase old) := by
  have next := sound.next member oldFound
  have prev := sound.prev member oldFound
  have only : ∀ {other}, other ∈ stored.erase old → other ∈ stored ∧ other ≠ old := fun inside =>
    ⟨mem_of_mem_erase inside, (sound.nodup.mem_erase_iff.mp inside).1⟩
  have fresh : ∀ other ∈ stored.erase old, db.wordOf other ≠ db.wordOf id :=
      fun other inside equal =>
    (only inside).2 (sound.distinct other (only inside).1 old member (equal.trans same.symm))
  have outside : id ∉ stored.erase old := fun inside => fresh id inside rfl
  have different : ∀ {other}, other ∈ stored.erase old → other ≠ id :=
    fun inside equal => outside (equal ▸ inside)
  have follows := next.erase_self sound.nodup
  have leads := prev.erase_self sound.nodup
  rw [same] at follows leads
  refine sound.rewrite (db.relinked_rewritten cell id table) keyed
    (nodup_cons.mpr ⟨outside, sound.nodup.erase old⟩) carries
    ?_ ?_ ?_ ?_ ?_ ?_
  · intro other inside
    rcases mem_cons.mp inside with rfl | inside
    · rw [found]
      exact nofun
    · exact sound.alive (only inside).1
  · intro other found inside there
    dsimp only
    rcases mem_cons.mp inside with rfl | inside
    · rw [if_pos rfl]
      exact follows.insert_self
    · rw [if_neg fun equal : some id = some other => different inside (some.inj equal).symm]
      exact (sound.next (only inside).1 there).replace sound.distinct sound.nodup inside member
        same prev next
  · intro other found inside there
    rcases mem_cons.mp inside with rfl | inside
    · rw [if_pos rfl]
      exact leads.insert_self
    · rw [if_neg fun equal : some id = some other => different inside (some.inj equal).symm]
      exact (sound.prev (only inside).1 there).replace sound.distinct sound.nodup inside member
        same next prev
  · intro other seen there
    have lock := sound.lock there
    dsimp only
    by_cases here : other = id
    · subst here
      rw [if_pos rfl, if_pos mem_cons_self, lock]
      by_cases equal : other = old
      · subst equal
        rw [if_pos member, update_self]
        omega
      · have apart : other ∉ stored :=
          fun inside => outside (sound.nodup.mem_erase_iff.mpr ⟨equal, inside⟩)
        rw [if_neg apart, update_of_ne equal]
        omega
    · rw [if_neg here, lock]
      by_cases equal : other = old
      · subst equal
        have gone : other ∉ id :: stored.erase other := fun inside =>
          (mem_cons.mp inside).elim here fun inside => (only inside).2 rfl
        rw [if_pos member, if_neg gone, update_self]
        omega
      · rw [update_of_ne equal]
        simp only [mem_cons, here, false_or, sound.nodup.mem_erase_iff, ne_eq, equal,
          not_false_eq_true, true_and]
  · intro other more
    by_cases equal : other = old
    · rw [equal, oldFound]
      exact nofun
    · rw [update_of_ne equal] at more
      exact sound.held more
  · rw [length_cons, length_erase_of_mem member, Nat.sub_add_cancel (length_pos_of_mem member)]
    exact sound.count

theorem Sound.ospf6LsdbAdd (few : ∀ id, extra id < 199) (found : db.lsas id = some lsa) :
    ∃ after kept, db.ospf6LsdbAdd id = some after ∧ after.Sound extra kept ∧
      (∀ other, other ∈ kept ↔ other = id ∨ other ∈ stored ∧ db.wordOf other ≠ db.wordOf id) ∧
      (Exact db.table → (∀ other ∈ stored, db.wordOf other ≠ db.wordOf id) →
        Exact after.table) := by
  obtain ⟨table, place, node, filed, ran, present, written, keyed, ⟨last, lastFound, bits⟩, isOld,
      carries, exacts⟩ :=
    sound.file lsa id
  have word := wordOf_eq found
  rw [← word] at bits isOld carries exacts
  have small := few id
  have lock := sound.lock found
  have locked : ({ db with table := filed } : Ospf6Lsdb).ospf6LsaLock id =
      some ({ db with table := filed }.holdLsa id) :=
    ospf6LsaLock_eq found (by split at lock <;> omega)
  have own : db.lsas id ≠ none := by
    rw [found]
    exact nofun
  simp only [Ospf6Lsdb.ospf6LsdbAdd, found, ran, present, written, locked, Option.bind_eq_bind,
    Option.bind_some]
  cases old : node.info with
  | none =>
    have fresh : ∀ other ∈ stored, db.wordOf other ≠ db.wordOf id := by
      intro other member same
      have carried := (isOld other).mpr (sound.carries_iff.mpr ⟨member, same⟩)
      rw [old] at carried
      cases carried
    have mem : ∀ other, other ∈ id :: stored ↔
        other = id ∨ other ∈ stored ∧ db.wordOf other ≠ db.wordOf id := by
      intro other
      rw [mem_cons]
      exact or_congr_right (iff_self_and.mpr (fresh other))
    have members := sound.members mem carries
    have all : ∀ word other, Carries filed word other → (db.holdLsa id).lsas other ≠ none := by
      intro word other carried
      refine holdLsa_live.mpr ?_
      rcases mem_cons.mp ((members word other).mp carried).1 with rfl | member
      · exact own
      · exact sound.alive member
    obtain ⟨next, ranNext, follows⟩ :=
      linkNext_eq ({ db with table := filed }.holdLsa id) keyed lastFound (holdLsa_live.mpr own) all
    obtain ⟨prev, ranPrev, leads⟩ := linkPrev_eq
      ((({ db with table := filed }.holdLsa id).withNext (some id) next).withPrev next (some id))
        keyed lastFound
      (withPrev_live.mpr (withNext_live.mpr (holdLsa_live.mpr own)))
      fun word other carried => withPrev_live.mpr (withNext_live.mpr (all word other carried))
    rw [bits] at follows leads
    simp only [ranNext, ranPrev, bind_some]
    refine ⟨_, id :: stored, rfl,
      sound.insert found keyed fresh members (follows.follower members) (leads.follower members),
      mem, fun exact absent => exacts exact fun other carried => ?_⟩
    obtain ⟨member, same⟩ := sound.carries_iff.mp carried
    exact absent other member same
  | some other =>
    obtain ⟨member, same⟩ := sound.carries_iff.mp ((isOld other).mp old)
    obtain ⟨cell, oldFound⟩ := sound.live member
    have next := sound.next member oldFound
    have prev := sound.prev member oldFound
    have heldFound : (db.holdLsa id).lsas other =
        some { cell with lock := if other = id then cell.lock + 1 else cell.lock } := by
      rw [holdLsa_lsas, oldFound]
      rfl
    have made : ({ db with table := filed }.holdLsa id : Ospf6Lsdb).relink other id =
        some (({ db with table := filed }.holdLsa id).relinked
          { cell with lock := if other = id then cell.lock + 1 else cell.lock } id) :=
      relink_eq (holdLsa_live.mpr own) heldFound (fun equal => (neighbour prev equal).2 rfl)
        (fun equal => (neighbour next equal).2 rfl)
          (fun _ equal => holdLsa_live.mpr (sound.alive (neighbour prev equal).1))
        fun _ equal => holdLsa_live.mpr (sound.alive (neighbour next equal).1)
    have relinked : ({ db with table := filed }.holdLsa id : Ospf6Lsdb).relink other id =
        some { (db.holdLsa id).relinked cell id with table := filed } := made
    have mem : ∀ there, there ∈ id :: stored.erase other ↔
        there = id ∨ there ∈ stored ∧ db.wordOf there ≠ db.wordOf id := by
      intro there
      rw [mem_cons, sound.nodup.mem_erase_iff, and_comm]
      refine or_congr_right (and_congr_right fun inside => not_congr ?_)
      constructor
      · rintro rfl
        exact same
      · exact fun equal => sound.distinct there inside other member (equal.trans same.symm)
    obtain ⟨after, ran, afterSound, sameTable⟩ :=
      (sound.replace found member oldFound same keyed (sound.members mem carries)).unlock
    simp only [relinked, ran, bind_some]
    exact ⟨after, _, rfl, afterSound, mem, fun _ absent => absurd same (absent other member)⟩

end
end Add
end Ospf6Lsdb
end Zebra.Ospf6d
