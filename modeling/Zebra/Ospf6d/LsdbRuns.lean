import Zebra.Base.Run
import Zebra.Ospf6d.LsdbUpdate

namespace Zebra.Ospf6d
open Function Base RouteTable List Option Nat
namespace Ospf6Lsdb
variable {db after : Ospf6Lsdb} {extra : LsaId → Nat} {stored : List LsaId} {id : LsaId}
  {lsa : LsaCell}

theorem sound_init : ({} : Ospf6Lsdb).Sound (fun _ => 0) [] where
  keyed := ⟨wellformed_routeTableInit, fun {_ _} found => nomatch found⟩
  nodup := nodup_nil
  filed _ := iff_of_false not_mem_nil fun ⟨_, _, _, found, _⟩ => nomatch found
  words carried := nomatch carried.choose_spec.choose_spec.1
  next member := nomatch member
  prev member := nomatch member
  lock found := nomatch found
  held more := absurd more (lt_irrefl 0)
  allocated _ _ := rfl
  count := rfl

/-- The stored advertisements of a database in the order of type, advertising router and id: the
links go from each to its neighbours, and each has one lock. -/
structure Represents (db : Ospf6Lsdb) (stored : List LsaId) : Prop where
  filed : ∀ id, id ∈ stored ↔ db.Stores id
  ordered : stored.Pairwise fun one other => ∃ first second, db.lsas one = some first ∧
    db.lsas other = some second ∧
    first.key.value.toNat < second.key.value.toNat
  distinct : ∀ one ∈ stored, ∀ other ∈ stored,
    (db.lsas one).map LsaCell.key = (db.lsas other).map LsaCell.key → one = other
  linked : ∀ {before id after}, stored = before ++ id :: after → ∃ lsa, db.lsas id = some lsa ∧
    lsa.prev = before.getLast? ∧ lsa.next = after.head? ∧ lsa.lock = 1
  count : db.count = stored.length % 2 ^ 32

theorem stores_iff : db.Stores id ↔ ∃ word, Carries db.table word id :=
  ⟨fun ⟨place, node, found, carried⟩ => ⟨_, place, node, found, rfl, carried⟩,
    fun ⟨_, place, node, found, _, carried⟩ => ⟨place, node, found, carried⟩⟩

theorem Sound.stores (sound : db.Sound extra stored) : id ∈ stored ↔ db.Stores id :=
  (sound.filed id).trans stores_iff.symm

theorem body_removing (few : ∀ id, extra id < 198) (removes : LsaId → Bool) :
    Body extra removes (removing removes) := by
  intro db stored id sound member
  obtain ⟨lsa, found⟩ := sound.live member
  have locked : lsa.lock ≠ 0 := by
    have lock := sound.lock found
    rw [if_pos member] at lock
    omega
  have next := sound.next member found
  cases removed : removes id with
  | false =>
    refine ⟨db.holdLsa id, db, by rw [removing, removed]; rfl, ?_, fun _ => rfl⟩
    exact ⟨unlock_holdLsa found locked, sound, fun _ _ => rfl, _, holdLsa_self found, next⟩
  | true =>
    have small : ∀ other, update extra id (extra id + 1) other < 199 := by
      intro other
      have below := few other
      by_cases same : other = id
      · subst same
        rw [update_self]
        omega
      · rw [update_of_ne same]
        omega
    obtain ⟨held, ran, heldSound, words, survives⟩ :=
      (sound.holdLsa found).ospf6LsdbRemove small member (holdLsa_self found)
    obtain ⟨cell, survivor, sameNext⟩ := survives (by rw [update_self]; exact succ_pos _)
    obtain ⟨after, unlocked, afterSound, _⟩ := heldSound.unlock
    have word : ∀ other ∈ stored.erase id, after.wordOf other = db.wordOf other := by
      intro other inside
      have apart := (sound.nodup.mem_erase_iff.mp inside).1
      have same : (db.holdLsa id).wordOf other = db.wordOf other := wordOf_holdLsa other
      rw [← same, ← words other apart, wordOf, wordOf, unlock_ne apart unlocked]
    refine ⟨held, after, by rw [removing, removed]; exact ran,
      ⟨unlocked, afterSound, word, cell, survivor, ?_⟩, by rintro ⟨⟩⟩
    rw [sameNext]
    exact (next.erase_self sound.nodup).congr (fun _ => Iff.rfl) word

/-- What an iteration visits, and what is stored after it. -/
structure Visits (db after : Ospf6Lsdb) (scope : Scope) (removes : LsaId → Bool)
    (visited : List LsaId) : Prop where
  once : visited.Nodup
  all : ∀ id, id ∈ visited ↔ db.Stores id ∧ ∃ lsa, db.lsas id = some lsa ∧ scope.Has lsa.key
  left : ∀ id, after.Stores id ↔ db.Stores id ∧ ¬ (id ∈ visited ∧ removes id = true)

section
variable (sound : db.Sound (fun _ => 0) stored)
include sound

theorem Sound.create (key : Ospf6LsaKey) : (db.create key).Sound (fun _ => 0) stored := by
  have unused := sound.allocated db.fresh le_rfl
  have outside : db.fresh ∉ stored := by
    intro member
    obtain ⟨lsa, found⟩ := sound.live member
    rw [unused] at found
    cases found
  have made : (db.create key).lsas db.fresh = some { key } := update_self ..
  have kept : ∀ {id}, id ∈ stored → (db.create key).lsas id = db.lsas id := by
    intro id member
    refine update_of_ne ?_ ..
    rintro rfl
    exact outside member
  have words : ∀ id ∈ stored, (db.create key).wordOf id = db.wordOf id := by
    intro id member
    rw [wordOf, wordOf, kept member]
  refine ⟨sound.keyed, sound.nodup, sound.filed, ?_, ?_, ?_, ?_,
    fun more => absurd more (lt_irrefl 0), ?_, sound.count⟩
  · intro word id carried
    obtain ⟨lsa, found, same⟩ := sound.words carried
    exact ⟨lsa, (kept ((sound.filed id).mpr ⟨word, carried⟩)).trans found, same⟩
  · intro id lsa member found
    rw [kept member] at found
    rw [words id member]
    exact (sound.next member found).congr (fun _ => Iff.rfl) words
  · intro id lsa member found
    rw [kept member] at found
    rw [words id member]
    exact (sound.prev member found).congr (fun _ => Iff.rfl) words
  · intro id lsa found
    by_cases same : id = db.fresh
    · subst same
      rw [made] at found
      cases found
      rw [if_neg outside]
    · exact sound.lock ((update_of_ne same ..).symm.trans found)
  · intro id beyond
    have apart : id ≠ db.fresh := ne_of_gt beyond
    exact (update_of_ne apart ..).trans (sound.allocated id (le_of_succ_le beyond))

theorem Sound.represents : ∃ sorted, db.Represents sorted := by
  obtain ⟨sorted, perm, ordered⟩ := sound.sorted_exists
  refine ⟨sorted, fun id => perm.mem_iff.trans sound.stores,
    ordered.imp_of_mem fun {one other} here there less => ?_,
    fun one here other there same => ?_, fun {before id after} split => ?_, ?_⟩
  · obtain ⟨first, foundFirst⟩ := sound.live (perm.mem_iff.mp here)
    obtain ⟨second, foundSecond⟩ := sound.live (perm.mem_iff.mp there)
    rw [wordOf_eq foundFirst, wordOf_eq foundSecond, word_lt_iff] at less
    exact ⟨first, second, foundFirst, foundSecond, less⟩
  · obtain ⟨first, foundFirst⟩ := sound.live (perm.mem_iff.mp here)
    obtain ⟨second, foundSecond⟩ := sound.live (perm.mem_iff.mp there)
    rw [foundFirst, foundSecond, map_some, map_some, some.injEq] at same
    refine sound.distinct one (perm.mem_iff.mp here) other (perm.mem_iff.mp there) ?_
    rw [wordOf_eq foundFirst, wordOf_eq foundSecond, same]
  · subst split
    have member : id ∈ stored := perm.mem_iff.mp mem_append_cons_self
    obtain ⟨lsa, found⟩ := sound.live member
    have next := (sound.next member found).congr (fun other => perm.mem_iff) fun _ _ => rfl
    have prev := (sound.prev member found).congr (fun other => perm.mem_iff) fun _ _ => rfl
    have distinct : Distinct (before ++ id :: after) db.wordOf := fun first here second there =>
      sound.distinct first (perm.mem_iff.mp here) second (perm.mem_iff.mp there)
    refine ⟨lsa, found, ?_, ?_, ?_⟩
    · exact prev.unique distinct (leader_of_sorted ordered)
    · exact next.unique distinct (follower_of_sorted ordered)
    · rw [sound.lock found, if_pos member]
  · rw [sound.count, perm.length_eq]

theorem Sound.visits (scope : Scope) (removes : LsaId → Bool) :
    ∃ after kept visited, db.iterate scope (removing removes) = some (after, visited) ∧
      after.Sound (fun _ => 0) kept ∧
      Visits db after scope removes visited ∧
      ((∀ id ∈ visited, removes id = false) → after = db) := by
  obtain ⟨visited, listed⟩ := sound.listed_exists scope
  obtain ⟨after, kept, ran, afterSound, members, idle⟩ := sound.iterate (fun _ => zero_lt_succ _)
    (body_removing (fun _ => zero_lt_succ _) removes) listed
  refine ⟨after, kept, visited, ran, afterSound, ⟨listed.nodup, fun id => ?_, fun id => ?_⟩, idle⟩
  · rw [listed.mem, and_true, ← sound.stores]
    refine and_congr_right fun member => ?_
    obtain ⟨lsa, found⟩ := sound.live member
    rw [wordOf_eq found, ← Scope.has_iff]
    constructor
    · exact fun has => ⟨lsa, found, has⟩
    · rintro ⟨other, again, has⟩
      rw [found] at again
      cases again
      exact has
  · rw [← afterSound.stores, members, sound.stores]

end

theorem Sound.ospf6LsdbLookup (sound : db.Sound extra stored) (key : Ospf6LsaKey) :
    ∃ after result, db.ospf6LsdbLookup key = some (after, result) ∧ after.Sound extra stored ∧
      (∀ id, result = some id ↔ id ∈ stored ∧ db.wordOf id = key.word) ∧
      (result = none → after = db) := by
  obtain ⟨found, ran, missing, hit⟩ := sound.keyed.lookup key
  simp only [Ospf6Lsdb.ospf6LsdbLookup, ran, bind_eq_bind, bind_some]
  cases found with
  | none =>
    refine ⟨db, none, rfl, sound, fun id => ⟨by rintro ⟨⟩, fun both => ?_⟩, fun _ => rfl⟩
    exact absurd (sound.carries_iff.mpr both) (missing rfl id)
  | some place =>
    obtain ⟨node, present, bits, full⟩ := hit place rfl
    obtain ⟨other, carried⟩ := isSome_iff_exists.mp full
    have locked := sound.keyed.lock_ne present full
    have status : (db.table.hold place).status =
        update db.table.status place (some (node.p, node.lock + 1, node.info)) := by
      funext there
      by_cases here : there = place
      · rw [here, update_self, status_of_node (nodes_hold_self present)]
      · rw [update_of_ne here, status, status, nodes_hold_ne here]
    have keyed :=
      sound.keyed.restate (sound.keyed.wf.hold present) status (sound.keyed.named present locked)
    refine ⟨_, some other, ?_, sound.retable keyed fun word id => ?_, fun id => ?_, by rintro ⟨⟩⟩
    · simp only [holding, nodes_hold_self present, carried]
      rfl
    · rw [carries_restate sound.keyed.wf present status]
      split
      · rename_i same
        constructor
        · exact fun info => ⟨place, node, present, same.symm, info⟩
        · intro carries
          rw [same] at carries
          rw [carried, info_unique sound.keyed.wf ⟨place, node, present, rfl, carried⟩ carries]
      · rfl
    · rw [← sound.carries_iff, some.injEq]
      have here : Carries db.table key.word other := ⟨place, node, present, bits, carried⟩
      exact ⟨fun same => same ▸ here, fun carries => info_unique sound.keyed.wf here carries⟩

/-- The node of a stored advertisement has one lock, and the others have none. -/
structure LocksExact (db : Ospf6Lsdb) : Prop where
  once : ∀ place node, db.table.nodes place = some node → node.info.isSome → node.lock = 1
  released : ∀ place node, db.table.nodes place = some node → node.info = none → node.lock = 0

/-- An advertisement with this key is stored. -/
def HasKey (db : Ospf6Lsdb) (key : Ospf6LsaKey) : Prop :=
  ∃ id lsa, db.Stores id ∧ db.lsas id = some lsa ∧ lsa.key = key

/-- The moves that take no lock on the node of a stored advertisement, and remove none. -/
def KeepsLocks (db : Ospf6Lsdb) : Move → Prop
  | .create _ => True
  | .add id => ∀ lsa, db.lsas id = some lsa → ¬ db.HasKey lsa.key
  | .remove _ => False
  | .lookup key => ¬ db.HasKey key
  | .removeAll => ∀ id, ¬ db.Stores id
  | .iterate scope removes => ∀ id lsa, db.Stores id → db.lsas id = some lsa → scope.Has lsa.key →
    removes id = false

theorem Sound.hasKey (sound : db.Sound extra stored) {key} :
    db.HasKey key ↔ ∃ id ∈ stored, db.wordOf id = key.word := by
  constructor
  · rintro ⟨id, lsa, stores, found, rfl⟩
    exact ⟨id, sound.stores.mpr stores, wordOf_eq found⟩
  · rintro ⟨id, member, same⟩
    obtain ⟨lsa, found⟩ := sound.live member
    rw [wordOf_eq found] at same
    exact ⟨id, lsa, sound.stores.mp member, found, word_injective same⟩

theorem Sound.exact_iff (sound : db.Sound extra stored) : Exact db.table ↔ db.LocksExact := by
  constructor
  · refine fun exact => ⟨fun place node found full => ?_, fun place node found bare => ?_⟩
    · exact (exact place node found (sound.keyed.lock_ne found full)).1
    · by_contra held
      have full := (exact place node found held).2
      rw [bare] at full
      cases full
  · rintro ⟨once, released⟩ place node found held
    have full : node.info.isSome := by
      rw [isSome_iff_ne_none]
      exact fun bare => held (released place node found bare)
    exact ⟨once place node found full, full⟩

theorem Sound.move (sound : db.Sound (fun _ => 0) stored) {move} (permitted : db.permits move) :
    ∃ after kept, db.move move = some after ∧ after.Sound (fun _ => 0) kept ∧
      (db.KeepsLocks move → Exact db.table → Exact after.table) := by
  have few : ∀ id, (fun _ => 0 : LsaId → Nat) id < 199 := fun _ => zero_lt_succ _
  cases move with
  | create key => exact ⟨_, stored, rfl, sound.create key, fun _ exact => exact⟩
  | add id =>
    obtain ⟨lsa, found⟩ := ne_none_iff_exists'.mp permitted
    obtain ⟨after, kept, ran, afterSound, _, exacts⟩ := sound.ospf6LsdbAdd few found
    refine ⟨after, kept, ran, afterSound, fun keeps exact =>
      exacts exact fun other member same => ?_⟩
    exact keeps lsa found (sound.hasKey.mpr ⟨other, member, same.trans (wordOf_eq found)⟩)
  | remove id =>
    have member := sound.stores.mpr permitted
    obtain ⟨lsa, found⟩ := sound.live member
    obtain ⟨after, ran, afterSound, _⟩ := sound.ospf6LsdbRemove few member found
    exact ⟨after, _, ran, afterSound, False.elim⟩
  | lookup key =>
    obtain ⟨after, result, ran, afterSound, hits, idle⟩ := sound.ospf6LsdbLookup key
    refine ⟨after, stored, by rw [Ospf6Lsdb.move, ran]; rfl, afterSound, fun keeps exact => ?_⟩
    have missing : result = none := by
      rw [eq_none_iff_forall_ne_some]
      exact fun id same => keeps (sound.hasKey.mpr ⟨id, (hits id).mp same⟩)
    rw [idle missing]
    exact exact
  | removeAll =>
    obtain ⟨after, kept, visited, ran, afterSound, visits, idle⟩ := sound.visits .all fun _ => true
    refine ⟨after, kept, by rw [Ospf6Lsdb.move, ospf6LsdbRemoveAll, ran]; rfl, afterSound,
      fun keeps exact => ?_⟩
    rw [idle fun id there => absurd ((visits.all id).mp there).1 (keeps id)]
    exact exact
  | iterate scope removes =>
    obtain ⟨after, kept, visited, ran, afterSound, visits, idle⟩ := sound.visits scope removes
    refine ⟨after, kept, by rw [Ospf6Lsdb.move, ran]; rfl, afterSound, fun keeps exact => ?_⟩
    rw [idle fun id there => ?_]
    · exact exact
    · obtain ⟨stores, lsa, found, has⟩ := (visits.all id).mp there
      exact keeps id lsa stores found has

theorem Reached.sound {condition} (reached : Reached condition db) :
    ∃ stored, db.Sound (fun _ => 0) stored ∧
    ((∀ db move, condition db move → db.KeepsLocks move) → Exact db.table) := by
  induction reached with
  | init => exact ⟨[], sound_init, fun _ _ _ found => nomatch found⟩
  | step earlier move permitted meets ran ih =>
    obtain ⟨stored, sound, exact⟩ := ih
    obtain ⟨after, kept, same, afterSound, exacts⟩ := sound.move permitted
    rw [ran] at same
    cases same
    exact ⟨kept, afterSound, fun keeps => exacts (keeps _ move meets) (exact keeps)⟩

/-- The keys an iteration meets. -/
def storedKeys (db : Ospf6Lsdb) : List Ospf6LsaKey :=
  (db.iterate .all (removing fun _ => false)).elim [] fun (_, visited) =>
    visited.filterMap fun id => (db.lsas id).map LsaCell.key

theorem Sound.mem_storedKeys {stored} (sound : db.Sound (fun _ => 0) stored) :
    key ∈ db.storedKeys ↔ db.HasKey key := by
  obtain ⟨after, _, visited, ran, _, visits, _⟩ := sound.visits .all fun _ => false
  rw [storedKeys, ran, Option.elim_some, mem_filterMap]
  constructor
  · rintro ⟨id, member, same⟩
    obtain ⟨lsa, found, same⟩ := map_eq_some_iff.mp same
    exact ⟨id, lsa, ((visits.all id).mp member).1, found, same⟩
  · rintro ⟨id, lsa, stores, found, same⟩
    exact ⟨id, (visits.all id).mpr ⟨stores, lsa, found, trivial⟩, by rw [found, map_some, same]⟩

/-- A creation, or an addition or a lookup with a key that is not stored. -/
def Fresh (db : Ospf6Lsdb) : Move → Prop
  | .create _ => True
  | .add id => ∃ lsa ∈ (db.lsas id).toList, lsa.key ∉ db.storedKeys
  | .lookup key => key ∉ db.storedKeys
  | .remove _ | .removeAll | .iterate _ _ => False

instance (db : Ospf6Lsdb) : (move : Move) → Decidable (db.Fresh move)
  | .create _ => .isTrue trivial
  | .add id => inferInstanceAs (Decidable (∃ lsa ∈ (db.lsas id).toList, _))
  | .lookup key => inferInstanceAs (Decidable (key ∉ _))
  | .remove _ | .removeAll | .iterate _ _ => .isFalse False.elim

theorem Reached.fresh (reached : Reached KeepsLocks db) {move} (fresh : db.Fresh move) :
    db.permits move ∧ db.KeepsLocks move := by
  obtain ⟨stored, sound, _⟩ := reached.sound
  cases move with
  | create key => exact ⟨trivial, trivial⟩
  | add id =>
    obtain ⟨lsa, member, apart⟩ := fresh
    have found := Option.mem_toList.mp member
    refine ⟨by rw [permits, found]; exact some_ne_none lsa, fun other same => ?_⟩
    rw [found] at same
    cases same
    exact mt sound.mem_storedKeys.mpr apart
  | lookup key => exact ⟨trivial, mt sound.mem_storedKeys.mpr fresh⟩
  | remove _ | removeAll | iterate _ _ => exact fresh.elim

theorem Reached.attempt {moves} (ran : attempt Fresh move {} moves = some after) :
    Reached KeepsLocks after :=
  attempt_invariant (fun reached fresh step =>
    .step reached _ (reached.fresh fresh).1 (reached.fresh fresh).2 step) .init ran

/-- In every run the stored advertisements are linked in key order and counted, every permitted move
succeeds and every iteration is complete. In runs that find, replace and remove no stored
advertisement the nodes have exactly the locks of what is stored. -/
theorem ospf6_lsdb_represents {condition : Ospf6Lsdb → Move → Prop} {db : Ospf6Lsdb}
    (reached : Reached condition db) :
    (∃ stored, db.Represents stored) ∧
    (∀ move, db.permits move → ∃ after, db.move move = some after) ∧
    (∀ scope removes, ∃ after visited, db.iterate scope (removing removes) = some (after, visited) ∧
      Visits db after scope removes visited) ∧
    ((∀ db move, condition db move → db.KeepsLocks move) → db.LocksExact) := by
  obtain ⟨stored, sound, exact⟩ := reached.sound
  refine ⟨sound.represents, fun move permitted => ?_, fun scope removes => ?_,
    fun keeps => sound.exact_iff.mp (exact keeps)⟩
  · obtain ⟨after, _, ran, _⟩ := sound.move permitted
    exact ⟨after, ran⟩
  · obtain ⟨after, _, visited, ran, _, visits, _⟩ := sound.visits scope removes
    exact ⟨after, visited, ran, visits⟩

def sampleKey : Ospf6LsaKey := ⟨0x2001, 1, 0⟩

/-- A key below the two others of its type and router is looked for, and not stored. -/
def sampleMoves : List Move :=
  [.create ⟨0x2002, 7, 6⟩, .create ⟨0x2001, 1, 4⟩, .create ⟨0x2002, 7, 5⟩, .add 0, .add 1, .add 2,
    .lookup ⟨0x2002, 7, 4⟩]

/-- Three advertisements in the order of their keys, with one lock each; an iteration over a type
  removes one. -/
theorem ospf6_lsdb_represents_three : ∃ db, attempt Fresh move {} sampleMoves = some db ∧
    db.storedKeys = [⟨0x2001, 1, 4⟩, ⟨0x2002, 7, 5⟩, ⟨0x2002, 7, 6⟩] ∧
    (∃ stored, db.Represents stored) ∧ db.LocksExact ∧
    ∃ after, db.iterate (.type 0x2002) (removing (· == 2)) = some (after, [2, 0]) ∧
      Visits db after (.type 0x2002) (· == 2) [2, 0] := by
  obtain ⟨db, ran⟩ :=
    isSome_iff_exists.mp (by decide +kernel : (attempt Fresh move {} sampleMoves).isSome)
  have seen : (attempt Fresh move {} sampleMoves).map (fun db =>
      (db.storedKeys, (db.iterate (.type 0x2002) (removing (· == 2))).map Prod.snd)) =
        some ([⟨0x2001, 1, 4⟩, ⟨0x2002, 7, 5⟩, ⟨0x2002, 7, 6⟩], some [2, 0]) := by decide +kernel
  rw [ran, map_some, some.injEq, Prod.mk.injEq] at seen
  obtain ⟨represented, _, iterated, exact⟩ := ospf6_lsdb_represents (Reached.attempt ran)
  obtain ⟨after, visited, iteration, visits⟩ := iterated (.type 0x2002) (· == 2)
  rw [iteration, map_some, some.injEq] at seen
  obtain ⟨keys, rfl⟩ := seen
  exact ⟨db, ran, keys, represented, exact fun _ _ keeps => keeps, after, iteration, visits⟩

/-- The node made first, as a move leaves it. -/
def firstNode (db : Ospf6Lsdb) : Option (Option LsaId × Nat) :=
  (db.table.nodes 0).map fun node => (node.info, node.lock)

theorem reached_firstNode {condition} (reached : Reached condition db) (move : Move)
    (permitted : db.permits move) (meets : condition db move) {info lock}
    (seen : (db.move move).bind firstNode = some (info, lock)) :
    ∃ after node, Reached condition after ∧ after.table.nodes 0 = some node ∧ node.info = info ∧
      node.lock = lock := by
  obtain ⟨after, ran, seen⟩ := bind_eq_some_iff.mp seen
  obtain ⟨node, found, same⟩ := map_eq_some_iff.mp seen
  rw [Prod.mk.injEq] at same
  exact ⟨after, node, .step reached move permitted meets ran, found, same⟩

/-- A lookup leaves a second lock on the node of a stored advertisement; a removal leaves one on a
node that has none. -/
theorem ospf6_lsdb_leaves_locks :
    (∃ db node, Reached (fun _ _ => True) db ∧ db.table.nodes 0 = some node ∧ node.info = some 0 ∧
      node.lock = 2 ∧
      ¬ db.LocksExact) ∧
    ∃ db node, Reached (fun _ _ => True) db ∧ db.table.nodes 0 = some node ∧ node.info = none ∧
      node.lock = 1 ∧
      ¬ db.LocksExact := by
  obtain ⟨db, ran⟩ :=
    isSome_iff_exists.mp (by decide +kernel : ((create {} sampleKey).move (.add 0)).isSome)
  have reached : Reached (fun _ _ => True) db :=
    .step (.step .init (.create sampleKey) trivial trivial rfl) (.add 0) nofun trivial ran
  have stored : ((create {} sampleKey).move (.add 0)).bind firstNode = some (some 0, 1) := by
    decide +kernel
  have looked : ((create {} sampleKey).move (.add 0)).bind
      (fun db => (db.move (.lookup sampleKey)).bind firstNode) =
      some (some 0, 2) := by decide +kernel
  have removed :
      ((create {} sampleKey).move (.add 0)).bind (fun db => (db.move (.remove 0)).bind firstNode) =
      some (none, 1) := by decide +kernel
  rw [ran, bind_some] at stored looked removed
  obtain ⟨node, found, same⟩ := map_eq_some_iff.mp stored
  have stores : db.Stores 0 := ⟨0, node, found, (Prod.mk.inj same).1⟩
  refine ⟨?_, ?_⟩
  · obtain ⟨after, node, reaches, present, info, lock⟩ :=
      reached_firstNode reached (.lookup sampleKey) trivial trivial looked
    refine ⟨after, node, reaches, present, info, lock, fun exact => ?_⟩
    have once := exact.once 0 node present (by rw [info]; rfl)
    rw [lock] at once
    cases once
  · obtain ⟨after, node, reaches, present, info, lock⟩ :=
      reached_firstNode reached (.remove 0) stores trivial removed
    refine ⟨after, node, reaches, present, info, lock, fun exact => ?_⟩
    have released := exact.released 0 node present info
    rw [lock] at released
    cases released

end Ospf6Lsdb
end Zebra.Ospf6d
