import Zebra.Ospf6d.LsdbInvariant

namespace Zebra.Ospf6d
open Scope
open Base List Option Prefix
namespace Ospf6Lsdb
variable {db after : Ospf6Lsdb} {extra : LsaId → Nat} {stored visited rest : List LsaId}
  {id other : LsaId} {lsa : LsaCell} {scope : Scope}

/-- The stored advertisements of a scope behind a point, in key order. -/
structure Listed (db : Ospf6Lsdb) (stored : List LsaId) (scope : Scope) (behind : List Bool → Prop)
    (listed : List LsaId) :
    Prop where
  sorted : listed.Pairwise fun one other => db.wordOf one < db.wordOf other
  mem : ∀ id, id ∈ listed ↔ id ∈ stored ∧ scope.key.bits <+: db.wordOf id ∧ behind (db.wordOf id)

namespace Listed
variable {behind : List Bool → Prop}

section
variable (listed : Listed db stored scope behind visited)
include listed

theorem empty
    (nothing : ∀ id ∈ stored, scope.key.bits <+: db.wordOf id → ¬ behind (db.wordOf id)) :
    visited = [] := by
  rw [eq_nil_iff_forall_not_mem]
  intro id member
  obtain ⟨inside, below, later⟩ := (listed.mem id).mp member
  exact nothing id inside below later

theorem head (member : id ∈ visited)
    (least : ∀ other ∈ visited, db.wordOf id ≤ db.wordOf other) : visited.head? = some id := by
  cases visited with
  | nil => exact nomatch member
  | cons first rest =>
    have before := (pairwise_cons.mp listed.sorted).1
    rcases mem_cons.mp member with rfl | later
    · rfl
    · exact absurd (before id later) (not_lt.mpr (least first mem_cons_self))

theorem nodup : visited.Nodup := by
  refine listed.sorted.imp fun {one other} less => ?_
  rintro rfl
  exact lt_irrefl _ less

end

theorem tail (listed : Listed db stored scope behind (id :: rest)) :
    Listed db stored scope (fun word => db.wordOf id < word ∧ behind word) rest := by
  obtain ⟨before, sorted⟩ := pairwise_cons.mp listed.sorted
  refine ⟨sorted, fun other => ⟨fun member => ?_, fun ⟨inside, below, later, reached⟩ => ?_⟩⟩
  · obtain ⟨inside, below, reached⟩ := (listed.mem other).mp (.tail _ member)
    exact ⟨inside, below, before other member, reached⟩
  · rcases mem_cons.mp ((listed.mem other).mpr ⟨inside, below, reached⟩) with rfl | member
    · exact absurd later (lt_irrefl _)
    · exact member

theorem congr (listed : Listed db stored scope behind visited) {kept others}
    (members : ∀ id, id ∈ kept ∧ others (after.wordOf id) ↔ id ∈ stored ∧ behind (db.wordOf id))
    (same : ∀ id ∈ stored, after.wordOf id = db.wordOf id) :
    Listed after kept scope others visited := by
  refine ⟨listed.sorted.imp_of_mem fun {one other} here there less => ?_, fun id => ?_⟩
  · rw [same one ((listed.mem one).mp here).1, same other ((listed.mem other).mp there).1]
    exact less
  · rw [listed.mem]
    constructor
    · rintro ⟨inside, below, reached⟩
      obtain ⟨member, reaches⟩ := (members id).mpr ⟨inside, reached⟩
      exact ⟨member, by rwa [same id inside], reaches⟩
    · rintro ⟨member, below, reaches⟩
      obtain ⟨inside, reached⟩ := (members id).mp ⟨member, reaches⟩
      exact ⟨inside, by rwa [same id inside] at below, reached⟩

end Listed

section
variable (sound : db.Sound extra stored)
include sound

theorem Sound.listed_exists (scope : Scope) :
    ∃ visited, Listed db stored scope (fun _ => True) visited := by
  obtain ⟨sorted, perm, ordered⟩ := sound.sorted_exists
  refine ⟨sorted.filter fun id => decide (scope.key.bits <+: db.wordOf id), ordered.filter _,
    fun id => ?_⟩
  rw [mem_filter, decide_eq_true_iff, perm.mem_iff, and_true]

/-- A database in which a result is locked, if there is one. -/
def holdingLsa (db : Ospf6Lsdb) : Option LsaId → Ospf6Lsdb
  | some id => db.holdLsa id
  | none => db

theorem Sound.lockNext (few : ∀ id, extra id < 200) (found : db.lsas id = some lsa) :
    db.ospf6LsaLock id = some (db.holdLsa id) := by
  refine ospf6LsaLock_eq found ?_
  have lock := sound.lock found
  have small := few id
  split at lock <;> omega

theorem Sound.inside_iff {word} :
    Inside db.table scope.key word ↔ ∃ id ∈ stored, db.wordOf id = word ∧
    scope.key.bits <+: word := by
  constructor
  · rintro ⟨place, node, found, full, rfl, below, _⟩
    obtain ⟨id, carried⟩ := isSome_iff_exists.mp full
    obtain ⟨member, same⟩ := sound.carries_iff.mp ⟨place, node, found, rfl, carried⟩
    exact ⟨id, member, same, below⟩
  · rintro ⟨id, member, rfl, below⟩
    have length := sound.keyed.length (sound.carried member)
    obtain ⟨place, node, found, same, carried⟩ := sound.carried member
    refine ⟨place, node, found, by rw [carried]; rfl, same, below, fun equal => ?_⟩
    have short := scope.key_short
    rw [← equal, length_bits] at length
    omega

theorem Sound.starts (scope : Scope) :
    ∃ start, db.headStart scope = some start ∧ Starts db.table scope.key start := by
  have glue : ∀ place node, db.table.nodes place = some node → node.p.bits = scope.key.bits →
      node.lock = 0 := by
    intro place node found same
    by_contra held
    have length := congrArg length same
    have short := scope.key_short
    rw [length_bits, length_bits, sound.keyed.locked found held] at length
    omega
  cases scope with
  | all => exact ⟨_, rfl, starts_top sound.keyed.wf (by rw [key, keyPrefix_bits, take_zero])⟩
  | type wanted => exact walkDown_top sound.keyed.wf (key_ends _) glue
  | typeRouter wanted advRouter => exact walkDown_top sound.keyed.wf (key_ends _) glue

end

theorem Sound.ospf6LsdbHead (sound : db.Sound extra stored) (few : ∀ id, extra id < 200)
    (listed : Listed db stored scope (fun _ => True) visited) :
    db.ospf6LsdbHead scope = some (db.holdingLsa visited.head?, visited.head?) := by
  obtain ⟨start, begun, starts⟩ := sound.starts scope
  obtain ⟨held, result, locked, ran, heads⟩ := head_of_start sound.keyed.wf starts
  simp only [Ospf6Lsdb.ospf6LsdbHead, begun, locked, ran, bind_eq_bind, bind_some]
  have nothing : (∀ word, ¬ Inside db.table scope.key word) → visited = [] := fun outside =>
    listed.empty fun id member below _ => outside _ (sound.inside_iff.mpr ⟨id, member, rfl, below⟩)
  cases result with
  | none =>
    rw [nothing heads]
    rfl
  | some place =>
    obtain ⟨node, found, full, first, outside⟩ := heads
    simp only [RouteTable.holding, sound.keyed.wf.unlock_hold found, bind_some, found]
    by_cases below : scope.key.bits <+: node.p.bits
    · have included : prefixMatch scope.key node.p = true :=
        (prefixMatch_iff ..).mpr (bits_begins.mp below)
      obtain ⟨id, carried⟩ := isSome_iff_exists.mp full
      obtain ⟨member, same⟩ := sound.carries_iff.mp ⟨place, node, found, rfl, carried⟩
      obtain ⟨lsa, there⟩ := sound.live member
      have inside : id ∈ visited := (listed.mem id).mpr ⟨member, by rwa [same], trivial⟩
      have least : ∀ other ∈ visited, db.wordOf id ≤ db.wordOf other := by
        intro other there
        obtain ⟨otherMember, otherBelow, _⟩ := (listed.mem other).mp there
        rw [same]
        exact first below _ (sound.inside_iff.mpr ⟨other, otherMember, rfl, otherBelow⟩)
      rw [if_pos included, listed.head inside least, carried]
      simp only [bind_some, sound.lockNext few there, holdingLsa]
      rfl
    · have excluded : ¬ prefixMatch scope.key node.p = true := fun matched =>
        below (bits_begins.mpr ((prefixMatch_iff ..).mp matched))
      rw [if_neg excluded, nothing (outside below)]
      rfl

theorem Sound.nextWithin (sound : db.Sound extra stored) {mark} (inside : scope.key.bits <+: mark)
    {next} (follower : Follower (· < ·) stored db.wordOf mark next)
    (listed : Listed db stored scope (fun word => mark < word) rest) :
    db.nextWithin scope next = some rest.head? := by
  cases next with
  | none =>
    rw [listed.empty fun id member _ => follower id member]
    rfl
  | some next =>
    obtain ⟨member, later, least⟩ := follower
    obtain ⟨lsa, found⟩ := sound.live member
    have here := wordOf_eq found
    simp only [Ospf6Lsdb.nextWithin, found, Option.bind_eq_bind, Option.bind_some, Option.pure_def]
    by_cases has : scope.Has lsa.key
    · have below : scope.key.bits <+: db.wordOf next := by rw [here]; exact (scope.has_iff _).mp has
      rw [if_pos has, listed.head ((listed.mem next).mpr ⟨member, below, later⟩)]
      intro other there
      obtain ⟨otherMember, _, behind⟩ := (listed.mem other).mp there
      exact not_lt.mp (least other otherMember behind)
    · rw [if_neg has, listed.empty]
      · rfl
      · intro other otherMember below behind
        refine has ((scope.has_iff _).mpr ?_)
        rw [← here]
        exact begins_of_between below ((le_of_begins inside).trans (le_of_lt later))
          (not_lt.mp (least other otherMember behind))

/-- What a loop body leaves behind, as the next function finds it. -/
structure Passed (db held after : Ospf6Lsdb) (extra : LsaId → Nat) (kept : List LsaId)
    (id : LsaId) : Prop where
  unlocked : held.ospf6LsaUnlock id = some after
  sound : after.Sound extra kept
  words : ∀ other ∈ kept, after.wordOf other = db.wordOf other
  next : ∃ lsa, held.lsas id = some lsa ∧ Follower (· < ·) kept after.wordOf (db.wordOf id) lsa.next

theorem Passed.ospf6LsdbNext {held kept} (passed : Passed db held after extra kept id)
    (few : ∀ id, extra id < 200) (inside : scope.key.bits <+: db.wordOf id)
    (listed : Listed after kept scope (fun word => db.wordOf id < word) rest) :
    held.ospf6LsdbNext scope id = some (after.holdingLsa rest.head?, rest.head?) := by
  obtain ⟨lsa, found, follower⟩ := passed.next
  have within := passed.sound.nextWithin inside follower listed
  have locks : ∀ next, (∀ other, next = some other → other ∈ kept) →
      after.lockNext next = some (after.holdingLsa next) := by
    intro next members
    cases next with
    | none => rfl
    | some other =>
      obtain ⟨cell, there⟩ := passed.sound.live (members other rfl)
      exact passed.sound.lockNext few there
  -- the next one is another advertisement, so both orders of locking agree
  have apart : ∀ other, lsa.next = some other → other ≠ id ∧ other ∈ kept := by
    intro other next
    rw [next] at follower
    refine ⟨?_, follower.1⟩
    rintro rfl
    have later := follower.2.1
    rw [passed.words other follower.1] at later
    exact lt_irrefl _ later
  have listedKept : ∀ other, rest.head? = some other → other ∈ kept := fun other first =>
    ((listed.mem other).mp (mem_of_mem_head? first)).1
  have before : held.nextWithin scope lsa.next = some rest.head? := by
    rw [← within]
    cases next : lsa.next with
    | none => rfl
    | some other => simp only [nextWithin, unlock_ne (apart other next).1 passed.unlocked]
  have different : ∀ other, rest.head? = some other → other ≠ id := by
    rintro other first rfl
    exact lt_irrefl _ ((passed.words other (listedKept other first)) ▸
      ((listed.mem other).mp (mem_of_mem_head? first)).2.2)
  have ahead : held.lockNext rest.head? = some (held.holdingLsa rest.head?) := by
    cases first : rest.head? with
    | none => rfl
    | some other =>
      obtain ⟨cell, there⟩ := passed.sound.live (listedKept other first)
      have lock := passed.sound.lock there
      have small := few other
      rw [unlock_ne (different other first) passed.unlocked] at there
      exact ospf6LsaLock_eq there (by split at lock <;> omega)
  have behind : (held.holdingLsa rest.head?).ospf6LsaUnlock id =
      some (after.holdingLsa rest.head?) := by
    cases first : rest.head? with
    | none => exact passed.unlocked
    | some other => exact unlock_comm (different other first) passed.unlocked
  cases scope with
  | all =>
    have same : lsa.next = rest.head? := by
      cases next : lsa.next with
      | none =>
        rw [next] at within
        exact some.inj within
      | some other =>
        rw [next] at within
        obtain ⟨cell, there⟩ := passed.sound.live (apart other next).2
        simp only [nextWithin, there, bind_eq_bind, bind_some] at within
        exact some.inj within
    simp only [ospf6LsdbNext, found, passed.unlocked, bind_eq_bind, bind_some, same,
      locks _ listedKept]
    rfl
  | type wanted =>
    simp only [ospf6LsdbNext, found, before, bind_eq_bind, bind_some, ahead, behind]
    rfl
  | typeRouter wanted advRouter =>
    simp only [ospf6LsdbNext, found, before, bind_eq_bind, bind_some, ahead, behind]
    rfl

/-- A loop body that keeps the invariant, and takes the given advertisements out. -/
def Body (extra : LsaId → Nat) (removes : LsaId → Bool)
    (body : Ospf6Lsdb → LsaId → Option Ospf6Lsdb) : Prop :=
  ∀ db stored id, db.Sound extra stored → id ∈ stored →
    ∃ held after, body (db.holdLsa id) id = some held ∧
    Passed db held after extra (if removes id then stored.erase id else stored) id ∧
      (removes id = false → after = db)

variable {removes : LsaId → Bool} {body : Ospf6Lsdb → LsaId → Option Ospf6Lsdb}

section
variable (few : ∀ id, extra id < 200) (keeps : Body extra removes body) (fuel : Nat)
  (sound : db.Sound extra stored) (member : id ∈ stored)
include few keeps fuel sound member
variable (inside : scope.key.bits <+: db.wordOf id)
  (listed : Listed db stored scope (fun word => db.wordOf id < word) rest)
include inside listed

theorem iterateFrom_step : ∃ after kept, iterateFrom scope body (fuel + 1)
    (db.holdLsa id) (some id) =
        (iterateFrom scope body fuel (after.holdingLsa rest.head?) rest.head?).map
          (fun result => (result.1, id :: result.2)) ∧
      after.Sound extra kept ∧
      (∀ other, other ∈ kept ↔ other ∈ stored ∧ ¬ (other = id ∧ removes id = true)) ∧
      Listed after kept scope (fun word => db.wordOf id < word) rest ∧
      (removes id = false → after = db) := by
  obtain ⟨held, after, ran, passed, idle⟩ := keeps db stored id sound member
  have members : ∀ other, other ∈ (if removes id then stored.erase id else stored) ↔
      other ∈ stored ∧ ¬ (other = id ∧ removes id = true) := by
    intro other
    split
    · rename_i removed
      rw [sound.nodup.mem_erase_iff, and_comm]
      exact and_congr_right fun _ => by rw [removed]; simp
    · rename_i kept
      rw [Bool.not_eq_true] at kept
      rw [kept]
      simp
  have same : ∀ other ∈ stored, other ≠ id → after.wordOf other = db.wordOf other :=
      fun other there apart =>
    passed.words other ((members other).mpr ⟨there, fun both => apart both.1⟩)
  have apart : ∀ other ∈ rest, other ∈ stored ∧ other ≠ id := by
    intro other there
    obtain ⟨inside, _, behind⟩ := (listed.mem other).mp there
    exact ⟨inside, fun equal => lt_irrefl _ (equal ▸ behind)⟩
  have later : Listed after (if removes id then stored.erase id else stored) scope
      (fun word => db.wordOf id < word) rest := by
    refine ⟨listed.sorted.imp_of_mem fun {one other} here there less => ?_,
      fun other => ⟨fun there => ?_, ?_⟩⟩
    · rw [same one (apart one here).1 (apart one here).2,
        same other (apart other there).1 (apart other there).2]
      exact less
    · obtain ⟨_, below, behind⟩ := (listed.mem other).mp there
      obtain ⟨inside, different⟩ := apart other there
      rw [same other inside different]
      exact ⟨(members other).mpr ⟨inside, fun both => different both.1⟩, below, behind⟩
    · rintro ⟨there, below, behind⟩
      rw [passed.words other there] at below behind
      exact (listed.mem other).mpr ⟨((members other).mp there).1, below, behind⟩
  have next := passed.ospf6LsdbNext few inside later
  refine ⟨after, _, ?_, passed.sound, members, later, idle⟩
  simp only [iterateFrom, ran, next, bind_eq_bind, bind_some]
  cases iterateFrom scope body fuel (after.holdingLsa rest.head?) rest.head? <;> rfl

theorem iterateFrom_spec (enough : rest.length + 1 < fuel) :
    ∃ after kept, iterateFrom scope body fuel (db.holdLsa id) (some id) = some (after, id :: rest) ∧
      after.Sound extra kept ∧
      (∀ other, other ∈ kept ↔ other ∈ stored ∧ ¬ (other ∈ id :: rest ∧ removes other = true)) ∧
      ((∀ other ∈ id :: rest, removes other = false) → after = db) := by
  induction rest generalizing fuel db stored id with
  | nil =>
    obtain ⟨fuel, rfl⟩ : ∃ smaller, fuel = smaller + 2 :=
      ⟨fuel - 2, by rw [length_nil] at enough; omega⟩
    obtain ⟨after, kept, ran, sound, members, _, idle⟩ :=
      iterateFrom_step few keeps (fuel + 1) sound member inside listed
    refine ⟨after, kept, ran, sound, fun other => ?_, fun keeps => idle (keeps id mem_cons_self)⟩
    rw [members, mem_singleton]
    exact and_congr_right fun _ => not_congr (and_congr_right fun same => by rw [same])
  | cons next rest ih =>
    obtain ⟨fuel, rfl⟩ : ∃ smaller, fuel = smaller + 1 :=
      ⟨fuel - 1, by rw [length_cons] at enough; omega⟩
    obtain ⟨middle, kept, ran, middleSound, members, later, idle⟩ :=
      iterateFrom_step few keeps fuel sound member inside listed
    obtain ⟨nextMember, nextInside, behind⟩ := (later.mem next).mp mem_cons_self
    have tail := later.tail.congr (fun other => and_congr_right fun _ =>
        ⟨fun less => ⟨less, behind.trans less⟩, And.left⟩) fun _ _ => rfl
    obtain ⟨after, left, finished, afterSound, remain, idles⟩ :=
      ih fuel middleSound nextMember nextInside tail
      (by rw [length_cons] at enough; omega)
    refine ⟨after, left, ?_, afterSound, fun other => ?_, fun keeps => ?_⟩
    · rw [ran]
      exact congrArg (Option.map _) finished
    · have split : other ∈ id :: next :: rest ↔ other = id ∨ other ∈ next :: rest := mem_cons
      rw [remain, members, and_assoc, split]
      refine and_congr_right fun _ =>
        ⟨fun ⟨here, there⟩ both => ?_, fun apart => ⟨fun both => ?_, fun both => ?_⟩⟩
      · rcases both.1 with same | further
        · exact here ⟨same, same ▸ both.2⟩
        · exact there ⟨further, both.2⟩
      · exact apart ⟨.inl both.1, both.1 ▸ both.2⟩
      · exact apart ⟨.inr both.1, both.2⟩
    · have same := idle (keeps id mem_cons_self)
      rw [← same]
      exact idles fun other there => keeps other (.tail _ there)

end

theorem body_idle (extra : LsaId → Nat) : Body extra (fun _ => false) fun db _ => some db := by
  intro db stored id sound member
  obtain ⟨lsa, found⟩ := sound.live member
  have locked : lsa.lock ≠ 0 := by
    have lock := sound.lock found
    rw [if_pos member] at lock
    omega
  refine ⟨db.holdLsa id, db, rfl,
    ⟨unlock_holdLsa found locked, sound, fun _ _ => rfl, _, holdLsa_self found, ?_⟩, fun _ => rfl⟩
  have follower := sound.next member found
  exact follower

section
variable (sound : db.Sound extra stored)
include sound

theorem Sound.listed_length (listed : Listed db stored scope (fun _ => True) visited) :
    visited.length ≤ db.fresh := by
  have subset : visited ⊆ range db.fresh := by
    intro id member
    obtain ⟨lsa, found⟩ := sound.live ((listed.mem id).mp member).1
    rw [mem_range]
    by_contra beyond
    rw [sound.allocated id (Nat.le_of_not_lt beyond)] at found
    cases found
  exact (listed.nodup.subperm subset).length_le.trans_eq length_range

theorem Sound.iterate (few : ∀ id, extra id < 200) (keeps : Body extra removes body)
    (listed : Listed db stored scope (fun _ => True) visited) :
    ∃ after kept, db.iterate scope body = some (after, visited) ∧ after.Sound extra kept ∧
      (∀ other, other ∈ kept ↔ other ∈ stored ∧ ¬ (other ∈ visited ∧ removes other = true)) ∧
      ((∀ other ∈ visited, removes other = false) → after = db) := by
  have length := sound.listed_length listed
  simp only [Ospf6Lsdb.iterate, sound.ospf6LsdbHead few listed, bind_eq_bind, bind_some]
  cases visited with
  | nil => exact ⟨db, stored, rfl, sound, fun other => by simp, fun _ => rfl⟩
  | cons id rest =>
    obtain ⟨member, inside, _⟩ := (listed.mem id).mp mem_cons_self
    have tail := listed.tail.congr (fun other => by rw [and_true]) fun _ _ => rfl
    exact iterateFrom_spec few keeps (db.fresh + 1) sound member inside tail
      (Nat.lt_succ_of_le length)

theorem Sound.lsdbCountAssert (few : ∀ id, extra id < 200) : db.lsdbCountAssert = some db := by
  obtain ⟨visited, listed⟩ := sound.listed_exists .all
  obtain ⟨after, kept, ran, _, _, idle⟩ := sound.iterate few (body_idle extra) listed
  have same := idle fun _ _ => rfl
  have everything : ∀ id, id ∈ visited ↔ id ∈ stored := by
    intro id
    rw [listed.mem, Scope.key, keyPrefix_bits]
    simp
  have length := ((perm_ext_iff_of_nodup listed.nodup sound.nodup).mpr everything).length_eq
  simp only [Ospf6Lsdb.lsdbCountAssert, ran, same, bind_eq_bind, bind_some, length,
    sound.count, if_true]
  rfl

end
end Ospf6Lsdb
end Zebra.Ospf6d
