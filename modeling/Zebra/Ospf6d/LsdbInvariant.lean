import Zebra.Base.Follower
import Zebra.Ospf6d.LsdbTable
import Zebra.Ospf6d.LsdbWalks

namespace Zebra.Ospf6d
open Function Base Option Nat
namespace Ospf6Lsdb
variable {db after : Ospf6Lsdb} {extra : LsaId → Nat} {stored : List LsaId} {id other : LsaId}
  {lsa : LsaCell}

/-- The word of the key of an advertisement. -/
def wordOf (db : Ospf6Lsdb) (id : LsaId) : List Bool :=
  (db.lsas id).elim [] fun lsa => lsa.key.word

theorem wordOf_eq (found : db.lsas id = some lsa) : db.wordOf id = lsa.key.word := by
  rw [wordOf, found, elim_some]

/-- The stored advertisements are those the table carries, linked to their neighbours in key order.
An advertisement has one lock for being stored, and the extra ones its readers hold. -/
structure Sound (db : Ospf6Lsdb) (extra : LsaId → Nat) (stored : List LsaId) : Prop where
  keyed : Keyed db.table
  nodup : stored.Nodup
  filed : ∀ id, id ∈ stored ↔ ∃ word, Carries db.table word id
  words : ∀ {word id}, Carries db.table word id → ∃ lsa, db.lsas id = some lsa ∧ lsa.key.word = word
  next : ∀ {id lsa}, id ∈ stored → db.lsas id = some lsa →
    Follower (· < ·) stored db.wordOf (db.wordOf id) lsa.next
  prev : ∀ {id lsa}, id ∈ stored → db.lsas id = some lsa →
    Follower (· > ·) stored db.wordOf (db.wordOf id) lsa.prev
  lock : ∀ {id lsa}, db.lsas id = some lsa → lsa.lock = (if id ∈ stored then 1 else 0) + extra id
  held : ∀ {id}, 0 < extra id → db.lsas id ≠ none
  allocated : ∀ id, db.fresh ≤ id → db.lsas id = none
  count : db.count = stored.length % 2 ^ 32

namespace Sound
variable (sound : db.Sound extra stored)
include sound

theorem live (member : id ∈ stored) : ∃ lsa, db.lsas id = some lsa := by
  obtain ⟨word, carries⟩ := (sound.filed id).mp member
  obtain ⟨lsa, found, _⟩ := sound.words carries
  exact ⟨lsa, found⟩

theorem alive (member : id ∈ stored) : db.lsas id ≠ none := by
  obtain ⟨lsa, found⟩ := sound.live member
  rw [found]
  exact nofun

theorem carried (member : id ∈ stored) : Carries db.table (db.wordOf id) id := by
  obtain ⟨word, carries⟩ := (sound.filed id).mp member
  obtain ⟨lsa, found, same⟩ := sound.words carries
  rwa [wordOf_eq found, same]

theorem carries_iff {word} : Carries db.table word id ↔ id ∈ stored ∧ db.wordOf id = word := by
  constructor
  · intro carries
    obtain ⟨lsa, found, same⟩ := sound.words carries
    exact ⟨(sound.filed id).mpr ⟨word, carries⟩, (wordOf_eq found).trans same⟩
  · rintro ⟨member, rfl⟩
    exact sound.carried member

theorem distinct : Distinct stored db.wordOf := by
  intro first here second there same
  exact info_unique sound.keyed.wf (sound.carried here) (same ▸ sound.carried there)

theorem sorted_exists :
    ∃ sorted : List LsaId, sorted.Perm stored ∧
      sorted.Pairwise fun one other => db.wordOf one < db.wordOf other :=
  exists_sorted sound.nodup sound.distinct

end Sound

/-- One more lock on an advertisement. -/
def holdLsa (db : Ospf6Lsdb) (id : LsaId) : Ospf6Lsdb :=
  { db with
    lsas := update db.lsas id ((db.lsas id).map fun lsa => { lsa with lock := lsa.lock + 1 }) }

section
variable (found : db.lsas id = some lsa)
include found

theorem holdLsa_self : (db.holdLsa id).lsas id = some { lsa with lock := lsa.lock + 1 } := by
  rw [holdLsa, found]
  exact update_self ..

theorem ospf6LsaLock_eq (few : lsa.lock < 255) : db.ospf6LsaLock id = some (db.holdLsa id) := by
  have small : (lsa.lock + 1) % 256 = lsa.lock + 1 := mod_eq_of_lt (by omega)
  simp only [ospf6LsaLock, modify, holdLsa, found, bind_eq_bind, bind_some, small, map_some]
  rfl

theorem unlock_eq (locked : lsa.lock ≠ 0) : db.ospf6LsaUnlock id = some { db with
    lsas := update db.lsas id (if lsa.lock - 1 = 0 then none
      else some { lsa with lock := lsa.lock - 1 }) } := by
  rw [ospf6LsaUnlock, found]
  simp only [bind_eq_bind, bind_some, if_neg locked]
  split <;> rfl

theorem unlock_holdLsa (locked : lsa.lock ≠ 0) : (db.holdLsa id).ospf6LsaUnlock id = some db := by
  have restored : update (db.holdLsa id).lsas id (some lsa) = db.lsas := by
    rw [holdLsa, update_idem, ← found]
    exact update_eq_self ..
  rw [unlock_eq (holdLsa_self found) (Nat.succ_ne_zero _)]
  simp only [Nat.add_sub_cancel, if_neg locked, restored]
  rfl

end

theorem holdLsa_ne (apart : other ≠ id) : (db.holdLsa id).lsas other = db.lsas other :=
  update_of_ne apart ..

theorem holdLsa_lsas (id other : LsaId) : (db.holdLsa id).lsas other =
    (db.lsas other).map fun cell =>
      { cell with lock := if other = id then cell.lock + 1 else cell.lock } := by
  by_cases same : other = id
  · subst same
    simp only [holdLsa, update_self, if_true]
  · rw [holdLsa_ne same]
    simp only [if_neg same]
    exact (Option.map_id' ..).symm

theorem holdLsa_live : (db.holdLsa id).lsas other ≠ none ↔ db.lsas other ≠ none := by
  rw [holdLsa_lsas]
  exact not_congr map_eq_none_iff

theorem wordOf_holdLsa (other : LsaId) : (db.holdLsa id).wordOf other = db.wordOf other := by
  rw [wordOf, wordOf, holdLsa_lsas]
  cases db.lsas other <;> rfl

theorem unlock_cases (ran : db.ospf6LsaUnlock id = some after) :
    ∃ lsa, db.lsas id = some lsa ∧ lsa.lock ≠ 0 ∧ after = { db with
    lsas := update db.lsas id (if lsa.lock - 1 = 0 then none
      else some { lsa with lock := lsa.lock - 1 }) } := by
  cases found : db.lsas id with
  | none =>
    rw [ospf6LsaUnlock, found] at ran
    cases ran
  | some lsa =>
    have locked : lsa.lock ≠ 0 := by
      intro free
      rw [ospf6LsaUnlock, found, bind_eq_bind, bind_some, if_pos free] at ran
      cases ran
    rw [unlock_eq found locked] at ran
    exact ⟨lsa, rfl, locked, (some.inj ran).symm⟩

theorem unlock_next {cell} (ran : db.ospf6LsaUnlock id = some after)
    (survives : after.lsas id = some cell) :
    ∃ lsa, db.lsas id = some lsa ∧ cell.next = lsa.next := by
  obtain ⟨lsa, found, locked, rfl⟩ := unlock_cases ran
  have left := (update_self id _ db.lsas).symm.trans survives
  split at left
  · cases left
  · cases left
    exact ⟨lsa, found, rfl⟩

theorem unlock_comm (apart : other ≠ id) (ran : db.ospf6LsaUnlock id = some after) :
    (db.holdLsa other).ospf6LsaUnlock id = some (after.holdLsa other) := by
  obtain ⟨lsa, found, locked, rfl⟩ := unlock_cases ran
  rw [unlock_eq ((holdLsa_ne apart.symm).trans found) locked]
  simp only [holdLsa, update_of_ne apart, update_comm apart]

theorem unlock_ne (apart : other ≠ id) (ran : db.ospf6LsaUnlock id = some after) :
    after.lsas other = db.lsas other := by
  obtain ⟨lsa, found, locked, rfl⟩ := unlock_cases ran
  exact update_of_ne apart ..

namespace Sound
section
variable (sound : db.Sound extra stored)
include sound

/-- What the cells of a database have to be for it to be sound, under keys that stay. -/
theorem recast {others kept} (keyed : Keyed after.table) (nodup : kept.Nodup)
    (carries : ∀ word id, Carries after.table word id ↔ id ∈ kept ∧ db.wordOf id = word)
    (fresh : after.fresh = db.fresh)
    (cells : ∀ {id lsa}, after.lsas id = some lsa →
      ∃ cell, db.lsas id = some cell ∧ lsa.key = cell.key ∧
      (id ∈ kept → Follower (· < ·) kept db.wordOf (db.wordOf id) lsa.next ∧
        Follower (· > ·) kept db.wordOf (db.wordOf id) lsa.prev) ∧
      lsa.lock = (if id ∈ kept then 1 else 0) + others id)
    (live : ∀ {id}, id ∈ kept ∨ 0 < others id → after.lsas id ≠ none)
    (count : after.count = kept.length % 2 ^ 32) :
    after.Sound others kept := by
  have words : ∀ id ∈ kept, after.wordOf id = db.wordOf id := by
    intro id member
    obtain ⟨lsa, found⟩ := ne_none_iff_exists'.mp (live (.inl member))
    obtain ⟨cell, before, same, -⟩ := cells found
    rw [wordOf_eq found, wordOf_eq before, same]
  refine ⟨keyed, nodup, fun id => ⟨fun member => ⟨_, (carries _ id).mpr ⟨member, rfl⟩⟩,
    fun ⟨word, carried⟩ => ((carries word id).mp carried).1⟩, ?_, ?_, ?_, ?_,
      fun more => live (.inr more), ?_, count⟩
  · intro word id carried
    obtain ⟨member, same⟩ := (carries word id).mp carried
    obtain ⟨lsa, found⟩ := ne_none_iff_exists'.mp (live (.inl member))
    exact ⟨lsa, found, by rw [← wordOf_eq found, words id member, same]⟩
  · intro id lsa member found
    obtain ⟨cell, -, -, links, -⟩ := cells found
    rw [words id member]
    exact (links member).1.congr (fun _ => Iff.rfl) words
  · intro id lsa member found
    obtain ⟨cell, -, -, links, -⟩ := cells found
    rw [words id member]
    exact (links member).2.congr (fun _ => Iff.rfl) words
  · intro id lsa found
    obtain ⟨cell, -, -, -, lock⟩ := cells found
    exact lock
  · intro id beyond
    by_contra present
    obtain ⟨lsa, found⟩ := ne_none_iff_exists'.mp present
    obtain ⟨cell, before, -⟩ := cells found
    rw [sound.allocated id (fresh ▸ beyond)] at before
    cases before

theorem relock {others} (table : after.table = db.table)
    (count : after.count = db.count) (fresh : after.fresh = db.fresh)
    (changed : ∀ {id lsa}, after.lsas id = some lsa →
      ∃ before, db.lsas id = some before ∧ lsa.key = before.key ∧
      lsa.next = before.next ∧ lsa.prev = before.prev ∧
      lsa.lock = (if id ∈ stored then 1 else 0) + others id)
    (live : ∀ {id}, id ∈ stored ∨ 0 < others id → after.lsas id ≠ none) :
    after.Sound others stored := by
  refine sound.recast (table ▸ sound.keyed) sound.nodup
    (fun word id => by rw [table]; exact sound.carries_iff) fresh
    (fun {id lsa} there => ?_) live (count.trans sound.count)
  obtain ⟨before, found, key, next, prev, lock⟩ := changed there
  exact ⟨before, found, key, fun member =>
    ⟨next ▸ sound.next member found, prev ▸ sound.prev member found⟩, lock⟩

theorem holdLsa (found : db.lsas id = some lsa) :
    (db.holdLsa id).Sound (update extra id (extra id + 1)) stored := by
  refine sound.relock rfl rfl rfl (fun {other cell} there => ?_) fun {other} needed =>
    holdLsa_live.mpr ?_
  · by_cases same : other = id
    · subst same
      rw [holdLsa_self found] at there
      cases there
      refine ⟨lsa, found, rfl, rfl, rfl, ?_⟩
      rw [update_self, sound.lock found, add_assoc]
    · rw [holdLsa_ne same] at there
      exact ⟨cell, there, rfl, rfl, rfl, by rw [update_of_ne same]; exact sound.lock there⟩
  · by_cases same : other = id
    · rw [same, found]
      exact nofun
    · rw [update_of_ne same] at needed
      exact needed.elim sound.alive sound.held

end

theorem unlock (sound : db.Sound (update extra id (extra id + 1)) stored) :
    ∃ after, db.ospf6LsaUnlock id = some after ∧ after.Sound extra stored ∧
      after.table = db.table := by
  obtain ⟨lsa, found⟩ := ne_none_iff_exists'.mp (sound.held (by rw [update_self]; exact succ_pos _))
  have lock := sound.lock found
  rw [update_self] at lock
  rw [unlock_eq found (by omega)]
  refine ⟨_, rfl, sound.relock rfl rfl rfl (fun {other cell} there => ?_)
    (fun {other} needed => ?_), rfl⟩
  · by_cases same : other = id
    · subst same
      have left := (update_self other _ db.lsas).symm.trans there
      split at left
      · cases left
      · cases left
        exact ⟨lsa, found, rfl, rfl, rfl, by dsimp only; omega⟩
    · have here : db.lsas other = some cell := (update_of_ne same ..).symm.trans there
      exact ⟨cell, here, rfl, rfl, rfl, by rw [sound.lock here, update_of_ne same]⟩
  · by_cases same : other = id
    · subst same
      have more : lsa.lock - 1 ≠ 0 := by
        rcases needed with member | positive
        · rw [if_pos member] at lock
          omega
        · omega
      refine ne_of_eq_of_ne ((update_self ..).trans (if_neg more)) nofun
    · refine ne_of_eq_of_ne (update_of_ne same ..)
        (needed.elim sound.alive fun positive => sound.held ?_)
      rwa [update_of_ne same]

end Sound
end Ospf6Lsdb
end Zebra.Ospf6d
