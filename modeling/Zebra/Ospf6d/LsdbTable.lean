import Zebra.Ospf6d.LsdbKeys

namespace Zebra.Ospf6d
open Function Base RouteTable Prefix Option
variable {Info : Type}

/-- A wellformed table in which only nodes with a whole key are locked. -/
structure Keyed (table : RouteTable Info) : Prop where
  wf : table.Wellformed
  named : ∀ {place node}, table.nodes place = some node → node.lock ≠ 0 → ∃ key :
    Ospf6LsaKey, node.p = key.lsdbKey

/-- A node with this word has this info. -/
def Carries (table : RouteTable Info) (word : List Bool) (info : Info) : Prop :=
  ∃ place node, table.nodes place = some node ∧ node.p.bits = word ∧ node.info = some info

/-- The locked nodes are those with info, and are locked once. -/
def Exact (table : RouteTable Info) : Prop :=
  ∀ place node, table.nodes place = some node → node.lock ≠ 0 → node.lock = 1 ∧ node.info.isSome

section Tables
variable {table : RouteTable Info} {place : NodeId} {node : RouteNode Info} {word : List Bool}
  {info : Info}

theorem carries_status : Carries table word info ↔
    ∃ place p lock, table.status place = some (p, lock, some info) ∧ p.bits = word := by
  constructor
  · rintro ⟨place, node, found, rfl, carried⟩
    exact ⟨place, node.p, node.lock, by rw [status_of_node found, carried], rfl⟩
  · rintro ⟨place, p, lock, present, rfl⟩
    obtain ⟨node, found, samePrefix, _, carried⟩ := node_of_views present
    exact ⟨place, node, found, by rw [samePrefix], carried⟩

section
variable (wf : table.Wellformed)
include wf

theorem place_unique {other otherNode} (found : table.nodes place = some node)
    (also : table.nodes other = some otherNode) (same : node.p.bits = otherNode.p.bits) :
    place = other :=
  wf.prefix_unique found also (bits_eq.mp same)

theorem info_unique {other} (first : Carries table word info)
    (second : Carries table word other) : info = other := by
  obtain ⟨place, node, found, same, carried⟩ := first
  obtain ⟨there, otherNode, also, equal, carriedToo⟩ := second
  have here := place_unique wf found also (same.trans equal.symm)
  subst here
  rw [found] at also
  cases also
  rw [carried] at carriedToo
  exact some.inj carriedToo

theorem carries_restate {after lock info} (found : table.nodes place = some node)
    (changed : after.status = update table.status place (some (node.p, lock, info))) {other} :
    Carries after word other ↔
      if word = node.p.bits then info = some other else Carries table word other := by
  rw [carries_status]
  constructor
  · rintro ⟨there, p, held, present, rfl⟩
    rw [changed] at present
    by_cases same : there = place
    · rw [same, update_self, some.injEq, Prod.mk.injEq, Prod.mk.injEq] at present
      obtain ⟨samePrefix, _, sameInfo⟩ := present
      rw [if_pos (by rw [samePrefix]), sameInfo]
    · rw [update_of_ne same] at present
      obtain ⟨otherNode, otherFound, samePrefix, _⟩ := node_of_views present
      rw [if_neg fun equal => same (place_unique wf otherFound found (by rw [samePrefix, equal]))]
      exact carries_status.mpr ⟨there, p, held, present, rfl⟩
  · intro carries
    by_cases same : word = node.p.bits
    · rw [if_pos same] at carries
      exact ⟨place, node.p, lock, by rw [changed, update_self, carries], same.symm⟩
    · rw [if_neg same] at carries
      obtain ⟨there, p, held, present, rfl⟩ := carries_status.mp carries
      have apart : there ≠ place := by
        rintro rfl
        rw [status_of_node found, some.injEq, Prod.mk.injEq] at present
        exact same (by rw [present.1])
      exact ⟨there, p, held, by rw [changed, update_of_ne apart, present], rfl⟩

theorem lookup_holding (p : Prefix) :
    ∃ result, table.routeNodeLookup p = some (table.holding result, result) ∧
      table.LookupExact p result := by
  obtain ⟨after, result, ran, hits, _⟩ := wf.routeNodeLookup p
  have held : after = table.holding result := by
    rw [routeNodeLookup] at ran
    cases loop : table.lookupLoop p (p.prefixlen + 2) table.top with
    | none =>
      rw [loop] at ran
      cases ran
    | some answer =>
      rw [loop] at ran
      cases answer with
      | none =>
        cases ran
        rfl
      | some place =>
        simp only [bind_eq_bind, bind_some] at ran
        cases found : table.nodes place with
        | none =>
          rw [routeLockNode, found] at ran
          cases ran
        | some node =>
          rw [routeLockNode_hold found] at ran
          cases ran
          rfl
  subst held
  exact ⟨result, ran, hits⟩

end

theorem prefixCopy_whole (p : Prefix) (six : p.family = .inet6) : prefixCopy p = p := by
  obtain ⟨family, prefixlen, octets, fits⟩ := p
  obtain rfl : family = .inet6 := six
  have same : (Vector.ofFn fun index : Fin 16 => if index.val < Family.inet6.bytelen then
      octetAt octets index.val else 0) = octets := by
    refine Vector.ext fun index bound => ?_
    have inside : index < Family.inet6.bytelen := bound
    simp [octetAt, inside]
  simp only [prefixCopy, same]

namespace Keyed
variable (keyed : Keyed table)
include keyed

section
variable (found : table.nodes place = some node)
include found

theorem locked (held : node.lock ≠ 0) : node.p.prefixlen = 80 := by
  obtain ⟨key, named⟩ := keyed.named found held
  rw [named]
  rfl

/-- An unlocked node branches, so it is shorter than the keys. -/
theorem short (unlocked : node.lock = 0) : node.p.prefixlen < 80 := by
  obtain ⟨room, measured⟩ : ∃ room, 128 - node.p.prefixlen = room := ⟨_, rfl⟩
  induction room using Nat.strongRecOn generalizing place node with
  | _ room ih =>
    obtain ⟨child, linked⟩ := isSome_iff_exists.mp (keyed.wf.represents.glue found unlocked).2.1
    obtain ⟨lower, lowerFound, _, longer, _⟩ := keyed.wf.represents.child found linked
    by_cases held : lower.lock = 0
    · have room := lower.p.fits
      have whole : 8 * lower.p.family.bytelen ≤ 128 :=
        Nat.mul_le_mul_left 8 lower.p.family.bytelen_le
      exact lt_trans longer (ih _ (by omega) lowerFound held rfl)
    · exact keyed.locked lowerFound held ▸ longer

theorem lock_ne (carried : node.info.isSome) : node.lock ≠ 0 := by
  intro unlocked
  rw [(keyed.wf.represents.glue found unlocked).1] at carried
  cases carried

end

theorem length (carries : Carries table word info) : word.length = 80 := by
  obtain ⟨place, node, found, rfl, carried⟩ := carries
  rw [length_bits]
  exact keyed.locked found (keyed.lock_ne found (by rw [carried]; rfl))

theorem restate {after lock info} (wf : after.Wellformed)
    (changed : after.status = update table.status place (some (node.p, lock, info)))
    (named : ∃ key : Ospf6LsaKey, node.p = key.lsdbKey) :
    Keyed after := by
  refine ⟨wf, fun {other otherNode} present held => ?_⟩
  have here := status_of_node present
  rw [changed] at here
  by_cases same : other = place
  · rw [same, update_self, some.injEq, Prod.mk.injEq] at here
    rwa [← here.1]
  · rw [update_of_ne same] at here
    obtain ⟨before, beforeFound, samePrefix, sameLock, _⟩ := node_of_views here
    rw [← samePrefix]
    exact keyed.named beforeFound (by rwa [sameLock])

theorem length_le (found : table.nodes place = some node) : node.p.prefixlen ≤ 80 := by
  by_cases unlocked : node.lock = 0
  · exact le_of_lt (keyed.short found unlocked)
  · exact le_of_eq (keyed.locked found unlocked)

end Keyed

section Added
variable {table after : RouteTable Info} {place other : NodeId} {p q : Prefix} {held : Nat}
  {carried : Option Info}
variable (added : RouteTable.Added table after p place)
include added

/-- A node beside the one that is got is what it was, unless it is the new glue. -/
theorem added_kept (apart : other ≠ place) (status : after.status other = some (q, held, carried))
    (live : held ≠ 0 ∨ carried.isSome) : table.status other = some (q, held, carried) := by
  obtain ⟨glue, others⟩ := added.others
  by_cases isGlue : glue = some other
  · obtain ⟨_, q, bare⟩ := (others other apart).2 isGlue
    rw [bare] at status
    cases status
    simp at live
  · rw [← (others other apart).1 isGlue, status]

theorem added_lasting (apart : other ≠ place)
    (status : table.status other = some (q, held, carried))
    : after.status other = some (q, held, carried) := by
  obtain ⟨glue, others⟩ := added.others
  rw [(others other apart).1, status]
  intro isGlue
  rw [((others other apart).2 isGlue).1] at status
  cases status

theorem added_carries {word info} : Carries after word info ↔ Carries table word info := by
  obtain ⟨q, lock, _, present, _, origin⟩ := added.target
  rw [carries_status, carries_status]
  constructor
  · rintro ⟨other, p, held, status, rfl⟩
    by_cases here : other = place
    · rw [here, present] at status
      cases status
      rcases origin with before | ⟨_, _, bare⟩
      · exact ⟨place, q, lock, before, rfl⟩
      · cases bare
    · exact ⟨other, p, held, added_kept added here status (.inr rfl), rfl⟩
  · rintro ⟨other, p, held, status, rfl⟩
    by_cases here : other = place
    · rw [here] at status
      rcases origin with before | ⟨absent, _⟩
      · rw [before] at status
        cases status
        exact ⟨place, q, lock + 1, present, rfl⟩
      · rw [absent] at status
        cases status
    · exact ⟨other, p, held, added_lasting added here status, rfl⟩

end Added

theorem Keyed.get (keyed : Keyed table) (key : Ospf6LsaKey) :
    ∃ after place node, table.routeNodeGet key.lsdbKey = some (after, place) ∧ Keyed after ∧
      after.nodes place = some node ∧ node.p.bits = key.word ∧ 0 < node.lock ∧
      (∀ word info, Carries after word info ↔ Carries table word info) ∧
      (Exact table → (∀ info, ¬ Carries table key.word info) → node.lock = 1 ∧
        ∀ other otherNode, after.nodes other = some otherNode → otherNode.lock ≠ 0 → other ≠ place →
          otherNode.lock = 1 ∧ otherNode.info.isSome) := by
  obtain ⟨after, place, ran, added⟩ := keyed.wf.get key.lsdbKey
  obtain ⟨q, lock, info, present, same, origin⟩ := added.target
  obtain ⟨node, found, samePrefix, sameLock, sameInfo⟩ := node_of_views present
  have whole : q.prefixlen = 80 := same.1
  have word : q.bits = key.word := bits_eq.mpr same
  refine ⟨after, place, node, ran,
    ⟨added.wellformed, fun {other otherNode} there held => ?_⟩, found,
    by rw [samePrefix, word], by omega, fun _ _ => added_carries added, fun exact absent => ?_⟩
  · by_cases here : other = place
    · rw [here, found] at there
      cases there
      rw [samePrefix]
      rcases origin with before | ⟨absent, _⟩
      · obtain ⟨old, oldFound, oldPrefix, _⟩ := node_of_views before
        rw [← oldPrefix] at whole ⊢
        exact keyed.named oldFound fun unlocked => ne_of_lt (keyed.short oldFound unlocked) whole
      · rcases added.named q _ info absent present with copy | ⟨other, lower, lowerFound, longer⟩
        · exact ⟨key, copy.trans (prefixCopy_whole _ rfl)⟩
        · exact absurd (keyed.length_le lowerFound) (not_le.mpr longer)
    · obtain ⟨before, beforeFound, equal, lockEqual, _⟩ :=
        node_of_views (added_kept added here (status_of_node there) (.inl held))
      rw [← equal]
      exact keyed.named beforeFound (by rwa [lockEqual])
  · refine ⟨?_, fun other otherNode there held apart => ?_⟩
    · rcases origin with before | ⟨_, none, _⟩
      · obtain ⟨old, oldFound, oldPrefix, oldLock, oldInfo⟩ := node_of_views before
        have held : old.lock ≠ 0 := fun unlocked => by
          have short := keyed.short oldFound unlocked
          rw [oldPrefix, whole] at short
          exact lt_irrefl _ short
        obtain ⟨carried, isInfo⟩ := isSome_iff_exists.mp (exact place old oldFound held).2
        exact absurd ⟨place, old, oldFound, by rw [oldPrefix, word], isInfo⟩ (absent carried)
      · rw [sameLock, none]
    · have before := added_kept added apart (status_of_node there) (.inl held)
      obtain ⟨old, oldFound, _, oldLock, oldInfo⟩ := node_of_views before
      rw [← oldLock, ← oldInfo]
      exact exact other old oldFound (by rwa [oldLock])

theorem Keyed.lookup (keyed : Keyed table) (key : Ospf6LsaKey) :
    ∃ result, table.routeNodeLookup key.lsdbKey = some (table.holding result, result) ∧
      (result = none → ∀ info, ¬ Carries table key.word info) ∧
      ∀ place, result = some place → ∃ node, table.nodes place = some node ∧
        node.p.bits = key.word ∧ node.info.isSome := by
  obtain ⟨result, ran, hits⟩ := lookup_holding keyed.wf key.lsdbKey
  refine ⟨result, ran, fun missing info carries => ?_, fun place found => ?_⟩
  · obtain ⟨place, node, present, same, carried⟩ := carries
    have hit := (hits place).mpr ⟨node, present, bits_eq.mp same, by rw [carried]; rfl⟩
    rw [missing] at hit
    cases hit
  · obtain ⟨node, present, same, carried⟩ := (hits place).mp found
    exact ⟨node, present, bits_eq.mpr same, carried⟩

theorem Keyed.unlock (keyed : Keyed table) (found : table.nodes place = some node)
    (more : 1 < node.lock) :
    ∃ after, table.routeUnlockNode place = some after ∧ Keyed after ∧
      ∀ word info, Carries after word info ↔ Carries table word info := by
  obtain ⟨after, ran, wf, _, pruned⟩ := keyed.wf.unlock found (by omega) fun _ => more
  have lowered := status_put table place { node with lock := node.lock - 1 }
  refine ⟨after, ran, ⟨wf, fun {other otherNode} present held => ?_⟩, fun word info => ?_⟩
  · have status := status_of_node present
    rcases pruned other with same | ⟨gone, _⟩
    · rw [same, lowered] at status
      by_cases here : other = place
      · rw [here, update_self, some.injEq, Prod.mk.injEq] at status
        have samePrefix : node.p = otherNode.p := status.1
        rw [← samePrefix]
        exact keyed.named found (by omega)
      · rw [update_of_ne here] at status
        obtain ⟨before, beforeFound, samePrefix, sameLock, _⟩ := node_of_views status
        rw [← samePrefix]
        exact keyed.named beforeFound (by rwa [sameLock])
    · rw [gone] at status
      cases status
  · have pruning : Carries after word info ↔
        Carries (table.put place { node with lock := node.lock - 1 }) word info := by
      rw [carries_status, carries_status]
      constructor
      · rintro ⟨other, p, held, status, rfl⟩
        rcases pruned other with same | ⟨gone, _⟩
        · exact ⟨other, p, held, same ▸ status, rfl⟩
        · rw [gone] at status
          cases status
      · rintro ⟨other, p, held, status, rfl⟩
        rcases pruned other with same | ⟨_, q, bare⟩
        · exact ⟨other, p, held, same ▸ status, rfl⟩
        · rw [bare] at status
          cases status
    rw [pruning, carries_restate keyed.wf found lowered]
    split
    · rename_i same
      constructor
      · exact fun carried => ⟨place, node, found, same.symm, carried⟩
      · rintro ⟨other, otherNode, otherFound, equal, carried⟩
        have here := place_unique keyed.wf otherFound found (equal.trans same)
        rw [here, found] at otherFound
        cases otherFound
        exact carried
    · rfl

end Tables
end Zebra.Ospf6d
