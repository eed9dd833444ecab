import Zebra.Base.Run
import Zebra.Ospfd.Database

namespace Zebra.Ospfd
open Base Ospf List Option Store OspfLsa Function
namespace Ospf

structure Listed (ospf : Ospf) : Prop where
  filed : ∀ db, db.own = true → ∀ key id, (ospf.lsdb db).lookup key = some id →
    id < ospf.fresh ∧ (ospf.lsa id).key = key ∧ ospf.lsdbOf id = db
  past : ∀ id, id < ospf.fresh → (ospf.lsa id).tvRecv ≤ ospf.now
  nodup : ospf.maxageLsa.Nodup
  current : ∀ id ∈ ospf.maxageLsa, ospf.installed id = some id
  old : ∀ id ∈ ospf.maxageLsa, (ospf.lsa id).isMaxage ospf.now = true

variable {ospf after : Ospf}

section
variable (listed : ospf.Listed)
include listed

theorem Listed.relist (alike : Alike ospf after) (nodup : after.maxageLsa.Nodup)
    (current : ∀ id ∈ after.maxageLsa, ospf.installed id = some id)
    (old : ∀ id ∈ after.maxageLsa, (ospf.lsa id).isMaxage ospf.now = true) : after.Listed where
  filed := fun db own key id found => by
    rw [alike.lookup db own] at found
    obtain ⟨below, key_eq, db_eq⟩ := listed.filed db own key id found
    exact ⟨alike.fresh ▸ below, (alike.lsa id).key.trans key_eq, (alike.lsdbOf id).trans db_eq⟩
  past := fun id below => by
    rw [(alike.lsa id).tvRecv, alike.now]
    exact listed.past id (alike.fresh ▸ below)
  nodup := nodup
  current := fun id member => (alike.installed id).trans (current id member)
  old := fun id member => by
    rw [alike.now, (alike.lsa id).isMaxage]
    exact old id member

theorem Listed.congr (alike : Alike ospf after) (same : after.maxageLsa = ospf.maxageLsa) :
    after.Listed := by
  refine listed.relist alike (same ▸ listed.nodup) ?_ ?_
  · exact fun id member => listed.current id (same ▸ member)
  · exact fun id member => listed.old id (same ▸ member)

theorem Listed.filed_installed {id found} (here : ospf.installed id = some found) :
    found < ospf.fresh ∧ (ospf.lsa found).key = (ospf.lsa id).key ∧
    ospf.lsdbOf found = ospf.lsdbOf id :=
  listed.filed _ (own_lsdbOf ospf id) _ _ here

theorem Listed.ospfLsaMaxage {id} (current : ospf.installed id = some id)
    (old : (ospf.lsa id).isMaxage ospf.now = true) : (ospf.ospfLsaMaxage id).Listed := by
  have alike := alike_maxage ospf id
  rw [Ospf.ospfLsaMaxage] at alike ⊢
  split at alike
  · rename_i present
    rwa [if_pos present]
  · rename_i absent
    rw [if_neg absent]
    refine listed.relist alike ?_ ?_ ?_
    · exact nodup_append.mpr ⟨listed.nodup, nodup_singleton id, fun other member last single same =>
        absent (by rw [mem_singleton] at single; rwa [← single, ← same])⟩
    · intro other member
      rcases mem_append.mp member with member | member
      · exact listed.current other member
      · rwa [mem_singleton.mp member]
    · intro other member
      rcases mem_append.mp member with member | member
      · exact listed.old other member
      · rwa [mem_singleton.mp member]

theorem Listed.ospfLsaMaxageDelete (id : LsaId) : (ospf.ospfLsaMaxageDelete id).Listed := by
  have alike := alike_maxageDelete ospf id
  rw [Ospf.ospfLsaMaxageDelete] at alike ⊢
  split at alike
  · rename_i present
    rw [if_pos present]
    refine listed.relist alike (listed.nodup.erase id) ?_ ?_
    · exact fun other member => listed.current other (mem_of_mem_erase member)
    · exact fun other member => listed.old other (mem_of_mem_erase member)
  · rename_i absent
    rwa [if_neg absent]

end

variable {other new : LsaId}

theorem Listed.mem_maxageDelete (listed : ospf.Listed) {id} :
    other ∈ (ospf.ospfLsaMaxageDelete id).maxageLsa ↔ other ≠ id ∧ other ∈ ospf.maxageLsa := by
  rw [Ospf.ospfLsaMaxageDelete]
  split
  · exact listed.nodup.mem_erase_iff
  · rename_i absent
    exact ⟨fun member => ⟨fun same => absent (same ▸ member), member⟩, fun both => both.2⟩

theorem maxageLsa_discard (ospf : Ospf) (id : LsaId) :
    (ospf.ospfLsaDiscard id).maxageLsa = ospf.maxageLsa := by
  rw [ospfLsaDiscard]
  split <;> rfl

theorem Listed.ospfDiscardFromDb (listed : ospf.Listed) (id : LsaId) :
    (ospf.ospfDiscardFromDb id).Listed ∧
    ∀ other, other ∈ (ospf.ospfDiscardFromDb id).maxageLsa ↔
      ospf.installed id ≠ some other ∧ other ∈ ospf.maxageLsa := by
  rw [Ospf.ospfDiscardFromDb]
  cases found : ospf.installed id with
  | none => exact ⟨listed, fun other => by simp⟩
  | some old =>
    have quiet := quiet_sweepRetransmit ospf old
    have swept := listed.congr quiet.alike quiet.maxageLsa
    refine ⟨(swept.ospfLsaMaxageDelete old).congr (alike_discard _ old) (maxageLsa_discard _ old),
      fun other => ?_⟩
    rw [maxageLsa_discard, swept.mem_maxageDelete, quiet.maxageLsa, ne_eq, ne_eq, some.injEq,
      @eq_comm _ old other]

theorem Listed.ospfLsdbAdd (listed : ospf.Listed) (known : new < ospf.fresh)
    (apart : ∀ id ∈ ospf.maxageLsa, ospf.installed new ≠ some id) :
    (ospf.onStore (·.ospfLsdbAdd (ospf.lsdbOf new) new)).Listed := by
  have quiet := quiet_ospfLsdbAdd ospf.toStore (ospf.lsdbOf new) new
  have lsa (id : LsaId) :
      (ospf.lsa id).Alike ((ospf.onStore (·.ospfLsdbAdd (ospf.lsdbOf new) new)).lsa id) :=
    alike_of_core (quiet.core id)
  refine ⟨?_, ?_, listed.nodup, ?_, ?_⟩
  · intro db own key id found
    rw [lookup_add] at found
    rw [lsdbOf_of_lsa (lsa id), (lsa id).key]
    split at found
    · rename_i place
      cases found
      exact ⟨known, place.2.symm, place.1.symm⟩
    · exact listed.filed db own key id found
  · intro id below
    rw [(lsa id).tvRecv]
    exact listed.past id below
  · intro id member
    rw [installed, lsdbOf_of_lsa (lsa id), (lsa id).key, lookup_add]
    split
    · rename_i place
      -- the entry would be what the new instance replaces
      have here := listed.current id member
      rw [installed, place.1, place.2] at here
      exact absurd here (apart id member)
    · exact listed.current id member
  · intro id member
    rw [(lsa id).isMaxage]
    exact listed.old id member

theorem maxageLsa_checksumOwn (ospf : Ospf) (id : LsaId) :
    (ospf.checksumOwn id).maxageLsa = ospf.maxageLsa := by
  rw [checksumOwn]
  split <;> rfl

section
variable (listed : ospf.Listed)
include listed

theorem Listed.place (known : new < ospf.fresh) : (ospf.place new).Listed := by
  obtain ⟨discarded, members⟩ := listed.ospfDiscardFromDb new
  have alike := alike_discardFromDb ospf new
  have apart : ∀ id ∈ (ospf.ospfDiscardFromDb new).maxageLsa,
      (ospf.ospfDiscardFromDb new).installed new ≠ some id := by
    intro id member
    rw [alike.installed]
    exact ((members id).mp member).1
  have added := discarded.ospfLsdbAdd (alike.fresh ▸ known) apart
  rwa [alike.lsdbOf new] at added

theorem Listed.ospfLsaInstall (known : new < ospf.fresh) : (ospf.ospfLsaInstall new).Listed := by
  have checked := (listed.place known).congr (alike_checksumOwn _ new) (maxageLsa_checksumOwn _ new)
  have current :=
    ((alike_checksumOwn (ospf.place new) new).installed new).trans (installed_place ospf new)
  rw [Ospf.ospfLsaInstall, maxageOther]
  split
  · rename_i old
    exact checked.ospfLsaMaxage current (Bool.and_eq_true_iff.mp old).1
  · exact checked

theorem Listed.quiet (quiet : Quiet ospf after) : after.Listed :=
  listed.congr quiet.alike quiet.maxageLsa

theorem Listed.ospfLsaNew (data : LsaHeader) (body : List Octet) (area : Option AreaId)
    (self : Bool) :
    (ospf.ospfLsaNew data body area self).1.Listed := by
  have known (id : LsaId) (below : id < ospf.fresh) :
      (ospf.ospfLsaNew data body area self).1.lsa id = ospf.lsa id :=
    lsaNew_of_ne ospf data body area self (ne_of_lt below)
  have filed (db : DbId) (own : db.own = true) (key : LsaKey) (id : LsaId)
      (found : (ospf.lsdb db).lookup key = some id) :
      id < ospf.fresh + 1 ∧ ((ospf.ospfLsaNew data body area self).1.lsa id).key = key ∧
        (ospf.ospfLsaNew data body area self).1.lsdbOf id = db := by
    obtain ⟨below, key_eq, db_eq⟩ := listed.filed db own key id found
    refine ⟨Nat.lt_succ_of_lt below, by rw [known id below, key_eq], ?_⟩
    rw [lsdbOf, areaOf, known id below]
    exact db_eq
  have below (id : LsaId) (member : id ∈ ospf.maxageLsa) : id < ospf.fresh :=
    (listed.filed_installed (listed.current id member)).1
  refine ⟨filed, ?_, listed.nodup, ?_, ?_⟩
  · intro id bound
    by_cases new : id = ospf.fresh
    · have born : ((ospf.ospfLsaNew data body area self).1.lsa id).tvRecv = ospf.now := by
        rw [new, lsaNew_self]
      exact Int.le_of_eq born
    · rw [lsaNew_of_ne ospf data body area self new]
      exact listed.past id (lt_of_le_of_ne (Nat.le_of_lt_succ bound) new)
  · intro id member
    rw [installed, lsdbOf, areaOf, known id (below id member)]
    exact listed.current id member
  · intro id member
    rw [known id (below id member)]
    exact listed.old id member

end

section
variable (ospf : Ospf)

theorem setMaxage_self (id : LsaId) :
    (ospf.setMaxage id).lsa id = { ospf.lsa id with
      data := { (ospf.lsa id).data with lsAge := 3600 } } :=
  update_self ..

theorem isMaxage_setMaxage {id} (past : (ospf.lsa id).tvRecv ≤ ospf.now) :
    ((ospf.setMaxage id).lsa id).isMaxage ospf.now = true := by
  have since : 0 ≤ (ospf.now - (ospf.lsa id).tvRecv) / 1000000 :=
    Int.ediv_nonneg (Int.sub_nonneg.mpr past) (by decide)
  have age : ((ospf.setMaxage id).lsa id).getAge ospf.now =
      3600 + (ospf.now - (ospf.lsa id).tvRecv) / 1000000 := by
    rw [setMaxage_self]
    rfl
  rw [isMaxage_iff, age]
  exact Int.le_add_of_nonneg_right since

theorem setMaxage_of_ne {id} (apart : other ≠ id) :
    (ospf.setMaxage id).lsa other = ospf.lsa other :=
  update_of_ne apart ..

theorem installed_setMaxage (id other : LsaId) :
    (ospf.setMaxage id).installed other = ospf.installed other := by
  by_cases same : other = id
  · subst same
    rw [installed, lsdbOf, areaOf, setMaxage_self]
    rfl
  · rw [installed, lsdbOf, areaOf, setMaxage_of_ne ospf same]
    rfl

theorem quiet_floodThroughArea (area : AreaId) (inbr : Option NbrId) (id : LsaId) :
    Quiet ospf (ospf.ospfFloodThroughArea area inbr id).1 :=
  (turns_floodOver ospf inbr _).quiet

theorem quiet_floodThroughAs (inbr : Option NbrId) (id : LsaId) :
    Quiet ospf (ospf.ospfFloodThroughAs inbr id).1 :=
  (turns_floodOver ospf inbr _).quiet

end

theorem Listed.setMaxage (listed : ospf.Listed) {id} (known : id < ospf.fresh) :
    (ospf.setMaxage id).Listed := by
  have place (other : LsaId) : ((ospf.setMaxage id).lsa other).key = (ospf.lsa other).key ∧
      (ospf.setMaxage id).lsdbOf other = ospf.lsdbOf other ∧
        ((ospf.setMaxage id).lsa other).tvRecv = (ospf.lsa other).tvRecv := by
    by_cases same : other = id
    · subst same
      rw [lsdbOf, areaOf, setMaxage_self]
      exact ⟨rfl, rfl, rfl⟩
    · rw [lsdbOf, areaOf, setMaxage_of_ne ospf same]
      exact ⟨rfl, rfl, rfl⟩
  refine ⟨?_, ?_, listed.nodup, ?_, ?_⟩
  · intro db own key other found
    rw [(place other).1, (place other).2.1]
    exact listed.filed db own key other found
  · intro other below
    rw [(place other).2.2]
    exact listed.past other below
  · intro other member
    rw [installed_setMaxage]
    exact listed.current other member
  · intro other member
    by_cases same : other = id
    · rw [same]
      exact isMaxage_setMaxage ospf (listed.past id known)
    · rw [setMaxage_of_ne ospf same]
      exact listed.old other member

theorem Listed.flush (listed : ospf.Listed) {id} (target : ospf.installed id = some id)
    (quiet : Quiet (ospf.setMaxage id) after) : (after.ospfLsaMaxage id).Listed := by
  have known := (listed.filed_installed target).1
  refine ((listed.setMaxage known).quiet quiet).ospfLsaMaxage ?_ ?_
  · rw [quiet.alike.installed, installed_setMaxage, target]
  · rw [(quiet.alike.lsa id).isMaxage, quiet.now]
    exact isMaxage_setMaxage ospf (listed.past id known)

section
variable (listed : ospf.Listed)
include listed

theorem Listed.ospfLsaFlushArea {id} (target : ospf.installed id = some id) (area : AreaId) :
    (ospf.ospfLsaFlushArea id area).Listed :=
  listed.flush target (quiet_floodThroughArea _ area none id)

theorem Listed.ospfLsaFlushAs {id} (target : ospf.installed id = some id) :
    (ospf.ospfLsaFlushAs id).Listed :=
  listed.flush target (quiet_floodThroughAs _ none id)

theorem Listed.ospfLsaFlushSchedule {id}
    (target : (ospf.lsa id).self = true → ospf.installed id = some id) :
    (ospf.ospfLsaFlushSchedule id).Listed := by
  rw [Ospf.ospfLsaFlushSchedule]
  split
  · rename_i self
    exact listed.flush (target self) .refl
  · exact listed

theorem Listed.ospfLsaAction
    (target : ∀ entry ∈ ospf.lsaActions.head?, ospf.installed entry.2 = some entry.2) :
    ospf.ospfLsaAction.Listed := by
  rw [Ospf.ospfLsaAction]
  split
  · exact listed
  · rename_i area id rest waiting
    have here : ospf.installed id = some id := target (area, id) (by rw [waiting, head?_cons]; rfl)
    have taken : ({ ospf with lsaActions := rest } : Ospf).Listed :=
      listed.congr ⟨rfl, rfl, fun _ => .refl _, fun _ _ _ => rfl⟩ rfl
    exact (taken.ospfLsaFlushArea here area).congr (alike_unlock _ id) rfl

theorem Listed.installAndFlood {id} (known : id < ospf.fresh) :
    (installAndFlood (ospf, id)).Listed :=
  (listed.ospfLsaInstall known).quiet (quiet_floodThrough _ none id)

theorem Listed.lsaNew (key : LsaKey) (seqnum : BitVec 32) (area : Option AreaId) (options : Octet)
    (body : List Octet) :
    (Ospf.installAndFlood (ospf.lsaNew key seqnum area options body)).Listed :=
  (listed.ospfLsaNew ..).installAndFlood (Nat.lt_succ_self _)

theorem Listed.originate (key : LsaKey) (area : Option AreaId) (options : Octet)
    (body : List Octet) :
    (ospf.originate key area options body).Listed :=
  listed.lsaNew ..

theorem Listed.refresh (lsa : LsaId) (key : LsaKey) (area : Option AreaId) (options : Octet)
    (body : List Octet) : (ospf.refresh lsa key area options body).Listed :=
  listed.lsaNew ..

theorem Listed.discard (id : LsaId) : (ospf.ospfLsaDiscard id).Listed :=
  listed.congr (alike_discard ospf id) (maxageLsa_discard ospf id)

end

theorem maxageLsa_selfOriginated (ospf : Ospf) (id : LsaId) :
    (ospf.ospfLsaIsSelfOriginated id).maxageLsa = ospf.maxageLsa := by
  rw [ospfLsaIsSelfOriginated]
  split <;> rfl

theorem maxageLsa_delayedAck (ospf : Ospf) (nbr : NbrId) (id : LsaId) :
    (ospf.ospfFloodDelayedLsaAck nbr id).maxageLsa = ospf.maxageLsa := by
  rw [ospfFloodDelayedLsaAck]
  split <;> rfl

section
variable (listed : ospf.Listed)
include listed

theorem Listed.ospfFlood {nbr current} (known : new < ospf.fresh)
    (flooded : ospf.ospfFlood nbr current new = some after) : after.Listed := by
  rw [Ospf.ospfFlood] at flooded
  split at flooded
  · cases flooded
  · have through := quiet_floodThrough ospf (some nbr) new
    have swept := through.trans (quiet_sweepCurrent _ nbr current)
    have received := (listed.quiet swept).congr (alike_setReceived _ new) rfl
    have marked := received.congr (alike_selfOriginated _ new) (maxageLsa_selfOriginated _ new)
    have fresh :=
      ((swept.alike.trans (alike_setReceived _ new)).trans (alike_selfOriginated _ new)).fresh
    have installed := marked.ospfLsaInstall (fresh ▸ known)
    cases flooded
    split
    · exact installed.congr (alike_delayedAck _ nbr new) (maxageLsa_delayedAck _ nbr new)
    · exact installed

section
variable (nbr : NbrId)
include nbr

theorem Listed.flood_getD (current : Option LsaId) (known : new < ospf.fresh) :
    ((ospf.ospfFlood nbr current new).getD (ospf.ospfLsaDiscard new)).Listed := by
  cases flooded : ospf.ospfFlood nbr current new with
  | none => exact listed.discard new
  | some after => exact listed.ospfFlood known flooded

theorem Listed.ackSend (id : LsaId) : (ospf.ospfLsAckSend nbr id).Listed :=
  listed.congr (alike_ackSend ospf nbr id) rfl

theorem Listed.notMoreRecent (current new : LsaId) :
    (ospf.notMoreRecent nbr current new).Listed := by
  rw [Ospf.notMoreRecent]
  dsimp only
  split
  · exact listed.discard new
  · split
    · split
      · rename_i lsRet found
        have gone := listed.quiet (quiet_retransmitDelete ospf found)
        split
        · exact (gone.ackSend nbr new).discard new
        · exact gone.discard new
      · exact (listed.ackSend nbr new).discard new
    · split
      · exact listed.discard new
      · split
        · exact (listed.congr (alike_sendLsa ospf _ current) rfl).discard new
        · exact listed.discard new

theorem Listed.receiveLsa (known : new < ospf.fresh) : (ospf.receiveLsa nbr new).Listed := by
  rw [Ospf.receiveLsa]
  split
  · exact listed.discard new
  · split
    · split
      · exact (listed.ackSend nbr new).discard new
      · exact listed.flood_getD nbr none known
    · rename_i current found
      split
      · exact listed.flood_getD nbr (some current) known
      · exact listed.notMoreRecent nbr current new

theorem Listed.ospfLsUpd (data : LsaHeader) (body : List Octet) :
    (ospf.ospfLsUpd nbr data body).Listed := by
  rw [Ospf.ospfLsUpd]
  split
  · exact listed
  · split
    · exact listed
    · exact (listed.ospfLsaNew ..).receiveLsa nbr (Nat.lt_succ_self _)

theorem Listed.ospfLsAck (data : LsaHeader) : (ospf.ospfLsAck nbr data).Listed := by
  rw [Ospf.ospfLsAck]
  split
  · exact listed
  · split
    · exact listed
    · rename_i lsr found
      split
      · exact listed.quiet (quiet_retransmitDelete ospf found)
      · exact listed

end

theorem Listed.walked {id} (member : id ∈ ospf.walked) : ospf.installed id = some id := by
  obtain ⟨db, place, stored⟩ := mem_flatMap.mp member
  obtain ⟨entry, present, info⟩ := mem_filterMap.mp stored
  have own : db.own = true := by
    rcases mem_append.mp place with area | single
    · obtain ⟨area, -, rfl⟩ := mem_map.mp area
      rfl
    · rw [mem_singleton.mp single]
      rfl
  have found : (ospf.lsdb db).lookup entry.1 = some id := by
    rw [Lsdb.lookup, AList.lookup, mem_dlookup (ospf.lsdb db).nodes.nodupKeys present]
    exact info
  obtain ⟨-, key_eq, db_eq⟩ := listed.filed db own entry.1 id found
  rw [installed, key_eq, db_eq, found]

theorem Listed.walkerRemover {id} (current : ospf.installed id = some id) :
    (ospf.ospfLsaMaxageWalkerRemover id).Listed ∧
    Alike ospf (ospf.ospfLsaMaxageWalkerRemover id) := by
  rw [ospfLsaMaxageWalkerRemover]
  split
  · rename_i old
    have alike := alike_selfOriginated ospf id
    have marked := listed.congr alike (maxageLsa_selfOriginated ospf id)
    dsimp only
    split
    · exact ⟨marked, alike⟩
    · refine ⟨marked.ospfLsaMaxage ((alike.installed id).trans current) ?_,
        alike.trans (alike_maxage _ id)⟩
      rw [(alike.lsa id).isMaxage, alike.now]
      exact old
  · exact ⟨listed, .refl⟩

theorem Listed.walk {ids : List LsaId} (current : ∀ id ∈ ids, ospf.installed id = some id) :
    (ids.foldl ospfLsaMaxageWalkerRemover ospf).Listed := by
  induction ids generalizing ospf with
  | nil => exact listed
  | cons id rest ih =>
    obtain ⟨kept, alike⟩ := listed.walkerRemover (current id mem_cons_self)
    exact ih kept fun other member =>
      (alike.installed other).trans (current other (mem_cons_of_mem id member))

/-- What a run of the remover did, when it processed these entries. -/
structure Removes (before after : Ospf) (processed : List LsaId) : Prop where
  listed : after.Listed
  now : after.now = before.now
  maxageLsa : ∀ id, id ∈ after.maxageLsa ↔ id ∈ before.maxageLsa ∧ id ∉ processed
  old : ∀ id ∈ processed, (before.lsa id).isMaxage before.now = true
  lsa : ∀ id, (before.lsa id).Alike (after.lsa id)
  lookup : ∀ db, db.own = true → ∀ key, (after.lsdb db).lookup key = (before.lsdb db).lookup key ∨
    ∃ id ∈ processed, (before.lsdb db).lookup key = some id ∧ (after.lsdb db).lookup key = none
  discard : ∀ id, id ∉ processed → (after.lsa id).discard = (before.lsa id).discard

theorem Listed.removes_nil : Removes ospf ospf [] where
  listed := listed
  now := rfl
  maxageLsa := fun id => by simp
  old := fun id member => nomatch member
  lsa := fun id => .refl _
  lookup := fun db own key => .inl rfl
  discard := fun id apart => rfl

end

theorem Removes.trans {middle first second} (before : Removes ospf middle first)
    (rest : Removes middle after second) : Removes ospf after (first ++ second) where
  listed := rest.listed
  now := rest.now.trans before.now
  maxageLsa := fun id => by rw [rest.maxageLsa, before.maxageLsa, mem_append, not_or, and_assoc]
  old := fun id member => by
    rcases mem_append.mp member with member | member
    · exact before.old id member
    · have old := rest.old id member
      rwa [before.now, (before.lsa id).isMaxage] at old
  lsa := fun id => (before.lsa id).trans (rest.lsa id)
  lookup := fun db own key => by
    rcases before.lookup db own key with same | ⟨id, member, found, missing⟩
    · rcases rest.lookup db own key with later | ⟨id, member, found, missing⟩
      · exact .inl (later.trans same)
      · exact .inr ⟨id, mem_append_right first member, same ▸ found, missing⟩
    · refine .inr ⟨id, mem_append_left second member, found, ?_⟩
      rcases rest.lookup db own key with later | ⟨other, -, again, -⟩
      · exact later.trans missing
      · rw [missing] at again
        cases again
  discard := fun id apart => by
    rw [mem_append, not_or] at apart
    exact (rest.discard id apart.2).trans (before.discard id apart.1)

theorem discard_core {lsa other : OspfLsa} (same : other.core = lsa.core) :
    other.discard = lsa.discard :=
  (congrArg discard same : other.core.discard = lsa.core.discard)

theorem discard_maxageDelete (ospf : Ospf) (id other : LsaId) :
    ((ospf.ospfLsaMaxageDelete id).lsa other).discard = (ospf.lsa other).discard := by
  rw [ospfLsaMaxageDelete]
  split
  · exact discard_core ((quiet_ospfLsaUnlock ospf.toStore id : Store.Quiet .as _ _).core other)
  · rfl

theorem discard_ospfLsaDiscard (ospf : Ospf) {id : LsaId} (apart : other ≠ id) :
    ((ospf.ospfLsaDiscard id).lsa other).discard = (ospf.lsa other).discard := by
  rw [ospfLsaDiscard]
  split
  · rfl
  · have unlocked :=
      (quiet_ospfLsaUnlock
      (ospf.onStore (·.modifyLsa id fun lsa => { lsa with discard := true })).toStore id :
      Store.Quiet .as _ _).core other
    refine (discard_core unlocked).trans ?_
    exact congrArg discard (update_of_ne apart ..)

section
variable (listed : ospf.Listed)
include listed

theorem Listed.ospfLsdbDelete {id} (current : ospf.installed id = some id)
    (unlisted : id ∉ ospf.maxageLsa) :
    (ospf.onStore (·.ospfLsdbDelete (ospf.lsdbOf id) id)).Listed := by
  have quiet := quiet_ospfLsdbDelete ospf.toStore (ospf.lsdbOf id) id
  have lsa (other : LsaId) :
      (ospf.lsa other).Alike ((ospf.onStore (·.ospfLsdbDelete (ospf.lsdbOf id) id)).lsa other) :=
    alike_of_core (quiet.core other)
  refine ⟨?_, ?_, listed.nodup, ?_, ?_⟩
  · intro db own key other found
    rw [lookup_delete ospf current] at found
    rw [lsdbOf_of_lsa (lsa other), (lsa other).key]
    split at found
    · cases found
    · exact listed.filed db own key other found
  · intro other below
    rw [(lsa other).tvRecv]
    exact listed.past other below
  · intro other member
    have here := listed.current other member
    rw [installed, lsdbOf_of_lsa (lsa other), (lsa other).key, lookup_delete ospf current]
    split
    · rename_i place
      -- one key has one instance, and this one is not on the list
      rw [installed, place.1, place.2, ← installed, current, some.injEq] at here
      exact absurd (here ▸ member) unlisted
    · exact here
  · intro other member
    rw [(lsa other).isMaxage]
    exact listed.old other member

theorem Listed.removeEntry {id : LsaId} (member : id ∈ ospf.maxageLsa) :
    Removes ospf (ospf.removeEntry id) [id] := by
  have quiet := quiet_floodThrough ospf none id
  have flooded := listed.quiet quiet
  have current := (quiet.alike.installed id).trans (listed.current id member)
  obtain ⟨discarded, members⟩ := flooded.ospfDiscardFromDb id
  have alike := quiet.alike.trans (alike_discardFromDb _ id)
  have here := (alike.installed id).trans (listed.current id member)
  have unlisted :=  fun still => ((members id).mp still).1 current
  have gone := quiet_ospfLsdbDelete ((ospf.ospfFloodThrough none id).1.ospfDiscardFromDb id).toStore
    (((ospf.ospfFloodThrough none id).1.ospfDiscardFromDb id).lsdbOf id) id
  refine ⟨discarded.ospfLsdbDelete here unlisted, alike.now, ?_, ?_, ?_, ?_, ?_⟩
  · intro other
    refine (members other).trans ?_
    rw [current, quiet.maxageLsa, ne_eq, some.injEq, mem_singleton, and_comm, @eq_comm _ id]
  · intro other single
    rw [mem_singleton.mp single]
    exact listed.old id member
  · exact fun other => (alike.lsa other).trans (alike_of_core (gone.core other))
  · intro db own key
    rw [Ospf.removeEntry, lookup_delete _ here, alike.lookup db own]
    split
    · rename_i place
      refine .inr ⟨id, mem_singleton_self id, ?_, rfl⟩
      have found := listed.current id member
      rwa [installed, ← alike.lsdbOf id, ← (alike.lsa id).key, ← place.1, ← place.2] at found
    · exact .inl rfl
  · intro other apart
    rw [mem_singleton] at apart
    refine (discard_core (gone.core other)).trans ?_
    rw [Ospf.ospfDiscardFromDb, current]
    refine (discard_ospfLsaDiscard _ apart).trans ?_
    rw [discard_maxageDelete]
    exact discard_core ((quiet.trans (quiet_sweepRetransmit _ id)).core other)

/-- Induction over the entries that the loop still has ahead, all of them on the list. -/
theorem Listed.removerLoop {ids} (nodup : ids.Nodup) (ahead : ∀ id ∈ ids, id ∈ ospf.maxageLsa) :
    Removes ospf (ospf.removerLoop ids).1 (ospf.removerLoop ids).2 := by
  induction ids generalizing ospf with
  | nil => exact listed.removes_nil
  | cons id rest ih =>
    obtain ⟨apart, unique⟩ := nodup_cons.mp nodup
    rw [removerLoop]
    split
    · exact ih listed unique fun other member => ahead other (mem_cons_of_mem id member)
    · have entry := listed.removeEntry (ahead id mem_cons_self)
      refine entry.trans (ih entry.listed unique fun other member => ?_)
      rw [entry.maxageLsa, mem_singleton]
      exact ⟨ahead other (mem_cons_of_mem id member), fun same => apart (same ▸ member)⟩

theorem Listed.ospfMaxageLsaRemover :
    Removes ospf ospf.ospfMaxageLsaRemover.1 ospf.ospfMaxageLsaRemover.2 := by
  rw [Ospf.ospfMaxageLsaRemover]
  split
  · exact listed.removerLoop listed.nodup fun id member => member
  · exact listed.removes_nil

theorem Listed.tick (elapsed : Nat) : ({ ospf with now := ospf.now + elapsed } : Ospf).Listed := by
  have later : ospf.now ≤ ospf.now + elapsed :=
    Int.le_add_of_nonneg_right (Int.natCast_nonneg elapsed)
  exact ⟨listed.filed, fun id below => Int.le_trans (listed.past id below) later, listed.nodup,
    listed.current,
    fun id member => isMaxage_mono later (listed.old id member)⟩

end
end Ospf

/-- The instance that a step flushes, also one whose flush was scheduled and runs now. -/
def Ospf.flushes (ospf : Ospf) : OspfOp → Option LsaId
  | .flushArea id _ | .flushAs id => some id
  | .flushSchedule id => if (ospf.lsa id).self then some id else none
  | .action => ospf.lsaActions.head?.map Prod.snd
  | _ => none

/-- Every flush finds its target in the database. -/
def Ospf.FlushesCurrent (ospf : Ospf) (op : OspfOp) : Prop :=
  ∀ id ∈ ospf.flushes op, ospf.installed id = some id

instance (ospf : Ospf) (op : OspfOp) : Decidable (ospf.FlushesCurrent op) :=
  inferInstanceAs (Decidable (∀ id ∈ ospf.flushes op, ospf.installed id = some id))

namespace Ospf
variable {ospf : Ospf}

theorem Listed.step (listed : ospf.Listed) {op : OspfOp} (current : ospf.FlushesCurrent op) :
    (ospf.step op).Listed := by
  cases op with
  | tick elapsed => exact listed.tick elapsed
  | nbrState nbr state => exact listed.congr ⟨rfl, rfl, fun _ => .refl _, fun _ _ _ => rfl⟩ rfl
  | lsUpd nbr data body => exact listed.ospfLsUpd nbr data body
  | lsAck nbr data => exact listed.ospfLsAck nbr data
  | routerOriginate area options body =>
    rw [Ospf.step, ospfRouterLsaOriginate]
    split
    · exact (listed.ospfLsaNew ..).discard _
    · exact listed.originate ..
  | networkOriginate area dr fullNbrs options body =>
    rw [Ospf.step, ospfNetworkLsaOriginate]
    split
    · exact listed
    · exact listed.originate ..
  | summaryOriginate area id options body => exact listed.originate ..
  | summaryAsbrOriginate area id options body => exact listed.originate ..
  | externalOriginate id options body =>
    rw [Ospf.step, ospfExternalLsaOriginate]
    split
    · exact listed
    · exact listed.originate ..
  | routerRefresh lsa options body =>
    exact (listed.quiet (quiet_deleteNbrArea ospf _ lsa)).refresh ..
  | networkRefresh lsa dr fullNbrs options body =>
    have swept := listed.quiet (quiet_deleteNbrArea ospf (ospf.areaOf lsa) lsa)
    rw [Ospf.step, ospfNetworkLsaRefresh]
    split
    · exact swept
    · exact swept.refresh ..
  | summaryRefresh lsa options body => exact listed.refresh ..
  | summaryAsbrRefresh lsa options body => exact listed.refresh ..
  | externalRefresh lsa options body => exact (listed.quiet (quiet_deleteNbrAs ospf lsa)).refresh ..
  | flushArea id area => exact listed.ospfLsaFlushArea (current id rfl) area
  | flushAs id => exact listed.ospfLsaFlushAs (current id rfl)
  | flushSchedule id => exact listed.ospfLsaFlushSchedule fun self => current id (if_pos self)
  | scheduleFlushArea area id =>
    exact listed.congr ⟨rfl, rfl, (alike_lock ospf id).lsa, fun _ _ _ => rfl⟩ rfl
  | action =>
    exact listed.ospfLsaAction fun entry first => current entry.2 (mem_map_of_mem Prod.snd first)
  | maxageWalker => exact listed.walk fun id member => listed.walked member
  | maxageRemover => exact listed.ospfMaxageLsaRemover.listed

theorem Started.lookup (started : ospf.Started) (db : DbId) (key : LsaKey) :
    (ospf.lsdb db).lookup key = none := by
  rw [lsdb, started.lsdbs]
  rfl

theorem Started.listed (started : ospf.Started) : ospf.Listed where
  filed := fun db own key id found => by
    rw [started.lookup db key] at found
    cases found
  past := fun id below => absurd below (started.fresh ▸ Nat.not_lt_zero id)
  nodup := started.maxageLsa ▸ nodup_nil
  current := fun id member => absurd (started.maxageLsa ▸ member) not_mem_nil
  old := fun id member => absurd (started.maxageLsa ▸ member) not_mem_nil

/-- The list and its remover, in one state. -/
structure RemovesMaxage (ospf : Ospf) : Prop where
  current : ∀ id ∈ ospf.maxageLsa, ospf.installed id = some id
  old : ∀ id ∈ ospf.maxageLsa, (ospf.lsa id).isMaxage ospf.now = true
  removed : ∀ db, db.own = true → ∀ key id, (ospf.lsdb db).lookup key = some id →
    (ospf.ospfMaxageLsaRemover.1.lsdb db).lookup key ≠ some id →
      (ospf.lsa id).isMaxage ospf.now = true
  discarded : ∀ id, (ospf.ospfMaxageLsaRemover.1.lsa id).discard = true →
    (ospf.lsa id).discard = true ∨
    (ospf.lsa id).isMaxage ospf.now = true
  processed : ∀ id ∈ ospf.ospfMaxageLsaRemover.2, id ∉ ospf.ospfMaxageLsaRemover.1.maxageLsa

theorem Listed.removesMaxage (listed : ospf.Listed) : ospf.RemovesMaxage where
  current := listed.current
  old := listed.old
  removed := fun db own key id found gone => by
    have removes := listed.ospfMaxageLsaRemover
    rcases removes.lookup db own key with same | ⟨other, member, here, -⟩
    · exact absurd (same.trans found) gone
    · rw [found, some.injEq] at here
      exact here ▸ removes.old other member
  discarded := fun id flagged => by
    have removes := listed.ospfMaxageLsaRemover
    by_cases member : id ∈ ospf.ospfMaxageLsaRemover.2
    · exact .inr (removes.old id member)
    · exact .inl (removes.discard id member ▸ flagged)
  processed := fun id member still => ((listed.ospfMaxageLsaRemover.maxageLsa id).mp still).2 member

end Ospf

/-- From a router that starts, every run whose flushes find their targets in the database. -/
theorem maxageLsaRemover_removes_maxage {ospf : Ospf} (started : ospf.Started) {ops : List OspfOp}
    (run : Allowed step FlushesCurrent ospf ops) : (ops.foldl step ospf).RemovesMaxage :=
  (run.invariant (fun _ _ current listed => listed.step current) started.listed).removesMaxage

/-! A network-LSA of an interface address of our own under another router's name. -/

def loneNeighbour : OspfNeighbor where
  oi := 1
  routerId := 0x02020202
  address := 0x0a000002
  state := .full

def loneInterface : OspfInterface where
  id := 1
  area := 0
  address := 0x0a000001
  nbrs := [2]

def loneRouter : Ospf where
  lsa := fun _ => { data := { key := ⟨.router, 0, 0⟩, lsSeqnum := 0 } }
  routerId := 0x01010101
  areas := [{ id := 0 }]
  oiflist := [loneInterface]
  nbr := fun _ => loneNeighbour

def foreignBody : List Octet := [255, 255, 255, 0, 1, 1, 1, 1, 2, 2, 2, 2]

def foreignNetwork (seqnum : BitVec 32) : LsaHeader :=
  let data : LsaHeader :=
    { key := ⟨.network, 0x0a000001, 0x02020202⟩, lsSeqnum := seqnum, length := 32 }
  { data with checksum := ospfLsaChecksum { data := data, body := foreignBody } }

def lateFlush : List OspfOp :=
  [.lsUpd 2 (foreignNetwork 0x80000001) foreignBody, .scheduleFlushArea 0 0,
    .lsUpd 2 (foreignNetwork 0x80000002) foreignBody, .action]

/-- The list has the instance that was replaced. The acknowledgement lets the remover process it:
the instance of the database is discarded, not being MaxAge, and the entry stays. -/
theorem lateFlush_removes_current :
    let reached := lateFlush.foldl step loneRouter
    let acked := reached.step (.lsAck 2 (foreignNetwork 0x80000001))
    (0 ∈ reached.maxageLsa ∧ reached.installed 0 = some 1) ∧
      ((acked.lsa 1).isMaxage acked.now = false ∧ (acked.lsa 1).discard = false ∧
        (acked.ospfMaxageLsaRemover.1.lsa 1).discard = true) ∧
      0 ∈ acked.ospfMaxageLsaRemover.2 ∧ 0 ∈ acked.ospfMaxageLsaRemover.1.maxageLsa := by
  decide +kernel

theorem loneRouter_flush_removes_maxage :
    ([.lsUpd 2 (foreignNetwork 0x80000001) foreignBody, .scheduleFlushArea 0 0, .action].foldl step
      loneRouter).RemovesMaxage :=
  maxageLsaRemover_removes_maxage ⟨rfl, rfl, rfl, rfl⟩ (by decide +kernel)

end Zebra.Ospfd
