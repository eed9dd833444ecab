import Zebra.Ospfd.NbrLists

namespace Zebra.Ospfd
open Base Store Lsdb OspfLsa Function List Ospf Bool
variable (id : LsaId)

namespace Store
variable {store other : Store}

theorem Accounted.congr (accounted : store.Accounted) (lsdbs : other.lsdbs = store.lsdbs)
    (same : ∀ db key id, (store.lsdb db).lookup key = some id →
      (other.lsa id).key = (store.lsa id).key ∧ (other.lsa id).self = (store.lsa id).self)
    (locks : ∀ id, (other.lsa id).lock - other.held id = (store.lsa id).lock - store.held id) :
    other.Accounted := by
  have lsdb (db : DbId) : other.lsdb db = store.lsdb db := by rw [lsdb, lsdbs, lsdb]
  have here (db : DbId) : (store.lsdb db).Accounted other.lsa :=
    (accounted.lsdbs db).congr (same db)
  refine ⟨fun db => (lsdb db).symm ▸ here db, fun id => ?_⟩
  have stores : tally (stores other.lsa id) store.lsdbs =
      tally (stores store.lsa id) store.lsdbs := by
    apply tally_congr
    intro db found present
    have whole : store.lsdb db = found := by
      rw [Store.lsdb, present]
      rfl
    rw [stores, stores, ← whole, decide_eq_decide]
    constructor
    · intro now
      rwa [← (same db _ id now).1]
    · intro before
      rwa [(same db _ id before).1]
  have before := accounted.locks id
  have moved := locks id
  rw [lsdbs]
  omega

theorem modifyLsa_field {Field : Type} (field : OspfLsa → Field) (store : Store) (id : LsaId)
    (change : OspfLsa → OspfLsa)
    (same : field (change (store.lsa id)) = field (store.lsa id)) (other : LsaId) :
    field ((store.modifyLsa id change).lsa other) = field (store.lsa other) := by
  by_cases here : other = id
  · subst here
    rw [modifyLsa_self, same]
  · rw [modifyLsa_of_ne store change here]

section
variable (accounted : store.Accounted)
include accounted

theorem Accounted.modify {id change}
    (key : (change (store.lsa id)).key = (store.lsa id).key)
    (lock : (change (store.lsa id)).lock = (store.lsa id).lock)
    (self : (change (store.lsa id)).self = (store.lsa id).self ∨
      ∀ db, (store.lsdb db).lookup (store.lsa id).key ≠ some id) :
    (store.modifyLsa id change).Accounted := by
  refine accounted.congr rfl (fun db at_key found present => ?_) fun found => ?_
  · by_cases same : found = id
    · subst same
      rw [modifyLsa_self]
      refine ⟨key, self.resolve_right fun absent => absent db ?_⟩
      rwa [((accounted.lsdbs db).lookup_eq present).2]
    · rw [modifyLsa_of_ne store change same]
      exact ⟨rfl, rfl⟩
  · rw [modifyLsa_field OspfLsa.lock store id change lock found]
    rfl

theorem Accounted.hold (amount : Int) :
    ({ store.lockLsa id amount with
      held := update store.held id (store.held id + amount) } : Store).Accounted := by
  refine accounted.congr rfl (fun _ _ found _ => lockLsa_same store id amount found) fun found => ?_
  have lock := lockLsa_lock store id amount found
  change ((store.lockLsa id amount).lsa found).lock - update store.held id
    (store.held id + amount) found = _
  by_cases same : found = id
  · subst same
    rw [if_pos rfl] at lock
    rw [update_self]
    omega
  · rw [if_neg same] at lock
    rw [update_of_ne same]
    omega

theorem Accounted.ospfLsaLock : (store.ospfLsaLock id).Accounted :=
  accounted.hold id 1

theorem Accounted.ospfLsaUnlock : (store.ospfLsaUnlock id).Accounted :=
  accounted.hold id (-1)

end
end Store

namespace Ospf

/-- The accounting is right, and everything that is stored or listed was given out. -/
structure Sound (ospf : Ospf) : Prop where
  accounted : ospf.toStore.Accounted
  stored : ∀ db key id, (ospf.lsdb db).lookup key = some id → id < ospf.fresh
  maxageLsa : ∀ id ∈ ospf.maxageLsa, id < ospf.fresh
  lsaActions : ∀ entry ∈ ospf.lsaActions, entry.2 < ospf.fresh

variable {ospf after : Ospf} {added : LsaId}

section
variable (sound : ospf.Sound)
include sound

theorem Sound.congr (accounted : after.toStore.Accounted) (fresh : after.fresh = ospf.fresh)
    (stored : ∀ db key id, (after.lsdb db).lookup key = some id →
      (ospf.lsdb db).lookup key = some id)
    (maxageLsa : after.maxageLsa ⊆ ospf.maxageLsa)
    (lsaActions : after.lsaActions ⊆ ospf.lsaActions) : after.Sound where
  accounted := accounted
  stored := fun db key id found => fresh ▸ sound.stored db key id (stored db key id found)
  maxageLsa := fun id member => fresh ▸ sound.maxageLsa id (maxageLsa member)
  lsaActions := fun entry member => fresh ▸ sound.lsaActions entry (lsaActions member)

theorem Sound.modify {id change}
    (key : (change (ospf.lsa id)).key = (ospf.lsa id).key)
    (lock : (change (ospf.lsa id)).lock = (ospf.lsa id).lock)
    (self : (change (ospf.lsa id)).self = (ospf.lsa id).self ∨
      ∀ db, (ospf.lsdb db).lookup (ospf.lsa id).key ≠ some id) :
    (ospf.onStore (·.modifyLsa id change)).Sound :=
  sound.congr (sound.accounted.modify key lock self) rfl (fun _ _ _ found => found) (Subset.refl _)
    (Subset.refl _)

theorem Sound.lock : (ospf.onStore (·.ospfLsaLock id)).Sound :=
  sound.congr (sound.accounted.ospfLsaLock id) rfl (fun _ _ _ found => found) (Subset.refl _)
    (Subset.refl _)

theorem Sound.unlock : (ospf.onStore (·.ospfLsaUnlock id)).Sound :=
  sound.congr (sound.accounted.ospfLsaUnlock id) rfl (fun _ _ _ found => found) (Subset.refl _)
    (Subset.refl _)

end

variable {db : DbId} {key : LsaKey} {nbr : NbrId} {other new : LsaId} {current : Option LsaId}
  {body : List Octet}

section
variable (sound : ospf.Sound)
include sound

theorem Sound.delete {id} (same : ospf.toStore.DeletesSame db id) :
    (ospf.onStore (·.ospfLsdbDelete db id)).Sound :=
  sound.congr (sound.accounted.ospfLsdbDelete same) rfl (fun _ _ _ still => lookup_deleted still)
    (Subset.refl _)
    (Subset.refl _)

theorem Sound.add {id} (known : id < ospf.fresh) (apart : ospf.toStore.AddsApart db id) :
    (ospf.onStore (·.ospfLsdbAdd db id)).Sound where
  accounted := sound.accounted.ospfLsdbAdd apart
  stored := fun at_db key found present => by
    rw [lookup_add] at present
    split at present
    · cases present
      exact known
    · exact sound.stored at_db key found present
  maxageLsa := sound.maxageLsa
  lsaActions := sound.lsaActions

theorem Sound.deleteAll (db : DbId) : (ospf.onStore (·.ospfLsdbDeleteAll db)).Sound :=
  sound.congr (sound.accounted.ospfLsdbDeleteAll db) rfl
    (fun _ _ _ still => lookup_ospfLsdbDeleteAll still)
    (Subset.refl _) (Subset.refl _)

/-- What is found under a key has that key, so a deletion finds it again. -/
theorem Sound.deletesSame {id} (found : (ospf.lsdb db).lookup key = some id) :
    ospf.toStore.DeletesSame db id := by
  intro stored present
  rw [((sound.accounted.lsdbs db).lookup_eq found).2] at present
  exact Option.some.inj (present.symm.trans found)

theorem Sound.count (amount : Int) : (ospf.count id amount).Sound :=
  sound.modify rfl rfl (.inl rfl)

theorem Sound.enlist {id} (known : id < ospf.fresh)
    (missing : (ospf.lsdb (.lsRxmt nbr)).lookup (ospf.lsa id).key = none) :
    ((ospf.count id 1).onStore (·.ospfLsdbAdd (.lsRxmt nbr) id)).Sound := by
  refine (sound.count id 1).add known fun old present => ?_
  have key := ((quiet_count ospf id 1).alike.lsa id).key
  rw [key] at present
  exact absurd (missing.symm.trans present) (Option.some_ne_none old).symm

theorem Sound.delist {id} (found : (ospf.lsdb (.lsRxmt nbr)).lookup key = some id) :
    ((ospf.count id (-1)).onStore (·.ospfLsdbDelete (.lsRxmt nbr) id)).Sound ∧
      (((ospf.count id (-1)).onStore (·.ospfLsdbDelete (.lsRxmt nbr) id)).lsdb (.lsRxmt nbr)).lookup
        key = none := by
  have counted := sound.count id (-1)
  have found' := found
  have key_eq := ((counted.accounted.lsdbs (.lsRxmt nbr)).lookup_eq found').2
  refine ⟨counted.delete (counted.deletesSame found'), ?_⟩
  refine (lookup_ospfLsdbDelete (ospf.count id (-1)).toStore (.lsRxmt nbr) id key).trans
    (if_pos ⟨key_eq.symm, ?_⟩)
  rw [key_eq]
  exact found'

theorem Sound.retransmitAdd (nbr : NbrId) {id} (known : id < ospf.fresh) :
    (ospf.ospfLsRetransmitAdd nbr id).Sound := by
  rw [ospfLsRetransmitAdd]
  split
  · cases found : ospf.ospfLsRetransmitLookup nbr id with
    | none => exact sound.enlist known found
    | some old =>
      obtain ⟨gone, missing⟩ := sound.delist found
      have quiet := (quiet_count ospf old (-1)).trans (@quiet_delete _ (.lsRxmt nbr) rfl old)
      refine gone.enlist known ?_
      rw [(quiet.alike.lsa id).key]
      exact missing
  · exact sound

theorem Sound.requestDelete {id} (found : (ospf.lsdb (.lsReq nbr)).lookup key = some id) :
    (ospf.ospfLsRequestDelete nbr id).Sound := by
  rw [ospfLsRequestDelete]
  split
  · have unlocked := sound.unlock id
    have turned : ({ ospf.onStore (·.ospfLsaUnlock id) with
        nbr := update ospf.nbr nbr { ospf.nbr nbr with lsReqLast := none } } : Ospf).Sound :=
      ⟨unlocked.accounted, unlocked.stored, unlocked.maxageLsa, unlocked.lsaActions⟩
    exact turned.delete (turned.deletesSame found)
  · exact sound.delete (sound.deletesSame found)

theorem Sound.turn (known : added < ospf.fresh) (turn : Turn added ospf after) : after.Sound := by
  cases turn with
  | retransmitAdd nbr ready => exact sound.retransmitAdd nbr known
  | retransmitDelete nbr found =>
    rw [ospfLsRetransmitDelete]
    split
    · exact (sound.delist found).1
    · exact sound
  | requestDelete nbr found => exact sound.requestDelete found
  | send dst =>
    have locked := sound.lock added
    exact ⟨locked.accounted, locked.stored, locked.maxageLsa, locked.lsaActions⟩

theorem Sound.turns (known : added < ospf.fresh) (turns : Turns added ospf after) :
    after.Sound := by
  induction turns with
  | refl => exact sound
  | tail before turn ih => exact ih.turn ((Turns.quiet before).fresh ▸ known) turn

end

section
variable (sound : ospf.Sound)
include sound

theorem Sound.lsaNew (data : LsaHeader) (body : List Octet) (area : Option AreaId) (self : Bool) :
    (ospf.ospfLsaNew data body area self).1.Sound := by
  have unstored (db : DbId) (key : LsaKey) : (ospf.lsdb db).lookup key ≠ some ospf.fresh :=
    fun found => lt_irrefl _ (sound.stored db key _ found)
  refine ⟨sound.accounted.congr rfl (fun db key id found => ?_) fun id => ?_,
    fun db key id found => ?_, fun id member => ?_,
    fun entry member => ?_⟩
  · have apart : id ≠ ospf.fresh := fun same => unstored db key (same ▸ found)
    rw [lsaNew_of_ne ospf data body area self apart]
    exact ⟨rfl, rfl⟩
  · by_cases same : id = ospf.fresh
    · subst same
      have free : tally (stores ospf.lsa ospf.fresh) ospf.lsdbs = 0 := by
        apply tally_eq_zero
        intro db lsdb present
        have whole : ospf.lsdb db = lsdb := by
          rw [Store.lsdb, present]
          rfl
        rw [← whole]
        exact decide_eq_false (unstored db _)
      have before := sound.accounted.locks ospf.fresh
      have held : (ospf.ospfLsaNew data body area self).1.held ospf.fresh = 1 := update_self ..
      rw [lsaNew_self]
      dsimp only
      omega
    · have held : (ospf.ospfLsaNew data body area self).1.held id = ospf.held id :=
        update_of_ne same ..
      rw [lsaNew_of_ne ospf data body area self same, held]
  · exact Nat.lt_succ_of_lt (sound.stored db key id found)
  · exact Nat.lt_succ_of_lt (sound.maxageLsa id member)
  · exact Nat.lt_succ_of_lt (sound.lsaActions entry member)

theorem Sound.discard : (ospf.ospfLsaDiscard id).Sound := by
  rw [ospfLsaDiscard]
  split
  · exact sound
  · exact (sound.modify rfl rfl (.inl rfl)).unlock id

theorem Sound.maxageDelete : (ospf.ospfLsaMaxageDelete id).Sound := by
  rw [ospfLsaMaxageDelete]
  split
  · exact sound.congr (sound.accounted.ospfLsaUnlock id) rfl (fun _ _ _ found => found) erase_subset
      (Subset.refl _)
  · exact sound

theorem Sound.maxage {id} (known : id < ospf.fresh) : (ospf.ospfLsaMaxage id).Sound := by
  rw [ospfLsaMaxage]
  split
  · exact sound
  · have locked := sound.lock id
    refine ⟨locked.accounted, locked.stored, fun other member => ?_, locked.lsaActions⟩
    rcases mem_append.mp member with member | member
    · exact sound.maxageLsa other member
    · exact mem_singleton.mp member ▸ known

theorem Sound.discardFromDb : (ospf.ospfDiscardFromDb id).Sound := by
  rw [ospfDiscardFromDb]
  split
  · exact sound
  · rename_i old found
    exact ((sound.turns (sound.stored _ _ old found) (turns_sweepRetransmit ospf old)).maxageDelete
      old).discard old

end

theorem self_core {lsa other : OspfLsa} (same : other.core = lsa.core) : other.self = lsa.self :=
  (congrArg self same : other.core.self = lsa.core.self)

theorem self_discardFromDb (ospf : Ospf) (id other : LsaId) :
    ((ospf.ospfDiscardFromDb id).lsa other).self = (ospf.lsa other).self := by
  have unlocked (ospf : Ospf) (id : LsaId) :
      ((ospf.onStore (·.ospfLsaUnlock id)).lsa other).self = (ospf.lsa other).self :=
    self_core ((quiet_ospfLsaUnlock ospf.toStore id : Store.Quiet .as _ _).core other)
  have dropped (ospf : Ospf) (id : LsaId) :
      ((ospf.ospfLsaMaxageDelete id).lsa other).self = (ospf.lsa other).self := by
    rw [ospfLsaMaxageDelete]
    split
    · exact unlocked ospf id
    · rfl
  have discarded (ospf : Ospf) (id : LsaId) :
      ((ospf.ospfLsaDiscard id).lsa other).self = (ospf.lsa other).self := by
    rw [ospfLsaDiscard]
    split
    · rfl
    · exact (unlocked _ id).trans
        (modifyLsa_field self ospf.toStore id (fun lsa => { lsa with discard := true }) rfl other)
  rw [ospfDiscardFromDb]
  split
  · rfl
  · rename_i old _
    rw [discarded, dropped]
    exact self_core ((quiet_sweepRetransmit ospf old).core other)

/-- What an instance replaces is another one, with the same mark. -/
def ReplacesAlike (ospf : Ospf) (new : LsaId) : Prop :=
  ∀ old ∈ ospf.installed new, old ≠ new ∧ (ospf.lsa old).self = (ospf.lsa new).self

section
variable (sound : ospf.Sound)
include sound

theorem Sound.install (known : new < ospf.fresh) (alike : ospf.ReplacesAlike new) :
    (ospf.ospfLsaInstall new).Sound := by
  have quiet := alike_discardFromDb ospf new
  have placed : (ospf.place new).Sound := by
    refine (sound.discardFromDb new).add (quiet.fresh ▸ known) fun old present => ?_
    rw [self_discardFromDb, self_discardFromDb]
    refine alike old ?_
    rw [(quiet.lsa new).key] at present
    exact (quiet.lookup _ (own_lsdbOf ospf new) _).symm.trans present
  have checked : ((ospf.place new).checksumOwn new).Sound := by
    rw [checksumOwn]
    split
    · exact placed.modify rfl rfl (.inl rfl)
    · exact placed
  rw [ospfLsaInstall, maxageOther]
  split
  · exact checked.maxage
      (((alike_checksumOwn (ospf.place new) new).fresh.trans quiet.fresh) ▸ known)
  · exact checked

theorem Sound.flush {id} (known : id < ospf.fresh) (turns : Turns id (ospf.setMaxage id) after) :
    (after.ospfLsaMaxage id).Sound := by
  have aged : (ospf.setMaxage id).Sound := sound.modify rfl rfl (.inl rfl)
  exact (aged.turns known turns).maxage (turns.quiet.fresh ▸ known)

theorem Sound.action : ospf.ospfLsaAction.Sound := by
  rw [ospfLsaAction]
  split
  · exact sound
  · rename_i area id rest waiting
    have known : id < ospf.fresh :=
      sound.lsaActions (area, id) (by rw [waiting]; exact mem_cons_self)
    have taken : ({ ospf with lsaActions := rest } : Ospf).Sound :=
      ⟨sound.accounted, sound.stored, sound.maxageLsa, fun entry member =>
        sound.lsaActions entry (by rw [waiting]; exact .tail _ member)⟩
    exact (taken.flush known (turns_floodOver _ none _)).unlock id

theorem Sound.installAndFlood (known : new < ospf.fresh) (alike : ospf.ReplacesAlike new) :
    (installAndFlood (ospf, new)).Sound :=
  (sound.install known alike).turns ((install_fresh ospf new).symm ▸ known)
    (turns_floodThrough _ none)

theorem Sound.ackSend (nbr : NbrId) (id : LsaId) : (ospf.ospfLsAckSend nbr id).Sound := by
  have locked := sound.lock id
  exact ⟨locked.accounted, locked.stored, locked.maxageLsa, locked.lsaActions⟩

theorem Sound.delayedAck (nbr : NbrId) (id : LsaId) :
    (ospf.ospfFloodDelayedLsaAck nbr id).Sound := by
  rw [ospfFloodDelayedLsaAck]
  split
  · exact sound
  · exact sound.ackSend nbr id

/-- The check leaves the mark of an instance as it is, or finds the instance in no database. -/
def ChecksApart (ospf : Ospf) (id : LsaId) : Prop :=
  (ospf.lsa id).selfChecked = false → ospf.selfOriginated (ospf.lsa id) = (ospf.lsa id).self ∨
    ∀ db, (ospf.lsdb db).lookup (ospf.lsa id).key ≠ some id

theorem Sound.selfOriginated {id} (apart : ospf.ChecksApart id) :
    (ospf.ospfLsaIsSelfOriginated id).Sound := by
  rw [ospfLsaIsSelfOriginated]
  split
  · exact sound
  · rename_i unchecked
    exact sound.modify rfl rfl (apart (eq_false_of_not_eq_true unchecked))

end

/-- The lists get nothing but the instance being flooded. -/
theorem Turn.lookup (turn : Turn added ospf after) {id} (apart : id ≠ added)
    (found : (after.lsdb db).lookup key = some id) : (ospf.lsdb db).lookup key = some id := by
  cases turn with
  | retransmitAdd nbr ready =>
    rw [ospfLsRetransmitAdd] at found
    split at found
    · have before := lookup_added apart found
      split at before
      · exact before
      · rename_i old _
        exact @lookup_deleted (ospf.count old (-1)) _ _ _ _ _ before
    · exact found
  | retransmitDelete nbr gone =>
    rename_i other
    rw [ospfLsRetransmitDelete] at found
    split at found
    · exact @lookup_deleted (ospf.count other (-1)) _ _ _ _ _ found
    · exact found
  | requestDelete nbr gone =>
    have before := lookup_deleted found
    split at before
    · exact before
    · exact before
  | send dst => exact found

theorem Turns.lookup (turns : Turns added ospf after) {id} (apart : id ≠ added)
    (found : (after.lsdb db).lookup key = some id) : (ospf.lsdb db).lookup key = some id := by
  induction turns with
  | refl => exact found
  | tail _ turn ih => exact ih (turn.lookup apart found)

section Passing
variable (inbr : Option NbrId)

/-- Flooding puts the instance on no list of the neighbour: it is not in Exchange yet, has asked
for one that is as recent, is the router it comes from, or has one as recent on its
retransmission list. -/
def PassesOver (ospf : Ospf) (nbr : NbrId) : Prop :=
  (ospf.nbr nbr).state.rank < NsmState.exchange.rank ∨
  (ospf.nbr nbr).state.rank < NsmState.full.rank ∧
    (ospf.ospfLsRequestLookup nbr id).any
      (fun lsReq => 0 ≤ moreRecent ospf.now (ospf.lsa lsReq) (ospf.lsa id)) = true ∨
  ospf.floodSource id inbr = (ospf.nbr nbr).routerId ∨
  0 ≤ ospfLsaMoreRecent ospf.now ((ospf.ospfLsRetransmitLookup nbr id).map ospf.lsa)
    (some (ospf.lsa id))

instance (ospf : Ospf) (nbr : NbrId) : Decidable (ospf.PassesOver id inbr nbr) :=
  inferInstanceAs (Decidable (_ ∨ _ ∧ _ ∨ _ ∨ _))

/-- The interfaces that `ospf_flood_through` goes to. -/
def floodScope (ospf : Ospf) : List OspfInterface :=
  if (ospf.lsa id).key.type = .asExternal then
    (ospf.areas.filter fun area => area.externalRouting = .default).flatMap fun area =>
      (ospf.areaOiflist area.id).filter fun oi => oi.type ≠ .virtuallink
  else (ospf.areaOiflist (ospf.areaOf id)).filter fun oi =>
    !(ospf.areaOf id ≠ backbone && oi.type = .virtuallink)

theorem floodThrough_scope (ospf : Ospf) :
    ospf.ospfFloodThrough inbr id = ospf.floodOver inbr id (ospf.floodScope id) := by
  rw [ospfFloodThrough, floodScope]
  split <;> rfl

/-- What flooding does while it passes neighbours over; those ahead have their requests. -/
structure Passing (ospf after : Ospf) (ahead : List NbrId) : Prop where
  quiet : Quiet ospf after
  nbr : ∀ nbr, (after.nbr nbr).state = (ospf.nbr nbr).state ∧
    (after.nbr nbr).routerId = (ospf.nbr nbr).routerId
  request : ∀ nbr ∈ ahead, after.lsdb (.lsReq nbr) = ospf.lsdb (.lsReq nbr)
  retransmit : ∀ nbr, after.lsdb (.lsRxmt nbr) = ospf.lsdb (.lsRxmt nbr)
  found : ∀ db key other, (after.lsdb db).lookup key = some other →
    (ospf.lsdb db).lookup key = some other

variable {inbr}

theorem requestDelete_spec (ospf : Ospf) (nbr : NbrId) (id : LsaId) :
    (∀ other, ((ospf.ospfLsRequestDelete nbr id).nbr other).routerId = (ospf.nbr other).routerId) ∧
      ∀ db, db ≠ .lsReq nbr → (ospf.ospfLsRequestDelete nbr id).lsdb db = ospf.lsdb db := by
  rw [ospfLsRequestDelete]
  refine ⟨fun other => ?_, fun db apart => ?_⟩
  · split
    · change (update ospf.nbr nbr { ospf.nbr nbr with lsReqLast := none } other).routerId = _
      by_cases same : other = nbr
      · rw [same, update_self]
      · rw [update_of_ne same]
    · rfl
  · dsimp only
    refine ((quiet_ospfLsdbDelete _ (.lsReq nbr) id).lsdb db apart).trans ?_
    split <;> rfl

theorem Passing.floodOffer {state nbr ahead} (passing : Passing ospf state ahead) (retx : Bool)
    (passes : ospf.floodSource id inbr = (ospf.nbr nbr).routerId ∨
      0 ≤ ospfLsaMoreRecent ospf.now ((ospf.ospfLsRetransmitLookup nbr id).map ospf.lsa)
      (some (ospf.lsa id))) :
    Passing ospf (Ospf.floodOffer inbr id nbr state retx).1 ahead := by
  have key (other : LsaId) : (state.lsa other).key = (ospf.lsa other).key :=
    (passing.quiet.alike.lsa other).key
  rw [Ospf.floodOffer]
  split
  · exact passing
  · rename_i apart
    have source : state.floodSource id inbr = ospf.floodSource id inbr := by
      cases inbr with
      | none => exact congrArg LsaKey.advRouter (key id)
      | some inbr => exact (passing.nbr inbr).2
    rw [source, (passing.nbr nbr).2] at apart
    have lookup : state.ospfLsRetransmitLookup nbr id = ospf.ospfLsRetransmitLookup nbr id := by
      rw [ospfLsRetransmitLookup, ospfLsRetransmitLookup, passing.retransmit, key]
    have recent : ospfLsaMoreRecent state.now ((state.ospfLsRetransmitLookup nbr id).map state.lsa)
        (some (state.lsa id)) =
        ospfLsaMoreRecent ospf.now ((ospf.ospfLsRetransmitLookup nbr id).map ospf.lsa)
          (some (ospf.lsa id)) := by
      rw [lookup, passing.quiet.now]
      cases ospf.ospfLsRetransmitLookup nbr id with
      | none => rfl
      | some old =>
        show moreRecent _ (state.lsa old).core (state.lsa id).core =
          moreRecent _ (ospf.lsa old).core (ospf.lsa id).core
        rw [passing.quiet.core, passing.quiet.core]
    rw [ospfLsRetransmitAdd, if_neg]
    · exact passing
    · rw [recent]
      exact not_lt.mpr (passes.resolve_left apart)

theorem Passing.floodNbr {state : Ospf × Bool} {nbr ahead}
    (passing : Passing ospf state.1 (nbr :: ahead))
    (once : nbr ∉ ahead) (passes : ospf.PassesOver id inbr nbr) :
    Passing ospf (Ospf.floodNbr inbr id state nbr).1 ahead := by
  have ahead : Passing ospf state.1 ahead :=
    { passing with
      request := fun other member => passing.request other (mem_cons_of_mem nbr member) }
  have rank : (state.1.nbr nbr).state.rank = (ospf.nbr nbr).state.rank :=
    congrArg NsmState.rank (passing.nbr nbr).1
  have lookup : state.1.ospfLsRequestLookup nbr id = ospf.ospfLsRequestLookup nbr id := by
    rw [ospfLsRequestLookup, ospfLsRequestLookup, passing.request nbr mem_cons_self,
      (passing.quiet.alike.lsa id).key]
  rw [Ospf.floodNbr]
  dsimp only
  rw [rank, lookup]
  split
  · exact ahead
  · rename_i exchanges
    have passes := passes.resolve_left exchanges
    split
    · cases found : ospf.ospfLsRequestLookup nbr id with
      | none => exact ahead.floodOffer id state.2 (passes.resolve_left (by simp [found]))
      | some lsReq =>
        have recent : moreRecent state.1.now (state.1.lsa lsReq) (state.1.lsa id) =
            moreRecent ospf.now (ospf.lsa lsReq) (ospf.lsa id) := by
          show moreRecent _ (state.1.lsa lsReq).core (state.1.lsa id).core =
            moreRecent _ (ospf.lsa lsReq).core (ospf.lsa id).core
          rw [passing.quiet.core, passing.quiet.core, passing.quiet.now]
        have there : (state.1.lsdb (.lsReq nbr)).lookup (state.1.lsa id).key = some lsReq :=
          lookup.trans found
        have turn : Turn id state.1 (state.1.ospfLsRequestDelete nbr lsReq) :=
          .requestDelete _ nbr there
        obtain ⟨routerId, elsewhere⟩ := requestDelete_spec state.1 nbr lsReq
        have deleted : Passing ospf (state.1.ospfLsRequestDelete nbr lsReq) _ :=
          { quiet := ahead.quiet.trans turn.quiet
            nbr := fun other => ⟨(state_requestDelete ..).trans (ahead.nbr other).1,
              (routerId other).trans (ahead.nbr other).2⟩
            request :=
              fun other member => (elsewhere _ fun same => once (by cases same; exact member)).trans
              (ahead.request other member)
            retransmit := fun other => (elsewhere _ (by simp)).trans (ahead.retransmit other)
            found := fun db key other still => ahead.found db key other (by
              have before := lookup_deleted still
              split at before <;> exact before) }
        dsimp only
        rw [recent]
        split
        · exact ahead
        · rename_i notMore
          split
          · exact deleted
          · rename_i differs
            refine deleted.floodOffer id state.2 (passes.resolve_left fun asked => ?_)
            have least : 0 ≤ moreRecent ospf.now (ospf.lsa lsReq) (ospf.lsa id) := by
              simpa [found] using asked.2
            omega
    · rename_i full
      exact ahead.floodOffer id state.2 (passes.resolve_left fun asked => full asked.1)

theorem Passing.floodNbrs {state : Ospf × Bool} {nbrs rest}
    (passing : Passing ospf state.1 (nbrs ++ rest))
    (once : (nbrs ++ rest).Nodup) (passes : ∀ nbr ∈ nbrs, ospf.PassesOver id inbr nbr) :
    Passing ospf (nbrs.foldl (Ospf.floodNbr inbr id) state).1 rest := by
  induction nbrs generalizing state with
  | nil => exact passing
  | cons nbr more ih =>
    obtain ⟨fresh, distinct⟩ := nodup_cons.mp once
    exact ih (passing.floodNbr id fresh (passes nbr mem_cons_self)) distinct
      fun other member => passes other (mem_cons_of_mem nbr member)

theorem Passing.sent {state ahead} (passing : Passing ospf state ahead) (dst : UpdateTo) :
    Passing ospf (state.ospfLsUpdSendLsa dst id) ahead :=
  { passing with quiet := passing.quiet.trans (Turn.send state dst : Turn id _ _).quiet }

theorem Passing.sendOut {state ahead} (passing : Passing ospf state ahead) (oi : OspfInterface) :
    Passing ospf (state.sendOut oi id) ahead := by
  rw [Ospf.sendOut]
  split
  · generalize (oi.nbrs.filter fun nbr => NsmState.exchange.rank ≤ (state.nbr nbr).state.rank) =
      nbrs
    induction nbrs generalizing state with
    | nil => exact passing
    | cons nbr more ih => exact ih (passing.sent id _)
  · exact passing.sent id _

theorem Passing.floodOver {state : Ospf × Bool} {ois : List OspfInterface}
    (passing : Passing ospf state.1 ((ois.filter OspfInterface.enable).flatMap OspfInterface.nbrs))
    (once : ((ois.filter OspfInterface.enable).flatMap OspfInterface.nbrs).Nodup)
    (passes : ∀ nbr ∈ (ois.filter OspfInterface.enable).flatMap OspfInterface.nbrs,
      ospf.PassesOver id inbr nbr) :
    Passing ospf (ois.foldl (floodOi inbr id) state).1 [] := by
  induction ois generalizing state with
  | nil => exact passing
  | cons oi rest ih =>
    rw [foldl_cons, floodOi, ospfFloodThroughInterface]
    cases enabled : oi.enable with
    | false =>
      rw [filter_cons_of_neg (by simp [enabled])] at passing once passes
      exact ih passing once passes
    | true =>
      rw [filter_cons_of_pos enabled, flatMap_cons] at passing once passes
      have flooded : Passing ospf (oi.nbrs.foldl (Ospf.floodNbr inbr id) (state.1, false)).1 _ :=
        Passing.floodNbrs id passing once fun nbr member => passes nbr (mem_append_left _ member)
      refine ih ?_ once.of_append_right fun nbr member => passes nbr (mem_append_right _ member)
      dsimp only
      split
      · exact absurd ‹_› (by simp)
      · split
        · exact flooded
        · split
          · exact flooded
          · split
            · exact flooded
            · exact flooded.sendOut id oi

theorem passing_floodThrough
    (once : (((ospf.floodScope id).filter OspfInterface.enable).flatMap OspfInterface.nbrs).Nodup)
    (passes : ∀ nbr ∈ ((ospf.floodScope id).filter OspfInterface.enable).flatMap OspfInterface.nbrs,
      ospf.PassesOver id inbr nbr) : Passing ospf (ospf.ospfFloodThrough inbr id).1 [] := by
  rw [floodThrough_scope, Ospf.floodOver]
  refine Passing.floodOver id ?_ once passes
  exact ⟨.refl, fun _ => ⟨rfl, rfl⟩, fun _ _ => rfl, fun _ => rfl, fun _ _ _ found => found⟩

end Passing

/-- When one of our own comes in, flooding passes over the neighbours, each of which is on one
interface; and what it replaces has the mark that it gets. -/
structure FloodsApart (ospf : Ospf) (nbr : NbrId) (new : LsaId) : Prop where
  lists : ospf.selfOriginated (ospf.lsa new) = true →
    let reached := ((ospf.floodScope new).filter OspfInterface.enable).flatMap OspfInterface.nbrs
    reached.Nodup ∧ ∀ other ∈ reached, ospf.PassesOver new (some nbr) other
  mark : ∀ old ∈ ospf.installed new, (ospf.lsa old).self = ospf.selfOriginated (ospf.lsa new)

theorem Quiet.selfOriginated (quiet : Quiet ospf after) (id : LsaId) :
    after.selfOriginated (after.lsa id) = ospf.selfOriginated (ospf.lsa id) := by
  rw [Ospf.selfOriginated, Ospf.selfOriginated, quiet.routerId, quiet.oiflist,
    self_core (quiet.core id), (quiet.alike.lsa id).key]

theorem lookup_sweepCurrent (nbr : NbrId) {id} (other : ∀ copy ∈ current, copy ≠ id)
    (found : ((ospf.sweepCurrent nbr current).lsdb db).lookup key = some id) :
    (ospf.lsdb db).lookup key = some id := by
  cases current with
  | none => exact found
  | some copy => exact (turns_sweepCurrent ospf nbr (some copy)).lookup (other copy rfl).symm found

theorem setReceived_lsa (ospf : Ospf) (id : LsaId) :
    (ospf.setReceived id).lsa id = { ospf.lsa id with received := true } :=
  update_self ..

theorem checksApart_flooded (plain : (ospf.lsa new).self = false)
    (unstored : ∀ db key, (ospf.lsdb db).lookup key ≠ some new)
    (other : ∀ copy ∈ current, copy ≠ new) (apart : ospf.FloodsApart nbr new) :
    (((ospf.ospfFloodThrough (some nbr) new).1.sweepCurrent nbr current).setReceived
      new).ChecksApart new := by
  have quiet := (quiet_floodThrough ospf (some nbr) new).trans (quiet_sweepCurrent _ nbr current)
  have marked := quiet.selfOriginated new
  intro _
  rw [setReceived_lsa]
  cases own : ospf.selfOriginated (ospf.lsa new) with
  | false =>
    exact .inl ((marked.trans own).trans (plain.symm.trans (self_core (quiet.core new)).symm))
  | true =>
    obtain ⟨once, passes⟩ := apart.lists own
    have passing := passing_floodThrough new once passes
    exact .inr fun db found =>
      unstored db _ (passing.found db _ new (lookup_sweepCurrent nbr other found))

theorem selfOriginated_lsa {id} (unchecked : (ospf.lsa id).selfChecked = false) :
    (ospf.ospfLsaIsSelfOriginated id).lsa = update ospf.lsa id
      { ospf.lsa id with selfChecked := true, self := ospf.selfOriginated (ospf.lsa id) } := by
  rw [ospfLsaIsSelfOriginated, if_neg (not_eq_true _ ▸ unchecked)]
  rfl

theorem self_selfOriginated {id} (unchecked : (ospf.lsa id).selfChecked = false) (other : LsaId) :
    ((ospf.ospfLsaIsSelfOriginated id).lsa other).self =
      if other = id then ospf.selfOriginated (ospf.lsa id) else (ospf.lsa other).self := by
  rw [selfOriginated_lsa unchecked]
  by_cases same : other = id
  · subst same
    rw [if_pos rfl, update_self]
  · rw [if_neg same, update_of_ne same]

theorem Sound.flood (sound : ospf.Sound) (known : new < ospf.fresh)
    (unchecked : (ospf.lsa new).selfChecked = false)
    (plain : (ospf.lsa new).self = false)
    (unstored : ∀ db key, (ospf.lsdb db).lookup key ≠ some new)
    (other : ∀ copy ∈ current, copy ≠ new) (apart : ospf.FloodsApart nbr new)
    (flooded : ospf.ospfFlood nbr current new = some after) : after.Sound := by
  rw [ospfFlood] at flooded
  split at flooded
  · cases flooded
  · have quiet := (quiet_floodThrough ospf (some nbr) new).trans (quiet_sweepCurrent _ nbr current)
    have through := sound.turns known (turns_floodThrough ospf (some nbr))
    have swept := through.turns ((quiet_floodThrough ospf (some nbr) new).fresh ▸ known)
      (turns_sweepCurrent _ nbr current)
    have received :
        (((ospf.ospfFloodThrough (some nbr) new).1.sweepCurrent nbr current).setReceived
        new).Sound :=
      swept.modify rfl rfl (.inl rfl)
    have marked := received.selfOriginated (checksApart_flooded plain unstored other apart)
    have alike := (quiet.alike.trans (alike_setReceived _ new)).trans (alike_selfOriginated _ new)
    have replaces :
        ((((ospf.ospfFloodThrough (some nbr) new).1.sweepCurrent nbr current).setReceived
        new).ospfLsaIsSelfOriginated new).ReplacesAlike new := by
      intro old present
      rw [alike.installed] at present
      have other_object : old ≠ new := fun same => unstored _ _ (same ▸ present)
      have still :
          ((((ospf.ospfFloodThrough (some nbr) new).1.sweepCurrent nbr current).setReceived new).lsa
          new).selfChecked = false := by
        rw [setReceived_lsa]
        exact (congrArg selfChecked (quiet.core new)).trans unchecked
      have before :
          ((((ospf.ospfFloodThrough (some nbr) new).1.sweepCurrent nbr current).setReceived new).lsa
          old).self =
          (ospf.lsa old).self :=
        (congrArg self (update_of_ne other_object ..)).trans (self_core (quiet.core old))
      refine ⟨other_object, ?_⟩
      rw [self_selfOriginated still old, self_selfOriginated still new, if_neg other_object,
        if_pos rfl, before, setReceived_lsa]
      exact (apart.mark old present).trans (quiet.selfOriginated new).symm
    have installed := marked.install (alike.fresh ▸ known) replaces
    cases flooded
    split
    · exact installed.delayedAck nbr new
    · exact installed

theorem Sound.notMoreRecent (sound : ospf.Sound) (nbr : NbrId) {current}
    (known : new < ospf.fresh) :
    (ospf.notMoreRecent nbr current new).Sound := by
  rw [Ospf.notMoreRecent]
  dsimp only
  split
  · exact sound.discard new
  · split
    · split
      · rename_i lsRet found
        have gone := sound.turn known (.retransmitDelete ospf nbr found)
        split
        · exact (gone.ackSend nbr new).discard new
        · exact gone.discard new
      · exact (sound.ackSend nbr new).discard new
    · split
      · exact sound.discard new
      · split
        · have sent : (ospf.ospfLsUpdSendLsa (.direct nbr) current).Sound := by
            have locked := sound.lock current
            exact ⟨locked.accounted, locked.stored, locked.maxageLsa, locked.lsaActions⟩
          exact sent.discard new
        · exact sound.discard new

/-- A new instance that is more recent than the copy at hand, or the first. -/
def news (ospf : Ospf) (new : LsaId) : Prop :=
  ∀ current ∈ ospf.installed new, moreRecent ospf.now (ospf.lsa current) (ospf.lsa new) < 0

theorem Sound.receiveLsa (sound : ospf.Sound) (known : new < ospf.fresh)
    (unchecked : (ospf.lsa new).selfChecked = false) (plain : (ospf.lsa new).self = false)
    (unstored : ∀ db key, (ospf.lsdb db).lookup key ≠ some new)
    (apart : ospf.news new → ospf.FloodsApart nbr new) :
    (ospf.receiveLsa nbr new).Sound := by
  have other (current : LsaId) (here : ospf.installed new = some current) :
      ∀ copy ∈ some current, copy ≠ new := by
    rintro copy ⟨⟩ same
    exact unstored _ _ (same ▸ here)
  rw [Ospf.receiveLsa]
  split
  · exact sound.discard new
  · cases here : ospf.installed new with
    | none =>
      have news : ospf.news new := fun current found => by
        rw [here] at found
        cases found
      dsimp only
      split
      · exact (sound.ackSend nbr new).discard new
      · cases flooded : ospf.ospfFlood nbr none new with
        | none => exact sound.discard new
        | some after =>
          exact sound.flood known unchecked plain unstored (fun copy none => by cases none)
            (apart news) flooded
    | some current =>
      dsimp only
      split
      · rename_i recent
        have news : ospf.news new := fun copy found => by
          rw [here] at found
          cases found
          exact recent
        cases flooded : ospf.ospfFlood nbr (some current) new with
        | none => exact sound.discard new
        | some after =>
          exact sound.flood known unchecked plain unstored (other current here) (apart news) flooded
      · exact sound.notMoreRecent nbr known

section
variable (ospf : Ospf) (nbr : NbrId) (data : LsaHeader) (body : List Octet)

/-- The router with a received instance as its newest, before anything is done about it. -/
def arrived : Ospf :=
  (ospf.ospfLsaNew (if 3600 < data.lsAge.toNat then { data with lsAge := 3600 } else data) body
    (if data.key.type = .asExternal then none else some (ospf.nbrArea nbr)) false).1

theorem lsUpd_eq : ospf.ospfLsUpd nbr data body = ospf ∨
    ospf.ospfLsUpd nbr data body = (ospf.arrived nbr data body).receiveLsa nbr ospf.fresh := by
  rw [ospfLsUpd]
  split
  · exact .inl rfl
  · split
    · exact .inl rfl
    · refine .inr ?_
      have key : (if 3600 < data.lsAge.toNat then { data with lsAge := 3600 }
          else data : LsaHeader).key = data.key := by
        split <;> rfl
      dsimp only
      rw [key]
      rfl

end

theorem Sound.lsUpd (sound : ospf.Sound) {data}
    (apart : (ospf.arrived nbr data body).news ospf.fresh →
      (ospf.arrived nbr data body).FloodsApart nbr ospf.fresh) :
    (ospf.ospfLsUpd nbr data body).Sound := by
  rcases lsUpd_eq ospf nbr data body with same | received
  · rwa [same]
  · rw [received]
    refine (sound.lsaNew ..).receiveLsa (Nat.lt_succ_self _) ?_ ?_ (fun db key found => ?_) apart
    · rw [lsaNew_self]
    · rw [lsaNew_self]
    · exact lt_irrefl _ (sound.stored db key _ found)

theorem Sound.lsAck (sound : ospf.Sound) (nbr : NbrId) (data : LsaHeader) :
    (ospf.ospfLsAck nbr data).Sound := by
  rw [ospfLsAck]
  split
  · exact sound
  · split
    · exact sound
    · rename_i lsr found
      split
      · exact sound.turn (sound.stored _ _ lsr found) (.retransmitDelete ospf nbr found)
      · exact sound

theorem Sound.made (sound : ospf.Sound) {seqnum area options}
    (own : ∀ old ∈ (ospf.lsdb (placeOf key area)).lookup key, (ospf.lsa old).self = true) :
    (Ospf.installAndFlood (ospf.lsaNew key seqnum area options body)).Sound := by
  refine (sound.lsaNew ..).installAndFlood (Nat.lt_succ_self _) fun old found => ?_
  rw [installed_lsaNew] at found
  have apart : old ≠ ospf.fresh := ne_of_lt (sound.stored _ _ old found)
  refine ⟨apart, ?_⟩
  rw [lsaNew_of_ne _ _ _ _ _ apart, lsaNew_self]
  exact own old found

theorem Sound.refresh {swept : Ospf} (sound : swept.Sound) (quiet : Quiet ospf swept) {lsa : LsaId}
    {area : Option AreaId} {options}
    (own : ∀ old ∈ (ospf.lsdb (placeOf key area)).lookup key, (ospf.lsa old).self = true) :
    (swept.refresh lsa key area options body).Sound := by
  refine sound.made fun old found => ?_
  rw [quiet.lsdb _ (own_placeOf key area)] at found
  exact (self_core (quiet.core old)).trans (own old found)

/-- A check of this instance would leave its mark. -/
def Settled (ospf : Ospf) (id : LsaId) : Prop :=
  (ospf.lsa id).isMaxage ospf.now = true → (ospf.lsa id).selfChecked = false →
    ospf.selfOriginated (ospf.lsa id) = (ospf.lsa id).self

theorem Settled.marked {id} (settled : ospf.Settled other) :
    (ospf.ospfLsaIsSelfOriginated id).Settled other := by
  cases checked : (ospf.lsa id).selfChecked with
  | true =>
    rw [ospfLsaIsSelfOriginated, if_pos checked]
    exact settled
  | false =>
    have table : (ospf.ospfLsaIsSelfOriginated id).selfOriginated = ospf.selfOriginated := by
      rw [ospfLsaIsSelfOriginated, if_neg (not_eq_true _ ▸ checked)]
      rfl
    rw [Settled, selfOriginated_lsa checked, (alike_selfOriginated ospf id).now, table]
    by_cases same : other = id
    · subst same
      rw [update_self]
      exact fun _ unchecked => absurd unchecked true_eq_false_eq_False
    · rw [update_of_ne same]
      exact settled

theorem Settled.maxage {id} (settled : ospf.Settled other) :
    (ospf.ospfLsaMaxage id).Settled other := by
  rw [ospfLsaMaxage]
  split
  · exact settled
  · have core := (quiet_ospfLsaLock ospf.toStore id : Store.Quiet .as _ _).core other
    have before : (ospf.lsa other).core.isMaxage ospf.now = true →
        (ospf.lsa other).core.selfChecked = false →
        ospf.selfOriginated (ospf.lsa other).core = (ospf.lsa other).core.self := settled
    rw [← core] at before
    exact before

theorem Sound.walkerRemover (sound : ospf.Sound) {id} (known : id < ospf.fresh)
    (settled : ospf.Settled id) :
    (ospf.ospfLsaMaxageWalkerRemover id).Sound := by
  rw [ospfLsaMaxageWalkerRemover]
  split
  · rename_i old
    have marked := sound.selfOriginated fun unchecked => .inl (settled old unchecked)
    dsimp only
    split
    · exact marked
    · exact marked.maxage ((alike_selfOriginated ospf id).fresh ▸ known)
  · exact sound

theorem Settled.walkerRemover {id} (settled : ospf.Settled other) :
    (ospf.ospfLsaMaxageWalkerRemover id).Settled other := by
  rw [ospfLsaMaxageWalkerRemover]
  split
  · dsimp only
    split
    · exact settled.marked
    · exact settled.marked.maxage
  · exact settled

theorem Sound.walk (sound : ospf.Sound) {ids : List LsaId} (known : ∀ id ∈ ids, id < ospf.fresh)
    (settled : ∀ id ∈ ids, ospf.Settled id) :
    (ids.foldl ospfLsaMaxageWalkerRemover ospf).Sound := by
  induction ids generalizing ospf with
  | nil => exact sound
  | cons id rest ih =>
    have fresh := (alike_walk ospf [id]).fresh
    refine ih (sound.walkerRemover (known id mem_cons_self) (settled id mem_cons_self)) ?_ ?_
    · exact fun other member => fresh ▸ known other (mem_cons_of_mem id member)
    · exact fun other member => (settled other (mem_cons_of_mem id member)).walkerRemover

theorem Sound.walked (sound : ospf.Sound) {id} (member : id ∈ ospf.walked) : id < ospf.fresh := by
  obtain ⟨db, -, stored⟩ := mem_flatMap.mp member
  obtain ⟨entry, present, info⟩ := mem_filterMap.mp stored
  refine sound.stored db entry.1 id ?_
  rw [Lsdb.lookup, AList.lookup, mem_dlookup (ospf.lsdb db).nodes.nodupKeys present]
  exact info

/-- The database has nothing else under the key of the instance. -/
def Undisplaced (ospf : Ospf) (id : LsaId) : Prop :=
  ∀ stored ∈ ospf.installed id, stored = id

theorem Sound.removeEntry (sound : ospf.Sound) {id} (known : id < ospf.fresh)
    (current : ospf.Undisplaced id) :
    (ospf.removeEntry id).Sound := by
  have alike := (quiet_floodThrough ospf none id).alike.trans (alike_discardFromDb _ id)
  have discarded := (sound.turns known (turns_floodThrough ospf none)).discardFromDb id
  exact discarded.delete fun stored present =>
    current stored ((alike.installed id).symm.trans present)

theorem installed_deleted {id stored}
    (found : (ospf.onStore (·.ospfLsdbDelete db id)).installed other = some stored) :
    ospf.installed other = some stored := by
  have lsa : (ospf.lsa other).Alike ((ospf.onStore (·.ospfLsdbDelete db id)).lsa other) :=
    alike_of_core ((quiet_ospfLsdbDelete ospf.toStore db id).core other)
  rw [installed, lsdbOf_of_lsa lsa, lsa.key] at found
  exact lookup_deleted found

theorem Undisplaced.removeEntry {id} (current : ospf.Undisplaced other) :
    (ospf.removeEntry id).Undisplaced other := by
  have alike := (quiet_floodThrough ospf none id).alike.trans (alike_discardFromDb _ id)
  exact fun stored found =>
    current stored ((alike.installed other).symm.trans (installed_deleted found))

theorem fresh_removeEntry (ospf : Ospf) (id : LsaId) : (ospf.removeEntry id).fresh = ospf.fresh :=
  ((quiet_floodThrough ospf none id).alike.trans (alike_discardFromDb _ id)).fresh

theorem Sound.removerLoop (sound : ospf.Sound) {ids} (known : ∀ id ∈ ids, id < ospf.fresh)
    (current : ∀ id ∈ ids, ospf.Undisplaced id) : (ospf.removerLoop ids).1.Sound := by
  induction ids generalizing ospf with
  | nil => exact sound
  | cons id rest ih =>
    have ahead (other : LsaId) (member : other ∈ rest) := current other (mem_cons_of_mem id member)
    rw [removerLoop]
    split
    · exact ih sound (fun other member => known other (mem_cons_of_mem id member)) ahead
    · refine ih (sound.removeEntry (known id mem_cons_self) (current id mem_cons_self)) ?_ ?_
      · exact fun other member => fresh_removeEntry ospf id ▸
          known other (mem_cons_of_mem id member)
      · exact fun other member => (ahead other member).removeEntry

theorem Sound.remover (sound : ospf.Sound) (current : ∀ id ∈ ospf.maxageLsa, ospf.Undisplaced id) :
    ospf.ospfMaxageLsaRemover.1.Sound := by
  rw [ospfMaxageLsaRemover]
  split
  · exact sound.removerLoop sound.maxageLsa current
  · exact sound

end Ospf

/-- Operations on a database or a list by themselves, other holders of an instance, and whatever
happens to the router. -/
inductive LsdbOp where
  | add (db : DbId) (id : LsaId)
  | delete (db : DbId) (id : LsaId)
  | deleteAll (db : DbId)
  | lock (id : LsaId)
  | unlock (id : LsaId)
  | router (op : OspfOp)

def Ospf.lsdbStep (ospf : Ospf) : LsdbOp → Ospf
  | .add db id => ospf.onStore (·.ospfLsdbAdd db id)
  | .delete db id => ospf.onStore (·.ospfLsdbDelete db id)
  | .deleteAll db => ospf.onStore (·.ospfLsdbDeleteAll db)
  | .lock id => ospf.onStore (·.ospfLsaLock id)
  | .unlock id => ospf.onStore (·.ospfLsaUnlock id)
  | .router op => ospf.step op

instance (store : Store) (db : DbId) (id : LsaId) : Decidable (store.AddsApart db id) :=
  inferInstanceAs
    (Decidable (∀ old ∈ (store.lsdb db).lookup (store.lsa id).key, old ≠ id ∧
    (store.lsa old).self = (store.lsa id).self))

instance (store : Store) (db : DbId) (id : LsaId) : Decidable (store.DeletesSame db id) :=
  inferInstanceAs (Decidable (∀ stored ∈ (store.lsdb db).lookup (store.lsa id).key, stored = id))

/-- What a step of the router must find so that the accounting stays right: marks that do not change
under what is stored or replaced, and entries of the MaxAge list that nothing has displaced. -/
structure Ospf.KeepsMarks (ospf : Ospf) (op : OspfOp) : Prop where
  names : ∀ id ∈ op.names, id < ospf.fresh
  originates : ∀ made ∈ ospf.originates op,
    ∀ old ∈ (ospf.lsdb (placeOf made.1 made.2)).lookup made.1, (ospf.lsa old).self = true
  refreshes : ∀ made ∈ ospf.refreshes op,
    ∀ old ∈ (ospf.lsdb (placeOf made.2.1 made.2.2)).lookup made.2.1,
    (ospf.lsa old).self = true
  lsUpd : ∀ nbr data body, op = .lsUpd nbr data body →
    (ospf.arrived nbr data body).news ospf.fresh →
    (ospf.arrived nbr data body).FloodsApart nbr ospf.fresh
  maxageWalker : op = .maxageWalker → ∀ id ∈ ospf.walked, ospf.Settled id
  maxageRemover : op = .maxageRemover → ∀ id ∈ ospf.maxageLsa, ospf.Undisplaced id

/-- An addition meets neither the same object nor another mark, a deletion meets no other object. -/
def Ospf.Accounts (ospf : Ospf) : LsdbOp → Prop
  | .add db id => id < ospf.fresh ∧ ospf.toStore.AddsApart db id
  | .delete db id => ospf.toStore.DeletesSame db id
  | .router op => ospf.KeepsMarks op
  | _ => True

namespace Ospf
variable {ospf : Ospf}

theorem Sound.step (sound : ospf.Sound) {op : OspfOp} (keeps : ospf.KeepsMarks op) :
    (ospf.step op).Sound := by
  cases op with
  | tick elapsed => exact ⟨sound.accounted, sound.stored, sound.maxageLsa, sound.lsaActions⟩
  | nbrState nbr state => exact ⟨sound.accounted, sound.stored, sound.maxageLsa, sound.lsaActions⟩
  | lsUpd nbr data body => exact sound.lsUpd (keeps.lsUpd nbr data body rfl)
  | lsAck nbr data => exact sound.lsAck nbr data
  | routerOriginate area options body =>
    rw [Ospf.step, ospfRouterLsaOriginate]
    split
    · exact (sound.lsaNew ..).discard _
    · rename_i named
      exact sound.made (keeps.originates _ (if_neg named))
  | networkOriginate area dr fullNbrs options body =>
    rw [Ospf.step, ospfNetworkLsaOriginate]
    split
    · exact sound
    · rename_i adjacent
      exact sound.made (keeps.originates _ (if_neg adjacent))
  | summaryOriginate area id options body => exact sound.made (keeps.originates _ rfl)
  | summaryAsbrOriginate area id options body => exact sound.made (keeps.originates _ rfl)
  | externalOriginate id options body =>
    rw [Ospf.step, ospfExternalLsaOriginate]
    split
    · exact sound
    · rename_i free
      exact sound.made (keeps.originates _ (if_neg free))
  | routerRefresh lsa options body =>
    have quiet := quiet_deleteNbrArea ospf (ospf.areaOf lsa) lsa
    exact (sound.turns (keeps.names lsa rfl) (turns_deleteNbrArea ospf _ lsa)).refresh quiet
      (keeps.refreshes _ rfl)
  | networkRefresh lsa dr fullNbrs options body =>
    have quiet := quiet_deleteNbrArea ospf (ospf.areaOf lsa) lsa
    have swept := sound.turns (keeps.names lsa rfl) (turns_deleteNbrArea ospf (ospf.areaOf lsa) lsa)
    rw [Ospf.step, ospfNetworkLsaRefresh]
    split
    · exact swept
    · rename_i adjacent
      have area := (quiet.alike.lsa lsa).area
      rw [area, quiet.routerId]
      exact swept.refresh quiet (keeps.refreshes _ (if_neg adjacent))
  | summaryRefresh lsa options body => exact sound.refresh .refl (keeps.refreshes _ rfl)
  | summaryAsbrRefresh lsa options body => exact sound.refresh .refl (keeps.refreshes _ rfl)
  | externalRefresh lsa options body =>
    exact (sound.turns (keeps.names lsa rfl) (turns_deleteNbrAs ospf lsa)).refresh
      (quiet_deleteNbrAs ospf lsa)
      (keeps.refreshes _ rfl)
  | flushArea id area => exact sound.flush (keeps.names id rfl) (turns_floodOver _ none _)
  | flushAs id => exact sound.flush (keeps.names id rfl) (turns_floodOver _ none _)
  | flushSchedule id =>
    rw [Ospf.step, ospfLsaFlushSchedule]
    split
    · exact sound.flush (keeps.names id rfl) .refl
    · exact sound
  | scheduleFlushArea area id =>
    have locked := sound.lock id
    refine ⟨locked.accounted, locked.stored, locked.maxageLsa, fun entry member => ?_⟩
    rcases mem_append.mp member with member | member
    · exact sound.lsaActions entry member
    · exact mem_singleton.mp member ▸ keeps.names id rfl
  | action => exact sound.action
  | maxageWalker => exact sound.walk (fun id member => sound.walked member) (keeps.maxageWalker rfl)
  | maxageRemover => exact sound.remover (keeps.maxageRemover rfl)

theorem Sound.lsdbStep (sound : ospf.Sound) {op} (accounts : ospf.Accounts op) :
    (ospf.lsdbStep op).Sound := by
  cases op with
  | add db id => exact sound.add accounts.1 accounts.2
  | delete db id => exact sound.delete accounts
  | deleteAll db => exact sound.deleteAll db
  | lock id => exact sound.lock id
  | unlock id => exact sound.unlock id
  | router op => exact sound.step accounts

theorem Started.sound (started : ospf.Started)
    (unlocked : ∀ id, (ospf.lsa id).lock = ospf.held id) : ospf.Sound where
  accounted := {
    lsdbs := fun db => by
      rw [lsdb, started.lsdbs]
      exact accounted_empty
    locks := fun id => by
      rw [started.lsdbs, unlocked id]
      exact (Int.add_zero _).symm }
  stored := fun db key id found => by
    rw [started.lookup db key] at found
    cases found
  maxageLsa := fun id member => absurd (started.maxageLsa ▸ member) not_mem_nil
  lsaActions := fun entry member => absurd (started.lsaActions ▸ member) not_mem_nil

end Ospf

/-- The accounting along every run from a router that starts, with the steps as above. -/
theorem lsdb_runs_accounted {ospf : Ospf} (started : ospf.Started)
    (unlocked : ∀ id, (ospf.lsa id).lock = ospf.held id)
    {ops : List LsdbOp} (run : Allowed lsdbStep Accounts ospf ops) :
    (ops.foldl lsdbStep ospf).toStore.Accounted :=
  (run.invariant (fun _ _ accounts sound => sound.lsdbStep accounts)
    (started.sound unlocked)).accounted

/-! A router-LSA of our own comes back from one of two neighbours. -/

def pairedRouter : Ospf where
  lsa := fun _ => { data := { key := ⟨.router, 0, 0⟩, lsSeqnum := 0 }, lock := 0 }
  routerId := 0x01010101
  areas := [{ id := 0 }]
  oiflist := [{ loneInterface with nbrs := [2, 3] }]
  nbr := fun nbr => if nbr = 2 then loneNeighbour
    else { loneNeighbour with routerId := 0x03030303, address := 0x0a000003 }

def returned : LsaHeader :=
  let data : LsaHeader :=
    { key := ⟨.router, 0x01010101, 0x01010101⟩, lsSeqnum := 0x80000005, length := 32 }
  { data with checksum := ospfLsaChecksum { data := data, body := foreignBody } }

theorem returned_not_accounted :
    ¬([.router (.lsUpd 2 returned foreignBody), .router (.lsAck 3 returned)].foldl lsdbStep
      pairedRouter).toStore.Accounted ∧
    ¬([.router (.lsUpd 2 returned foreignBody), .add (.dbSum 2) 0, .add (.dbSum 2) 0].foldl lsdbStep
      pairedRouter).toStore.Accounted := by
  constructor
  · intro accounted
    have counted := (accounted.lsdbs (.lsRxmt 3)).countSelf .router
    have wrapped :
        ((([.router (.lsUpd 2 returned foreignBody), .router (.lsAck 3 returned)].foldl lsdbStep
        pairedRouter).lsdb (.lsRxmt 3)).countSelf .router) = -1 := by decide +kernel
    omega
  · intro accounted
    obtain ⟨once, -⟩ := (accounted.lsdbs (.dbSum 2)).filed ⟨.router, 0x01010101, 0x01010101⟩
      ⟨2, some 0⟩ (by decide +kernel)
    revert once
    decide

/-- The other neighbour goes down before our own router-LSA comes back. -/
theorem pairedRouter_accounted :
    ([.router (.networkOriginate 0 0x0a000001 1 2 foreignBody), .add (.dbSum 2) 0,
      .router (.flushArea 0 0),
      .delete (.dbSum 2) 0, .router (.nbrState 3 .init),
        .router (.lsUpd 2 returned foreignBody)].foldl lsdbStep
        pairedRouter).toStore.Accounted := by
  refine lsdb_runs_accounted ⟨rfl, rfl, rfl, rfl⟩ (fun _ => rfl)
    ⟨⟨?_, ?_, ?_, ?_, ?_, ?_⟩, ⟨by decide +kernel, ?_⟩,
    ⟨?_, ?_, ?_, ?_, ?_, ?_⟩, ?_, ⟨?_, ?_, ?_, ?_, ?_, ?_⟩, ⟨?_, ?_, ?_, ?_, ?_, ?_⟩, trivial⟩
  · decide +kernel
  · decide +kernel
  · decide +kernel
  · exact fun _ _ _ other => OspfOp.noConfusion other
  · exact OspfOp.noConfusion
  · exact OspfOp.noConfusion
  · decide +kernel
  · decide +kernel
  · decide +kernel
  · decide +kernel
  · exact fun _ _ _ other => OspfOp.noConfusion other
  · exact OspfOp.noConfusion
  · exact OspfOp.noConfusion
  · rw [Accounts]
    decide +kernel
  · decide +kernel
  · decide +kernel
  · decide +kernel
  · exact fun _ _ _ other => OspfOp.noConfusion other
  · exact OspfOp.noConfusion
  · exact OspfOp.noConfusion
  · decide +kernel
  · decide +kernel
  · decide +kernel
  · rintro nbr data body ⟨⟩ -
    exact ⟨fun _ => by decide +kernel, by decide +kernel⟩
  · exact OspfOp.noConfusion
  · exact OspfOp.noConfusion

end Zebra.Ospfd
