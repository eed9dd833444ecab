import Zebra.Ospfd.FloodSpec

namespace Zebra.Ospfd
open Base Lsdb OspfLsa Store Ospf Turns Function
namespace Store

theorem lookup_ospfLsdbAdd (store : Store) (db : DbId) (id : LsaId) (key : LsaKey) :
    ((store.ospfLsdbAdd db id).lsdb db).lookup key =
      if key = (store.lsa id).key then some id else (store.lsdb db).lookup key := by
  rw [ospfLsdbAdd]
  split
  · exact (congrArg (lookup · key) (lsdb_setLsdb store db _)).trans (lookup_setNode ..)
  · rename_i old info
    split
    · rename_i same
      subst same
      rw [lsdb_setLsdb, lookup_setNode, info]
    · exact (congrArg (lookup · key) (lsdb_setLsdb (store.lockLsa old (-1)) db _)).trans
        (lookup_setNode ..)

theorem lookup_dropInfo (store : Store) (db : DbId) (key : LsaKey) (node : LsdbNode) (id : LsaId)
    (other : LsaKey) :
    ((store.dropInfo db key node id).lsdb db).lookup other = if other = key then none
    else (store.lsdb db).lookup other := by
  refine (congrArg (lookup · other) (lsdb_setLsdb store db _)).trans ?_
  rw [routeUnlockNode]
  split
  · rw [lookup]
    by_cases same : other = key
    · subst same
      rw [if_pos rfl, AList.lookup_erase]
      rfl
    · rw [if_neg same, AList.lookup_erase_ne same]
      rfl
  · exact lookup_setNode ..

theorem lookup_ospfLsdbDelete (store : Store) (db : DbId) (id : LsaId) (key : LsaKey) :
    ((store.ospfLsdbDelete db id).lsdb db).lookup key =
      if key = (store.lsa id).key ∧ (store.lsdb db).lookup (store.lsa id).key = some id then none
      else (store.lsdb db).lookup key := by
  rw [ospfLsdbDelete]
  cases here : (store.lsdb db).nodes.lookup (store.lsa id).key with
  | none =>
    have missing : (store.lsdb db).lookup (store.lsa id).key = none := by
      rw [lookup, here]
      rfl
    simp [missing]
  | some node =>
    obtain ⟨lock, info⟩ := node
    have found : (store.lsdb db).lookup (store.lsa id).key = info := by
      rw [lookup, here]
      rfl
    rw [found]
    cases info with
    | none => simp
    | some stored =>
      by_cases same : stored = id
      · subst same
        simp [lookup_dropInfo]
      · simp only [same, if_false, lsdb_setLsdb, lookup_setNode, Option.some.injEq, and_false]
        by_cases at_key : key = (store.lsa id).key
        · rw [if_pos at_key, at_key, found]
        · rw [if_neg at_key]

variable {store : Store}

theorem lookup_deleteNode {db at_db at_key key id}
    (found : ((store.deleteNode db at_key).lsdb at_db).lookup key = some id) :
    (store.lsdb at_db).lookup key = some id := by
  rw [deleteNode] at found
  split at found
  · exact found
  · rename_i node _
    split at found
    · exact found
    · rename_i gone _
      by_cases same : at_db = db
      · subst same
        rw [lookup_dropInfo] at found
        split at found
        · cases found
        · exact found
      · rwa [(quiet_dropInfo store db at_key node gone).lsdb at_db same] at found

theorem lookup_ospfLsdbDeleteAll {db at_db key id}
    (found : ((store.ospfLsdbDeleteAll db).lsdb at_db).lookup key = some id) :
    (store.lsdb at_db).lookup key = some id := by
  rw [ospfLsdbDeleteAll] at found
  generalize (store.lsdb db).nodes.keys = keys at found
  induction keys generalizing store with
  | nil => exact found
  | cons first rest ih => exact lookup_deleteNode (ih found)

variable (store : Store) (db : DbId)

theorem lookup_deleteNode_self (key : LsaKey) :
    ((store.deleteNode db key).lsdb db).lookup key = none := by
  rw [deleteNode]
  cases here : (store.lsdb db).nodes.lookup key with
  | none =>
    rw [lookup, here]
    rfl
  | some node =>
    dsimp only
    split
    · rename_i bare
      rw [lookup, here]
      exact bare
    · rw [lookup_dropInfo, if_pos rfl]

theorem lookup_ospfLsdbDeleteAll_none (key : LsaKey) :
    ((store.ospfLsdbDeleteAll db).lsdb db).lookup key = none := by
  -- a key of the walk loses its instance when its turn comes, and none gets one
  have walk (keys : List LsaKey) (store : Store)
      (turn : key ∈ keys ∨ (store.lsdb db).lookup key = none) :
      ((keys.foldl (deleteNode db) store).lsdb db).lookup key = none := by
    induction keys generalizing store with
    | nil => exact turn.resolve_left List.not_mem_nil
    | cons first rest ih =>
      refine ih _ ?_
      rcases turn with member | missing
      · rcases List.mem_cons.mp member with same | later
        · exact .inr (same ▸ lookup_deleteNode_self store db key)
        · exact .inl later
      · refine .inr ?_
        cases still : ((store.deleteNode db first).lsdb db).lookup key with
        | none => rfl
        | some id =>
          exact absurd (missing.symm.trans (lookup_deleteNode still)) (Option.some_ne_none id).symm
  refine walk _ store ?_
  by_cases known : key ∈ (store.lsdb db).nodes.keys
  · exact .inl known
  · refine .inr ?_
    rw [lookup, AList.lookup_eq_none.mpr known]
    rfl

theorem quiet_ospfLsdbDeleteAll : Quiet db store (store.ospfLsdbDeleteAll db) := by
  rw [ospfLsdbDeleteAll]
  generalize (store.lsdb db).nodes.keys = keys
  induction keys generalizing store with
  | nil => exact .refl
  | cons key rest ih =>
    refine Quiet.trans ?_ (ih _)
    rw [deleteNode]
    split
    · exact .refl
    · split
      · exact .refl
      · exact quiet_dropInfo ..

end Store

/-- Two states of an instance that say the same; its checksum may have been computed in between. -/
structure OspfLsa.Alike (lsa other : OspfLsa) : Prop where
  key : other.key = lsa.key
  lsAge : other.data.lsAge = lsa.data.lsAge
  lsSeqnum : other.data.lsSeqnum = lsa.data.lsSeqnum
  tvRecv : other.tvRecv = lsa.tvRecv
  area : other.area = lsa.area
  sum : ospfLsaChecksum other = ospfLsaChecksum lsa
  checksum : other.data.checksum = lsa.data.checksum ∨ other.data.checksum = ospfLsaChecksum lsa

theorem OspfLsa.Alike.refl (lsa : OspfLsa) : OspfLsa.Alike lsa lsa :=
  ⟨rfl, rfl, rfl, rfl, rfl, rfl, .inl rfl⟩

theorem OspfLsa.Alike.trans {lsa middle other : OspfLsa} (first : lsa.Alike middle)
    (second : middle.Alike other) :
    lsa.Alike other where
  key := second.key.trans first.key
  lsAge := second.lsAge.trans first.lsAge
  lsSeqnum := second.lsSeqnum.trans first.lsSeqnum
  tvRecv := second.tvRecv.trans first.tvRecv
  area := second.area.trans first.area
  sum := second.sum.trans first.sum
  checksum := by
    rcases second.checksum with same | computed
    · rw [same]
      exact first.checksum
    · exact .inr (computed.trans first.sum)

theorem OspfLsa.alike_of_core {lsa other : OspfLsa} (same : other.core = lsa.core) :
    lsa.Alike other where
  key := (congrArg key same : other.core.key = lsa.core.key)
  lsAge := congrArg (·.data.lsAge) same
  lsSeqnum := congrArg (·.data.lsSeqnum) same
  tvRecv := (congrArg tvRecv same : other.core.tvRecv = lsa.core.tvRecv)
  area := (congrArg area same : other.core.area = lsa.core.area)
  sum := (congrArg ospfLsaChecksum same : ospfLsaChecksum other.core = ospfLsaChecksum lsa.core)
  checksum := .inl (congrArg (·.data.checksum) same)

theorem OspfLsa.Alike.isMaxage {lsa other : OspfLsa} (alike : lsa.Alike other) (now : Time) :
    other.isMaxage now = lsa.isMaxage now := by
  rw [OspfLsa.isMaxage, OspfLsa.isMaxage, OspfLsa.lsAge, OspfLsa.lsAge, getAge, getAge, alike.lsAge,
    alike.tvRecv]

namespace Ospf

/-- The same instances under the same keys. -/
structure Alike (before after : Ospf) : Prop where
  now : after.now = before.now
  fresh : after.fresh = before.fresh
  lsa : ∀ id, (before.lsa id).Alike (after.lsa id)
  lookup : ∀ db, db.own = true → ∀ key, (after.lsdb db).lookup key = (before.lsdb db).lookup key

variable {ospf middle after : Ospf}

theorem Alike.refl : Alike ospf ospf :=
  ⟨rfl, rfl, fun _ => .refl _, fun _ _ _ => rfl⟩

theorem Alike.trans (first : Alike ospf middle) (second : Alike middle after) : Alike ospf after :=
  ⟨second.now.trans first.now, second.fresh.trans first.fresh,
    fun id => (first.lsa id).trans (second.lsa id),
    fun db own key => (second.lookup db own key).trans (first.lookup db own key)⟩

theorem Quiet.alike (quiet : Quiet ospf after) : Alike ospf after :=
  ⟨quiet.now, quiet.fresh, fun id => alike_of_core (quiet.core id),
    fun db own key => congrArg (lookup · key) (quiet.lsdb db own)⟩

section
variable (ospf : Ospf) (id : LsaId)

theorem alike_modify (change : OspfLsa → OspfLsa)
    (same : (ospf.lsa id).Alike (change (ospf.lsa id))) :
    Alike ospf (ospf.onStore (·.modifyLsa id change)) where
  now := rfl
  fresh := rfl
  lsa := fun other => by
    by_cases here : other = id
    · subst here
      simpa [onStore, modifyLsa] using same
    · simp only [onStore, modifyLsa, update_of_ne here]
      exact .refl _
  lookup := fun _ _ _ => rfl

theorem alike_lock : Alike ospf (ospf.onStore (·.ospfLsaLock id)) :=
  ⟨rfl, rfl, fun other =>
    alike_of_core ((quiet_ospfLsaLock ospf.toStore id : Store.Quiet .as _ _).core other),
    fun _ _ _ => rfl⟩

theorem alike_unlock : Alike ospf (ospf.onStore (·.ospfLsaUnlock id)) :=
  ⟨rfl, rfl, fun other =>
    alike_of_core ((quiet_ospfLsaUnlock ospf.toStore id : Store.Quiet .as _ _).core other),
    fun _ _ _ => rfl⟩

theorem alike_discard : Alike ospf (ospf.ospfLsaDiscard id) := by
  rw [ospfLsaDiscard]
  split
  · exact .refl
  · exact (alike_modify ospf id (fun lsa => { lsa with discard := true })
      ⟨rfl, rfl, rfl, rfl, rfl, rfl, .inl rfl⟩).trans (alike_unlock _ id)

theorem alike_selfOriginated : Alike ospf (ospf.ospfLsaIsSelfOriginated id) := by
  rw [ospfLsaIsSelfOriginated]
  split
  · exact .refl
  · exact alike_modify ospf id _ ⟨rfl, rfl, rfl, rfl, rfl, rfl, .inl rfl⟩

end

theorem lsdbOf_of_lsa {id} (alike : (ospf.lsa id).Alike (after.lsa id)) :
    after.lsdbOf id = ospf.lsdbOf id := by
  rw [lsdbOf, lsdbOf, areaOf, areaOf, alike.key, alike.area]

theorem Alike.lsdbOf (alike : Alike ospf after) (id : LsaId) : after.lsdbOf id = ospf.lsdbOf id :=
  lsdbOf_of_lsa (alike.lsa id)

section
variable (ospf : Ospf)

theorem alike_ackSend (nbr : NbrId) (id : LsaId) : Alike ospf (ospf.ospfLsAckSend nbr id) :=
  ⟨rfl, rfl, (alike_lock ospf id).lsa, fun _ _ _ => rfl⟩

theorem alike_delayedAck (nbr : NbrId) (id : LsaId) :
    Alike ospf (ospf.ospfFloodDelayedLsaAck nbr id) := by
  rw [ospfFloodDelayedLsaAck]
  split
  · exact .refl
  · exact ⟨rfl, rfl, (alike_lock ospf id).lsa, fun _ _ _ => rfl⟩

theorem own_lsdbOf (id : LsaId) : (ospf.lsdbOf id).own = true := by
  rw [lsdbOf]
  split <;> rfl

theorem lookup_add (db : DbId) (id : LsaId) (other : DbId) (key : LsaKey) :
    ((ospf.onStore (·.ospfLsdbAdd db id)).lsdb other).lookup key =
      if other = db ∧ key = (ospf.lsa id).key then some id else (ospf.lsdb other).lookup key := by
  by_cases same : other = db
  · subst same
    simp only [true_and]
    exact lookup_ospfLsdbAdd ospf.toStore other id key
  · simp only [same, false_and, if_false]
    exact congrArg (lookup · key) ((quiet_ospfLsdbAdd ospf.toStore db id).lsdb other same)

theorem lookup_delete {db id} (here : (ospf.lsdb db).lookup (ospf.lsa id).key = some id)
    (other : DbId) (key : LsaKey) :
    ((ospf.onStore (·.ospfLsdbDelete db id)).lsdb other).lookup key =
      if other = db ∧ key = (ospf.lsa id).key then none else (ospf.lsdb other).lookup key := by
  by_cases same : other = db
  · subst same
    refine (lookup_ospfLsdbDelete ospf.toStore other id key).trans ?_
    have found := here
    simp only [found, and_true, true_and]
  · simp only [same, false_and, if_false]
    exact congrArg (lookup · key) ((quiet_ospfLsdbDelete ospf.toStore db id).lsdb other same)

end

theorem Alike.installed (alike : Alike ospf after) (id : LsaId) :
    after.installed id = ospf.installed id := by
  rw [Ospf.installed, Ospf.installed, alike.lsdbOf id, alike.lookup _ (own_lsdbOf ospf id),
    (alike.lsa id).key]

theorem lookup_deleted {db at_db key id found}
    (still : ((ospf.onStore (·.ospfLsdbDelete db id)).lsdb at_db).lookup key = some found) :
    (ospf.lsdb at_db).lookup key = some found := by
  by_cases same : at_db = db
  · subst same
    have whole := (lookup_ospfLsdbDelete ospf.toStore at_db id key).symm.trans still
    split at whole
    · cases whole
    · exact whole
  · exact (congrArg (lookup · key)
      ((quiet_ospfLsdbDelete ospf.toStore db id).lsdb at_db same)).symm.trans still

theorem lookup_added {db at_db key id found} (apart : found ≠ id)
    (present : ((ospf.onStore (·.ospfLsdbAdd db id)).lsdb at_db).lookup key = some found) :
    (ospf.lsdb at_db).lookup key = some found := by
  rw [lookup_add] at present
  split at present
  · exact absurd (Option.some.inj present).symm apart
  · exact present

variable (ospf : Ospf)

section
variable (id : LsaId)

theorem alike_maxage : Alike ospf (ospf.ospfLsaMaxage id) := by
  rw [ospfLsaMaxage]
  split
  · exact .refl
  · exact ⟨rfl, rfl, (alike_lock ospf id).lsa, fun _ _ _ => rfl⟩

theorem alike_maxageDelete : Alike ospf (ospf.ospfLsaMaxageDelete id) := by
  rw [ospfLsaMaxageDelete]
  split
  · exact ⟨rfl, rfl, (alike_unlock ospf id).lsa, fun _ _ _ => rfl⟩
  · exact .refl

theorem quiet_sweepRetransmit : Quiet ospf (ospf.sweepRetransmit id) :=
  quiet (turns_sweepRetransmit ospf id : Turns id _ _)

theorem alike_discardFromDb : Alike ospf (ospf.ospfDiscardFromDb id) := by
  rw [ospfDiscardFromDb]
  split
  · exact .refl
  · rename_i old _
    exact ((quiet_sweepRetransmit ospf old).alike.trans (alike_maxageDelete _ old)).trans
      (alike_discard _ old)

theorem alike_checksumOwn : Alike ospf (ospf.checksumOwn id) := by
  rw [checksumOwn]
  split
  · exact alike_modify ospf id _ ⟨rfl, rfl, rfl, rfl, rfl, rfl, .inr rfl⟩
  · exact .refl

theorem alike_maxageOther : Alike ospf (ospf.maxageOther id) := by
  rw [maxageOther]
  split
  · exact alike_maxage ospf id
  · exact .refl

theorem place_lsa (new id : LsaId) : (ospf.lsa id).Alike ((ospf.place new).lsa id) :=
  ((alike_discardFromDb ospf new).lsa id).trans
    (alike_of_core
      ((quiet_ospfLsdbAdd (ospf.ospfDiscardFromDb new).toStore (ospf.lsdbOf new) new).core id))

theorem alike_finish : Alike ospf ((ospf.checksumOwn id).maxageOther id) :=
  (alike_checksumOwn ospf id).trans (alike_maxageOther _ id)

section
variable (new : LsaId)

theorem lookup_place {db} (own : db.own = true) (key : LsaKey) :
    ((ospf.place new).lsdb db).lookup key =
      if db = ospf.lsdbOf new ∧ key = (ospf.lsa new).key then some new
      else (ospf.lsdb db).lookup key := by
  have alike := alike_discardFromDb ospf new
  rw [place, lookup_add, (alike.lsa new).key, alike.lookup db own]

theorem installed_place : (ospf.place new).installed new = some new := by
  rw [installed, lsdbOf_of_lsa (place_lsa ospf new new),
    lookup_place ospf new (own_lsdbOf ospf new), (place_lsa ospf new new).key, if_pos ⟨rfl, rfl⟩]

theorem lookup_install {db} (own : db.own = true) (key : LsaKey) :
    ((ospf.ospfLsaInstall new).lsdb db).lookup key =
      if db = ospf.lsdbOf new ∧ key = (ospf.lsa new).key then some new
      else (ospf.lsdb db).lookup key :=
  ((alike_finish (ospf.place new) new).lookup db own key).trans (lookup_place ospf new own key)

theorem install_fresh : (ospf.ospfLsaInstall new).fresh = ospf.fresh :=
  (alike_finish (ospf.place new) new).fresh.trans (alike_discardFromDb ospf new).fresh

theorem install_now : (ospf.ospfLsaInstall new).now = ospf.now :=
  (alike_finish (ospf.place new) new).now.trans (alike_discardFromDb ospf new).now

end

theorem install_lsa (new id : LsaId) : (ospf.lsa id).Alike ((ospf.ospfLsaInstall new).lsa id) :=
  (place_lsa ospf new id).trans ((alike_finish (ospf.place new) new).lsa id)

section
variable (data : LsaHeader) (body : List Octet) (area : Option AreaId) (self : Bool)

theorem lsaNew_of_ne {id} (apart : id ≠ ospf.fresh)
    : (ospf.ospfLsaNew data body area self).1.lsa id = ospf.lsa id :=
  update_of_ne apart ..

theorem lsaNew_self : (ospf.ospfLsaNew data body area self).1.lsa ospf.fresh =
      { data := data, body := body, area := area, self := self, tvRecv := ospf.now } :=
  update_self ..

end

theorem quiet_floodThrough (inbr : Option NbrId) (id : LsaId) :
    Quiet ospf (ospf.ospfFloodThrough inbr id).1 :=
  (turns_floodThrough ospf inbr).quiet

theorem quiet_deleteNbrArea (area : AreaId) (id : LsaId)
    : Quiet ospf (ospf.ospfLsRetransmitDeleteNbrArea area id) :=
  quiet (turns_deleteNbrArea ospf area id : Turns id _ _)

theorem quiet_deleteNbrAs : Quiet ospf (ospf.ospfLsRetransmitDeleteNbrAs id) :=
  quiet (turns_deleteNbrAs ospf id : Turns id _ _)

theorem quiet_sweepCurrent (nbr : NbrId) (current : Option LsaId) :
    Quiet ospf (ospf.sweepCurrent nbr current) :=
  quiet (turns_sweepCurrent ospf nbr current : Turns 0 _ _)

theorem quiet_retransmitDelete {nbr key id}
    (found : (ospf.lsdb (.lsRxmt nbr)).lookup key = some id) :
    Quiet ospf (ospf.ospfLsRetransmitDelete nbr id) :=
  Turn.quiet (.retransmitDelete ospf nbr found : Turn id _ _)

theorem alike_setReceived : Alike ospf (ospf.setReceived id) :=
  alike_modify ospf id _ ⟨rfl, rfl, rfl, rfl, rfl, rfl, .inl rfl⟩

end

theorem alike_sendLsa (dst : UpdateTo) (id : LsaId) : Alike ospf (ospf.ospfLsUpdSendLsa dst id) :=
  (Turn.quiet (.send ospf dst : Turn id _ _)).alike

end Ospf
end Zebra.Ospfd
