import Zebra.Ospfd.Forward

namespace Zebra.Ospfd
open Base Option Store Function List

/-- The neighbour whose list a database is. -/
def DbId.nbr : DbId → Option NbrId
  | .as | .area _ => none
  | .dbSum nbr | .lsReq nbr | .lsRxmt nbr => some nbr

namespace Lsdb

def Totalled (lsdb : Lsdb) : Prop :=
  lsdb.total = tally stored lsdb.nodes

variable {lsdb : Lsdb}

theorem share_stored_info (key : LsaKey) (node : LsdbNode) :
    share stored key (some node) = if node.info.isSome then 1 else 0 := rfl

theorem share_stored_lookup (lsdb : Lsdb) (key : LsaKey) :
    share stored key (lsdb.nodes.lookup key) = if (lsdb.lookup key).isSome then 1 else 0 := by
  rw [Lsdb.lookup]
  cases lsdb.nodes.lookup key with
  | none => rfl
  | some node => rfl

theorem Totalled.setNode (totalled : lsdb.Totalled) {key node} (total : Int)
    (change : total + (if (lsdb.lookup key).isSome then 1 else 0 : Nat) =
      lsdb.total + (if node.info.isSome then 1 else 0 : Nat)) :
    ({ lsdb.setNode key node with total := total } : Lsdb).Totalled := by
  have moved := tally_insert stored lsdb.nodes key node
  rw [share_stored_lookup, share_stored_info] at moved
  rw [Totalled] at totalled
  change total = (tally stored (lsdb.nodes.insert key node) : Int)
  omega

theorem Totalled.erase (totalled : lsdb.Totalled) {key id} (found : lsdb.lookup key = some id) :
    ({ lsdb with nodes := lsdb.nodes.erase key, total := lsdb.total - 1 } : Lsdb).Totalled := by
  have moved := tally_erase stored lsdb.nodes key
  rw [share_stored_lookup, found] at moved
  rw [Totalled] at totalled
  change lsdb.total - 1 = (tally stored (lsdb.nodes.erase key) : Int)
  simp only [isSome_some, if_true] at moved
  omega

theorem Totalled.lookup_none (totalled : lsdb.Totalled) (empty : lsdb.total = 0) (key : LsaKey) :
    lsdb.lookup key = none := by
  cases found : lsdb.lookup key with
  | none => rfl
  | some id =>
    have moved := tally_erase stored lsdb.nodes key
    rw [share_stored_lookup, found] at moved
    rw [Totalled] at totalled
    simp only [isSome_some, if_true] at moved
    omega

end Lsdb

namespace Store

def Totalled (store : Store) : Prop :=
  ∀ db, (store.lsdb db).Totalled

variable {store : Store}

theorem Totalled.setLsdb (totalled : store.Totalled) {db lsdb} (here : lsdb.Totalled) :
    (store.setLsdb db lsdb).Totalled := by
  intro other
  by_cases same : other = db
  · rw [same, lsdb_setLsdb]
    exact here
  · rw [lsdb_setLsdb_ne store lsdb same]
    exact totalled other

theorem info_routeNodeGet (lsdb : Lsdb) (key : LsaKey) :
    (lsdb.routeNodeGet key).info = lsdb.lookup key := by
  rw [Lsdb.routeNodeGet, Lsdb.lookup]
  cases lsdb.nodes.lookup key with
  | none => rfl
  | some node => rfl

section
variable (totalled : store.Totalled)
include totalled

theorem Totalled.ospfLsdbAdd (db : DbId) (id : LsaId) : (store.ospfLsdbAdd db id).Totalled := by
  have found := info_routeNodeGet (store.lsdb db) (store.lsa id).key
  rw [Store.ospfLsdbAdd]
  split
  · rename_i missing
    refine totalled.setLsdb ((totalled db).setNode ((store.lsdb db).total + 1) ?_)
    rw [← found, missing]
    simp
  · rename_i old here
    rw [here] at found
    split
    · refine totalled.setLsdb ((totalled db).setNode (store.lsdb db).total ?_)
      rw [← found, here]
    · refine @Totalled.setLsdb (store.lockLsa old (-1)) totalled _ _
        ((totalled db).setNode (store.lsdb db).total ?_)
      rw [← found]
      rfl

theorem Totalled.dropInfo {db key node id}
    (here : (store.lsdb db).nodes.lookup key = some node) (info : node.info = some id) :
    (store.dropInfo db key node id).Totalled := by
  have found : (store.lsdb db).lookup key = some id := by
    rw [Lsdb.lookup, here]
    exact info
  refine totalled.setLsdb ?_
  rw [Lsdb.routeUnlockNode]
  split
  · exact (totalled db).erase found
  · refine (totalled db).setNode ((store.lsdb db).total + -1) ?_
    rw [found]
    simp only [isSome_some, isSome_none, if_true, Bool.false_eq_true, if_false]
    omega

theorem Totalled.ospfLsdbDelete (db : DbId) (id : LsaId) :
    (store.ospfLsdbDelete db id).Totalled := by
  rw [Store.ospfLsdbDelete]
  split
  · exact totalled
  · rename_i node here
    split
    · exact totalled
    · rename_i found info
      split
      · rename_i same
        exact totalled.dropInfo here (same ▸ info)
      · refine totalled.setLsdb ((totalled db).setNode (store.lsdb db).total ?_)
        rw [Lsdb.lookup, here]
        rfl

theorem Totalled.ospfLsdbDeleteAll (db : DbId) : (store.ospfLsdbDeleteAll db).Totalled := by
  rw [Store.ospfLsdbDeleteAll]
  generalize (store.lsdb db).nodes.keys = keys
  induction keys generalizing store with
  | nil => exact totalled
  | cons key rest ih =>
    refine ih ?_
    rw [deleteNode]
    split
    · exact totalled
    · rename_i node here
      split
      · exact totalled
      · rename_i id info
        exact totalled.dropInfo here info

end
end Store

namespace Ospf

/-- What is stored was given out and is filed under its own key, and the counters of the databases
tell how much that is. -/
structure Kept (ospf : Ospf) : Prop where
  filed : ∀ db key id, (ospf.lsdb db).lookup key = some id →
    id < ospf.fresh ∧ (ospf.lsa id).key = key
  totalled : ospf.toStore.Totalled
  maxageLsa : ∀ id ∈ ospf.maxageLsa, id < ospf.fresh
  lsaActions : ∀ entry ∈ ospf.lsaActions, entry.2 < ospf.fresh

/-- Only the lists of the neighbours that may grow do, and the neighbours stay in their states. -/
structure Grows (may : NbrId → Prop) (before after : Ospf) : Prop where
  fresh : before.fresh ≤ after.fresh
  state : ∀ nbr, (after.nbr nbr).state = (before.nbr nbr).state
  oi : ∀ nbr, (after.nbr nbr).oi = (before.nbr nbr).oi
  oiflist : after.oiflist = before.oiflist
  lists : ∀ db nbr, db.nbr = some nbr → ¬may nbr → ∀ key, (before.lsdb db).lookup key = none →
    (after.lsdb db).lookup key = none
  kept : before.Kept → after.Kept

variable {may : NbrId → Prop} {ospf middle after : Ospf} {added : LsaId}

theorem Grows.refl : Grows may ospf ospf :=
  ⟨le_rfl, fun _ => rfl, fun _ => rfl, rfl, fun _ _ _ _ _ none => none, fun kept => kept⟩

theorem Grows.trans (first : Grows may ospf middle) (second : Grows may middle after) :
    Grows may ospf after where
  fresh := le_trans first.fresh second.fresh
  state := fun nbr => (second.state nbr).trans (first.state nbr)
  oi := fun nbr => (second.oi nbr).trans (first.oi nbr)
  oiflist := second.oiflist.trans first.oiflist
  lists := fun db nbr of_nbr apart key none =>
    second.lists db nbr of_nbr apart key (first.lists db nbr of_nbr apart key none)
  kept := fun kept => second.kept (first.kept kept)

theorem grows_of_lsa (fresh : after.fresh = ospf.fresh) (lsdbs : after.lsdbs = ospf.lsdbs)
    (nbr : after.nbr = ospf.nbr)
    (oiflist : after.oiflist = ospf.oiflist) (key : ∀ id, (after.lsa id).key = (ospf.lsa id).key)
    (maxageLsa : ∀ id ∈ after.maxageLsa, id ∈ ospf.maxageLsa ∨ id < ospf.fresh)
    (lsaActions : ∀ entry ∈ after.lsaActions, entry ∈ ospf.lsaActions ∨ entry.2 < ospf.fresh) :
    Grows may ospf after := by
  have lsdb (db : DbId) : after.lsdb db = ospf.lsdb db := by rw [lsdb, lsdbs, lsdb]
  refine ⟨le_of_eq fresh.symm, fun _ => by rw [nbr], fun _ => by
    rw [nbr], oiflist, fun db _ _ _ key none => ?_, fun kept => ?_⟩
  · rw [lsdb db]
    exact none
  · refine ⟨fun db at_key id found => ?_, fun db => ?_, fun id member => ?_, fun entry member => ?_⟩
    · rw [lsdb db] at found
      rw [fresh, key id]
      exact kept.filed db at_key id found
    · rw [lsdb db]
      exact kept.totalled db
    · rw [fresh]
      exact (maxageLsa id member).elim (kept.maxageLsa id) fun known => known
    · rw [fresh]
      exact (lsaActions entry member).elim (kept.lsaActions entry) fun known => known

theorem grows_of_shrink {change}
    (core : ∀ id, ((change ospf.toStore).lsa id).core = (ospf.lsa id).core)
    (shrink : ∀ db key id, ((change ospf.toStore).lsdb db).lookup key = some id →
      (ospf.lsdb db).lookup key = some id)
    (totalled : ospf.toStore.Totalled → (change ospf.toStore).Totalled) :
    Grows may ospf (ospf.onStore change) := by
  refine ⟨le_rfl, fun _ => rfl, fun _ => rfl, rfl, fun db _ _ _ key none => ?_, fun kept => ?_⟩
  · cases still : ((ospf.onStore change).lsdb db).lookup key with
    | none => rfl
    | some found =>
      exact absurd (none.symm.trans (shrink db key found still)) (some_ne_none found).symm
  · refine ⟨fun db key found still => ?_, totalled kept.totalled, kept.maxageLsa, kept.lsaActions⟩
    obtain ⟨known, filed⟩ := kept.filed db key found (shrink db key found still)
    exact ⟨known, (OspfLsa.alike_of_core (core found)).key.trans filed⟩

section
variable (ospf : Ospf)

theorem grows_modify (id : LsaId) {change} (key : (change (ospf.lsa id)).key = (ospf.lsa id).key) :
    Grows may ospf (ospf.onStore (·.modifyLsa id change)) := by
  refine grows_of_lsa rfl rfl rfl rfl (fun other => ?_)
    (fun _ member => .inl member) fun _ member => .inl member
  by_cases same : other = id
  · rw [same]
    exact (congrArg OspfLsa.key (modifyLsa_self ospf.toStore id change)).trans key
  · exact congrArg OspfLsa.key (modifyLsa_of_ne ospf.toStore change same)

theorem grows_lock (id : LsaId) : Grows may ospf (ospf.onStore (·.ospfLsaLock id)) :=
  grows_of_lsa rfl rfl rfl rfl (fun other => ((alike_lock ospf id).lsa other).key)
    (fun _ member => .inl member)
    fun _ member => .inl member

theorem grows_unlock (id : LsaId) : Grows may ospf (ospf.onStore (·.ospfLsaUnlock id)) :=
  grows_of_lsa rfl rfl rfl rfl (fun other => ((alike_unlock ospf id).lsa other).key)
    (fun _ member => .inl member)
    fun _ member => .inl member

theorem grows_delete (db : DbId) (id : LsaId) :
    Grows may ospf (ospf.onStore (·.ospfLsdbDelete db id)) :=
  grows_of_shrink (quiet_ospfLsdbDelete ospf.toStore db id).core
    (fun _ _ _ still => lookup_deleted still)
    fun totalled => totalled.ospfLsdbDelete db id

theorem grows_deleteAll (db : DbId) : Grows may ospf (ospf.onStore (·.ospfLsdbDeleteAll db)) :=
  grows_of_shrink (quiet_ospfLsdbDeleteAll ospf.toStore db).core
    (fun _ _ _ still => lookup_ospfLsdbDeleteAll still)
    fun totalled => totalled.ospfLsdbDeleteAll db

theorem grows_lsaNew (data : LsaHeader) (body : List Octet) (area : Option AreaId) (self : Bool) :
    Grows may ospf (ospf.ospfLsaNew data body area self).1 := by
  refine ⟨Nat.le_succ _, fun _ => rfl, fun _ => rfl, rfl, fun _ _ _ _ _ none => none,
    fun kept => ⟨fun db key id found => ?_,
    kept.totalled, fun id member => ?_, fun entry member => ?_⟩⟩
  · obtain ⟨below, filed⟩ := kept.filed db key id found
    rw [lsaNew_of_ne ospf data body area self (ne_of_lt below)]
    exact ⟨Nat.lt_succ_of_lt below, filed⟩
  · exact Nat.lt_succ_of_lt (kept.maxageLsa id member)
  · exact Nat.lt_succ_of_lt (kept.lsaActions entry member)

theorem grows_count (id : LsaId) (amount : Int) : Grows may ospf (ospf.count id amount) :=
  grows_modify ospf id rfl

theorem grows_retransmitDelete (nbr : NbrId) (id : LsaId) :
    Grows may ospf (ospf.ospfLsRetransmitDelete nbr id) := by
  rw [ospfLsRetransmitDelete]
  split
  · exact (grows_count ospf id (-1)).trans (grows_delete _ _ id)
  · exact .refl

theorem grows_forget (nbr : NbrId) (last : Option LsaId) :
    Grows may ospf { ospf with
      nbr := update ospf.nbr nbr { ospf.nbr nbr with lsReqLast := last } } := by
  have same (other : NbrId) :
      (update ospf.nbr nbr { ospf.nbr nbr with lsReqLast := last } other).state =
      (ospf.nbr other).state ∧
        (update ospf.nbr nbr { ospf.nbr nbr with lsReqLast := last } other).oi =
      (ospf.nbr other).oi := by
    by_cases here : other = nbr
    · rw [here, update_self]
      exact ⟨rfl, rfl⟩
    · rw [update_of_ne here]
      exact ⟨rfl, rfl⟩
  exact ⟨le_rfl, fun other => (same other).1, fun other => (same other).2, rfl,
    fun _ _ _ _ _ none => none,
    fun kept => ⟨kept.filed, kept.totalled, kept.maxageLsa, kept.lsaActions⟩⟩

theorem grows_requestDelete (nbr : NbrId) (id : LsaId) :
    Grows may ospf (ospf.ospfLsRequestDelete nbr id) := by
  refine Grows.trans ?_ (grows_delete _ _ id)
  split
  · exact (grows_unlock ospf id).trans (grows_forget _ nbr none)
  · exact .refl

theorem grows_send (dst : UpdateTo) (id : LsaId) : Grows may ospf (ospf.ospfLsUpdSendLsa dst id) :=
  (grows_lock ospf id).trans (grows_of_lsa rfl rfl rfl rfl
    (fun _ => rfl) (fun _ member => .inl member) fun _ member => .inl member)

end

theorem grows_add {db id} (known : id < ospf.fresh) (listed : ∀ nbr, db.nbr = some nbr → may nbr) :
    Grows may ospf (ospf.onStore (·.ospfLsdbAdd db id)) := by
  refine ⟨le_rfl, fun _ => rfl, fun _ => rfl, rfl, fun at_db nbr of_nbr apart key none => ?_,
    fun kept => ?_⟩
  · rw [lookup_add, if_neg]
    · exact none
    · rintro ⟨rfl, -⟩
      exact apart (listed nbr of_nbr)
  · have core (found : LsaId) := (quiet_ospfLsdbAdd ospf.toStore db id).core found
    refine ⟨fun at_db key found present => ?_, kept.totalled.ospfLsdbAdd db id, kept.maxageLsa,
      kept.lsaActions⟩
    have same := (OspfLsa.alike_of_core (core found)).key
    by_cases new : found = id
    · subst new
      rw [lookup_add] at present
      split at present
      · rename_i place
        exact ⟨known, same.trans place.2.symm⟩
      · exact ⟨known, same.trans (kept.filed at_db key found present).2⟩
    · obtain ⟨below, filed⟩ := kept.filed at_db key found (lookup_added new present)
      exact ⟨below, same.trans filed⟩

theorem grows_retransmitAdd {nbr id} (known : id < ospf.fresh) (listed : may nbr) :
    Grows may ospf (ospf.ospfLsRetransmitAdd nbr id) := by
  have enlist {state} (below : id < state.fresh) :
      Grows may state ((state.count id 1).onStore (·.ospfLsdbAdd (.lsRxmt nbr) id)) :=
    (grows_count state id 1).trans (grows_add below fun other same => some.inj same ▸ listed)
  rw [ospfLsRetransmitAdd]
  split
  · split
    · exact enlist known
    · rename_i old _
      have gone :
          Grows may ospf ((ospf.count old (-1)).onStore (·.ospfLsdbDelete (.lsRxmt nbr) old)) :=
        (grows_count ospf old (-1)).trans (grows_delete _ (.lsRxmt nbr) old)
      exact gone.trans (enlist known)
  · exact .refl

/-- Whoever takes part in flooding may get more on its list. -/
def Opens (may : NbrId → Prop) (ospf : Ospf) : Prop :=
  ∀ nbr, NsmState.exchange.rank ≤ (ospf.nbr nbr).state.rank → may nbr

theorem Opens.grows (opens : Opens may ospf) (grows : Grows may ospf after) : Opens may after :=
  fun nbr ready => opens nbr (grows.state nbr ▸ ready)

theorem Turn.grows (turn : Turn added ospf after) (opens : Opens may ospf)
    (known : added < ospf.fresh) : Grows may ospf after := by
  cases turn with
  | retransmitAdd nbr ready => exact grows_retransmitAdd known (opens nbr ready)
  | retransmitDelete nbr found => exact grows_retransmitDelete ospf nbr _
  | requestDelete nbr found => exact grows_requestDelete ospf nbr _
  | send dst => exact grows_send ospf dst added

theorem Turns.grows (turns : Turns added ospf after) (opens : Opens may ospf)
    (known : added < ospf.fresh) :
    Grows may ospf after := by
  induction turns with
  | refl => exact .refl
  | tail _ turn ih => exact ih.trans (turn.grows (opens.grows ih) (lt_of_lt_of_le known ih.fresh))

theorem grows_foldl {Item : Type} {step : Ospf → Item → Ospf}
    (each : ∀ ospf item, Grows may ospf (step ospf item))
    (ospf : Ospf) (items : List Item) : Grows may ospf (items.foldl step ospf) := by
  induction items generalizing ospf with
  | nil => exact .refl
  | cons item rest ih => exact (each ospf item).trans (ih _)

section
variable (ospf : Ospf)

theorem grows_deleteNbrIf (oi : OspfInterface) (id : LsaId) :
    Grows may ospf (ospf.ospfLsRetransmitDeleteNbrIf oi id) := by
  rw [ospfLsRetransmitDeleteNbrIf]
  split
  · refine grows_foldl (fun state nbr => ?_) ospf _
    rw [retransmitDeleteNbr]
    split
    · exact .refl
    · split
      · exact grows_retransmitDelete state nbr _
      · exact .refl
  · exact .refl

theorem grows_deleteNbrArea (area : AreaId) (id : LsaId) :
    Grows may ospf (ospf.ospfLsRetransmitDeleteNbrArea area id) :=
  grows_foldl (fun state oi => grows_deleteNbrIf state oi id) ospf _

variable (id : LsaId)

theorem grows_deleteNbrAs : Grows may ospf (ospf.ospfLsRetransmitDeleteNbrAs id) :=
  grows_foldl (fun state oi => grows_deleteNbrIf state oi id) ospf _

theorem grows_sweepRetransmit : Grows may ospf (ospf.sweepRetransmit id) := by
  rw [sweepRetransmit]
  split
  · exact grows_deleteNbrAs ospf id
  · exact grows_deleteNbrArea ospf _ id

theorem grows_sweepCurrent (nbr : NbrId) (current : Option LsaId) :
    Grows may ospf (ospf.sweepCurrent nbr current) := by
  cases current with
  | none => exact .refl
  | some current =>
    rw [sweepCurrent]
    split
    · exact grows_deleteNbrAs ospf current
    · exact grows_deleteNbrArea ospf _ current

theorem grows_discard : Grows may ospf (ospf.ospfLsaDiscard id) := by
  rw [ospfLsaDiscard]
  split
  · exact .refl
  · exact (grows_modify ospf id rfl).trans (grows_unlock _ id)

theorem grows_maxageDelete : Grows may ospf (ospf.ospfLsaMaxageDelete id) := by
  rw [ospfLsaMaxageDelete]
  split
  · refine (grows_unlock ospf id).trans (grows_of_lsa rfl rfl rfl rfl
      (fun _ => rfl) (fun other member => ?_) fun _ member => .inl member)
    exact .inl (mem_of_mem_erase member)
  · exact .refl

end

theorem grows_maxage {id} (known : id < ospf.fresh) : Grows may ospf (ospf.ospfLsaMaxage id) := by
  rw [ospfLsaMaxage]
  split
  · exact .refl
  · refine (grows_lock ospf id).trans (grows_of_lsa rfl rfl rfl rfl
      (fun _ => rfl) (fun other member => ?_) fun _ member => .inl member)
    rcases mem_append.mp member with member | member
    · exact .inl member
    · exact .inr (mem_singleton.mp member ▸ known)

section
variable (ospf : Ospf)

theorem grows_discardFromDb (id : LsaId) : Grows may ospf (ospf.ospfDiscardFromDb id) := by
  rw [ospfDiscardFromDb]
  split
  · exact .refl
  · rename_i old _
    exact ((grows_sweepRetransmit ospf old).trans (grows_maxageDelete _ old)).trans
      (grows_discard _ old)

theorem nbr_lsdbOf (id : LsaId) : (ospf.lsdbOf id).nbr = none := by
  rw [lsdbOf]
  split <;> rfl

theorem grows_ackSend (nbr : NbrId) (id : LsaId) : Grows may ospf (ospf.ospfLsAckSend nbr id) :=
  (grows_lock ospf id).trans (grows_of_lsa rfl rfl rfl rfl
    (fun _ => rfl) (fun _ member => .inl member) fun _ member => .inl member)

theorem grows_delayedAck (nbr : NbrId) (id : LsaId) :
    Grows may ospf (ospf.ospfFloodDelayedLsaAck nbr id) := by
  rw [ospfFloodDelayedLsaAck]
  split
  · exact .refl
  · exact grows_ackSend ospf nbr id

theorem grows_selfOriginated (id : LsaId) : Grows may ospf (ospf.ospfLsaIsSelfOriginated id) := by
  rw [ospfLsaIsSelfOriginated]
  split
  · exact .refl
  · exact grows_modify ospf id rfl

theorem grows_notMoreRecent (nbr : NbrId) (current new : LsaId) :
    Grows may ospf (ospf.notMoreRecent nbr current new) := by
  rw [notMoreRecent]
  dsimp only
  split
  · exact grows_discard ospf new
  · split
    · split
      · rename_i lsRet found
        have gone : Grows may ospf (ospf.ospfLsRetransmitDelete nbr lsRet) :=
          grows_retransmitDelete ospf nbr lsRet
        split
        · exact (gone.trans (grows_ackSend _ nbr new)).trans (grows_discard _ new)
        · exact gone.trans (grows_discard _ new)
      · exact (grows_ackSend ospf nbr new).trans (grows_discard _ new)
    · split
      · exact grows_discard ospf new
      · split
        · exact (grows_send ospf _ current).trans (grows_discard _ new)
        · exact grows_discard ospf new

end

theorem grows_install {new} (known : new < ospf.fresh) :
    Grows may ospf (ospf.ospfLsaInstall new) := by
  have discarded : Grows may ospf (ospf.ospfDiscardFromDb new) := grows_discardFromDb ospf new
  have placed : Grows may ospf (ospf.place new) :=
    discarded.trans (grows_add (lt_of_lt_of_le known discarded.fresh) fun nbr listed => by
      rw [nbr_lsdbOf] at listed
      cases listed)
  have checked : Grows may ospf ((ospf.place new).checksumOwn new) := by
    rw [checksumOwn]
    split
    · exact placed.trans (grows_modify _ new rfl)
    · exact placed
  rw [ospfLsaInstall, maxageOther]
  split
  · exact checked.trans (grows_maxage (lt_of_lt_of_le known checked.fresh))
  · exact checked

section
variable (opens : Opens may ospf)
include opens

theorem grows_floodThrough {id} (known : id < ospf.fresh) (inbr : Option NbrId) :
    Grows may ospf (ospf.ospfFloodThrough inbr id).1 :=
  Turns.grows (turns_floodThrough ospf inbr) opens known

theorem grows_flush {id} (known : id < ospf.fresh) (turns : Turns id (ospf.setMaxage id) after) :
    Grows may ospf (after.ospfLsaMaxage id) := by
  have aged : Grows may ospf (ospf.setMaxage id) := grows_modify ospf id rfl
  have flooded := aged.trans (turns.grows (opens.grows aged) known)
  exact flooded.trans (grows_maxage (lt_of_lt_of_le known flooded.fresh))

theorem grows_flood {nbr current new} (known : new < ospf.fresh)
    (flooded : ospf.ospfFlood nbr current new = some after) : Grows may ospf after := by
  rw [ospfFlood] at flooded
  split at flooded
  · cases flooded
  · have swept :=
      (grows_floodThrough opens known (some nbr)).trans (grows_sweepCurrent _ nbr current)
    have marked := (swept.trans (grows_modify _ new rfl : Grows may _ (setReceived _ new))).trans
      (grows_selfOriginated _ new)
    have installed := marked.trans (grows_install (lt_of_lt_of_le known marked.fresh))
    cases flooded
    split
    · exact installed.trans (grows_delayedAck _ nbr new)
    · exact installed

theorem grows_flood_getD (nbr : NbrId) (current : Option LsaId) {new} (known : new < ospf.fresh) :
    Grows may ospf ((ospf.ospfFlood nbr current new).getD (ospf.ospfLsaDiscard new)) := by
  cases flooded : ospf.ospfFlood nbr current new with
  | none => exact grows_discard ospf new
  | some after => exact grows_flood opens known flooded

theorem grows_receiveLsa (nbr : NbrId) {new} (known : new < ospf.fresh) :
    Grows may ospf (ospf.receiveLsa nbr new) := by
  rw [receiveLsa]
  split
  · exact grows_discard ospf new
  · split
    · split
      · exact (grows_ackSend ospf nbr new).trans (grows_discard _ new)
      · exact grows_flood_getD opens nbr none known
    · rename_i current found
      split
      · exact grows_flood_getD opens nbr (some current) known
      · exact grows_notMoreRecent ospf nbr current new

theorem grows_lsUpd (nbr : NbrId) (data : LsaHeader) (body : List Octet) :
    Grows may ospf (ospf.ospfLsUpd nbr data body) := by
  rw [ospfLsUpd]
  split
  · exact .refl
  · split
    · exact .refl
    · have made := @grows_lsaNew may ospf
        (if 3600 < data.lsAge.toNat then { data with lsAge := 3600 } else data) body
      exact (made _ false).trans
        (grows_receiveLsa (opens.grows (made _ false)) nbr (Nat.lt_succ_self _))

theorem grows_made (key : LsaKey) (seqnum : BitVec 32) (area : Option AreaId) (options : Octet)
    (body : List Octet) :
    Grows may ospf (installAndFlood (ospf.lsaNew key seqnum area options body)) := by
  have made : Grows may ospf (ospf.lsaNew key seqnum area options body).1 := grows_lsaNew ..
  have known : ospf.fresh < (ospf.lsaNew key seqnum area options body).1.fresh := Nat.lt_succ_self _
  have installed := made.trans (grows_install known)
  exact installed.trans (grows_floodThrough (opens.grows installed)
    (lt_of_lt_of_le known (le_of_eq (install_fresh _ _).symm))
    none)

theorem grows_removerLoop {ids} (known : ∀ id ∈ ids, id < ospf.fresh) :
    Grows may ospf (ospf.removerLoop ids).1 := by
  induction ids generalizing ospf with
  | nil => exact .refl
  | cons id rest ih =>
    have ahead (other : LsaId) (member : other ∈ rest) := known other (mem_cons_of_mem id member)
    rw [removerLoop]
    split
    · exact ih opens ahead
    · have flooded := grows_floodThrough opens (known id mem_cons_self) none
      have removed : Grows may ospf (ospf.removeEntry id) :=
        (flooded.trans (grows_discardFromDb _ id)).trans (grows_delete _ _ id)
      exact removed.trans (ih (opens.grows removed) fun other member =>
        lt_of_lt_of_le (ahead other member) removed.fresh)

end

theorem grows_lsAck (ospf : Ospf) (nbr : NbrId) (data : LsaHeader) :
    Grows may ospf (ospf.ospfLsAck nbr data) := by
  rw [ospfLsAck]
  split
  · exact .refl
  · split
    · exact .refl
    · rename_i lsr found
      split
      · exact grows_retransmitDelete ospf nbr lsr
      · exact .refl

theorem grows_walk (ospf : Ospf) {ids : List LsaId} (known : ∀ id ∈ ids, id < ospf.fresh) :
    Grows may ospf (ids.foldl ospfLsaMaxageWalkerRemover ospf) := by
  induction ids generalizing ospf with
  | nil => exact .refl
  | cons id rest ih =>
    have turned : Grows may ospf (ospf.ospfLsaMaxageWalkerRemover id) := by
      rw [ospfLsaMaxageWalkerRemover]
      split
      · have marked : Grows may ospf (ospf.ospfLsaIsSelfOriginated id) :=
          grows_selfOriginated ospf id
        dsimp only
        split
        · exact marked
        · exact marked.trans (grows_maxage (lt_of_lt_of_le (known id mem_cons_self) marked.fresh))
      · exact .refl
    exact turned.trans (ih _ fun other member =>
      lt_of_lt_of_le (known other (mem_cons_of_mem id member)) turned.fresh)

theorem Kept.grows_action (kept : ospf.Kept) (opens : Opens may ospf) :
    Grows may ospf ospf.ospfLsaAction := by
  rw [ospfLsaAction]
  split
  · exact .refl
  · rename_i area id rest waiting
    have known : id < ospf.fresh :=
      kept.lsaActions (area, id) (by rw [waiting]; exact mem_cons_self)
    have taken : Grows may ospf { ospf with lsaActions := rest } :=
      grows_of_lsa rfl rfl rfl rfl (fun _ => rfl) (fun _ member => .inl member) fun entry member =>
        .inl (by rw [waiting]; exact .tail _ member)
    exact (taken.trans (grows_flush (opens.grows taken) known (turns_floodOver _ none _))).trans
      (grows_unlock _ id)

theorem Kept.walked (kept : ospf.Kept) {id} (member : id ∈ ospf.walked) : id < ospf.fresh := by
  obtain ⟨db, -, present⟩ := mem_flatMap.mp member
  obtain ⟨entry, here, info⟩ := mem_filterMap.mp present
  refine (kept.filed db entry.1 id ?_).1
  rw [Lsdb.lookup, AList.lookup, List.mem_dlookup (ospf.lsdb db).nodes.nodupKeys here]
  exact info

end Ospf

/-- The instance that a step is given by its caller. -/
def OspfOp.names : OspfOp → Option LsaId
  | .routerRefresh lsa _ _ | .networkRefresh lsa _ _ _ _ | .summaryRefresh lsa _
    _ | .summaryAsbrRefresh lsa _ _ => some lsa
  | .externalRefresh lsa _ _ => some lsa
  | .flushArea id _ | .flushAs id | .flushSchedule id | .scheduleFlushArea _ id => some id
  | _ => none

namespace Ospf
variable {may : NbrId → Prop} {ospf : Ospf}

/-- No step of the router touches the state of a neighbour, and its lists grow only from Exchange
  on. -/
theorem Kept.grows_step (kept : ospf.Kept) (opens : Opens may ospf) {op : OspfOp}
    (names : ∀ id ∈ op.names, id < ospf.fresh)
    (other : ∀ nbr state, op ≠ .nbrState nbr state) : Grows may ospf (ospf.step op) := by
  cases op with
  | tick elapsed =>
    exact grows_of_lsa rfl rfl rfl rfl (fun _ => rfl)
      (fun _ member => .inl member) fun _ member => .inl member
  | nbrState nbr state => exact absurd rfl (other nbr state)
  | lsUpd nbr data body => exact grows_lsUpd opens nbr data body
  | lsAck nbr data => exact grows_lsAck ospf nbr data
  | routerOriginate area options body =>
    rw [step, ospfRouterLsaOriginate]
    split
    · exact (grows_lsaNew ospf ..).trans (grows_discard _ _)
    · exact grows_made opens ..
  | networkOriginate area dr fullNbrs options body =>
    rw [step, ospfNetworkLsaOriginate]
    split
    · exact .refl
    · exact grows_made opens ..
  | summaryOriginate area id options body => exact grows_made opens ..
  | summaryAsbrOriginate area id options body => exact grows_made opens ..
  | externalOriginate id options body =>
    rw [step, ospfExternalLsaOriginate]
    split
    · exact .refl
    · exact grows_made opens ..
  | routerRefresh lsa options body =>
    have swept : Grows may ospf (ospf.ospfLsRetransmitDeleteNbrArea (ospf.areaOf lsa) lsa) :=
      grows_deleteNbrArea ospf _ lsa
    exact swept.trans (grows_made (opens.grows swept) ..)
  | networkRefresh lsa dr fullNbrs options body =>
    have swept : Grows may ospf (ospf.ospfLsRetransmitDeleteNbrArea (ospf.areaOf lsa) lsa) :=
      grows_deleteNbrArea ospf _ lsa
    rw [step, ospfNetworkLsaRefresh]
    split
    · exact swept
    · exact swept.trans (grows_made (opens.grows swept) ..)
  | summaryRefresh lsa options body => exact grows_made opens ..
  | summaryAsbrRefresh lsa options body => exact grows_made opens ..
  | externalRefresh lsa options body =>
    have swept : Grows may ospf (ospf.ospfLsRetransmitDeleteNbrAs lsa) := grows_deleteNbrAs ospf lsa
    exact swept.trans (grows_made (opens.grows swept) ..)
  | flushArea id area => exact grows_flush opens (names id rfl) (turns_floodOver _ none _)
  | flushAs id => exact grows_flush opens (names id rfl) (turns_floodOver _ none _)
  | flushSchedule id =>
    rw [step, ospfLsaFlushSchedule]
    split
    · exact grows_flush opens (names id rfl) .refl
    · exact .refl
  | scheduleFlushArea area id =>
    refine (grows_lock ospf id).trans (grows_of_lsa rfl rfl rfl rfl
      (fun _ => rfl) (fun _ member => .inl member) fun entry member => ?_)
    rcases mem_append.mp member with member | member
    · exact .inl member
    · exact .inr (mem_singleton.mp member ▸ names id rfl)
  | action => exact kept.grows_action opens
  | maxageWalker => exact grows_walk ospf fun id member => kept.walked member
  | maxageRemover =>
    rw [step, ospfMaxageLsaRemover]
    split
    · exact grows_removerLoop opens kept.maxageLsa
    · exact .refl

theorem Started.kept (started : ospf.Started) : ospf.Kept where
  filed := fun db key id found => by
    rw [started.lookup db key] at found
    cases found
  totalled := fun db => by
    rw [lsdb, started.lsdbs]
    rfl
  maxageLsa := fun id member => absurd (started.maxageLsa ▸ member) not_mem_nil
  lsaActions := fun entry member => absurd (started.lsaActions ▸ member) not_mem_nil

end Ospf
end Zebra.Ospfd
