import Zebra.Ospfd.Install

namespace Zebra.Ospfd
open Base Relation Function Store
namespace Ospf

/-- A single change of a neighbour's list, when the instance being flooded is `added`. -/
inductive Turn (added : LsaId) : Ospf → Ospf → Prop
  | retransmitAdd (ospf : Ospf) (nbr : NbrId)
  (ready : NsmState.exchange.rank ≤ (ospf.nbr nbr).state.rank) :
      Turn added ospf (ospf.ospfLsRetransmitAdd nbr added)
  | retransmitDelete (ospf : Ospf) (nbr : NbrId) {key : LsaKey} {id : LsaId}
      (found : (ospf.lsdb (.lsRxmt nbr)).lookup key = some id) :
        Turn added ospf (ospf.ospfLsRetransmitDelete nbr id)
  | requestDelete (ospf : Ospf) (nbr : NbrId) {key : LsaKey} {id : LsaId}
      (found : (ospf.lsdb (.lsReq nbr)).lookup key = some id) :
        Turn added ospf (ospf.ospfLsRequestDelete nbr id)
  | send (ospf : Ospf) (dst : UpdateTo) : Turn added ospf (ospf.ospfLsUpdSendLsa dst added)

abbrev Turns (added : LsaId) : Ospf → Ospf → Prop :=
  ReflTransGen (Turn added)

variable {added : LsaId}

theorem turns_foldl {Item : Type} {step : Ospf → Item → Ospf}
    (each : ∀ ospf item, Turns added ospf (step ospf item))
    (ospf : Ospf) (items : List Item) : Turns added ospf (items.foldl step ospf) := by
  induction items generalizing ospf with
  | nil => exact .refl
  | cons item rest ih => exact (each ospf item).trans (ih _)

theorem turns_foldl_fst {Item : Type} {step : Ospf × Bool → Item → Ospf × Bool}
    (each : ∀ state item, Turns added state.1 (step state item).1) (state : Ospf × Bool)
    (items : List Item) :
    Turns added state.1 (items.foldl step state).1 := by
  induction items generalizing state with
  | nil => exact .refl
  | cons item rest ih => exact (each state item).trans (ih _)

theorem turns_retransmitDeleteNbr (id : LsaId) (ospf : Ospf) (nbr : NbrId) :
    Turns added ospf (retransmitDeleteNbr id ospf nbr) := by
  rw [retransmitDeleteNbr]
  split
  · exact .refl
  · rename_i lsr found
    split
    · exact .single (.retransmitDelete ospf nbr found)
    · exact .refl

variable (ospf : Ospf) (oi : OspfInterface)

theorem turns_deleteNbrIf (id : LsaId) :
    Turns added ospf (ospf.ospfLsRetransmitDeleteNbrIf oi id) := by
  rw [ospfLsRetransmitDeleteNbrIf]
  split
  · exact turns_foldl (turns_retransmitDeleteNbr id) ospf _
  · exact .refl

theorem turns_deleteNbrArea (area : AreaId) (id : LsaId) :
    Turns added ospf (ospf.ospfLsRetransmitDeleteNbrArea area id) :=
  turns_foldl (fun ospf oi => turns_deleteNbrIf ospf oi id) ospf _

theorem turns_deleteNbrAs (id : LsaId) : Turns added ospf (ospf.ospfLsRetransmitDeleteNbrAs id) :=
  turns_foldl (fun ospf oi => turns_deleteNbrIf ospf oi id) ospf _

theorem turns_sweepRetransmit (id : LsaId) : Turns added ospf (ospf.sweepRetransmit id) := by
  rw [sweepRetransmit]
  split
  · exact turns_deleteNbrAs ospf id
  · exact turns_deleteNbrArea ospf _ id

theorem turns_sweepCurrent (nbr : NbrId) (current : Option LsaId) :
    Turns added ospf (ospf.sweepCurrent nbr current) := by
  cases current with
  | none => exact .refl
  | some current =>
    rw [sweepCurrent]
    split
    · exact turns_deleteNbrAs ospf current
    · exact turns_deleteNbrArea ospf _ current

theorem state_requestDelete (nbr : NbrId) (id : LsaId) (other : NbrId) :
    ((ospf.ospfLsRequestDelete nbr id).nbr other).state = (ospf.nbr other).state := by
  rw [ospfLsRequestDelete]
  split
  · change (update ospf.nbr nbr { ospf.nbr nbr with lsReqLast := none } other).state = _
    by_cases same : other = nbr
    · rw [same, update_self]
    · rw [update_of_ne same]
  · rfl

variable (inbr : Option NbrId)

theorem turns_floodOffer {nbr ospf} (retx : Bool)
    (ready : NsmState.exchange.rank ≤ (ospf.nbr nbr).state.rank) :
    Turns added ospf (floodOffer inbr added nbr ospf retx).1 := by
  rw [floodOffer]
  split
  · exact .refl
  · exact .single (.retransmitAdd ospf nbr ready)

theorem turns_floodNbr (state : Ospf × Bool) (nbr : NbrId) :
    Turns added state.1 (floodNbr inbr added state nbr).1 := by
  rw [floodNbr]
  dsimp only
  split
  · exact .refl
  · rename_i early
    have ready := Nat.le_of_not_lt early
    split
    · split
      · exact turns_floodOffer inbr state.2 ready
      · rename_i lsReq found
        split
        · exact .refl
        · have gone : Turns added state.1 (state.1.ospfLsRequestDelete nbr lsReq) :=
            .single (.requestDelete _ nbr found)
          split
          · exact gone
          · refine gone.trans (turns_floodOffer inbr state.2 ?_)
            rwa [state_requestDelete]
    · exact turns_floodOffer inbr state.2 ready

theorem turns_sendOut : Turns added ospf (ospf.sendOut oi added) := by
  rw [sendOut]
  split
  · exact turns_foldl (fun ospf nbr => .single (.send ospf (.direct nbr))) ospf _
  · exact .single (.send ospf _)

theorem turns_floodThroughInterface (inbr : Option NbrId) :
    Turns added ospf (ospf.ospfFloodThroughInterface oi inbr added).1 := by
  rw [ospfFloodThroughInterface]
  split
  · exact .refl
  · have flooded : Turns added ospf (oi.nbrs.foldl (floodNbr inbr added) (ospf, false)).1 :=
      turns_foldl_fst (turns_floodNbr inbr) (ospf, false) _
    dsimp only
    split
    · exact flooded
    · split
      · exact flooded
      · split
        · exact flooded
        · exact flooded.trans (turns_sendOut _ oi)

theorem turns_floodOi (state : Ospf × Bool) (oi : OspfInterface) :
    Turns added state.1 (floodOi inbr added state oi).1 :=
  turns_floodThroughInterface state.1 oi inbr

theorem turns_floodOver (ois : List OspfInterface) :
    Turns added ospf (ospf.floodOver inbr added ois).1 :=
  turns_foldl_fst (turns_floodOi inbr) (ospf, false) ois

theorem turns_floodThrough : Turns added ospf (ospf.ospfFloodThrough inbr added).1 := by
  rw [ospfFloodThrough]
  split
  · exact turns_floodOver ospf inbr _
  · exact turns_floodOver ospf inbr _

end Ospf

/-- An instance without its counters. -/
def OspfLsa.core (lsa : OspfLsa) : OspfLsa :=
  { lsa with lock := 0, retransmitCounter := 0 }

namespace Store

/-- Only counters of the instances changed, and the database named. -/
structure Quiet (db : DbId) (before after : Store) : Prop where
  core : ∀ id, (after.lsa id).core = (before.lsa id).core
  lsdb : ∀ other, other ≠ db → after.lsdb other = before.lsdb other

variable {db : DbId} {store middle after : Store}

theorem Quiet.refl : Quiet db store store :=
  ⟨fun _ => rfl, fun _ _ => rfl⟩

theorem Quiet.trans (first : Quiet db store middle) (second : Quiet db middle after) :
    Quiet db store after :=
  ⟨fun id => (second.core id).trans (first.core id),
    fun other apart => (second.lsdb other apart).trans (first.lsdb other apart)⟩

variable (store : Store)
variable (id : LsaId)

theorem quiet_modifyLsa {change} (same : ∀ lsa, (change lsa).core = lsa.core) :
    Quiet db store (store.modifyLsa id change) where
  core := fun other => by
    by_cases here : other = id
    · subst here
      simp [modifyLsa, same]
    · simp [modifyLsa, update_of_ne here]
  lsdb := fun _ _ => rfl

theorem quiet_lockLsa (amount : Int) : Quiet db store (store.lockLsa id amount) :=
  quiet_modifyLsa store id fun _ => rfl

theorem quiet_setLsdb (lsdb : Lsdb) : Quiet db store (store.setLsdb db lsdb) :=
  ⟨fun _ => rfl, fun _ apart => lsdb_setLsdb_ne store lsdb apart⟩

theorem quiet_ospfLsaLock : Quiet db store (store.ospfLsaLock id) :=
  ⟨(quiet_lockLsa store id 1 : Quiet db _ _).core, fun _ _ => rfl⟩

theorem quiet_ospfLsaUnlock : Quiet db store (store.ospfLsaUnlock id) :=
  ⟨(quiet_lockLsa store id (-1) : Quiet db _ _).core, fun _ _ => rfl⟩

theorem quiet_ospfLsdbAdd (db : DbId) (id : LsaId) : Quiet db store (store.ospfLsdbAdd db id) := by
  rw [ospfLsdbAdd]
  split
  · exact (quiet_setLsdb store _).trans (quiet_lockLsa _ id 1)
  · rename_i old found
    split
    · exact quiet_setLsdb store _
    · exact ((quiet_lockLsa store old (-1)).trans (quiet_setLsdb _ _)).trans (quiet_lockLsa _ id 1)

theorem quiet_dropInfo (db : DbId) (key : LsaKey) (node : LsdbNode) (id : LsaId) :
    Quiet db store (store.dropInfo db key node id) :=
  (quiet_setLsdb store _).trans (quiet_lockLsa _ id (-1))

theorem quiet_ospfLsdbDelete (db : DbId) (id : LsaId) :
    Quiet db store (store.ospfLsdbDelete db id) := by
  rw [ospfLsdbDelete]
  split
  · exact .refl
  · split
    · exact .refl
    · split
      · exact quiet_dropInfo ..
      · exact quiet_setLsdb store _

end Store

/-- The databases of the router itself, not the lists of a neighbour. -/
def DbId.own : DbId → Bool
  | .as | .area _ => true
  | _ => false

namespace Ospf

/-- Flooding leaves the instances and the databases of the router alone. -/
structure Quiet (before after : Ospf) : Prop where
  now : after.now = before.now
  routerId : after.routerId = before.routerId
  fresh : after.fresh = before.fresh
  areas : after.areas = before.areas
  oiflist : after.oiflist = before.oiflist
  maxageLsa : after.maxageLsa = before.maxageLsa
  lsaActions : after.lsaActions = before.lsaActions
  core : ∀ id, (after.lsa id).core = (before.lsa id).core
  lsdb : ∀ db, db.own = true → after.lsdb db = before.lsdb db

variable {ospf middle after : Ospf} {added : LsaId}

theorem Quiet.refl : Quiet ospf ospf :=
  ⟨rfl, rfl, rfl, rfl, rfl, rfl, rfl, fun _ => rfl, fun _ _ => rfl⟩

theorem Quiet.trans (first : Quiet ospf middle) (second : Quiet middle after) : Quiet ospf after :=
  ⟨second.now.trans first.now, second.routerId.trans first.routerId, second.fresh.trans first.fresh,
    second.areas.trans first.areas, second.oiflist.trans first.oiflist,
      second.maxageLsa.trans first.maxageLsa,
    second.lsaActions.trans first.lsaActions, fun id => (second.core id).trans (first.core id),
    fun db own => (second.lsdb db own).trans (first.lsdb db own)⟩

theorem quiet_onStore (ospf : Ospf) {change} (db : DbId) (listed : db.own = false)
    (quiet : Store.Quiet db ospf.toStore (change ospf.toStore)) :
    Quiet ospf (ospf.onStore change) :=
  ⟨rfl, rfl, rfl, rfl, rfl, rfl, rfl, quiet.core, fun other own => quiet.lsdb other fun same => by
    rw [same, listed] at own
    cases own⟩

theorem quiet_count (ospf : Ospf) (id : LsaId) (amount : Int) : Quiet ospf (ospf.count id amount) :=
  quiet_onStore ospf (.lsRxmt 0) rfl (quiet_modifyLsa _ id fun _ => rfl)

theorem quiet_delete (ospf : Ospf) {db} (listed : db.own = false) (id : LsaId) :
    Quiet ospf (ospf.onStore (·.ospfLsdbDelete db id)) :=
  quiet_onStore ospf db listed (quiet_ospfLsdbDelete ospf.toStore db id)

theorem quiet_add (ospf : Ospf) {db} (listed : db.own = false) (id : LsaId) :
    Quiet ospf (ospf.onStore (·.ospfLsdbAdd db id)) :=
  quiet_onStore ospf db listed (quiet_ospfLsdbAdd ospf.toStore db id)

theorem Turn.quiet (turn : Turn added ospf after) : Quiet ospf after := by
  cases turn with
  | retransmitAdd nbr ready =>
    rw [ospfLsRetransmitAdd]
    split
    · refine Quiet.trans ?_ ((quiet_count _ added 1).trans (quiet_add _ rfl added))
      split
      · exact .refl
      · rename_i old found
        exact (quiet_count ospf old (-1)).trans (quiet_delete _ rfl old)
    · exact .refl
  | retransmitDelete nbr found =>
    rw [ospfLsRetransmitDelete]
    split
    · exact (quiet_count ospf _ (-1)).trans (quiet_delete _ rfl _)
    · exact .refl
  | requestDelete nbr found =>
    refine Quiet.trans ?_ (quiet_delete _ rfl _)
    split
    · exact ⟨rfl, rfl, rfl, rfl, rfl, rfl, rfl,
        (quiet_ospfLsaUnlock ospf.toStore _ : Store.Quiet .as _ _).core,
        fun _ _ => rfl⟩
    · exact .refl
  | send dst =>
    exact ⟨rfl, rfl, rfl, rfl, rfl, rfl, rfl,
      (quiet_ospfLsaLock ospf.toStore added : Store.Quiet .as _ _).core,
      fun _ _ => rfl⟩

theorem Turns.quiet (turns : Turns added ospf after) : Quiet ospf after := by
  induction turns with
  | refl => exact .refl
  | tail _ turn ih => exact ih.trans turn.quiet

end Ospf
end Zebra.Ospfd
