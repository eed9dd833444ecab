import Zebra.Base.Run
import Zebra.Ospfd.Maxage

namespace Zebra.Ospfd
open Base Ospf Alike OspfLsa Option
namespace Ospf

/-- What the databases hold was given out. -/
def Known (ospf : Ospf) : Prop :=
  ∀ db, db.own = true → ∀ key id, (ospf.lsdb db).lookup key = some id → id < ospf.fresh

/-- A place of a database keeps its instance, loses it, or gets one that is more recent. -/
structure Forward (before after : Ospf) : Prop where
  fresh : before.fresh ≤ after.fresh
  lookup : ∀ db, db.own = true → ∀ key, (after.lsdb db).lookup key = (before.lsdb db).lookup key ∨
    (after.lsdb db).lookup key = none ∨ ∃ new, (after.lsdb db).lookup key = some new ∧
      new < after.fresh ∧
      ∀ old, (before.lsdb db).lookup key = some old →
        moreRecent after.now (before.lsa old) (after.lsa new) < 0

variable {ospf after : Ospf}

theorem Known.forward (known : ospf.Known) (forward : Forward ospf after) : after.Known := by
  intro db own key id found
  rcases forward.lookup db own key with same | missing | ⟨new, here, below, -⟩
  · exact lt_of_lt_of_le (known db own key id (same ▸ found)) forward.fresh
  · rw [missing] at found
    cases found
  · rw [here, some.injEq] at found
    exact found ▸ below

/-- Nothing comes in. -/
structure Shrinks (before after : Ospf) : Prop where
  fresh : before.fresh ≤ after.fresh
  lookup : ∀ db, db.own = true → ∀ key, (after.lsdb db).lookup key = (before.lsdb db).lookup key ∨
    (after.lsdb db).lookup key = none

theorem Shrinks.trans {middle} (first : Shrinks ospf middle) (second : Shrinks middle after) :
    Shrinks ospf after where
  fresh := le_trans first.fresh second.fresh
  lookup := fun db own key => by
    rcases second.lookup db own key with same | missing
    · rw [same]
      exact first.lookup db own key
    · exact .inr missing

theorem Shrinks.forward (shrinks : Shrinks ospf after) : Forward ospf after where
  fresh := shrinks.fresh
  lookup := fun db own key => (shrinks.lookup db own key).imp_right .inl

theorem Alike.shrinks (alike : Alike ospf after) : Shrinks ospf after :=
  ⟨le_of_eq alike.fresh.symm, fun db own key => .inl (alike.lookup db own key)⟩

theorem Alike.forward (alike : Alike ospf after) : Forward ospf after :=
  alike.shrinks.forward

theorem forward_of_place {place at_key new} (fresh : ospf.fresh ≤ after.fresh)
    (below : new < after.fresh) (lookup : ∀ db, db.own = true → ∀ key, (after.lsdb db).lookup key =
      if db = place ∧ key = at_key then some new else (ospf.lsdb db).lookup key)
    (recent : ∀ old, (ospf.lsdb place).lookup at_key = some old →
      moreRecent after.now (ospf.lsa old) (after.lsa new) < 0) :
    Forward ospf after where
  fresh := fresh
  lookup := fun db own key => by
    rw [lookup db own key]
    split
    · rename_i here
      obtain ⟨rfl, rfl⟩ := here
      exact .inr (.inr ⟨new, rfl, below, recent⟩)
    · exact .inl rfl

variable {data : LsaHeader} {body : List Octet} {area : Option AreaId} {key : LsaKey}
  {options : Octet}

theorem forward_of_install {self ready}
    (prepared : Alike (ospf.ospfLsaNew data body area self).1 ready)
    (finished : Alike (ready.ospfLsaInstall ospf.fresh) after)
    (recent : ∀ old, ((ospf.ospfLsaNew data body area self).1.installed ospf.fresh) = some old →
      moreRecent ospf.now (ospf.lsa old) (after.lsa ospf.fresh) < 0) : Forward ospf after := by
  have fresh : after.fresh = ospf.fresh + 1 :=
    finished.fresh.trans ((install_fresh ready _).trans prepared.fresh)
  have now : after.now = ospf.now := finished.now.trans ((install_now ready _).trans prepared.now)
  refine forward_of_place (fresh ▸ Nat.le_succ _) (fresh ▸ Nat.lt_succ_self _)
    (fun db own key => ?_) (now ▸ recent)
  rw [finished.lookup db own, lookup_install ready _ own, prepared.lookup db own, prepared.lsdbOf,
    (prepared.lsa ospf.fresh).key]
  rfl

theorem alike_of_install {made ready new} (prepared : Alike made ready)
    (finished : Alike (ready.ospfLsaInstall new) after) : (made.lsa new).Alike (after.lsa new) :=
  ((prepared.lsa new).trans (install_lsa ready new new)).trans (finished.lsa new)

/-- The database and the key of an instance that is made. -/
def placeOf (key : LsaKey) (area : Option AreaId) : DbId :=
  if key.type = .asExternal then .as else .area (area.getD backbone)

theorem own_placeOf (key : LsaKey) (area : Option AreaId) : (placeOf key area).own = true := by
  rw [placeOf]
  split <;> rfl

theorem shrinks_flush {id} (quiet : Quiet (ospf.setMaxage id) after) :
    Shrinks ospf (after.ospfLsaMaxage id) := by
  have aged : Shrinks ospf (ospf.setMaxage id) := ⟨le_rfl, fun _ _ _ => .inl rfl⟩
  exact aged.trans (quiet.alike.trans (alike_maxage after id)).shrinks

section
variable (ospf : Ospf)

theorem installed_lsaNew (data : LsaHeader) (body : List Octet) (area : Option AreaId)
    (self : Bool) :
    (ospf.ospfLsaNew data body area self).1.installed ospf.fresh =
      (ospf.lsdb (placeOf data.key area)).lookup data.key := by
  rw [installed, lsdbOf, areaOf, lsaNew_self]
  rfl

theorem alike_notMoreRecent (nbr : NbrId) (current new : LsaId) :
    Alike ospf (ospf.notMoreRecent nbr current new) := by
  rw [notMoreRecent]
  dsimp only
  split
  · exact alike_discard ospf new
  · split
    · split
      · rename_i lsRet found
        have gone := (quiet_retransmitDelete ospf found).alike
        split
        · exact (gone.trans (alike_ackSend _ nbr new)).trans (alike_discard _ new)
        · exact gone.trans (alike_discard _ new)
      · exact (alike_ackSend ospf nbr new).trans (alike_discard _ new)
    · split
      · exact alike_discard ospf new
      · split
        · exact (alike_sendLsa ospf _ current).trans (alike_discard _ new)
        · exact alike_discard ospf new

theorem shrinks_lsaNew (data : LsaHeader) (body : List Octet) (area : Option AreaId) (self : Bool) :
    Shrinks ospf (ospf.ospfLsaNew data body area self).1 :=
  ⟨Nat.le_succ _, fun _ _ _ => .inl rfl⟩

theorem forward_lsAck (nbr : NbrId) (data : LsaHeader) :
    Forward ospf (ospf.ospfLsAck nbr data) := by
  rw [ospfLsAck]
  split
  · exact refl.forward
  · split
    · exact refl.forward
    · rename_i lsr found
      split
      · exact (quiet_retransmitDelete ospf found).alike.forward
      · exact refl.forward

theorem shrinks_action : Shrinks ospf ospf.ospfLsaAction := by
  rw [ospfLsaAction]
  split
  · exact refl.shrinks
  · rename_i area id rest _
    have flushed := shrinks_flush
      (quiet_floodThroughArea (({ ospf with lsaActions := rest } : Ospf).setMaxage id) area none id)
    have taken : Shrinks ospf { ospf with lsaActions := rest } := ⟨le_rfl, fun _ _ _ => .inl rfl⟩
    exact (taken.trans flushed).trans (alike_unlock _ id).shrinks

theorem alike_walk (ids : List LsaId) : Alike ospf (ids.foldl ospfLsaMaxageWalkerRemover ospf) := by
  induction ids generalizing ospf with
  | nil => exact .refl
  | cons id rest ih =>
    refine trans ?_ (ih _)
    rw [ospfLsaMaxageWalkerRemover]
    split
    · dsimp only
      split
      · exact alike_selfOriginated ospf id
      · exact (alike_selfOriginated ospf id).trans (alike_maxage _ id)
    · exact .refl

theorem shrinks_delete (db : DbId) (id : LsaId) :
    Shrinks ospf (ospf.onStore (·.ospfLsdbDelete db id)) where
  fresh := le_rfl
  lookup := fun other own key => by
    by_cases same : other = db
    · subst same
      have found := Store.lookup_ospfLsdbDelete ospf.toStore other id key
      split at found
      · exact .inr found
      · exact .inl found
    · exact .inl (congrArg (Lsdb.lookup · key)
        ((Store.quiet_ospfLsdbDelete ospf.toStore db id).lsdb other same))

theorem shrinks_removerLoop (ids : List LsaId) : Shrinks ospf (ospf.removerLoop ids).1 := by
  induction ids generalizing ospf with
  | nil => exact refl.shrinks
  | cons id rest ih =>
    rw [removerLoop]
    split
    · exact ih ospf
    · have alike := (quiet_floodThrough ospf none id).alike.trans (alike_discardFromDb _ id)
      exact (alike.shrinks.trans (shrinks_delete _ _ id)).trans (ih (ospf.removeEntry id))

theorem shrinks_remover : Shrinks ospf ospf.ospfMaxageLsaRemover.1 := by
  rw [ospfMaxageLsaRemover]
  split
  · exact shrinks_removerLoop ospf _
  · exact refl.shrinks

end

theorem forward_lsaNew {seqnum}
    (later : ∀ old, (ospf.lsdb (placeOf key area)).lookup key = some old →
      (ospf.lsa old).data.lsSeqnum.toInt < seqnum.toInt) :
    Forward ospf (installAndFlood (ospf.lsaNew key seqnum area options body)) := by
  have finished :=
    (quiet_floodThrough
    ((ospf.lsaNew key seqnum area options body).1.ospfLsaInstall ospf.fresh) none
    ospf.fresh).alike
  refine forward_of_install .refl finished fun old found => moreRecent_of_seqnum ?_
  rw [installed_lsaNew] at found
  have same :
      ((installAndFlood (ospf.lsaNew key seqnum area options body)).lsa ospf.fresh).data.lsSeqnum =
      seqnum := by
    refine (alike_of_install .refl finished).lsSeqnum.trans ?_
    rw [lsaNew, lsaNew_self]
  rw [same]
  exact later old found

theorem forward_originate (below : ∀ old, (ospf.lsdb (placeOf key area)).lookup key = some old →
      (ospf.lsa old).data.lsSeqnum.toInt < ospfInitialSequenceNumber.toInt) :
    Forward ospf (ospf.originate key area options body) :=
  forward_lsaNew below

theorem moreRecent_alike {now l1 l2 other} (alike : l2.Alike other)
    (right : l2.data.checksum = ospfLsaChecksum l2) :
    moreRecent now l1 other = moreRecent now l1 l2 := by
  have checksum : other.data.checksum = l2.data.checksum := by
    rcases alike.checksum with same | computed
    · exact same
    · exact computed.trans right.symm
  have age : other.lsAge now = l2.lsAge now := by
    rw [lsAge, lsAge, getAge, getAge, alike.lsAge, alike.tvRecv]
  rw [moreRecent, moreRecent, alike.lsSeqnum, checksum, alike.isMaxage, age]

theorem flood_install {nbr current new} (flooded : ospf.ospfFlood nbr current new = some after) :
    ∃ ready, Alike ospf ready ∧ Alike (ready.ospfLsaInstall new) after := by
  rw [ospfFlood] at flooded
  split at flooded
  · cases flooded
  · cases flooded
    have prepared :=
      (((quiet_floodThrough ospf (some nbr) new).trans
      (quiet_sweepCurrent _ nbr current)).alike.trans
      (alike_setReceived _ new)).trans (alike_selfOriginated _ new)
    refine ⟨_, prepared, ?_⟩
    split
    · exact alike_delayedAck _ nbr new
    · exact .refl

/-- An instance with its right checksum comes in when it is more recent, or when there is none. -/
theorem Known.forward_flood (known : ospf.Known) {nbr current}
    (right : data.checksum = ospfLsaChecksum { data := data, body := body })
    (flooded : (ospf.ospfLsaNew data body area false).1.ospfFlood nbr current ospf.fresh =
      some after)
    (recent : ∀ old, (ospf.ospfLsaNew data body area false).1.installed ospf.fresh = some old →
      moreRecent ospf.now
      ((ospf.ospfLsaNew data body area false).1.lsa old)
      ((ospf.ospfLsaNew data body area false).1.lsa ospf.fresh) < 0) :
    Forward ospf after := by
  obtain ⟨ready, prepared, finished⟩ := flood_install flooded
  refine forward_of_install prepared finished fun old found => ?_
  have sum : ((ospf.ospfLsaNew data body area false).1.lsa ospf.fresh).data.checksum =
      ospfLsaChecksum ((ospf.ospfLsaNew data body area false).1.lsa ospf.fresh) := by
    rw [lsaNew_self]
    exact right
  have stored := recent old found
  rw [installed_lsaNew] at found
  have below : old < ospf.fresh := known _ (own_placeOf data.key area) _ _ found
  rw [moreRecent_alike (alike_of_install prepared finished) sum, ← lsaNew_of_ne ospf data body area
    false (ne_of_lt below)]
  exact stored

theorem Known.forward_receiveLsa (known : ospf.Known) (area : Option AreaId) (nbr : NbrId)
    (right : data.checksum = ospfLsaChecksum { data := data, body := body }) :
    Forward ospf ((ospf.ospfLsaNew data body area false).1.receiveLsa nbr ospf.fresh) := by
  have made := shrinks_lsaNew ospf data body area false
  have discarded := (made.trans (alike_discard _ ospf.fresh).shrinks).forward
  rw [receiveLsa]
  split
  · exact discarded
  · split
    · rename_i missing
      split
      · exact (made.trans ((alike_ackSend _ nbr _).trans (alike_discard _ _)).shrinks).forward
      · cases flooded : (ospf.ospfLsaNew data body area false).1.ospfFlood nbr none ospf.fresh with
        | none => exact discarded
        | some after =>
          refine known.forward_flood right flooded fun old found => ?_
          rw [missing] at found
          cases found
    · rename_i current here
      split
      · rename_i recent
        cases flooded :
          (ospf.ospfLsaNew data body area false).1.ospfFlood nbr (some current) ospf.fresh with
        | none => exact discarded
        | some after =>
          refine known.forward_flood right flooded fun old found => ?_
          rw [here, some.injEq] at found
          exact found ▸ recent
      · exact (made.trans (alike_notMoreRecent _ nbr current _).shrinks).forward

theorem Known.forward_lsUpd (known : ospf.Known) (nbr : NbrId) (data : LsaHeader)
    (body : List Octet) :
    Forward ospf (ospf.ospfLsUpd nbr data body) := by
  rw [ospfLsUpd]
  split
  · exact refl.forward
  · split
    · exact refl.forward
    · rename_i same
      refine known.forward_receiveLsa _ nbr ?_
      -- an age above MaxAge is cut, and the checksum does not cover it
      split
      · exact (not_not.mp same).symm
      · exact (not_not.mp same).symm

/-- Sweeping the lists of the neighbours first changes nothing here. -/
theorem Quiet.forward {middle} (quiet : Quiet ospf middle) (forward : Forward middle after) :
    Forward ospf after where
  fresh := quiet.fresh ▸ forward.fresh
  lookup := fun db own key => by
    have same := forward.lookup db own key
    rw [quiet.lsdb db own] at same
    refine same.imp_right (Or.imp_right ?_)
    rintro ⟨new, here, below, recent⟩
    refine ⟨new, here, below, fun old found => ?_⟩
    have core : moreRecent after.now (middle.lsa old).core (after.lsa new) < 0 := recent old found
    rw [quiet.core old] at core
    exact core

theorem Quiet.forward_refresh {swept} (quiet : Quiet ospf swept) {lsa}
    (current : ∀ old ∈ (ospf.lsdb (placeOf key area)).lookup key,
      (ospf.lsa lsa).data.lsSeqnum ≠ ospfMaxSequenceNumber ∧
      (ospf.lsa old).data.lsSeqnum.toInt ≤ (ospf.lsa lsa).data.lsSeqnum.toInt) :
    Forward ospf (swept.refresh lsa key area options body) := by
  refine quiet.forward (forward_lsaNew fun old found => ?_)
  rw [quiet.lsdb _ (own_placeOf key area)] at found
  obtain ⟨below, least⟩ := current old found
  rw [← (quiet.alike.lsa lsa).lsSeqnum] at below least
  rw [lsaSeqnumIncrement, toInt_add_one below, (quiet.alike.lsa old).lsSeqnum]
  exact Int.lt_add_one_of_le least

end Ospf

/-- What a step makes with the initial number, and where. -/
def Ospf.originates (ospf : Ospf) : OspfOp → Option (LsaKey × Option AreaId)
  | .routerOriginate area _ _ => if ospf.routerId = 0 then none
  else some (⟨.router, ospf.routerId, ospf.routerId⟩, some area)
  | .networkOriginate area dr fullNbrs _ _ => if fullNbrs = 0 then none
    else some (⟨.network, dr, ospf.routerId⟩, some area)
  | .summaryOriginate area id _ _ => some (⟨.summary, id, ospf.routerId⟩, some area)
  | .summaryAsbrOriginate area id _ _ => some (⟨.asbrSummary, id, ospf.routerId⟩, some area)
  | .externalOriginate id _ _ => if id = 0xffffffff then none
    else some (⟨.asExternal, id, ospf.routerId⟩, none)
  | _ => none

/-- What a step makes with the number after that of the instance named, and where. -/
def Ospf.refreshes (ospf : Ospf) : OspfOp → Option (LsaId × LsaKey × Option AreaId)
  | .routerRefresh lsa _ _ =>
    some (lsa, ⟨.router, ospf.routerId, ospf.routerId⟩, (ospf.lsa lsa).area)
  | .networkRefresh lsa dr fullNbrs _ _ =>
    if fullNbrs = 0 then none else some (lsa, ⟨.network, dr, ospf.routerId⟩, (ospf.lsa lsa).area)
  | .summaryRefresh lsa _ _ =>
    some (lsa, ⟨.summary, (ospf.lsa lsa).key.id, ospf.routerId⟩, (ospf.lsa lsa).area)
  | .summaryAsbrRefresh lsa _ _ =>
    some (lsa, ⟨.asbrSummary, (ospf.lsa lsa).key.id, ospf.routerId⟩, (ospf.lsa lsa).area)
  | .externalRefresh lsa _ _ =>
    some (lsa, ⟨.asExternal, (ospf.lsa lsa).key.id, ospf.routerId⟩, none)
  | _ => none

/-- An origination finds nothing in its place with the initial number or a later one; a refresh
starts from a number that is not the last one, and not below the one in its place. -/
structure Ospf.Advances (ospf : Ospf) (op : OspfOp) : Prop where
  originates : ∀ made ∈ ospf.originates op,
    ∀ old ∈ (ospf.lsdb (placeOf made.1 made.2)).lookup made.1,
    (ospf.lsa old).data.lsSeqnum.toInt < ospfInitialSequenceNumber.toInt
  refreshes : ∀ made ∈ ospf.refreshes op,
    ∀ old ∈ (ospf.lsdb (placeOf made.2.1 made.2.2)).lookup made.2.1,
    (ospf.lsa made.1).data.lsSeqnum ≠ ospfMaxSequenceNumber ∧
      (ospf.lsa old).data.lsSeqnum.toInt ≤ (ospf.lsa made.1).data.lsSeqnum.toInt

instance (ospf : Ospf) (op : OspfOp) : Decidable (ospf.Advances op) :=
  decidable_of_iff (_ ∧ _)
    ⟨fun both => ⟨both.1, both.2⟩, fun advances => ⟨advances.originates, advances.refreshes⟩⟩

namespace Ospf
variable {ospf : Ospf}

theorem Known.forward_step (known : ospf.Known) {op} (advances : ospf.Advances op) :
    Forward ospf (ospf.step op) := by
  cases op with
  | tick elapsed => exact Shrinks.forward ⟨le_rfl, fun _ _ _ => .inl rfl⟩
  | nbrState nbr state => exact Alike.forward ⟨rfl, rfl, fun _ => .refl _, fun _ _ _ => rfl⟩
  | lsUpd nbr data body => exact known.forward_lsUpd nbr data body
  | lsAck nbr data => exact forward_lsAck ospf nbr data
  | routerOriginate area options body =>
    rw [step, ospfRouterLsaOriginate]
    split
    · exact ((shrinks_lsaNew ospf ..).trans (alike_discard _ _).shrinks).forward
    · rename_i named
      exact forward_originate (advances.originates _ (if_neg named))
  | networkOriginate area dr fullNbrs options body =>
    rw [step, ospfNetworkLsaOriginate]
    split
    · exact refl.forward
    · rename_i adjacent
      exact forward_originate (advances.originates _ (if_neg adjacent))
  | summaryOriginate area id options body => exact forward_originate (advances.originates _ rfl)
  | summaryAsbrOriginate area id options body => exact forward_originate (advances.originates _ rfl)
  | externalOriginate id options body =>
    rw [step, ospfExternalLsaOriginate]
    split
    · exact refl.forward
    · rename_i free
      exact forward_originate (advances.originates _ (if_neg free))
  | routerRefresh lsa options body =>
    exact (quiet_deleteNbrArea ospf (ospf.areaOf lsa) lsa).forward_refresh
      (advances.refreshes _ rfl)
  | networkRefresh lsa dr fullNbrs options body =>
    have quiet := quiet_deleteNbrArea ospf (ospf.areaOf lsa) lsa
    rw [step, ospfNetworkLsaRefresh]
    split
    · exact quiet.alike.forward
    · rename_i adjacent
      have area := (quiet.alike.lsa lsa).area
      rw [area, quiet.routerId]
      exact quiet.forward_refresh (advances.refreshes _ (if_neg adjacent))
  | summaryRefresh lsa options body => exact Quiet.refl.forward_refresh (advances.refreshes _ rfl)
  | summaryAsbrRefresh lsa options body =>
    exact Quiet.refl.forward_refresh (advances.refreshes _ rfl)
  | externalRefresh lsa options body =>
    exact (quiet_deleteNbrAs ospf lsa).forward_refresh (advances.refreshes _ rfl)
  | flushArea id area => exact (shrinks_flush (quiet_floodThroughArea _ area none id)).forward
  | flushAs id => exact (shrinks_flush (quiet_floodThroughAs _ none id)).forward
  | flushSchedule id =>
    rw [step, ospfLsaFlushSchedule]
    split
    · exact (shrinks_flush .refl).forward
    · exact refl.forward
  | scheduleFlushArea area id =>
    exact Alike.forward ⟨rfl, rfl, (alike_lock ospf id).lsa, fun _ _ _ => rfl⟩
  | action => exact (shrinks_action ospf).forward
  | maxageWalker => exact (alike_walk ospf _).forward
  | maxageRemover => exact (shrinks_remover ospf).forward

/-- What a database holds is replaced by something more recent only. -/
def Replaces (before after : Ospf) : Prop :=
  ∀ db, db.own = true → ∀ key old new, (before.lsdb db).lookup key = some old →
    (after.lsdb db).lookup key = some new →
    old ≠ new → moreRecent after.now (before.lsa old) (after.lsa new) < 0

theorem Forward.replaces {after} (forward : Forward ospf after) : Replaces ospf after := by
  intro db own key old new found here apart
  rcases forward.lookup db own key with same | missing | ⟨other, placed, -, recent⟩
  · rw [same, found, some.injEq] at here
    exact absurd here apart
  · rw [missing] at here
    cases here
  · rw [placed, some.injEq] at here
    exact here ▸ recent old found

theorem Started.known (started : ospf.Started) : ospf.Known := by
  intro db own key id found
  rw [started.lookup db key] at found
  cases found

end Ospf

/-- Along every run whose originations and refreshes start from numbers that are late enough. -/
theorem lsaInstall_replaces_forward {ospf : Ospf} (started : ospf.Started) {ops : List OspfOp}
    (run : Allowed step Advances ospf ops) : Along step Replaces ospf ops :=
  run.along (fun _ _ advances known => known.forward (known.forward_step advances))
    (fun _ _ advances known => (known.forward_step advances).replaces) started.known

/-- The designated router makes its network-LSA and a second instance of it, loses its last full
neighbour and so flushes it, and makes it anew while the flushed instance is in the database. -/
def reoriginate : List OspfOp :=
  [.networkOriginate 0 0x0a000001 1 2 foreignBody, .networkRefresh 0 0x0a000001 1 2 foreignBody,
    .flushArea 1 0,
    .networkOriginate 0 0x0a000001 1 2 foreignBody]

/-- Our router-LSA as a neighbour remembers it, with the last number of all. -/
def lastNumber : LsaHeader :=
  let data : LsaHeader :=
    { key := ⟨.router, 0x01010101, 0x01010101⟩, lsSeqnum := ospfMaxSequenceNumber, length := 32 }
  { data with checksum := ospfLsaChecksum { data := data, body := foreignBody } }

def refreshLast : List OspfOp :=
  [.lsUpd 2 lastNumber foreignBody, .routerRefresh 0 2 foreignBody]

theorem reoriginate_not_forward : ¬Along step Replaces loneRouter reoriginate ∧
    ¬Along step Replaces loneRouter refreshLast := by
  constructor
  · rintro ⟨-, -, -, replaces, -⟩
    have recent := replaces (.area 0) rfl ⟨.network, 0x0a000001, 0x01010101⟩ 1 2 (by decide +kernel)
      (by decide +kernel) (by decide)
    revert recent
    decide +kernel
  · rintro ⟨-, replaces, -⟩
    have recent := replaces (.area 0) rfl ⟨.router, 0x01010101, 0x01010101⟩ 0 1 (by decide +kernel)
      (by decide +kernel) (by decide)
    revert recent
    decide +kernel

theorem loneRouter_replaces_forward : Along step Replaces loneRouter
    [.networkOriginate 0 0x0a000001 1 2 foreignBody, .networkRefresh 0 0x0a000001 1 2 foreignBody,
      .lsUpd 2 (foreignNetwork 0x80000001) foreignBody, .flushArea 1 0, .maxageRemover] :=
  lsaInstall_replaces_forward ⟨rfl, rfl, rfl, rfl⟩ (by decide +kernel)

end Zebra.Ospfd
