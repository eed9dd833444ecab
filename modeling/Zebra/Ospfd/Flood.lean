import Zebra.Ospfd.Lsdb

/-! Flooding of ospfd/ospf_flood.c with the request and retransmission lists of the neighbours. -/
namespace Zebra.Ospfd
open Base

/-- The states of `ospf_nsm.h`, in its order. -/
inductive NsmState where
  | dependUpon
  | down
  | attempt
  | init
  | twoWay
  | exStart
  | exchange
  | loading
  | full
deriving DecidableEq

def NsmState.rank : NsmState → Nat
  | .dependUpon => 0
  | .down => 1
  | .attempt => 2
  | .init => 3
  | .twoWay => 4
  | .exStart => 5
  | .exchange => 6
  | .loading => 7
  | .full => 8

inductive IfType where
  | pointopoint
  | broadcast
  | nbma
  | pointomultipoint
  | virtuallink
  | loopback
deriving DecidableEq

inductive ExternalRouting where
  | default
  | stub
  | nssa
deriving DecidableEq

abbrev OiId := Nat

/-- What flooding reads of `struct ospf_neighbor`. -/
structure OspfNeighbor where
  oi : OiId
  routerId : InAddr
  address : InAddr
  dRouter : InAddr := 0
  bdRouter : InAddr := 0
  state : NsmState
  lsReqLast : Option LsaId := none

/-- What flooding reads of `struct ospf_interface`. -/
structure OspfInterface where
  id : OiId
  area : AreaId
  address : InAddr
  type : IfType := .broadcast
  /-- `ospf_if_is_enable`. -/
  enable : Bool := true
  /-- `state == ISM_Backup`. -/
  backup : Bool := false
  /-- The neighbours in table order, without `nbr_self`. -/
  nbrs : List NbrId := []

structure OspfArea where
  id : AreaId
  externalRouting : ExternalRouting := .default

/-- An update that waits to be sent: to one neighbour, or out of an interface. -/
inductive UpdateTo where
  | direct (nbr : NbrId)
  | indirect (oi : OiId)
deriving DecidableEq

/-- `struct ospf` with the instances it owns. Identities from `fresh` on were never given out. -/
structure Ospf extends Store where
  now : Time := 0
  routerId : InAddr
  fresh : LsaId := 0
  areas : List OspfArea
  oiflist : List OspfInterface
  nbr : NbrId → OspfNeighbor
  maxageLsa : List LsaId := []
  /-- Flushes scheduled through `ospf_schedule_lsa_flush_area`. -/
  lsaActions : List (AreaId × LsaId) := []
  lsUpdQueue : List (UpdateTo × LsaId) := []
  lsAck : List (OiId × LsaId) := []

namespace Ospf

def onStore (ospf : Ospf) (change : Store → Store) : Ospf :=
  { ospf with toStore := change ospf.toStore }

def count (ospf : Ospf) (id : LsaId) (amount : Int) : Ospf :=
  ospf.onStore fun store => store.modifyLsa id fun lsa =>
    { lsa with retransmitCounter := lsa.retransmitCounter + amount }

section
variable (ospf : Ospf) (nbr : NbrId) (id : LsaId)

def ospfLsRequestLookup : Option LsaId :=
  (ospf.lsdb (.lsReq nbr)).lookup (ospf.lsa id).key

def ospfLsRequestDelete : Ospf :=
  let ospf :=
    if (ospf.nbr nbr).lsReqLast = some id then
      { ospf.onStore (·.ospfLsaUnlock id) with
        nbr := Function.update ospf.nbr nbr { ospf.nbr nbr with lsReqLast := none } }
    else ospf
  ospf.onStore (·.ospfLsdbDelete (.lsReq nbr) id)

def ospfLsRetransmitLookup : Option LsaId :=
  (ospf.lsdb (.lsRxmt nbr)).lookup (ospf.lsa id).key

def ospfLsRetransmitAdd : Ospf :=
  let old := ospf.ospfLsRetransmitLookup nbr id
  if ospfLsaMoreRecent ospf.now (old.map ospf.lsa) (some (ospf.lsa id)) < 0 then
    let ospf :=
      match old with
      | none => ospf
      | some old => (ospf.count old (-1)).onStore (·.ospfLsdbDelete (.lsRxmt nbr) old)
    (ospf.count id 1).onStore (·.ospfLsdbAdd (.lsRxmt nbr) id)
  else ospf

def ospfLsRetransmitDelete : Ospf :=
  if (ospf.ospfLsRetransmitLookup nbr id).isSome then
    (ospf.count id (-1)).onStore (·.ospfLsdbDelete (.lsRxmt nbr) id)
  else ospf

end

/-- One neighbour of the loop of `ospf_ls_retransmit_delete_nbr_if`: the sequence number alone
decides. -/
def retransmitDeleteNbr (id : LsaId) (ospf : Ospf) (nbr : NbrId) : Ospf :=
  match ospf.ospfLsRetransmitLookup nbr id with
  | none => ospf
  | some lsr =>
    if (ospf.lsa lsr).data.lsSeqnum = (ospf.lsa id).data.lsSeqnum then
      ospf.ospfLsRetransmitDelete nbr lsr else ospf

def ospfLsRetransmitDeleteNbrIf (ospf : Ospf) (oi : OspfInterface) (id : LsaId) : Ospf :=
  if oi.enable then oi.nbrs.foldl (retransmitDeleteNbr id) ospf else ospf

/-- `area->oiflist`. -/
def areaOiflist (ospf : Ospf) (area : AreaId) : List OspfInterface :=
  ospf.oiflist.filter fun oi => oi.area = area

def ospfLsRetransmitDeleteNbrArea (ospf : Ospf) (area : AreaId) (id : LsaId) : Ospf :=
  (ospf.areaOiflist area).foldl (fun ospf oi => ospf.ospfLsRetransmitDeleteNbrIf oi id) ospf

def ospfLsRetransmitDeleteNbrAs (ospf : Ospf) (id : LsaId) : Ospf :=
  ospf.oiflist.foldl (fun ospf oi => ospf.ospfLsRetransmitDeleteNbrIf oi id) ospf

/-- The router that is passed over: the one it came from, or its originator. -/
def floodSource (ospf : Ospf) (id : LsaId) : Option NbrId → InAddr
  | some inbr => (ospf.nbr inbr).routerId
  | none => (ospf.lsa id).key.advRouter

section
variable (inbr : Option NbrId) (id : LsaId)

/-- The last check for one neighbour, and the retransmission list. -/
def floodOffer (nbr : NbrId) (ospf : Ospf) (retx : Bool) : Ospf × Bool :=
  if ospf.floodSource id inbr = (ospf.nbr nbr).routerId then (ospf, retx)
    else (ospf.ospfLsRetransmitAdd nbr id, true)

/-- One neighbour of the loop of `ospf_flood_through_interface`. -/
def floodNbr (state : Ospf × Bool) (nbr : NbrId) : Ospf × Bool :=
  let ospf := state.1
  if (ospf.nbr nbr).state.rank < NsmState.exchange.rank then state
  else if (ospf.nbr nbr).state.rank < NsmState.full.rank then
    match ospf.ospfLsRequestLookup nbr id with
    | none => floodOffer inbr id nbr ospf state.2
    | some lsReq =>
      let ret := moreRecent ospf.now (ospf.lsa lsReq) (ospf.lsa id)
      if 0 < ret then state
      else if ret = 0 then (ospf.ospfLsRequestDelete nbr lsReq, state.2)
      else floodOffer inbr id nbr (ospf.ospfLsRequestDelete nbr lsReq) state.2
  else floodOffer inbr id nbr ospf state.2

/-- `ospf_ls_upd_send_lsa`: the instance is sent later, as it is then. -/
def ospfLsUpdSendLsa (dst : UpdateTo) (id : LsaId) (ospf : Ospf) : Ospf :=
  { ospf.onStore (·.ospfLsaLock id) with lsUpdQueue := ospf.lsUpdQueue ++ [(dst, id)] }

def sendOut (ospf : Ospf) (oi : OspfInterface) (id : LsaId) : Ospf :=
  if oi.type = .nbma then
    (oi.nbrs.filter fun nbr => NsmState.exchange.rank ≤ (ospf.nbr nbr).state.rank).foldl
      (fun ospf nbr => ospf.ospfLsUpdSendLsa (.direct nbr) id) ospf
  else ospf.ospfLsUpdSendLsa (.indirect oi.id) id

/-- `ospf_flood_through_interface`; the flag asks for a delayed acknowledgement. -/
def ospfFloodThroughInterface (ospf : Ospf) (oi : OspfInterface) (inbr : Option NbrId)
    (id : LsaId) : Ospf × Bool :=
  if oi.enable = false then (ospf, false)
  else
    let came := inbr.any fun inbr => (ospf.nbr inbr).oi = oi.id
    let flooded := oi.nbrs.foldl (floodNbr inbr id) (ospf, false)
    if flooded.2 = false then (flooded.1, came)
    else if came && inbr.any fun inbr => (ospf.nbr inbr).address = (ospf.nbr inbr).dRouter ||
        (ospf.nbr inbr).address = (ospf.nbr inbr).bdRouter then (flooded.1, true)
    else if came && oi.backup then (flooded.1, true)
    else (flooded.1.sendOut oi id, false)

def floodOi (state : Ospf × Bool) (oi : OspfInterface) : Ospf × Bool :=
  let flooded := state.1.ospfFloodThroughInterface oi inbr id
  (flooded.1, state.2 || flooded.2)

end

variable (ospf : Ospf) (inbr : Option NbrId) (id : LsaId)

def floodOver (ois : List OspfInterface) : Ospf × Bool :=
  ois.foldl (floodOi inbr id) (ospf, false)

def backbone : AreaId := 0

def ospfFloodThroughArea (ospf : Ospf) (area : AreaId) (inbr : Option NbrId) (id : LsaId) :
    Ospf × Bool :=
  ospf.floodOver inbr id
    ((ospf.areaOiflist area).filter fun oi => !(area ≠ backbone && oi.type = .virtuallink))

/-- `ospf_flood_through_as`: not into stub areas, nor over virtual links. -/
def ospfFloodThroughAs : Ospf × Bool :=
  ospf.floodOver inbr id
    ((ospf.areas.filter fun area => area.externalRouting = .default).flatMap fun area =>
    (ospf.areaOiflist area.id).filter fun oi => oi.type ≠ .virtuallink)

/-- `lsa->area`, which every instance but an AS-external one has. -/
def areaOf (ospf : Ospf) (id : LsaId) : AreaId :=
  (ospf.lsa id).area.getD backbone

def ospfFloodThrough : Ospf × Bool :=
  if (ospf.lsa id).key.type = .asExternal then ospf.ospfFloodThroughAs inbr id
  else ospf.ospfFloodThroughArea (ospf.areaOf id) inbr id

end Ospf
end Zebra.Ospfd
