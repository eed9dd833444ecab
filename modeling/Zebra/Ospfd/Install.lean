import Zebra.Ospfd.Flood

/-! How instances get into the database and out of it. A refresh or a flush is a step for whatever
instance its caller has at hand. -/
namespace Zebra.Ospfd
open Base

/-- The octets that the checksum covers, with its own field zero. -/
def LsaHeader.octets (header : LsaHeader) : List Octet :=
  let word (value : InAddr) : List Octet :=
    [value.extractLsb' 24 8, value.extractLsb' 16 8, value.extractLsb' 8 8, value.extractLsb' 0 8]
  let type : Octet := match header.key.type with
    | .router => 1
    | .network => 2
    | .summary => 3
    | .asbrSummary => 4
    | .asExternal => 5
  [header.options, type] ++ word header.key.id ++ word header.key.advRouter ++
    word header.lsSeqnum ++ [0, 0] ++
    [header.length.extractLsb' 8 8, header.length.extractLsb' 0 8]

/-- `ospf_lsa_checksum`. The sums are reduced at the end only: the source does it in between so that
they stay small. -/
def ospfLsaChecksum (lsa : OspfLsa) : BitVec 16 :=
  let length : Int := (lsa.data.length - 2).toNat
  let octets := (lsa.data.octets ++ lsa.body).take length.toNat
  let sums := octets.foldl
    (fun (sums : Nat × Nat) octet => (sums.1 + octet.toNat, sums.2 + (sums.1 + octet.toNat))) (0, 0)
  let c0 : Int := (sums.1 % 255 : Nat)
  let c1 : Int := (sums.2 % 255 : Nat)
  let x := ((length - 15) * c0 - c1).tmod 255
  let x := if x ≤ 0 then x + 255 else x
  let y := 510 - c0 - x
  let y := if 255 < y then y - 255 else y
  BitVec.ofInt 16 (256 * x + y)

def ospfMinLsArrival : Int := 1000000

namespace Ospf
variable (ospf : Ospf)

section
variable (id : LsaId)

/-- The database of an instance, by its type. -/
def lsdbOf : DbId :=
  if (ospf.lsa id).key.type = .asExternal then .as else .area (ospf.areaOf id)

def installed : Option LsaId :=
  (ospf.lsdb (ospf.lsdbOf id)).lookup (ospf.lsa id).key

/-- `ospf_lsa_new` with the data it is given. -/
def ospfLsaNew (data : LsaHeader) (body : List Octet) (area : Option AreaId) (self : Bool) :
    Ospf × LsaId :=
  ({ ospf with
      lsa := Function.update ospf.lsa ospf.fresh {
        data := data, body := body, area := area, self := self, tvRecv := ospf.now }
      held := Function.update ospf.held ospf.fresh 1
      fresh := ospf.fresh + 1 }, ospf.fresh)

def ospfLsaDiscard : Ospf :=
  if (ospf.lsa id).discard then ospf
  else (ospf.onStore (·.modifyLsa id fun lsa => { lsa with discard := true })).onStore
    (·.ospfLsaUnlock id)

def ospfLsaMaxageDelete : Ospf :=
  if id ∈ ospf.maxageLsa then { ospf.onStore (·.ospfLsaUnlock id) with
    maxageLsa := ospf.maxageLsa.erase id } else ospf

def ospfLsaMaxage : Ospf :=
  if id ∈ ospf.maxageLsa then ospf
  else { ospf.onStore (·.ospfLsaLock id) with maxageLsa := ospf.maxageLsa ++ [id] }

def sweepRetransmit : Ospf :=
  if (ospf.lsa id).key.type = .asExternal then ospf.ospfLsRetransmitDeleteNbrAs id
  else ospf.ospfLsRetransmitDeleteNbrArea (ospf.areaOf id) id

/-- `ospf_discard_from_db`: what is found under the key, whether it is the instance given or not. -/
def ospfDiscardFromDb : Ospf :=
  match ospf.installed id with
  | none => ospf
  | some old => ((ospf.sweepRetransmit old).ospfLsaMaxageDelete old).ospfLsaDiscard old

def setChecksum : Ospf :=
  ospf.onStore (·.modifyLsa id fun lsa => { lsa with
    data := { lsa.data with checksum := ospfLsaChecksum lsa } })

/-- The new instance takes the place of the old one. -/
def place : Ospf :=
  (ospf.ospfDiscardFromDb id).onStore (·.ospfLsdbAdd (ospf.lsdbOf id) id)

/-- One of our own gets its checksum. -/
def checksumOwn : Ospf :=
  if (ospf.lsa id).self then ospf.setChecksum id else ospf

/-- Another's that is MaxAge goes on the list. -/
def maxageOther : Ospf :=
  if (ospf.lsa id).isMaxage ospf.now && !(ospf.lsa id).self then ospf.ospfLsaMaxage id else ospf

def ospfLsaInstall : Ospf :=
  ((ospf.place id).checksumOwn id).maxageOther id

def setMaxage : Ospf :=
  ospf.onStore (·.modifyLsa id fun lsa => { lsa with data := { lsa.data with lsAge := 3600 } })

def ospfLsaFlushArea (area : AreaId) : Ospf :=
  ((ospf.setMaxage id).ospfFloodThroughArea area none id).1.ospfLsaMaxage id

def ospfLsaFlushAs : Ospf :=
  ((ospf.setMaxage id).ospfFloodThroughAs none id).1.ospfLsaMaxage id

end

def ospfScheduleLsaFlushArea (area : AreaId) (id : LsaId) : Ospf :=
  { ospf.onStore (·.ospfLsaLock id) with lsaActions := ospf.lsaActions ++ [(area, id)] }

/-- `ospf_lsa_action` for the first event that waits. -/
def ospfLsaAction : Ospf :=
  match ospf.lsaActions with
  | [] => ospf
  | (area, id) :: rest =>
    (({ ospf with lsaActions := rest } : Ospf).ospfLsaFlushArea id area).onStore
    (·.ospfLsaUnlock id)

/-- A new instance with the initial sequence number, not yet installed. -/
def lsaNew (key : LsaKey) (seqnum : BitVec 32) (area : Option AreaId) (options : Octet)
    (body : List Octet) :
    Ospf × LsaId :=
  ospf.ospfLsaNew { options := options, key := key, lsSeqnum := seqnum,
                    length := BitVec.ofNat 16 (20 + body.length) } body area true

/-- The end of every origination and refresh. -/
def installAndFlood (state : Ospf × LsaId) : Ospf :=
  ((state.1.ospfLsaInstall state.2).ospfFloodThrough none state.2).1

/-- What the originations have in common. -/
def originate (key : LsaKey) (area : Option AreaId) (options : Octet) (body : List Octet) : Ospf :=
  installAndFlood (ospf.lsaNew key ospfInitialSequenceNumber area options body)

def ospfRouterLsaOriginate (area : AreaId) (options : Octet) (body : List Octet) : Ospf :=
  if ospf.routerId = 0 then
    let new := ospf.lsaNew ⟨.router, ospf.routerId, ospf.routerId⟩ ospfInitialSequenceNumber
      (some area) options body
    new.1.ospfLsaDiscard new.2
  else ospf.originate ⟨.router, ospf.routerId, ospf.routerId⟩ (some area) options body

/-- `ospf_network_lsa_originate`: not without a full neighbour. -/
def ospfNetworkLsaOriginate (area : AreaId) (dr : InAddr) (fullNbrs : Nat) (options : Octet)
    (body : List Octet) :
    Ospf :=
  if fullNbrs = 0 then ospf else ospf.originate ⟨.network, dr, ospf.routerId⟩
    (some area) options body

section
variable (area : AreaId) (id : InAddr) (options : Octet) (body : List Octet)

/-- `ospf_summary_lsa_originate`, with the identity that `ospf_lsa_unique_id` gave. -/
def ospfSummaryLsaOriginate : Ospf :=
  ospf.originate ⟨.summary, id, ospf.routerId⟩ (some area) options body

def ospfSummaryAsbrLsaOriginate : Ospf :=
  ospf.originate ⟨.asbrSummary, id, ospf.routerId⟩ (some area) options body

end

/-- `ospf_external_lsa_originate`: not when no identity was free. -/
def ospfExternalLsaOriginate (id : InAddr) (options : Octet) (body : List Octet) : Ospf :=
  if id = 0xffffffff then ospf
    else ospf.originate ⟨.asExternal, id, ospf.routerId⟩ none options body

/-- The new instance of a refresh takes the next number. -/
def refresh (lsa : LsaId) (key : LsaKey) (area : Option AreaId) (options : Octet)
    (body : List Octet) : Ospf :=
  installAndFlood (ospf.lsaNew key (lsaSeqnumIncrement (ospf.lsa lsa)) area options body)

section
variable (lsa : LsaId) (options : Octet) (body : List Octet)

def ospfRouterLsaRefresh : Ospf :=
  (ospf.ospfLsRetransmitDeleteNbrArea (ospf.areaOf lsa) lsa).refresh lsa
    ⟨.router, ospf.routerId, ospf.routerId⟩
    (ospf.lsa lsa).area options body

def ospfNetworkLsaRefresh (lsa : LsaId) (dr : InAddr) (fullNbrs : Nat) (options : Octet)
    (body : List Octet) :
    Ospf :=
  let ospf := ospf.ospfLsRetransmitDeleteNbrArea (ospf.areaOf lsa) lsa
  if fullNbrs = 0 then ospf
  else ospf.refresh lsa ⟨.network, dr, ospf.routerId⟩ (ospf.lsa lsa).area options body

def ospfSummaryLsaRefresh : Ospf :=
  ospf.refresh lsa ⟨.summary, (ospf.lsa lsa).key.id, ospf.routerId⟩ (ospf.lsa lsa).area options body

def ospfSummaryAsbrLsaRefresh : Ospf :=
  ospf.refresh lsa ⟨.asbrSummary, (ospf.lsa lsa).key.id, ospf.routerId⟩
    (ospf.lsa lsa).area options body

def ospfExternalLsaRefresh : Ospf :=
  (ospf.ospfLsRetransmitDeleteNbrAs lsa).refresh lsa
    ⟨.asExternal, (ospf.lsa lsa).key.id, ospf.routerId⟩ none options body

end

/-- The marks of `ospf_lsa_is_self_originated`, which checks an instance once. -/
def selfOriginated (lsa : OspfLsa) : Bool :=
  lsa.self || lsa.key.advRouter = ospf.routerId ||
    (lsa.key.type = .router && lsa.key.id = ospf.routerId) ||
    (lsa.key.type = .network && ospf.oiflist.any fun oi =>
      oi.type ≠ .virtuallink && lsa.key.id = oi.address)

def ospfLsaIsSelfOriginated (id : LsaId) : Ospf :=
  if (ospf.lsa id).selfChecked then ospf
  else ospf.onStore
    (·.modifyLsa id fun lsa => { lsa with selfChecked := true, self := ospf.selfOriginated lsa })

section
variable (nbr : NbrId)

/-- `nbr->oi`. -/
def oiOf : Option OspfInterface :=
  ospf.oiflist.find? fun oi => oi.id = (ospf.nbr nbr).oi

def nbrArea : AreaId :=
  ((ospf.oiOf nbr).map OspfInterface.area).getD backbone

/-- `ospf_flood_delayed_lsa_ack`. -/
def ospfFloodDelayedLsaAck (id : LsaId) : Ospf :=
  if (ospf.oiOf nbr).any OspfInterface.backup && (ospf.nbr nbr).address ≠
    (ospf.nbr nbr).dRouter then ospf
  else { ospf.onStore (·.ospfLsaLock id) with lsAck := ospf.lsAck ++ [((ospf.nbr nbr).oi, id)] }

/-- The test for `MinLSArrival`. -/
def tooEarly (current : LsaId) : Bool :=
  let lsa := ospf.lsa current
  !(lsa.self && lsa.data.lsAge = 0 && lsa.data.lsSeqnum = ospfInitialSequenceNumber) &&
    ospf.now - lsa.tvRecv < ospfMinLsArrival

def setReceived (id : LsaId) : Ospf :=
  ospf.onStore (·.modifyLsa id fun lsa => { lsa with received := true })

/-- The copy at hand leaves the retransmission lists. -/
def sweepCurrent : Option LsaId → Ospf
  | none => ospf
  | some current =>
    if (ospf.lsa current).key.type = .asExternal then ospf.ospfLsRetransmitDeleteNbrAs current
    else ospf.ospfLsRetransmitDeleteNbrArea (ospf.nbrArea nbr) current

/-- `ospf_flood`, without what `ospf_process_self_originated_lsa` does next: that flushes, schedules
or refreshes, which are steps of their own. Nothing when the copy at hand came too recently. -/
def ospfFlood (current : Option LsaId) (new : LsaId) : Option Ospf :=
  if current.any ospf.tooEarly then none
  else
    let flooded := ospf.ospfFloodThrough (some nbr) new
    let ospf :=
      (((flooded.1.sweepCurrent nbr current).setReceived new).ospfLsaIsSelfOriginated
      new).ospfLsaInstall new
    some (if flooded.2 then ospf.ospfFloodDelayedLsaAck nbr new else ospf)

/-- `ospf_ls_ack_send`. -/
def ospfLsAckSend (id : LsaId) : Ospf :=
  { ospf.onStore (·.ospfLsaLock id) with lsAck := ospf.lsAck ++ [((ospf.nbr nbr).oi, id)] }

end

/-- A neighbour of the interface is in state Exchange or Loading. -/
def exchanging (oi : OspfInterface) : Bool :=
  oi.nbrs.any fun nbr => (ospf.nbr nbr).state = .exchange || (ospf.nbr nbr).state = .loading

/-- The loop of `ospf_ls_upd` from step (5) on, for an instance that is not more recent. -/
def notMoreRecent (nbr : NbrId) (current new : LsaId) : Ospf :=
  let ret := moreRecent ospf.now (ospf.lsa current) (ospf.lsa new)
  if (ospf.ospfLsRequestLookup nbr new).isSome then ospf.ospfLsaDiscard new
  else if ret = 0 then
    match ospf.ospfLsRetransmitLookup nbr new with
    | some lsRet =>
      let ospf := ospf.ospfLsRetransmitDelete nbr lsRet
      let ospf :=
        if (ospf.oiOf nbr).any OspfInterface.backup && (ospf.nbr nbr).address =
          (ospf.nbr nbr).dRouter then
          ospf.ospfLsAckSend nbr new
        else ospf
      ospf.ospfLsaDiscard new
    | none => (ospf.ospfLsAckSend nbr new).ospfLsaDiscard new
  else if (ospf.lsa current).isMaxage ospf.now && (ospf.lsa current).data.lsSeqnum =
    ospfMaxSequenceNumber then
    ospf.ospfLsaDiscard new
  else if ospfMinLsArrival < ospf.now - (ospf.lsa current).tvRecv then
    (ospf.ospfLsUpdSendLsa (.direct nbr) current).ospfLsaDiscard new
  else ospf.ospfLsaDiscard new

/-- What happens to a new instance from a neighbour. -/
def receiveLsa (nbr : NbrId) (new : LsaId) : Ospf :=
  let external := decide ((ospf.lsa new).key.type = LsaType.asExternal)
  let stub :=
    ospf.areas.any fun area => area.id = ospf.nbrArea nbr && area.externalRouting ≠ .default
  if external && stub then ospf.ospfLsaDiscard new
  else
    match ospf.installed new with
    | none =>
      if (ospf.lsa new).isMaxage ospf.now && !(ospf.oiOf nbr).any ospf.exchanging then
        (ospf.ospfLsAckSend nbr new).ospfLsaDiscard new
      else (ospf.ospfFlood nbr none new).getD (ospf.ospfLsaDiscard new)
    | some current =>
      if moreRecent ospf.now (ospf.lsa current) (ospf.lsa new) < 0 then
        (ospf.ospfFlood nbr (some current) new).getD (ospf.ospfLsaDiscard new)
      else ospf.notMoreRecent nbr current new

/-- One instance of a Link State Update: `ospf_ls_upd_list_lsa` lets it in with a right checksum,
and an age of MaxAge at most. -/
def ospfLsUpd (nbr : NbrId) (data : LsaHeader) (body : List Octet) : Ospf :=
  if (ospf.nbr nbr).state.rank < NsmState.exchange.rank then ospf
  else if ospfLsaChecksum { data := data, body := body } ≠ data.checksum then ospf
  else
    let data := if 3600 < data.lsAge.toNat then { data with lsAge := 3600 } else data
    let area := if data.key.type = .asExternal then none else some (ospf.nbrArea nbr)
    let new := ospf.ospfLsaNew data body area false
    new.1.receiveLsa nbr new.2

/-- One header of a Link State Acknowledgement: the sequence number alone is compared. -/
def ospfLsAck (nbr : NbrId) (data : LsaHeader) : Ospf :=
  if (ospf.nbr nbr).state.rank < NsmState.exchange.rank then ospf
  else
    match (ospf.lsdb (.lsRxmt nbr)).lookup data.key with
    | none => ospf
    | some lsr => if (ospf.lsa lsr).data.lsSeqnum = data.lsSeqnum then
      ospf.ospfLsRetransmitDelete nbr lsr else ospf

/-- The databases that `ospf_lsa_maxage_walker` goes through. -/
def walked : List LsaId :=
  (ospf.areas.map (DbId.area ·.id) ++ [DbId.as]).flatMap fun db =>
    (ospf.lsdb db).nodes.entries.filterMap fun entry => entry.2.info

def ospfLsaMaxageWalkerRemover (id : LsaId) : Ospf :=
  if (ospf.lsa id).isMaxage ospf.now then
    let ospf := ospf.ospfLsaIsSelfOriginated id
    if (ospf.lsa id).self then ospf else ospf.ospfLsaMaxage id
  else ospf

def ospfLsaMaxageWalker : Ospf :=
  ospf.walked.foldl ospfLsaMaxageWalkerRemover ospf

/-- `ospf_check_nbr_status`. -/
def ospfCheckNbrStatus : Bool :=
  !ospf.oiflist.any fun oi => oi.enable && ospf.exchanging oi

/-- One entry of the loop of `ospf_maxage_lsa_remover` that no retransmission list has. -/
def removeEntry (id : LsaId) : Ospf :=
  let ospf := (ospf.ospfFloodThrough none id).1.ospfDiscardFromDb id
  ospf.onStore (·.ospfLsdbDelete (ospf.lsdbOf id) id)

/-- The loop over the entries, with those that were processed. -/
def removerLoop (ospf : Ospf) : List LsaId → Ospf × List LsaId
  | [] => (ospf, [])
  | id :: rest =>
    if 0 < (ospf.lsa id).retransmitCounter then ospf.removerLoop rest
    else
      let state := (ospf.removeEntry id).removerLoop rest
      (state.1, id :: state.2)

def ospfMaxageLsaRemover : Ospf × List LsaId :=
  if ospf.ospfCheckNbrStatus then ospf.removerLoop ospf.maxageLsa else (ospf, [])

/-- `ospf_lsa_flush_schedule`. -/
def ospfLsaFlushSchedule (id : LsaId) : Ospf :=
  if (ospf.lsa id).self then (ospf.setMaxage id).ospfLsaMaxage id else ospf

end Ospf

/-- What happens to the database of a router, one thing at a time. -/
inductive OspfOp where
  | tick (elapsed : Nat)
  | nbrState (nbr : NbrId) (state : NsmState)
  | lsUpd (nbr : NbrId) (data : LsaHeader) (body : List Octet)
  | lsAck (nbr : NbrId) (data : LsaHeader)
  | routerOriginate (area : AreaId) (options : Octet) (body : List Octet)
  | networkOriginate (area : AreaId) (dr : InAddr) (fullNbrs : Nat) (options : Octet)
    (body : List Octet)
  | summaryOriginate (area : AreaId) (id : InAddr) (options : Octet) (body : List Octet)
  | summaryAsbrOriginate (area : AreaId) (id : InAddr) (options : Octet) (body : List Octet)
  | externalOriginate (id : InAddr) (options : Octet) (body : List Octet)
  | routerRefresh (lsa : LsaId) (options : Octet) (body : List Octet)
  | networkRefresh (lsa : LsaId) (dr : InAddr) (fullNbrs : Nat) (options : Octet)
    (body : List Octet)
  | summaryRefresh (lsa : LsaId) (options : Octet) (body : List Octet)
  | summaryAsbrRefresh (lsa : LsaId) (options : Octet) (body : List Octet)
  | externalRefresh (lsa : LsaId) (options : Octet) (body : List Octet)
  | flushArea (id : LsaId) (area : AreaId)
  | flushAs (id : LsaId)
  | flushSchedule (id : LsaId)
  | scheduleFlushArea (area : AreaId) (id : LsaId)
  | action
  | maxageWalker
  | maxageRemover

def Ospf.step (ospf : Ospf) : OspfOp → Ospf
  | .tick elapsed => { ospf with now := ospf.now + elapsed }
  | .nbrState nbr state =>
    { ospf with nbr := Function.update ospf.nbr nbr { ospf.nbr nbr with state := state } }
  | .lsUpd nbr data body => ospf.ospfLsUpd nbr data body
  | .lsAck nbr data => ospf.ospfLsAck nbr data
  | .routerOriginate area options body => ospf.ospfRouterLsaOriginate area options body
  | .networkOriginate area dr fullNbrs options body =>
    ospf.ospfNetworkLsaOriginate area dr fullNbrs options body
  | .summaryOriginate area id options body => ospf.ospfSummaryLsaOriginate area id options body
  | .summaryAsbrOriginate area id options body =>
    ospf.ospfSummaryAsbrLsaOriginate area id options body
  | .externalOriginate id options body => ospf.ospfExternalLsaOriginate id options body
  | .routerRefresh lsa options body => ospf.ospfRouterLsaRefresh lsa options body
  | .networkRefresh lsa dr fullNbrs options body =>
    ospf.ospfNetworkLsaRefresh lsa dr fullNbrs options body
  | .summaryRefresh lsa options body => ospf.ospfSummaryLsaRefresh lsa options body
  | .summaryAsbrRefresh lsa options body => ospf.ospfSummaryAsbrLsaRefresh lsa options body
  | .externalRefresh lsa options body => ospf.ospfExternalLsaRefresh lsa options body
  | .flushArea id area => ospf.ospfLsaFlushArea id area
  | .flushAs id => ospf.ospfLsaFlushAs id
  | .flushSchedule id => ospf.ospfLsaFlushSchedule id
  | .scheduleFlushArea area id => ospf.ospfScheduleLsaFlushArea area id
  | .action => ospf.ospfLsaAction
  | .maxageWalker => ospf.ospfLsaMaxageWalker
  | .maxageRemover => ospf.ospfMaxageLsaRemover.1

/-- A router that starts: no instance, no list, nothing scheduled. -/
structure Ospf.Started (ospf : Ospf) : Prop where
  fresh : ospf.fresh = 0
  lsdbs : ospf.lsdbs = ∅
  maxageLsa : ospf.maxageLsa = []
  lsaActions : ospf.lsaActions = []

end Zebra.Ospfd
