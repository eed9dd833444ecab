import Zebra.Ospfd.Install

/-! The neighbour state machine of ospfd/ospf_nsm.c and the exchange of Database Description
packets. What a change of state asks of the databases and of the interface's own machine are steps
of their own. -/
namespace Zebra.Ospfd
open Base

inductive NsmEvent where
  | noEvent
  | helloReceived
  | start
  | twoWayReceived
  | negotiationDone
  | exchangeDone
  | badLsReq
  | loadingDone
  | adjOk
  | seqNumberMismatch
  | oneWayReceived
  | killNbr
  | inactivityTimer
  | llDown
deriving DecidableEq

/-- The actions of the table. -/
inductive NsmFunc where
  | ignore
  | helloReceived
  | start
  | twowayReceived
  | negotiationDone
  | exchangeDone
  | badLsReq
  | adjOk
  | seqNumberMismatch
  | onewayReceived
  | killNbr
  | inactivityTimer
  | llDown
deriving DecidableEq

/-- The table `NSM`. -/
def nsm : NsmState → NsmEvent → NsmFunc × NsmState
  | .dependUpon, _ => (.ignore, .dependUpon)
  | _, .noEvent => (.ignore, .dependUpon)
  | .down, .helloReceived | .attempt, .helloReceived => (.helloReceived, .init)
  | state, .helloReceived => (.helloReceived, state)
  | .down, .start => (.start, .attempt)
  | .init, .twoWayReceived => (.twowayReceived, .dependUpon)
  | .exStart, .negotiationDone => (.negotiationDone, .exchange)
  | .exchange, .exchangeDone => (.exchangeDone, .dependUpon)
  | .exchange, .badLsReq | .loading, .badLsReq | .full, .badLsReq => (.badLsReq, .exStart)
  | .loading, .loadingDone => (.ignore, .full)
  | .twoWay, .adjOk | .exStart, .adjOk | .exchange, .adjOk | .loading, .adjOk | .full,
    .adjOk => (.adjOk, .dependUpon)
  | .exchange, .seqNumberMismatch | .loading, .seqNumberMismatch | .full,
    .seqNumberMismatch => (.seqNumberMismatch, .exStart)
  | .twoWay, .oneWayReceived | .exStart, .oneWayReceived | .exchange,
    .oneWayReceived => (.onewayReceived, .init)
  | .loading, .oneWayReceived | .full, .oneWayReceived => (.onewayReceived, .init)
  | _, .killNbr => (.killNbr, .down)
  | _, .inactivityTimer => (.inactivityTimer, .down)
  | _, .llDown => (.llDown, .down)
  | state, _ => (.ignore, state)

def ospfDdFlagMs : Octet := 1
def ospfDdFlagM : Octet := 2
def ospfDdFlagI : Octet := 4
def ospfDdFlagAll : Octet := 7

def isSetDdMs (flags : Octet) : Bool := flags &&& ospfDdFlagMs ≠ 0
def isSetDdM (flags : Octet) : Bool := flags &&& ospfDdFlagM ≠ 0
def isSetDdI (flags : Octet) : Bool := flags &&& ospfDdFlagI ≠ 0

/-- A Database Description packet. A header of an unknown type is missing here. -/
structure DbDesc where
  mtu : Nat
  options : Octet
  flags : Octet
  ddSeqnum : BitVec 32
  headers : List (Option LsaHeader)
deriving DecidableEq

/-- What `struct ospf_neighbor` keeps for the exchange. -/
structure DdState where
  ddFlags : Octet := ospfDdFlagAll
  ddSeqnum : BitVec 32 := 0
  options : Octet := 0
  /-- `last_recv`: flags, options and number. -/
  lastRecv : Octet × Octet × BitVec 32 := (0, 0, 0)
  lastSend : Option DbDesc := none
  lastSendTs : Time := 0

/-- What the interfaces have to do with it. -/
structure OiState where
  dr : InAddr := 0
  bdr : InAddr := 0
  fullNbrs : Int := 0
  mtu : Nat := 1500
  authCryptographic : Bool := false
  options : Octet := 2

/-- The router with its adjacencies. `scheduled` has the events that wait, `ddSent` every Database
Description packet that was sent. -/
structure Adjacencies extends Ospf where
  dd : NbrId → DdState := fun _ => {}
  oi : OiId → OiState := fun _ => {}
  areaFullNbrs : AreaId → Int := fun _ => 0
  vInactivity : Time := 40000000
  scheduled : List (NbrId × NsmEvent) := []
  ddSent : List (NbrId × DbDesc) := []

/-- What was done to a neighbour, as far as it matters after its deletion. -/
inductive NbrAction where
  | changeState (state : NsmState)
  | delete
  | timerSet
deriving DecidableEq

namespace Adjacencies

def onOspf (adj : Adjacencies) (change : Ospf → Ospf) : Adjacencies :=
  { adj with toOspf := change adj.toOspf }

section
variable (adj : Adjacencies) (nbr : NbrId)

def modifyDd (change : DdState → DdState) : Adjacencies :=
  { adj with dd := Function.update adj.dd nbr (change (adj.dd nbr)) }

def schedule (event : NsmEvent) : Adjacencies :=
  { adj with scheduled := adj.scheduled ++ [(nbr, event)] }

/-- `nbr->oi`. -/
def interfaceOf : OspfInterface :=
  (adj.oiOf nbr).getD { id := (adj.nbr nbr).oi, area := Ospf.backbone, address := 0 }

/-- `ospf_lsdb_isempty`. -/
def isEmpty (adj : Adjacencies) (db : DbId) : Bool :=
  (adj.lsdb db).total = 0

/-- What a database has, in the order of a walk. -/
def storedIn (adj : Adjacencies) (db : DbId) : List LsaId :=
  (adj.lsdb db).nodes.entries.filterMap fun entry => entry.2.info

def storedType (adj : Adjacencies) (db : DbId) (type : LsaType) : List LsaId :=
  ((adj.lsdb db).nodes.entries.filter fun entry => entry.1.type = type).filterMap fun entry =>
    entry.2.info

def ospfDbSummaryClear : Adjacencies :=
  (adj.storedIn (.dbSum nbr)).foldl
    (fun adj id => adj.onOspf (·.onStore (·.ospfLsdbDelete (.dbSum nbr) id))) adj

/-- `ls_req_last` is given up. -/
def forgetRequest : Adjacencies :=
  let adj :=
    match (adj.nbr nbr).lsReqLast with
    | none => adj
    | some last => adj.onOspf (·.onStore (·.ospfLsaUnlock last))
  { adj with nbr := Function.update adj.nbr nbr { adj.nbr nbr with lsReqLast := none } }

def ospfLsRequestDeleteAll : Adjacencies :=
  (adj.forgetRequest nbr).onOspf (·.onStore (·.ospfLsdbDeleteAll (.lsReq nbr)))

def ospfLsRetransmitClear : Adjacencies :=
  ((adj.storedIn (.lsRxmt nbr)).foldl
    (fun adj id => adj.onOspf (·.ospfLsRetransmitDelete nbr id)) adj).forgetRequest nbr

def clearDbSum : Adjacencies :=
  if adj.isEmpty (.dbSum nbr) then adj else adj.ospfDbSummaryClear nbr

def clearLsReq : Adjacencies :=
  if adj.isEmpty (.lsReq nbr) then adj else adj.ospfLsRequestDeleteAll nbr

def clearLsRxmt : Adjacencies :=
  if adj.isEmpty (.lsRxmt nbr) then adj else adj.ospfLsRetransmitClear nbr

def nsmResetNbr : Adjacencies :=
  ((adj.clearDbSum nbr).clearLsReq nbr).clearLsRxmt nbr

/-- `ospf_packet_max`. -/
def packetMax : Int :=
  let oi := adj.oi (adj.nbr nbr).oi
  if oi.authCryptographic then (oi.mtu : Int) - 16 - 88 else (oi.mtu : Int) - 88

end

/-- A packet that is being filled. -/
structure Filling where
  adj : Adjacencies
  length : Nat
  headers : List (Option LsaHeader)

/-- The inner loop of `ospf_make_db_desc`, over the instances of one type. -/
def packType (nbr : NbrId) (max : Int) : Filling → List LsaId → Filling
  | filling, [] => filling
  | filling, id :: rest =>
    let lsa := filling.adj.lsa id
    let gone := filling.adj.onOspf (·.onStore (·.ospfLsdbDelete (.dbSum nbr) id))
    if lsa.discard then packType nbr max { filling with adj := gone } rest
    else if max < (filling.length : Int) + 20 then filling
    else
      let header := { lsa.data with lsAge := BitVec.ofInt 16 (lsa.lsAge filling.adj.now) }
      packType nbr max { adj := gone, length := filling.length + 20,
                         headers := filling.headers ++ [some header] } rest

/-- One turn of the outer loop, over the types. -/
def packNext (nbr : NbrId) (max : Int) (filling : Filling) (type : LsaType) : Filling :=
  packType nbr max filling (filling.adj.storedType (.dbSum nbr) type)

section
variable (adj : Adjacencies) (nbr : NbrId)

def pack : Filling :=
  [LsaType.router, .network, .summary, .asbrSummary, .asExternal].foldl
    (packNext nbr (adj.packetMax nbr)) ⟨adj, 8, []⟩

/-- The body of a packet with these headers. -/
def describe (headers : List (Option LsaHeader)) : DbDesc where
  mtu := if (adj.interfaceOf nbr).type = .virtuallink then 0 else (adj.oi (adj.nbr nbr).oi).mtu
  options := (adj.oi (adj.nbr nbr).oi).options
  flags := (adj.dd nbr).ddFlags
  ddSeqnum := (adj.dd nbr).ddSeqnum
  headers := headers

def dropFlags (flags : Octet) : Adjacencies :=
  adj.modifyDd nbr fun dd => { dd with ddFlags := dd.ddFlags &&& ~~~flags }

def setSeqnum (seqnum : BitVec 32) : Adjacencies :=
  adj.modifyDd nbr fun dd => { dd with ddSeqnum := seqnum }

/-- The M flag goes when the summary list is empty, from Exchange on. -/
def noMore : Adjacencies :=
  if NsmState.exchange.rank ≤ (adj.nbr nbr).state.rank then adj.dropFlags nbr ospfDdFlagM else adj

def ospfMakeDbDesc : Adjacencies × DbDesc :=
  if adj.isEmpty (.dbSum nbr) then (adj.noMore nbr, (adj.noMore nbr).describe nbr [])
  else ((adj.pack nbr).adj, adj.describe nbr (adj.pack nbr).headers)

def transmit (packet : DbDesc) : Adjacencies :=
  { adj with ddSent := adj.ddSent ++ [(nbr, packet)] }

/-- A copy of the packet for later. -/
def keepSent (packet : DbDesc) : Adjacencies :=
  adj.modifyDd nbr fun dd => { dd with lastSend := some packet, lastSendTs := adj.now }

def ospfDbDescSend : Adjacencies :=
  let made := adj.ospfMakeDbDesc nbr
  (made.1.transmit nbr made.2).keepSent nbr made.2

def ospfDbDescResend : Adjacencies :=
  match (adj.dd nbr).lastSend with
  | none => adj
  | some packet => adj.transmit nbr packet

def setState (state : NsmState) : Adjacencies :=
  { adj with nbr := Function.update adj.nbr nbr { adj.nbr nbr with state := state } }

def countFull (amount : Int) : Adjacencies :=
  let oi := adj.interfaceOf nbr
  { adj with
    oi := Function.update adj.oi oi.id { adj.oi oi.id with
      fullNbrs := (adj.oi oi.id).fullNbrs + amount }
    areaFullNbrs := Function.update adj.areaFullNbrs oi.area (adj.areaFullNbrs oi.area + amount) }

/-- One of the neighbours changes to or from the state Full. -/
def changeFull (old state : NsmState) : Adjacencies :=
  if old ≠ .full ∧ state = .full then adj.countFull nbr 1
  else if old = .full ∧ state ≠ .full then (adj.countFull nbr (-1)).clearLsRxmt nbr
  else adj

/-- The number of a new exchange: the time at first, and the next one after that. -/
def initExchange : Adjacencies :=
  adj.modifyDd nbr fun dd => { dd with
    ddSeqnum := if dd.ddSeqnum = 0 then BitVec.ofInt 32 (adj.now / 1000000) else dd.ddSeqnum + 1
    ddFlags := ospfDdFlagAll }

def startExchange : Adjacencies :=
  (adj.initExchange nbr).ospfDbDescSend nbr

def nsmChangeState (state : NsmState) : Adjacencies :=
  let changed := (adj.setState nbr state).changeFull nbr (adj.nbr nbr).state state
  if state = .exStart then changed.startExchange nbr else changed

/-- `ospf_nbr_delete`: the neighbour leaves its interface, and the events that wait for it go. -/
def ospfNbrDelete : Adjacencies :=
  let freed := adj.nsmResetNbr nbr
  { freed with
    oiflist := adj.oiflist.map fun oi => if oi.id = (adj.nbr nbr).oi then
      { oi with nbrs := oi.nbrs.erase nbr } else oi
    scheduled := adj.scheduled.filter fun entry => entry.1 ≠ nbr }

def nsmKillNbr : Adjacencies :=
  ((adj.nsmChangeState nbr .down).nsmResetNbr nbr).ospfNbrDelete nbr

def nsmTwowayReceived : NsmState :=
  let oi := adj.interfaceOf nbr
  let self := adj.nbr nbr
  if oi.type = .pointopoint || oi.type = .pointomultipoint || oi.type = .virtuallink ||
      oi.address = (adj.oi oi.id).dr || oi.address = (adj.oi oi.id).bdr ||
      self.address = self.dRouter || self.address = self.bdRouter then .exStart
  else .twoWay

def ospfDbSummaryAdd (nbr : NbrId) (adj : Adjacencies) (id : LsaId) : Adjacencies :=
  if (adj.lsa id).isMaxage adj.now then adj.onOspf (·.ospfLsRetransmitAdd nbr id)
  else adj.onOspf (·.onStore (·.ospfLsdbAdd (.dbSum nbr) id))

/-- The area's database, and the AS-external-LSAs where the neighbour gets them. -/
def summary (adj : Adjacencies) (nbr : NbrId) : List LsaId :=
  let oi := adj.interfaceOf nbr
  ([LsaType.router, .network, .summary, .asbrSummary].flatMap (adj.storedType (.area oi.area))) ++
    if oi.type ≠ .virtuallink ∧
      adj.areas.any (fun area => area.id = oi.area && area.externalRouting = .default) then
      adj.storedType .as .asExternal
    else []

def nsmNegotiationDone : Adjacencies :=
  (adj.summary nbr).foldl (ospfDbSummaryAdd nbr) adj

def nsmExchangeDone : NsmState :=
  if adj.isEmpty (.lsReq nbr) then .full else .loading

def adjacent : Bool :=
  let oi := adj.interfaceOf nbr
  oi.type = .pointopoint || oi.type = .pointomultipoint || oi.type = .virtuallink ||
    oi.address = (adj.oi oi.id).dr || oi.address = (adj.oi oi.id).bdr ||
    (adj.nbr nbr).address = (adj.oi oi.id).dr || (adj.nbr nbr).address = (adj.oi oi.id).bdr

def nsmAdjOk : NsmState :=
  let state := (adj.nbr nbr).state
  if state = .twoWay ∧ adj.adjacent nbr then .exStart
  else if NsmState.exStart.rank ≤ state.rank ∧ adj.adjacent nbr = false then .twoWay
  else state

/-- An action of the table: what it leaves, the state it asks for, and whether it deleted the
neighbour. -/
def act : NsmFunc → Adjacencies × NsmState × List NbrAction
  | .ignore | .helloReceived => (adj, .dependUpon, [])
  | .start | .badLsReq | .seqNumberMismatch | .onewayReceived =>
    (adj.nsmResetNbr nbr, .dependUpon, [])
  | .twowayReceived => (adj, adj.nsmTwowayReceived nbr, [])
  | .negotiationDone => (adj.nsmNegotiationDone nbr, .dependUpon, [])
  | .exchangeDone => (adj, adj.nsmExchangeDone nbr, [])
  | .adjOk => (adj, adj.nsmAdjOk nbr, [])
  | .killNbr | .inactivityTimer | .llDown =>
    (adj.nsmKillNbr nbr, .dependUpon, [.changeState .down, .delete])

/-- The change of state after an action, when there is one. -/
def follow (state : NsmState) : Adjacencies × List NbrAction :=
  if state ≠ (adj.nbr nbr).state then (adj.nsmChangeState nbr state, [.changeState state])
    else (adj, [])

/-- The state that an action asks for, or else the one of the table. -/
def nextState (event : NsmEvent) (asked : NsmState) : NsmState :=
  if asked = .dependUpon then (nsm (adj.nbr nbr).state event).2 else asked

def ospfNsmEvent (event : NsmEvent) : Adjacencies × List NbrAction :=
  let acted := adj.act nbr (nsm (adj.nbr nbr).state event).1
  if event = .killNbr ∨ event = .inactivityTimer then (acted.1, acted.2.2)
  else
    let followed := acted.1.follow nbr (acted.1.nextState nbr event acted.2.1)
    (followed.1, acted.2.2 ++ followed.2 ++ [.timerSet])

/-- `OSPF_NSM_EVENT_EXECUTE`. -/
def execute (event : NsmEvent) : Adjacencies :=
  (adj.ospfNsmEvent nbr event).1

variable (header : LsaHeader)

/-- `ospf_lsa_lookup_by_header`, from the area of the neighbour. -/
def lookupByHeader : Option LsaId :=
  (adj.lsdb (if header.key.type = .asExternal then .as
    else .area (adj.interfaceOf nbr).area)).lookup header.key

/-- Whether a header is of something more recent than the database has. -/
def wants (new : OspfLsa) : Bool :=
  match adj.lookupByHeader nbr header with
  | none => true
  | some found => moreRecent adj.now (adj.lsa found) new < 0

/-- A header of the loop of `ospf_db_desc_proc` that is let in. -/
def procHeader : Adjacencies :=
  let made := adj.onOspf fun ospf => (ospf.ospfLsaNew header [] none false).1
  let requested :=
    if adj.wants nbr header (made.lsa adj.fresh) then
      made.onOspf (·.onStore (·.ospfLsdbAdd (.lsReq nbr) adj.fresh)) else made
  requested.onOspf (·.ospfLsaDiscard adj.fresh)

/-- AS-external-LSAs have no place in the area. -/
def refuses : Bool :=
  header.key.type = .asExternal &&
    !adj.areas.any fun area => area.id = (adj.interfaceOf nbr).area &&
      area.externalRouting = .default

end

/-- The loop over the headers; whether it came to its end. -/
def procHeaders (nbr : NbrId) : Adjacencies → List (Option LsaHeader) → Adjacencies × Bool
  | adj, [] => (adj, true)
  | adj, none :: _ => (adj.schedule nbr .seqNumberMismatch, false)
  | adj, some header :: rest =>
    if adj.refuses nbr header then (adj.schedule nbr .seqNumberMismatch, false)
    else procHeaders nbr (adj.procHeader nbr header) rest

section
variable (adj : Adjacencies) (nbr : NbrId) (dd : DbDesc)

/-- After the headers, as the master. -/
def procMaster : Adjacencies :=
  let adj := adj.setSeqnum nbr ((adj.dd nbr).ddSeqnum + 1)
  if !isSetDdM dd.flags && !isSetDdM (adj.dd nbr).ddFlags then adj.schedule nbr .exchangeDone
    else adj.ospfDbDescSend nbr

/-- After the headers, as the slave. -/
def procSlave : Adjacencies :=
  let adj := adj.setSeqnum nbr dd.ddSeqnum
  let adj :=
    if !isSetDdM dd.flags && adj.isEmpty (.dbSum nbr) then
      (adj.dropFlags nbr ospfDdFlagM).schedule nbr .exchangeDone else adj
  adj.ospfDbDescSend nbr

def ospfDbDescSaveCurrent : Adjacencies :=
  adj.modifyDd nbr fun state => { state with lastRecv := (dd.flags, dd.options, dd.ddSeqnum) }

def ospfDbDescProc : Adjacencies :=
  let processed := procHeaders nbr adj dd.headers
  if processed.2 then
    (if isSetDdMs (processed.1.dd nbr).ddFlags then processed.1.procMaster nbr dd
      else processed.1.procSlave nbr dd).ospfDbDescSaveCurrent nbr dd
  else processed.1

def ospfDbDescIsDup : Bool :=
  (adj.dd nbr).lastRecv = (dd.flags, dd.options, dd.ddSeqnum)

/-- The roles of a packet in state ExStart, with what becomes of our flags and number. -/
def negotiate : Option Adjacencies :=
  if dd.flags &&& ospfDdFlagAll = ospfDdFlagAll ∧ dd.headers = [] then
    if adj.routerId.toNat < (adj.nbr nbr).routerId.toNat then
      some ((adj.setSeqnum nbr dd.ddSeqnum).dropFlags nbr (ospfDdFlagMs ||| ospfDdFlagI))
    else none
  else if !isSetDdMs dd.flags ∧ !isSetDdI dd.flags ∧ dd.ddSeqnum = (adj.dd nbr).ddSeqnum ∧
      (adj.nbr nbr).routerId.toNat < adj.routerId.toNat then
    some (adj.dropFlags nbr ospfDdFlagI)
  else none

/-- This is where the real options are saved. -/
def saveOptions : Adjacencies :=
  adj.modifyDd nbr fun state => { state with options := dd.options }

/-- The case of state ExStart. -/
def dbDescExStart : Adjacencies :=
  match adj.negotiate nbr dd with
  | none => adj
  | some agreed => ((agreed.saveOptions nbr dd).execute nbr .negotiationDone).ospfDbDescProc nbr dd

/-- Whether a packet in state Exchange is the next one. -/
def isNext : Bool :=
  let state := adj.dd nbr
  isSetDdMs dd.flags = isSetDdMs state.lastRecv.1 && !isSetDdI dd.flags && dd.options =
    state.options &&
    if isSetDdMs state.ddFlags then dd.ddSeqnum = state.ddSeqnum
      else dd.ddSeqnum = state.ddSeqnum + 1

def dbDescExchange : Adjacencies :=
  if adj.ospfDbDescIsDup nbr dd then
    if isSetDdMs (adj.dd nbr).ddFlags then adj else adj.ospfDbDescResend nbr
  else if adj.isNext nbr dd then adj.ospfDbDescProc nbr dd
  else adj.schedule nbr .seqNumberMismatch

def dbDescLoading : Adjacencies :=
  if adj.ospfDbDescIsDup nbr dd ∧ isSetDdMs (adj.dd nbr).ddFlags then adj
  else if adj.ospfDbDescIsDup nbr dd ∧ adj.now - (adj.dd nbr).lastSendTs < adj.vInactivity then
    adj.ospfDbDescResend nbr
  else adj.schedule nbr .seqNumberMismatch

/-- `ospf_db_desc`, for a packet from a neighbour that is known. -/
def ospfDbDesc : Adjacencies :=
  if (adj.oi (adj.nbr nbr).oi).mtu < dd.mtu then adj
  else
    match (adj.nbr nbr).state with
    | .init =>
      let adj := adj.execute nbr .twoWayReceived
      if (adj.nbr nbr).state = .exStart then adj.dbDescExStart nbr dd else adj
    | .exStart => adj.dbDescExStart nbr dd
    | .exchange => adj.dbDescExchange nbr dd
    | .loading | .full => adj.dbDescLoading nbr dd
    | _ => adj

end

variable (adj : Adjacencies) (nbr : NbrId)

def answerTo : UpdateTo :=
  if (adj.interfaceOf nbr).type = .nbma then .direct nbr else .indirect (adj.nbr nbr).oi

def sendBatch (batch : List LsaId) : Adjacencies :=
  batch.foldl (fun adj id => adj.onOspf (·.ospfLsUpdSendLsa (adj.answerTo nbr) id)) adj

/-- The loop of `ospf_ls_req`: what is found goes out in packets that fit, and nothing more once
something is missing. -/
def answerRequests (adj : Adjacencies) (nbr : NbrId) (length : Nat) (batch : List LsaId) :
    List (Option LsaKey) → Adjacencies
  | [] => adj.sendBatch nbr batch
  | key :: rest =>
    match key.bind fun key =>
        (adj.lsdb (if key.type = .asExternal then .as else .area (adj.interfaceOf nbr).area)).lookup
          key with
    | none => adj.schedule nbr .badLsReq
    | some found =>
      let size := (adj.lsa found).data.length.toNat
      if adj.packetMax nbr < ((length + size : Nat) : Int) then
        (adj.sendBatch nbr batch).answerRequests nbr (28 + size) [found] rest
      else adj.answerRequests nbr (length + size) (batch ++ [found]) rest

def ospfLsReq (keys : List (Option LsaKey)) : Adjacencies :=
  if (adj.nbr nbr).state.rank < NsmState.exchange.rank then adj
    else adj.answerRequests nbr 28 [] keys

end Adjacencies
end Zebra.Ospfd
