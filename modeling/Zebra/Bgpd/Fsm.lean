import Zebra.Bgpd.Peer

/-! The finite state machine of a BGP session (`bgp_fsm.c`). -/
namespace Zebra.Bgpd.Fsm

inductive Status where
  | idle
  | connect
  | active
  | openSent
  | openConfirm
  | established
deriving DecidableEq

inductive Event where
  | bgpStart
  | bgpStop
  | tcpConnectionOpen
  | tcpConnectionClosed
  | tcpConnectionOpenFailed
  | tcpFatalError
  | connectRetryTimerExpired
  | holdTimerExpired
  | keepAliveTimerExpired
  | receiveOpenMessage
  | receiveKeepaliveMessage
  | receiveUpdateMessage
  | receiveNotificationMessage
deriving DecidableEq

/-- The functions of the table. -/
inductive Action where
  | bgpIgnore
  | bgpStop
  | bgpStopWithError
  | bgpConnectSuccess
  | bgpConnectFail
  | bgpStart
  | bgpReconnect
  | bgpFsmOpen
  | bgpFsmHoldtimeExpire
  | bgpEstablish
  | bgpFsmKeepaliveExpire
  | bgpFsmKeepalive
  | bgpFsmUpdate
deriving DecidableEq

/-- `FSM`: the function an event calls in a status, and the status after it. -/
def fsm : Status → Event → Action × Status
  | .idle, .bgpStart => (.bgpIgnore, .active)
  | .idle, .bgpStop => (.bgpStop, .idle)
  | .idle, .tcpConnectionOpen => (.bgpStop, .idle)
  | .idle, .tcpConnectionClosed => (.bgpStop, .idle)
  | .idle, .tcpConnectionOpenFailed => (.bgpIgnore, .idle)
  | .idle, .tcpFatalError => (.bgpStop, .idle)
  | .idle, .connectRetryTimerExpired => (.bgpIgnore, .idle)
  | .idle, .holdTimerExpired => (.bgpIgnore, .idle)
  | .idle, .keepAliveTimerExpired => (.bgpIgnore, .idle)
  | .idle, .receiveOpenMessage => (.bgpIgnore, .idle)
  | .idle, .receiveKeepaliveMessage => (.bgpIgnore, .idle)
  | .idle, .receiveUpdateMessage => (.bgpIgnore, .idle)
  | .idle, .receiveNotificationMessage => (.bgpIgnore, .idle)
  | .connect, .bgpStart => (.bgpIgnore, .connect)
  | .connect, .bgpStop => (.bgpStop, .idle)
  | .connect, .tcpConnectionOpen => (.bgpConnectSuccess, .openSent)
  | .connect, .tcpConnectionClosed => (.bgpStop, .idle)
  | .connect, .tcpConnectionOpenFailed => (.bgpConnectFail, .active)
  | .connect, .tcpFatalError => (.bgpConnectFail, .idle)
  | .connect, .connectRetryTimerExpired => (.bgpReconnect, .connect)
  | .connect, .holdTimerExpired => (.bgpIgnore, .idle)
  | .connect, .keepAliveTimerExpired => (.bgpIgnore, .idle)
  | .connect, .receiveOpenMessage => (.bgpIgnore, .idle)
  | .connect, .receiveKeepaliveMessage => (.bgpIgnore, .idle)
  | .connect, .receiveUpdateMessage => (.bgpIgnore, .idle)
  | .connect, .receiveNotificationMessage => (.bgpStop, .idle)
  | .active, .bgpStart => (.bgpIgnore, .active)
  | .active, .bgpStop => (.bgpStop, .idle)
  | .active, .tcpConnectionOpen => (.bgpConnectSuccess, .openSent)
  | .active, .tcpConnectionClosed => (.bgpStop, .idle)
  | .active, .tcpConnectionOpenFailed => (.bgpIgnore, .active)
  | .active, .tcpFatalError => (.bgpIgnore, .idle)
  | .active, .connectRetryTimerExpired => (.bgpStart, .connect)
  | .active, .holdTimerExpired => (.bgpIgnore, .idle)
  | .active, .keepAliveTimerExpired => (.bgpIgnore, .idle)
  | .active, .receiveOpenMessage => (.bgpIgnore, .idle)
  | .active, .receiveKeepaliveMessage => (.bgpIgnore, .idle)
  | .active, .receiveUpdateMessage => (.bgpIgnore, .idle)
  | .active, .receiveNotificationMessage => (.bgpStopWithError, .idle)
  | .openSent, .bgpStart => (.bgpIgnore, .openSent)
  | .openSent, .bgpStop => (.bgpStop, .idle)
  | .openSent, .tcpConnectionOpen => (.bgpStop, .idle)
  | .openSent, .tcpConnectionClosed => (.bgpStop, .active)
  | .openSent, .tcpConnectionOpenFailed => (.bgpIgnore, .idle)
  | .openSent, .tcpFatalError => (.bgpStop, .idle)
  | .openSent, .connectRetryTimerExpired => (.bgpIgnore, .idle)
  | .openSent, .holdTimerExpired => (.bgpFsmHoldtimeExpire, .idle)
  | .openSent, .keepAliveTimerExpired => (.bgpIgnore, .idle)
  | .openSent, .receiveOpenMessage => (.bgpFsmOpen, .openConfirm)
  | .openSent, .receiveKeepaliveMessage => (.bgpIgnore, .idle)
  | .openSent, .receiveUpdateMessage => (.bgpIgnore, .idle)
  | .openSent, .receiveNotificationMessage => (.bgpStopWithError, .idle)
  | .openConfirm, .bgpStart => (.bgpIgnore, .openConfirm)
  | .openConfirm, .bgpStop => (.bgpStop, .idle)
  | .openConfirm, .tcpConnectionOpen => (.bgpStop, .idle)
  | .openConfirm, .tcpConnectionClosed => (.bgpStop, .idle)
  | .openConfirm, .tcpConnectionOpenFailed => (.bgpStop, .idle)
  | .openConfirm, .tcpFatalError => (.bgpStop, .idle)
  | .openConfirm, .connectRetryTimerExpired => (.bgpIgnore, .idle)
  | .openConfirm, .holdTimerExpired => (.bgpFsmHoldtimeExpire, .idle)
  | .openConfirm, .keepAliveTimerExpired => (.bgpIgnore, .openConfirm)
  | .openConfirm, .receiveOpenMessage => (.bgpIgnore, .idle)
  | .openConfirm, .receiveKeepaliveMessage => (.bgpEstablish, .established)
  | .openConfirm, .receiveUpdateMessage => (.bgpIgnore, .idle)
  | .openConfirm, .receiveNotificationMessage => (.bgpStopWithError, .idle)
  | .established, .bgpStart => (.bgpIgnore, .established)
  | .established, .bgpStop => (.bgpStop, .idle)
  | .established, .tcpConnectionOpen => (.bgpStop, .idle)
  | .established, .tcpConnectionClosed => (.bgpStop, .idle)
  | .established, .tcpConnectionOpenFailed => (.bgpIgnore, .idle)
  | .established, .tcpFatalError => (.bgpStop, .idle)
  | .established, .connectRetryTimerExpired => (.bgpIgnore, .idle)
  | .established, .holdTimerExpired => (.bgpFsmHoldtimeExpire, .idle)
  | .established, .keepAliveTimerExpired => (.bgpFsmKeepaliveExpire, .established)
  | .established, .receiveOpenMessage => (.bgpStop, .idle)
  | .established, .receiveKeepaliveMessage => (.bgpFsmKeepalive, .established)
  | .established, .receiveUpdateMessage => (.bgpFsmUpdate, .established)
  | .established, .receiveNotificationMessage => (.bgpStopWithError, .idle)

abbrev PerFamily (α : Type) := Afi → Safi → α

/-- `for (afi ...) for (safi = SAFI_UNICAST; safi < SAFI_UNICAST_MULTICAST; ...)`. -/
def plainFamilies : List (Afi × Safi) :=
  [(.ip, .unicast), (.ip, .multicast), (.ip6, .unicast), (.ip6, .multicast)]

def allFamilies : List (Afi × Safi) :=
  [(.ip, .unicast), (.ip, .multicast), (.ip, .mplsVpn), (.ip6, .unicast), (.ip6, .multicast),
    (.ip6, .mplsVpn)]

inductive MessageType where
  | open
  | update
  | notify
  | keepalive
  | routeRefresh
deriving DecidableEq

/-- `af_cap`: the capabilities of one address family, sent and received. -/
structure AfCap where
  restartAfRcv : Bool := false
  restartAfPreserveRcv : Bool := false
  orfPrefixSmAdv : Bool := false
  orfPrefixSmRcv : Bool := false
  orfPrefixSmOldRcv : Bool := false
  orfPrefixRmAdv : Bool := false
  orfPrefixRmRcv : Bool := false
  orfPrefixRmOldRcv : Bool := false

/-- What the session has learned from the remote end. -/
structure Negotiated where
  remoteId : Ipv4 := 0
  restartAdv : Bool := false
  afcNego : PerFamily Bool := fun _ _ => false
  afcAdv : PerFamily Bool := fun _ _ => false
  afcRecv : PerFamily Bool := fun _ _ => false
  afCap : PerFamily AfCap := fun _ _ => {}
  orfWaitRefresh : PerFamily Bool := fun _ _ => false

/-- The configuration of the session. -/
structure Settings where
  shutdown : Bool := false
  passive : Bool := false
  /-- `peer_active`: some address family is configured. -/
  active : Bool := true
  /-- Keepalive and hold time of the peer, with `PEER_CONFIG_TIMER`. -/
  timers : Option (Nat × Nat) := none
  defaultKeepalive : Nat := 60
  defaultHoldtime : Nat := 180
  vGrRestart : Nat := 120
  stalepathTime : Nat := 360

def bgpPeerFirstCreateTimer : Int := 20
def bgpInitStartTimer : Int := 0
def bgpActiveDelayTimer : Nat := 5
def bgpDefaultConnectRetry : Nat := 120

/-- The calls into the routing table. -/
inductive RouteCall where
  | clearRouteAll
  | clearStaleRoute (afi : Afi) (safi : Safi)
  | announceRouteAll
deriving DecidableEq

abbrev Sock := Nat

/-- The part of `struct peer` that the state machine works on. A timer that is on holds
its seconds, a closed `fd` is the source's -1. -/
structure Peer where
  settings : Settings := {}
  status : Status := .idle
  ostatus : Status := .idle
  createInit : Bool := false
  acceptPeer : Bool := false
  prefixOverflow : Bool := false
  capabilityOpen : Bool := true
  nsfWait : Bool := false
  nsfMode : Bool := false
  nsf : PerFamily Bool := fun _ _ => false
  fd : Option Sock := none
  tRead : Bool := false
  tWrite : Bool := false
  tStart : Option Int := none
  tConnect : Option Int := none
  tHoldtime : Option Int := none
  tKeepalive : Option Int := none
  tAsorig : Option Int := none
  tRouteadv : PerFamily (Option Int) := fun _ _ => none
  tGrRestart : Option Int := none
  tGrStale : Option Int := none
  vActiveDelay : Nat := bgpActiveDelayTimer
  vKeepalive : Nat := 60
  vHoldtime : Nat := 180
  negotiated : Negotiated := {}
  /-- `su_local` and `su_remote` are held. -/
  named : Bool := false
  packetSize : Nat := 0
  obuf : List MessageType := []
  /-- The events that are queued for the peer. -/
  events : List Event := []
  established : BitVec 32 := 0
  dropped : BitVec 32 := 0
  keepaliveIn : BitVec 32 := 0
  notifyOut : BitVec 32 := 0
  routeCalls : List RouteCall := []
  /-- `peer_delete` has freed the structure. -/
  deleted : Bool := false

/-- What `bgp_connect` comes back with. -/
inductive Connected where
  | noSocket
  | error (fd : Sock)
  | success (fd : Sock)
  | inProgress (fd : Sock)
deriving DecidableEq

/-- What an event meets outside the peer: the result of `bgp_connect`, whether the two
NOTIFICATION messages it may send are written, and the jitter of the connect timer. -/
structure Env where
  connected : Connected := .noSocket
  written : Bool := true
  writtenLast : Bool := true
  jitter : Int := 0

def threadTimerOn (timer : Option Int) (seconds : Int) : Option Int :=
  timer.or (some seconds)

namespace Peer
section
variable (peer : Peer)

/-- The part of `bgp_timer_set` that most statuses share. -/
def slowTimersOff : Peer :=
  { peer with tAsorig := none, tRouteadv := fun _ _ => none }

/-- Hold and keepalive timer of a session that runs; both are off if the hold time is zero. -/
def sessionTimersOn : Peer :=
  if peer.vHoldtime = 0 then { peer with tHoldtime := none, tKeepalive := none }
  else { peer with
    tHoldtime := threadTimerOn peer.tHoldtime peer.vHoldtime
    tKeepalive := threadTimerOn peer.tKeepalive peer.vKeepalive }

def bgpTimerSet (jitter : Int) (peer : Peer) : Peer :=
  match peer.status with
  | .idle =>
    let started :=
      if peer.settings.shutdown || peer.prefixOverflow || !peer.settings.active then none
      else threadTimerOn peer.tStart
        (if peer.createInit then bgpPeerFirstCreateTimer else bgpInitStartTimer)
    slowTimersOff { peer with
      tStart := started, tConnect := none, tHoldtime := none, tKeepalive := none }
  | .connect =>
    slowTimersOff { peer with
      tStart := none
      tConnect := threadTimerOn peer.tConnect bgpDefaultConnectRetry
      tHoldtime := none
      tKeepalive := none }
  | .active =>
    let connect :=
      if peer.settings.passive then none
      else threadTimerOn peer.tConnect
        (if peer.ostatus = .idle ∧ !peer.nsfWait then peer.vActiveDelay + jitter
          else bgpDefaultConnectRetry)
    slowTimersOff { peer with
      tStart := none, tConnect := connect, tHoldtime := none, tKeepalive := none }
  | .openSent =>
    let holdtime := if peer.vHoldtime ≠ 0 then threadTimerOn peer.tHoldtime peer.vHoldtime else none
    slowTimersOff { peer with
      tStart := none, tConnect := none, tHoldtime := holdtime, tKeepalive := none }
  | .openConfirm => slowTimersOff (sessionTimersOn { peer with tStart := none, tConnect := none })
  | .established => { sessionTimersOn { peer with tStart := none, tConnect := none } with
    tAsorig := none }

def bgpFsmChangeStatus (status : Status) (peer : Peer) : Peer :=
  { peer with ostatus := peer.status, status }

/-- The part of `bgp_stop` that an established session goes through. -/
def dropSession : Peer :=
  let peer := { peer.bgpFsmChangeStatus .idle with dropped := peer.dropped + 1, tGrStale := none }
  let peer := if peer.nsfWait then { peer with
      tGrRestart := threadTimerOn peer.tGrRestart peer.settings.vGrRestart
      tGrStale := threadTimerOn peer.tGrStale peer.settings.stalepathTime }
    else { peer with nsfMode := false, nsf := fun _ _ => false }
  { peer with routeCalls := peer.routeCalls ++ [.clearRouteAll] }

/-- The part of `bgp_stop` that every session goes through. -/
def resetSession : Peer :=
  { peer with
    tRead := false
    tWrite := false
    tStart := none
    tConnect := none
    tHoldtime := none
    tKeepalive := none
    tAsorig := none
    tRouteadv := fun _ _ => none
    events := []
    packetSize := 0
    obuf := []
    fd := none
    named := false
    negotiated := {}
    vKeepalive := (peer.settings.timers.map Prod.fst).getD peer.settings.defaultKeepalive
    vHoldtime := (peer.settings.timers.map Prod.snd).getD peer.settings.defaultHoldtime }

def bgpStop : Peer :=
  if peer.createInit then peer
  else if peer.status = .established then peer.dropSession.resetSession
  else peer.resetSession

def bgpStopWithError : Peer :=
  { peer with vActiveDelay := min (2 * peer.vActiveDelay) bgpDefaultConnectRetry }.bgpStop

def bgpPacketAdd (message : MessageType) (peer : Peer) : Peer :=
  { peer with obuf := peer.obuf ++ [message], tWrite := true }

def bgpOpenSend : Peer → Peer := bgpPacketAdd .open

def bgpKeepaliveSend : Peer → Peer := bgpPacketAdd .keepalive

def bgpWriteNotify (written : Bool) (jitter : Int) (peer : Peer) : Peer :=
  if peer.obuf = [] then peer
  else if !written then { peer.bgpStop with status := .idle }.bgpTimerSet jitter
  else
    let peer := { peer with notifyOut := peer.notifyOut + 1 }
    if peer.status = .established then peer.bgpStop.bgpTimerSet jitter
    else (peer.bgpStopWithError.bgpFsmChangeStatus .idle).bgpTimerSet jitter

def bgpNotifySend (written : Bool) (jitter : Int) (peer : Peer) : Peer :=
  { peer with obuf := [.notify], tWrite := false }.bgpWriteNotify written jitter

def peerNsfStop : Peer :=
  { peer with
    nsfWait := false
    nsfMode := false
    nsf := fun _ _ => false
    tGrRestart := none
    tGrStale := none
    routeCalls := peer.routeCalls ++ [.clearRouteAll] }

def peerDelete (written : Bool) (jitter : Int) (peer : Peer) : Peer :=
  let peer := if peer.nsfWait then peer.peerNsfStop else peer
  let peer := if peer.status = .established then peer.bgpNotifySend written jitter
    else peer.bgpStop.bgpFsmChangeStatus .idle
  { peer with
    tStart := none
    tConnect := none
    tHoldtime := none
    tKeepalive := none
    tAsorig := none
    tGrRestart := none
    tGrStale := none
    tRouteadv := fun _ _ => none
    deleted := true }

/-- `bgp_start`. Where there is no socket `bgp_connect` answers -1, which is no case of
the switch. -/
def bgpStart (connected : Connected) (peer : Peer) : Peer :=
  match connected with
  | .noSocket => { peer with fd := none }
  | .error fd => { peer with fd := some fd, events := peer.events ++ [.tcpConnectionOpenFailed] }
  | .success fd => { peer with fd := some fd, events := peer.events ++ [.tcpConnectionOpen] }
  | .inProgress fd => { peer with fd := some fd, tRead := true, tWrite := true }

/-- The flag is false where the source returns -1. -/
def bgpConnectSuccess : Bool × Peer :=
  if peer.fd = none then (false, peer)
  else
    let peer := { peer with tRead := true }
    (true, if peer.acceptPeer then peer else { peer with named := true }.bgpOpenSend)

/-- One round of the graceful restart loop of `bgp_establish`. -/
def establishFamily (family : Afi × Safi) : Peer :=
  let (afi, safi) := family
  let afCap := peer.negotiated.afCap afi safi
  let restarts :=
    peer.negotiated.afcNego afi safi && peer.negotiated.restartAdv && afCap.restartAfRcv
  let stale := peer.nsf afi safi && !(restarts && afCap.restartAfPreserveRcv)
  { peer with
    routeCalls := peer.routeCalls ++ if stale then [.clearStaleRoute afi safi] else []
    nsf := fun afi' safi' => if afi' = afi ∧ safi' = safi then restarts else peer.nsf afi' safi' }

/-- The ORF requests of `bgp_establish`. -/
def refreshFamily (family : Afi × Safi) : Peer :=
  let afCap := peer.negotiated.afCap family.1 family.2
  if afCap.orfPrefixSmAdv && (afCap.orfPrefixRmRcv || afCap.orfPrefixRmOldRcv) then
    peer.bgpPacketAdd .routeRefresh
  else peer

/-- The graceful restart part of `bgp_establish`. -/
def establishRestart : Peer :=
  let peer := plainFamilies.foldl establishFamily { peer with nsfWait := false, tGrRestart := none }
  if plainFamilies.any fun family => peer.nsf family.1 family.2 then { peer with nsfMode := true }
  else { peer with nsfMode := false, tGrStale := none }

/-- The first update is deferred until ORF or ROUTE-REFRESH is received. -/
def deferUpdate : Peer :=
  let waits : PerFamily Bool := fun afi safi =>
    let afCap := peer.negotiated.afCap afi safi
    peer.negotiated.orfWaitRefresh afi safi ||
      (afCap.orfPrefixRmAdv && (afCap.orfPrefixSmRcv || afCap.orfPrefixSmOldRcv))
  { peer with negotiated := { peer.negotiated with orfWaitRefresh := waits } }

/-- The messages of `bgp_establish`, and the current table. -/
def establishSend : Peer :=
  let peer := allFamilies.foldl refreshFamily peer
  let peer := (if peer.vKeepalive ≠ 0 then peer.bgpKeepaliveSend else peer).deferUpdate
  { peer with routeCalls := peer.routeCalls ++ [.announceRouteAll] }

def bgpEstablish : Peer :=
  let peer := { peer with
    capabilityOpen := true
    vActiveDelay := bgpActiveDelayTimer
    established := peer.established + 1 }
  (peer.bgpFsmChangeStatus .established).establishRestart.establishSend

def bgpFsmHoldtimeExpire (env : Env) (peer : Peer) : Bool × Peer :=
  let peer := peer.bgpNotifySend env.written env.jitter
  if peer.acceptPeer then (false, peer.peerDelete env.writtenLast env.jitter) else (true, peer)

/-- A call of the table's function. -/
def call (env : Env) (peer : Peer) : Action → Bool × Peer
  | .bgpIgnore => (true, peer)
  | .bgpStop => (true, peer.bgpStop)
  | .bgpStopWithError => (true, peer.bgpStopWithError)
  | .bgpConnectSuccess => peer.bgpConnectSuccess
  | .bgpConnectFail => (true, peer.bgpStop)
  | .bgpStart => (true, peer.bgpStart env.connected)
  | .bgpReconnect => (true, peer.bgpStop.bgpStart env.connected)
  | .bgpFsmOpen => (true, { peer.bgpKeepaliveSend with tHoldtime := none })
  | .bgpFsmHoldtimeExpire => peer.bgpFsmHoldtimeExpire env
  | .bgpEstablish => (true, peer.bgpEstablish)
  | .bgpFsmKeepaliveExpire => (true, peer.bgpKeepaliveSend)
  | .bgpFsmKeepalive => (true, { peer with keepaliveIn := peer.keepaliveIn + 1, tHoldtime := none })
  | .bgpFsmUpdate => (true, { peer with tHoldtime := none })

/-- The status changes only where it differs. -/
def moveTo (next : Status) (peer : Peer) : Peer :=
  if next ≠ peer.status then peer.bgpFsmChangeStatus next else peer

def bgpEvent (env : Env) (event : Event) (peer : Peer) : Peer :=
  let cell := fsm peer.status event
  let called := peer.call env cell.1
  if !called.1 then called.2 else (called.2.moveTo cell.2).bgpTimerSet env.jitter

/-- The timers whose expiry is an event of the machine. -/
inductive Timer where
  | start
  | connect
  | holdtime
  | keepalive
deriving DecidableEq

def Timer.event : Timer → Event
  | .start => .bgpStart
  | .connect => .connectRetryTimerExpired
  | .holdtime => .holdTimerExpired
  | .keepalive => .keepAliveTimerExpired

/-- A timer that is on. -/
def isOn : Timer → Bool
  | .start => peer.tStart.isSome
  | .connect => peer.tConnect.isSome
  | .holdtime => peer.tHoldtime.isSome
  | .keepalive => peer.tKeepalive.isSome

/-- The field of an expired timer is cleared; the first start ends the creation. -/
def fired : Timer → Peer
  | .start => { peer with tStart := none, createInit := false }
  | .connect => { peer with tConnect := none }
  | .holdtime => { peer with tHoldtime := none }
  | .keepalive => { peer with tKeepalive := none }

end

/-- `bgp_start_timer` and its kin. -/
def expire (env : Env) (timer : Timer) (peer : Peer) : Peer :=
  if peer.isOn timer then (peer.fired timer).bgpEvent env timer.event else peer

end Peer

/-- What the rest of the daemon may write between two events: the configuration, and what
an OPEN or a broken connection leaves in the peer. -/
structure Outside where
  settings : Settings
  negotiated : Negotiated
  vKeepalive : Nat
  vHoldtime : Nat
  prefixOverflow : Bool
  nsfWait : Bool

inductive Input where
  | deliver (event : Event) (env : Env)
  | timer (timer : Peer.Timer) (env : Env)
  | outside (change : Outside)

namespace Peer

def step (peer : Peer) (input : Input) : Peer :=
  if peer.deleted then peer
  else match input with
    | .deliver event env => peer.bgpEvent env event
    | .timer timer env => peer.expire env timer
    | .outside change =>
      { peer with
        settings := change.settings
        negotiated := change.negotiated
        vKeepalive := change.vKeepalive
        vHoldtime := change.vHoldtime
        prefixOverflow := change.prefixOverflow
        nsfWait := change.nsfWait }

/-- `peer_create`. -/
def created (settings : Settings) : Peer :=
  { settings
    createInit := true
    vKeepalive := settings.defaultKeepalive
    vHoldtime := settings.defaultHoldtime : Peer }.bgpTimerSet 0

/-- The temporary peer that `bgp_accept` makes. -/
def accepted (fd : Sock) : Peer where
  settings := { active := false }
  acceptPeer := true
  status := .active
  fd := some fd
  vKeepalive := 0
  vHoldtime := 0
  events := [.tcpConnectionOpen]

end Peer
end Zebra.Bgpd.Fsm
