import Mathlib.Logic.Function.Basic
import Zebra.Bgpd.Fsm

/-! `bgp_collision_detect` of bgpd/bgp_packet.c, with the two peers of a router that have the other
router's address. -/
namespace Zebra.Bgpd.Fsm
open Function

structure OpenMessage where
  version : Nat
  remoteAs : As
  holdtime : BitVec 16
  remoteId : Ipv4
  /-- What `bgp_open_option_parse` makes of the options. Where it fails, it has sent a
  NOTIFICATION or not. -/
  options : Negotiated → Except Bool Negotiated

inductive Message where
  | open (message : OpenMessage)
  | keepalive
  | notification
  | other

/-- Messages on their connections. -/
abbrev Sent := List (Sock × Message)

inductive Role where
  | configured
  | accepted
deriving DecidableEq

def Role.other : Role → Role
  | .configured => .accepted
  | .accepted => .configured

/-- A router and its peers for the other router; `as` is the number that it expects. -/
structure Router where
  localAs : As
  localId : Ipv4
  as : As
  connectModeActive : Bool := false
  options : Negotiated → Except Bool Negotiated := .ok
  configured : Peer
  accepted : Option Peer := none

def Settings.sendHoldtime (settings : Settings) : Nat :=
  (settings.timers.map Prod.snd).getD settings.defaultHoldtime

/-- `bgp_notify_send`, and what goes out. -/
def Peer.notify (env : Env) (peer : Peer) : Peer × Sent :=
  (peer.bgpNotifySend env.written env.jitter,
    if env.written then peer.fd.toList.map fun fd => (fd, .notification) else [])

/-- What `bgp_open_receive` does for a peer that keeps its connection. The event at its end is
the next to be called. -/
def Peer.openAccept (env : Env) (localId : Ipv4) (as : As) (message : OpenMessage) (peer : Peer) :
    Peer × Sent :=
  if message.remoteId = 0 ∨ 0xe0000000 ≤ message.remoteId ∨
    localId = message.remoteId then peer.notify env
  else
    let peer := { peer with negotiated := { peer.negotiated with remoteId := message.remoteId } }
    if message.version ≠ 4 then peer.notify env
    else if message.remoteAs ≠ as then peer.notify env
    else if message.holdtime < 3 ∧ message.holdtime ≠ 0 then peer.notify env
    else
      let vHoldtime := min message.holdtime.toNat peer.settings.sendHoldtime
      let peer := { peer with vHoldtime, vKeepalive := vHoldtime / 3 }
      match message.options peer.negotiated with
      | .error notified => if notified then peer.notify env else (peer, [])
      | .ok negotiated =>
        ({ peer with negotiated, named := true,
                     packetSize := 0 }.bgpEvent env .receiveOpenMessage, [])

namespace Router
variable (router : Router)

def peer : Role → Option Peer
  | .configured => some router.configured
  | .accepted => router.accepted

def setPeer (role : Role) (peer : Peer) : Router :=
  match role with
  | .configured => { router with configured := peer }
  | .accepted => { router with accepted := some peer }

def notify (router : Router) (env : Env) (role : Role) : Router × Sent :=
  match router.peer role with
  | none => (router, [])
  | some peer => (router.setPeer role (peer.notify env).1, (peer.notify env).2)

/-- What `bgp_collision_detect` returns: 0, 1 or -1. -/
inductive Collision where
  | none
  | existing
  | new
deriving DecidableEq

/-- In both cases the NOTIFICATION goes to the peer that was found. -/
def bgpCollisionDetect (env : Env) (new : Role) (remoteId : Ipv4) : Collision × Router × Sent :=
  match router.peer new.other, router.peer new with
  | some peer, some newPeer =>
    if peer.status = .openConfirm ∨ peer.status = .openSent then
      if router.localId < remoteId then
        (.existing, if peer.fd.isSome then router.notify env new.other else (router, []))
      else (.new, if newPeer.fd.isSome then router.notify env new.other else (router, []))
    else (.none, router, [])
  | _, _ => (.none, router, [])

/-- `peer_lookup_with_open`. -/
def lookupWithOpen (message : OpenMessage) : Bool :=
  router.as = message.remoteAs &&
    (router.configured.negotiated.remoteId = message.remoteId ||
      router.configured.negotiated.remoteId = 0)

/-- "Transfer temporary BGP peer to existing one". -/
def transfer (temporary : Peer) : Router :=
  let real :=
    { router.configured.bgpStop with fd := temporary.fd, packetSize := temporary.packetSize }
  { router with
    configured := (real.bgpFsmChangeStatus temporary.status).bgpOpenSend
    accepted := some { temporary with fd := none }.bgpStop }

/-- The "Hack part" of `bgp_open_receive`, for the temporary peer. -/
def openTransfer (env : Env) (collision : Collision) (temporary : Peer) (message : OpenMessage) :
    Router × Sent :=
  let real := router.configured
  let survives := real.status = .established ∧ real.nsfMode
  if router.connectModeActive then router.notify env .accepted
  else if ¬ survives ∧ collision = .none ∧ real.status ≠ .active ∧ real.status ≠ .openSent ∧
      real.status ≠ .openConfirm then router.notify env .accepted
  else
    let waiting := if survives then { router with configured := { real with nsfWait := true } }
      else router
    let moved := waiting.transfer temporary
    if moved.configured.fd = none then (moved, [])
    else
      let opened :=
        { moved.configured with tRead := true }.openAccept env router.localId router.as message
      ({ moved with configured := opened.1 }, opened.2)

def bgpOpenReceive (env : Env) (role : Role) (message : OpenMessage) : Router × Sent :=
  if role = .accepted ∧ ¬ router.lookupWithOpen message then router.notify env .accepted
  else
    let detected := router.bgpCollisionDetect env role message.remoteId
    if detected.1 = .new then detected.2
    else
      match role, detected.2.1.accepted with
      | .accepted, some temporary =>
        let moved := detected.2.1.openTransfer env detected.1 temporary message
        (moved.1, detected.2.2 ++ moved.2)
      | .accepted, none => detected.2
      | .configured, _ =>
        let opened := detected.2.1.configured.openAccept env router.localId router.as message
        ({ detected.2.1 with configured := opened.1 }, detected.2.2 ++ opened.2)

/-- What `bgp_read` does with a message. The temporary peer is deleted at the end, whatever
came. -/
def bgpRead (env : Env) (role : Role) (message : Message) : Router × Sent :=
  match role, message with
  | .accepted, .open message =>
    let read := router.bgpOpenReceive env .accepted message
    ({ read.1 with accepted := none }, read.2)
  | .accepted, _ => ({ router with accepted := none }, [])
  | .configured, .open message => router.bgpOpenReceive env .configured message
  | .configured, .keepalive =>
    ({ router with configured := router.configured.bgpEvent env .receiveKeepaliveMessage }, [])
  | .configured, .notification =>
    ({ router with configured := router.configured.bgpEvent env .receiveNotificationMessage }, [])
  | .configured, .other => (router, [])

/-- The end of a connection that the other router has closed. -/
def bgpReadClosed (env : Env) : Role → Router
  | .accepted => { router with accepted := none }
  | .configured =>
    let peer := router.configured
    let peer := if peer.status = .established ∧ peer.nsfMode then { peer with nsfWait := true }
      else peer
    { router with configured := peer.bgpEvent env .tcpConnectionClosed }

/-- `bgp_open_send`. -/
def openMessage : OpenMessage :=
  ⟨4, router.localAs, BitVec.ofNat 16 router.configured.settings.sendHoldtime, router.localId,
    router.options⟩

def messageOf : MessageType → Message
  | .open => .open router.openMessage
  | .keepalive => .keepalive
  | .notify => .notification
  | .update | .routeRefresh => .other

/-- `bgp_write` sends what is queued. -/
def bgpWrite : Router × Sent :=
  ({ router with configured := { router.configured with obuf := [] } },
    router.configured.fd.toList.flatMap fun fd => router.configured.obuf.map fun type =>
      (fd, router.messageOf type))

/-- The peer that has a connection. -/
def holder (sock : Sock) : Option Role :=
  if router.configured.fd = some sock then some .configured
  else if router.accepted.any fun peer => peer.fd = some sock then some .accepted
  else none

end Router

inductive Side where
  | left
  | right
deriving DecidableEq

def Side.other : Side → Side
  | .left => .right
  | .right => .left

/-- The connection that a side has opened. -/
def Side.sock : Side → Sock
  | .left => 0
  | .right => 1

/-- Two routers, and the messages that are on their way to each on a connection. -/
structure World where
  router : Side → Router
  inbox : Side → Sock → List Message

inductive Step where
  | deliver (side : Side) (sock : Sock) (env : Env)
  | hangUp (side : Side) (sock : Sock) (env : Env)

namespace World

/-- A router has acted. -/
def acted (world : World) (side : Side) (outcome : Router × Sent) : World :=
  let written := outcome.1.bgpWrite
  { router := update world.router side written.1
    inbox := update world.inbox side.other fun sock =>
      world.inbox side.other sock ++
        ((outcome.2 ++ written.2).filter fun sent => sent.1 = sock).map Prod.snd }

def taken (world : World) (side : Side) (sock : Sock) : World :=
  { world with
    inbox := update world.inbox side (update (world.inbox side) sock (world.inbox side sock).tail) }

/-- A message arrives, or the end of a connection is seen behind the last one. -/
def step (world : World) : Step → World
  | .deliver side sock env =>
    match (world.inbox side sock).head?, (world.router side).holder sock with
    | some message, some role => (world.taken side sock).acted side
      ((world.router side).bgpRead env role message)
    | _, _ => world.taken side sock
  | .hangUp side sock env =>
    match world.inbox side sock, (world.router side.other).holder sock,
      (world.router side).holder sock with
    | [], none, some role => world.acted side ((world.router side).bgpReadClosed env role, [])
    | _, _, _ => world

/-- A connection is open at both ends. -/
def openAtBoth (world : World) (sock : Sock) : Prop :=
  ∀ side, (world.router side).holder sock ≠ none

/-- An OPEN will still be read. -/
def expectsOpen (world : World) : Prop :=
  ∃ side sock message, (world.router side).holder sock ≠ none ∧
    .open message ∈ world.inbox side sock

/-- Never are both connections closed, and after the last OPEN the connection of the router
with the higher identifier is left. -/
structure Resolved (world : World) (high : Side) : Prop where
  some_open : world.openAtBoth Side.left.sock ∨ world.openAtBoth Side.right.sock
  one_left : ¬ world.expectsOpen → world.openAtBoth high.sock ∧ ¬ world.openAtBoth high.other.sock

/-- One side of a simultaneous open: both connections are up, and the OPEN of the other
router is on its way. -/
structure Opening (world : World) (side : Side) : Prop where
  status : (world.router side).configured.status = .openSent
  fd : (world.router side).configured.fd = some side.sock
  started : (world.router side).configured.createInit = false
  remoteId : (world.router side).configured.negotiated.remoteId = 0
  obuf : (world.router side).configured.obuf = []
  temporary : ∃ peer, (world.router side).accepted = some peer ∧ peer.status = .openSent ∧
    peer.fd = some side.other.sock ∧ peer.createInit = false
  own : world.inbox side side.sock = []
  coming : world.inbox side side.other.sock = [.open (world.router side.other).openMessage]

/-- The OPEN of a router is good for another one. -/
structure Suits (router other : Router) : Prop where
  as : router.as = other.localAs
  valid : other.localId ≠ 0 ∧ other.localId < 0xe0000000
  holdtime : ¬ (other.openMessage.holdtime < 3 ∧ other.openMessage.holdtime ≠ 0)
  options : ∀ negotiated, ∃ result, other.options negotiated = .ok result

/-- Two routers that open connections to each other at the same time, `high` being the one
with the higher identifier. -/
structure Simultaneous (world : World) (high : Side) : Prop where
  higher : (world.router high.other).localId < (world.router high).localId
  opening : ∀ side, world.Opening side
  suits : ∀ side, Suits (world.router side) (world.router side.other)

/-- The OPEN that a temporary peer is to read next. -/
def nextOpen (world : World) (side : Side) (sock : Sock) : Option OpenMessage :=
  match (world.router side).holder sock, world.inbox side sock with
  | some .accepted, .open message :: _ => some message
  | _, _ => none

/-- The temporary peer reads its OPEN only where passive opens are allowed, and where the
configured peer is not found in a collision that the local identifier wins. -/
def Fine (world : World) : Step → Prop
  | .deliver side sock _ => ∀ message ∈ world.nextOpen side sock,
      (world.router side).connectModeActive = false ∧
        ((world.router side).localId < message.remoteId ∨
          (world.router side).configured.status ≠ .openSent ∧
            (world.router side).configured.status ≠ .openConfirm)
  | .hangUp .. => True

end World
end Zebra.Bgpd.Fsm
