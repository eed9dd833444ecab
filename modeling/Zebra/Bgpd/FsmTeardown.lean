import Zebra.Base.Run
import Zebra.Bgpd.Fsm

namespace Zebra.Bgpd.Fsm
open Base Fsm.Peer List
namespace Peer

/-- No socket, and no thread that waits for one. -/
structure Closed (peer : Peer) : Prop where
  fd : peer.fd = none
  tRead : peer.tRead = false
  tWrite : peer.tWrite = false

/-- What an Idle peer looks like. -/
structure Quiet (peer : Peer) : Prop extends Closed peer where
  tConnect : peer.tConnect = none
  tHoldtime : peer.tHoldtime = none
  tKeepalive : peer.tKeepalive = none

/-- Every session that was established and is not any more has been dropped. -/
def Counted (peer : Peer) : Prop :=
  peer.established = peer.dropped + if peer.status = .established then 1 else 0

/-- Nothing of a session is left. -/
structure Reset (peer : Peer) : Prop extends Closed peer where
  negotiated : peer.negotiated = {}
  named : peer.named = false
  obuf : peer.obuf = []
  packetSize : peer.packetSize = 0
  events : peer.events = []
  vKeepalive :
    peer.vKeepalive = (peer.settings.timers.map Prod.fst).getD peer.settings.defaultKeepalive
  vHoldtime :
    peer.vHoldtime = (peer.settings.timers.map Prod.snd).getD peer.settings.defaultHoldtime

/-- `bgp_stop` was executed on an established session. -/
structure TornDown (before after : Peer) : Prop where
  reset : after.Reset
  cleared : ∃ calls, after.routeCalls = before.routeCalls ++ calls ∧ .clearRouteAll ∈ calls
  dropped : after.dropped = before.dropped + 1
  balanced : after.established = after.dropped

/-- What one step owes. -/
structure Teardown (before after : Peer) : Prop where
  idle : after.status = .idle → after.Quiet
  stopped : before.status = .established → after.status = .idle → TornDown before after

/-- An event is not ignored on the way to Idle by an established session or with the
socket open, and only the start timer starts a peer that was just created. -/
def Heeds (peer : Peer) : Input → Prop
  | .deliver event _ =>
    (fsm peer.status event = (.bgpIgnore, .idle) → peer.Closed ∧ peer.status ≠ .established) ∧
      (event = .bgpStart → peer.createInit = false)
  | .timer timer _ => fsm peer.status timer.event = (.bgpIgnore, .idle) →
    peer.Closed ∧ peer.status ≠ .established
  | .outside _ => True

instance (peer : Peer) : Decidable peer.Closed :=
  decidable_of_iff (peer.fd = none ∧ peer.tRead = false ∧ peer.tWrite = false)
    ⟨fun ⟨fd, tRead, tWrite⟩ => ⟨fd, tRead, tWrite⟩, fun ⟨fd, tRead, tWrite⟩ => ⟨fd, tRead, tWrite⟩⟩

instance (peer : Peer) : (input : Input) → Decidable (peer.Heeds input)
  | .deliver .. => inferInstanceAs (Decidable (_ ∧ _))
  | .timer timer _ => inferInstanceAs
      (Decidable (fsm peer.status timer.event = (.bgpIgnore, .idle) →
        peer.Closed ∧ peer.status ≠ .established))
  | .outside _ => .isTrue trivial

/-- What every step keeps. -/
structure Orderly (peer : Peer) : Prop where
  idle : peer.status = .idle → peer.Quiet
  started : peer.status ≠ .idle → peer.createInit = false
  counted : peer.Counted

/-- The same before the timers are set. -/
structure Settled (peer : Peer) : Prop where
  idle : peer.status = .idle → peer.Closed
  started : peer.status ≠ .idle → peer.createInit = false
  counted : peer.Counted

variable {peer before : Peer}

theorem Orderly.settled (orderly : peer.Orderly) : peer.Settled :=
  ⟨fun idle => (orderly.idle idle).toClosed, orderly.started, orderly.counted⟩

theorem bgpTimerSet_eq (jitter : Int) (peer : Peer) :
    ∃ tStart tConnect tHoldtime tKeepalive tAsorig tRouteadv, peer.bgpTimerSet jitter =
        { peer with tStart, tConnect, tHoldtime, tKeepalive, tAsorig, tRouteadv } ∧
      (peer.status = .idle → tConnect = none ∧ tHoldtime = none ∧ tKeepalive = none) := by
  rw [bgpTimerSet]
  split
  case h_1 => exact ⟨_, _, _, _, _, _, rfl, fun _ => ⟨rfl, rfl, rfl⟩⟩
  case h_2 other => exact ⟨_, _, _, _, _, _, rfl, fun idle =>
    absurd (idle.symm.trans other) (by decide)⟩
  case h_3 other => exact ⟨_, _, _, _, _, _, rfl, fun idle =>
    absurd (idle.symm.trans other) (by decide)⟩
  case h_4 other => exact ⟨_, _, _, _, _, _, rfl, fun idle =>
    absurd (idle.symm.trans other) (by decide)⟩
  case h_5 other =>
    rw [sessionTimersOn]
    split <;> exact ⟨_, _, _, _, _, _, rfl, fun idle => absurd (idle.symm.trans other) (by decide)⟩
  case h_6 other =>
    rw [sessionTimersOn]
    split <;> exact ⟨_, _, _, _, _, _, rfl, fun idle => absurd (idle.symm.trans other) (by decide)⟩

theorem Settled.bgpTimerSet (settled : peer.Settled) (jitter : Int) :
    (peer.bgpTimerSet jitter).Orderly := by
  obtain ⟨tStart, tConnect, tHoldtime, tKeepalive, tAsorig, tRouteadv, same, off⟩ :=
    bgpTimerSet_eq jitter peer
  rw [same]
  refine ⟨fun idle => ?_, settled.started, settled.counted⟩
  obtain ⟨connect, holdtime, keepalive⟩ := off idle
  exact ⟨⟨(settled.idle idle).fd, (settled.idle idle).tRead, (settled.idle idle).tWrite⟩, connect,
    holdtime, keepalive⟩

/-- What `bgp_stop` does to a peer whose creation is over. -/
structure Stops (before after : Peer) : Prop where
  reset : after.Reset
  createInit : after.createInit = false
  left : after.status ≠ .established
  established : after.established = before.established
  dropped : after.dropped = before.dropped + if before.status = .established then 1 else 0
  kept : ∃ calls, after.routeCalls = before.routeCalls ++ calls ∧
    (before.status = .established → .clearRouteAll ∈ calls)

namespace Stops
variable {before middle after : Peer}

theorem trans (first : Stops before middle) (second : Stops middle after) : Stops before after := by
  obtain ⟨early, earlier, cleared⟩ := first.kept
  obtain ⟨late, later, -⟩ := second.kept
  refine ⟨second.reset, second.createInit, second.left,
    second.established.trans first.established, ?_,
    early ++ late, by rw [later, earlier, append_assoc], fun was => mem_append_left _ (cleared was)⟩
  rw [second.dropped, if_neg first.left, first.dropped]
  simp

section
variable (stops : Stops before after)
include stops

theorem withStatus {status} (other : status ≠ .established) (ostatus : Status) :
    Stops before { after with status, ostatus } :=
  ⟨⟨⟨stops.reset.fd, stops.reset.tRead, stops.reset.tWrite⟩, stops.reset.negotiated,
    stops.reset.named,
    stops.reset.obuf, stops.reset.packetSize, stops.reset.events, stops.reset.vKeepalive,
      stops.reset.vHoldtime⟩,
    stops.createInit, other, stops.established, stops.dropped, stops.kept⟩

theorem bgpTimerSet (jitter : Int) : Stops before (after.bgpTimerSet jitter) := by
  obtain ⟨tStart, tConnect, tHoldtime, tKeepalive, tAsorig, tRouteadv, same, -⟩ :=
    bgpTimerSet_eq jitter after
  rw [same]
  exact ⟨⟨⟨stops.reset.fd, stops.reset.tRead, stops.reset.tWrite⟩, stops.reset.negotiated,
    stops.reset.named,
    stops.reset.obuf, stops.reset.packetSize, stops.reset.events, stops.reset.vKeepalive,
      stops.reset.vHoldtime⟩,
    stops.createInit, stops.left, stops.established, stops.dropped, stops.kept⟩

theorem settled (counted : before.Counted) : after.Settled := by
  refine ⟨fun _ => stops.reset.toClosed, fun _ => stops.createInit, ?_⟩
  rw [Counted, if_neg stops.left, stops.established, stops.dropped, counted]
  simp

theorem tornDown (counted : before.Counted) (was : before.status = .established) :
    TornDown before after := by
  obtain ⟨calls, kept, cleared⟩ := stops.kept
  have dropped := stops.dropped
  rw [if_pos was] at dropped
  refine ⟨stops.reset, ⟨calls, kept, cleared was⟩, dropped, ?_⟩
  have counted : before.established = _ := counted
  rw [if_pos was] at counted
  rw [stops.established, dropped, counted]

end
end Stops

theorem Stops.of_same {other after} (stops : Stops other after)
    (status : other.status = before.status)
    (established : other.established = before.established)
    (dropped : other.dropped = before.dropped)
    (routeCalls : other.routeCalls = before.routeCalls) : Stops before after :=
  ⟨stops.reset, stops.createInit, stops.left, stops.established.trans established,
    by rw [stops.dropped, status, dropped], by rw [← routeCalls, ← status]; exact stops.kept⟩

section
variable (grown : peer.createInit = false)
include grown

theorem bgpStop_stops : Stops peer peer.bgpStop := by
  rw [bgpStop, if_neg (by simp [grown])]
  split
  · rename_i was
    rw [dropSession]
    split
    · exact ⟨⟨⟨rfl, rfl, rfl⟩, rfl, rfl, rfl, rfl, rfl, rfl, rfl⟩, grown, by
        simp [resetSession, bgpFsmChangeStatus], rfl,
        by rw [if_pos was]; rfl, [.clearRouteAll], rfl, fun _ => by simp⟩
    · exact ⟨⟨⟨rfl, rfl, rfl⟩, rfl, rfl, rfl, rfl, rfl, rfl, rfl⟩, grown, by
        simp [resetSession, bgpFsmChangeStatus], rfl,
        by rw [if_pos was]; rfl, [.clearRouteAll], rfl, fun _ => by simp⟩
  · rename_i other
    exact ⟨⟨⟨rfl, rfl, rfl⟩, rfl, rfl, rfl, rfl, rfl, rfl, rfl⟩, grown, other, rfl,
      by rw [if_neg other]; exact (BitVec.add_zero _).symm, [], (append_nil _).symm,
      fun was => absurd was other⟩

theorem bgpStopWithError_stops : Stops peer peer.bgpStopWithError :=
  Stops.of_same (bgpStop_stops grown) rfl rfl rfl rfl

theorem bgpStop_established (was : peer.status = .established) : peer.bgpStop.status = .idle := by
  rw [bgpStop, if_neg (by simp [grown]), if_pos was, dropSession]
  split <;> rfl

end

@[simp] theorem bgpTimerSet_status (jitter : Int) (peer : Peer) :
    (peer.bgpTimerSet jitter).status = peer.status := by
  obtain ⟨_, _, _, _, _, _, same, -⟩ := bgpTimerSet_eq jitter peer
  rw [same]

theorem idle_ne_established : Status.idle ≠ .established := by decide

theorem bgpWriteNotify_stops (grown : peer.createInit = false) (pending : peer.obuf ≠ [])
    (written : Bool) (jitter : Int) :
    Stops peer (peer.bgpWriteNotify written jitter) ∧
    (peer.bgpWriteNotify written jitter).status = .idle := by
  have sent : ({ peer with notifyOut := peer.notifyOut + 1 } : Peer).createInit = false := grown
  rw [bgpWriteNotify, if_neg pending]
  split
  · exact ⟨((bgpStop_stops grown).withStatus idle_ne_established _).bgpTimerSet jitter, by simp⟩
  · dsimp only
    split
    · rename_i was
      have stops : Stops peer _ := (bgpStop_stops sent).of_same rfl rfl rfl rfl
      exact ⟨stops.bgpTimerSet jitter, by
        rw [bgpTimerSet_status]; exact bgpStop_established sent was⟩
    · have stops : Stops peer _ := (bgpStopWithError_stops sent).of_same rfl rfl rfl rfl
      exact ⟨(stops.withStatus idle_ne_established _).bgpTimerSet jitter, by
        simp [bgpFsmChangeStatus]⟩

theorem bgpNotifySend_stops (grown : peer.createInit = false) (written : Bool) (jitter : Int) :
    Stops peer (peer.bgpNotifySend written jitter) ∧
    (peer.bgpNotifySend written jitter).status = .idle := by
  have queued : ({ peer with obuf := [.notify], tWrite := false } : Peer).createInit =
    false := grown
  obtain ⟨stops, idle⟩ := bgpWriteNotify_stops queued (by simp) written jitter
  exact ⟨stops.of_same rfl rfl rfl rfl, idle⟩

theorem peerDelete_stops (stops : Stops before peer) (written : Bool) (jitter : Int) :
    Stops before (peer.peerDelete written jitter) ∧ (peer.peerDelete written jitter).Quiet := by
  have again : ∀ other, Stops before other →
      Stops before (other.bgpStop.bgpFsmChangeStatus .idle) :=
    fun other stops => (stops.trans (bgpStop_stops stops.createInit)).withStatus (by decide) _
  have nsf : Stops before peer.peerNsfStop := by
    obtain ⟨calls, kept, cleared⟩ := stops.kept
    exact ⟨⟨⟨stops.reset.fd, stops.reset.tRead, stops.reset.tWrite⟩, stops.reset.negotiated,
      stops.reset.named,
      stops.reset.obuf, stops.reset.packetSize, stops.reset.events, stops.reset.vKeepalive,
        stops.reset.vHoldtime⟩,
      stops.createInit, stops.left, stops.established, stops.dropped, calls ++ [.clearRouteAll],
      by simp [peerNsfStop, kept], fun was => mem_append_left _ (cleared was)⟩
  have ended : ∀ other, Stops before other →
      Stops before { other.bgpStop.bgpFsmChangeStatus .idle with
        tStart := none, tConnect := none, tHoldtime := none, tKeepalive := none, tAsorig := none
        tGrRestart := none, tGrStale := none, tRouteadv := fun _ _ => none, deleted := true } := by
    intro other stops
    have done := again other stops
    exact ⟨⟨⟨done.reset.fd, done.reset.tRead, done.reset.tWrite⟩, done.reset.negotiated,
      done.reset.named,
      done.reset.obuf, done.reset.packetSize, done.reset.events, done.reset.vKeepalive,
        done.reset.vHoldtime⟩,
      done.createInit, done.left, done.established, done.dropped, done.kept⟩
  rw [peerDelete]
  split
  · rw [if_neg nsf.left]
    have done := ended _ nsf
    exact ⟨done, ⟨done.reset.fd, done.reset.tRead, done.reset.tWrite⟩, rfl, rfl, rfl⟩
  · rw [if_neg stops.left]
    have done := ended _ stops
    exact ⟨done, ⟨done.reset.fd, done.reset.tRead, done.reset.tWrite⟩, rfl, rfl, rfl⟩

/-- The fields that a function which neither stops nor establishes leaves alone. -/
structure Keeps (before after : Peer) : Prop where
  status : after.status = before.status
  createInit : after.createInit = before.createInit
  established : after.established = before.established
  dropped : after.dropped = before.dropped

theorem Keeps.trans {middle after} (first : Keeps before middle) (second : Keeps middle after) :
    Keeps before after :=
  ⟨second.status.trans first.status, second.createInit.trans first.createInit,
    second.established.trans first.established, second.dropped.trans first.dropped⟩

theorem Keeps.foldl {round} (keeps : ∀ peer family, Keeps peer (round peer family))
    (families : List (Afi × Safi)) (peer : Peer) : Keeps peer (families.foldl round peer) := by
  induction families generalizing peer with
  | nil => exact ⟨rfl, rfl, rfl, rfl⟩
  | cons family rest ih => exact (keeps peer family).trans (ih _)

theorem refreshFamily_keeps (peer : Peer) (family : Afi × Safi) :
    Keeps peer (peer.refreshFamily family) := by
  rw [refreshFamily]
  split <;> exact ⟨rfl, rfl, rfl, rfl⟩

theorem establishRestart_keeps (peer : Peer) : Keeps peer peer.establishRestart := by
  have rounds := Keeps.foldl (fun _ _ => ⟨rfl, rfl, rfl, rfl⟩) plainFamilies
    { peer with nsfWait := false, tGrRestart := none }
  rw [establishRestart]
  split <;> exact ⟨rounds.status, rounds.createInit, rounds.established, rounds.dropped⟩

theorem establishSend_keeps (peer : Peer) : Keeps peer peer.establishSend := by
  have rounds := Keeps.foldl refreshFamily_keeps allFamilies peer
  rw [establishSend]
  split <;> exact ⟨rounds.status, rounds.createInit, rounds.established, rounds.dropped⟩

theorem bgpEstablish_keeps (peer : Peer) :
    Keeps { peer with
      status := .established, established := peer.established + 1 } peer.bgpEstablish := by
  have parts := (establishRestart_keeps _).trans (establishSend_keeps (establishRestart
    (bgpFsmChangeStatus .established { peer with
      capabilityOpen := true, vActiveDelay := bgpActiveDelayTimer, established :=
        peer.established + 1 })))
  exact ⟨parts.status, parts.createInit, parts.established, parts.dropped⟩

theorem bgpStart_keeps (connected : Connected) (peer : Peer) :
    Keeps peer (peer.bgpStart connected) := by
  cases connected <;> exact ⟨rfl, rfl, rfl, rfl⟩

end Peer

/-- The functions that end with `bgp_stop`. -/
def Action.stops : Action → Bool
  | .bgpStop | .bgpStopWithError | .bgpConnectFail | .bgpFsmHoldtimeExpire => true
  | _ => false

/-- The functions that leave the status and the counters of the peer alone. -/
def Action.calm : Action → Bool
  | .bgpIgnore | .bgpConnectSuccess | .bgpStart | .bgpFsmOpen | .bgpFsmKeepaliveExpire
  | .bgpFsmKeepalive | .bgpFsmUpdate => true
  | _ => false

theorem fsm_cases (status : Status) (event : Event) :
    ((fsm status event).1.stops = true ∧ (fsm status event).2 ≠ .established ∧
      (status = .idle → fsm status event = (.bgpStop, .idle))) ∨
    ((fsm status event).1 = .bgpReconnect ∧ (fsm status event).2 = .connect ∧ status = .connect) ∨
    ((fsm status event).1 = .bgpEstablish ∧ (fsm status event).2 = .established ∧
      status = .openConfirm) ∨
    (fsm status event = (.bgpIgnore, .idle)) ∨
    ((fsm status event).1.calm = true ∧ (fsm status event).2 ≠ .idle ∧
      (status = .idle → event = .bgpStart ∧ (fsm status event).1 = .bgpIgnore) ∧
      (status = .established ↔ (fsm status event).2 = .established)) := by
  cases status <;> cases event <;> decide

namespace Peer
variable (env : Env)

theorem call_keeps (peer : Peer) {action} (calm : action.calm = true) :
    Keeps peer (peer.call env action).2 := by
  cases action with
  | bgpIgnore | bgpFsmOpen | bgpFsmKeepaliveExpire | bgpFsmKeepalive | bgpFsmUpdate =>
    exact ⟨rfl, rfl, rfl, rfl⟩
  | bgpStart => exact bgpStart_keeps env.connected peer
  | bgpConnectSuccess =>
    rw [call, bgpConnectSuccess]
    split
    · exact ⟨rfl, rfl, rfl, rfl⟩
    · dsimp only
      split <;> exact ⟨rfl, rfl, rfl, rfl⟩
  | bgpStop | bgpStopWithError | bgpConnectFail | bgpReconnect | bgpFsmHoldtimeExpire
  | bgpEstablish =>
    exact nomatch calm

variable {peer before after : Peer}

theorem call_stops (grown : peer.createInit = false) {action} (stops : action.stops = true) :
    Stops peer (peer.call env action).2 ∧
    ((peer.call env action).1 = false → (peer.call env action).2.Quiet) := by
  cases action with
  | bgpStop | bgpConnectFail =>
    exact ⟨bgpStop_stops grown, fun halted => absurd halted (by simp [call])⟩
  | bgpStopWithError =>
    exact ⟨bgpStopWithError_stops grown, fun halted => absurd halted (by simp [call])⟩
  | bgpFsmHoldtimeExpire =>
    obtain ⟨sent, -⟩ := bgpNotifySend_stops grown env.written env.jitter
    rw [call, bgpFsmHoldtimeExpire]
    split
    · obtain ⟨gone, quiet⟩ := peerDelete_stops sent env.writtenLast env.jitter
      exact ⟨gone, fun _ => quiet⟩
    · exact ⟨sent, fun halted => nomatch halted⟩
  | bgpIgnore | bgpConnectSuccess | bgpStart | bgpReconnect | bgpFsmOpen | bgpEstablish
  | bgpFsmKeepaliveExpire | bgpFsmKeepalive | bgpFsmUpdate => exact nomatch stops

theorem moveTo_eq (next : Status) (peer : Peer) :
    ∃ ostatus, peer.moveTo next = { peer with status := next, ostatus } := by
  rw [moveTo]
  split
  · exact ⟨_, rfl⟩
  · rename_i same
    rw [not_not] at same
    exact ⟨peer.ostatus, by rw [same]⟩

theorem Orderly.teardown (orderly : after.Orderly)
    (stopped : before.status = .established → after.status = .idle → TornDown before after) :
    Teardown before after :=
  ⟨orderly.idle, stopped⟩

theorem Orderly.busy (started : peer.createInit = false) (busy : peer.status ≠ .idle)
    (counted : peer.Counted) :
    peer.Orderly :=
  ⟨fun idle => absurd idle busy, fun _ => started, counted⟩

theorem Stops.event (stops : Stops before after) (counted : before.Counted) {next}
    (other : next ≠ .established) (jitter : Int) :
    ((after.moveTo next).bgpTimerSet jitter).Orderly ∧
    Teardown before ((after.moveTo next).bgpTimerSet jitter) := by
  obtain ⟨ostatus, moved⟩ := moveTo_eq next after
  have stopped := stops.withStatus other ostatus
  rw [moved]
  have orderly := (stopped.settled counted).bgpTimerSet jitter
  exact ⟨orderly, orderly.teardown fun was _ => (stopped.bgpTimerSet jitter).tornDown counted was⟩

theorem Keeps.event {reference} (keeps : Keeps reference after)
    (started : reference.createInit = false) {next} (busy : next ≠ .idle)
    (counted : reference.established = reference.dropped + if next = .established then 1 else 0)
    (jitter : Int) :
    ((after.moveTo next).bgpTimerSet jitter).Orderly ∧
    Teardown before ((after.moveTo next).bgpTimerSet jitter) := by
  obtain ⟨ostatus, moved⟩ := moveTo_eq next after
  have settled : Settled { after with status := next, ostatus } :=
    ⟨fun idle => absurd idle busy, fun _ => keeps.createInit.trans started,
      show after.established = after.dropped + if next = .established then 1 else 0 by
        rw [keeps.established, keeps.dropped, counted]⟩
  rw [moved]
  have orderly := settled.bgpTimerSet jitter
  exact ⟨orderly, orderly.teardown fun _ idle =>
    absurd (idle.symm.trans (bgpTimerSet_status ..)) (Ne.symm busy)⟩

theorem bgpEvent_teardown {event} (orderly : peer.Orderly)
    (ignored : fsm peer.status event = (.bgpIgnore, .idle) →
      peer.Closed ∧ peer.status ≠ .established)
    (first : event = .bgpStart → peer.createInit = false) :
    (peer.bgpEvent env event).Orderly ∧ Teardown peer (peer.bgpEvent env event) := by
  rw [bgpEvent]
  rcases fsm_cases peer.status event with ⟨stops, other, resting⟩ | ⟨reconnects, next, connecting⟩ |
    ⟨establishes, next, opened⟩ | idle | ⟨calm, busy, resting, same⟩
  · by_cases grown : peer.createInit = false
    · obtain ⟨stopped, gone⟩ := call_stops env grown stops
      split
      · rename_i halted
        have quiet := gone (by simpa using halted)
        have settled := stopped.settled orderly.counted
        exact ⟨⟨fun _ => quiet, settled.started, settled.counted⟩, fun _ => quiet,
          fun was _ => stopped.tornDown orderly.counted was⟩
      · exact stopped.event orderly.counted other env.jitter
    · -- a peer that was just created is Idle, and `bgp_stop` returns at once
      have idle : peer.status = .idle := by
        by_contra started
        exact grown (orderly.started started)
      have still : peer.bgpStop = peer := by rw [bgpStop, if_pos (by simpa using grown)]
      rw [resting idle]
      simp only [call, still, Bool.not_true, Bool.false_eq_true, if_false]
      rw [moveTo, if_neg (by simp [idle])]
      have after := orderly.settled.bgpTimerSet env.jitter
      exact ⟨after, after.teardown fun was => absurd (idle.symm.trans was) (by decide)⟩
  · have grown := orderly.started (by rw [connecting]; decide)
    have stopped := bgpStop_stops grown
    have keeps := bgpStart_keeps env.connected peer.bgpStop
    rw [reconnects, next]
    refine keeps.event stopped.createInit (by decide) ?_ env.jitter
    have counted := stopped.settled orderly.counted
    have exactly : peer.bgpStop.established = _ := counted.counted
    rw [if_neg stopped.left] at exactly
    simpa using exactly
  · have grown := orderly.started (by rw [opened]; decide)
    rw [establishes, next]
    refine (bgpEstablish_keeps peer).event grown (by decide) ?_ env.jitter
    have counted : peer.established = _ := orderly.counted
    rw [if_neg (by rw [opened]; decide)] at counted
    simp [counted]
  · obtain ⟨closed, away⟩ := ignored idle
    obtain ⟨ostatus, moved⟩ := moveTo_eq .idle peer
    have counted : peer.established = _ := orderly.counted
    rw [if_neg away] at counted
    have settled : Settled { peer with status := .idle, ostatus } :=
      ⟨fun _ => ⟨closed.fd, closed.tRead, closed.tWrite⟩, fun left => absurd rfl left, counted⟩
    rw [idle]
    simp only [call, Bool.not_true, Bool.false_eq_true, if_false, moved]
    have after := settled.bgpTimerSet env.jitter
    exact ⟨after, after.teardown fun was => absurd was away⟩
  · have keeps := call_keeps env peer calm
    have counted : peer.established = _ := orderly.counted
    rw [if_congr same rfl rfl] at counted
    split
    · rename_i halted
      have working : peer.status ≠ .idle := by
        intro idle
        rw [(resting idle).2] at halted
        exact absurd halted (by simp [call])
      have after := Orderly.busy (keeps.createInit.trans (orderly.started working))
        (keeps.status.trans_ne working) (show _ = _ by
          rw [keeps.established, keeps.dropped, keeps.status]
          exact orderly.counted)
      exact ⟨after, after.teardown fun _ idle => absurd (keeps.status.symm.trans idle) working⟩
    · refine keeps.event ?_ busy counted env.jitter
      by_cases idle : peer.status = .idle
      · exact first (resting idle).1
      · exact orderly.started idle

theorem fired_orderly (orderly : peer.Orderly) (timer : Timer) : (peer.fired timer).Orderly := by
  cases timer with
  | start =>
      exact ⟨fun idle =>
      ⟨⟨(orderly.idle idle).fd, (orderly.idle idle).tRead, (orderly.idle idle).tWrite⟩,
      (orderly.idle idle).tConnect, (orderly.idle idle).tHoldtime, (orderly.idle idle).tKeepalive⟩,
      fun _ => rfl, orderly.counted⟩
  | connect =>
      exact ⟨fun idle =>
      ⟨⟨(orderly.idle idle).fd, (orderly.idle idle).tRead, (orderly.idle idle).tWrite⟩,
      rfl, (orderly.idle idle).tHoldtime, (orderly.idle idle).tKeepalive⟩, orderly.started,
        orderly.counted⟩
  | holdtime =>
      exact ⟨fun idle =>
      ⟨⟨(orderly.idle idle).fd, (orderly.idle idle).tRead, (orderly.idle idle).tWrite⟩,
      (orderly.idle idle).tConnect, rfl, (orderly.idle idle).tKeepalive⟩, orderly.started,
        orderly.counted⟩
  | keepalive =>
      exact ⟨fun idle =>
      ⟨⟨(orderly.idle idle).fd, (orderly.idle idle).tRead, (orderly.idle idle).tWrite⟩,
      (orderly.idle idle).tConnect, (orderly.idle idle).tHoldtime, rfl⟩, orderly.started,
        orderly.counted⟩

theorem expire_teardown {timer} (orderly : peer.Orderly)
    (ignored : fsm peer.status timer.event = (.bgpIgnore, .idle) →
      peer.Closed ∧ peer.status ≠ .established) :
    (peer.expire env timer).Orderly ∧ Teardown peer (peer.expire env timer) := by
  rw [expire]
  split
  · have same : (peer.fired timer).status = peer.status ∧
        (peer.fired timer).routeCalls = peer.routeCalls ∧
        (peer.fired timer).dropped = peer.dropped ∧ (peer.Closed → (peer.fired timer).Closed) := by
      cases timer <;> exact ⟨rfl, rfl, rfl, fun closed => ⟨closed.fd, closed.tRead, closed.tWrite⟩⟩
    obtain ⟨status, routeCalls, dropped, closed⟩ := same
    have first : timer.event = .bgpStart → (peer.fired timer).createInit = false := by
      cases timer <;> intro start <;> first | rfl | cases start
    obtain ⟨after, idle, stopped⟩ := bgpEvent_teardown env (fired_orderly orderly timer)
      (fun ignores => (ignored (status ▸ ignores)).imp closed (status ▸ ·)) first
    refine ⟨after, idle, fun was left => ?_⟩
    have torn := stopped (status.trans was) left
    exact ⟨torn.reset, routeCalls ▸ torn.cleared, dropped ▸ torn.dropped, torn.balanced⟩
  · exact ⟨orderly, orderly.teardown fun was idle => absurd (was.symm.trans idle) (by decide)⟩

theorem step_teardown {input} (heeds : peer.Heeds input) (orderly : peer.Orderly) :
    (peer.step input).Orderly ∧ Teardown peer (peer.step input) := by
  have still : peer.Orderly ∧ Teardown peer peer :=
    ⟨orderly, orderly.teardown fun was idle => absurd (was.symm.trans idle) (by decide)⟩
  by_cases gone : peer.deleted = true
  · simpa only [step, gone, if_true] using still
  · simp only [step, gone, Bool.false_eq_true, if_false]
    cases input with
    | deliver event env => exact bgpEvent_teardown env orderly heeds.1 heeds.2
    | timer timer env => exact expire_teardown env orderly heeds
    | outside change =>
      refine ⟨⟨fun idle => ?_, orderly.started, orderly.counted⟩, fun idle => ?_,
        fun was idle => ?_⟩
      · obtain ⟨⟨fd, tRead, tWrite⟩, tConnect, tHoldtime, tKeepalive⟩ := orderly.idle idle
        exact ⟨⟨fd, tRead, tWrite⟩, tConnect, tHoldtime, tKeepalive⟩
      · obtain ⟨⟨fd, tRead, tWrite⟩, tConnect, tHoldtime, tKeepalive⟩ := orderly.idle idle
        exact ⟨⟨fd, tRead, tWrite⟩, tConnect, tHoldtime, tKeepalive⟩
      · cases was.symm.trans idle

/-- A peer as the daemon makes it, from the configuration or from a connection it accepts. -/
inductive Born : Peer → Prop where
  | created (settings : Settings) : Born (created settings)
  | accepted (fd : Sock) : Born (accepted fd)

theorem Born.orderly (born : peer.Born) : peer.Orderly := by
  cases born with
  | created settings =>
    have settled : Settled {
        settings
        createInit := true
        vKeepalive := settings.defaultKeepalive
        vHoldtime := settings.defaultHoldtime } :=
          ⟨fun _ => ⟨rfl, rfl, rfl⟩, fun left => absurd rfl left, rfl⟩
    exact settled.bgpTimerSet 0
  | accepted fd => exact ⟨fun idle => absurd idle (by simp [Peer.accepted]), fun _ => rfl, rfl⟩

/-- Whatever events come in: an Idle peer has no socket, no thread and no session timer,
and a session that leaves Established for Idle went through `bgp_stop`. -/
theorem run_teardown {peer : Peer} (born : peer.Born) (inputs : List Input)
    (heeds : Allowed step Heeds peer inputs) : Along step Teardown peer inputs := by
  apply heeds.along _ _ born.orderly
  · exact fun _ _ heeds orderly => (step_teardown heeds orderly).1
  · exact fun _ _ heeds orderly => (step_teardown heeds orderly).2

end Peer

namespace Ignored

def env : Env := { connected := .success 7 }

/-- A peer connects and is sent a KEEPALIVE before any OPEN. -/
def early : List Input :=
  [.timer .start env, .timer .connect env, .deliver .tcpConnectionOpen env,
    .deliver .receiveKeepaliveMessage env]

/-- A session that runs until its hold timer expires. -/
def whole : List Input :=
  [.timer .start env, .timer .connect env, .deliver .tcpConnectionOpen env,
    .deliver .receiveOpenMessage env,
    .deliver .receiveKeepaliveMessage env, .deliver .receiveUpdateMessage env, .timer .holdtime env]

end Ignored

/-- A KEEPALIVE in OpenSent is ignored, and the peer is Idle with its socket open. -/
theorem run_idle_with_socket :
    (Ignored.early.foldl step (.created {})).status = .idle ∧
    (Ignored.early.foldl step (.created {})).fd = some 7 ∧
    (Ignored.early.foldl step (.created {})).tRead = true ∧
    ¬ Along step Teardown (.created {}) Ignored.early := by
  refine ⟨by decide, by decide, by decide, fun along => ?_⟩
  have last := along.2.2.2.1.idle (by decide)
  cases last.tRead

/-- A session is torn down when its hold timer expires. -/
theorem run_teardown_whole :
    Along step Teardown (.created {}) Ignored.whole ∧
    (Ignored.whole.foldl step (.created {})).status = .idle ∧
    (Ignored.whole.foldl step (.created {})).dropped = 1 := by
  exact ⟨run_teardown (.created {}) Ignored.whole (by decide), by decide, by decide⟩

end Zebra.Bgpd.Fsm
