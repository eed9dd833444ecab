import Zebra.Bgpd.Collision
import Zebra.Bgpd.FsmTeardown

namespace Zebra.Bgpd.Fsm
open Base Function Router Fsm.Peer List World

@[simp] theorem Side.other_other (side : Side) : side.other.other = side := by
  cases side <;> rfl

@[simp] theorem Side.other_ne (side : Side) : side.other ≠ side := by
  cases side <;> decide

@[simp] theorem Side.sock_other_ne (side : Side) : side.other.sock ≠ side.sock := by
  cases side <;> decide

theorem Side.eq_or (side high : Side) : side = high ∨ side = high.other := by
  cases side <;> cases high <;> decide

namespace Peer

theorem bgpEvent_ignored {peer : Peer} {event next}
    (cell : fsm peer.status event = (.bgpIgnore, next))
    (env : Env) : (peer.bgpEvent env event).fd = peer.fd ∧
    (peer.bgpEvent env event).obuf = peer.obuf ∧
      (peer.bgpEvent env event).status = next := by
  obtain ⟨ostatus, moved⟩ := moveTo_eq next peer
  obtain ⟨_, _, _, _, _, _, same, -⟩ := bgpTimerSet_eq env.jitter (peer.moveTo next)
  have event_eq : peer.bgpEvent env event = (peer.moveTo next).bgpTimerSet env.jitter := by
    rw [bgpEvent, cell]
    rfl
  rw [event_eq, same, moved]
  exact ⟨rfl, rfl, rfl⟩

theorem bgpEvent_open {peer : Peer} (status : peer.status = .openSent) (env : Env) :
    (peer.bgpEvent env .receiveOpenMessage).fd = peer.fd ∧
      (peer.bgpEvent env .receiveOpenMessage).obuf = peer.obuf ++ [.keepalive] := by
  obtain ⟨ostatus, moved⟩ := moveTo_eq .openConfirm { peer.bgpKeepaliveSend with tHoldtime := none }
  obtain ⟨_, _, _, _, _, _, same, -⟩ :=
    bgpTimerSet_eq env.jitter
      (({ peer.bgpKeepaliveSend with tHoldtime := none } : Peer).moveTo .openConfirm)
  have event_eq : peer.bgpEvent env .receiveOpenMessage =
      (({ peer.bgpKeepaliveSend with tHoldtime := none } : Peer).moveTo .openConfirm).bgpTimerSet
        env.jitter := by
    rw [bgpEvent, status]
    rfl
  rw [event_eq, same, moved]
  exact ⟨rfl, rfl⟩

theorem openAccept_good {router other} (suits : Suits router other)
    (apart : router.localId ≠ other.localId)
    {peer : Peer} (status : peer.status = .openSent) (env : Env) :
    (peer.openAccept env router.localId router.as other.openMessage).1.fd = peer.fd ∧
      (peer.openAccept env router.localId router.as other.openMessage).1.obuf =
        peer.obuf ++ [.keepalive] ∧
      (peer.openAccept env router.localId router.as other.openMessage).2 = [] := by
  have id : ¬ (other.openMessage.remoteId = 0 ∨ 0xe0000000 ≤ other.openMessage.remoteId ∨
      router.localId = other.openMessage.remoteId) := by
    rintro (zero | great | same)
    · exact suits.valid.1 zero
    · exact absurd suits.valid.2 (BitVec.not_lt.mpr great)
    · exact apart same
  have as : ¬ other.openMessage.remoteAs ≠ router.as := by simp [openMessage, suits.as]
  rw [openAccept, if_neg id]
  dsimp only
  rw [if_neg (by simp [openMessage]), if_neg as, if_neg suits.holdtime]
  obtain ⟨result, options⟩ :=
    suits.options { peer.negotiated with remoteId := other.openMessage.remoteId }
  have options : other.openMessage.options { peer.negotiated with
      remoteId := other.openMessage.remoteId } = .ok result :=
    options
  rw [options]
  refine ⟨?_, ?_, rfl⟩
  · exact (bgpEvent_open (by exact status) env).1
  · exact (bgpEvent_open (by exact status) env).2

end Peer

namespace Router
variable {sock own : Sock} {router : Router} {temporary : Peer}

theorem notified_only {peer : Peer} (fd : peer.fd = some sock) (env : Env) :
    ∀ sent ∈ (peer.notify env).2, sent = (sock, .notification) := by
  intro sent member
  rw [Peer.notify, fd] at member
  split at member
  · simpa using member
  · exact nomatch member

/-- The router with the lower identifier gives up its own connection for the one that the
other router has opened. -/
theorem bgpRead_yields {other : Router} (suits : Suits router other)
    (lower : router.localId < other.localId)
    (passive : router.connectModeActive = false) (status : router.configured.status = .openSent)
    {theirs : Sock}
    (fd : router.configured.fd = some own) (started : router.configured.createInit = false)
    (remoteId : router.configured.negotiated.remoteId = 0)
    (accepted : router.accepted = some temporary)
    (waiting : temporary.status = .openSent) (held : temporary.fd = some theirs) (env : Env) :
    ∃ configured sent, router.bgpRead env .accepted (.open other.openMessage) =
        ({ router with configured, accepted := none }, sent) ∧ configured.fd = some theirs ∧
      configured.obuf = [.open, .keepalive] ∧ ∀ message ∈ sent, message = (own, .notification) := by
  have lookup : router.lookupWithOpen other.openMessage = true := by
    simp [lookupWithOpen, suits.as, openMessage, remoteId]
  have stops := (bgpNotifySend_stops started env.written env.jitter).1
  have idle := (bgpNotifySend_stops started env.written env.jitter).2
  have detected : router.bgpCollisionDetect env .accepted other.openMessage.remoteId =
      (.existing, { router with configured := (router.configured.notify env).1 },
        (router.configured.notify env).2) := by
    have less : router.localId < other.openMessage.remoteId := lower
    simp [bgpCollisionDetect, Role.other, peer, accepted, status, less, fd, notify, setPeer]
  -- the configured peer is stopped twice and gets the other connection
  have stopped := bgpStop_stops stops.createInit
  let moved : Peer := ({ (router.configured.notify env).1.bgpStop with
    fd := temporary.fd, packetSize :=
      temporary.packetSize }.bgpFsmChangeStatus temporary.status).bgpOpenSend
  have movedFd : moved.fd = some theirs := held
  have movedObuf : moved.obuf = [.open] := by
    show (router.configured.notify env).1.bgpStop.obuf ++ [MessageType.open] = _
    rw [show (router.configured.notify env).1.bgpStop.obuf = [] from stopped.reset.obuf]
    rfl
  have apart : router.localId ≠ other.localId := fun same => absurd lower (by simp [same])
  obtain ⟨openedFd, openedObuf, quiet⟩ :=
    openAccept_good suits apart
      (show ({ moved with tRead := true } : Peer).status = .openSent from waiting) env
  refine ⟨({ moved with
    tRead := true }.openAccept env router.localId router.as other.openMessage).1,
    (router.configured.notify env).2, ?_, openedFd.trans movedFd, ?_, notified_only fd env⟩
  · have now : (router.configured.notify env).1.status = .idle := idle
    have transferred :
        ({ router with configured := (router.configured.notify env).1 } : Router).openTransfer
        env .existing
        temporary other.openMessage =
          ({ router with
            configured :=
              ({ moved with
              tRead := true }.openAccept env router.localId router.as other.openMessage).1
            accepted := some { temporary with fd := none }.bgpStop }, []) := by
      have survives : ((router.configured.notify env).1.status = .established ∧
          (router.configured.notify env).1.nsfMode = true) = False := by simp [now]
      have holds : ¬ moved.fd = none := by simp [movedFd]
      rw [openTransfer, if_neg (by simp [passive])]
      simp only [survives, if_false, reduceCtorEq, false_and, and_false]
      rw [if_neg (by exact holds)]
      exact Prod.ext rfl quiet
    have step : router.bgpOpenReceive env .accepted other.openMessage =
        ({ router with
          configured :=
            ({ moved with
            tRead := true }.openAccept env router.localId router.as other.openMessage).1
          accepted := some { temporary with fd := none }.bgpStop },
            (router.configured.notify env).2) := by
      rw [bgpOpenReceive, if_neg (by simp [lookup])]
      rw [detected, if_neg (by simp)]
      rw [accepted]
      dsimp only
      rw [← accepted, transferred, append_nil]
    rw [bgpRead]
    rw [step]
  · rw [openedObuf]
    show moved.obuf ++ [MessageType.keepalive] = _
    rw [movedObuf]
    rfl

/-- The router with the higher identifier, whose configured peer reads an OPEN, closes the
connection that it has accepted, and forgets the OPEN. -/
theorem bgpRead_keeps {message} (lower : message.remoteId < router.localId)
    (fd : router.configured.fd = some own) (accepted : router.accepted = some temporary)
    (waiting : temporary.status = .openSent) (env : Env) :
    router.bgpRead env .configured (.open message) =
      ({ router with accepted := some (temporary.notify env).1 }, (temporary.notify env).2) := by
  have less : ¬ router.localId < message.remoteId := BitVec.not_lt.mpr (BitVec.le_of_lt lower)
  simp [bgpRead, bgpOpenReceive, bgpCollisionDetect, Role.other, peer, accepted, waiting, less, fd,
    notify, setPeer]

theorem holder_configured (fd : router.configured.fd = some sock) :
    router.holder sock = some .configured :=
  if_pos fd

theorem holder_accepted (fd : router.configured.fd = some own) (apart : own ≠ sock)
    (accepted : router.accepted = some temporary) (held : temporary.fd = some sock) :
    router.holder sock = some .accepted := by
  simp [holder, fd, apart, accepted, held]

theorem holder_none (fd : router.configured.fd = some own) (apart : own ≠ sock)
    (gone : ∀ temporary ∈ router.accepted, temporary.fd ≠ some sock) :
    router.holder sock = none := by
  rw [holder, if_neg (by simp [fd, apart]), if_neg]
  rw [Option.any_eq_true]
  rintro ⟨temporary, accepted, held⟩
  exact gone temporary accepted (by simpa using held)

end Router

namespace World
variable {world : World} {side high : Side}

section
variable (world : World) (side : Side) (outcome : Router × Sent)

@[simp] theorem acted_router : (world.acted side outcome).router side = outcome.1.bgpWrite.1 :=
  update_self ..

@[simp] theorem acted_router_other :
    (world.acted side outcome).router side.other = world.router side.other :=
  update_of_ne side.other_ne ..

@[simp] theorem acted_inbox : (world.acted side outcome).inbox side = world.inbox side :=
  update_of_ne side.other_ne.symm ..

theorem acted_inbox_other (sock : Sock) :
    (world.acted side outcome).inbox side.other sock = world.inbox side.other sock ++
      ((outcome.2 ++ outcome.1.bgpWrite.2).filter fun sent => sent.1 = sock).map Prod.snd := by
  rw [acted]
  dsimp only
  rw [update_self]

end

@[simp] theorem taken_inbox (world : World) (side : Side) (sock : Sock) :
    (world.taken side sock).inbox side sock = (world.inbox side sock).tail := by
  simp [taken]

theorem taken_inbox_sock (world : World) (side : Side) {sock other} (apart : other ≠ sock) :
    (world.taken side sock).inbox side other = world.inbox side other := by
  simp [taken, apart]

theorem taken_inbox_side (world : World) {other} (apart : other ≠ side) (sock : Sock) :
    (world.taken side sock).inbox other = world.inbox other := by
  simp [taken, apart]

theorem taken_empty (empty : world.inbox side sock = []) : world.taken side sock = world := by
  rw [taken, empty, tail_nil, ← empty, update_eq_self, update_eq_self]

/-- The router with the lower identifier has read its OPEN. -/
structure Halfway (world : World) (high : Side) : Prop where
  status : (world.router high).configured.status = .openSent
  fd : (world.router high).configured.fd = some high.sock
  obuf : (world.router high).configured.obuf = []
  temporary : ∃ peer, (world.router high).accepted = some peer ∧ peer.status = .openSent ∧
    peer.fd = some high.other.sock ∧ peer.createInit = false
  moved : (world.router high.other).configured.fd = some high.sock
  gone : (world.router high.other).accepted = none
  first : ∃ message, world.inbox high high.sock = [.open message, .keepalive] ∧
    message.remoteId < (world.router high).localId
  second : ∃ message rest, world.inbox high high.other.sock = .open message :: rest ∧
    message.remoteId < (world.router high).localId
  quiet : world.inbox high.other high.sock = [] ∧ world.inbox high.other high.other.sock = []

/-- Only the connection of the higher router is left. -/
structure Done (world : World) (high : Side) : Prop where
  status : (world.router high).configured.status = .openSent ∨
    (world.router high).configured.status = .idle
  fd : (world.router high).configured.fd = some high.sock
  obuf : (world.router high).configured.obuf = []
  closed : ∀ peer ∈ (world.router high).accepted, peer.fd = none
  moved : (world.router high.other).configured.fd = some high.sock
  gone : (world.router high.other).accepted = none
  keepalives : ∀ message ∈ world.inbox high high.sock, message = .keepalive
  quiet : world.inbox high.other high.sock = []

/-- What a run that is fine goes through. -/
inductive Stage (world : World) (high : Side) : Prop where
  | opening (simultaneous : world.Simultaneous high)
  | halfway (halfway : world.Halfway high)
  | done (done : world.Done high)

theorem Opening.holder_own (opening : world.Opening side) :
    (world.router side).holder side.sock = some .configured :=
  holder_configured opening.fd

theorem Opening.holder_other (opening : world.Opening side) :
    (world.router side).holder side.other.sock = some .accepted := by
  obtain ⟨peer, accepted, -, held, -⟩ := opening.temporary
  exact holder_accepted opening.fd side.sock_other_ne.symm accepted held

theorem Halfway.holder_other (halfway : world.Halfway high) :
    (world.router high).holder high.other.sock = some .accepted := by
  obtain ⟨peer, accepted, -, held, -⟩ := halfway.temporary
  exact holder_accepted halfway.fd high.sock_other_ne.symm accepted held

section Steps
variable {sock : Sock} {env : Env}

theorem nextOpen_eq {message rest} (held : (world.router side).holder sock = some .accepted)
    (coming : world.inbox side sock = .open message :: rest) :
    world.nextOpen side sock = some message := by
  rw [nextOpen, held, coming]

theorem step_idle (idle : world.inbox side sock = [] ∨ (world.router side).holder sock = none) :
    world.step (.deliver side sock env) = world.taken side sock := by
  rcases idle with empty | unheld
  · rw [step, empty]
    rfl
  · rw [step, unheld]
    cases (world.inbox side sock).head? <;> rfl

theorem step_empty (empty : world.inbox side sock = []) :
    world.step (.deliver side sock env) = world :=
  (step_idle (.inl empty)).trans (taken_empty empty)

theorem step_read {message rest role} (coming : world.inbox side sock = message :: rest)
    (held : (world.router side).holder sock = some role) : world.step (.deliver side sock env) =
      (world.taken side sock).acted side ((world.router side).bgpRead env role message) := by
  rw [step, coming, held]
  rfl

theorem Simultaneous.taken (simultaneous : world.Simultaneous high) (own : sock ≠ side.sock)
    (others : sock ≠ side.other.sock) : (world.taken side sock).Simultaneous high := by
  refine ⟨simultaneous.higher, fun seat => ?_, simultaneous.suits⟩
  obtain ⟨status, fd, started, remoteId, obuf, temporary, empty, coming⟩ :=
    simultaneous.opening seat
  refine ⟨status, fd, started, remoteId, obuf, temporary, ?_, ?_⟩
  · by_cases same : seat = side
    · subst same
      rwa [taken_inbox_sock _ _ own.symm]
    · rwa [taken_inbox_side _ same]
  · by_cases same : seat = side
    · subst same
      rwa [taken_inbox_sock _ _ others.symm]
    · rwa [taken_inbox_side _ same]

theorem Simultaneous.halfway (simultaneous : world.Simultaneous high)
    (passive : (world.router high.other).connectModeActive = false) :
    (world.step (.deliver high.other high.sock env)).Halfway high := by
  have upper := simultaneous.opening high
  have under := simultaneous.opening high.other
  have coming : world.inbox high.other high.sock = [.open (world.router high).openMessage] := by
    simpa using under.coming
  have held : (world.router high.other).holder high.sock = some .accepted := by
    simpa using under.holder_other
  obtain ⟨temporary, accepted, waiting, fd, -⟩ := under.temporary
  have suits : Suits (world.router high.other) (world.router high) := by
    simpa using simultaneous.suits high.other
  obtain ⟨configured, sent, read, moved, queued, notified⟩ :=
    bgpRead_yields suits simultaneous.higher passive
    under.status under.fd under.started under.remoteId accepted waiting (by simpa using fd) env
  have result : world.step (.deliver high.other high.sock env) = _ := step_read coming held
  rw [result, read]
  let after : Router := { world.router high.other with configured, accepted := none }
  let next := (world.taken high.other high.sock).acted high.other (after, sent)
  have kept : next.router high = world.router high := by
    have same := (world.taken high.other high.sock).acted_router_other high.other (after, sent)
    rw [Side.other_other] at same
    exact same
  have own : next.inbox high.other = (world.taken high.other high.sock).inbox high.other :=
    acted_inbox ..
  have written :
      after.bgpWrite.2 = [(high.sock, .open after.openMessage), (high.sock, .keepalive)] := by
    simp [bgpWrite, after, moved, queued, messageOf]
  have inbox (sock : Sock) : next.inbox high sock = world.inbox high sock ++
      ((sent ++ after.bgpWrite.2).filter fun sent => sent.1 = sock).map Prod.snd := by
    have grown := (world.taken high.other high.sock).acted_inbox_other high.other (after, sent) sock
    rw [Side.other_other, taken_inbox_side _ high.other_ne.symm] at grown
    exact grown
  have silent : (sent.filter fun sent => sent.1 = high.sock) = [] := by
    refine filter_eq_nil_iff.mpr fun message member => ?_
    rw [notified message member]
    simp
  have router : next.router high.other = after.bgpWrite.1 := acted_router ..
  refine ⟨kept ▸ upper.status, kept ▸ upper.fd, kept ▸ upper.obuf, kept ▸ upper.temporary, ?_,
    ?_, ?_, ?_, ?_⟩
  · rw [router]
    exact moved
  · rw [router]
    rfl
  · refine ⟨after.openMessage, ?_, ?_⟩
    · rw [inbox, upper.own, written, filter_append, silent]
      simp
    · rw [kept]
      exact simultaneous.higher
  · have grown := inbox high.other.sock
    rw [upper.coming, singleton_append] at grown
    refine ⟨_, _, grown, ?_⟩
    rw [kept]
    exact simultaneous.higher
  · rw [own]
    refine ⟨?_, ?_⟩
    · rw [taken_inbox, coming]
      rfl
    · rw [taken_inbox_sock _ _ high.sock_other_ne, under.own]

theorem Opening.holder_elsewhere (opening : world.Opening side) (own : sock ≠ side.sock)
    (theirs : sock ≠ side.other.sock) :
    (world.router side).holder sock = none := by
  obtain ⟨temporary, accepted, -, held, -⟩ := opening.temporary
  refine holder_none opening.fd (Ne.symm own) fun other found => ?_
  cases accepted.symm.trans found
  simpa [held] using Ne.symm theirs

theorem acted_quietly {after : Router} {sent message rest}
    (coming : world.inbox high high.sock = message :: rest)
    (written : after.bgpWrite.2 = []) (silent : (sent.filter fun sent => sent.1 = high.sock) = []) :
    ((world.taken high high.sock).acted high (after, sent)).router high = after.bgpWrite.1 ∧
      ((world.taken high high.sock).acted high (after, sent)).router high.other =
        world.router high.other ∧
      ((world.taken high high.sock).acted high (after, sent)).inbox high high.sock = rest ∧
      ((world.taken high high.sock).acted high (after, sent)).inbox high.other high.sock =
        world.inbox high.other high.sock := by
  refine ⟨acted_router .., acted_router_other .., ?_, ?_⟩
  · rw [acted_inbox, taken_inbox, coming]
    rfl
  · have grown := (world.taken high high.sock).acted_inbox_other high (after, sent) high.sock
    rwa [taken_inbox_side _ high.other_ne, written, append_nil, silent, map_nil,
      append_nil] at grown

theorem Halfway.done (halfway : world.Halfway high) :
    (world.step (.deliver high high.sock env)).Done high := by
  obtain ⟨message, coming, lower⟩ := halfway.first
  obtain ⟨temporary, accepted, waiting, held, started⟩ := halfway.temporary
  have read := bgpRead_keeps lower halfway.fd accepted waiting env
  have result : world.step (.deliver high high.sock env) = _ :=
    step_read coming (holder_configured halfway.fd)
  rw [result, read]
  let after : Router := { world.router high with accepted := some (temporary.notify env).1 }
  have silent : ((temporary.notify env).2.filter fun sent => sent.1 = high.sock) = [] := by
    refine filter_eq_nil_iff.mpr fun message member => ?_
    rw [notified_only held env message member]
    simp
  have written : after.bgpWrite.2 = [] := by simp [bgpWrite, after, halfway.obuf]
  obtain ⟨router, kept, own, other⟩ := acted_quietly coming written silent
  refine ⟨?_, ?_, ?_, ?_, kept ▸ halfway.moved, kept ▸ halfway.gone, ?_, ?_⟩
  · rw [router]
    exact .inl halfway.status
  · rw [router]
    exact halfway.fd
  · rw [router]
    rfl
  · rw [router]
    intro peer accepted
    obtain rfl : (temporary.notify env).1 = peer := Option.some.inj accepted
    exact (bgpNotifySend_stops started env.written env.jitter).1.reset.fd
  · rw [own]
    simp
  · rw [other, halfway.quiet.1]

theorem Halfway.holder_elsewhere (halfway : world.Halfway high) (own : sock ≠ high.sock)
    (theirs : sock ≠ high.other.sock) :
    (world.router high).holder sock = none := by
  obtain ⟨temporary, accepted, -, held, -⟩ := halfway.temporary
  refine holder_none halfway.fd (Ne.symm own) fun other found => ?_
  cases accepted.symm.trans found
  simpa [held] using Ne.symm theirs

theorem Halfway.taken_elsewhere (halfway : world.Halfway high) (own : sock ≠ high.sock)
    (theirs : sock ≠ high.other.sock) :
    (world.taken side sock).Halfway high := by
  have kept (seat : Side) {other} (apart : other ≠ sock) :
      (world.taken side sock).inbox seat other = world.inbox seat other := by
    by_cases same : seat = side
    · subst same
      exact taken_inbox_sock _ _ apart
    · rw [taken_inbox_side _ same]
  obtain ⟨status, fd, obuf, temporary, moved, gone, first, second, quiet⟩ := halfway
  refine ⟨status, fd, obuf, temporary, moved, gone, ?_, ?_, ?_⟩
  · rwa [kept high own.symm]
  · rwa [kept high theirs.symm]
  · rwa [kept high.other own.symm, kept high.other theirs.symm]

section
variable (done : world.Done high)
include done

theorem Done.holder_elsewhere (own : sock ≠ high.sock) :
    (world.router side).holder sock = none := by
  rcases side.eq_or high with rfl | rfl
  · refine holder_none done.fd (Ne.symm own) fun temporary accepted => ?_
    rw [done.closed temporary accepted]
    simp
  · exact holder_none done.moved (Ne.symm own) (by simp [done.gone])

theorem Done.taken_elsewhere (own : sock ≠ high.sock) : (world.taken side sock).Done high := by
  have kept (seat : Side) :
      (world.taken side sock).inbox seat high.sock = world.inbox seat high.sock := by
    by_cases same : seat = side
    · subst same
      exact taken_inbox_sock _ _ own.symm
    · rw [taken_inbox_side _ same]
  obtain ⟨status, fd, obuf, closed, moved, gone, keepalives, quiet⟩ := done
  refine ⟨status, fd, obuf, closed, moved, gone, ?_, ?_⟩
  · rwa [kept]
  · rwa [kept]

theorem Done.keepalive : (world.step (.deliver high high.sock env)).Done high := by
  cases coming : world.inbox high high.sock with
  | nil =>
    rw [step_empty coming]
    exact done
  | cons message rest =>
    obtain rfl := done.keepalives message (by rw [coming]; exact mem_cons_self)
    have ignored : fsm (world.router high).configured.status .receiveKeepaliveMessage =
        (.bgpIgnore, .idle) := by
      rcases done.status with status | status <;> rw [status] <;> rfl
    obtain ⟨fd, obuf, status⟩ := bgpEvent_ignored ignored env
    have result : world.step (.deliver high high.sock env) = _ :=
      step_read coming (holder_configured done.fd)
    rw [result, bgpRead]
    let after : Router :=
      { world.router high with
        configured := (world.router high).configured.bgpEvent env .receiveKeepaliveMessage }
    let next := (world.taken high high.sock).acted high (after, [])
    have written : after.bgpWrite.2 = [] := by simp [bgpWrite, after, obuf, done.obuf]
    obtain ⟨router, kept, own, other⟩ := acted_quietly coming written filter_nil
    refine ⟨.inr ?_, ?_, ?_, ?_, kept ▸ done.moved, kept ▸ done.gone, fun message member => ?_, ?_⟩
    · rw [router]
      exact status
    · rw [router]
      exact fd.trans done.fd
    · rw [router]
      rfl
    · rw [router]
      exact done.closed
    · rw [own] at member
      exact done.keepalives message (by rw [coming]; exact .tail _ member)
    · rw [other, done.quiet]

theorem done_step : (world.step (.deliver side sock env)).Done high := by
  by_cases own : sock = high.sock
  · subst own
    rcases side.eq_or high with rfl | rfl
    · exact done.keepalive
    · rw [step_empty done.quiet]
      exact done
  · rw [step_idle (.inr (done.holder_elsewhere own))]
    exact done.taken_elsewhere own

end

theorem opening_step (simultaneous : world.Simultaneous high)
    (fine : world.Fine (.deliver side sock env)) :
    Stage (world.step (.deliver side sock env)) high := by
  have opening := simultaneous.opening side
  by_cases own : sock = side.sock
  · rw [own, step_empty opening.own]
    exact .opening simultaneous
  by_cases theirs : sock = side.other.sock
  · subst theirs
    obtain ⟨passive, safe⟩ := fine _ (nextOpen_eq opening.holder_other opening.coming)
    rcases side.eq_or high with rfl | rfl
    · rcases safe with less | apart
      · exact absurd (BitVec.lt_trans less simultaneous.higher) (BitVec.lt_irrefl _)
      · exact absurd opening.status apart.1
    · rw [Side.other_other]
      exact .halfway (simultaneous.halfway passive)
  · rw [step_idle (.inr (opening.holder_elsewhere own theirs))]
    exact .opening (simultaneous.taken own theirs)

theorem halfway_step (halfway : world.Halfway high) (fine : world.Fine (.deliver side sock env)) :
    Stage (world.step (.deliver side sock env)) high := by
  by_cases own : sock = high.sock
  · subst own
    rcases side.eq_or high with rfl | rfl
    · exact .done halfway.done
    · rw [step_empty halfway.quiet.1]
      exact .halfway halfway
  by_cases theirs : sock = high.other.sock
  · subst theirs
    rcases side.eq_or high with rfl | rfl
    · obtain ⟨message, rest, coming, lower⟩ := halfway.second
      rcases (fine _ (nextOpen_eq halfway.holder_other coming)).2 with less | apart
      · exact absurd (BitVec.lt_trans less lower) (BitVec.lt_irrefl _)
      · exact absurd halfway.status apart.1
    · rw [step_empty halfway.quiet.2]
      exact .halfway halfway
  · have unheld : (world.router side).holder sock = none := by
      rcases side.eq_or high with rfl | rfl
      · exact halfway.holder_elsewhere own theirs
      · exact holder_none halfway.moved (Ne.symm own) (by simp [halfway.gone])
    rw [step_idle (.inr unheld)]
    exact .halfway (halfway.taken_elsewhere own theirs)

theorem step_hangUp (quiet : world.inbox side sock = [] → (world.router side).holder sock ≠ none →
    (world.router side.other).holder sock ≠ none) : world.step (.hangUp side sock env) = world := by
  rw [step]
  split
  · rename_i role empty closed held
    exact absurd closed (quiet empty (by simp [held]))
  · rfl

/-- In no stage does one end see the other one close. -/
theorem Stage.no_hangUp (stage : Stage world high) :
    world.step (.hangUp side sock env) = world := by
  apply step_hangUp
  intro empty held
  cases stage with
  | opening simultaneous =>
    have opening := simultaneous.opening side
    have opposite := simultaneous.opening side.other
    by_cases own : sock = side.sock
    · have found : (world.router side.other).holder side.sock = some .accepted := by
        simpa using opposite.holder_other
      simp [own, found]
    · by_cases theirs : sock = side.other.sock
      · simp [theirs, opposite.holder_own]
      · exact absurd (opening.holder_elsewhere own theirs) held
  | halfway halfway =>
    by_cases own : sock = high.sock
    · subst own
      rcases side.eq_or high with rfl | rfl
      · simp [holder_configured halfway.moved]
      · simp [holder_configured halfway.fd]
    · rcases side.eq_or high with rfl | rfl
      · by_cases theirs : sock = side.other.sock
        · obtain ⟨message, rest, coming, -⟩ := halfway.second
          rw [theirs, coming] at empty
          cases empty
        · exact absurd (halfway.holder_elsewhere own theirs) held
      · exact absurd (holder_none halfway.moved (Ne.symm own) (by simp [halfway.gone])) held
  | done done =>
    by_cases own : sock = high.sock
    · subst own
      rcases side.eq_or high with rfl | rfl
      · simp [holder_configured done.moved]
      · simp [holder_configured done.fd]
    · exact absurd (done.holder_elsewhere own) held

end Steps

theorem step_stage (high : Side) (world : World) (op : Step) (fine : world.Fine op)
    (stage : Stage world high) :
    Stage (world.step op) high := by
  cases op with
  | hangUp side sock env => rwa [stage.no_hangUp]
  | deliver side sock env =>
    cases stage with
    | opening simultaneous => exact opening_step simultaneous fine
    | halfway halfway => exact halfway_step halfway fine
    | done done => exact .done (done_step done)

theorem openAtBoth_of {sock role other} (here : (world.router high).holder sock = some role)
    (there : (world.router high.other).holder sock = some other) : world.openAtBoth sock := by
  intro side
  rcases side.eq_or high with rfl | rfl
  · simp [here]
  · simp [there]

theorem Stage.openAtBoth (stage : Stage world high) : world.openAtBoth high.sock := by
  cases stage with
  | opening simultaneous =>
    have under := (simultaneous.opening high.other).holder_other
    rw [Side.other_other] at under
    exact openAtBoth_of (simultaneous.opening high).holder_own under
  | halfway halfway =>
    exact openAtBoth_of (holder_configured halfway.fd) (holder_configured halfway.moved)
  | done done => exact openAtBoth_of (holder_configured done.fd) (holder_configured done.moved)

theorem Stage.resolved (stage : Stage world high) : world.Resolved high := by
  refine ⟨?_, fun settled => ⟨stage.openAtBoth, ?_⟩⟩
  · cases high
    · exact .inl stage.openAtBoth
    · exact .inr stage.openAtBoth
  · cases stage with
    | opening simultaneous =>
      have opening := simultaneous.opening high
      refine absurd ⟨high, high.other.sock, (world.router high.other).openMessage, ?_, ?_⟩ settled
      · simp [opening.holder_other]
      · rw [opening.coming]
        exact mem_cons_self
    | halfway halfway =>
      obtain ⟨message, coming, -⟩ := halfway.first
      refine absurd ⟨high, high.sock, message, ?_, ?_⟩ settled
      · simp [holder_configured halfway.fd]
      · rw [coming]
        exact mem_cons_self
    | done done => exact fun both => both high (done.holder_elsewhere high.sock_other_ne)

/-- Which of two connections is left, in whatever order the messages come. -/
theorem resolved_of_run {high : Side} (simultaneous : world.Simultaneous high) {ops : List Step}
    (run : Allowed step Fine world ops) : (ops.foldl step world).Resolved high :=
  (run.invariant (step_stage high) (.opening simultaneous)).resolved

instance (world : World) : (op : Step) → Decidable (world.Fine op)
  | .deliver side sock _ =>
    inferInstanceAs (Decidable (∀ message ∈ world.nextOpen side sock, _ ∧ (_ ∨ _ ∧ _)))
  | .hangUp .. => .isTrue trivial

/-- Two routers 1.1.1.1 and 2.2.2.2, which have both sent their OPEN. -/
def facing (side : Side) : Router where
  localAs := match side with | .left => 1 | .right => 2
  localId := match side with | .left => 0x01010101 | .right => 0x02020202
  as := match side with | .left => 2 | .right => 1
  configured := { status := .openSent, fd := some side.sock }
  accepted := some { status := .openSent, fd := some side.other.sock, acceptPeer := true }

def crossing : World where
  router := facing
  inbox side sock := if sock = side.other.sock then [.open (facing side.other).openMessage] else []

theorem crossing_simultaneous : crossing.Simultaneous .right := by
  refine ⟨by decide, fun side => ?_, fun side => ?_⟩
  · cases side <;> exact ⟨rfl, rfl, rfl, rfl, rfl, ⟨_, rfl, rfl, rfl, rfl⟩, rfl, rfl⟩
  · cases side <;> exact ⟨rfl, by decide, by decide, fun _ => ⟨_, rfl⟩⟩

/-- The lower router reads its OPEN, and the higher one the answer. -/
def orderlyOpens : List Step :=
  [.deliver .left 1 {}, .deliver .right 1 {}, .deliver .right 1 {}]

theorem resolved_of_run_orderly : Allowed step Fine crossing orderlyOpens ∧
    (orderlyOpens.foldl step crossing).Resolved .right :=
  have run : Allowed step Fine crossing orderlyOpens := by decide +kernel
  ⟨run, resolved_of_run crossing_simultaneous run⟩

/-- The temporary peer of the higher router reads its OPEN. -/
theorem not_resolved : ¬ ∀ (world : World) (high : Side), world.Simultaneous high →
    ∀ ops : List Step,
    (ops.foldl step world).Resolved high := by
  intro resolved
  rcases (resolved crossing .right crossing_simultaneous [.deliver .right 0 {}]).some_open with
    left | right
  · exact left .right (by decide +kernel)
  · exact right .right (by decide +kernel)

end World
end Zebra.Bgpd.Fsm
