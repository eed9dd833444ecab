import Mathlib
import Zebra.Base.Octets
import Zebra.Base.Run

/-! The output queue of the zebra server. All clients share one FIFO of pending messages and one
write thread. -/
namespace Zebra.Zebrad
open Base List Nat

abbrev Sock := Nat

def zebraMaxPacketSiz : Nat := 4096

/-- What a client's `obuf` holds when a message is sent. -/
structure Message where
  octets : List Octet
  fits : octets.length ≤ zebraMaxPacketSiz := by decide

/-- What `write` answers: how much the socket takes, at most what it is offered, and
whether `errno` is `EAGAIN` where it takes nothing. -/
structure Attempt where
  nbytes : Nat
  again : Bool := false

/-- `struct zebra_message_queue`; both counters are 16 bits wide. -/
structure Pending where
  buf : List Octet
  length : Nat
  written : Nat

namespace Pending

/-- The octets `write` is offered. -/
def offer (queue : Pending) : List Octet :=
  (queue.buf.drop queue.written).take (queue.length - queue.written)

/-- The counters are exact. -/
structure Whole (queue : Pending) : Prop where
  length : queue.length = queue.buf.length
  small : queue.length < 2 ^ 16
  written : queue.written ≤ queue.length

variable {queue : Pending} (whole : queue.Whole)
include whole

theorem Whole.offer_eq : queue.offer = queue.buf.drop queue.written := by
  rw [offer, whole.length]
  exact take_of_length_le (by simp)

theorem Whole.length_offer : queue.offer.length = queue.length - queue.written := by
  rw [whole.offer_eq, length_drop, whole.length]

theorem Whole.advance {nbytes} (bound : nbytes ≤ queue.length - queue.written) :
    Whole { queue with written := (queue.written + nbytes) % 2 ^ 16 } ∧
      offer { queue with written := (queue.written + nbytes) % 2 ^ 16 } =
        queue.offer.drop nbytes := by
  obtain ⟨length, small, written⟩ := whole
  have exact : (queue.written + nbytes) % 2 ^ 16 = queue.written + nbytes := mod_eq_of_lt (by omega)
  have whole' : Whole { queue with written := (queue.written + nbytes) % 2 ^ 16 } :=
    ⟨length, small, by dsimp only; omega⟩
  refine ⟨whole', ?_⟩
  rw [whole'.offer_eq, Whole.offer_eq ⟨length, small, written⟩, drop_drop]
  dsimp only
  rw [exact]

end Pending

/-- The globals of the server, and what every socket has accepted so far. -/
structure Server where
  messageQueue : List Pending := []
  tWrite : Option Sock := none
  wire : Sock → List Octet := fun _ => []

namespace Server
variable (server : Server) (sock : Sock)

def write (octets : List Octet) (attempt : Attempt) : Server :=
  { server with
    wire := Function.update server.wire sock (server.wire sock ++ octets.take attempt.nbytes) }

/-- `THREAD_WRITE_ON`: a thread that is on already keeps its socket. -/
def threadWriteOn : Server :=
  { server with tWrite := server.tWrite.or (some sock) }

def zebraServerDequeue (attempt : Attempt) : Server :=
  let server := { server with tWrite := none }
  match server.messageQueue with
  | [] => server
  | queue :: rest =>
    let nbytes := min attempt.nbytes (queue.length - queue.written)
    if nbytes = 0 then
      if attempt.again then server.threadWriteOn sock else server
    else if nbytes ≠ queue.length - queue.written then
      let queue' := { queue with written := (queue.written + nbytes) % 2 ^ 16 }
      { server.write sock queue.offer attempt with
        messageQueue := queue' :: rest }.threadWriteOn sock
    else
      let server := { server.write sock queue.offer attempt with messageQueue := rest }
      if rest.isEmpty then server else server.threadWriteOn sock

def zebraServerEnqueue (buf : List Octet) (written : Nat) : Server :=
  let queue := { buf, length := buf.length % 2 ^ 16, written := written % 2 ^ 16 }
  { server with messageQueue := server.messageQueue ++ [queue] }.threadWriteOn sock

/-- The flag says whether the message was taken: the source returns 0 for it. -/
def zebraServerSendMessage (buf : List Octet) (attempt : Attempt) : Bool × Server :=
  if !server.messageQueue.isEmpty then
    (true, server.zebraServerEnqueue sock buf 0)
  else
    let nbytes := min attempt.nbytes buf.length
    if nbytes = 0 then
      if attempt.again then (true, server.zebraServerEnqueue sock buf 0) else (false, server)
    else if nbytes ≠ buf.length then
      (true, (server.write sock buf attempt).zebraServerEnqueue sock buf nbytes)
    else
      (true, server.write sock buf attempt)

end Server

/-- A message is sent to a client, or the socket of the write thread is writable. -/
inductive Event where
  | send (sock : Sock) (message : Message) (attempt : Attempt)
  | writable (attempt : Attempt)

/-- The server, and the messages it has taken, in order. -/
structure History where
  server : Server := {}
  sent : List (Sock × List Octet) := []

namespace History

def step (history : History) : Event → History
  | .send sock message attempt =>
    let result := history.server.zebraServerSendMessage sock message.octets attempt
    { server := result.2, sent := history.sent ++ if result.1 then [(sock, message.octets)]
        else [] }
  | .writable attempt =>
    match history.server.tWrite with
    | some sock => { history with server := history.server.zebraServerDequeue sock attempt }
    | none => history

/-- The concatenation of the messages sent to a client. -/
def sentTo (history : History) (sock : Sock) : List Octet :=
  ((history.sent.filter fun message => message.1 = sock).map Prod.snd).flatten

/-- Every client has a prefix of what was sent to it. -/
def Intact (history : History) : Prop :=
  ∀ sock, history.server.wire sock <+: history.sentTo sock

/-- A message is sent while nothing is pending, or to the client of the message before it. -/
def SendsInTurn (history : History) : Event → Prop
  | .send sock _ _ =>
    history.server.messageQueue.isEmpty = true ∨ history.sent.getLast?.map Prod.fst = some sock
  | .writable _ => True

instance (history : History) : (event : Event) → Decidable (history.SendsInTurn event)
  | .send .. => inferInstanceAs (Decidable (_ ∨ _))
  | .writable _ => .isTrue trivial

/-- What is pending for a client: everything, if it was the last to be sent a message. -/
def pendingFor (history : History) (sock : Sock) : List Octet :=
  if history.sent.getLast?.map Prod.fst = some sock then
    (history.server.messageQueue.map Pending.offer).flatten
  else []

/-- What sends in turn keep. -/
structure InTurn (history : History) : Prop where
  quiet : history.server.messageQueue = [] → history.server.tWrite = none
  turned : ∀ sock, history.server.tWrite = some sock →
    history.sent.getLast?.map Prod.fst = some sock
  whole : ∀ queue ∈ history.server.messageQueue, queue.Whole
  complete : ∀ sock, history.server.wire sock ++ history.pendingFor sock = history.sentTo sock

variable {history : History} {sock : Sock}

theorem sentTo_concat (history : History) (server : Server) (sock other : Sock)
    (octets : List Octet) :
    sentTo ⟨server, history.sent ++ [(sock, octets)]⟩ other =
      history.sentTo other ++ if sock = other then octets else [] := by
  by_cases same : sock = other <;> simp [sentTo, same]

section
variable (inTurn : history.InTurn)
include inTurn

theorem InTurn.intact : history.Intact :=
  fun sock => ⟨_, inTurn.complete sock⟩

theorem InTurn.served (last : history.sent.getLast?.map Prod.fst = some sock) {server taken}
    (wire : server.wire = Function.update history.server.wire sock
      (history.server.wire sock ++ taken))
    (left : taken ++ (server.messageQueue.map Pending.offer).flatten =
      (history.server.messageQueue.map Pending.offer).flatten)
    (quiet : server.messageQueue = [] → server.tWrite = none)
    (turned : ∀ other, server.tWrite = some other → other = sock)
    (whole : ∀ queue ∈ server.messageQueue, queue.Whole) : InTurn { history with server } := by
  refine ⟨quiet, fun other on => turned other on ▸ last, whole, fun other => ?_⟩
  have before := inTurn.complete other
  show server.wire other ++ pendingFor { history with server } other = history.sentTo other
  rw [← before, wire]
  by_cases same : other = sock
  · subst same
    simp only [pendingFor, last, if_true, Function.update_self, append_assoc, left]
  · have apart : ¬ some sock = some other := fun equal => same (Option.some.inj equal).symm
    simp only [pendingFor, last, if_neg apart, Function.update_of_ne same]

theorem zebraServerDequeue_inTurn (on : history.server.tWrite = some sock)
    (attempt : Attempt) :
    InTurn { history with server := history.server.zebraServerDequeue sock attempt } := by
  have last := inTurn.turned sock on
  cases pending : history.server.messageQueue with
  | nil => exact absurd (inTurn.quiet pending) (by simp [on])
  | cons queue rest =>
    have wholeAll : ∀ other ∈ queue :: rest, other.Whole := pending ▸ inTurn.whole
    obtain ⟨whole, wholeRest⟩ := forall_mem_cons.mp wholeAll
    have offered := whole.length_offer
    rw [Server.zebraServerDequeue]
    rw [pending]
    dsimp only
    have noWire : history.server.wire =
        Function.update history.server.wire sock (history.server.wire sock ++ []) := by
      simp
    split
    · split
      · refine inTurn.served last noWire (by rw [pending]; rfl) ?_ ?_ wholeAll
        · exact fun empty => absurd empty (by simp [Server.threadWriteOn])
        · exact fun other started => (Option.some.inj started).symm
      · refine inTurn.served last noWire (by rw [pending]; rfl) (fun _ => rfl) ?_ wholeAll
        exact fun other started => nomatch started
    · split
      · have bound : min attempt.nbytes (queue.length - queue.written) ≤
            queue.length - queue.written :=
          min_le_right ..
        obtain ⟨whole', left⟩ := whole.advance bound
        refine inTurn.served last rfl ?_ ?_ ?_ ?_
        · have part : min attempt.nbytes (queue.length - queue.written) = attempt.nbytes := by omega
          simp only [part] at left
          simp only [Server.threadWriteOn, map_cons, flatten_cons, pending, part, left]
          rw [← append_assoc, take_append_drop]
        · exact fun empty => absurd empty (by simp [Server.threadWriteOn])
        · exact fun other started => (Option.some.inj started).symm
        · exact forall_mem_cons.mpr ⟨whole', wholeRest⟩
      · have entire : queue.offer.take attempt.nbytes = queue.offer :=
          take_of_length_le (by omega)
        split
        · refine inTurn.served last rfl ?_ (fun _ => rfl) ?_ wholeRest
          · simp [entire, pending]
          · exact fun other started => absurd started (by simp [Server.write])
        · rename_i busy
          refine inTurn.served last rfl ?_ ?_ ?_ wholeRest
          · simp [entire, pending, Server.threadWriteOn]
          · exact fun empty => absurd empty (by simpa [Server.threadWriteOn] using busy)
          · exact fun other started => (Option.some.inj started).symm

theorem InTurn.enqueued {server : Server}
    (inOrder : history.server.messageQueue = [] ∨ history.sent.getLast?.map Prod.fst = some sock)
    (message : Message) {written : Nat} (short : written ≤ message.octets.length)
    (same : server.messageQueue = history.server.messageQueue)
    (thread : server.tWrite = history.server.tWrite)
    (wire : server.wire = Function.update history.server.wire sock
      (history.server.wire sock ++ message.octets.take written))
    (direct : written ≠ 0 → history.server.messageQueue = []) :
    InTurn ⟨server.zebraServerEnqueue sock message.octets written,
      history.sent ++ [(sock, message.octets)]⟩ := by
  have fits : message.octets.length < 2 ^ 16 := lt_of_le_of_lt message.fits (by decide)
  have exactLength := mod_eq_of_lt fits
  have exactWritten : written % 2 ^ 16 = written := mod_eq_of_lt (by omega)
  have whole : Pending.Whole ⟨message.octets, message.octets.length, written⟩ := ⟨rfl, fits, short⟩
  rw [Server.zebraServerEnqueue, exactLength, exactWritten]
  refine ⟨fun empty => absurd empty (by simp [Server.threadWriteOn]), fun other on => ?_, ?_,
    fun other => ?_⟩
  · -- the thread was off, or it served the client before the message came
    rw [getLast?_concat]
    cases before : history.server.tWrite with
    | none =>
      rw [thread, before] at on
      exact on
    | some served =>
      rw [thread, before] at on
      have busy : history.server.messageQueue ≠ [] :=
        fun empty => by simp [inTurn.quiet empty] at before
      have last := inTurn.turned served before
      rw [inOrder.resolve_left busy] at last
      exact last.trans on
  · intro queue member
    rcases mem_append.mp member with old | new
    · exact inTurn.whole queue (same ▸ old)
    · exact mem_singleton.mp new ▸ whole
  · have before := inTurn.complete other
    rw [sentTo_concat, ← before]
    by_cases own : sock = other
    · subst own
      simp only [pendingFor, Server.threadWriteOn, wire, same, getLast?_concat, Option.map_some,
        if_true, Function.update_self, map_append, flatten_append, map_cons, map_nil,
        flatten_cons, flatten_nil, append_nil, whole.offer_eq]
      by_cases none : written = 0
      · subst none
        rcases inOrder with empty | last
        · simp [empty]
        · simp [last]
      · simp [direct none]
    · have idle : history.pendingFor other = [] := by
        rcases inOrder with empty | last
        · simp [pendingFor, empty]
        · simp [pendingFor, last, own]
      rw [idle]
      simp [pendingFor, Server.threadWriteOn, wire, own, Function.update_of_ne (Ne.symm own)]

theorem zebraServerSendMessage_inTurn (message : Message) (attempt : Attempt)
    (inOrder : history.SendsInTurn (.send sock message attempt)) :
    (history.step (.send sock message attempt)).InTurn := by
  have inOrder' := inOrder.imp_left List.isEmpty_iff.mp
  have noWire : history.server.wire =
      Function.update history.server.wire sock
        (history.server.wire sock ++ message.octets.take 0) := by
    simp
  rw [step, Server.zebraServerSendMessage]
  split
  · exact inTurn.enqueued inOrder' message (zero_le _) rfl rfl noWire (absurd rfl)
  · rename_i idle
    have empty : history.server.messageQueue = [] := by simpa using idle
    dsimp only
    split
    · split
      · exact inTurn.enqueued inOrder' message (zero_le _) rfl rfl noWire (absurd rfl)
      · simpa using inTurn
    · split
      · have part : min attempt.nbytes message.octets.length = attempt.nbytes := by omega
        rw [part]
        exact inTurn.enqueued inOrder' message (by omega) rfl rfl rfl fun _ => empty
      · have entire : message.octets.take attempt.nbytes = message.octets :=
          take_of_length_le (by omega)
        refine ⟨inTurn.quiet, fun other on => ?_, inTurn.whole, fun other => ?_⟩
        · cases (inTurn.quiet empty).symm.trans on
        · have before := inTurn.complete other
          have idle : history.pendingFor other = [] := by simp [pendingFor, empty]
          rw [idle] at before
          rw [if_pos rfl, sentTo_concat, ← before, pendingFor, Server.write, empty, entire]
          by_cases own : sock = other
          · subst own
            simp
          · simp [own, Function.update_of_ne (Ne.symm own)]

end

theorem step_inTurn {event} (inOrder : history.SendsInTurn event) (inTurn : history.InTurn) :
    (history.step event).InTurn := by
  cases event with
  | send sock message attempt => exact zebraServerSendMessage_inTurn inTurn message attempt inOrder
  | writable attempt =>
    rw [step]
    split
    · rename_i sock on
      exact zebraServerDequeue_inTurn inTurn on attempt
    · exact inTurn

theorem initial_inTurn : ({} : History).InTurn :=
  ⟨fun _ => rfl, by simp, by simp, fun _ => by simp [pendingFor, sentTo]⟩

/-- Whatever the sockets accept and whenever they do: what a client has been written is
a prefix of the messages sent to it, as long as no message is sent to another client
while one is pending. -/
theorem run_intact (events : List Event) (inTurn : Allowed step SendsInTurn {} events) :
    (events.foldl step {}).Intact :=
  (inTurn.invariant (fun _ _ inOrder => step_inTurn inOrder) initial_inTurn).intact

end History

namespace Blocked

def hello : Message := ⟨[0, 3, 1], by decide⟩
def other : Message := ⟨[0, 3, 2], by decide⟩

/-- The first client blocks, and both messages go out when its socket is writable. -/
def crossed : List Event :=
  [.send 1 hello ⟨0, true⟩, .send 2 other ⟨3, false⟩, .writable ⟨3, false⟩, .writable ⟨3, false⟩]

/-- The second client is sent its message when the first has all of its own. -/
def inTurn : List Event :=
  [.send 1 hello ⟨1, false⟩, .send 1 other ⟨3, false⟩, .writable ⟨2, false⟩, .writable ⟨2, false⟩,
    .writable ⟨0, true⟩, .writable ⟨1, false⟩, .send 2 hello ⟨3, false⟩]

end Blocked

/-- A message for the second client is written to the socket of the first. -/
theorem run_crosses_clients :
    (Blocked.crossed.foldl History.step {}).server.wire 1 =
      Blocked.hello.octets ++ Blocked.other.octets ∧
    (Blocked.crossed.foldl History.step {}).sentTo 1 = Blocked.hello.octets ∧
    ¬ (Blocked.crossed.foldl History.step {}).Intact := by
  refine ⟨by decide, by decide, fun intact => ?_⟩
  have first := intact 1
  revert first
  decide

theorem run_intact_inTurn :
    (Blocked.inTurn.foldl History.step {}).Intact ∧
    (Blocked.inTurn.foldl History.step {}).server.wire 1 =
      Blocked.hello.octets ++ Blocked.other.octets :=
  ⟨History.run_intact Blocked.inTurn (by decide), by decide⟩

end Zebra.Zebrad
