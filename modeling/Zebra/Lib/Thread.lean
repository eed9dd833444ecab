import Zebra.Base.Deque

namespace Zebra
open Function Base.Deque

inductive ThreadType where
  | read
  | write
  | timer
  | event
  | ready
  | unused
deriving DecidableEq

/-- A reading of the clock. -/
structure Timeval where
  sec : Int
  usec : Fin 1000000
deriving DecidableEq

/-- The order of time. -/
def Timeval.Le (a b : Timeval) : Prop :=
  a.sec < b.sec ∨ a.sec = b.sec ∧ a.usec ≤ b.usec

instance (a b : Timeval) : Decidable (a.Le b) :=
  inferInstanceAs (Decidable (_ ∨ _))

/-- A `long` that is returned as an `int`. -/
def longToInt (value : Int) : Int :=
  value.bmod (2 ^ 32)

def timevalCmp (a b : Timeval) : Int :=
  longToInt (if a.sec = b.sec then (a.usec.val : Int) - b.usec.val else a.sec - b.sec)

abbrev Fd := Int

/-- `FD_SETSIZE`, the number of descriptors that an `fd_set` has a bit for. -/
abbrev fdSetsize : Nat := 1024

abbrev FdSet := Fin fdSetsize → Bool

/-- A descriptor that an `fd_set` has a bit for. -/
def Fd.Within (fd : Fd) : Prop :=
  0 ≤ fd ∧ fd < fdSetsize

instance (fd : Fd) : Decidable fd.Within :=
  inferInstanceAs (Decidable (_ ∧ _))

namespace FdSet
variable (fds : FdSet) (fd : Fd)

/-- `FD_ISSET`; what lies around the set is not read for a bit. -/
def isset : Bool :=
  if within : fd.Within then fds ⟨fd.toNat, (Int.toNat_lt within.1).mpr within.2⟩ else false

/-- `FD_SET` and `FD_CLR` of a descriptor within the set. -/
def put (bit : Bool) : FdSet :=
  fun n => if (n : Int) = fd then bit else fds n

variable {fds fd}

theorem within_of_isset (set : fds.isset fd) : fd.Within := by
  by_contra beside
  rw [isset, dif_neg beside] at set
  exact Bool.false_ne_true set

theorem isset_put {bit : Bool} (within : bit → fd.Within) :
    (fds.put fd bit).isset = update fds.isset fd bit := by
  funext other
  rw [update_apply, isset]
  by_cases inside : other.Within
  · rw [dif_pos inside, put, Int.toNat_of_nonneg inside.1, isset, dif_pos inside]
  · rw [dif_neg inside, isset, dif_neg inside]
    split
    · rename_i same
      subst same
      exact (Bool.eq_false_iff.mpr fun set => inside (within set)).symm
    · rfl

theorem isset_clear : (fds.put fd false).isset = update fds.isset fd false :=
  isset_put fun set => absurd set Bool.false_ne_true

theorem isset_empty : isset (fun _ => false) fd = false := by
  rw [isset]
  split <;> rfl

end FdSet

/-- What a thread waits for. -/
inductive ThreadU where
  | val (val : Int)
  | fd (fd : Fd)
  | sands (sands : Timeval)
deriving DecidableEq

/-- A thread structure; its links are kept with the lists. -/
structure Thread where
  type : ThreadType := .read
  func : Nat := 0
  arg : Nat := 0
  u : ThreadU := .val 0
deriving DecidableEq

namespace Thread

/-- `u.val` and `u.fd` are one field; the seconds of `u.sands` begin where they do. -/
def fd (thread : Thread) : Fd :=
  match thread.u with
  | .val val => val
  | .fd fd => fd
  | .sands sands => longToInt sands.sec

/-- Only a thread that was given its time has one. -/
def sands (thread : Thread) : Timeval :=
  match thread.u with
  | .sands sands => sands
  | .val val | .fd val => ⟨val, 0⟩

end Thread

abbrev ThreadAddr := Nat

/-- The master with all thread structures; `alloc` of them have been allocated. -/
structure ThreadMaster where
  lists : Links ThreadType ThreadAddr := {}
  thread : ThreadAddr → Thread := fun _ => {}
  readfd : FdSet := fun _ => false
  writefd : FdSet := fun _ => false
  alloc : Nat := 0

namespace ThreadMaster

def threadMasterCreate : ThreadMaster := {}

section
variable (m : ThreadMaster)

def setThread (t : ThreadAddr) (thread : Thread) : ThreadMaster :=
  { m with thread := update m.thread t thread }

section
variable (list : ThreadType)

def threadListAdd (t : ThreadAddr) : ThreadMaster :=
  { m with lists := m.lists.append list t }

def threadListAddBefore (point t : ThreadAddr) : ThreadMaster :=
  { m with lists := m.lists.insertBefore list point t }

def threadListDelete (t : ThreadAddr) : ThreadMaster :=
  { m with lists := m.lists.delete list t }

/-- The descriptors that are watched for the threads of a list. -/
def fdset : ThreadType → FdSet
  | .read => m.readfd
  | .write => m.writefd
  | _ => fun _ => false

def setFdset (fds : FdSet) : ThreadMaster :=
  match list with
  | .read => { m with readfd := fds }
  | .write => { m with writefd := fds }
  | _ => m

def fdSet (fd : Fd) : ThreadMaster :=
  m.setFdset list ((m.fdset list).put fd true)

def fdClr (fd : Fd) : ThreadMaster :=
  m.setFdset list ((m.fdset list).put fd false)

/-- No result where an assertion fails. -/
def threadAddUnuse (t : ThreadAddr) : Option ThreadMaster :=
  if m.lists.next t = none ∧ m.lists.prev t = none ∧ (m.thread t).type = .unused then
    some (m.threadListAdd .unused t)
  else
    none

/-- The type, the function and the argument of a thread are set. -/
def setUp (t : ThreadAddr) (type : ThreadType) (func arg : Nat) : ThreadMaster :=
  m.setThread t { m.thread t with type, func, arg }

/-- One more structure is allocated. -/
def enlarge : ThreadMaster :=
  { m.setThread m.alloc {} with alloc := m.alloc + 1 }

/-- A structure that no list holds. -/
def threadTake : ThreadMaster × ThreadAddr :=
  match m.lists.head .unused with
  | some t => (m.threadListDelete .unused t, t)
  | none => (m.enlarge, m.alloc)

def threadGet (type : ThreadType) (func arg : Nat) : ThreadMaster × ThreadAddr :=
  (m.threadTake.1.setUp m.threadTake.2 type func arg, m.threadTake.2)

def setU (t : ThreadAddr) (u : ThreadU) : ThreadMaster :=
  m.setThread t { m.thread t with u }

/-- A descriptor is watched by one thread of a list only. There is no result for one that the set
has no bit for: the bit of something else is tested and set. -/
def threadAddFd (m : ThreadMaster) (func arg : Nat) (fd : Fd) :
    Option (ThreadMaster × Option ThreadAddr) :=
  if ¬ fd.Within then
    none
  else if (m.fdset list).isset fd then
    some (m, none)
  else
    let (got, t) := m.threadGet list func arg
    some (((got.fdSet list fd).setU t (.fd fd)).threadListAdd list t, some t)

def threadAddRead : ThreadMaster → Nat → Nat → Fd → Option (ThreadMaster × Option ThreadAddr) :=
  threadAddFd .read

def threadAddWrite : ThreadMaster → Nat → Nat → Fd → Option (ThreadMaster × Option ThreadAddr) :=
  threadAddFd .write

/-- The first thread of a list that is looked for. -/
def firstOf (wanted : ThreadAddr → Bool) : Option ThreadAddr :=
  m.lists.find wanted m.alloc (m.lists.head list)

end

/-- The thread is put before the first that does not expire earlier. -/
def timerInsert (t : ThreadAddr) : ThreadMaster :=
  match m.firstOf .timer fun tt => timevalCmp (m.thread t).sands (m.thread tt).sands ≤ 0 with
  | some tt => m.threadListAddBefore .timer tt t
  | none => m.threadListAdd .timer t

def threadAddTimer (func arg : Nat) (timer : Int) (now : Timeval) : ThreadMaster × ThreadAddr :=
  let (got, t) := m.threadGet .timer func arg
  ((got.setU t (.sands { now with sec := now.sec + timer })).timerInsert t, t)

def threadAddEvent (func arg : Nat) (val : Int) : ThreadMaster × ThreadAddr :=
  let (got, t) := m.threadGet .event func arg
  ((got.setU t (.val val)).threadListAdd .event t, t)

def setType (t : ThreadAddr) (type : ThreadType) : ThreadMaster :=
  m.setThread t { m.thread t with type }

/-- A thread that no list holds is done with. -/
def unuse (t : ThreadAddr) : Option ThreadMaster :=
  (m.setType t .unused).threadAddUnuse t

def threadCancel (t : ThreadAddr) : Option ThreadMaster :=
  match (m.thread t).type with
  | .read =>
    if m.readfd.isset (m.thread t).fd then
      ((m.fdClr .read (m.thread t).fd).threadListDelete .read t).unuse t
    else
      none
  | .write =>
    if m.writefd.isset (m.thread t).fd then
      ((m.fdClr .write (m.thread t).fd).threadListDelete .write t).unuse t
    else
      none
  | .timer => (m.threadListDelete .timer t).unuse t
  | .event => (m.threadListDelete .event t).unuse t
  | .ready => (m.threadListDelete .ready t).unuse t
  | .unused => m.unuse t

end

/-- The events from a thread on, with the threads that are cancelled. -/
def cancelEventFrom (arg : Nat) : Nat → Option ThreadAddr → ThreadMaster →
    Option (ThreadMaster × List ThreadAddr)
  | _, none, m => some (m, [])
  | 0, some _, _ => none
  | fuel + 1, some t, m =>
    if (m.thread t).arg = arg then
      ((m.threadListDelete .event t).unuse t).bind fun cut =>
        (cancelEventFrom arg fuel (m.lists.next t) cut).map fun (last, gone) => (last, t :: gone)
    else
      cancelEventFrom arg fuel (m.lists.next t) m

def threadCancelEvent (m : ThreadMaster) (arg : Nat) : Option (ThreadMaster × List ThreadAddr) :=
  cancelEventFrom arg m.alloc (m.lists.head .event) m

/-- The copy of a thread that is to run, with where it was. -/
def threadRun (m : ThreadMaster) (t : ThreadAddr) : Option (ThreadMaster × ThreadAddr × Thread) :=
  (m.unuse t).map fun done => (done, t, m.thread t)

/-- A thread whose descriptor is ready. -/
def makeReady (m : ThreadMaster) (list : ThreadType) (t : ThreadAddr) : ThreadMaster :=
  (((m.fdClr list (m.thread t).fd).threadListDelete list t).threadListAdd .ready t).setType t .ready

/-- The list from a thread on; every descriptor is to lie within the sets. -/
def processFdFrom (list : ThreadType) (fds : FdSet) :
    Nat → Option ThreadAddr → ThreadMaster → Option ThreadMaster
  | _, none, m => some m
  | 0, some _, _ => none
  | fuel + 1, some t, m =>
    if ¬ (m.thread t).fd.Within then
      none
    else if fds.isset (m.thread t).fd then
      if (m.fdset list).isset (m.thread t).fd then
        processFdFrom list fds fuel (m.lists.next t) (m.makeReady list t)
      else
        none
    else
      processFdFrom list fds fuel (m.lists.next t) m

def threadProcessFd (m : ThreadMaster) (list : ThreadType) (fds : FdSet) : Option ThreadMaster :=
  processFdFrom list fds m.alloc (m.lists.head list) m

/-- What the system answers in one round of the loop: the clock, and the result of `select`. -/
structure Round where
  now : Timeval
  num : Int
  eintr : Bool := false
  readfd : FdSet := fun _ => false
  writefd : FdSet := fun _ => false

/-- What `thread_fetch` has come to. -/
inductive Fetch where
  | waiting (m : ThreadMaster)
  | null (m : ThreadMaster)
  | thread (m : ThreadMaster) (t : ThreadAddr) (fetch : Thread)

/-- A thread that was found on a list is run. -/
def runFrom (m : ThreadMaster) (list : ThreadType) (t : ThreadAddr) : Option Fetch :=
  ((m.threadListDelete list t).threadRun t).map fun (done, t, fetch) => .thread done t fetch

/-- The thread that can run before the system is asked for ready descriptors. -/
def threadDue (m : ThreadMaster) (now : Timeval) : Option (ThreadType × ThreadAddr) :=
  match m.lists.head .event with
  | some t => some (.event, t)
  | none =>
    match m.firstOf .timer fun t => 0 ≤ timevalCmp now (m.thread t).sands with
    | some t => some (.timer, t)
    | none => (m.lists.head .ready).map (.ready, ·)

/-- The loop, for the rounds that it takes. -/
def threadFetch (m : ThreadMaster) : List Round → Option Fetch
  | [] => some (.waiting m)
  | round :: rest =>
    match m.threadDue round.now with
    | some (list, t) => m.runFrom list t
    | none =>
      if round.num = 0 then
        m.threadFetch rest
      else if round.num < 0 then
        if round.eintr then m.threadFetch rest else some (.null m)
      else
        (m.threadProcessFd .read round.readfd).bind fun polled =>
          (polled.threadProcessFd .write round.writefd).bind fun polled =>
            match polled.lists.head .ready with
            | some t => polled.runFrom .ready t
            | none => polled.threadFetch rest

end ThreadMaster
end Zebra
