import Zebra.Base.Wheel
import Zebra.Ospfd.Lsa

/-! The queue of instances that are to be refreshed, of ospfd/ospf_lsa.c. What an assertion stops,
what reads through a null pointer and what never ends has no result. -/
namespace Zebra.Ospfd
open Function Base.Wheel

def ospfLsRefreshTime : Int := 1800
def ospfLsRefreshShift : Int := 900
def ospfLsRefreshJitter : Int := 60
def ospfLsaRefresherGranularity : Int := 10

/-- `OSPF_LSA_REFRESHER_SLOTS`. -/
def ospfLsaRefresherSlots : Nat := 271

/-- What an `int` becomes in a `u_int16_t`. -/
def toU16 (value : Int) : Nat := (value % 65536).toNat

/-- `lsa_refresh_queue` and `lsa_refresher_started`, and the instances with their `refresh_list`. -/
structure Refresher where
  index : Nat := 0
  qs : Nat → Option (List LsaId) := fun _ => none
  started : Int
  lsa : LsaId → OspfLsa
  refreshList : LsaId → Int := fun _ => -1

def OspfLsa.relock (lsa : OspfLsa) (lock : Int) : OspfLsa := { lsa with lock }

/-- `time`. -/
def seconds (now : Time) : Int := now / 1000000

namespace Refresher
section
variable (r : Refresher)

/-- The instances in a slot. -/
def slot (i : Nat) : List LsaId := (r.qs i).getD []

section
variable (x : LsaId)

def setLock (lock : Int) : Refresher :=
  { r with lsa := update r.lsa x ((r.lsa x).relock lock) }

def ospfLsaLock : Refresher :=
  r.setLock x ((r.lsa x).lock + 1)

/-- `ospf_lsa_unlock`. The last lock may not go while the instance is in a list. -/
def ospfLsaUnlock : Option Refresher :=
  if (r.lsa x).lock ≤ 1 then none else some (r.setLock x ((r.lsa x).lock - 1))

def setRefreshList (list : Int) : Refresher :=
  { r with refreshList := update r.refreshList x list }

def setQs (i : Nat) (list : Option (List LsaId)) : Refresher :=
  { r with qs := update r.qs i list }

/-- How many granules have passed since the walker ran; C rounds to zero. -/
def granules (now : Time) : Int :=
  (seconds now - r.started).tdiv ospfLsaRefresherGranularity

/-- The delay of an instance, before it is cut off at zero. -/
def refreshDelay (lsa : OspfLsa) (now : Time) (random : Nat) : Int :=
  if lsa.lsAge now = 0 ∧ lsa.data.lsSeqnum = ospfInitialSequenceNumber then
    ospfLsRefreshShift + (random : Int) % ospfLsRefreshTime
  else
    ospfLsRefreshTime - lsa.lsAge now - ospfLsRefreshJitter + (random : Int) %
      (2 * ospfLsRefreshJitter)

def delay (lsa : OspfLsa) (now : Time) (random : Nat) : Int :=
  if refreshDelay lsa now random < 0 then 0 else refreshDelay lsa now random

/-- The slot that an instance gets. -/
def refreshIndex (now : Time) (random : Nat) : Nat :=
  let currentIndex := toU16 (r.index + r.granules now)
  toU16 ((currentIndex + (delay (r.lsa x) now random).tdiv ospfLsaRefresherGranularity).tmod
    ospfLsaRefresherSlots)

/-- `ospf_refresher_register_lsa`. -/
def registerLsa (now : Time) (random : Nat) : Option Refresher :=
  if (r.lsa x).self = false then none
  else if r.refreshList x < 0 then
    let index := r.refreshIndex x now random
    some (((r.ospfLsaLock x).setQs index (some (r.slot index ++ [x]))).setRefreshList x index)
  else some r

/-- `ospf_refresher_unregister_lsa`. -/
def unregisterLsa : Option Refresher :=
  if (r.lsa x).self = false then none
  else if 0 ≤ r.refreshList x then
    (r.qs (r.refreshList x).toNat).bind fun list =>
      let rest := list.erase x
      ((r.setQs (r.refreshList x).toNat (if rest = [] then none else some rest)).ospfLsaUnlock
        x).map
        (·.setRefreshList x (-1))
  else some r

/-- An instance leaves the list it was in. -/
def release : Option Refresher :=
  (r.ospfLsaUnlock x).map (·.setRefreshList x (-1))

end

/-- One round of the walker's loop, with what is to be refreshed so far. -/
def drain (state : Refresher × List LsaId) (i : Nat) : Option (Refresher × List LsaId) :=
  ((state.1.slot i).foldlM release (state.1.setQs i none)).map (·, state.2 ++ state.1.slot i)

/-- The index that the walker goes to. -/
def nextIndex (now : Time) : Nat :=
  toU16 ((r.index + r.granules now).tmod ospfLsaRefresherSlots)

/-- `ospf_lsa_refresh_walker`, with the instances that it hands to `ospf_lsa_refresh`. The loop is
at every slot within one turn, or never ends. -/
def lsaRefreshWalker (now : Time) : Option (Refresher × List LsaId) :=
  (visited ospfLsaRefresherSlots (ospfLsaRefresherSlots + 1) r.index (r.nextIndex now)).bind
    fun slots =>
    (slots.foldlM drain ({ r with index := r.nextIndex now }, [])).map fun (walked, lsaToRefresh) =>
      ({ walked with started := seconds now }, lsaToRefresh)

/-- A call of one of the three functions. -/
inductive Call where
  | register (x : LsaId) (random : Nat)
  | unregister (x : LsaId)
  | walk

/-- A call, with what it hands over. -/
def call (now : Time) : Call → Option (Refresher × List LsaId)
  | .register x random => (r.registerLsa x now random).map (·, [])
  | .unregister x => (r.unregisterLsa x).map (·, [])
  | .walk => r.lsaRefreshWalker now

end

/-- As `ospf_new` makes it. Whoever registers an instance holds it. -/
structure Created (r : Refresher) : Prop where
  index : r.index = 0
  qs : ∀ i, r.qs i = none
  refreshList : ∀ x, r.refreshList x = -1
  held : ∀ x, 0 < (r.lsa x).lock

/-- What calls at any times lead to. -/
inductive Reached (start : Refresher) : Refresher → Prop where
  | start : Reached start start
  | call {r after : Refresher} (reached : Reached start r) (now : Time) (call : Call)
      {handed : List LsaId}
      (called : r.call now call = some (after, handed)) : Reached start after

end Refresher

/-- `refresh timer <10-1800>`. -/
def ospfRefreshTimer (value : Nat) : Nat := value / 10 * 10

/-- The queue, the time, and when the walker ran last. -/
structure PacedRefresher where
  r : Refresher
  now : Time
  walked : Time

namespace PacedRefresher

/-- The instance is created now. -/
def create (r : Refresher) (now : Time) : PacedRefresher :=
  ⟨{ r with started := seconds now }, now, now⟩

/-- When the walker runs next. -/
def nextWalk (p : PacedRefresher) (interval : Nat) : Time :=
  p.walked + interval * 1000000

inductive Event where
  | wait (micros : Nat)
  | register (x : LsaId) (random : Nat)
  | unregister (x : LsaId)
  | walk
deriving DecidableEq

/-- One event, with what is handed to `ospf_lsa_refresh` and the age that it then has. Time does not
go past the walker. -/
def step (interval : Nat) (p : PacedRefresher) :
    Event → Option (PacedRefresher × List (LsaId × Int))
  | .wait micros => if p.now + micros ≤ p.nextWalk interval then
    some ({ p with now := p.now + micros }, []) else none
  | .register x random => (p.r.registerLsa x p.now random).map fun r => ({ p with r }, [])
  | .unregister x => (p.r.unregisterLsa x).map fun r => ({ p with r }, [])
  | .walk =>
    if p.now = p.nextWalk interval then
      (p.r.lsaRefreshWalker p.now).map fun (r, handed) =>
        (⟨r, p.now, p.now⟩, handed.map fun x => (x, (p.r.lsa x).getAge p.now))
    else none

/-- Events in turn, with all that is handed over. -/
def run (interval : Nat) : PacedRefresher → List Event →
    Option (PacedRefresher × List (LsaId × Int))
  | p, [] => some (p, [])
  | p, event :: rest =>
    (p.step interval event).bind fun (next, handed) =>
      (run interval next rest).map fun (last, later) => (last, handed ++ later)

/-- What a run leads to. -/
def Reached (interval : Nat) (start p : PacedRefresher) : Prop :=
  ∃ events handed, run interval start events = some (p, handed)

/-- As long as it is not unregistered, the instance is below MaxAge until it is handed over, and
when it is. -/
def InTime (interval : Nat) (p : PacedRefresher) (x : LsaId) : Prop :=
  ∀ events last handed, run interval p events = some (last, handed) → Event.unregister x ∉ events →
    (∃ age, (x, age) ∈ handed ∧ age < ospfLsaMaxage) ∨
      0 ≤ last.r.refreshList x ∧ (last.r.lsa x).getAge last.now < ospfLsaMaxage

/-- When the walker comes to a slot that is so far ahead of it. -/
def dueAt (interval : Nat) (p : PacedRefresher) (ahead : Nat) : Time :=
  p.walked + (ahead / (interval / 10) + 1 : Nat) * (interval * 1000000)

/-- How far ahead of the walker an instance is put. -/
def putAhead (p : PacedRefresher) (x : LsaId) (random : Nat) : Nat :=
  ((seconds p.now - p.r.started).toNat / 10 + (Refresher.delay (p.r.lsa x) p.now random).toNat /
    10) % ospfLsaRefresherSlots

end PacedRefresher
end Zebra.Ospfd
