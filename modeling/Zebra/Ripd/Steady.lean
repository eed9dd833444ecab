import Zebra.Ripd.RouteRuns

namespace Zebra.Ripd
open Rte
open Ospfd (InAddr Dest)

inductive RipMessage where
  | add (nexthop : InAddr) (metric distance : Nat)
  | delete (nexthop : InAddr) (metric : Nat)
deriving DecidableEq

/-- The messages to zebra, the triggered updates that are requested, and whether a timeout was
  started. -/
structure RteEffects where
  sent : List RipMessage := []
  triggered : Nat := 0
  restarted : Bool := false
deriving DecidableEq

namespace Rte

def adoptGarbageEffects (rte : Rte) : RteEffects :=
  if rte.cost < ripMetricInfinity then
    { sent := [.add rte.gateway rte.cost rte.distance], triggered := 1, restarted := true }
  else { triggered := 1 }

variable (rte : Rte) (rinfo : RipInfo)

def adoptLiveEffects : RteEffects :=
  let sent := [.delete rinfo.nexthop rinfo.metric, .add rte.gateway rte.cost rte.distance]
  if rte.cost = ripMetricInfinity then
    { sent := sent ++ [.delete rte.gateway rinfo.metric], triggered := 1 }
  else { sent, triggered := 1, restarted := true }

def updateEffects : RteEffects :=
  if rte.replaces rinfo then
    if rinfo.metric = ripMetricInfinity then rte.adoptGarbageEffects else rte.adoptLiveEffects rinfo
  else {}

/-- The route is the router's own and may time out. -/
def restarts : Bool :=
  rinfo.sender = rte.sender && rinfo.metric ≠ ripMetricInfinity

end Rte

namespace Rip

def rteEffects (rip : Rip) (rte : Rte) : RteEffects :=
  if rte.accepted then
    match rip.info rte.dest with
    | none =>
      if rte.cost ≠ ripMetricInfinity then
        { sent := [.add rte.gateway rte.cost rte.distance], triggered := 1, restarted := true }
      else {}
    | some rinfo =>
      if Rte.keepsOut rinfo then {}
      else
        let effects := rte.updateEffects (rte.refreshed rinfo)
        { effects with restarted := rte.restarts rinfo || effects.restarted }
  else {}

/-- `rip_clear_changed_flag`. -/
def ripClearChangedFlag (rip : Rip) : Rip :=
  { rip with info := fun p => (rip.info p).map fun rinfo => { rinfo with changed := false } }

/-- A triggered update may go out between two entries. -/
def betweenEntries (rip : Rip) (cleared : Bool) : Rip :=
  if cleared then rip.ripClearChangedFlag else rip

variable {rip : Rip}

theorem setInfo_ne {p q} (apart : q ≠ p) (info : Option RipInfo) :
    (rip.setInfo p info).info q = rip.info q :=
  Function.update_of_ne apart _ _

/-- What zebra has after a message. -/
def hear (_ : Option ZebraRip) : RipMessage → Option ZebraRip
  | .add nexthop metric distance => some ⟨nexthop, metric, distance⟩
  | .delete _ _ => none

/-- What zebra has of the routes is what the messages tell it. -/
theorem zebra_ripRteProcess (rip : Rip) (rte : Rte) : (rip.ripRteProcess rte).zebra =
    Function.update rip.zebra rte.dest
      ((rip.rteEffects rte).sent.foldl hear (rip.zebra rte.dest)) := by
  have silent : rip.zebra = Function.update rip.zebra rte.dest (rip.zebra rte.dest) :=
    (Function.update_eq_self ..).symm
  have replaced (rinfo : RipInfo) : ((rip.lockNode rte.dest).rteUpdate rte rinfo).zebra =
      Function.update rip.zebra rte.dest
        ((rte.updateEffects rinfo).sent.foldl hear (rip.zebra rte.dest)) := by
    unfold rteUpdate updateEffects
    split
    · split
      · unfold adoptGarbage adoptGarbageEffects
        split
        · rfl
        · exact silent
      · unfold adoptLive adoptLiveEffects
        dsimp only
        split
        · simp only [setInfo, ripZebraIpv4Delete, ripZebraIpv4Add, Function.update_idem]
          rfl
        · simp only [setInfo, ripZebraIpv4Delete, ripZebraIpv4Add, Function.update_idem]
          rfl
    · exact silent
  have locked : (rip.lockNode rte.dest).info = rip.info := rfl
  unfold ripRteProcess rteEffects
  dsimp only
  rw [locked]
  split
  · cases rip.info rte.dest with
    | none =>
      dsimp only
      split
      · rfl
      · exact silent
    | some rinfo =>
      dsimp only
      split
      · exact silent
      · exact replaced _
  · exact silent

end Rip

/-- All but whether the timeout runs. -/
def RipInfo.untimed (rinfo : RipInfo) : RipInfo := { rinfo with tTimeout := false }

theorem untimed_fields {rinfo other : RipInfo} (same : rinfo.untimed = other.untimed) :
    rinfo.type = other.type ∧ rinfo.subType = other.subType ∧ rinfo.metric = other.metric ∧
    rinfo.tag = other.tag ∧
      rinfo.nexthop = other.nexthop ∧ rinfo.sender = other.sender := by
  simp only [RipInfo.untimed, RipInfo.mk.injEq] at same
  obtain ⟨type, subType, metric, tag, nexthop, sender, _⟩ := same
  exact ⟨type, subType, metric, tag, nexthop, sender⟩

theorem untimed_timeoutUpdate (rinfo : RipInfo) :
    rinfo.ripTimeoutUpdate.untimed = rinfo.untimed := by
  rw [RipInfo.ripTimeoutUpdate]
  split <;> rfl

theorem untimed_refreshed (rte : Rte) (rinfo : RipInfo) :
    (rte.refreshed rinfo).untimed = rinfo.untimed := by
  rw [refreshed]
  split
  · exact untimed_timeoutUpdate rinfo
  · rfl

/-- What an entry does when it has nothing new: the timeout of the route starts anew if it is the
  router's own. -/
structure Rip.OnlyRestarts (rip : Rip) (rte : Rte) : Prop where
  sent : (rip.rteEffects rte).sent = []
  triggered : (rip.rteEffects rte).triggered = 0
  table : ∀ p, ((rip.ripRteProcess rte).info p).map RipInfo.untimed =
    (rip.info p).map RipInfo.untimed
  restarted : (rip.rteEffects rte).restarted =
    (rte.accepted && (rip.info rte.dest).any fun rinfo => !Rte.keepsOut rinfo && rte.restarts rinfo)

namespace Rte
variable {rte : Rte} {rinfo other : RipInfo}

theorem replaces_untimed (same : rinfo.untimed = other.untimed) :
    rte.replaces rinfo = rte.replaces other := by
  obtain ⟨_, _, metric, tag, nexthop, sender⟩ := untimed_fields same
  rw [replaces, replaces, metric, tag, nexthop, sender]

theorem replaces_refreshed (rte : Rte) (rinfo : RipInfo) :
    rte.replaces (rte.refreshed rinfo) = rte.replaces rinfo :=
  replaces_untimed (untimed_refreshed rte rinfo)

/-- The entry has the tag and the next hop that its route is stored with, as they are in the
  packet. -/
def Verbatim (rte : Rte) (nexthop : InAddr) : Prop :=
  ntohs rte.tag = rte.tag ∧ rte.nexthop = nexthop

/-- The entry is refused, or finds a route that it does not replace, or is stored the way it is
written. A route that stays at infinity keeps its next hop. -/
def Settles (rte : Rte) (rip : Rip) : Prop :=
  rte.accepted = false ∨
    match rip.info rte.dest with
    | none => rte.cost = ripMetricInfinity ∨ rte.Verbatim rte.gateway
    | some rinfo => keepsOut rinfo = true ∨ rte.replaces rinfo = false ∨
        rte.Verbatim (if rinfo.metric = ripMetricInfinity ∧
          rte.cost = ripMetricInfinity then rinfo.nexthop else rte.gateway)

end Rte

namespace Rip
variable {rip : Rip} {rte : Rte} {rinfo : RipInfo}

theorem OnlyRestarts.refused (refused : rte.accepted = false) : rip.OnlyRestarts rte where
  sent := by rw [rteEffects, refused, if_neg nofun]
  triggered := by rw [rteEffects, refused, if_neg nofun]
  table p := by rw [ripRteProcess, refused, if_neg nofun]
  restarted := by simp [rteEffects, refused]

theorem OnlyRestarts.missing (accepted : rte.accepted = true) (here : rip.info rte.dest = none)
    (infinite : rte.cost = ripMetricInfinity) :
    rip.OnlyRestarts rte where
  sent := by simp [rteEffects, accepted, here, infinite]
  triggered := by simp [rteEffects, accepted, here, infinite]
  table p := by simp [ripRteProcess, accepted, here, infinite]
  restarted := by simp [rteEffects, accepted, here, infinite]

section
variable (accepted : rte.accepted = true) (here : rip.info rte.dest = some rinfo)
include accepted here

theorem OnlyRestarts.kept (keeps : keepsOut rinfo = true) : rip.OnlyRestarts rte where
  sent := by simp [rteEffects, accepted, here, keeps]
  triggered := by simp [rteEffects, accepted, here, keeps]
  table p := by simp [ripRteProcess, accepted, here, keeps]
  restarted := by simp [rteEffects, accepted, here, keeps]

theorem process_some (gives : keepsOut rinfo = false) :
    rip.ripRteProcess rte =
      ((rip.lockNode rte.dest).rteUpdate rte (rte.refreshed rinfo)).routeUnlockNode rte.dest := by
  simp [ripRteProcess, accepted, here, gives]

theorem effects_some (gives : keepsOut rinfo = false) :
    rip.rteEffects rte = { rte.updateEffects (rte.refreshed rinfo) with
      restarted := rte.restarts rinfo || (rte.updateEffects (rte.refreshed rinfo)).restarted } := by
  simp [rteEffects, accepted, here, gives]

end

theorem updateEffects_replaces (replaces : rte.replaces rinfo = true) :
    (rte.updateEffects rinfo).triggered = 1 := by
  rw [updateEffects, if_pos replaces]
  split
  · rw [adoptGarbageEffects]
    split <;> rfl
  · rw [adoptLiveEffects]
    split <;> rfl

theorem onlyRestarts_some (accepted : rte.accepted = true) (here : rip.info rte.dest = some rinfo)
    (gives : keepsOut rinfo = false) :
    rip.OnlyRestarts rte ↔ rte.replaces rinfo = false := by
  constructor
  · intro only
    by_contra replaced
    have requests :=
      updateEffects_replaces (rte.replaces_refreshed rinfo ▸ Bool.eq_true_of_not_eq_false replaced)
    have none_ := only.triggered
    rw [effects_some accepted here gives] at none_
    exact absurd (requests.symm.trans none_) Nat.one_ne_zero
  · intro stays
    have same : rte.replaces (rte.refreshed rinfo) = false := by rw [replaces_refreshed, stays]
    have quiet : rte.updateEffects (rte.refreshed rinfo) = {} := by
      rw [Rte.updateEffects, same, if_neg nofun]
    have effects := effects_some accepted here gives
    rw [quiet] at effects
    refine ⟨by rw [effects], by rw [effects], fun p => ?_, by simp [effects, accepted, here, gives]⟩
    rw [process_some accepted here gives, unlockNode_info, rteUpdate, same, if_neg nofun]
    by_cases own : p = rte.dest
    · subst own
      rw [setInfo_info, here, Option.map_some, Option.map_some, untimed_refreshed]
    · rw [setInfo_ne own, lockNode_info]

/-- The route after an entry that is taken up: of the router, with the metric and tag of the
  entry. -/
structure Adopts (rte : Rte) (nexthop : InAddr) (rinfo : RipInfo) : Prop where
  sender : rinfo.sender = rte.sender
  metric : rinfo.metric = rte.cost
  tag : rinfo.tag = ntohs rte.tag
  nexthop : rinfo.nexthop = nexthop
  gives : Rte.keepsOut rinfo = false

/-- Such a route is replaced again exactly if the entry is not stored the way it is written. -/
theorem Adopts.replaces {nexthop} (adopts : Adopts rte nexthop rinfo) :
    rte.replaces rinfo = false ↔ rte.Verbatim nexthop := by
  simp [Rte.replaces, Rte.Verbatim, adopts.sender, adopts.metric, adopts.tag, adopts.nexthop]

theorem Adopts.untimed {nexthop : InAddr} {other} (adopts : Adopts rte nexthop rinfo)
    (same : rinfo.untimed = other.untimed) :
    Adopts rte nexthop other := by
  obtain ⟨type, subType, metric, tag, hop, sender⟩ := untimed_fields same
  refine ⟨sender.symm.trans adopts.sender, metric.symm.trans adopts.metric,
    tag.symm.trans adopts.tag, hop.symm.trans adopts.nexthop, ?_⟩
  have gives := adopts.gives
  rw [keepsOut] at gives ⊢
  rwa [← type, ← subType, ← metric]

theorem adopts_rteUpdate (replaces : rte.replaces rinfo = true) (gives : keepsOut rinfo = false) :
    ∃ after, (rip.rteUpdate rte rinfo).info rte.dest = some after ∧
      Adopts rte (if rinfo.metric = ripMetricInfinity ∧
        rte.cost = ripMetricInfinity then rinfo.nexthop else rte.gateway) after := by
  have bound : rte.cost ≤ ripMetricInfinity := Nat.min_le_right ..
  rw [rteUpdate, if_pos replaces]
  by_cases infinite : rinfo.metric = ripMetricInfinity
  · rw [if_pos infinite, adoptGarbage]
    by_cases less : rte.cost < ripMetricInfinity
    · rw [if_pos less, if_neg fun both => absurd both.2 (ne_of_lt less)]
      have stored : Adopts rte rte.gateway { rte.adopted rinfo with
          type := .rip, subType := .rte, tGarbageCollect := false, nexthop := rte.gateway, fib :=
            true } := ⟨rfl, rfl, rfl, rfl, rfl⟩
      exact ⟨_, setInfo_info .., stored.untimed (untimed_timeoutUpdate _).symm⟩
    · have top : rte.cost = ripMetricInfinity := by omega
      rw [if_neg less, if_pos ⟨infinite, top⟩]
      refine ⟨_, setInfo_info .., rfl, rfl, rfl, rfl, ?_⟩
      simp [keepsOut, adopted, top]
  · rw [if_neg infinite, if_neg fun both => infinite both.1, adoptLive]
    have learned : (rinfo.type ≠ .rip || rinfo.subType = .static) = false := by
      rw [Rte.keepsOut, decide_eq_true infinite, Bool.and_true] at gives
      exact gives
    by_cases top : rte.cost = ripMetricInfinity
    · rw [if_pos top]
      refine ⟨_, setInfo_info .., rfl, rfl, rfl, rfl, ?_⟩
      simp [keepsOut, adopted, top]
    · rw [if_neg top]
      have stored : Adopts rte rte.gateway { rte.adopted rinfo with
          nexthop := rte.gateway, fib := true } := by
        refine ⟨rfl, rfl, rfl, rfl, ?_⟩
        rw [keepsOut, adopted]
        rw [learned, Bool.false_and]
      exact ⟨_, setInfo_info .., stored.untimed (untimed_timeoutUpdate _).symm⟩

theorem betweenEntries_info (rip : Rip) (cleared : Bool) (p : Dest) :
    (rip.betweenEntries cleared).info p =
      (rip.info p).map fun rinfo => { rinfo with changed := rinfo.changed && !cleared } := by
  rw [betweenEntries]
  cases cleared with
  | true => simp [ripClearChangedFlag]
  | false => simp

theorem Adopts.cleared {nexthop} (adopts : Adopts rte nexthop rinfo) (changed : Bool) :
    Adopts rte nexthop { rinfo with changed } :=
  ⟨adopts.sender, adopts.metric, adopts.tag, adopts.nexthop, adopts.gives⟩

/-- An entry that was taken up has nothing new the second time exactly if it is stored the way it is
  written. -/
theorem onlyRestarts_adopts {nexthop} (accepted : rte.accepted = true) (cleared : Bool)
    (here : rip.info rte.dest = some rinfo)
    (adopts : Adopts rte nexthop rinfo) : (rip.betweenEntries cleared).OnlyRestarts rte ↔
    rte.Verbatim nexthop := by
  have still := adopts.cleared (rinfo.changed && !cleared)
  have found : (rip.betweenEntries cleared).info rte.dest =
      some { rinfo with changed := rinfo.changed && !cleared } := by
    rw [betweenEntries_info, here]
    rfl
  exact (onlyRestarts_some accepted found still.gives).trans still.replaces

/-- An entry that comes again does nothing but restart the timeout exactly if it settles. -/
theorem rip_rte_process_again (rip : Rip) (rte : Rte) (cleared : Bool) :
    ((rip.ripRteProcess rte).betweenEntries cleared).OnlyRestarts rte ↔ rte.Settles rip := by
  cases accepted : rte.accepted with
  | false => exact iff_of_true (.refused accepted) (.inl accepted)
  | true =>
    rw [Rte.Settles, accepted, or_iff_right Bool.noConfusion]
    cases here : rip.info rte.dest with
    | none =>
      by_cases infinite : rte.cost = ripMetricInfinity
      · refine iff_of_true (.missing accepted ?_ infinite) (.inl infinite)
        rw [betweenEntries_info]
        simp [ripRteProcess, accepted, here, infinite]
      · have stored : (rip.ripRteProcess rte).info rte.dest = some rte.route := by
          simp [ripRteProcess, accepted, here, infinite]
        have adopts : Adopts rte rte.gateway rte.route := by
          refine Adopts.untimed ?_ (untimed_timeoutUpdate _).symm
          exact ⟨rfl, rfl, rfl, rfl, rfl⟩
        exact (onlyRestarts_adopts accepted cleared stored adopts).trans
          (or_iff_right infinite).symm
    | some rinfo =>
      dsimp only
      cases gives : keepsOut rinfo with
      | true =>
        refine iff_of_true ?_ (.inl rfl)
        have found : ((rip.ripRteProcess rte).betweenEntries cleared).info rte.dest =
            some { rinfo with changed := rinfo.changed && !cleared } := by
          rw [betweenEntries_info]
          simp [ripRteProcess, accepted, here, gives]
        exact .kept accepted found gives
      | false =>
        have ran := process_some accepted here gives
        cases replaced : rte.replaces rinfo with
        | false =>
          refine iff_of_true ?_ (.inr (.inl rfl))
          have same : rte.replaces (rte.refreshed rinfo) = false := by
            rw [replaces_refreshed, replaced]
          have kept : (rip.ripRteProcess rte).info rte.dest = some (rte.refreshed rinfo) := by
            rw [ran, unlockNode_info, rteUpdate, same, if_neg Bool.false_ne_true, setInfo_info]
          have found : ((rip.ripRteProcess rte).betweenEntries cleared).info rte.dest =
              some { rte.refreshed rinfo with
                changed := (rte.refreshed rinfo).changed && !cleared } := by
            rw [betweenEntries_info, kept]
            rfl
          obtain ⟨type, subType, metric, -, -, -⟩ := untimed_fields (untimed_refreshed rte rinfo)
          refine (onlyRestarts_some accepted found ?_).mpr same
          dsimp only
          rwa [type, subType, metric]
        | true =>
          have same : rte.replaces (rte.refreshed rinfo) = true := by
            rw [replaces_refreshed, replaced]
          obtain ⟨type, subType, metric, -, nexthop, -⟩ :=
            untimed_fields (untimed_refreshed rte rinfo)
          have gives' : keepsOut (rte.refreshed rinfo) = false := by
            rw [keepsOut] at gives ⊢
            rwa [type, subType, metric]
          obtain ⟨after, stored, adopts⟩ := adopts_rteUpdate same gives'
          rw [metric, nexthop] at adopts
          have found : (rip.ripRteProcess rte).info rte.dest = some after := by
            rw [ran]
            exact stored
          rw [onlyRestarts_adopts accepted cleared found adopts]
          simp

/-- An entry without a next hop of its own, from 10.0.0.2. -/
def periodicRte : Rte where
  addr := 0x0a010000
  mask := 0xffff0000
  nexthop := 0
  metric := 1
  tag := 0
  sender := 0x0a000002
  ifindex := 1
  ifMetric := 1
  filtered := false
  offset := none
  locals := [0x0a000001]
  distance := 120
  valid := by decide +kernel

/-- The route is withdrawn from zebra and added again, and an update is triggered. -/
theorem rip_periodic_update_changes :
    (({} : Rip).ripRteProcess periodicRte).rteEffects periodicRte =
        { sent := [.delete 0x0a000002 2, .add 0x0a000002 2 120], triggered := 1,
          restarted := true } ∧
      ¬ ((({} : Rip).ripRteProcess periodicRte).betweenEntries true).OnlyRestarts periodicRte := by
  refine ⟨by decide +kernel, fun only => ?_⟩
  have requests :
      ((({} : Rip).ripRteProcess periodicRte).betweenEntries true |>.rteEffects
      periodicRte).triggered = 1 := by
    decide +kernel
  exact absurd (requests.symm.trans only.triggered) Nat.one_ne_zero

end Rip
end Zebra.Ripd
