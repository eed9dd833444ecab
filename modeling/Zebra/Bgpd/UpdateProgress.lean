import Zebra.Bgpd.UpdateReceive

namespace Zebra.Bgpd
open Base List Option Function Rib
namespace Daemon

/-- What may be new in the RIBs. -/
abbrev Bringing := AddressFamily → NlriKey → Attr → Prop

/-- What a step does that brings in no route of the message by itself. -/
structure Moves (speaker : Speaker) (brings : Bringing) (before after : Daemon) : Prop where
  routes : after.routes = before.routes
  origin : ∀ family key, ∀ holding ∈ ((after.rib family).node key).holdings,
    holding ∈ ((before.rib family).node key).holdings ∨ brings family key holding.2 ∨
      ∃ summary, holding.2 = bgpAttrAggregate speaker.bgp summary

section Moves
variable {speaker : Speaker} {peer : PeerId} {meets : Nat → Circumstances} {brings : Bringing}
  {daemon before middle after : Daemon}

theorem Moves.refl (brings : Bringing) (daemon : Daemon) : Moves speaker brings daemon daemon :=
  ⟨rfl, fun _ _ _ there => Or.inl there⟩

theorem Moves.trans (first : Moves speaker brings before middle)
    (second : Moves speaker brings middle after) :
    Moves speaker brings before after where
  routes := second.routes.trans first.routes
  origin family key holding member := by
    rcases second.origin family key holding member with there | brought
    · exact first.origin family key holding there
    · exact Or.inr brought

theorem Moves.of_same (rib : after.rib = before.rib) (routes : after.routes = before.routes) :
    Moves speaker brings before after where
  routes := routes
  origin family key holding member := by
    rw [rib] at member
    exact Or.inl member

section
variable (family : AddressFamily)

theorem call_moves (op : Op NlriKey)
    (weaker : ∀ key holding, Brings (speaker.view family) op key holding →
      brings family key holding.2 ∨ ∃ summary, holding.2 = bgpAttrAggregate speaker.bgp summary) :
    Moves speaker brings daemon (daemon.call speaker family op) := by
  have settles := step_draws (speaker.view family) speaker.damp (speaker.aggregates family)
    (daemon.rib family) op
  have own : (daemon.call speaker family op).rib family =
      (daemon.rib family).step (speaker.view family) speaker.damp (speaker.aggregates family) op :=
    update_self ..
  refine ⟨rfl, fun place key holding member => ?_⟩
  by_cases same : place = family
  · subst same
    rw [own] at member
    exact (settles key holding member).imp_right (weaker key holding)
  · have other : (daemon.call speaker family op).rib place = daemon.rib place :=
      update_of_ne same ..
    rw [other] at member
    exact Or.inl member

theorem calls_moves (ops : List (Op NlriKey))
    (weaker : ∀ op ∈ ops, ∀ key holding, Brings (speaker.view family) op key holding →
      brings family key holding.2 ∨ ∃ summary, holding.2 = bgpAttrAggregate speaker.bgp summary) :
    Moves speaker brings daemon (ops.foldl (call speaker family) daemon) := by
  induction ops generalizing daemon with
  | nil => exact Moves.refl brings daemon
  | cons op rest ih =>
    exact (call_moves family op (weaker op (mem_cons_self ..))).trans
      (ih fun later member => weaker later (.tail _ member))

theorem perform_moves (op : Op NlriKey)
    (weaker : ∀ key holding, Brings (speaker.view family) op key holding →
      brings family key holding.2) :
    Moves speaker brings daemon (daemon.perform speaker meets family op) := by
  have counted : Moves speaker brings daemon { daemon with calls := daemon.calls + 1 } :=
    .of_same rfl rfl
  refine counted.trans (calls_moves family _ fun later member key holding brought => ?_)
  rcases mem_cons.mp member with rfl | summarised
  · exact Or.inl (weaker key holding brought)
  · obtain ⟨⟨place, summary⟩, -, rfl⟩ := mem_map.mp summarised
    obtain ⟨found, -, result⟩ := map_eq_some_iff.mp brought.2.2
    exact Or.inr ⟨found, result.symm⟩

theorem bgpClearRoute_moves :
    Moves speaker brings daemon (daemon.bgpClearRoute speaker peer meets family) :=
  perform_moves family _ fun _ _ none => False.elim none

end

theorem resetLimits_moves : Moves speaker brings daemon (daemon.resetLimits peer) where
  routes := rfl
  origin _ _ _ member := Or.inl member

theorem clearAll_moves (families : List AddressFamily) :
    Moves speaker brings daemon
      (families.foldl
        (fun daemon family => daemon.bgpClearRoute speaker peer meets family) daemon) := by
  induction families generalizing daemon with
  | nil => exact Moves.refl brings daemon
  | cons family rest ih => exact (bgpClearRoute_moves family).trans ih

/-- A session that ends takes its routes along. -/
theorem bgpStop_moves : Moves speaker brings daemon (daemon.bgpStop speaker peer meets) := by
  unfold bgpStop
  split
  · refine Moves.trans ?_ ((clearAll_moves _).trans resetLimits_moves)
    exact .of_same rfl rfl
  · exact resetLimits_moves

theorem bgpClearStaleRoute_moves (family : AddressFamily) :
    Moves speaker brings daemon (daemon.bgpClearStaleRoute speaker peer meets family) :=
  perform_moves family _ fun _ _ none => False.elim none

end Moves

/-- What processing does: routes are let in one by one, and what is new in the RIBs
comes from one of them or from an aggregate. -/
structure Progress (speaker : Speaker) (lets : Route → Prop) (before after : Daemon) : Prop where
  kept : ∀ route ∈ before.routes, route ∈ after.routes
  routes : ∀ route ∈ after.routes, route ∈ before.routes ∨ lets route
  origin : ∀ family key, ∀ holding ∈ ((after.rib family).node key).holdings,
    holding ∈ ((before.rib family).node key).holdings ∨
      (∃ route ∈ after.routes, route.family = family ∧ route.key = key ∧ route.attr = holding.2) ∨
      ∃ summary, holding.2 = bgpAttrAggregate speaker.bgp summary

section Progress
variable {speaker : Speaker} {peer : PeerId} {meets : Nat → Circumstances} {lets : Route → Prop}
  {daemon before middle after : Daemon}

theorem Progress.of_moves (moves : Moves speaker (fun _ _ _ => False) before after) :
    Progress speaker lets before after where
  kept _ member := moves.routes ▸ member
  routes _ member := Or.inl (moves.routes ▸ member)
  origin family key holding member :=
    (moves.origin family key holding member).imp_right (Or.imp_left False.elim)

theorem Progress.refl (daemon : Daemon) : Progress speaker lets daemon daemon :=
  .of_moves (Moves.refl _ daemon)

theorem Progress.trans (first : Progress speaker lets before middle)
    (second : Progress speaker lets middle after) :
    Progress speaker lets before after where
  kept route member := second.kept route (first.kept route member)
  routes route member := by
    rcases second.routes route member with there | allowed
    · exact first.routes route there
    · exact Or.inr allowed
  origin family key holding member := by
    rcases second.origin family key holding member with there | brought
    · refine (first.origin family key holding there).imp_right
        (Or.imp_left fun ⟨route, routed, same⟩ => ?_)
      exact ⟨route, second.kept route routed, same⟩
    · exact Or.inr brought

theorem Progress.mono {wider} (progress : Progress speaker lets before after)
    (weaker : ∀ route, lets route → wider route) : Progress speaker wider before after :=
  { progress with
    routes := fun route member => (progress.routes route member).imp_right (weaker route) }

/-- A route that `bgp_update` has let in with these attributes. -/
def LetIn (speaker : Speaker) (peer : PeerId) (meets : Nat → Circumstances) (family : AddressFamily)
    (multiprotocol : Bool) (attr : Attr) (route : Route) : Prop :=
  route.family = family ∧ route.multiprotocol = multiprotocol ∧ ∃ call,
    acceptUpdate (speaker.view route.family) ((speaker.view route.family).peer peer)
      (meets call).env attr =
      some route.attr

theorem Progress.of_update {family multiprotocol attr key call} {accepted}
    (decided : acceptUpdate (speaker.view family) ((speaker.view family).peer peer)
      (meets call).env attr = accepted)
    (moves : Moves speaker
      (fun place other attrNew => place = family ∧ other = key ∧ accepted = some attrNew)
      before after) :
    Progress speaker (LetIn speaker peer meets family multiprotocol attr) before { after with
      routes := (accepted.map fun attrNew => ⟨family, key, multiprotocol, attrNew⟩).toList ++
        after.routes } where
  kept _ member := mem_append_right _ (moves.routes ▸ member)
  routes route member := by
    rcases mem_append.mp member with new | old
    · obtain ⟨attrNew, found, rfl⟩ := map_eq_some_iff.mp (mem_toList.mp new)
      exact Or.inr ⟨rfl, rfl, call, decided.trans found⟩
    · exact Or.inl (moves.routes ▸ old)
  origin place other holding member := by
    refine (moves.origin place other holding member).imp_right (Or.imp_left ?_)
    rintro ⟨rfl, rfl, found⟩
    refine ⟨⟨place, other, multiprotocol, holding.2⟩, mem_append_left _ ?_, rfl, rfl, rfl⟩
    rw [found]
    exact mem_singleton_self _

section
variable (family : AddressFamily) (multiprotocol : Bool) (attr : Attr) (key : NlriKey)

theorem storeRoute_progress :
    Progress speaker (LetIn speaker peer meets family multiprotocol attr) daemon
      (daemon.storeRoute speaker peer meets family multiprotocol attr key) := by
  refine Progress.of_update rfl (perform_moves family _ fun other holding brought => ?_)
  exact ⟨rfl, brought.1, brought.2.2⟩

theorem bgpUpdate_progress :
    Progress speaker (LetIn speaker peer meets family multiprotocol attr) daemon
      (daemon.bgpUpdate speaker peer meets family multiprotocol attr key).2 := by
  unfold bgpUpdate
  split
  · exact (storeRoute_progress family multiprotocol attr key).trans (.of_moves bgpStop_moves)
  · exact storeRoute_progress family multiprotocol attr key

end

theorem bgpWithdraw_progress (family : AddressFamily) (key : NlriKey) :
    Progress speaker lets daemon (daemon.bgpWithdraw speaker peer meets family key).2 :=
  .of_moves (perform_moves family _ fun _ _ none => False.elim none)

section Nlri
variable {data : List Octet} {multiprotocol : Bool} {attr : Option Attr} {family : AddressFamily}
  (update : ∀ given, attr = some given → ∀ route,
    LetIn speaker peer meets family multiprotocol given route → lets route)
include update

theorem receivePrefix_progress (key : NlriKey) :
    Progress speaker lets daemon
      (daemon.receivePrefix speaker peer meets family multiprotocol attr key).2 := by
  cases attr with
  | none => exact bgpWithdraw_progress family key
  | some given => exact (bgpUpdate_progress family multiprotocol given key).mono (update given rfl)

theorem nlriParseLoop_progress (lim fuel pnt : Nat) :
    Progress speaker lets daemon
      (nlriParseLoop speaker peer meets data family multiprotocol attr lim fuel pnt daemon) := by
  induction fuel generalizing pnt daemon with
  | zero => exact Progress.refl daemon
  | succ fuel ih =>
    unfold nlriParseLoop
    dsimp only
    split
    · exact Progress.refl daemon
    split
    · exact Progress.refl daemon
    split
    · exact Progress.refl daemon
    split
    · exact .of_moves bgpStop_moves
    split
    · exact ih _
    · generalize ({ bits := _ } : NlriKey) = key
      have received : Progress speaker lets daemon
          (daemon.receivePrefix speaker peer meets family multiprotocol attr key).2 :=
        receivePrefix_progress update key
      split
      · rename_i refused
        rw [refused] at received
        exact received
      · rename_i accepted
        rw [accepted] at received
        exact received.trans (ih _)

omit update in
theorem nlriParseVpnv4Loop_progress
    (update : ∀ given, attr = some given → ∀ route,
      LetIn speaker peer meets .ipVpn multiprotocol given route → lets route) (lim fuel pnt : Nat) :
    Progress speaker lets daemon
      (nlriParseVpnv4Loop speaker peer meets data multiprotocol attr lim fuel pnt daemon) := by
  induction fuel generalizing pnt daemon with
  | zero => exact Progress.refl daemon
  | succ fuel ih =>
    unfold nlriParseVpnv4Loop
    dsimp only
    split
    · exact Progress.refl daemon
    split
    · exact Progress.refl daemon
    split
    · exact Progress.refl daemon
    split
    · exact Progress.refl daemon
    · exact (receivePrefix_progress update _).trans (ih _)

theorem bgpNlriParse_progress (packet : Nlri) :
    Progress speaker lets daemon
      (daemon.bgpNlriParse speaker peer meets data family multiprotocol attr packet) := by
  unfold bgpNlriParse
  split
  · exact Progress.refl daemon
  split
  · rename_i vpn
    exact nlriParseVpnv4Loop_progress (vpn ▸ update) ..
  · exact nlriParseLoop_progress update ..

end Nlri
end Progress

section Process
variable {speaker : Speaker} {peer : PeerId} {meets : Nat → Circumstances} {data : List Octet}
  {message : Message} {daemon : Daemon}

/-- MP_REACH_NLRI of a message that is processed: there is some, for a family that is configured. -/
def Reaches (speaker : Speaker) (peer : PeerId) (message : Message)
    (family : AddressFamily) : Prop :=
  (speaker.peerFamily family peer).afc = true ∧ message.parsed.mpUpdate.length ≠ 0 ∧
    family.carries message.parsed.mpUpdate = true

/-- The routes that a message may bring in: in multiprotocol attributes that are processed, or with
all well-known attributes. -/
def Admits (speaker : Speaker) (peer : PeerId) (meets : Nat → Circumstances) (message : Message)
    (route : Route) :
    Prop :=
  (∃ call, acceptUpdate (speaker.view route.family) ((speaker.view route.family).peer peer)
    (meets call).env
    message.parsed.attr = some route.attr) ∧
  (route.multiprotocol = false →
    missingAttr speaker.bgp (speaker.bgp.peer peer) message.parsed.attr = none) ∧
  (route.multiprotocol = true → Reaches speaker peer message route.family)

section
variable (family : AddressFamily)

theorem processMp_progress (configured : (speaker.peerFamily family peer).afc = true) :
    Progress speaker (Admits speaker peer meets message) daemon
      (daemon.processMp speaker peer meets data message family) := by
  unfold processMp
  dsimp only
  have updated : Progress speaker (Admits speaker peer meets message) daemon
      (if message.parsed.mpUpdate.length ≠ 0 ∧ family.carries message.parsed.mpUpdate then
        daemon.bgpNlriParse speaker peer meets data family true
          (some message.parsed.attr) message.parsed.mpUpdate
      else daemon) := by
    split
    · rename_i reaches
      refine bgpNlriParse_progress (fun given own route letIn => ?_) _
      cases own
      obtain ⟨rfl, multiprotocol, accepted⟩ := letIn
      refine ⟨accepted, fun plain => ?_, fun _ => ⟨configured, reaches⟩⟩
      rw [multiprotocol] at plain
      cases plain
    · exact Progress.refl daemon
  split
  · exact updated.trans (bgpNlriParse_progress (by rintro _ ⟨⟩) _)
  · exact updated

theorem endOfRib_progress {lets} :
    Progress speaker lets daemon (daemon.endOfRib speaker peer meets family) := by
  unfold endOfRib
  split
  · exact .of_moves (bgpClearStaleRoute_moves family)
  · exact Progress.refl daemon

theorem processFamily_progress :
    Progress speaker (Admits speaker peer meets message) daemon
      (daemon.processFamily speaker peer meets data message family) := by
  unfold processFamily
  dsimp only
  split
  · rename_i configured
    split
    · exact (processMp_progress family configured).trans (endOfRib_progress family)
    · exact processMp_progress family configured
  · exact Progress.refl daemon

end

theorem processRest_progress :
    Progress speaker (Admits speaker peer meets message) daemon
      (daemon.processRest speaker peer meets data message) := by
  unfold processRest
  generalize [AddressFamily.ipMulticast, .ip6Unicast, .ip6Multicast, .ipVpn] = families
  induction families generalizing daemon with
  | nil => exact Progress.refl daemon
  | cons family rest ih => exact (processFamily_progress family).trans ih

theorem processNlri_progress :
    Progress speaker (Admits speaker peer meets message) daemon
      (daemon.processNlri speaker peer meets data message).2 := by
  unfold processNlri
  split
  · exact Progress.refl daemon
  split
  · exact .of_moves bgpStop_moves
  · rename_i complete
    refine bgpNlriParse_progress (fun given own route letIn => ?_) _
    cases own
    obtain ⟨-, plain, accepted⟩ := letIn
    refine ⟨accepted, fun _ => by simpa using complete, fun multiprotocol => ?_⟩
    rw [plain] at multiprotocol
    cases multiprotocol

theorem processWithdraw_progress {lets} :
    Progress speaker lets daemon (daemon.processWithdraw speaker peer meets data message) := by
  unfold processWithdraw
  split
  · exact bgpNlriParse_progress (by rintro _ ⟨⟩) _
  · exact Progress.refl daemon

theorem processIpRest_progress (configured : (speaker.peerFamily .ipUnicast peer).afc = true) :
    Progress speaker (Admits speaker peer meets message) daemon
      (daemon.processIpRest speaker peer meets data message) := by
  unfold processIpRest
  split
  · exact (processMp_progress .ipUnicast configured).trans (endOfRib_progress .ipUnicast)
  · exact processMp_progress .ipUnicast configured

theorem processIp_progress :
    Progress speaker (Admits speaker peer meets message) daemon
      (daemon.processIp speaker peer meets data message).2 := by
  unfold processIp
  split
  · rename_i configured
    have received : Progress speaker (Admits speaker peer meets message) daemon
        ((daemon.processWithdraw speaker peer meets data message).processNlri speaker peer meets
          data message).2 :=
      processWithdraw_progress.trans processNlri_progress
    split
    · rename_i refused
      rw [refused] at received
      exact received
    · rename_i accepted
      rw [accepted] at received
      exact received.trans (processIpRest_progress configured)
  · exact Progress.refl daemon

end Process
end Daemon
end Zebra.Bgpd
