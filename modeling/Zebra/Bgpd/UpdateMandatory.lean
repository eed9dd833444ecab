import Zebra.Bgpd.AttrRecord
import Zebra.Bgpd.UpdateProgress

namespace Zebra.Bgpd
open Base Reader AttrHeader Option
namespace Daemon

/-- What an inbound route map leaves alone (bgpd/bgp_routemap.c): no set clause takes a
well-known attribute away, and none gives ORIGIN or AS_PATH to a route without it. -/
structure RouteMapKeeps (env : Environment) : Prop where
  origin : ∀ attr attrNew, env.inputModifier attr = some attrNew →
    attrNew.has .origin = attr.has .origin
  asPath : ∀ attr attrNew, env.inputModifier attr = some attrNew →
    attrNew.has .asPath = attr.has .asPath
  aspath : ∀ attr attrNew, env.inputModifier attr = some attrNew →
    attrNew.aspath.isSome = attr.aspath.isSome
  nextHop : ∀ attr attrNew, env.inputModifier attr = some attrNew →
    attr.has .nextHop = true → attrNew.has .nextHop = true
  localPref : ∀ attr attrNew, env.inputModifier attr = some attrNew →
    attr.has .localPref = true → attrNew.has .localPref = true

/-- The route map gives every route a LOCAL_PREF. -/
def SetsLocalPref (env : Environment) : Prop :=
  ∀ attr attrNew, env.inputModifier attr = some attrNew → attrNew.has .localPref = true

/-- An AS path and the marks of ORIGIN and AS_PATH. -/
def WellKnown (attr : Attr) : Prop :=
  attr.aspath.isSome = true ∧ attr.has .origin = true ∧ attr.has .asPath = true

instance (attr : Attr) : Decidable (WellKnown attr) :=
  inferInstanceAs (Decidable (_ ∧ _))

section Complete
variable (speaker : Speaker) (peer : PeerId)

/-- All well-known mandatory attributes: next hops of multiprotocol routes come with
them, and LOCAL_PREF is for peers inside the AS. -/
def Complete (route : Route) : Prop :=
  WellKnown route.attr ∧ (route.multiprotocol = false → route.attr.has .nextHop = true) ∧
    (peerSort speaker.bgp (speaker.bgp.peer peer) = .ibgp → route.attr.has .localPref = true)

/-- What a message has installed has its mandatory attributes: the routes that were let
in, and every path that was not there before. -/
structure InstallsMandatory (before after : Daemon) : Prop where
  routes : ∀ route ∈ after.routes, Complete speaker peer route
  paths : ∀ family key, ∀ holding ∈ ((after.rib family).node key).holdings,
    holding ∈ ((before.rib family).node key).holdings ∨ WellKnown holding.2

end Complete

/-- The attribute types of the message at `start`. -/
def messageTypes (data : List Octet) (start : Nat) : List Octet :=
  let place := start + 2 + (field data start 2).toNat
  let attributeLen := (field data place 2).toNat
  (attrHeaders data (place + 2 + attributeLen) attributeLen (place + 2)).map AttrHeader.type

/-- The message, if it can be read. -/
def messageOf (speaker : Speaker) (peer : PeerId) (data : List Octet) (start size : Nat)
    (refs : Refs) :
    Option Message :=
  match ((readUpdate speaker.bgp (speaker.bgp.peer peer) (start + size)).run data
    (messageCursor start size refs)).1 with
  | .ok message => some message
  | .error _ => none

/-- MP_REACH_NLRI that is processed, and that a filter and route map may let in, comes with ORIGIN
and AS_PATH and, inside the AS, with LOCAL_PREF or a route map that sets it. -/
def Accompanied (speaker : Speaker) (peer : PeerId) (meets : Nat → Circumstances)
    (data : List Octet) (start size : Nat) (refs : Refs) : Prop :=
  ∀ message ∈ messageOf speaker peer data start size refs, ∀ family,
    Reaches speaker peer message family → ∀ call,
    (acceptUpdate (speaker.view family) ((speaker.view family).peer peer) (meets call).env
      message.parsed.attr).isSome = true →
    1 ∈ messageTypes data start ∧ 2 ∈ messageTypes data start ∧
      (peerSort speaker.bgp (speaker.bgp.peer peer) = .ibgp →
        5 ∈ messageTypes data start ∨ SetsLocalPref (meets call).env)

section Accept
variable {bgp : Bgp} {peer : Peer} {env : Environment} {attr attrNew : Attr}

theorem acceptUpdate_modified (accepted : acceptUpdate bgp peer env attr = some attrNew) :
    env.inputModifier attr = some attrNew := by
  unfold acceptUpdate at accepted
  simp only [ite_none_left_eq_some] at accepted
  obtain ⟨-, -, -, -, -, passed⟩ := accepted
  obtain ⟨modified, found, checked⟩ := bind_eq_some_iff.mp passed
  rw [found]
  split at checked
  · simp only [ite_none_left_eq_some] at checked
    exact checked.2.2
  · exact checked

theorem missingAttr_eq_none : missingAttr bgp peer attr = none ↔
    attr.has .origin = true ∧ attr.has .asPath = true ∧ attr.has .nextHop = true ∧
      (peerSort bgp peer = .ibgp → attr.has .localPref = true) := by
  unfold missingAttr
  by_cases inside : peerSort bgp peer = .ibgp <;> cases attr.has .origin <;>
    cases attr.has .asPath <;>
    cases attr.has .nextHop <;> cases attr.has .localPref <;> simp [inside]

end Accept

section Keeps
variable {speaker : Speaker} {peer : PeerId} {meets : Nat → Circumstances} {message : Message}
  {route : Route} (keeps : ∀ call, RouteMapKeeps (meets call).env)
include keeps

/-- ORIGIN, AS_PATH and the path itself are those of the message. -/
theorem wellKnown_iff (admitted : Admits speaker peer meets message route) :
    WellKnown route.attr ↔ WellKnown message.parsed.attr := by
  obtain ⟨⟨call, accepted⟩, -⟩ := admitted
  have modified := acceptUpdate_modified accepted
  rw [WellKnown, (keeps call).aspath _ _ modified, (keeps call).origin _ _ modified,
    (keeps call).asPath _ _ modified, WellKnown]

/-- Where the well-known attributes are checked, they reach the RIB. -/
theorem complete_of_checked (admitted : Admits speaker peer meets message route)
    (own : route.multiprotocol = false)
    (present : message.parsed.attr.has .asPath = message.parsed.attr.aspath.isSome) :
    Complete speaker peer route := by
  have known := wellKnown_iff keeps admitted
  obtain ⟨⟨call, accepted⟩, checked, -⟩ := admitted
  have modified := acceptUpdate_modified accepted
  obtain ⟨origin, asPath, nextHop, localPref⟩ := missingAttr_eq_none.mp (checked own)
  refine ⟨known.mpr ⟨present ▸ asPath, origin, asPath⟩, fun _ => ?_, fun inside => ?_⟩
  · exact (keeps call).nextHop _ _ modified nextHop
  · exact (keeps call).localPref _ _ modified (localPref inside)

end Keeps

section Types
variable {bgp : Bgp} {peer : Peer} {data : List Octet} {cursor after : Cursor Refs} {endp : Nat}

theorem takeLength_ok {length} (ran : (takeLength endp).run data cursor = (.ok length, after)) :
    length = (field data cursor.getp 2).toNat ∧ after.getp = cursor.getp + 2 := by
  unfold takeLength at ran
  rw [run_bind_ok run_getp] at ran
  split at ran
  · cases ran
  · rw [run_bind_ok (run_number 2)] at ran
    split at ran
    · cases ran
    · cases ran
      exact ⟨rfl, rfl⟩

theorem nlriSanityLoop_getp {afi stop fuel pnt checked}
    (ran : (nlriSanityLoop afi stop fuel pnt).run data cursor = (.ok checked, after)) :
    after.getp = cursor.getp := by
  induction fuel generalizing pnt cursor with
  | zero =>
    cases ran
    rfl
  | succ fuel ih =>
    unfold nlriSanityLoop at ran
    split at ran
    · rw [run_bind_ok (run_peek ..)] at ran
      dsimp only at ran
      split at ran
      · cases ran
      · split at ran
        · cases ran
        · have moved := ih ran
          exact moved
    · cases ran
      rfl

theorem takeIpNlri_ok {length nlri}
    (ran : (takeIpNlri length).run data cursor = (.ok nlri, after)) :
    after.getp = cursor.getp + length := by
  unfold takeIpNlri at ran
  split at ran
  · rename_i none
    cases ran
    rw [none]
    rfl
  · rw [run_bind_ok run_getp] at ran
    obtain ⟨checked, middle, sane, rest⟩ := run_bind_eq_ok ran
    cases rest
    exact congrArg (· + length) (nlriSanityLoop_getp sane)

theorem takeAttributes_recorded {attributeLen parsed}
    (ran : (takeAttributes bgp peer attributeLen).run data cursor = (.ok parsed, after)) :
    Recorded (listens bgp peer)
    (attrHeaders data (cursor.getp + attributeLen) attributeLen cursor.getp) parsed := by
  unfold takeAttributes at ran
  split at ran
  · rename_i none
    cases ran
    rw [none]
    exact recorded_nil
  · exact bgpAttrParse_recorded ran

theorem readUpdate_types {message}
    (ran : (readUpdate bgp peer endp).run data cursor = (.ok message, after)) :
    ∃ headers, Recorded (listens bgp peer) headers message.parsed ∧
      headers.map type = messageTypes data cursor.getp := by
  obtain ⟨⟨withdraw, attributeLen⟩, first, head, rest⟩ := run_bind_eq_ok ran
  obtain ⟨parsed, second, attributes, rest⟩ := run_bind_eq_ok rest
  obtain ⟨update, third, nlri, rest⟩ := run_bind_eq_ok rest
  cases rest
  obtain ⟨withdrawLen, afterLength, length, rest⟩ := run_bind_eq_ok head
  obtain ⟨routes, afterRoutes, taken, rest⟩ := run_bind_eq_ok rest
  obtain ⟨attrLength, afterHead, last, rest⟩ := run_bind_eq_ok rest
  cases rest
  refine ⟨_, takeAttributes_recorded attributes, ?_⟩
  obtain ⟨rfl, moved⟩ := takeLength_ok length
  obtain ⟨rfl, ends⟩ := takeLength_ok last
  rw [messageTypes, ends, takeIpNlri_ok taken, moved]

/-- What the attribute types of a message say of the attributes that are read from it. -/
theorem messageOf_types {speaker : Speaker} {peer : PeerId} {start size : Nat} {refs : Refs}
    {message : Message} (read : messageOf speaker peer data start size refs = some message) :
    (message.parsed.attr.has .origin = true ↔ 1 ∈ messageTypes data start) ∧
      (message.parsed.attr.has .asPath = true ↔ 2 ∈ messageTypes data start) ∧
      message.parsed.attr.has .asPath = message.parsed.attr.aspath.isSome ∧
      (peerSort speaker.bgp (speaker.bgp.peer peer) = .ibgp → 5 ∈ messageTypes data start →
        message.parsed.attr.has .localPref = true) := by
  unfold messageOf at read
  split at read
  · rename_i found ran
    cases read
    obtain ⟨headers, recorded, types⟩ := readUpdate_types (Prod.ext ran rfl)
    have types : headers.map type = messageTypes data start := types
    rw [← types]
    refine ⟨?_, ?_, (recorded .asPath).trans (recorded .aspath).symm, fun internal known => ?_⟩
    · rw [show message.parsed.attr.has .origin = message.parsed.attr.bears .origin from
        rfl, recorded]
      simp [brings]
    · rw [show message.parsed.attr.has .asPath = message.parsed.attr.bears .asPath from
        rfl, recorded]
      simp [brings]
    · obtain ⟨header, member, code⟩ := List.mem_map.mp known
      rw [show message.parsed.attr.has .localPref = message.parsed.attr.bears .localPref from
        rfl, recorded]
      refine List.any_eq_true.mpr ⟨header, member, ?_⟩
      simp [brings, listens, internal, code]
  · cases read

end Types

theorem bgpAttrAggregate_wellKnown (bgp : Bgp) (summary : Summary) :
    WellKnown (bgpAttrAggregate bgp summary) := by
  unfold bgpAttrAggregate WellKnown
  cases summary.community.isSome <;> cases summary.asSet <;> simp [Attr.mark, Attr.has] <;> decide

section Installs
variable (speaker : Speaker) (peer : PeerId) (meets : Nat → Circumstances) (data : List Octet)
  (start size : Nat) (daemon : Daemon)

theorem process_installs (message : Message) (fresh : daemon.routes = []) :
    let after := (daemon.process speaker peer meets data message).2
    (∀ route ∈ after.routes, Admits speaker peer meets message route) ∧
    ∀ family key, ∀ holding ∈ ((after.rib family).node key).holdings,
      holding ∈ ((daemon.rib family).node key).holdings ∨
        (∃ route ∈ after.routes, route.attr = holding.2) ∨
        ∃ summary, holding.2 = bgpAttrAggregate speaker.bgp summary := by
  have installed : ∀ after, Progress speaker (Admits speaker peer meets message) daemon after →
      (∀ route ∈ after.routes, Admits speaker peer meets message route) ∧
      ∀ family key, ∀ holding ∈ ((after.rib family).node key).holdings,
        holding ∈ ((daemon.rib family).node key).holdings ∨
          (∃ route ∈ after.routes, route.attr = holding.2) ∨
          ∃ summary, holding.2 = bgpAttrAggregate speaker.bgp summary := by
    intro after progress
    refine ⟨fun route member => ?_, fun family key holding member => ?_⟩
    · refine (progress.routes route member).resolve_left fun old => ?_
      rw [fresh] at old
      cases old
    · refine (progress.origin family key holding member).imp_right (Or.imp_left ?_)
      exact fun ⟨route, routed, _, _, same⟩ => ⟨route, routed, same⟩
  have progress : Progress speaker (Admits speaker peer meets message) daemon
      (daemon.processIp speaker peer meets data message).2 := processIp_progress
  unfold process
  cases ran : daemon.processIp speaker peer meets data message with
  | mk success middle =>
    rw [ran] at progress
    cases success with
    | false => exact installed middle progress
    | true =>
      have rest : Progress speaker (Admits speaker peer meets message) middle
          (middle.processRest speaker peer meets data message) := processRest_progress
      exact installed (middle.processRest speaker peer meets data message) (progress.trans rest)

theorem moves_installs (before after : Daemon)
    (moves : Moves speaker (fun _ _ _ => False) before after)
    (fresh : before.routes = []) : after.routes = [] ∧
    ∀ family key, ∀ holding ∈ ((after.rib family).node key).holdings,
      holding ∈ ((before.rib family).node key).holdings ∨ WellKnown holding.2 := by
  refine ⟨moves.routes.trans fresh, fun family key holding member => ?_⟩
  refine (moves.origin family key holding member).imp_right fun brought => ?_
  obtain ⟨summary, same⟩ := brought.resolve_left id
  rw [same]
  exact bgpAttrAggregate_wellKnown ..

theorem afterFailure_moves (failure : Failure) :
    Moves speaker (fun _ _ _ => False) daemon (daemon.afterFailure speaker peer meets failure) := by
  unfold afterFailure
  split
  · exact bgpStop_moves
  · exact Moves.refl _ _

theorem bgpUpdateReceive_cases (refs : Refs) :
    ((daemon.bgpUpdateReceive speaker peer meets data start size refs).2.routes = [] ∧
      ∀ family key, ∀ holding ∈
          (((daemon.bgpUpdateReceive speaker peer meets data start size refs).2.rib family).node
            key).holdings,
        holding ∈ ((daemon.rib family).node key).holdings ∨ WellKnown holding.2) ∨
    ∃ message ∈ messageOf speaker peer data start size refs,
      daemon.bgpUpdateReceive speaker peer meets data start size refs =
        { daemon with routes := [] }.process speaker peer meets data message := by
  let before := { daemon with routes := [] }
  unfold bgpUpdateReceive messageOf
  dsimp only
  split
  · have stopped : Moves speaker (fun _ _ _ => False) before (before.bgpStop speaker peer meets) :=
      bgpStop_moves
    exact .inl (moves_installs speaker before _ stopped rfl)
  · split
    · rename_i failure _
      exact .inl
        (moves_installs speaker before _ (afterFailure_moves speaker peer meets before failure) rfl)
    · rename_i message read
      rw [read]
      exact .inr ⟨message, rfl, rfl⟩

end Installs

/-- Every route that is let in, and every path that is installed, has its mandatory
attributes if those from MP_REACH_NLRI come with ORIGIN and AS_PATH and, inside the AS,
with LOCAL_PREF; without ORIGIN or AS_PATH the first one that is let in goes wrong. -/
theorem bgpUpdateReceive_installs_mandatory (speaker : Speaker) (peer : PeerId)
    (meets : Nat → Circumstances)
    (keeps : ∀ call, RouteMapKeeps (meets call).env) (data : List Octet) (start size : Nat)
    (refs : Refs) (daemon : Daemon) :
    (Accompanied speaker peer meets data start size refs →
      InstallsMandatory speaker peer daemon
        (daemon.bgpUpdateReceive speaker peer meets data start size refs).2) ∧
    (1 ∉ messageTypes data start ∨ 2 ∉ messageTypes data start →
      ∀ route ∈ (daemon.bgpUpdateReceive speaker peer meets data start size refs).2.routes,
        route.multiprotocol = true →
          ¬ InstallsMandatory speaker peer daemon
            (daemon.bgpUpdateReceive speaker peer meets data start size refs).2) := by
  rcases bgpUpdateReceive_cases speaker peer meets data start size daemon refs with
    ⟨none, paths⟩ | ⟨message, read, result⟩
  · rw [none]
    refine ⟨fun _ => ⟨fun route member => ?_, paths⟩, fun _ route member => ?_⟩
    · rw [none] at member
      cases member
    · cases member
  · obtain ⟨admits, origin⟩ :=
      process_installs speaker peer meets data { daemon with routes := [] } message rfl
    obtain ⟨hasOrigin, hasAsPath, present, hasLocalPref⟩ := messageOf_types read
    rw [result]
    refine ⟨fun accompanied => ?_, fun lacks route member multiprotocol installs => ?_⟩
    · have complete :
          ∀ route ∈ (process speaker peer meets data message { daemon with routes := [] }).2.routes,
          Complete speaker peer route := by
        intro route member
        have admitted := admits route member
        cases kind : route.multiprotocol with
        | false => exact complete_of_checked keeps admitted kind present
        | true =>
          obtain ⟨⟨call, accepted⟩, -, reaches⟩ := id admitted
          obtain ⟨first, second, inside⟩ :=
            accompanied message read route.family (reaches kind) call
            (isSome_iff_exists.mpr ⟨_, accepted⟩)
          have marked := hasAsPath.mpr second
          have modified := acceptUpdate_modified accepted
          refine ⟨(wellKnown_iff keeps admitted).mpr
            ⟨present ▸ marked, hasOrigin.mpr first, marked⟩,
            fun plain => ?_, fun internal => ?_⟩
          · rw [kind] at plain
            cases plain
          · rcases inside internal with third | sets
            · exact (keeps call).localPref _ _ modified (hasLocalPref internal third)
            · exact sets _ _ modified
      refine ⟨complete, fun family key holding member =>
        (origin family key holding member).imp_right ?_⟩
      rintro (⟨route, routed, same⟩ | ⟨summary, same⟩)
      · exact same ▸ (complete route routed).1
      · rw [same]
        exact bgpAttrAggregate_wellKnown ..
    · obtain ⟨-, marked, path⟩ :=
        (wellKnown_iff keeps (admits route member)).mp (installs.routes route member).1
      rcases lacks with first | second
      · exact first (hasOrigin.mp marked)
      · exact second (hasAsPath.mp path)

namespace Session

/-- A session inside the AS for IPv4 unicast. -/
def speaker : Speaker where
  bgp := {
    as := 65000
    peer := fun _ => { as := 65000, localAs := 65000, remoteId := 1, suRemote := .inet 1 }
    peerSelf := 9 }
  peerFamily := fun _ _ => { afc := true }
  damp := ⟨2000, 750, 12000, fun _ penalty => penalty⟩

/-- Filters and route maps that let everything through. -/
def meets : Nat → Circumstances := fun _ =>
  { env := {
      inputFilter := fun _ => true
      inputModifier := some
      nexthopCheckEbgp := fun _ => true
      nexthopSelf := fun _ => false
      nexthopLookup := fun _ => (true, 0)
      withdrawTime := 0
      updateTime := 0 } }

/-- MP_REACH_NLRI for 2001::/16 and nothing else. -/
def bare : List Octet :=
  [0, 0, 0, 27, 0x80, 14, 24, 0, 2, 1, 16, 0x20, 1, 0, 0, 0, 0, 0, 0, 0, 0, 0, 0, 0, 0, 0, 1, 0,
    16, 0x20, 1]

/-- The same with ORIGIN, AS_PATH and LOCAL_PREF. -/
def full : List Octet :=
  [0, 0, 0, 41, 0x40, 1, 1, 0, 0x40, 2, 0, 0x40, 5, 4, 0, 0, 0, 100,
    0x80, 14, 24, 0, 2, 1, 16, 0x20, 1, 0, 0, 0, 0, 0, 0, 0, 0, 0, 0, 0, 0, 0, 1, 0, 16, 0x20, 1]

theorem meets_keeps : ∀ call, RouteMapKeeps (meets call).env := by
  intro call
  constructor <;> rintro attr _ ⟨⟩ <;> first | rfl | exact id

end Session

/-- A route without AS_PATH gets into the RIB. -/
theorem bgpUpdateReceive_installs_bare :
    ¬ InstallsMandatory Session.speaker 0 {}
      (bgpUpdateReceive Session.speaker 0 Session.meets Session.bare 0 31 (fun _ => 0) {}).2 := by
  intro installs
  have known : ∀ route ∈
      (bgpUpdateReceive Session.speaker 0 Session.meets Session.bare 0 31 (fun _ => 0) {}).2.routes,
      route.attr.aspath.isSome = true := fun route member => (installs.routes route member).1.1
  revert known
  decide +kernel

theorem bgpUpdateReceive_installs_full :
    (bgpUpdateReceive Session.speaker 0 Session.meets Session.full 0 45
      (fun _ => 0) {}).2.routes.length = 1 ∧
      InstallsMandatory Session.speaker 0 {}
        (bgpUpdateReceive Session.speaker 0 Session.meets Session.full 0 45 (fun _ => 0) {}).2 := by
  refine ⟨by decide +kernel,
    (bgpUpdateReceive_installs_mandatory Session.speaker 0 Session.meets Session.meets_keeps
    Session.full 0 45 (fun _ => 0) {}).1 fun _ _ _ _ _ _ => ⟨?_, ?_, fun _ => .inl ?_⟩⟩
  all_goals decide +kernel

end Daemon
end Zebra.Bgpd
