import Zebra.Zebrad.RibRuns

/-! Redistribution to the clients, zebra/redistribute.c. -/
namespace Zebra.Zebrad
open Base Function List Bool Surroundings

/-- `zebra_check_addr` for IPv4: `IPV4_NET127` and `IN_CLASSD` are kept back. -/
def zebraCheckAddr (p : PrefixIpv4) : Bool :=
  !(p.addr &&& 0xff000000 = 0x7f000000 || p.addr &&& 0xf0000000 = 0xe0000000)

def isDefault (p : PrefixIpv4) : Bool :=
  p.addr = 0 && p.prefixlen = 0

def routeMax : Nat := 9

/-- A client: `redist`, `redist_default`, the memory behind the array, and the routes that
it holds by the messages it was sent. -/
structure Client where
  redist : Octet → Bool := fun _ => false
  redistDefault : Bool := false
  beyondRedist : Octet → Bool := fun _ => false
  held : PrefixIpv4 → Bool := fun _ => false

namespace Client
section
variable (client : Client)

/-- `client->redist[type]`, for any type. -/
def readRedist (type : Octet) : Bool :=
  if type.toNat < routeMax then client.redist type else client.beyondRedist type

/-- Whether `redistribute_add` and `redistribute_delete` turn to the client. -/
def wants (p : PrefixIpv4) (type : Octet) : Bool :=
  if isDefault p then client.redistDefault || client.readRedist type else client.readRedist type

/-- What a call makes of the routes that the client holds. -/
def hear (held : PrefixIpv4 → Bool) : RibCall → PrefixIpv4 → Bool
  | .redistributeAdd p rib => if client.wants p rib.type then update held p true else held
  | .redistributeDelete p rib =>
    if rib.distance = distanceInfinity then held
    else if client.wants p rib.type then update held p false else held
  | .install _ | .uninstall _ => held

/-- What `zebra_redistribute` sends of a node. -/
def dumps (p : PrefixIpv4) (type : Octet) (rib : Rib) : Bool :=
  rib.check .selected && rib.type = type && rib.distance ≠ distanceInfinity && zebraCheckAddr p

/-- `zebra_redistribute`. -/
def zebraRedistribute (table : RibTable) (type : Octet) : Client :=
  { client with held := fun p => client.held p || (table p).any (dumps p type) }

/-- `zebra_redistribute_add`; the types of routes are `ZEBRA_ROUTE_KERNEL` to `ZEBRA_ROUTE_BGP`. -/
def zebraRedistributeAdd (table : RibTable) (type : Octet) : Client :=
  if type = 0 ∨ routeMax ≤ type.toNat then client
  else if client.redist type then client
  else ({ client with redist := update client.redist type true } : Client).zebraRedistribute
    table type

end

/-- A client that has subscribed to nothing. -/
structure Fresh (client : Client) : Prop where
  redist : client.redist = fun _ => false
  redistDefault : client.redistDefault = false
  held : client.held = fun _ => false

/-- A client holds the selected routes of the types that it has subscribed to, but for those
that are kept back. -/
def UpToDate (client : Client) (table : RibTable) : Prop :=
  ∀ p, client.held p = true ↔ zebraCheckAddr p = true ∧
    ∃ rib ∈ table p, rib.check .selected = true ∧ client.redist rib.type = true

end Client

/-- Both tables, and `client_list`. -/
structure RouteServer extends Vrf where
  clients : List Client := []

/-- A call that changes the RIB, or a client's `ZEBRA_REDISTRIBUTE_ADD`. -/
inductive RouteServerOp where
  | rib (op : RibOp)
  | subscribe (client : Nat) (type : Octet)

section
variable (server : RouteServer)

def RouteServer.step : RouteServerOp → RouteServer
  | .rib op =>
    let stepped := server.ribStep op
    ⟨stepped.1, server.clients.map fun client => { client with
      held := stepped.2.foldl client.hear client.held }⟩
  | .subscribe number type =>
    let clients :=
      server.clients.modify number fun client => client.zebraRedistributeAdd server.table type
    { server with clients }

/-- `zebra_check_addr` lets the prefix through, or no client has subscribed to the type. -/
def RouteServer.Unasked (p : PrefixIpv4) (type : Octet) : Prop :=
  zebraCheckAddr p = false → ∀ client ∈ server.clients, client.redist type = false

/-- A route of a known type that may come to a node. -/
def RouteServer.Admits (p : PrefixIpv4) (type : Octet) : Prop :=
  type.toNat < routeMax ∧ server.Unasked p type

/-- `rib_process` has nothing to announce at the node that is kept back from a client which
has subscribed to its type. -/
def RouteServer.Calm (env : Surroundings) (p : PrefixIpv4) : Prop :=
  ∀ rib ∈ server.table p, server.Unasked p rib.type ∨
    ({ env with table := server.table, top := p } : Scene).Steady rib

/-- A deletion of a kernel route that is not there finds no selected route that a client has
subscribed to. -/
def RouteServer.Undisturbed (type : Octet) (p : PrefixIpv4) (ifindex : BitVec 32) : Prop :=
  type = routeKernel → (server.table p).findIdx? (Rib.meets type ifindex) = none →
    ∀ rib ∈ server.table p, rib.check .selected = true →
      ∀ client ∈ server.clients, client.redist rib.type = false

/-- The calls that keep the RIB good, and that no client of its own hears wrong. A connected
route that is there already is only counted, and `rib_update` comes to a node at a time. -/
def RouteServer.RibOk : RibOp → Prop
  | .add env type flags p _ ifindex _ distance => Plain type flags distance ∧
  server.Calm env (applyMaskIpv4 p) ∧
    (type = routeConnect ∧ (server.table (applyMaskIpv4 p)).any (Rib.meets type ifindex) = true ∨
      server.Admits (applyMaskIpv4 p) type)
  | .zread env message => Plain message.type message.flags message.distance ∧
    server.Calm env (applyMaskIpv4 message.p) ∧ server.Admits (applyMaskIpv4 message.p) message.type
  | .delete env type p ifindex => server.Undisturbed type (applyMaskIpv4 p) ifindex ∧
    server.Calm env (applyMaskIpv4 p)
  | .configure (.add _ p _ distance vrfId) => vrfId = 0 →
    Roomy distance (server.table (applyMaskIpv4 p)) ∧
    server.Unasked (applyMaskIpv4 p) routeStatic ∧
    ∀ rib ∈ server.table (applyMaskIpv4 p), server.Unasked (applyMaskIpv4 p) rib.type
  | .configure (.delete env p _ vrfId) => vrfId = 0 → server.Calm env (applyMaskIpv4 p) ∧
    (server.Unasked (applyMaskIpv4 p) routeStatic ∨
      ∀ rib ∈ server.table (applyMaskIpv4 p), rib.type = routeStatic → rib.nexthopNum = 1)
  | .update env order => order.length ≤ 1 ∧ ∀ p ∈ order, server.Calm env p

def RouteServer.Fine : RouteServerOp → Prop
  | .rib op => server.RibOk op
  | .subscribe .. => True

end

/-- `rib_update` is the run of its nodes. -/
theorem RouteServer.step_update (env : Surroundings) (order : List PrefixIpv4)
    (server : RouteServer) :
    server.step (.rib (.update env order)) =
      (order.map fun p => RouteServerOp.rib (.update env [p])).foldl RouteServer.step server := by
  induction order generalizing server with
  | nil => exact congrArg (RouteServer.mk server.toVrf) (map_id server.clients)
  | cons p rest ih =>
    rw [map_cons, foldl_cons, ← ih]
    simp only [RouteServer.step, Vrf.ribStep, ribUpdate, foldl_append, map_map, append_nil]
    rfl

section Mirrors
variable (client : Client) (p : PrefixIpv4)

/-- What a client makes of the calls for one prefix. -/
def Client.mirror : Mirror p where
  keep := client.wants p
  apply held
    | .redistributeAdd q rib => if q = p ∧ client.wants p rib.type then true else held
    | .redistributeDelete q rib =>
      if rib.distance ≠ distanceInfinity ∧ q = p ∧ client.wants p rib.type then false else held
    | .install _ | .uninstall _ => held
  elsewhere held call apart := by
    cases call <;> simp_all [RibCall.place]
  lost rib held finite := by
    rw [withdraw]
    split <;> simp [finite]
  gained rib shown held same := by
    rw [announce]
    split <;> simp [same]

theorem foldl_hear (calls : List RibCall) (held : PrefixIpv4 → Bool) :
    calls.foldl client.hear held p = calls.foldl (client.mirror p).apply (held p) := by
  induction calls generalizing held with
  | nil => rfl
  | cons call rest ih =>
    rw [foldl_cons, ih]
    cases call with
    | install q => rfl
    | uninstall q => rfl
    | redistributeAdd q rib =>
      by_cases same : q = p
      · subst same
        by_cases wanted : client.wants q rib.type <;> simp [Client.hear, Client.mirror, wanted]
      · by_cases wanted : client.wants q rib.type <;>
          simp [Client.hear, Client.mirror, wanted, same, update_of_ne (Ne.symm same)]
    | redistributeDelete q rib =>
      by_cases infinite : rib.distance = distanceInfinity
      · simp [Client.hear, Client.mirror, infinite]
      · by_cases same : q = p
        · subst same
          by_cases wanted : client.wants q rib.type <;>
            simp [Client.hear, Client.mirror, wanted, infinite]
        · by_cases wanted : client.wants q rib.type <;>
            simp [Client.hear, Client.mirror, wanted, same, infinite, update_of_ne (Ne.symm same)]

theorem Mirror.foldl_untold {p : PrefixIpv4} (mirror : Mirror p) {calls : List RibCall}
    (untold : ∀ call ∈ calls, mirror.apply false call = false) :
    calls.foldl mirror.apply false = false := by
  induction calls with
  | nil => rfl
  | cons call rest ih =>
    rw [foldl_cons, untold call (by simp)]
    exact ih fun call member => untold call (by simp [member])

end Mirrors

/-- The invariant of a run. -/
structure RouteServer.Sound (server : RouteServer) : Prop where
  good : Good server.table
  known : ∀ p, ∀ rib ∈ server.table p, rib.type.toNat < routeMax
  clients : ∀ client ∈ server.clients, client.redistDefault = false ∧ client.UpToDate server.table

namespace Client
variable {client : Client}

theorem wants_eq (noDefault : client.redistDefault = false) (p : PrefixIpv4) :
    client.wants p = client.readRedist := by
  funext type
  simp [wants, noDefault]

theorem readRedist_known {type} (known : type.toNat < routeMax) :
    client.readRedist type = client.redist type :=
  if_pos known

theorem mirror_shows (noDefault : client.redistDefault = false) {ribs}
    (known : ∀ rib ∈ ribs, rib.type.toNat < routeMax) (p : PrefixIpv4) :
    (client.mirror p).shows ribs = true ↔ ∃ rib ∈ ribs, rib.check .selected = true ∧
    client.redist rib.type = true := by
  rw [Mirror.shows, any_eq_true]
  have keep : (client.mirror p).keep = client.readRedist := wants_eq noDefault p
  simp only [and_eq_true, keep]
  constructor
  · rintro ⟨rib, member, selected, kept⟩
    exact ⟨rib, member, selected, readRedist_known (known rib member) ▸ kept⟩
  · rintro ⟨rib, member, selected, kept⟩
    exact ⟨rib, member, selected, (readRedist_known (known rib member)).trans kept⟩

theorem zebraRedistributeAdd_upToDate {table} (good : Good table) (current : client.UpToDate table)
    (type : Octet) : (client.zebraRedistributeAdd table type).UpToDate table := by
  rw [zebraRedistributeAdd]
  split
  · exact current
  · split
    · exact current
    · intro p
      simp only [zebraRedistribute, dumps, or_eq_true, current p, any_eq_true, and_eq_true,
        decide_eq_true_eq]
      constructor
      · rintro (⟨shown, rib, member, selected, wanted⟩ | ⟨rib, member,
          ⟨⟨selected, same⟩, -⟩, shown⟩)
        · refine ⟨shown, rib, member, selected, ?_⟩
          rw [update_apply]
          split
          · rfl
          · exact wanted
        · exact ⟨shown, rib, member, selected, by rw [same, update_self]⟩
      · rintro ⟨shown, rib, member, selected, wanted⟩
        rw [update_apply] at wanted
        split at wanted
        · rename_i same
          exact .inr ⟨rib, member, ⟨⟨selected, same⟩, (good p).finite member selected⟩, shown⟩
        · exact .inl ⟨shown, rib, member, selected, wanted⟩

theorem zebraRedistributeAdd_default (client : Client) (table : RibTable) (type : Octet) :
    (client.zebraRedistributeAdd table type).redistDefault = client.redistDefault := by
  rw [zebraRedistributeAdd]
  split
  · rfl
  · split <;> rfl

end Client

namespace RouteServer
variable {server : RouteServer}

/-- The clients, who follow the RIB. -/
def Followed (server : RouteServer) (keep : Octet → Bool) : Prop :=
  ∃ client ∈ server.clients, keep = client.readRedist

theorem RibOk.ribFine (sound : server.Sound) {op} (ok : server.RibOk op) :
    server.RibFine server.Followed op := by
  cases op with
  | add => exact ok.1
  | zread => exact ok.1
  | delete env type p ifindex =>
    rintro kernel missing rib member selected keep ⟨client, inside, rfl⟩
    rw [Client.readRedist_known (sound.known _ rib member)]
    exact ok.1 kernel missing rib member selected client inside
  | configure op =>
    cases op with
    | add => exact fun default => (ok default).1
    | delete => trivial
  | update => trivial

section Presents
variable {env : Surroundings} {table : RibTable} {p : PrefixIpv4} {result : RibTable × List RibCall}

/-- What a call announces from a node that is calm may be announced. -/
theorem NodeStep.presents
    (step : NodeStep server.Followed env table p (fun rib => server.Admits p rib.type) result)
    (known : ∀ rib ∈ table p, rib.type.toNat < routeMax)
    (calm : ∀ rib ∈ table p, server.Unasked p rib.type ∨
      ({ env with table, top := p } : Scene).Steady rib) :
    ∀ q shown, .redistributeAdd q shown ∈ result.2 → server.Admits q shown.type := by
  intro q shown there
  obtain ⟨rfl, rib, type, source⟩ := step.announces there
  rw [type]
  rcases source with comes | ⟨member, unsteady⟩
  · exact comes
  · exact ⟨known rib member, (calm rib member).resolve_right unsteady⟩

theorem NodeStep.known {comes : Rib → Prop}
    (step : NodeStep server.Followed env table p comes result)
    (new : ∀ rib, comes rib → rib.type.toNat < routeMax)
    (known : ∀ q, ∀ rib ∈ table q, rib.type.toNat < routeMax) :
    ∀ q, ∀ rib ∈ result.1 q, rib.type.toNat < routeMax := by
  intro q
  by_cases same : q = p
  · subst same
    exact step.types (fun type => type.toNat < routeMax) (known q) new
  · rw [step.other same]
    exact known q

end Presents

/-- What a call leaves and announces has known types, and goes to no client that it is kept
back from. -/
structure Presents (server : RouteServer) (result : Vrf × List RibCall) : Prop where
  known : ∀ p, ∀ rib ∈ result.1.table p, rib.type.toNat < routeMax
  announced : ∀ q shown, .redistributeAdd q shown ∈ result.2 → server.Admits q shown.type

theorem Sound.presents (sound : server.Sound) {env : Surroundings} {p : PrefixIpv4}
    {result : Vrf × List RibCall}
    (step : NodeStep server.Followed env server.table p (fun rib => server.Admits p rib.type)
      (result.1.table, result.2)) (calm : server.Calm env p) : server.Presents result :=
  ⟨NodeStep.known step (fun _ comes => comes.1) sound.known,
    NodeStep.presents step (sound.known p) calm⟩

theorem newRib_type (env : Surroundings) (type flags : Octet) (gate : Option InAddr)
    (ifindex metric : BitVec 32)
    (distance : Octet) : (env.newRib type flags gate ifindex metric distance).type = type := by
  have kind := (env.defaultDistance_alike { type, distance, flags, metric }).1
  rw [newRib.eq_def]
  refine (congrArg RibCore.type (Rib.ownFib_alike _).core).trans ?_
  cases gate with
  | none => exact kind
  | some gate =>
    dsimp only
    split <;> exact kind

theorem message_type (env : Surroundings) (message : RouteMessage) :
    (env.defaultDistance message.rib).ownFib.type = message.type :=
  (congrArg RibCore.type (Rib.ownFib_alike _).core).trans
    ((env.defaultDistance_alike message.rib).1.trans (foldl_nexthopMessageAdd message.nexthops _).1)

theorem RibOk.presents (sound : server.Sound) {op} (ok : server.RibOk op) :
    server.Presents (server.ribStep op) := by
  cases op with
  | add env type flags p gate ifindex metric distance =>
    obtain ⟨plain, calm, comes⟩ := ok
    obtain ⟨regular, unselected⟩ := newRib_plain plain gate ifindex metric
    refine sound.presents (ribAddIpv4_step sound.good regular unselected ?_) calm
    rwa [newRib_type]
  | zread env message =>
    obtain ⟨plain, calm, comes⟩ := ok
    obtain ⟨regular, unselected⟩ := message_plain plain
    refine sound.presents (ribAddIpv4Multipath_step sound.good regular unselected ?_) calm
    rwa [message_type]
  | delete env type p ifindex =>
    have aware := RibOk.ribFine sound ok
    refine sound.presents
      (ribDeleteIpv4_step sound.good aware fun kernel missing old member selected => ?_) ok.2
    exact ⟨sound.known _ old member, fun _ => ok.1 kernel missing old member selected⟩
  | configure op =>
    cases op with
    | add env p gate distance vrfId =>
      by_cases default : vrfId = 0
      · obtain ⟨roomy, unasked, old⟩ := ok default
        have comes (rib : Rib) (static : rib.type = routeStatic) :
            server.Admits (applyMaskIpv4 p) rib.type := by
          rw [static]
          exact ⟨by decide, unasked⟩
        obtain ⟨first, last, step, next, table, calls⟩ :=
          Vrf.staticAddIpv4_steps server.Followed env
            (fun rib => server.Admits (applyMaskIpv4 p) rib.type)
            sound.good (fun _ => roomy) (fun _ => comes)
        have known := NodeStep.known step (fun _ comes => comes.1) sound.known
        have middle := step.types (server.Unasked (applyMaskIpv4 p)) old fun _ comes => comes.2
        have presents :=
          NodeStep.presents step (sound.known _) fun rib member => .inl (old rib member)
        have later := NodeStep.presents next (known _) fun rib member => .inl (middle rib member)
        refine ⟨?_, fun q shown there => ?_⟩
        · have left := NodeStep.known next (fun _ comes => comes.1) known
          rw [← table] at left
          exact left
        · have there :
            .redistributeAdd q shown ∈ (server.staticAddIpv4 env p gate distance vrfId).2 := there
          rw [calls] at there
          exact (mem_append.mp there).elim (presents q shown) (later q shown)
      · rw [Vrf.ribStep, Vrf.configure, Vrf.staticAddIpv4, if_pos default]
        exact ⟨sound.known, fun _ _ there => absurd there not_mem_nil⟩
    | delete env p gate vrfId =>
      by_cases default : vrfId = 0
      · obtain ⟨calm, single⟩ := ok default
        refine sound.presents (Vrf.staticDeleteIpv4_step sound.good gate vrfId
          fun _ old member static several rib own => ?_) calm
        rw [own]
        exact ⟨by decide, single.resolve_right fun all => several (all old member static)⟩
      · rw [Vrf.ribStep, Vrf.configure, Vrf.staticDeleteIpv4, if_pos default]
        exact ⟨sound.known, fun _ _ there => absurd there not_mem_nil⟩
  | update env order =>
    obtain ⟨one, calm⟩ := ok
    rcases order with _ | ⟨p, _ | ⟨q, rest⟩⟩
    · exact ⟨sound.known, fun _ _ there => absurd there not_mem_nil⟩
    · refine sound.presents ?_ (calm p (by simp))
      rw [Vrf.ribStep, ribUpdate, ribUpdate, append_nil]
      exact hand_step sound.good (.refl _)
    · exact absurd one (by simp)

theorem step_sound (server : RouteServer) (op : RouteServerOp) (fine : server.Fine op)
    (sound : server.Sound) :
    (server.step op).Sound := by
  cases op with
  | subscribe number type =>
    refine ⟨sound.good, sound.known, fun client member => ?_⟩
    rcases mem_modify member with old | ⟨own, inside, rfl⟩
    · exact sound.clients client old
    · obtain ⟨noDefault, current⟩ := sound.clients own inside
      exact ⟨(own.zebraRedistributeAdd_default ..).trans noDefault,
        Client.zebraRedistributeAdd_upToDate sound.good current type⟩
  | rib op =>
    have ok : server.RibOk op := fine
    have change := Vrf.ribStep_change sound.good (ok.ribFine sound)
    obtain ⟨known, presents⟩ := RibOk.presents sound ok
    refine ⟨change.good, known, fun client member => ?_⟩
    obtain ⟨own, inside, rfl⟩ := mem_map.mp member
    obtain ⟨noDefault, current⟩ := sound.clients own inside
    refine ⟨noDefault, fun p => ?_⟩
    have held : (server.ribStep op).2.foldl own.hear own.held p = _ := foldl_hear own p _ _
    show (server.ribStep op).2.foldl own.hear own.held p = true ↔ zebraCheckAddr p = true ∧
      ∃ rib ∈ (server.ribStep op).1.table p, rib.check .selected = true ∧ own.redist rib.type = true
    rw [held]
    cases shown : zebraCheckAddr p with
    | false =>
      have none : own.held p = false :=
        Bool.eq_false_iff.mpr fun holds => by simpa [shown] using (current p).mp holds
      rw [none, (own.mirror p).foldl_untold]
      · simp
      · intro call there
        cases call with
        | redistributeAdd q rib =>
          have fits := presents q rib there
          by_cases same : q = p
          · subst same
            have idle : own.wants q rib.type = false := by
              rw [Client.wants_eq noDefault, Client.readRedist_known fits.1]
              exact fits.2 shown own inside
            simp [Client.mirror, idle]
          · simp [Client.mirror, same]
        | redistributeDelete q rib => simp [Client.mirror]
        | install q => rfl
        | uninstall q => rfl
    | true =>
      have before : own.held p = (own.mirror p).shows (server.table p) := by
        apply Bool.eq_iff_iff.mpr
        rw [Client.mirror_shows noDefault (sound.known p), current p, shown]
        simp
      rw [before, change.shows p (own.mirror p) ⟨own, inside, Client.wants_eq noDefault p⟩,
        Client.mirror_shows noDefault (known p)]
      simp

theorem initial_sound {clients} (fresh : ∀ client ∈ clients, client.Fresh) :
    (⟨{}, clients⟩ : RouteServer).Sound := by
  refine ⟨fun p => ⟨nofun, ?_, nofun, nofun⟩, nofun, fun client member => ?_⟩
  · exact Nat.zero_le 1
  · refine ⟨(fresh client member).redistDefault, fun p => ?_⟩
    rw [(fresh client member).held]
    simp

/-- After every run each client holds what it has subscribed to, whenever it did. -/
theorem upToDate_of_run {clients : List Client} (fresh : ∀ client ∈ clients, client.Fresh)
    {ops : List RouteServerOp} (run : Allowed RouteServer.step RouteServer.Fine ⟨{}, clients⟩ ops) :
    ∀ client ∈ (ops.foldl RouteServer.step ⟨{}, clients⟩).clients,
      client.UpToDate (ops.foldl RouteServer.step ⟨{}, clients⟩).table :=
  fun client member => ((run.invariant step_sound (initial_sound fresh)).clients client member).2

instance (server : RouteServer) (p : PrefixIpv4) (type : Octet) :
    Decidable (server.Unasked p type) :=
  inferInstanceAs (Decidable (_ → ∀ client ∈ server.clients, _))

instance (scene : Scene) (rib : Rib) : Decidable (scene.Steady rib) :=
  inferInstanceAs (Decidable (_ → _ ∧ ∀ nexthop ∈ rib.nexthop, _))

instance (server : RouteServer) (env : Surroundings) (p : PrefixIpv4) :
    Decidable (server.Calm env p) :=
  inferInstanceAs (Decidable (∀ rib ∈ server.table p, _ ∨ _))

instance (server : RouteServer) (type : Octet) (p : PrefixIpv4) (ifindex : BitVec 32) :
    Decidable (server.Undisturbed type p ifindex) :=
  inferInstanceAs (Decidable (_ → _ → ∀ rib ∈ server.table p, _ → ∀ client ∈ server.clients, _))

instance (server : RouteServer) : (op : RibOp) → Decidable (server.RibOk op)
  | .add .. => inferInstanceAs (Decidable (Plain .. ∧ _ ∧ (_ ∨ (_ ∧ _))))
  | .zread .. => inferInstanceAs (Decidable (Plain .. ∧ _ ∧ (_ ∧ _)))
  | .delete .. => inferInstanceAs (Decidable (server.Undisturbed .. ∧ _))
  | .configure (.add _ p ..) =>
    inferInstanceAs (Decidable (_ → Roomy .. ∧ _ ∧ ∀ rib ∈ server.table (applyMaskIpv4 p), _))
  | .configure (.delete _ p ..) =>
    inferInstanceAs (Decidable (_ → _ ∧ (_ ∨ ∀ rib ∈ server.table (applyMaskIpv4 p), _ → _)))
  | .update env order => inferInstanceAs (Decidable (_ ∧ ∀ p ∈ order, server.Calm env p))

instance (server : RouteServer) : (op : RouteServerOp) → Decidable (server.Fine op)
  | .rib op => inferInstanceAs (Decidable (server.RibOk op))
  | .subscribe .. => .isTrue trivial

/-- One client asks for RIP routes first, another one last, and a static route takes the
place of a RIP route in between; the second one asks for connected routes too, before
`rib_update` comes to the loopback network. -/
def subscribersRun : List RouteServerOp :=
  [.subscribe 0 4, .rib (.add oneUp routeConnect 0 ⟨0x0a000000, 8⟩ none 1 0 0),
    .rib (.add oneUp routeConnect 0 ⟨0x7f000000, 8⟩ none 1 0 0),
    .rib (.zread oneUp (clientRoute 4 0 0 0x14000000 0x0a000002)),
    .rib (.zread oneUp (clientRoute 4 0 0 0x1e000000 0x0a000002)),
    .rib (.configure (.add oneUp ⟨0x14000000, 8⟩ (.ifname "eth0") 1 0)), .subscribe 1 4,
    .subscribe 1 routeConnect, .rib (.update oneUp [⟨0x7f000000, 8⟩])]

theorem upToDate_of_run_subscribers :
    Allowed RouteServer.step RouteServer.Fine ⟨{}, [{}, {}]⟩ subscribersRun ∧
    ∀ client ∈ (subscribersRun.foldl RouteServer.step ⟨{}, [{}, {}]⟩).clients,
      client.UpToDate (subscribersRun.foldl RouteServer.step ⟨{}, [{}, {}]⟩).table :=
  have run : Allowed RouteServer.step RouteServer.Fine ⟨{}, [{}, {}]⟩ subscribersRun := by
    decide +kernel
  have fresh : ∀ client ∈ [({} : Client), {}], client.Fresh := by
    intro client member
    obtain rfl : client = {} := by simpa using member
    exact ⟨rfl, rfl, rfl⟩
  ⟨run, upToDate_of_run fresh run⟩

/-- The loopback network comes up after a client has asked for connected routes. -/
def loopbackRun : List RouteServerOp :=
  [.subscribe 0 routeConnect, .rib (.add oneUp routeConnect 0 ⟨0x7f000000, 8⟩ none 1 0 0)]

theorem not_upToDate : ¬ ∀ (clients : List Client), (∀ client ∈ clients, client.Fresh) → ∀ ops :
    List RouteServerOp,
    ∀ client ∈ (ops.foldl RouteServer.step ⟨{}, clients⟩).clients,
      client.UpToDate (ops.foldl RouteServer.step ⟨{}, clients⟩).table := by
  intro current
  have lone := current [{}] (by simpa using ⟨rfl, rfl, rfl⟩) loopbackRun
    ((loopbackRun.foldl RouteServer.step ⟨{}, [{}]⟩).clients.headD {})
      (by simp [loopbackRun, RouteServer.step])
  have kept := (lone ⟨0x7f000000, 8⟩).mp (by decide +kernel)
  exact absurd kept.1 (by decide +kernel)

end RouteServer
end Zebra.Zebrad
