import Zebra.Bgpd.Rib

/-! Next hops and whether they can be reached, of bgpd/bgp_nexthop.c. -/
namespace Zebra.Bgpd
open Function

inductive NexthopType where
  | ifindex
  | ifname
  | ipv4
  | other (code : BitVec 8)
deriving DecidableEq

/-- A next hop of an answer; what its type does not use is zero. -/
structure Nexthop where
  type : NexthopType
  gate : Ipv4 := 0
  ifindex : BitVec 32 := 0
deriving DecidableEq

def bgpNexthopSame (next1 next2 : Nexthop) : Bool :=
  next1.type = next2.type &&
    match next1.type with
    | .ipv4 => next1.gate = next2.gate
    | .ifindex | .ifname => next1.ifindex = next2.ifindex
    | .other _ => true

structure BgpNexthopCache where
  changed : Bool := false
  metricchanged : Bool := false
  valid : Bool := false
  metric : BitVec 32 := 0
  nexthop : List Nexthop := []
deriving DecidableEq

def bgpNexthopCacheChanged (bnc1 bnc2 : BgpNexthopCache) : Bool :=
  bnc1.nexthop.length ≠ bnc2.nexthop.length ||
    (bnc1.nexthop.zip bnc2.nexthop).any fun (next1, next2) => !bgpNexthopSame next1 next2

/-- A connected network. -/
structure Connected where
  network : Ipv4
  prefixlen : Nat

def Connected.covers (connected : Connected) (addr : Ipv4) : Bool :=
  (connected.network ^^^ addr) >>> (32 - connected.prefixlen) = 0

/-- What zebra tells: the connected networks, and for each address the metric and the next hops.
Without a connection nothing is asked. -/
structure Zlookup where
  sock : Bool := true
  connected : List Connected
  answer : Ipv4 → BitVec 32 × List Nexthop

namespace Zlookup

def zlookupQuery (zlookup : Zlookup) (addr : Ipv4) : Option BgpNexthopCache :=
  if (zlookup.answer addr).2.isEmpty then none
  else some { valid := true, metric := (zlookup.answer addr).1, nexthop := (zlookup.answer addr).2 }

/-- `bgp_nexthop_check_ebgp` for IPv4. -/
def checkEbgp (zlookup : Zlookup) (nexthop : Ipv4) : Bool :=
  !zlookup.sock || zlookup.connected.any (·.covers nexthop)

end Zlookup

abbrev Cache := Ipv4 → Option BgpNexthopCache

/-- The two caches; `second` is set while `bgp_nexthop_cache_ipv4` is `cache2`. -/
structure Caches where
  cache1 : Cache := fun _ => none
  cache2 : Cache := fun _ => none
  second : Bool := false

namespace Caches
variable (caches : Caches)

def current : Cache :=
  if caches.second then caches.cache2 else caches.cache1

def old : Cache :=
  if caches.second then caches.cache1 else caches.cache2

def store (addr : Ipv4) (bnc : BgpNexthopCache) : Caches :=
  if caches.second then { caches with cache2 := update caches.cache2 addr (some bnc) }
  else { caches with cache1 := update caches.cache1 addr (some bnc) }

def change : Caches :=
  { caches with second := !caches.second }

/-- `bgp_nexthop_cache_reset` of the cache that is not used. -/
def flushOld : Caches :=
  if caches.second then { caches with cache1 := fun _ => none }
    else { caches with cache2 := fun _ => none }

end Caches

/-- A new answer is compared with the one of the older cache where the caller asks for changes. -/
def compareOld (asked : Bool) (old : Option BgpNexthopCache) (bnc : BgpNexthopCache) :
    BgpNexthopCache :=
  match asked, old with
  | true, some oldbnc =>
    { bnc with changed := bgpNexthopCacheChanged bnc oldbnc,
               metricchanged := bnc.metric ≠ oldbnc.metric }
  | _, _ => bnc

/-- The entry that a query makes. -/
def newEntry (zlookup : Zlookup) (asked : Bool) (addr : Ipv4) (old : Option BgpNexthopCache) :
    BgpNexthopCache :=
  match zlookup.zlookupQuery addr with
  | some bnc => compareOld asked old bnc
  | none => {}

/-- `bgp_nexthop_lookup` for IPv4, up to where the results are read from the entry. -/
def bgpNexthopLookup (zlookup : Zlookup) (asked : Bool) (addr : Ipv4) (caches : Caches) :
    BgpNexthopCache × Caches :=
  if !zlookup.sock then ({ valid := true }, caches)
  else
    match caches.current addr with
    | some bnc => (bnc, caches)
    | none =>
      let bnc := newEntry zlookup asked addr (caches.old addr)
      (bnc, caches.store addr bnc)

/-- The metric that `bgp_nexthop_lookup` stores. -/
def BgpNexthopCache.igpmetric (bnc : BgpNexthopCache) : BitVec 32 :=
  if bnc.valid then bnc.metric else 0

/-- The surroundings of a call of `bgp_update`, the next hops being those of the caches. -/
def nexthopEnvironment (zlookup : Zlookup) (caches : Caches) (env : Environment) : Environment :=
  { env with
    nexthopCheckEbgp := fun attr => zlookup.checkEbgp attr.nexthop
    nexthopLookup := fun ri =>
      let bnc := (bgpNexthopLookup zlookup false ri.attr.nexthop caches).1
      (bnc.valid, bnc.igpmetric) }

/-- The attributes with which `bgp_update` comes to the next hop reachability check. -/
def updateDecides (bgp : Bgp) (cfg : DampConfig) (aggregates : List Bool) (env : Environment)
    (id : PathId) (attr : Attr) (node : Node) : Option Attr :=
  match node.find? id, acceptUpdate bgp (bgp.peer id.peer) env attr with
  | _, none => none
  | none, some attrNew => some attrNew
  | some ri, some attrNew =>
    if ri.attr.hashCmp attrNew then none
    else
      let marked := (changeMark bgp cfg env ri.id node).aggregateDecrement bgp aggregates ri.id
      let changed := marked.replace { ri with attr := attrNew }
      if dampConfigured bgp ri.id && (changed.dampUpdate cfg env.updateTime ri.id).2 =
        .suppressed then none
      else some attrNew

/-- What a call of `bgp_update` leaves in the caches. -/
def updateCaches (bgp : Bgp) (zlookup : Zlookup) (peer : Peer) (caches : Caches) :
    Option Attr → Caches
  | some attrNew =>
    if needsNexthop bgp peer then (bgpNexthopLookup zlookup false attrNew.nexthop caches).2
      else caches
  | none => caches

/-- What a scan finds out about a path; the metric is written by `bgp_nexthop_lookup` only. -/
structure Reachability where
  valid : Bool
  changed : Bool
  igpmetric : Option (BitVec 32)

/-- Whether the next hop has to be on a connected network. -/
def scansConnected (bgp : Bgp) (peer : Peer) : Bool :=
  peerSort bgp peer = .ebgp && peer.ttl = 1

def scanReachability (bgp : Bgp) (zlookup : Zlookup) (ri : BgpInfo) (caches : Caches) :
    Reachability × Caches :=
  if scansConnected bgp (bgp.peer ri.id.peer) then
    ({ valid := zlookup.checkEbgp ri.attr.nexthop, changed := false, igpmetric := none }, caches)
  else
    let (bnc, caches) := bgpNexthopLookup zlookup true ri.attr.nexthop caches
    ({ valid := bnc.valid, changed := bnc.changed, igpmetric := some bnc.igpmetric }, caches)

namespace Node

/-- `bgp_damp_info_free` with its second argument set: a withdrawn path goes with its entry. -/
def dampForget (id : PathId) (bdi : DampInfo) (node : Node) : Node :=
  if bdi.lastrecord = .withdraw then (node.dampInfoFree id).delete id else node.dampInfoFree id

/-- `bgp_damp_scan`: whether the path can be used again. -/
def dampScan (cfg : DampConfig) (maxSuppressTime now : Int) (id : PathId) (bdi : DampInfo)
    (node : Node) : Node × Bool :=
  if (node.flags id).damped then
    if maxSuppressTime ≤ now - bdi.suppressTime then
      ((node.setDamp id (some ⟨cfg.reuseLimit, now, 0, bdi.lastrecord⟩)).setFlags id fun f =>
        { f with damped := false },
        bdi.lastrecord = .update)
    else (node, false)
  else
    let penalty := cfg.decay (now - bdi.tUpdated) bdi.penalty
    if 2 * penalty ≤ cfg.reuseLimit then (node.dampForget id bdi, false)
    else (node.setDamp id (some { bdi with penalty := penalty, tUpdated := now }), false)

end Node

section Scan
variable (bgp : Bgp) (cfg : DampConfig) (maxSuppressTime : Int) (aggregates : List Bool)
  (clock : PathId → Int)

/-- The metric of a path is written. -/
def Reachability.measure (reach : Reachability) (ri : BgpInfo) (node : Node) : Node :=
  match reach.igpmetric with
  | some igpmetric => node.replace { ri with igpmetric }
  | none => node

/-- The VALID flag changes, with the aggregates. -/
def Reachability.revalidate (reach : Reachability) (id : PathId) (node : Node) : Node :=
  if reach.valid = (node.flags id).valid then node
  else if (node.flags id).valid then (node.aggregateDecrement bgp aggregates id).setValid id false
  else (node.setValid id true).aggregateIncrement bgp aggregates id

/-- The dampening of a path is looked at. -/
def scanDamp (id : PathId) (node : Node) : Node :=
  match node.damp id with
  | some bdi =>
    if bgp.dampening then
      match node.dampScan cfg maxSuppressTime (clock id) id bdi with
      | (node, true) => node.aggregateIncrement bgp aggregates id
      | (node, false) => node
    else node
  | none => node

/-- What is found out about a path is written to it. -/
def Reachability.settle (reach : Reachability) (ri : BgpInfo) (node : Node) : Node :=
  let node := reach.measure ri node
  let node := node.setFlags ri.id fun f => { f with igpChanged := reach.changed }
  let node := reach.revalidate bgp aggregates ri.id node
  scanDamp bgp cfg maxSuppressTime aggregates clock ri.id node

/-- The paths that a scan looks at. -/
def BgpInfo.Scanned (ri : BgpInfo) : Prop :=
  ri.id.type = 9 ∧ ri.id.subType = .normal

instance (ri : BgpInfo) : Decidable ri.Scanned :=
  inferInstanceAs (Decidable (_ ∧ _))

/-- The loop body of `bgp_scan_ipv4`. -/
def scanPath (zlookup : Zlookup) (state : Node × Caches) (ri : BgpInfo) : Node × Caches :=
  if ri.Scanned then
    let (reach, caches) := scanReachability bgp zlookup ri state.2
    (reach.settle bgp cfg maxSuppressTime aggregates clock ri state.1, caches)
  else state

def scanNode (zlookup : Zlookup) (node : Node) (caches : Caches) : Node × Caches :=
  let (node, caches) := node.info.foldl (scanPath bgp cfg maxSuppressTime aggregates clock zlookup)
    (node, caches)
  (node.process bgp, caches)

end Scan

/-- A BGP speaker: its RIB and the next hop caches. -/
structure Nexthops (Key : Type) where
  rib : Rib Key := {}
  caches : Caches := {}

/-- The calls that change paths; an update and a scan come with what zebra tells at that time, and
the environment of an update takes its next hops from the caches. -/
inductive NexthopOp (Key : Type) where
  | update (key : Key) (id : PathId) (attr : Attr) (env : Environment) (zlookup : Zlookup)
  | withdraw (key : Key) (id : PathId) (now : Int)
  | clearRoute (peer : PeerId) (nsf : Bool)
  | clearStale (peer : PeerId)
  | scan (clock : Key → PathId → Int) (zlookup : Zlookup)

namespace Nexthops
variable {Key : Type} [DecidableEq Key] (bgp : Bgp) (cfg : DampConfig) (maxSuppressTime : Int)
  (aggregates : Key → List Bool) (zlookup : Zlookup)

/-- The environment of an update. -/
def environment (state : Nexthops Key) (env : Environment) : Environment :=
  nexthopEnvironment zlookup state.caches env

section
variable (state : Nexthops Key) (key : Key) (id : PathId) (attr : Attr) (env : Environment)

/-- The attributes an update decides on. -/
def decides : Option Attr :=
  updateDecides bgp cfg (aggregates key)
    (state.environment zlookup env) id attr (state.rib.node key)

def bgpUpdate : Nexthops Key where
  rib := state.rib.step bgp cfg aggregates (.update key id attr (state.environment zlookup env))
  caches := updateCaches bgp zlookup (bgp.peer id.peer) state.caches
    (state.decides bgp cfg aggregates zlookup key id attr env)

end

/-- The walk over the table. -/
def scanNodes (clock : Key → PathId → Int) : List (Key × Node) → Caches → List (Key × Node) × Caches
  | [], caches => ([], caches)
  | (key, node) :: rest, caches =>
    let (node, caches) := scanNode bgp cfg maxSuppressTime (aggregates key)
      (clock key) zlookup node caches
    let (rest, caches) := scanNodes clock rest caches
    ((key, node) :: rest, caches)

def bgpScanIpv4 (state : Nexthops Key) (clock : Key → PathId → Int) : Nexthops Key :=
  let (nodes, caches) :=
    scanNodes bgp cfg maxSuppressTime aggregates zlookup clock state.rib.nodes state.caches.change
  { rib := { state.rib with nodes := nodes }, caches := caches.flushOld }

def step (state : Nexthops Key) : NexthopOp Key → Nexthops Key
  | .update key id attr env zlookup => state.bgpUpdate bgp cfg aggregates zlookup key id attr env
  | .withdraw key id now =>
    { state with rib := state.rib.step bgp cfg aggregates (.withdraw key id now) }
  | .clearRoute peer nsf =>
    { state with rib := state.rib.step bgp cfg aggregates (.clearRoute peer nsf) }
  | .clearStale peer => { state with rib := state.rib.step bgp cfg aggregates (.clearStale peer) }
  | .scan clock zlookup => state.bgpScanIpv4 bgp cfg maxSuppressTime aggregates zlookup clock

def run (ops : List (NexthopOp Key)) : Nexthops Key :=
  ops.foldl (step bgp cfg maxSuppressTime aggregates) {}

end Nexthops
end Zebra.Bgpd
