import Mathlib
import Zebra.Bgpd.Node

/-! Receiving, withdrawing and clearing paths, of bgpd/bgp_route.c. -/
namespace Zebra.Bgpd

/-- What a peer's counter holds: `pcount`, before it is reduced to an unsigned
long, and PEER_STATUS_PREFIX_LIMIT. -/
structure Account where
  pcount : Int := 0
  prefixLimit : Bool := false

namespace Account

def increment (account : Account) : Account := { account with pcount := account.pcount + 1 }

def decrement (account : Account) : Account := { account with pcount := account.pcount - 1 }

/-- `pcount` as the daemon reads it. -/
def read (account : Account) : Nat := (account.pcount % 2 ^ 64).toNat

/-- `bgp_maximum_prefix_overflow`: whether the session is given up. The warning
threshold only logs. -/
def maximumPrefixOverflow (peer : Peer) (account : Account) : Bool × Account :=
  match peer.maxPrefix with
  | none => (false, account)
  | some pmax =>
    if pmax < account.read then
      if account.prefixLimit then (false, account)
      else (!peer.maxPrefixWarning, { account with prefixLimit := true })
    else (false, { account with prefixLimit := false })

end Account

/-- What `bgp_update` asks of filters, route maps, the next hop cache and the clock.
Every call brings its own, for all of these change over time. -/
structure Environment where
  inputFilter : Attr → Bool
  inputModifier : Attr → Option Attr
  nexthopCheckEbgp : Attr → Bool
  nexthopSelf : Attr → Bool
  /-- `bgp_nexthop_lookup`: reachable or not, and the interior cost it stores. -/
  nexthopLookup : BgpInfo → Bool × BitVec 32
  withdrawTime : Int
  updateTime : Int

/-- `cluster_loop_check` against the own cluster. -/
def bgpClusterFilter (bgp : Bgp) (attr : Attr) : Bool :=
  match attr.cluster with
  | none => false
  | some cluster => cluster.list.contains (bgp.clusterId.getD bgp.routerId)

/-- The checks at the head of `bgp_update`: `none` is the jump to `filtered`, else
the attributes as the route map leaves them. -/
def acceptUpdate (bgp : Bgp) (peer : Peer) (env : Environment) (attr : Attr) : Option Attr :=
  let loopCount := if peer.localAsNoPrepend then 0 else 1
  if peer.changeLocalAs ≠ 0 ∧ loopCount < aspathLoopCheck attr.aspath peer.changeLocalAs then none
  else if peer.allowasIn < aspathLoopCheck attr.aspath bgp.as ∨
      (bgp.confederation ∧ peer.allowasIn < aspathLoopCheck attr.aspath bgp.confedId) then none
  else if attr.has .originatorId ∧ bgp.routerId = attr.originatorId then none
  else if bgpClusterFilter bgp attr then none
  else if !env.inputFilter attr then none
  else (env.inputModifier attr).bind fun newAttr =>
    if bgp.afi = .ip ∧ bgp.safi = .unicast then
      if peerSort bgp peer = .ebgp ∧ peer.ttl = 1 ∧ !env.nexthopCheckEbgp newAttr ∧
          !peer.disableConnectedCheck then none
      else if env.nexthopSelf newAttr ∨ newAttr.nexthop = 0 ∨ 0xe0000000 ≤ newAttr.nexthop then none
      else some newAttr
    else some newAttr

/-- Whether the next hop of a path from this peer has to be resolved. -/
def needsNexthop (bgp : Bgp) (peer : Peer) : Bool :=
  bgp.safi = .unicast &&
    (peerSort bgp peer = .ibgp || (peerSort bgp peer = .ebgp && peer.ttl ≠ 1) ||
    peer.disableConnectedCheck)

/-- The next hop reachability check: VALID or not, and the path with its cost. -/
def nexthopCheck (bgp : Bgp) (peer : Peer) (env : Environment) (ri : BgpInfo) : Bool × BgpInfo :=
  if needsNexthop bgp peer then
    ((env.nexthopLookup ri).1, { ri with igpmetric := (env.nexthopLookup ri).2 })
  else (true, ri)

def dampConfigured (bgp : Bgp) (id : PathId) : Bool :=
  bgp.dampening && peerSort bgp (bgp.peer id.peer) = .ebgp

/-- A node and the account of the peer that a call is about. -/
abbrev Local := Node × Account

section Operations
variable (bgp : Bgp) (cfg : DampConfig) (aggregates : List Bool)

/-- `bgp_rib_remove`. -/
def bgpRibRemove (id : PathId) : Local → Local
  | (node, account) =>
    if (node.flags id).history then (node.delete id, account)
    else
      let account := if (node.flags id).stale then account else account.decrement
      let node := node.aggregateDecrement bgp aggregates id
      let node := (node.setValid id false).process bgp
      (node.delete id, account)

/-- `bgp_rib_withdraw`, from the call of `bgp_damp_withdraw` on. -/
def ribWithdrawTail (id : PathId) (status : DampStatus) (node : Node) : Node :=
  let valid := (node.flags id).valid
  let node := (node.setValid id false).process bgp
  let node := if valid then node.setValid id true else node
  if status = .used then node else node.delete id

/-- `bgp_rib_withdraw` under dampening: a path that was damped already stays as it is. -/
def ribWithdrawDamped (now : Int) (id : PathId) (node : Node) : Node :=
  match node.dampWithdraw cfg now false id with
  | (node, .suppressed) => node
  | (node, status) => ribWithdrawTail bgp id status node

/-- `bgp_rib_withdraw`. -/
def bgpRibWithdraw (now : Int) (force : Bool) (id : PathId) : Local → Local
  | (node, account) =>
    let counted := !(node.flags id).history
    let account := if counted then account.decrement else account
    let node := if counted then node.aggregateDecrement bgp aggregates id else node
    if !force && dampConfigured bgp id then (ribWithdrawDamped bgp cfg now id node, account)
    else (ribWithdrawTail bgp id .none node, account)

section
variable (env : Environment)
variable (id : PathId)

/-- A history path comes in again unchanged. -/
def updateReturned (node : Node) : Node :=
  match node.dampUpdate cfg env.updateTime id with
  | (node, .suppressed) => node
  | (node, _) => (node.aggregateIncrement bgp aggregates id).process bgp

/-- `bgp_update` when the same attributes come in again. -/
def updateSame : Local → Local
  | (node, account) =>
    let node := node.setFlags id fun f => { f with attrChanged := false }
    if dampConfigured bgp id && (node.flags id).history then
      (updateReturned bgp cfg aggregates env id node, account.increment)
    else if (node.flags id).stale then
      (node.setFlags id fun f => { f with stale := false }, account.increment)
    else (node, account)

/-- The end of an implicit withdraw: next hop check, aggregates and selection. -/
def updateFinish (ri : BgpInfo) (node : Node) : Node :=
  let (valid, ri) := nexthopCheck bgp (bgp.peer ri.id.peer) env ri
  let node := (node.replace ri).setValid ri.id valid
  (node.aggregateIncrement bgp aggregates ri.id).process bgp

/-- The end of an implicit withdraw under dampening. -/
def updateDamped (ri : BgpInfo) (node : Node) : Node :=
  match node.dampUpdate cfg env.updateTime ri.id with
  | (node, .suppressed) => node
  | (node, _) => updateFinish bgp aggregates env ri node

/-- What a change of attributes does to the path before the aggregates look at it:
under dampening it counts as a withdraw. -/
def changeMark (node : Node) : Node :=
  let node := node.setFlags id fun f => { f with stale := false, attrChanged := true }
  if dampConfigured bgp id && !(node.flags id).history then
    (node.dampWithdraw cfg env.withdrawTime true id).1
  else node

/-- `bgp_update` when the attributes of the path change. -/
def updateChanged (ri : BgpInfo) (attrNew : Attr) : Local → Local
  | (node, account) =>
    let account := if (node.flags ri.id).stale then account.increment else account
    let account := if dampConfigured bgp ri.id && (node.flags ri.id).history then account.increment
      else account
    let node := (changeMark bgp cfg env ri.id node).aggregateDecrement bgp aggregates ri.id
    let ri := { ri with attr := attrNew }
    let node := node.replace ri
    if dampConfigured bgp ri.id then (updateDamped bgp cfg aggregates env ri node, account)
    else (updateFinish bgp aggregates env ri node, account)

/-- `bgp_update` of a path that is not on the node yet. -/
def updateNew (attrNew : Attr) : Local → Local
  | (node, account) =>
    let account := account.increment
    let (valid, ri) := nexthopCheck bgp (bgp.peer id.peer) env { id := id, attr := attrNew }
    let node := node.fresh id { valid := valid }
    let node := (node.aggregateIncrement bgp aggregates id).add ri
    match account.maximumPrefixOverflow (bgp.peer id.peer) with
    | (true, account) => (node, account)
    | (false, account) => (node.process bgp, account)

/-- `bgp_update`. -/
def bgpUpdate (attr : Attr) (state : Local) : Local :=
  match state.1.find? id, acceptUpdate bgp (bgp.peer id.peer) env attr with
  | none, none => state
  | some ri, none => bgpRibWithdraw bgp cfg aggregates env.withdrawTime true ri.id state
  | none, some attrNew => updateNew bgp aggregates env id attrNew state
  | some ri, some attrNew =>
    if ri.attr.hashCmp attrNew then updateSame bgp cfg aggregates env ri.id state
    else updateChanged bgp cfg aggregates env ri attrNew state

end

/-- `bgp_withdraw`. -/
def bgpWithdraw (now : Int) (id : PathId) (state : Local) : Local :=
  match state.1.find? id with
  | none => state
  | some ri =>
    if (state.1.flags ri.id).history then state
    else bgpRibWithdraw bgp cfg aggregates now false ri.id state

/-- `bgp_clear_route_table` on one node; `nsf` is set while a restarting peer is
waited for. -/
def clearRouteNode (nsf : Bool) (peer : PeerId) (state : Local) : Local :=
  match state.1.info.find? fun ri => ri.id.peer = peer with
  | none => state
  | some ri =>
    let flags := state.1.flags ri.id
    if nsf && !flags.stale && !flags.history && !flags.damped then
      (state.1.setFlags ri.id fun f => { f with stale := true }, state.2.decrement)
    else bgpRibRemove bgp aggregates ri.id state

/-- `bgp_clear_stale_route` on one node. -/
def clearStaleNode (peer : PeerId) (state : Local) : Local :=
  match state.1.info.find? fun ri => ri.id.peer = peer with
  | none => state
  | some ri => if (state.1.flags ri.id).stale then bgpRibRemove bgp aggregates ri.id state
    else state

/-- The identity of an aggregate route. -/
def aggregateId : PathId := ⟨bgp.peerSelf, 9, .aggregate⟩

/-- What `bgp_aggregate_route` adds at the aggregate's own node. -/
def aggregateAdd (attr : Attr) (node : Node) : Node :=
  let id := aggregateId bgp
  ((node.fresh id { valid := true }).add { id := id, attr := attr }).process bgp

/-- What `bgp_aggregate_delete` does at the aggregate's own node. -/
def aggregateRemove (node : Node) : Node :=
  match node.find? (aggregateId bgp) with
  | none => node
  | some ri => ((node.setValid ri.id false).process bgp).delete ri.id

/-- An aggregate is always deleted before it is computed anew, if anything is left
to aggregate. -/
def aggregateReplace (attr : Option Attr) (node : Node) : Node :=
  match attr with
  | none => aggregateRemove bgp node
  | some attr => aggregateAdd bgp attr (aggregateRemove bgp node)

end Operations

/-- The RIB of one address family: a node for every prefix that has been seen, in
the order of the table, and the accounts of the peers. -/
structure Rib (Key : Type) where
  nodes : List (Key × Node) := []
  accounts : PeerId → Account := fun _ => {}

/-- The calls a RIB takes. The last two are what aggregation does to a node when
the paths of another one change. -/
inductive Op (Key : Type) where
  | update (key : Key) (id : PathId) (attr : Attr) (env : Environment)
  | withdraw (key : Key) (id : PathId) (now : Int)
  | clearRoute (peer : PeerId) (nsf : Bool)
  | clearStale (peer : PeerId)
  | aggregateChanged (key : Key) (summaryOnly : Bool)
  | aggregateReplace (key : Key) (attr : Option Attr)

namespace Rib
variable {Key : Type} [DecidableEq Key]

def node (rib : Rib Key) (key : Key) : Node :=
  ((rib.nodes.find? fun entry => entry.1 = key).map Prod.snd).getD {}

/-- Store a node under its prefix, at the end if the prefix is new. -/
def storeNode (key : Key) (node : Node) : List (Key × Node) → List (Key × Node)
  | [] => [(key, node)]
  | (other, stored) :: rest =>
    if other = key then (key, node) :: rest else (other, stored) :: storeNode key node rest

def store (rib : Rib Key) (key : Key) (peer : PeerId) (state : Local) : Rib Key where
  nodes := storeNode key state.1 rib.nodes
  accounts := fun other => if other = peer then state.2 else rib.accounts other

/-- A call on one node for one peer. -/
def onNode (rib : Rib Key) (key : Key) (peer : PeerId) (call : Local → Local) : Rib Key :=
  rib.store key peer (call (rib.node key, rib.accounts peer))

/-- The walk over the table: the same call on every node. -/
def walkNodes (peer : PeerId) (call : Key → Local → Local) :
    List (Key × Node) → Account → List (Key × Node) × Account
  | [], account => ([], account)
  | (key, node) :: rest, account =>
    let (node, account) := call key (node, account)
    let (rest, account) := walkNodes peer call rest account
    ((key, node) :: rest, account)

def walk (rib : Rib Key) (peer : PeerId) (call : Key → Local → Local) : Rib Key :=
  let (nodes, account) := walkNodes peer call rib.nodes (rib.accounts peer)
  { nodes := nodes, accounts := fun other => if other = peer then account else rib.accounts other }

variable (bgp : Bgp) (cfg : DampConfig) (aggregates : Key → List Bool)

def step (rib : Rib Key) : Op Key → Rib Key
  | .update key id attr env =>
    rib.onNode key id.peer (bgpUpdate bgp cfg (aggregates key) env id attr)
  | .withdraw key id now => rib.onNode key id.peer (bgpWithdraw bgp cfg (aggregates key) now id)
  | .clearRoute peer nsf => rib.walk peer fun key => clearRouteNode bgp (aggregates key) nsf peer
  | .clearStale peer => rib.walk peer fun key => clearStaleNode bgp (aggregates key) peer
  | .aggregateChanged key summaryOnly => rib.onNode key bgp.peerSelf fun state =>
      ((state.1.aggregateDelete bgp summaryOnly).aggregateRoute bgp none none summaryOnly, state.2)
  | .aggregateReplace key attr => rib.onNode key bgp.peerSelf fun state =>
      (aggregateReplace bgp attr state.1, state.2)

def run (rib : Rib Key) (ops : List (Op Key)) : Rib Key :=
  ops.foldl (step bgp cfg aggregates) rib

end Rib
end Zebra.Bgpd
