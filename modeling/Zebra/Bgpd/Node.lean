import Zebra.Bgpd.DecisionSpec

/-! One node of the RIB with its paths, of bgpd/bgp_route.c and bgpd/bgp_damp.c. -/
namespace Zebra.Bgpd

inductive DampRecord where
  | update
  | withdraw
deriving DecidableEq

/-- `struct bgp_damp_info`, without the lists it is linked into. -/
structure DampInfo where
  penalty : Nat
  tUpdated : Int
  suppressTime : Int
  lastrecord : DampRecord
deriving DecidableEq

/-- `struct bgp_damp_config`. `decay` stands for `bgp_damp_decay`, which multiplies
with a table of floating point numbers. -/
structure DampConfig where
  suppressValue : Nat
  reuseLimit : Nat
  ceiling : Nat
  decay : Int → Nat → Nat

def defaultPenalty : Nat := 1000

inductive DampStatus where
  | none
  | used
  | suppressed
deriving DecidableEq

/-- A node: its paths in the order of `rn->info`, what selection and dampening
keep for each of them, and the path that peers and zebra were last told of. -/
structure Node where
  info : List BgpInfo := []
  flags : FlagMap := fun _ => {}
  damp : PathId → Option DampInfo := fun _ => none
  suppress : PathId → Int := fun _ => 0
  announced : Option PathId := none

namespace Node
section
variable (node : Node) (id : PathId)

def setFlags (change : Flags → Flags) : Node :=
  { node with flags := node.flags.modify id change }

def setValid (valid : Bool) : Node :=
  node.setFlags id fun f => { f with valid := valid }

def setDamp (damp : Option DampInfo) : Node :=
  { node with damp := fun other => if other = id then damp else node.damp other }

def addSuppress (amount : Int) : Node :=
  { node with suppress := fun other => if other = id then node.suppress other + amount
                else node.suppress other }

def find? (node : Node) (id : PathId) : Option BgpInfo :=
  node.info.find? fun ri => ri.id = id

/-- `bgp_process` on the node. -/
def process (bgp : Bgp) (node : Node) : Node :=
  match bgpProcess bgp node.info node.flags with
  | (flags, .unchanged) => { node with flags := flags }
  | (flags, .select _ new) => { node with flags := flags, announced := new.map BgpInfo.id }

/-- `bgp_info_delete` and `bgp_info_free`. -/
def delete : Node :=
  { node with info := node.info.filter fun ri => ri.id ≠ id }.setDamp id none

/-- `bgp_info_new`: the path has its first flags and nothing else yet. -/
def fresh (flags : Flags) : Node :=
  ((node.setFlags id fun _ => flags).setDamp id none).addSuppress id (-node.suppress id)

end

/-- `bgp_info_add` of a path whose flags are already there. -/
def add (node : Node) (ri : BgpInfo) : Node :=
  { node with info := ri :: node.info }

def replace (node : Node) (ri : BgpInfo) : Node :=
  { node with info := node.info.map fun other => if other.id = ri.id then ri else other }

/-- A path that counts for an aggregate. -/
def contributes (node : Node) (ri : BgpInfo) : Bool :=
  !(node.flags ri.id).holddown && ri.id.subType ≠ .aggregate

/-- The loop body of `bgp_aggregate_delete` for a summary-only aggregate. -/
def aggregateDeleteStep (state : Node × Bool) (ri : BgpInfo) : Node × Bool :=
  if state.1.contributes ri then
    let node := state.1.addSuppress ri.id (-1)
    if node.suppress ri.id = 0 then
      (node.setFlags ri.id fun f => { f with attrChanged := true }, true)
    else (node, state.2)
  else state

/-- The loop body of `bgp_aggregate_route` for a summary-only aggregate. -/
def aggregateRouteStep (del : Option PathId) (state : Node × Bool) (ri : BgpInfo) : Node × Bool :=
  if state.1.contributes ri && del ≠ some ri.id then
    ((state.1.addSuppress ri.id 1).setFlags ri.id fun f => { f with attrChanged := true }, true)
  else state

def processIf (bgp : Bgp) : Node × Bool → Node
  | (node, true) => node.process bgp
  | (node, false) => node

/-- What `bgp_aggregate_delete` does to a node below the aggregate. -/
def aggregateDelete (bgp : Bgp) (summaryOnly : Bool) (node : Node) : Node :=
  if summaryOnly then processIf bgp (node.info.foldl aggregateDeleteStep (node, false)) else node

/-- What `bgp_aggregate_route` does to a node below the aggregate. -/
def aggregateRoute (bgp : Bgp) (rinew del : Option PathId) (summaryOnly : Bool)
    (node : Node) : Node :=
  if summaryOnly then
    let node := processIf bgp (node.info.foldl (aggregateRouteStep del) (node, false))
    match rinew with
    | some id => node.addSuppress id 1
    | none => node
  else node

section
variable (bgp : Bgp) (aggregates : List Bool) (id : PathId) (node : Node)

/-- `bgp_aggregate_increment`; `aggregates` are the summary-only marks of the
aggregates over this node, from the longest prefix on. -/
def aggregateIncrement : Node :=
  if (node.flags id).holddown then node
  else aggregates.foldl (fun node summaryOnly =>
    (node.aggregateDelete bgp summaryOnly).aggregateRoute bgp (some id) none summaryOnly) node

/-- `bgp_aggregate_decrement`. -/
def aggregateDecrement : Node :=
  aggregates.foldl (fun node summaryOnly =>
    (node.aggregateDelete bgp summaryOnly).aggregateRoute bgp none (some id) summaryOnly) node

end

variable (cfg : DampConfig) (now : Int)

/-- The figure of merit after a withdraw. -/
def withdrawPenalty (attrChange : Bool) (damp : Option DampInfo) : Nat :=
  let added := if attrChange then defaultPenalty / 2 else defaultPenalty
  match damp with
  | none => added
  | some bdi => min (cfg.decay (now - bdi.tUpdated) bdi.penalty + added) cfg.ceiling

/-- `bgp_damp_withdraw`: the path becomes history, and damped if it was not yet and
its penalty is high enough. -/
def dampWithdraw (attrChange : Bool) (id : PathId) (node : Node) : Node × DampStatus :=
  let penalty := withdrawPenalty cfg now attrChange (node.damp id)
  let damped := (node.flags id).damped
  let heavy := decide (cfg.suppressValue ≤ penalty)
  let suppressTime := if !damped && heavy then now
    else ((node.damp id).map DampInfo.suppressTime).getD 0
  ((node.setDamp id (some ⟨penalty, now, suppressTime, .withdraw⟩)).setFlags id
      fun f => { f with history := true, damped := damped || heavy },
    if damped then .suppressed else .used)

/-- `bgp_damp_info_free` of a path that stays on the node. -/
def dampInfoFree (id : PathId) (node : Node) : Node :=
  (node.setDamp id none).setFlags id fun f => { f with history := false, damped := false }

/-- `bgp_damp_update`: the path is no history any more; a damped path is used again
below the reuse limit, and below half of it dampening forgets it. -/
def dampUpdate (id : PathId) (node : Node) : Node × DampStatus :=
  match node.damp id with
  | none => (node, .used)
  | some bdi =>
    let penalty := cfg.decay (now - bdi.tUpdated) bdi.penalty
    let damped := (node.flags id).damped
    let reused := damped && decide (penalty < cfg.reuseLimit)
    let status :=
      if (!damped && decide (penalty < cfg.suppressValue)) || reused then DampStatus.used
      else .suppressed
    let suppressTime := if reused then 0 else bdi.suppressTime
    if cfg.reuseLimit < 2 * penalty then
      ((node.setDamp id (some ⟨penalty, now, suppressTime, .update⟩)).setFlags id
          fun f => { f with history := false, damped := damped && !reused }, status)
    else (node.dampInfoFree id, status)

end Node
end Zebra.Bgpd
