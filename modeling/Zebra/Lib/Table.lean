import Zebra.Base.LinkedTree
import Zebra.Lib.RouteCommon

/-! The route table of lib/table.c. The result `none` stands for a failed assertion, a dangling
pointer or a loop that does not end. -/

namespace Zebra
open Function Base

abbrev NodeId := Nat

/-- `struct route_node`; the default field values are those `XCALLOC` leaves. `lock` is an unsigned
int there: this is about tables with fewer than 2 ^ 32 locks on a node. -/
structure RouteNode (Info : Type) where
  p : Prefix
  parent : Option NodeId := none
  link : Bool → Option NodeId := fun _ => none
  lock : Nat := 0
  info : Option Info := none

/-- `struct route_table` with the heap its nodes live in; identities from
`fresh` on were never allocated. -/
structure RouteTable (Info : Type) where
  top : Option NodeId
  nodes : NodeId → Option (RouteNode Info)
  fresh : NodeId

variable {Info : Type}

def routeTableInit : RouteTable Info :=
  { top := none, nodes := fun _ => none, fresh := 0 }

namespace RouteTable
section
variable (table : RouteTable Info)

def put (id : NodeId) (node : RouteNode Info) : RouteTable Info :=
  { table with nodes := update table.nodes id (some node) }

def alloc (node : RouteNode Info) : RouteTable Info :=
  { table with nodes := update table.nodes table.fresh (some node), fresh := table.fresh + 1 }

/-- `route_node_free`. -/
def routeNodeFree (id : NodeId) : RouteTable Info :=
  { table with nodes := update table.nodes id none }

/-- `set_link`: hang `new` below `node`, on the side its own prefix chooses. -/
def setLink (node new : NodeId) : Option (RouteTable Info) := do
  let child ← table.nodes new
  let parent ← table.nodes node
  let bit := checkBit child.p.octets parent.p.prefixlen
  let table := table.put node { parent with link := update parent.link bit (some new) }
  let child ← table.nodes new
  return table.put new { child with parent := some node }

/-- `if (match) set_link (match, new); else table->top = new;` -/
def setLinkOrTop (owner : Option NodeId) (new : NodeId) : Option (RouteTable Info) :=
  match owner with
  | some owner => table.setLink owner new
  | none => some { table with top := some new }

def routeLockNode (id : NodeId) : Option (RouteTable Info) := do
  let node ← table.nodes id
  return table.put id { node with lock := node.lock + 1 }

/-- `if (child) child->parent = parent;` -/
def setParent (child parent : Option NodeId) : Option (RouteTable Info) :=
  match child with
  | some child => do
    let lower ← table.nodes child
    return table.put child { lower with parent := parent }
  | none => some table

/-- `if (parent)` store `child` where the parent points to the node, on the left
or else on the right, `else node->table->top = child;` -/
def replaceChild (parent : Option NodeId) (id : NodeId) (child : Option NodeId) :
    Option (RouteTable Info) :=
  match parent with
  | some parent => do
    let upper ← table.nodes parent
    let bit := !(upper.link false == some id)
    return table.put parent { upper with link := update upper.link bit child }
  | none => some { table with top := child }

/-- The part of `route_node_delete` up to `route_node_free`: the child, if any,
takes the place of the node. Returns the parent. -/
def unlinkNode (id : NodeId) (node : RouteNode Info) (child : Option NodeId)
    : Option (RouteTable Info × Option NodeId) := do
  let parent := node.parent
  let table ← table.setParent child parent
  let table ← table.replaceChild parent id child
  return (table.routeNodeFree id, parent)

end

/-- `route_node_delete`; each recursive call is on the parent, so the fuel bounds
the number of nodes freed by one call. -/
def routeNodeDelete : Nat → RouteTable Info → NodeId → Option (RouteTable Info)
  | 0, _, _ => none
  | fuel + 1, table, id => do
    let node ← table.nodes id
    if node.lock ≠ 0 ∨ node.info.isSome then none
    else if (node.link false).isSome ∧ (node.link true).isSome then return table
    else
      let child := if (node.link false).isSome then node.link false else node.link true
      let (table, parent) ← table.unlinkNode id node child
      match parent with
      | some parent =>
        let upper ← table.nodes parent
        if upper.lock = 0 then routeNodeDelete fuel table parent else return table
      | none => return table

variable (table : RouteTable Info)

/-- `route_unlock_node`. A lock of zero would wrap around; callers never unlock
more than they locked, so the model stops there. -/
def routeUnlockNode (id : NodeId) : Option (RouteTable Info) := do
  let node ← table.nodes id
  if node.lock = 0 then none
  else
    let table := table.put id { node with lock := node.lock - 1 }
    if node.lock - 1 = 0 then routeNodeDelete (node.p.prefixlen + 1) table id else return table

/-- Loop of `route_node_match`; the fuel bounds its iterations. -/
def matchLoop (table : RouteTable Info) (p : Prefix) :
    Nat → Option NodeId → Option NodeId → Option (Option NodeId)
  | 0, _, _ => none
  | _ + 1, none, matched => some matched
  | fuel + 1, some id, matched => do
    let node ← table.nodes id
    if node.p.prefixlen ≤ p.prefixlen ∧ prefixMatch node.p p then
      matchLoop table p fuel (node.link (checkBit p.octets node.p.prefixlen))
        (if node.info.isSome then some id else matched)
    else some matched

def routeNodeMatch (p : Prefix) : Option (RouteTable Info × Option NodeId) := do
  match ← matchLoop table p (p.prefixlen + 2) table.top none with
  | some matched => return (← table.routeLockNode matched, some matched)
  | none => return (table, none)

/-- Loop of `route_node_lookup`. -/
def lookupLoop (table : RouteTable Info) (p : Prefix) :
    Nat → Option NodeId → Option (Option NodeId)
  | 0, _ => none
  | _ + 1, none => some none
  | fuel + 1, some id => do
    let node ← table.nodes id
    if node.p.prefixlen ≤ p.prefixlen ∧ prefixMatch node.p p then
      if node.p.prefixlen = p.prefixlen ∧ node.info.isSome then some (some id)
      else lookupLoop table p fuel (node.link (checkBit p.octets node.p.prefixlen))
    else some none

def routeNodeLookup (p : Prefix) : Option (RouteTable Info × Option NodeId) := do
  match ← lookupLoop table p (p.prefixlen + 2) table.top with
  | some found => return (← table.routeLockNode found, some found)
  | none => return (table, none)

/-- How the loop of `route_node_get` ends: at the node with the wanted prefix, or
with the last match and the pointer that follows it. -/
inductive GetStop where
  | found (id : NodeId)
  | missing (matched node : Option NodeId)
deriving DecidableEq

/-- Loop of `route_node_get`. -/
def getLoop (table : RouteTable Info) (p : Prefix) :
    Nat → Option NodeId → Option NodeId → Option GetStop
  | 0, _, _ => none
  | _ + 1, none, matched => some (.missing matched none)
  | fuel + 1, some id, matched => do
    let node ← table.nodes id
    if node.p.prefixlen ≤ p.prefixlen ∧ prefixMatch node.p p then
      if node.p.prefixlen = p.prefixlen then some (.found id)
      else getLoop table p fuel (node.link (checkBit p.octets node.p.prefixlen)) (some id)
    else some (.missing matched (some id))

/-- The glue prefix `route_node_get` builds with `route_common`. -/
def glueOf (n p : Prefix) : Prefix where
  family := p.family
  prefixlen := (routeCommon n p).1
  octets := (routeCommon n p).2
  fits := Nat.le_trans (routeCommon_le n p) p.fits

/-- `route_node_get` when the walk ended at the null pointer: a new leaf. -/
def addLeaf (p : Prefix) (matched : Option NodeId) : Option (RouteTable Info × NodeId) := do
  let new := table.fresh
  let table := table.alloc { p := prefixCopy p }
  let table ← table.setLinkOrTop matched new
  return (← table.routeLockNode new, new)

/-- The `route_node_new` part of `route_node_get`: a new node with the glue prefix
takes the place of `id`, which moves below it. -/
def spliceAbove (glue : Prefix) (matched : Option NodeId) (id : NodeId) :
    Option (RouteTable Info × NodeId) := do
  let new := table.fresh
  let table := table.alloc { p := glue }
  let table ← table.setLink new id
  let table ← table.setLinkOrTop matched new
  return (table, new)

/-- `route_node_get` when the walk ended at a node `p` does not include: a new node
above it, and a leaf below that one unless the new node is `p` itself. -/
def addGlue (p : Prefix) (matched : Option NodeId) (id : NodeId) :
    Option (RouteTable Info × NodeId) := do
  let node ← table.nodes id
  let (table, new) ← table.spliceAbove (glueOf node.p p) matched id
  if (glueOf node.p p).prefixlen ≠ p.prefixlen then
    table.addLeaf p (some new)
  else
    return (← table.routeLockNode new, new)

def routeNodeGet (p : Prefix) : Option (RouteTable Info × NodeId) := do
  match ← getLoop table p (p.prefixlen + 2) table.top none with
  | .found id => return (← table.routeLockNode id, id)
  | .missing matched none => table.addLeaf p matched
  | .missing matched (some id) => table.addGlue p matched id

def routeTop : Option (RouteTable Info × Option NodeId) :=
  match table.top with
  | none => some (table, none)
  | some top => do return (← table.routeLockNode top, some top)

/-- Climbing loop of `route_next`: the right sibling of the first ancestor that
is a left child with one. -/
def climbLoop (table : RouteTable Info) : Nat → NodeId → Option (Option NodeId)
  | 0, _ => none
  | fuel + 1, id => do
    let node ← table.nodes id
    match node.parent with
    | none => some none
    | some parent =>
      let upper ← table.nodes parent
      if upper.link false = some id ∧ (upper.link true).isSome then some (upper.link true)
      else climbLoop table fuel parent

/-- The node `route_next` moves to. -/
def nextOf (id : NodeId) : Option (Option NodeId) := do
  let node ← table.nodes id
  if (node.link false).isSome then return node.link false
  else if (node.link true).isSome then return node.link true
  else climbLoop table (node.p.prefixlen + 1) id

def routeNext (id : NodeId) : Option (RouteTable Info × Option NodeId) := do
  match ← table.nextOf id with
  | some next =>
    let table ← table.routeLockNode next
    return (← table.routeUnlockNode id, some next)
  | none => return (← table.routeUnlockNode id, none)

/-- A caller stores `rn->info`, or clears it. -/
def setInfo (id : NodeId) (info : Option Info) : Option (RouteTable Info) := do
  let node ← table.nodes id
  return table.put id { node with info := info }

end RouteTable
end Zebra
