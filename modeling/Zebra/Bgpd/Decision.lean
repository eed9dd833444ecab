import Zebra.Bgpd.Peer

/-! Best path selection on one node, `bgp_process` of bgpd/bgp_route.c. -/
namespace Zebra.Bgpd
open Base

inductive SubType where
  | normal
  | static
  | aggregate
  | redistribute
deriving DecidableEq

/-- The flags of `struct bgp_info`. -/
structure Flags where
  igpChanged : Bool := false
  damped : Bool := false
  history : Bool := false
  selected : Bool := false
  valid : Bool := false
  attrChanged : Bool := false
  dmedCheck : Bool := false
  dmedSelected : Bool := false
  stale : Bool := false
deriving DecidableEq

/-- `BGP_INFO_HOLDDOWN`. -/
def Flags.holddown (flags : Flags) : Bool :=
  !flags.valid || flags.history || flags.damped

/-- What identifies a path on a node: `bgp_update` and its siblings look a path up
by these before they add one, so no two paths of a node share them. -/
structure PathId where
  peer : PeerId
  type : Nat
  subType : SubType
deriving DecidableEq

/-- `struct bgp_info` without its flags, which selection writes. -/
structure BgpInfo where
  id : PathId
  attr : Attr
  igpmetric : BitVec 32 := 0
deriving DecidableEq

/-- `attr->aspath->length`; a missing path is a NULL pointer, and zero stands for no octets read
  there. -/
def Attr.aspathLength (attr : Attr) : Nat :=
  (attr.aspath.map Aspath.length).getD 0

/-- `attr->aspath->count` in the same way. -/
def Attr.aspathCount (attr : Attr) : Nat :=
  (attr.aspath.map Aspath.count).getD 0

/-- `bgp_med_value`. -/
def bgpMedValue (attr : Attr) (bgp : Bgp) : BitVec 32 :=
  if attr.has .multiExitDisc then attr.med
  else if bgp.medMissingAsWorst then 4294967295 else 0

def prefValue (attr : Attr) (bgp : Bgp) : BitVec 32 :=
  if attr.has .localPref then attr.localPref else bgp.defaultLocalPref

/-- `aspath_cmp_left` or `aspath_cmp_left_confed` of two paths; `none` is a missing AS path or a
  read behind one. -/
def readLeft (attr1 attr2 : Attr) : Option Bool := do
  let aspath1 ← attr1.aspath
  let aspath2 ← attr2.aspath
  if ← readCmpLeft aspath1 aspath2 then some true else readCmpLeftConfed aspath1 aspath2

/-- The paths' leftmost AS numbers agree. What lies behind a path is not known here and agrees with
nothing; `ReadsInside` says that no run has looked there. -/
def cmpLeft (attr1 attr2 : Attr) : Bool :=
  (readLeft attr1 attr2).getD false

/-- Whether step 6 looks at the MED values of two paths. -/
def medComparable (bgp : Bgp) (new exist : Attr) : Bool :=
  let internalAsRoute := new.aspathLength = 0 && exist.aspathLength = 0
  let confedAsRoute := 0 < new.aspathLength && 0 < exist.aspathLength &&
    new.aspathCount = 0 && exist.aspathCount = 0
  bgp.alwaysCompareMed || (bgp.medConfed && confedAsRoute) || cmpLeft new exist || internalAsRoute

def routerId (bgp : Bgp) (path : BgpInfo) : Ipv4 :=
  if path.attr.has .originatorId then path.attr.originatorId else (bgp.peer path.id.peer).remoteId

def clusterLength (attr : Attr) : Nat :=
  if attr.has .clusterList then (attr.cluster.map fun cluster => 4 * cluster.list.length).getD 0
    else 0

/-- `if (better) return 1; if (worse) return 0;` and then the remaining steps. -/
def prefer (better worse rest : Bool) : Bool :=
  if better then true else if worse then false else rest

/-- `bgp_info_cmp` of two paths. Of the flags it reads only SELECTED. -/
def bgpInfoCmp (bgp : Bgp) (selected : PathId → Bool) (new exist : BgpInfo) : Bool :=
  let newSort := peerSort bgp (bgp.peer new.id.peer)
  let existSort := peerSort bgp (bgp.peer exist.id.peer)
  let comparable := medComparable bgp new.attr exist.attr
  let cost := ecommunityCostCmp new.attr.ecommunity exist.attr.ecommunity costPoiIgp
  let oldest := !bgp.compareRouterId && newSort = .ebgp && existSort = .ebgp
  let address := sockunionCmp (bgp.peer new.id.peer).suRemote (bgp.peer exist.id.peer).suRemote
  -- 1. Weight check.
  prefer (exist.attr.weight < new.attr.weight) (new.attr.weight < exist.attr.weight) <|
  -- 2. Local preference check.
  prefer (prefValue exist.attr bgp < prefValue new.attr bgp)
    (prefValue new.attr bgp < prefValue exist.attr bgp) <|
  -- 3. Local route check.
  prefer (new.id.subType = .static) (exist.id.subType = .static) <|
  prefer (new.id.subType = .redistribute) (exist.id.subType = .redistribute) <|
  prefer (new.id.subType = .aggregate) (exist.id.subType = .aggregate) <|
  -- 4. AS path length check.
  prefer (!bgp.aspathIgnore && new.attr.aspathCount < exist.attr.aspathCount)
    (!bgp.aspathIgnore && exist.attr.aspathCount < new.attr.aspathCount) <|
  -- 5. Origin check.
  prefer (new.attr.origin < exist.attr.origin) (exist.attr.origin < new.attr.origin) <|
  -- 6. MED check.
  prefer (comparable && bgpMedValue new.attr bgp < bgpMedValue exist.attr bgp)
    (comparable && bgpMedValue exist.attr bgp < bgpMedValue new.attr bgp) <|
  -- 7. Peer type check.
  prefer (newSort = .ebgp && (existSort = .ibgp || existSort = .confed))
    (existSort = .ebgp && (newSort = .ibgp || newSort = .confed)) <|
  -- 8. IGP metric check.
  prefer (new.igpmetric < exist.igpmetric) (exist.igpmetric < new.igpmetric) <|
  -- 9. cost community check.
  prefer (!bgp.costCommunityIgnore && 0 < cost) (!bgp.costCommunityIgnore && cost < 0) <|
  -- 11. Of two external paths prefer the one received first.
  prefer (oldest && selected new.id) (oldest && selected exist.id) <|
  -- 12. Router-ID comparison.
  prefer (routerId bgp new < routerId bgp exist) (routerId bgp exist < routerId bgp new) <|
  -- 13. Cluster length comparison.
  prefer (clusterLength new.attr < clusterLength exist.attr)
    (clusterLength exist.attr < clusterLength new.attr) <|
  -- 14. Neighbor address comparison.
  !decide (address = 1)

/-- The flags of the paths of a node. -/
abbrev FlagMap := PathId → Flags

section
variable (flags : FlagMap) (id : PathId)

def FlagMap.modify (change : Flags → Flags) : FlagMap :=
  fun other => if other = id then change (flags other) else flags other

def FlagMap.setCheck : FlagMap :=
  flags.modify id fun f => { f with dmedCheck := true }

def FlagMap.unsetDmedSelected : FlagMap :=
  flags.modify id fun f => { f with dmedSelected := false }

def FlagMap.setDmedSelected : FlagMap :=
  flags.modify id fun f => { f with dmedSelected := true }

end

def FlagMap.selected (flags : FlagMap) (id : PathId) : Bool :=
  (flags id).selected

/-- The inner loop of the deterministic-med pass: the rest of the list is searched
for paths of the neighbour AS of `ri1`, and `newSelect` is the best so far. -/
def dmedGroup (bgp : Bgp) (ri1 : BgpInfo) : List BgpInfo → BgpInfo → FlagMap → BgpInfo × FlagMap
  | [], newSelect, flags => (newSelect, flags)
  | ri2 :: rest, newSelect, flags =>
    if (flags ri2.id).dmedCheck then dmedGroup bgp ri1 rest newSelect flags
    else if (flags ri2.id).holddown then dmedGroup bgp ri1 rest newSelect flags
    else if cmpLeft ri1.attr ri2.attr then
      if bgpInfoCmp bgp flags.selected ri2 newSelect then
        dmedGroup bgp ri1 rest ri2 ((flags.unsetDmedSelected newSelect.id).setCheck ri2.id)
      else dmedGroup bgp ri1 rest newSelect (flags.setCheck ri2.id)
    else dmedGroup bgp ri1 rest newSelect flags

/-- The deterministic-med pass. -/
def dmedPass (bgp : Bgp) : List BgpInfo → FlagMap → FlagMap
  | [], flags => flags
  | ri1 :: rest, flags =>
    if (flags ri1.id).dmedCheck then dmedPass bgp rest flags
    else if (flags ri1.id).holddown then dmedPass bgp rest flags
    else
      let (newSelect, flags) := dmedGroup bgp ri1 rest ri1 flags
      dmedPass bgp rest ((flags.setCheck newSelect.id).setDmedSelected newSelect.id)

/-- Pointers and flags of the selection loop. -/
structure Selection where
  oldSelect : Option BgpInfo := none
  newSelect : Option BgpInfo := none
  flags : FlagMap

/-- One round of the selection loop. -/
def selectStep (bgp : Bgp) (state : Selection) (ri : BgpInfo) : Selection :=
  let old := if (state.flags ri.id).selected then some ri else state.oldSelect
  if (state.flags ri.id).holddown then { state with oldSelect := old }
  else if bgp.deterministicMed && !(state.flags ri.id).dmedSelected then
    { state with
      oldSelect := old
      flags := state.flags.modify ri.id fun f => { f with dmedCheck := false } }
  else
    let flags := state.flags.modify ri.id fun f =>
      { f with dmedCheck := false, dmedSelected := false }
    let better := match state.newSelect with
      | none => true
      | some current => bgpInfoCmp bgp flags.selected ri current
    { oldSelect := old, newSelect := if better then some ri else state.newSelect, flags := flags }

variable (bgp : Bgp) (info : List BgpInfo) (flags : FlagMap)

/-- Both passes over the paths of a node. -/
def selectPass : Selection :=
  let flags := if bgp.deterministicMed then dmedPass bgp info flags else flags
  info.foldl (selectStep bgp) { flags := flags }

/-- What `bgp_process` tells the peers and zebra: nothing, or the new selection. -/
inductive Announcement where
  | unchanged
  | select (old new : Option BgpInfo)

/-- "Nothing to do": the same path, with the same attributes. -/
def Selection.settled (state : Selection) : Bool :=
  match state.oldSelect, state.newSelect with
  | some old, some new => old.id = new.id && !(state.flags old.id).attrChanged
  | _, _ => false

def FlagMap.unselect (flags : FlagMap) : Option BgpInfo → FlagMap
  | some old => flags.modify old.id fun f => { f with selected := false }
  | none => flags

def FlagMap.select (flags : FlagMap) : Option BgpInfo → FlagMap
  | some new => flags.modify new.id fun f => { f with selected := true, attrChanged := false }
  | none => flags

/-- `bgp_process`: run both passes, move the SELECTED flag, and announce. -/
def bgpProcess : FlagMap × Announcement :=
  let state := selectPass bgp info flags
  if state.settled then (state.flags, .unchanged)
  else ((state.flags.unselect state.oldSelect).select state.newSelect,
    .select state.oldSelect state.newSelect)

end Zebra.Bgpd
