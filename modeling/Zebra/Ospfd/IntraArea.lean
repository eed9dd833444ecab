import Zebra.Base.Visit
import Zebra.Ospfd.Ase
import Zebra.Ospfd.Spf

/-! The routes to networks within areas, of ospfd/ospf_route.c and ospfd/ospf_spf.c. -/
namespace Zebra.Ospfd
open Base

/-- `struct ospf_path` of a route within an area, with the interface itself. -/
structure IntraPath where
  nexthop : InAddr
  oi : OiId
deriving DecidableEq

/-- `struct ospf_route` of a network within an area. `origin` is the header that
`u.std.origin` points to. -/
structure IntraRoute where
  id : InAddr
  areaId : AreaId
  cost : BitVec 32
  origin : LsaKey
  path : List IntraPath := []
deriving DecidableEq

abbrev IntraTable := Dest → Option IntraRoute

/-- `ospf_path_exist`. -/
def ospfPathExist (plist : List IntraPath) (nexthop : InAddr) (oi : OiId) : Bool :=
  plist.any fun path => path.nexthop = nexthop && path.oi = oi

/-- `ospf_route_copy_nexthops_from_vertex`, with the paths that the route has. -/
def ospfRouteCopyNexthopsFromVertex (paths : List IntraPath) (v : Vertex) : List IntraPath :=
  v.nexthop.foldl (fun paths nexthop =>
    if ospfPathExist paths nexthop.router nexthop.oi then paths
      else paths ++ [⟨nexthop.router, nexthop.oi⟩]) paths

/-- The network of a network-LSA. -/
def Vertex.network (v : Vertex) : Dest :=
  applyMask v.key.id (ipMasklen (field v.lsa.body 0 4))

/-- The network of a stub link. -/
def RouterLsaLink.network (link : RouterLsaLink) : Dest :=
  applyMask link.linkId (ipMasklen link.linkData)

/-- The stub links of a router-LSA. -/
def Vertex.stubs (v : Vertex) : List RouterLsaLink :=
  if v.key.type = .router then v.lsa.links.filter fun l => l.type = lsaLinkTypeStub else []

/-- The children that `ospf_vertex_add_parent` has given to a vertex. -/
def childrenOf (tree : List Vertex) (u : Vertex) : List Vertex :=
  tree.filter fun v => v.nexthop.any fun nexthop => nexthop.parent = u.key

namespace SpfArea
variable (area : SpfArea)

/-- `ospf_if_lookup_by_prefix`. -/
def ospfIfLookupByPrefix (p : Dest) : Option OspfInterface :=
  area.ospf.oiflist.find? fun oi => oi.type ≠ .virtuallink &&
    (if oi.type = .pointopoint then applyMask (area.destination oi.id) 32
      else applyMask oi.address (area.prefixlen oi.id)) = p

def ospfIntraAddTransit (rt : IntraTable) (v : Vertex) : IntraTable :=
  let new : IntraRoute :=
    { id := v.key.id, areaId := area.area, cost := v.distance, origin := v.lsa.key,
      path := ospfRouteCopyNexthopsFromVertex [] v }
  match rt v.network with
  | some curOr =>
    if v.distance > curOr.cost ∨ curOr.origin.id > v.lsa.key.id then rt
    else Function.update rt v.network (some new)
  | none => Function.update rt v.network (some new)

def ospfIntraAddStub (root : VertexKey) (v : Vertex) (rt : IntraTable) (link : RouterLsaLink) :
    IntraTable :=
  let cost := v.distance + link.metric.setWidth 32
  match rt link.network with
  | some curOr =>
    if cost > curOr.cost then rt
    else if cost = curOr.cost then
      Function.update rt link.network (some { curOr with
        path := ospfRouteCopyNexthopsFromVertex curOr.path v
        origin := if curOr.origin.id < v.lsa.key.id then v.lsa.key else curOr.origin })
    else
      Function.update rt link.network (some { curOr with
        cost, path := ospfRouteCopyNexthopsFromVertex [] v, origin := v.lsa.key })
  | none =>
    Function.update rt link.network (some {
      id := v.key.id, areaId := area.area, cost, origin := v.lsa.key
      path :=
        if v.key ≠ root then ospfRouteCopyNexthopsFromVertex [] v
        else (area.ospfIfLookupByPrefix link.network).toList.map fun oi => ⟨0, oi.id⟩ })

/-- A calculation on the way: the vertices in the order in which they joined the tree, without the
root, and the table of networks. -/
structure Stage where
  spf : Spf
  tree : List Vertex := []
  newTable : IntraTable

/-- The loop of `ospf_spf_calculate`, from the vertex that joined the tree last. -/
def calculateLoop (area : SpfArea) (root : VertexKey) : Nat → Vertex → Stage → Option Stage
  | 0, _, _ => none
  | fuel + 1, v, stage =>
    let spf := stage.spf.ospfSpfNext area root v
    match spf.candidate with
    | [] => some { stage with spf := spf }
    | next :: rest =>
      area.calculateLoop root fuel next {
        spf := { spf with candidate := rest }.ospfSpfRegister next
        tree := stage.tree ++ [next]
        newTable := if next.key.type = .router then stage.newTable
          else area.ospfIntraAddTransit stage.newTable next }

/-- The stub links of one vertex. -/
def processStubs (root : VertexKey) (rt : IntraTable) (v : Vertex) : IntraTable :=
  v.stubs.foldl (area.ospfIntraAddStub root v) rt

/-- `ospf_spf_process_stubs`, with the vertices flagged `OSPF_VERTEX_PROCESSED`. -/
def ospfSpfProcessStubs (root : VertexKey) (tree : List Vertex) (fuel : Nat) (v : Vertex)
    (state : List Vertex × IntraTable) : Option (List Vertex × IntraTable) :=
  visit (childrenOf tree) (area.processStubs root) fuel v state

/-- `ospf_spf_calculate`. -/
def ospfSpfCalculateInto (fuel : Nat) (newTable : IntraTable) : Option IntraTable :=
  match area.routerLsaSelf with
  | none => some newTable
  | some self =>
    let root : Vertex := { lsa := area.ospf.lsa self }
    (area.calculateLoop root.key fuel root {
      spf := ({} : Spf).ospfSpfRegister root, newTable }).bind fun stage =>
      (area.ospfSpfProcessStubs root.key stage.tree fuel root ([], stage.newTable)).map Prod.snd

end SpfArea

/-- The loop of `ospf_spf_calculate_timer` over the areas, into a new table. -/
def ospfSpfCalculateAreas (areas : List SpfArea) (fuel : Nat) : Option IntraTable :=
  areas.foldlM (fun newTable area => area.ospfSpfCalculateInto fuel newTable) fun _ => none

end Zebra.Ospfd
