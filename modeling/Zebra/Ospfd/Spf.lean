import Zebra.Base.Reader
import Zebra.Ospfd.Flood

/-! The shortest-path tree of an area, of ospfd/ospf_spf.c. The children of a vertex and the routes
that are made of the tree are not part of it. -/
namespace Zebra.Ospfd
open Base

/-- A vertex is told apart by the type and the Link State ID of its LSA. -/
structure VertexKey where
  type : LsaType
  id : InAddr
deriving DecidableEq

/-- `struct router_lsa_link`, in host order. -/
structure RouterLsaLink where
  linkId : InAddr
  linkData : InAddr
  type : Octet
  tosCount : Octet
  metric : BitVec 16
deriving DecidableEq

def lsaLinkTypePointopoint : Octet := 1
def lsaLinkTypeTransit : Octet := 2
def lsaLinkTypeStub : Octet := 3
def lsaLinkTypeVirtuallink : Octet := 4

/-- The link at an offset from the end of the header. -/
def linkAt (body : List Octet) (p : Nat) : RouterLsaLink where
  linkId := field body p 4
  linkData := field body (p + 4) 4
  type := field body (p + 8) 1
  tosCount := field body (p + 9) 1
  metric := field body (p + 10) 2

/-- The links of a router-LSA one after the other, each as long as its TOS metrics make it. -/
def linksFrom (body : List Octet) (lim : Nat) : Nat → Nat → List RouterLsaLink
  | 0, _ => []
  | fuel + 1, p =>
    if p < lim then linkAt body p :: linksFrom body lim fuel
      (p + 12 + 4 * (linkAt body p).tosCount.toNat) else []

/-- The attached routers of a network-LSA. -/
def routersFrom (body : List Octet) (lim : Nat) : Nat → Nat → List InAddr
  | 0, _ => []
  | fuel + 1, p => if p < lim then field body p 4 :: routersFrom body lim fuel (p + 4) else []

namespace OspfLsa
variable (lsa : OspfLsa)

/-- Where an LSA ends, from the end of its header. -/
def lim : Nat := lsa.data.length.toNat - 20

def links : List RouterLsaLink := linksFrom lsa.body lsa.lim lsa.lim 4

def routers : List InAddr := routersFrom lsa.body lsa.lim lsa.lim 4

/-- `IS_ROUTER_LSA_VIRTUAL`. -/
def isVirtual : Bool := (field lsa.body 0 1 : Octet) &&& 4 ≠ 0

def vertexKey : VertexKey := ⟨lsa.key.type, lsa.key.id⟩

end OspfLsa

/-- The loop of `ospf_lsa_has_link` over a router-LSA: the links that are left, the index of the
next one and what is left of the length. -/
def hasLinkFrom (body : List Octet) (v : VertexKey) : Nat → Nat → Int → Bool
  | 0, _, _ => false
  | left + 1, i, length =>
    if 36 ≤ length then
      let link := linkAt body (4 + 12 * i)
      if (link.type = lsaLinkTypePointopoint ∨ link.type = lsaLinkTypeVirtuallink) ∧
        v.type = .router ∧ link.linkId = v.id then true
      else if link.type = lsaLinkTypeTransit ∧ v.type = .network ∧ link.linkId = v.id then true
      else hasLinkFrom body v left (i + 1) (length - 12)
    else false

/-- `ospf_lsa_has_link`: whether W links back to V. -/
def ospfLsaHasLink (w : OspfLsa) (v : VertexKey) : Bool :=
  match w.key.type with
  | .network =>
    v.type ≠ .network && (List.range ((w.data.length.toNat - 24) / 4)).any fun i =>
      field w.body (4 + 4 * i) 4 = v.id
  | .router => hasLinkFrom w.body v (field w.body 2 2 : BitVec 16).toNat 0 w.data.length.toNat
  | _ => false

structure VertexNexthop where
  oi : OiId
  router : InAddr
  parent : VertexKey
deriving DecidableEq

structure Vertex where
  lsa : OspfLsa
  distance : BitVec 32 := 0
  nexthop : List VertexNexthop := []
deriving DecidableEq

def Vertex.key (v : Vertex) : VertexKey := v.lsa.vertexKey

/-- What the calculation reads of an area. `family` is what the stack has where `la.family` is not
set. -/
structure SpfArea where
  ospf : Ospf
  area : AreaId
  routerLsaSelf : Option LsaId
  /-- `oi->connected->destination`. -/
  destination : OiId → InAddr := fun _ => 0
  prefixlen : OiId → Nat := fun _ => 24
  family : Nat := 2

/-- The state of a calculation. `registered` has every call of `ospf_spf_register`. -/
structure Spf where
  candidate : List Vertex := []
  rv : Assoc InAddr Vertex := ∅
  nv : Assoc InAddr Vertex := ∅
  transit : Bool := false
  registered : List VertexKey := []

/-- `ospf_nexthop_add_unique`. -/
def ospfNexthopAddUnique (nexthop : List VertexNexthop) (new : VertexNexthop) :
    List VertexNexthop :=
  if new ∈ nexthop then nexthop else nexthop ++ [new]

def ospfNexthopMerge (a b : List VertexNexthop) : List VertexNexthop :=
  b.foldl ospfNexthopAddUnique a

/-- What `ospf_get_next_link` returns from one call to the next: the links of V to W, whatever
their cost. -/
def ospfGetNextLink (v w : Vertex) : List RouterLsaLink :=
  v.lsa.links.filter fun l => l.type ≠ lsaLinkTypeStub && l.type ≠ lsaLinkTypeVirtuallink &&
    l.linkId = w.key.id

namespace SpfArea
variable (area : SpfArea)

def ospfIfIsConfigured (address : InAddr) : Option OspfInterface :=
  area.ospf.oiflist.find? fun oi => oi.type ≠ .virtuallink &&
    address = if oi.type = .pointopoint then area.destination oi.id else oi.address

/-- `prefix_cmp` of `la` with the address of a point-to-multipoint interface. -/
def onNetwork (oi : OspfInterface) (address : InAddr) : Bool :=
  area.family = 2 && address >>> (32 - area.prefixlen oi.id) =
    oi.address >>> (32 - area.prefixlen oi.id)

/-- The first link of W back to V whose other end is the interface of a link. -/
def otherEnd (v w : Vertex) (l : RouterLsaLink) : Option (OiId × InAddr) :=
  (ospfGetNextLink w v).findSome? fun l2 => (area.ospfIfIsConfigured l2.linkData).bind fun oi =>
    if oi.address = l.linkData then some (oi.id, l2.linkData) else none

/-- The way back over a point-to-point link of the root: the interface and the address of the
other end. -/
def wayBack (v w : Vertex) (l : RouterLsaLink) : Option (OiId × InAddr) :=
  match (area.ospfIfIsConfigured l.linkData).filter fun oi => oi.type = .pointomultipoint with
  | some oi => ((ospfGetNextLink w v).find? fun l2 => area.onNetwork oi l2.linkData).map fun l2 =>
    (oi.id, l2.linkData)
  | none => area.otherEnd v w l

/-- The next hops of W from the root itself. -/
def nexthopRoot (v w : Vertex) : List VertexNexthop :=
  if w.key.type = .router then
    ((ospfGetNextLink v w).filter fun l => l.type = lsaLinkTypePointopoint).filterMap fun l =>
      (area.wayBack v w l).map fun (oi, router) => ⟨oi, router, v.key⟩
  else
    (ospfGetNextLink v w).filterMap fun l => (area.ospfIfIsConfigured l.linkData).map fun oi =>
      ⟨oi.id, 0, v.key⟩

/-- `ospf_nexthop_calculation`: the next hops of W when its parent is V. -/
def ospfNexthopCalculation (root : VertexKey) (v w : Vertex) : List VertexNexthop :=
  if v.key = root then area.nexthopRoot v w
  else
    let attached := if v.key.type = .network then v.nexthop.find? fun x => x.parent = root else none
    match attached with
    | some x => (ospfGetNextLink w v).map fun l => ⟨x.oi, l.linkData, v.key⟩
    | none =>
      v.nexthop.foldl (fun nexthop x => ospfNexthopAddUnique nexthop { x with parent := v.key }) []

/-- The network-LSAs with a Link State ID, one for each router that has one. -/
def networkLsas (id : InAddr) : List LsaKey :=
  ((area.ospf.lsdb (.area area.area)).nodes.entries.filter fun entry =>
    entry.1.type = .network && entry.2.info.any fun lsa =>
      (area.ospf.lsa lsa).key.id = id).map Sigma.fst

/-- `ospf_lsa_lookup_by_id`: of several network-LSAs the first in the order of the table. -/
def ospfLsaLookupById (key : VertexKey) : Option LsaId :=
  match key.type with
  | .router => (area.ospf.lsdb (.area area.area)).lookup ⟨.router, key.id, key.id⟩
  | .network =>
    ((area.networkLsas key.id).argmin fun lsa => lsa.id.toNat * 2 ^ 32 + lsa.advRouter.toNat).bind
      (area.ospf.lsdb (.area area.area)).lookup
  | _ => none

end SpfArea

/-- Where a link leads. -/
def RouterLsaLink.target (l : RouterLsaLink) : Option VertexKey :=
  if l.type = lsaLinkTypePointopoint ∨ l.type = lsaLinkTypeVirtuallink then some ⟨.router, l.linkId⟩
  else if l.type = lsaLinkTypeTransit then some ⟨.network, l.linkId⟩
  else none

/-- The vertices that an LSA has links to, with their costs. -/
def OspfLsa.targets (lsa : OspfLsa) : List (VertexKey × BitVec 16) :=
  match lsa.key.type with
  | .router => lsa.links.filterMap fun l => l.target.map fun w => (w, l.metric)
  | _ => lsa.routers.map fun id => (⟨.router, id⟩, 0)

/-- `ospf_install_candidate`: sorted by distance, after those at the same one. -/
def ospfInstallCandidate (w : Vertex) : List Vertex → List Vertex
  | [] => [w]
  | cw :: rest => if w.distance < cw.distance then w :: cw :: rest
    else cw :: ospfInstallCandidate w rest

/-- The next hops of W are added to those of the candidate. -/
def mergeCandidate (w : Vertex) : List Vertex → List Vertex
  | [] => []
  | cw :: rest =>
    if cw.key = w.key then { cw with nexthop := ospfNexthopMerge cw.nexthop w.nexthop } :: rest
      else cw :: mergeCandidate w rest

namespace Spf

def table (spf : Spf) (type : LsaType) : Assoc InAddr Vertex :=
  if type = .router then spf.rv else spf.nv

def ospfSpfHasVertex (spf : Spf) (key : VertexKey) : Bool :=
  ((spf.table key.type).lookup key.id).isSome

def ospfSpfRegister (spf : Spf) (v : Vertex) : Spf :=
  if v.key.type = .router then
    { spf with rv := spf.rv.insert v.key.id v, registered := spf.registered ++ [v.key] }
  else { spf with nv := spf.nv.insert v.key.id v, registered := spf.registered ++ [v.key] }

def ospfVertexLookup (spf : Spf) (key : VertexKey) : Option Vertex :=
  spf.candidate.find? fun v => v.key = key

/-- The vertex W at a distance from the root over V, whose LSA was found. -/
def weigh (spf : Spf) (area : SpfArea) (root : VertexKey) (v w : Vertex) : Spf :=
  let calculated := { w with nexthop := area.ospfNexthopCalculation root v w }
  match spf.ospfVertexLookup w.key with
  | none => { spf with candidate := ospfInstallCandidate calculated spf.candidate }
  | some cw =>
    if cw.distance < w.distance then spf
    else if cw.distance = w.distance then
      { spf with candidate := mergeCandidate calculated spf.candidate }
    else
      { spf with
        candidate :=
          ospfInstallCandidate calculated (spf.candidate.eraseP fun found => found.key = w.key) }

/-- One link of V, for its target. -/
def examine (area : SpfArea) (root : VertexKey) (v : Vertex) (spf : Spf)
    (link : VertexKey × BitVec 16) : Spf :=
  match area.ospfLsaLookupById link.1 with
  | none => spf
  | some found =>
    let lsa := area.ospf.lsa found
    if lsa.isMaxage area.ospf.now then spf
    else if !ospfLsaHasLink lsa v.key then spf
    else if spf.ospfSpfHasVertex lsa.vertexKey then spf
    else spf.weigh area root v { lsa := lsa, distance := v.distance + link.2.setWidth 32 }

def ospfSpfNext (spf : Spf) (area : SpfArea) (root : VertexKey) (v : Vertex) : Spf :=
  let spf := if v.key.type = .router && v.lsa.isVirtual then { spf with transit := true } else spf
  v.lsa.targets.foldl (examine area root v) spf

/-- The loop of `ospf_spf_calculate`, from the vertex that was registered last. -/
def spfLoop (area : SpfArea) (root : VertexKey) : Nat → Vertex → Spf → Option Spf
  | 0, _, _ => none
  | fuel + 1, v, spf =>
    match (spf.ospfSpfNext area root v).candidate with
    | [] => some (spf.ospfSpfNext area root v)
    | next :: rest => spfLoop area root fuel next
      ({ spf.ospfSpfNext area root v with candidate := rest }.ospfSpfRegister next)

end Spf

/-- `ospf_spf_calculate`, up to the second stage; nothing without a router-LSA of our own. -/
def ospfSpfCalculate (area : SpfArea) (fuel : Nat) : Option Spf :=
  match area.routerLsaSelf with
  | none => some {}
  | some self =>
    let root : Vertex := { lsa := area.ospf.lsa self }
    Spf.spfLoop area root.key fuel root (({} : Spf).ospfSpfRegister root)

end Zebra.Ospfd
