import Zebra.Base.Cut
import Zebra.Ospfd.Spf

namespace Zebra.Ospfd
open Base List OspfLsa Option Bool
namespace OspfLsa

/-- The number of links that a router-LSA says it has. -/
def linkCount (lsa : OspfLsa) : Nat := (field lsa.body 2 2 : BitVec 16).toNat

/-- A router-LSA of as many links as it says, none with TOS metrics. -/
structure RouterForm (lsa : OspfLsa) : Prop where
  length : lsa.data.length.toNat = 24 + 12 * lsa.linkCount
  tos : ∀ i < lsa.linkCount, (linkAt lsa.body (4 + 12 * i)).tosCount = 0

/-- A network-LSA with a whole number of routers. -/
def NetworkForm (lsa : OspfLsa) : Prop :=
  24 ≤ lsa.data.length.toNat ∧ lsa.data.length.toNat % 4 = 0

/-- A router- or network-LSA in its form. -/
def Formed (lsa : OspfLsa) : Prop :=
  lsa.key.type = .router ∧ lsa.RouterForm ∨ lsa.key.type = .network ∧ lsa.NetworkForm

/-- What an LSA has links to, with what they cost. -/
def advertised (lsa : OspfLsa) : List (VertexKey × Nat) :=
  match lsa.key.type with
  | .router => (List.range lsa.linkCount).filterMap fun i =>
    (linkAt lsa.body (4 + 12 * i)).target.map fun w =>
      (w, (linkAt lsa.body (4 + 12 * i)).metric.toNat)
  | .network => (List.range ((lsa.data.length.toNat - 24) / 4)).map fun i =>
    (⟨.router, field lsa.body (4 + 4 * i) 4⟩, 0)
  | _ => []

end OspfLsa

theorem linksFrom_eq {body count} (tos : ∀ i < count, (linkAt body (4 + 12 * i)).tosCount = 0)
    (fuel i : Nat) (enough : count ≤ i + fuel) :
    linksFrom body (4 + 12 * count) fuel (4 + 12 * i) = (range' i (count - i)).map fun i =>
      linkAt body (4 + 12 * i) := by
  induction fuel generalizing i with
  | zero =>
    have none : count - i = 0 := by omega
    rw [linksFrom, none]
    rfl
  | succ fuel ih =>
    rw [linksFrom]
    split
    · have inside : i < count := by omega
      have one_more : count - i = (count - (i + 1)) + 1 := by omega
      have zero : (0 : Octet).toNat = 0 := rfl
      rw [tos i inside, zero, one_more, range'_succ, map_cons, ← ih (i + 1) (by omega)]
      rfl
    · have none : count - i = 0 := by omega
      rw [none]
      rfl

theorem routersFrom_eq (body : List Octet) (count fuel i : Nat) (enough : count ≤ i + fuel) :
    routersFrom body (4 + 4 * count) fuel (4 + 4 * i) = (range' i (count - i)).map fun i =>
      (field body (4 + 4 * i) 4 : InAddr) := by
  induction fuel generalizing i with
  | zero =>
    have none : count - i = 0 := by omega
    rw [routersFrom, none]
    rfl
  | succ fuel ih =>
    rw [routersFrom]
    split
    · have one_more : count - i = (count - (i + 1)) + 1 := by omega
      rw [one_more, range'_succ, map_cons, ← ih (i + 1) (by omega)]
      rfl
    · have none : count - i = 0 := by omega
      rw [none]
      rfl

/-- The scan of `ospf_spf_next` finds what is advertised. -/
theorem OspfLsa.Formed.targets {lsa : OspfLsa} (formed : lsa.Formed) :
    lsa.targets.map (fun link => (link.1, link.2.toNat)) = lsa.advertised := by
  rcases formed with ⟨type, length, tos⟩ | ⟨type, long, whole⟩
  · have lim : lsa.lim = 4 + 12 * lsa.linkCount := by
      rw [OspfLsa.lim]
      omega
    have scan : lsa.links = (List.range lsa.linkCount).map fun i =>
        linkAt lsa.body (4 + 12 * i) := by
      rw [OspfLsa.links, lim, range_eq_range']
      exact linksFrom_eq tos _ 0 (by omega)
    rw [OspfLsa.targets, OspfLsa.advertised, type]
    rw [scan, filterMap_map, map_filterMap]
    refine filterMap_congr fun i _ => ?_
    rw [Function.comp_apply, Option.map_map]
    rfl
  · have lim : lsa.lim = 4 + 4 * ((lsa.data.length.toNat - 24) / 4) := by
      rw [OspfLsa.lim]
      omega
    have scan : lsa.routers = (List.range ((lsa.data.length.toNat - 24) / 4)).map fun i =>
        (field lsa.body (4 + 4 * i) 4 : InAddr) := by
      rw [OspfLsa.routers, lim, range_eq_range']
      exact routersFrom_eq lsa.body _ _ 0 (by omega)
    rw [OspfLsa.targets, OspfLsa.advertised, type]
    rw [scan, List.map_map, List.map_map]
    rfl

/-- A router or a network. -/
def VertexKey.Proper (key : VertexKey) : Prop :=
  key.type = .router ∨ key.type = .network

theorem target_eq_some (link : RouterLsaLink) (v : VertexKey) :
    link.target = some v ↔
      (link.type = lsaLinkTypePointopoint ∨ link.type = lsaLinkTypeVirtuallink) ∧ v.type = .router ∧
      link.linkId = v.id ∨
      link.type = lsaLinkTypeTransit ∧ v.type = .network ∧ link.linkId = v.id := by
  obtain ⟨type, id⟩ := v
  rw [RouterLsaLink.target]
  split
  · rename_i routed
    rw [some.injEq, VertexKey.mk.injEq]
    constructor
    · rintro ⟨rfl, rfl⟩
      exact .inl ⟨routed, rfl, rfl⟩
    · rintro (⟨-, type, id⟩ | ⟨other, -, -⟩)
      · exact ⟨type.symm, id⟩
      · rw [other] at routed
        exact nomatch routed
  · rename_i unrouted
    split
    · rename_i transit
      rw [some.injEq, VertexKey.mk.injEq]
      constructor
      · rintro ⟨rfl, rfl⟩
        exact .inr ⟨transit, rfl, rfl⟩
      · rintro (⟨routed, -, -⟩ | ⟨-, type, id⟩)
        · exact absurd routed unrouted
        · exact ⟨type.symm, id⟩
    · rename_i other
      constructor
      · intro none
        cases none
      · rintro (⟨routed, -, -⟩ | ⟨transit, -, -⟩)
        · exact absurd routed unrouted
        · exact absurd transit other

theorem hasLinkFrom_iff (body : List Octet) (v : VertexKey) (left i : Nat) :
    hasLinkFrom body v left i ((24 + 12 * left : Nat) : Int) = true ↔
      ∃ j, i ≤ j ∧ j < i + left ∧ (linkAt body (4 + 12 * j)).target = some v := by
  induction left generalizing i with
  | zero =>
    constructor
    · intro found
      cases found
    · omega
  | succ left ih =>
    have long : (36 : Int) ≤ ((24 + 12 * (left + 1) : Nat) : Int) := by omega
    have shorter : ((24 + 12 * (left + 1) : Nat) : Int) - 12 =
      ((24 + 12 * left : Nat) : Int) := by omega
    rw [hasLinkFrom, if_pos long, shorter]
    dsimp only
    by_cases here : (linkAt body (4 + 12 * i)).target = some v
    · have found : ∃ j, i ≤ j ∧ j < i + (left + 1) ∧ (linkAt body (4 + 12 * j)).target = some v :=
        ⟨i, by omega, by omega, here⟩
      rw [iff_true_right found]
      rcases (target_eq_some _ v).mp here with routed | transit
      · rw [if_pos routed]
      · rw [if_pos transit, ite_self]
    · have neither := mt (target_eq_some _ v).mpr here
      rw [if_neg fun routed => neither (.inl routed),
        if_neg fun transit => neither (.inr transit), ih]
      constructor
      · rintro ⟨j, low, high, at_j⟩
        exact ⟨j, by omega, by omega, at_j⟩
      · rintro ⟨j, low, high, at_j⟩
        have later : i ≠ j := by
          rintro rfl
          exact here at_j
        exact ⟨j, by omega, by omega, at_j⟩

/-- The check of `ospf_lsa_has_link` agrees with the scan. -/
theorem OspfLsa.Formed.hasLink {lsa} (formed : lsa.Formed) {v} (proper : v.Proper) :
    ospfLsaHasLink lsa v = true ↔ ∃ cost, (v, cost) ∈ lsa.advertised := by
  rcases formed with ⟨type, length, tos⟩ | ⟨type, long, whole⟩
  · rw [ospfLsaHasLink, advertised, type]
    rw [length]
    refine (hasLinkFrom_iff lsa.body v lsa.linkCount 0).trans ⟨?_, ?_⟩
    · rintro ⟨j, -, high, at_j⟩
      refine ⟨(linkAt lsa.body (4 + 12 * j)).metric.toNat,
        mem_filterMap.mpr ⟨j, mem_range.mpr (by omega), ?_⟩⟩
      rw [at_j]
      rfl
    · rintro ⟨cost, member⟩
      obtain ⟨j, inside, found⟩ := mem_filterMap.mp member
      obtain ⟨w, at_j, same⟩ := map_eq_some_iff.mp found
      cases same
      exact ⟨j, Nat.zero_le _, by rw [zero_add]; exact mem_range.mp inside, at_j⟩
  · rw [ospfLsaHasLink, advertised, type]
    constructor
    · intro found
      rw [and_eq_true, decide_eq_true_eq] at found
      obtain ⟨j, inside, same⟩ := any_eq_true.mp found.2
      have router : v = ⟨.router, field lsa.body (4 + 4 * j) 4⟩ := by
        obtain ⟨vtype, id⟩ := v
        rw [of_decide_eq_true same]
        exact congrArg (VertexKey.mk · id) (proper.resolve_right found.1)
      exact ⟨0, mem_map.mpr ⟨j, inside, by rw [router]⟩⟩
    · rintro ⟨cost, member⟩
      obtain ⟨j, inside, same⟩ := mem_map.mp member
      cases same
      rw [and_eq_true, decide_eq_true_eq]
      exact ⟨LsaType.noConfusion, any_eq_true.mpr ⟨j, inside, decide_eq_true rfl⟩⟩

namespace SpfArea
variable {area : SpfArea} {mine : LsaId}

/-- The LSA of a vertex: our own for the root, and for others the one that the lookup finds. -/
def lsaOf (area : SpfArea) (mine : LsaId) (key : VertexKey) : Option LsaId :=
  if key = (area.ospf.lsa mine).vertexKey then some mine else area.ospfLsaLookupById key

/-- The LSA of W is there, is not MaxAge and has a link to V. -/
def linksBack (area : SpfArea) (w v : VertexKey) : Bool :=
  (area.ospfLsaLookupById w).any fun id =>
    !(area.ospf.lsa id).isMaxage area.ospf.now &&
      (area.ospf.lsa id).advertised.any fun link => link.1 = v

/-- The links of V that count. The age of our own LSA is not asked for. -/
def spfLinks (area : SpfArea) (mine : LsaId) (v : VertexKey) : List (VertexKey × Nat) :=
  match area.lsaOf mine v with
  | none => []
  | some id =>
    if v ≠ (area.ospf.lsa mine).vertexKey ∧ (area.ospf.lsa id).isMaxage area.ospf.now then []
    else (area.ospf.lsa id).advertised.filter fun link => area.linksBack link.1 v

/-- A database of LSAs under their own keys, with well-formed router- and network-LSAs, and a
router-LSA of our own. -/
structure WellFormed (area : SpfArea) (mine : LsaId) : Prop where
  filed : ∀ key id, (area.ospf.lsdb (.area area.area)).lookup key = some id →
    (area.ospf.lsa id).key = key
  formed : ∀ key id, (area.ospf.lsdb (.area area.area)).lookup key = some id →
    key.type = .router ∨ key.type = .network →
    (area.ospf.lsa id).Formed
  own : (area.ospf.lsa mine).key.type = .router
  ownForm : (area.ospf.lsa mine).RouterForm

theorem networkLsas_spec {at_id key id} (inside : key ∈ area.networkLsas at_id)
    (stored : (area.ospf.lsdb (.area area.area)).lookup key = some id) :
    (area.ospf.lsa id).key.id = at_id ∧ key.type = .network := by
  obtain ⟨entry, listed, rfl⟩ := mem_map.mp inside
  obtain ⟨member, fits⟩ := mem_filter.mp listed
  rw [and_eq_true, decide_eq_true_eq] at fits
  have info : entry.2.info = some id := by
    rw [← stored, Lsdb.lookup, AList.mem_lookup_iff.mpr member]
    rfl
  have named := fits.2
  rw [info] at named
  exact ⟨of_decide_eq_true named, fits.1⟩

theorem WellFormed.lookup (wf : area.WellFormed mine) {key id}
    (found : area.ospfLsaLookupById key = some id) :
    (area.ospf.lsa id).vertexKey = key ∧ key.Proper ∧ (area.ospf.lsa id).Formed ∧
      (area.ospf.lsdb (.area area.area)).lookup (area.ospf.lsa id).key = some id := by
  obtain ⟨type, at_id⟩ := key
  cases type with
  | router =>
    have own := wf.filed _ id found
    refine ⟨?_, .inl rfl, wf.formed _ id found (.inl rfl), ?_⟩
    · rw [vertexKey, own]
    · rw [own]
      exact found
  | network =>
    obtain ⟨key, least, stored⟩ := bind_eq_some_iff.mp found
    obtain ⟨same, network⟩ := networkLsas_spec (argmin_mem least) stored
    have own := wf.filed _ id stored
    refine ⟨?_, .inr rfl, wf.formed _ id stored (.inr network), ?_⟩
    · rw [vertexKey, same, own, network]
    · rw [own]
      exact stored
  | summary => cases found
  | asbrSummary => cases found
  | asExternal => cases found

theorem WellFormed.lsaOf (wf : area.WellFormed mine) {key id}
    (found : area.lsaOf mine key = some id) :
    (area.ospf.lsa id).vertexKey = key ∧ key.Proper ∧ (area.ospf.lsa id).Formed := by
  rw [SpfArea.lsaOf] at found
  split at found
  · rename_i root
    cases found
    exact ⟨root.symm, .inl (root ▸ wf.own), .inl ⟨wf.own, wf.ownForm⟩⟩
  · obtain ⟨same, proper, formed, -⟩ := wf.lookup found
    exact ⟨same, proper, formed⟩

theorem lsaOf_root (area : SpfArea) (mine : LsaId) :
    area.lsaOf mine (area.ospf.lsa mine).vertexKey = some mine :=
  if_pos rfl

theorem WellFormed.linksBack (wf : area.WellFormed mine) {w v} (proper : v.Proper) :
    area.linksBack w v = true ↔ ∃ id, area.ospfLsaLookupById w = some id ∧
    (area.ospf.lsa id).isMaxage area.ospf.now = false ∧
      ospfLsaHasLink (area.ospf.lsa id) v = true := by
  rw [SpfArea.linksBack, Option.any_eq_true]
  refine exists_congr fun id => and_congr_right fun found => ?_
  rw [and_eq_true, not_eq_true', (wf.lookup found).2.2.1.hasLink proper]
  refine and_congr_right fun _ => ?_
  rw [List.any_eq_true]
  constructor
  · rintro ⟨⟨key, cost⟩, member, same⟩
    exact ⟨cost, of_decide_eq_true same ▸ member⟩
  · rintro ⟨cost, member⟩
    exact ⟨(v, cost), member, decide_eq_true rfl⟩

end SpfArea
end Zebra.Ospfd
