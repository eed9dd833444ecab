import Zebra.Ospfd.Ase

/-! The routing table of an SPF calculation on its way to zebra. -/
namespace Zebra.Ospfd
open OspfPath

/-- `OSPF_DESTINATION_ROUTER` and so on. -/
inductive DestinationType where
  | router
  | network
  | discard
deriving DecidableEq

/-- `struct ospf_route` as the table of networks holds it. -/
structure TableRoute extends OspfRoute where
  type : DestinationType
deriving DecidableEq

/-- What an SPF calculation results in: the destinations with an entry, in the order of
`route_next`. It has paths within and between areas only. -/
structure RoutingTable where
  routes : List (Dest × TableRoute)
  distinct : (routes.map Prod.fst).Nodup
  internal : ∀ entry ∈ routes, entry.2.pathType = .intraArea ∨ entry.2.pathType = .interArea

def RoutingTable.lookup (rt : RoutingTable) (p : Dest) : Option TableRoute :=
  rt.routes.lookup p

/-- The comparison of two entries in `ospf_route_match_same`. -/
def sameRoute (or newor : TableRoute) : Bool :=
  or.type = newor.type && or.cost = newor.cost &&
    (or.type ≠ .network || (or.path.length = newor.path.length &&
      (or.path.zip newor.path).all fun (op, newop) => op.nexthop = newop.nexthop))

/-- `ospf_route_match_same`; the first table has none to compare with. -/
def ospfRouteMatchSame (rt : Option RoutingTable) (p : Dest) (newor : TableRoute) : Bool :=
  (rt.bind (·.lookup p)).any fun or => sameRoute or newor

/-- What zebra holds for a destination. -/
inductive ZebraEntry where
  | route (route : ZebraRoute)
  | blackhole
deriving DecidableEq

inductive ZebraCall where
  | ospfZebraAdd (p : Dest) (route : ZebraRoute)
  | ospfZebraDelete (p : Dest)
  | ospfZebraAddDiscard (p : Dest)
  | ospfZebraDeleteDiscard (p : Dest)
deriving DecidableEq

/-- What `ospf_zebra_add` sends of a route within or between areas. -/
def TableRoute.zebraRoute (or : TableRoute) : ZebraRoute where
  metric := or.cost
  nexthops := or.path.map OspfPath.zebraNexthop

def ospfRouteDeleteUniq (rt cmprt : RoutingTable) : List ZebraCall :=
  rt.routes.filterMap fun (p, or) =>
    if or.pathType = .intraArea ∨ or.pathType = .interArea then
      match or.type with
      | .network => if ospfRouteMatchSame (some cmprt) p or then none else some (.ospfZebraDelete p)
      | .discard => if ospfRouteMatchSame (some cmprt) p or then none
        else some (.ospfZebraDeleteDiscard p)
      | .router => none
    else none

section
variable (oldTable : Option RoutingTable) (rt : RoutingTable)

/-- The loop of `ospf_route_install` over the new table. -/
def installNew : List ZebraCall :=
  rt.routes.filterMap fun (p, or) =>
    match or.type with
    | .network => if ospfRouteMatchSame oldTable p or then none
      else some (.ospfZebraAdd p or.zebraRoute)
    | .discard => if ospfRouteMatchSame oldTable p or then none else some (.ospfZebraAddDiscard p)
    | .router => none

/-- `if (ospf->old_table) ospf_route_delete_uniq (ospf->old_table, rt);` -/
def removeOld : List ZebraCall :=
  match oldTable with
  | some old => ospfRouteDeleteUniq old rt
  | none => []

/-- `ospf_route_install`, with the table that was installed before. -/
def ospfRouteInstall : List ZebraCall :=
  removeOld oldTable rt ++ installNew oldTable rt

end

abbrev ZebraTable := Dest → Option ZebraEntry

def ZebraCall.dest : ZebraCall → Dest
  | .ospfZebraAdd p _ => p
  | .ospfZebraDelete p => p
  | .ospfZebraAddDiscard p => p
  | .ospfZebraDeleteDiscard p => p

def ZebraCall.outcome : ZebraCall → Option ZebraEntry
  | .ospfZebraAdd _ route => some (.route route)
  | .ospfZebraDelete _ => none
  | .ospfZebraAddDiscard _ => some .blackhole
  | .ospfZebraDeleteDiscard _ => none

/-- One route of a type for each destination: a new one takes the place of the old. -/
def hearCall (zebra : ZebraTable) (call : ZebraCall) : ZebraTable :=
  Function.update zebra call.dest call.outcome

/-- A loop over a table makes at most one call for each destination. -/
theorem hear_routes {aim}
    (aimed : ∀ p or call, aim (p, or) = some call → call.dest = p)
    (routes : List (Dest × TableRoute))
    (distinct : (routes.map Prod.fst).Nodup) (zebra : ZebraTable) (p : Dest) :
    (routes.filterMap aim).foldl hearCall zebra p =
      (((routes.lookup p).bind fun or => aim (p, or)).map ZebraCall.outcome).getD (zebra p) := by
  induction routes generalizing zebra with
  | nil => rfl
  | cons entry rest ih =>
    obtain ⟨q, or⟩ := entry
    obtain ⟨absent, rest_distinct⟩ := List.nodup_cons.mp distinct
    rw [List.filterMap_cons, List.lookup_cons]
    by_cases here : p = q
    · subst q
      have missing : rest.lookup p = none := by
        rw [List.lookup_eq_none_iff]
        intro other member
        simp only [bne_iff_ne, ne_eq]
        intro same
        exact absent (List.mem_map.mpr ⟨other, member, same.symm⟩)
      cases called : aim (p, or) with
      | none =>
        rw [ih rest_distinct, missing]
        simp [called]
      | some call =>
        rw [List.foldl_cons, ih rest_distinct, missing]
        simp [called, hearCall, aimed p or call called]
    · have apart : (p == q) = false := by simpa using here
      rw [apart]
      cases called : aim (q, or) with
      | none => exact ih rest_distinct zebra
      | some call =>
        rw [List.foldl_cons, ih rest_distinct, hearCall, aimed q or call called,
          Function.update_of_ne here]

/-- What zebra should hold for an entry. -/
def TableRoute.entry (or : TableRoute) : Option ZebraEntry :=
  match or.type with
  | .network => some (.route or.zebraRoute)
  | .discard => some .blackhole
  | .router => none

/-- The same cost and the same next hops, in whatever order. -/
inductive SameEntry : Option ZebraEntry → Option ZebraEntry → Prop where
  | absent : SameEntry none none
  | blackhole : SameEntry (some .blackhole) (some .blackhole)
  | route {first second : ZebraRoute} : first.metric = second.metric →
      (∀ hop, hop ∈ first.nexthops ↔ hop ∈ second.nexthops) →
        SameEntry (some (.route first)) (some (.route second))

theorem SameEntry.refl (entry : Option ZebraEntry) : SameEntry entry entry := by
  rcases entry with _ | route | _
  · exact .absent
  · exact .route rfl fun _ => Iff.rfl
  · exact .blackhole

theorem SameEntry.symm {first second} (same : SameEntry first second) : SameEntry second first := by
  cases same with
  | absent => exact .absent
  | blackhole => exact .blackhole
  | route metric hops => exact .route metric.symm fun hop => (hops hop).symm

theorem SameEntry.trans {first second third} (left : SameEntry first second)
    (right : SameEntry second third) : SameEntry first third := by
  cases left with
  | absent => exact right
  | blackhole => exact right
  | route metric hops =>
    cases right with
    | route metric' hops' =>
      exact .route (metric.trans metric') fun hop => (hops hop).trans (hops' hop)

def expected (table : Option RoutingTable) (p : Dest) : Option ZebraEntry :=
  (table.bind (·.lookup p)).bind TableRoute.entry

/-- Zebra holds the networks of the table, and its discard routes. -/
def InStep (zebra : ZebraTable) (table : Option RoutingTable) : Prop :=
  ∀ p, SameEntry (zebra p) (expected table p)

/-- The interfaces of the paths that have no next hop address. -/
def TableRoute.attached (or : TableRoute) : List (Option Nat) :=
  (or.path.filter fun path => path.nexthop = 0).map OspfPath.oi

/-- Of two networks with the same cost and the same next hop addresses in the same order, the paths
without an address leave by the same interfaces. -/
def SameAttached (or newor : TableRoute) : Prop :=
  or.type = .network → newor.type = .network → or.cost = newor.cost →
    or.path.map OspfPath.nexthop = newor.path.map OspfPath.nexthop →
    ∀ oi, oi ∈ or.attached ↔ oi ∈ newor.attached

section
variable (old : Option RoutingTable) (new : RoutingTable)

/-- Two tables, one after the other, in which no route moves to another interface unnoticed. -/
def Noticed : Prop :=
  ∀ p or newor, old.bind (·.lookup p) = some or → new.lookup p = some newor → SameAttached or newor

theorem zip_nexthop_iff (first second : List OspfPath) :
    (first.length = second.length ∧ ∀ pair ∈ first.zip second, pair.1.nexthop = pair.2.nexthop) ↔
      first.map nexthop = second.map nexthop := by
  induction first generalizing second with
  | nil => cases second <;> simp
  | cons path rest ih =>
    cases second with
    | nil => simp
    | cons other more =>
      rw [List.map_cons, List.map_cons, List.cons.injEq, ← ih]
      simp only [List.length_cons, Nat.add_right_cancel_iff, List.zip_cons_cons,
        List.forall_mem_cons]
      tauto

theorem sameRoute_iff {or newor} :
    sameRoute or newor = true ↔ or.type = newor.type ∧ or.cost = newor.cost ∧
      (or.type = .network → or.path.map nexthop = newor.path.map nexthop) := by
  rw [← zip_nexthop_iff]
  simp only [sameRoute, Bool.and_eq_true, Bool.or_eq_true, decide_eq_true_eq, List.all_eq_true,
    ne_eq, and_assoc]
  tauto

theorem sameRoute_comm (or newor : TableRoute) : sameRoute or newor = sameRoute newor or := by
  rw [Bool.eq_iff_iff, sameRoute_iff, sameRoute_iff]
  constructor
  · rintro ⟨type, cost, paths⟩
    exact ⟨type.symm, cost.symm, fun network => (paths (type.trans network)).symm⟩
  · rintro ⟨type, cost, paths⟩
    exact ⟨type.symm, cost.symm, fun network => (paths (type.trans network)).symm⟩

theorem mem_ipv4_iff {paths : List OspfPath} {addr} :
    ZebraNexthop.ipv4 addr ∈ paths.map zebraNexthop ↔ addr ≠ 0 ∧ addr ∈ paths.map nexthop := by
  simp only [List.mem_map, zebraNexthop]
  constructor
  · rintro ⟨path, member, said⟩
    split at said
    · cases said
      exact ⟨by assumption, path, member, rfl⟩
    · cases said
  · rintro ⟨given, path, member, rfl⟩
    exact ⟨path, member, if_pos given⟩

theorem mem_ifindex_iff {or : TableRoute} {oi} :
    ZebraNexthop.ifindex oi ∈ or.path.map zebraNexthop ↔ oi ∈ or.attached := by
  simp only [TableRoute.attached, List.mem_map, List.mem_filter, decide_eq_true_eq, zebraNexthop]
  constructor
  · rintro ⟨path, member, said⟩
    split at said
    · cases said
    · rename_i none
      cases said
      exact ⟨path, ⟨member, not_not.mp none⟩, rfl⟩
  · rintro ⟨path, ⟨member, none⟩, rfl⟩
    exact ⟨path, member, if_neg (not_not.mpr none)⟩

/-- Two entries that the source takes for the same: zebra has the new one exactly when the
interfaces of the paths without an address are the same. -/
theorem entry_same_iff {or newor : TableRoute} (same : sameRoute or newor = true) :
    SameEntry or.entry newor.entry ↔ SameAttached or newor := by
  obtain ⟨type, cost, paths⟩ := sameRoute_iff.mp same
  cases kind : or.type with
  | router =>
    have both : newor.type = .router := type ▸ kind
    simp only [TableRoute.entry, kind, both, SameAttached, reduceCtorEq, false_implies, iff_true]
    exact .absent
  | discard =>
    have both : newor.type = .discard := type ▸ kind
    simp only [TableRoute.entry, kind, both, SameAttached, reduceCtorEq, false_implies, iff_true]
    exact .blackhole
  | network =>
    have both : newor.type = .network := type ▸ kind
    have nexthops := paths kind
    simp only [TableRoute.entry, kind, both, SameAttached, forall_const]
    constructor
    · intro entries _ _ oi
      cases entries with
      | route _ hops =>
        rw [← mem_ifindex_iff, ← mem_ifindex_iff]
        exact hops (.ifindex oi)
    · intro attached
      refine .route cost fun hop => ?_
      cases hop with
      | ipv4 addr =>
        rw [TableRoute.zebraRoute, TableRoute.zebraRoute, mem_ipv4_iff, mem_ipv4_iff, nexthops]
      | ifindex oi =>
        rw [TableRoute.zebraRoute, TableRoute.zebraRoute, mem_ifindex_iff, mem_ifindex_iff]
        exact attached cost nexthops oi

theorem RoutingTable.mem_of_lookup {rt : RoutingTable} {p or} (found : rt.lookup p = some or) :
    (p, or) ∈ rt.routes := by
  obtain ⟨before, after, split, _⟩ := List.lookup_eq_some_iff.mp found
  rw [split]
  simp

theorem deleteUniq_heard (rt cmprt : RoutingTable) (zebra : ZebraTable) (p : Dest) :
    (ospfRouteDeleteUniq rt cmprt).foldl hearCall zebra p =
      match rt.lookup p with
      | none => zebra p
      | some or => if or.type = .router ∨ ospfRouteMatchSame (some cmprt) p or then zebra p
        else none := by
  rw [ospfRouteDeleteUniq, hear_routes _ _ rt.distinct]
  · cases found : rt.lookup p with
    | none => rw [RoutingTable.lookup] at found; rw [found]; rfl
    | some or =>
      have internal := rt.internal _ (rt.mem_of_lookup found)
      rw [RoutingTable.lookup] at found
      rw [found, Option.bind_some]
      simp only [if_pos internal]
      cases or.type <;> by_cases same :
        ospfRouteMatchSame (some cmprt) p or <;> simp [same, ZebraCall.outcome]
  · intro q or call said
    dsimp only at said
    repeat' split at said
    all_goals cases said
    all_goals rfl

theorem installNew_heard (old : Option RoutingTable) (rt : RoutingTable) (zebra : ZebraTable)
    (p : Dest) :
    (installNew old rt).foldl hearCall zebra p =
      match rt.lookup p with
      | none => zebra p
      | some or => if or.type = .router ∨ ospfRouteMatchSame old p or then zebra p
        else or.entry := by
  rw [installNew, hear_routes _ _ rt.distinct]
  · cases found : rt.lookup p with
    | none => rw [RoutingTable.lookup] at found; rw [found]; rfl
    | some or =>
      rw [RoutingTable.lookup] at found
      rw [found]
      cases kind : or.type <;> by_cases same : ospfRouteMatchSame old p or <;>
        simp [same, kind, ZebraCall.outcome, TableRoute.entry]
  · intro q or call said
    dsimp only at said
    repeat' split at said
    all_goals cases said
    all_goals rfl

theorem removeOld_heard (zebra : ZebraTable) (p : Dest) :
    (removeOld old new).foldl hearCall zebra p =
      match old.bind (·.lookup p) with
      | none => zebra p
      | some or => if or.type = .router ∨ ospfRouteMatchSame (some new) p or then zebra p
        else none := by
  cases old with
  | none => rfl
  | some old => exact deleteUniq_heard old new zebra p

/-- Both tables have an entry for the destination, and the source takes them for the same. -/
def Kept (p : Dest) (or newor : TableRoute) : Prop :=
  old.bind (·.lookup p) = some or ∧ new.lookup p = some newor ∧ sameRoute or newor = true

end

section Install
variable {old : Option RoutingTable} {new : RoutingTable} {zebra : ZebraTable} {p : Dest}

theorem install_kept {or newor} (kept : Kept old new p or newor) :
    (ospfRouteInstall old new).foldl hearCall zebra p = zebra p := by
  obtain ⟨before, now, same⟩ := kept
  have onward : ospfRouteMatchSame (some new) p or = true := by
    rw [ospfRouteMatchSame, Option.bind_some, now, Option.any_some, sameRoute_comm, same]
  have back : ospfRouteMatchSame old p newor = true := by
    rw [ospfRouteMatchSame, before, Option.any_some, same]
  rw [ospfRouteInstall, List.foldl_append, installNew_heard, now]
  simp only [back, or_true, if_true]
  rw [removeOld_heard, before]
  simp only [onward, or_true, if_true]

/-- An entry that is gone, new or different: zebra gets what the new table says. -/
theorem install_changed (step : SameEntry (zebra p) (expected old p))
    (changed : ∀ or newor, ¬ Kept old new p or newor) :
    SameEntry ((ospfRouteInstall old new).foldl hearCall zebra p) (expected (some new) p) := by
  -- without an entry of a network or a discard route before, zebra had nothing
  have removed : ∀ or, old.bind (·.lookup p) = some or →
      ospfRouteMatchSame (some new) p or = false →
      SameEntry ((removeOld old new).foldl hearCall zebra p) none := by
    intro or before differ
    rw [removeOld_heard, before]
    by_cases kind : or.type = .router
    · simpa [expected, before, TableRoute.entry, kind] using step
    · simp only [kind, differ, Bool.false_eq_true, or_self, if_false]
      exact .absent
  have untouched : old.bind (·.lookup p) = none →
      SameEntry ((removeOld old new).foldl hearCall zebra p) none := by
    intro before
    rw [removeOld_heard]
    simpa [expected, before] using step
  rw [ospfRouteInstall, List.foldl_append, installNew_heard, expected, Option.bind_some]
  cases now : new.lookup p with
  | none =>
    cases before : old.bind (·.lookup p) with
    | none => exact untouched before
    | some or => exact removed or before (by rw [ospfRouteMatchSame, Option.bind_some, now]; rfl)
  | some newor =>
    have fresh : ospfRouteMatchSame old p newor = false := by
      rw [ospfRouteMatchSame]
      cases before : old.bind (·.lookup p) with
      | none => rfl
      | some or =>
        rw [Bool.eq_false_iff]
        exact fun same => changed or newor ⟨before, now, same⟩
    by_cases kind : newor.type = .router
    · have nothing : newor.entry = none := by rw [TableRoute.entry, kind]
      simp only [kind, true_or, if_true, Option.bind_some, nothing]
      cases before : old.bind (·.lookup p) with
      | none => exact untouched before
      | some or =>
        refine removed or before ?_
        rw [ospfRouteMatchSame, Option.bind_some, now, Option.any_some, Bool.eq_false_iff]
        exact fun same => changed or newor ⟨before, now, by rw [sameRoute_comm, same]⟩
    · simp only [kind, fresh, Bool.false_eq_true, or_self, if_false]
      exact .refl _

theorem install_inStep_iff (step : InStep zebra old) :
    InStep ((ospfRouteInstall old new).foldl hearCall zebra) (some new) ↔ Noticed old new := by
  constructor
  · intro after p or newor before now network networks cost paths
    have same : sameRoute or newor = true :=
      sameRoute_iff.mpr ⟨network.trans networks.symm, cost, fun _ => paths⟩
    have here := after p
    rw [install_kept ⟨before, now, same⟩, expected, Option.bind_some, now] at here
    have told := step p
    rw [expected, before] at told
    exact (entry_same_iff same).mp (told.symm.trans here) network networks cost paths
  · intro noticed p
    by_cases kept : ∃ or newor, Kept old new p or newor
    · obtain ⟨or, newor, before, now, same⟩ := kept
      rw [install_kept ⟨before, now, same⟩, expected, Option.bind_some, now]
      have told := step p
      rw [expected, before] at told
      exact told.trans ((entry_same_iff same).mpr (noticed p or newor before now))
    · exact install_changed (step p) fun or newor here => kept ⟨or, newor, here⟩

end Install

/-- The tables that are installed one after the other, from the first, and what zebra has then. -/
inductive Installed : Option RoutingTable → ZebraTable → Prop where
  | start : Installed none fun _ => none
  | install {old : Option RoutingTable} {zebra : ZebraTable} (new : RoutingTable) :
      Installed old zebra →
      Noticed old new → Installed (some new) ((ospfRouteInstall old new).foldl hearCall zebra)

theorem Installed.inStep {table zebra} (installed : Installed table zebra) :
    InStep zebra table := by
  induction installed with
  | start => exact fun _ => .absent
  | install new _ noticed ih => exact (install_inStep_iff ih).mpr noticed

theorem noticed_of_entries {old new : RoutingTable}
    (apart : ∀ entry ∈ old.routes, ∀ entry' ∈ new.routes,
    entry.1 = entry'.1 → entry.2.attached = entry'.2.attached ∨ entry.2.cost ≠ entry'.2.cost) :
    Noticed (some old) new := by
  intro p or newor before now _ _ cost _ oi
  obtain ⟨_, _, oldRoutes, _⟩ := List.lookup_eq_some_iff.mp before
  obtain ⟨_, _, newRoutes, _⟩ := List.lookup_eq_some_iff.mp now
  have member : (p, or) ∈ old.routes := by simp [oldRoutes]
  have member' : (p, newor) ∈ new.routes := by simp [newRoutes]
  rcases apart _ member _ member' rfl with same | other
  · rw [same]
  · exact absurd cost other

/-- For every pair of successive tables, zebra has the routes of the second one after its
installation exactly when no route of unchanged cost and next hop addresses has moved to another
interface; and it has them throughout every run of such pairs. -/
theorem ospf_route_install_in_step (zebra : ZebraTable) :
    (∀ old new, InStep zebra old →
      (InStep ((ospfRouteInstall old new).foldl hearCall zebra) (some new) ↔ Noticed old new)) ∧
    ∀ table, Installed table zebra → InStep zebra table :=
  ⟨fun _ _ step => install_inStep_iff step, fun _ installed => installed.inStep⟩

/-- 10.0.0.0/8, attached by the interface. -/
def attachedNet (oi : Nat) : RoutingTable where
  routes :=
    [(⟨0x0a000000, 8⟩, {
    pathType := .intraArea, cost := 10, path := [⟨0, some oi⟩], type := .network })]
  distinct := by simp
  internal := by simp

/-- 11.0.0.0/8 over two next hops, or over the second one at another cost. -/
def remoteNet (cost : Nat) (hops : List OspfPath) : Dest × TableRoute :=
  (⟨0x0b000000, 8⟩, { pathType := .interArea, cost, path := hops, type := .network })

/-- The attached network, 11.0.0.0/8 over two next hops and a discard route for 12.0.0.0/8. -/
def busyTable : RoutingTable where
  routes := (attachedNet 1).routes ++ [remoteNet 20 [⟨0x0a000001, some 1⟩, ⟨0x0a000002, some 1⟩],
    (⟨0x0c000000, 8⟩, { pathType := .intraArea, cost := 0, path := [], type := .discard })]
  distinct := by decide
  internal := by decide

/-- 11.0.0.0/8 costs more over one next hop, 13.0.0.0/8 is new and the discard route is gone. -/
def laterTable : RoutingTable where
  routes := (attachedNet 1).routes ++ [remoteNet 30 [⟨0x0a000002, some 1⟩],
    (⟨0x0d000000, 8⟩, {
      pathType := .intraArea, cost := 5, path := [⟨0, some 2⟩], type := .network })]
  distinct := by decide
  internal := by decide

/-- Two tables, one after the other: the attached network is not mentioned again, and zebra stays in
  step. -/
theorem ospf_route_install_second :
    ospfRouteInstall (some busyTable) laterTable =
      [.ospfZebraDelete ⟨0x0b000000, 8⟩, .ospfZebraDeleteDiscard ⟨0x0c000000, 8⟩,
        .ospfZebraAdd ⟨0x0b000000, 8⟩ ⟨30, [.ipv4 0x0a000002]⟩,
        .ospfZebraAdd ⟨0x0d000000, 8⟩ ⟨5, [.ifindex (some 2)]⟩] ∧
    InStep ((ospfRouteInstall (some busyTable) laterTable).foldl hearCall
      ((ospfRouteInstall none busyTable).foldl hearCall fun _ => none)) (some laterTable) := by
  have noticed : Noticed (some busyTable) laterTable := noticed_of_entries (by decide)
  have told : Installed (some busyTable)
      ((ospfRouteInstall none busyTable).foldl hearCall fun _ => none) :=
    .install busyTable .start (by rintro _ _ _ ⟨⟩)
  have step := (ospf_route_install_in_step _).2 _ told
  exact ⟨by decide, ((ospf_route_install_in_step _).1 _ _ step).mpr noticed⟩

def zebraOf (table : RoutingTable) : ZebraTable := expected (some table)

/-- The network moves from one interface to the other at the same cost, and zebra is not told. -/
theorem ospf_route_install_unnoticed :
    InStep (zebraOf (attachedNet 1)) (some (attachedNet 1)) ∧
    ¬ InStep ((ospfRouteInstall (some (attachedNet 1)) (attachedNet 2)).foldl hearCall
      (zebraOf (attachedNet 1)))
      (some (attachedNet 2)) := by
  refine ⟨fun p => .refl _, fun step => ?_⟩
  have silent : ospfRouteInstall (some (attachedNet 1)) (attachedNet 2) = [] := by decide
  have here := step ⟨0x0a000000, 8⟩
  cases here with
  | route _ hops => exact absurd (hops (.ifindex (some 1))) (by decide)

end Zebra.Ospfd
