import Zebra.Bgpd.Nexthop
import Zebra.Bgpd.PrefixCount

namespace Zebra.Bgpd
open Function Node List Flags
section Caches
variable {zlookup : Zlookup} {caches : Caches}

namespace Zlookup
variable (zlookup : Zlookup) (addr : Ipv4)

/-- Whether zebra resolves a next hop, or is not asked. -/
def resolves : Bool :=
  !zlookup.sock || !(zlookup.answer addr).2.isEmpty

/-- The metric of the answer. -/
def igpmetric : BitVec 32 :=
  if zlookup.sock && !(zlookup.answer addr).2.isEmpty then (zlookup.answer addr).1 else 0

/-- What a scan finds; `old` is the cache of the time before it. -/
def found (old : Cache) : BgpNexthopCache :=
  if zlookup.sock then newEntry zlookup true addr (old addr) else { valid := true }

end Zlookup

theorem compareOld_same (asked : Bool) (old : Option BgpNexthopCache) (bnc : BgpNexthopCache) :
    (compareOld asked old bnc).valid = bnc.valid ∧ (compareOld asked old bnc).metric = bnc.metric ∧
      (compareOld asked old bnc).nexthop = bnc.nexthop := by
  cases asked with
  | false => exact ⟨rfl, rfl, rfl⟩
  | true => cases old <;> exact ⟨rfl, rfl, rfl⟩

theorem newEntry_spec (asked : Bool) (addr : Ipv4) (old : Option BgpNexthopCache) :
    (newEntry zlookup asked addr old).valid = !(zlookup.answer addr).2.isEmpty ∧
      (newEntry zlookup asked addr old).igpmetric =
        if (zlookup.answer addr).2.isEmpty then 0 else (zlookup.answer addr).1 := by
  rw [BgpNexthopCache.igpmetric, newEntry, Zlookup.zlookupQuery]
  cases empty : (zlookup.answer addr).2.isEmpty with
  | true => exact ⟨rfl, rfl⟩
  | false =>
    obtain ⟨valid, metric, -⟩ := compareOld_same asked old
      { valid := true, metric := (zlookup.answer addr).1, nexthop := (zlookup.answer addr).2 }
    exact ⟨valid, by simp [valid, metric]⟩

theorem Zlookup.found_spec (zlookup : Zlookup) (addr : Ipv4) (old : Cache) :
    (zlookup.found addr old).valid = zlookup.resolves addr ∧
      (zlookup.found addr old).igpmetric = zlookup.igpmetric addr := by
  obtain ⟨valid, metric⟩ := @newEntry_spec zlookup true addr (old addr)
  rw [found, resolves, Zlookup.igpmetric]
  cases zlookup.sock with
  | false => exact ⟨rfl, rfl⟩
  | true =>
    refine ⟨valid, metric.trans ?_⟩
    cases (zlookup.answer addr).2.isEmpty <;> rfl

theorem bgpNexthopSame_refl (next : Nexthop) : bgpNexthopSame next next = true := by
  rw [bgpNexthopSame]
  cases next.type <;> simp

theorem bgpNexthopCacheChanged_refl (bnc : BgpNexthopCache) :
    bgpNexthopCacheChanged bnc bnc = false := by
  have same : ∀ pair ∈ bnc.nexthop.zip bnc.nexthop, pair.1 = pair.2 := by
    generalize bnc.nexthop = nexthops
    induction nexthops with
    | nil => nofun
    | cons first rest ih => exact forall_mem_cons.mpr ⟨rfl, ih⟩
  rw [bgpNexthopCacheChanged, Bool.or_eq_false_iff]
  refine ⟨by simp, any_eq_false.mpr fun pair member => ?_⟩
  dsimp only
  rw [same pair member, bgpNexthopSame_refl]
  exact nofun

/-- The answer that is kept from the time before differs from the one that zebra gives now. -/
def Zlookup.outdated (zlookup : Zlookup) (old : Cache) (addr : Ipv4) : Bool :=
  zlookup.sock && match zlookup.zlookupQuery addr, old addr with
    | some bnc, some oldbnc => bgpNexthopCacheChanged bnc oldbnc
    | _, _ => false

theorem Zlookup.found_changed (zlookup : Zlookup) (addr : Ipv4) (old : Cache) :
    (zlookup.found addr old).changed = zlookup.outdated old addr := by
  rw [found, outdated]
  cases zlookup.sock with
  | false => rfl
  | true =>
    rw [if_pos rfl, newEntry, Bool.true_and]
    cases query : zlookup.zlookupQuery addr with
    | none => rfl
    | some bnc =>
      cases old addr with
      | some oldbnc => rfl
      | none =>
        rw [zlookupQuery, Option.ite_none_left_eq_some] at query
        cases query.2
        rfl

/-- While a scan runs: the cache of before is as it was, and the one in use holds what was found. -/
structure Caches.Renewed (caches : Caches) (zlookup : Zlookup) (old : Cache) : Prop where
  kept : caches.old = old
  current : ∀ addr bnc, caches.current addr = some bnc → bnc = newEntry zlookup true addr (old addr)

namespace Caches.Renewed
variable {old : Cache}

theorem store (renewed : caches.Renewed zlookup old) (addr : Ipv4) :
    (caches.store addr (newEntry zlookup true addr (old addr))).Renewed zlookup old := by
  obtain ⟨kept, current⟩ := renewed
  refine ⟨?_, fun other bnc found => ?_⟩
  · rw [← kept, Caches.store, Caches.old, Caches.old]
    cases caches.second <;> rfl
  · have written : update caches.current addr (some (newEntry zlookup true addr (old addr))) other =
        some bnc := by
      rw [Caches.store, Caches.current] at found
      rw [Caches.current]
      cases second : caches.second <;> simpa [second] using found
    rw [update_apply] at written
    split at written
    · rename_i same
      subst same
      exact (Option.some.inj written).symm
    · exact current other bnc written

theorem lookup (renewed : caches.Renewed zlookup old) (addr : Ipv4) :
    (bgpNexthopLookup zlookup true addr caches).1 = zlookup.found addr old ∧
      (bgpNexthopLookup zlookup true addr caches).2.Renewed zlookup old := by
  rw [bgpNexthopLookup, Zlookup.found]
  cases zlookup.sock with
  | false => exact ⟨rfl, renewed⟩
  | true =>
    simp only [Bool.not_true, Bool.false_eq_true, if_false, if_true]
    split
    · rename_i found
      exact ⟨renewed.current addr _ found, renewed⟩
    · rw [renewed.kept]
      exact ⟨rfl, renewed.store addr⟩

/-- An answer that a scan has just found is not outdated. -/
theorem fresh (renewed : caches.Renewed zlookup old) (addr : Ipv4) :
    zlookup.outdated caches.current addr = false := by
  rw [Zlookup.outdated]
  cases found : caches.current addr with
  | none =>
    cases zlookup.zlookupQuery addr <;> simp
  | some oldbnc =>
    cases query : zlookup.zlookupQuery addr with
    | none => simp
    | some bnc =>
      have entry := renewed.current addr oldbnc found
      rw [newEntry, query] at entry
      have nexthop : oldbnc.nexthop = bnc.nexthop :=
        entry ▸ (compareOld_same true (old addr) bnc).2.2
      have same : bgpNexthopCacheChanged bnc oldbnc = false := by
        rw [bgpNexthopCacheChanged, nexthop]
        exact bgpNexthopCacheChanged_refl bnc
      simp [same]

end Caches.Renewed
end Caches

/-- The flags a scan is about. -/
def Flags.reach (flags : Flags) : Bool × Bool :=
  (flags.valid, flags.igpChanged)

theorem Flags.reach_eq_of_lasting {flags other : Flags} (same : flags.lasting = other.lasting) :
    flags.reach = other.reach :=
  show flags.lasting.reach = other.lasting.reach by rw [same]

/-- A step that keeps these flags, and all paths but one. -/
structure Node.Spares (id : PathId) (node after : Node) : Prop where
  reach : ∀ other, (after.flags other).reach = (node.flags other).reach
  within : ∀ ri ∈ after.info, ri ∈ node.info
  others : ∀ ri ∈ node.info, ri.id ≠ id → ri ∈ after.info
  ids : (after.info.map BgpInfo.id).Sublist (node.info.map BgpInfo.id)

namespace Node.Spares
variable {id : PathId} {node middle after : Node}

theorem trans (first : Spares id node middle) (second : Spares id middle after) :
    Spares id node after where
  reach other := (second.reach other).trans (first.reach other)
  within ri member := first.within ri (second.within ri member)
  others ri member apart := second.others ri (first.others ri member apart) apart
  ids := second.ids.trans first.ids

theorem of_quiet (id : PathId) (quiet : Quiet node after) : Spares id node after where
  reach other := reach_eq_of_lasting (quiet.lasting other)
  within _ member := quiet.info ▸ member
  others _ member _ := quiet.info.symm ▸ member
  ids := by rw [quiet.info]

theorem refl (id : PathId) (node : Node) : Spares id node node :=
  of_quiet id (Quiet.refl node)

theorem setDamp (node : Node) (id : PathId) (damp : Option DampInfo) :
    Spares id node (node.setDamp id damp) :=
  ⟨fun _ => rfl, fun _ member => member, fun _ member _ => member, Sublist.refl _⟩

theorem setFlags (node : Node) (id : PathId) {change} (keeps : ∀ f, (change f).reach = f.reach) :
    Spares id node (node.setFlags id change) :=
  ⟨fun other => setFlags_congr node id other Flags.reach keeps, fun _ member => member,
    fun _ member _ => member,
    Sublist.refl _⟩

theorem delete (node : Node) (id : PathId) : Spares id node (node.delete id) where
  reach _ := rfl
  within _ member := mem_of_mem_filter member
  others _ member apart := mem_filter.mpr ⟨member, decide_eq_true apart⟩
  ids := Sublist.map _ filter_sublist

theorem dampInfoFree (node : Node) (id : PathId) : Spares id node (node.dampInfoFree id) :=
  (setDamp node id none).trans (setFlags _ id fun _ => rfl)

theorem dampScan (cfg : DampConfig) (maxSuppressTime now : Int) (id : PathId) (bdi : DampInfo)
    (node : Node) :
    Spares id node (node.dampScan cfg maxSuppressTime now id bdi).1 := by
  rw [Node.dampScan]
  split
  · split
    · exact (setDamp node id _).trans (setFlags _ id fun _ => rfl)
    · exact refl id node
  · dsimp only
    split
    · rw [dampForget]
      split
      · exact (dampInfoFree node id).trans (delete _ id)
      · exact dampInfoFree node id
    · exact setDamp node id _

theorem scanDamp (bgp : Bgp) (cfg : DampConfig) (maxSuppressTime : Int) (aggregates : List Bool)
    (clock : PathId → Int)
    (id : PathId) (node : Node) :
    Spares id node (scanDamp bgp cfg maxSuppressTime aggregates clock id node) := by
  rw [Bgpd.scanDamp]
  split
  · rename_i bdi known
    split
    · have spares := dampScan cfg maxSuppressTime (clock id) id bdi node
      split
      · rename_i scanned result
        rw [result] at spares
        exact spares.trans (of_quiet id (Reselects.aggregateIncrement bgp aggregates id _).quiet)
      · rename_i scanned result
        rw [result] at spares
        exact spares
    · exact refl id node
  · exact refl id node

end Node.Spares

/-- The path with the metric that was found. -/
def Reachability.measured (reach : Reachability) (ri : BgpInfo) : BgpInfo :=
  match reach.igpmetric with
  | some igpmetric => { ri with igpmetric }
  | none => ri

/-- What is found out about a path is written to that path alone. -/
structure Node.Settles (reach : Reachability) (ri : BgpInfo) (node after : Node) : Prop where
  own : (after.flags ri.id).reach = (reach.valid, reach.changed)
  flags : ∀ other, other ≠ ri.id → (after.flags other).reach = (node.flags other).reach
  mine : ∀ other ∈ after.info, other.id = ri.id → other = reach.measured ri
  others : ∀ other, other.id ≠ ri.id → (other ∈ after.info ↔ other ∈ node.info)

section Settle
variable (bgp : Bgp) (cfg : DampConfig) (maxSuppressTime : Int) (aggregates : List Bool)
  (clock : PathId → Int) (reach : Reachability) {ri : BgpInfo} {node : Node}

theorem Reachability.measure_flags (ri : BgpInfo) (node : Node) :
    (reach.measure ri node).flags = node.flags := by
  rw [measure]
  split <;> rfl

theorem Reachability.measure_ids (ri : BgpInfo) (node : Node) :
    (reach.measure ri node).ids = node.ids := by
  rw [measure]
  split
  · exact replace_ids node _
  · rfl

theorem Reachability.revalidate_spec (id : PathId) (node : Node) :
    (reach.revalidate bgp aggregates id node).info = node.info ∧
      ((reach.revalidate bgp aggregates id node).flags id).reach =
        (reach.valid, (node.flags id).igpChanged) ∧
      ∀ other, other ≠ id → ((reach.revalidate bgp aggregates id node).flags other).reach =
        (node.flags other).reach := by
  rw [revalidate]
  split
  · rename_i same
    exact ⟨rfl, by rw [same]; rfl, fun _ _ => rfl⟩
  · rename_i differs
    split
    · rename_i valid
      have quiet := (Reselects.aggregateDecrement bgp aggregates id node).quiet
      refine ⟨quiet.info, ?_, fun other apart => ?_⟩
      · have before := reach_eq_of_lasting (quiet.lasting id)
        have invalid : reach.valid = false := by
          rw [valid] at differs
          exact Bool.eq_false_iff.mpr differs
        rw [setValid, setFlags_same, invalid]
        exact congrArg (Prod.mk false) (congrArg Prod.snd before)
      · rw [setValid, setFlags_other _ _ apart]
        exact reach_eq_of_lasting (quiet.lasting other)
    · rename_i invalid
      have quiet := (Reselects.aggregateIncrement bgp aggregates id (node.setValid id true)).quiet
      have valid : reach.valid = true := by
        rw [Bool.eq_false_iff.mpr invalid] at differs
        exact Bool.eq_true_of_not_eq_false differs
      refine ⟨quiet.info, ?_, fun other apart => ?_⟩
      · rw [reach_eq_of_lasting (quiet.lasting id), setValid, setFlags_same, valid]
        rfl
      · rw [reach_eq_of_lasting (quiet.lasting other), setValid, setFlags_other _ _ apart]

section
variable (only : ∀ other ∈ node.info, other.id = ri.id → other = ri)
include only

theorem Reachability.mem_measure {other} :
    (other.id = ri.id → other ∈ (reach.measure ri node).info → other = reach.measured ri) ∧
      (other.id ≠ ri.id → (other ∈ (reach.measure ri node).info ↔ other ∈ node.info)) := by
  rw [measure, measured]
  cases reach.igpmetric with
  | none => exact ⟨fun same member => only other member same, fun _ => Iff.rfl⟩
  | some igpmetric =>
    constructor
    · intro same member
      obtain ⟨before, _, replaced⟩ := mem_map.mp member
      split at replaced
      · exact replaced.symm
      · rename_i apart
        exact absurd (replaced ▸ same) apart
    · intro apart
      constructor
      · intro member
        obtain ⟨before, known, replaced⟩ := mem_map.mp member
        split at replaced
        · exact absurd (congrArg BgpInfo.id replaced.symm) apart
        · exact replaced ▸ known
      · exact fun member => mem_map.mpr ⟨other, member, if_neg apart⟩

theorem Reachability.settles :
    Settles reach ri node (reach.settle bgp cfg maxSuppressTime aggregates clock ri node) := by
  rw [settle]
  generalize marked : ((reach.measure ri node).setFlags ri.id fun f => { f with
    igpChanged := reach.changed }) = middle
  have info : middle.info = (reach.measure ri node).info := by
    rw [← marked]
    rfl
  have changed : (middle.flags ri.id).igpChanged = reach.changed := by
    rw [← marked, setFlags_same]
  have elsewhere : ∀ other, other ≠ ri.id → middle.flags other = node.flags other := by
    intro other apart
    rw [← marked, setFlags_other _ _ apart, measure_flags]
  obtain ⟨infos, own, others⟩ := reach.revalidate_spec bgp aggregates ri.id middle
  have spares := Spares.scanDamp bgp cfg maxSuppressTime aggregates clock ri.id
    (reach.revalidate bgp aggregates ri.id middle)
  refine ⟨?_, fun other apart => ?_, fun other member same => ?_, fun other apart => ?_⟩
  · rw [spares.reach, own, changed]
  · rw [spares.reach, others other apart, elsewhere other apart]
  · have before := spares.within other member
    rw [infos, info] at before
    exact (reach.mem_measure only).1 same before
  · refine Iff.trans ?_ ((reach.mem_measure only).2 apart)
    rw [← info, ← infos]
    exact ⟨spares.within other, fun member => spares.others other member apart⟩

end

theorem Reachability.settle_ids (ri : BgpInfo) (node : Node) :
    (reach.settle bgp cfg maxSuppressTime aggregates clock ri node).ids.Sublist
      node.ids := by
  rw [← reach.measure_ids ri node]
  have spares := Spares.scanDamp bgp cfg maxSuppressTime aggregates clock ri.id
    (reach.revalidate bgp aggregates ri.id
    ((reach.measure ri node).setFlags ri.id fun f => { f with igpChanged := reach.changed }))
  have shorter := spares.ids
  rw [(reach.revalidate_spec bgp aggregates ri.id _).1] at shorter
  exact shorter

end Settle

/-- What a scan finds out about a path; `old` is the cache of the time before it. -/
def Zlookup.reachability (zlookup : Zlookup) (old : Cache) (bgp : Bgp) (ri : BgpInfo) :
    Reachability :=
  if scansConnected bgp (bgp.peer ri.id.peer) then
    { valid := zlookup.checkEbgp ri.attr.nexthop, changed := false, igpmetric := none }
  else
    { valid := zlookup.resolves ri.attr.nexthop, changed := zlookup.outdated old ri.attr.nexthop,
      igpmetric := some (zlookup.igpmetric ri.attr.nexthop) }

theorem Caches.Renewed.reachability {zlookup caches old}
    (renewed : caches.Renewed zlookup old) (bgp : Bgp)
    (ri : BgpInfo) : (scanReachability bgp zlookup ri caches).1 = zlookup.reachability old bgp ri ∧
      (scanReachability bgp zlookup ri caches).2.Renewed zlookup old := by
  rw [scanReachability, Zlookup.reachability]
  split
  · exact ⟨rfl, renewed⟩
  · obtain ⟨found, after⟩ := renewed.lookup ri.attr.nexthop
    obtain ⟨valid, metric⟩ := zlookup.found_spec ri.attr.nexthop old
    refine ⟨?_, after⟩
    dsimp only
    rw [found, valid, metric, zlookup.found_changed]

section Scan
variable (bgp : Bgp) (cfg : DampConfig) (maxSuppressTime : Int) (aggregates : List Bool)
  (clock : PathId → Int) (zlookup : Zlookup) (old : Cache)

/-- The loop body, with what the scan finds out. -/
def settledPath (node : Node) (ri : BgpInfo) : Node :=
  if ri.Scanned then (zlookup.reachability old bgp ri).settle bgp cfg maxSuppressTime aggregates
    clock ri node else node

def settledNode (node : Node) : Node :=
  (node.info.foldl (settledPath bgp cfg maxSuppressTime aggregates clock zlookup old) node).process
    bgp

theorem Caches.Renewed.scanPaths {zlookup caches old} (renewed : caches.Renewed zlookup old)
    (paths : List BgpInfo) (node : Node) :
    (paths.foldl (scanPath bgp cfg maxSuppressTime aggregates clock zlookup) (node, caches)).1 =
        paths.foldl (settledPath bgp cfg maxSuppressTime aggregates clock zlookup old) node ∧
      (paths.foldl (scanPath bgp cfg maxSuppressTime aggregates clock zlookup)
        (node, caches)).2.Renewed zlookup old := by
  induction paths generalizing node caches with
  | nil => exact ⟨rfl, renewed⟩
  | cons ri rest ih =>
    have path :
        ∃ after, scanPath bgp cfg maxSuppressTime aggregates clock zlookup (node, caches) ri =
        (settledPath bgp cfg maxSuppressTime aggregates clock zlookup old node ri, after) ∧
          after.Renewed zlookup old := by
      rw [scanPath, settledPath]
      obtain ⟨reach, after⟩ := renewed.reachability bgp ri
      by_cases scanned : ri.Scanned
      · rw [if_pos scanned, if_pos scanned, ← reach]
        exact ⟨_, rfl, after⟩
      · rw [if_neg scanned, if_neg scanned]
        exact ⟨_, rfl, renewed⟩
    obtain ⟨after, path, renews⟩ := path
    rw [foldl_cons, path]
    exact ih renews _

theorem Caches.Renewed.scanNode {zlookup caches old} (renewed : caches.Renewed zlookup old)
    (node : Node) :
    (scanNode bgp cfg maxSuppressTime aggregates clock zlookup node caches).1 =
        settledNode bgp cfg maxSuppressTime aggregates clock zlookup old node ∧
      (scanNode bgp cfg maxSuppressTime aggregates clock zlookup node caches).2.Renewed
        zlookup old := by
  obtain ⟨paths, after⟩ := renewed.scanPaths bgp cfg maxSuppressTime aggregates clock node.info node
  exact ⟨congrArg (Node.process bgp) paths, after⟩

/-- A path after a scan. -/
def BgpInfo.settled (ri : BgpInfo) : BgpInfo :=
  if ri.Scanned then (zlookup.reachability old bgp ri).measured ri else ri

/-- The flags of a path after a scan. -/
def settledReach (node : Node) (ri : BgpInfo) : Bool × Bool :=
  if ri.Scanned then
    ((zlookup.reachability old bgp ri).valid, (zlookup.reachability old bgp ri).changed)
  else (node.flags ri.id).reach

theorem settledPath_spec {node ri} (only : ∀ other ∈ node.info, other.id = ri.id → other = ri) :
    ((settledPath bgp cfg maxSuppressTime aggregates clock zlookup old node ri).flags ri.id).reach =
        settledReach bgp zlookup old node ri ∧
      (∀ other, other ≠ ri.id →
        ((settledPath bgp cfg maxSuppressTime aggregates clock zlookup old node ri).flags
          other).reach =
        (node.flags other).reach) ∧
      (∀ other ∈ (settledPath bgp cfg maxSuppressTime aggregates clock zlookup old node ri).info,
        other.id = ri.id → other = ri.settled bgp zlookup old) ∧
      ∀ other, other.id ≠ ri.id →
        (other ∈ (settledPath bgp cfg maxSuppressTime aggregates clock zlookup old node ri).info ↔
          other ∈ node.info) := by
  rw [settledPath, settledReach, BgpInfo.settled]
  by_cases scanned : ri.Scanned
  · simp only [if_pos scanned]
    obtain ⟨own, flags, mine, others⟩ :=
      (zlookup.reachability old bgp ri).settles bgp cfg maxSuppressTime aggregates clock only
    exact ⟨own, flags, mine, others⟩
  · simp only [if_neg scanned]
    exact ⟨trivial, fun _ _ => trivial, only, fun _ _ => trivial⟩

theorem settledPaths_spec {paths : List BgpInfo} (distinct : (paths.map BgpInfo.id).Nodup)
    {node : Node} (only : ∀ ri ∈ paths, ∀ other ∈ node.info, other.id = ri.id → other = ri) :
    (∀ ri ∈ paths,
        ((paths.foldl (settledPath bgp cfg maxSuppressTime aggregates clock zlookup old) node).flags
          ri.id).reach =
          settledReach bgp zlookup old node ri ∧
        ∀ other ∈
        (paths.foldl (settledPath bgp cfg maxSuppressTime aggregates clock zlookup old) node).info,
          other.id = ri.id → other = ri.settled bgp zlookup old) ∧
      ∀ id ∉ paths.map BgpInfo.id,
        ((paths.foldl (settledPath bgp cfg maxSuppressTime aggregates clock zlookup old) node).flags
          id).reach =
          (node.flags id).reach ∧
        ∀ other, other.id = id →
          (other ∈ (paths.foldl
            (settledPath bgp cfg maxSuppressTime aggregates clock zlookup old) node).info ↔
            other ∈ node.info) := by
  induction paths generalizing node with
  | nil => exact ⟨nofun, fun _ _ => ⟨rfl, fun _ _ => Iff.rfl⟩⟩
  | cons ri rest ih =>
    obtain ⟨fresh, restDistinct⟩ := nodup_cons.mp distinct
    obtain ⟨own, flags, mine, others⟩ :=
      settledPath_spec bgp cfg maxSuppressTime aggregates clock zlookup old
      (only ri mem_cons_self)
    have apart : ∀ other ∈ rest, other.id ≠ ri.id := fun other member same =>
      fresh (same ▸ mem_map_of_mem member)
    have alone : ∀ next ∈ rest,
        ∀ other ∈ (settledPath bgp cfg maxSuppressTime aggregates clock zlookup old node ri).info,
        other.id = next.id → other = next := fun next member other known same =>
      only next (.tail _ member) other ((others other (same ▸ apart next member)).mp known) same
    obtain ⟨later, outside⟩ := ih restDistinct alone
    refine ⟨forall_mem_cons.mpr ⟨?_, fun next member => ?_⟩, fun id absent => ?_⟩
    · obtain ⟨kept, members⟩ := outside ri.id fresh
      exact ⟨kept.trans own, fun other member same =>
        mine other ((members other same).mp member) same⟩
    · obtain ⟨reach, members⟩ := later next member
      refine ⟨reach.trans ?_, members⟩
      rw [settledReach, settledReach, flags next.id (apart next member)]
    · rw [map_cons, mem_cons, not_or] at absent
      obtain ⟨kept, members⟩ := outside id absent.2
      refine ⟨kept.trans (flags id absent.1), fun other same => (members other same).trans ?_⟩
      exact others other (same ▸ absent.1)

theorem settledPaths_ids (paths : List BgpInfo) (node : Node) :
    (paths.foldl (settledPath bgp cfg maxSuppressTime aggregates clock zlookup old)
      node).ids.Sublist
      node.ids := by
  induction paths generalizing node with
  | nil => exact Sublist.refl _
  | cons ri rest ih =>
    refine (ih _).trans ?_
    rw [settledPath]
    split
    · exact (zlookup.reachability old bgp ri).settle_ids bgp cfg maxSuppressTime aggregates
        clock ri node
    · exact Sublist.refl _

theorem settledNode_distinct {node} (distinct : node.ids.Nodup) :
    (settledNode bgp cfg maxSuppressTime aggregates clock zlookup old node).ids.Nodup := by
  rw [ids, settledNode, process_info]
  exact distinct.sublist
    (settledPaths_ids bgp cfg maxSuppressTime aggregates clock zlookup old node.info node)

theorem settledNode_spec {node : Node} (distinct : node.ids.Nodup) :
    (∀ ri ∈ node.info,
        ((settledNode bgp cfg maxSuppressTime aggregates clock zlookup old node).flags
          ri.id).reach =
          settledReach bgp zlookup old node ri) ∧
      ∀ other ∈ (settledNode bgp cfg maxSuppressTime aggregates clock zlookup old node).info,
        ∃ ri ∈ node.info, other = ri.settled bgp zlookup old := by
  have unique : ∀ ri ∈ node.info, ∀ other ∈ node.info, other.id = ri.id → other = ri :=
      fun ri member other known same =>
    inj_on_of_nodup_map distinct known member same
  obtain ⟨paths, outside⟩ :=
    settledPaths_spec bgp cfg maxSuppressTime aggregates clock zlookup old distinct unique
  have quiet := process_quiet bgp
    (node.info.foldl (settledPath bgp cfg maxSuppressTime aggregates clock zlookup old) node)
  refine ⟨fun ri member => ?_, fun other member => ?_⟩
  · exact (Flags.reach_eq_of_lasting (quiet.lasting ri.id)).trans (paths ri member).1
  · rw [settledNode, quiet.info] at member
    by_cases known : other.id ∈ node.ids
    · obtain ⟨ri, present, same⟩ := mem_map.mp known
      exact ⟨ri, present, (paths ri present).2 other member same.symm⟩
    · have present := ((outside other.id known).2 other rfl).mp member
      exact absurd (mem_map_of_mem present) known

end Scan
end Zebra.Bgpd
