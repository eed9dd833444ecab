import Zebra.Bgpd.NexthopScan

namespace Zebra.Bgpd
open Node BgpInfo List Prod Option Reachability Rib Bool Zlookup Flags
section Distinct
variable {bgp : Bgp} {cfg : DampConfig} {aggregates : List Bool} {node : Node} {account : Account}

theorem ribWithdrawDamped_touches (now : Int) (id : PathId) (node : Node) :
    Touches id node (ribWithdrawDamped bgp cfg now id node) := by
  have damped := Touches.of_confined (dampWithdraw_confined cfg now id node false)
  rw [ribWithdrawDamped]
  split
  · rename_i result
    rw [result] at damped
    exact damped
  · rename_i result
    rw [result] at damped
    exact damped.trans (ribWithdrawTail_touches _)

theorem bgpRibWithdraw_touches (now : Int) (force : Bool) (id : PathId) :
    Touches id node (bgpRibWithdraw bgp cfg aggregates now force id (node, account)).1 := by
  have counted : Touches id node
      (if !(node.flags id).history then node.aggregateDecrement bgp aggregates id else node) := by
    split
    · exact Touches.of_quiet id (Reselects.aggregateDecrement bgp aggregates id node).quiet
    · exact Touches.refl id node
  rw [bgpRibWithdraw]
  split
  · exact counted.trans (ribWithdrawDamped_touches now id _)
  · exact counted.trans (ribWithdrawTail_touches .none)

section
variable (env : Environment)
variable (id : PathId)

theorem updateSame_touches :
    Touches id node (updateSame bgp cfg aggregates env id (node, account)).1 := by
  have marked : Touches id node (node.setFlags id fun f => { f with attrChanged := false }) :=
    Touches.of_confined (Confined.setFlags node id fun _ => rfl)
  rw [updateSame]
  split
  · refine marked.trans ?_
    have damped := Touches.of_confined (dampUpdate_confined cfg env.updateTime id
      (node.setFlags id fun f => { f with attrChanged := false }))
    rw [updateReturned]
    split
    · rename_i result
      rw [result] at damped
      exact damped
    · rename_i result
      rw [result] at damped
      exact damped.trans
        (Touches.of_quiet id ((Reselects.aggregateIncrement bgp aggregates id _).quiet.trans
        (process_quiet bgp _)))
  · split
    · exact marked.trans (Touches.of_confined (Confined.setFlags _ id fun _ => rfl))
    · exact marked

theorem updateChanged_touches (ri : BgpInfo) (attrNew : Attr) :
    Touches ri.id node (updateChanged bgp cfg aggregates env ri attrNew (node, account)).1 := by
  have changed :=
    ((Touches.of_confined (changeMark_confined bgp cfg env ri.id node)).trans
    (Touches.of_quiet ri.id
    (Reselects.aggregateDecrement bgp aggregates ri.id
      (changeMark bgp cfg env ri.id node)).quiet)).trans
      (Touches.replace _ ri.id { ri with attr := attrNew })
  rw [updateChanged]
  split
  · refine changed.trans ?_
    have damped := Touches.of_confined (dampUpdate_confined cfg env.updateTime ri.id
      (((changeMark bgp cfg env ri.id node).aggregateDecrement bgp aggregates ri.id).replace
        { ri with attr := attrNew }))
    rw [updateDamped]
    split
    · rename_i result
      rw [result] at damped
      exact damped
    · rename_i result
      rw [result] at damped
      exact damped.trans (updateFinish_touches bgp aggregates env { ri with attr := attrNew } _)
  · exact changed.trans (updateFinish_touches bgp aggregates env { ri with attr := attrNew } _)

theorem updateNew_spec (attrNew : Attr) (absent : id ∉ node.ids) :
    Touches id node (updateNew bgp aggregates env id attrNew (node, account)).1 ∧
      (nexthopCheck bgp (bgp.peer id.peer) env { id := id, attr := attrNew }).2 ∈
        (updateNew bgp aggregates env id attrNew (node, account)).1.info ∧
      ((updateNew bgp aggregates env id attrNew (node, account)).1.flags id).valid =
        (nexthopCheck bgp (bgp.peer id.peer) env { id := id, attr := attrNew }).1 := by
  have named := nexthopCheck_id bgp (bgp.peer id.peer) env { id := id, attr := attrNew }
  simp only [updateNew]
  generalize nexthopCheck bgp (bgp.peer id.peer) env { id := id, attr := attrNew } =
    checked at named ⊢
  obtain ⟨valid, ri⟩ := checked
  obtain rfl : ri.id = id := named
  have fresh := Touches.fresh node ri.id { valid := valid }
  have quiet :=
    (Reselects.aggregateIncrement bgp aggregates ri.id (node.fresh ri.id { valid := valid })).quiet
  have stillAbsent : ri.id ∉
      ((node.fresh ri.id { valid := valid }).aggregateIncrement bgp aggregates ri.id).info.map
      BgpInfo.id := by
    rw [quiet.info]
    exact absent
  have added := (fresh.trans (Touches.of_quiet ri.id quiet)).trans (Touches.add _ ri stillAbsent)
  have marked :
      ((((node.fresh ri.id { valid := valid }).aggregateIncrement bgp aggregates ri.id).add
      ri).flags ri.id).reach =
      (valid, false) := by
    refine (reach_eq_of_lasting (quiet.lasting ri.id)).trans ?_
    rw [fresh_flags_same]
    rfl
  split
  · exact ⟨added, mem_cons_self, congrArg fst marked⟩
  · have processed := process_quiet bgp
      (((node.fresh ri.id { valid := valid }).aggregateIncrement bgp aggregates ri.id).add ri)
    refine ⟨added.trans (Touches.of_quiet ri.id processed), ?_, ?_⟩
    · rw [processed.info]
      exact mem_cons_self
    · exact congrArg fst ((reach_eq_of_lasting (processed.lasting ri.id)).trans marked)

theorem bgpUpdate_distinct (attr : Attr) (distinct : node.ids.Nodup) :
    (bgpUpdate bgp cfg aggregates env id attr (node, account)).1.ids.Nodup := by
  rw [bgpUpdate]
  split
  · exact distinct
  · exact (bgpRibWithdraw_touches env.withdrawTime true _).distinct distinct
  · rename_i attrNew missing _
    exact (updateNew_spec env id attrNew (find?_absent missing)).1.distinct distinct
  · split
    · exact (updateSame_touches env _).distinct distinct
    · exact (updateChanged_touches env _ _).distinct distinct

theorem bgpWithdraw_distinct (now : Int) (id : PathId) (distinct : node.ids.Nodup) :
    (bgpWithdraw bgp cfg aggregates now id (node, account)).1.ids.Nodup := by
  rw [bgpWithdraw]
  split
  · exact distinct
  · split
    · exact distinct
    · exact (bgpRibWithdraw_touches now false _).distinct distinct

theorem bgpRibRemove_touches :
    Touches id node (bgpRibRemove bgp aggregates id (node, account)).1 := by
  rw [bgpRibRemove]
  split
  · exact Touches.delete node id
  · have quiet := (Reselects.aggregateDecrement bgp aggregates id node).quiet
    exact (((Touches.of_quiet id quiet).trans (Touches.setValid _ id false)).trans
      (Touches.of_quiet id (process_quiet bgp _))).trans (Touches.delete _ id)

theorem clearRouteNode_distinct (nsf : Bool) (peer : PeerId) (distinct : node.ids.Nodup) :
    (clearRouteNode bgp aggregates nsf peer (node, account)).1.ids.Nodup := by
  rw [clearRouteNode]
  split
  · exact distinct
  · dsimp only
    split
    · exact distinct
    · exact (bgpRibRemove_touches _).distinct distinct

theorem clearStaleNode_distinct (peer : PeerId) (distinct : node.ids.Nodup) :
    (clearStaleNode bgp aggregates peer (node, account)).1.ids.Nodup := by
  rw [clearStaleNode]
  split
  · exact distinct
  · split
    · exact (bgpRibRemove_touches _).distinct distinct
    · exact distinct

theorem updateFinish_spec (ri : BgpInfo) (member : ri.id ∈ node.ids) :
    (nexthopCheck bgp (bgp.peer ri.id.peer) env ri).2 ∈
    (updateFinish bgp aggregates env ri node).info ∧
      ((updateFinish bgp aggregates env ri node).flags ri.id).valid =
        (nexthopCheck bgp (bgp.peer ri.id.peer) env ri).1 := by
  have named := nexthopCheck_id bgp (bgp.peer ri.id.peer) env ri
  simp only [updateFinish, named]
  generalize nexthopCheck bgp (bgp.peer ri.id.peer) env ri = checked at named
  have quiet := (Reselects.aggregateIncrement bgp aggregates ri.id
    ((node.replace checked.2).setValid ri.id checked.1)).quiet.trans (process_quiet bgp _)
  constructor
  · obtain ⟨before, known, same⟩ := mem_map.mp member
    rw [quiet.info]
    exact mem_map.mpr ⟨before, known, if_pos (same.trans named.symm)⟩
  · have written := reach_eq_of_lasting (quiet.lasting ri.id)
    rw [setValid, setFlags_same] at written
    exact congrArg fst written

theorem updateChanged_decided (ri : BgpInfo) (attrNew : Attr) (member : ri.id ∈ node.ids)
    (unsuppressed : ¬ (dampConfigured bgp ri.id && decide
    (((((changeMark bgp cfg env ri.id node).aggregateDecrement bgp aggregates ri.id).replace
    { ri with attr := attrNew }).dampUpdate cfg env.updateTime ri.id).2 = .suppressed)) = true) :
    (nexthopCheck bgp (bgp.peer ri.id.peer) env { ri with attr := attrNew }).2 ∈
        (updateChanged bgp cfg aggregates env ri attrNew (node, account)).1.info ∧
      ((updateChanged bgp cfg aggregates env ri attrNew (node, account)).1.flags ri.id).valid =
        (nexthopCheck bgp (bgp.peer ri.id.peer) env { ri with attr := attrNew }).1 := by
  have stays :
      ri.id ∈ (((changeMark bgp cfg env ri.id node).aggregateDecrement bgp aggregates ri.id).replace
      { ri with attr := attrNew }).ids := by
    rw [ids, replace_ids, (Reselects.aggregateDecrement bgp aggregates ri.id _).quiet.info,
      (changeMark_confined bgp cfg env ri.id node).info]
    exact member
  rw [updateChanged]
  generalize ((changeMark bgp cfg env ri.id node).aggregateDecrement bgp aggregates ri.id).replace
    { ri with attr := attrNew } = changed at stays unsuppressed
  by_cases dampened : dampConfigured bgp ri.id = true
  · rw [if_pos dampened]
    have confined := dampUpdate_confined cfg env.updateTime ri.id changed
    rw [dampened, Bool.true_and, decide_eq_true_eq] at unsuppressed
    rw [updateDamped]
    split
    · rename_i result
      exact absurd (congrArg snd result) unsuppressed
    · rename_i damped _ result
      have info := confined.info
      rw [result] at info
      exact updateFinish_spec env { ri with attr := attrNew } (by rw [ids, info]; exact stays)
  · rw [if_neg dampened]
    exact updateFinish_spec env { ri with attr := attrNew } stays

end

theorem updateDecides_spec (account : Account) {env id attr attrNew}
    (decides : updateDecides bgp cfg aggregates env id attr node = some attrNew) :
    acceptUpdate bgp (bgp.peer id.peer) env attr = some attrNew ∧ ∃ ri, ri.id = id ∧
    ri.attr = attrNew ∧
      (nexthopCheck bgp (bgp.peer id.peer) env ri).2 ∈
      (bgpUpdate bgp cfg aggregates env id attr (node, account)).1.info ∧
      ((bgpUpdate bgp cfg aggregates env id attr (node, account)).1.flags id).valid =
        (nexthopCheck bgp (bgp.peer id.peer) env ri).1 := by
  rw [updateDecides] at decides
  rw [bgpUpdate]
  split at decides
  · cases decides
  · rename_i attrNew' missing accepted
    obtain rfl := some.inj decides
    rw [accepted, missing]
    exact ⟨rfl, { id := id, attr := attrNew' }, rfl, rfl,
      (updateNew_spec env id attrNew' (find?_absent missing)).2⟩
  · rename_i ri attrNew' found accepted
    split at decides
    · cases decides
    · rename_i differs
      obtain ⟨present, rfl⟩ := find?_mem found
      dsimp only at decides
      split at decides
      · cases decides
      · rename_i unsuppressed
        obtain rfl := some.inj decides
        rw [accepted, found]
        dsimp only
        rw [if_neg differs]
        exact ⟨rfl, { ri with attr := attrNew' }, rfl, rfl,
          updateChanged_decided env ri attrNew' (mem_map_of_mem present) unsuppressed⟩

end Distinct

section Idle
variable {zlookup : Zlookup} {caches : Caches}

/-- Between calls the cache that is not in use is empty, so a scan starts with it. -/
theorem Caches.change_renewed (zlookup : Zlookup) (idle : caches.old = fun _ => none) :
    caches.change.Renewed zlookup caches.current := by
  have old : caches.change.old = caches.current := by
    rw [old, change, current]
    cases caches.second <;> rfl
  have current : caches.change.current = caches.old := by
    rw [current, change, Caches.old]
    cases caches.second <;> rfl
  refine ⟨old, fun addr bnc found => ?_⟩
  rw [current, idle] at found
  cases found

theorem Caches.flushOld_spec (caches : Caches) :
    (caches.flushOld.old = fun _ => none) ∧ caches.flushOld.current = caches.current := by
  rw [flushOld]
  cases second : caches.second <;> simp [old, current, second]

theorem bgpNexthopLookup_old (zlookup : Zlookup) (asked : Bool) (addr : Ipv4) (caches : Caches) :
    (bgpNexthopLookup zlookup asked addr caches).2.old = caches.old := by
  rw [bgpNexthopLookup]
  split
  · rfl
  · split
    · rfl
    · dsimp only
      rw [Caches.store, Caches.old, Caches.old]
      cases caches.second <;> rfl

end Idle

namespace Nexthops
variable {Key : Type} [DecidableEq Key] {bgp : Bgp} {cfg : DampConfig} {maxSuppressTime : Int}
  {aggregates : Key → List Bool} {state : Nexthops Key}

/-- What holds between calls: no two paths of a node are the same, and the cache that is not in use
  is empty. -/
structure Good (state : Nexthops Key) : Prop where
  distinct : ∀ entry ∈ state.rib.nodes, (entry.2.info.map BgpInfo.id).Nodup
  idle : state.caches.old = fun _ => none

theorem Good.node (good : state.Good) (key : Key) : (state.rib.node key).ids.Nodup := by
  rw [Rib.node]
  cases found : state.rib.nodes.find? fun entry => entry.1 = key with
  | none => exact nodup_nil
  | some entry => exact good.distinct entry (mem_of_find?_eq_some found)

omit [DecidableEq Key] in
theorem scanNodes_spec {zlookup : Zlookup} {caches : Caches} {old}
    (renewed : caches.Renewed zlookup old)
    (clock : Key → PathId → Int) (nodes : List (Key × Node)) :
    (scanNodes bgp cfg maxSuppressTime aggregates zlookup clock nodes caches).1 =
      nodes.map (fun entry => (entry.1,
        settledNode bgp cfg maxSuppressTime (aggregates entry.1)
        (clock entry.1) zlookup old entry.2)) ∧
      (scanNodes bgp cfg maxSuppressTime aggregates zlookup clock nodes caches).2.Renewed
        zlookup old := by
  induction nodes generalizing caches with
  | nil => exact ⟨rfl, renewed⟩
  | cons first rest ih =>
    obtain ⟨node, after⟩ :=
      renewed.scanNode bgp cfg maxSuppressTime (aggregates first.1) (clock first.1) first.2
    obtain ⟨nodes, renews⟩ := ih after
    exact ⟨by rw [scanNodes, map_cons, ← nodes, ← node], renews⟩

section
variable (good : state.Good)
include good

section
variable (zlookup : Zlookup) (clock : Key → PathId → Int)

omit [DecidableEq Key] in
theorem Good.scan_nodes :
    (state.bgpScanIpv4 bgp cfg maxSuppressTime aggregates zlookup clock).rib.nodes =
      state.rib.nodes.map fun entry =>
      (entry.1, settledNode bgp cfg maxSuppressTime (aggregates entry.1) (clock entry.1)
        zlookup state.caches.current entry.2) :=
  (scanNodes_spec (Caches.change_renewed zlookup good.idle) clock state.rib.nodes).1

omit [DecidableEq Key] in
theorem Good.scan : (state.bgpScanIpv4 bgp cfg maxSuppressTime aggregates zlookup clock).Good := by
  refine ⟨fun entry member => ?_, (Caches.flushOld_spec _).1⟩
  rw [good.scan_nodes] at member
  obtain ⟨before, known, rfl⟩ := mem_map.mp member
  exact settledNode_distinct bgp cfg maxSuppressTime _ _ zlookup _ (good.distinct before known)

omit [DecidableEq Key] in
/-- What a scan leaves in the cache is what zebra answers. -/
theorem Good.scan_fresh (addr : Ipv4) : zlookup.outdated
    (state.bgpScanIpv4 bgp cfg maxSuppressTime aggregates zlookup clock).caches.current addr =
      false := by
  have renewed := (@scanNodes_spec Key bgp cfg maxSuppressTime aggregates zlookup _ _
    (Caches.change_renewed zlookup good.idle) clock state.rib.nodes).2
  rw [bgpScanIpv4]
  dsimp only
  rw [(Caches.flushOld_spec _).2]
  exact renewed.fresh addr

theorem Good.scan_node (key : Key) :
    (state.bgpScanIpv4 bgp cfg maxSuppressTime aggregates zlookup clock).rib.node key =
        settledNode bgp cfg maxSuppressTime (aggregates key)
        (clock key) zlookup state.caches.current
          (state.rib.node key) ∨
      (state.rib.node key = {} ∧
      (state.bgpScanIpv4 bgp cfg maxSuppressTime aggregates zlookup clock).rib.node key = {}) := by
  rw [Rib.node, Rib.node, good.scan_nodes, find?_map]
  simp only [Function.comp_def]
  cases found : state.rib.nodes.find? fun entry => entry.1 = key with
  | none =>
    exact .inr ⟨rfl, rfl⟩
  | some entry =>
    have here := find?_some found
    obtain rfl : entry.1 = key := of_decide_eq_true here
    exact .inl rfl

theorem Good.scanned (key : Key) :
    (∀ ri ∈ (state.rib.node key).info,
        (((state.bgpScanIpv4 bgp cfg maxSuppressTime aggregates zlookup clock).rib.node key).flags
          ri.id).reach =
          settledReach bgp zlookup state.caches.current (state.rib.node key) ri) ∧
      ∀ other ∈
      ((state.bgpScanIpv4 bgp cfg maxSuppressTime aggregates zlookup clock).rib.node key).info,
        ∃ ri ∈ (state.rib.node key).info, other = ri.settled bgp zlookup state.caches.current := by
  obtain same | ⟨empty, after⟩ := good.scan_node zlookup clock key
  · rw [same]
    exact settledNode_spec bgp cfg maxSuppressTime _ _ zlookup _ (good.node key)
  · rw [empty, after]
    exact ⟨nofun, nofun⟩

end

theorem Good.step (op : NexthopOp Key) :
    (state.step bgp cfg maxSuppressTime aggregates op).Good := by
  cases op with
  | update key id attr env zlookup =>
    refine ⟨@storeNode_forall Key _ (fun node => node.ids.Nodup) _ _ _ good.distinct
      (bgpUpdate_distinct _ id attr (good.node key)), ?_⟩
    change (updateCaches bgp zlookup (bgp.peer id.peer) state.caches
      (state.decides bgp cfg aggregates zlookup key id attr env)).old = _
    cases state.decides bgp cfg aggregates zlookup key id attr env with
    | none => exact good.idle
    | some attrNew =>
      rw [updateCaches]
      split
      · rw [bgpNexthopLookup_old]
        exact good.idle
      · exact good.idle
  | withdraw key id now =>
    exact ⟨@storeNode_forall Key _ (fun node => node.ids.Nodup) _ _ _ good.distinct
      (bgpWithdraw_distinct now id (good.node key)), good.idle⟩
  | clearRoute peer nsf =>
    exact ⟨@walkNodes_forall Key (fun node => node.ids.Nodup) _ _
      (fun _ _ _ => clearRouteNode_distinct nsf peer) _ _ good.distinct, good.idle⟩
  | clearStale peer =>
    exact ⟨@walkNodes_forall Key (fun node => node.ids.Nodup) _ _
      (fun _ _ _ => clearStaleNode_distinct peer) _ _ good.distinct, good.idle⟩
  | scan clock zlookup => exact good.scan zlookup clock

end

theorem run_good (ops : List (NexthopOp Key)) :
    (run bgp cfg maxSuppressTime aggregates ops).Good := by
  rw [run]
  have start : Good ({} : Nexthops Key) := ⟨nofun, rfl⟩
  generalize ({} : Nexthops Key) = state at start
  induction ops generalizing state with
  | nil => exact start
  | cons op rest ih => exact ih _ (start.step op)

end Nexthops

section Tests
variable {bgp : Bgp} {zlookup : Zlookup}

/-- The answer by which `bgp_update` goes: the one that the cache holds, if there is one. -/
def Caches.resolves (caches : Caches) (zlookup : Zlookup) (nexthop : Ipv4) : Bool :=
  !zlookup.sock || match caches.current nexthop with
    | some bnc => bnc.valid
    | none => !(zlookup.answer nexthop).2.isEmpty

/-- The two tests of a next hop come to the same. With `disable-connected-check` a next hop of a
directly connected EBGP peer is resolved if and only if it is on a connected network; one that is
tested by both has the answer of the cache; one that is not tested at first is resolved. -/
def SameTest (bgp : Bgp) (peer : Peer) (zlookup : Zlookup) (caches : Caches)
    (nexthop : Ipv4) : Prop :=
  if scansConnected bgp peer then
    peer.disableConnectedCheck → zlookup.checkEbgp nexthop = caches.resolves zlookup nexthop
  else if needsNexthop bgp peer then zlookup.resolves nexthop = caches.resolves zlookup nexthop
  else zlookup.resolves nexthop

/-- The cache holds no other answer for the path's next hop than zebra gives now. -/
def Caches.UpToDate (caches : Caches) (bgp : Bgp) (zlookup : Zlookup) (ri : BgpInfo) : Prop :=
  ri.Scanned → scansConnected bgp (bgp.peer ri.id.peer) = false →
    zlookup.outdated caches.current ri.attr.nexthop = false

instance (bgp : Bgp) (peer : Peer) (zlookup : Zlookup) (caches : Caches) (nexthop : Ipv4) :
    Decidable (SameTest bgp peer zlookup caches nexthop) :=
  inferInstanceAs (Decidable (if scansConnected bgp peer then
    peer.disableConnectedCheck = true → zlookup.checkEbgp nexthop = caches.resolves zlookup nexthop
    else if needsNexthop bgp peer then zlookup.resolves nexthop = caches.resolves zlookup nexthop
    else zlookup.resolves nexthop = true))

theorem acceptUpdate_connected (ip : bgp.afi = .ip) (unicast : bgp.safi = .unicast) {peer env}
    {attr attrNew} (accepted : acceptUpdate bgp peer env attr = some attrNew)
    (connected : scansConnected bgp peer = true) (checked : peer.disableConnectedCheck = false) :
    env.nexthopCheckEbgp attrNew = true := by
  rw [scansConnected, and_eq_true, decide_eq_true_eq, decide_eq_true_eq] at connected
  simp only [acceptUpdate, ite_none_left_eq_some, bind_eq_some_iff] at accepted
  obtain ⟨-, -, -, -, -, modified, -, accepted⟩ := accepted
  rw [if_pos ⟨ip, unicast⟩, ite_none_left_eq_some, ite_none_left_eq_some] at accepted
  obtain ⟨tested, -, same⟩ := accepted
  cases same
  by_contra unconnected
  exact tested ⟨connected.1, connected.2, by simpa using unconnected, by rw [checked]; rfl⟩

theorem bgpNexthopLookup_valid (zlookup : Zlookup) (addr : Ipv4) (caches : Caches) :
    (bgpNexthopLookup zlookup false addr caches).1.valid = caches.resolves zlookup addr := by
  rw [bgpNexthopLookup, Caches.resolves]
  cases zlookup.sock with
  | false => rfl
  | true =>
    cases caches.current addr with
    | some bnc => rfl
    | none => exact (@newEntry_spec zlookup false addr (caches.old addr)).1

theorem nexthopCheck_spec (bgp : Bgp) (zlookup : Zlookup) (caches : Caches) (peer : Peer)
    (env : Environment)
    (ri : BgpInfo) : (nexthopCheck bgp peer (nexthopEnvironment zlookup caches env) ri).1 =
        (!needsNexthop bgp peer || caches.resolves zlookup ri.attr.nexthop) ∧
      (nexthopCheck bgp peer (nexthopEnvironment zlookup caches env) ri).2.id = ri.id ∧
      (nexthopCheck bgp peer (nexthopEnvironment zlookup caches env) ri).2.attr = ri.attr := by
  rw [nexthopCheck]
  cases needsNexthop bgp peer with
  | false => exact ⟨rfl, rfl, rfl⟩
  | true =>
    refine ⟨?_, rfl, rfl⟩
    rw [← bgpNexthopLookup_valid]
    rfl

section
variable (bgp : Bgp) (zlookup : Zlookup) (old : Cache) (ri : BgpInfo)

theorem reachability_valid : (zlookup.reachability old bgp ri).valid =
    if scansConnected bgp (bgp.peer ri.id.peer) then zlookup.checkEbgp ri.attr.nexthop
    else zlookup.resolves ri.attr.nexthop := by
  rw [reachability]
  split <;> rfl

theorem reachability_changed : (zlookup.reachability old bgp ri).changed =
    (!scansConnected bgp (bgp.peer ri.id.peer) && zlookup.outdated old ri.attr.nexthop) := by
  rw [reachability]
  split
  · rename_i connected
    simp [connected]
  · rename_i apart
    simp [apart]

theorem settled_same : (ri.settled bgp zlookup old).id = ri.id ∧
    (ri.settled bgp zlookup old).attr = ri.attr := by
  rw [settled]
  split
  · rw [measured]
    split <;> exact ⟨rfl, rfl⟩
  · exact ⟨rfl, rfl⟩

theorem scanned_iff : (ri.settled bgp zlookup old).Scanned ↔ ri.Scanned := by
  rw [Scanned, Scanned, (settled_same bgp zlookup old ri).1]

theorem settled_settled (later : Cache) :
    (ri.settled bgp zlookup old).settled bgp zlookup later = ri.settled bgp zlookup old := by
  by_cases scanned : ri.Scanned
  · obtain ⟨id, attr⟩ := settled_same bgp zlookup old ri
    have metric : (zlookup.reachability later bgp (ri.settled bgp zlookup old)).igpmetric =
        (zlookup.reachability old bgp ri).igpmetric := by
      rw [reachability, reachability, id, attr]
      split <;> rfl
    rw [settled, if_pos ((scanned_iff bgp zlookup old ri).mpr scanned), measured, metric]
    rw [settled, if_pos scanned, measured]
    cases (zlookup.reachability old bgp ri).igpmetric <;> rfl
  · rw [settled, if_neg (mt (scanned_iff bgp zlookup old ri).mp scanned)]

end

theorem sameTest_iff (unicast : bgp.safi = .unicast) {peer nexthop} (caches : Caches)
    (accepted : scansConnected bgp peer = true → peer.disableConnectedCheck = false →
      zlookup.checkEbgp nexthop = true) :
    ((if scansConnected bgp peer then zlookup.checkEbgp nexthop else zlookup.resolves nexthop) =
      (!needsNexthop bgp peer || caches.resolves zlookup nexthop)) ↔
      SameTest bgp peer zlookup caches nexthop := by
  rw [SameTest]
  cases connected : scansConnected bgp peer with
  | false => cases needsNexthop bgp peer <;> simp
  | true =>
    have sort := connected
    rw [scansConnected, and_eq_true, decide_eq_true_eq] at sort
    have needs : needsNexthop bgp peer = peer.disableConnectedCheck := by
      simp [needsNexthop, unicast, sort.1, sort.2]
    rw [needs]
    cases disabled : peer.disableConnectedCheck with
    | true => simp
    | false => simp [accepted connected disabled]

end Tests

namespace Nexthops
variable {Key : Type} [DecidableEq Key] {bgp : Bgp} {cfg : DampConfig} {maxSuppressTime : Int}
  {aggregates : Key → List Bool} {state : Nexthops Key}

omit [DecidableEq Key] in
theorem node_store [DecidableEq Key] (rib : Rib Key) (key : Key) (peer : PeerId) (result : Local) :
    (rib.store key peer result).node key = result.1 := by
  rw [store, node]
  induction rib.nodes with
  | nil => simp [storeNode]
  | cons first rest ih =>
    rw [storeNode]
    split
    · simp
    · rename_i apart
      rw [find?_cons_of_neg (by simpa using apart)]
      exact ih

theorem Good.scan_update (good : state.Good) (ip : bgp.afi = .ip) (unicast : bgp.safi = .unicast)
    (zlookup : Zlookup)
    {key id attr attrNew env} (clock : Key → PathId → Int)
    (normal : id.type = 9 ∧ id.subType = .normal)
    (decides : state.decides bgp cfg aggregates zlookup key id attr env = some attrNew) :
    ((((state.bgpUpdate bgp cfg aggregates zlookup key id attr env).bgpScanIpv4 bgp cfg
      maxSuppressTime aggregates
          zlookup clock).rib.node key).flags id).valid =
        (((state.bgpUpdate bgp cfg aggregates zlookup key id attr env).rib.node key).flags
          id).valid ↔
      SameTest bgp (bgp.peer id.peer) zlookup state.caches attrNew.nexthop := by
  have updated :=
    @Good.step Key _ bgp cfg maxSuppressTime aggregates state good (.update key id attr env zlookup)
  have node : (state.bgpUpdate bgp cfg aggregates zlookup key id attr env).rib.node key = _ :=
    node_store ..
  obtain ⟨accepted, ri, rfl, rfl, member, valid⟩ :=
    updateDecides_spec (state.rib.accounts id.peer) decides
  obtain ⟨checked, sameId, sameAttr⟩ :=
    nexthopCheck_spec bgp zlookup state.caches (bgp.peer ri.id.peer) env ri
  change (nexthopCheck bgp _ (state.environment zlookup env) ri).1 = _ at checked
  change (nexthopCheck bgp _ (state.environment zlookup env) ri).2.id = _ at sameId
  change (nexthopCheck bgp _ (state.environment zlookup env) ri).2.attr = _ at sameAttr
  generalize nexthopCheck bgp (bgp.peer ri.id.peer) (state.environment zlookup env) ri = path at *
  rw [← node] at member valid
  have scanned :=
    (@Good.scanned Key _ bgp cfg maxSuppressTime aggregates _ updated zlookup clock key).1
    path.2 member
  rw [settledReach, if_pos (by rw [Scanned, sameId]; exact normal)] at scanned
  have after := congrArg fst scanned
  dsimp only at after
  rw [reachability_valid, sameId, sameAttr] at after
  have tests := sameTest_iff unicast state.caches (acceptUpdate_connected ip unicast accepted)
  rw [← after, ← checked, ← valid] at tests
  exact tests

theorem Good.scan_scan (good : state.Good) (zlookup : Zlookup)
    (clock later : Key → PathId → Int) {key ri}
    (member : ri ∈
    (((state.bgpScanIpv4 bgp cfg maxSuppressTime aggregates zlookup clock).bgpScanIpv4 bgp cfg
      maxSuppressTime aggregates zlookup later).rib.node key).info) :
    let first := state.bgpScanIpv4 bgp cfg maxSuppressTime aggregates zlookup clock
    let second := first.bgpScanIpv4 bgp cfg maxSuppressTime aggregates zlookup later
    ri ∈ (first.rib.node key).info ∧
      ((second.rib.node key).flags ri.id).valid = ((first.rib.node key).flags ri.id).valid ∧
      (((second.rib.node key).flags ri.id).igpChanged =
        ((first.rib.node key).flags ri.id).igpChanged ↔
        state.caches.UpToDate bgp zlookup ri) := by
  obtain ⟨reach, origin⟩ := good.scanned zlookup clock key
  obtain ⟨again, from_⟩ := (good.scan zlookup clock).scanned zlookup later key
  obtain ⟨middle, inside, rfl⟩ := from_ ri member
  obtain ⟨start, known, rfl⟩ := origin middle inside
  rw [settled_settled]
  intro first second
  have once := reach start known
  have twice := again _ inside
  obtain ⟨id, attr⟩ := settled_same bgp zlookup state.caches.current start
  rw [settledReach] at once twice
  refine ⟨inside, ?_⟩
  by_cases scanned : start.Scanned
  · rw [if_pos scanned, ← id] at once
    rw [if_pos ((scanned_iff ..).mpr scanned)] at twice
    refine ⟨(congrArg fst twice).trans (Eq.trans ?_ (congrArg fst once).symm), ?_⟩
    · dsimp only
      rw [reachability_valid, reachability_valid, id, attr]
    · rw [show ((second.rib.node key).flags _).igpChanged = _ from congrArg snd twice,
        show ((first.rib.node key).flags _).igpChanged = _ from congrArg snd once,
          reachability_changed,
        reachability_changed, good.scan_fresh, Caches.UpToDate, scanned_iff, id, attr]
      cases scansConnected bgp (bgp.peer start.id.peer) <;> simp [scanned]
  · rw [if_neg ((not_congr (scanned_iff ..)).mpr scanned)] at twice
    refine ⟨congrArg fst twice, fun _ asked => ?_, fun _ => congrArg snd twice⟩
    exact absurd ((scanned_iff ..).mp asked) scanned

/-- After any run, with the same networks and answers for both calls, a scan leaves the VALID flag
as `bgp_update` has set it if and only if the two tests come to the same for the next hop; and a
second scan leaves what the first one has found about a path if and only if that was no change of an
answer. -/
theorem nexthop_validity (ip : bgp.afi = .ip) (unicast : bgp.safi = .unicast)
    (ops : List (NexthopOp Key)) (zlookup : Zlookup) :
    let state := run bgp cfg maxSuppressTime aggregates ops
    (∀ key id attr env clock attrNew, id.type = 9 ∧ id.subType = .normal →
      state.decides bgp cfg aggregates zlookup key id attr env = some attrNew →
      let updated := state.bgpUpdate bgp cfg aggregates zlookup key id attr env
      let scanned := updated.bgpScanIpv4 bgp cfg maxSuppressTime aggregates zlookup clock
      (((scanned.rib.node key).flags id).valid = ((updated.rib.node key).flags id).valid ↔
        SameTest bgp (bgp.peer id.peer) zlookup state.caches attrNew.nexthop)) ∧
    ∀ clock later key,
      let first := state.bgpScanIpv4 bgp cfg maxSuppressTime aggregates zlookup clock
      let second := first.bgpScanIpv4 bgp cfg maxSuppressTime aggregates zlookup later
      ∀ ri ∈ (second.rib.node key).info, ri ∈ (first.rib.node key).info ∧
        ((second.rib.node key).flags ri.id).valid = ((first.rib.node key).flags ri.id).valid ∧
        (((second.rib.node key).flags ri.id).igpChanged =
          ((first.rib.node key).flags ri.id).igpChanged ↔
          state.caches.UpToDate bgp zlookup ri) := by
  intro state
  have good : state.Good := run_good ops
  refine ⟨fun key id attr env clock attrNew normal decides => ?_, ?_⟩
  · exact good.scan_update ip unicast zlookup clock normal decides
  · intro clock later key first second ri member
    exact good.scan_scan zlookup clock later member

end Nexthops

namespace Confederation

/-- A member of a confederation with a peer in another member AS. -/
def bgp : Bgp where
  as := 65001
  confederation := true
  confedId := 100
  confedPeers := [65002]
  peer := fun _ => { as := 65002, localAs := 65001, remoteId := 1, suRemote := .inet 1 }
  peerSelf := 9

def cfg : DampConfig where
  suppressValue := 2000
  reuseLimit := 750
  ceiling := 12000
  decay := fun _ penalty => penalty

def env : Environment where
  inputFilter := fun _ => true
  inputModifier := some
  nexthopCheckEbgp := fun _ => true
  nexthopSelf := fun _ => false
  nexthopLookup := fun _ => (true, 0)
  withdrawTime := 0
  updateTime := 0

def id : PathId := ⟨0, 9, .normal⟩

def attr : Attr :=
  { aspath := some ⟨[3, 1, 0xfd, 0xea]⟩, nexthop := 0x0a000001 }

/-- Zebra knows the way to some addresses and is connected to nothing. -/
def zlookup (known : List Ipv4) : Zlookup where
  connected := []
  answer := fun addr => if addr ∈ known then (10, [{ type := .ipv4, gate := 0xc0a80001 }])
    else (0, [])

end Confederation

namespace Nexthops
open Confederation

/-- Zebra resolves the next hop of a path, then does not, then does again. -/
def resolvedRun : List (NexthopOp Bool) :=
  [.update true id attr env (zlookup [0x0a000001]), .scan (fun _ _ => 0) (zlookup []),
    .scan (fun _ _ => 0) (zlookup [0x0a000001])]

/-- After that another path with the next hop keeps its flag, and two scans find the same about the
  first one. -/
theorem nexthop_validity_resolved :
    let state := run bgp cfg 3600 (fun _ => []) resolvedRun
    let updated := state.bgpUpdate bgp cfg (fun _ => []) (zlookup [0x0a000001]) false id attr env
    let scanned := updated.bgpScanIpv4 bgp cfg 3600 (fun _ => [])
      (zlookup [0x0a000001]) fun _ _ => 0
    ((scanned.rib.node false).flags id).valid = ((updated.rib.node false).flags id).valid ∧
      let first := state.bgpScanIpv4 bgp cfg 3600 (fun _ => []) (zlookup [0x0a000001]) fun _ _ => 0
      let second := first.bgpScanIpv4 bgp cfg 3600 (fun _ => []) (zlookup [0x0a000001]) fun _ _ => 0
      ∀ ri ∈ (second.rib.node true).info, ri ∈ (first.rib.node true).info ∧
        ((second.rib.node true).flags ri.id).igpChanged =
          ((first.rib.node true).flags ri.id).igpChanged :=
  have valid := nexthop_validity rfl rfl resolvedRun (zlookup [0x0a000001])
  ⟨(valid.1 false id attr env (fun _ _ => 0) attr ⟨rfl, rfl⟩ (by decide +kernel)).mpr
    (by decide +kernel),
    fun ri member =>
      have hop : ri.attr.nexthop = 0x0a000001 := by
        revert ri
        decide +kernel
      have scans := valid.2 (fun _ _ => 0) (fun _ _ => 0) true ri member
      have fresh : (zlookup [0x0a000001]).outdated
          (run bgp cfg 3600 (fun _ => []) resolvedRun).caches.current
          0x0a000001 = false := by decide +kernel
      ⟨scans.1, scans.2.2.mpr fun _ _ => (congrArg _ hop).trans fresh⟩⟩

/-- The path of a confederation peer whose next hop zebra does not resolve: `bgp_update` makes it
valid without a look, and the scan makes it invalid. -/
theorem confederation_scan_invalidates :
    ¬ ∀ (bgp : Bgp) (cfg : DampConfig) (maxSuppressTime : Int) (aggregates : Unit → List Bool)
    (zlookup : Zlookup)
      (ops : List (NexthopOp Unit)), bgp.afi = .ip → bgp.safi = .unicast →
      let state := run bgp cfg maxSuppressTime aggregates ops
      ∀ key id attr env clock attrNew, id.type = 9 ∧ id.subType = .normal →
      state.decides bgp cfg aggregates zlookup key id attr env = some attrNew →
      let updated := state.bgpUpdate bgp cfg aggregates zlookup key id attr env
      let scanned := updated.bgpScanIpv4 bgp cfg maxSuppressTime aggregates zlookup clock
      ((scanned.rib.node key).flags id).valid = ((updated.rib.node key).flags id).valid := by
  intro always
  have same := always bgp cfg 3600 (fun _ => []) (zlookup [])
    [] rfl rfl () id attr env (fun _ _ => 0) attr ⟨rfl, rfl⟩
    (by decide +kernel)
  revert same
  decide +kernel

end Nexthops
end Zebra.Bgpd
