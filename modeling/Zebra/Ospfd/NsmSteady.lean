import Zebra.Ospfd.NbrLists
import Zebra.Ospfd.Nsm

namespace Zebra.Ospfd
open Base Ospf Option List
namespace Adjacencies

/-- The neighbours keep their states, the counts stay, and only the lists that may do grow. -/
structure Steady (may : NbrId → Prop) (before after : Adjacencies) : Prop where
  grows : Ospf.Grows may before.toOspf after.toOspf
  fullNbrs : ∀ id, (after.oi id).fullNbrs = (before.oi id).fullNbrs
  areaFullNbrs : after.areaFullNbrs = before.areaFullNbrs

variable {may : NbrId → Prop} {adj middle after : Adjacencies}

theorem Steady.refl : Steady may adj adj :=
  ⟨.refl, fun _ => rfl, rfl⟩

theorem Steady.trans (first : Steady may adj middle) (second : Steady may middle after) :
    Steady may adj after :=
  ⟨first.grows.trans second.grows, fun id => (second.fullNbrs id).trans (first.fullNbrs id),
    second.areaFullNbrs.trans first.areaFullNbrs⟩

theorem steady_onOspf (adj : Adjacencies) {change}
    (grows : Grows may adj.toOspf (change adj.toOspf)) :
    Steady may adj (adj.onOspf change) :=
  ⟨grows, fun _ => rfl, rfl⟩

theorem steady_of_eq (ospf : after.toOspf = adj.toOspf) (oi : after.oi = adj.oi)
    (areas : after.areaFullNbrs = adj.areaFullNbrs) :
    Steady may adj after :=
  ⟨ospf ▸ .refl, fun _ => by rw [oi], areas⟩

section
variable (adj : Adjacencies) (nbr : NbrId)

theorem steady_modifyDd (change : DdState → DdState) : Steady may adj (adj.modifyDd nbr change) :=
  steady_of_eq rfl rfl rfl

theorem steady_dropFlags (flags : Octet) : Steady may adj (adj.dropFlags nbr flags) :=
  steady_modifyDd ..

theorem steady_setSeqnum (seqnum : BitVec 32) : Steady may adj (adj.setSeqnum nbr seqnum) :=
  steady_modifyDd ..

theorem steady_keepSent (packet : DbDesc) : Steady may adj (adj.keepSent nbr packet) :=
  steady_modifyDd ..

theorem steady_schedule (event : NsmEvent) : Steady may adj (adj.schedule nbr event) :=
  steady_of_eq rfl rfl rfl

theorem steady_transmit (packet : DbDesc) : Steady may adj (adj.transmit nbr packet) :=
  steady_of_eq rfl rfl rfl

theorem steady_foldl {Item : Type} {step : Adjacencies → Item → Adjacencies}
    (each : ∀ adj item, Steady may adj (step adj item))
    (adj : Adjacencies) (items : List Item) : Steady may adj (items.foldl step adj) := by
  induction items generalizing adj with
  | nil => exact .refl
  | cons item rest ih => exact (each adj item).trans (ih _)

theorem steady_forgetRequest : Steady may adj (adj.forgetRequest nbr) := by
  rw [forgetRequest]
  split
  · exact ⟨grows_forget adj.toOspf nbr none, fun _ => rfl, rfl⟩
  · rename_i last _
    exact ⟨(grows_unlock adj.toOspf last).trans (grows_forget _ nbr none), fun _ => rfl, rfl⟩

theorem steady_summaryClear : Steady may adj (adj.ospfDbSummaryClear nbr) :=
  steady_foldl (fun adj id => steady_onOspf adj (grows_delete adj.toOspf _ id)) adj _

theorem steady_requestDeleteAll : Steady may adj (adj.ospfLsRequestDeleteAll nbr) :=
  (steady_forgetRequest adj nbr).trans (steady_onOspf _ (grows_deleteAll _ _))

theorem steady_retransmitClear : Steady may adj (adj.ospfLsRetransmitClear nbr) :=
  (steady_foldl (fun adj id => steady_onOspf adj (grows_retransmitDelete adj.toOspf nbr id))
    adj _).trans
    (steady_forgetRequest _ nbr)

theorem steady_clearDbSum : Steady may adj (adj.clearDbSum nbr) := by
  rw [clearDbSum]
  split
  · exact .refl
  · exact steady_summaryClear adj nbr

theorem steady_clearLsReq : Steady may adj (adj.clearLsReq nbr) := by
  rw [clearLsReq]
  split
  · exact .refl
  · exact steady_requestDeleteAll adj nbr

theorem steady_clearLsRxmt : Steady may adj (adj.clearLsRxmt nbr) := by
  rw [clearLsRxmt]
  split
  · exact .refl
  · exact steady_retransmitClear adj nbr

theorem steady_reset : Steady may adj (adj.nsmResetNbr nbr) :=
  ((steady_clearDbSum adj nbr).trans (steady_clearLsReq _ nbr)).trans (steady_clearLsRxmt _ nbr)

end

/-- Nothing is stored. -/
def Bare (adj : Adjacencies) (db : DbId) : Prop :=
  ∀ key, (adj.lsdb db).lookup key = none

variable {db : DbId} {nbr : NbrId}

theorem mem_storedIn {key id} (found : (adj.lsdb db).lookup key = some id) :
    id ∈ adj.storedIn db := by
  obtain ⟨node, here, info⟩ := bind_eq_some_iff.mp found
  exact mem_filterMap.mpr ⟨⟨key, node⟩, AList.mem_lookup_iff.mp here, info⟩

theorem bare_foldl {take : Adjacencies → LsaId → Adjacencies}
    (steady : ∀ adj id, Steady (fun _ => True) adj (take adj id))
    (takes : ∀ adj : Adjacencies, adj.Kept → ∀ id key found,
      ((take adj id).lsdb db).lookup key = some found →
      (adj.lsdb db).lookup key = some found ∧ found ≠ id) (kept : adj.Kept) {ids : List LsaId}
    (all : ∀ key id, (adj.lsdb db).lookup key = some id → id ∈ ids) :
    (ids.foldl take adj).Bare db := by
  induction ids generalizing adj with
  | nil =>
    intro key
    cases found : (adj.lsdb db).lookup key with
    | none => exact found
    | some id => cases all key id found
  | cons id rest ih =>
    refine ih ((steady adj id).grows.kept kept) fun key found still => ?_
    obtain ⟨before, apart⟩ := takes adj kept id key found still
    exact (mem_cons.mp (all key found before)).resolve_left apart

theorem deleted_apart {ospf : Ospf} (kept : ospf.Kept) {id : LsaId} {key found}
    (still : ((ospf.onStore (·.ospfLsdbDelete db id)).lsdb db).lookup key = some found) :
    (ospf.lsdb db).lookup key = some found ∧ found ≠ id := by
  have before := lookup_deleted still
  refine ⟨before, fun same => ?_⟩
  subst same
  have filed := (kept.filed db key found before).2
  have gone := Store.lookup_ospfLsdbDelete ospf.toStore db found key
  rw [if_pos ⟨filed.symm, filed ▸ before⟩] at gone
  exact absurd (gone.symm.trans still) (some_ne_none found).symm

/-- All three lists of a neighbour are empty. -/
def Idle (adj : Adjacencies) (nbr : NbrId) : Prop :=
  ∀ db, db.nbr = some nbr → adj.Bare db

theorem Idle.steady (idle : adj.Idle nbr) (apart : ¬may nbr) (steady : Steady may adj after) :
    after.Idle nbr :=
  fun db listed key => steady.grows.lists db nbr listed apart key (idle db listed key)

theorem Bare.steady (bare : adj.Bare db) (listed : db.nbr = some nbr)
    (steady : Steady (fun _ => False) adj after) :
    after.Bare db :=
  fun key => steady.grows.lists db nbr listed id key (bare key)

theorem idle_of_bare (dbSum : adj.Bare (.dbSum nbr)) (lsReq : adj.Bare (.lsReq nbr))
    (lsRxmt : adj.Bare (.lsRxmt nbr)) : adj.Idle nbr := by
  intro db listed
  cases db with
  | as => cases listed
  | area area => cases listed
  | dbSum other => exact some.inj listed ▸ dbSum
  | lsReq other => exact some.inj listed ▸ lsReq
  | lsRxmt other => exact some.inj listed ▸ lsRxmt

section
variable (kept : adj.Kept)
include kept

theorem bare_of_isEmpty (empty : adj.isEmpty db = true) : adj.Bare db :=
  fun key => (kept.totalled db).lookup_none (of_decide_eq_true empty) key

theorem bare_clearDbSum (nbr : NbrId) : (adj.clearDbSum nbr).Bare (.dbSum nbr) := by
  rw [clearDbSum]
  split
  · rename_i empty
    exact bare_of_isEmpty kept empty
  · refine bare_foldl (fun adj id => steady_onOspf adj (grows_delete adj.toOspf _ id)) ?_ kept
      fun key id found => mem_storedIn found
    exact fun adj kept id key found still => deleted_apart kept still

theorem bare_clearLsReq (nbr : NbrId) : (adj.clearLsReq nbr).Bare (.lsReq nbr) := by
  rw [clearLsReq]
  split
  · rename_i empty
    exact bare_of_isEmpty kept empty
  · exact Store.lookup_ospfLsdbDeleteAll_none (adj.forgetRequest nbr).toStore (.lsReq nbr)

theorem bare_clearLsRxmt (nbr : NbrId) : (adj.clearLsRxmt nbr).Bare (.lsRxmt nbr) := by
  rw [clearLsRxmt]
  split
  · rename_i empty
    exact bare_of_isEmpty kept empty
  · have cleared :
        ((adj.storedIn (.lsRxmt nbr)).foldl
        (fun adj id => adj.onOspf (·.ospfLsRetransmitDelete nbr id)) adj).Bare
        (.lsRxmt nbr) := by
      refine bare_foldl
        (fun adj id => steady_onOspf adj (grows_retransmitDelete adj.toOspf nbr id)) ?_ kept
        fun key id found => mem_storedIn found
      intro adj kept id key found still
      have still' : ((adj.toOspf.ospfLsRetransmitDelete nbr id).lsdb (.lsRxmt nbr)).lookup key =
        some found := still
      rw [ospfLsRetransmitDelete] at still'
      split at still'
      · have counted : (adj.count id (-1)).Kept :=
          (grows_count adj.toOspf id (-1) : Grows (fun _ => True) _ _).kept kept
        exact deleted_apart counted still'
      · rename_i missing
        refine ⟨still', fun same => missing ?_⟩
        subst same
        rw [ospfLsRetransmitLookup, (kept.filed _ key found still').2, still']
        rfl
    intro key
    exact (steady_forgetRequest _ nbr : Steady (fun _ => False) _ _).grows.lists
      (.lsRxmt nbr) nbr rfl id key (cleared key)

theorem idle_reset (nbr : NbrId) : (adj.nsmResetNbr nbr).Idle nbr := by
  have first := (steady_clearDbSum adj nbr : Steady (fun _ => False) _ _)
  have second := (steady_clearLsReq (adj.clearDbSum nbr) nbr : Steady (fun _ => False) _ _)
  have third :=
    (steady_clearLsRxmt ((adj.clearDbSum nbr).clearLsReq nbr) nbr : Steady (fun _ => False) _ _)
  have kept' := first.grows.kept kept
  exact idle_of_bare ((bare_clearDbSum kept nbr).steady rfl (second.trans third))
    ((bare_clearLsReq kept' nbr).steady rfl third)
    (bare_clearLsRxmt (second.grows.kept kept') nbr)

end

theorem steady_packType (nbr : NbrId) (max : Int) (filling : Filling) (ids : List LsaId) :
    Steady may filling.adj (packType nbr max filling ids).adj := by
  induction ids generalizing filling with
  | nil => exact .refl
  | cons id rest ih =>
    have gone : Steady may filling.adj
        (filling.adj.onOspf (·.onStore (·.ospfLsdbDelete (.dbSum nbr) id))) :=
      steady_onOspf _ (grows_delete _ _ id)
    rw [packType]
    split
    · exact gone.trans (ih ⟨_, _, _⟩)
    · split
      · exact .refl
      · exact gone.trans (ih ⟨_, _, _⟩)

section
variable (adj : Adjacencies) (nbr : NbrId)

theorem steady_pack : Steady may adj (adj.pack nbr).adj := by
  have each (max : Int) (types : List LsaType) (filling : Filling) :
      Steady may filling.adj (types.foldl (packNext nbr max) filling).adj := by
    induction types generalizing filling with
    | nil => exact .refl
    | cons type rest ih => exact (steady_packType nbr max filling _).trans (ih _)
  exact each (adj.packetMax nbr) _ ⟨adj, 8, []⟩

theorem steady_noMore : Steady may adj (adj.noMore nbr) := by
  rw [noMore]
  split
  · exact steady_modifyDd ..
  · exact .refl

theorem steady_makeDbDesc : Steady may adj (adj.ospfMakeDbDesc nbr).1 := by
  rw [ospfMakeDbDesc, apply_ite Prod.fst]
  dsimp only
  split
  · exact steady_noMore adj nbr
  · exact steady_pack adj nbr

theorem steady_dbDescSend : Steady may adj (adj.ospfDbDescSend nbr) :=
  ((steady_makeDbDesc adj nbr).trans (steady_transmit _ nbr _)).trans (steady_keepSent _ nbr _)

theorem steady_dbDescResend : Steady may adj (adj.ospfDbDescResend nbr) := by
  rw [ospfDbDescResend]
  split
  · exact .refl
  · exact steady_transmit ..

theorem steady_startExchange : Steady may adj (adj.startExchange nbr) :=
  (steady_modifyDd adj nbr _ : Steady may adj (adj.initExchange nbr)).trans
    (steady_dbDescSend _ nbr)

end

theorem steady_procHeader (listed : may nbr) (adj : Adjacencies) (header : LsaHeader) :
    Steady may adj (adj.procHeader nbr header) := by
  have made : Steady may adj (adj.onOspf fun ospf => (ospf.ospfLsaNew header [] none false).1) :=
    steady_onOspf adj (grows_lsaNew ..)
  rw [procHeader]
  refine Steady.trans ?_ (steady_onOspf _ (grows_discard _ _))
  split
  · exact made.trans
      (steady_onOspf _ (grows_add (Nat.lt_succ_self _) fun other same => some.inj same ▸ listed))
  · exact made

theorem steady_procHeaders (listed : may nbr) (adj : Adjacencies)
    (headers : List (Option LsaHeader)) :
    Steady may adj (procHeaders nbr adj headers).1 := by
  induction headers generalizing adj with
  | nil => exact .refl
  | cons header rest ih =>
    cases header with
    | none => exact steady_schedule ..
    | some header =>
      rw [procHeaders]
      split
      · exact steady_schedule ..
      · exact (steady_procHeader listed adj header).trans (ih _)

theorem steady_procMaster (adj : Adjacencies) (nbr : NbrId) (dd : DbDesc) :
    Steady may adj (adj.procMaster nbr dd) := by
  rw [procMaster]
  refine (steady_setSeqnum adj nbr ((adj.dd nbr).ddSeqnum + 1)).trans ?_
  split
  · exact steady_schedule ..
  · exact steady_dbDescSend ..

theorem steady_procSlave (adj : Adjacencies) (nbr : NbrId) (dd : DbDesc) :
    Steady may adj (adj.procSlave nbr dd) := by
  refine (steady_setSeqnum adj nbr dd.ddSeqnum).trans (Steady.trans ?_ (steady_dbDescSend _ nbr))
  split
  · exact (steady_dropFlags _ nbr _).trans (steady_schedule ..)
  · exact .refl

theorem steady_dbDescProc (listed : may nbr) (adj : Adjacencies) (dd : DbDesc) :
    Steady may adj (adj.ospfDbDescProc nbr dd) := by
  have processed := steady_procHeaders listed adj dd.headers
  rw [ospfDbDescProc]
  split
  · refine Steady.trans (processed.trans ?_) (steady_modifyDd _ nbr _)
    split
    · exact steady_procMaster ..
    · exact steady_procSlave ..
  · exact processed

theorem known_storedType (kept : adj.Kept) {type id} (member : id ∈ adj.storedType db type) :
    id < adj.fresh := by
  obtain ⟨entry, inside, info⟩ := mem_filterMap.mp member
  refine (kept.filed db entry.1 id ?_).1
  rw [Lsdb.lookup, AList.lookup,
    mem_dlookup (adj.lsdb db).nodes.nodupKeys (mem_of_mem_filter inside)]
  exact info

theorem known_summary (kept : adj.Kept) {id} (member : id ∈ adj.summary nbr) : id < adj.fresh := by
  rcases mem_append.mp member with area | external
  · obtain ⟨type, -, inside⟩ := mem_flatMap.mp area
    exact known_storedType kept inside
  · split at external
    · exact known_storedType kept external
    · cases external

theorem steady_summaryAdd (listed : may nbr) {id} (known : id < adj.fresh) :
    Steady may adj (ospfDbSummaryAdd nbr adj id) := by
  rw [ospfDbSummaryAdd]
  split
  · exact steady_onOspf adj (grows_retransmitAdd known listed)
  · exact steady_onOspf adj (grows_add known fun other same => some.inj same ▸ listed)

theorem steady_negotiationDone (kept : adj.Kept) (listed : may nbr) :
    Steady may adj (adj.nsmNegotiationDone nbr) := by
  have each (ids : List LsaId) (adj : Adjacencies) (known : ∀ id ∈ ids, id < adj.fresh) :
      Steady may adj (ids.foldl (ospfDbSummaryAdd nbr) adj) := by
    induction ids generalizing adj with
    | nil => exact .refl
    | cons id rest ih =>
      have added : Steady may adj (ospfDbSummaryAdd nbr adj id) :=
        steady_summaryAdd listed (known id mem_cons_self)
      exact added.trans (ih _ fun other member =>
        lt_of_lt_of_le (known other (mem_cons_of_mem id member)) added.grows.fresh)
  exact each _ adj fun id member => known_summary kept member

def fulls (adj : Adjacencies) (oi : OspfInterface) : Nat :=
  oi.nbrs.countP fun nbr => (adj.nbr nbr).state = .full

/-- Every neighbour is on its interface once, and the counts are of those in state Full. -/
structure Counted (adj : Adjacencies) : Prop where
  placed : ∀ oi ∈ adj.oiflist, ∀ nbr ∈ oi.nbrs, (adj.nbr nbr).oi = oi.id
  unique : (adj.oiflist.map OspfInterface.id).Nodup
  nodup : ∀ oi ∈ adj.oiflist, oi.nbrs.Nodup
  fullNbrs : ∀ oi ∈ adj.oiflist, (adj.oi oi.id).fullNbrs = adj.fulls oi
  areaFullNbrs : ∀ area, adj.areaFullNbrs area =
    ((adj.areaOiflist area).map fun oi => (adj.fulls oi : Int)).sum

theorem fulls_congr {oi} (same : ∀ nbr ∈ oi.nbrs, (after.nbr nbr).state = (adj.nbr nbr).state) :
    after.fulls oi = adj.fulls oi :=
  countP_congr fun nbr member => by rw [same nbr member]

section
variable (counted : adj.Counted)
include counted

theorem Counted.steady (steady : Steady may adj after) : after.Counted where
  placed := fun oi member nbr inside => by
    rw [steady.grows.oiflist] at member
    rw [steady.grows.oi nbr]
    exact counted.placed oi member nbr inside
  unique := steady.grows.oiflist ▸ counted.unique
  nodup := steady.grows.oiflist ▸ counted.nodup
  fullNbrs := fun oi member => by
    rw [steady.grows.oiflist] at member
    rw [steady.fullNbrs, fulls_congr fun nbr _ => steady.grows.state nbr]
    exact counted.fullNbrs oi member
  areaFullNbrs := fun area => by
    have same : (fun oi => (after.fulls oi : Int)) = fun oi => (adj.fulls oi : Int) :=
      funext fun oi => by rw [fulls_congr fun nbr _ => steady.grows.state nbr]
    rw [steady.areaFullNbrs, areaOiflist, steady.grows.oiflist, same]
    exact counted.areaFullNbrs area

theorem Counted.interfaceOf {oi} (member : oi ∈ adj.oiflist)
    (inside : nbr ∈ oi.nbrs) : adj.interfaceOf nbr = oi := by
  have found : adj.oiOf nbr = some oi := by
    rw [oiOf, counted.placed oi member nbr inside]
    exact find?_of_nodup_map counted.unique member
  rw [Adjacencies.interfaceOf, found]
  rfl

theorem Counted.home {oi other} (member : oi ∈ adj.oiflist)
    (here : other ∈ adj.oiflist) (inside : nbr ∈ oi.nbrs) (also : nbr ∈ other.nbrs) : other = oi :=
  (counted.interfaceOf here also).symm.trans (counted.interfaceOf member inside)

/-- One neighbour changes its state, and the counts of its interface and its area with it. -/
theorem Counted.recount {home} (member : home ∈ adj.oiflist) {nbr}
    (inside : nbr ∈ home.nbrs) {amount} (oiflist : after.oiflist = adj.oiflist)
    (oi : ∀ other, (after.nbr other).oi = (adj.nbr other).oi)
    (state : ∀ other, other ≠ nbr → (after.nbr other).state = (adj.nbr other).state)
    (fullNbrs : ∀ id, (after.oi id).fullNbrs = (adj.oi id).fullNbrs + if id = home.id then
      amount else 0)
    (areaFullNbrs : ∀ area, after.areaFullNbrs area = adj.areaFullNbrs area + if area =
      home.area then amount else 0)
    (change : (if (after.nbr nbr).state = .full then 1 else 0 : Int) =
      (if (adj.nbr nbr).state = .full then 1 else 0) + amount) :
    after.Counted := by
  have elsewhere (other : OspfInterface) (here : other ∈ adj.oiflist) (apart : other ≠ home) :
      after.fulls other = adj.fulls other :=
    fulls_congr fun found also => state found fun same =>
      apart (counted.home member here inside (same ▸ also))
  have at_home : (after.fulls home : Int) = adj.fulls home + amount := by
    have moved := @countP_change _ _ _ (fun other => decide ((adj.nbr other).state = NsmState.full))
      (fun other => decide ((after.nbr other).state = NsmState.full))
        (counted.nodup home member) inside
      fun other _ apart => by rw [state other apart]
    simp only [decide_eq_true_eq] at moved
    rw [fulls, fulls]
    by_cases was : (adj.nbr nbr).state = .full
    · rw [if_pos was] at change moved
      by_cases now : (after.nbr nbr).state = .full
      · rw [if_pos now] at change moved
        omega
      · rw [if_neg now] at change moved
        omega
    · rw [if_neg was] at change moved
      by_cases now : (after.nbr nbr).state = .full
      · rw [if_pos now] at change moved
        omega
      · rw [if_neg now] at change moved
        omega
  refine ⟨?_, oiflist ▸ counted.unique, oiflist ▸ counted.nodup, ?_, ?_⟩
  · intro other here found inside
    rw [oiflist] at here
    rw [oi found]
    exact counted.placed other here found inside
  · intro other here
    rw [oiflist] at here
    rw [fullNbrs, counted.fullNbrs other here]
    by_cases same : other = home
    · rw [same, if_pos rfl, at_home]
    · have apart : other.id ≠ home.id :=
        fun equal => same (inj_on_of_nodup_map counted.unique here member equal)
      rw [if_neg apart, elsewhere other here same, Int.add_zero]
  · intro area
    have within (other : OspfInterface) : other ∈ adj.areaOiflist area → other ∈ adj.oiflist :=
      mem_of_mem_filter
    have lists : after.areaOiflist area = adj.areaOiflist area := congrArg (filter _) oiflist
    rw [areaFullNbrs, counted.areaFullNbrs area, lists]
    by_cases here : area = home.area
    · have nodup : (adj.areaOiflist area).Nodup := (List.Nodup.of_map _ counted.unique).filter _
      have moved := @sum_change _ _ home (fun oi => (adj.fulls oi : Int))
        (fun oi => (after.fulls oi : Int)) nodup
        (mem_filter.mpr ⟨member, decide_eq_true here.symm⟩)
        fun other listed apart => by rw [elsewhere other (within other listed) apart]
      rw [if_pos here]
      omega
    · have same : (adj.areaOiflist area).map (fun oi => (after.fulls oi : Int)) =
          (adj.areaOiflist area).map fun oi => (adj.fulls oi : Int) := by
        refine map_congr_left fun other listed => ?_
        have apart : other ≠ home :=
          fun equal => here ((of_decide_eq_true (mem_filter.mp listed).2).symm.trans (equal ▸ rfl))
        rw [elsewhere other (within other listed) apart]
      rw [if_neg here, same, Int.add_zero]

theorem Counted.relist {change : OspfInterface → OspfInterface}
    (oiflist : after.oiflist = adj.oiflist.map change) (id : ∀ oi, (change oi).id = oi.id)
    (area : ∀ oi, (change oi).area = oi.area)
    (placed : ∀ oi ∈ adj.oiflist, ∀ nbr ∈ (change oi).nbrs, (after.nbr nbr).oi = oi.id)
    (nodup : ∀ oi ∈ adj.oiflist, (change oi).nbrs.Nodup)
    (fulls : ∀ oi ∈ adj.oiflist, after.fulls (change oi) = adj.fulls oi)
    (fullNbrs : ∀ id, (after.oi id).fullNbrs = (adj.oi id).fullNbrs)
    (areaFullNbrs : after.areaFullNbrs = adj.areaFullNbrs) :
    after.Counted := by
  have each {property : OspfInterface → Prop} (all : ∀ oi ∈ adj.oiflist, property (change oi)) :
      ∀ oi ∈ after.oiflist, property oi := by
    rw [oiflist]
    exact forall_mem_map.mpr all
  refine ⟨each fun oi member nbr inside => ?_, ?_, each nodup, each fun oi member => ?_,
    fun at_area => ?_⟩
  · rw [id oi]
    exact placed oi member nbr inside
  · have ids : OspfInterface.id ∘ change = OspfInterface.id := funext id
    rw [oiflist, List.map_map, ids]
    exact counted.unique
  · rw [id oi, fulls oi member, fullNbrs]
    exact counted.fullNbrs oi member
  · have lists : after.areaOiflist at_area = (adj.areaOiflist at_area).map change := by
      rw [areaOiflist, oiflist, List.filter_map]
      refine congrArg (map change) (filter_congr fun oi _ => ?_)
      rw [Function.comp_apply, area oi]
    rw [lists, List.map_map, areaFullNbrs, counted.areaFullNbrs at_area]
    refine congrArg sum (map_congr_left fun oi member => ?_)
    rw [Function.comp_apply, fulls oi (mem_of_mem_filter member)]

end
end Adjacencies
end Zebra.Ospfd
