import Zebra.Ospfd.NsmSteady

namespace Zebra.Ospfd
open Base Function List NsmState Adjacencies NsmFunc Bool NsmEvent Option Store NbrAction Ospf

/-- What a neighbour is created with by `ospf_nbr_new`. -/
def ospfNbrNew (oi : OiId) (routerId address : InAddr) : OspfNeighbor where
  oi := oi
  routerId := routerId
  address := address
  state := .down

/-- What happens to the neighbours. A Hello is what it sets and its events, one step each; so is
the election of an interface. -/
inductive NsmOp where
  | event (nbr : NbrId) (event : NsmEvent)
  | dbDesc (nbr : NbrId) (dd : DbDesc)
  | lsReq (nbr : NbrId) (keys : List (Option LsaKey))
  | hello (nbr : NbrId) (options : Octet) (dRouter bdRouter : InAddr)
  | elect (oi : OiId) (dr bdr : InAddr)
  | nbrNew (oi : OiId) (nbr : NbrId) (routerId address : InAddr)
  | router (op : OspfOp)

def NsmFunc.deletes : NsmFunc → Bool
  | .killNbr | .inactivityTimer | .llDown => true
  | _ => false

/-- Whether an action clears the lists and leaves the neighbour. -/
def NsmFunc.resets : NsmFunc → Bool
  | .start | .badLsReq | .seqNumberMismatch | .onewayReceived => true
  | _ => false

/-- Not a neighbour's state given from outside. -/
def OspfOp.setsState : OspfOp → Bool
  | .nbrState _ _ => true
  | _ => false

namespace Adjacencies
section
variable (adj : Adjacencies)

def present (nbr : NbrId) : Bool :=
  adj.oiflist.any fun oi => nbr ∈ oi.nbrs

def hello (nbr : NbrId) (options : Octet) (dRouter bdRouter : InAddr) : Adjacencies :=
  { adj.modifyDd nbr fun dd => { dd with options := options } with
    nbr := Function.update adj.nbr nbr { adj.nbr nbr with
      dRouter := dRouter, bdRouter := bdRouter } }

def elect (oi : OiId) (dr bdr : InAddr) : Adjacencies :=
  { adj with oi := Function.update adj.oi oi { adj.oi oi with dr := dr, bdr := bdr } }

/-- The three lists of a neighbour that is new. -/
def initLists (store : Store) (nbr : NbrId) : Store :=
  ((store.setLsdb (.dbSum nbr) {}).setLsdb (.lsRxmt nbr) {}).setLsdb (.lsReq nbr) {}

/-- A neighbour in the table of an interface, which is in the order of the addresses. -/
def insertNbr (nbr : NbrId) (address : InAddr) (nbrs : List NbrId) : List NbrId :=
  let before := fun other => decide ((adj.nbr other).address.toNat < address.toNat)
  nbrs.takeWhile before ++ nbr :: nbrs.dropWhile before

def enterNbr (nbr : NbrId) (oi : OiId) (address : InAddr) (found : OspfInterface) : OspfInterface :=
  if found.id = oi then { found with nbrs := adj.insertNbr nbr address found.nbrs } else found

def nbrNew (oi : OiId) (nbr : NbrId) (routerId address : InAddr) : Adjacencies :=
  { adj with
    toStore := initLists adj.toStore nbr
    nbr := Function.update adj.nbr nbr (ospfNbrNew oi routerId address)
    dd := Function.update adj.dd nbr {}
    oiflist := adj.oiflist.map (adj.enterNbr nbr oi address) }

/-- Only a neighbour that is there gets events and packets, only a new one is created, and the
router is given instances it has. -/
def nsmStep : NsmOp → Adjacencies
  | .event nbr event => if adj.present nbr then adj.execute nbr event else adj
  | .dbDesc nbr dd => if adj.present nbr then adj.ospfDbDesc nbr dd else adj
  | .lsReq nbr keys => if adj.present nbr then adj.ospfLsReq nbr keys else adj
  | .hello nbr options dRouter bdRouter => if adj.present nbr then
    adj.hello nbr options dRouter bdRouter else adj
  | .elect oi dr bdr => adj.elect oi dr bdr
  | .nbrNew oi nbr routerId address => if adj.present nbr then adj
    else adj.nbrNew oi nbr routerId address
  | .router op =>
    if op.setsState = false ∧ ∀ id ∈ op.names, id < adj.fresh then adj.onOspf (·.step op) else adj

/-- The neighbour is to leave Exchange or a higher state with its lists as they are. -/
def strands (nbr : NbrId) (event : NsmEvent) : Bool :=
  NsmState.exchange.rank ≤ (adj.nbr nbr).state.rank &&
    (event = .noEvent || event = .adjOk && !adj.adjacent nbr)

/-- No interface goes down under a neighbour, and none is left in Exchange or above by an
AdjOK? that ends the adjacency before its lists ran empty. From Full the change of state clears
the retransmissions. -/
def Admits : NsmOp → Prop
  | .event nbr event =>
    (event = .llDown → (adj.nbr nbr).state = .dependUpon) ∧
    (adj.strands nbr event → adj.isEmpty (.dbSum nbr) ∧ adj.isEmpty (.lsReq nbr) ∧
      ((adj.nbr nbr).state = .full ∨ adj.isEmpty (.lsRxmt nbr)))
  | _ => True

end

instance (adj : Adjacencies) : (op : NsmOp) → Decidable (adj.Admits op)
  | .event nbr event =>
    inferInstanceAs (Decidable ((event = .llDown → _ = _) ∧ (adj.strands nbr event → _)))
  | .dbDesc _ _ | .lsReq _ _ | .hello _ _ _ _ | .elect _ _ _ | .nbrNew _ _ _ _ | .router _ =>
    .isTrue trivial

variable {adj acted after : Adjacencies} {nbr : NbrId} {state : NsmState}

/-! A change of state -/

/-- One neighbour changed its state, and no list grew. -/
structure Shifted (nbr : NbrId) (state : NsmState) (before after : Adjacencies) : Prop where
  kept : before.Kept → after.Kept
  counted : before.present nbr → before.Counted → after.Counted
  oiflist : after.oiflist = before.oiflist
  here : (after.nbr nbr).state = state
  others : ∀ other, other ≠ nbr → (after.nbr other).state = (before.nbr other).state
  lists : ∀ db owner, db.nbr = some owner → before.Bare db → after.Bare db

theorem Shifted.steady (shifted : Shifted nbr state adj acted)
    (steady : Steady (fun _ => False) acted after) :
    Shifted nbr state adj after where
  kept := fun kept => steady.grows.kept (shifted.kept kept)
  counted := fun here counted => (shifted.counted here counted).steady steady
  oiflist := steady.grows.oiflist.trans shifted.oiflist
  here := (steady.grows.state nbr).trans shifted.here
  others := fun other apart => (steady.grows.state other).trans (shifted.others other apart)
  lists := fun db owner listed bare => (shifted.lists db owner listed bare).steady listed steady

theorem nbr_setState (adj : Adjacencies) (nbr : NbrId) (state : NsmState) :
    ((adj.setState nbr state).nbr nbr).state = state ∧
    (∀ other, other ≠ nbr → ((adj.setState nbr state).nbr other).state = (adj.nbr other).state) ∧
    ∀ other, ((adj.setState nbr state).nbr other).oi = (adj.nbr other).oi := by
  have own : (adj.setState nbr state).nbr nbr = { adj.nbr nbr with state := state } :=
    update_self ..
  have rest (other : NbrId) (apart : other ≠ nbr) :
      (adj.setState nbr state).nbr other = adj.nbr other :=
    update_of_ne apart ..
  refine ⟨by rw [own], fun other apart => by rw [rest other apart], fun other => ?_⟩
  by_cases same : other = nbr
  · rw [same, own]
  · rw [rest other same]

theorem exists_home (here : adj.present nbr) : ∃ home ∈ adj.oiflist, nbr ∈ home.nbrs := by
  obtain ⟨home, member, inside⟩ := any_eq_true.mp here
  exact ⟨home, member, of_decide_eq_true inside⟩

section
variable (adj : Adjacencies) (nbr : NbrId) (state : NsmState)

theorem interfaceOf_setState : (adj.setState nbr state).interfaceOf nbr = adj.interfaceOf nbr := by
  have same := (nbr_setState adj nbr state).2.2 nbr
  rw [interfaceOf, oiOf, same]
  rfl

theorem shifted_setState (same : (adj.nbr nbr).state = .full ↔ state = .full)
    : Shifted nbr state adj (adj.setState nbr state) := by
  obtain ⟨own, rest, oi⟩ := nbr_setState adj nbr state
  refine ⟨fun kept => ⟨kept.filed, kept.totalled, kept.maxageLsa, kept.lsaActions⟩,
    fun here counted => ?_, rfl, own, rest,
    fun _ _ _ bare => bare⟩
  obtain ⟨home, member, inside⟩ := exists_home here
  refine @Counted.recount adj _ counted home member nbr inside 0 rfl oi rest (fun id => ?_)
    (fun area => ?_) ?_
  · rw [ite_self, add_zero]
    rfl
  · rw [ite_self, add_zero]
    rfl
  · rw [own, add_zero]
    exact if_congr same.symm rfl rfl

theorem shifted_countFull {amount}
    (change : (if state = .full then 1 else 0 : Int) =
      (if (adj.nbr nbr).state = .full then 1 else 0) + amount) :
    Shifted nbr state adj ((adj.setState nbr state).countFull nbr amount) := by
  obtain ⟨own, rest, oi⟩ := nbr_setState adj nbr state
  refine ⟨fun kept => ⟨kept.filed, kept.totalled, kept.maxageLsa, kept.lsaActions⟩,
    fun here counted => ?_, rfl, own, rest,
    fun _ _ _ bare => bare⟩
  obtain ⟨home, member, inside⟩ := exists_home here
  have found := (interfaceOf_setState adj nbr state).trans (counted.interfaceOf member inside)
  refine @Counted.recount adj _ counted home member nbr inside amount rfl oi rest (fun id => ?_)
    (fun area => ?_) ?_
  · rw [countFull, found]
    by_cases same : id = home.id
    · rw [same, if_pos rfl]
      change (update adj.oi home.id _ home.id).fullNbrs = _
      rw [update_self]
      rfl
    · rw [if_neg same, add_zero]
      exact congrArg OiState.fullNbrs (update_of_ne same ..)
  · rw [countFull, found]
    by_cases same : area = home.area
    · rw [same, if_pos rfl]
      exact update_self ..
    · rw [if_neg same, add_zero]
      exact update_of_ne same ..
  · rw [show (((adj.setState nbr state).countFull nbr amount).nbr nbr).state = state from own]
    exact change

theorem shifted_changeFull :
    Shifted nbr state adj ((adj.setState nbr state).changeFull nbr (adj.nbr nbr).state state) := by
  rw [changeFull]
  split
  · rename_i becomes
    refine shifted_countFull adj nbr state ?_
    rw [if_pos becomes.2, if_neg becomes.1, zero_add]
  · rename_i stays
    split
    · rename_i leaves
      refine (shifted_countFull adj nbr state ?_).steady (steady_clearLsRxmt _ nbr)
      rw [if_neg leaves.2, if_pos leaves.1]
      rfl
    · rename_i keeps
      refine shifted_setState adj nbr state ⟨fun was => ?_, fun now => ?_⟩
      · by_contra other
        exact keeps ⟨was, other⟩
      · by_contra other
        exact stays ⟨other, now⟩

theorem shifted_changeState : Shifted nbr state adj (adj.nsmChangeState nbr state) := by
  have changed := shifted_changeFull adj nbr state
  rw [nsmChangeState]
  split
  · exact changed.steady (steady_startExchange _ nbr)
  · exact changed

end

theorem bare_changeState (kept : adj.Kept) (was : (adj.nbr nbr).state = .full)
    (leaves : state ≠ .full) :
    (adj.nsmChangeState nbr state).Bare (.lsRxmt nbr) := by
  have cleared :
      ((adj.setState nbr state).changeFull nbr (adj.nbr nbr).state state).Bare (.lsRxmt nbr) := by
    rw [changeFull, if_neg fun becomes => leaves becomes.2, if_pos ⟨was, leaves⟩]
    exact bare_clearLsRxmt ((⟨kept.filed, kept.totalled, kept.maxageLsa, kept.lsaActions⟩ :
      ((adj.setState nbr state).countFull nbr (-1)).Kept)) nbr
  rw [nsmChangeState]
  split
  · exact cleared.steady rfl (steady_startExchange _ nbr)
  · exact cleared

/-! The invariant -/

/-- Below Exchange the lists of a neighbour are empty, and the full ones are counted. -/
structure Orderly (adj : Adjacencies) : Prop where
  kept : adj.Kept
  idle : ∀ nbr, (adj.nbr nbr).state.rank < NsmState.exchange.rank → adj.Idle nbr
  counted : adj.Counted

variable {may : NbrId → Prop} {func : NsmFunc}

theorem Orderly.steady (orderly : adj.Orderly) (steady : Steady may adj after)
    (opens : ∀ nbr, may nbr → exchange.rank ≤ (adj.nbr nbr).state.rank) : after.Orderly := by
  refine ⟨steady.grows.kept orderly.kept, fun nbr low => ?_, orderly.counted.steady steady⟩
  rw [steady.grows.state nbr] at low
  exact (orderly.idle nbr low).steady
    (fun listed => absurd (opens nbr listed) (Nat.not_le_of_lt low)) steady

theorem Orderly.quiet (orderly : adj.Orderly) (steady : Steady (fun _ => False) adj after) :
    after.Orderly :=
  orderly.steady steady fun _ => False.elim

/-- The lists are empty, or will be after the change of state. -/
structure Cleared (adj : Adjacencies) (nbr : NbrId) : Prop where
  dbSum : adj.Bare (.dbSum nbr)
  lsReq : adj.Bare (.lsReq nbr)
  lsRxmt : (adj.nbr nbr).state = .full ∨ adj.Bare (.lsRxmt nbr)

theorem Idle.cleared (idle : adj.Idle nbr) : adj.Cleared nbr :=
  ⟨idle _ rfl, idle _ rfl, .inr (idle _ rfl)⟩

theorem Orderly.follow (orderly : adj.Orderly) (here : adj.present nbr)
    (steady : Steady (· = nbr) adj acted)
    (clear : state.rank < exchange.rank → acted.Cleared nbr) :
    (acted.follow nbr state).1.Orderly := by
  have kept := steady.grows.kept orderly.kept
  have counted := orderly.counted.steady steady
  have apart (other : NbrId) (different : other ≠ nbr)
      (low : (acted.nbr other).state.rank < exchange.rank) : acted.Idle other :=
    (orderly.idle other (steady.grows.state other ▸ low)).steady different steady
  rw [Adjacencies.follow]
  split
  · have shifted := shifted_changeState acted nbr state
    have here' : acted.present nbr := by rw [present, steady.grows.oiflist]; exact here
    refine ⟨shifted.kept kept, fun other low => ?_, shifted.counted here' counted⟩
    by_cases same : other = nbr
    · subst same
      rw [shifted.here] at low
      have cleared := clear low
      refine idle_of_bare (shifted.lists _ other rfl cleared.dbSum)
        (shifted.lists _ other rfl cleared.lsReq) ?_
      rcases cleared.lsRxmt with was | bare
      · refine bare_changeState kept was fun full => ?_
        rw [full] at low
        exact nomatch low
      · exact shifted.lists _ other rfl bare
    · rw [shifted.others other same] at low
      exact fun db listed => shifted.lists db other listed (apart other same low db listed)
  · rename_i stays
    refine ⟨kept, fun other low => ?_, counted⟩
    by_cases same : other = nbr
    · subst same
      have now : state = (acted.nbr other).state := not_not.mp stays
      have cleared := clear (now ▸ low)
      refine idle_of_bare cleared.dbSum cleared.lsReq (cleared.lsRxmt.resolve_left fun full => ?_)
      rw [full] at low
      exact nomatch low
    · exact apart other same low

/-! Events -/

theorem steady_act (kept : adj.Kept) (nbr : NbrId) (stays : func.deletes = false) :
    Steady (· = nbr) adj (adj.act nbr func).1 := by
  cases func with
  | ignore => exact .refl
  | helloReceived => exact .refl
  | twowayReceived => exact .refl
  | exchangeDone => exact .refl
  | adjOk => exact .refl
  | start => exact steady_reset adj nbr
  | badLsReq => exact steady_reset adj nbr
  | seqNumberMismatch => exact steady_reset adj nbr
  | onewayReceived => exact steady_reset adj nbr
  | negotiationDone => exact steady_negotiationDone kept rfl
  | killNbr => cases stays
  | inactivityTimer => cases stays
  | llDown => cases stays

theorem idle_act (kept : adj.Kept) (nbr : NbrId) (resets : func.resets) :
    (adj.act nbr func).1.Idle nbr := by
  cases func <;> first | exact absurd resets (by decide) | exact idle_reset kept nbr

section
variable (adj : Adjacencies) (nbr : NbrId)

theorem act_of_neither (stays : func.deletes = false) (keeps : func.resets = false)
    (other : func ≠ .negotiationDone) : (adj.act nbr func).1 = adj := by
  cases func <;> first
    | exact absurd stays (by decide)
    | exact absurd keeps (by decide)
    | exact absurd rfl other
    | rfl

theorem nsm_falls {event} (high : exchange.rank ≤ state.rank) :
    (nsm state event).2.rank < exchange.rank → event = .noEvent ∨ (nsm state event).1.resets ∨
      (nsm state event).1.deletes ∨ (nsm state event).1 = .exchangeDone ∨
      (nsm state event).1 = .adjOk := by
  fun_cases nsm state event <;> intro falls <;>
    first
    | exact absurd high (by decide)
    | exact absurd falls (Nat.not_lt_of_le high)
    | exact absurd falls (by decide)
    | simp [resets, deletes]

theorem nsm_negotiationDone {event} :
    (nsm state event).1 = .negotiationDone → state = .exStart ∧
    (nsm state event).2 = .exchange := by
  fun_cases nsm state event <;> first | exact fun _ => ⟨rfl, rfl⟩ | exact noConfusion

theorem nsm_twowayReceived {event} : (nsm state event).1 = .twowayReceived → state = .init := by
  fun_cases nsm state event <;> first | exact fun _ => rfl | exact noConfusion

theorem nsm_adjOk {event} : (nsm state event).1 = .adjOk → event = .adjOk := by
  fun_cases nsm state event <;> first | exact fun _ => rfl | exact noConfusion

theorem nsm_deletes {event} : (nsm state event).1.deletes →
    state ≠ .dependUpon ∧ (event = .killNbr ∨ event = .inactivityTimer ∨ event = .llDown) := by
  fun_cases nsm state event <;> intro deletes <;>
    first | exact ⟨by assumption, by decide⟩ | cases deletes

theorem nsm_kept {event} (kills : event = .killNbr ∨ event = .inactivityTimer) :
    (nsm state event).1.deletes = false → (nsm state event).1 = .ignore := by
  fun_cases nsm state event <;> first
    | exact fun _ => rfl
    | exact Bool.noConfusion
    | exact nomatch kills

theorem asked_adjOk (adjacent : adj.adjacent nbr) :
    exchange.rank ≤ (adj.nbr nbr).state.rank → adj.nsmAdjOk nbr = (adj.nbr nbr).state := by
  intro high
  rw [nsmAdjOk, if_neg, if_neg]
  · rintro ⟨-, other⟩
    rw [adjacent] at other
    cases other
  · rintro ⟨low, -⟩
    rw [low] at high
    exact nomatch high

theorem exchange_le_exchangeDone : exchange.rank ≤ (adj.nsmExchangeDone nbr).rank := by
  rw [nsmExchangeDone]
  split <;> decide

end

theorem nextState_of_high {event asked} (high : exchange.rank ≤ asked.rank) :
    adj.nextState nbr event asked = asked := by
  refine if_neg fun missing => ?_
  rw [missing] at high
  exact nomatch high

theorem strands_of_low {event} (stays : (nsm (adj.nbr nbr).state event).1.deletes = false)
    (keeps : (nsm (adj.nbr nbr).state event).1.resets = false)
    (high : exchange.rank ≤ (adj.nbr nbr).state.rank)
    (low : (adj.nextState nbr event (adj.act nbr (nsm (adj.nbr nbr).state event).1).2.1).rank <
      exchange.rank) :
    adj.strands nbr event := by
  have falls (asked : (adj.act nbr (nsm (adj.nbr nbr).state event).1).2.1 = .dependUpon)
      (exchangeDone : (nsm (adj.nbr nbr).state event).1 ≠ .exchangeDone)
        (adjOk : (nsm (adj.nbr nbr).state event).1 ≠ .adjOk) :
      adj.strands nbr event := by
    rw [asked] at low
    obtain silent | resets | deletes | other | other := nsm_falls high low
    · rw [strands, decide_eq_true high, silent]
      rfl
    · cases keeps.symm.trans resets
    · cases stays.symm.trans deletes
    · exact absurd other exchangeDone
    · exact absurd other adjOk
  cases func : (nsm (adj.nbr nbr).state event).1 with
  | twowayReceived =>
    rw [nsm_twowayReceived func] at high
    exact nomatch high
  | exchangeDone =>
    have done : exchange.rank ≤ (adj.act nbr .exchangeDone).2.1.rank :=
      exchange_le_exchangeDone adj nbr
    rw [func, nextState_of_high done] at low
    exact absurd low (Nat.not_lt_of_le done)
  | adjOk =>
    have other : adj.adjacent nbr = false := by
      by_contra adjacent
      have asked : (adj.act nbr .adjOk).2.1 = (adj.nbr nbr).state :=
        asked_adjOk adj nbr (eq_true_of_not_eq_false adjacent) high
      rw [func, asked, nextState_of_high high] at low
      exact absurd low (Nat.not_lt_of_le high)
    rw [strands, decide_eq_true high, nsm_adjOk func, other]
    rfl
  | _ =>
    exact falls (by rw [func]; rfl) (by rw [func]; exact noConfusion)
      (by rw [func]; exact noConfusion)

/-- Whoever an event takes below Exchange has its lists cleared. -/
theorem Orderly.clears (orderly : adj.Orderly) {event} (admits : adj.Admits (.event nbr event))
    (stays : (nsm (adj.nbr nbr).state event).1.deletes = false)
    (low : ((adj.act nbr (nsm (adj.nbr nbr).state event).1).1.nextState nbr event
      (adj.act nbr (nsm (adj.nbr nbr).state event).1).2.1).rank < exchange.rank) :
    (adj.act nbr (nsm (adj.nbr nbr).state event).1).1.Cleared nbr := by
  have same := (steady_act orderly.kept nbr stays).grows.state nbr
  by_cases resets : (nsm (adj.nbr nbr).state event).1.resets
  · exact (idle_act orderly.kept nbr resets).cleared
  have negotiated : (nsm (adj.nbr nbr).state event).1 ≠ .negotiationDone := by
    intro func
    rw [nextState, same, (nsm_negotiationDone func).2, func] at low
    exact absurd low (lt_irrefl _)
  have unchanged := act_of_neither adj nbr stays (eq_false_iff.mpr resets) negotiated
  rw [unchanged] at low ⊢
  by_cases high : exchange.rank ≤ (adj.nbr nbr).state.rank
  · have stranded := strands_of_low stays (eq_false_iff.mpr resets) high low
    obtain ⟨dbSum, lsReq, lsRxmt⟩ := admits.2 stranded
    exact ⟨bare_of_isEmpty orderly.kept dbSum, bare_of_isEmpty orderly.kept lsReq,
      lsRxmt.imp_right (bare_of_isEmpty orderly.kept)⟩
  · exact (orderly.idle nbr (Nat.lt_of_not_le high)).cleared

/-! Deletion -/

theorem Counted.leave (counted : adj.Counted) (partly : (adj.nbr nbr).state ≠ .full) (id : OiId)
    (oiflist : after.oiflist = adj.oiflist.map fun oi => if oi.id = id then { oi with
      nbrs := oi.nbrs.erase nbr } else oi)
    (nbrs : after.nbr = adj.nbr) (oi : after.oi = adj.oi)
    (areas : after.areaFullNbrs = adj.areaFullNbrs) : after.Counted := by
  refine counted.relist oiflist (fun found => ?_) (fun found => ?_)
    (fun found member other inside => ?_)
    (fun found member => ?_) (fun found member => ?_) (fun _ => by rw [oi]) areas
  · split <;> rfl
  · split <;> rfl
  · rw [nbrs]
    refine counted.placed found member other ?_
    split at inside
    · exact mem_of_mem_erase inside
    · exact inside
  · split
    · exact (counted.nodup found member).erase nbr
    · exact counted.nodup found member
  · have same (interface : OspfInterface) : after.fulls interface = adj.fulls interface :=
      fulls_congr fun other _ => by rw [nbrs]
    rw [same]
    split
    · exact @countP_erase_of_neg _ _ (fun other => decide ((adj.nbr other).state = .full)) nbr
        (decide_eq_false partly) found.nbrs
    · rfl

theorem Orderly.delete (orderly : adj.Orderly) (partly : (adj.nbr nbr).state ≠ .full) :
    (adj.ospfNbrDelete nbr).Orderly := by
  have freed := orderly.quiet (steady_reset adj nbr)
  have same := (steady_reset adj nbr : Steady (fun _ => False) adj _).grows
  have partly' : ((adj.nsmResetNbr nbr).nbr nbr).state ≠ .full := by
    rw [same.state nbr]
    exact partly
  refine ⟨⟨freed.kept.filed, freed.kept.totalled, freed.kept.maxageLsa, freed.kept.lsaActions⟩,
    freed.idle, ?_⟩
  refine freed.counted.leave partly' (adj.nbr nbr).oi ?_ rfl rfl rfl
  rw [same.oiflist]
  rfl

theorem Orderly.kill (orderly : adj.Orderly) (here : adj.present nbr) :
    (adj.nsmKillNbr nbr).Orderly := by
  have shifted := shifted_changeState adj nbr .down
  have kept := shifted.kept orderly.kept
  have down : (((adj.nsmChangeState nbr .down).nsmResetNbr nbr).nbr nbr).state = .down :=
    ((steady_reset (adj.nsmChangeState nbr .down) nbr : Steady (fun _ => False) _ _).grows.state
      nbr).trans shifted.here
  have reset : ((adj.nsmChangeState nbr .down).nsmResetNbr nbr).Orderly := by
    have steady : Steady (fun _ => False) (adj.nsmChangeState nbr .down) _ := steady_reset _ nbr
    refine ⟨steady.grows.kept kept, fun other low => ?_,
      (shifted.counted here orderly.counted).steady steady⟩
    by_cases same : other = nbr
    · rw [same]
      exact idle_reset kept nbr
    · rw [steady.grows.state other, shifted.others other same] at low
      exact Idle.steady (fun db listed =>
        shifted.lists db other listed (orderly.idle other low db listed)) id steady
  exact reset.delete (by rw [down]; exact noConfusion)

theorem act_deletes (adj : Adjacencies) (nbr : NbrId) (deletes : func.deletes) :
    (adj.act nbr func).1 = adj.nsmKillNbr nbr ∧
    (adj.act nbr func).2.2 = [.changeState .down, .delete] := by
  cases func <;> first | exact absurd deletes (by decide) | exact ⟨rfl, rfl⟩

theorem Admits.returns {event} (admits : adj.Admits (.event nbr event))
    (deletes : (nsm (adj.nbr nbr).state event).1.deletes) :
    event = .killNbr ∨ event = .inactivityTimer := by
  obtain ⟨known, kill | inactivity | llDown⟩ := nsm_deletes deletes
  · exact .inl kill
  · exact .inr inactivity
  · exact absurd (admits.1 llDown) known

theorem Orderly.event (orderly : adj.Orderly) (here : adj.present nbr) {event}
    (admits : adj.Admits (.event nbr event)) : (adj.execute nbr event).Orderly := by
  rw [execute, ospfNsmEvent]
  cases deletes : (nsm (adj.nbr nbr).state event).1.deletes with
  | true =>
    rw [if_pos (Admits.returns admits deletes), (act_deletes adj nbr deletes).1]
    exact orderly.kill here
  | false =>
    have steady := steady_act orderly.kept nbr deletes
    split
    · rename_i kills
      rw [nsm_kept kills deletes]
      exact orderly
    · exact orderly.follow here steady (orderly.clears admits deletes)

/-! Packets and flooding -/

theorem present_congr (same : after.oiflist = adj.oiflist) (here : adj.present nbr) :
    after.present nbr := by
  rw [present, same]
  exact here

theorem steady_negotiate {dd} (agreed : adj.negotiate nbr dd = some after) :
    Steady may adj after := by
  rw [negotiate] at agreed
  split at agreed
  · split at agreed
    · exact some.inj agreed ▸ (steady_setSeqnum adj nbr _).trans (steady_dropFlags _ nbr _)
    · cases agreed
  · split at agreed
    · exact some.inj agreed ▸ steady_dropFlags adj nbr _
    · cases agreed

theorem steady_loading (adj : Adjacencies) (nbr : NbrId) (dd : DbDesc) :
    Steady may adj (adj.dbDescLoading nbr dd) := by
  rw [dbDescLoading]
  split
  · exact .refl
  · split
    · exact steady_dbDescResend adj nbr
    · exact steady_schedule ..

theorem steady_sendBatch (adj : Adjacencies) (nbr : NbrId) (batch : List LsaId) :
    Steady may adj (adj.sendBatch nbr batch) :=
  steady_foldl (fun adj id => steady_onOspf adj (grows_send adj.toOspf _ id)) adj batch

theorem steady_answerRequests (adj : Adjacencies) (nbr : NbrId) (length : Nat) (batch : List LsaId)
    (keys : List (Option LsaKey)) : Steady may adj (adj.answerRequests nbr length batch keys) := by
  induction keys generalizing adj length batch with
  | nil => exact steady_sendBatch adj nbr batch
  | cons key rest ih =>
    rw [answerRequests]
    split
    · exact steady_schedule ..
    · dsimp only
      split
      · exact (steady_sendBatch adj nbr batch).trans (ih ..)
      · exact ih ..

section
variable (orderly : adj.Orderly)
include orderly

theorem state_execute {event} (stays : (nsm (adj.nbr nbr).state event).1.deletes = false)
    (other : event ≠ .killNbr ∧ event ≠ .inactivityTimer) :
    ((adj.execute nbr event).nbr nbr).state =
      (adj.act nbr (nsm (adj.nbr nbr).state event).1).1.nextState nbr event
      (adj.act nbr (nsm (adj.nbr nbr).state event).1).2.1 ∧
      (adj.execute nbr event).oiflist = adj.oiflist := by
  have steady := steady_act orderly.kept nbr stays
  rw [execute, ospfNsmEvent, if_neg fun kills => kills.elim other.1 other.2]
  rw [follow]
  split
  · have shifted := shifted_changeState (adj.act nbr (nsm (adj.nbr nbr).state event).1).1 nbr
    exact ⟨(shifted _).here, (shifted _).oiflist.trans steady.grows.oiflist⟩
  · rename_i same
    exact ⟨(not_not.mp same).symm, steady.grows.oiflist⟩

theorem state_negotiationDone (state : (adj.nbr nbr).state = .exStart) :
    ((adj.execute nbr .negotiationDone).nbr nbr).state = .exchange ∧
    (adj.execute nbr .negotiationDone).oiflist = adj.oiflist := by
  have stays : (nsm (adj.nbr nbr).state .negotiationDone).1.deletes = false := by
    rw [state]
    rfl
  have same := (steady_act orderly.kept nbr stays).grows.state nbr
  obtain ⟨moved, oiflist⟩ := state_execute orderly stays ⟨noConfusion, noConfusion⟩
  refine ⟨moved.trans ?_, oiflist⟩
  rw [nextState, same, state]
  rfl

theorem Orderly.exStart (here : adj.present nbr) (state : (adj.nbr nbr).state = .exStart)
    (dd : DbDesc) :
    (adj.dbDescExStart nbr dd).Orderly := by
  rw [dbDescExStart]
  split
  · exact orderly
  · rename_i agreed negotiated
    have steady : Steady (fun _ => False) adj (agreed.saveOptions nbr dd) :=
      (steady_negotiate negotiated).trans (steady_modifyDd ..)
    have ready := orderly.quiet steady
    have here' := present_congr steady.grows.oiflist here
    have state' := (steady.grows.state nbr).trans state
    have quiet : (agreed.saveOptions nbr dd).strands nbr .negotiationDone = false := by
      rw [strands, state']
      rfl
    have done := ready.event here'
      ⟨NsmEvent.noConfusion, fun strands => absurd (quiet.symm.trans strands) nofun⟩
    refine done.steady (steady_dbDescProc (rfl : nbr = nbr) _ dd) ?_
    rintro other rfl
    rw [(state_negotiationDone ready state').1]

theorem Orderly.dbDesc (here : adj.present nbr) (dd : DbDesc) :
    (adj.ospfDbDesc nbr dd).Orderly := by
  rw [ospfDbDesc]
  split
  · exact orderly
  · split
    · rename_i state
      have stays : (nsm (adj.nbr nbr).state .twoWayReceived).1.deletes = false := by
        rw [state]
        rfl
      have quiet : adj.strands nbr .twoWayReceived = false := by
        rw [strands, state]
        rfl
      have done := orderly.event here
        ⟨NsmEvent.noConfusion, fun strands => absurd (quiet.symm.trans strands) nofun⟩
      have same := (state_execute orderly stays ⟨noConfusion, noConfusion⟩).2
      dsimp only
      split
      · rename_i started
        exact done.exStart (present_congr same here) started dd
      · exact done
    · rename_i state
      exact orderly.exStart here state dd
    · rename_i state
      rw [dbDescExchange]
      split
      · split
        · exact orderly
        · exact orderly.quiet (steady_dbDescResend adj nbr)
      · split
        · refine orderly.steady (steady_dbDescProc (rfl : nbr = nbr) adj dd) ?_
          rintro other rfl
          rw [state]
        · exact orderly.quiet (steady_schedule ..)
    · exact orderly.quiet (steady_loading adj nbr dd)
    · exact orderly.quiet (steady_loading adj nbr dd)
    · exact orderly

theorem Orderly.lsReq (nbr : NbrId) (keys : List (Option LsaKey)) :
    (adj.ospfLsReq nbr keys).Orderly := by
  rw [ospfLsReq]
  split
  · exact orderly
  · exact orderly.quiet (steady_answerRequests adj nbr 28 [] keys)

theorem Orderly.router {op} (own : op.setsState = false) (names : ∀ id ∈ op.names, id < adj.fresh) :
    (adj.onOspf (·.step op)).Orderly := by
  have grows := orderly.kept.grows_step
    (fun _ ready => ready : Opens (fun nbr => exchange.rank ≤ (adj.nbr nbr).state.rank)
    adj.toOspf) names (fun nbr state same => by rw [same] at own; cases own)
  exact orderly.steady (steady_onOspf adj grows) fun _ ready => ready

end

/-! What the interfaces bring -/

section
variable (adj : Adjacencies)

theorem steady_hello (nbr : NbrId) (options : Octet) (dRouter bdRouter : InAddr) :
    Steady may adj (adj.hello nbr options dRouter bdRouter) := by
  have same (other : NbrId) :
      ((adj.hello nbr options dRouter bdRouter).nbr other).state = (adj.nbr other).state ∧
      ((adj.hello nbr options dRouter bdRouter).nbr other).oi = (adj.nbr other).oi := by
    by_cases here : other = nbr
    · subst here
      have own : (adj.hello other options dRouter bdRouter).nbr other =
        { adj.nbr other with dRouter, bdRouter } := update_self ..
      rw [own]
      exact ⟨rfl, rfl⟩
    · have rest : (adj.hello nbr options dRouter bdRouter).nbr other = adj.nbr other :=
        update_of_ne here ..
      rw [rest]
      exact ⟨rfl, rfl⟩
  exact ⟨⟨le_rfl, fun other => (same other).1, fun other => (same other).2, rfl,
    fun _ _ _ _ _ missing => missing,
    fun kept => ⟨kept.filed, kept.totalled, kept.maxageLsa, kept.lsaActions⟩⟩, fun _ => rfl, rfl⟩

theorem steady_elect (oi : OiId) (dr bdr : InAddr) : Steady may adj (adj.elect oi dr bdr) := by
  refine ⟨.refl, fun id => ?_, rfl⟩
  by_cases same : id = oi
  · subst same
    have own : (adj.elect id dr bdr).oi id = { adj.oi id with dr, bdr } := update_self ..
    rw [own]
  · have rest : (adj.elect oi dr bdr).oi id = adj.oi id := update_of_ne same ..
    rw [rest]

theorem insertNbr_perm (nbr : NbrId) (address : InAddr) (nbrs : List NbrId) :
    (adj.insertNbr nbr address nbrs).Perm (nbr :: nbrs) := by
  have whole := @perm_middle _ nbr
    (nbrs.takeWhile fun other => decide ((adj.nbr other).address.toNat < address.toNat))
    (nbrs.dropWhile fun other => decide ((adj.nbr other).address.toNat < address.toNat))
  rw [takeWhile_append_dropWhile] at whole
  exact whole

theorem nbr_nbrNew (oi : OiId) (nbr : NbrId) (routerId address : InAddr) :
    (adj.nbrNew oi nbr routerId address).nbr nbr = ospfNbrNew oi routerId address ∧
    ∀ other, other ≠ nbr → (adj.nbrNew oi nbr routerId address).nbr other = adj.nbr other :=
  ⟨update_self .., fun _ apart => update_of_ne apart ..⟩

theorem log_act (nbr : NbrId) (stays : func.deletes = false) : (adj.act nbr func).2.2 = [] := by
  cases func <;> first | exact absurd stays (by decide) | rfl

theorem log_follow (nbr : NbrId) (state : NsmState) : delete ∉ (adj.follow nbr state).2 := by
  rw [follow]
  split
  · exact fun member => NbrAction.noConfusion (List.mem_singleton.mp member)
  · exact not_mem_nil

end

theorem lsdb_initLists (store : Store) (nbr : NbrId) (db : DbId) :
    (initLists store nbr).lsdb db = if db.nbr = some nbr then {} else store.lsdb db := by
  by_cases listed : db.nbr = some nbr
  · rw [if_pos listed, initLists]
    cases db with
    | as => cases listed
    | area area => cases listed
    | dbSum other =>
      rw [lsdb_setLsdb_ne _ _ DbId.noConfusion, lsdb_setLsdb_ne _ _ DbId.noConfusion,
        some.inj listed, lsdb_setLsdb]
    | lsReq other => rw [some.inj listed, lsdb_setLsdb]
    | lsRxmt other => rw [lsdb_setLsdb_ne _ _ DbId.noConfusion, some.inj listed, lsdb_setLsdb]
  · have apart (own : DbId) (mine : own.nbr = some nbr) : db ≠ own :=
      fun same => listed (same ▸ mine)
    rw [if_neg listed, initLists, lsdb_setLsdb_ne _ _ (apart _ rfl),
      lsdb_setLsdb_ne _ _ (apart _ rfl), lsdb_setLsdb_ne _ _ (apart _ rfl)]

theorem kept_nbrNew (kept : adj.Kept) (oi : OiId) (nbr : NbrId) (routerId address : InAddr) :
    (adj.nbrNew oi nbr routerId address).Kept := by
  have lists := lsdb_initLists adj.toStore nbr
  refine ⟨fun db key id found => ?_, fun db => ?_, kept.maxageLsa, kept.lsaActions⟩
  · have found' : ((initLists adj.toStore nbr).lsdb db).lookup key = some id := found
    rw [lists db] at found'
    split at found'
    · cases found'
    · exact kept.filed db key id found'
  · change ((initLists adj.toStore nbr).lsdb db).Totalled
    rw [lists db]
    split
    · rfl
    · exact kept.totalled db

theorem Counted.nbrNew (counted : adj.Counted) (new : adj.present nbr = false) (oi : OiId)
    (routerId address : InAddr) :
    (adj.nbrNew oi nbr routerId address).Counted := by
  obtain ⟨own, rest⟩ := nbr_nbrNew adj oi nbr routerId address
  have absent (home : OspfInterface) (member : home ∈ adj.oiflist) : nbr ∉ home.nbrs :=
      fun inside =>
    false_ne_true (new.symm.trans (any_eq_true.mpr ⟨home, member, decide_eq_true inside⟩))
  have others (home : OspfInterface) (member : home ∈ adj.oiflist) (other : NbrId)
      (inside : other ∈ home.nbrs) :
      (adj.nbrNew oi nbr routerId address).nbr other = adj.nbr other :=
    rest other fun same => absent home member (same ▸ inside)
  refine counted.relist rfl (fun home => ?_) (fun home => ?_) (fun home member other inside => ?_)
    (fun home member => ?_)
    (fun home member => ?_) (fun _ => rfl) rfl
  · rw [enterNbr]
    split <;> rfl
  · rw [enterNbr]
    split <;> rfl
  · rw [enterNbr] at inside
    split at inside
    · rename_i here
      rcases mem_cons.mp ((insertNbr_perm adj nbr address home.nbrs).mem_iff.mp inside) with
        same | before
      · rw [same, own]
        exact here.symm
      · rw [others home member other before]
        exact counted.placed home member other before
    · rw [others home member other inside]
      exact counted.placed home member other inside
  · rw [enterNbr]
    split
    · exact (insertNbr_perm adj nbr address home.nbrs).nodup_iff.mpr
        (nodup_cons.mpr ⟨absent home member, counted.nodup home member⟩)
    · exact counted.nodup home member
  · have same : (adj.nbrNew oi nbr routerId address).fulls home = adj.fulls home :=
      fulls_congr fun other inside => by rw [others home member other inside]
    rw [← same, enterNbr]
    split
    · rw [fulls, (insertNbr_perm adj nbr address home.nbrs).countP_eq, countP_cons_of_neg]
      · rfl
      · rw [own]
        rintro ⟨⟩
    · rfl

theorem Orderly.nbrNew (orderly : adj.Orderly) (new : adj.present nbr = false) (oi : OiId)
    (routerId address : InAddr) :
    (adj.nbrNew oi nbr routerId address).Orderly := by
  have lists := lsdb_initLists adj.toStore nbr
  refine ⟨kept_nbrNew orderly.kept oi nbr routerId address, fun other low db listed key => ?_,
    orderly.counted.nbrNew new oi routerId address⟩
  change ((initLists adj.toStore nbr).lsdb db).lookup key = none
  rw [lists db]
  split
  · rfl
  · rename_i apart
    rw [(nbr_nbrNew adj oi nbr routerId address).2 other fun same => apart (same ▸ listed)] at low
    exact orderly.idle other low db listed key

theorem Orderly.step (orderly : adj.Orderly) {op} (admits : adj.Admits op) :
    (adj.nsmStep op).Orderly := by
  cases op with
  | event nbr event =>
    rw [nsmStep]
    split
    · rename_i here
      exact orderly.event here admits
    · exact orderly
  | dbDesc nbr dd =>
    rw [nsmStep]
    split
    · rename_i here
      exact orderly.dbDesc here dd
    · exact orderly
  | lsReq nbr keys =>
    rw [nsmStep]
    split
    · exact orderly.lsReq nbr keys
    · exact orderly
  | hello nbr options dRouter bdRouter =>
    rw [nsmStep]
    split
    · exact orderly.quiet (steady_hello adj nbr options dRouter bdRouter)
    · exact orderly
  | elect oi dr bdr => exact orderly.quiet (steady_elect adj oi dr bdr)
  | nbrNew oi nbr routerId address =>
    rw [nsmStep]
    split
    · exact orderly
    · rename_i new
      exact orderly.nbrNew (eq_false_iff.mpr new) oi routerId address
  | router op =>
    rw [nsmStep]
    split
    · rename_i given
      exact orderly.router given.1 given.2
    · exact orderly

/-- A router that starts, with interfaces that have no neighbours yet. -/
structure Begun (adj : Adjacencies) : Prop where
  started : adj.Started
  unique : (adj.oiflist.map OspfInterface.id).Nodup
  alone : ∀ oi ∈ adj.oiflist, oi.nbrs = []
  fullNbrs : ∀ id, (adj.oi id).fullNbrs = 0
  areaFullNbrs : ∀ area, adj.areaFullNbrs area = 0

theorem Begun.fulls (begun : adj.Begun) {oi} (member : oi ∈ adj.oiflist) : adj.fulls oi = 0 := by
  rw [Adjacencies.fulls, begun.alone oi member]
  rfl

theorem Begun.orderly (begun : adj.Begun) : adj.Orderly where
  kept := begun.started.kept
  idle := fun _ _ db _ key => begun.started.lookup db key
  counted := {
    placed := fun oi member nbr inside => by
      rw [begun.alone oi member] at inside
      cases inside
    unique := begun.unique
    nodup := fun oi member => by
      rw [begun.alone oi member]
      exact nodup_nil
    fullNbrs := fun oi member => by
      rw [begun.fullNbrs, begun.fulls member]
      rfl
    areaFullNbrs := fun area => by
      have zero : (adj.areaOiflist area).map (fun oi => (adj.fulls oi : Int)) =
          (adj.areaOiflist area).map fun _ => 0 :=
        map_congr_left fun oi member => by rw [begun.fulls (mem_of_mem_filter member)]; rfl
      rw [begun.areaFullNbrs, zero, map_const', sum_replicate_int, Int.mul_zero] }

/-- Nothing is done to a neighbour after it was deleted. -/
def Ended (log : List NbrAction) : Prop :=
  ∀ front back, log = front ++ NbrAction.delete :: back → back = []

theorem ended_of_absent {log} (absent : delete ∉ log) : Ended log := by
  intro front back whole
  exact absurd (whole ▸ mem_append_right front mem_cons_self) absent

theorem ended_event {event} (admits : adj.Admits (.event nbr event)) :
    Ended (adj.ospfNsmEvent nbr event).2 := by
  rw [ospfNsmEvent]
  cases deletes : (nsm (adj.nbr nbr).state event).1.deletes with
  | true =>
    rw [if_pos (Admits.returns admits deletes), (act_deletes adj nbr deletes).2]
    intro front back whole
    match front, whole with
    | [], whole => cases whole
    | [_], whole => exact (cons.inj (cons.inj whole).2).2.symm
    | _ :: _ :: front, whole =>
      exact absurd (cons.inj (cons.inj whole).2).2.symm (append_ne_nil_of_right_ne_nil _ nofun)
  | false =>
    rw [log_act adj nbr deletes]
    split
    · exact ended_of_absent not_mem_nil
    · refine ended_of_absent fun member => ?_
      rcases mem_append.mp member with member | member
      · exact log_follow _ nbr _ member
      · exact NbrAction.noConfusion (List.mem_singleton.mp member)

end Adjacencies

/-- In every run with such steps: below Exchange the lists of a neighbour are empty, the full
neighbours of the interfaces and areas are counted, and the event that deletes a neighbour ends
there. -/
theorem nsm_runs_orderly {adj : Adjacencies} (begun : adj.Begun) {ops : List NsmOp}
    (run : Allowed nsmStep Admits adj ops) :
    (∀ nbr, ((ops.foldl nsmStep adj).nbr nbr).state.rank < exchange.rank →
      (ops.foldl nsmStep adj).Idle nbr) ∧
    (∀ oi ∈ (ops.foldl nsmStep adj).oiflist,
      ((ops.foldl nsmStep adj).oi oi.id).fullNbrs = (ops.foldl nsmStep adj).fulls oi) ∧
    (∀ area, (ops.foldl nsmStep adj).areaFullNbrs area =
      (((ops.foldl nsmStep adj).areaOiflist area).map fun oi =>
        ((ops.foldl nsmStep adj).fulls oi : Int)).sum) ∧
    ∀ nbr event, (ops.foldl nsmStep adj).Admits (.event nbr event) →
      Ended ((ops.foldl nsmStep adj).ospfNsmEvent nbr event).2 := by
  have orderly :=
    run.invariant (fun _ _ admits orderly => Orderly.step orderly admits) begun.orderly
  exact ⟨orderly.idle, orderly.counted.fullNbrs, orderly.counted.areaFullNbrs,
    fun _ _ admits => ended_event admits⟩

/-! AdjOK? ends an adjacency with a request still on the list. -/

def electedRouter : Adjacencies where
  lsa := fun _ => { data := { key := ⟨.router, 0, 0⟩, lsSeqnum := 0 }, lock := 0 }
  routerId := 0x01010101
  areas := [{ id := 0 }]
  oiflist := [{ id := 1, area := 0, address := 0x0a000001 }]
  nbr := fun _ => { oi := 0, routerId := 0, address := 0, state := .down }

def described : LsaHeader :=
  { key := ⟨.router, 0x02020202, 0x02020202⟩, lsSeqnum := 0x80000001, length := 36 }

def exchanging : List NsmOp :=
  [.nbrNew 1 2 0x02020202 0x0a000002, .elect 1 0x0a000001 0, .event 2 .helloReceived,
    .event 2 .twoWayReceived,
    .dbDesc 2 ⟨1500, 2, ospfDdFlagAll, 5, []⟩,
      .dbDesc 2 ⟨1500, 2, ospfDdFlagMs, 6, [some described]⟩]

def demoting : List NsmOp :=
  exchanging ++ [.elect 1 0x0a000003 0x0a000004, .event 2 .adjOk]

def loading : List NsmOp :=
  exchanging ++ [.event 2 .exchangeDone, .event 2 .loadingDone, .event 2 .inactivityTimer]

theorem demoted_not_idle :
    ((demoting.foldl Adjacencies.nsmStep electedRouter).nbr 2).state = .twoWay ∧
    ¬(demoting.foldl Adjacencies.nsmStep electedRouter).Idle 2 ∧
    ¬Ended ((exchanging.foldl Adjacencies.nsmStep electedRouter).ospfNsmEvent 2 .llDown).2 := by
  refine ⟨by decide +kernel, fun idle => ?_, fun ended => ?_⟩
  · have missing := idle (.lsReq 2) rfl described.key
    revert missing
    decide +kernel
  · have log : ((exchanging.foldl nsmStep electedRouter).ospfNsmEvent 2 .llDown).2 =
        [.changeState .down] ++ .delete :: [.timerSet] := by decide +kernel
    exact cons_ne_nil _ _ (ended _ _ log)

theorem electedRouter_orderly :
    let after := loading.foldl nsmStep electedRouter
    (∀ nbr, (after.nbr nbr).state.rank < exchange.rank → after.Idle nbr) ∧
    (∀ oi ∈ after.oiflist, (after.oi oi.id).fullNbrs = after.fulls oi) ∧
    (∀ area, after.areaFullNbrs area =
      ((after.areaOiflist area).map fun oi => (after.fulls oi : Int)).sum) ∧
    ∀ nbr event, after.Admits (.event nbr event) → Ended (after.ospfNsmEvent nbr event).2 := by
  refine nsm_runs_orderly ⟨⟨rfl, rfl, rfl, rfl⟩, by decide, ?_, fun _ => rfl, fun _ => rfl⟩
    (by decide +kernel)
  exact fun oi member => mem_singleton.mp member ▸ rfl

end Zebra.Ospfd
