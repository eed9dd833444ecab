import Zebra.Base.Run
import Zebra.Ospfd.AseElection

namespace Zebra.Ospfd
open OspfPath ZebraNexthop ExtRoute List Option Function AseState ZebraRoute Typed

/-- The address of a next hop, zero for an interface. -/
def ZebraNexthop.address : ZebraNexthop → InAddr
  | .ipv4 addr => addr
  | .ifindex _ => 0

/-- What `ospf_ase_route_match_same` can tell of what zebra was told. -/
def ZebraRoute.apparent (route : ZebraRoute) : BitVec 32 × List InAddr :=
  (route.metric, route.nexthops.map ZebraNexthop.address)

/-- Zebra has a route as the old table has one, as far as the comparison goes. -/
def Told (zebra : Option ZebraRoute) (old : Option ExtRoute) : Prop :=
  zebra.map ZebraRoute.apparent = old.map fun route => route.zebraRoute.apparent

theorem address_zebraNexthop (path : OspfPath) : path.zebraNexthop.address = path.nexthop := by
  rw [zebraNexthop]
  split
  · rfl
  · rename_i zero
    exact (not_not.mp zero).symm

theorem addresses_zebraRoute (route : ExtRoute) :
    route.zebraRoute.nexthops.map address = route.path.map OspfPath.nexthop := by
  rw [zebraRoute, List.map_map]
  exact map_congr_left fun path _ => address_zebraNexthop path

variable {old new : ExtTable} {zebra : Dest → Option ZebraRoute} {p : Dest} {route : ExtRoute}

theorem apparent_of_same {former} (same : ospfAseRouteMatchSame (some former) route = true)
    (typed : route.Typed)
    (formerTyped : former.Typed) : former.zebraRoute.apparent = route.zebraRoute.apparent := by
  rw [ospfAseRouteMatchSame, any_some, Bool.and_eq_true, Bool.and_eq_true, Bool.and_eq_true,
    decide_eq_true_eq, decide_eq_true_eq, decide_eq_true_eq, Bool.or_eq_true, decide_eq_true_eq,
    decide_eq_true_eq] at same
  obtain ⟨⟨⟨type, cost⟩, type2Cost⟩, nexthops⟩ := same
  have costs : former.type2Cost = route.type2Cost := by
    rcases typed.external with first | second
    · rw [typed.type1 first, formerTyped.type1 (type.trans first)]
    · exact type2Cost.resolve_left (not_not_intro (type.trans second))
  rw [apparent, apparent, addresses_zebraRoute, addresses_zebraRoute, nexthops]
  rw [zebraRoute, zebraRoute, type, cost, costs]

theorem told_heard (told : Told (zebra p) (old p)) (typed : ∀ route ∈ new p, route.Typed)
    (oldTyped : ∀ route ∈ old p, route.Typed) :
    Told (heard zebra (ospfAseCompareTables new old) p) (new p) := by
  rw [heard, ospfAseCompareTables]
  cases here : new p with
  | none =>
    dsimp only
    split
    · rename_i silent
      cases former : old p with
      | none =>
        rw [former] at told
        exact told
      | some _ =>
        rw [former] at silent
        cases silent
    · rfl
    · rename_i message
      split at message
      · cases message
      · cases message
  | some route =>
    dsimp only
    cases former : old p with
    | none => rfl
    | some earlier =>
      by_cases same : ospfAseRouteMatchSame (some earlier) route = true
      · rw [if_pos same]
        have apparent := apparent_of_same same (typed route here) (oldTyped earlier former)
        rw [former] at told
        exact told.trans (congrArg some apparent)
      · rw [if_neg same]
        rfl

theorem nexthops_of_addresses {hops} {paths : List OspfPath}
    (complete : ∀ path ∈ paths, path.nexthop ≠ 0)
    (same : hops.map address = paths.map nexthop) : hops = paths.map zebraNexthop := by
  induction paths generalizing hops with
  | nil => exact map_eq_nil_iff.mp same
  | cons path rest ih =>
    cases hops with
    | nil => cases same
    | cons hop others =>
      rw [map_cons, map_cons, cons.injEq] at same
      have direct := complete path mem_cons_self
      rw [map_cons, ih (fun other member => complete other (mem_cons_of_mem _ member)) same.2,
        zebraNexthop, if_pos direct]
      cases hop with
      | ipv4 addr => rw [← same.1, address]
      | ifindex oi => exact absurd same.1.symm direct

section Heard
variable (told : Told (zebra p) (old p)) (typed : ∀ route ∈ new p, route.Typed)
  (oldTyped : ∀ route ∈ old p, route.Typed)
include told typed oldTyped

theorem heard_route (here : new p = some route) (complete : ∀ hop ∈ route.path, hop.nexthop ≠ 0) :
    heard zebra (ospfAseCompareTables new old) p = some route.zebraRoute := by
  have after := told_heard told typed oldTyped
  rw [here] at after
  cases kept : heard zebra (ospfAseCompareTables new old) p with
  | none =>
    rw [kept] at after
    cases after
  | some known =>
    rw [kept] at after
    have apparent : known.apparent = route.zebraRoute.apparent := some.inj after
    rw [ZebraRoute.apparent, ZebraRoute.apparent, Prod.mk.injEq, addresses_zebraRoute] at apparent
    have nexthops := nexthops_of_addresses complete apparent.2
    cases known with
    | mk metric hops =>
      have metric : metric = route.zebraRoute.metric := apparent.1
      have nexthops : hops = route.zebraRoute.nexthops := nexthops
      rw [metric, nexthops]

theorem heard_none (here : new p = none) : heard zebra (ospfAseCompareTables new old) p = none := by
  have after := told_heard told typed oldTyped
  rw [here] at after
  exact map_eq_none_iff.mp after

end Heard

theorem heard_silent (here : new p = none) (before : old p = none) :
    heard zebra (ospfAseCompareTables new old) p = zebra p := by
  rw [heard, ospfAseCompareTables, here, before]
  rfl

/-- The same metric and the same next hops. -/
def SameZebra : Option ZebraRoute → Option ZebraRoute → Prop
  | none, none => True
  | some z1, some z2 => z1.metric = z2.metric ∧ ∀ hop, hop ∈ z1.nexthops ↔ hop ∈ z2.nexthops
  | _, _ => False

theorem zebraRoute_same {r1 r2} (same : SameRoute (some r1) (some r2)) :
    SameZebra (some r1.zebraRoute) (some r2.zebraRoute) := by
  obtain ⟨type, type2Cost, cost, hops⟩ := same
  refine ⟨?_, fun hop => ?_⟩
  · rw [zebraRoute, zebraRoute, type, type2Cost, cost]
  · rw [ExtRoute.zebraRoute, ExtRoute.zebraRoute, List.mem_map, List.mem_map]
    exact exists_congr fun path => and_congr_left fun _ => hops path

namespace AseState
variable {s : AseState}
variable {entry : Option ExtRoute} {ids : List LsaId}

theorem installPath_typed {compatible described} (fwdAddr : InAddr)
    (typed : ∀ route ∈ entry, route.Typed) (new : described.Typed) :
    (installPath compatible entry described fwdAddr).Typed := by
  cases entry with
  | none => exact congr new rfl rfl
  | some route =>
    rw [installPath]
    split
    · exact congr new rfl rfl
    · split
      · exact congr (typed route rfl) rfl rfl
      · exact congr (typed route rfl) rfl rfl

theorem foldl_offer_typed (typed : ∀ route ∈ entry, route.Typed) :
    ∀ route ∈ ids.foldl s.offer entry, route.Typed := by
  induction ids generalizing entry with
  | nil => exact typed
  | cons id rest ih =>
    refine ih ?_
    rw [offer]
    cases usable : s.asbrRoute id with
    | none => exact typed
    | some asbr =>
      dsimp only
      split
      · exact typed
      · rintro route ⟨⟩
        exact installPath_typed _ typed (described_typed usable)

/-- With a route in the internal table there is no external one. -/
theorem foldl_offer_internal (taken : (s.internalRoute p).isSome = true)
    (here : ∀ id ∈ ids, (s.lsa id).dest = p)
    (entry : Option ExtRoute) : ids.foldl s.offer entry = entry := by
  induction ids with
  | nil => rfl
  | cons id rest ih =>
    have kept : s.offer entry id = entry := by
      rw [offer, here id mem_cons_self]
      cases s.asbrRoute id with
      | none => rfl
      | some asbr => exact if_pos taken
    rw [foldl_cons, kept]
    exact ih fun other member => here other (.tail _ member)

theorem foldl_offer_idle (idle : s.internal = none) (entry : Option ExtRoute) :
    ids.foldl s.offer entry = entry := by
  induction ids with
  | nil => rfl
  | cons id rest ih =>
    have kept : s.offer entry id = entry := by
      rw [offer, asbrRoute, idle]
      rfl
    rw [foldl_cons, kept, ih]

/-- The LSAs of a destination. -/
def registered (s : AseState) (p : Dest) : List LsaId :=
  (s.externalLsas p).getD []

/-- The lists of the destinations are those of the database, and the tables agree with what zebra
  has. -/
structure Booked (s : AseState) : Prop where
  known : ∀ id ∈ s.lsdb, id < s.next
  unique : ∀ first ∈ s.lsdb, ∀ second ∈ s.lsdb, (s.lsa first).key = (s.lsa second).key →
    first = second
  nodup : s.lsdb.Nodup
  once : ∀ p, (s.registered p).Nodup
  listed : ∀ p id, id ∈ s.registered p ↔ id ∈ s.lsdb ∧ (s.lsa id).dest = p
  quiet : ∀ p, s.newExternalRoute p = none
  idle : s.internal = none → ∀ p, s.oldExternalRoute p = none
  told : ∀ p, Told (s.zebra p) (s.oldExternalRoute p)
  typed : ∀ p, ∀ route ∈ s.oldExternalRoute p, route.Typed

section
variable (booked : s.Booked)
include booked

theorem full_apply (p : Dest) :
    s.lsdb.foldl s.ospfAseCalculateRoute s.newExternalRoute p =
      (s.lsdb.filter fun id => (s.lsa id).dest = p).foldl s.offer none := by
  rw [foldl_calculateRoute, booked.quiet]

theorem incremental_apply (p q : Dest) :
    (s.registered p).foldl s.ospfAseCalculateRoute s.newExternalRoute q = if q = p then
      (s.registered p).foldl s.offer none else none := by
  rw [foldl_calculateRoute, booked.quiet]
  split
  · rename_i same
    subst same
    rw [filter_eq_self.mpr fun id member => decide_eq_true ((booked.listed q id).mp member).2]
  · rename_i other
    rw [filter_eq_nil_iff.mpr fun id member here => ?_]
    · rfl
    · exact other ((of_decide_eq_true here).symm.trans ((booked.listed p id).mp member).2)

theorem Booked.tables {after : AseState} (lsa : after.lsa = s.lsa) (next : after.next = s.next)
    (lsdb : after.lsdb = s.lsdb) (lists : after.externalLsas = s.externalLsas)
    (quiet : ∀ p, after.newExternalRoute p = none)
    (idle : after.internal = none → ∀ p, after.oldExternalRoute p = none)
    (told : ∀ p, Told (after.zebra p) (after.oldExternalRoute p))
    (typed : ∀ p, ∀ route ∈ after.oldExternalRoute p, route.Typed) : after.Booked := by
  refine ⟨?_, ?_, lsdb ▸ booked.nodup, ?_, ?_, quiet, idle, told, typed⟩
  · rw [lsdb, next]
    exact booked.known
  · rw [lsdb, lsa]
    exact booked.unique
  · intro p
    rw [registered, lists]
    exact booked.once p
  · intro p id
    rw [registered, lists, lsdb, lsa]
    exact booked.listed p id

theorem Booked.calculate : s.aseCalculate.Booked := by
  have typed (p : Dest) : ∀ route ∈ s.lsdb.foldl s.ospfAseCalculateRoute s.newExternalRoute p,
      route.Typed := by
    rw [full_apply booked]
    exact foldl_offer_typed fun _ none => nomatch none
  refine booked.tables rfl rfl rfl rfl (fun _ => rfl) (fun idle p => ?_) (fun p => ?_) typed
  · exact (full_apply booked p).trans (foldl_offer_idle idle _)
  · exact told_heard (booked.told p) (typed p) (booked.typed p)

theorem Booked.timer : s.ospfAseCalculateTimer.Booked := by
  rw [ospfAseCalculateTimer]
  split
  · exact booked.calculate
  · exact booked

end

theorem incremental_eq {id} (started : s.internal.isNone = false)
    (free : (s.internalRoute (s.lsa id).dest).isSome = false) :
    s.ospfAseIncrementalUpdate id =
      { s with
        oldExternalRoute := update s.oldExternalRoute (s.lsa id).dest
          ((s.registered (s.lsa id).dest).foldl s.ospfAseCalculateRoute s.newExternalRoute
            (s.lsa id).dest)
        newExternalRoute :=
          update ((s.registered (s.lsa id).dest).foldl s.ospfAseCalculateRoute s.newExternalRoute)
          (s.lsa id).dest none
        zebra := heard s.zebra (ospfAseCompareTables
          ((s.registered (s.lsa id).dest).foldl s.ospfAseCalculateRoute s.newExternalRoute)
          (Function.update (fun _ => none) (s.lsa id).dest (s.oldExternalRoute (s.lsa id).dest)))
            } := by
  rw [ospfAseIncrementalUpdate, started, free]
  rfl

theorem incremental_other (booked : s.Booked) {id q} (other : q ≠ (s.lsa id).dest) :
    (s.ospfAseIncrementalUpdate id).oldExternalRoute q = s.oldExternalRoute q ∧
    (s.ospfAseIncrementalUpdate id).zebra q = s.zebra q := by
  cases started : s.internal.isNone with
  | true =>
    rw [ospfAseIncrementalUpdate, if_pos started]
    exact ⟨rfl, rfl⟩
  | false =>
    cases free : (s.internalRoute (s.lsa id).dest).isSome with
    | true =>
      rw [ospfAseIncrementalUpdate, started, if_pos free]
      exact ⟨rfl, rfl⟩
    | false =>
      rw [incremental_eq started free]
      refine ⟨update_of_ne other .., heard_silent ?_ (update_of_ne other ..)⟩
      rw [incremental_apply booked, if_neg other]

theorem Booked.incremental (booked : s.Booked) (id : LsaId) :
    (s.ospfAseIncrementalUpdate id).Booked := by
  cases started : s.internal.isNone with
  | true =>
    rw [ospfAseIncrementalUpdate, if_pos started]
    exact booked
  | false =>
    cases free : (s.internalRoute (s.lsa id).dest).isSome with
    | true =>
      rw [ospfAseIncrementalUpdate, started, if_pos free]
      exact booked
    | false =>
      rw [incremental_eq started free]
      generalize (s.lsa id).dest = p
      have typed : ∀ route ∈ (s.registered p).foldl s.ospfAseCalculateRoute s.newExternalRoute p,
          route.Typed := by
        rw [incremental_apply booked, if_pos rfl]
        exact foldl_offer_typed fun _ none => nomatch none
      refine booked.tables rfl rfl rfl rfl (fun q => ?_) (fun idle => ?_) (fun q => ?_) fun q => ?_
      · by_cases same : q = p
        · rw [same]
          exact update_self ..
        · refine (update_of_ne same ..).trans ?_
          rw [incremental_apply booked, if_neg same]
      · rw [idle] at started
        cases started
      · by_cases same : q = p
        · subst same
          dsimp only
          rw [update_self]
          refine told_heard ?_ typed ?_
          · rw [update_self]
            exact booked.told q
          · rw [update_self]
            exact booked.typed q
        · dsimp only
          rw [update_of_ne same, heard_silent _ (update_of_ne same ..)]
          · exact booked.told q
          · rw [incremental_apply booked, if_neg same]
      · dsimp only
        by_cases same : q = p
        · rw [same, update_self]
          exact typed
        · rw [update_of_ne same]
          exact booked.typed q

theorem Booked.alloc (booked : s.Booked) (lsa : OspfLsa) : (s.alloc lsa).Booked := by
  have kept (id : LsaId) (stored : id ∈ s.lsdb) : (s.alloc lsa).lsa id = s.lsa id :=
    update_of_ne (ne_of_lt (booked.known id stored)) ..
  refine ⟨fun id stored => Nat.lt_succ_of_lt (booked.known id stored),
    fun first one second two same => ?_, booked.nodup, booked.once,
    fun p id => ?_, booked.quiet, booked.idle, booked.told, booked.typed⟩
  · rw [kept first one, kept second two] at same
    exact booked.unique first one second two same
  · refine (booked.listed p id).trans (and_congr_right fun stored => ?_)
    rw [kept id stored]

theorem registered_unregister (id : LsaId) (p : Dest) :
    (s.ospfAseUnregisterExternalLsa id).registered p = if p = (s.lsa id).dest then
      (s.registered p).erase id else s.registered p := by
  rw [registered, ospfAseUnregisterExternalLsa]
  split
  · rename_i same
    dsimp only
    rw [same, update_self, registered]
    cases s.externalLsas (s.lsa id).dest <;> rfl
  · rename_i other
    dsimp only
    rw [update_of_ne other]
    rfl

theorem registered_register (id : LsaId) (p : Dest) :
    (s.ospfAseRegisterExternalLsa id).registered p = if p = (s.lsa id).dest then
      s.registered p ++ [id] else s.registered p := by
  rw [registered, ospfAseRegisterExternalLsa]
  split
  · rename_i same
    dsimp only
    rw [same, update_self]
    rfl
  · rename_i other
    dsimp only
    rw [update_of_ne other]
    rfl

theorem lookup_eq_some (booked : s.Booked) {key old} (found : s.lookup key = some old) :
    old ∈ s.lsdb ∧ ∀ id ∈ s.lsdb, (s.lsa id).key = key ↔ id = old := by
  have stored := mem_of_find?_eq_some found
  have here : (s.lsa old).key = key :=
    of_decide_eq_true (@find?_some _ (fun id => decide ((s.lsa id).key = key)) _ _ found)
  refine ⟨stored, fun id member =>
    ⟨fun same => booked.unique id member old stored (same.trans here.symm), fun same => ?_⟩⟩
  rw [same, here]

theorem lookup_eq_none {key} (none : s.lookup key = none) : ∀ id ∈ s.lsdb, (s.lsa id).key ≠ key :=
  fun id member same => find?_eq_none.mp none id member (decide_eq_true same)

section
variable (booked : s.Booked)
include booked

theorem Booked.discard (key : LsaKey) {lsdb} (nodup : lsdb.Nodup)
    (rest : ∀ id, id ∈ lsdb ↔ id ∈ s.lsdb ∧ (s.lsa id).key ≠ key) :
    Booked { s.ospfDiscardFromDb key with lsdb := lsdb } := by
  rw [ospfDiscardFromDb]
  cases found : s.lookup key with
  | none =>
    have all (id : LsaId) : id ∈ lsdb ↔ id ∈ s.lsdb :=
      (rest id).trans (and_iff_left_of_imp fun member => lookup_eq_none found id member)
    exact ⟨fun id member => booked.known id ((all id).mp member),
      fun first one second two => booked.unique first ((all first).mp one) second
        ((all second).mp two), nodup, booked.once,
      fun p id => (booked.listed p id).trans (and_congr_left fun _ => (all id).symm), booked.quiet,
        booked.idle, booked.told, booked.typed⟩
  | some old =>
    obtain ⟨stored, only⟩ := lookup_eq_some booked found
    have fewer (id : LsaId) (member : id ∈ lsdb) : id ∈ s.lsdb := ((rest id).mp member).1
    refine ⟨fun id member => booked.known id (fewer id member),
      fun first one second two => booked.unique first (fewer first one) second (fewer second two),
        nodup, fun p => ?_, fun p id => ?_,
      booked.quiet, booked.idle, booked.told, booked.typed⟩
    · change ((s.ospfAseUnregisterExternalLsa old).registered p).Nodup
      rw [registered_unregister]
      split
      · exact (booked.once p).erase old
      · exact booked.once p
    · change id ∈ (s.ospfAseUnregisterExternalLsa old).registered p ↔
        id ∈ lsdb ∧ (s.lsa id).dest = p
      have left : id ∈ lsdb ↔ id ∈ s.lsdb ∧ id ≠ old :=
        (rest id).trans (and_congr_right fun member => not_congr (only id member))
      rw [registered_unregister, left]
      split
      · rw [(booked.once p).mem_erase_iff, booked.listed, and_left_comm, and_assoc]
      · rename_i other
        rw [booked.listed, and_assoc]
        refine and_congr_right fun _ => (and_iff_right_of_imp fun here same => ?_).symm
        exact other (here.symm.trans (same ▸ rfl))

theorem Booked.register {id} (known : id < s.next)
    (fresh : ∀ found ∈ s.lsdb, (s.lsa found).key ≠ (s.lsa id).key)
    {lsdb} (grown : lsdb.Perm (id :: s.lsdb)) :
    Booked ({ s with lsdb := lsdb }.ospfAseRegisterExternalLsa id) := by
  have absent : id ∉ s.lsdb := fun member => fresh id member rfl
  have mem (found : LsaId) : found ∈ lsdb ↔ found = id ∨ found ∈ s.lsdb :=
    grown.mem_iff.trans mem_cons
  refine ⟨fun found member => ?_, fun first one second two same => ?_,
    grown.nodup_iff.mpr (nodup_cons.mpr ⟨absent, booked.nodup⟩),
    fun p => ?_, fun p found => ?_, booked.quiet, booked.idle, booked.told, booked.typed⟩
  · rcases (mem found).mp member with rfl | member
    · exact known
    · exact booked.known found member
  · rcases (mem first).mp one with rfl | firstBefore
    · rcases (mem second).mp two with rfl | secondBefore
      · rfl
      · exact absurd same.symm (fresh second secondBefore)
    · rcases (mem second).mp two with rfl | secondBefore
      · exact absurd same (fresh first firstBefore)
      · exact booked.unique first firstBefore second secondBefore same
  · rw [registered_register]
    have old : (registered { s with lsdb := lsdb } p).Nodup := booked.once p
    split
    · refine nodup_append.mpr ⟨old, nodup_singleton id, fun found member other last same => ?_⟩
      have listed : found ∈ s.registered p := member
      rw [same, mem_singleton.mp last] at listed
      exact absent ((booked.listed p id).mp listed).1
    · exact old
  · rw [registered_register]
    have old : found ∈ registered { s with lsdb := lsdb } p ↔
      found ∈ s.lsdb ∧ (s.lsa found).dest = p := booked.listed p found
    change _ ↔ found ∈ lsdb ∧ (s.lsa found).dest = p
    rw [mem]
    split
    · rename_i here
      rw [mem_append, mem_singleton, old, or_and_right, or_comm]
      refine or_congr_left (iff_self_and.mpr fun same => ?_)
      rw [same, here]
    · rename_i other
      rw [old, or_and_right]
      refine (or_iff_right fun both => other ?_).symm
      rw [← both.1, both.2]

theorem Booked.enter (lsa : OspfLsa) : (s.enter lsa).Booked := by
  have allocated := booked.alloc lsa
  have here : (s.alloc lsa).lsa s.next = lsa := update_self ..
  have key : lsa.key = ((s.alloc lsa).lsa s.next).key := by rw [here]
  have known : s.next < (s.alloc lsa).next := Nat.lt_succ_self _
  rw [AseState.enter, key]
  generalize s.alloc lsa = grown at allocated known
  generalize s.next = id at known
  obtain ⟨lists, shape⟩ : ∃ lists, grown.ospfDiscardFromDb (grown.lsa id).key =
      { grown with externalLsas := lists } := by
    rw [ospfDiscardFromDb]
    split
    · exact ⟨_, rfl⟩
    · exact ⟨_, rfl⟩
  have rest (found : LsaId) :
      found ∈ grown.lsdb.filter (fun found => (grown.lsa found).key ≠ (grown.lsa id).key) ↔
      found ∈ grown.lsdb ∧ (grown.lsa found).key ≠ (grown.lsa id).key := by
    rw [mem_filter, decide_eq_true_eq]
  have discarded := allocated.discard _ (allocated.nodup.filter _) rest
  rw [shape] at discarded ⊢
  exact discarded.register known (fun found member => ((rest found).mp member).2)
    (perm_orderedInsert ..)

theorem Booked.remove {id} (stored : id ∈ s.lsdb) :
    ((s.ospfDiscardFromDb (s.lsa id).key).ospfLsdbDelete id).Booked := by
  have same : (s.ospfDiscardFromDb (s.lsa id).key).lsdb = s.lsdb := by
    rw [ospfDiscardFromDb]
    split
    · rfl
    · rfl
  rw [ospfLsdbDelete, same]
  refine booked.discard _ (booked.nodup.erase id) fun found => ?_
  rw [booked.nodup.mem_erase_iff, and_comm]
  refine and_congr_right fun member =>
    not_congr ⟨fun equal => congrArg (fun id => (s.lsa id).key) equal, fun equal => ?_⟩
  exact booked.unique found member id stored equal

theorem Booked.age (id : LsaId) (lsAge : BitVec 16) (tvRecv : Time) (self : Bool) :
    (s.prepared (.age id lsAge tvRecv self)).Booked := by
  have key (found : LsaId) :
      ((s.prepared (.age id lsAge tvRecv self)).lsa found).key = (s.lsa found).key := by
    by_cases same : found = id
    · rw [same]
      exact (congrArg OspfLsa.key
        (update_self id ((s.lsa id).aged lsAge tvRecv self) s.lsa)).trans rfl
    · exact congrArg OspfLsa.key (update_of_ne same ..)
  have dest (found : LsaId) :
      ((s.prepared (.age id lsAge tvRecv self)).lsa found).dest = (s.lsa found).dest := by
    by_cases same : found = id
    · rw [same]
      exact (congrArg OspfLsa.dest
        (update_self id ((s.lsa id).aged lsAge tvRecv self) s.lsa)).trans rfl
    · exact congrArg OspfLsa.dest (update_of_ne same ..)
  refine ⟨booked.known, fun first one second two same => ?_, booked.nodup, booked.once,
    fun p found => ?_, booked.quiet, booked.idle,
    booked.told, booked.typed⟩
  · rw [key, key] at same
    exact booked.unique first one second two same
  · rw [dest]
    exact booked.listed p found

theorem Booked.prepared (op : AseOp) (allowed : s.Allowed op) : (s.prepared op).Booked := by
  cases op with
  | install lsa => exact booked.enter lsa
  | walk id => exact booked
  | remove id => exact booked.remove allowed
  | age id lsAge tvRecv self => exact booked.age id lsAge tvRecv self
  | tick seconds =>
    exact ⟨booked.known, booked.unique, booked.nodup, booked.once, booked.listed, booked.quiet,
      booked.idle, booked.told, booked.typed⟩
  | spf internal =>
    exact ⟨booked.known, booked.unique, booked.nodup, booked.once, booked.listed, booked.quiet,
      (fun none => nomatch none), booked.told,
      booked.typed⟩
  | timer => exact booked.timer

theorem Booked.step (op : AseOp) (allowed : s.Allowed op) : (s.step op).Booked := by
  rw [AseState.step]
  split
  · exact booked.prepared op allowed
  · exact (booked.prepared op allowed).incremental _

end

/-- Before anything happened. -/
def start (lsa : LsaId → OspfLsa) : AseState := { lsa }

theorem booked_start (lsa : LsaId → OspfLsa) : (start lsa).Booked where
  known := nofun
  unique := nofun
  nodup := nodup_nil
  once := fun _ => nodup_nil
  listed := fun _ _ => ⟨nofun, nofun⟩
  quiet := fun _ => rfl
  idle := fun _ _ => rfl
  told := fun _ => rfl
  typed := fun _ _ none => nomatch none

theorem recalculated_stored {op} (allowed : s.Allowed op) {id}
    (recalculated : s.recalculated op = some id) :
    id ∈ (s.prepared op).lsdb := by
  cases op with
  | install lsa =>
    rw [AseState.recalculated] at recalculated
    split at recalculated
    · cases recalculated
      exact (mem_orderedInsert _).mpr (.inl rfl)
    · cases recalculated
  | walk found =>
    rw [AseState.recalculated] at recalculated
    split at recalculated
    · cases recalculated
      exact allowed
    · cases recalculated
  | remove _ => cases recalculated
  | age _ _ _ _ => cases recalculated
  | tick _ => cases recalculated
  | spf _ => cases recalculated
  | timer => cases recalculated

/-- What the recalculation of a destination leaves is what a full calculation would, and the other
destinations are as they were. -/
structure Agrees (s : AseState) (id : LsaId) : Prop where
  route : SameRoute ((s.ospfAseIncrementalUpdate id).oldExternalRoute (s.lsa id).dest)
    (s.aseCalculate.oldExternalRoute (s.lsa id).dest)
  zebra : SameZebra ((s.ospfAseIncrementalUpdate id).zebra (s.lsa id).dest)
    (s.aseCalculate.zebra (s.lsa id).dest)
  others : ∀ q ≠ (s.lsa id).dest, (s.ospfAseIncrementalUpdate id).oldExternalRoute q =
    s.oldExternalRoute q ∧
    (s.ospfAseIncrementalUpdate id).zebra q = s.zebra q

/-- No external route is left from before the internal one. -/
def Settled (s : AseState) (p : Dest) : Prop :=
  (s.internalRoute p).isSome = true → s.oldExternalRoute p = none

theorem agrees_none (booked : s.Booked) {id} (unchanged : s.ospfAseIncrementalUpdate id = s)
    (before : s.oldExternalRoute (s.lsa id).dest = none)
    (after : s.lsdb.foldl s.ospfAseCalculateRoute s.newExternalRoute (s.lsa id).dest = none) :
    s.Agrees id := by
  have silent : s.zebra (s.lsa id).dest = none := by
    have told := booked.told (s.lsa id).dest
    rw [before] at told
    exact map_eq_none_iff.mp told
  have full : s.aseCalculate.zebra (s.lsa id).dest = none :=
    (heard_silent after before).trans silent
  have table : s.aseCalculate.oldExternalRoute (s.lsa id).dest = none := after
  refine ⟨?_, ?_, fun q other => incremental_other booked other⟩
  · rw [unchanged, before, table]
    trivial
  · rw [unchanged, silent, full]
    trivial

theorem heard_entry (booked : s.Booked) (orderly : s.Orderly p)
    (here : ∀ id ∈ ids, id ∈ s.lsdb ∧ (s.lsa id).dest = p)
    (outcome : s.Outcome ids (ids.foldl s.offer none))
    (table : new p = ids.foldl s.offer none) (before : old p = s.oldExternalRoute p) :
    heard s.zebra (ospfAseCompareTables new old) p = (ids.foldl s.offer none).map zebraRoute := by
  have told : Told (s.zebra p) (old p) := before ▸ booked.told p
  have typed : ∀ route ∈ new p, route.Typed := by
    rw [table]
    exact foldl_offer_typed fun _ none => nomatch none
  have oldTyped : ∀ route ∈ old p, route.Typed := before ▸ booked.typed p
  cases entry : ids.foldl s.offer none with
  | none => exact heard_none told typed oldTyped (table.trans entry)
  | some route =>
    rw [entry] at outcome
    exact heard_route told typed oldTyped (table.trans entry)
      (Outcome.complete orderly here outcome)

theorem sameZebra_map {entry'} (same : SameRoute entry entry') :
    SameZebra (entry.map zebraRoute) (entry'.map zebraRoute) := by
  cases entry with
  | none =>
    cases entry' with
    | none => trivial
    | some _ => exact same
  | some _ =>
    cases entry' with
    | none => exact same
    | some _ => exact zebraRoute_same same

theorem agrees_free (booked : s.Booked) {id} (dest : (s.lsa id).dest = p) (orderly : s.Orderly p)
    (started : s.internal.isNone = false) (free : (s.internalRoute p).isSome = false) :
    SameRoute ((s.ospfAseIncrementalUpdate id).oldExternalRoute p)
    (s.aseCalculate.oldExternalRoute p) ∧
      SameZebra ((s.ospfAseIncrementalUpdate id).zebra p) (s.aseCalculate.zebra p) := by
  have listed (id : LsaId) (member : id ∈ s.registered p) := (booked.listed p id).mp member
  have stored (id : LsaId) (member : id ∈ s.lsdb.filter fun id => (s.lsa id).dest = p) :
      id ∈ s.lsdb ∧ (s.lsa id).dest = p :=
    ⟨(mem_filter.mp member).1, of_decide_eq_true (mem_filter.mp member).2⟩
  have alike (id : LsaId) : id ∈ s.registered p ↔
      id ∈ s.lsdb.filter fun id => (s.lsa id).dest = p :=
    (booked.listed p id).trans
      ⟨fun both => mem_filter.mpr ⟨both.1, decide_eq_true both.2⟩, stored id⟩
  have first := foldl_offer orderly free listed
  have second := foldl_offer orderly free stored
  have same := Outcome.same first second alike
  have table := (incremental_apply booked p p).trans (if_pos rfl)
  have full := full_apply booked p
  have zebraFirst := heard_entry booked orderly listed first table
    (update_self p (s.oldExternalRoute p) fun _ => none)
  have zebraSecond := heard_entry booked orderly stored second full (rfl : s.oldExternalRoute p = _)
  have fullTable : s.aseCalculate.oldExternalRoute p =
    s.lsdb.foldl s.ospfAseCalculateRoute s.newExternalRoute p := rfl
  have fullZebra : s.aseCalculate.zebra p = heard s.zebra (ospfAseCompareTables
      (s.lsdb.foldl s.ospfAseCalculateRoute s.newExternalRoute) s.oldExternalRoute) p := rfl
  subst dest
  rw [incremental_eq started free, fullTable, fullZebra]
  dsimp only
  rw [update_self, table, full, zebraFirst, zebraSecond]
  exact ⟨same, sameZebra_map same⟩

theorem agrees_of_orderly (booked : s.Booked) {id} (settled : s.Settled (s.lsa id).dest)
    (orderly : s.Orderly (s.lsa id).dest) :
    s.Agrees id := by
  cases started : s.internal.isNone with
  | true =>
    have idle := isNone_iff_eq_none.mp started
    refine agrees_none booked ?_ (booked.idle idle _)
      ((full_apply booked _).trans (foldl_offer_idle idle _))
    rw [ospfAseIncrementalUpdate, if_pos started]
  | false =>
    cases free : (s.internalRoute (s.lsa id).dest).isSome with
    | true =>
      refine agrees_none booked ?_ (settled free)
        ((full_apply booked _).trans (foldl_offer_internal free (fun other member => ?_) _))
      · rw [ospfAseIncrementalUpdate, started, if_neg nofun, if_pos free]
      · exact of_decide_eq_true (mem_filter.mp member).2
    | false =>
      obtain ⟨route, zebra⟩ := agrees_free booked rfl orderly started free
      exact ⟨route, zebra, fun q other => incremental_other booked other⟩

theorem orderly_of_all (all : ∀ id ∈ s.lsdb, ∀ asbr ∈ (s.asbrRoute id).toList,
    ((s.lsa id).asExternal.fwdAddr = 0 → ∀ hop ∈ asbr.path, hop.nexthop ≠ 0) ∧
    ∀ id' ∈ s.lsdb, ∀ asbr' ∈ (s.asbrRoute id').toList,
      (s.compatible = true ∨ asbr.asbrType = asbr'.asbrType) ∧
      (s.described id asbr).cost.toNat < (s.described id' asbr').cost.toNat + 2 ^ 31 ∧
      ((s.described id asbr).rank = (s.described id' asbr').rank →
        ∀ hop ∈ s.fresh id asbr, ∀ hop' ∈ s.fresh id' asbr', hop.nexthop = hop'.nexthop →
          hop.oi = hop'.oi)) : s.Orderly p := by
  have pair {id id' asbr asbr'} (first : s.Offers p id asbr) (second : s.Offers p id' asbr') :=
    (all id first.stored asbr (Option.mem_toList.mpr first.usable)).2 id' second.stored asbr'
      (Option.mem_toList.mpr second.usable)
  refine ⟨fun first second => (pair first second).1, fun first second => (pair first second).2.1,
    fun first => ?_,
    fun first second => (pair first second).2.2⟩
  exact (all _ first.stored _ (Option.mem_toList.mpr first.usable)).1

/-- In every run, a recalculation of a destination that is in order leaves what a full calculation
of the same databases would leave. The assertion before it holds. -/
theorem ase_incremental_agrees (lsa : LsaId → OspfLsa) (ops : List AseOp)
    (run : Base.Allowed step Allowed (start lsa) ops) (op : AseOp)
    (allowed : (ops.foldl step (start lsa)).Allowed op) {id : LsaId}
    (recalculated : (ops.foldl step (start lsa)).recalculated op = some id) :
    let s := (ops.foldl step (start lsa)).prepared op
    (s.externalLsas (s.lsa id).dest).isSome = true ∧
      (s.Settled (s.lsa id).dest → s.Orderly (s.lsa id).dest → s.Agrees id) := by
  have booked : (ops.foldl step (start lsa)).Booked :=
    run.invariant (fun _ op allowed booked => booked.step op allowed) (booked_start lsa)
  have prepared := booked.prepared op allowed
  have stored := recalculated_stored allowed recalculated
  refine ⟨?_, agrees_of_orderly prepared⟩
  have member := (prepared.listed _ id).mpr ⟨stored, rfl⟩
  rw [registered] at member
  cases lists : ((ops.foldl step (start lsa)).prepared op).externalLsas
    (((ops.foldl step (start lsa)).prepared op).lsa id).dest with
  | none =>
    rw [lists] at member
    exact nomatch member
  | some _ => rfl

/-- An AS-external-LSA for 10.0.0.0/8, of type 1 with metric 1. -/
def tenLsa (advRouter : InAddr) (metric : Base.Octet := 1) : OspfLsa where
  data := { key := ⟨.asExternal, 0x0a000000, advRouter⟩, lsSeqnum := ospfInitialSequenceNumber,
            length := 36 }
  body := [255, 0, 0, 0, 0, 0, 0, metric, 0, 0, 0, 0, 0, 0, 0, 0]

def tenDest : Dest := ⟨0x0a000000, 8⟩

/-- Routers 1 and 2 are reached across the backbone, router 3 within an area. -/
def threeRouters : Internal where
  newRtrs asbr :=
    if asbr = 1 then
      some [{ pathType := .interArea, cost := 20, asbr := true, path := [⟨0xc0000201, some 1⟩] }]
    else if asbr = 2 then
      some [{ pathType := .interArea, cost := 5, asbr := true, path := [⟨0xc0000202, some 1⟩] }]
    else if asbr = 3 then
      some [{ pathType := .intraArea, cost := 10, areaId := 1, asbr := true,
              path := [⟨0xc0000303, some 2⟩] }]
    else none

/-- What router 3 is reached by. -/
def intraRoute : OspfRoute :=
  { pathType := .intraArea, cost := 10, areaId := 1, asbr := true, path := [⟨0xc0000303, some 2⟩] }

/-- Router 2 has a new instance at the cost of the route through router 1. -/
theorem twoRouters_agree :
    let s := ([.spf threeRouters, .install (tenLsa 1), .install (tenLsa 2 200)] : List AseOp).foldl
      step (start fun _ => tenLsa 3)
    let s := s.prepared (.install (tenLsa 2 16))
    s.lsdb.length = 2 ∧ s.Agrees 2 ∧
      ((s.ospfAseIncrementalUpdate 2).oldExternalRoute tenDest).map
        (fun route => (route.cost, route.path.length)) = some (21, 2) := by
  have agrees :=
    (ase_incremental_agrees (fun _ => tenLsa 3)
    [.spf threeRouters, .install (tenLsa 1), .install (tenLsa 2 200)]
    ⟨trivial, trivial, trivial, trivial⟩
      (.install (tenLsa 2 16)) trivial (by decide +kernel : _ = some 2)).2
  exact ⟨by decide +kernel, agrees (fun taken => absurd taken (by decide +kernel))
    (orderly_of_all (by decide +kernel)), by decide +kernel⟩

/-- The route of router 3 is the best one. Once the worse route of router 1 was seen, that of router
2 passes for a better one. -/
theorem ase_order_matters :
    let s := ([.spf threeRouters, .install (tenLsa 3), .install (tenLsa 1)] : List AseOp).foldl
      step (start fun _ => tenLsa 1)
    let s := s.prepared (.install (tenLsa 2))
    (s.lsa 2).dest = tenDest ∧
      ((s.ospfAseIncrementalUpdate 2).oldExternalRoute tenDest).map cost = some 6 ∧
      (s.aseCalculate.oldExternalRoute tenDest).map cost = some 11 := by
  refine ⟨?_, ?_, ?_⟩
  · decide +kernel
  · decide +kernel
  · decide +kernel

end AseState
end Zebra.Ospfd
