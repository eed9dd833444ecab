import Mathlib.Data.List.Induction
import Zebra.Base.Election
import Zebra.Ospfd.Ase

namespace Zebra.Ospfd
open Base List ExtRoute BitVec

theorem mem_addPath {paths path hop} :
    hop ∈ addPath paths path ↔ hop ∈ paths ∨ hop = path ∧
    ∀ op ∈ paths, op.nexthop ≠ path.nexthop := by
  rw [addPath]
  split
  · rename_i known
    rw [any_eq_true] at known
    obtain ⟨op, member, same⟩ := known
    refine ⟨.inl, ?_⟩
    rintro (there | ⟨-, new⟩)
    · exact there
    · exact absurd (of_decide_eq_true same) (new op member)
  · rename_i unknown
    rw [any_eq_true] at unknown
    rw [mem_append, mem_singleton]
    refine or_congr_right
      (iff_self_and.mpr fun _ op member same => unknown ⟨op, member, decide_eq_true same⟩)

theorem mem_copyNexthops {target source hop} :
    hop ∈ ospfRouteCopyNexthops target source ↔
      hop ∈ target ∨ (∀ op ∈ target, op.nexthop ≠ hop.nexthop) ∧
      source.find? (fun op => op.nexthop = hop.nexthop) = some hop := by
  induction source generalizing target with
  | nil =>
    exact (or_iff_left fun both => nomatch both.2).symm
  | cons path rest ih =>
    have turn : ospfRouteCopyNexthops target (path :: rest) =
      ospfRouteCopyNexthops (addPath target path) rest := rfl
    rw [turn, ih, mem_addPath, find?_cons]
    by_cases same : path.nexthop = hop.nexthop
    · rw [decide_eq_true same]
      constructor
      · rintro ((there | ⟨rfl, new⟩) | ⟨new, later⟩)
        · exact .inl there
        · exact .inr ⟨new, rfl⟩
        · -- the path itself is there, so the next hop is no longer new
          by_cases known : ∀ op ∈ target, op.nexthop ≠ path.nexthop
          · exact absurd same (new path (mem_addPath.mpr (.inr ⟨rfl, known⟩)))
          · refine absurd (fun op member => ?_) known
            exact same ▸ new op (mem_addPath.mpr (.inl member))
      · rintro (there | ⟨new, first⟩)
        · exact .inl (.inl there)
        · cases first
          exact .inl (.inr ⟨rfl, new⟩)
    · rw [decide_eq_false same]
      constructor
      · rintro ((there | ⟨rfl, -⟩) | ⟨new, later⟩)
        · exact .inl there
        · exact absurd rfl same
        · exact .inr ⟨fun op member => new op (mem_addPath.mpr (.inl member)), later⟩
      · rintro (there | ⟨new, later⟩)
        · exact .inl (.inl there)
        · refine .inr ⟨fun op member => ?_, later⟩
          rcases mem_addPath.mp member with there | ⟨rfl, -⟩
          · exact new op there
          · exact same

/-- The next hops that a route to an ASBR or a forwarding address gives. -/
def freshPath (fwdAddr : InAddr) (source : List OspfPath) : List OspfPath :=
  completeDirectRoutes fwdAddr (ospfRouteCopyNexthops [] source)

theorem mem_freshPath {source hop}
    (found : source.find? (fun op => op.nexthop = hop.nexthop) = some hop) :
    hop ∈ ospfRouteCopyNexthops [] source :=
  mem_copyNexthops.mpr (.inr ⟨nofun, found⟩)

variable {fwdAddr : InAddr} {paths source : List OspfPath}

theorem completeDirectRoutes_ne (zero : fwdAddr = 0 → ∀ hop ∈ paths, hop.nexthop ≠ 0) :
    ∀ hop ∈ completeDirectRoutes fwdAddr paths, hop.nexthop ≠ 0 := by
  intro hop member
  rw [completeDirectRoutes] at member
  split at member
  · exact zero ‹_› hop member
  · obtain ⟨op, -, rfl⟩ := mem_map.mp member
    split
    · assumption
    · assumption

theorem copyNexthops_ne (target : ∀ hop ∈ paths, hop.nexthop ≠ 0)
    (added : ∀ hop ∈ source, hop.nexthop ≠ 0) :
    ∀ hop ∈ ospfRouteCopyNexthops paths source, hop.nexthop ≠ 0 := by
  intro hop member
  rcases mem_copyNexthops.mp member with there | ⟨-, found⟩
  · exact target hop there
  · exact added hop (mem_of_find?_eq_some found)

theorem freshPath_ne (gateways : fwdAddr = 0 → ∀ hop ∈ source, hop.nexthop ≠ 0) :
    ∀ hop ∈ freshPath fwdAddr source, hop.nexthop ≠ 0 :=
  completeDirectRoutes_ne fun zero => copyNexthops_ne (nofun) (gateways zero)

theorem mem_merged (complete : ∀ hop ∈ paths, hop.nexthop ≠ 0)
    (agree : ∀ hop ∈ paths, ∀ new ∈ freshPath fwdAddr source, hop.nexthop = new.nexthop → hop = new)
    (hop : OspfPath) :
    hop ∈ completeDirectRoutes fwdAddr (ospfRouteCopyNexthops paths source) ↔
    hop ∈ paths ∨ hop ∈ freshPath fwdAddr source := by
  rw [freshPath] at agree ⊢
  rw [completeDirectRoutes] at agree ⊢
  by_cases zero : fwdAddr = 0
  · rw [if_pos zero] at agree ⊢
    rw [completeDirectRoutes, if_pos zero, mem_copyNexthops]
    refine or_congr_right' fun new => ?_
    constructor
    · rintro ⟨-, found⟩
      exact mem_freshPath found
    · intro member
      rcases mem_copyNexthops.mp member with none | ⟨-, found⟩
      · exact nomatch none
      · refine ⟨fun op there same => new ?_, found⟩
        exact agree op there hop member same ▸ there
  · rw [if_neg zero] at agree ⊢
    rw [completeDirectRoutes, if_neg zero, mem_map, mem_map]
    constructor
    · rintro ⟨op, member, rfl⟩
      rcases mem_copyNexthops.mp member with there | ⟨-, found⟩
      · rw [if_neg (complete op there)]
        exact .inl there
      · exact .inr ⟨op, mem_freshPath found, rfl⟩
    · rintro (there | ⟨op, member, rfl⟩)
      · exact ⟨hop, mem_copyNexthops.mpr (.inl there), if_neg (complete hop there)⟩
      · by_cases known : ∃ old ∈ paths, old.nexthop = op.nexthop
        · obtain ⟨old, there, same⟩ := known
          have direct : op.nexthop ≠ 0 := same ▸ complete old there
          rw [if_neg direct]
          have equal := agree old there op (mem_map.mpr ⟨op, member, if_neg direct⟩) same
          exact ⟨old, mem_copyNexthops.mpr (.inl there), by rw [if_neg (complete old there), equal]⟩
        · rcases mem_copyNexthops.mp member with none | ⟨-, found⟩
          · exact nomatch none
          · refine ⟨op, mem_copyNexthops.mpr
              (.inr ⟨fun old there same => known ⟨old, there, same⟩, found⟩), rfl⟩

/-- Path type, type 2 cost and cost, the lower the better. -/
def ExtRoute.rank (route : ExtRoute) : Nat :=
  (route.pathType.code.toNat * 2 ^ 32 + route.type2Cost.toNat) * 2 ^ 32 + route.cost.toNat

theorem code_toNat (type : PathType) : (type.code.toNat : Int) = type.code := by
  cases type <;> rfl

theorem code_injective {first second : PathType} (same : first.code = second.code) :
    first = second := by
  revert same
  cases first <;> cases second <;> decide

variable {r1 r2 : ExtRoute}

theorem rank_eq (same : r1.rank = r2.rank) :
    r1.pathType = r2.pathType ∧ r1.type2Cost = r2.type2Cost ∧ r1.cost = r2.cost := by
  rw [rank, rank] at same
  have types : r1.pathType.code.toNat = r2.pathType.code.toNat := by omega
  refine ⟨code_injective ?_, eq_of_toNat_eq (by omega), eq_of_toNat_eq (by omega)⟩
  rw [← code_toNat r1.pathType, types, code_toNat]

/-- The sign of a difference of costs that are not too far apart. -/
theorem toInt_sub {first second : BitVec 32} (high : first.toNat < second.toNat + 2 ^ 31)
    (low : second.toNat < first.toNat + 2 ^ 31) :
    (first - second).toInt = (first.toNat : Int) - second.toNat := by
  rw [toInt_eq_toNat_cond, toNat_sub]
  split
  · omega
  · omega

/-- An external route, with its type 2 cost. -/
structure ExtRoute.Typed (route : ExtRoute) : Prop where
  external : route.pathType = .type1External ∨ route.pathType = .type2External
  small : route.type2Cost.toNat < 2 ^ 24
  type1 : route.pathType = .type1External → route.type2Cost = 0

/-- When the routes to the ASBRs rank alike, the comparison is that of the ranks. -/
theorem ospfRouteCmp_rank {compatible : Bool} (t1 : r1.Typed) (t2 : r2.Typed)
    (alike : ospfAsbrRouteCmp compatible r1.asbr r2.asbr = 0)
    (high : r1.cost.toNat < r2.cost.toNat + 2 ^ 31) (low : r2.cost.toNat < r1.cost.toNat + 2 ^ 31) :
    (ospfRouteCmp compatible r1 r2 < 0 ↔ r1.rank < r2.rank) ∧
    (0 < ospfRouteCmp compatible r1 r2 ↔ r2.rank < r1.rank) := by
  have s1 := t1.small
  have s2 := t2.small
  rw [ospfRouteCmp, rank, rank]
  by_cases types : r1.pathType = r2.pathType
  · rw [if_neg (not_not_intro types), types]
    by_cases costs : r1.type2Cost = r2.type2Cost
    · rw [if_neg fun both => both.2 costs, toInt_sub high low, costs]
      omega
    · have second : r2.pathType = .type2External := by
        rcases t2.external with first | second
        · exact absurd ((t1.type1 (types.trans first)).trans (t2.type1 first).symm) costs
        · exact second
      have apart : r1.type2Cost.toNat ≠ r2.type2Cost.toNat :=
        fun same => costs (eq_of_toNat_eq same)
      rw [if_pos ⟨second, costs⟩, toInt_sub (by omega) (by omega)]
      omega
  · rw [if_pos types]
    have apart : r1.pathType.code ≠ r2.pathType.code := fun same => types (code_injective same)
    have n1 := code_toNat r1.pathType
    have n2 := code_toNat r2.pathType
    omega

namespace AseState

/-- What `ospf_ase_calculate_route` does with the entry of the LSA's destination. -/
def offer (s : AseState) (entry : Option ExtRoute) (id : LsaId) : Option ExtRoute :=
  match s.asbrRoute id with
  | none => entry
  | some asbr =>
    if (s.internalRoute (s.lsa id).dest).isSome then entry
    else some (installPath s.compatible entry (ospfAseCalculateNewRoute id (s.lsa id) asbr)
      (s.lsa id).asExternal.fwdAddr)

variable {s : AseState} {p : Dest}

theorem calculateRoute_apply (new : ExtTable) (id : LsaId) :
    s.ospfAseCalculateRoute new id p = if (s.lsa id).dest = p then s.offer (new p) id
    else new p := by
  rw [ospfAseCalculateRoute, offer]
  cases s.asbrRoute id with
  | none => exact (ite_self _).symm
  | some asbr =>
    dsimp only
    by_cases here : (s.lsa id).dest = p
    · split
      · rfl
      · rw [← here]
        exact Function.update_self ..
    · split
      · rfl
      · exact Function.update_of_ne (Ne.symm here) ..

theorem foldl_calculateRoute (ids : List LsaId) (new : ExtTable) :
    ids.foldl s.ospfAseCalculateRoute new p =
      (ids.filter fun id => (s.lsa id).dest = p).foldl s.offer (new p) := by
  induction ids generalizing new with
  | nil => rfl
  | cons id rest ih =>
    rw [foldl_cons, ih, calculateRoute_apply, filter_cons]
    by_cases here : (s.lsa id).dest = p
    · rw [if_pos here, if_pos (decide_eq_true here), foldl_cons]
    · rw [if_neg here, if_neg fun same => here (of_decide_eq_true same)]

/-- The route that an LSA describes. -/
def described (s : AseState) (id : LsaId) (asbr : OspfRoute) : ExtRoute :=
  ospfAseCalculateNewRoute id (s.lsa id) asbr

def fresh (s : AseState) (id : LsaId) (asbr : OspfRoute) : List OspfPath :=
  freshPath (s.lsa id).asExternal.fwdAddr asbr.path

theorem described_typed {id asbr} (usable : s.asbrRoute id = some asbr) :
    (s.described id asbr).Typed := by
  have finite : (s.lsa id).asExternal.metric < ospfLsInfinity := by
    obtain ⟨internal, -, route⟩ := Option.bind_eq_some_iff.mp usable
    rw [Internal.asbrRoute] at route
    split at route
    · cases route
    · exact Nat.lt_of_not_le ‹_›
  rw [ospfLsInfinity] at finite
  rw [described, ospfAseCalculateNewRoute]
  split
  · refine ⟨.inr rfl, ?_, fun type1 => nomatch type1⟩
    rw [toNat_ofNat]
    omega
  · exact ⟨.inl rfl, (by decide : (0 : BitVec 32).toNat < 2 ^ 24), fun _ => rfl⟩

theorem described_asbr (id : LsaId) (asbr : OspfRoute) : (s.described id asbr).asbr = asbr := by
  rw [described, ospfAseCalculateNewRoute]
  split
  · rfl
  · rfl

/-- An LSA of the database that describes a route to the destination. -/
structure Offers (s : AseState) (p : Dest) (id : LsaId) (asbr : OspfRoute) : Prop where
  stored : id ∈ s.lsdb
  dest : (s.lsa id).dest = p
  usable : s.asbrRoute id = some asbr

/-- The routes to one destination do not reach what makes the calculation depend on the order. -/
structure Orderly (s : AseState) (p : Dest) : Prop where
  /-- The routes to the ASBRs rank alike, where that counts. -/
  alike : ∀ {id id' asbr asbr'}, s.Offers p id asbr → s.Offers p id' asbr' →
    s.compatible = true ∨ asbr.asbrType = asbr'.asbrType
  /-- The difference of costs has the right sign. -/
  near : ∀ {id id' asbr asbr'}, s.Offers p id asbr → s.Offers p id' asbr' →
    (s.described id asbr).cost.toNat < (s.described id' asbr').cost.toNat + 2 ^ 31
  /-- Routes to ASBRs have next hops with an address. -/
  gateways : ∀ {id asbr}, s.Offers p id asbr → (s.lsa id).asExternal.fwdAddr = 0 →
    ∀ hop ∈ asbr.path, hop.nexthop ≠ 0
  /-- A next hop of routes that are equally good is on one interface. -/
  interfaces : ∀ {id id' asbr asbr'}, s.Offers p id asbr → s.Offers p id' asbr' →
    (s.described id asbr).rank = (s.described id' asbr').rank →
    ∀ hop ∈ s.fresh id asbr, ∀ hop' ∈ s.fresh id' asbr', hop.nexthop = hop'.nexthop →
      hop.oi = hop'.oi

/-- A candidate is an LSA with the route to its ASBR. -/
abbrev Candidate := LsaId × OspfRoute

/-- The entry after some of the candidates. -/
structure Entry (s : AseState) (seen : Candidate → Prop) (route : ExtRoute) : Prop where
  elected : Elected (fun candidate : Candidate => (s.described candidate.1 candidate.2).rank)
    (fun candidate hop => hop ∈ s.fresh candidate.1 candidate.2) seen route.rank (· ∈ route.path)
  typed : route.Typed
  asbr : ∃ candidate, seen candidate ∧ route.asbr = candidate.2

theorem Typed.congr (typed : r1.Typed) (types : r2.pathType = r1.pathType)
    (costs : r2.type2Cost = r1.type2Cost) :
    r2.Typed :=
  ⟨types ▸ typed.external, costs ▸ typed.small,
    fun type1 => costs.trans (typed.type1 (types ▸ type1))⟩

variable {seen : Candidate → Prop} {id : LsaId} {asbr : OspfRoute}

theorem Entry.first (usable : s.asbrRoute id = some asbr) :
    s.Entry (· = (id, asbr))
    (installPath s.compatible none (s.described id asbr) (s.lsa id).asExternal.fwdAddr) := by
  refine ⟨?_, Typed.congr (described_typed usable) rfl rfl, (id, asbr), rfl, described_asbr id asbr⟩
  have share :
      (installPath s.compatible none (s.described id asbr) (s.lsa id).asExternal.fwdAddr).path =
      s.fresh id asbr := by
    rw [installPath, described_asbr]
    rfl
  rw [share]
  exact Elected.first (id, asbr)

theorem Entry.next {route} (entry : s.Entry seen route) (orderly : s.Orderly p)
    (offered : ∀ candidate, seen candidate → s.Offers p candidate.1 candidate.2)
    (offers : s.Offers p id asbr) :
    s.Entry (fun candidate => seen candidate ∨ candidate = (id, asbr))
      (installPath s.compatible (some route) (s.described id asbr)
        (s.lsa id).asExternal.fwdAddr) := by
  obtain ⟨shown, shownSeen, shownAsbr⟩ := entry.asbr
  obtain ⟨winner, winnerSeen, winnerRank⟩ := entry.elected.reached
  have winnerCost := (rank_eq winnerRank).2.2
  have alike : ospfAsbrRouteCmp s.compatible (s.described id asbr).asbr route.asbr = 0 := by
    rw [described_asbr, shownAsbr, ospfAsbrRouteCmp]
    rcases orderly.alike offers (offered shown shownSeen) with compatible | same
    · exact if_pos compatible
    · rw [same, Int.sub_self]
      exact ite_self 0
  obtain ⟨better, worse⟩ := ospfRouteCmp_rank (described_typed offers.usable) entry.typed alike
    (winnerCost ▸ orderly.near offers (offered winner winnerSeen))
      (winnerCost ▸ orderly.near (offered winner winnerSeen) offers)
  have asbrSeen : ∃ candidate, (seen candidate ∨ candidate = (id, asbr)) ∧
      (s.described id asbr).asbr = candidate.2 :=
    ⟨(id, asbr), .inr rfl, described_asbr id asbr⟩
  rw [installPath]
  by_cases less : ospfRouteCmp s.compatible (s.described id asbr) route < 0
  · rw [if_pos less]
    refine ⟨?_, Typed.congr (described_typed offers.usable) rfl rfl, asbrSeen⟩
    rw [described_asbr]
    exact entry.elected.better (id, asbr) (better.mp less)
  · rw [if_neg less]
    by_cases more : 0 < ospfRouteCmp s.compatible (s.described id asbr) route
    · rw [if_pos more]
      exact ⟨entry.elected.worse (id, asbr) (worse.mp more),
        Typed.congr entry.typed rfl rfl, asbrSeen⟩
    · rw [if_neg more]
      have same : (s.described id asbr).rank = route.rank := by
        omega
      -- a path of the entry comes from an LSA that is equally good
      have source (hop : OspfPath) (member : hop ∈ route.path) : ∃ candidate, seen candidate ∧
          (s.described candidate.1 candidate.2).rank = (s.described id asbr).rank ∧
            hop ∈ s.fresh candidate.1 candidate.2 := by
        obtain ⟨candidate, before, rank, brings⟩ := (entry.elected.pooled hop).mp member
        exact ⟨candidate, before, rank.trans same.symm, brings⟩
      have complete (hop : OspfPath) (member : hop ∈ route.path) : hop.nexthop ≠ 0 := by
        obtain ⟨candidate, before, -, brings⟩ := source hop member
        exact freshPath_ne (orderly.gateways (offered candidate before)) hop brings
      have agree (hop : OspfPath) (member : hop ∈ route.path) (new : OspfPath)
          (brought : new ∈ s.fresh id asbr)
          (nexthop : hop.nexthop = new.nexthop) : hop = new := by
        obtain ⟨candidate, before, rank, brings⟩ := source hop member
        have oi :=
          orderly.interfaces (offered candidate before) offers rank hop brings new brought nexthop
        exact congr (congrArg OspfPath.mk nexthop) oi
      refine ⟨?_, Typed.congr entry.typed rfl rfl, asbrSeen⟩
      rw [described_asbr]
      exact entry.elected.equal (id, asbr) same (mem_merged complete agree)

/-- The candidates of a list of LSAs. -/
def candidates (s : AseState) (ids : List LsaId) (candidate : Candidate) : Prop :=
  candidate.1 ∈ ids ∧ s.asbrRoute candidate.1 = some candidate.2

/-- The entry after a list of LSAs. -/
def Outcome (s : AseState) (ids : List LsaId) : Option ExtRoute → Prop
  | none => ∀ candidate, ¬s.candidates ids candidate
  | some route => s.Entry (s.candidates ids) route

theorem candidates_useless {front} (useless : s.asbrRoute id = none) :
    s.candidates (front ++ [id]) = s.candidates front := by
  refine funext fun candidate =>
    propext ⟨fun both => ⟨?_, both.2⟩, fun both => ⟨mem_append_left _ both.1, both.2⟩⟩
  refine (mem_append.mp both.1).resolve_right fun last => ?_
  have usable := both.2
  rw [mem_singleton.mp last, useless] at usable
  cases usable

theorem candidates_usable {front} (usable : s.asbrRoute id = some asbr) :
    s.candidates (front ++ [id]) = fun candidate => s.candidates front candidate ∨
    candidate = (id, asbr) := by
  funext candidate
  refine propext ⟨?_, ?_⟩
  · rintro ⟨member, route⟩
    rcases mem_append.mp member with before | last
    · exact .inl ⟨before, route⟩
    · have same := mem_singleton.mp last
      rw [same, usable] at route
      exact .inr (Prod.ext same (Option.some.inj route).symm)
  · rintro (⟨before, route⟩ | rfl)
    · exact ⟨mem_append_left _ before, route⟩
    · exact ⟨mem_append_cons_self, usable⟩

theorem foldl_offer (orderly : s.Orderly p) (free : (s.internalRoute p).isSome = false) {ids}
    (here : ∀ id ∈ ids, id ∈ s.lsdb ∧ (s.lsa id).dest = p) :
    s.Outcome ids (ids.foldl s.offer none) := by
  induction ids using reverseRecOn with
  | nil => exact nofun
  | append_singleton front id ih =>
    have inFront (other : LsaId) (member : other ∈ front) := here other (mem_append_left _ member)
    obtain ⟨stored, dest⟩ := here id mem_append_cons_self
    have before := ih inFront
    rw [foldl_append, foldl_cons, foldl_nil, offer]
    cases usable : s.asbrRoute id with
    | none =>
      rw [Outcome.eq_def, candidates_useless usable]
      exact before
    | some asbr =>
      dsimp only
      rw [dest, free, if_neg nofun, Outcome, candidates_usable usable]
      cases entry : front.foldl s.offer none with
      | none =>
        rw [entry] at before
        have only : (fun candidate => s.candidates front candidate ∨ candidate = (id, asbr)) =
            (· = (id, asbr)) :=
          funext fun candidate => propext (or_iff_right (before candidate))
        rw [only]
        exact Entry.first usable
      | some route =>
        rw [entry] at before
        refine Entry.next before orderly (fun candidate seen => ?_) ⟨stored, dest, usable⟩
        exact ⟨(inFront _ seen.1).1, (inFront _ seen.1).2, seen.2⟩

/-- Two entries with the same path type, costs and next hops. -/
def SameRoute : Option ExtRoute → Option ExtRoute → Prop
  | none, none => True
  | some r1, some r2 => r1.pathType = r2.pathType ∧ r1.type2Cost = r2.type2Cost ∧
    r1.cost = r2.cost ∧ ∀ hop, hop ∈ r1.path ↔ hop ∈ r2.path
  | _, _ => False

theorem Outcome.same {ids ids' entry entry'} (first : s.Outcome ids entry)
    (second : s.Outcome ids' entry')
    (alike : ∀ id, id ∈ ids ↔ id ∈ ids') : SameRoute entry entry' := by
  have candidates (candidate : Candidate) :
      s.candidates ids candidate ↔ s.candidates ids' candidate :=
    and_congr_left fun _ => alike candidate.1
  cases entry with
  | none =>
    cases entry' with
    | none => trivial
    | some route =>
      obtain ⟨candidate, seen, -⟩ := second.elected.reached
      exact absurd ((candidates candidate).mpr seen) (first candidate)
  | some route =>
    cases entry' with
    | none =>
      obtain ⟨candidate, seen, -⟩ := first.elected.reached
      exact absurd ((candidates candidate).mp seen) (second candidate)
    | some route' =>
      obtain ⟨rank, hops⟩ := first.elected.unique second.elected candidates
      obtain ⟨type, type2Cost, cost⟩ := rank_eq rank
      exact ⟨type, type2Cost, cost, hops⟩

theorem Outcome.complete (orderly : s.Orderly p) {ids}
    (here : ∀ id ∈ ids, id ∈ s.lsdb ∧ (s.lsa id).dest = p)
    {route} (outcome : s.Outcome ids (some route)) : ∀ hop ∈ route.path, hop.nexthop ≠ 0 := by
  intro hop member
  obtain ⟨candidate, ⟨listed, usable⟩, -, brings⟩ := (outcome.elected.pooled hop).mp member
  obtain ⟨stored, dest⟩ := here candidate.1 listed
  exact freshPath_ne (orderly.gateways ⟨stored, dest, usable⟩) hop brings

end AseState
end Zebra.Ospfd
