import Zebra.Base.Position
import Zebra.Ospfd.AseRuns

namespace Zebra.Ospfd
open Base List ExtRoute
section Order
variable {compatible : Bool} {r r1 r2 : ExtRoute}

theorem eq_of_sub_nonneg {first second : BitVec 32} (forth : 0 ≤ (first - second).toInt)
    (back : 0 ≤ (second - first).toInt) : first = second := by
  rw [BitVec.toInt_eq_toNat_cond, BitVec.toNat_sub] at forth back
  refine BitVec.eq_of_toNat_eq ?_
  split at forth <;> split at back <;> omega

/-- Routes that a comparison does not tell apart. -/
structure Alike (compatible : Bool) (r1 r2 : ExtRoute) : Prop where
  pathType : r1.pathType = r2.pathType
  type2Cost : r1.type2Cost = r2.type2Cost
  asbr : ∀ route : OspfRoute, ospfAsbrRouteCmp compatible route r1.asbr =
    ospfAsbrRouteCmp compatible route r2.asbr
  cost : r1.cost = r2.cost

theorem ospfAsbrRouteCmp_alike {a1 a2} (forth : 0 ≤ ospfAsbrRouteCmp compatible a1 a2)
    (back : 0 ≤ ospfAsbrRouteCmp compatible a2 a1) :
    ospfAsbrRouteCmp compatible a1 a2 = 0 ∧ ∀ route,
      ospfAsbrRouteCmp compatible route a1 = ospfAsbrRouteCmp compatible route a2 := by
  simp only [ospfAsbrRouteCmp] at *
  cases compatible with
  | true => exact ⟨rfl, fun _ => rfl⟩
  | false =>
    simp only [Bool.false_eq_true, if_false] at *
    exact ⟨by omega, fun route => by omega⟩

theorem alike_of_cmp (t1 : r1.Typed) (t2 : r2.Typed) (forth : 0 ≤ ospfRouteCmp compatible r1 r2)
    (back : 0 ≤ ospfRouteCmp compatible r2 r1) :
    Alike compatible r1 r2 := by
  rw [ospfRouteCmp] at forth back
  by_cases types : r1.pathType = r2.pathType
  · rw [if_neg (not_not_intro types)] at forth
    rw [if_neg (not_not_intro types.symm)] at back
    by_cases costs : r1.type2Cost = r2.type2Cost
    · rw [if_neg fun both => both.2 costs] at forth
      rw [if_neg fun both => both.2 costs.symm] at back
      have asbrs : 0 ≤ ospfAsbrRouteCmp compatible r1.asbr r2.asbr ∧
          0 ≤ ospfAsbrRouteCmp compatible r2.asbr r1.asbr := by
        constructor
        · by_cases differ : ospfAsbrRouteCmp compatible r1.asbr r2.asbr = 0
          · exact differ.ge
          · rwa [if_pos differ] at forth
        · by_cases differ : ospfAsbrRouteCmp compatible r2.asbr r1.asbr = 0
          · exact differ.ge
          · rwa [if_pos differ] at back
      obtain ⟨same, alike⟩ := ospfAsbrRouteCmp_alike asbrs.1 asbrs.2
      have same' := (ospfAsbrRouteCmp_alike asbrs.2 asbrs.1).1
      rw [if_neg (not_not_intro same)] at forth
      rw [if_neg (not_not_intro same')] at back
      exact ⟨types, costs, alike, eq_of_sub_nonneg forth back⟩
    · have second : r1.pathType = .type2External := by
        rcases t1.external with first | second
        · exact absurd ((t1.type1 first).trans (t2.type1 (types ▸ first)).symm) costs
        · exact second
      rw [if_pos ⟨second, costs⟩] at forth
      rw [if_pos ⟨types ▸ second, Ne.symm costs⟩] at back
      exact absurd (eq_of_sub_nonneg forth back) costs
  · rw [if_pos types] at forth
    rw [if_pos (Ne.symm types)] at back
    exact absurd (code_injective (by omega)) types

theorem ospfRouteCmp_alike (alike : Alike compatible r1 r2) :
    ospfRouteCmp compatible r r1 = ospfRouteCmp compatible r r2 := by
  rw [ospfRouteCmp, ospfRouteCmp, alike.pathType, alike.type2Cost, alike.asbr, alike.cost]

theorem ospfRouteCmp_self (r : ExtRoute) : ospfRouteCmp compatible r r = 0 := by
  have none_ : ospfAsbrRouteCmp compatible r.asbr r.asbr = 0 := by
    rw [ospfAsbrRouteCmp]
    split
    · rfl
    · exact Int.sub_self _
  rw [ospfRouteCmp, if_neg (not_not_intro rfl), if_neg fun both => both.2 rfl,
    if_neg (not_not_intro none_), BitVec.sub_self]
  rfl

end Order

/-- A directly attached next hop gets the forwarding address. -/
def OspfPath.complete (fwdAddr : InAddr) (op : OspfPath) : OspfPath :=
  if fwdAddr ≠ 0 ∧ op.nexthop = 0 then { op with nexthop := fwdAddr } else op

/-- The next hops after those of a route are added to others: an address that is there is not added
again, and every one is completed. -/
def Merged (fwdAddr : InAddr) (there : OspfPath → Prop) (source : List OspfPath)
    (hop : OspfPath) : Prop :=
  ∃ op, (there op ∨ (∀ old, there old → old.nexthop ≠ op.nexthop) ∧
    source.find? (fun other => other.nexthop = op.nexthop) = some op) ∧
    hop = op.complete fwdAddr

theorem mem_complete {fwdAddr paths hop} :
    hop ∈ completeDirectRoutes fwdAddr paths ↔ ∃ op ∈ paths, hop = op.complete fwdAddr := by
  rw [completeDirectRoutes]
  by_cases zero : fwdAddr = 0
  · rw [if_pos zero]
    have same (op : OspfPath) : op.complete fwdAddr = op := if_neg fun both => both.1 zero
    constructor
    · intro member
      exact ⟨hop, member, (same hop).symm⟩
    · rintro ⟨op, member, rfl⟩
      rwa [same]
  · rw [if_neg zero, mem_map]
    have same (op : OspfPath) :
        (if op.nexthop = 0 then { op with nexthop := fwdAddr } else op) = op.complete fwdAddr := by
      by_cases direct : op.nexthop = 0
      · exact (if_pos direct).trans (if_pos ⟨zero, direct⟩).symm
      · exact (if_neg direct).trans (if_neg fun both => direct both.2).symm
    constructor
    · rintro ⟨op, member, rfl⟩
      exact ⟨op, member, same op⟩
    · rintro ⟨op, member, rfl⟩
      exact ⟨op, member, same op⟩

theorem mem_merge {fwdAddr paths source hop} :
    hop ∈ completeDirectRoutes fwdAddr (ospfRouteCopyNexthops paths source) ↔
    Merged fwdAddr (· ∈ paths) source hop := by
  rw [mem_complete]
  exact exists_congr fun op => and_congr_left fun _ => mem_copyNexthops

theorem Merged.congr {fwdAddr there there' source} (same : ∀ hop, there hop ↔ there' hop)
    (hop : OspfPath) : Merged fwdAddr there source hop ↔ Merged fwdAddr there' source hop := by
  rw [funext fun hop => propext (same hop)]

namespace AseState
variable (s : AseState)

/-- How the route of an LSA compares with that of another, each with its own route to the ASBR. -/
def own (first second : Candidate) : Int :=
  ospfRouteCmp s.compatible (s.described first.1 first.2) (s.described second.1 second.2)

/-- How it compares when the other has the route to the ASBR of the LSA that was visited last. -/
def beside (first second last : Candidate) : Int :=
  ospfRouteCmp s.compatible (s.described first.1 first.2)
    { s.described second.1 second.2 with asbr := last.2 }

def fwdAddr (candidate : Candidate) : InAddr := (s.lsa candidate.1).asExternal.fwdAddr

/-- The next hops of an LSA. -/
def hops (candidate : Candidate) : List OspfPath :=
  completeDirectRoutes (s.fwdAddr candidate) candidate.2.path

/-- No LSA is preferred to this one. -/
structure Winner (cs : List Candidate) (best : Candidate) : Prop where
  member : best ∈ cs
  least : ∀ candidate ∈ cs, 0 ≤ s.own candidate best

/-- The next hops of the LSAs that are tied with this one. -/
def Pooled (cs : List Candidate) (best : Candidate) (hop : OspfPath) : Prop :=
  ∃ candidate ∈ cs, s.own candidate best = 0 ∧ hop ∈ s.hops candidate

/-- The route of an LSA that none is preferred to, with the next hops of exactly those that are tied
  with it. -/
def Chosen (cs : List Candidate) (entry : Option ExtRoute) : Prop :=
  ∃ route best, entry = some route ∧ s.Winner cs best ∧
    { route with asbr := best.2, path := [] } = s.described best.1 best.2 ∧
    ∀ hop, hop ∈ route.path ↔ s.Pooled cs best hop

/-- LSAs for one destination that are usable. -/
structure Listed (p : Dest) (cs : List Candidate) : Prop where
  usable : ∀ candidate ∈ cs, s.asbrRoute candidate.1 = some candidate.2
  dest : ∀ candidate ∈ cs, (s.lsa candidate.1).dest = p
  free : s.internalRoute p = none

/-- The next LSA is compared rightly with the best before it, and the next hops come out as those
  that are tied. -/
structure StepRight (front : List Candidate) (last next best : Candidate) : Prop where
  better : s.beside next best last < 0 → (∀ candidate ∈ front, 0 ≤ s.own candidate next) ∧
    ∀ hop, Merged (s.fwdAddr next) (fun _ => False) next.2.path hop ↔
      s.Pooled (front ++ [next]) next hop
  equal : s.beside next best last = 0 → 0 ≤ s.own next best ∧
    ∀ hop, Merged (s.fwdAddr next) (s.Pooled front best) next.2.path hop ↔
      s.Pooled (front ++ [next]) best hop
  worse : 0 < s.beside next best last → 0 ≤ s.own next best ∧ ∀ hop, s.Pooled front best hop ↔
    s.Pooled (front ++ [next]) best hop

/-- All LSAs of a list, one after the other. -/
def AllRight (cs : List Candidate) : Prop :=
  ∀ front next back, cs = front ++ next :: back →
    match front.getLast? with
    | none => ∀ hop, Merged (s.fwdAddr next) (fun _ => False) next.2.path hop ↔ hop ∈ s.hops next
    | some last => ∀ best, s.Winner front best → s.StepRight front last next best

variable {s} {p : Dest} {cs front : List Candidate} {best next last : Candidate}
variable (candidate : Candidate)

theorem described_path : (s.described candidate.1 candidate.2).path = [] := by
  rw [described, ospfAseCalculateNewRoute]
  split <;> rfl

theorem described_origin : (s.described candidate.1 candidate.2).origin = candidate.1 := by
  rw [described, ospfAseCalculateNewRoute]
  split <;> rfl

theorem own_self : s.own candidate candidate = 0 := ospfRouteCmp_self _

section
variable (listed : s.Listed p front) {other : Candidate} (first : s.Winner front best)
  (second : s.Winner front other)
include listed first second

theorem Winner.alike : Alike s.compatible (s.described best.1 best.2)
    (s.described other.1 other.2) :=
  alike_of_cmp (described_typed (listed.usable best first.member))
    (described_typed (listed.usable other second.member))
    (second.least best first.member) (first.least other second.member)

theorem StepRight.congr (right : s.StepRight front last next other) :
    s.StepRight front last next best := by
  have alike := first.alike listed second
  have own (candidate : Candidate) : s.own candidate best = s.own candidate other :=
    ospfRouteCmp_alike alike
  have beside : s.beside next best last = s.beside next other last := by
    refine ospfRouteCmp_alike ⟨alike.pathType, alike.type2Cost, fun _ => rfl, alike.cost⟩
  have pooled (cs : List Candidate) : s.Pooled cs best = s.Pooled cs other := by
    funext hop
    simp only [Pooled, own]
  constructor
  · rw [beside]
    exact right.better
  · rw [beside, own, pooled, pooled]
    exact right.equal
  · rw [beside, own, pooled, pooled]
    exact right.worse

end

/-- An entry with the route of a listed LSA is the chosen one where no LSA is preferred to that. -/
theorem chosen_iff (listed : s.Listed p cs) {route} (member : best ∈ cs)
    (core : { route with asbr := best.2, path := [] } = s.described best.1 best.2) :
    s.Chosen cs (some route) ↔ (∀ candidate ∈ cs, 0 ≤ s.own candidate best) ∧
    ∀ hop, hop ∈ route.path ↔ s.Pooled cs best hop := by
  constructor
  · rintro ⟨_, other, ⟨⟩, winner, core', hops⟩
    have origin : best.1 = other.1 := by
      rw [← described_origin (s := s) best, ← core, ← described_origin (s := s) other, ← core']
    have asbr : best.2 = other.2 := by
      have first := listed.usable best member
      have second := listed.usable other winner.member
      rw [origin] at first
      exact Option.some.inj (first.symm.trans second)
    obtain rfl : best = other := Prod.ext origin asbr
    exact ⟨winner.least, hops⟩
  · rintro ⟨least, hops⟩
    exact ⟨route, best, rfl, ⟨member, least⟩, core, hops⟩

theorem forall_snoc {Good : Candidate → Prop} : (∀ candidate ∈ front ++ [next], Good candidate) ↔
    (∀ candidate ∈ front, Good candidate) ∧ Good next := by
  rw [forall_mem_append, forall_mem_singleton]

theorem with_path {route : ExtRoute} {asbr} (is : route.asbr = asbr) (empty : route.path = [])
    (path : List OspfPath) :
    { { route with path := path } with asbr := asbr, path := [] } = route := by
  obtain ⟨id, mask, pathType, cost, type2Cost, origin, tag, own, paths⟩ := route
  obtain rfl : own = asbr := is
  obtain rfl : paths = [] := empty
  rfl

theorem fresh_merged (next : Candidate) (hop : OspfPath) :
    hop ∈ completeDirectRoutes (s.fwdAddr next)
    (ospfRouteCopyNexthops [] (s.described next.1 next.2).asbr.path) ↔
      Merged (s.fwdAddr next) (fun _ => False) next.2.path hop := by
  rw [described_asbr]
  exact mem_merge.trans (Merged.congr (fun _ => ⟨fun none_ => (nomatch none_), False.elim⟩) hop)

section
variable (listed : s.Listed p (front ++ [next]))
include listed

theorem step_chosen {route : ExtRoute} (chosen : s.Chosen front (some route))
    (asbr : route.asbr = last.2) :
    s.Chosen (front ++ [next])
    (some (installPath s.compatible (some route) (s.described next.1 next.2) (s.fwdAddr next))) ↔
      ∀ best, s.Winner front best → s.StepRight front last next best := by
  obtain ⟨_, best, ⟨⟩, winner, core, hops⟩ := chosen
  have inFront : s.Listed p front := by
    obtain ⟨usable, -⟩ := forall_snoc.mp listed.usable
    obtain ⟨dest, -⟩ := forall_snoc.mp listed.dest
    exact ⟨usable, dest, listed.free⟩
  have one : (∀ other, s.Winner front other → s.StepRight front last next other) ↔
      s.StepRight front last next best :=
    ⟨fun all => all best winner, fun right other first => right.congr inFront first winner⟩
  have ret : ospfRouteCmp s.compatible (s.described next.1 next.2) route =
      s.beside next best last := by
    have pathType := congrArg pathType core
    have type2Cost := congrArg type2Cost core
    have cost := congrArg cost core
    exact ospfRouteCmp_alike ⟨pathType, type2Cost, fun _ => by rw [asbr], cost⟩
  have here : next ∈ front ++ [next] := mem_append_right front (mem_singleton_self next)
  have there : best ∈ front ++ [next] := mem_append_left _ winner.member
  rw [one, installPath, ret]
  rcases lt_trichotomy (s.beside next best last) 0 with less | same | more
  · rw [if_pos less]
    have own := @with_path (s.described next.1 next.2) next.2 (described_asbr next.1 next.2)
      (described_path next)
      (completeDirectRoutes (s.fwdAddr next)
        (ospfRouteCopyNexthops [] (s.described next.1 next.2).asbr.path))
    refine (chosen_iff listed here own).trans ?_
    rw [forall_snoc, own_self]
    have fresh := fresh_merged (s := s) next
    constructor
    · rintro ⟨⟨least, -⟩, hops'⟩
      refine ⟨fun _ => ⟨least, fun hop => (fresh hop).symm.trans (hops' hop)⟩, fun zero => ?_,
        fun more => ?_⟩
      · omega
      · omega
    · intro right
      obtain ⟨least, hops'⟩ := right.better less
      exact ⟨⟨least, le_refl 0⟩, fun hop => (fresh hop).trans (hops' hop)⟩
  · rw [if_neg same.not_lt, if_neg same.not_gt]
    obtain ⟨entry, isEntry⟩ := @exists_eq _ { route with
      asbr := (s.described next.1 next.2).asbr
      path := completeDirectRoutes (s.fwdAddr next)
        (ospfRouteCopyNexthops route.path (s.described next.1 next.2).asbr.path) }
    have own : { entry with asbr := best.2, path := [] } = s.described best.1 best.2 := by
      rw [isEntry]
      exact core
    have paths : entry.path = completeDirectRoutes (s.fwdAddr next)
        (ospfRouteCopyNexthops route.path (s.described next.1 next.2).asbr.path) := by
      rw [isEntry]
    rw [← isEntry, chosen_iff listed there own, paths]
    rw [forall_snoc]
    have merged (hop : OspfPath) :
        hop ∈ completeDirectRoutes (s.fwdAddr next)
          (ospfRouteCopyNexthops route.path (s.described next.1 next.2).asbr.path) ↔
          Merged (s.fwdAddr next) (s.Pooled front best) next.2.path hop := by
      rw [described_asbr]
      exact mem_merge.trans (Merged.congr hops hop)
    constructor
    · rintro ⟨⟨-, least⟩, hops'⟩
      refine ⟨fun less => ?_, fun _ => ⟨least, fun hop => (merged hop).symm.trans (hops' hop)⟩,
        fun more => ?_⟩
      · omega
      · omega
    · intro right
      obtain ⟨least, hops'⟩ := right.equal same
      exact ⟨⟨winner.least, least⟩, fun hop => (merged hop).trans (hops' hop)⟩
  · rw [if_neg more.not_gt, if_pos more]
    obtain ⟨entry, isEntry⟩ := @exists_eq _ { route with asbr := (s.described next.1 next.2).asbr }
    have own : { entry with asbr := best.2, path := [] } = s.described best.1 best.2 := by
      rw [isEntry]
      exact core
    have paths : entry.path = route.path := by rw [isEntry]
    rw [← isEntry, chosen_iff listed there own, paths]
    rw [forall_snoc]
    constructor
    · rintro ⟨⟨-, least⟩, hops'⟩
      refine ⟨fun less => ?_, fun zero => ?_, fun _ =>
        ⟨least, fun hop => (hops hop).symm.trans (hops' hop)⟩⟩
      · omega
      · omega
    · intro right
      obtain ⟨least, hops'⟩ := right.worse more
      exact ⟨⟨winner.least, least⟩, fun hop => (hops hop).trans (hops' hop)⟩

/-- The entry of the destination after these LSAs. -/
def entryAfter (s : AseState) (p : Dest) (cs : List Candidate) : Option ExtRoute :=
  (cs.map Prod.fst).foldl s.ospfAseCalculateRoute (fun _ => none) p

theorem entryAfter_snoc : s.entryAfter p (front ++ [next]) =
    some (installPath s.compatible (s.entryAfter p front) (s.described next.1 next.2)
      (s.fwdAddr next)) := by
  have usable := listed.usable next (mem_append_right front (mem_singleton_self next))
  have dest := listed.dest next (mem_append_right front (mem_singleton_self next))
  rw [entryAfter, map_append, foldl_append, map_singleton, foldl_cons, foldl_nil,
    calculateRoute_apply, if_pos dest, offer, usable]
  rw [dest, listed.free]
  rfl

/-- The entry always has the route to the ASBR of the LSA that was visited last. -/
theorem entryAfter_asbr : ∃ route, s.entryAfter p (front ++ [next]) = some route ∧
    route.asbr = next.2 := by
  refine ⟨_, entryAfter_snoc listed, ?_⟩
  have own := @described_asbr s next.1 next.2
  cases s.entryAfter p front with
  | none => exact own
  | some route =>
    rw [installPath]
    split
    · exact own
    · split
      · exact own
      · exact own

end

theorem allRight_snoc : s.AllRight (front ++ [next]) ↔ s.AllRight front ∧ match front.getLast? with
    | none => ∀ hop, Merged (s.fwdAddr next) (fun _ => False) next.2.path hop ↔ hop ∈ s.hops next
    | some last => ∀ best, s.Winner front best → s.StepRight front last next best :=
  forall_split_concat

theorem first_chosen (listed : s.Listed p [next]) : s.Chosen [next] (s.entryAfter p [next]) ↔
    ∀ hop, Merged (s.fwdAddr next) (fun _ => False) next.2.path hop ↔ hop ∈ s.hops next := by
  have entry := @entryAfter_snoc s p [] next listed
  rw [nil_append] at entry
  have own := @with_path (s.described next.1 next.2) next.2 (described_asbr next.1 next.2)
    (described_path next)
    (completeDirectRoutes (s.fwdAddr next)
      (ospfRouteCopyNexthops [] (s.described next.1 next.2).asbr.path))
  rw [entry]
  refine (chosen_iff listed (mem_singleton_self next) own).trans ?_
  have fresh := fresh_merged (s := s) next
  have pooled (hop : OspfPath) : s.Pooled [next] next hop ↔ hop ∈ s.hops next := by
    constructor
    · rintro ⟨candidate, member, -, brings⟩
      rwa [mem_singleton.mp member] at brings
    · intro brings
      exact ⟨next, mem_singleton_self next, own_self next, brings⟩
  rw [forall_mem_singleton, own_self]
  constructor
  · rintro ⟨-, hops⟩ hop
    rw [← pooled, ← hops]
    exact (fresh hop).symm
  · intro hops
    exact ⟨le_refl 0, fun hop => (fresh hop).trans ((hops hop).trans (pooled hop).symm)⟩

/-- The entry is the chosen one after each LSA of a list exactly where each is compared rightly. -/
theorem chosen_along_iff (listed : s.Listed p cs) :
    (∀ front, front <+: cs → front ≠ [] → s.Chosen front (s.entryAfter p front)) ↔
      s.AllRight cs := by
  induction cs using reverseRecOn with
  | nil =>
    constructor
    · rintro - start other back split
      cases start <;> cases split
    · intro _ front short some_
      exact absurd (prefix_nil.mp short) some_
  | append_singleton front next ih =>
    have inFront : s.Listed p front :=
      ⟨(forall_snoc.mp listed.usable).1, (forall_snoc.mp listed.dest).1, listed.free⟩
    have whole :
        (∀ start, start <+: front ++ [next] → start ≠ [] → s.Chosen start (s.entryAfter p start)) ↔
        (∀ start, start <+: front → start ≠ [] → s.Chosen start (s.entryAfter p start)) ∧
          s.Chosen (front ++ [next]) (s.entryAfter p (front ++ [next])) := by
      constructor
      · intro all
        refine ⟨fun start short => all start (short.trans (prefix_append front [next])), ?_⟩
        exact all (front ++ [next]) prefix_rfl
          (append_ne_nil_of_right_ne_nil _ (cons_ne_nil next []))
      · rintro ⟨all, last⟩ start short some_
        obtain rfl | shorter := prefix_concat_iff.mp short
        · exact last
        · exact all start shorter some_
    rw [whole, allRight_snoc, ih inFront]
    obtain rfl | ⟨start, last, rfl⟩ := front.eq_nil_or_concat'
    · exact and_congr_right fun _ => first_chosen listed
    · refine and_congr_right fun right => ?_
      have chosen := (ih inFront).mpr right (start ++ [last]) prefix_rfl
        (append_ne_nil_of_right_ne_nil _ (cons_ne_nil last []))
      obtain ⟨route, entry, asbr⟩ := entryAfter_asbr inFront
      rw [entry] at chosen
      rw [entryAfter_snoc listed, entry, getLast?_append]
      exact step_chosen listed chosen asbr

/-- After each LSA of a list the table has the route of one that none before is preferred to, with
the next hops of exactly those that are tied with it, if and only if each LSA is compared rightly
with the best before it. -/
theorem external_preferred (s : AseState) (p : Dest) (cs : List Candidate)
    (listed : s.Listed p cs) :
    (∀ front, front <+: cs → front ≠ [] → s.Chosen front (s.entryAfter p front)) ↔ s.AllRight cs :=
  chosen_along_iff listed

/-- The routers 1, 2 and 3 with an LSA each. -/
def threeLsas : AseState where
  lsa id := tenLsa (BitVec.ofNat 32 (id + 1))
  internal := some threeRouters

/-- Router 3 is first, which is the best, then 1 and 2. -/
def bestFirst : List Candidate :=
  [(2, intraRoute),
    (0, { pathType := .interArea, cost := 20, asbr := true, path := [⟨0xc0000201, some 1⟩] }),
    (1, { pathType := .interArea, cost := 5, asbr := true, path := [⟨0xc0000202, some 1⟩] })]

theorem bestFirst_listed : threeLsas.Listed tenDest bestFirst := by
  refine ⟨?_, ?_, rfl⟩
  · decide +kernel
  · decide +kernel

theorem external_preferred_sampled :
    (∀ front, front <+: bestFirst → front ≠ [] →
      threeLsas.Chosen front (threeLsas.entryAfter tenDest front)) ↔ threeLsas.AllRight bestFirst :=
  external_preferred threeLsas tenDest bestFirst bestFirst_listed

/-- The last LSA replaces a better one, since it is compared with the route to the ASBR of the one
  between. -/
theorem external_not_preferred : threeLsas.Listed tenDest bestFirst ∧
    ¬ threeLsas.Chosen bestFirst (threeLsas.entryAfter tenDest bestFirst) := by
  refine ⟨bestFirst_listed, ?_⟩
  rintro ⟨route, best, entry, winner, core, -⟩
  have last : (threeLsas.entryAfter tenDest bestFirst).map origin = some 1 := by decide +kernel
  rw [entry] at last
  have origin : best.1 = 1 := by
    rw [← described_origin (s := threeLsas) best, ← core]
    exact Option.some.inj last
  have two : best =
      (1, { pathType := .interArea, cost := 5, asbr := true, path := [⟨0xc0000202, some 1⟩] }) := by
    have member := winner.member
    simp only [bestFirst, mem_cons, not_mem_nil, or_false] at member
    obtain rfl | rfl | rfl := member
    · cases origin
    · cases origin
    · rfl
  have least := winner.least (2, intraRoute) (by decide)
  rw [two] at least
  exact absurd least (by decide +kernel)

end AseState
end Zebra.Ospfd
