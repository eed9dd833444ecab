import Zebra.Ospfd.SpfGraph

namespace Zebra.Ospfd
open Base List Vertex Prod Option Function AList Spf Nat

/-- What the search needs to know of a vertex. -/
def Vertex.spot (v : Vertex) : OspfLsa × BitVec 32 := (v.lsa, v.distance)

def Sorted (candidate : List Vertex) : Prop :=
  candidate.Pairwise fun first second => first.distance.toNat ≤ second.distance.toNat

variable {candidate first second : List Vertex}

theorem mem_ospfInstallCandidate {w v} : v ∈ ospfInstallCandidate w candidate ↔
    v = w ∨ v ∈ candidate := by
  induction candidate with
  | nil => rw [ospfInstallCandidate, mem_singleton, or_iff_left not_mem_nil]
  | cons cw rest ih =>
    rw [ospfInstallCandidate]
    split
    · exact mem_cons
    · rw [mem_cons, ih, mem_cons]
      exact or_left_comm

theorem Sorted.install {w} (sorted : Sorted candidate) :
    Sorted (ospfInstallCandidate w candidate) := by
  induction candidate with
  | nil => exact pairwise_singleton ..
  | cons cw rest ih =>
    obtain ⟨first, later⟩ := pairwise_cons.mp sorted
    rw [ospfInstallCandidate]
    split
    · rename_i before
      have short : w.distance.toNat < cw.distance.toNat := before
      refine pairwise_cons.mpr ⟨fun v member => ?_, sorted⟩
      rcases mem_cons.mp member with rfl | member
      · exact le_of_lt short
      · exact le_trans (le_of_lt short) (first v member)
    · rename_i behind
      refine pairwise_cons.mpr ⟨fun v member => ?_, ih later⟩
      rcases mem_ospfInstallCandidate.mp member with rfl | member
      · exact Nat.le_of_not_lt behind
      · exact first v member

theorem nodup_install {w} (nodup : (candidate.map key).Nodup)
    (new : ∀ v ∈ candidate, v.key ≠ w.key) :
    ((ospfInstallCandidate w candidate).map key).Nodup := by
  induction candidate with
  | nil => exact nodup_singleton _
  | cons cw rest ih =>
    obtain ⟨apart, unique⟩ := nodup_cons.mp nodup
    rw [ospfInstallCandidate]
    split
    · refine nodup_cons.mpr ⟨fun member => ?_, nodup⟩
      obtain ⟨v, inside, same⟩ := mem_map.mp member
      exact new v inside same
    · refine nodup_cons.mpr ⟨fun member => ?_, ih unique fun v inside => new v (.tail _ inside)⟩
      obtain ⟨v, inside, same⟩ := mem_map.mp member
      rcases mem_ospfInstallCandidate.mp inside with rfl | inside
      · exact new cw mem_cons_self same.symm
      · exact apart (mem_map.mpr ⟨v, inside, same⟩)

theorem mem_eraseP_key {candidate : List Vertex} (nodup : (candidate.map key).Nodup)
    {key : VertexKey} {v} :
    v ∈ candidate.eraseP (fun found => found.key = key) ↔ v ∈ candidate ∧ v.key ≠ key := by
  induction candidate with
  | nil => exact ⟨nofun, fun member => member.1⟩
  | cons cw rest ih =>
    obtain ⟨apart, unique⟩ := nodup_cons.mp nodup
    by_cases same : cw.key = key
    · rw [eraseP_cons, decide_eq_true same]
      constructor
      · intro member
        refine ⟨.tail _ member, fun equal => apart (mem_map.mpr ⟨v, member, equal.trans same.symm⟩)⟩
      · rintro ⟨member, different⟩
        exact (mem_cons.mp member).resolve_left fun equal => different (equal ▸ same)
    · rw [eraseP_cons, decide_eq_false same]
      rw [cond_false, mem_cons, ih unique, mem_cons]
      constructor
      · rintro (rfl | ⟨member, different⟩)
        · exact ⟨.inl rfl, same⟩
        · exact ⟨.inr member, different⟩
      · rintro ⟨rfl | member, different⟩
        · exact .inl rfl
        · exact .inr ⟨member, different⟩

theorem spot_mergeCandidate (w : Vertex) (candidate : List Vertex) :
    (mergeCandidate w candidate).map spot = candidate.map spot := by
  induction candidate with
  | nil => rfl
  | cons cw rest ih =>
    rw [mergeCandidate]
    split
    · rfl
    · rw [map_cons, map_cons, ih]

section
variable (same : first.map Vertex.spot = second.map Vertex.spot)
include same

theorem sorted_congr (sorted : Sorted second) : Sorted first := by
  have through (candidate : List Vertex) :
      Sorted candidate ↔ (candidate.map spot).Pairwise fun first second =>
        first.2.toNat ≤ second.2.toNat :=
    (@pairwise_map _ _ spot (fun first second => first.2.toNat ≤ second.2.toNat) candidate).symm
  rw [through] at sorted ⊢
  rw [same]
  exact sorted

theorem keys_congr : first.map key = second.map key := by
  have through (candidate : List Vertex) :
      candidate.map key = (candidate.map spot).map fun spot => spot.1.vertexKey := by
    rw [List.map_map]
    rfl
  rw [through, same, through]

theorem mem_congr {v} (member : v ∈ first) :
    ∃ u ∈ second, u.lsa = v.lsa ∧ u.distance = v.distance := by
  obtain ⟨u, inside, equal⟩ := mem_map.mp (same ▸ mem_map_of_mem member : v.spot ∈ second.map spot)
  exact ⟨u, inside, (mk.inj equal).1, (mk.inj equal).2⟩

end

namespace Spf

/-- The distance of what is registered. -/
def distanceOf (spf : Spf) (key : VertexKey) : Option Nat :=
  match key.type with
  | .router => (spf.rv.lookup key.id).map fun v => v.distance.toNat
  | .network => (spf.nv.lookup key.id).map fun v => v.distance.toNat
  | _ => none

/-- The distance of a candidate. -/
def nearOf (spf : Spf) (key : VertexKey) : Option Nat :=
  (spf.ospfVertexLookup key).map fun v => v.distance.toNat

variable {spf : Spf} {key : VertexKey}

theorem nearOf_eq_some (nodup : (spf.candidate.map Vertex.key).Nodup) {cost} :
    spf.nearOf key = some cost ↔ ∃ v ∈ spf.candidate, v.key = key ∧ v.distance.toNat = cost := by
  rw [nearOf, map_eq_some_iff]
  constructor
  · rintro ⟨v, found, distance⟩
    have named : decide (v.key = key) = true :=
      @find?_some _ (fun v : Vertex => decide (v.key = key)) _ _ found
    exact ⟨v, mem_of_find?_eq_some found, of_decide_eq_true named, distance⟩
  · rintro ⟨v, member, rfl, distance⟩
    exact ⟨v, find?_of_nodup_map nodup member, distance⟩

theorem nearOf_eq_none : spf.nearOf key = none ↔ ∀ v ∈ spf.candidate, v.key ≠ key := by
  rw [nearOf, ospfVertexLookup, map_eq_none_iff, find?_eq_none]
  exact forall₂_congr fun v _ => not_congr decide_eq_true_iff

theorem hasVertex_iff (proper : key.Proper) :
    spf.ospfSpfHasVertex key = true ↔ (spf.distanceOf key).isSome := by
  rw [ospfSpfHasVertex, table, distanceOf]
  rcases proper with type | type
  · rw [type, if_pos rfl, isSome_map]
  · rw [type, if_neg LsaType.noConfusion, isSome_map]

theorem distanceOf_register {v} (proper : v.key.Proper) :
    (spf.ospfSpfRegister v).distanceOf = update spf.distanceOf v.key (some v.distance.toNat) := by
  funext key
  by_cases same : key = v.key
  · subst same
    rw [update_self, ospfSpfRegister, distanceOf]
    rcases proper with type | type
    · rw [type, if_pos rfl]
      rw [lookup_insert]
      rfl
    · rw [type, if_neg LsaType.noConfusion]
      rw [lookup_insert]
      rfl
  · rw [update_of_ne same]
    have apart (type : key.type = v.key.type) : key.id ≠ v.key.id := fun id => same (by
      exact congrArg₂ VertexKey.mk type id)
    rw [ospfSpfRegister, distanceOf, distanceOf]
    rcases proper with router | network
    · rw [if_pos router]
      cases type : key.type with
      | router =>
        rw [lookup_insert_ne (apart (type.trans router.symm))]
      | _ => rfl
    · rw [if_neg (by rw [network]; exact LsaType.noConfusion)]
      cases type : key.type with
      | network =>
        rw [lookup_insert_ne (apart (type.trans network.symm))]
      | _ => rfl

theorem registered_register (spf : Spf) (v : Vertex) :
    (spf.ospfSpfRegister v).registered = spf.registered ++ [v.key] := by
  rw [ospfSpfRegister]
  split <;> rfl

theorem candidate_register (spf : Spf) (v : Vertex) :
    (spf.ospfSpfRegister v).candidate = spf.candidate := by
  rw [ospfSpfRegister]
  split <;> rfl

end Spf

namespace SpfArea

abbrev rootKey (area : SpfArea) (mine : LsaId) : VertexKey := (area.ospf.lsa mine).vertexKey

/-- Whatever can be reached can be at a cost that leaves room for one more link in 32 bits. -/
def Narrow (area : SpfArea) (mine : LsaId) : Prop :=
  ∀ key cost, Walk (area.spfLinks mine) (area.rootKey mine) key cost →
    ∃ short, Walk (area.spfLinks mine) (area.rootKey mine) key short ∧ short + 65535 < 2 ^ 32

/-- A vertex with the LSA that the area has for it. -/
structure Has (area : SpfArea) (mine : LsaId) (v : Vertex) : Prop where
  lsa : ∃ id, area.lsaOf mine v.key = some id ∧ area.ospf.lsa id = v.lsa
  fresh : v.key = area.rootKey mine ∨ v.lsa.isMaxage area.ospf.now = false

/-- Those links of a scan that count. -/
def counted (area : SpfArea) (v : VertexKey) (targets : List (VertexKey × BitVec 16)) :
    List (VertexKey × Nat) :=
  (targets.map fun link => (link.1, link.2.toNat)).filter fun link => area.linksBack link.1 v

variable {area : SpfArea} {mine : LsaId} {v : Vertex}

theorem Has.proper (has : area.Has mine v) (wf : area.WellFormed mine) : v.key.Proper := by
  obtain ⟨id, found, -⟩ := has.lsa
  exact (wf.lsaOf found).2.1

theorem Has.spfLinks (has : area.Has mine v) (wf : area.WellFormed mine) :
    area.spfLinks mine v.key = area.counted v.key v.lsa.targets := by
  obtain ⟨id, found, same⟩ := has.lsa
  obtain ⟨-, -, formed⟩ := wf.lsaOf found
  rw [same] at formed
  rw [SpfArea.spfLinks, found]
  dsimp only
  rw [same, if_neg, counted, formed.targets]
  rintro ⟨other, old⟩
  rcases has.fresh with root | fresh
  · exact other root
  · exact Bool.false_ne_true (fresh.symm.trans old)

end SpfArea

namespace Spf

/-- The search between two links of V: what it has found, and that the distances are those of
walks. -/
structure Sound (area : SpfArea) (mine : LsaId) (spf : Spf) (v : Vertex)
    (pending : List (VertexKey × Nat)) : Prop where
  cut : Cut (area.spfLinks mine) (area.rootKey mine) v.key pending spf.distanceOf spf.nearOf
  sorted : Sorted spf.candidate
  nodup : (spf.candidate.map Vertex.key).Nodup
  has : area.Has mine v
  candidates : ∀ w ∈ spf.candidate, area.Has mine w
  last : spf.distanceOf v.key = some v.distance.toNat
  nearest : Nearest (area.spfLinks mine) (area.rootKey mine) v.key v.distance.toNat
  once : spf.registered.Nodup
  all : ∀ key, key ∈ spf.registered ↔ (spf.distanceOf key).isSome
  known : ∀ key ∈ spf.registered, (area.lsaOf mine key).isSome

variable {area : SpfArea} {mine : LsaId} {spf : Spf} {v w : Vertex} {link : VertexKey × Nat}
  {pending : List (VertexKey × Nat)}

/-- The distance over one more link has not wrapped. -/
theorem Sound.distance (sound : Sound area mine spf v pending) (narrow : area.Narrow mine)
    (metric : BitVec 16) :
    (v.distance + metric.setWidth 32).toNat = v.distance.toNat + metric.toNat := by
  obtain ⟨short, walk, room⟩ := narrow v.key v.distance.toNat sound.nearest.walk
  have close := sound.nearest.least short walk
  have wide : (metric.setWidth 32).toNat = metric.toNat := by
    rw [BitVec.toNat_setWidth]
    exact mod_eq_of_lt (by omega)
  exact mod_eq_of_lt (by omega)

section
variable (sound : Sound area mine spf v (link :: pending))
include sound

theorem Sound.approach (listed : link ∈ area.spfLinks mine v.key)
    (has : area.Has mine w) (named : w.key = link.1) (outside : spf.distanceOf link.1 = none)
    (distance : w.distance.toNat = v.distance.toNat + link.2)
    (nearer : ∀ found, spf.nearOf link.1 = some found → w.distance.toNat ≤ found) :
    Sound area mine { spf with
      candidate := ospfInstallCandidate w (spf.candidate.eraseP fun found => found.key = link.1) } v
      pending := by
  have others (u : Vertex) := @mem_eraseP_key spf.candidate sound.nodup link.1 u
  have erased : (spf.candidate.eraseP fun found => found.key = link.1).Sublist spf.candidate :=
    eraseP_sublist
  have nodup := nodup_install (sound.nodup.sublist (erased.map _)) fun u member =>
    named ▸ ((others u).mp member).2
  have near : nearOf { spf with
      candidate := ospfInstallCandidate w (spf.candidate.eraseP fun found => found.key = link.1) } =
      update spf.nearOf link.1 (some (v.distance.toNat + link.2)) := by
    funext key
    refine ext fun cost => (nearOf_eq_some nodup).trans ?_
    by_cases same : key = link.1
    · subst same
      rw [update_self, some.injEq, ← distance]
      constructor
      · rintro ⟨u, member, at_key, rfl⟩
        rcases mem_ospfInstallCandidate.mp member with rfl | before
        · rfl
        · exact absurd at_key ((others u).mp before).2
      · rintro rfl
        exact ⟨w, mem_ospfInstallCandidate.mpr (.inl rfl), named, rfl⟩
    · rw [update_of_ne same, nearOf_eq_some sound.nodup]
      constructor
      · rintro ⟨u, member, rfl, at_cost⟩
        rcases mem_ospfInstallCandidate.mp member with rfl | before
        · exact absurd named same
        · exact ⟨u, ((others u).mp before).1, rfl, at_cost⟩
      · rintro ⟨u, member, rfl, at_cost⟩
        exact ⟨u, mem_ospfInstallCandidate.mpr (.inr ((others u).mpr ⟨member, same⟩)), rfl, at_cost⟩
  refine ⟨?_, Sorted.install (sound.sorted.sublist erased), nodup, sound.has, fun u member => ?_,
    sound.last, sound.nearest, sound.once,
    sound.all, sound.known⟩
  · rw [near]
    exact sound.cut.approach sound.last listed outside fun found known =>
      distance ▸ nearer found known
  · rcases mem_ospfInstallCandidate.mp member with rfl | before
    · exact has
    · exact sound.candidates u ((others u).mp before).1

theorem Sound.pass {candidate} (same : candidate.map spot = spf.candidate.map spot)
    (enough : ∃ found ≤ v.distance.toNat + link.2, spf.distanceOf link.1 = some found ∨
      spf.nearOf link.1 = some found) :
    Sound area mine { spf with candidate := candidate } v pending := by
  have nodup : (candidate.map Vertex.key).Nodup := keys_congr same ▸ sound.nodup
  have near : nearOf { spf with candidate := candidate } = spf.nearOf := by
    funext key
    refine ext fun cost => (nearOf_eq_some nodup).trans ((nearOf_eq_some sound.nodup).trans ?_).symm
    constructor
    · rintro ⟨u, member, rfl, rfl⟩
      obtain ⟨x, inside, lsa, distance⟩ := mem_congr same.symm member
      exact ⟨x, inside, congrArg OspfLsa.vertexKey lsa, by rw [distance]⟩
    · rintro ⟨u, member, rfl, rfl⟩
      obtain ⟨x, inside, lsa, distance⟩ := mem_congr same member
      exact ⟨x, inside, congrArg OspfLsa.vertexKey lsa, by rw [distance]⟩
  refine ⟨?_, sorted_congr same sound.sorted, nodup, sound.has, fun u member => ?_, sound.last,
    sound.nearest, sound.once, sound.all,
    sound.known⟩
  · rw [near]
    exact sound.cut.pass sound.last enough
  · obtain ⟨x, inside, lsa, -⟩ := mem_congr same member
    obtain ⟨found, fresh⟩ := sound.candidates x inside
    have key : x.key = u.key := congrArg OspfLsa.vertexKey lsa
    exact ⟨key ▸ lsa ▸ found, key ▸ lsa ▸ fresh⟩

theorem Sound.weigh (root : VertexKey) (listed : link ∈ area.spfLinks mine v.key)
    (has : area.Has mine w) (named : w.key = link.1) (outside : spf.distanceOf link.1 = none)
    (distance : w.distance.toNat = v.distance.toNat + link.2) :
    Sound area mine (spf.weigh area root v w) v pending := by
  have has' (nexthop : List VertexNexthop) : area.Has mine { w with nexthop := nexthop } :=
    ⟨has.lsa, has.fresh⟩
  rw [Spf.weigh, named]
  split
  · rename_i new
    have missing : spf.nearOf link.1 = none := by
      rw [nearOf, new]
      rfl
    have nothing : (spf.candidate.eraseP fun found => found.key = link.1) = spf.candidate :=
      eraseP_of_forall_not fun u member => fun same =>
        nearOf_eq_none.mp missing u member (of_decide_eq_true same)
    have placed := sound.approach listed
        (has' (area.ospfNexthopCalculation root v w)) named outside distance fun found known => by
      rw [missing] at known
      cases known
    rw [nothing] at placed
    exact placed
  · rename_i cw known
    have near : spf.nearOf link.1 = some cw.distance.toNat := by
      rw [nearOf, known]
      rfl
    split
    · rename_i shorter
      have short : cw.distance.toNat < w.distance.toNat := shorter
      exact sound.pass rfl ⟨cw.distance.toNat, by omega, .inr near⟩
    · split
      · rename_i equal
        exact sound.pass (spot_mergeCandidate _ _)
          ⟨cw.distance.toNat, by rw [equal, distance], .inr near⟩
      · rename_i longer different
        have long : w.distance.toNat ≤ cw.distance.toNat := Nat.le_of_not_lt longer
        refine sound.approach listed (has' (area.ospfNexthopCalculation root v w)) named outside
          distance fun found at_key => ?_
        rw [near] at at_key
        cases at_key
        exact long

end

section
variable (wf : area.WellFormed mine)
include wf

theorem Sound.examine (narrow : area.Narrow mine) {next}
    {rest} (sound : Sound area mine spf v (area.counted v.key (next :: rest)))
    (listed : next ∈ v.lsa.targets) :
    Sound area mine (examine area (area.rootKey mine) v spf next) v (area.counted v.key rest) := by
  have proper := sound.has.proper wf
  rw [SpfArea.counted, map_cons, filter_cons] at sound
  rw [Spf.examine]
  cases counts : area.linksBack next.1 v.key with
  | false =>
    rw [counts] at sound
    split
    · exact sound
    · rename_i id found
      dsimp only
      split
      · exact sound
      · rename_i fresh
        split
        · exact sound
        · rename_i back
          have counts' :=
            (wf.linksBack proper).mpr ⟨id, found, Bool.eq_false_iff.mpr fresh, by simpa using back⟩
          cases counts.symm.trans counts'
  | true =>
    rw [counts] at sound
    obtain ⟨id, found, fresh, back⟩ := (wf.linksBack proper).mp counts
    obtain ⟨key, properNext, -, -⟩ := wf.lookup found
    have member : (next.1, next.2.toNat) ∈ area.spfLinks mine v.key := by
      rw [sound.has.spfLinks wf]
      exact mem_filter.mpr ⟨mem_map.mpr ⟨next, listed, rfl⟩, counts⟩
    rw [found]
    dsimp only
    rw [fresh, back, key, if_neg nofun, if_neg (by decide)]
    split
    · rename_i registered
      obtain ⟨cost, known⟩ := isSome_iff_exists.mp ((hasVertex_iff properNext).mp registered)
      exact ⟨sound.cut.skip sound.last known, sound.sorted, sound.nodup, sound.has,
        sound.candidates, sound.last, sound.nearest,
        sound.once, sound.all, sound.known⟩
    · rename_i unregistered
      have outside : spf.distanceOf next.1 = none :=
        not_isSome_iff_eq_none.mp fun known => unregistered ((hasVertex_iff properNext).mpr known)
      have other : next.1 ≠ area.rootKey mine := by
        intro root
        rw [root, sound.cut.rooted] at outside
        cases outside
      have has :
          area.Has mine { lsa := area.ospf.lsa id, distance := v.distance + next.2.setWidth 32 } :=
        ⟨⟨id, (congrArg (area.lsaOf mine) key).trans ((if_neg other).trans found), rfl⟩, .inr fresh⟩
      exact sound.weigh _ member has key outside (sound.distance narrow next.2)

theorem Sound.scan (narrow : area.Narrow mine) {rest}
    (sound : Sound area mine spf v (area.counted v.key rest))
    (listed : ∀ next ∈ rest, next ∈ v.lsa.targets) :
    Sound area mine (rest.foldl (Spf.examine area (area.rootKey mine) v) spf) v [] := by
  induction rest generalizing spf with
  | nil => exact sound
  | cons next rest ih =>
    exact ih (sound.examine wf narrow (listed next mem_cons_self)) fun other member =>
      listed other (.tail _ member)

theorem Sound.next (narrow : area.Narrow mine)
    (sound : Sound area mine spf v (area.spfLinks mine v.key)) :
    Sound area mine (spf.ospfSpfNext area (area.rootKey mine) v) v [] := by
  rw [sound.has.spfLinks wf] at sound
  refine Sound.scan wf narrow ?_ fun _ member => member
  split
  · exact ⟨sound.cut, sound.sorted, sound.nodup, sound.has, sound.candidates, sound.last,
      sound.nearest, sound.once, sound.all, sound.known⟩
  · exact sound

theorem Sound.register (sound : Sound area mine spf v []) {next rest}
    (head : spf.candidate = next :: rest) :
    Sound area mine ({ spf with candidate := rest }.ospfSpfRegister next) next
      (area.spfLinks mine next.key) := by
  have sorted := sound.sorted
  have nodup := sound.nodup
  rw [head] at sorted nodup
  obtain ⟨first, later⟩ := pairwise_cons.mp sorted
  obtain ⟨apart, unique⟩ := nodup_cons.mp nodup
  have has := sound.candidates next (head ▸ mem_cons_self)
  have here := (nearOf_eq_some sound.nodup).mpr ⟨next, head ▸ mem_cons_self, rfl, rfl⟩
  have least (key : VertexKey) (cost : Nat) (known : spf.nearOf key = some cost) :
      next.distance.toNat ≤ cost := by
    obtain ⟨u, member, -, rfl⟩ := (nearOf_eq_some sound.nodup).mp known
    rw [head] at member
    rcases mem_cons.mp member with rfl | member
    · exact le_rfl
    · exact first u member
  have near : nearOf ({ spf with candidate := rest }.ospfSpfRegister next) =
      update spf.nearOf next.key none := by
    funext key
    have candidate : nearOf ({ spf with candidate := rest }.ospfSpfRegister next) key =
        nearOf { spf with candidate := rest } key := by
      rw [nearOf, ospfVertexLookup, candidate_register]
      rfl
    rw [candidate]
    by_cases same : key = next.key
    · subst same
      rw [update_self, nearOf_eq_none]
      exact fun u member named => apart (mem_map.mpr ⟨u, member, named⟩)
    · rw [update_of_ne same, nearOf, ospfVertexLookup, nearOf, ospfVertexLookup, head, find?_cons,
        decide_eq_false fun named => same named.symm]
  have distance : distanceOf ({ spf with candidate := rest }.ospfSpfRegister next) =
      update spf.distanceOf next.key (some next.distance.toNat) :=
    distanceOf_register (has.proper wf)
  have new : next.key ∉ spf.registered := by
    intro member
    obtain ⟨cost, known⟩ := isSome_iff_exists.mp ((sound.all next.key).mp member)
    rw [sound.cut.apart next.key cost known] at here
    cases here
  refine ⟨?_, ?_, ?_, has, fun u member => ?_, ?_, sound.cut.nearest here least, ?_, fun key => ?_,
    fun key member => ?_⟩
  · rw [distance, near]
    exact sound.cut.settle here least
  · rw [candidate_register]
    exact later
  · rw [candidate_register]
    exact unique
  · rw [candidate_register] at member
    exact sound.candidates u (head ▸ .tail _ member)
  · rw [distance, update_self]
  · rw [registered_register]
    exact nodup_append.mpr ⟨sound.once, nodup_singleton _, fun key member other single => by
      rw [mem_singleton.mp single]
      rintro rfl
      exact new member⟩
  · rw [registered_register, distance, mem_append, mem_singleton]
    by_cases same : key = next.key
    · rw [same, update_self]
      exact ⟨fun _ => rfl, fun _ => .inr rfl⟩
    · rw [update_of_ne same, ← sound.all key]
      exact or_iff_left same
  · rw [registered_register] at member
    rcases mem_append.mp member with member | member
    · exact sound.known key member
    · obtain ⟨id, found, -⟩ := has.lsa
      rw [mem_singleton.mp member, found]
      rfl

end

theorem registered_weigh (spf : Spf) (area : SpfArea) (root : VertexKey) (v w : Vertex) :
    (spf.weigh area root v w).registered = spf.registered := by
  rw [weigh]
  split
  · rfl
  · split
    · rfl
    · split <;> rfl

theorem registered_examine (area : SpfArea) (root : VertexKey) (v : Vertex) (spf : Spf)
    (link : VertexKey × BitVec 16) :
    (examine area root v spf link).registered = spf.registered := by
  rw [examine]
  split
  · rfl
  · dsimp only
    split
    · rfl
    · split
      · rfl
      · split
        · rfl
        · exact registered_weigh ..

theorem registered_next (spf : Spf) (area : SpfArea) (root : VertexKey) (v : Vertex) :
    (spf.ospfSpfNext area root v).registered = spf.registered := by
  have scan (targets : List (VertexKey × BitVec 16)) (start : Spf) :
      (targets.foldl (examine area root v) start).registered = start.registered := by
    induction targets generalizing start with
    | nil => rfl
    | cons link rest ih => exact (ih _).trans (registered_examine area root v start link)
  rw [ospfSpfNext, scan]
  split <;> rfl

end Spf

namespace SpfArea

/-- What can be registered at all: the root and what the database has. -/
def vertices (area : SpfArea) (mine : LsaId) : List VertexKey :=
  area.rootKey mine :: (area.ospf.lsdb (.area area.area)).nodes.entries.map fun entry =>
    ⟨entry.1.type, entry.1.id⟩

theorem WellFormed.mem_vertices {area : SpfArea} {mine} (wf : area.WellFormed mine)
    {key : VertexKey} (known : (area.lsaOf mine key).isSome) : key ∈ area.vertices mine := by
  obtain ⟨id, found⟩ := isSome_iff_exists.mp known
  rw [SpfArea.lsaOf] at found
  split at found
  · rename_i root
    exact root ▸ mem_cons_self
  · obtain ⟨named, -, -, stored⟩ := wf.lookup found
    obtain ⟨node, here, -⟩ := bind_eq_some_iff.mp stored
    exact .tail _ (mem_map.mpr ⟨⟨_, node⟩, mem_lookup_iff.mp here, named⟩)

end SpfArea

namespace Spf
variable {area : SpfArea} {mine : LsaId} {spf : Spf} {v : Vertex} {pending : List (VertexKey × Nat)}

theorem Sound.registered_le (sound : Sound area mine spf v pending) (wf : area.WellFormed mine) :
    spf.registered.length ≤ (area.vertices mine).length :=
  (subperm_of_subset sound.once fun key member =>
    wf.mem_vertices (sound.known key member)).length_le

theorem Sound.loop (wf : area.WellFormed mine) (narrow : area.Narrow mine) {fuel}
    (sound : Sound area mine spf v (area.spfLinks mine v.key))
    (enough : (area.vertices mine).length < fuel + spf.registered.length) :
    ∃ result last, (∀ more ≥ fuel, spfLoop area (area.rootKey mine) more v spf = some result) ∧
      Sound area mine result last [] ∧ result.candidate = [] := by
  induction fuel generalizing spf v with
  | zero =>
    have few := sound.registered_le wf
    omega
  | succ fuel ih =>
    have scanned := sound.next wf narrow
    cases head : (spf.ospfSpfNext area (area.rootKey mine) v).candidate with
    | nil =>
      refine ⟨_, v, fun more bound => ?_, scanned, head⟩
      obtain ⟨less, rfl⟩ := Nat.exists_eq_add_of_lt bound
      rw [spfLoop, head]
    | cons next rest =>
      have registered := scanned.register wf head
      obtain ⟨result, last, loop, done⟩ := ih registered (by
        rw [registered_register, registered_next, length_append, length_singleton]
        omega)
      refine ⟨result, last, fun more bound => ?_, done⟩
      obtain ⟨less, rfl⟩ := Nat.exists_eq_add_of_lt bound
      rw [spfLoop, head]
      exact loop _ (Nat.le_add_right ..)

theorem sound_root (wf : area.WellFormed mine) :
    Sound area mine (({} : Spf).ospfSpfRegister { lsa := area.ospf.lsa mine })
    { lsa := area.ospf.lsa mine }
      (area.spfLinks mine (area.rootKey mine)) := by
  have proper : (key { lsa := area.ospf.lsa mine }).Proper := .inl wf.own
  have distance := @distanceOf_register {} { lsa := area.ospf.lsa mine } proper
  have before : ({} : Spf).distanceOf = fun _ => none := by
    funext key
    rw [distanceOf]
    cases key.type <;> rfl
  have near : nearOf (({} : Spf).ospfSpfRegister { lsa := area.ospf.lsa mine }) =
      fun _ => none := by
    funext key
    rw [nearOf, ospfVertexLookup, candidate_register]
    rfl
  have registered : (({} : Spf).ospfSpfRegister { lsa := area.ospf.lsa mine }).registered =
      [area.rootKey mine] :=
    registered_register {} { lsa := area.ospf.lsa mine }
  rw [before] at distance
  refine ⟨?_, ?_, ?_, ⟨⟨mine, area.lsaOf_root mine, rfl⟩, .inl rfl⟩, fun u member => ?_, ?_,
    ⟨.start, fun _ _ => zero_le _⟩, ?_,
    fun key => ?_, fun key member => ?_⟩
  · rw [distance, near]
    exact Cut.initial
  · rw [candidate_register]
    exact Pairwise.nil
  · rw [candidate_register]
    exact nodup_nil
  · rw [candidate_register] at member
    cases member
  · rw [distance]
    exact update_self ..
  · rw [registered]
    exact nodup_singleton _
  · rw [registered, distance]
    by_cases same : key = Vertex.key { lsa := area.ospf.lsa mine }
    · rw [same, update_self]
      exact ⟨fun _ => rfl, fun _ => mem_singleton.mpr rfl⟩
    · rw [update_of_ne same]
      exact ⟨fun member => absurd (mem_singleton.mp member) same, Bool.noConfusion⟩
  · rw [registered] at member
    rw [mem_singleton.mp member]
    exact congrArg isSome (area.lsaOf_root mine)

end Spf

/-- The calculation ends, and what it registered is what can be reached from the root, each vertex
once and at its least cost. -/
theorem spf_calculate_shortest {area : SpfArea} {mine : LsaId}
    (own : area.routerLsaSelf = some mine) (wf : area.WellFormed mine) (narrow : area.Narrow mine) :
    ∃ spf, (∀ fuel ≥ (area.vertices mine).length, ospfSpfCalculate area fuel = some spf) ∧
      spf.registered.Nodup ∧
      (∀ key, key ∈ spf.registered ↔
        ∃ cost, Walk (area.spfLinks mine) (area.rootKey mine) key cost) ∧
      ∀ key cost, spf.distanceOf key = some cost ↔
        Nearest (area.spfLinks mine) (area.rootKey mine) key cost := by
  have enough : (area.vertices mine).length < (area.vertices mine).length +
      (({} : Spf).ospfSpfRegister { lsa := area.ospf.lsa mine }).registered.length := by
    rw [registered_register]
    exact lt_succ_self _
  obtain ⟨spf, last, loop, sound, empty⟩ := (sound_root wf).loop wf narrow enough
  have nothing (key : VertexKey) : spf.nearOf key = none := by
    rw [nearOf, ospfVertexLookup, empty]
    rfl
  refine ⟨spf, fun fuel enough => ?_, sound.once, fun key => ?_,
    fun key cost => sound.cut.complete nothing⟩
  · rw [ospfSpfCalculate, own]
    exact loop fuel enough
  · rw [sound.all key, isSome_iff_exists]
    constructor
    · rintro ⟨cost, known⟩
      exact ⟨cost, sound.cut.settled key cost known⟩
    · rintro ⟨cost, walk⟩
      obtain ⟨found, -, known⟩ := sound.cut.walk_settled nothing walk
      exact ⟨found, known⟩

/-! A transit network between two routers. -/

def ownRouter (lsAge : BitVec 16) : OspfLsa where
  data := { lsAge, key := ⟨.router, 0x01010101, 0x01010101⟩, lsSeqnum := 0x80000001, length := 36 }
  body := [0, 0, 0, 1, 10, 0, 0, 1, 10, 0, 0, 1, 2, 0, 0, 10]

def otherRouter : OspfLsa where
  data := { key := ⟨.router, 0x02020202, 0x02020202⟩, lsSeqnum := 0x80000001, length := 36 }
  body := [0, 0, 0, 1, 10, 0, 0, 1, 10, 0, 0, 2, 2, 0, 0, 5]

def transitNetwork (advRouter : InAddr) (lsAge : BitVec 16) : OspfLsa where
  data := { lsAge, key := ⟨.network, 0x0a000001, advRouter⟩, lsSeqnum := 0x80000001, length := 32 }
  body := [255, 255, 255, 0, 1, 1, 1, 1, 2, 2, 2, 2]

/-- An area with some LSAs in its database, of which the first is our own. -/
def areaWith (lsas : List OspfLsa) : SpfArea where
  ospf :=
    { lsa := fun id => lsas.getD id (ownRouter 0), routerId := 0x01010101, areas := [{ id := 0 }],
      oiflist := [],
      nbr := fun _ => { oi := 0, routerId := 0, address := 0, state := .down },
      lsdbs := ((List.range lsas.length).foldl (fun store id => store.ospfLsdbAdd (.area 0) id)
        { lsa := fun id => lsas.getD id (ownRouter 0) } : Store).lsdbs }
  area := 0
  routerLsaSelf := some 0

instance (lsa : OspfLsa) : Decidable lsa.RouterForm :=
  decidable_of_iff (lsa.data.length.toNat = 24 + 12 * lsa.linkCount ∧
    ∀ i < lsa.linkCount, (linkAt lsa.body (4 + 12 * i)).tosCount = 0)
      ⟨fun ⟨length, tos⟩ => ⟨length, tos⟩, fun form => ⟨form.length, form.tos⟩⟩

instance (lsa : OspfLsa) : Decidable lsa.Formed :=
  inferInstanceAs
    (Decidable (lsa.key.type = .router ∧ lsa.RouterForm ∨ lsa.key.type = .network ∧ _ ∧ _))

theorem Lsdb.lookup_forall {lsdb : Lsdb} {holds : LsaKey → LsaId → Prop}
    (all : ∀ entry ∈ lsdb.nodes.entries, ∀ id ∈ entry.2.info, holds entry.1 id) (key : LsaKey)
    (id : LsaId) (found : lsdb.lookup key = some id) : holds key id := by
  obtain ⟨node, here, info⟩ := bind_eq_some_iff.mp found
  exact all ⟨key, node⟩ (mem_lookup_iff.mp here) id info

end Zebra.Ospfd
