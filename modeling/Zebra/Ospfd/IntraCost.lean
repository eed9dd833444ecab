import Zebra.Base.Position
import Zebra.Ospfd.IntraTree

namespace Zebra.Ospfd
open Base List SpfArea Nat Function

/-- A way to a network, from the LSA with a Link State ID. -/
inductive Offer where
  | transit (id : InAddr) (distance : BitVec 32)
  | stub (id : InAddr) (distance : BitVec 32) (metric : BitVec 16)
deriving DecidableEq

namespace Offer

def id : Offer → InAddr
  | transit id _ => id
  | stub id _ _ => id

/-- The cost in 32 bits. -/
def cost : Offer → BitVec 32
  | transit _ distance => distance
  | stub _ distance metric => distance + metric.setWidth 32

/-- The distance of a transit network; the distance of a router and the metric of its stub link
  added up. -/
def length : Offer → Nat
  | transit _ distance => distance.toNat
  | stub _ distance metric => distance.toNat + metric.toNat

/-- A transit network that is nearer than the entry is passed over where the Link State ID of the
entry's origin is greater. -/
def Refused (offer : Offer) (entry : Option (BitVec 32 × InAddr)) : Prop :=
  match offer, entry with
  | transit id distance, some (cost, origin) => distance < cost ∧ id < origin
  | _, _ => False

/-- The cost of an entry and the Link State ID of its origin, after an offer. -/
def take (entry : Option (BitVec 32 × InAddr)) (offer : Offer) : Option (BitVec 32 × InAddr) :=
  match entry with
  | none => some (offer.cost, offer.id)
  | some (cost, origin) =>
    match offer with
    | transit id distance => if distance > cost ∨ origin > id then some (cost, origin)
      else some (distance, id)
    | stub id distance metric =>
      let new := distance + metric.setWidth 32
      if new > cost then some (cost, origin)
      else if new = cost then some (cost, if origin < id then id else origin)
      else some (new, id)

theorem cost_le_length (offer : Offer) : offer.cost.toNat ≤ offer.length := by
  cases offer with
  | transit id distance => exact le_rfl
  | stub id distance metric =>
    exact mod_le _ _

theorem cost_stub_iff (id : InAddr) (distance : BitVec 32) (metric : BitVec 16) :
    (stub id distance metric).cost.toNat = (stub id distance metric).length ↔
    distance.toNat + metric.toNat < 2 ^ 32 := by
  have wide : (metric.setWidth 32).toNat = metric.toNat := by
    rw [BitVec.toNat_setWidth]
    exact mod_eq_of_lt (by omega)
  rw [length]
  constructor
  · intro same
    rw [← same]
    exact mod_lt _ (by decide)
  · exact mod_eq_of_lt

theorem take_cost (entry : Option (BitVec 32 × InAddr)) (offer : Offer) :
    ∃ cost id, take entry offer = some (cost, id) ∧
    (offer.Refused entry → entry = some (cost, id)) ∧ (¬ offer.Refused entry → cost ≤ offer.cost ∧
      (cost = offer.cost ∨ ∃ origin, entry = some (cost, origin)) ∧
      ∀ old origin, entry = some (old, origin) → cost ≤ old) := by
  cases entry with
  | none =>
    refine ⟨offer.cost, offer.id, rfl, fun refused => ?_,
      fun _ => ⟨BitVec.le_refl _, .inl rfl, nofun⟩⟩
    cases offer <;> exact refused.elim
  | some entry =>
    obtain ⟨cost, origin⟩ := entry
    cases offer with
    | transit id distance =>
      rw [take]
      by_cases far : cost < distance
      · rw [if_pos (.inl far)]
        refine ⟨cost, origin, rfl, fun _ => rfl,
          fun _ => ⟨BitVec.le_of_lt far, .inr ⟨origin, rfl⟩, ?_⟩⟩
        rintro _ _ ⟨⟩
        exact BitVec.le_refl _
      · by_cases passed : id < origin
        · rw [if_pos (.inr passed)]
          refine ⟨cost, origin, rfl, fun _ => rfl, fun taken => ?_⟩
          have equal : cost = distance := by
            have near : ¬ distance < cost := fun less => taken ⟨less, passed⟩
            exact BitVec.le_antisymm (BitVec.not_lt.mp near) (BitVec.not_lt.mp far)
          refine ⟨equal ▸ BitVec.le_refl _, .inl equal, ?_⟩
          rintro _ _ ⟨⟩
          exact BitVec.le_refl _
        · rw [if_neg (not_or.mpr ⟨far, passed⟩)]
          refine ⟨distance, id, rfl, fun refused => absurd refused.2 passed,
            fun _ => ⟨BitVec.le_refl _, .inl rfl, ?_⟩⟩
          rintro _ _ ⟨⟩
          exact BitVec.not_lt.mp far
    | stub id distance metric =>
      rw [take]
      by_cases far : cost < distance + metric.setWidth 32
      · rw [if_pos far]
        refine ⟨cost, origin, rfl, False.elim,
          fun _ => ⟨BitVec.le_of_lt far, .inr ⟨origin, rfl⟩, ?_⟩⟩
        rintro _ _ ⟨⟩
        exact BitVec.le_refl _
      · rw [if_neg far]
        by_cases equal : distance + metric.setWidth 32 = cost
        · rw [if_pos equal]
          refine ⟨cost, _, rfl, False.elim, fun _ =>
            ⟨equal ▸ BitVec.le_refl _, .inr ⟨origin, rfl⟩, ?_⟩⟩
          rintro _ _ ⟨⟩
          exact BitVec.le_refl _
        · rw [if_neg equal]
          refine ⟨_, id, rfl, False.elim, fun _ => ⟨BitVec.le_refl _, .inl rfl, ?_⟩⟩
          rintro _ _ ⟨⟩
          exact BitVec.not_lt.mp far

/-- The entry has the least length of some offers. -/
def Least (offers : List Offer) (entry : Option (BitVec 32 × InAddr)) : Prop :=
  entry.map (fun entry => entry.1.toNat) = (offers.map length).min?

/-- The entry has the least cost, and of the offers with it the greatest Link State ID. -/
def Kept (offers : List Offer) (entry : Option (BitVec 32 × InAddr)) : Prop :=
  match entry with
  | none => offers = []
  | some (cost, id) => (∃ offer ∈ offers, offer.cost = cost ∧ offer.id = id) ∧
    ∀ offer ∈ offers, cost ≤ offer.cost ∧ (offer.cost = cost → offer.id ≤ id)

/-- A transit network nearer than all before it has a Link State ID that is not less than those of
the least cost; the sum for a stub link does not wrap, or there is something shorter than what it
wraps to. -/
def TakenRight (before : List Offer) : Offer → Prop
  | transit id distance => (∀ offer ∈ before, distance < offer.cost) →
    ∀ offer ∈ before, (∀ other ∈ before, offer.cost ≤ other.cost) → offer.id ≤ id
  | stub id distance metric => distance.toNat + metric.toNat < 2 ^ 32 ∨
    ∃ offer ∈ before, offer.length ≤ (stub id distance metric).cost.toNat

variable {offers : List Offer} {offer : Offer} {cost : BitVec 32} {id : InAddr}

theorem least_some : Least offers (some (cost, id)) ↔
    (∃ offer ∈ offers, offer.length = cost.toNat) ∧
    ∀ offer ∈ offers, cost.toNat ≤ offer.length := by
  rw [Least, Option.map_some, eq_comm, min?_eq_some_iff, mem_map, forall_mem_map]

theorem Kept.stay (kept : Kept offers (some (cost, id))) (low : cost ≤ offer.cost)
    (origin : offer.cost = cost → offer.id ≤ id) :
    Kept (offers ++ [offer]) (some (cost, id)) := by
  obtain ⟨⟨first, member, same⟩, all⟩ := kept
  refine ⟨⟨first, mem_append_left _ member, same⟩, fun other inside => ?_⟩
  rcases mem_append.mp inside with old | new
  · exact all other old
  · rw [mem_singleton.mp new]
    exact ⟨low, origin⟩

theorem Kept.replace (kept : Kept offers (some (cost, id))) (low : offer.cost ≤ cost)
    (origin : offer.cost = cost → id ≤ offer.id) :
    Kept (offers ++ [offer]) (some (offer.cost, offer.id)) := by
  obtain ⟨-, all⟩ := kept
  refine ⟨⟨offer, mem_append_right _ (mem_singleton_self offer), rfl, rfl⟩, fun other inside => ?_⟩
  rcases mem_append.mp inside with old | new
  · obtain ⟨high, most⟩ := all other old
    refine ⟨BitVec.le_trans low high, fun same => ?_⟩
    have equal : offer.cost = cost := BitVec.le_antisymm low (same ▸ high)
    exact BitVec.le_trans (most (same.trans equal)) (origin equal)
  · rw [mem_singleton.mp new]
    exact ⟨BitVec.le_refl _, fun _ => BitVec.le_refl _⟩

theorem Least.stay (least : Least offers (some (cost, id))) (origin : InAddr) :
    Least (offers ++ [offer]) (some (cost, origin)) ↔ cost.toNat ≤ offer.length := by
  obtain ⟨⟨first, member, same⟩, all⟩ := least_some.mp least
  rw [least_some]
  constructor
  · rintro ⟨-, every⟩
    exact every offer (mem_append_right _ (mem_singleton_self offer))
  · intro low
    refine ⟨⟨first, mem_append_left _ member, same⟩, fun other inside => ?_⟩
    rcases mem_append.mp inside with old | new
    · exact all other old
    · rwa [mem_singleton.mp new]

theorem Least.replace (least : Least offers (some (cost, id))) (less : offer.cost < cost) :
    Least (offers ++ [offer]) (some (offer.cost, offer.id)) ↔ offer.cost.toNat = offer.length := by
  obtain ⟨-, all⟩ := least_some.mp least
  have below : offer.cost.toNat < cost.toNat := less
  rw [least_some]
  constructor
  · rintro ⟨⟨first, member, same⟩, -⟩
    rcases mem_append.mp member with old | new
    · have high := all first old
      omega
    · rw [← same, mem_singleton.mp new]
  · intro exact_
    refine ⟨⟨offer, mem_append_right _ (mem_singleton_self offer), exact_.symm⟩,
      fun other inside => ?_⟩
    rcases mem_append.mp inside with old | new
    · have high := all other old
      omega
    · rw [mem_singleton.mp new]
      exact cost_le_length offer

theorem cost_trichotomy (first second : BitVec 32) :
    first < second ∨ first = second ∨ second < first := by
  rcases lt_trichotomy first.toNat second.toNat with less | same | more
  · exact .inl less
  · exact .inr (.inl (BitVec.eq_of_toNat_eq same))
  · exact .inr (.inr more)

theorem take_first (offer : Offer) :
    (Least [offer] (take none offer) ↔ TakenRight [] offer) ∧ Kept [offer] (take none offer) := by
  constructor
  · rw [take, least_some, forall_mem_singleton]
    have single : (∃ other ∈ [offer], other.length = offer.cost.toNat) ↔
        offer.cost.toNat = offer.length := by
      constructor
      · rintro ⟨other, member, same⟩
        rw [← same, mem_singleton.mp member]
      · intro same
        exact ⟨offer, mem_singleton_self offer, same.symm⟩
    rw [single]
    cases offer with
    | transit id distance =>
      refine iff_of_true ⟨rfl, cost_le_length _⟩ ?_
      intro _ other member
      cases member
    | stub id distance metric =>
      rw [cost_stub_iff, and_iff_left (cost_le_length _)]
      refine (or_iff_left ?_).symm
      rintro ⟨other, member, -⟩
      cases member
  · refine ⟨⟨offer, mem_singleton_self offer, rfl, rfl⟩, fun other member => ?_⟩
    rw [mem_singleton.mp member]
    exact ⟨BitVec.le_refl _, fun _ => BitVec.le_refl _⟩

theorem take_next (kept : Kept offers (some (cost, id))) (least : Least offers (some (cost, id)))
    (offer : Offer) :
    (Least (offers ++ [offer]) (take (some (cost, id)) offer) ↔ TakenRight offers offer) ∧
      (TakenRight offers offer → Kept (offers ++ [offer]) (take (some (cost, id)) offer)) := by
  have parts := kept
  obtain ⟨⟨first, member, atCost, atId⟩, all⟩ := parts
  obtain ⟨⟨short, shortIn, shortLength⟩, every⟩ := least_some.mp least
  have bound := cost_le_length offer
  cases offer with
  | transit new distance =>
    rw [take]
    rcases cost_trichotomy cost distance with far | equal | near
    · have right : TakenRight offers (transit new distance) := by
        intro nearest
        exact absurd (BitVec.lt_trans far (atCost ▸ nearest first member)) (BitVec.lt_irrefl _)
      rw [if_pos (.inl far), least.stay, iff_true_right right]
      refine ⟨le_of_lt far, fun _ => kept.stay (BitVec.le_of_lt far) fun same => ?_⟩
      exact absurd same.symm (BitVec.ne_of_lt far)
    · subst equal
      have right : TakenRight offers (transit new cost) := by
        intro nearest
        exact absurd (atCost ▸ nearest first member) (BitVec.lt_irrefl _)
      rw [iff_true_right right]
      by_cases passed : new < id
      · rw [if_pos (.inr passed), least.stay]
        exact ⟨le_rfl, fun _ => kept.stay (BitVec.le_refl _) fun _ => BitVec.le_of_lt passed⟩
      · rw [if_neg (not_or.mpr ⟨BitVec.lt_irrefl _, passed⟩), least.stay]
        refine ⟨le_rfl, fun _ => ?_⟩
        exact @Kept.replace offers (transit new cost) cost id kept (BitVec.le_refl _) fun _ =>
          BitVec.not_lt.mp passed
    · have notFar : ¬ cost < distance := BitVec.not_lt.mpr (BitVec.le_of_lt near)
      have nearest : ∀ offer ∈ offers, distance < offer.cost := fun other inside =>
        Nat.lt_of_lt_of_le near (all other inside).1
      by_cases passed : new < id
      · have wrong : ¬ TakenRight offers (transit new distance) := by
          intro right
          have most := right nearest first member fun other inside => atCost ▸ (all other inside).1
          rw [atId] at most
          exact absurd passed (BitVec.not_lt.mpr most)
        rw [if_pos (.inr passed), least.stay]
        exact ⟨iff_of_false (Nat.not_le_of_lt near) wrong, fun right => absurd right wrong⟩
      · have right : TakenRight offers (transit new distance) := by
          intro _ other inside lowest
          have same : other.cost = cost :=
            BitVec.le_antisymm (atCost ▸ lowest first member) (all other inside).1
          exact BitVec.le_trans ((all other inside).2 same) (BitVec.not_lt.mp passed)
        rw [if_neg (not_or.mpr ⟨notFar, passed⟩)]
        refine ⟨iff_of_true ?_ right, fun _ => ?_⟩
        · exact (@Least.replace offers (transit new distance) cost id least near).mpr rfl
        · exact @Kept.replace offers (transit new distance) cost id kept (BitVec.le_of_lt near)
            fun _ => BitVec.not_lt.mp passed
  | stub new distance metric =>
    obtain ⟨sum, isSum⟩ := @exists_eq _ (distance + metric.setWidth 32)
    have sumCost : (stub new distance metric).cost = sum := isSum.symm
    rw [sumCost] at bound
    rw [take, ← isSum]
    rcases cost_trichotomy cost sum with far | equal | near
    · have low : cost.toNat ≤ sum.toNat := le_of_lt far
      have right : TakenRight offers (stub new distance metric) :=
        .inr ⟨short, shortIn, by rw [shortLength, sumCost]; exact low⟩
      rw [if_pos far, least.stay, iff_true_right right]
      refine ⟨le_trans low bound, fun _ => kept.stay (sumCost ▸ BitVec.le_of_lt far) fun same => ?_⟩
      exact absurd (same.symm.trans sumCost) (BitVec.ne_of_lt far)
    · subst equal
      have right : TakenRight offers (stub new distance metric) :=
        .inr ⟨short, shortIn, by rw [shortLength, sumCost]⟩
      rw [if_neg (BitVec.lt_irrefl _), if_pos rfl, least.stay, iff_true_right right]
      refine ⟨bound, fun _ => ?_⟩
      by_cases greater : id < new
      · rw [if_pos greater]
        have replaced :=
          @Kept.replace offers (stub new distance metric) cost id kept (sumCost ▸ BitVec.le_refl _)
          fun _ => BitVec.le_of_lt greater
        rw [sumCost] at replaced
        exact replaced
      · rw [if_neg greater]
        exact kept.stay (sumCost ▸ BitVec.le_refl _) fun _ => BitVec.not_lt.mp greater
    · have less : (stub new distance metric).cost < cost := sumCost ▸ near
      have replaced := @Least.replace offers (stub new distance metric) cost id least less
      rw [cost_stub_iff, sumCost] at replaced
      rw [if_neg (BitVec.not_lt.mpr (BitVec.le_of_lt near)), if_neg (BitVec.ne_of_lt near)]
      refine ⟨replaced.trans (or_iff_left ?_).symm, fun _ => ?_⟩
      · rintro ⟨other, inside, low⟩
        have high := every other inside
        rw [sumCost] at low
        have below : sum.toNat < cost.toNat := near
        omega
      · have kept' := @Kept.replace offers (stub new distance metric) cost id kept
            (BitVec.le_of_lt less) fun same =>
          absurd same (BitVec.ne_of_lt less)
        rw [sumCost] at kept'
        exact kept'

end Offer

/-- A call of `ospf_intra_add_transit` or of `ospf_intra_add_stub`. -/
inductive IntraCall where
  | transit (area : SpfArea) (v : Vertex)
  | stub (area : SpfArea) (root : VertexKey) (v : Vertex) (link : RouterLsaLink)

namespace IntraCall

def run (rt : IntraTable) : IntraCall → IntraTable
  | transit area v => area.ospfIntraAddTransit rt v
  | stub area root v link => area.ospfIntraAddStub root v rt link

def dest : IntraCall → Dest
  | transit _ v => v.network
  | stub _ _ _ link => link.network

def offer : IntraCall → Offer
  | transit _ v => .transit v.lsa.key.id v.distance
  | stub _ _ v link => .stub v.lsa.key.id v.distance link.metric

end IntraCall

section
variable (rt : IntraTable)

/-- The cost and the origin's Link State ID of an entry. -/
def entryAt (p : Dest) : Option (BitVec 32 × InAddr) :=
  (rt p).map fun route => (route.cost, route.origin.id)

def costAt (p : Dest) : Option Nat :=
  (rt p).map fun route => route.cost.toNat

theorem costAt_eq (p : Dest) : costAt rt p = (entryAt rt p).map fun entry => entry.1.toNat := by
  rw [entryAt, Option.map_map]
  rfl

theorem entryAt_update (at_ p : Dest) (route : IntraRoute) :
    entryAt (update rt at_ (some route)) p = if at_ = p then some (route.cost, route.origin.id)
    else entryAt rt p := by
  by_cases here : at_ = p
  · subst here
    rw [entryAt, update_self, if_pos rfl]
    rfl
  · rw [entryAt, update_of_ne (Ne.symm here), if_neg here, entryAt]

theorem entryAt_run (call : IntraCall) (p : Dest) :
    entryAt (call.run rt) p = if call.dest = p then Offer.take (entryAt rt p) call.offer
    else entryAt rt p := by
  cases call with
  | transit area v =>
    rw [IntraCall.run, ospfIntraAddTransit, IntraCall.dest]
    cases entry : rt v.network with
    | none =>
      rw [entryAt_update]
      refine ite_congr rfl (fun here => ?_) fun _ => rfl
      rw [← here, entryAt, entry]
      rfl
    | some curOr =>
      dsimp only
      have current (here : v.network = p) : entryAt rt p = some (curOr.cost, curOr.origin.id) := by
        rw [← here, entryAt, entry]
        rfl
      by_cases passed : v.distance > curOr.cost ∨ curOr.origin.id > v.lsa.key.id
      · rw [if_pos passed]
        refine (ite_eq_right_iff.mpr fun here => ?_).symm
        rw [current here]
        exact if_pos passed
      · rw [if_neg passed, entryAt_update]
        refine ite_congr rfl (fun here => ?_) fun _ => rfl
        rw [current here]
        exact (if_neg passed).symm
  | stub area root v link =>
    rw [IntraCall.run, ospfIntraAddStub, IntraCall.dest]
    cases entry : rt link.network with
    | none =>
      rw [entryAt_update]
      refine ite_congr rfl (fun here => ?_) fun _ => rfl
      rw [← here, entryAt, entry]
      rfl
    | some curOr =>
      dsimp only
      have current (here : link.network = p) :
          entryAt rt p = some (curOr.cost, curOr.origin.id) := by
        rw [← here, entryAt, entry]
        rfl
      by_cases far : v.distance + link.metric.setWidth 32 > curOr.cost
      · rw [if_pos far]
        refine (ite_eq_right_iff.mpr fun here => ?_).symm
        rw [current here]
        exact if_pos far
      · rw [if_neg far]
        by_cases equal : v.distance + link.metric.setWidth 32 = curOr.cost
        · rw [if_pos equal, entryAt_update]
          refine ite_congr rfl (fun here => ?_) fun _ => rfl
          rw [current here]
          refine Eq.trans ?_ ((if_neg far).trans (if_pos equal)).symm
          split <;> rfl
        · rw [if_neg equal, entryAt_update]
          refine ite_congr rfl (fun here => ?_) fun _ => rfl
          rw [current here]
          exact ((if_neg far).trans (if_neg equal)).symm

end

/-- The table after some calls into a new one. -/
def tableAfter (calls : List IntraCall) : IntraTable :=
  calls.foldl IntraCall.run fun _ => none

/-- What calls offer for a network. -/
def offersFor (p : Dest) (calls : List IntraCall) : List Offer :=
  (calls.filter fun call => call.dest = p).map IntraCall.offer

theorem entryAt_concat (front : List IntraCall) (call : IntraCall) (p : Dest) :
    entryAt (tableAfter (front ++ [call])) p =
      if call.dest = p then Offer.take (entryAt (tableAfter front) p) call.offer
      else entryAt (tableAfter front) p := by
  rw [tableAfter, foldl_concat, entryAt_run]
  rfl

theorem offersFor_concat (p : Dest) (front : List IntraCall) (call : IntraCall) :
    offersFor p (front ++ [call]) = if call.dest = p then offersFor p front ++ [call.offer]
    else offersFor p front := by
  rw [offersFor, filter_append, map_append]
  by_cases here : call.dest = p
  · rw [if_pos here, filter_singleton, decide_eq_true here]
    rfl
  · rw [if_neg here, filter_singleton, decide_eq_false here]
    exact append_nil _

variable {p : Dest} {front : List IntraCall} {call : IntraCall}

theorem mem_offersFor {calls offer} :
    offer ∈ offersFor p calls ↔ ∃ call ∈ calls, call.dest = p ∧ call.offer = offer := by
  rw [offersFor, mem_map]
  constructor
  · rintro ⟨call, member, same⟩
    obtain ⟨inside, here⟩ := mem_filter.mp member
    exact ⟨call, inside, of_decide_eq_true here, same⟩
  · rintro ⟨call, inside, here, same⟩
    exact ⟨call, mem_filter.mpr ⟨inside, decide_eq_true here⟩, same⟩

/-- Each offer for a network is taken rightly after those before it. -/
def AllTakenRight (p : Dest) (calls : List IntraCall) : Prop :=
  ∀ front call back, calls = front ++ call :: back → call.dest = p →
    Offer.TakenRight (offersFor p front) call.offer

theorem allTakenRight_concat :
    AllTakenRight p (front ++ [call]) ↔ AllTakenRight p front ∧
    (call.dest = p → Offer.TakenRight (offersFor p front) call.offer) :=
  forall_split_concat

theorem forall_prefix_concat {Good : List IntraCall → Prop} :
    (∀ start, start <+: front ++ [call] → Good start) ↔
    (∀ start, start <+: front → Good start) ∧ Good (front ++ [call]) := by
  constructor
  · intro all
    exact ⟨fun start short => all start (short.trans (prefix_append front [call])),
      all _ prefix_rfl⟩
  · rintro ⟨all, last⟩ start short
    obtain rfl | shorter := prefix_concat_iff.mp short
    · exact last
    · exact all start shorter

/-- The entry has the least length after every call just where each offer is taken rightly, and
keeps the greatest Link State ID there. -/
theorem least_along_iff (p : Dest) (calls : List IntraCall) :
    ((∀ front, front <+: calls → Offer.Least (offersFor p front) (entryAt (tableAfter front) p)) ↔
      AllTakenRight p calls) ∧
      (AllTakenRight p calls → Offer.Kept (offersFor p calls) (entryAt (tableAfter calls) p)) := by
  induction calls using reverseRecOn with
  | nil =>
    refine ⟨iff_of_true (fun front short => ?_) fun front call back split => ?_, fun _ => rfl⟩
    · rw [prefix_nil.mp short]
      rfl
    · cases front <;> cases split
  | append_singleton front call ih =>
    obtain ⟨along, kept⟩ := ih
    rw [forall_prefix_concat, allTakenRight_concat, along, entryAt_concat, offersFor_concat]
    by_cases here : call.dest = p
    · rw [if_pos here, if_pos here, forall_prop_of_true here]
      have step (right : AllTakenRight p front) :
          (Offer.Least (offersFor p front ++ [call.offer])
            (Offer.take (entryAt (tableAfter front) p) call.offer) ↔
            Offer.TakenRight (offersFor p front) call.offer) ∧
          (Offer.TakenRight (offersFor p front) call.offer →
            Offer.Kept (offersFor p front ++ [call.offer])
              (Offer.take (entryAt (tableAfter front) p) call.offer)) := by
        have least := along.mpr right front prefix_rfl
        have before := kept right
        cases entry : entryAt (tableAfter front) p with
        | none =>
          rw [entry] at before
          rw [show offersFor p front = [] from before]
          exact ⟨(Offer.take_first call.offer).1, fun _ => (Offer.take_first call.offer).2⟩
        | some entry =>
          rw [entry] at before least
          exact Offer.take_next before least call.offer
      exact ⟨and_congr_right fun right => (step right).1, fun right => (step right.1).2 right.2⟩
    · rw [if_neg here, if_neg here]
      refine ⟨and_congr_right fun right => ?_, fun right => kept right.1⟩
      exact iff_of_true (along.mpr right front prefix_rfl) fun named => absurd named here

/-- Calls that were not passed over for their Link State ID. -/
def Taken (p : Dest) (calls : List IntraCall) (cost : BitVec 32) : Prop :=
  ∃ front call back, calls = front ++ call :: back ∧ call.dest = p ∧ call.offer.cost = cost ∧
    ¬ call.offer.Refused (entryAt (tableAfter front) p)

theorem taken_concat {cost} : Taken p (front ++ [call]) cost ↔ Taken p front cost ∨
      call.dest = p ∧ call.offer.cost = cost ∧
      ¬ call.offer.Refused (entryAt (tableAfter front) p) := by
  constructor
  · rintro ⟨start, other, back, split, holds⟩
    obtain rfl | ⟨rest, last, rfl⟩ := back.eq_nil_or_concat'
    · obtain ⟨rfl, same⟩ := append_inj' split rfl
      obtain rfl := head_eq_of_cons_eq same
      exact .inr holds
    · have longer : front ++ [call] = (start ++ other :: rest) ++ [last] := by
        rw [split, append_assoc]
        rfl
      exact .inl ⟨start, other, rest, append_inj_left' longer rfl, holds⟩
  · rintro (⟨start, other, back, rfl, holds⟩ | holds)
    · exact ⟨start, other, back ++ [call], by rw [append_assoc]; rfl, holds⟩
    · exact ⟨front, call, [], rfl, holds⟩

theorem entry_taken (p : Dest) (calls : List IntraCall) :
    match entryAt (tableAfter calls) p with
    | none => offersFor p calls = []
    | some (cost, _) => Taken p calls cost ∧ ∀ other, Taken p calls other → cost ≤ other := by
  induction calls using reverseRecOn with
  | nil => rfl
  | append_singleton front call ih =>
    rw [entryAt_concat, offersFor_concat]
    by_cases here : call.dest = p
    · rw [if_pos here]
      obtain ⟨cost, origin, taken, refused, accepted⟩ :=
        Offer.take_cost (entryAt (tableAfter front) p) call.offer
      rw [taken]
      by_cases passed : call.offer.Refused (entryAt (tableAfter front) p)
      · rw [refused passed] at ih
        obtain ⟨least, all⟩ := ih
        refine ⟨taken_concat.mpr (.inl least), fun other more => ?_⟩
        rcases taken_concat.mp more with old | ⟨-, -, not⟩
        · exact all other old
        · exact absurd passed not
      · obtain ⟨low, source, bound⟩ := accepted passed
        constructor
        · rcases source with same | ⟨old, entry⟩
          · exact taken_concat.mpr (.inr ⟨here, same.symm, passed⟩)
          · rw [entry] at ih
            exact taken_concat.mpr (.inl ih.1)
        · intro other more
          rcases taken_concat.mp more with old | ⟨-, rfl, -⟩
          · cases entry : entryAt (tableAfter front) p with
            | none =>
              rw [entry] at ih
              obtain ⟨start, earlier, back, rfl, named, -⟩ := old
              have listed : earlier.offer ∈ offersFor p (start ++ earlier :: back) :=
                mem_offersFor.mpr ⟨earlier, mem_append_right start mem_cons_self, named, rfl⟩
              rw [show offersFor p (start ++ earlier :: back) = [] from ih] at listed
              cases listed
            | some before =>
              obtain ⟨earlier, by_⟩ := before
              rw [entry] at ih
              exact BitVec.le_trans (bound earlier by_ entry) (ih.2 other old)
          · exact low
    · rw [if_neg here, if_neg here]
      have same (cost : BitVec 32) : Taken p (front ++ [call]) cost ↔ Taken p front cost := by
        rw [taken_concat]
        exact or_iff_left fun named => here named.1
      simp only [same]
      exact ih

/-- The lengths of the ways over the stub links of a vertex. -/
def Vertex.stubLengths (v : Vertex) (p : Dest) : List Nat :=
  (v.stubs.filter fun link => link.network = p).map fun link => v.distance.toNat + link.metric.toNat

namespace SpfArea

/-- The calls of an area's calculation. -/
def calls (area : SpfArea) : List IntraCall :=
  match area.routerLsaSelf with
  | none => []
  | some mine =>
    ((area.tree mine).filter fun v => v.key.type ≠ .router).map (.transit area) ++
      (area.stubOrder mine).flatMap fun v => v.stubs.map (.stub area (area.rootVertex mine).key v)

/-- The distances of the transit networks of an area with this prefix, and the distances of its
routers with the cost of their stub links for it. -/
def networkLengths (area : SpfArea) (p : Dest) : List Nat :=
  match area.routerLsaSelf with
  | none => []
  | some mine =>
    (((area.tree mine).filter fun v => v.key.type ≠ .router).filter fun v => v.network = p).map
      (fun v => v.distance.toNat) ++
      (area.rootVertex mine :: area.tree mine).flatMap fun v => v.stubLengths p

/-- Those over the routers that have no next hop. -/
def hiddenLengths (area : SpfArea) (p : Dest) : List Nat :=
  match area.routerLsaSelf with
  | none => []
  | some mine => ((area.tree mine).filter fun v => v.nexthop = []).flatMap fun v => v.stubLengths p

theorem foldl_joinTable (area : SpfArea) (tree : List Vertex) (rt : IntraTable) :
    tree.foldl area.joinTable rt =
      ((tree.filter fun v => v.key.type ≠ .router).map (IntraCall.transit area)).foldl
        IntraCall.run rt := by
  induction tree generalizing rt with
  | nil => rfl
  | cons v rest ih =>
    rw [foldl_cons, joinTable, filter_cons]
    by_cases router : v.key.type = .router
    · rw [if_pos router, if_neg (by rw [decide_eq_true_eq]; exact not_not_intro router)]
      exact ih rt
    · rw [if_neg router, if_pos (decide_eq_true router)]
      exact ih _

theorem ospfSpfCalculateInto_calls {area : SpfArea} {fuel} (enough : area.spfFuel ≤ fuel)
    (newTable : IntraTable) :
    area.ospfSpfCalculateInto fuel newTable = some (area.calls.foldl IntraCall.run newTable) := by
  cases own : area.routerLsaSelf with
  | none =>
    rw [ospfSpfCalculateInto, calls, own]
    rfl
  | some mine =>
    rw [area.ospfSpfCalculateInto_own mine own enough, calls, own, foldl_joinTable]
    rw [foldl_append, foldl_flatMap]
    simp only [foldl_map]
    rfl

theorem mem_stubLengths {v : Vertex} {p length} :
    length ∈ v.stubLengths p ↔ ∃ link ∈ v.stubs, link.network = p ∧
    v.distance.toNat + link.metric.toNat = length := by
  rw [Vertex.stubLengths, mem_map]
  constructor
  · rintro ⟨link, member, same⟩
    obtain ⟨inside, here⟩ := mem_filter.mp member
    exact ⟨link, inside, of_decide_eq_true here, same⟩
  · rintro ⟨link, inside, here, same⟩
    exact ⟨link, mem_filter.mpr ⟨inside, decide_eq_true here⟩, same⟩

/-- The calls offer all lengths but those over routers without next hops. -/
theorem mem_networkLengths {area : SpfArea} {p length} :
    length ∈ area.networkLengths p ↔
    (∃ call ∈ area.calls, call.dest = p ∧ call.offer.length = length) ∨
      length ∈ area.hiddenLengths p := by
  rw [networkLengths, calls, hiddenLengths]
  cases area.routerLsaSelf with
  | none =>
    constructor
    · intro member
      cases member
    · rintro (⟨call, member, -⟩ | member)
      · cases member
      · cases member
  | some mine =>
    constructor
    · intro member
      rcases mem_append.mp member with near | over_
      · obtain ⟨v, inside, rfl⟩ := mem_map.mp near
        obtain ⟨network, here⟩ := mem_filter.mp inside
        refine .inl ⟨.transit area v, ?_, of_decide_eq_true here, rfl⟩
        exact mem_append_left _ (mem_map_of_mem network)
      · obtain ⟨v, inside, stub⟩ := mem_flatMap.mp over_
        obtain ⟨link, listed, here, same⟩ := mem_stubLengths.mp stub
        have handled (walked : v ∈ area.stubOrder mine) :
            ∃ call ∈ ((area.tree mine).filter fun v => v.key.type ≠ .router).map
              (IntraCall.transit area) ++
              (area.stubOrder mine).flatMap
                (fun v => v.stubs.map (.stub area (area.rootVertex mine).key v)),
              call.dest = p ∧ call.offer.length = length := by
          refine ⟨.stub area (area.rootVertex mine).key v link, ?_, here, same⟩
          exact mem_append_right _ (mem_flatMap.mpr ⟨v, walked, mem_map_of_mem listed⟩)
        rcases mem_cons.mp inside with root | joined
        · exact .inl (handled ((area.mem_stubOrder mine v).mpr (.inl root)))
        · by_cases hops : v.nexthop = []
          · exact .inr (mem_flatMap.mpr ⟨v, mem_filter.mpr ⟨joined, decide_eq_true hops⟩, stub⟩)
          · exact .inl (handled ((area.mem_stubOrder mine v).mpr (.inr ⟨joined, hops⟩)))
    · rintro (⟨call, member, here, same⟩ | hidden)
      · rcases mem_append.mp member with near | over_
        · obtain ⟨v, network, rfl⟩ := mem_map.mp near
          exact mem_append_left _
            (mem_map.mpr ⟨v, mem_filter.mpr ⟨network, decide_eq_true here⟩, same⟩)
        · obtain ⟨v, walked, stub⟩ := mem_flatMap.mp over_
          obtain ⟨link, listed, rfl⟩ := mem_map.mp stub
          have inTree : v ∈ area.rootVertex mine :: area.tree mine := by
            rcases (area.mem_stubOrder mine v).mp walked with root | ⟨joined, -⟩
            · exact root ▸ mem_cons_self
            · exact .tail _ joined
          exact mem_append_right _
            (mem_flatMap.mpr ⟨v, inTree, mem_stubLengths.mpr ⟨link, listed, here, same⟩⟩)
      · obtain ⟨v, member, stub⟩ := mem_flatMap.mp hidden
        have inTree := mem_cons_of_mem (area.rootVertex mine) (mem_filter.mp member).1
        exact mem_append_right _ (mem_flatMap.mpr ⟨v, inTree, stub⟩)

end SpfArea

/-- The calls of one area after the other. -/
def intraCalls (areas : List SpfArea) : List IntraCall :=
  areas.flatMap SpfArea.calls

def intraLengths (areas : List SpfArea) (p : Dest) : List Nat :=
  areas.flatMap fun area => area.networkLengths p

/-- The entry of a network has the least length in the end. -/
structure Fits (areas : List SpfArea) (p : Dest) : Prop where
  /-- No sum of 32 bits wraps to less than all lengths. -/
  room : ∀ offer ∈ offersFor p (intraCalls areas), ∃ length ∈ intraLengths areas p,
    length ≤ offer.cost.toNat
  /-- Over a router without next hops it is not shorter. -/
  covered : ∀ area ∈ areas, ∀ length ∈ area.hiddenLengths p,
    ∃ offer ∈ offersFor p (intraCalls areas), offer.cost.toNat ≤ length
  /-- A call of the least cost is not passed over for its Link State ID. -/
  taken : offersFor p (intraCalls areas) ≠ [] →
    ∃ cost, Taken p (intraCalls areas) cost ∧ ∀ offer ∈ offersFor p (intraCalls areas),
      cost ≤ offer.cost

theorem ospfSpfCalculateAreas_calls {areas : List SpfArea} {fuel}
    (enough : ∀ area ∈ areas, area.spfFuel ≤ fuel) :
    ospfSpfCalculateAreas areas fuel = some (tableAfter (intraCalls areas)) := by
  have loop (newTable : IntraTable) :
      areas.foldlM (fun newTable area => area.ospfSpfCalculateInto fuel newTable) newTable =
      some ((intraCalls areas).foldl IntraCall.run newTable) := by
    induction areas generalizing newTable with
    | nil => rfl
    | cons area rest ih =>
      rw [foldlM_cons, ospfSpfCalculateInto_calls (enough area mem_cons_self), intraCalls,
        flatMap_cons, foldl_append]
      exact ih (fun other member => enough other (.tail _ member)) _
  exact loop _

theorem mem_intraLengths {areas : List SpfArea} {length} :
    length ∈ intraLengths areas p ↔
    (∃ offer ∈ offersFor p (intraCalls areas), offer.length = length) ∨
      ∃ area ∈ areas, length ∈ area.hiddenLengths p := by
  constructor
  · intro member
    obtain ⟨area, inside, own⟩ := mem_flatMap.mp member
    rcases mem_networkLengths.mp own with ⟨call, listed, here, same⟩ | hidden
    · exact .inl ⟨call.offer,
        mem_offersFor.mpr ⟨call, mem_flatMap.mpr ⟨area, inside, listed⟩, here, rfl⟩, same⟩
    · exact .inr ⟨area, inside, hidden⟩
  · rintro (⟨offer, offered, same⟩ | ⟨area, inside, hidden⟩)
    · obtain ⟨call, listed, here, rfl⟩ := mem_offersFor.mp offered
      obtain ⟨area, inside, own⟩ := mem_flatMap.mp listed
      exact mem_flatMap.mpr ⟨area, inside, mem_networkLengths.mpr (.inl ⟨call, own, here, same⟩)⟩
    · exact mem_flatMap.mpr ⟨area, inside, mem_networkLengths.mpr (.inr hidden)⟩

theorem taken_or_length (p : Dest) {calls offer} (offered : offer ∈ offersFor p calls) :
    Taken p calls offer.cost ∨ offer.length = offer.cost.toNat := by
  obtain ⟨call, listed, here, rfl⟩ := mem_offersFor.mp offered
  cases isOffer : call.offer with
  | transit id distance => exact .inr rfl
  | stub id distance metric =>
    obtain ⟨front, back, split⟩ := append_of_mem listed
    refine .inl ⟨front, call, back, split, here, by rw [isOffer], ?_⟩
    rw [isOffer]
    exact False.elim

theorem fits_iff (areas : List SpfArea) (p : Dest) :
    costAt (tableAfter (intraCalls areas)) p = (intraLengths areas p).min? ↔ Fits areas p := by
  have entry := entry_taken p (intraCalls areas)
  rw [costAt_eq]
  cases found : entryAt (tableAfter (intraCalls areas)) p with
  | none =>
    rw [found] at entry
    have nothing : offersFor p (intraCalls areas) = [] := entry
    rw [Option.map_none, eq_comm, min?_eq_none_iff]
    constructor
    · intro empty
      refine ⟨fun offer member => ?_, fun area inside length hidden => ?_,
        fun some_ => absurd nothing some_⟩
      · rw [nothing] at member
        cases member
      · have member := mem_intraLengths.mpr (.inr ⟨area, inside, hidden⟩)
        rw [empty] at member
        cases member
    · intro fits
      refine eq_nil_iff_forall_not_mem.mpr fun length member => ?_
      rcases mem_intraLengths.mp member with ⟨offer, offered, -⟩ | ⟨area, inside, hidden⟩
      · rw [nothing] at offered
        cases offered
      · obtain ⟨offer, offered, -⟩ := fits.covered area inside length hidden
        rw [nothing] at offered
        cases offered
  | some found_ =>
    obtain ⟨cost, id⟩ := found_
    rw [found] at entry
    obtain ⟨taken, least⟩ := entry
    rw [Option.map_some, eq_comm, min?_eq_some_iff]
    have offered (other : BitVec 32) (taken : Taken p (intraCalls areas) other) :
        ∃ offer ∈ offersFor p (intraCalls areas), offer.cost = other := by
      obtain ⟨front, call, back, split, here, same, -⟩ := taken
      refine ⟨call.offer, mem_offersFor.mpr ⟨call, ?_, here, rfl⟩, same⟩
      rw [split]
      exact mem_append_right front mem_cons_self
    constructor
    · rintro ⟨member, below⟩
      have low (offer : Offer) (listed : offer ∈ offersFor p (intraCalls areas)) :
          cost ≤ offer.cost := by
        rcases taken_or_length p listed with own | exact_
        · exact least _ own
        · have short := below offer.length (mem_intraLengths.mpr (.inl ⟨offer, listed, rfl⟩))
          rw [exact_] at short
          exact short
      refine ⟨fun offer listed => ⟨cost.toNat, member, low offer listed⟩,
        fun area inside length hidden => ?_, fun _ => ⟨cost, taken, low⟩⟩
      obtain ⟨offer, listed, same⟩ := offered cost taken
      refine ⟨offer, listed, ?_⟩
      rw [same]
      exact below length (mem_intraLengths.mpr (.inr ⟨area, inside, hidden⟩))
    · intro fits
      obtain ⟨first, listed, same⟩ := offered cost taken
      obtain ⟨lowest, own, all⟩ := fits.taken (ne_nil_of_mem listed)
      have equal : cost = lowest := BitVec.le_antisymm (least lowest own) (same ▸ all first listed)
      have below (length : Nat) (member : length ∈ intraLengths areas p) : cost.toNat ≤ length := by
        rcases mem_intraLengths.mp member with ⟨offer, offered, rfl⟩ | ⟨area, inside, hidden⟩
        · exact le_trans (equal ▸ all offer offered) offer.cost_le_length
        · obtain ⟨offer, offered, short⟩ := fits.covered area inside length hidden
          exact le_trans (equal ▸ all offer offered) short
      refine ⟨?_, below⟩
      obtain ⟨length, member, short⟩ := fits.room first listed
      rw [same] at short
      rwa [le_antisymm (below length member) short]

/-- The calculations of any areas, one after the other, end with a table. The entry of a network
costs the least length of all areas if and only if `Fits` holds, and it costs the least of what was
offered so far after every call if and only if every offer is taken rightly. -/
theorem intra_area_costs (areas : List SpfArea) :
    ∃ table, (∀ fuel, (∀ area ∈ areas, area.spfFuel ≤ fuel) →
      ospfSpfCalculateAreas areas fuel = some table) ∧
      ∀ p, (costAt table p = (intraLengths areas p).min? ↔ Fits areas p) ∧
        ((∀ front, front <+: intraCalls areas →
          costAt (tableAfter front) p = ((offersFor p front).map Offer.length).min?) ↔
          AllTakenRight p (intraCalls areas)) := by
  refine ⟨tableAfter (intraCalls areas), fun fuel enough => ospfSpfCalculateAreas_calls enough,
    fun p => ⟨fits_iff areas p, ?_⟩⟩
  simp only [costAt_eq]
  exact (least_along_iff p (intraCalls areas)).1

/-- An area in which we are the designated router of a network, at a metric. -/
def networkArea (areaId : AreaId) (address : InAddr) (metric : Octet) : SpfArea :=
  let lsas : List OspfLsa := [
    { data := { key := ⟨.router, 0x01010101, 0x01010101⟩, lsSeqnum := 0x80000001, length := 36 }
      body := [0, 0, 0, 1] ++ toOctets 4 address.toNat ++ toOctets 4 address.toNat ++
        [2, 0, 0, metric] },
    { data := { key := ⟨.network, address, 0x01010101⟩, lsSeqnum := 0x80000001, length := 32 }
      body := [255, 255, 255, 0, 1, 1, 1, 1, 2, 2, 2, 2] }]
  { ospf :=
      { lsa := fun id => lsas.getD id (ownRouter 0), routerId := 0x01010101,
        areas := [{ id := areaId }]
        oiflist := [{ id := areaId, area := areaId, address }]
        nbr := fun _ => { oi := 0, routerId := 0, address := 0, state := .down }
        lsdbs := ((List.range 2).foldl (fun store id => store.ospfLsdbAdd (.area areaId) id)
          { lsa := fun id => lsas.getD id (ownRouter 0) } : Store).lsdbs }
    area := areaId
    routerLsaSelf := some 0 }

/-- 10.0.0.0/24 is at 20 in area 1 and at 10 in area 2, where its network-LSA has the smaller Link
State ID: calculated in this order, it keeps the cost of 20. -/
theorem shared_network_longer :
    (ospfSpfCalculateAreas [networkArea 1 0x0a000002 20, networkArea 2 0x0a000001 10] 3).map
      (costAt · ⟨0x0a000000, 24⟩) = some (some 20) ∧
      (intraLengths [networkArea 1 0x0a000002 20, networkArea 2 0x0a000001 10]
        ⟨0x0a000000, 24⟩).min? = some 10 ∧
      (ospfSpfCalculateAreas [networkArea 2 0x0a000001 10, networkArea 1 0x0a000002 20] 3).map
        (costAt · ⟨0x0a000000, 24⟩) =
        some (some 10) := by
  refine ⟨?_, ?_, ?_⟩
  · decide +kernel
  · decide +kernel
  · decide +kernel

end Zebra.Ospfd
