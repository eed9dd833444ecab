import Zebra.Ospfd.SpfShortest

/-! Areas with several LSAs for one network. `ospf_lsa_lookup_by_id` takes the first of them,
whatever its age. -/
namespace Zebra.Ospfd
open Base List Option OspfLsa
namespace SpfArea
variable (area : SpfArea) (mine : LsaId)

/-- The LSAs of the database for a vertex. -/
def lsas (key : VertexKey) : List LsaId :=
  match key.type with
  | .router => ((area.ospf.lsdb (.area area.area)).lookup ⟨.router, key.id, key.id⟩).toList
  | .network => (area.networkLsas key.id).filterMap (area.ospf.lsdb (.area area.area)).lookup
  | _ => []

/-- The links of an LSA to others that link back, none of the two MaxAge. -/
def mutualLinks (v : LsaId) : List (LsaId × Nat) :=
  if (area.ospf.lsa v).isMaxage area.ospf.now then []
  else (area.ospf.lsa v).advertised.flatMap fun link =>
    ((area.lsas link.1).filter fun w => !(area.ospf.lsa w).isMaxage area.ospf.now &&
      (area.ospf.lsa w).advertised.any fun back => back.1 = (area.ospf.lsa v).vertexKey).map
        (·, link.2)

/-- Those to LSAs that `ospf_lsa_lookup_by_id` finds. -/
def foundLinks (v : LsaId) : List (LsaId × Nat) :=
  (area.mutualLinks v).filter fun link =>
    area.ospfLsaLookupById (area.ospf.lsa link.1).vertexKey = some link.1

/-- An LSA of the vertex can be reached at a cost. -/
def Reaches (key : VertexKey) (cost : Nat) : Prop :=
  ∃ id, (area.ospf.lsa id).vertexKey = key ∧ Walk area.mutualLinks mine id cost

/-- The least cost at which LSAs of the vertex are reached. -/
abbrev NearestVertex (key : VertexKey) (cost : Nat) : Prop :=
  IsLeast { cost | area.Reaches mine key cost } cost

/-- The calculation ends with what can be reached from our own LSA, each vertex once and at its
  least cost. -/
def Shortest : Prop :=
  ∃ spf, (∀ fuel ≥ (area.vertices mine).length, ospfSpfCalculate area fuel = some spf) ∧
    spf.registered.Nodup ∧
    (∀ key, key ∈ spf.registered ↔ ∃ cost, area.Reaches mine key cost) ∧
    ∀ key cost, spf.distanceOf key = some cost ↔ area.NearestVertex mine key cost

/-- Our own LSA is not MaxAge, or nothing links with it; and every vertex is reached at its least
cost over LSAs that the lookup finds. -/
structure FirstServe : Prop where
  own : (area.ospf.lsa mine).isMaxage area.ospf.now = true →
    ∀ link ∈ area.spfLinks mine (area.rootKey mine), link.1 = area.rootKey mine
  first : ∀ key cost, area.NearestVertex mine key cost →
    ∃ id, (area.ospf.lsa id).vertexKey = key ∧ Walk area.foundLinks mine id cost

variable {area mine} {key : VertexKey} {id next : LsaId} {cost link : Nat}

theorem lookup_mem_lsas (found : area.ospfLsaLookupById key = some id) : id ∈ area.lsas key := by
  obtain ⟨type, at_id⟩ := key
  cases type with
  | router => exact Option.mem_toList.mpr found
  | network =>
    obtain ⟨lsa, least, stored⟩ := bind_eq_some_iff.mp found
    exact mem_filterMap.mpr ⟨lsa, argmin_mem least, stored⟩
  | summary => cases found
  | asbrSummary => cases found
  | asExternal => cases found

theorem WellFormed.lsas (wf : area.WellFormed mine) (member : id ∈ area.lsas key) :
    (area.ospf.lsa id).vertexKey = key := by
  obtain ⟨type, at_id⟩ := key
  cases type with
  | router => rw [vertexKey, wf.filed _ id (Option.mem_toList.mp member)]
  | network =>
    obtain ⟨lsa, inside, stored⟩ := mem_filterMap.mp member
    obtain ⟨same, type⟩ := networkLsas_spec inside stored
    rw [vertexKey, same, wf.filed _ id stored, type]
  | summary => cases member
  | asbrSummary => cases member
  | asExternal => cases member

theorem mem_mutualLinks : (next, link) ∈ area.mutualLinks id ↔
    (area.ospf.lsa id).isMaxage area.ospf.now = false ∧
    ∃ key, (key, link) ∈ (area.ospf.lsa id).advertised ∧ next ∈ area.lsas key ∧
      (area.ospf.lsa next).isMaxage area.ospf.now = false ∧
      ∃ back ∈ (area.ospf.lsa next).advertised, back.1 = (area.ospf.lsa id).vertexKey := by
  rw [mutualLinks]
  cases aged : (area.ospf.lsa id).isMaxage area.ospf.now with
  | true => simp
  | false => simp [and_assoc]

theorem linksBack_iff {w v : VertexKey} : area.linksBack w v = true ↔
    ∃ id, area.ospfLsaLookupById w = some id ∧
    (area.ospf.lsa id).isMaxage area.ospf.now = false ∧
    ∃ back ∈ (area.ospf.lsa id).advertised, back.1 = v := by
  simp [linksBack, Option.any_eq_true]

theorem Reaches.least (reaches : area.Reaches mine key cost) :
    ∃ least ≤ cost, area.NearestVertex mine key least :=
  ⟨_, Nat.sInf_le reaches, Nat.sInf_mem ⟨cost, reaches⟩, fun _ => Nat.sInf_le⟩

theorem lsaOf_eq (present : area.ospfLsaLookupById (area.rootKey mine) = some mine)
    (key : VertexKey) : area.lsaOf mine key = area.ospfLsaLookupById key := by
  rw [lsaOf]
  split
  · next root => rw [root, ← present]
  · rfl

/-- The links of the calculation, as those of the LSA the lookup finds. -/
theorem mem_spfLinks (present : area.ospfLsaLookupById (area.rootKey mine) = some mine)
    {v w : VertexKey} : (w, link) ∈ area.spfLinks mine v ↔
    ∃ id, area.ospfLsaLookupById v = some id ∧
    (v ≠ area.rootKey mine → (area.ospf.lsa id).isMaxage area.ospf.now = false) ∧
    (w, link) ∈ (area.ospf.lsa id).advertised ∧ area.linksBack w v = true := by
  rw [spfLinks, lsaOf_eq present]
  cases area.ospfLsaLookupById v with
  | none => simp
  | some id => by_cases root : v = area.rootKey mine <;> simp [root, rootKey]

section
variable (wf : area.WellFormed mine)
  (present : area.ospfLsaLookupById (area.rootKey mine) = some mine)
include wf present

theorem walk_found (found : Walk area.foundLinks mine id cost) :
    area.ospfLsaLookupById (area.ospf.lsa id).vertexKey = some id ∧
      Walk (area.spfLinks mine) (area.rootKey mine) (area.ospf.lsa id).vertexKey cost := by
  induction found with
  | start => exact ⟨present, .start⟩
  | @step id next cost link _ listed ih =>
    obtain ⟨at_id, walk⟩ := ih
    obtain ⟨listed, looked⟩ := mem_filter.mp listed
    obtain ⟨fresh, key, links, inside, freshNext, back⟩ := mem_mutualLinks.mp listed
    have looked := of_decide_eq_true looked
    have same := wf.lsas inside
    subst same
    exact ⟨looked, walk.step ((mem_spfLinks present).mpr ⟨id, at_id, fun _ => fresh, links,
      linksBack_iff.mpr ⟨next, looked, freshNext, back⟩⟩)⟩

theorem walk_spfLinks (fresh : (area.ospf.lsa mine).isMaxage area.ospf.now = false)
    (walk : Walk (area.spfLinks mine) (area.rootKey mine) key cost) :
    ∃ id, area.ospfLsaLookupById key = some id ∧ Walk area.foundLinks mine id cost := by
  induction walk with
  | start => exact ⟨mine, present, .start⟩
  | @step v w cost link _ listed ih =>
    obtain ⟨id, at_id, walk⟩ := ih
    obtain ⟨other, looked, young, links, back⟩ := (mem_spfLinks present).mp listed
    rw [at_id] at looked
    cases looked
    obtain ⟨next, at_next, freshNext, back⟩ := linksBack_iff.mp back
    have here : (area.ospf.lsa id).isMaxage area.ospf.now = false := by
      by_cases root : v = area.rootKey mine
      · rw [root, present] at at_id
        cases at_id
        exact fresh
      · exact young root
    have same := (wf.lookup at_id).1
    have sameNext := (wf.lookup at_next).1
    refine ⟨next, at_next,
      walk.step (mem_filter.mpr ⟨mem_mutualLinks.mpr ⟨here, w, links, lookup_mem_lsas at_next,
      freshNext, ?_⟩, ?_⟩)⟩
    · rw [same]
      exact back
    · rw [sameNext, at_next]
      exact decide_eq_true rfl

omit present wf in
theorem Walk.of_found (walk : Walk area.foundLinks mine id cost) :
    Walk area.mutualLinks mine id cost := by
  induction walk with
  | start => exact .start
  | step _ listed ih => exact ih.step (mem_filter.mp listed).1

omit present wf in
/-- From an LSA that is MaxAge nothing is reached. -/
theorem Reaches.aged (aged : (area.ospf.lsa mine).isMaxage area.ospf.now = true) :
    area.Reaches mine key cost ↔ key = area.rootKey mine ∧ cost = 0 := by
  constructor
  · rintro ⟨id, rfl, walk⟩
    have still : id = mine ∧ cost = 0 := by
      induction walk with
      | start => exact ⟨rfl, rfl⟩
      | step _ listed ih =>
        obtain ⟨fresh, _⟩ := mem_mutualLinks.mp listed
        rw [ih.1, aged] at fresh
        cases fresh
    exact ⟨congrArg (fun id => (area.ospf.lsa id).vertexKey) still.1, still.2⟩
  · rintro ⟨rfl, rfl⟩
    exact ⟨mine, rfl, .start⟩

/-- The calculation's own least costs are those of the database where the condition holds. -/
theorem FirstServe.nearest (serve : area.FirstServe mine) :
    Nearest (area.spfLinks mine) (area.rootKey mine) key cost ↔
    area.NearestVertex mine key cost := by
  cases aged : (area.ospf.lsa mine).isMaxage area.ospf.now with
  | true =>
    have stays : ∀ {key cost}, Walk (area.spfLinks mine) (area.rootKey mine) key cost →
        key = area.rootKey mine := by
      intro key cost walk
      induction walk with
      | start => rfl
      | step _ listed ih =>
        subst ih
        exact serve.own aged _ listed
    constructor
    · rintro ⟨walk, least⟩
      have root := stays walk
      subst root
      have none := Nat.le_zero.mp (least 0 .start)
      exact ⟨(Reaches.aged aged).mpr ⟨rfl, none⟩, fun _ _ => none ▸ Nat.zero_le _⟩
    · rintro ⟨reaches, -⟩
      obtain ⟨rfl, rfl⟩ := (Reaches.aged aged).mp reaches
      exact ⟨.start, fun _ _ => Nat.zero_le _⟩
  | false =>
    have reaches : ∀ {key cost}, Walk (area.spfLinks mine) (area.rootKey mine) key cost →
        area.Reaches mine key cost := by
      intro key cost walk
      obtain ⟨id, looked, found⟩ := walk_spfLinks wf present aged walk
      exact ⟨id, (wf.lookup looked).1, Walk.of_found found⟩
    have least : ∀ {key cost}, area.NearestVertex mine key cost →
        Walk (area.spfLinks mine) (area.rootKey mine) key cost := by
      intro key cost nearest
      obtain ⟨id, rfl, found⟩ := serve.first key cost nearest
      exact (walk_found wf present found).2
    constructor
    · intro nearest
      obtain ⟨short, below, found⟩ := (reaches nearest.walk).least
      rwa [Nat.le_antisymm (nearest.least short (least found)) below]
    · exact fun nearest => ⟨least nearest, fun other walk => nearest.2 (reaches walk)⟩

end

/-- The tree has the shortest paths exactly if our own LSA is not MaxAge, or nothing links with it,
and every vertex has a shortest path over LSAs that `ospf_lsa_lookup_by_id` finds. -/
theorem spf_shortest_iff (own : area.routerLsaSelf = some mine) (wf : area.WellFormed mine)
    (present : area.ospfLsaLookupById (area.rootKey mine) = some mine) (narrow : area.Narrow mine) :
    area.Shortest mine ↔ area.FirstServe mine := by
  obtain ⟨spf, ends, once, registered, distance⟩ := spf_calculate_shortest own wf narrow
  constructor
  · rintro ⟨other, ends', -, registered', distance'⟩
    cases (ends _ (Nat.le_refl _)).symm.trans (ends' _ (Nat.le_refl _))
    refine ⟨fun aged link listed => ?_, fun key cost nearest => ?_⟩
    · obtain ⟨cost, reaches⟩ :=
        (registered' link.1).mp ((registered link.1).mpr ⟨_, Walk.start.step listed⟩)
      exact ((Reaches.aged aged).mp reaches).1
    · cases aged : (area.ospf.lsa mine).isMaxage area.ospf.now with
      | true =>
        obtain ⟨rfl, rfl⟩ := (Reaches.aged aged).mp nearest.1
        exact ⟨mine, rfl, .start⟩
      | false =>
        have walk := ((distance key cost).mp ((distance' key cost).mpr nearest)).walk
        obtain ⟨id, looked, found⟩ := walk_spfLinks wf present aged walk
        exact ⟨id, (wf.lookup looked).1, found⟩
  · intro serve
    have same {key cost} := @FirstServe.nearest _ _ key cost wf present serve
    refine ⟨spf, ends, once, fun key => ?_, fun key cost => (distance key cost).trans same⟩
    rw [registered]
    constructor
    · rintro ⟨cost, walk⟩
      obtain ⟨short, -, nearest⟩ := walk.nearest
      exact ⟨short, (same.mp nearest).1⟩
    · rintro ⟨cost, reaches⟩
      obtain ⟨short, -, nearest⟩ := reaches.least
      exact ⟨short, (same.mpr nearest).walk⟩

end SpfArea

/-- The second LSA for the network is MaxAge, and the first one is what the tree takes. -/
def flushedSecond : SpfArea :=
  areaWith [ownRouter 0, otherRouter, transitNetwork 0x02020202 0, transitNetwork 0x03030303 3600]

theorem flushedSecond_narrow : flushedSecond.Narrow 0 := by
  have first : (⟨.network, 0x0a000001⟩, 10) ∈ flushedSecond.spfLinks 0
    (flushedSecond.rootKey 0) := by decide +kernel
  have second : (⟨.router, 0x02020202⟩, 0) ∈ flushedSecond.spfLinks 0 ⟨.network, 0x0a000001⟩ := by
    decide +kernel
  have toNetwork := Walk.start.step first
  have toOther := toNetwork.step second
  have closed : ∀ key ∈
      ([⟨.router, 0x01010101⟩, ⟨.network, 0x0a000001⟩, ⟨.router, 0x02020202⟩] : List VertexKey),
      ∀ link ∈ flushedSecond.spfLinks 0 key,
        link.1 ∈ ([⟨.router, 0x01010101⟩, ⟨.network, 0x0a000001⟩, ⟨.router, 0x02020202⟩] :
          List VertexKey) := by decide +kernel
  intro key cost walk
  have inside :
      key ∈ ([⟨.router, 0x01010101⟩, ⟨.network, 0x0a000001⟩, ⟨.router, 0x02020202⟩] :
      List VertexKey) := by
    induction walk with
    | start => exact mem_cons_self
    | step _ listed ih => exact closed _ ih _ listed
  simp only [mem_cons, not_mem_nil, or_false] at inside
  rcases inside with rfl | rfl | rfl
  · exact ⟨0, .start, by decide⟩
  · exact ⟨_, toNetwork, by decide⟩
  · exact ⟨_, toOther, by decide⟩

theorem flushedSecond_first : flushedSecond.FirstServe 0 where
  own aged := absurd aged (by decide +kernel)
  first := by
    have closed : ∀ id ∈ [0, 1, 2], ∀ link ∈ flushedSecond.mutualLinks id,
        link ∈ flushedSecond.foundLinks id ∧ link.1 ∈ [0, 1, 2] := by decide +kernel
    rintro key cost ⟨⟨id, same, walk⟩, -⟩
    have found : id ∈ [0, 1, 2] ∧ Walk flushedSecond.foundLinks 0 id cost := by
      clear same
      induction walk with
      | start => exact ⟨by decide, .start⟩
      | step _ listed ih =>
        obtain ⟨found, inside⟩ := closed _ ih.1 _ listed
        exact ⟨inside, ih.2.step found⟩
    exact ⟨id, same, found.2⟩

theorem spf_shortest_transit : flushedSecond.Shortest 0 := by
  refine (@SpfArea.spf_shortest_iff flushedSecond 0 rfl
    ⟨?_, ?_, rfl, by decide +kernel⟩ (by decide +kernel)
    flushedSecond_narrow).mpr flushedSecond_first
  · exact Lsdb.lookup_forall (by decide +kernel)
  · exact Lsdb.lookup_forall (by decide +kernel)

/-- The first LSA for the network is MaxAge and hides the current one of the other router. -/
theorem spf_hides_network :
    ¬ (areaWith [ownRouter 0, otherRouter, transitNetwork 0x02020202 3600,
      transitNetwork 0x03030303 0]).Shortest 0 := by
  rintro ⟨spf, ends, -, registered, -⟩
  have alone :
      (ospfSpfCalculate (areaWith [ownRouter 0, otherRouter, transitNetwork 0x02020202 3600,
      transitNetwork 0x03030303 0]) 5).map Spf.registered = some [⟨.router, 0x01010101⟩] := by
        decide +kernel
  rw [ends 5 (by decide +kernel), map_some, some.injEq] at alone
  have edge : (3, 10) ∈ (areaWith [ownRouter 0, otherRouter, transitNetwork 0x02020202 3600,
      transitNetwork 0x03030303 0]).mutualLinks 0 := by decide +kernel
  have reaches :=
    (registered ⟨.network, 0x0a000001⟩).mpr ⟨_, 3, by decide +kernel, Walk.start.step edge⟩
  rw [alone] at reaches
  exact absurd reaches (by decide)

end Zebra.Ospfd
