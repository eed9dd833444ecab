import Zebra.Ospf6d.RouteInvariant

namespace Zebra.Ospf6d
open Nat
open Function Base Base.Linked Ospf6RouteTable Option List

theorem infoFrom_spec {table} (wf : table.Wellformed) {start node}
    (found : table.nodes start = some node) :
    ∃ result, infoFrom table (some start) = some (table, result) ∧
      FirstInfo table (· < ·) (fun word => ¬ word < node.p.bits) result := by
  obtain ⟨result, ran, first⟩ :=
    skipBare_spec wf (moves_next wf) ((table.hold start).fresh + 1) found
    (succ_lt_succ (wf.behind_card_lt found))
  refine ⟨result, ?_, first⟩
  rw [infoFrom, lockStart, RouteTable.routeLockNode_hold found]
  simp only [bind_eq_bind, bind_some, ran]
  cases result with
  | none => rfl
  | some last =>
    obtain ⟨lastNode, lastFound, _⟩ := first
    simp only [RouteTable.holding, wf.unlock_hold lastFound, bind_some]
    rfl

theorem matchDown_spec {table} (wf : table.Wellformed) (p : Prefix) (fuel : Nat) {start}
    (live : ∀ id, start = some id → ∃ node, table.nodes id = some node ∧
      p.prefixlen + 1 - node.p.prefixlen < fuel)
    (some_ : 0 < fuel) : ∃ result, matchDown table p fuel start = some result ∧
      ∀ id, result = some id → ∃ node, table.nodes id = some node := by
  induction fuel generalizing start with
  | zero => exact absurd some_ (lt_irrefl 0)
  | succ fuel ih =>
    cases start with
    | none => exact ⟨none, rfl, nofun⟩
    | some id =>
      obtain ⟨node, found, enough⟩ := live id rfl
      rw [matchDown, found]
      simp only [bind_eq_bind, bind_some]
      by_cases further : node.p.prefixlen < p.prefixlen ∧ prefixMatch node.p p = true
      · rw [if_pos further]
        refine ih (fun child linked => ?_) (by omega)
        obtain ⟨_, ⟨childNode, childFound, rfl⟩, longer⟩ := wf.child_word found linked
        have length := longer.length_le
        rw [length_append, Prefix.length_bits, Prefix.length_bits, length_singleton] at length
        exact ⟨childNode, childFound, by omega⟩
      · rw [if_neg further]
        exact ⟨some id, rfl, fun other same => ⟨node, (some.inj same) ▸ found⟩⟩

namespace Ospf6RouteTable
variable {t after : Ospf6RouteTable} {held : RouteId → Nat} {order : List RouteId}
  {id other : RouteId} {route : Ospf6Route}

/-- One more lock on what a search returns. -/
def taking (held : RouteId → Nat) : Option RouteId → RouteId → Nat
  | none => held
  | some id => update held id (held id + 1)

/-- A reader gives back its lock. -/
def release (held : RouteId → Nat) (id : RouteId) : RouteId → Nat :=
  update held id (held id - 1)

namespace Sound
section
variable (sound : t.Sound held order)
include sound

theorem carried_mem {place node}
    (found : t.table.nodes place = some node) (carried : node.info = some id) :
    id ∈ order ∧ t.wordOf id = node.p.bits := by
  have leads := sound.first.mp ⟨place, node, found, rfl, carried⟩
  exact ⟨leader_mem leads, leader_key leads⟩

theorem carries_leader (member : id ∈ order) :
    ∃ first place node, leader t.wordOf order (t.wordOf id) = some first ∧
      t.table.nodes place = some node ∧
      node.p.bits = t.wordOf id ∧ node.info = some first := by
  obtain ⟨first, leads⟩ : ∃ first, leader t.wordOf order (t.wordOf id) = some first :=
    leader_exists member
  obtain ⟨place, node, found, same, carried⟩ := sound.first.mpr leads
  exact ⟨first, place, node, leads, found, same, carried⟩

theorem ospf6RouteHead (few : t.FewLocks) :
    t.ospf6RouteHead = some (t.holding order.head?, order.head?) := by
  rw [Ospf6RouteTable.ospf6RouteHead]
  cases top : t.table.top with
  | none =>
    -- nothing is in the table
    have empty : order = [] := by
      rw [eq_nil_iff_forall_not_mem]
      intro id member
      obtain ⟨_, place, node, _, found, _⟩ := sound.carries_leader member
      obtain ⟨root, _, present, _⟩ := sound.wf.top_begins found
      rw [top] at present
      cases present
    rw [empty]
    rfl
  | some root =>
    obtain ⟨rootNode, rootFound, _⟩ := sound.wf.represents.top.mp top
    obtain ⟨result, ran, first⟩ := infoFrom_spec sound.wf rootFound
    have reached : ∀ place node, t.table.nodes place = some node →
        ¬ node.p.bits < rootNode.p.bits := by
      intro place node found
      obtain ⟨again, againNode, present, againFound, begins⟩ := sound.wf.top_begins found
      rw [top] at present
      cases present
      rw [rootFound] at againFound
      cases againFound
      exact not_lt.mpr (le_of_begins begins)
    rw [ran]
    simp only [bind_eq_bind, bind_some]
    cases split : order with
    | nil =>
      cases result with
      | none => rfl
      | some last =>
        obtain ⟨lastNode, lastFound, full, _⟩ := first
        obtain ⟨info, carried⟩ := isSome_iff_exists.mp full
        have member := (sound.carried_mem lastFound carried).1
        rw [split] at member
        cases member
    | cons head rest =>
      have member : head ∈ order := split ▸ mem_cons_self
      obtain ⟨lead, place, node, leads, found, same, carried⟩ := sound.carries_leader member
      have isHead : lead = head := by
        rw [split, leader_cons, if_pos rfl] at leads
        exact (some.inj leads).symm
      subst isHead
      cases result with
      | none =>
        exact absurd (reached place node found) (first place node found (by rw [carried]; rfl))
      | some last =>
        obtain ⟨lastNode, lastFound, full, _, least⟩ := first
        obtain ⟨info, lastCarried⟩ := isSome_iff_exists.mp full
        have bound :=
          not_lt.mp (least place node found (by rw [carried]; rfl) (reached place node found))
        obtain ⟨lastMember, lastWord⟩ := sound.carried_mem lastFound lastCarried
        have least : t.wordOf lead ≤ t.wordOf info := by
          have inOrder := sound.inOrder
          rw [split] at inOrder lastMember
          rcases mem_cons.mp lastMember with here | later
          · rw [here]
          · exact (pairwise_cons.mp inOrder).1 info later
        have equal : lastNode.p.bits = node.p.bits :=
          le_antisymm bound (by rw [same, ← lastWord]; exact least)
        have here := place_unique sound.wf lastFound found equal
        rw [here, found] at lastFound
        cases lastFound
        obtain ⟨route, isRoute, _⟩ := sound.live member
        have start : t.prev lead = none :=
          sound.chained.prev (show order = [] ++ lead :: rest from split)
        rw [carried] at lastCarried
        simp only [here, found, carried, isRoute, bind_some, start, ne_eq,
          not_true_eq_false, if_false]
        have locked := ospf6RouteLock_hold few (sound.alive member)
        rw [locked]
        rfl

theorem countLoop (few : t.FewLocks) {before rest} (split : order = before ++ rest)
    (fuel : Nat) (enough : rest.length < fuel) :
    countLoop fuel (t.holding rest.head?) rest.head? = some (t, rest.length) := by
  induction rest generalizing before fuel with
  | nil =>
    cases fuel with
    | zero => exact nomatch enough
    | succ fuel => rfl
  | cons debug rest ih =>
    cases fuel with
    | zero => exact nomatch enough
    | succ fuel =>
      have member : debug ∈ order := split ▸ mem_append_cons_self
      have lock := sound.lock (sound.alive member)
      rw [if_pos member] at lock
      have next : (t.hold debug).next debug = rest.head? := sound.chained.next split
      have given := unlock_hold (sound.alive member) (by omega : t.lock debug ≠ 0)
      have locked : t.lockNext rest.head? = some (t.holding rest.head?) := by
        cases rest with
        | nil => rfl
        | cons second rest =>
          exact ospf6RouteLock_hold few
            (sound.alive (split ▸ mem_append_right _ (.tail _ mem_cons_self)))
      have later :=
        ih (split.trans (append_cons before debug rest)) fuel (lt_of_succ_lt_succ enough)
      rw [head?_cons, holding, Ospf6RouteTable.countLoop, ospf6RouteNext, next]
      simp only [Option.bind_eq_bind, given, Option.bind_some, locked, Option.pure_def, later,
        length_cons]

theorem routeCountAssert (few : t.FewLocks) : t.routeCountAssert = some t := by
  have enough : order.length < (t.holding order.head?).fresh + 1 := by
    have short := sound.length_le
    cases order.head? with
    | none => exact lt_succ_of_le short
    | some head => exact lt_succ_of_le short
  rw [Ospf6RouteTable.routeCountAssert, sound.ospf6RouteHead few]
  simp only [bind_eq_bind, bind_some,
    sound.countLoop few (show order = [] ++ order from rfl) _ enough]
  rw [if_pos sound.count.symm]
  rfl

end

theorem undeleted (sound : after.Sound held order) {gone} [DecidablePred gone]
    (routes : ∀ other, after.routes other = if gone other then none else t.routes other) :
    ∀ other ∈ order, after.routes other = t.routes other := by
  intro other member
  have there := sound.alive member
  rw [routes] at there ⊢
  exact if_neg fun isGone => there (if_pos isGone)

section
variable (sound : t.Sound held order)
include sound
variable (p : Prefix)

section
variable (few : t.FewLocks)
include few

theorem pass (holds : 0 < held id) {next}
    (there : ∀ target, next = some target → target ∈ order ∨ target ≠ id ∧ 0 < held target) :
    ∃ given after, t.ospf6RouteUnlock id = some given ∧ given.lockNext next = some after ∧
      after.Sound (taking (release held id) next) order ∧
      ∀ other ∈ order, after.routes other = t.routes other := by
  obtain ⟨given, ran, givenSound, routes, -, -, small⟩ := sound.unlock holds
  have lock := sound.lock (sound.holders holds)
  have keeps := givenSound.undeleted routes
  refine ⟨given, given.holding next, ran, ?_⟩
  cases next with
  | none => exact ⟨rfl, givenSound, keeps⟩
  | some target =>
    have stays : given.routes target = t.routes target := by
      rw [routes, if_neg]
      rintro ⟨rfl, once⟩
      rcases there target rfl with member | ⟨apart, _⟩
      · rw [if_pos member] at lock
        omega
      · exact apart rfl
    have alive : t.routes target ≠ none := by
      rcases there target rfl with member | ⟨_, more⟩
      · exact sound.alive member
      · exact sound.holders more
    have used : target ∈ order ∨ 0 < update held id (held id - 1) target := by
      rcases there target rfl with member | ⟨apart, more⟩
      · exact .inl member
      · rw [update_of_ne apart]
        exact .inr more
    exact ⟨ospf6RouteLock_hold (small few) (stays ▸ alive),
      givenSound.hold (stays ▸ alive) used, keeps⟩

theorem ospf6RouteNext (holds : 0 < held id)
    (there : ∀ target, t.next id = some target → target ∈ order ∨ target ≠ id ∧ 0 < held target) :
    ∃ after, t.ospf6RouteNext id = some (after, t.next id) ∧
      after.Sound (taking (release held id) (t.next id)) order ∧
      ∀ other ∈ order, after.routes other = t.routes other := by
  obtain ⟨given, after, ran, locked, afterSound, routes⟩ := sound.pass few holds there
  refine ⟨after, ?_, afterSound, routes⟩
  rw [Ospf6RouteTable.ospf6RouteNext]
  simp only [bind_eq_bind, ran, bind_some, locked]
  rfl

theorem ospf6RouteBestNext (holds : 0 < held id) :
    ∃ after next, t.ospf6RouteBestNext id = some (after, next) ∧
      after.Sound
        (match next with | none => held | some next => taking (release held id) (some next)) order ∧
      ∀ other ∈ order, after.routes other = t.routes other := by
  obtain ⟨route, found⟩ := ne_none_iff_exists'.mp (sound.holders holds)
  obtain ⟨place, node, kept, present, _⟩ := sound.rnode (.inr holds)
  obtain ⟨result, ran, first⟩ := besideInfo_spec sound.wf (moves_next sound.wf) present
  rw [Ospf6RouteTable.ospf6RouteBestNext, found, kept]
  simp only [bind_eq_bind, bind_some, ran]
  cases result with
  | none => exact ⟨t, none, rfl, sound, fun _ _ => rfl⟩
  | some last =>
    obtain ⟨lastNode, lastFound, full, _⟩ := first
    obtain ⟨next, carried⟩ := isSome_iff_exists.mp full
    have member := (sound.carried_mem lastFound carried).1
    have there : ∀ target, some next = some target →
        target ∈ order ∨ target ≠ id ∧ 0 < held target := by
      intro target same
      cases same
      exact .inl member
    obtain ⟨given, after, gave, locked, afterSound, routes⟩ := sound.pass few holds there
    refine ⟨after, some next, ?_, afterSound, routes⟩
    have taken : given.ospf6RouteLock next = some after := locked
    simp only [RouteTable.holding, sound.wf.unlock_hold lastFound, bind_some, lastFound, carried]
    rw [gave]
    simp only [bind_some, taken]
    rfl

theorem ospf6RouteMatchHead :
    ∃ after result, t.ospf6RouteMatchHead p = some (after, result) ∧
      after.Sound (taking held result) order ∧
      ∀ other ∈ order, after.routes other = t.routes other := by
  have roots : ∀ id, t.table.top = some id → ∃ node, t.table.nodes id = some node ∧
      p.prefixlen + 1 - node.p.prefixlen < p.prefixlen + 2 := by
    intro id top
    obtain ⟨node, found, _⟩ := sound.wf.represents.top.mp top
    exact ⟨node, found, by omega⟩
  obtain ⟨start, walked, live⟩ := matchDown_spec sound.wf p (p.prefixlen + 2) roots (succ_pos _)
  rw [Ospf6RouteTable.ospf6RouteMatchHead, walked]
  simp only [bind_eq_bind, bind_some]
  cases start with
  | none => exact ⟨t, none, rfl, sound, fun _ _ => rfl⟩
  | some id =>
    obtain ⟨node, found⟩ := live id rfl
    obtain ⟨result, ran, first⟩ := infoFrom_spec sound.wf found
    rw [ran]
    cases result with
    | none => exact ⟨t, none, rfl, sound, fun _ _ => rfl⟩
    | some last =>
      obtain ⟨lastNode, lastFound, full, _⟩ := first
      obtain ⟨info, carried⟩ := isSome_iff_exists.mp full
      have member := (sound.carried_mem lastFound carried).1
      simp only [lastFound, bind_some, carried]
      by_cases inside : prefixMatch p lastNode.p = true
      · rw [if_pos inside, show ({ t with table := t.table } : Ospf6RouteTable) = t from rfl,
          ospf6RouteLock_hold few (sound.alive member)]
        exact ⟨t.hold info, some info, rfl, sound.hold (sound.alive member) (.inl member),
          fun _ _ => rfl⟩
      · rw [if_neg inside]
        exact ⟨t, none, rfl, sound, fun _ _ => rfl⟩

theorem ospf6RouteMatchNext (holds : 0 < held id)
    (there : ∀ target, t.next id = some target → target ∈ order ∨ target ≠ id ∧ 0 < held target) :
    ∃ after result, t.ospf6RouteMatchNext p id = some (after, result) ∧
      after.Sound (taking (release held id) result) order ∧
      ∀ other ∈ order, after.routes other = t.routes other := by
  obtain ⟨passed, ran, passedSound, routes⟩ := sound.ospf6RouteNext few holds there
  rw [Ospf6RouteTable.ospf6RouteMatchNext, ran]
  simp only [bind_eq_bind, bind_some]
  cases next : t.next id with
  | none =>
    rw [next] at passedSound
    exact ⟨passed, none, rfl, passedSound, routes⟩
  | some target =>
    rw [next] at passedSound
    have holdsNext : 0 < taking (release held id) (some target) target := by
      rw [taking, update_self]
      exact succ_pos _
    obtain ⟨route, found⟩ := ne_none_iff_exists'.mp (passedSound.holders holdsNext)
    simp only [found, bind_some]
    by_cases inside : prefixMatch p route.p = true
    · rw [if_pos inside]
      exact ⟨passed, some target, rfl, passedSound, routes⟩
    · obtain ⟨given, gave, givenSound, fewer, _⟩ := passedSound.unlock holdsNext
      rw [if_neg inside, gave]
      have keeps := givenSound.undeleted fewer
      refine ⟨given, none, rfl, ?_, fun other member =>
        (keeps other member).trans (routes other member)⟩
      have restored : update (taking (release held id) (some target)) target
          (taking (release held id) (some target) target - 1) =
          taking (release held id) none := by
        simp only [taking, update_self, Nat.add_sub_cancel, update_idem, update_eq_self]
      rwa [restored] at givenSound

end

theorem ospf6RouteLookup :
    ∃ table, t.ospf6RouteLookup p = some ({ t with table }, leader t.wordOf order p.bits) ∧
      ({ t with table } : Ospf6RouteTable).Sound held order := by
  obtain ⟨result, ran, keeps, hits, misses⟩ := lookup_keeps sound.wf p
  refine ⟨t.table.holding result, ?_, sound.retable keeps⟩
  rw [Ospf6RouteTable.ospf6RouteLookup, ran]
  simp only [bind_eq_bind, bind_some]
  cases result with
  | none =>
    have absent : leader t.wordOf order p.bits = none := by
      rw [eq_none_iff_forall_ne_some]
      exact fun id leads => misses rfl id (sound.first.mpr leads)
    rw [absent]
    rfl
  | some place =>
    obtain ⟨node, info, found, same, _, carried⟩ := hits place rfl
    have leads := sound.first.mp (keeps.carries.mp ⟨place, node, found, same, carried⟩)
    simp only [found, bind_some, carried, leads]
    rfl

theorem identicalLoop (wanted : Ospf6Route) {before rest}
    (split : order = before ++ rest) (fuel : Nat) (enough : rest.length < fuel) :
    ∃ result, t.identicalLoop wanted fuel rest.head? = some result := by
  induction rest generalizing before fuel with
  | nil =>
    cases fuel with
    | zero => exact nomatch enough
    | succ fuel => exact ⟨none, rfl⟩
  | cons target rest ih =>
    cases fuel with
    | zero => exact nomatch enough
    | succ fuel =>
      obtain ⟨route, found, _⟩ := sound.live (split ▸ mem_append_cons_self)
      rw [head?_cons, Ospf6RouteTable.identicalLoop, found]
      simp only [bind_eq_bind, bind_some, sound.chained.next split]
      split
      · exact ⟨_, rfl⟩
      · exact ih (split.trans (append_cons before target rest)) fuel (lt_of_succ_lt_succ enough)

theorem ospf6RouteLookupIdentical (wanted : Ospf6Route) :
    ∃ table result, t.ospf6RouteLookupIdentical wanted = some ({ t with table }, result) ∧
      ({ t with table } : Ospf6RouteTable).Sound held order := by
  obtain ⟨table, ran, afterSound⟩ := sound.ospf6RouteLookup wanted.p
  rw [Ospf6RouteTable.ospf6RouteLookupIdentical, ran]
  simp only [bind_eq_bind, bind_some]
  have short := sound.length_le
  have found : ∃ result, ({ t with table } : Ospf6RouteTable).identicalLoop wanted (t.fresh + 1)
      (leader t.wordOf order wanted.p.bits) =
      some result := by
    cases leads : leader t.wordOf order wanted.p.bits with
    | none => exact ⟨none, rfl⟩
    | some first =>
      obtain ⟨_, front, back, split, _⟩ := leader_split.mp leads
      refine afterSound.identicalLoop wanted (show order = front ++ (first :: back) from split)
        (t.fresh + 1) ?_
      rw [split, length_append] at short
      omega
  obtain ⟨result, found⟩ := found
  rw [found]
  exact ⟨_, result, rfl, afterSound⟩

theorem ospf6RouteLookupBestmatch : ∃ result, t.ospf6RouteLookupBestmatch p = some (t, result) := by
  obtain ⟨locked, result, ran, same, hits⟩ := match_unlock sound.wf p
  rw [Ospf6RouteTable.ospf6RouteLookupBestmatch, ran]
  simp only [bind_eq_bind, bind_some]
  cases result with
  | none => exact ⟨none, by rw [same rfl]; rfl⟩
  | some place =>
    obtain ⟨node, info, gave, found, carried⟩ := hits place rfl
    exact ⟨some info, by simp only [gave, bind_some, found, carried]; rfl⟩

end
end Sound
end Ospf6RouteTable
end Zebra.Ospf6d
