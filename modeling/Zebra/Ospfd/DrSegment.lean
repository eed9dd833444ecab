import Zebra.Base.Run
import Zebra.Ospfd.DrElection

/-! The routers of a segment. Hello packets may be lost, come late or more than once; every
neighbour stands in the tables from the start. -/
namespace Zebra.Ospfd
open Base List Function

/-- What the election takes from a Hello packet. -/
structure HelloNote where
  src : InAddr
  priority : Octet
  dRouter : InAddr
  bdRouter : InAddr
deriving DecidableEq

/-- One router has been told of both, or of none. -/
def Designated (dr bdr first second : InAddr) : Prop :=
  first = dr ∧ second = bdr ∨ first = 0 ∧ second = 0

instance (dr bdr first second : InAddr) : Decidable (Designated dr bdr first second) :=
  inferInstanceAs (Decidable (_ ∨ _))

namespace DrInterface

/-- The router has both. -/
def Stands (oi : DrInterface) (dr bdr : InAddr) : Prop :=
  oi.dr = dr ∧ oi.bdr = bdr

instance (oi : DrInterface) (dr bdr : InAddr) : Decidable (oi.Stands dr bdr) :=
  inferInstanceAs (Decidable (_ ∧ _))

def renew (oi : DrInterface) (address : InAddr) (change : DrNeighbor → DrNeighbor) : DrInterface :=
  { oi with
    nbrs := oi.nbrs.map fun nbr =>
      if nbr.address = address then
        { change nbr with address := nbr.address, routerId := nbr.routerId } else nbr
    addresses := by simpa [comp_def, apply_ite DrNeighbor.address] using oi.addresses
    routerIds := by simpa [comp_def, apply_ite DrNeighbor.routerId] using oi.routerIds }

/-- The BDR of `ospf_make_hello`: `/* Let neighbor generate BackupSeen. */` -/
def helloBdr (oi : DrInterface) : InAddr :=
  if oi.nbrs.any fun nbr => nbr.routerId ≠ 0 ∧ nbr.state ≠ .attempt ∧ nbr.state ≠ .down ∧
      nbr.routerId ≠ oi.routerId ∧
      nbr.dRouter ≠ 0 ∧ nbr.dRouter = oi.address ∧ nbr.bdRouter = oi.address then 0
  else oi.bdr

/-- The router and all of its neighbours have been told of the same two. -/
structure Follows (oi : DrInterface) (dr bdr : InAddr) : Prop where
  own : Designated dr bdr oi.dr oi.bdr
  nbrs : ∀ nbr ∈ oi.nbrs, nbr.address ≠ 0 ∧ Designated dr bdr nbr.dRouter nbr.bdRouter

/-- Both are eligible here, and declare themselves. -/
structure Sees (oi : DrInterface) (dr bdr : InAddr) : Prop where
  first : ∃ nbr ∈ oi.ospfDrEligibleRouters, nbr.address = dr ∧ oi.nbrIsDr nbr = true
  second : ∃ nbr ∈ oi.ospfDrEligibleRouters, nbr.address = bdr ∧ oi.nbrIsBdr nbr = true

instance (oi : DrInterface) (dr bdr : InAddr) : Decidable (oi.Sees dr bdr) :=
  decidable_of_iff ((∃ nbr ∈ oi.ospfDrEligibleRouters, nbr.address = dr ∧ oi.nbrIsDr nbr = true) ∧
    ∃ nbr ∈ oi.ospfDrEligibleRouters, nbr.address = bdr ∧ oi.nbrIsBdr nbr = true)
    ⟨fun both => ⟨both.1, both.2⟩, fun sees => ⟨sees.first, sees.second⟩⟩

variable {oi : DrInterface} {dr bdr : InAddr} (follows : oi.Follows dr bdr) (sees : oi.Sees dr bdr)
include follows

theorem Follows.renew {address change}
    (keeps : ∀ nbr ∈ oi.nbrs, Designated dr bdr (change nbr).dRouter (change nbr).bdRouter) :
    (oi.renew address change).Follows dr bdr := by
  refine ⟨follows.own, forall_mem_map.mpr fun nbr member => ?_⟩
  split
  · exact ⟨(follows.nbrs nbr member).1, keeps nbr member⟩
  · exact follows.nbrs nbr member

theorem helloBdr_eq (apart : dr ≠ bdr) : oi.helloBdr = oi.bdr := by
  refine if_neg fun backup => ?_
  obtain ⟨nbr, member, flagged⟩ := any_eq_true.mp backup
  have told := (follows.nbrs nbr member).2
  rw [Designated] at told
  grind

include sees

theorem declared {nbr} (member : nbr ∈ oi.ospfDrEligibleRouters) :
    (oi.nbrIsDr nbr = true ↔ nbr.address = dr) ∧ (oi.nbrIsBdr nbr = true ↔ nbr.address = bdr) := by
  obtain ⟨⟨first, firstIn, isDr, declares⟩, second, secondIn, isBdr, declares'⟩ := sees
  obtain ⟨some_, told⟩ := follows.nbrs nbr (mem_filter.mp member).1
  have own := follows.own
  have distinct := oi.distinct_eligible.addresses nbr member
  refine ⟨⟨fun does => ?_, fun same => distinct first firstIn (same.trans isDr.symm) ▸ declares⟩,
    ⟨fun does => ?_, fun same => distinct second secondIn (same.trans isBdr.symm) ▸ declares'⟩⟩
  all_goals
    simp only [nbrIsDr, nbrIsBdr, dRouter, bdRouter] at does
    rw [Designated] at told own
    grind

/-- Whatever the priorities are. -/
theorem elect_follows (apart : dr ≠ bdr) :
    oi.elect oi.ospfDrEligibleRouters = { oi with dr, bdr } := by
  have told {nbr} (member : nbr ∈ oi.ospfDrEligibleRouters) := declared follows sees member
  obtain ⟨⟨first, firstIn, isDr, -⟩, second, secondIn, isBdr, -⟩ := sees
  have electedDr : ospfDrElectionSub (oi.ospfDrEligibleRouters.filter oi.nbrIsDr) = some first :=
    sub_self oi.distinct_eligible firstIn fun nbr =>
      mem_filter.trans (and_congr_right fun member => isDr ▸ (told member).1)
  have electedBdr : ospfDrElectionSub
      ((oi.ospfDrEligibleRouters.filter fun nbr => !oi.nbrIsDr nbr).filter oi.nbrIsBdr) =
      some second := by
    refine sub_self oi.distinct_eligible secondIn fun nbr => ?_
    rw [mem_filter, mem_filter, and_assoc, isBdr, Bool.not_eq_true', ← Bool.not_eq_true]
    refine and_congr_right fun member => ?_
    rw [(told member).1, (told member).2]
    exact and_iff_right_of_imp fun same => same ▸ apart.symm
  have filled : ∀ {el found}, ospfDrElectionSub el = some found → el ≠ [] := by
    rintro _ _ elected rfl
    cases elected
  have bdrFirst : oi.ospfElectBdr oi.ospfDrEligibleRouters = { oi with bdr } := by
    rw [ospfElectBdr, if_pos (filled electedBdr), electedBdr, ← isBdr]
    rfl
  rw [elect, bdrFirst, ospfElectDr]
  rw [show ({ oi with bdr } : DrInterface).nbrIsDr = oi.nbrIsDr from rfl, if_pos (filled electedDr),
    electedDr, ← isDr]
  rfl

theorem ospfDrElection_follows (apart : dr ≠ bdr) :
    ∃ state, oi.ospfDrElection = { oi with dr, bdr, state } := by
  -- the second election starts from what the first one did
  have again : ({ oi with dr, bdr } : DrInterface).elect oi.ospfDrEligibleRouters =
      { oi with dr, bdr } := by
    refine elect_follows ⟨.inl ⟨rfl, rfl⟩, follows.nbrs⟩ ⟨?_, ?_⟩ apart
    · obtain ⟨first, member, isDr, declares⟩ := sees.first
      refine ⟨first, member, isDr, ?_⟩
      simp only [nbrIsDr, dRouter, decide_eq_true_eq] at declares ⊢
      grind
    · obtain ⟨second, member, isBdr, declares⟩ := sees.second
      refine ⟨second, member, isBdr, ?_⟩
      simp only [nbrIsBdr, bdRouter, decide_eq_true_eq] at declares ⊢
      grind
  rw [ospfDrElection, electionOf, elect_follows follows sees apart]
  dsimp only
  split
  · rw [again]
    exact ⟨_, rfl⟩
  · exact ⟨_, rfl⟩

end DrInterface

structure DrSegment (Router : Type) where
  routers : Router → DrInterface
  hellos : List HelloNote := []

inductive SegmentMove (Router : Type) where
  | send (router : Router) (priority : Octet)
  | receive (router : Router) (hello : HelloNote) (state : NsmState)
  | nsmEvent (router : Router) (address : InAddr) (state : NsmState)
  | elect (router : Router)

namespace DrSegment
variable {Router : Type} [DecidableEq Router]

def step (s : DrSegment Router) : SegmentMove Router → DrSegment Router
  | .send router priority =>
    let oi := s.routers router
    { s with hellos := ⟨oi.address, priority, oi.dr, oi.helloBdr⟩ :: s.hellos }
  -- `ospf_hello` sets what the packet says, and its events bring the neighbor to the state
  | .receive router hello state =>
    { s with routers := update s.routers router ((s.routers router).renew hello.src fun nbr =>
      { nbr with priority := hello.priority, dRouter := hello.dRouter,
                 bdRouter := hello.bdRouter, state }) }
  | .nsmEvent router address state =>
    { s with routers := update s.routers router
               ((s.routers router).renew address fun nbr => { nbr with state }) }
  | .elect router => { s with routers := update s.routers router (s.routers router).ospfDrElection }

variable (dr bdr : InAddr)

def Permits (s : DrSegment Router) : SegmentMove Router → Prop
  | .receive _ hello _ => hello ∈ s.hellos
  | .elect router => (s.routers router).Sees dr bdr
  | _ => True

instance (s : DrSegment Router) (move : SegmentMove Router) : Decidable (s.Permits dr bdr move) :=
  match move with
  | .receive _ hello _ => inferInstanceAs (Decidable (hello ∈ s.hellos))
  | .elect router => inferInstanceAs (Decidable ((s.routers router).Sees dr bdr))
  | .send .. | .nsmEvent .. => .isTrue trivial

structure Agrees (s : DrSegment Router) : Prop where
  routers : ∀ router, (s.routers router).Follows dr bdr
  hellos : ∀ hello ∈ s.hellos, Designated dr bdr hello.dRouter hello.bdRouter

variable {dr bdr}

theorem Agrees.step {s : DrSegment Router} (agrees : s.Agrees dr bdr) (apart : dr ≠ bdr) {move}
    (permits : s.Permits dr bdr move) : (s.step move).Agrees dr bdr := by
  have replaced : ∀ {router oi}, oi.Follows dr bdr →
      ∀ other, (update s.routers router oi other).Follows dr bdr := by
    intro router oi follows other
    rw [update_apply]
    split
    · exact follows
    · exact agrees.routers other
  cases move with
  | send router priority =>
    have follows := agrees.routers router
    refine ⟨agrees.routers, forall_mem_cons.mpr ⟨?_, agrees.hellos⟩⟩
    exact DrInterface.helloBdr_eq follows apart ▸ follows.own
  | receive router hello state =>
    exact ⟨replaced ((agrees.routers router).renew fun _ _ => agrees.hellos hello permits),
    agrees.hellos⟩
  | nsmEvent router address state =>
    have follows := agrees.routers router
    exact ⟨replaced (follows.renew fun nbr member => (follows.nbrs nbr member).2), agrees.hellos⟩
  | elect router =>
    have follows := agrees.routers router
    obtain ⟨state, elected⟩ := DrInterface.ospfDrElection_follows follows permits apart
    exact ⟨replaced (elected ▸ ⟨.inl ⟨rfl, rfl⟩, follows.nbrs⟩), agrees.hellos⟩

/-- A router that has both keeps them, and one that elects gets them. -/
theorem Agrees.stands_step {s : DrSegment Router} (agrees : s.Agrees dr bdr)
    (apart : dr ≠ bdr) {move}
    (permits : s.Permits dr bdr move) {router}
    (stood : (s.routers router).Stands dr bdr ∨ move = .elect router) :
    ((s.step move).routers router).Stands dr bdr := by
  have replaced : ∀ {other oi}, (router = other → oi.Stands dr bdr) →
      (router ≠ other → (s.routers router).Stands dr bdr) →
      (update s.routers other oi router).Stands dr bdr := by
    intro other oi here elsewhere
    rw [update_apply]
    split
    · rename_i same
      exact here same
    · rename_i different
      exact elsewhere different
  cases move with
  | send _ priority => exact stood.resolve_right (by simp)
  | receive other hello state =>
    have own := stood.resolve_right (by simp)
    exact replaced (fun same => same ▸ own) fun _ => own
  | nsmEvent other address state =>
    have own := stood.resolve_right (by simp)
    exact replaced (fun same => same ▸ own) fun _ => own
  | elect other =>
    refine replaced (fun _ => ?_) fun different => stood.resolve_right fun same => ?_
    · obtain ⟨state, elected⟩ :=
        DrInterface.ospfDrElection_follows (agrees.routers other) permits apart
      exact elected ▸ ⟨rfl, rfl⟩
    · cases same
      exact different rfl

/-- A segment that has a DR and a BDR keeps them over every run: no priority and no order of packets
and elections makes a router take another one, and none loses them. -/
theorem dr_segment_keeps {s : DrSegment Router} (agrees : s.Agrees dr bdr)
    (apart : dr ≠ bdr) {moves} (run : Allowed step (Permits dr bdr) s moves) :
    (moves.foldl step s).Agrees dr bdr ∧ ∀ router, (s.routers router).Stands dr bdr ∨
    .elect router ∈ moves →
      ((moves.foldl step s).routers router).Stands dr bdr := by
  induction moves generalizing s with
  | nil => exact ⟨agrees, fun router stood => stood.resolve_right not_mem_nil⟩
  | cons move rest ih =>
    obtain ⟨after, kept⟩ := ih (agrees.step apart run.1) run.2
    refine ⟨after, fun router stood => kept router ?_⟩
    rcases stood with before | elects
    · exact .inl (agrees.stands_step apart run.1 (.inl before))
    · rcases mem_cons.mp elects with now | later
      · exact .inl (agrees.stands_step apart run.1 (.inr now.symm))
      · exact .inr later

theorem joined_addressed (router : Fin 3) :
    BitVec.ofNat 32 (0x0a000001 + router.val) ≠ (0 : InAddr) := by
  revert router
  decide

/-- The neighbours that a router has in its table, with what two of them have told. -/
def joinedNbrs (told : InAddr × InAddr) : List DrNeighbor :=
  [{ routerId := 1, address := 0x0a000001, priority := 9, state := .twoWay },
    { routerId := 2, address := 0x0a000002, priority := 1, state := .twoWay, dRouter := told.1,
      bdRouter := told.2 },
    { routerId := 3, address := 0x0a000003, priority := 2, state := .twoWay, dRouter := told.1,
      bdRouter := told.2 }]

theorem joinedNbrs_addresses (told : InAddr × InAddr) :
    ((joinedNbrs told).map DrNeighbor.address).Nodup := by
  simp [joinedNbrs]

theorem joinedNbrs_routerIds (told : InAddr × InAddr) :
    (((joinedNbrs told).map DrNeighbor.routerId).filter (· ≠ 0)).Nodup := by
  simp [joinedNbrs]

/-- A router with the highest priority joins 10.0.0.2 and 10.0.0.3, and has not heard of them
  yet. -/
def joined : DrSegment (Fin 3) where
  routers router :=
    let told := if router = 0 then (0, 0) else (0x0a000002, 0x0a000003)
    { routerId := BitVec.ofNat 32 (1 + router.val)
      address := BitVec.ofNat 32 (0x0a000001 + router.val)
      dr := told.1
      bdr := told.2
      nbrs := joinedNbrs told
      addressed := joined_addressed router
      addresses := joinedNbrs_addresses told
      routerIds := joinedNbrs_routerIds told }

/-- Hellos in both directions, one of them twice, and an election on every router. -/
def joinedMoves : List (SegmentMove (Fin 3)) :=
  [.send 1 1, .send 2 2, .receive 0 ⟨0x0a000002, 1, 0x0a000002, 0x0a000003⟩ .twoWay,
    .receive 0 ⟨0x0a000003, 2, 0x0a000002, 0x0a000003⟩ .full, .elect 0, .send 0 9,
    .receive 0 ⟨0x0a000002, 1, 0x0a000002, 0x0a000003⟩ .full,
      .receive 1 ⟨0x0a000001, 9, 0x0a000002, 0x0a000003⟩ .twoWay,
    .elect 1, .nsmEvent 2 0x0a000001 .exStart, .elect 2]

theorem dr_segment_keeps_joined :
    (joinedMoves.foldl step joined).Agrees 0x0a000002 0x0a000003 ∧
    ((joinedMoves.foldl step joined).routers 0).Stands 0x0a000002 0x0a000003 ∧
    ((joinedMoves.foldl step joined).routers 1).Stands 0x0a000002 0x0a000003 ∧
    ((joinedMoves.foldl step joined).routers 2).Stands 0x0a000002 0x0a000003 := by
  have follows : ∀ router : Fin 3,
      Designated 0x0a000002 0x0a000003 (joined.routers router).dr (joined.routers router).bdr ∧
      ∀ nbr ∈ (joined.routers router).nbrs, nbr.address ≠ 0 ∧
        Designated 0x0a000002 0x0a000003 nbr.dRouter nbr.bdRouter := by decide
  have agrees : joined.Agrees 0x0a000002 0x0a000003 :=
    ⟨fun router => ⟨(follows router).1, (follows router).2⟩, forall_mem_nil _⟩
  have run : Allowed step (Permits 0x0a000002 0x0a000003) joined joinedMoves := by decide +kernel
  have elects : ∀ router, .elect router ∈ joinedMoves := by
    intro router
    fin_cases router <;> simp [joinedMoves]
  obtain ⟨after, stands⟩ := dr_segment_keeps agrees (by decide) run
  exact ⟨after, stands 0 (.inr (elects 0)), stands 1 (.inr (elects 1)), stands 2 (.inr (elects 2))⟩

end DrSegment
end Zebra.Ospfd
