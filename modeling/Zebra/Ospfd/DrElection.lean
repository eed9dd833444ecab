import Zebra.Base.Contest
import Zebra.Ospfd.Flood

/-! The election of a Designated Router, of ospfd/ospf_ism.c. The pseudo neighbour `nbr_self` stands
in the table under its own address. -/
namespace Zebra.Ospfd
open Base List Contest

/-- The states of `ospf_ism.h`, in its order. -/
inductive IsmState where
  | dependUpon
  | down
  | loopback
  | waiting
  | pointToPoint
  | drOther
  | backup
  | dr
deriving DecidableEq

def IsmState.rank : IsmState → Nat
  | .dependUpon => 0
  | .down => 1
  | .loopback => 2
  | .waiting => 3
  | .pointToPoint => 4
  | .drOther => 5
  | .backup => 6
  | .dr => 7

/-- What the election reads of `struct ospf_neighbor`. -/
structure DrNeighbor where
  routerId : InAddr
  address : InAddr
  priority : Octet
  state : NsmState
  dRouter : InAddr := 0
  bdRouter : InAddr := 0
deriving DecidableEq

/-- What the election reads and writes of `struct ospf_interface`. The table of neighbours goes by
  addresses. -/
structure DrInterface where
  routerId : InAddr
  address : InAddr
  type : IfType := .broadcast
  dr : InAddr := 0
  bdr : InAddr := 0
  state : IsmState := .waiting
  nbrs : List DrNeighbor
  addressed : address ≠ 0
  addresses : (nbrs.map DrNeighbor.address).Nodup
  routerIds : ((nbrs.map DrNeighbor.routerId).filter (· ≠ 0)).Nodup

/-- The AdjOK? events that are scheduled, and whether the interface joins or leaves AllDRouters. -/
structure DrEffects where
  adjOk : List InAddr := []
  alldrouters : Option Bool := none
deriving DecidableEq

/-- The order of `ospf_dr_election_sub`. -/
def outranks (first second : DrNeighbor) : Bool :=
  second.priority < first.priority ||
    (second.priority = first.priority && second.routerId < first.routerId)

def ospfDrElectionSub (routers : List DrNeighbor) : Option DrNeighbor :=
  Contest.scan outranks routers

namespace DrInterface

/-- `nbr->d_router` -/
def dRouter (oi : DrInterface) (nbr : DrNeighbor) : InAddr :=
  if nbr.address = oi.address then oi.dr else nbr.dRouter

/-- `nbr->bd_router` -/
def bdRouter (oi : DrInterface) (nbr : DrNeighbor) : InAddr :=
  if nbr.address = oi.address then oi.bdr else nbr.bdRouter

variable (oi : DrInterface)

def nbrIsDr (nbr : DrNeighbor) : Bool := nbr.address = oi.dRouter nbr
def nbrIsBdr (nbr : DrNeighbor) : Bool := nbr.address = oi.bdRouter nbr

section
variable (elList : List DrNeighbor)

def ospfElectDr : DrInterface :=
  let drList := elList.filter oi.nbrIsDr
  let bdr := elList.foldl (fun bdr nbr => if oi.bdr = nbr.address then some nbr else bdr) none
  let dr := if drList ≠ [] then ospfDrElectionSub drList else bdr
  { oi with dr := dr.elim 0 DrNeighbor.address }

def ospfElectBdr : DrInterface :=
  let noDrList := elList.filter fun nbr => !oi.nbrIsDr nbr
  let bdrList := noDrList.filter oi.nbrIsBdr
  let bdr := if bdrList ≠ [] then ospfDrElectionSub bdrList else ospfDrElectionSub noDrList
  { oi with bdr := bdr.elim 0 DrNeighbor.address }

def ospfIsmState : IsmState :=
  if oi.dr = oi.address then .dr else if oi.bdr = oi.address then .backup else .drOther

def ospfDrEligibleRouters : List DrNeighbor :=
  oi.nbrs.filter fun nbr => nbr.routerId ≠ 0 && nbr.priority ≠ 0 && NsmState.twoWay.rank ≤
    nbr.state.rank

/-- `ospf_dr_change` -/
def ospfDrChange : List InAddr :=
  (oi.nbrs.filter fun nbr =>
    nbr.routerId ≠ 0 && NsmState.twoWay.rank ≤ nbr.state.rank && nbr.routerId ≠ oi.routerId).map
      DrNeighbor.address

/-- One election of BDR and DR. -/
def elect : DrInterface :=
  (oi.ospfElectBdr elList).ospfElectDr elList

/-- `ospf_dr_election` with the list of eligible routers: DR, BDR and the new state. -/
def electionOf : DrInterface :=
  let first := oi.elect elList
  if first.ospfIsmState ≠ oi.state ∧
    ¬(first.ospfIsmState = .drOther ∧ oi.state.rank < IsmState.drOther.rank) then
    let second := first.elect elList
    { second with state := second.ospfIsmState }
  else { first with state := first.ospfIsmState }

end

/-- `ospf_dr_election`, after which the state is the one that it returns. -/
def ospfDrElection : DrInterface :=
  oi.electionOf oi.ospfDrEligibleRouters

def drOrBackup (state : IsmState) : Bool := state = .dr || state = .backup

/-- What `ospf_dr_election` sets off. -/
def electionEffects : DrEffects where
  adjOk := if oi.dr ≠ oi.ospfDrElection.dr ∨
    oi.bdr ≠ oi.ospfDrElection.bdr then oi.ospfDrChange else []
  alldrouters :=
    if oi.type = .broadcast ∨ oi.type = .pointopoint then
      if !drOrBackup oi.state && drOrBackup oi.ospfDrElection.state then some true
      else if drOrBackup oi.state && !drOrBackup oi.ospfDrElection.state then some false
      else none
    else none

end DrInterface

/-- Priority and router id as one number. -/
def DrNeighbor.rank (nbr : DrNeighbor) : Nat := nbr.priority.toNat * 2 ^ 32 + nbr.routerId.toNat

theorem outranks_iff {first second} : outranks first second = true ↔ second.rank < first.rank := by
  have same : second.priority = first.priority ↔ second.priority.toNat = first.priority.toNat :=
    BitVec.toNat_inj.symm
  simp only [outranks, Bool.or_eq_true, Bool.and_eq_true, decide_eq_true_eq, BitVec.lt_def, same,
    DrNeighbor.rank]
  omega

/-- The only one with the highest priority, or the highest router id among those. -/
def Highest (routers : List DrNeighbor) (nbr : DrNeighbor) : Prop :=
  nbr ∈ routers ∧ ∀ other ∈ routers, other ≠ nbr → outranks nbr other = true

/-- Routers of different rank. -/
def Ranked (routers : List DrNeighbor) : Prop :=
  ∀ first ∈ routers, ∀ second ∈ routers, first.rank = second.rank → first = second

variable {routers part : List DrNeighbor} {nbr other : DrNeighbor}

section
variable (ranked : Ranked routers)
include ranked

theorem Ranked.mono (sub : part ⊆ routers) : Ranked part :=
  fun first member second member' => ranked first (sub member) second (sub member')

theorem Ranked.decided : Decided outranks routers := by
  intro first member second member' apart
  have differ : first.rank ≠ second.rank :=
    fun same => apart (ranked first member second member' same)
  rw [Bool.eq_iff_iff, Bool.not_eq_true', ← Bool.not_eq_true, outranks_iff, outranks_iff]
  omega

theorem exists_highest (some_ : routers ≠ []) : ∃ nbr, Highest routers nbr := by
  induction routers with
  | nil => exact absurd rfl some_
  | cons first rest ih =>
    rcases eq_or_ne rest [] with rfl | more
    · refine ⟨first, mem_cons_self, fun other member apart =>
        absurd (mem_singleton.mp member) apart⟩
    · obtain ⟨best, member, beats⟩ := ih (ranked.mono (subset_cons_self ..)) more
      by_cases better : outranks first best = true
      · refine ⟨first, mem_cons_self, fun other inside apart => ?_⟩
        rcases mem_cons.mp inside with rfl | later
        · exact absurd rfl apart
        · by_cases same : other = best
          · rw [same]
            exact better
          · have below := outranks_iff.mp (beats other later same)
            have above := outranks_iff.mp better
            exact outranks_iff.mpr (by omega)
      · refine ⟨best, .tail _ member, fun other inside apart => ?_⟩
        rcases mem_cons.mp inside with rfl | later
        · have decided := ranked.decided best (.tail _ member) other mem_cons_self apart.symm
          rw [decided, Bool.eq_false_of_not_eq_true better]
          rfl
        · exact beats other later apart

theorem sub_eq_some : ospfDrElectionSub routers = some nbr ↔ Highest routers nbr := by
  have chosen : ∀ {best}, Highest routers best → ospfDrElectionSub routers = some best :=
      fun highest =>
    scan_of_beats_all ranked.decided highest.1 highest.2
  refine ⟨fun found => ?_, chosen⟩
  obtain ⟨best, highest⟩ := exists_highest ranked (ne_nil_of_mem (scan_mem found))
  have same := chosen highest
  rw [found] at same
  rwa [Option.some.inj same]

end

theorem Highest.congr (highest : Highest routers nbr)
    (same : ∀ other, other ∈ part ↔ other ∈ routers) : Highest part nbr :=
  ⟨(same nbr).mpr highest.1, fun other member => highest.2 other ((same other).mp member)⟩

theorem sub_congr (ranked : Ranked routers) (same : ∀ other, other ∈ part ↔ other ∈ routers) :
    ospfDrElectionSub part = ospfDrElectionSub routers := by
  have ranked' : Ranked part := ranked.mono fun other member => (same other).mp member
  refine Option.ext fun nbr => ?_
  rw [sub_eq_some ranked', sub_eq_some ranked]
  exact ⟨fun highest => highest.congr fun other => (same other).symm,
    fun highest => highest.congr same⟩

/-! One election by what the router declares itself -/

section Kind
variable (own : InAddr) (kind : IsmState) (el : List DrNeighbor)

/-- The interface is in `kind` when its router is the one with the address `own`. -/
def declaresDr (nbr : DrNeighbor) : Bool :=
  if nbr.address = own then kind = .dr else nbr.address = nbr.dRouter

def declaresBdr (nbr : DrNeighbor) : Bool :=
  if nbr.address = own then kind = .backup else nbr.address = nbr.bdRouter

def drList : List DrNeighbor := el.filter (declaresDr own kind)
def noDrList : List DrNeighbor := el.filter fun nbr => !declaresDr own kind nbr
def bdrList : List DrNeighbor := (noDrList own kind el).filter (declaresBdr own kind)

def electedBdr : Option DrNeighbor :=
  if bdrList own kind el ≠ [] then ospfDrElectionSub (bdrList own kind el)
    else ospfDrElectionSub (noDrList own kind el)

def electedDr : Option DrNeighbor :=
  if drList own kind el ≠ [] then ospfDrElectionSub (drList own kind el) else electedBdr own kind el

/-- What the interface is afterwards. -/
def nextKind : IsmState :=
  if (electedDr own kind el).elim 0 DrNeighbor.address = own then .dr
  else if (electedBdr own kind el).elim 0 DrNeighbor.address = own then .backup
  else .drOther

end Kind

/-- Eligible routers differ in address and rank. -/
structure Distinct (el : List DrNeighbor) : Prop where
  ranked : Ranked el
  addresses : ∀ first ∈ el, ∀ second ∈ el, first.address = second.address → first = second

section Election
variable {own : InAddr} {kind kind' : IsmState} {el : List DrNeighbor} {self nbr : DrNeighbor}

theorem mem_drList : nbr ∈ drList own kind el ↔ nbr ∈ el ∧ declaresDr own kind nbr = true :=
  mem_filter

theorem mem_noDrList : nbr ∈ noDrList own kind el ↔ nbr ∈ el ∧ declaresDr own kind nbr = false := by
  rw [noDrList, mem_filter, Bool.not_eq_true']

theorem mem_bdrList : nbr ∈ bdrList own kind el ↔
    nbr ∈ el ∧ declaresDr own kind nbr = false ∧ declaresBdr own kind nbr = true := by
  rw [bdrList, mem_filter, mem_noDrList, and_assoc]

theorem declaresDr_self (is : self.address = own) :
    declaresDr own kind self = decide (kind = .dr) := if_pos is
theorem declaresBdr_self (is : self.address = own) :
    declaresBdr own kind self = decide (kind = .backup) := if_pos is

theorem declaresDr_other (apart : nbr.address ≠ own) (kind' : IsmState) :
    declaresDr own kind nbr = declaresDr own kind' nbr :=
  (if_neg apart).trans (if_neg apart).symm

theorem declaresBdr_other (apart : nbr.address ≠ own) (kind' : IsmState) :
    declaresBdr own kind nbr = declaresBdr own kind' nbr :=
  (if_neg apart).trans (if_neg apart).symm

/-- Only a router that is DR itself makes a difference to who declares itself DR. -/
theorem declaresDr_congr (other : kind ≠ .dr) (other' : kind' ≠ .dr) :
    declaresDr own kind = declaresDr own kind' := by
  funext nbr
  by_cases is : nbr.address = own
  · rw [declaresDr_self is, declaresDr_self is, decide_eq_false other, decide_eq_false other']
  · exact declaresDr_other is _

theorem sub_eq_none : ospfDrElectionSub el = none ↔ el = [] := by
  constructor
  · intro nothing
    by_contra some_
    obtain ⟨best, found⟩ := scan_isSome outranks some_
    rw [ospfDrElectionSub, found] at nothing
    cases nothing
  · rintro rfl
    rfl

section
variable (distinct : Distinct el)
include distinct

theorem sub_self (member : self ∈ el)
    (only : ∀ nbr, nbr ∈ routers ↔ nbr ∈ el ∧ nbr.address = self.address) :
    ospfDrElectionSub routers = some self := by
  have ranked : Ranked routers := distinct.ranked.mono fun nbr inside => ((only nbr).mp inside).1
  refine (sub_eq_some ranked).mpr ⟨(only self).mpr ⟨member, rfl⟩, fun other inside apart => ?_⟩
  obtain ⟨there, same⟩ := (only other).mp inside
  exact absurd (distinct.addresses other there self member same) apart

theorem Distinct.noDr : Ranked (noDrList own kind el) :=
  distinct.ranked.mono fun _ member => (mem_noDrList.mp member).1

theorem Distinct.dr : Ranked (drList own kind el) :=
  distinct.ranked.mono fun _ member => (mem_drList.mp member).1

theorem Distinct.bdr : Ranked (bdrList own kind el) :=
  distinct.ranked.mono fun _ member => (mem_bdrList.mp member).1

end

theorem sub_rest (ranked : Ranked routers) (sub : part ⊆ routers)
    (found : ospfDrElectionSub routers = some nbr) (still : nbr ∈ part) :
    ospfDrElectionSub part = some nbr := by
  have highest := (sub_eq_some ranked).mp found
  exact (sub_eq_some (ranked.mono sub)).mpr
    ⟨still, fun other member => highest.2 other (sub member)⟩

/-- A router that becomes BDR was not DR, and was BDR already if any router declares itself BDR. -/
theorem electedBdr_self (is : self.address = own) (found : electedBdr own kind el = some self) :
    self ∈ el ∧ kind ≠ .dr ∧ (kind = .backup ∨ bdrList own kind el = []) := by
  have notDr : declaresDr own kind self = false → kind ≠ .dr := by
    rw [declaresDr_self is]
    exact of_decide_eq_false
  rw [electedBdr] at found
  split at found
  · obtain ⟨member, notDeclared, declared⟩ := mem_bdrList.mp (scan_mem found)
    rw [declaresBdr_self is] at declared
    exact ⟨member, notDr notDeclared, .inl (of_decide_eq_true declared)⟩
  · obtain ⟨member, notDeclared⟩ := mem_noDrList.mp (scan_mem found)
    exact ⟨member, notDr notDeclared, .inr (not_not.mp ‹_›)⟩

/-- A router that becomes DR was DR, or is elected BDR while no router declares itself DR. -/
theorem electedDr_self (is : self.address = own) (found : electedDr own kind el = some self) :
    self ∈ el ∧ (kind = .dr ∨ drList own kind el = [] ∧ electedBdr own kind el = some self) := by
  rw [electedDr] at found
  split at found
  · obtain ⟨member, declared⟩ := mem_drList.mp (scan_mem found)
    rw [declaresDr_self is] at declared
    exact ⟨member, .inl (of_decide_eq_true declared)⟩
  · exact ⟨(electedBdr_self is found).1, .inr ⟨not_not.mp ‹_›, found⟩⟩

theorem elim_self (some_ : own ≠ 0) {found} :
    found.elim 0 DrNeighbor.address = own ↔ ∃ self, found = some self ∧ self.address = own := by
  cases found with
  | none => exact ⟨fun same => absurd same.symm some_, fun ⟨_, impossible, _⟩ => nomatch impossible⟩
  | some nbr =>
    exact ⟨fun same => ⟨nbr, rfl, same⟩, fun ⟨_, same, is⟩ => (Option.some.inj same).symm ▸ is⟩

theorem nextKind_eq_dr (some_ : own ≠ 0) : nextKind own kind el = .dr ↔
    ∃ self, electedDr own kind el = some self ∧ self.address = own := by
  rw [← elim_self some_, nextKind]
  split
  · exact iff_of_true rfl ‹_›
  · refine iff_of_false ?_ ‹_›
    split <;> exact fun impossible => nomatch impossible

theorem nextKind_eq_backup (some_ : own ≠ 0) : nextKind own kind el = .backup ↔
    (¬ ∃ self, electedDr own kind el = some self ∧ self.address = own) ∧
    ∃ self, electedBdr own kind el = some self ∧ self.address = own := by
  rw [← elim_self some_, ← elim_self some_, nextKind]
  split
  · exact iff_of_false (fun impossible => nomatch impossible) fun both => both.1 ‹_›
  · split
    · exact iff_of_true rfl ⟨‹_›, ‹_›⟩
    · exact iff_of_false (fun impossible => nomatch impossible) fun both => absurd both.2 ‹_›

theorem nextKind_cases (own : InAddr) (kind : IsmState) (el : List DrNeighbor) :
    nextKind own kind el = .dr ∨ nextKind own kind el = .backup ∨
    nextKind own kind el = .drOther := by
  rw [nextKind]
  split
  · exact .inl rfl
  · split
    · exact .inr (.inl rfl)
    · exact .inr (.inr rfl)

theorem noDrList_congr (other : kind ≠ .dr) (other' : kind' ≠ .dr) :
    noDrList own kind el = noDrList own kind' el := by
  rw [noDrList, noDrList, declaresDr_congr other other']

/-- A router that is not eligible makes no difference. -/
theorem electedBdr_absent (absent : ∀ nbr ∈ el, nbr.address ≠ own) :
    electedBdr own kind el = electedBdr own kind' el := by
  have noDr : noDrList own kind el = noDrList own kind' el :=
    filter_congr fun nbr member => congrArg _ (declaresDr_other (absent nbr member) _)
  have bdr : bdrList own kind el = bdrList own kind' el := by
    rw [bdrList, noDr]
    exact filter_congr fun nbr member => declaresBdr_other (absent nbr (mem_noDrList.mp member).1) _
  rw [electedBdr, electedBdr, noDr, bdr]

section
variable (distinct : Distinct el)
include distinct

/-- Whoever becomes DR becomes it again when it declares itself DR. -/
theorem electedDr_again (is : self.address = own) (found : electedDr own kind el = some self) :
    electedDr own .dr el = some self := by
  obtain ⟨member, declared | ⟨nobody, -⟩⟩ := electedDr_self is found
  · rwa [declared] at found
  · have own_ : self ∈ drList own .dr el := mem_drList.mpr ⟨member, (declaresDr_self is).trans rfl⟩
    rw [electedDr, if_pos (ne_nil_of_mem own_)]
    refine sub_self distinct member fun nbr => ?_
    rw [mem_drList, is]
    refine and_congr_right fun inside =>
      ⟨fun declared => ?_, fun same => (declaresDr_self same).trans rfl⟩
    by_contra apart
    rw [declaresDr_other apart kind] at declared
    exact ne_nil_of_mem (mem_drList.mpr ⟨inside, declared⟩) nobody

/-- Whoever becomes BDR becomes it again when it declares itself BDR. -/
theorem electedBdr_again (is : self.address = own) (found : electedBdr own kind el = some self) :
    electedBdr own .backup el = some self := by
  obtain ⟨member, notDr, declared | nobody⟩ := electedBdr_self is found
  · rwa [declared] at found
  · have notDeclared : declaresDr own .backup self = false := (declaresDr_self is).trans rfl
    have own_ : self ∈ bdrList own .backup el :=
      mem_bdrList.mpr ⟨member, notDeclared, (declaresBdr_self is).trans rfl⟩
    rw [electedBdr, if_pos (ne_nil_of_mem own_)]
    refine sub_self distinct member fun nbr => ?_
    rw [mem_bdrList, is]
    refine and_congr_right fun inside => ⟨fun both => ?_,
      fun same => ⟨(declaresDr_self same).trans rfl, (declaresBdr_self same).trans rfl⟩⟩
    by_contra apart
    rw [declaresDr_other apart kind, declaresBdr_other apart kind] at both
    exact ne_nil_of_mem (mem_bdrList.mpr ⟨inside, both⟩) nobody

/-- A BDR that is another router stays it when the router itself is BDR no longer. -/
theorem electedBdr_resign
    (lost : ¬ ∃ self, electedBdr own .backup el = some self ∧ self.address = own) :
    electedBdr own .drOther el = electedBdr own .backup el := by
  have resigns : IsmState.drOther ≠ .dr := by decide
  have declares : IsmState.backup ≠ .dr := by decide
  have sub : bdrList own .drOther el ⊆ bdrList own .backup el := by
    intro nbr member
    obtain ⟨inside, notDr, declared⟩ := mem_bdrList.mp member
    have apart : nbr.address ≠ own := fun is => by
      rw [declaresBdr_self is] at declared
      exact nomatch declared
    exact mem_bdrList.mpr ⟨inside, declaresDr_congr resigns declares ▸ notDr,
      declaresBdr_other apart .backup ▸ declared⟩
  by_cases nobody : bdrList own .backup el = []
  · have nobody' : bdrList own .drOther el = [] := subset_nil.mp (nobody ▸ sub)
    rw [electedBdr, electedBdr, if_neg (not_not.mpr nobody), if_neg (not_not.mpr nobody'),
      noDrList_congr resigns declares]
  · obtain ⟨best, found⟩ := scan_isSome outranks nobody
    have elected : electedBdr own .backup el = some best := (if_pos nobody).trans found
    have apart : best.address ≠ own := fun is => lost ⟨best, elected, is⟩
    obtain ⟨inside, notDr, declared⟩ := mem_bdrList.mp (scan_mem found)
    have still : best ∈ bdrList own .drOther el :=
      mem_bdrList.mpr ⟨inside, declaresDr_congr declares resigns ▸ notDr,
        declaresBdr_other apart .drOther ▸ declared⟩
    rw [elected, electedBdr, if_pos (ne_nil_of_mem still)]
    exact sub_rest distinct.bdr sub found still

/-- A DR that is another router stays it when the router itself is DR no longer. -/
theorem electedDr_resign (lost : ¬ ∃ self, electedDr own .dr el = some self ∧ self.address = own) :
    electedDr own .drOther el = electedDr own .dr el := by
  have sub : drList own .drOther el ⊆ drList own .dr el := by
    intro nbr member
    obtain ⟨inside, declared⟩ := mem_drList.mp member
    have apart : nbr.address ≠ own := fun is => by
      rw [declaresDr_self is] at declared
      exact nomatch declared
    exact mem_drList.mpr ⟨inside, declaresDr_other apart .dr ▸ declared⟩
  by_cases nobody : drList own .dr el = []
  · have nobody' : drList own .drOther el = [] := subset_nil.mp (nobody ▸ sub)
    have absent : ∀ nbr ∈ el, nbr.address ≠ own := fun nbr member is =>
      ne_nil_of_mem (mem_drList.mpr ⟨member, (declaresDr_self is).trans rfl⟩) nobody
    rw [electedDr, electedDr, if_neg (not_not.mpr nobody), if_neg (not_not.mpr nobody')]
    exact electedBdr_absent absent
  · obtain ⟨best, found⟩ := scan_isSome outranks nobody
    have elected : electedDr own .dr el = some best := (if_pos nobody).trans found
    have apart : best.address ≠ own := fun is => lost ⟨best, elected, is⟩
    obtain ⟨inside, declared⟩ := mem_drList.mp (scan_mem found)
    have still : best ∈ drList own .drOther el :=
      mem_drList.mpr ⟨inside, declaresDr_other apart .drOther ▸ declared⟩
    rw [elected, electedDr, if_pos (ne_nil_of_mem still)]
    exact sub_rest distinct.dr sub found still

end

theorem drList_congr (other : kind ≠ .dr) (other' : kind' ≠ .dr) :
    drList own kind el = drList own kind' el := by
  rw [drList, drList, declaresDr_congr other other']

/-- What a router can be after an election. -/
def Electable (kind : IsmState) : Prop := kind = .dr ∨ kind = .backup ∨ kind = .drOther

section
variable (some_ : own ≠ 0) (distinct : Distinct el) (electable : Electable kind)
include some_ distinct electable

/-- A second election with the new declarations has the same DR. -/
theorem electedDr_next : electedDr own (nextKind own kind el) el = electedDr own kind el := by
  have notDr : IsmState.backup ≠ .dr := by decide
  have neither : IsmState.drOther ≠ .dr := by decide
  rcases nextKind_cases own kind el with next | next | next
  · obtain ⟨self, found, is⟩ := (nextKind_eq_dr some_).mp next
    rw [next, electedDr_again distinct is found, found]
  · obtain ⟨lost, self, found, is⟩ := (nextKind_eq_backup some_).mp next
    obtain ⟨-, other, -⟩ := electedBdr_self is found
    have somebody : drList own kind el ≠ [] := fun nobody =>
      lost ⟨self, (if_neg (not_not.mpr nobody)).trans found, is⟩
    rw [next, electedDr, electedDr, drList_congr notDr other, if_pos somebody, if_pos somebody]
  · have lost : ¬ ∃ self, electedDr own kind el = some self ∧ self.address = own := by
      rw [← nextKind_eq_dr some_, next]
      decide
    rw [next]
    rcases electable with rfl | rfl | rfl
    · exact electedDr_resign distinct lost
    · rw [electedDr, electedDr, drList_congr neither notDr]
      split
      · rfl
      · refine electedBdr_resign distinct fun ⟨self, found, is⟩ => lost ⟨self, ?_, is⟩
        rw [electedDr, if_neg ‹_›, found]
    · rfl

/-- A third election finds what the second one found, and the router is not both DR and BDR then. -/
theorem elected_settled :
    electedDr own (nextKind own (nextKind own kind el) el) el =
      electedDr own (nextKind own kind el) el ∧
      electedBdr own (nextKind own (nextKind own kind el) el) el =
        electedBdr own (nextKind own kind el) el := by
  refine ⟨electedDr_next some_ distinct (nextKind_cases ..), ?_⟩
  have same := electedDr_next some_ distinct electable
  rcases nextKind_cases own kind el with next | next | next
  · have again : nextKind own .dr el = .dr := by
      rw [nextKind_eq_dr some_, ← next, same, ← nextKind_eq_dr some_]
      exact next
    rw [next, again]
  · obtain ⟨lost, self, found, is⟩ := (nextKind_eq_backup some_).mp next
    have again : nextKind own .backup el = .backup := by
      refine (nextKind_eq_backup some_).mpr ⟨?_, self, electedBdr_again distinct is found, is⟩
      rwa [← next, same]
    rw [next, again]
  · rw [next]
    rcases nextKind_cases own .drOther el with later | later | later
    · have first : nextKind own kind el = .dr := by
        rw [nextKind_eq_dr some_, ← same, next, ← nextKind_eq_dr some_]
        exact later
      rw [next] at first
      cases first
    · obtain ⟨-, self, found, is⟩ := (nextKind_eq_backup some_).mp later
      rw [later, found, electedBdr_again distinct is found]
    · rw [later]

theorem not_both : ¬((electedDr own (nextKind own kind el) el).elim 0 DrNeighbor.address = own ∧
      (electedBdr own (nextKind own kind el) el).elim 0 DrNeighbor.address = own) := by
  rw [electedDr_next some_ distinct electable, elim_self some_, elim_self some_]
  rintro ⟨dr, self, found, is⟩
  have next := (nextKind_eq_dr some_).mpr dr
  exact (electedBdr_self is found).2.1 next

/-- Who is DR is the best that declares itself DR afterwards, or the BDR if nobody does. -/
theorem electedDr_declared :
    (∀ nbr, electedDr own kind el = some nbr → drList own (nextKind own kind el) el ≠ [] →
      Highest (drList own (nextKind own kind el) el) nbr) ∧
    (drList own (nextKind own kind el) el = [] →
      electedDr own kind el = electedBdr own kind el) := by
  have same := electedDr_next some_ distinct electable
  refine ⟨fun nbr found somebody => ?_, fun nobody => ?_⟩
  · rw [← same, electedDr, if_pos somebody] at found
    exact (sub_eq_some distinct.dr).mp found
  · by_cases before : drList own kind el = []
    · exact if_neg (not_not.mpr before)
    · obtain ⟨best, found⟩ := scan_isSome outranks before
      have elected : electedDr own kind el = some best := (if_pos before).trans found
      obtain ⟨inside, declared⟩ := mem_drList.mp (scan_mem found)
      refine absurd nobody (ne_nil_of_mem (mem_drList.mpr ⟨inside, ?_⟩) : _ ≠ [])
      by_cases is : best.address = own
      · rw [(nextKind_eq_dr some_).mpr ⟨best, elected, is⟩, declaresDr_self is]
        rfl
      · exact declaresDr_other is kind ▸ declared

end

theorem electedBdr_perm (distinct : Distinct el) {el'} (perm : el'.Perm el) :
    electedBdr own kind el' = electedBdr own kind el := by
  have noDr : (noDrList own kind el').Perm (noDrList own kind el) := perm.filter _
  have bdr : (bdrList own kind el').Perm (bdrList own kind el) := noDr.filter _
  rw [electedBdr, sub_congr distinct.bdr fun _ => bdr.mem_iff,
    sub_congr distinct.noDr fun _ => noDr.mem_iff]
  exact if_congr (not_congr
    ⟨fun nil => Perm.eq_nil (nil ▸ bdr.symm), fun nil => Perm.eq_nil (nil ▸ bdr)⟩) rfl rfl

theorem electedDr_perm (distinct : Distinct el) {el'} (perm : el'.Perm el) :
    electedDr own kind el' = electedDr own kind el := by
  have dr : (drList own kind el').Perm (drList own kind el) := perm.filter _
  rw [electedDr, sub_congr distinct.dr fun _ => dr.mem_iff, electedBdr_perm distinct perm]
  exact if_congr
    (not_congr ⟨fun nil => Perm.eq_nil (nil ▸ dr.symm), fun nil => Perm.eq_nil (nil ▸ dr)⟩) rfl rfl

theorem Distinct.perm (distinct : Distinct el) {el'} (perm : el'.Perm el) : Distinct el' where
  ranked := distinct.ranked.mono perm.subset
  addresses first member second member' :=
    distinct.addresses first (perm.subset member) second (perm.subset member')

end Election

/-! The election of an interface -/

namespace DrInterface
variable (oi : DrInterface) {el : List DrNeighbor} {nbr found : DrNeighbor}

theorem electable : Electable oi.ospfIsmState := by
  rw [ospfIsmState]
  split
  · exact .inl rfl
  · split
    · exact .inr (.inl rfl)
    · exact .inr (.inr rfl)

theorem ospfIsmState_eq_dr : oi.ospfIsmState = .dr ↔ oi.address = oi.dr := by
  rw [ospfIsmState]
  split
  · exact iff_of_true rfl (Eq.symm ‹_›)
  · refine iff_of_false ?_ (Ne.symm ‹_›)
    split <;> exact fun impossible => nomatch impossible

theorem ospfIsmState_eq_backup (notDr : oi.ospfIsmState ≠ .dr) :
    oi.ospfIsmState = .backup ↔ oi.address = oi.bdr := by
  have other : ¬ oi.dr = oi.address := fun same => notDr (oi.ospfIsmState_eq_dr.mpr same.symm)
  rw [ospfIsmState, if_neg other]
  split
  · exact iff_of_true rfl (Eq.symm ‹_›)
  · exact iff_of_false (fun impossible => nomatch impossible) (Ne.symm ‹_›)

theorem nbrIsDr_eq : oi.nbrIsDr = declaresDr oi.address oi.ospfIsmState := by
  funext nbr
  rw [nbrIsDr, dRouter, declaresDr]
  split
  · rw [‹nbr.address = oi.address›]
    exact decide_eq_decide.mpr oi.ospfIsmState_eq_dr.symm
  · rfl

theorem noDrList_eq (el : List DrNeighbor) :
    (el.filter fun nbr => !oi.nbrIsDr nbr) = noDrList oi.address oi.ospfIsmState el := by
  rw [nbrIsDr_eq]
  rfl

theorem bdrList_eq (el : List DrNeighbor) :
    (noDrList oi.address oi.ospfIsmState el).filter oi.nbrIsBdr =
      bdrList oi.address oi.ospfIsmState el := by
  refine filter_congr fun nbr member => ?_
  obtain ⟨-, notDr⟩ := mem_noDrList.mp member
  rw [nbrIsBdr, bdRouter, declaresBdr]
  split
  · rename_i is
    rw [declaresDr_self is] at notDr
    rw [is]
    exact decide_eq_decide.mpr (oi.ospfIsmState_eq_backup (of_decide_eq_false notDr)).symm
  · rfl

theorem ospfElectBdr_eq (el : List DrNeighbor) :
    oi.ospfElectBdr el =
      { oi with bdr := (electedBdr oi.address oi.ospfIsmState el).elim 0 DrNeighbor.address } := by
  rw [ospfElectBdr, noDrList_eq, bdrList_eq]
  rfl

/-- `/* Preserve neighbor BDR. */` -/
theorem foldl_preserve {bdr} (only : ∀ nbr ∈ el, bdr = nbr.address → nbr = found)
    (start : Option DrNeighbor) (there : found ∈ el ∧ bdr = found.address ∨ start = some found) :
    el.foldl (fun kept nbr => if bdr = nbr.address then some nbr else kept) start = some found := by
  induction el generalizing start with
  | nil => exact there.resolve_left nofun
  | cons first rest ih =>
    rw [foldl_cons]
    refine ih (fun nbr member => only nbr (.tail _ member)) _ ?_
    by_cases here : bdr = first.address
    · rw [if_pos here, only first mem_cons_self here]
      exact .inr rfl
    · rw [if_neg here]
      refine there.imp_left fun ⟨member, is⟩ => ⟨(mem_cons.mp member).resolve_left ?_, is⟩
      rintro rfl
      exact here is

theorem elect_eq (distinct : Distinct el) :
    oi.elect el = { oi with
      dr := (electedDr oi.address oi.ospfIsmState el).elim 0 DrNeighbor.address
      bdr := (electedBdr oi.address oi.ospfIsmState el).elim 0 DrNeighbor.address } := by
  obtain ⟨bdr, isBdr⟩ := @exists_eq _ (electedBdr oi.address oi.ospfIsmState el)
  have list : (el.filter (oi.ospfElectBdr el).nbrIsDr) = drList oi.address oi.ospfIsmState el := by
    rw [drList, ← nbrIsDr_eq]
    rfl
  have same : (if drList oi.address oi.ospfIsmState el ≠ [] then
      ospfDrElectionSub (drList oi.address oi.ospfIsmState el)
      else el.foldl (fun kept nbr => if (oi.ospfElectBdr el).bdr = nbr.address then some nbr
        else kept) none) =
      electedDr oi.address oi.ospfIsmState el := by
    refine ite_congr rfl (fun _ => rfl) fun nobody => ?_
    rw [ospfElectBdr_eq, ← isBdr]
    cases bdr with
    | none =>
      -- whoever is not DR would have been elected
      have empty : el = [] := by
        have noDr : noDrList oi.address oi.ospfIsmState el = [] := by
          rw [electedBdr] at isBdr
          split at isBdr
          · exact absurd (sub_eq_none.mp isBdr.symm) ‹_›
          · exact sub_eq_none.mp isBdr.symm
        refine eq_nil_iff_forall_not_mem.mpr fun nbr member => ?_
        by_cases declared : declaresDr oi.address oi.ospfIsmState nbr = true
        · exact absurd (mem_drList.mpr ⟨member, declared⟩) (not_not.mp nobody ▸ not_mem_nil)
        · exact absurd (mem_noDrList.mpr ⟨member, Bool.eq_false_of_not_eq_true declared⟩)
            (noDr ▸ not_mem_nil)
      rw [empty]
      rfl
    | some found =>
      have inside : found ∈ el := by
        rw [electedBdr] at isBdr
        split at isBdr
        · exact (mem_bdrList.mp (scan_mem isBdr.symm)).1
        · exact (mem_noDrList.mp (scan_mem isBdr.symm)).1
      exact foldl_preserve (fun nbr member same =>
        distinct.addresses nbr member found inside same.symm) none (.inl ⟨inside, rfl⟩)
  rw [elect, ospfElectDr]
  rw [list, same, ospfElectBdr_eq]

theorem ospfIsmState_elect (distinct : Distinct el) :
    (oi.elect el).ospfIsmState = nextKind oi.address oi.ospfIsmState el := by
  rw [elect_eq oi distinct]
  rfl

theorem distinct_eligible : Distinct oi.ospfDrEligibleRouters := by
  have inTable : ∀ nbr ∈ oi.ospfDrEligibleRouters, nbr ∈ oi.nbrs ∧ nbr.routerId ≠ 0 := by
    intro nbr member
    obtain ⟨inside, eligible⟩ := mem_filter.mp member
    simp only [Bool.and_eq_true, decide_eq_true_eq] at eligible
    exact ⟨inside, eligible.1.1⟩
  constructor
  · intro first member second member' same
    obtain ⟨inside, set⟩ := inTable first member
    obtain ⟨inside', set'⟩ := inTable second member'
    have ids := oi.routerIds
    rw [filter_map] at ids
    refine inj_on_of_nodup_map ids (mem_filter.mpr ⟨inside, decide_eq_true set⟩)
      (mem_filter.mpr ⟨inside', decide_eq_true set'⟩) ?_
    refine BitVec.eq_of_toNat_eq ?_
    rw [DrNeighbor.rank, DrNeighbor.rank] at same
    omega
  · intro first member second member' same
    exact inj_on_of_nodup_map oi.addresses (inTable first member).1 (inTable second member').1 same

/-- The router as an election leaves it that starts from `kind`. -/
def leave (kind : IsmState) (el : List DrNeighbor) : DrInterface :=
  { oi with
    dr := (electedDr oi.address kind el).elim 0 DrNeighbor.address
    bdr := (electedBdr oi.address kind el).elim 0 DrNeighbor.address
    state := nextKind oi.address kind el }

/-- The state fits DR and BDR. -/
def Agrees : Prop :=
  oi.state = oi.ospfIsmState ∨ oi.state.rank < IsmState.drOther.rank ∧ oi.ospfIsmState = .drOther

instance : Decidable oi.Agrees := inferInstanceAs (Decidable (_ ∨ _ ∧ _))

/-- DR is the best of the routers that declare themselves DR, or BDR when there is none. -/
def Designates (declared : List DrNeighbor) (dr bdr : InAddr) : Prop :=
  (∃ nbr, Highest declared nbr ∧ dr = nbr.address) ∨ declared = [] ∧ dr = bdr

theorem leave_agrees (kind : IsmState) (el : List DrNeighbor) :
    (oi.leave kind el).Agrees := .inl rfl

theorem electable_rank {kind} (electable : Electable kind) : IsmState.drOther.rank ≤ kind.rank := by
  rcases electable with rfl | rfl | rfl <;> decide

section
variable (distinct : Distinct el)
include distinct

theorem elect_settled :
    ({ oi.elect el with state := (oi.elect el).ospfIsmState } : DrInterface) =
      oi.leave oi.ospfIsmState el := by
  rw [elect_eq oi distinct]
  rfl

theorem electionOf_eq :
    oi.electionOf el =
      if nextKind oi.address oi.ospfIsmState el ≠ oi.state ∧
          ¬(nextKind oi.address oi.ospfIsmState el = .drOther ∧
            oi.state.rank < IsmState.drOther.rank) then
        oi.leave (nextKind oi.address oi.ospfIsmState el) el
      else oi.leave oi.ospfIsmState el := by
  rw [← ospfIsmState_elect oi distinct]
  refine ite_congr rfl (fun _ => ?_) fun _ => oi.elect_settled distinct
  refine ((oi.elect el).elect_settled distinct).trans ?_
  rfl

/-- Every election ends like one that starts from what the interface was or from what the first one
  made it. -/
theorem electionOf_leave :
    ∃ kind, oi.electionOf el = oi.leave kind el ∧ Electable kind ∧
      electedDr oi.address kind el = electedDr oi.address oi.ospfIsmState el := by
  rw [electionOf_eq oi distinct]
  split
  · exact ⟨_, rfl, nextKind_cases .., electedDr_next oi.addressed distinct oi.electable⟩
  · exact ⟨_, rfl, oi.electable, rfl⟩

/-- Where the state fits, one election that is enough changed nothing about the router itself. -/
theorem electionOf_agrees (agrees : oi.Agrees) :
    oi.electionOf el = oi.leave (nextKind oi.address oi.ospfIsmState el) el := by
  rw [electionOf_eq oi distinct]
  split
  · rfl
  · rename_i enough
    have above := electable_rank oi.electable
    have kept : nextKind oi.address oi.ospfIsmState el = oi.ospfIsmState := by
      by_cases same : nextKind oi.address oi.ospfIsmState el = oi.state
      · have next := electable_rank (nextKind_cases oi.address oi.ospfIsmState el)
        rcases agrees with is | ⟨below, -⟩
        · rw [same, is]
        · rw [same] at next
          omega
      · have first : nextKind oi.address oi.ospfIsmState el = .drOther ∧
            oi.state.rank < IsmState.drOther.rank := by
          by_contra more
          exact enough ⟨same, more⟩
        rcases agrees with is | ⟨-, other⟩
        · rw [is] at first
          omega
        · rw [first.1, other]
    rw [kept]

/-- An election whose state fits leaves the router where the next one finds it. -/
theorem leave_again {kind} (electable : Electable kind) :
    (oi.leave (nextKind oi.address kind el) el).electionOf el =
      oi.leave (nextKind oi.address kind el) el := by
  obtain ⟨dr, bdr⟩ := elected_settled oi.addressed distinct electable
  have kept : nextKind oi.address (nextKind oi.address (nextKind oi.address kind el) el) el =
      nextKind oi.address (nextKind oi.address kind el) el := by
    rw [nextKind, dr, bdr]
    rfl
  rw [electionOf_agrees _ distinct (oi.leave_agrees _ el)]
  refine Eq.trans (b := oi.leave
    (nextKind oi.address (nextKind oi.address (nextKind oi.address kind el) el) el) el) rfl ?_
  rw [kept, leave, leave, dr, bdr, kept]

theorem leave_designates {kind} (electable : Electable kind) :
    Designates (el.filter (oi.leave kind el).nbrIsDr)
    (oi.leave kind el).dr (oi.leave kind el).bdr := by
  obtain ⟨best, nobody⟩ := electedDr_declared oi.addressed distinct electable
  have list : el.filter (oi.leave kind el).nbrIsDr =
      drList oi.address (nextKind oi.address kind el) el := by
    rw [nbrIsDr_eq]
    rfl
  rw [list]
  by_cases empty : drList oi.address (nextKind oi.address kind el) el = []
  · exact .inr ⟨empty, congrArg (·.elim 0 DrNeighbor.address) (nobody empty)⟩
  · obtain ⟨nbr, found⟩ := scan_isSome outranks empty
    have elected : electedDr oi.address kind el = some nbr := by
      rw [← electedDr_next oi.addressed distinct electable]
      exact (if_pos empty).trans found
    exact .inl ⟨nbr, best nbr elected empty, congrArg (·.elim 0 DrNeighbor.address) elected⟩

theorem electedDr_designates (kind : IsmState) :
    Designates (drList oi.address kind el)
    ((electedDr oi.address kind el).elim 0 DrNeighbor.address)
      ((electedBdr oi.address kind el).elim 0 DrNeighbor.address) := by
  by_cases empty : drList oi.address kind el = []
  · have elected : electedDr oi.address kind el = electedBdr oi.address kind el :=
      if_neg (not_not.mpr empty)
    exact .inr ⟨empty, by rw [elected]⟩
  · obtain ⟨nbr, found⟩ := scan_isSome outranks empty
    have elected : electedDr oi.address kind el = some nbr := (if_pos empty).trans found
    exact .inl
      ⟨nbr, (sub_eq_some distinct.dr).mp found, congrArg (·.elim 0 DrNeighbor.address) elected⟩

end

theorem electionEffects_of_kept (kept : oi.ospfDrElection = oi) : oi.electionEffects = {} := by
  rw [electionEffects, kept]
  cases drOrBackup oi.state <;> simp

/-- Whatever the router was before: who is DR goes by what the routers declare, before the election
as after it, and not by the order of the list. Where the state fits DR and BDR, as every election
leaves it, the router does not end as both and the next election changes nothing and sets nothing
off. -/
theorem dr_election_settles :
    (∀ el : List DrNeighbor, el.Perm oi.ospfDrEligibleRouters →
      oi.electionOf el = oi.ospfDrElection) ∧
    Designates (oi.ospfDrEligibleRouters.filter oi.nbrIsDr) oi.ospfDrElection.dr
      (oi.ospfElectBdr oi.ospfDrEligibleRouters).bdr ∧
    Designates (oi.ospfDrEligibleRouters.filter oi.ospfDrElection.nbrIsDr) oi.ospfDrElection.dr
      oi.ospfDrElection.bdr ∧
    oi.ospfDrElection.Agrees ∧
    (oi.Agrees →
      ¬(oi.ospfDrElection.dr = oi.address ∧ oi.ospfDrElection.bdr = oi.address) ∧
      oi.ospfDrElection.ospfDrElection = oi.ospfDrElection ∧
      oi.ospfDrElection.electionEffects = {}) := by
  have distinct := oi.distinct_eligible
  obtain ⟨kind, left, electable, sameDr⟩ := oi.electionOf_leave distinct
  have elected : oi.ospfDrElection = oi.leave kind oi.ospfDrEligibleRouters := left
  refine ⟨fun el perm => ?_, ?_, ?_, ?_, fun agrees => ?_⟩
  · have dr : ∀ kind, electedDr oi.address kind el =
        electedDr oi.address kind oi.ospfDrEligibleRouters :=
      fun kind => electedDr_perm distinct perm
    have bdr : ∀ kind, electedBdr oi.address kind el =
        electedBdr oi.address kind oi.ospfDrEligibleRouters :=
      fun kind => electedBdr_perm distinct perm
    have next : ∀ kind, nextKind oi.address kind el =
        nextKind oi.address kind oi.ospfDrEligibleRouters := fun kind => by
      rw [nextKind, dr, bdr]
      rfl
    rw [ospfDrElection, electionOf_eq oi (distinct.perm perm), electionOf_eq oi distinct]
    simp only [leave, next, dr, bdr]
  · rw [elected, nbrIsDr_eq, ospfElectBdr_eq]
    have before := oi.electedDr_designates distinct oi.ospfIsmState
    rw [← sameDr] at before
    exact before
  · rw [elected]
    exact oi.leave_designates distinct electable
  · rw [elected]
    exact oi.leave_agrees kind _
  · have settled : oi.ospfDrElection = oi.leave
        (nextKind oi.address oi.ospfIsmState oi.ospfDrEligibleRouters) oi.ospfDrEligibleRouters :=
      oi.electionOf_agrees distinct agrees
    have kept : oi.ospfDrElection.ospfDrElection = oi.ospfDrElection := by
      rw [settled]
      exact oi.leave_again distinct oi.electable
    refine ⟨?_, kept, electionEffects_of_kept _ kept⟩
    rw [settled]
    exact not_both oi.addressed distinct oi.electable

end DrInterface

/-- Three routers: the second declares itself DR, the third has the highest priority. -/
def sampleSegment (state : IsmState) (dr bdr : InAddr) : DrInterface where
  routerId := 1
  address := 0x0a000001
  dr := dr
  bdr := bdr
  state := state
  nbrs := [
    { routerId := 1, address := 0x0a000001, priority := 1, state := .twoWay },
    { routerId := 2, address := 0x0a000002, priority := 1, state := .full, dRouter := 0x0a000002 },
    { routerId := 3, address := 0x0a000003, priority := 2, state := .twoWay }]
  addressed := by decide
  addresses := by decide
  routerIds := by decide

theorem dr_election_waiting :
    (sampleSegment .waiting 0 0).ospfDrElection.dr = 0x0a000002 ∧
    (sampleSegment .waiting 0 0).ospfDrElection.bdr = 0x0a000003 ∧
    ¬((sampleSegment .waiting 0 0).ospfDrElection.dr = 0x0a000001 ∧
      (sampleSegment .waiting 0 0).ospfDrElection.bdr = 0x0a000001) ∧
    (sampleSegment .waiting 0 0).ospfDrElection.electionEffects = {} :=
  ⟨by decide, by decide, ((sampleSegment .waiting 0 0).dr_election_settles.2.2.2.2 (by decide)).1,
    ((sampleSegment .waiting 0 0).dr_election_settles.2.2.2.2 (by decide)).2.2⟩

/-- A lone router whose state says that it is DR while no address stands as DR. -/
def soleRouter : DrInterface where
  routerId := 1
  address := 0x0a000001
  state := .dr
  nbrs := [{ routerId := 1, address := 0x0a000001, priority := 1, state := .twoWay }]
  addressed := by decide
  addresses := by decide
  routerIds := by decide

/-- It ends as DR and BDR, and the next election takes the BDR away. -/
theorem dr_election_both :
    soleRouter.ospfDrElection.dr = soleRouter.address ∧
    soleRouter.ospfDrElection.bdr = soleRouter.address ∧
    soleRouter.ospfDrElection.ospfDrElection.bdr ≠ soleRouter.ospfDrElection.bdr := by
  decide

end Zebra.Ospfd
