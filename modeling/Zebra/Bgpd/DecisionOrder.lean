import Mathlib.Data.List.Pairwise
import Zebra.Bgpd.DecisionReads

namespace Zebra.Bgpd
open Base FlagMap List Contest Flags

theorem prefer_swap {better worse rest swapped} (exclusive : (better && worse) = false)
    (later : swapped = !rest) : prefer worse better swapped = !prefer better worse rest := by
  cases better <;> cases worse <;> cases rest <;> simp_all [prefer]

theorem bitvec_exclusive {width} (x y : BitVec width) :
    (decide (x < y) && decide (y < x)) = false := by
  have asymm : ¬ (x < y ∧ y < x) := fun both => Nat.lt_asymm both.1 both.2
  simpa using asymm

theorem nat_exclusive (x y : Nat) : (decide (x < y) && decide (y < x)) = false := by
  have asymm : ¬ (x < y ∧ y < x) := fun both => lt_asymm both.1 both.2
  simpa using asymm

theorem guarded_exclusive {guard better worse} (exclusive : (better && worse) = false) :
    ((guard && better) && (guard && worse)) = false := by
  cases guard
  · rfl
  · simpa using exclusive

/-- A path that this router originates itself. -/
def selfOriginated (path : BgpInfo) : Bool :=
  path.id.subType != .normal

/-- Paths as `bgp_process` finds them on a node: all eligible, from peers with
different addresses and router identifiers, at most one of them self originated
and at most one of them selected before. The marks of the deterministic-med pass
are clear: `bgpProcess_clear` says that every earlier run leaves them so. -/
structure Candidates (bgp : Bgp) (info : List BgpInfo) (flags : FlagMap) : Prop where
  eligible : ∀ ri ∈ info, (flags ri.id).holddown = false
  apart : info.Pairwise fun first second =>
    (bgp.peer first.id.peer).suRemote ≠ (bgp.peer second.id.peer).suRemote ∧
    (bgp.peer first.id.peer).remoteId ≠ (bgp.peer second.id.peer).remoteId
  selfOnce : info.Pairwise fun first second =>
    ¬ (selfOriginated first = true ∧ selfOriginated second = true)
  selectedOnce : info.Pairwise fun first second =>
    ¬ ((flags first.id).selected = true ∧ (flags second.id).selected = true)
  unmarked : ∀ ri ∈ info, (flags ri.id).dmedCheck = false ∧ (flags ri.id).dmedSelected = false

section Comparison
variable {bgp : Bgp} {selected : PathId → Bool} {first second : BgpInfo}

section
variable {attr1 attr2 : Attr} (readable1 : attr1.Readable) (readable2 : attr2.Readable)
include readable1 readable2

theorem cmpLeft_comm : cmpLeft attr1 attr2 = cmpLeft attr2 attr1 := by
  have swap : ∀ left right, sameLeft left right = sameLeft right left := by
    intro left right
    rw [Bool.eq_iff_iff, sameLeft_iff, sameLeft_iff]
    exact ⟨fun ⟨asno, l, r⟩ => ⟨asno, r, l⟩, fun ⟨asno, l, r⟩ => ⟨asno, r, l⟩⟩
  obtain ⟨aspath1, has1, whole1⟩ := readable1
  obtain ⟨aspath2, has2, whole2⟩ := readable2
  rw [cmpLeft, cmpLeft, readLeft_eq has1 has2 whole1 whole2, readLeft_eq has2 has1 whole2 whole1,
    swap aspath1.leftAs, swap aspath1.leftConfed]

theorem medComparable_comm (bgp : Bgp) :
    medComparable bgp attr1 attr2 = medComparable bgp attr2 attr1 := by
  simp only [medComparable, cmpLeft_comm readable1 readable2]
  grind

end

/-- Of two paths with different addresses one is preferred, whichever is asked first. -/
theorem bgpInfoCmp_not (firstReadable : first.attr.Readable) (secondReadable : second.attr.Readable)
    (apart : (bgp.peer first.id.peer).suRemote ≠ (bgp.peer second.id.peer).suRemote)
    (selfOnce : ¬ (selfOriginated first = true ∧ selfOriginated second = true))
    (selectedOnce : ¬ (selected first.id = true ∧ selected second.id = true)) :
    bgpInfoCmp bgp selected second first = !bgpInfoCmp bgp selected first second := by
  have address : (!decide (sockunionCmp (bgp.peer second.id.peer).suRemote
      (bgp.peer first.id.peer).suRemote = 1)) =
        !!decide (sockunionCmp (bgp.peer first.id.peer).suRemote
      (bgp.peer second.id.peer).suRemote = 1) := by
    have nonzero : sockunionCmp (bgp.peer first.id.peer).suRemote
        (bgp.peer second.id.peer).suRemote ≠ 0 := fun zero => apart (sockunionCmp_eq_zero zero)
    have cases :=
      sockunionCmp_cases (bgp.peer first.id.peer).suRemote (bgp.peer second.id.peer).suRemote
    rw [sockunionCmp_neg (bgp.peer first.id.peer).suRemote]
    grind
  have oldestSwap :
      (!bgp.compareRouterId && decide (peerSort bgp (bgp.peer second.id.peer) = .ebgp) &&
      decide (peerSort bgp (bgp.peer first.id.peer) = .ebgp)) =
      (!bgp.compareRouterId && decide (peerSort bgp (bgp.peer first.id.peer) = .ebgp) &&
        decide (peerSort bgp (bgp.peer second.id.peer) = .ebgp)) :=
    Bool.and_right_comm ..
  unfold bgpInfoCmp
  simp only [medComparable_comm secondReadable firstReadable bgp,
    ecommunityCostCmp_neg first.attr.ecommunity second.attr.ecommunity, address]
  have subTypes : ∀ subType, subType ≠ .normal →
      (decide (first.id.subType = subType) && decide (second.id.subType = subType)) = false := by
    intro subType unusual
    by_contra both
    simp only [Bool.not_eq_false, Bool.and_eq_true, decide_eq_true_eq] at both
    exact selfOnce (by simp [selfOriginated, both.1, both.2, unusual])
  refine prefer_swap (bitvec_exclusive _ _) ?_
  refine prefer_swap (bitvec_exclusive _ _) ?_
  refine prefer_swap (subTypes .static (by decide)) ?_
  refine prefer_swap (subTypes .redistribute (by decide)) ?_
  refine prefer_swap (subTypes .aggregate (by decide)) ?_
  refine prefer_swap (guarded_exclusive (nat_exclusive _ _)) ?_
  refine prefer_swap (bitvec_exclusive _ _) ?_
  refine prefer_swap (guarded_exclusive (bitvec_exclusive _ _)) ?_
  refine prefer_swap ?peerType ?_
  case peerType =>
    cases peerSort bgp (bgp.peer first.id.peer) <;>
      cases peerSort bgp (bgp.peer second.id.peer) <;> rfl
  refine prefer_swap (bitvec_exclusive _ _) ?_
  simp only [Int.neg_pos, Int.neg_neg_iff_pos]
  refine prefer_swap ?cost ?_
  case cost => exact guarded_exclusive (by simpa using Int.le_of_lt)
  rw [oldestSwap]
  refine prefer_swap ?oldest ?_
  case oldest =>
    refine guarded_exclusive ?_
    by_contra both
    simp only [Bool.not_eq_false, Bool.and_eq_true] at both
    exact selectedOnce both
  refine prefer_swap (bitvec_exclusive _ _) ?_
  exact prefer_swap (nat_exclusive _ _) rfl

end Comparison

/-- The neighbour AS that the first pass groups a path under, if any. -/
def neighbourKey (path : BgpInfo) : Option (As ⊕ As) :=
  path.attr.aspath.bind fun aspath =>
    match aspath.leftAs with
    | some asno => some (.inl asno)
    | none => aspath.leftConfed.map .inr

/-- The same path, or two paths of one neighbour AS. -/
def sameNeighbour (first second : BgpInfo) : Bool :=
  first = second || ((neighbourKey first).isSome && neighbourKey first = neighbourKey second)

theorem sameNeighbour_iff {first second} : sameNeighbour first second = true ↔
    first = second ∨ (neighbourKey first).isSome ∧ neighbourKey first = neighbourKey second := by
  simp [sameNeighbour]

theorem sameNeighbour_grouping : Grouping sameNeighbour where
  refl _ := sameNeighbour_iff.mpr (Or.inl rfl)
  symm same := by
    rcases sameNeighbour_iff.mp same with rfl | ⟨present, key⟩
    · exact same
    · exact sameNeighbour_iff.mpr (Or.inr ⟨key ▸ present, key.symm⟩)
  trans left right := by
    rcases sameNeighbour_iff.mp left with rfl | ⟨present, key⟩
    · exact right
    · rcases sameNeighbour_iff.mp right with rfl | ⟨-, next⟩
      · exact left
      · exact sameNeighbour_iff.mpr (Or.inr ⟨present, key.trans next⟩)

/-- The AS path of a path can be compared, and has at most one AS for that. -/
def Comparable (path : BgpInfo) : Prop :=
  path.attr.Readable ∧ path.attr.Unambiguous

/-- On such paths the test of the first pass is equality of these keys. -/
theorem cmpLeft_iff {first second} (firstOk : Comparable first) (secondOk : Comparable second) :
    cmpLeft first.attr second.attr = true ↔
      (neighbourKey first).isSome ∧ neighbourKey first = neighbourKey second := by
  obtain ⟨⟨aspath1, left, whole1⟩, single1⟩ := firstOk
  obtain ⟨⟨aspath2, right, whole2⟩, single2⟩ := secondOk
  have apart1 := single1 aspath1 left
  have apart2 := single2 aspath2 right
  rw [cmpLeft, readLeft_eq left right whole1 whole2, Option.getD_some]
  simp only [neighbourKey, left, right, Bool.or_eq_true, sameLeft_iff, Option.bind_some]
  cases left1 : aspath1.leftAs with
  | some as1 =>
    have none1 := apart1 as1 left1
    cases left2 : aspath2.leftAs with
    | some as2 => simp [none1, eq_comm]
    | none => cases aspath2.leftConfed <;> simp [none1]
  | none =>
    cases left2 : aspath2.leftAs with
    | some as2 => cases aspath1.leftConfed <;> simp [apart2 as2 left2]
    | none => cases aspath1.leftConfed <;> cases aspath2.leftConfed <;> simp [eq_comm]

section FirstPass
variable (bgp : Bgp) (ri1 : BgpInfo)
variable {rest : List BgpInfo} {flags : FlagMap}

theorem dmedGroup_check (current : BgpInfo) (eligible : ∀ ri ∈ rest, (flags ri.id).holddown = false)
    (id : PathId) :
    ((dmedGroup bgp ri1 rest current flags).2 id).dmedCheck = true ↔
      (flags id).dmedCheck = true ∨ ∃ ri ∈ rest, ri.id = id ∧ cmpLeft ri1.attr ri.attr = true := by
  induction rest generalizing current flags with
  | nil => simp [dmedGroup]
  | cons ri2 rest ih =>
    have stays : ∀ flags', SameCore flags' flags →
        ∀ ri ∈ rest, (flags' ri.id).holddown = false := fun flags' same ri member =>
      (holddown_eq (same ri.id)).trans (eligible ri (mem_cons_of_mem ri2 member))
    simp only [dmedGroup, eligible ri2 (mem_cons_self ..), Bool.false_eq_true, ↓reduceIte,
      exists_mem_cons_iff]
    split
    · rename_i checked
      rw [ih _ (stays flags (SameCore.refl flags))]
      constructor
      · exact fun cases => cases.imp_right Or.inr
      · rintro (before | ⟨rfl, -⟩ | later)
        · exact Or.inl before
        · exact Or.inl checked
        · exact Or.inr later
    · split
      · rename_i grouped
        split
        · rw [ih _ (stays _ ((setCheck_core _ _).trans (unsetDmedSelected_core _ _)))]
          simp only [setCheck_dmedCheck, unsetDmedSelected_dmedCheck, grouped]
          grind
        · rw [ih _ (stays _ (setCheck_core _ _))]
          simp only [setCheck_dmedCheck, grouped]
          grind
      · rename_i separate
        rw [ih _ (stays flags (SameCore.refl flags))]
        simp [separate]

/-- While the marks of the group are clear, the inner loop sets none. -/
theorem dmedGroup_dmedSelected {current} (currentClear : (flags current.id).dmedSelected = false)
    (clear : ∀ ri ∈ rest, (flags ri.id).dmedCheck = false → (flags ri.id).dmedSelected = false)
    (id : PathId) :
    ((dmedGroup bgp ri1 rest current flags).2 id).dmedSelected = (flags id).dmedSelected := by
  induction rest generalizing current flags with
  | nil => rfl
  | cons ri2 rest ih =>
    have later :=  fun ri member => clear ri (mem_cons_of_mem ri2 member)
    simp only [dmedGroup]
    split
    · exact ih currentClear later
    · rename_i isOpen
      split
      · exact ih currentClear later
      · split
        · split
          · rw [ih]
            · by_cases same : id = current.id
              · simp [same, currentClear]
              · simp [same]
            · simp [clear ri2 (mem_cons_self ..) (by simpa using isOpen)]
            · intro ri member unchecked
              simp only [setCheck_dmedCheck, unsetDmedSelected_dmedCheck,
                Bool.or_eq_false_iff] at unchecked
              simp [later ri member unchecked.2]
          · rw [ih]
            · simp
            · simpa using currentClear
            · intro ri member unchecked
              simp only [setCheck_dmedCheck, Bool.or_eq_false_iff] at unchecked
              simpa using later ri member unchecked.2
        · exact ih currentClear later

theorem dmedGroup_best (current : BgpInfo) (distinct : (rest.map BgpInfo.id).Nodup)
    (eligible : ∀ ri ∈ rest, (flags ri.id).holddown = false) :
    some (dmedGroup bgp ri1 rest current flags).1 =
      (rest.filter fun ri => !(flags ri.id).dmedCheck && cmpLeft ri1.attr ri.attr).foldl
        (pick (bgpInfoCmp bgp flags.selected)) (some current) := by
  induction rest generalizing current flags with
  | nil => rfl
  | cons ri2 rest ih =>
    simp only [map_cons, nodup_cons] at distinct
    have later : ∀ ri ∈ rest, (flags ri.id).holddown = false := fun ri member =>
      eligible ri (mem_cons_of_mem ri2 member)
    have stays : ∀ flags', SameCore flags' flags →
        (∀ ri ∈ rest, (flags' ri.id).dmedCheck = (flags ri.id).dmedCheck) → ∀ next,
        some (dmedGroup bgp ri1 rest next flags').1 =
          (rest.filter fun ri => !(flags ri.id).dmedCheck && cmpLeft ri1.attr ri.attr).foldl
            (pick (bgpInfoCmp bgp flags.selected)) (some next) := by
      intro flags' same checks next
      have sameHold : ∀ ri ∈ rest, (flags' ri.id).holddown = false := fun ri member =>
        (holddown_eq (same ri.id)).trans (later ri member)
      rw [ih _ distinct.2 sameHold, same.selected]
      congr 1
      apply filter_congr
      intro ri member
      rw [checks ri member]
    have elsewhere : ∀ ri ∈ rest, ri.id ≠ ri2.id := fun ri member same =>
      distinct.1 (same ▸ mem_map_of_mem member)
    simp only [dmedGroup, eligible ri2 (mem_cons_self ..), Bool.false_eq_true, ↓reduceIte,
      filter_cons]
    by_cases checked : (flags ri2.id).dmedCheck
    · simp only [checked, ↓reduceIte, Bool.not_true, Bool.false_and, Bool.false_eq_true]
      exact stays flags (SameCore.refl flags) (fun _ _ => rfl) current
    · by_cases grouped : cmpLeft ri1.attr ri2.attr
      · simp only [checked, grouped, Bool.false_eq_true, ↓reduceIte, Bool.not_false, Bool.and_self,
          foldl_cons, pick]
        split
        · apply stays
          · exact (setCheck_core _ _).trans (unsetDmedSelected_core _ _)
          · intro ri member
            simp [elsewhere ri member]
        · apply stays
          · exact setCheck_core _ _
          · intro ri member
            simp [elsewhere ri member]
      · simp only [checked, grouped, Bool.false_eq_true, ↓reduceIte, Bool.and_false]
        exact stays flags (SameCore.refl flags) (fun _ _ => rfl) current

/-- The paths that the outer loop of the first pass still has to place. -/
def openPaths (flags : FlagMap) (info : List BgpInfo) : List BgpInfo :=
  info.filter fun ri => !(flags ri.id).dmedCheck

section Group
variable {ri1} (distinct : ((ri1 :: rest).map BgpInfo.id).Nodup)
  (eligible : ∀ ri ∈ rest, (flags ri.id).holddown = false)
  (comparable : ∀ ri ∈ ri1 :: rest, Comparable ri)
include distinct comparable

/-- The test of the inner loop is the relation of the groups. -/
theorem cmpLeft_eq {ri} (member : ri ∈ rest) :
    cmpLeft ri1.attr ri.attr = sameNeighbour ri1 ri := by
  have first := comparable ri1 (mem_cons_self ..)
  rw [Bool.eq_iff_iff, sameNeighbour_iff,
    cmpLeft_iff first (comparable ri (mem_cons_of_mem ri1 member))]
  refine ⟨Or.inr, fun cases => cases.resolve_left fun same => ?_⟩
  exact (nodup_cons.mp distinct).1 (same ▸ mem_map_of_mem member)

include eligible

/-- The inner loop ends with the first choice of the group of the path that it starts from. -/
theorem dmedGroup_chosen :
    scan (bgpInfoCmp bgp flags.selected) (group sameNeighbour (ri1 :: openPaths flags rest) ri1) =
      some (dmedGroup bgp ri1 rest ri1 flags).1 := by
  rw [dmedGroup_best bgp ri1 ri1 (nodup_cons.mp distinct).2 eligible, group, filter_cons,
    if_pos (sameNeighbour_grouping.refl ri1), openPaths, filter_filter]
  refine congrArg (foldl _ (some ri1)) (filter_congr fun ri member => ?_)
  rw [cmpLeft_eq distinct comparable member, Bool.and_comm]

/-- Behind the inner loop the paths of other groups are still to be placed. -/
theorem openPaths_group {best} (grouped : best ∈ group sameNeighbour (ri1 :: rest) ri1) :
    openPaths (((dmedGroup bgp ri1 rest ri1 flags).2.setCheck best.id).setDmedSelected best.id)
      rest = (openPaths flags rest).filter fun ri => !sameNeighbour ri1 ri := by
  obtain ⟨fresh, nodup⟩ := nodup_cons.mp distinct
  obtain ⟨inside, bestGrouped⟩ := mem_group.mp grouped
  rw [openPaths, openPaths, filter_filter]
  apply filter_congr
  intro ri member
  have isChecked : ((dmedGroup bgp ri1 rest ri1 flags).2 ri.id).dmedCheck =
      ((flags ri.id).dmedCheck || sameNeighbour ri1 ri) := by
    rw [Bool.eq_iff_iff, dmedGroup_check bgp ri1 ri1 eligible, Bool.or_eq_true,
      ← cmpLeft_eq distinct comparable member]
    refine or_congr_right ⟨?_, fun together => ⟨ri, member, rfl, together⟩⟩
    rintro ⟨other, otherIn, same, together⟩
    exact id_eq_of_nodup nodup otherIn member same ▸ together
  have bestCovered : ri.id = best.id → sameNeighbour ri1 ri = true := by
    intro same
    rcases mem_cons.mp inside with first | later
    · rw [first] at same
      exact absurd (same ▸ mem_map_of_mem member) fresh
    · exact id_eq_of_nodup nodup member later same ▸ bestGrouped
  simp only [setDmedSelected_dmedCheck, setCheck_dmedCheck, isChecked]
  grind

end Group

/-- The first pass marks the leader of every neighbour AS among the open paths. -/
theorem dmedPass_dmedSelected {info} (distinct : (info.map BgpInfo.id).Nodup)
    (eligible : ∀ ri ∈ info, (flags ri.id).holddown = false)
    (clear : ∀ ri ∈ info, (flags ri.id).dmedCheck = false → (flags ri.id).dmedSelected = false)
    (comparable : ∀ ri ∈ info, Comparable ri) (id : PathId) :
    (dmedPass bgp info flags id).dmedSelected = true ↔ (flags id).dmedSelected = true ∨
      ∃ ri ∈ openPaths flags info, ri.id = id ∧
        leads (bgpInfoCmp bgp flags.selected) sameNeighbour (openPaths flags info) ri = true := by
  induction info generalizing flags with
  | nil => simp [dmedPass, openPaths]
  | cons ri1 rest ih =>
    have laterComparable := fun ri member => comparable ri (mem_cons_of_mem ri1 member)
    have laterEligible := fun ri member => eligible ri (mem_cons_of_mem ri1 member)
    have laterClear := fun ri member => clear ri (mem_cons_of_mem ri1 member)
    have nodup : (rest.map BgpInfo.id).Nodup := (nodup_cons.mp distinct).2
    simp only [dmedPass, eligible ri1 (mem_cons_self ..), Bool.false_eq_true, ↓reduceIte]
    by_cases checked : (flags ri1.id).dmedCheck
    · have skipped : openPaths flags (ri1 :: rest) = openPaths flags rest := by
        simp [openPaths, checked]
      rw [if_pos checked, ih nodup laterEligible laterClear laterComparable, skipped]
    · rw [if_neg checked]
      have isOpen : (flags ri1.id).dmedCheck = false := by simpa using checked
      have whole : openPaths flags (ri1 :: rest) = ri1 :: openPaths flags rest := by
        simp [openPaths, isOpen]
      have chosen := dmedGroup_chosen bgp distinct laterEligible comparable
      have grouped := mem_group.mp (scan_mem chosen)
      have inside := mem_cons.mpr
        ((mem_cons.mp grouped.1).imp_right fun later => (mem_filter.mp later).1)
      have remaining := openPaths_group bgp distinct laterEligible comparable
        (mem_group.mpr ⟨inside, grouped.2⟩)
      have core : SameCore (dmedGroup bgp ri1 rest ri1 flags).2 flags :=
        dmedGroup_core bgp ri1 rest ri1 flags
      have checks := dmedGroup_check bgp ri1 ri1 laterEligible
      have marks := dmedGroup_dmedSelected bgp ri1 (clear ri1 (mem_cons_self ..) isOpen) laterClear
      generalize dmedGroup bgp ri1 rest ri1 flags = outcome at *
      obtain ⟨best, groupFlags⟩ := outcome
      have sameCore : SameCore ((groupFlags.setCheck best.id).setDmedSelected best.id) flags :=
        (setDmedSelected_core _ _).trans ((setCheck_core _ _).trans core)
      dsimp only at *
      rw [ih nodup, remaining, sameCore.selected, whole]
      · simp only [setDmedSelected_dmedSelected, setCheck_dmedSelected, marks,
          Bool.or_eq_true, decide_eq_true_eq]
        have leaders := fun ri => sameNeighbour_grouping.leads_cons (x := ri) chosen
        constructor
        · rintro ((rfl | before) | ⟨ri, member, rfl, isLeader⟩)
          · obtain ⟨member, isLeader⟩ := (leaders best).mpr (Or.inl rfl)
            exact Or.inr ⟨best, member, rfl, isLeader⟩
          · exact Or.inl before
          · obtain ⟨inside, leadsAll⟩ := (leaders ri).mpr (Or.inr ⟨member, isLeader⟩)
            exact Or.inr ⟨ri, inside, rfl, leadsAll⟩
        · rintro (before | ⟨ri, member, rfl, isLeader⟩)
          · exact Or.inl (Or.inr before)
          · rcases (leaders ri).mp ⟨member, isLeader⟩ with rfl | ⟨inside, leadsRest⟩
            · exact Or.inl (Or.inl rfl)
            · exact Or.inr ⟨ri, inside, rfl, leadsRest⟩
      · exact fun ri member => (holddown_eq (sameCore ri.id)).trans (laterEligible ri member)
      · intro ri member unchecked
        simp only [setDmedSelected_dmedCheck, setCheck_dmedCheck,
          Bool.or_eq_false_iff, decide_eq_false_iff_not] at unchecked
        have before : (flags ri.id).dmedCheck = false := by
          by_contra checkedBefore
          rw [(checks ri.id).mpr (Or.inl (by simpa using checkedBefore))] at unchecked
          cases unchecked.2
        simp [marks, unchecked.1, laterClear ri member before]
      · exact laterComparable

end FirstPass

namespace Candidates
variable {bgp : Bgp} {info : List BgpInfo} {flags : FlagMap}

theorem pairwise_of_mem {relation} (symmetric : ∀ {x y}, relation x y → relation y x)
    (pairs : info.Pairwise relation) {first second} (firstIn : first ∈ info)
    (secondIn : second ∈ info) (apart : first ≠ second) : relation first second := by
  have : Std.Symm relation := ⟨fun _ _ => symmetric⟩
  exact pairs.forall firstIn secondIn apart

variable (candidates : Candidates bgp info flags)
include candidates

theorem nodup : (info.map BgpInfo.id).Nodup := by
  rw [Nodup, pairwise_map]
  refine candidates.apart.imp fun apart same => apart.1 ?_
  rw [same]

theorem selected : SelectedOnce info flags := by
  intro first firstIn second secondIn firstSelected secondSelected
  by_contra apart
  exact pairwise_of_mem
    (fun neither both => neither ⟨both.2, both.1⟩) candidates.selectedOnce firstIn
    secondIn apart ⟨firstSelected, secondSelected⟩

/-- One of two paths is preferred. -/
theorem decided (comparable : ∀ ri ∈ info, Comparable ri) :
    Decided (bgpInfoCmp bgp flags.selected) info := by
  intro first firstIn second secondIn apart
  apply bgpInfoCmp_not (comparable second secondIn).1 (comparable first firstIn).1
  · exact (pairwise_of_mem
      (fun differ => ⟨differ.1.symm, differ.2.symm⟩) candidates.apart secondIn firstIn
      apart.symm).1
  · exact pairwise_of_mem
      (fun neither both => neither ⟨both.2, both.1⟩) candidates.selfOnce secondIn firstIn
      apart.symm
  · exact pairwise_of_mem
      (fun neither both => neither ⟨both.2, both.1⟩) candidates.selectedOnce secondIn
      firstIn apart.symm

theorem perm {other} (same : other.Perm info) : Candidates bgp other flags where
  eligible ri member := candidates.eligible ri (same.mem_iff.mp member)
  apart := (same.pairwise_iff fun differ => ⟨differ.1.symm, differ.2.symm⟩).mpr candidates.apart
  selfOnce :=
    (same.pairwise_iff fun neither both => neither ⟨both.2, both.1⟩).mpr candidates.selfOnce
  selectedOnce :=
    (same.pairwise_iff fun neither both => neither ⟨both.2, both.1⟩).mpr candidates.selectedOnce
  unmarked ri member := candidates.unmarked ri (same.mem_iff.mp member)

/-- With deterministic-med the selection is the contest in two rounds. -/
theorem newSelect_eq_twoRounds (comparable : ∀ ri ∈ info, Comparable ri)
    (deterministic : bgp.deterministicMed) : newSelect bgp info flags =
      twoRounds (bgpInfoCmp bgp flags.selected) sameNeighbour info := by
  have allOpen : openPaths flags info = info := by
    rw [openPaths, filter_eq_self]
    intro ri member
    simp [(candidates.unmarked ri member).1]
  rw [newSelect_eq candidates.nodup]
  congr 1
  apply filter_congr
  intro ri member
  have hold :=
    (holddown_eq (dmedFlags_core bgp info flags ri.id)).trans (candidates.eligible ri member)
  rw [considered, hold, deterministic]
  simp only [Bool.not_false, Bool.not_true, Bool.false_or, Bool.true_and]
  rw [Bool.eq_iff_iff, dmedFlags, if_pos deterministic, dmedPass_dmedSelected bgp candidates.nodup
    candidates.eligible (fun ri member _ => (candidates.unmarked ri member).2) comparable, allOpen,
    (candidates.unmarked ri member).2]
  constructor
  · rintro (marked | ⟨other, otherIn, same, isLeader⟩)
    · cases marked
    · exact id_eq_of_nodup candidates.nodup otherIn member same ▸ isLeader
  · exact fun isLeader => Or.inr ⟨ri, member, rfl, isLeader⟩

end Candidates

/-- In every order `bgp_process` reads the AS paths inside their data, and marks the same path
  SELECTED. -/
def OrderIndependent (bgp : Bgp) (info : List BgpInfo) (flags : FlagMap) : Prop :=
  ∀ arranged : List BgpInfo, arranged.Perm info → ReadsInside bgp arranged flags ∧ ∀ ri ∈ info,
    ((bgpProcess bgp arranged flags).1 ri.id).selected =
      ((bgpProcess bgp info flags).1 ri.id).selected

/-- Some path is preferred by `bgp_info_cmp` to all other paths of its neighbour AS
and, in every other neighbour AS, to a set of paths each of which is preferred to
all paths of that AS outside the set. -/
def Unrivalled (bgp : Bgp) (info : List BgpInfo) (flags : FlagMap) : Prop :=
  ∃ winner ∈ info, Contest.Undisputed (bgpInfoCmp bgp flags.selected) sameNeighbour info winner

/-- Every path has an AS path that can be compared, and one of them is unrivalled. -/
structure Conclusive (bgp : Bgp) (info : List BgpInfo) (flags : FlagMap) : Prop where
  readable : ∀ ri ∈ info, ri.attr.Readable
  unambiguous : ∀ ri ∈ info, ri.attr.Unambiguous
  unrivalled : Unrivalled bgp info flags

section Order
variable {bgp : Bgp} {info : List BgpInfo} {flags : FlagMap}

/-- A single path is compared with none. -/
theorem order_independent_short (short : info.length ≤ 1) : OrderIndependent bgp info flags := by
  rcases info with _ | ⟨ri, _ | ⟨ri2, rest⟩⟩
  · intro arranged same
    rw [same.eq_nil]
    exact ⟨by simp [ReadsInside, dmedPassReads, selectReads], fun _ _ => rfl⟩
  · intro arranged same
    rw [perm_singleton.mp same]
    exact ⟨by simp [ReadsInside, dmedPassReads, dmedGroupReads, selectReads], fun _ _ => rfl⟩
  · exact absurd short (by simp)

variable (candidates : Candidates bgp info flags) (deterministic : bgp.deterministicMed = true)
include candidates deterministic

theorem same_selection_iff (comparable : ∀ ri ∈ info, Comparable ri) :
    (∀ arranged : List BgpInfo, arranged.Perm info → ∀ ri ∈ info,
      ((bgpProcess bgp arranged flags).1 ri.id).selected =
        ((bgpProcess bgp info flags).1 ri.id).selected) ↔
    info = [] ∨ Unrivalled bgp info flags := by
  have distinct : info.Nodup := Nodup.of_map _ candidates.nodup
  rw [Unrivalled, ← sameNeighbour_grouping.order_independent_iff
    (candidates.decided comparable) distinct]
  have marks : ∀ arranged, arranged.Perm info → ∀ ri ∈ info,
      ((bgpProcess bgp arranged flags).1 ri.id).selected = decide (twoRounds
        (bgpInfoCmp bgp flags.selected) sameNeighbour arranged = some ri) := by
    intro arranged same ri member
    have rearranged := candidates.perm same
    rw [bgpProcess_selected rearranged.nodup rearranged.selected (same.mem_iff.mpr member),
      rearranged.newSelect_eq_twoRounds
        (fun other here => comparable other (same.mem_iff.mp here)) deterministic]
  have chosenIn : ∀ arranged, arranged.Perm info → ∀ ri, twoRounds
      (bgpInfoCmp bgp flags.selected) sameNeighbour arranged = some ri → ri ∈ info :=
        fun _ same _ chosen =>
    same.mem_iff.mp (twoRounds_leads chosen).1
  constructor
  · intro always arranged same
    have agree : ∀ ri ∈ info, (twoRounds (bgpInfoCmp bgp flags.selected) sameNeighbour arranged =
        some ri ↔ twoRounds (bgpInfoCmp bgp flags.selected) sameNeighbour info = some ri) := by
      intro ri member
      have equal := always arranged same ri member
      rwa [marks arranged same ri member, marks info (Perm.refl info) ri member,
        decide_eq_decide] at equal
    ext ri
    constructor
    · exact fun chosen => (agree ri (chosenIn arranged same ri chosen)).mp chosen
    · exact fun chosen => (agree ri (chosenIn info (Perm.refl info) ri chosen)).mpr chosen
  · intro always arranged same ri member
    rw [marks arranged same ri member, marks info (Perm.refl info) ri member, always arranged same]

/-- In some order every path is the first one of a comparison. -/
theorem readable_of_inside (several : 1 < info.length)
    (inside : ∀ arranged : List BgpInfo, arranged.Perm info → ReadsInside bgp arranged flags) :
    ∀ ri ∈ info, ri.attr.Readable := by
  intro ri member
  have front := perm_cons_erase member
  cases others : info.erase ri with
  | nil =>
    rw [others] at front
    have one := front.length_eq
    simp only [length_cons, length_nil] at one
    omega
  | cons ri2 rest =>
    rw [others] at front
    have clear : ∀ path ∈ info, (flags path.id).dmedCheck = false ∧
        (flags path.id).holddown = false :=
      fun path here => ⟨(candidates.unmarked path here).1, candidates.eligible path here⟩
    refine (inside _ front.symm).first deterministic (clear ri member) (clear ri2 ?_)
    exact front.mem_iff.mpr (mem_cons_of_mem ri mem_cons_self)

end Order

/-- With deterministic-med the selection does not depend on the order of the paths if one
of them is unrivalled, and only then, as long as no AS path has two ASes to compare. -/
theorem bgpProcess_order_independent (bgp : Bgp) (info : List BgpInfo) (flags : FlagMap)
    (deterministic : bgp.deterministicMed = true) (candidates : Candidates bgp info flags) :
    (info.length ≤ 1 ∨ Conclusive bgp info flags → OrderIndependent bgp info flags) ∧
    ((∀ ri ∈ info, ri.attr.Unambiguous) → OrderIndependent bgp info flags →
      info.length ≤ 1 ∨ Conclusive bgp info flags) := by
  constructor
  · rintro (short | settled)
    · exact order_independent_short short
    · have always := (same_selection_iff candidates deterministic fun ri member =>
        ⟨settled.readable ri member, settled.unambiguous ri member⟩).mpr (.inr settled.unrivalled)
      intro arranged same
      exact ⟨reads_inside fun ri member => settled.readable ri (same.mem_iff.mp member),
        always arranged same⟩
  · intro unambiguous independent
    rcases Nat.lt_or_ge 1 info.length with several | short
    · right
      have readable := readable_of_inside candidates deterministic several fun arranged same =>
        (independent arranged same).1
      have chosen := (same_selection_iff candidates deterministic fun ri member =>
        ⟨readable ri member, unambiguous ri member⟩).mp fun arranged same =>
          (independent arranged same).2
      refine ⟨readable, unambiguous, chosen.resolve_left ?_⟩
      rintro rfl
      cases several
    · exact .inl short

/-! A node on which no path is unrivalled. -/
namespace Rivals

def peerOf (id : PeerId) : Peer where
  as := 65000
  localAs := 65000
  remoteId := BitVec.ofNat 32 (id + 1)
  suRemote := .inet (BitVec.ofNat 32 (id + 1))

def bgp : Bgp where
  as := 65000
  deterministicMed := true
  aspathIgnore := true
  peer := peerOf
  peerSelf := 9

def path (peer : PeerId) (aspath : List Octet) (med igpmetric : BitVec 32) : BgpInfo where
  id := ⟨peer, 9, .normal⟩
  attr := { ({ aspath := some ⟨aspath⟩, med := med } : Attr).mark .multiExitDisc with weight := 0 }
  igpmetric := igpmetric

def near : BgpInfo := path 0 [] 10 5
def cheap : BgpInfo := path 1 [] 0 10
def remote : BgpInfo := path 2 [2, 1, 0, 100] 0 7

def flags : FlagMap := fun _ => { valid := true }

theorem candidates : Candidates bgp [near, cheap, remote] flags where
  eligible := by decide
  apart := by decide
  selfOnce := by decide
  selectedOnce := by decide
  unmarked := by decide

end Rivals

/-- The order decides: in this order the third path wins, with the first one moved
to the end the first. -/
theorem bgpProcess_order_dependent :
    Rivals.bgp.deterministicMed = true ∧ Rivals.bgp.alwaysCompareMed = false ∧
    Candidates Rivals.bgp [Rivals.near, Rivals.cheap, Rivals.remote] Rivals.flags ∧
    ¬ OrderIndependent Rivals.bgp [Rivals.near, Rivals.cheap, Rivals.remote] Rivals.flags := by
  refine ⟨rfl, rfl, Rivals.candidates, fun always => ?_⟩
  have moved :=
    (always [Rivals.cheap, Rivals.remote, Rivals.near] (by decide)).2 Rivals.near (by decide)
  revert moved
  decide

namespace Neighbours

/-- Two paths of AS 100, of which the MED decides, and one of AS 200 behind a confederation. -/
def first : BgpInfo := Rivals.path 0 [2, 1, 0, 100] 10 5
def second : BgpInfo := Rivals.path 1 [2, 1, 0, 100] 0 10
def third : BgpInfo := Rivals.path 2 [3, 1, 0xfd, 0xe9, 2, 1, 0, 200] 20 7

end Neighbours

theorem bgpProcess_order_independent_three :
    OrderIndependent Rivals.bgp [Neighbours.first, Neighbours.second, Neighbours.third]
      Rivals.flags := by
  have candidates :
      Candidates Rivals.bgp [Neighbours.first, Neighbours.second, Neighbours.third] Rivals.flags :=
    ⟨by decide, by decide, by decide, by decide, by decide⟩
  have all : ∀ {holds : BgpInfo → Prop}, holds Neighbours.first → holds Neighbours.second →
      holds Neighbours.third →
      ∀ ri ∈ [Neighbours.first, Neighbours.second, Neighbours.third], holds ri := by
        simp +contextual
  refine (bgpProcess_order_independent Rivals.bgp _ Rivals.flags rfl candidates).1
    (.inr ⟨?_, ?_, ?_⟩)
  · exact all ⟨_, rfl, by decide⟩ ⟨_, rfl, by decide⟩ ⟨_, rfl, by decide⟩
  · refine all ?_ ?_ ?_
    all_goals
      rintro _ ⟨⟩
      exact Aspath.Wellformed.unambiguous (by decide)
  · refine ⟨Neighbours.third, by decide, by decide, all ?_ ?_ fun own => ?_⟩
    · exact fun _ => ⟨fun path => path = Neighbours.second,
        ⟨⟨Neighbours.second, by decide, rfl⟩, by decide⟩, by decide⟩
    · exact fun _ => ⟨fun path => path = Neighbours.second,
        ⟨⟨Neighbours.second, by decide, rfl⟩, by decide⟩, by decide⟩
    · exact absurd own (by decide)

end Zebra.Bgpd
