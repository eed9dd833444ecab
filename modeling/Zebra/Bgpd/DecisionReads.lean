import Zebra.Bgpd.DecisionSpec

/-! What `bgp_process` reads of the AS paths on a node. -/
namespace Zebra.Bgpd
open Base Option

namespace Aspath
variable (aspath : Aspath)

/-- Behind its leading confederation segments the path goes on, with a whole AS if a sequence
  follows. -/
def Readable : Prop :=
  (aspath.leading.bind (leadingAs asSequence)).isSome = true

instance : Decidable aspath.Readable :=
  inferInstanceAs (Decidable (_ = _))

/-- The AS number that `aspath_cmp_left` takes from the path. -/
def leftAs : Option As :=
  (aspath.leading.bind (leadingAs asSequence)).join

/-- The AS number that `aspath_cmp_left_confed` takes from the path. -/
def leftConfed : Option As :=
  if aspath.count ≠ 0 then none else (leadingAs asConfedSequence aspath.data).join

variable {aspath} {aspath1 aspath2 : Aspath}

theorem Readable.leading_eq (readable : aspath.Readable) :
    ∃ segment, aspath.leading = some segment ∧
      leadingAs asSequence segment = some aspath.leftAs := by
  obtain ⟨found, read⟩ := isSome_iff_exists.mp readable
  obtain ⟨segment, here, first⟩ := bind_eq_some_iff.mp read
  refine ⟨segment, here, ?_⟩
  rw [leftAs, here, bind_some, first]
  rfl

/-- The first segment is whole if it is skipped. -/
theorem Readable.confed_eq (readable : aspath.Readable) (none : aspath.count = 0) :
    leadingAs asConfedSequence aspath.data = some aspath.leftConfed := by
  have inside : ∃ found, leadingAs asConfedSequence aspath.data = some found := by
    obtain ⟨segment, here, -⟩ := readable.leading_eq
    rw [leading] at here
    rcases whole : aspath.data with _ | ⟨type, _ | ⟨length, rest⟩⟩
    · exact ⟨_, rfl⟩
    · rw [whole] at here
      cases here
    · by_cases other : length = 0 ∨ type ≠ asConfedSequence
      · exact ⟨_, if_pos other⟩
      · obtain ⟨filled, confed⟩ : ¬ length = 0 ∧ type = asConfedSequence := by simpa using other
        rw [whole, if_neg (List.cons_ne_nil type _), List.length_cons, skipLeading,
          if_pos ⟨filled, by simp [isConfed, confed]⟩] at here
        have positive : 0 < length.toNat :=
          Nat.pos_of_ne_zero fun zero => filled (BitVec.eq_of_toNat_eq zero)
        rcases rest with _ | ⟨high, _ | ⟨low, rest⟩⟩
        · simp [skipLeading] at here
        · rw [List.drop_eq_nil_of_le (by simp only [List.length_singleton]; omega)] at here
          cases here
        · exact ⟨_, if_neg other⟩
  obtain ⟨found, read⟩ := inside
  rw [leftConfed, if_neg (not_not.mpr none), read]
  rfl

theorem readCmpLeft_eq (first : aspath1.Readable) (second : aspath2.Readable) :
    readCmpLeft aspath1 aspath2 = some (sameLeft aspath1.leftAs aspath2.leftAs) := by
  obtain ⟨segment1, found1, read1⟩ := first.leading_eq
  obtain ⟨segment2, found2, read2⟩ := second.leading_eq
  rw [readCmpLeft, found1, found2]
  exact sameFirst_eq read1 read2

theorem readCmpLeftConfed_eq (first : aspath1.Readable) (second : aspath2.Readable) :
    readCmpLeftConfed aspath1 aspath2 = some (sameLeft aspath1.leftConfed aspath2.leftConfed) := by
  unfold readCmpLeftConfed
  split
  · rename_i counted
    have nothing : sameLeft aspath1.leftConfed aspath2.leftConfed = false := by
      rw [Bool.eq_false_iff, Ne, sameLeft_iff]
      rintro ⟨asno, left, right⟩
      rcases counted with counted | counted
      · rw [leftConfed, if_pos counted] at left
        cases left
      · rw [leftConfed, if_pos counted] at right
        cases right
    rw [nothing]
  · rename_i zeros
    simp only [not_or, not_not] at zeros
    exact sameFirst_eq (first.confed_eq zeros.1) (second.confed_eq zeros.2)

/-- An AS behind leading confederation segments is counted. -/
theorem countLoop_pos {fuel data start count depth type length rest}
    (counted : countLoop fuel data start = some count)
    (found : skipLeading depth data = some (type :: length :: rest)) (nonempty : length ≠ 0)
    (sequence : type = asSequence) : start < count := by
  induction depth generalizing fuel data start with
  | zero => simp [skipLeading] at found
  | succ depth ih =>
    rcases data with _ | ⟨first, _ | ⟨number, tail⟩⟩
    · simp [skipLeading] at found
    · simp [skipLeading] at found
    · cases fuel with
      | zero => simp [countLoop] at counted
      | succ fuel =>
        simp only [countLoop, segmentAt] at counted
        simp only [skipLeading] at found
        split at counted
        · cases counted
        · rename_i segment after here
          split at here
          · cases here
          · cases here
            split at counted
            · split at found
              · exact lt_of_le_of_lt (Nat.le_add_right ..) (ih counted found)
              · cases found
                have positive : 0 < length.toNat :=
                  Nat.pos_of_ne_zero fun zero => nonempty (BitVec.eq_of_toNat_eq zero)
                refine lt_of_lt_of_le (Nat.lt_add_of_pos_right ?_) (countLoop_le counted)
                rw [Segment.hops, if_pos sequence]
                exact positive
            · cases counted

/-- An AS to compare, or a confederation AS to compare, but not both. -/
def Unambiguous (aspath : Aspath) : Prop :=
  ∀ asno, aspath.leftAs = some asno → aspath.leftConfed = none

theorem Wellformed.unambiguous (wellformed : aspath.Wellformed) : aspath.Unambiguous := by
  intro asno left
  obtain ⟨count, counted⟩ := isSome_iff_exists.mp wellformed
  obtain ⟨segment, found, first⟩ := bind_eq_some_iff.mp (join_eq_some_iff.mp left)
  have positive : 0 < count := by
    rcases segment with _ | ⟨type, _ | ⟨length, rest⟩⟩
    · cases first
    · cases first
    · simp only [leadingAs] at first
      split at first
      · cases first
      · rename_i sequence
        simp only [ne_eq, not_or, not_not] at sequence
        rw [leading] at found
        split at found
        · cases found
        · exact countLoop_pos counted found sequence.1 sequence.2
  have nonzero : aspath.count ≠ 0 := by
    rw [Aspath.count, counted, getD_some]
    exact ne_of_gt positive
  rw [leftConfed, if_pos nonzero]

end Aspath

/-- An AS path is there, and whole as far as it is compared. -/
def Attr.Readable (attr : Attr) : Prop :=
  ∃ aspath, attr.aspath = some aspath ∧ aspath.Readable

/-- At most one AS to compare. -/
def Attr.Unambiguous (attr : Attr) : Prop :=
  ∀ aspath, attr.aspath = some aspath → aspath.Unambiguous

section
variable {attr1 attr2 : Attr}

theorem readLeft_eq {aspath1 aspath2} (first : attr1.aspath = some aspath1)
    (second : attr2.aspath = some aspath2)
    (readable1 : aspath1.Readable) (readable2 : aspath2.Readable) : readLeft attr1 attr2 =
      some (sameLeft aspath1.leftAs aspath2.leftAs ||
        sameLeft aspath1.leftConfed aspath2.leftConfed) := by
  rw [readLeft, first, second, bind_eq_bind, bind_some, bind_eq_bind, bind_some,
    Aspath.readCmpLeft_eq readable1 readable2, Aspath.readCmpLeftConfed_eq readable1 readable2]
  cases sameLeft aspath1.leftAs aspath2.leftAs <;> rfl

theorem readLeft_isSome (first : attr1.Readable) (second : attr2.Readable) :
    (readLeft attr1 attr2).isSome = true := by
  obtain ⟨aspath1, has1, readable1⟩ := first
  obtain ⟨aspath2, has2, readable2⟩ := second
  rw [readLeft_eq has1 has2 readable1 readable2]
  rfl

/-- A comparison that stays inside reads all that is read of its first path. -/
theorem readable_of_readLeft (inside : (readLeft attr1 attr2).isSome = true) : attr1.Readable := by
  obtain ⟨result, read⟩ := isSome_iff_exists.mp inside
  obtain ⟨aspath1, has1, read⟩ := bind_eq_some_iff.mp read
  obtain ⟨aspath2, has2, read⟩ := bind_eq_some_iff.mp read
  obtain ⟨same, compared, -⟩ := bind_eq_some_iff.mp read
  obtain ⟨segment1, found1, compared⟩ := bind_eq_some_iff.mp compared
  obtain ⟨segment2, found2, compared⟩ := bind_eq_some_iff.mp compared
  obtain ⟨as1, first, -⟩ := bind_eq_some_iff.mp compared
  refine ⟨aspath1, has1, isSome_iff_exists.mpr ⟨as1, ?_⟩⟩
  rw [found1]
  exact first

end

/-- The paths whose AS paths the inner loop of the deterministic-med pass compares; `bgp_info_cmp`
looks at them unless something else decides before. -/
def dmedGroupReads (bgp : Bgp) (ri1 : BgpInfo) :
    List BgpInfo → BgpInfo → FlagMap → List (BgpInfo × BgpInfo)
  | [], _, _ => []
  | ri2 :: rest, newSelect, flags =>
    if (flags ri2.id).dmedCheck then dmedGroupReads bgp ri1 rest newSelect flags
    else if (flags ri2.id).holddown then dmedGroupReads bgp ri1 rest newSelect flags
    else if cmpLeft ri1.attr ri2.attr then
      (ri1, ri2) :: (ri2, newSelect) ::
        if bgpInfoCmp bgp flags.selected ri2 newSelect then
          dmedGroupReads bgp ri1 rest ri2 ((flags.unsetDmedSelected newSelect.id).setCheck ri2.id)
        else dmedGroupReads bgp ri1 rest newSelect (flags.setCheck ri2.id)
    else (ri1, ri2) :: dmedGroupReads bgp ri1 rest newSelect flags

def dmedPassReads (bgp : Bgp) : List BgpInfo → FlagMap → List (BgpInfo × BgpInfo)
  | [], _ => []
  | ri1 :: rest, flags =>
    if (flags ri1.id).dmedCheck then dmedPassReads bgp rest flags
    else if (flags ri1.id).holddown then dmedPassReads bgp rest flags
    else
      let (newSelect, after) := dmedGroup bgp ri1 rest ri1 flags
      dmedGroupReads bgp ri1 rest ri1 flags ++
        dmedPassReads bgp rest ((after.setCheck newSelect.id).setDmedSelected newSelect.id)

/-- The comparisons of the selection loop. -/
def selectReads (bgp : Bgp) : List BgpInfo → Selection → List (BgpInfo × BgpInfo)
  | [], _ => []
  | ri :: rest, state =>
    (if considered bgp state.flags ri then (state.newSelect.map (ri, ·)).toList else []) ++
      selectReads bgp rest (selectStep bgp state ri)

/-- Every AS path that `bgp_process` compares is there, and is read inside its data. -/
def ReadsInside (bgp : Bgp) (info : List BgpInfo) (flags : FlagMap) : Prop :=
  ∀ pair ∈ (if bgp.deterministicMed then dmedPassReads bgp info flags else []) ++
      selectReads bgp info { flags := dmedFlags bgp info flags },
    (readLeft pair.1.attr pair.2.attr).isSome = true

section Reads
variable {bgp : Bgp} (holds : BgpInfo → Prop) {rest info : List BgpInfo} {flags : FlagMap}

theorem dmedGroupReads_all {ri1 newSelect} (first : holds ri1) (current : holds newSelect)
    (all : ∀ ri ∈ rest, holds ri) :
    ∀ pair ∈ dmedGroupReads bgp ri1 rest newSelect flags, holds pair.1 ∧ holds pair.2 := by
  induction rest generalizing newSelect flags with
  | nil =>
    intro _ member
    cases member
  | cons ri2 rest ih =>
    have here := all ri2 (List.mem_cons_self ..)
    have later : ∀ ri ∈ rest, holds ri := fun ri member => all ri (List.mem_cons_of_mem _ member)
    simp only [dmedGroupReads]
    split
    · exact ih current later
    · split
      · exact ih current later
      · split
        · refine List.forall_mem_cons.mpr
            ⟨⟨first, here⟩, List.forall_mem_cons.mpr ⟨⟨here, current⟩, ?_⟩⟩
          split
          · exact ih here later
          · exact ih current later
        · exact List.forall_mem_cons.mpr ⟨⟨first, here⟩, ih current later⟩

theorem dmedPassReads_all (all : ∀ ri ∈ info, holds ri) :
    ∀ pair ∈ dmedPassReads bgp info flags, holds pair.1 ∧ holds pair.2 := by
  induction info generalizing flags with
  | nil =>
    intro _ member
    cases member
  | cons ri1 rest ih =>
    have here := all ri1 (List.mem_cons_self ..)
    have later : ∀ ri ∈ rest, holds ri := fun ri member => all ri (List.mem_cons_of_mem _ member)
    simp only [dmedPassReads]
    split
    · exact ih later
    · split
      · exact ih later
      · intro pair member
        rcases List.mem_append.mp member with inner | outer
        · exact dmedGroupReads_all holds here here later pair inner
        · exact ih later pair outer

theorem selectReads_all {state} (all : ∀ ri ∈ info, holds ri)
    (current : ∀ ri ∈ state.newSelect, holds ri) :
    ∀ pair ∈ selectReads bgp info state, holds pair.1 ∧ holds pair.2 := by
  induction info generalizing state with
  | nil =>
    intro _ member
    cases member
  | cons ri rest ih =>
    have here := all ri (List.mem_cons_self ..)
    have next : ∀ chosen ∈ (selectStep bgp state ri).newSelect, holds chosen := by
      intro chosen member
      rw [selectStep_newSelect] at member
      split at member
      · cases before : state.newSelect with
        | none =>
          rw [before] at member
          cases member
          exact here
        | some old =>
          rw [before] at member
          simp only [Contest.pick] at member
          split at member
          · cases member
            exact here
          · cases member
            exact current _ before
      · exact current chosen member
    intro pair member
    rcases List.mem_append.mp member with compared | later
    · split at compared
      · obtain ⟨chosen, before, rfl⟩ := Option.map_eq_some_iff.mp (mem_toList.mp compared)
        exact ⟨here, current chosen before⟩
      · cases compared
    · exact ih (fun ri member => all ri (List.mem_cons_of_mem _ member)) next pair later

theorem reads_inside (readable : ∀ ri ∈ info, ri.attr.Readable) : ReadsInside bgp info flags := by
  intro pair member
  have both : pair.1.attr.Readable ∧ pair.2.attr.Readable := by
    rcases List.mem_append.mp member with first | second
    · split at first
      · exact dmedPassReads_all (fun ri => ri.attr.Readable) readable pair first
      · cases first
    · refine selectReads_all (fun ri => ri.attr.Readable) readable (fun _ none => ?_) pair second
      cases none
  exact readLeft_isSome both.1 both.2

/-- The first path is compared with the second one. -/
theorem ReadsInside.first {ri1 ri2} (inside : ReadsInside bgp (ri1 :: ri2 :: rest) flags)
    (deterministic : bgp.deterministicMed = true)
    (first : (flags ri1.id).dmedCheck = false ∧ (flags ri1.id).holddown = false)
    (second : (flags ri2.id).dmedCheck = false ∧ (flags ri2.id).holddown = false) :
    ri1.attr.Readable := by
  refine readable_of_readLeft (inside (ri1, ri2) (List.mem_append_left _ ?_))
  rw [if_pos deterministic]
  simp only [dmedPassReads, first.1, first.2, Bool.false_eq_true, ↓reduceIte]
  refine List.mem_append_left _ ?_
  simp only [dmedGroupReads, second.1, second.2, Bool.false_eq_true, ↓reduceIte]
  split
  · exact List.mem_cons_self ..
  · exact List.mem_cons_self ..

end Reads
end Zebra.Bgpd
