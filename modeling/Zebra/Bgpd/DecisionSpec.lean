import Zebra.Base.Contest
import Zebra.Bgpd.Decision

namespace Zebra.Bgpd
open Base Flags FlagMap List Contest

/-- The flags other than the two marks of the deterministic-med pass. -/
def Flags.core (flags : Flags) : Flags :=
  { flags with dmedCheck := false, dmedSelected := false }

theorem Flags.selected_eq {flags other : Flags} (same : flags.core = other.core) :
    flags.selected = other.selected :=
  show flags.core.selected = other.core.selected by rw [same]

theorem Flags.holddown_eq {flags other : Flags} (same : flags.core = other.core) :
    flags.holddown = other.holddown :=
  show flags.core.holddown = other.core.holddown by rw [same]

namespace FlagMap
section
variable (flags : FlagMap)

@[simp] theorem modify_same (id : PathId) (change : Flags → Flags) :
    flags.modify id change id = change (flags id) :=
  if_pos rfl

theorem modify_other {id other} (change : Flags → Flags) (apart : other ≠ id) :
    flags.modify id change other = flags other :=
  if_neg apart

theorem modify_core (id other : PathId) {change} (keeps : ∀ f, (change f).core = f.core)
    : (flags.modify id change other).core = (flags other).core := by
  unfold modify
  split
  · exact keeps _
  · rfl

/-- Equal but for the marks of the deterministic-med pass. -/
def SameCore (flags other : FlagMap) : Prop :=
  ∀ id, (flags id).core = (other id).core

theorem SameCore.refl : SameCore flags flags := fun _ => rfl

theorem SameCore.trans {flags middle other} (first : SameCore flags middle)
    (second : SameCore middle other) : SameCore flags other :=
  fun id => (first id).trans (second id)

theorem setCheck_core (id : PathId) : SameCore (flags.setCheck id) flags :=
  fun other => modify_core flags id other fun _ => rfl

theorem unsetDmedSelected_core (id : PathId) : SameCore (flags.unsetDmedSelected id) flags :=
  fun other => modify_core flags id other fun _ => rfl

theorem setDmedSelected_core (id : PathId) : SameCore (flags.setDmedSelected id) flags :=
  fun other => modify_core flags id other fun _ => rfl

variable (id other : PathId)

@[simp] theorem setCheck_dmedCheck :
    (flags.setCheck id other).dmedCheck = (decide (other = id) || (flags other).dmedCheck) := by
  unfold setCheck modify
  split <;> simp [*]

@[simp] theorem setCheck_dmedSelected :
    (flags.setCheck id other).dmedSelected = (flags other).dmedSelected := by
  unfold setCheck modify
  split <;> rfl

@[simp] theorem unsetDmedSelected_dmedCheck :
    (flags.unsetDmedSelected id other).dmedCheck = (flags other).dmedCheck := by
  unfold unsetDmedSelected modify
  split <;> rfl

@[simp] theorem unsetDmedSelected_dmedSelected : (flags.unsetDmedSelected id other).dmedSelected =
      (!decide (other = id) && (flags other).dmedSelected) := by
  unfold unsetDmedSelected modify
  split <;> simp [*]

@[simp] theorem setDmedSelected_dmedCheck :
    (flags.setDmedSelected id other).dmedCheck = (flags other).dmedCheck := by
  unfold setDmedSelected modify
  split <;> rfl

@[simp] theorem setDmedSelected_dmedSelected :
    (flags.setDmedSelected id other).dmedSelected =
      (decide (other = id) || (flags other).dmedSelected) := by
  unfold setDmedSelected modify
  split <;> simp [*]

end

theorem SameCore.selected {flags other : FlagMap} (same : SameCore flags other) :
    flags.selected = other.selected :=
  funext fun id => selected_eq (same id)

end FlagMap

theorem dmedGroup_core (bgp : Bgp) (ri1 : BgpInfo) (rest : List BgpInfo) (newSelect : BgpInfo)
    (flags : FlagMap) : SameCore (dmedGroup bgp ri1 rest newSelect flags).2 flags := by
  induction rest generalizing newSelect flags with
  | nil => exact SameCore.refl flags
  | cons ri2 rest ih =>
    simp only [dmedGroup]
    split
    · exact ih _ _
    · split
      · exact ih _ _
      · split
        · split
          · exact (ih _ _).trans
              ((setCheck_core _ _).trans (unsetDmedSelected_core _ _))
          · exact (ih _ _).trans (setCheck_core _ _)
        · exact ih _ _

theorem dmedPass_core (bgp : Bgp) (info : List BgpInfo) (flags : FlagMap) :
    SameCore (dmedPass bgp info flags) flags := by
  induction info generalizing flags with
  | nil => exact SameCore.refl flags
  | cons ri1 rest ih =>
    simp only [dmedPass]
    split
    · exact ih _
    · split
      · exact ih _
      · exact (ih _).trans ((setDmedSelected_core _ _).trans
          ((setCheck_core _ _).trans (dmedGroup_core bgp ri1 rest ri1 flags)))

/-- A path that the selection loop compares. -/
def considered (bgp : Bgp) (flags : FlagMap) (ri : BgpInfo) : Bool :=
  !(flags ri.id).holddown && (!bgp.deterministicMed || (flags ri.id).dmedSelected)

/-- The last path that had the SELECTED flag. -/
def lastSelected (flags : FlagMap) (info : List BgpInfo) (start : Option BgpInfo) :
    Option BgpInfo :=
  info.foldl (fun old ri => if (flags ri.id).selected then some ri else old) start

variable {flags : FlagMap} {info : List BgpInfo}

theorem lastSelected_congr {other}
    (same : ∀ ri ∈ info, (flags ri.id).selected = (other ri.id).selected)
    (start : Option BgpInfo) : lastSelected flags info start = lastSelected other info start := by
  induction info generalizing start with
  | nil => rfl
  | cons ri rest ih =>
    simp only [lastSelected, foldl_cons, same ri (mem_cons_self ..)]
    exact ih (fun x member => same x (mem_cons_of_mem ri member)) _

section
variable (bgp : Bgp) (state : Selection) (ri : BgpInfo)

theorem selectStep_core : SameCore (selectStep bgp state ri).flags state.flags := by
  unfold selectStep
  dsimp only
  split
  · exact SameCore.refl _
  · split
    · exact fun id => modify_core _ _ id fun _ => rfl
    · exact fun id => modify_core _ _ id fun _ => rfl

theorem selectStep_other {id} (apart : id ≠ ri.id) :
    (selectStep bgp state ri).flags id = state.flags id := by
  unfold selectStep
  dsimp only
  split
  · rfl
  · split
    · simp only [modify_other _ _ apart]
    · simp only [modify_other _ _ apart]

theorem selectStep_oldSelect : (selectStep bgp state ri).oldSelect =
      if (state.flags ri.id).selected then some ri else state.oldSelect := by
  unfold selectStep
  dsimp only
  split
  · rfl
  · split
    · rfl
    · rfl

theorem selectStep_newSelect : (selectStep bgp state ri).newSelect =
      if considered bgp state.flags ri then
        pick (bgpInfoCmp bgp state.flags.selected) state.newSelect ri
      else state.newSelect := by
  have unmarked : selected (state.flags.modify ri.id fun f =>
      { f with dmedCheck := false, dmedSelected := false }) = state.flags.selected :=
    SameCore.selected fun id => modify_core _ _ id fun _ => rfl
  simp only [selectStep, considered, unmarked]
  by_cases held : (state.flags ri.id).holddown
  · simp [held]
  · by_cases skipped : bgp.deterministicMed && !(state.flags ri.id).dmedSelected
    · have out : (!bgp.deterministicMed || (state.flags ri.id).dmedSelected) = false := by
        simpa using skipped
      simp [held, skipped, out]
    · have kept : (!bgp.deterministicMed || (state.flags ri.id).dmedSelected) = true := by
        by_contra out
        exact skipped (by simpa using out)
      simp only [held, skipped, kept, Bool.false_eq_true, ↓reduceIte, Bool.not_false, Bool.and_self]
      cases state.newSelect with
      | none => rfl
      | some current => rfl

end

section Passes
variable {bgp : Bgp} {info : List BgpInfo} {state : Selection}

theorem selectLoop_core (bgp : Bgp) (info : List BgpInfo) (state : Selection) :
    SameCore (info.foldl (selectStep bgp) state).flags state.flags := by
  induction info generalizing state with
  | nil => exact SameCore.refl _
  | cons ri rest ih => exact (ih _).trans (selectStep_core bgp state ri)

/-- All paths of an identity are in hold-down. -/
def Skips (flags : FlagMap) (info : List BgpInfo) (id : PathId) : Prop :=
  ∀ ri ∈ info, ri.id = id → (flags id).holddown = true

theorem Skips.of_absent {flags : FlagMap} {info id} (absent : id ∉ info.map BgpInfo.id) :
    Skips flags info id :=
  fun _ member same => absurd (same ▸ mem_map_of_mem member) absent

section
variable {flags other : FlagMap} {ri : BgpInfo} {rest : List BgpInfo} {id : PathId}

theorem Skips.tail (skips : Skips flags (ri :: rest) id) (same : other id = flags id) :
    Skips other rest id :=
  fun path member here => same ▸ skips path (mem_cons_of_mem ri member) here

theorem Skips.ne (skips : Skips flags (ri :: rest) id)
    (eligible : ¬ (flags ri.id).holddown = true) : id ≠ ri.id :=
  fun same => eligible (same ▸ skips ri mem_cons_self same.symm)

end

theorem selectStep_skips (bgp : Bgp) (state : Selection) (ri : BgpInfo) {id}
    (skips : ri.id = id → (state.flags id).holddown = true) :
    (selectStep bgp state ri).flags id = state.flags id := by
  by_cases here : ri.id = id
  · have held := skips here
    subst here
    simp only [selectStep, held, ↓reduceIte]
  · exact selectStep_other bgp state ri (Ne.symm here)

theorem selectLoop_skips (bgp : Bgp) (info : List BgpInfo) (state : Selection) {id}
    (skips : Skips state.flags info id) :
    (info.foldl (selectStep bgp) state).flags id = state.flags id := by
  induction info generalizing state with
  | nil => rfl
  | cons ri rest ih =>
    have first := selectStep_skips bgp state ri (skips ri mem_cons_self)
    rw [foldl_cons, ih _ (skips.tail first), first]

theorem considered_congr {flags other ri} (same : flags ri.id = other ri.id) :
    considered bgp flags ri = considered bgp other ri := by
  simp only [considered, same]

variable (distinct : (info.map BgpInfo.id).Nodup)
include distinct

theorem selectLoop_newSelect : (info.foldl (selectStep bgp) state).newSelect =
      (info.filter (considered bgp state.flags)).foldl
        (pick (bgpInfoCmp bgp state.flags.selected)) state.newSelect := by
  induction info generalizing state with
  | nil => rfl
  | cons ri rest ih =>
    simp only [map_cons, nodup_cons] at distinct
    have sameSelected := (selectStep_core bgp state ri).selected
    have later : rest.filter (considered bgp (selectStep bgp state ri).flags) =
        rest.filter (considered bgp state.flags) := by
      apply filter_congr
      intro other member
      apply considered_congr (selectStep_other bgp state ri _)
      exact fun same => distinct.1 (same ▸ mem_map_of_mem member)
    rw [foldl_cons, ih distinct.2, sameSelected, later, selectStep_newSelect, filter_cons]
    split
    · rfl
    · rfl

theorem selectLoop_oldSelect :
    (info.foldl (selectStep bgp) state).oldSelect =
      lastSelected state.flags info state.oldSelect := by
  induction info generalizing state with
  | nil => rfl
  | cons ri rest ih =>
    simp only [map_cons, nodup_cons] at distinct
    have sameFlags : ∀ other ∈ rest, ((selectStep bgp state ri).flags other.id).selected =
        (state.flags other.id).selected :=
      fun other _ => selected_eq (selectStep_core bgp state ri other.id)
    rw [foldl_cons, ih distinct.2, lastSelected_congr sameFlags, selectStep_oldSelect]
    rfl

end Passes

/-- The path that `bgp_process` settles on. -/
def newSelect (bgp : Bgp) (info : List BgpInfo) (flags : FlagMap) : Option BgpInfo :=
  (selectPass bgp info flags).newSelect

section
variable (bgp : Bgp) (info : List BgpInfo) (flags : FlagMap)

def dmedFlags : FlagMap :=
  if bgp.deterministicMed then dmedPass bgp info flags else flags

theorem dmedFlags_core : SameCore (dmedFlags bgp info flags) flags := by
  unfold dmedFlags
  split
  · exact dmedPass_core bgp info flags
  · exact SameCore.refl flags

theorem selectPass_core : SameCore (selectPass bgp info flags).flags flags :=
  (selectLoop_core bgp info _).trans (dmedFlags_core bgp info flags)

end

theorem newSelect_eq {bgp} (distinct : (info.map BgpInfo.id).Nodup) :
    newSelect bgp info flags = scan (bgpInfoCmp bgp flags.selected)
      (info.filter (considered bgp (dmedFlags bgp info flags))) := by
  have sameSelected := (dmedFlags_core bgp info flags).selected
  rw [← sameSelected]
  exact selectLoop_newSelect distinct

theorem newSelect_eligible {bgp : Bgp} (distinct : (info.map BgpInfo.id).Nodup) {ri : BgpInfo}
    (chosen : newSelect bgp info flags = some ri) : ri ∈ info ∧ (flags ri.id).holddown = false := by
  rw [newSelect_eq distinct] at chosen
  obtain ⟨member, kept⟩ := mem_filter.mp (scan_mem chosen)
  refine ⟨member, ?_⟩
  simp only [considered, Bool.and_eq_true, Bool.not_eq_true'] at kept
  rw [← kept.1]
  exact (holddown_eq (dmedFlags_core bgp info flags ri.id)).symm

/-- At most one path of the node has the SELECTED flag. -/
def SelectedOnce (info : List BgpInfo) (flags : FlagMap) : Prop :=
  ∀ first ∈ info, ∀ second ∈ info, (flags first.id).selected = true →
    (flags second.id).selected = true →
    first = second

theorem lastSelected_none (unmarked : ∀ ri ∈ info, (flags ri.id).selected = false)
    (start : Option BgpInfo) :
    lastSelected flags info start = start := by
  induction info generalizing start with
  | nil => rfl
  | cons first rest ih =>
    simp only [lastSelected, foldl_cons, unmarked first (mem_cons_self ..),
      Bool.false_eq_true, ↓reduceIte]
    exact ih (fun ri member => unmarked ri (mem_cons_of_mem first member)) start

theorem lastSelected_some (once : SelectedOnce info flags) {ri} (member : ri ∈ info)
    (marked : (flags ri.id).selected = true) (start : Option BgpInfo) :
    lastSelected flags info start = some ri := by
  induction info generalizing start with
  | nil => cases member
  | cons first rest ih =>
    have restOnce : SelectedOnce rest flags := fun x xIn y yIn =>
      once x (mem_cons_of_mem first xIn) y (mem_cons_of_mem first yIn)
    by_cases later : ri ∈ rest
    · exact ih restOnce later _
    · have isFirst : ri = first := (mem_cons.mp member).resolve_right later
      subst isFirst
      simp only [lastSelected, foldl_cons, marked, ↓reduceIte]
      apply lastSelected_none
      intro other otherIn
      by_contra otherMarked
      have same :=
        once ri member other (mem_cons_of_mem ri otherIn) marked (by simpa using otherMarked)
      exact later (same ▸ otherIn)

/-- The flags that `bgp_process` only reads. -/
def Flags.lasting (flags : Flags) : Flags :=
  { flags with selected := false, attrChanged := false, dmedCheck := false, dmedSelected := false }

theorem Flags.lasting_eq {flags other : Flags} (same : flags.core = other.core) :
    flags.lasting = other.lasting :=
  show flags.core.lasting = other.core.lasting by rw [same]

theorem Flags.holddown_eq_of_lasting {flags other : Flags} (same : flags.lasting = other.lasting) :
    flags.holddown = other.holddown :=
  show flags.lasting.holddown = other.lasting.holddown by rw [same]

theorem FlagMap.modify_lasting (flags : FlagMap) (id other : PathId) {change}
    (keeps : ∀ f, (change f).lasting = f.lasting) :
    (flags.modify id change other).lasting = (flags other).lasting := by
  unfold modify
  split
  · exact keeps _
  · rfl

theorem FlagMap.unselect_lasting (flags : FlagMap) (old : Option BgpInfo) (id : PathId) :
    (flags.unselect old id).lasting = (flags id).lasting := by
  cases old with
  | none => rfl
  | some old => exact flags.modify_lasting _ id fun _ => rfl

theorem FlagMap.select_lasting (flags : FlagMap) (new : Option BgpInfo) (id : PathId) :
    (flags.select new id).lasting = (flags id).lasting := by
  cases new with
  | none => rfl
  | some new => exact flags.modify_lasting _ id fun _ => rfl

theorem bgpProcess_lasting (bgp : Bgp) (info : List BgpInfo) (flags : FlagMap) (id : PathId) :
    ((bgpProcess bgp info flags).1 id).lasting = (flags id).lasting := by
  have passes := lasting_eq (selectPass_core bgp info flags id)
  simp only [bgpProcess]
  split
  · exact passes
  · rw [select_lasting, unselect_lasting, passes]

section Process
variable {bgp : Bgp} {info : List BgpInfo} {flags : FlagMap}

theorem selectPass_oldSelect (distinct : (info.map BgpInfo.id).Nodup) :
    (selectPass bgp info flags).oldSelect = lastSelected flags info none :=
  (selectLoop_oldSelect distinct).trans
    (lastSelected_congr (fun ri _ => selected_eq (dmedFlags_core bgp info flags ri.id)) none)

theorem id_eq_of_nodup (distinct : (info.map BgpInfo.id).Nodup) {first second}
    (firstIn : first ∈ info) (secondIn : second ∈ info) (same : first.id = second.id) :
    first = second :=
  inj_on_of_nodup_map distinct firstIn secondIn same

theorem oldSelect_cases (bgp : Bgp) (distinct : (info.map BgpInfo.id).Nodup)
    (once : SelectedOnce info flags) :
    (∃ old ∈ info, (flags old.id).selected = true ∧
      (selectPass bgp info flags).oldSelect = some old) ∨
    (∀ ri ∈ info, (flags ri.id).selected = false) ∧
    (selectPass bgp info flags).oldSelect = none := by
  rw [selectPass_oldSelect distinct]
  by_cases marked : ∃ old ∈ info, (flags old.id).selected = true
  · obtain ⟨old, oldIn, isOld⟩ := marked
    exact Or.inl ⟨old, oldIn, isOld, lastSelected_some once oldIn isOld none⟩
  · have unmarked : ∀ ri ∈ info, (flags ri.id).selected = false := by
      intro ri member
      by_contra selected
      exact marked ⟨ri, member, by simpa using selected⟩
    exact Or.inr ⟨unmarked, lastSelected_none unmarked none⟩

theorem dmedGroup_skips (bgp : Bgp) (ri1 : BgpInfo) (rest : List BgpInfo) (current : BgpInfo)
    (flags : FlagMap) {id} (notCurrent : id ≠ current.id) (skips : Skips flags rest id) :
    id ≠ (dmedGroup bgp ri1 rest current flags).1.id ∧
    (dmedGroup bgp ri1 rest current flags).2 id = flags id := by
  induction rest generalizing current flags with
  | nil => exact ⟨notCurrent, rfl⟩
  | cons ri2 rest ih =>
    simp only [dmedGroup]
    split
    · exact ih _ _ notCurrent (skips.tail rfl)
    · split
      · exact ih _ _ notCurrent (skips.tail rfl)
      · rename_i eligible
        have apart := skips.ne eligible
        split
        · split
          · have same : ((flags.unsetDmedSelected current.id).setCheck ri2.id) id = flags id := by
              rw [setCheck, modify_other _ _ apart, unsetDmedSelected, modify_other _ _ notCurrent]
            obtain ⟨away, kept⟩ := ih ri2 _ apart (skips.tail same)
            exact ⟨away, kept.trans same⟩
          · have same : (flags.setCheck ri2.id) id = flags id := by
              rw [setCheck, modify_other _ _ apart]
            obtain ⟨away, kept⟩ := ih current _ notCurrent (skips.tail same)
            exact ⟨away, kept.trans same⟩
        · exact ih _ _ notCurrent (skips.tail rfl)

theorem FlagMap.unselect_selected {before : FlagMap} {old ri}
    (owner : (before ri.id).selected = true → old = some ri) :
    (before.unselect old ri.id).selected = false := by
  by_cases marked : (before ri.id).selected = true
  · rw [owner marked, unselect, modify_same]
  · cases old with
    | none => exact Bool.eq_false_iff.mpr marked
    | some old =>
      by_cases here : ri.id = old.id
      · rw [unselect, ← here, modify_same]
      · rw [unselect, modify_other _ _ here]
        simpa using marked

theorem dmedPass_skips (info : List BgpInfo) (flags : FlagMap) {id} (skips : Skips flags info id) :
    dmedPass bgp info flags id = flags id := by
  induction info generalizing flags with
  | nil => rfl
  | cons ri1 rest ih =>
    simp only [dmedPass]
    split
    · exact ih _ (skips.tail rfl)
    · split
      · exact ih _ (skips.tail rfl)
      · rename_i eligible
        obtain ⟨apart, kept⟩ :=
          dmedGroup_skips bgp ri1 rest ri1 flags (skips.ne eligible) (skips.tail rfl)
        have same :
            ((dmedGroup bgp ri1 rest ri1 flags).2.setCheck
            (dmedGroup bgp ri1 rest ri1 flags).1.id).setDmedSelected
            (dmedGroup bgp ri1 rest ri1 flags).1.id id = flags id := by
          rw [setDmedSelected, modify_other _ _ apart, setCheck, modify_other _ _ apart, kept]
        rw [ih _ (skips.tail same), same]

/-- Both passes leave a path in hold-down as it is. -/
theorem selectPass_skips {id} (skips : Skips flags info id) :
    (selectPass bgp info flags).flags id = flags id := by
  have first : dmedFlags bgp info flags id = flags id := by
    unfold dmedFlags
    split
    · exact dmedPass_skips info flags skips
    · rfl
  have second : Skips (dmedFlags bgp info flags) info id :=
    fun ri member same => first ▸ skips ri member same
  exact (selectLoop_skips bgp info _ second).trans first

/-- The two marks of the deterministic-med pass. -/
def Flags.marks (flags : Flags) : Bool × Bool :=
  (flags.dmedCheck, flags.dmedSelected)

section
variable (distinct : (info.map BgpInfo.id).Nodup)
include distinct

/-- After `bgp_process` exactly the chosen path of the node is SELECTED. -/
theorem bgpProcess_selected (once : SelectedOnce info flags) {ri : BgpInfo} (member : ri ∈ info) :
    ((bgpProcess bgp info flags).1 ri.id).selected =
      decide (newSelect bgp info flags = some ri) := by
  have passes := selected_eq (selectPass_core bgp info flags ri.id)
  have chosenIn : ∀ new, newSelect bgp info flags = some new → new ∈ info := fun _ chosen =>
    (newSelect_eligible distinct chosen).1
  have owner : ∀ old, (selectPass bgp info flags).oldSelect = some old → old ∈ info ∧
      (flags old.id).selected = true := by
    intro old found
    rcases oldSelect_cases bgp distinct once with ⟨first, firstIn, marked, isFirst⟩ | ⟨-, none⟩
    · rw [isFirst] at found
      cases found
      exact ⟨firstIn, marked⟩
    · rw [none] at found
      cases found
  simp only [bgpProcess]
  split
  · rename_i settled
    unfold Selection.settled at settled
    split at settled
    · rename_i old new oldFound newFound
      simp only [Bool.and_eq_true, decide_eq_true_eq] at settled
      have chosen : newSelect bgp info flags = some new := newFound
      obtain ⟨oldIn, isOld⟩ := owner old oldFound
      have same : old = new := id_eq_of_nodup distinct oldIn (chosenIn new chosen) settled.1
      subst same
      rw [passes, chosen]
      by_cases here : ri = old
      · subst here
        simpa using isOld
      · have unmarked : (flags ri.id).selected = false := by
          by_contra selected
          exact here (once ri member old oldIn (by simpa using selected) isOld)
        rw [unmarked]
        exact (decide_eq_false fun equal => here (Option.some.inj equal).symm).symm
    · cases settled
  · have dropped : ((selectPass bgp info flags).flags.unselect
        (selectPass bgp info flags).oldSelect ri.id).selected = false := by
      apply unselect_selected
      intro marked
      rw [passes] at marked
      rw [selectPass_oldSelect distinct]
      exact lastSelected_some once member marked none
    change (select _ (newSelect bgp info flags) ri.id).selected = _
    cases chosen : newSelect bgp info flags with
    | none => simpa [select] using dropped
    | some new =>
      by_cases same : ri = new
      · subst same
        simp [select]
      · have apart : ri.id ≠ new.id := fun equal =>
          same (id_eq_of_nodup distinct member (chosenIn new chosen) equal)
        rw [select, modify_other _ _ apart, dropped]
        exact (decide_eq_false fun equal => same (Option.some.inj equal).symm).symm

theorem bgpProcess_other (once : SelectedOnce info flags)
    {id} (absent : id ∉ info.map BgpInfo.id) : (bgpProcess bgp info flags).1 id = flags id := by
  have passes : (selectPass bgp info flags).flags id = flags id :=
    selectPass_skips (.of_absent absent)
  have notOld : ∀ old, (selectPass bgp info flags).oldSelect = some old → id ≠ old.id := by
    intro old found same
    rcases oldSelect_cases bgp distinct once with ⟨first, firstIn, -, isFirst⟩ | ⟨-, none⟩
    · rw [isFirst] at found
      cases found
      exact absent (same ▸ mem_map_of_mem firstIn)
    · rw [none] at found
      cases found
  have notNew : ∀ new, (selectPass bgp info flags).newSelect = some new → id ≠ new.id := by
    intro new found same
    exact absent (same ▸ mem_map_of_mem (newSelect_eligible distinct found).1)
  have unselected : (selectPass bgp info flags).flags.unselect
      (selectPass bgp info flags).oldSelect id = flags id := by
    cases old : (selectPass bgp info flags).oldSelect with
    | none => exact passes
    | some old' => rw [unselect, modify_other _ _ (notOld old' old), passes]
  simp only [bgpProcess]
  split
  · exact passes
  · cases new : (selectPass bgp info flags).newSelect with
    | none => exact unselected
    | some new' =>
      rw [← unselected]
      exact if_neg (notNew new' new)

end

/-- What is announced: nothing if the same path stays selected, else the choice. -/
theorem bgpProcess_announcement (bgp : Bgp) (distinct : (info.map BgpInfo.id).Nodup)
    (once : SelectedOnce info flags) :
    (∃ new ∈ info, newSelect bgp info flags = some new ∧ (flags new.id).selected = true ∧
      (bgpProcess bgp info flags).2 = .unchanged) ∨
    ∃ old, (bgpProcess bgp info flags).2 = .select old (newSelect bgp info flags) := by
  by_cases settled : (selectPass bgp info flags).settled
  · left
    have fired := settled
    unfold Selection.settled at settled
    split at settled
    · rename_i old new oldFound newFound
      simp only [Bool.and_eq_true, decide_eq_true_eq] at settled
      rcases oldSelect_cases bgp distinct once with ⟨first, firstIn, marked, isFirst⟩ | ⟨-, none⟩
      · rw [isFirst] at oldFound
        cases oldFound
        have newIn := (newSelect_eligible distinct newFound).1
        refine ⟨new, newIn, newFound, settled.1 ▸ marked, ?_⟩
        simp only [bgpProcess, fired, ↓reduceIte]
      · rw [none] at oldFound
        cases oldFound
    · cases settled
  · right
    refine ⟨(selectPass bgp info flags).oldSelect, ?_⟩
    simp only [bgpProcess, settled, Bool.false_eq_true, ↓reduceIte]
    rfl

/-- What `bgp_process` leaves of the flags: SELECTED on its choice and on no other path, no marks on
eligible paths, and all else as it was. -/
structure Leaves (bgp : Bgp) (info : List BgpInfo) (before after : FlagMap) : Prop where
  selected : ∀ ri ∈ info, (after ri.id).selected = true ↔ newSelect bgp info before = some ri
  chosen : ∀ ri, newSelect bgp info before = some ri → ri ∈ info ∧ (before ri.id).holddown = false
  clear : ∀ ri ∈ info, (before ri.id).holddown = false → (after ri.id).marks = (false, false)
  held : ∀ ri ∈ info, (before ri.id).holddown = true → (after ri.id).marks = (before ri.id).marks
  lasting : ∀ id, (after id).lasting = (before id).lasting
  others : ∀ id, id ∉ info.map BgpInfo.id → after id = before id

end Process
end Zebra.Bgpd
