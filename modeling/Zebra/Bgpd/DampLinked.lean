import Zebra.Base.Run
import Zebra.Bgpd.DampList

namespace Zebra.Bgpd.Damp
open Base Base.Chain Function List State Option Damp.Path Nat
namespace State

theorem setInfo_self (state : State) (bdi : Bdi) (info : Info) :
    (state.setInfo bdi info).info bdi = some info :=
  update_self ..

theorem setPath_self (state : State) (binfo : Binfo) (path : Path) :
    (state.setPath binfo path).path binfo = path :=
  update_self ..

/-- The entries are on the lists they belong on, those that are `out` on none. -/
structure Filing (state : State) (out : List Bdi) : Prop where
  lists : ∃ lists : Head → List Bdi, state.links.Filed lists ∧
    ∀ head bdi, bdi ∈ lists head ↔ bdi ∉ out ∧ ∃ info, state.info bdi = some info ∧
      state.home info = head
  owner : ∀ {bdi info}, state.info bdi = some info → (state.path info.binfo).dampInfo = some bdi
  held : ∀ {binfo bdi}, (state.path binfo).dampInfo = some bdi →
    ∃ info, state.info bdi = some info ∧ info.binfo = binfo
  flagged : ∀ {binfo}, (state.path binfo).damped = true → (state.path binfo).dampInfo ≠ none
  young : ∀ {bdi info}, state.info bdi = some info → bdi < state.fresh
  placed : ∀ {bdi info}, bdi ∉ out → state.info bdi = some info →
    (state.path info.binfo).damped = true →
    0 ≤ info.index ∧ info.index < state.reuseListSize

namespace Filing
variable {state : State} {out : List Bdi} {bdi : Bdi} {info : Info}

theorem binfo_ne (filing : state.Filing out) (known : state.info bdi = some info) {other others}
    (found : state.info other = some others) (apart : other ≠ bdi) : others.binfo ≠ info.binfo := by
  intro same
  have mine := filing.owner known
  have theirs := filing.owner found
  rw [same] at theirs
  exact apart (some.inj (theirs.symm.trans mine))

/-- One entry and its path change; which entries are out is different for that one only. -/
theorem reseat (filing : state.Filing out) {out' : List Bdi} {entry : Option Info} {mine : Path}
    {binfo : Binfo} {fresh freed}
    (outs : ∀ other ≠ bdi, other ∈ out' ↔ other ∈ out) (older : state.fresh ≤ fresh)
    (own : ∀ info, state.info bdi = some info → info.binfo = binfo)
    (apart : ∀ {other others}, state.info other = some others → other ≠ bdi → others.binfo ≠ binfo)
    (listed : ∀ head, (bdi ∉ out ∧ ∃ info, state.info bdi = some info ∧ state.home info = head) ↔
      bdi ∉ out' ∧ ∃ info, entry = some info ∧
      (if mine.damped then .reuse info.index else .noReuse) = head)
    (known : ∀ info, entry = some info → info.binfo = binfo ∧ mine.dampInfo = some bdi ∧
      bdi < fresh ∧
      (bdi ∉ out' → mine.damped = true → 0 ≤ info.index ∧ info.index < state.reuseListSize))
    (held : ∀ other, mine.dampInfo = some other → other = bdi ∧ entry ≠ none)
    (flagged : mine.damped = true → mine.dampInfo ≠ none) :
    ({ state with info := update state.info bdi entry, path := update state.path binfo mine, fresh,
                  freed } : State).Filing out' := by
  obtain ⟨lists, filed, members⟩ := filing.lists
  have now : update state.info bdi entry bdi = entry := update_self ..
  have moved : update state.path binfo mine binfo = mine := update_self ..
  have rest {other} (here : other ≠ bdi) : update state.info bdi entry other = state.info other :=
    update_of_ne here ..
  have elsewhere {place} (here : place ≠ binfo) :
    update state.path binfo mine place = state.path place := update_of_ne here ..
  refine ⟨⟨lists, filed, fun head other => (members head other).trans ?_⟩,
    fun {other others} found => ?_, fun {place other} there => ?_,
    fun {place} damped => ?_, fun {other others} found => ?_,
      fun {other others} outside found damped => ?_⟩
  · by_cases here : other = bdi
    · subst here
      refine (listed head).trans (and_congr_right fun _ => ?_)
      dsimp only
      rw [now]
      refine exists_congr fun info => and_congr_right fun found => ?_
      simp only [home, (known info found).1, moved]
    · dsimp only
      rw [outs other here, rest here]
      refine and_congr_right fun _ => exists_congr fun others => and_congr_right fun found => ?_
      simp only [home, elsewhere (apart found here)]
  · by_cases here : other = bdi
    · subst here
      obtain ⟨rfl, owns, _⟩ := known others (now.symm.trans found)
      exact (congrArg dampInfo moved).trans owns
    · have before := (rest here).symm.trans found
      exact (congrArg dampInfo (elsewhere (apart before here))).trans (filing.owner before)
  · by_cases here : place = binfo
    · subst here
      obtain ⟨rfl, some_⟩ := held other ((congrArg dampInfo moved).symm.trans there)
      obtain ⟨info, found⟩ := ne_none_iff_exists'.mp some_
      exact ⟨info, now.trans found, (known info found).1⟩
    · obtain ⟨info, found, rfl⟩ :=
        filing.held ((congrArg dampInfo (elsewhere here)).symm.trans there)
      refine ⟨info, (rest ?_).trans found, rfl⟩
      rintro rfl
      exact here (own info found)
  · dsimp only at damped ⊢
    by_cases here : place = binfo
    · rw [here, moved] at damped ⊢
      exact flagged damped
    · rw [elsewhere here] at damped ⊢
      exact filing.flagged damped
  · by_cases here : other = bdi
    · subst here
      exact (known others (now.symm.trans found)).2.2.1
    · exact lt_of_lt_of_le (filing.young ((rest here).symm.trans found)) older
  · dsimp only at damped
    by_cases here : other = bdi
    · subst here
      obtain ⟨rfl, _, _, placed⟩ := known others (now.symm.trans found)
      rw [moved] at damped
      exact placed outside damped
    · have before := (rest here).symm.trans found
      rw [elsewhere (apart before here)] at damped
      exact filing.placed (fun inside => outside ((outs other here).mpr inside)) before damped

section
variable (filing : state.Filing out) (known : state.info bdi = some info)
include filing known

/-- What is known of an entry and its path changes. -/
theorem change {changed : Info} {path : Path} (same : changed.binfo = info.binfo)
    (owns : path.dampInfo = some bdi)
    (settled : bdi ∈ out ∨ changed.index = info.index ∧
      path.damped = (state.path info.binfo).damped) :
    ((state.setInfo bdi changed).setPath info.binfo path).Filing out := by
  have only {other} (found : state.info bdi = some other) : other = info :=
    some.inj (found.symm.trans known)
  refine filing.reseat (fun _ _ => Iff.rfl) le_rfl (fun other found => by rw [only found])
    (filing.binfo_ne known)
    (fun head => and_congr_right fun outside => ?_) (fun other found => ?_)
      (fun other held => ?_) fun _ => by rw [owns]; exact nofun
  · obtain ⟨index, damped⟩ := settled.resolve_left outside
    simp only [known, some.injEq, exists_eq_left', home, index, damped]
  · cases found
    refine ⟨same, owns, filing.young known, fun outside => ?_⟩
    obtain ⟨index, damped⟩ := settled.resolve_left outside
    rw [index, damped]
    exact filing.placed outside known
  · exact ⟨some.inj (held.symm.trans owns), nofun⟩

theorem setInfo {changed : Info} (same : changed.binfo = info.binfo)
    (settled : bdi ∈ out ∨ changed.index = info.index) :
    (state.setInfo bdi changed).Filing out := by
  have changes := filing.change known same (filing.owner known) (settled.imp_right (⟨·, rfl⟩))
  rwa [State.setPath, State.setInfo, update_eq_self] at changes

theorem setPath (path : Path) (owns : path.dampInfo = some bdi)
    (settled : bdi ∈ out ∨ path.damped = (state.path info.binfo).damped) :
    (state.setPath info.binfo path).Filing out := by
  have changes := filing.change known rfl owns (settled.imp_right (⟨rfl, ·⟩))
  rwa [State.setInfo, ← known, update_eq_self] at changes

end

theorem unlink (filing : state.Filing out) (known : state.info bdi = some info) (inside : bdi ∉ out)
    {head} (there : state.home info = head) : (state.unlink head bdi).Filing (bdi :: out) := by
  obtain ⟨lists, filed, members⟩ := filing.lists
  have member : bdi ∈ lists head := (members head bdi).mpr ⟨inside, info, known, there⟩
  refine ⟨⟨_, filed.unlink member, fun other node => ?_⟩, filing.owner, filing.held, filing.flagged,
    filing.young,
    fun outside => filing.placed fun within => outside (.tail _ within)⟩
  have whole : node ∈ update lists head ((lists head).erase bdi) other ↔
      node ≠ bdi ∧ node ∈ lists other := by
    by_cases same : other = head
    · subst same
      rw [update_self, (filed.nodup other).mem_erase_iff]
    · rw [update_of_ne same]
      refine ⟨fun found => ⟨?_, found⟩, And.right⟩
      rintro rfl
      exact same (filed.apart found member)
  rw [whole, members, mem_cons, not_or, and_assoc]
  rfl

theorem bgpReuseIndex_lt {arith : Arithmetic} (sized : 0 < state.reuseListSize) {penalty : Nat}
    (slotted : arith.Slotted state.params penalty) :
    0 ≤ state.bgpReuseIndex arith penalty ∧
    state.bgpReuseIndex arith penalty < state.reuseListSize :=
  ⟨Int.tmod_nonneg _ (Int.add_nonneg (Int.natCast_nonneg _) slotted.2),
    Int.tmod_lt_of_pos _ (Int.natCast_pos.mpr sized)⟩

section
variable (filing : state.Filing (bdi :: out))
include filing

theorem push (known : state.info bdi = some info) (outside : bdi ∉ out) {head}
    (there : state.home info = head)
    (placed : (state.path info.binfo).damped = true →
      0 ≤ info.index ∧ info.index < state.reuseListSize) :
    (state.push head bdi).Filing out := by
  obtain ⟨lists, filed, members⟩ := filing.lists
  have nowhere : ∀ head, bdi ∉ lists head := fun head found =>
    ((members head bdi).mp found).1 mem_cons_self
  refine ⟨⟨_, filed.push head nowhere, fun other node => ?_⟩, filing.owner, filing.held,
    filing.flagged, filing.young, ?_⟩
  · by_cases here : node = bdi
    · subst here
      have own : (node ∉ out ∧ ∃ others, (state.push head node).info node = some others ∧
          (state.push head node).home others = other) ↔ other = head := by
        constructor
        · rintro ⟨-, others, found, lies⟩
          obtain rfl : info = others := some.inj (known.symm.trans found)
          exact lies.symm.trans there
        · rintro rfl
          exact ⟨outside, info, known, there⟩
      rw [own]
      by_cases same : other = head
      · subst same
        simp
      · rw [update_of_ne same]
        exact iff_of_false (nowhere other) same
    · have kept : node ∈ update lists head (bdi :: lists head) other ↔ node ∈ lists other := by
        by_cases same : other = head
        · subst same
          simp [here]
        · rw [update_of_ne same]
      rw [kept, members, mem_cons, or_iff_right here]
      rfl
  · intro other others within found damped
    by_cases here : other = bdi
    · subst here
      obtain rfl : info = others := some.inj (known.symm.trans found)
      exact placed damped
    · exact filing.placed (by simp [here, within]) found damped

theorem release (known : state.info bdi = some info) (withdraw : Bool) :
    (state.release bdi info withdraw).Filing out := by
  refine filing.reseat (fun other apart => ?_) le_rfl (fun other found => ?_)
    (filing.binfo_ne known) (fun head => ?_) nofun nofun nofun
  · rw [mem_cons, or_iff_right apart]
  · rw [some.inj (found.symm.trans known)]
  · exact iff_of_false (fun both => both.1 mem_cons_self) nofun

theorem bgpReuseListAdd {arith : Arithmetic} (sized : 0 < state.reuseListSize)
    (slotted : arith.Slotted state.params info.penalty) (outside : bdi ∉ out) {old}
    (known : state.info bdi = some old) (same : info.binfo = old.binfo)
    (damped : (state.path info.binfo).damped = true) :
    (state.bgpReuseListAdd arith bdi info).Filing out := by
  have indexed : (state.setInfo bdi { info with
      index := state.bgpReuseIndex arith info.penalty }).Filing (bdi :: out) :=
    filing.setInfo known same (.inl mem_cons_self)
  refine indexed.push (setInfo_self ..) outside ?_ fun _ => bgpReuseIndex_lt sized slotted
  exact if_pos damped

theorem bgpDampListAdd (outside : bdi ∉ out) (known : state.info bdi = some info)
    (used : (state.path info.binfo).damped = false) : (state.bgpDampListAdd bdi).Filing out := by
  refine filing.push known outside ?_ fun damped => absurd (used.symm.trans damped) (by simp)
  rw [home, if_neg (by simp [used])]

end

section
variable (filing : state.Filing [])
include filing

theorem allocate (alone : (state.path info.binfo).dampInfo = none) :
    (state.allocate info).Filing [state.fresh] := by
  have unknown {other} (found : state.info state.fresh = some other) : False :=
    lt_irrefl _ (filing.young found)
  refine filing.reseat (fun other apart => ?_) (le_succ _) (fun other found => (unknown found).elim)
    (fun found _ same => ?_)
    (fun head => ?_) (fun other found => ?_) (fun other held => ?_) nofun
  · exact iff_of_false (fun inside => apart (mem_singleton.mp inside)) not_mem_nil
  · have owned := filing.owner found
    rw [same, alone] at owned
    cases owned
  · exact iff_of_false (fun ⟨_, _, found, _⟩ => unknown found) fun both => both.1 mem_cons_self
  · cases found
    exact ⟨rfl, rfl, lt_succ_self _, fun outside => absurd mem_cons_self outside⟩
  · exact ⟨(some.inj held).symm, nofun⟩

theorem bgpDampInfoFree (bdi : Bdi) (withdraw : Bool) :
    (state.bgpDampInfoFree bdi withdraw).Filing [] := by
  rw [State.bgpDampInfoFree]
  split
  · exact filing
  · rename_i info known
    split
    · rename_i damped
      exact (filing.unlink known not_mem_nil (if_pos damped)).release known withdraw
    · rename_i used
      exact (filing.unlink known not_mem_nil (if_neg used)).release known withdraw

theorem bgpDampUnsuppress (known : state.info bdi = some info)
    (damped : (state.path info.binfo).damped = true) (reused : Info)
    (same : reused.binfo = info.binfo)
    (index : reused.index = info.index) : (state.bgpDampUnsuppress bdi info reused).Filing [] := by
  have unlinked := filing.unlink known not_mem_nil (if_pos damped)
  have used : ((state.unlink (.reuse info.index) bdi).setPath info.binfo
      { state.path info.binfo with damped := false }).Filing [bdi] :=
    unlinked.setPath known _ (filing.owner known) (.inl mem_cons_self)
  have listed := used.bgpDampListAdd not_mem_nil known (congrArg Path.damped (setPath_self ..))
  exact listed.setInfo known same (.inr index)

theorem bgpDampRemember {old} (known : state.info bdi = some old)
    (same : info.binfo = old.binfo) (index : info.index = old.index) (withdraw : Bool) (now : Int) :
    (state.bgpDampRemember bdi info withdraw now).Filing [] := by
  rw [State.bgpDampRemember]
  split
  · exact filing.bgpDampInfoFree bdi withdraw
  · exact filing.setInfo known same (.inr index)

end

theorem entry_some (filing : state.Filing out) {binfo}
    (found : state.entry binfo = some (bdi, info)) :
    state.info bdi = some info ∧ info.binfo = binfo ∧ (state.path binfo).dampInfo = some bdi := by
  obtain ⟨other, dampInfo, pair⟩ := bind_eq_some_iff.mp found
  obtain ⟨old, known, pair⟩ := map_eq_some_iff.mp pair
  cases pair
  obtain ⟨held, found, whose⟩ := filing.held dampInfo
  obtain rfl : held = info := some.inj (found.symm.trans known)
  exact ⟨known, whose, dampInfo⟩

theorem entry_none (filing : state.Filing out) {binfo} (missing : state.entry binfo = none) :
    (state.path binfo).dampInfo = none := by
  by_contra present
  obtain ⟨bdi, dampInfo⟩ := ne_none_iff_exists'.mp present
  obtain ⟨info, known, -⟩ := filing.held dampInfo
  simp [entry, dampInfo, known] at missing

/-- The data of the entry that is charged are not in the entry yet. -/
structure Charged (state : State) (binfo : Binfo) (penalty : Nat) (charged : State × Bdi × Info) :
    Prop where
  damped : (charged.1.path binfo).damped = (state.path binfo).damped
  filing : charged.1.Filing []
  known : ∃ old, charged.1.info charged.2.1 = some old ∧ old.binfo = binfo ∧
    charged.2.2.index = old.index
  binfo : charged.2.2.binfo = binfo
  size : charged.1.reuseListSize = state.reuseListSize
  penalty : charged.2.2.penalty = penalty
  params : charged.1.params = state.params

section
variable (filing : state.Filing [])
include filing

theorem bgpDampReuse (known : state.info bdi = some info) (now : Int) :
    (state.bgpDampReuse bdi info now).1.Filing [] := by
  rw [State.bgpDampReuse]
  split
  · exact filing.bgpDampRemember known rfl rfl false now
  · split
    · rename_i again
      have reused := filing.bgpDampUnsuppress known (Bool.and_eq_true_iff.mp again).1 { info with
        suppressTime := 0 } rfl rfl
      exact reused.bgpDampRemember (setInfo_self ..) rfl rfl false now
    · exact filing.bgpDampRemember known rfl rfl false now

section
variable (arith : Arithmetic)

theorem bgpDampCharge (binfo : Binfo) (afi : Afi) (safi : Safi) (attrChange : Bool) (now : Int) :
    Charged state binfo (state.charged arith binfo attrChange now)
      (state.bgpDampCharge arith binfo afi safi attrChange now) := by
  rw [State.bgpDampCharge]
  split
  · rename_i bdi info found
    obtain ⟨known, whose, -⟩ := filing.entry_some found
    exact ⟨rfl, filing, ⟨info, known, whose, rfl⟩, whose, rfl, rfl, rfl⟩
  · rename_i missing
    have alone := filing.entry_none missing
    have used : (state.path binfo).damped = false := by
      by_contra damped
      exact filing.flagged (by simpa using damped) alone
    refine ⟨(congrArg Path.damped (setPath_self ..)).trans rfl, ?_, ⟨_, setInfo_self .., rfl, rfl⟩,
      rfl, rfl, rfl, rfl⟩
    refine Filing.bgpDampListAdd ?_ not_mem_nil (setInfo_self ..) ?_
    · exact filing.allocate alone
    · exact (congrArg Path.damped (setPath_self ..)).trans used

theorem bgpDampSuppress {arith : Arithmetic} (sized : 0 < state.reuseListSize)
    (slotted : (state.path info.binfo).damped = true ∨ state.params.suppressValue ≤ info.penalty →
      arith.Slotted state.params info.penalty)
    (known : state.info bdi = some info) (lastPenalty : Option Nat) (now : Int) :
    (state.bgpDampSuppress arith bdi info lastPenalty now).1.Filing [] := by
  rw [State.bgpDampSuppress]
  split
  · rename_i damped
    split
    · have unlinked := filing.unlink known not_mem_nil (if_pos damped)
      exact unlinked.bgpReuseListAdd sized (slotted (.inl damped)) not_mem_nil known rfl damped
    · exact filing
  · rename_i used
    split
    · rename_i reached
      have unlinked := filing.unlink known not_mem_nil (if_neg used)
      have damped : ((state.unlink .noReuse bdi).setPath info.binfo
          { state.path info.binfo with damped := true }).Filing [bdi] :=
        unlinked.setPath known _ (filing.owner known) (.inl mem_cons_self)
      exact damped.bgpReuseListAdd sized (slotted (.inr reached)) not_mem_nil known rfl
        (congrArg Path.damped (setPath_self ..))
    · exact filing

theorem bgpDampWithdraw (sized : 0 < state.reuseListSize) (binfo : Binfo)
    (afi : Afi) (safi : Safi) (attrChange : Bool) (now : Int)
    (slotted : (state.path binfo).damped = true ∨
      state.params.suppressValue ≤ state.charged arith binfo attrChange now →
      arith.Slotted state.params (state.charged arith binfo attrChange now)) :
    (state.bgpDampWithdraw arith binfo afi safi attrChange now).1.Filing [] := by
  obtain ⟨damped, after, ⟨old, known, whose, index⟩, same, size, penalty, params⟩ :=
    filing.bgpDampCharge arith binfo afi safi attrChange now
  rw [State.bgpDampWithdraw]
  generalize state.bgpDampCharge arith binfo afi safi attrChange now = charged
    at after known index same size penalty params damped
  have recorded := after.setInfo known (same.trans whose.symm) (.inr index)
  have self : (charged.1.setInfo charged.2.1 charged.2.2).info charged.2.1 = some charged.2.2 :=
    setInfo_self ..
  subst same
  have noted := recorded.setPath self
      { (charged.1.setInfo charged.2.1 charged.2.2).path charged.2.2.binfo with
    history := true } (recorded.owner self) (.inr rfl)
  refine noted.bgpDampSuppress (size ▸ sized) (fun reached => ?_) self _ now
  have slot : arith.Slotted charged.1.params charged.2.2.penalty := by
    rw [params, penalty]
    refine slotted (reached.imp (fun flag => ?_) fun high => ?_)
    · rw [setPath_self] at flag
      exact damped.symm.trans flag
    · exact penalty ▸ params ▸ high
  exact slot

theorem bgpDampUpdate (binfo : Binfo) (now : Int) :
    (state.bgpDampUpdate arith binfo now).1.Filing [] := by
  rw [State.bgpDampUpdate]
  split
  · exact filing
  · rename_i bdi info found
    obtain ⟨known, rfl, dampInfo⟩ := filing.entry_some found
    have unset :=
      filing.setPath known { state.path info.binfo with history := false } dampInfo (.inr rfl)
    refine Filing.bgpDampReuse ?_ (setInfo_self ..) now
    exact unset.setInfo known rfl (.inr rfl)

theorem bgpDampScan (binfo : Binfo) (now : Int) :
    (state.bgpDampScan arith binfo now).Filing [] := by
  rw [State.bgpDampScan]
  split
  · exact filing
  · rename_i bdi info found
    obtain ⟨known, rfl, dampInfo⟩ := filing.entry_some found
    split
    · rename_i damped
      split
      · exact filing.bgpDampUnsuppress known damped _ rfl rfl
      · exact filing
    · refine Filing.bgpDampRemember ?_ (setInfo_self ..) rfl rfl true now
      exact filing.setInfo known rfl (.inr rfl)

end

theorem list_of (head : Head) :
    ∃ nodes, Follows state.links none (state.links.head head) nodes ∧ nodes.Nodup ∧
      nodes.length ≤ state.fresh ∧
      ∀ bdi, bdi ∈ nodes ↔ ∃ info, state.info bdi = some info ∧ state.home info = head := by
  obtain ⟨lists, filed, members⟩ := filing.lists
  have members : ∀ bdi, bdi ∈ lists head ↔ ∃ info, state.info bdi = some info ∧
      state.home info = head := fun bdi =>
    (members head bdi).trans (and_iff_right not_mem_nil)
  refine ⟨lists head, filed.follows head, filed.nodup head, ?_, members⟩
  have range : lists head ⊆ List.range state.fresh := by
    intro bdi member
    obtain ⟨info, known, -⟩ := (members bdi).mp member
    exact mem_range.mpr (filing.young known)
  simpa using (subperm_of_subset (filed.nodup head) range).length_le

theorem detach {head nodes}
    (members : ∀ bdi, bdi ∈ nodes ↔ ∃ info, state.info bdi = some info ∧ state.home info = head) :
    ({ state with links := state.links.detach head }).Filing nodes := by
  obtain ⟨lists, filed, all⟩ := filing.lists
  refine ⟨⟨_, filed.detach head, fun other bdi => ?_⟩, filing.owner, filing.held, filing.flagged,
    filing.young,
    fun _ => filing.placed not_mem_nil⟩
  by_cases same : other = head
  · subst same
    rw [update_self]
    refine iff_of_false not_mem_nil ?_
    rintro ⟨outside, present⟩
    exact outside ((members bdi).mpr present)
  · rw [update_of_ne same, all, and_iff_right not_mem_nil]
    refine ⟨fun present => ⟨fun inside => ?_, present⟩, And.right⟩
    obtain ⟨info, known, there⟩ := present
    obtain ⟨again, found, here⟩ := (members bdi).mp inside
    obtain rfl : info = again := some.inj (known.symm.trans found)
    exact same (there.symm.trans here)

end

theorem congr (filing : state.Filing out) {other : State} (links : other.links = state.links)
    (info : other.info = state.info) (path : other.path = state.path)
    (fresh : other.fresh = state.fresh)
    (size : other.reuseListSize = state.reuseListSize) : other.Filing out := by
  cases other
  subst links info path fresh size
  exact ⟨filing.lists, filing.owner, filing.held, filing.flagged, filing.young, filing.placed⟩

end Filing

/-- A penalty that is not forgotten, and has its list on the wheel if it goes on it again. -/
def Keeps (arith : Arithmetic) (state : State) (penalty : Nat) : Prop :=
  state.forgets penalty = false ∧
    (state.params.reuseLimit ≤ penalty → arith.Slotted state.params penalty)

instance (arith : Arithmetic) (state : State) (penalty : Nat) :
    Decidable (state.Keeps arith penalty) :=
  inferInstanceAs (Decidable (_ ∧ _))

/-- An entry that the reuse timer will find suppressed and worth keeping. -/
def Awaits (arith : Arithmetic) (now : Int) (state : State) (bdi : Bdi) : Prop :=
  ∃ info, state.info bdi = some info ∧ (state.path info.binfo).damped = true ∧
    state.Keeps arith (arith.decay state.params (now - info.tUpdated) info.penalty)

/-- What a round of the reuse timer leaves alone. -/
structure Rest (state after : State) (bdi : Bdi) (binfo : Binfo) : Prop where
  info : ∀ other, other ≠ bdi → after.info other = state.info other
  path : ∀ other, other ≠ binfo → after.path other = state.path other
  next : ∀ other, other ≠ bdi → after.links.next other = state.links.next other
  params : after.params = state.params
  size : after.reuseListSize = state.reuseListSize

section Timer
variable {state : State} {bdi : Bdi} {out : List Bdi} {info : Info} (arith : Arithmetic)

theorem reuseDecayed_filing (filing : state.Filing (bdi :: out)) (sized : 0 < state.reuseListSize)
    (slotted : state.params.reuseLimit ≤ info.penalty → arith.Slotted state.params info.penalty)
    (outside : bdi ∉ out)
    (known : state.info bdi = some info) (damped : (state.path info.binfo).damped = true)
    (keeps : state.forgets info.penalty = false) :
    (state.reuseDecayed arith bdi info).Filing out := by
  rw [reuseDecayed]
  split
  · rw [if_neg (by simp [keeps])]
    have used := filing.setPath known ((state.path info.binfo).reused info.lastrecord)
      (filing.owner known)
      (.inl mem_cons_self)
    refine Filing.bgpDampListAdd ?_ outside (setInfo_self ..) ?_
    · exact used.setInfo known rfl (.inl mem_cons_self)
    · exact congrArg Path.damped (setPath_self ..)
  · rename_i high
    exact filing.bgpReuseListAdd sized (slotted (not_lt.mp high)) outside known rfl damped

theorem reuseDecayed_rest (keeps : state.forgets info.penalty = false) :
    Rest state (state.reuseDecayed arith bdi info) bdi info.binfo := by
  rw [reuseDecayed]
  split
  · rw [if_neg (by simp [keeps])]
    exact ⟨fun _ apart => update_of_ne apart .., fun _ apart => update_of_ne apart ..,
      fun _ apart => push_next apart,
      rfl, rfl⟩
  · exact ⟨fun _ apart => update_of_ne apart .., fun _ _ => rfl,
      fun _ apart => push_next apart, rfl, rfl⟩

theorem reuseEntry_filing (now : Int) (filing : state.Filing (bdi :: out))
    (sized : 0 < state.reuseListSize)
    (outside : bdi ∉ out) (known : state.info bdi = some info)
    (damped : (state.path info.binfo).damped = true)
    (keeps : state.Keeps arith (arith.decay state.params (now - info.tUpdated) info.penalty)) :
    (state.reuseEntry arith bdi info now).Filing out ∧
    Rest state (state.reuseEntry arith bdi info now) bdi info.binfo := by
  have recorded : (state.setInfo bdi { info with
      penalty := arith.decay state.params (now - info.tUpdated) info.penalty, tUpdated :=
        now }).Filing (bdi :: out) :=
    filing.setInfo known rfl (.inl mem_cons_self)
  refine ⟨reuseDecayed_filing arith recorded sized keeps.2 outside
    (setInfo_self ..) damped keeps.1, ?_⟩
  obtain ⟨others, paths, nexts, params, size⟩ :
      Rest _ (state.reuseEntry arith bdi info now) bdi info.binfo :=
    reuseDecayed_rest arith keeps.1
  exact ⟨fun other apart => (others other apart).trans (update_of_ne apart ..), paths, nexts,
    params, size⟩

theorem reuseLoop_filing (now : Int) {fuel first} (enough : out.length ≤ fuel)
    (filing : state.Filing out) (sized : 0 < state.reuseListSize) (nodup : out.Nodup)
    (trail : Trail state.links first out) (awaits : ∀ bdi ∈ out, Awaits arith now state bdi) :
    (state.reuseLoop arith now fuel first).Filing [] := by
  induction out generalizing state first fuel with
  | nil =>
    obtain rfl : first = none := trail
    cases fuel <;> exact filing
  | cons bdi rest ih =>
    obtain ⟨rfl, trail⟩ := trail
    obtain ⟨outside, nodup⟩ := nodup_cons.mp nodup
    obtain ⟨info, known, damped, keeps⟩ := awaits bdi mem_cons_self
    obtain ⟨fuel, rfl⟩ : ∃ less, fuel = less + 1 :=
      exists_eq_succ_of_ne_zero (by rintro rfl; simp at enough)
    obtain ⟨filed, rested⟩ := reuseEntry_filing arith now filing sized outside known damped keeps
    rw [reuseLoop]
    simp only [known]
    refine ih (le_of_succ_le_succ enough) filed (rested.size ▸ sized) nodup ?_ ?_
    · exact trail.congr fun other member => rested.next other fun same => outside (same ▸ member)
    · intro other member
      have apart : other ≠ bdi := fun same => outside (same ▸ member)
      obtain ⟨others, found, flag, stays⟩ := awaits other (.tail _ member)
      refine ⟨others, (rested.info other apart).trans found, ?_, ?_⟩
      · rw [rested.path _ (filing.binfo_ne known found apart)]
        exact flag
      · rw [Keeps, forgets, rested.params]
        exact stays

theorem bgpReuseTimer_filing (now : Int) (filing : state.Filing [])
    (sized : 0 < state.reuseListSize)
    (keeps : ∀ bdi info, state.info bdi = some info → (state.path info.binfo).damped = true →
      info.index = state.reuseOffset →
      state.Keeps arith (arith.decay state.params (now - info.tUpdated) info.penalty)) :
    (state.bgpReuseTimer arith now).Filing [] := by
  obtain ⟨nodes, follows, nodup, short, members⟩ := filing.list_of (.reuse state.reuseOffset)
  have detached := filing.detach members
  refine reuseLoop_filing arith now short ?_ sized nodup (follows.trail.congr fun _ _ => rfl) ?_
  · exact detached.congr rfl rfl rfl rfl rfl
  · intro bdi member
    obtain ⟨info, known, there⟩ := (members bdi).mp member
    rw [home] at there
    split at there
    · rename_i damped
      exact ⟨info, known, damped, keeps bdi info known damped (Head.reuse.inj there)⟩
    · exact nomatch there

end Timer

/-- The entries that are left are entries from before, on the lists they were on. -/
structure Fewer (state after : State) : Prop where
  left : ∀ {bdi info}, after.info bdi = some info →
    state.info bdi = some info ∧ after.home info = state.home info
  size : after.reuseListSize = state.reuseListSize

theorem Fewer.trans {state middle after} (first : Fewer state middle)
    (second : Fewer middle after) :
    Fewer state after := by
  refine ⟨fun found => ?_, second.size.trans first.size⟩
  obtain ⟨between, there⟩ := second.left found
  obtain ⟨before, here⟩ := first.left between
  exact ⟨before, there.trans here⟩

section Clean
variable {state : State} {head : Head}
variable (filing : state.Filing [])
include filing

theorem bgpDampInfoFree_fewer {bdi : Bdi} {info} (known : state.info bdi = some info)
    (withdraw : Bool) :
    Fewer state (state.bgpDampInfoFree bdi withdraw) ∧
    (state.bgpDampInfoFree bdi withdraw).info bdi = none ∧
      (state.bgpDampInfoFree bdi withdraw).links = state.links.unlink (state.home info) bdi := by
  have released : ∀ unlinked : State, unlinked.info = state.info → unlinked.path = state.path →
      unlinked.reuseListSize = state.reuseListSize →
        Fewer state (unlinked.release bdi info withdraw) ∧
        (unlinked.release bdi info withdraw).info bdi = none := by
    intro unlinked infos paths size
    refine ⟨⟨fun {other others} found => ?_, size⟩, update_self ..⟩
    have apart : other ≠ bdi := by
      rintro rfl
      cases (update_self ..).symm.trans found
    have before : state.info other = some others := by
      rw [← infos]
      exact (update_of_ne apart ..).symm.trans found
    have path : (unlinked.release bdi info withdraw).path others.binfo =
        state.path others.binfo := by
      rw [← paths]
      exact update_of_ne (filing.binfo_ne known before apart) ..
    exact ⟨before, by rw [home, home, path]⟩
  rw [bgpDampInfoFree]
  simp only [known]
  split
  · rename_i damped
    obtain ⟨fewer, gone⟩ := released (state.bgpReuseListDelete bdi info) rfl rfl rfl
    refine ⟨fewer, gone, ?_⟩
    rw [home, if_pos damped]
    rfl
  · rename_i used
    obtain ⟨fewer, gone⟩ := released (state.bgpDampListDel bdi) rfl rfl rfl
    refine ⟨fewer, gone, ?_⟩
    rw [home, if_neg used]
    rfl

theorem bgpDampInfoFree_first {bdi} (first : state.links.head head = some bdi) (withdraw : Bool) :
    ∃ info, state.info bdi = some info ∧ state.home info = head ∧
      (state.bgpDampInfoFree bdi withdraw).links.head head = state.links.next bdi := by
  obtain ⟨nodes, follows, nodup, -, members⟩ := filing.list_of head
  have member := follows.first_mem first
  obtain ⟨info, known, there⟩ := (members bdi).mp member
  refine ⟨info, known, there, ?_⟩
  have prev : state.links.prev bdi = none := by
    cases nodes with
    | nil => exact nomatch member
    | cons top rest =>
      obtain rfl : top = bdi := some.inj (follows.1.symm.trans first)
      exact follows.2.1
  rw [(bgpDampInfoFree_fewer filing known withdraw).2.2, there]
  rw [(unlink_links state.links head (follows.next_ne nodup member)).2.2, if_pos ⟨prev, rfl⟩]

/-- The number of entries on a list. -/
def Holds (state : State) (head : Head) (count : Nat) : Prop :=
  ∃ nodes : List Bdi, nodes.Nodup ∧ nodes.length ≤ count ∧
    ∀ bdi info, state.info bdi = some info → state.home info = head → bdi ∈ nodes

theorem cleanLoop_filing {count} (holds : state.Holds head count) :
    (cleanLoop count (state.links.head head) state).Filing [] ∧
      Fewer state (cleanLoop count (state.links.head head) state) ∧
      ∀ bdi info, (cleanLoop count (state.links.head head) state).info bdi = some info →
        (cleanLoop count (state.links.head head) state).home info ≠ head := by
  induction count generalizing state with
  | zero =>
    obtain ⟨nodes, -, none, all⟩ := holds
    obtain rfl := length_eq_zero_iff.mp (le_zero.mp none)
    exact ⟨filing, ⟨fun found => ⟨found, rfl⟩, rfl⟩, fun bdi info found there =>
      absurd (all bdi info found there) not_mem_nil⟩
  | succ count ih =>
    cases first : state.links.head head with
    | none =>
      obtain ⟨nodes, follows, -, -, members⟩ := filing.list_of head
      refine ⟨filing, ⟨fun found => ⟨found, rfl⟩, rfl⟩, fun bdi info found there => ?_⟩
      have member := (members bdi).mpr ⟨info, found, there⟩
      cases nodes with
      | nil => exact nomatch member
      | cons top rest => cases first.symm.trans follows.1
    | some bdi =>
      obtain ⟨info, known, there, next⟩ := bgpDampInfoFree_first filing first true
      obtain ⟨fewer, gone, -⟩ := bgpDampInfoFree_fewer filing known true
      have fewerHolds : (state.bgpDampInfoFree bdi true).Holds head count := by
        obtain ⟨nodes, nodup, bound, all⟩ := holds
        have member := all bdi info known there
        refine ⟨nodes.erase bdi, nodup.erase bdi, ?_, fun other others found lies => ?_⟩
        · rw [length_erase_of_mem member]
          omega
        · obtain ⟨before, same⟩ := fewer.left found
          refine (nodup.mem_erase_iff).mpr ⟨?_, all other others before (same.symm.trans lies)⟩
          rintro rfl
          cases gone.symm.trans found
      rw [cleanLoop, ← next]
      obtain ⟨filed, rest, none⟩ := ih (filing.bgpDampInfoFree bdi true) fewerHolds
      exact ⟨filed, fewer.trans rest, none⟩

theorem cleanList_filing (head : Head) :
    (state.cleanList head).Filing [] ∧ Fewer state (state.cleanList head) ∧
      ∀ bdi info, (state.cleanList head).info bdi = some info →
      (state.cleanList head).home info ≠ head := by
  obtain ⟨nodes, -, nodup, short, members⟩ := filing.list_of head
  obtain ⟨filed, fewer, none⟩ := cleanLoop_filing filing
    ⟨nodes, nodup, short, fun bdi info found there => (members bdi).mpr ⟨info, found, there⟩⟩
  have empty : ∀ bdi, bdi ∈ [] ↔
      ∃ info, (cleanLoop state.fresh (state.links.head head) state).info bdi = some info ∧
      (cleanLoop state.fresh (state.links.head head) state).home info = head := fun bdi =>
    iff_of_false not_mem_nil fun ⟨info, found, there⟩ => none bdi info found there
  exact ⟨filed.detach empty, ⟨fewer.left, fewer.size⟩, none⟩

theorem cleanWheel_filing (count : Nat) :
    (state.cleanWheel count).Filing [] ∧ Fewer state (state.cleanWheel count) ∧
      ∀ bdi info, (state.cleanWheel count).info bdi = some info →
        ∀ index < count, state.home info ≠ .reuse index := by
  induction count with
  | zero => exact ⟨filing, ⟨fun found => ⟨found, rfl⟩, rfl⟩, fun _ _ _ index below => nomatch below⟩
  | succ count ih =>
    obtain ⟨before, fewer, none⟩ := ih
    have last : state.cleanWheel (count + 1) =
        (state.cleanWheel count).cleanList (.reuse count) := by
      rw [cleanWheel, range_succ, foldl_append]
      rfl
    rw [last]
    obtain ⟨filed, less, cleaned⟩ := cleanList_filing before (.reuse count)
    refine ⟨filed, fewer.trans less, fun bdi info found index below => ?_⟩
    obtain ⟨middle, same⟩ := less.left found
    rcases Nat.lt_succ_iff_lt_or_eq.mp below with small | rfl
    · exact none bdi info middle index small
    · rw [← (fewer.left middle).2, ← same]
      exact cleaned bdi info found

theorem bgpDampInfoClean_filing :
    state.bgpDampInfoClean.Filing [] ∧ (∀ bdi, state.bgpDampInfoClean.info bdi = none) := by
  have started : { state with reuseOffset := 0 }.Filing [] := filing.congr rfl rfl rfl rfl rfl
  obtain ⟨wheel, fewer, none⟩ := cleanWheel_filing started state.reuseListSize
  obtain ⟨filed, less, used⟩ := cleanList_filing wheel .noReuse
  refine ⟨filed, fun bdi => ?_⟩
  by_contra present
  obtain ⟨info, found⟩ := ne_none_iff_exists'.mp present
  obtain ⟨middle, same⟩ := less.left found
  obtain ⟨known, there⟩ := fewer.left middle
  have away := used bdi info found
  have unplaced := none bdi info middle
  rw [same, there, home] at away
  split at away
  · rename_i damped
    obtain ⟨low, high⟩ := filing.placed not_mem_nil known damped
    refine unplaced info.index.toNat (by omega) ?_
    rw [home, if_pos damped, Int.toNat_of_nonneg low]
  · exact away rfl

theorem Filing.heads (empty : ∀ bdi, state.info bdi = none) (head : Head) :
    state.links.head head = none := by
  obtain ⟨nodes, follows, -, -, members⟩ := filing.list_of head
  cases nodes with
  | nil => exact follows
  | cons top rest =>
    obtain ⟨info, known, -⟩ := (members top).mp mem_cons_self
    cases (empty top).symm.trans known

end Clean

/-- The fields that the operations on entries leave alone. -/
structure SameConfig (state after : State) : Prop where
  params : after.params = state.params
  size : after.reuseListSize = state.reuseListSize
  allocated : after.allocated = state.allocated
  tReuse : after.tReuse = state.tReuse
  enabled : after.enabled = state.enabled

namespace SameConfig
variable {state middle after : State}

theorem refl (state : State) : SameConfig state state :=
  ⟨rfl, rfl, rfl, rfl, rfl⟩

theorem trans (first : SameConfig state middle) (second : SameConfig middle after) :
    SameConfig state after :=
  ⟨second.params.trans first.params, second.size.trans first.size,
    second.allocated.trans first.allocated,
    second.tReuse.trans first.tReuse, second.enabled.trans first.enabled⟩

theorem of_middle (second : SameConfig middle after) (params : middle.params = state.params)
    (size : middle.reuseListSize = state.reuseListSize)
    (allocated : middle.allocated = state.allocated)
    (tReuse : middle.tReuse = state.tReuse) (enabled : middle.enabled = state.enabled) :
    SameConfig state after :=
  SameConfig.trans ⟨params, size, allocated, tReuse, enabled⟩ second

variable (state) (bdi : Bdi) (info : Info) (now : Int)

theorem bgpDampInfoFree (withdraw : Bool) :
    SameConfig state (state.bgpDampInfoFree bdi withdraw) := by
  rw [State.bgpDampInfoFree]
  split
  · exact refl state
  · split <;> exact ⟨rfl, rfl, rfl, rfl, rfl⟩

theorem bgpDampRemember (withdraw : Bool) :
    SameConfig state (state.bgpDampRemember bdi info withdraw now) := by
  rw [State.bgpDampRemember]
  split
  · exact bgpDampInfoFree state bdi withdraw
  · exact ⟨rfl, rfl, rfl, rfl, rfl⟩

theorem bgpDampReuse : SameConfig state (state.bgpDampReuse bdi info now).1 := by
  rw [State.bgpDampReuse]
  split
  · exact bgpDampRemember state bdi info now false
  · split
    · exact SameConfig.of_middle (bgpDampRemember _ bdi _ now false) rfl rfl rfl rfl rfl
    · exact bgpDampRemember state bdi info now false

section
variable (arith : Arithmetic)

theorem bgpDampSuppress (lastPenalty : Option Nat) :
    SameConfig state (state.bgpDampSuppress arith bdi info lastPenalty now).1 := by
  rw [State.bgpDampSuppress]
  split
  · split <;> exact ⟨rfl, rfl, rfl, rfl, rfl⟩
  · split <;> exact ⟨rfl, rfl, rfl, rfl, rfl⟩

theorem bgpDampWithdraw (binfo : Binfo) (afi : Afi) (safi : Safi) (attrChange : Bool) :
    SameConfig state (state.bgpDampWithdraw arith binfo afi safi attrChange now).1 := by
  have charged : SameConfig state (state.bgpDampCharge arith binfo afi safi attrChange now).1 := by
    rw [bgpDampCharge]
    split <;> exact ⟨rfl, rfl, rfl, rfl, rfl⟩
  exact charged.trans (SameConfig.of_middle (bgpDampSuppress _ _ _ now arith _) rfl rfl rfl rfl rfl)

theorem bgpDampUpdate (binfo : Binfo) :
    SameConfig state (state.bgpDampUpdate arith binfo now).1 := by
  rw [State.bgpDampUpdate]
  split
  · exact refl state
  · exact SameConfig.of_middle (bgpDampReuse _ _ _ now) rfl rfl rfl rfl rfl

theorem bgpDampScan (binfo : Binfo) : SameConfig state (state.bgpDampScan arith binfo now) := by
  rw [State.bgpDampScan]
  split
  · exact refl state
  · split
    · split
      · exact ⟨rfl, rfl, rfl, rfl, rfl⟩
      · exact refl state
    · exact SameConfig.of_middle (bgpDampRemember _ _ _ now true) rfl rfl rfl rfl rfl

theorem reuseLoop (fuel : Nat) (first : Option Bdi) :
    SameConfig state (state.reuseLoop arith now fuel first) := by
  induction fuel generalizing state first with
  | zero => exact refl state
  | succ fuel ih =>
    cases first with
    | none => exact refl state
    | some bdi =>
      rw [reuseLoop]
      split
      · exact refl state
      · refine SameConfig.trans ?_ (ih _ _)
        rw [reuseEntry, reuseDecayed]
        split
        · split
          · exact SameConfig.of_middle (bgpDampInfoFree _ bdi true) rfl rfl rfl rfl rfl
          · exact ⟨rfl, rfl, rfl, rfl, rfl⟩
        · exact ⟨rfl, rfl, rfl, rfl, rfl⟩

end

theorem cleanList (head : Head) : SameConfig state (state.cleanList head) := by
  have loop : ∀ count first state, SameConfig state (cleanLoop count first state) := by
    intro count
    induction count with
    | zero => exact fun _ => refl
    | succ count ih =>
      intro first state
      cases first with
      | none => exact refl state
      | some bdi => exact (bgpDampInfoFree state bdi true).trans (ih _ _)
  exact (loop state.fresh _ state).trans ⟨rfl, rfl, rfl, rfl, rfl⟩

theorem bgpDampInfoClean : SameConfig state state.bgpDampInfoClean := by
  have wheel : ∀ indices : List Nat, ∀ state : State,
      SameConfig state
        (indices.foldl (fun state (index : Nat) => state.cleanList (.reuse index)) state) := by
    intro indices
    induction indices with
    | nil => exact refl
    | cons index rest ih => exact fun state => (cleanList state _).trans (ih _)
  have cleared :
      SameConfig state ({ state with reuseOffset := 0 }.cleanWheel state.reuseListSize) :=
    (wheel _ _).of_middle rfl rfl rfl rfl rfl
  exact cleared.trans (cleanList _ _)

end SameConfig

/-- What every step keeps: the entries are filed, and there are entries only while the one
family that has dampening owns the wheel. -/
structure Sound (state : State) : Prop where
  filing : state.Filing []
  single : ∀ {afi safi afi' safi'}, state.enabled afi safi = true →
    state.enabled afi' safi' = true →
    afi' = afi ∧ safi' = safi
  owned : state.allocated = true ↔ ∃ afi safi, state.enabled afi safi = true
  sized : state.allocated = true → 0 < state.reuseListSize
  timed : state.tReuse = true → state.allocated = true
  used : ∀ {bdi info}, state.info bdi = some info → state.allocated = true

theorem Sound.linked {state : State} (sound : state.Sound) : state.Linked := by
  obtain ⟨lists, filed, members⟩ := sound.filing.lists
  refine ⟨⟨lists, filed, fun head bdi => (members head bdi).trans (and_iff_right not_mem_nil)⟩, ?_⟩
  intro bdi info known damped
  exact ⟨sound.used known, sound.filing.placed not_mem_nil known damped⟩

theorem Sound.same {state after} (sound : state.Sound) (config : SameConfig state after)
    (allocated : state.allocated = true) (filing : after.Filing []) : after.Sound where
  filing := filing
  single one two := sound.single (config.enabled ▸ one) (config.enabled ▸ two)
  owned := by rw [config.allocated, config.enabled]; exact sound.owned
  sized _ := config.size ▸ sound.sized allocated
  timed _ := config.allocated.trans allocated
  used _ := config.allocated.trans allocated

/-- The timer does not find an entry to forget, what goes on the wheel has its list there, and
dampening is configured for one address family at a time. -/
def Meets (arith : Arithmetic) (state : State) : Op → Prop
  | .withdraw binfo _ _ attrChange now =>
      (state.path binfo).damped = true ∨
        state.params.suppressValue ≤ state.charged arith binfo attrChange now →
      arith.Slotted state.params (state.charged arith binfo attrChange now)
  | .reuseTimer now => ∀ bdi < state.fresh, ∀ info ∈ state.info bdi,
      (state.path info.binfo).damped = true →
      info.index = state.reuseOffset →
      state.Keeps arith (arith.decay state.params (now - info.tUpdated) info.penalty)
  | .enable afi safi _ => state.enabled afi safi = true ∨ ∀ afi safi, state.enabled afi safi = false
  | .disable afi safi => state.enabled afi safi = true ∨ state.reuseListSize = 0
  | _ => True

instance (enabled : Afi → Safi → Bool) : Decidable (∀ afi safi, enabled afi safi = false) :=
  decidable_of_iff ((∀ safi ∈ [Safi.unicast, .multicast, .mplsVpn], enabled .ip safi = false) ∧
      ∀ safi ∈ [Safi.unicast, .multicast, .mplsVpn], enabled .ip6 safi = false)
    ⟨fun both afi safi => by
      cases afi
      · exact both.1 safi (by cases safi <;> decide)
      · exact both.2 safi (by cases safi <;> decide),
    fun off => ⟨fun safi _ => off .ip safi, fun safi _ => off .ip6 safi⟩⟩

instance (arith : Arithmetic) (state : State) : (op : Op) → Decidable (state.Meets arith op)
  | .reuseTimer now => inferInstanceAs (Decidable (∀ bdi < state.fresh, ∀ info ∈ state.info bdi,
      (state.path info.binfo).damped = true → info.index = state.reuseOffset →
      state.Keeps arith (arith.decay state.params (now - info.tUpdated) info.penalty)))
  | .withdraw .. => inferInstanceAs (Decidable (_ ∨ _ → _))
  | .enable .. | .disable .. => inferInstanceAs (Decidable (_ ∨ _))
  | .update .. | .scan .. | .infoFree .. => .isTrue trivial

section Step
variable {state : State} (arith : Arithmetic)

theorem Sound.unallocated (sound : state.Sound) (off : ∀ afi safi, state.enabled afi safi = false) :
    state.allocated = false := by
  by_contra allocated
  obtain ⟨afi, safi, active⟩ := sound.owned.mp (by simpa using allocated)
  cases (off afi safi).symm.trans active

theorem bgpDampDisable_sound (sound : state.Sound) {afi : Afi} {safi}
    (meets : state.enabled afi safi = true ∨ state.reuseListSize = 0) :
    (state.bgpDampDisable afi safi).Sound ∧ ∀ afi' safi',
      (state.bgpDampDisable afi safi).enabled afi' safi' = false := by
  have started : { state with tReuse := false }.Filing [] := sound.filing.congr rfl rfl rfl rfl rfl
  obtain ⟨cleaned, empty⟩ := bgpDampInfoClean_filing started
  have config := SameConfig.bgpDampInfoClean { state with tReuse := false }
  have off : ∀ afi' safi', (state.bgpDampDisable afi safi).enabled afi' safi' = false := by
    intro afi' safi'
    rw [bgpDampDisable, setEnabled]
    dsimp only
    split
    · rfl
    · rename_i other
      rw [config.enabled]
      by_contra active
      have active : state.enabled afi' safi' = true := by simpa using active
      rcases meets with own | unsized
      · exact other (sound.single own active)
      · exact absurd unsized (ne_of_gt (sound.sized (sound.owned.mpr ⟨afi', safi', active⟩)))
  refine ⟨⟨cleaned.congr rfl rfl rfl rfl rfl, ?_, ?_, ?_, ?_, ?_⟩, off⟩
  · intro afi₁ safi₁ afi₂ safi₂ active
    cases (off afi₁ safi₁).symm.trans active
  · refine iff_of_false (by simp [bgpDampDisable, setEnabled]) ?_
    rintro ⟨afi', safi', active⟩
    cases (off afi' safi').symm.trans active
  · exact fun allocated => absurd allocated (by simp [bgpDampDisable, setEnabled])
  · intro timer
    have none := config.tReuse
    cases none.symm.trans timer
  · intro bdi info known
    cases (empty bdi).symm.trans known

/-- A family is configured while none is: the new wheel is empty, and so was the old one. -/
theorem configure_sound (sound : state.Sound) (off : ∀ afi safi, state.enabled afi safi = false)
    (afi : Afi) (safi : Safi) (params : Params) :
    ({ (state.setEnabled afi safi true).bgpDampParameterSet params with
      tReuse := true }).Sound := by
  have unallocated := sound.unallocated off
  have empty : ∀ bdi, state.info bdi = none := by
    intro bdi
    by_contra present
    obtain ⟨info, known⟩ := ne_none_iff_exists'.mp present
    cases (sound.used known).symm.trans unallocated
  have enabled : ∀ {afi' safi'}, (state.setEnabled afi safi true).enabled afi' safi' = true →
      afi' = afi ∧ safi' = safi := by
    intro afi' safi' active
    by_contra other
    rw [setEnabled] at active
    dsimp only at active
    rw [if_neg other, off] at active
    exact nomatch active
  refine ⟨⟨⟨fun _ => [], ⟨fun head => ?_, fun _ => nodup_nil, fun here => nomatch here⟩, ?_⟩,
    ?_, sound.filing.held, sound.filing.flagged, ?_, ?_⟩, ?_, ?_, ?_, fun _ => rfl, fun _ => rfl⟩
  · cases head with
    | noReuse => exact sound.filing.heads empty .noReuse
    | reuse index => rfl
  · intro head bdi
    refine iff_of_false not_mem_nil ?_
    rintro ⟨-, info, known, -⟩
    cases (empty bdi).symm.trans known
  · exact sound.filing.owner
  · exact sound.filing.young
  · intro bdi info _ known
    cases (empty bdi).symm.trans known
  · intro afi₁ safi₁ afi₂ safi₂ one two
    obtain ⟨rfl, rfl⟩ := enabled one
    exact enabled two
  · refine iff_of_true rfl ⟨afi, safi, ?_⟩
    simp [bgpDampParameterSet, setEnabled]
  · intro _
    simp only [bgpDampParameterSet]
    split
    · decide
    · exact succ_pos _

theorem step_sound {op} (meets : state.Meets arith op) (sound : state.Sound) :
    (state.step arith op).Sound := by
  have wheel : ∀ {afi safi}, state.enabled afi safi = true →
      state.allocated = true ∧ 0 < state.reuseListSize := by
    intro afi safi active
    have allocated := sound.owned.mpr ⟨afi, safi, active⟩
    exact ⟨allocated, sound.sized allocated⟩
  cases op with
  | withdraw binfo afi safi attrChange now =>
    rw [step]
    split
    · rename_i active
      exact sound.same (SameConfig.bgpDampWithdraw state now arith binfo afi safi attrChange)
        (wheel active).1
        (sound.filing.bgpDampWithdraw arith (wheel active).2 binfo afi safi attrChange now meets)
    · exact sound
  | update binfo afi safi now =>
    rw [step]
    split
    · rename_i active
      exact sound.same (SameConfig.bgpDampUpdate state now arith binfo) (wheel active).1
        (sound.filing.bgpDampUpdate arith binfo now)
    · exact sound
  | scan binfo afi safi now =>
    rw [step]
    split
    · rename_i active
      exact sound.same (SameConfig.bgpDampScan state now arith binfo) (wheel active).1
        (sound.filing.bgpDampScan arith binfo now)
    · exact sound
  | reuseTimer now =>
    rw [step]
    split
    · rename_i active
      have allocated := sound.timed active
      have keeps := fun bdi info known => meets bdi (sound.filing.young known) info known
      refine sound.same ?_ allocated
        (bgpReuseTimer_filing arith now sound.filing (sound.sized allocated) keeps)
      exact SameConfig.of_middle (SameConfig.reuseLoop _ now arith _ _) rfl rfl rfl active.symm rfl
    · exact sound
  | infoFree bdi withdraw =>
    by_cases known : state.info bdi = none
    · have still : state.bgpDampInfoFree bdi withdraw = state := by rw [bgpDampInfoFree, known]
      rw [step, still]
      exact sound
    · obtain ⟨info, known⟩ := ne_none_iff_exists'.mp known
      exact sound.same (SameConfig.bgpDampInfoFree state bdi withdraw) (sound.used known)
        (sound.filing.bgpDampInfoFree bdi withdraw)
  | enable afi safi params =>
    rw [step, bgpDampEnable]
    split
    · exact sound
    · split
      · rename_i active
        obtain ⟨after, off⟩ := bgpDampDisable_sound sound (.inl active)
        exact configure_sound after off afi safi params
      · rename_i off
        exact configure_sound sound (meets.resolve_left off) afi safi params
  | disable afi safi => exact (bgpDampDisable_sound sound meets).1

theorem initial_sound : ({} : State).Sound where
  filing := ⟨⟨fun _ => [], ⟨fun _ => rfl, fun _ => nodup_nil, fun here => nomatch here⟩,
    fun _ _ => iff_of_false not_mem_nil (by simp)⟩, by simp, by simp, by simp, by simp, by simp⟩
  single active := nomatch active
  owned := by simp
  sized active := nomatch active
  timed active := nomatch active
  used known := nomatch known

/-- Whatever the calls, and whatever penalties and slots the arithmetic comes up with:
every entry is on its list once and nothing else is on a list, unless the reuse timer
forgets an entry, a penalty lies before the wheel or a second address family is configured. -/
theorem run_linked (ops : List Op) (run : Allowed (step arith) (Meets arith) {} ops) :
    (ops.foldl (step arith) {}).Linked :=
  (run.invariant (fun _ _ meets => step_sound arith meets) initial_sound).linked

end Step
end State

namespace Forgotten

/-- Suppressed at 1000 points or more, used again below that; the points decay in two steps. -/
def arith : Arithmetic where
  ceiling := fun _ => 12000
  decay := fun _ elapsed penalty => if elapsed < 100 then penalty
    else if elapsed < 200 then 600 else 0
  scaled := fun params penalty => (penalty : Int) - params.reuseLimit
  reuseIndex := fun _ place => place / 100

def params : Params :=
  { halfLife := 900, reuseLimit := 1000, suppressValue := 1000, maxSuppressTime := 3600 }

/-- One path is in use with a penalty, another is suppressed and forgotten by the timer. -/
def lost : List Op :=
  [.enable .ip .unicast params, .withdraw 1 .ip .unicast true 0, .withdraw 2 .ip .unicast false 0,
    .reuseTimer 300]

/-- The timer comes earlier, and the suppressed path is only used again. -/
def kept : List Op :=
  [.enable .ip .unicast params, .withdraw 1 .ip .unicast true 0, .withdraw 2 .ip .unicast false 0,
    .reuseTimer 100, .update 2 .ip .unicast 110, .disable .ip .unicast]

end Forgotten

/-- The timer takes the suppressed entry out of the wrong list, and the list of the paths
in use loses its head. -/
theorem run_loses_entry :
    ((Forgotten.lost.foldl (step Forgotten.arith) {}).info 0).isSome = true ∧
    (Forgotten.lost.foldl (step Forgotten.arith) {}).links.head .noReuse = none ∧
    ¬ (Forgotten.lost.foldl (step Forgotten.arith) {}).Linked := by
  have home : ((Forgotten.lost.foldl (step Forgotten.arith) {}).info 0).map
      (Forgotten.lost.foldl (step Forgotten.arith) {}).home = some .noReuse := by decide
  have none : (Forgotten.lost.foldl (step Forgotten.arith) {}).links.head .noReuse =
    none := by decide
  refine ⟨by decide, none, ?_⟩
  rintro ⟨⟨lists, filed, members⟩, -⟩
  obtain ⟨info, known, there⟩ := map_eq_some_iff.mp home
  have member := (members .noReuse 0).mpr ⟨info, known, there⟩
  have follows := filed.follows .noReuse
  rw [none] at follows
  cases found : lists .noReuse with
  | nil => cases found ▸ member
  | cons top rest =>
    rw [found] at follows
    cases follows.1

/-- The entry that is used again is in front of the other one. -/
theorem run_linked_kept :
    ((Forgotten.kept.take 5).foldl (step Forgotten.arith) {}).Linked ∧
    (Forgotten.kept.foldl (step Forgotten.arith) {}).Linked ∧
    ((Forgotten.kept.take 5).foldl (step Forgotten.arith) {}).links.head .noReuse = some 1 :=
  ⟨run_linked _ _ (by decide), run_linked _ _ (by decide), by decide⟩

end Zebra.Bgpd.Damp
