import Zebra.Bgpd.Rib

namespace Zebra.Bgpd
open List Flags
namespace Node

abbrev ids (node : Node) : List PathId := node.info.map BgpInfo.id

/-- What every step of a call keeps. -/
structure Shaped (node : Node) : Prop where
  distinct : (node.info.map BgpInfo.id).Nodup
  once : SelectedOnce node.info node.flags
  announces : ∀ id, node.announced = some id ↔
    id ∈ node.info.map BgpInfo.id ∧ (node.flags id).selected = true

/-- What holds between calls. -/
structure Sound (node : Node) : Prop extends Shaped node where
  eligible : ∀ id ∈ node.info.map BgpInfo.id, (node.flags id).selected = true →
    (node.flags id).holddown = false

/-- Nothing but the SELECTED, ATTR_CHANGED and deterministic-med marks differs. -/
structure Quiet (node after : Node) : Prop where
  info : after.info = node.info
  damp : after.damp = node.damp
  lasting : ∀ id, (after.flags id).lasting = (node.flags id).lasting

theorem Quiet.refl (node : Node) : Quiet node node := ⟨rfl, rfl, fun _ => rfl⟩

theorem Quiet.trans {node middle after} (first : Quiet node middle) (second : Quiet middle after) :
    Quiet node after :=
  ⟨second.info.trans first.info, second.damp.trans first.damp,
    fun id => (second.lasting id).trans (first.lasting id)⟩

theorem Quiet.holddown {node after} (quiet : Quiet node after) (id : PathId) :
    (after.flags id).holddown = (node.flags id).holddown :=
  holddown_eq_of_lasting (quiet.lasting id)

theorem mem_ids {node : Node} {id} : id ∈ node.ids ↔ ∃ ri ∈ node.info, ri.id = id := mem_map

section
variable (node : Node) (id : PathId) (change : Flags → Flags)

@[simp] theorem setFlags_info : (node.setFlags id change).info = node.info := rfl

@[simp] theorem setFlags_damp : (node.setFlags id change).damp = node.damp := rfl

@[simp] theorem setFlags_same : (node.setFlags id change).flags id = change (node.flags id) :=
  FlagMap.modify_same ..

end

theorem setFlags_other (node : Node) {id other} (change : Flags → Flags) (apart : other ≠ id) :
    (node.setFlags id change).flags other = node.flags other :=
  if_neg apart

theorem setFlags_congr {Value : Type} (node : Node) (id other : PathId) {change}
    (property : Flags → Value) (keeps : ∀ f, property (change f) = property f) :
    property ((node.setFlags id change).flags other) = property (node.flags other) := by
  by_cases same : other = id
  · subst same
    rw [setFlags_same, keeps]
  · rw [setFlags_other _ _ same]

section Shaped
variable {node : Node}

theorem empty_sound : Sound ({} : Node) where
  distinct := nodup_nil
  once := by intro _ member; cases member
  announces := by simp
  eligible := by simp

section
variable (shaped : Shaped node)
include shaped

theorem Shaped.congr {after} (info : after.info.map BgpInfo.id = node.info.map BgpInfo.id)
    (selected : ∀ id, (after.flags id).selected = (node.flags id).selected)
    (announced : after.announced = node.announced)
    (inside : ∀ ri ∈ after.info, ∀ other ∈ after.info,
      ri.id = other.id → ri = other) : Shaped after where
  distinct := info ▸ shaped.distinct
  once first firstIn second secondIn firstSelected secondSelected := by
    rw [selected] at firstSelected secondSelected
    have firstId : first.id ∈ node.info.map BgpInfo.id := info ▸ mem_map_of_mem firstIn
    have secondId : second.id ∈ node.info.map BgpInfo.id := info ▸ mem_map_of_mem secondIn
    have firstAnnounced := (shaped.announces first.id).mpr ⟨firstId, firstSelected⟩
    have secondAnnounced := (shaped.announces second.id).mpr ⟨secondId, secondSelected⟩
    exact inside first firstIn second secondIn
      (Option.some.inj (firstAnnounced.symm.trans secondAnnounced))
  announces id := by rw [announced, shaped.announces, info, selected]

theorem Shaped.unique : ∀ ri ∈ node.info, ∀ other ∈ node.info, ri.id = other.id → ri = other :=
  fun _ riIn _ otherIn => id_eq_of_nodup shaped.distinct riIn otherIn

theorem Shaped.setFlags (id : PathId) {change}
    (keeps : ∀ f, (change f).selected = f.selected) : Shaped (node.setFlags id change) :=
  shaped.congr rfl (fun other => setFlags_congr node id other selected keeps) rfl shaped.unique

theorem Shaped.setValid (id : PathId) (valid : Bool) : Shaped (node.setValid id valid) :=
  shaped.setFlags id fun _ => rfl

end

theorem replace_ids (node : Node) (ri : BgpInfo) :
    (node.replace ri).info.map BgpInfo.id = node.info.map BgpInfo.id := by
  simp only [replace, map_map]
  apply map_congr_left
  intro other _
  simp only [Function.comp]
  split
  · rename_i same
    exact same.symm
  · rfl

theorem Shaped.replace (shaped : Shaped node) (ri : BgpInfo) : Shaped (node.replace ri) := by
  refine shaped.congr (replace_ids node ri) (fun _ => rfl) rfl ?_
  have distinct : ((node.replace ri).info.map BgpInfo.id).Nodup := by
    rw [replace_ids]
    exact shaped.distinct
  exact fun _ firstIn _ secondIn => id_eq_of_nodup distinct firstIn secondIn

theorem delete_ids (node : Node) (id other : PathId) :
    other ∈ (node.delete id).ids ↔ other ∈ node.ids ∧ other ≠ id := by
  simp only [delete, setDamp, mem_map, mem_filter, decide_eq_true_eq]
  constructor
  · rintro ⟨ri, ⟨member, apart⟩, rfl⟩
    exact ⟨⟨ri, member, rfl⟩, apart⟩
  · rintro ⟨⟨ri, member, rfl⟩, apart⟩
    exact ⟨ri, ⟨member, apart⟩, rfl⟩

theorem Shaped.delete (shaped : Shaped node) {id}
    (unselected : id ∈ node.ids → (node.flags id).selected = false) :
    Shaped (node.delete id) where
  distinct := shaped.distinct.sublist (Sublist.map _ filter_sublist)
  once first firstIn second secondIn :=
    shaped.once first (mem_filter.mp firstIn).1 second (mem_filter.mp secondIn).1
  announces other := by
    rw [delete_ids]
    change node.announced = some other ↔ _ ∧ (node.flags other).selected = true
    rw [shaped.announces]
    constructor
    · rintro ⟨member, selected⟩
      refine ⟨⟨member, ?_⟩, selected⟩
      rintro rfl
      rw [unselected member] at selected
      cases selected
    · exact fun ⟨⟨member, _⟩, selected⟩ => ⟨member, selected⟩

theorem Sound.delete (sound : Sound node) {id}
    (unselected : id ∈ node.ids → (node.flags id).selected = false) :
    Sound (node.delete id) where
  toShaped := sound.toShaped.delete unselected
  eligible other member := sound.eligible other ((delete_ids node id other).mp member).1

theorem Sound.unselected (sound : Sound node) {id} (held : (node.flags id).holddown = true)
    (member : id ∈ node.ids) : (node.flags id).selected = false := by
  by_contra selected
  rw [sound.eligible id member (by simpa using selected)] at held
  cases held

theorem Shaped.add (shaped : Shaped node) {ri} (absent : ri.id ∉ node.ids)
    (unselected : (node.flags ri.id).selected = false) : Shaped (node.add ri) where
  distinct := nodup_cons.mpr ⟨absent, shaped.distinct⟩
  once first firstIn second secondIn firstSelected secondSelected := by
    have notNew : ∀ other ∈ (node.add ri).info, (node.flags other.id).selected = true →
        other ∈ node.info := by
      intro other otherIn selected
      rcases List.mem_cons.mp otherIn with rfl | later
      · rw [unselected] at selected
        cases selected
      · exact later
    exact shaped.once first (notNew first firstIn firstSelected) second
      (notNew second secondIn secondSelected) firstSelected secondSelected
  announces id := by
    change node.announced = some id ↔ id ∈ ri.id :: node.ids ∧ (node.flags id).selected = true
    rw [shaped.announces, mem_cons]
    constructor
    · exact fun ⟨member, selected⟩ => ⟨Or.inr member, selected⟩
    · rintro ⟨rfl | member, selected⟩
      · rw [unselected] at selected
        cases selected
      · exact ⟨member, selected⟩

theorem Sound.add (sound : Sound node) {ri} (absent : ri.id ∉ node.ids)
    (unselected : (node.flags ri.id).selected = false) : Sound (node.add ri) where
  toShaped := sound.toShaped.add absent unselected
  eligible id member selected := by
    rcases mem_cons.mp member with rfl | later
    · have contrary : (node.flags ri.id).selected = true := selected
      rw [unselected] at contrary
      cases contrary
    · exact sound.eligible id later selected

section
variable (bgp : Bgp)

theorem process_info (node : Node) : (node.process bgp).info = node.info := by
  unfold process
  split <;> rfl

theorem process_flags (node : Node) :
    (node.process bgp).flags = (bgpProcess bgp node.info node.flags).1 := by
  unfold process
  split <;> simp only [*]

theorem process_announced (shaped : Shaped node) :
    (node.process bgp).announced = (newSelect bgp node.info node.flags).map BgpInfo.id := by
  unfold process
  rcases bgpProcess_announcement bgp shaped.distinct shaped.once with
    ⟨new, newIn, chosen, selected, idle⟩ | ⟨old, changed⟩
  · split
    · rw [chosen]
      exact (shaped.announces new.id).mpr ⟨mem_map_of_mem newIn, selected⟩
    · rename_i ran
      rw [ran] at idle
      cases idle
  · split
    · rename_i ran
      rw [ran] at changed
      cases changed
    · rename_i ran
      rw [ran] at changed
      cases changed
      rfl

theorem process_quiet (node : Node) : Quiet node (node.process bgp) where
  info := process_info bgp node
  damp := by
    unfold process
    split <;> rfl
  lasting id := by
    rw [process_flags]
    exact bgpProcess_lasting bgp node.info node.flags id

theorem Shaped.process (shaped : Shaped node) : Sound (node.process bgp) := by
  have marks : ∀ ri ∈ node.info, ((node.process bgp).flags ri.id).selected =
      decide (newSelect bgp node.info node.flags = some ri) := by
    intro ri member
    rw [process_flags]
    exact bgpProcess_selected shaped.distinct shaped.once member
  refine ⟨⟨?_, ?_, ?_⟩, ?_⟩
  · rw [process_info]
    exact shaped.distinct
  · intro first firstIn second secondIn firstSelected secondSelected
    rw [process_info] at firstIn secondIn
    rw [marks first firstIn, decide_eq_true_eq] at firstSelected
    rw [marks second secondIn, decide_eq_true_eq, firstSelected] at secondSelected
    exact Option.some.inj secondSelected
  · intro id
    rw [process_announced bgp shaped, process_info, Option.map_eq_some_iff]
    constructor
    · rintro ⟨ri, chosen, rfl⟩
      have member := (newSelect_eligible shaped.distinct chosen).1
      exact ⟨mem_map_of_mem member, by rw [marks ri member, decide_eq_true chosen]⟩
    · rintro ⟨member, selected⟩
      obtain ⟨ri, riIn, rfl⟩ := mem_map.mp member
      rw [marks ri riIn, decide_eq_true_eq] at selected
      exact ⟨ri, selected, rfl⟩
  · intro id member selected
    rw [process_info] at member
    obtain ⟨ri, riIn, rfl⟩ := List.mem_map.mp member
    rw [marks ri riIn, decide_eq_true_eq] at selected
    rw [(process_quiet bgp node).holddown]
    exact (newSelect_eligible shaped.distinct selected).2

theorem Shaped.invalid_unselected (shaped : Shaped node) {id} (member : id ∈ node.ids) :
    (((node.setValid id false).process bgp).flags id).selected = false := by
  refine ((shaped.setValid id false).process bgp).unselected ?_ (by rwa [ids, process_info])
  rw [(process_quiet bgp _).holddown, Node.setValid, setFlags_same]
  rfl

end
end Shaped

/-- A step that at most runs selection again: it keeps both parts of the invariant
and selects no path that is held down or elsewhere. -/
structure Reselects (node after : Node) : Prop where
  quiet : Quiet node after
  shaped : Shaped node → Shaped after
  sound : Sound node → Sound after
  held : Shaped node → ∀ id, id ∉ node.info.map BgpInfo.id ∨ (node.flags id).holddown = true →
    (after.flags id).selected = true → (node.flags id).selected = true

namespace Reselects
variable {node after middle : Node}

theorem of_same (info : after.info = node.info) (damp : after.damp = node.damp)
    (announced : after.announced = node.announced)
    (selected : ∀ id, (after.flags id).selected = (node.flags id).selected)
    (lasting : ∀ id, (after.flags id).lasting = (node.flags id).lasting) :
    Reselects node after := by
  have shapes : Shaped node → Shaped after := fun shaped =>
    shaped.congr (by rw [info]) selected announced (info ▸ shaped.unique)
  refine ⟨⟨info, damp, lasting⟩, shapes, fun sound => ⟨shapes sound.toShaped, ?_⟩, ?_⟩
  · intro id member isSelected
    rw [holddown_eq_of_lasting (lasting id)]
    exact sound.eligible id (info ▸ member) (selected id ▸ isSelected)
  · exact fun _ id _ isSelected => selected id ▸ isSelected

theorem refl (node : Node) : Reselects node node :=
  ⟨Quiet.refl node, id, id, fun _ _ _ => id⟩

theorem addSuppress (node : Node) (id : PathId) (amount : Int) :
    Reselects node (node.addSuppress id amount) :=
  of_same rfl rfl rfl (fun _ => rfl) fun _ => rfl

theorem setFlags (node : Node) (id : PathId) {change}
    (selected : ∀ f, (change f).selected = f.selected)
    (lasting : ∀ f, (change f).lasting = f.lasting) :
    Reselects node (node.setFlags id change) :=
  of_same rfl rfl rfl (fun other => setFlags_congr node id other Flags.selected selected)
    fun other => setFlags_congr node id other Flags.lasting lasting

theorem trans (first : Reselects node middle) (second : Reselects middle after) :
    Reselects node after where
  quiet := first.quiet.trans second.quiet
  shaped := second.shaped ∘ first.shaped
  sound := second.sound ∘ first.sound
  held shaped id outside selected := by
    refine first.held shaped id outside (second.held (first.shaped shaped) id ?_ selected)
    rwa [first.quiet.info, first.quiet.holddown]

theorem foldl {Item : Type} {call : Node → Item → Node} (items : List Item)
    (each : ∀ node item, Reselects node (call node item)) (node : Node) :
    Reselects node (items.foldl call node) := by
  induction items generalizing node with
  | nil => exact refl node
  | cons item rest ih => exact (each node item).trans (ih _)

theorem foldl_fst {Item : Type} {call : Node × Bool → Item → Node × Bool} (items : List Item)
    (each : ∀ state item, Reselects state.1 (call state item).1) (state : Node × Bool) :
    Reselects state.1 (items.foldl call state).1 := by
  induction items generalizing state with
  | nil => exact refl state.1
  | cons item rest ih => exact (each state item).trans (ih _)

section
variable (bgp : Bgp)

theorem process (node : Node) : Reselects node (node.process bgp) where
  quiet := process_quiet bgp node
  shaped shaped := (shaped.process bgp).toShaped
  sound sound := sound.toShaped.process bgp
  held shaped id outside selected := by
    by_cases member : id ∈ node.ids
    · have held := outside.resolve_left fun absent => absent member
      have eligible := (shaped.process bgp).eligible id (by rwa [process_info]) selected
      rw [(process_quiet bgp node).holddown, held] at eligible
      cases eligible
    · rwa [process_flags, bgpProcess_other shaped.distinct shaped.once member] at selected

theorem processIf (state : Node × Bool) : Reselects state.1 (Node.processIf bgp state) := by
  obtain ⟨node, ran⟩ := state
  cases ran
  · exact refl node
  · exact process bgp node

theorem aggregateDelete (summaryOnly : Bool) (node : Node) :
    Reselects node (node.aggregateDelete bgp summaryOnly) := by
  unfold Node.aggregateDelete
  split
  · refine (foldl_fst node.info (fun state ri => ?_) (node, false)).trans (processIf bgp _)
    unfold aggregateDeleteStep
    split
    · dsimp only
      split
      · exact (addSuppress _ _ _).trans (setFlags _ _ (fun _ => rfl) fun _ => rfl)
      · exact addSuppress _ _ _
    · exact refl _
  · exact refl node

theorem aggregateRoute (rinew del : Option PathId) (summaryOnly : Bool) (node : Node) :
    Reselects node (node.aggregateRoute bgp rinew del summaryOnly) := by
  unfold Node.aggregateRoute
  split
  · have loop : Reselects node
        (Node.processIf bgp (node.info.foldl (aggregateRouteStep del) (node, false))) := by
      refine (foldl_fst node.info (fun state ri => ?_) (node, false)).trans (processIf bgp _)
      unfold aggregateRouteStep
      split
      · exact (addSuppress _ _ _).trans (setFlags _ _ (fun _ => rfl) fun _ => rfl)
      · exact refl _
    cases rinew with
    | none => exact loop
    | some id => exact loop.trans (addSuppress _ _ _)
  · exact refl node

theorem aggregateIncrement (aggregates : List Bool) (id : PathId) (node : Node) :
    Reselects node (node.aggregateIncrement bgp aggregates id) := by
  unfold Node.aggregateIncrement
  split
  · exact refl node
  · exact foldl aggregates (fun node summaryOnly =>
      (aggregateDelete bgp summaryOnly node).trans (aggregateRoute bgp _ _ summaryOnly _)) node

theorem aggregateDecrement (aggregates : List Bool) (id : PathId) (node : Node) :
    Reselects node (node.aggregateDecrement bgp aggregates id) :=
  foldl aggregates (fun node summaryOnly =>
    (aggregateDelete bgp summaryOnly node).trans (aggregateRoute bgp _ _ summaryOnly _)) node

end
end Reselects

/-- A step that touches one path only and does not move the SELECTED flag. -/
structure Confined (id : PathId) (node after : Node) : Prop where
  info : after.info = node.info
  announced : after.announced = node.announced
  flags : ∀ other, other ≠ id → after.flags other = node.flags other
  damp : ∀ other, other ≠ id → after.damp other = node.damp other
  selected : (after.flags id).selected = (node.flags id).selected

namespace Confined
variable {id : PathId} {node middle after : Node}

theorem refl (id : PathId) (node : Node) : Confined id node node :=
  ⟨rfl, rfl, fun _ _ => rfl, fun _ _ => rfl, rfl⟩

theorem trans (first : Confined id node middle) (second : Confined id middle after) :
    Confined id node after where
  info := second.info.trans first.info
  announced := second.announced.trans first.announced
  flags other apart := (second.flags other apart).trans (first.flags other apart)
  damp other apart := (second.damp other apart).trans (first.damp other apart)
  selected := second.selected.trans first.selected

theorem setFlags (node : Node) (id : PathId) {change}
    (keeps : ∀ f, (change f).selected = f.selected) :
    Confined id node (node.setFlags id change) where
  info := rfl
  announced := rfl
  flags _ apart := setFlags_other node _ apart
  damp _ _ := rfl
  selected := setFlags_congr node id id Flags.selected keeps

theorem setDamp (node : Node) (id : PathId) (damp : Option DampInfo) :
    Confined id node (node.setDamp id damp) where
  info := rfl
  announced := rfl
  flags _ _ := rfl
  damp _ apart := if_neg apart
  selected := rfl

section
variable (confined : Confined id node after)
include confined

theorem shaped (shaped : Shaped node) : Shaped after := by
  refine shaped.congr (by rw [confined.info]) (fun other => ?_) confined.announced
    (confined.info ▸ shaped.unique)
  by_cases same : other = id
  · subst same
    exact confined.selected
  · rw [confined.flags other same]

/-- The invariant survives if the touched path stays eligible or is not selected. -/
theorem sound (sound : Sound node)
    (touched : id ∈ node.ids → (node.flags id).selected = true →
      (after.flags id).holddown = false) : Sound after := by
  refine ⟨confined.shaped sound.toShaped, fun other member isSelected => ?_⟩
  rw [confined.info] at member
  by_cases same : other = id
  · subst same
    exact touched member (confined.selected ▸ isSelected)
  · rw [confined.flags other same] at isSelected ⊢
    exact sound.eligible other member isSelected

theorem sound_of_unselected (sound : Sound node)
    (unselected : id ∈ node.ids → (node.flags id).selected = false) : Sound after := by
  refine confined.sound sound fun member selected => ?_
  rw [unselected member] at selected
  cases selected

end
end Confined

theorem Sound.setFlags {node} (sound : Sound node) (id : PathId) {change}
    (selected : ∀ f, (change f).selected = f.selected)
    (holddown : ∀ f, (change f).holddown = f.holddown) :
    Sound (node.setFlags id change) := by
  refine (Confined.setFlags node id selected).sound sound fun member isSelected => ?_
  rw [setFlags_congr node id id Flags.holddown holddown]
  exact sound.eligible id member isSelected

section Dampening
variable (cfg : DampConfig) (now : Int) (id : PathId) (node : Node)

section
variable (attrChange : Bool)

theorem dampWithdraw_confined : Confined id node (node.dampWithdraw cfg now attrChange id).1 :=
  (Confined.setDamp node id _).trans (Confined.setFlags _ id fun _ => rfl)

theorem dampWithdraw_flags :
    (node.dampWithdraw cfg now attrChange id).1.flags id = { node.flags id with
      history := true
      damped := (node.flags id).damped ||
        decide (cfg.suppressValue ≤ withdrawPenalty cfg now attrChange (node.damp id)) } :=
  setFlags_same ..

theorem dampWithdraw_damp :
    ∃ suppressTime, (node.dampWithdraw cfg now attrChange id).1.damp id =
      some ⟨withdrawPenalty cfg now attrChange (node.damp id), now, suppressTime, .withdraw⟩ :=
  ⟨_, if_pos rfl⟩

theorem dampWithdraw_status :
    (node.dampWithdraw cfg now attrChange id).2 = if (node.flags id).damped then .suppressed
    else .used :=
  rfl

end

theorem dampInfoFree_confined : Confined id node (node.dampInfoFree id) :=
  (Confined.setDamp node id _).trans (Confined.setFlags _ id fun _ => rfl)

theorem dampUpdate_confined : Confined id node (node.dampUpdate cfg now id).1 := by
  unfold dampUpdate
  split
  · exact Confined.refl id node
  · dsimp only
    split
    · exact (Confined.setDamp node id _).trans (Confined.setFlags _ id fun _ => rfl)
    · exact dampInfoFree_confined id node

theorem dampUpdate_flags {bdi} (present : node.damp id = some bdi) :
    (node.dampUpdate cfg now id).1.flags id = { node.flags id with
      history := false
      damped := (node.flags id).damped &&
        decide (cfg.reuseLimit ≤ cfg.decay (now - bdi.tUpdated) bdi.penalty) &&
        decide (cfg.reuseLimit < 2 * cfg.decay (now - bdi.tUpdated) bdi.penalty) } := by
  unfold dampUpdate
  simp only [present]
  split
  · rename_i kept
    refine (setFlags_same ..).trans ?_
    simp only [decide_eq_true kept, Bool.and_true, Bool.not_and, setDamp, ← decide_not, not_lt]
    cases (node.flags id).damped <;> rfl
  · rename_i freed
    refine (setFlags_same ..).trans ?_
    simp only [decide_eq_false freed, Bool.and_false]
    rfl

end Dampening

theorem fresh_flags_other (node : Node) {id other} (flags : Flags) (apart : other ≠ id) :
    (node.fresh id flags).flags other = node.flags other :=
  if_neg apart

theorem fresh_flags_same (node : Node) (id : PathId) (flags : Flags) :
    (node.fresh id flags).flags id = flags :=
  if_pos rfl

theorem Sound.fresh {node} (sound : Sound node) {id} (flags : Flags)
    (absent : id ∉ node.ids) : Sound (node.fresh id flags) := by
  have kept : ∀ other ∈ node.ids, (node.fresh id flags).flags other = node.flags other :=
    fun other member => fresh_flags_other node flags fun same => absent (same ▸ member)
  refine ⟨⟨sound.distinct, ?_, ?_⟩, ?_⟩
  · intro first firstIn second secondIn
    rw [kept first.id (mem_map_of_mem firstIn), kept second.id (mem_map_of_mem secondIn)]
    exact sound.once first firstIn second secondIn
  · intro other
    change node.announced = some other ↔ other ∈ node.ids ∧ _
    rw [sound.announces]
    exact and_congr_right fun member => by rw [kept other member]
  · intro other member
    rw [kept other member]
    exact sound.eligible other member

end Node
end Zebra.Bgpd
