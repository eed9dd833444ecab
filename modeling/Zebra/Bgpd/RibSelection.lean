import Zebra.Base.Run
import Zebra.Bgpd.NodeInvariant

namespace Zebra.Bgpd
open Node Base List Flags Reselects Confined Bool Rib
section Calls
variable {bgp : Bgp} {cfg : DampConfig} {aggregates : List Bool} {node : Node} {account : Account}

theorem find?_mem {id ri} (found : node.find? id = some ri) : ri ∈ node.info ∧ ri.id = id := by
  refine ⟨mem_of_find?_eq_some found, ?_⟩
  simpa using find?_some found

theorem find?_absent {id} (missing : node.find? id = none) : id ∉ node.ids := by
  rw [mem_ids]
  rintro ⟨ri, member, rfl⟩
  simpa using find?_eq_none.mp missing ri member

theorem holddown_of_history {flags : Flags} (history : flags.history = true) :
    flags.holddown = true := by
  simp [holddown, history]

theorem holddown_of_damped {flags : Flags} (damped : flags.damped = true) :
    flags.holddown = true := by
  simp [holddown, damped]

theorem bgpRibRemove_sound (sound : Sound node) {id : PathId} (member : id ∈ node.ids) :
    Sound (bgpRibRemove bgp aggregates id (node, account)).1 := by
  simp only [bgpRibRemove]
  split
  · rename_i history
    exact sound.delete (sound.unselected (holddown_of_history history))
  · have reselected := Reselects.aggregateDecrement bgp aggregates id node
    have shaped := (reselected.sound sound).toShaped
    rw [ids, ← reselected.quiet.info] at member
    exact ((shaped.setValid id false).process bgp).delete fun _ =>
      shaped.invalid_unselected bgp member

theorem ribWithdrawTail_sound (shaped : Shaped node) {id} (member : id ∈ node.ids)
    (status : DampStatus) : Sound (ribWithdrawTail bgp id status node) := by
  have unselected := shaped.invalid_unselected bgp member
  have marked : Confined id ((node.setValid id false).process bgp) (if (node.flags id).valid then
      ((node.setValid id false).process bgp).setValid id true
        else (node.setValid id false).process bgp) := by
    split
    · exact setFlags _ id fun _ => rfl
    · exact refl id _
  have sound :=
    marked.sound_of_unselected ((shaped.setValid id false).process bgp) fun _ => unselected
  unfold ribWithdrawTail
  split
  · exact sound
  · exact sound.delete fun _ => marked.selected.trans unselected

theorem ribWithdrawDamped_sound (now : Int) (sound : Sound node) {id : PathId}
    (member : id ∈ node.ids) : Sound (ribWithdrawDamped bgp cfg now id node) := by
  have confined := dampWithdraw_confined cfg now id node false
  have damped := dampWithdraw_status cfg now id node false
  unfold ribWithdrawDamped
  split
  · rename_i after suppressed
    rw [suppressed] at confined damped
    have already : (node.flags id).damped = true := by
      by_contra undamped
      simp [undamped] at damped
    exact confined.sound_of_unselected sound (sound.unselected (holddown_of_damped already))
  · rename_i after status _ withdrawn
    rw [withdrawn] at confined
    rw [ids, ← confined.info] at member
    exact ribWithdrawTail_sound (confined.shaped sound.toShaped) member status

theorem bgpRibWithdraw_sound (now : Int) (force : Bool) (sound : Sound node) {id}
    (member : id ∈ node.ids) :
    Sound (bgpRibWithdraw bgp cfg aggregates now force id (node, account)).1 := by
  have counted : Reselects node
      (if !(node.flags id).history then node.aggregateDecrement bgp aggregates id else node) := by
    split
    · exact aggregateDecrement bgp aggregates id node
    · exact refl node
  have middle := counted.sound sound
  rw [ids, ← counted.quiet.info] at member
  simp only [bgpRibWithdraw]
  split
  · exact ribWithdrawDamped_sound now middle member
  · exact ribWithdrawTail_sound middle.toShaped member .none

theorem bgpWithdraw_sound (now : Int) (id : PathId) (sound : Sound node) :
    Sound (bgpWithdraw bgp cfg aggregates now id (node, account)).1 := by
  unfold bgpWithdraw
  split
  · exact sound
  · rename_i ri found
    split
    · exact sound
    · exact bgpRibWithdraw_sound now false sound (mem_map_of_mem (find?_mem found).1)

theorem updateReturned_sound (env : Environment) {id : PathId} (sound : Sound node)
    (history : (node.flags id).history = true) :
    Sound (updateReturned bgp cfg aggregates env id node) := by
  have after := (dampUpdate_confined cfg env.updateTime id node).sound_of_unselected sound
    (sound.unselected (holddown_of_history history))
  unfold updateReturned
  split
  · rename_i updated
    rwa [updated] at after
  · rename_i updated
    rw [updated] at after
    exact ((Reselects.aggregateIncrement bgp aggregates id _).shaped after.toShaped).process bgp

theorem updateSame_sound (env : Environment) (id : PathId) (sound : Sound node) :
    Sound (updateSame bgp cfg aggregates env id (node, account)).1 := by
  have unchanged : Sound (node.setFlags id fun f => { f with attrChanged := false }) :=
    sound.setFlags id (fun _ => rfl) fun _ => rfl
  simp only [updateSame]
  split
  · rename_i dampened
    exact updateReturned_sound env unchanged (and_eq_true_iff.mp dampened).2
  · split
    · exact unchanged.setFlags id (fun _ => rfl) fun _ => rfl
    · exact unchanged

theorem updateFinish_sound (env : Environment) (ri : BgpInfo) (shaped : Shaped node) :
    Sound (updateFinish bgp aggregates env ri node) := by
  have replaced := (shaped.replace (nexthopCheck bgp (bgp.peer ri.id.peer) env ri).2).setValid
    (nexthopCheck bgp (bgp.peer ri.id.peer) env ri).2.id
      (nexthopCheck bgp (bgp.peer ri.id.peer) env ri).1
  exact ((Reselects.aggregateIncrement bgp aggregates _ _).shaped replaced).process bgp

section
variable (cfg : DampConfig) (env : Environment) (node : Node) (id : PathId)

/-- The penalty of the path after the withdraw half of a change of attributes. -/
def changePenalty : Nat :=
  withdrawPenalty cfg env.withdrawTime true (node.damp id)

/-- The penalty left when the update half looks at it. -/
def leftPenalty : Nat :=
  cfg.decay (env.updateTime - env.withdrawTime) (changePenalty cfg env node id)

end

/-- A change of attributes that brings the selected path over the suppress limit,
and that dampening does not forgive at once. -/
def SuppressesSelected (bgp : Bgp) (cfg : DampConfig) (env : Environment) (id : PathId)
    (node : Node) : Prop :=
  dampConfigured bgp id = true ∧ (node.flags id).selected = true ∧
    cfg.suppressValue ≤ changePenalty cfg env node id ∧
      cfg.reuseLimit ≤ leftPenalty cfg env node id ∧
    cfg.reuseLimit < 2 * leftPenalty cfg env node id

instance (bgp : Bgp) (cfg : DampConfig) (env : Environment) (id : PathId) (node : Node) :
    Decidable (SuppressesSelected bgp cfg env id node) :=
  inferInstanceAs (Decidable (_ ∧ _))

section Change
variable (bgp : Bgp) (cfg : DampConfig) (aggregates : List Bool) (env : Environment) (id : PathId)
  (node : Node)

theorem changeMark_confined : Confined id node (changeMark bgp cfg env id node) := by
  unfold changeMark
  dsimp only
  split
  · refine trans ?_ (dampWithdraw_confined cfg env.withdrawTime id _ true)
    exact setFlags node id fun _ => rfl
  · exact setFlags node id fun _ => rfl

theorem changeMark_history (dampened : dampConfigured bgp id = true) :
    ((changeMark bgp cfg env id node).flags id).history = true := by
  unfold changeMark
  dsimp only
  split
  · rw [dampWithdraw_flags]
  · rename_i already
    simpa [dampened] using already

theorem changeMark_fresh (dampened : dampConfigured bgp id = true)
    (current : (node.flags id).history = false) :
    (changeMark bgp cfg env id node).flags id = { node.flags id with
      stale := false
      attrChanged := true
      history := true
      damped :=
        (node.flags id).damped || decide (cfg.suppressValue ≤ changePenalty cfg env node id) } ∧
    ∃ suppressTime, (changeMark bgp cfg env id node).damp id =
      some ⟨changePenalty cfg env node id, env.withdrawTime, suppressTime, .withdraw⟩ := by
  have marked : changeMark bgp cfg env id node = ((node.setFlags id fun f =>
      { f with stale := false, attrChanged := true }).dampWithdraw cfg env.withdrawTime
        true id).1 := by
    unfold changeMark
    simp [dampened, current]
  rw [marked]
  refine ⟨?_, dampWithdraw_damp cfg env.withdrawTime id _ true⟩
  rw [dampWithdraw_flags, setFlags_same]
  rfl

end Change

/-- The path after `bgp_damp_update`: still eligible, if it was selected and its
penalty has not reached the limits. -/
theorem changed_holddown {env id} {changed : Node}
    (damp : changed.damp = (changeMark bgp cfg env id node).damp)
    (lasting : (changed.flags id).lasting = ((changeMark bgp cfg env id node).flags id).lasting)
    (dampened : dampConfigured bgp id = true)
    (eligible : (node.flags id).holddown = false) (selected : (node.flags id).selected = true)
    (spared : ¬ SuppressesSelected bgp cfg env id node) :
    ((changed.dampUpdate cfg env.updateTime id).1.flags id).holddown = false := by
  simp only [holddown, or_eq_false_iff, not_eq_false'] at eligible
  obtain ⟨⟨valid, current⟩, undamped⟩ := eligible
  obtain ⟨marked, suppressTime, present⟩ := changeMark_fresh bgp cfg env id node dampened current
  rw [← damp] at present
  rw [marked] at lasting
  have keptValid : (changed.flags id).valid = true := (congrArg Flags.valid lasting).trans valid
  have keptDamped := congrArg damped lasting
  simp only [Flags.lasting, undamped, Bool.false_or] at keptDamped
  rw [dampUpdate_flags cfg env.updateTime id changed present]
  simp only [holddown, keptValid, keptDamped, Bool.not_true, Bool.false_or, Bool.and_eq_false_imp,
    Bool.and_eq_true, decide_eq_true_eq, decide_eq_false_iff_not]
  rintro ⟨heavy, kept⟩ remembered
  exact spared ⟨dampened, selected, heavy, kept, remembered⟩

theorem nexthopCheck_id (bgp : Bgp) (peer : Peer) (env : Environment) (ri : BgpInfo) :
    (nexthopCheck bgp peer env ri).2.id = ri.id := by
  unfold nexthopCheck
  split <;> rfl

theorem fresh_add_sound (ri : BgpInfo) (flags : Flags) {after} (sound : Sound node)
    (absent : ri.id ∉ node.ids) (unselected : flags.selected = false)
    (reselected : Reselects (node.fresh ri.id flags) after) : Sound (after.add ri) := by
  have freshSound := sound.fresh flags absent
  refine (reselected.sound freshSound).add ?_ ?_
  · rw [ids, reselected.quiet.info]
    exact absent
  · by_contra selected
    have contrary := reselected.held freshSound.toShaped ri.id (Or.inl absent)
      (by simpa using selected)
    rw [fresh_flags_same, unselected] at contrary
    cases contrary

section
variable (env : Environment)

/-- A selected path that dampening does not suppress stays eligible, and the other
paths are not touched. -/
theorem changed_eligible (ri : BgpInfo) (sound : Sound node)
    (member : ri.id ∈ node.ids) (dampened : dampConfigured bgp ri.id = true)
    (spared : ¬ SuppressesSelected bgp cfg env ri.id node) {changed : Node}
    (reselected : Reselects (changeMark bgp cfg env ri.id node) changed) :
    Sound ((changed.replace ri).dampUpdate cfg env.updateTime ri.id).1 := by
  have confined := changeMark_confined bgp cfg env ri.id node
  have shaped := confined.shaped sound.toShaped
  have updated := dampUpdate_confined cfg env.updateTime ri.id (changed.replace ri)
  refine ⟨updated.shaped ((reselected.shaped shaped).replace ri), fun other otherIn selected => ?_⟩
  rw [updated.info, replace_ids, reselected.quiet.info, confined.info] at otherIn
  by_cases same : other = ri.id
  · subst same
    rw [updated.selected] at selected
    have history := changeMark_history bgp cfg env ri.id node dampened
    have before := reselected.held shaped ri.id (Or.inr (holddown_of_history history)) selected
    rw [confined.selected] at before
    exact changed_holddown reselected.quiet.damp (reselected.quiet.lasting ri.id) dampened
      (sound.eligible _ member before) before spared
  · rw [updated.flags other same] at selected ⊢
    change (changed.flags other).holddown = false
    by_contra held
    rw [not_eq_false, reselected.quiet.holddown] at held
    have before := reselected.held shaped other (Or.inr held) selected
    rw [confined.flags other same] at before held
    rw [sound.eligible other otherIn before] at held
    cases held

theorem updateChanged_sound (ri : BgpInfo) (attrNew : Attr) (sound : Sound node)
    (member : ri.id ∈ node.ids) (spared : ¬ SuppressesSelected bgp cfg env ri.id node) :
    Sound (updateChanged bgp cfg aggregates env ri attrNew (node, account)).1 := by
  have reselected :=
    Reselects.aggregateDecrement bgp aggregates ri.id (changeMark bgp cfg env ri.id node)
  have shaped :=
    reselected.shaped ((changeMark_confined bgp cfg env ri.id node).shaped sound.toShaped)
  simp only [updateChanged]
  split
  · rename_i dampened
    have after :=
      changed_eligible env { ri with attr := attrNew } sound member dampened spared reselected
    unfold updateDamped
    split
    · rename_i updated
      rwa [updated] at after
    · rename_i updated
      rw [updated] at after
      exact updateFinish_sound env _ after.toShaped
  · exact updateFinish_sound env _ (shaped.replace _)

theorem updateNew_sound (id : PathId) (attrNew : Attr) (sound : Sound node)
    (absent : id ∉ node.ids) :
    Sound (updateNew bgp aggregates env id attrNew (node, account)).1 := by
  have named := nexthopCheck_id bgp (bgp.peer id.peer) env { id := id, attr := attrNew }
  simp only [updateNew]
  generalize nexthopCheck bgp (bgp.peer id.peer) env { id := id, attr := attrNew } =
    checked at named ⊢
  obtain ⟨valid, ri⟩ := checked
  obtain rfl : ri.id = id := named
  have added := fresh_add_sound ri { valid := valid } sound absent rfl
    (aggregateIncrement bgp aggregates ri.id _)
  split
  · exact added
  · exact added.toShaped.process bgp

/-- The updates that may leave a suppressed path selected are those that change its
attributes past the limits of dampening. -/
theorem bgpUpdate_sound (id : PathId) (attr : Attr) (sound : Sound node)
    (spared : ∀ ri attrNew, node.find? id = some ri →
      acceptUpdate bgp (bgp.peer id.peer) env attr = some attrNew →
      ri.attr.hashCmp attrNew = false →
      ¬ SuppressesSelected bgp cfg env id node) :
    Sound (bgpUpdate bgp cfg aggregates env id attr (node, account)).1 := by
  unfold bgpUpdate
  split
  · exact sound
  · rename_i ri found _
    exact bgpRibWithdraw_sound env.withdrawTime true sound (mem_map_of_mem (find?_mem found).1)
  · rename_i attrNew missing _
    exact updateNew_sound env id attrNew sound (find?_absent missing)
  · rename_i ri attrNew found accepted
    obtain ⟨member, rfl⟩ := find?_mem found
    split
    · exact updateSame_sound env ri.id sound
    · rename_i changed
      exact updateChanged_sound env ri attrNew sound (mem_map_of_mem member)
        (spared ri attrNew found accepted (by simpa using changed))

end

theorem clearRouteNode_sound (nsf : Bool) (peer : PeerId) (sound : Sound node) :
    Sound (clearRouteNode bgp aggregates nsf peer (node, account)).1 := by
  unfold clearRouteNode
  split
  · exact sound
  · rename_i ri found
    dsimp only
    split
    · exact sound.setFlags ri.id (fun _ => rfl) fun _ => rfl
    · exact bgpRibRemove_sound sound (mem_map_of_mem (mem_of_find?_eq_some found))

theorem clearStaleNode_sound (peer : PeerId) (sound : Sound node) :
    Sound (clearStaleNode bgp aggregates peer (node, account)).1 := by
  unfold clearStaleNode
  split
  · exact sound
  · rename_i ri found
    split
    · exact bgpRibRemove_sound sound (mem_map_of_mem (mem_of_find?_eq_some found))
    · exact sound

theorem aggregateRemove_sound (sound : Sound node) : Sound (aggregateRemove bgp node) := by
  unfold aggregateRemove
  split
  · exact sound
  · rename_i ri found
    exact ((sound.toShaped.setValid ri.id false).process bgp).delete fun _ =>
      sound.toShaped.invalid_unselected bgp (mem_map_of_mem (find?_mem found).1)

theorem aggregateRemove_absent : aggregateId bgp ∉ (aggregateRemove bgp node).ids := by
  unfold aggregateRemove
  split
  · rename_i missing
    exact find?_absent missing
  · rename_i ri found
    rw [delete_ids, (find?_mem found).2]
    exact fun member => member.2 rfl

theorem aggregateReplace_sound (attr : Option Attr) (sound : Sound node) :
    Sound (aggregateReplace bgp attr node) := by
  cases attr with
  | none => exact aggregateRemove_sound sound
  | some attr =>
    have added := fresh_add_sound { id := aggregateId bgp, attr := attr } { valid := true }
      (aggregateRemove_sound sound) aggregateRemove_absent rfl (refl _)
    exact added.toShaped.process bgp

end Calls

namespace Rib
variable {Key : Type} [DecidableEq Key]

/-- The invariant holds at every node. -/
def Sound (rib : Rib Key) : Prop :=
  ∀ entry ∈ rib.nodes, entry.2.Sound

theorem storeNode_forall {Holds : Node → Prop} {nodes : List (Key × Node)} {key : Key} {node : Node}
    (stored : ∀ entry ∈ nodes, Holds entry.2) (new : Holds node) :
    ∀ entry ∈ storeNode key node nodes, Holds entry.2 := by
  induction nodes with
  | nil =>
    intro entry member
    rw [mem_singleton.mp member]
    exact new
  | cons first rest ih =>
    have restStored := fun entry member => stored entry (mem_cons_of_mem first member)
    simp only [storeNode]
    split
    · exact forall_mem_cons.mpr ⟨new, restStored⟩
    · exact forall_mem_cons.mpr ⟨stored first (mem_cons_self ..), ih restStored⟩

theorem storeNode_sum {Sum : Type} [AddCommMonoid Sum] (rib : Rib Key) (key : Key) (after : Node)
    (count : Node → Sum) (empty : count {} = 0) :
    ((storeNode key after rib.nodes).map fun entry => count entry.2).sum + count (rib.node key) =
      (rib.nodes.map fun entry => count entry.2).sum + count after := by
  obtain ⟨nodes, accounts⟩ := rib
  rw [Rib.node]
  induction nodes with
  | nil => simp [storeNode, empty]
  | cons first rest ih =>
    by_cases here : first.1 = key
    · simp only [storeNode, here, ↓reduceIte, map_cons, sum_cons, find?_cons, decide_true,
        Option.map_some, Option.getD_some]
      rw [add_comm, add_comm (count after), add_assoc]
    · simp only [storeNode, here, ↓reduceIte, map_cons, sum_cons, find?_cons, decide_false] at ih ⊢
      rw [add_assoc, ih, add_assoc]

omit [DecidableEq Key] in
theorem walkNodes_forall {Holds : Node → Prop} {peer : PeerId} {call : Key → Local → Local}
    (kept : ∀ key node account, Holds node → Holds (call key (node, account)).1)
    (nodes : List (Key × Node)) (account : Account) (stored : ∀ entry ∈ nodes, Holds entry.2) :
    ∀ entry ∈ (walkNodes peer call nodes account).1, Holds entry.2 := by
  induction nodes generalizing account with
  | nil => exact stored
  | cons first rest ih =>
    have restStored := fun entry member => stored entry (mem_cons_of_mem first member)
    exact forall_mem_cons.mpr
      ⟨kept first.1 first.2 account (stored first (mem_cons_self ..)), ih _ restStored⟩

theorem Sound.node {rib : Rib Key} (sound : rib.Sound) (key : Key) : (rib.node key).Sound := by
  unfold Rib.node
  cases found : rib.nodes.find? fun entry => entry.1 = key with
  | none => exact empty_sound
  | some entry => exact sound entry (mem_of_find?_eq_some found)

theorem Sound.onNode {rib : Rib Key} (sound : rib.Sound) {key : Key} {peer : PeerId}
    {call : Local → Local}
    (kept : (call (rib.node key, rib.accounts peer)).1.Sound) : (rib.onNode key peer call).Sound :=
  storeNode_forall sound kept

/-- An update that changes the attributes of the selected path past the limits of
dampening. -/
def DampsSelected (bgp : Bgp) (cfg : DampConfig) (rib : Rib Key) : Op Key → Prop
  | .update key id attr env =>
    ((rib.node key).find? id).any (fun ri =>
      (acceptUpdate bgp (bgp.peer id.peer) env attr).any fun attrNew => !ri.attr.hashCmp attrNew) =
        true ∧
    SuppressesSelected bgp cfg env id (rib.node key)
  | _ => False

instance (bgp : Bgp) (cfg : DampConfig) (rib : Rib Key) :
    (op : Op Key) → Decidable (rib.DampsSelected bgp cfg op)
  | .update .. => inferInstanceAs (Decidable (_ ∧ _))
  | .withdraw .. | .clearRoute .. | .clearStale .. | .aggregateChanged .. | .aggregateReplace .. =>
    .isFalse id

section Run
variable {bgp : Bgp} {cfg : DampConfig} {aggregates : Key → List Bool}

theorem step_sound {rib : Rib Key} (op : Op Key) (spared : ¬ rib.DampsSelected bgp cfg op)
    (sound : rib.Sound) :
    (rib.step bgp cfg aggregates op).Sound := by
  cases op with
  | update key id attr env =>
    refine sound.onNode (bgpUpdate_sound env id attr (sound.node key) ?_)
    intro ri attrNew found accepted changed suppresses
    exact spared ⟨by simp [found, accepted, changed], suppresses⟩
  | withdraw key id now => exact sound.onNode (bgpWithdraw_sound now id (sound.node key))
  | clearRoute peer nsf =>
    exact walkNodes_forall (fun _ _ _ => clearRouteNode_sound nsf peer) _ _ sound
  | clearStale peer => exact walkNodes_forall (fun _ _ _ => clearStaleNode_sound peer) _ _ sound
  | aggregateChanged key summaryOnly =>
    exact sound.onNode (((Reselects.aggregateDelete bgp summaryOnly _).trans
      (aggregateRoute bgp none none summaryOnly _)).sound (sound.node key))
  | aggregateReplace key attr => exact sound.onNode (aggregateReplace_sound attr (sound.node key))

/-- At most one path of a node is selected; it is valid and neither damped nor
history, and what is announced is the selected path. -/
def SelectedEligible (rib : Rib Key) : Prop :=
  ∀ key, SelectedOnce (rib.node key).info (rib.node key).flags ∧
    (∀ ri ∈ (rib.node key).info, ((rib.node key).flags ri.id).selected = true →
      ((rib.node key).flags ri.id).valid = true ∧ ((rib.node key).flags ri.id).damped = false ∧
        ((rib.node key).flags ri.id).history = false) ∧
    ∀ id, (rib.node key).announced = some id →
      id ∈ (rib.node key).info.map BgpInfo.id ∧ ((rib.node key).flags id).selected = true

theorem Sound.selectedEligible {rib : Rib Key} (sound : rib.Sound) : rib.SelectedEligible := by
  intro key
  have node := sound.node key
  refine ⟨node.once, fun ri member selected => ?_, fun id => (node.announces id).mp⟩
  have eligible := node.eligible ri.id (mem_map_of_mem member) selected
  simp only [holddown, or_eq_false_iff, not_eq_false'] at eligible
  exact ⟨eligible.1.1, eligible.2, eligible.1.2⟩

/-- Whatever calls come in, from an empty RIB on: the selected path is one that
dampening does not suppress, unless an update changes the attributes of the selected
path past the limits of dampening. -/
theorem run_selected_eligible (ops : List (Op Key))
    (run : Allowed (step bgp cfg aggregates)
      (fun rib op => ¬ rib.DampsSelected bgp cfg op) {} ops) :
    (Rib.run bgp cfg aggregates {} ops).SelectedEligible := by
  apply Sound.selectedEligible
  exact run.invariant (fun _ op spared => step_sound op spared) (by intro _ member; cases member)

end Run
end Rib

namespace Flapping

def bgp : Bgp where
  as := 65000
  dampening := true
  peer := fun _ => { as := 100, localAs := 65000, remoteId := 1, suRemote := .inet 1 }
  peerSelf := 9

/-- The default limits, with no time passing between the calls. -/
def cfg : DampConfig where
  suppressValue := 2000
  reuseLimit := 750
  ceiling := 12000
  decay := fun _ penalty => penalty

def env : Environment where
  inputFilter := fun _ => true
  inputModifier := some
  nexthopCheckEbgp := fun _ => true
  nexthopSelf := fun _ => false
  nexthopLookup := fun _ => (true, 0)
  withdrawTime := 0
  updateTime := 0

def id : PathId := ⟨0, 9, .normal⟩

/-- The same route with another MED. -/
def update (med : BitVec 32) : Op Unit :=
  .update () id { ({ aspath := some ⟨[2, 1, 0, 100]⟩, med := med } : Attr).mark .multiExitDisc with
    nexthop := 1 } env

end Flapping

/-- Four changes of attributes reach the suppress limit: the path becomes damped and
stays selected and announced. -/
theorem run_selects_damped :
    ¬ (run Flapping.bgp Flapping.cfg (fun _ => []) {}
      [Flapping.update 1, Flapping.update 2, Flapping.update 3, Flapping.update 4,
        Flapping.update 5]).SelectedEligible := by
  intro always
  have eligible := (always ()).2.1
  revert eligible
  decide

/-- Three changes leave it eligible. -/
theorem run_selected_eligible_three :
    (run Flapping.bgp Flapping.cfg (fun _ => []) {}
      [Flapping.update 1, Flapping.update 2, Flapping.update 3,
        Flapping.update 4]).SelectedEligible :=
  run_selected_eligible _ (by decide)

end Zebra.Bgpd
