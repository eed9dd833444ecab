import Zebra.Zebrad.Selection

namespace Zebra.Zebrad
open Base Function Rib List Scene Surroundings

/-- A node as every call should leave it. -/
structure NodeGood (ribs : List Rib) : Prop where
  regular : ∀ rib ∈ ribs, rib.Regular
  settled : Scene.Settled ribs

/-- What the properties of a node look at. -/
def Rib.face (rib : Rib) : Octet × Octet × Bool × Bool × Nat :=
  (rib.type, rib.distance, rib.check .selected, rib.live, rib.nexthop.length)

section Face
variable {ribs others : List Rib} (same : ribs.map Rib.face = others.map Rib.face)
include same

theorem mem_of_face {rib} (member : rib ∈ ribs) : ∃ other ∈ others, other.face = rib.face := by
  have there : rib.face ∈ others.map face := same ▸ mem_map_of_mem member
  exact mem_map.mp there

theorem sign_of_face : ribs.map sign = others.map sign := by
  have sign (list : List Rib) :
      list.map sign = (list.map face).map fun face => (face.1, face.2.2.1) := by
    rw [map_map]
    rfl
  rw [sign, sign, same]

theorem NodeGood.congr (good : NodeGood others) : NodeGood ribs := by
  have faces {rib other : Rib} (face : other.face = rib.face) :
      other.type = rib.type ∧ other.distance = rib.distance ∧
      other.check .selected = rib.check .selected ∧ other.live = rib.live ∧
        other.nexthop.length = rib.nexthop.length := by
    simpa [Rib.face] using face
  refine ⟨fun rib member => ?_, ?_, fun rib member selected => ?_, fun rib member selected => ?_⟩
  · obtain ⟨other, there, face⟩ := mem_of_face same member
    obtain ⟨type, distance, -, -, length⟩ := faces face
    exact ⟨fun connect => distance ▸ (good.regular other there).connect (type.trans connect),
      length ▸ (good.regular other there).few⟩
  · rw [selectedCount_congr (sign_of_face same)]
    exact good.settled.lone
  · obtain ⟨other, there, face⟩ := mem_of_face same member
    obtain ⟨-, -, chosen, live, -⟩ := faces face
    exact live ▸ good.settled.live other there (chosen.trans selected)
  · obtain ⟨other, there, face⟩ := mem_of_face same member
    obtain ⟨type, distance, chosen, -, -⟩ := faces face
    have best := good.settled.best other there (chosen.trans selected)
    rw [← type, ← distance]
    split
    · rename_i connected
      obtain ⟨third, member, connect, live⟩ := connected
      obtain ⟨fourth, there, face⟩ := mem_of_face same member
      obtain ⟨type, -, -, alive, -⟩ := faces face
      rwa [if_pos ⟨fourth, there, type.trans connect, alive.trans live⟩] at best
    · rename_i unconnected
      rw [if_neg] at best
      · refine ⟨best.1, fun third member live finite => ?_⟩
        obtain ⟨fourth, there, face⟩ := mem_of_face same member
        obtain ⟨-, distance, -, alive, -⟩ := faces face
        rw [← distance] at finite ⊢
        exact best.2 fourth there (alive.trans live) finite
      · rintro ⟨fourth, there, connect, live⟩
        obtain ⟨third, member, face⟩ := mem_of_face same.symm there
        obtain ⟨type, -, -, alive, -⟩ := faces face
        exact unconnected ⟨third, member, type.trans connect, alive.trans live⟩

end Face

theorem NodeGood.finite {ribs} (good : NodeGood ribs) {rib} (member : rib ∈ ribs)
    (selected : rib.check .selected = true) : rib.distance ≠ distanceInfinity := by
  have best := good.settled.best rib member selected
  split at best
  · rw [(good.regular rib member).connect best]
    decide
  · exact lt_infinity.mp best.1

theorem NodeGood.handed {ribs rest} (good : NodeGood ribs) {del}
    (order : ribs.Perm (del.toList ++ rest)) : Handed rest del := by
  refine ⟨fun rib member => good.regular rib (order.mem_iff.mpr (mem_append_right _ member)), ?_,
    fun rib member selected => good.finite (order.mem_iff.mpr member) selected⟩
  rw [selectedCount, ← order.countP_eq]
  exact good.settled.lone

theorem Handed.cons {ribs del} (handed : Handed ribs del) {rib} (regular : rib.Regular)
    (unselected : rib.check .selected = false) : Handed (rib :: ribs) del := by
  refine ⟨forall_mem_cons.mpr ⟨regular, handed.regular⟩, ?_, fun other member selected => ?_⟩
  · have count := handed.lone
    rw [selectedCount, countP_append] at count ⊢
    rwa [countP_cons_of_neg (by simp [unselected])]
  · rcases mem_append.mp member with gone | own
    · exact handed.finite other (mem_append_left _ gone) selected
    · rcases mem_cons.mp own with rfl | old
      · exact absurd selected (by simp [unselected])
      · exact handed.finite other (mem_append_right _ old) selected

section Shows
variable {p : PrefixIpv4} (mirror : Mirror p)

theorem Mirror.shows_perm {ribs others} (order : ribs.Perm others) :
    mirror.shows ribs = mirror.shows others := by
  apply Bool.eq_iff_iff.mpr
  rw [shows, shows, any_eq_true, any_eq_true]
  simp only [order.mem_iff]

theorem Mirror.shows_cons {ribs rib} (unselected : rib.check .selected = false) :
    mirror.shows (rib :: ribs) = mirror.shows ribs := by
  simp [shows, unselected]

theorem Mirror.foldl_elsewhere {calls : List RibCall} (elsewhere : ∀ call ∈ calls, call.place ≠ p)
    (held : Bool) :
    calls.foldl mirror.apply held = held := by
  induction calls with
  | nil => rfl
  | cons call rest ih =>
    rw [foldl_cons, mirror.elsewhere held call (elsewhere call (by simp))]
    exact ih fun call member => elsewhere call (by simp [member])

end Shows

theorem withdraw_place (p : PrefixIpv4) (rib : Rib) :
    ∀ call ∈ (withdraw p rib).2, call.place = p := by
  rw [withdraw]
  split <;> simp [RibCall.place]

theorem announce_place (p : PrefixIpv4) (rib shown : Rib) :
    ∀ call ∈ announce p rib shown, call.place = p := by
  rw [announce]
  split <;> simp [RibCall.place]

theorem Scene.ribProcess_place (scene : Scene) (del : Option Rib) :
    ∀ call ∈ (scene.ribProcess del).2, call.place = scene.top := by
  have course := scene.ribProcess_course del
  generalize scene.ribProcess del = result at course
  cases course with
  | stays chosen there selected quiet outcome =>
    rcases outcome with rfl | ⟨-, rfl⟩
    · rintro _ ⟨⟩
    · intro call member
      rw [refreshCalls, append_assoc] at member
      rcases mem_append.mp member with lost | gained
      · exact withdraw_place _ _ call lost
      · exact announce_place _ _ _ call gained
  | moves =>
    intro call member
    rcases mem_append.mp member with lost | gained
    · rw [dropFib] at lost
      split at lost
      · exact withdraw_place _ _ call lost
      · split at lost
        · cases lost
        · rename_i fib found
          obtain ⟨rib, there, -⟩ := fibRib_some found
          rw [there] at lost
          exact withdraw_place _ _ call lost
    · cases select : selectRib scene.updated with
      | none => simp [select, takeSelect] at gained
      | some index =>
        rw [select, takeSelect] at gained
        cases there : (scene.dropFib scene.updated del).1[index]? with
        | none => simp [there] at gained
        | some rib =>
          rw [there] at gained
          exact announce_place _ _ _ call gained

def Good (table : RibTable) : Prop :=
  ∀ p, NodeGood (table p)

variable (kept : (Octet → Bool) → Prop)

/-- A call that keeps the RIB good, and the calls that it makes; `kept` says of which types
those may be that are followed. -/
structure Change (before after : RibTable) (calls : List RibCall) : Prop where
  good : Good after
  shows : ∀ p (mirror : Mirror p), kept mirror.keep →
    calls.foldl mirror.apply (mirror.shows (before p)) = mirror.shows (after p)

variable {kept}

theorem Change.none {table} (good : Good table) : Change kept table table [] :=
  ⟨good, fun _ _ _ => rfl⟩

theorem Change.trans {first second third calls more} (one : Change kept first second calls)
    (two : Change kept second third more) : Change kept first third (calls ++ more) :=
  ⟨two.good, fun p mirror fits => by
    rw [foldl_append, one.shows p mirror fits, two.shows p mirror fits]⟩

section NodeStep
variable {env : Surroundings} {table : RibTable} {p : PrefixIpv4} {comes : Rib → Prop}
variable {result : RibTable × List RibCall}

variable (kept env table p comes) in
/-- What a call does to its node: nothing, a change of a count, or ribs handed to
`rib_process`, which were there or come in. -/
inductive NodeStep : RibTable × List RibCall → Prop where
  | none : NodeStep (table, [])
  | counts {ribs : List Rib} (same : ribs.map face = (table p).map face) :
    NodeStep (update table p ribs, [])
  | processes {ribs del} (calls : List RibCall) (handed : Handed ribs del)
      (place : ∀ call ∈ calls, call.place = p)
      (told : ∀ mirror : Mirror p, kept mirror.keep →
        calls.foldl mirror.apply (mirror.shows (table p)) = mirror.shows (del.toList ++ ribs))
      (silent : ∀ q shown, .redistributeAdd q shown ∉ calls)
      (source : ∀ rib ∈ ribs, rib ∈ table p ∨ comes rib) :
      NodeStep ((env.process table p ribs del).1, calls ++ (env.process table p ribs del).2)

theorem NodeStep.change (step : NodeStep kept env table p comes result) (good : Good table) :
    Change kept table result.1 result.2 := by
  cases step with
  | none => exact .none good
  | counts same =>
    refine ⟨fun q => ?_, fun q mirror fits => ?_⟩ <;> dsimp only
    · by_cases own : q = p
      · subst own
        rw [update_self]
        exact (good q).congr same
      · rw [update_of_ne own]
        exact good q
    · by_cases own : q = p
      · subst own
        rw [update_self]
        exact (mirror.shows_congr (sign_of_face same)).symm
      · rw [update_of_ne own]
        rfl
  | @processes ribs del calls handed place told =>
    let scene : Scene := { env with table := update table p ribs, top := p }
    have node : scene.table scene.top = ribs := update_self ..
    have own : (env.process table p ribs del).1 p = (scene.ribProcess del).1 := update_self ..
    have handed : Handed (scene.table scene.top) del := by rwa [node]
    refine ⟨fun q => ?_, fun q mirror fits => ?_⟩
    · by_cases same : q = p
      · subst same
        rw [own]
        refine ⟨fun rib member => ?_, ribProcess_settled handed⟩
        exact regular_of_core (scene.ribProcess_current del).core handed.regular rib member
      · rw [env.process_other table same]
        exact good q
    · by_cases same : q = p
      · subst same
        have after := ribProcess_shows handed mirror
        rw [node] at after
        rw [foldl_append, told mirror fits, own]
        exact after
      · rw [env.process_other table same]
        apply mirror.foldl_elsewhere
        intro call member
        have here : call.place = p := by
          rcases mem_append.mp member with first | later
          · exact place call first
          · exact scene.ribProcess_place del call later
        rw [here]
        exact Ne.symm same

theorem NodeStep.other (step : NodeStep kept env table p comes result) {q} (apart : q ≠ p) :
    result.1 q = table q := by
  cases step with
  | none => rfl
  | counts => exact update_of_ne apart ..
  | processes => exact env.process_other table apart ..

/-- The ribs that are left have the types of those that were there or came in. -/
theorem NodeStep.types (step : NodeStep kept env table p comes result) (allowed : Octet → Prop)
    (old : ∀ rib ∈ table p, allowed rib.type) (new : ∀ rib, comes rib → allowed rib.type) :
    ∀ rib ∈ result.1 p, allowed rib.type := by
  intro rib member
  cases step with
  | none => exact old rib member
  | counts same =>
    dsimp only at member
    rw [update_self] at member
    obtain ⟨own, inside, face⟩ := mem_of_face same member
    have type : own.type = rib.type := congrArg Prod.fst face
    exact type ▸ old own inside
  | @processes ribs del calls handed place told silent source =>
    have there : rib.core ∈ ribs.map core :=
      env.process_core table p ribs del ▸ mem_map_of_mem member
    obtain ⟨own, inside, same⟩ := mem_map.mp there
    rw [← type_of_core same]
    exact (source own inside).elim (old own) (new own)

theorem lookup_update {ribs : List Rib} (filled : ribs ≠ []) (before : table p ≠ [])
    (nodes : List PrefixIpv4) :
    ({ env with table := update table p ribs, top := p } : Scene).lookup nodes =
      ({ env with table, top := p } : Scene).lookup nodes := by
  induction nodes with
  | nil => rfl
  | cons node rest ih =>
    rw [Scene.lookup.eq_def, Scene.lookup.eq_def]
    dsimp only
    rw [ih]
    by_cases same : node = p
    · subst same
      simp [filled, before]
    · simp only [update_of_ne same]

theorem steady_update {ribs : List Rib} {rib} (inside : rib ∈ ribs) (before : rib ∈ table p)
    (steady : ({ env with table, top := p } : Scene).Steady rib) :
    ({ env with table := update table p ribs, top := p } : Scene).Steady rib := by
  have reaches : Scene.reaches { env with table := update table p ribs, top := p } =
      Scene.reaches { env with table, top := p } := by
    funext internal nexthop
    rw [Scene.reaches, Scene.reaches, lookup_update (ne_nil_of_mem inside) (ne_nil_of_mem before)]
  rw [Scene.Steady, alive, reaches]
  exact steady

/-- A call announces only a rib that comes in, or one of the node that was not steady. -/
theorem NodeStep.announces (step : NodeStep kept env table p comes result) {q shown}
    (there : .redistributeAdd q shown ∈ result.2) : q = p ∧ ∃ rib : Rib, shown.type = rib.type ∧
      (comes rib ∨ rib ∈ table p ∧ ¬ ({ env with table, top := p } : Scene).Steady rib) := by
  cases step with
  | none => cases there
  | counts => cases there
  | @processes ribs del calls handed place told silent source =>
    have later := (mem_append.mp there).resolve_left (silent q shown)
    let scene : Scene := { env with table := update table p ribs, top := p }
    have node : scene.table scene.top = ribs := update_self ..
    have handed : Handed (scene.table scene.top) del := by rwa [node]
    obtain ⟨here, rib, member, core, unsteady⟩ := ribProcess_announces handed later
    rw [node] at member
    refine ⟨here, rib, type_of_core core, ?_⟩
    by_cases before : rib ∈ table p
    · exact .inr ⟨before, fun steady => unsteady (steady_update member before steady)⟩
    · exact .inl ((source rib member).resolve_left before)

end NodeStep

section Calls
variable {env : Surroundings} {table : RibTable} {p : PrefixIpv4}
variable {del : Option Rib} {rib other : Rib} {ribs before after : List Rib}

variable {comes : Rib → Prop}

section
variable (good : Good table) {rest : List Rib} (order : (table p).Perm (del.toList ++ rest))
include good order

theorem hand_step : NodeStep kept env table p comes (env.process table p rest del) :=
  .processes [] ((good p).handed order) nofun (fun mirror _ => mirror.shows_perm order) nofun
    fun _ member => .inl (order.mem_iff.mpr (mem_append_right _ member))

theorem add_step (regular : rib.Regular) (unselected : rib.check .selected = false)
    (new : comes rib) :
    NodeStep kept env table p comes (env.process table p (rib :: rest) del) := by
  refine .processes []
    (((good p).handed order).cons regular unselected) nofun (fun mirror _ => ?_) nofun
    (forall_mem_cons.mpr
      ⟨.inr new, fun _ member => .inl (order.mem_iff.mpr (mem_append_right _ member))⟩)
  rw [mirror.shows_append, mirror.shows_cons unselected, ← mirror.shows_append]
  exact mirror.shows_perm order

end

theorem found_perm {q index} (found : ribs.findIdx? q = some index) :
    ribs.Perm (ribs[index]?.toList ++ ribs.eraseIdx index) := by
  obtain ⟨spot⟩ := around found
  rw [spot.getElem?]
  exact spot.perm

theorem ribAddIpv4_step (good : Good table) {type flags distance gate ifindex metric}
    (regular : (env.newRib type flags gate ifindex metric distance).Regular)
    (unselected : (env.newRib type flags gate ifindex metric distance).check .selected = false)
    (new : type = routeConnect ∧ (table (applyMaskIpv4 p)).any (Rib.meets type ifindex) = true ∨
      comes (env.newRib type flags gate ifindex metric distance)) :
    NodeStep kept env table (applyMaskIpv4 p) comes
      (env.ribAddIpv4 table type flags p gate ifindex metric distance) := by
  rw [ribAddIpv4]
  split
  · rename_i missing
    refine add_step good (.refl _) regular unselected (new.resolve_left ?_)
    rintro ⟨-, there⟩
    exact absurd there (by simpa using findIdx?_eq_none_iff.mp missing)
  · rename_i index found
    split
    · apply NodeStep.counts
      apply map_modify
      intro rib
      rfl
    · rename_i other
      exact add_step good (found_perm found) regular unselected
        (new.resolve_left fun own => other own.1)

theorem ribAddIpv4Multipath_step (good : Good table)
    (regular : (env.defaultDistance rib).ownFib.Regular)
    (unselected : (env.defaultDistance rib).ownFib.check .selected = false)
    (new : comes (env.defaultDistance rib).ownFib) :
    NodeStep kept env table (applyMaskIpv4 p) comes (env.ribAddIpv4Multipath table p rib) := by
  rw [ribAddIpv4Multipath]
  split
  · exact add_step good (.refl _) regular unselected new
  · rename_i index found
    exact add_step good (found_perm found) regular unselected new

variable (kept) in
/-- A deletion of a kernel route that is not there takes no selected route away from those
who follow. -/
def KernelAware (table : RibTable) (type : Octet) (p : PrefixIpv4) (ifindex : BitVec 32) : Prop :=
  type = routeKernel → (table p).findIdx? (Rib.meets type ifindex) = none →
    ∀ rib ∈ table p, rib.check .selected = true → ∀ keep, kept keep → keep rib.type = false

theorem unselect_others (lone : selectedCount ribs ≤ 1) {index} (there : ribs[index]? = some rib)
    (selected : rib.check .selected = true) {f}
    (unselects : ∀ rib, (f rib).check .selected = false) :
    ∀ rib ∈ ribs.modify index f, rib.check .selected = false := by
  intro other member
  obtain ⟨place, at_place⟩ := mem_iff_getElem?.mp member
  rw [getElem?_modify] at at_place
  obtain ⟨old, found, rfl⟩ := Option.map_eq_some_iff.mp at_place
  split
  · exact unselects old
  · rename_i apart
    exact Bool.eq_false_iff.mpr fun chosen =>
      apart (selected_unique lone there found selected chosen)

theorem Handed.unselected (regular : ∀ rib ∈ ribs, rib.Regular)
    (idle : ∀ rib ∈ ribs, rib.check .selected = false) :
    Handed ribs none := by
  refine ⟨regular, ?_, fun rib member selected => ?_⟩
  · exact le_trans (le_of_eq (selectedCount_zero.mpr idle)) (Nat.zero_le 1)
  · exact absurd selected (by simp [idle rib member])

theorem ribDeleteIpv4_step (good : Good table) {type} {ifindex : BitVec 32}
    (aware : KernelAware kept table type (applyMaskIpv4 p) ifindex)
    (new : type = routeKernel → (table (applyMaskIpv4 p)).findIdx? (Rib.meets type ifindex) = none →
      ∀ old ∈ table (applyMaskIpv4 p), old.check .selected = true →
        comes ((old.setFib false).unsetFlag .selected)) :
    NodeStep kept env table (applyMaskIpv4 p) comes (env.ribDeleteIpv4 table type p ifindex) := by
  rw [ribDeleteIpv4]
  split
  · rename_i index found
    split
    · apply NodeStep.counts
      apply map_modify
      intro rib
      rfl
    · exact hand_step good (found_perm found)
  · rename_i missing
    split
    · exact .none
    · rename_i fib found
      split
      · rename_i kernel
        obtain ⟨rib, there, selected⟩ := fibRib_some found
        have node := good (applyMaskIpv4 p)
        have core (rib : Rib) : ((rib.setFib false).unsetFlag .selected).core = rib.core :=
          (core_unsetFlag_selected _).trans (rib.setFib_alike false).core
        have unselected : ∀ rib ∈ (table (applyMaskIpv4 p)).modify fib
            (fun rib => (rib.setFib false).unsetFlag .selected), rib.check .selected = false :=
          unselect_others node.settled.lone there selected (by simp)
        refine .processes []
          (.unselected (regular_of_core (map_modify core _ _) node.regular) unselected) nofun
          (fun mirror fits => ?_) nofun fun other member => ?_
        · have idle := aware kernel missing rib (mem_of_getElem? there) selected mirror.keep fits
          exact ((mirror.shows_lone node.settled.lone there selected).trans idle).trans
            (mirror.shows_none unselected).symm
        · obtain ⟨place, at_place⟩ := mem_iff_getElem?.mp member
          rw [getElem?_modify] at at_place
          obtain ⟨old, found, rfl⟩ := Option.map_eq_some_iff.mp at_place
          split
          · rename_i same
            cases (same ▸ there).symm.trans found
            exact .inr (new kernel missing rib (mem_of_getElem? there) selected)
          · exact .inl (mem_of_getElem? found)
      · exact .none

theorem ribUpdate_change (good : Good table) (order : List PrefixIpv4) :
    Change kept table (env.ribUpdate table order).1 (env.ribUpdate table order).2 := by
  induction order generalizing table with
  | nil => exact .none good
  | cons p rest ih =>
    have step : NodeStep kept env table p (fun _ => False) (env.process table p (table p) none) :=
      hand_step good (.refl _)
    have first := step.change good
    exact first.trans (ih first.good)

/-! A rib of the list that is taken out of the forwarding table and changed -/

theorem ribUninstall_unselected (p : PrefixIpv4) (rib : Rib) :
    (ribUninstall p rib).1.check .selected = false := by
  rw [ribUninstall]
  split
  · simp
  · rename_i idle
    exact Bool.eq_false_iff.mpr idle

theorem ribUninstall_place (p : PrefixIpv4) (rib : Rib) :
    ∀ call ∈ (ribUninstall p rib).2, call.place = p := by
  rw [ribUninstall]
  split
  · exact withdraw_place p rib
  · rintro _ ⟨⟩

theorem uninstall_told (good : NodeGood (before ++ rib :: after))
    (unselected : other.check .selected = false)
    (mirror : Mirror p) :
    (ribUninstall p rib).2.foldl mirror.apply (mirror.shows (before ++ rib :: after)) =
      mirror.shows (before ++ other :: after) := by
  have split_shows (middle : Rib) : mirror.shows (before ++ middle :: after) =
      (mirror.shows before || (mirror.shows [middle] || mirror.shows after)) := by
    rw [mirror.shows_append, ← singleton_append, mirror.shows_append]
  have idle : mirror.shows [other] = false := mirror.shows_none (by simpa using unselected)
  rw [ribUninstall]
  split
  · rename_i selected
    have place : (before ++ rib :: after)[before.length]? = some rib := by simp
    have count := good.settled.lone
    rw [selectedCount, countP_append, countP_cons, if_pos selected] at count
    have quiet : selectedCount before = 0 ∧ selectedCount after = 0 := by
      rw [selectedCount, selectedCount]
      omega
    rw [mirror.shows_lone good.settled.lone place selected, split_shows other, idle,
      mirror.shows_none (selectedCount_zero.mp quiet.1),
        mirror.shows_none (selectedCount_zero.mp quiet.2)]
    exact Scene.Mirror.lost_keep mirror (good.finite (by simp) selected)
  · rename_i resting
    have still : mirror.shows [rib] = false := mirror.shows_none (by simpa using resting)
    rw [split_shows rib, split_shows other, still, idle]
    rfl

theorem Handed.replaced (good : NodeGood (before ++ rib :: after)) (regular : other.Regular)
    (unselected : other.check .selected = false)
    (idle : ∀ rib ∈ del.toList, rib.check .selected = false) :
    Handed (before ++ other :: after) del := by
  refine ⟨fun third member => ?_, ?_, fun third member selected => ?_⟩
  · rcases mem_append.mp member with first | later
    · exact good.regular third (by simp [first])
    · rcases mem_cons.mp later with rfl | last
      · exact regular
      · exact good.regular third (by simp [last])
  · have count := good.settled.lone
    have none : del.toList.countP (fun rib => rib.check .selected) = 0 :=
      selectedCount_zero.mpr idle
    rw [selectedCount, countP_append, countP_cons] at count
    rw [selectedCount, countP_append, countP_append, countP_cons, if_neg (by simp [unselected])]
    omega
  · rcases mem_append.mp member with gone | own
    · exact absurd selected (by simp [idle third gone])
    · rcases mem_append.mp own with first | later
      · exact good.finite (by simp [first]) selected
      · rcases mem_cons.mp later with rfl | last
        · exact absurd selected (by simp [unselected])
        · exact good.finite (by simp [last]) selected

theorem ribUninstall_announces {p q : PrefixIpv4} {rib shown : Rib} :
    .redistributeAdd q shown ∉ (ribUninstall p rib).2 := by
  rw [ribUninstall]
  split
  · exact withdraw_announces
  · rintro ⟨⟩

theorem replace_step (good : Good table) (split : table p = before ++ rib :: after)
    (regular : other.Regular)
    (unselected : other.check .selected = false)
    (idle : ∀ rib ∈ del.toList, rib.check .selected = false) (new : comes other) :
    NodeStep kept env table p comes ((env.process table p (before ++ other :: after) del).1,
      (ribUninstall p rib).2 ++ (env.process table p (before ++ other :: after) del).2) := by
  have node := good p
  rw [split] at node
  refine .processes _ (.replaced node regular unselected idle) (ribUninstall_place p rib)
    (fun mirror _ => ?_)
    (fun _ _ => ribUninstall_announces) fun third member => ?_
  · rw [split, uninstall_told node unselected mirror, mirror.shows_append del.toList,
      mirror.shows_none idle, Bool.false_or]
  · rw [split]
    rcases mem_append.mp member with first | later
    · exact .inl (by simp [first])
    · rcases mem_cons.mp later with rfl | last
      · exact .inr new
      · exact .inl (by simp [last])

/-- There is room for one more nexthop in the rib that static routes of a distance share. -/
def Roomy (distance : Octet) (ribs : List Rib) : Prop :=
  ∀ rib ∈ ribs, rib.servesStatic distance = true → rib.nexthop.length < 255

theorem nexthopStaticAdd_alike (rib : Rib) (gate : StaticGate) :
    (rib.nexthopStaticAdd gate).type = rib.type ∧
    (rib.nexthopStaticAdd gate).nexthop.length = rib.nexthop.length + 1 ∧
    (rib.nexthopStaticAdd gate).check .selected = rib.check .selected := by
  refine ⟨by cases gate <;> rfl, ?_, ?_⟩
  · cases gate <;> simp [nexthopStaticAdd, nexthopIpv4Add, nexthopIfnameAdd, nexthopBlackholeAdd,
      nexthopAdd, setFlag]
  · cases gate with
    | gateway ipv4 => rfl
    | ifname ifname => rfl
    | blackhole => exact (rib.check_setFlag .blackhole .selected).trans (by simp)

theorem static_regular (static : rib.type = routeStatic) (few : rib.nexthop.length < 256) :
    rib.Regular :=
  ⟨fun connect => absurd (static.symm.trans connect) (by decide), few⟩

theorem staticInstallIpv4_step (good : Good table) {si} (roomy : Roomy si.distance (table p))
    (new : ∀ rib : Rib, rib.type = routeStatic → comes rib) :
    NodeStep kept env table p comes (env.staticInstallIpv4 table p si) := by
  rw [staticInstallIpv4]
  split
  · rename_i index found
    obtain ⟨spot⟩ := around found
    obtain ⟨static, -⟩ : spot.value.type = routeStatic ∧ spot.value.distance = si.distance := by
      simpa [servesStatic] using spot.holds
    obtain ⟨type, length, selected⟩ := nexthopStaticAdd_alike (ribUninstall p spot.value).1 si.gate
    have core := core_ribUninstall spot.value p
    have room := roomy spot.value (mem_of_getElem? spot.getElem?) spot.holds
    rw [spot.getElem?, spot.modify]
    have own := type.trans ((congrArg RibCore.type core).trans static)
    refine replace_step good spot.split (static_regular own ?_)
      (selected.trans (ribUninstall_unselected ..)) (by simp)
      (new _ own)
    · rw [length, length_of_core core]
      exact Nat.succ_lt_succ room
  · obtain ⟨type, length, selected⟩ :=
      nexthopStaticAdd_alike { type := routeStatic, distance := si.distance } si.gate
    refine add_step good (.refl _) (static_regular type ?_) (selected.trans (by simp [check]))
      (new _ type)
    rw [length]
    exact (by decide : 0 + 1 < 256)

theorem staticUninstallIpv4_step (good : Good table) {si}
    (new : ∀ old ∈ table p, old.type = routeStatic → old.nexthopNum ≠ 1 →
      ∀ rib : Rib, rib.type = routeStatic → comes rib) :
    NodeStep kept env table p comes (env.staticUninstallIpv4 table p si) := by
  rw [staticUninstallIpv4]
  split
  · exact .none
  · rename_i index found
    obtain ⟨spot⟩ := around found
    obtain ⟨static, -⟩ : spot.value.type = routeStatic ∧ spot.value.distance = si.distance := by
      simpa [servesStatic] using spot.holds
    rw [spot.getElem?]
    dsimp only
    split
    · exact .none
    · rename_i hop found
      split
      · exact hand_step good (by rw [Option.toList_some]; exact spot.perm)
      · rename_i several
        have core := core_ribUninstall spot.value p
        have regular := (good p).regular spot.value (mem_of_getElem? spot.getElem?)
        rw [spot.set]
        have unselected :
            ((ribUninstall p spot.value).1.nexthopDelete hop).check .selected = false :=
          ribUninstall_unselected p spot.value
        have own : ((ribUninstall p spot.value).1.nexthopDelete hop).type = routeStatic :=
          (congrArg RibCore.type core).trans static
        refine replace_step good spot.split ⟨fun connect => ?_, ?_⟩ unselected
          (by simpa using unselected)
          (new spot.value (mem_of_getElem? spot.getElem?) static several _ own)
        · have type : spot.value.type = routeConnect :=
            (congrArg RibCore.type core).symm.trans connect
          exact (congrArg RibCore.distance core).trans (regular.connect type)
        · exact lt_of_le_of_lt (length_eraseIdx_le ..) (length_of_core core ▸ regular.few)

theorem Roomy.of_core {distance others} (roomy : Roomy distance others)
    (cores : ribs.map core = others.map core) : Roomy distance ribs := by
  intro rib member serves
  have there : rib.core ∈ others.map core := cores ▸ mem_map_of_mem member
  obtain ⟨other, inside, core⟩ := mem_map.mp there
  rw [← serves_core, ← core] at serves
  exact length_of_core core ▸ roomy other inside serves

theorem staticUninstallIpv4_roomy {distance} (roomy : Roomy distance (table p)) (si : StaticIpv4) :
    Roomy distance ((env.staticUninstallIpv4 table p si).1 p) := by
  rw [staticUninstallIpv4]
  split
  · exact roomy
  · rename_i index found
    obtain ⟨spot⟩ := around found
    rw [spot.getElem?]
    dsimp only
    split
    · exact roomy
    · split
      · refine Roomy.of_core (fun rib member => roomy rib ?_) (env.process_core table p _ _)
        exact mem_of_mem_eraseIdx member
      · refine Roomy.of_core (fun rib member serves => ?_) (env.process_core table p _ _)
        rw [spot.set] at member
        have core := core_ribUninstall spot.value p
        rcases mem_append.mp member with first | later
        · exact roomy rib (by rw [spot.split]; simp [first]) serves
        · rcases mem_cons.mp later with rfl | last
          · have own : (ribUninstall p spot.value).1.core.serves distance = true := serves
            rw [core] at own
            have room := roomy spot.value (mem_of_getElem? spot.getElem?) own
            exact lt_of_le_of_lt (length_eraseIdx_le ..) (length_of_core core ▸ room)
          · exact roomy rib (by rw [spot.split]; simp [last]) serves

namespace Vrf
variable {vrf : Vrf}

theorem staticDeleteIpv4_step (good : Good vrf.table) (gate : StaticGate) (vrfId : Nat)
    (new : vrfId = 0 → ∀ old ∈ vrf.table (applyMaskIpv4 p), old.type = routeStatic →
      old.nexthopNum ≠ 1 →
      ∀ rib : Rib, rib.type = routeStatic → comes rib) :
    NodeStep kept env vrf.table (applyMaskIpv4 p) comes
      ((vrf.staticDeleteIpv4 env p gate vrfId).1.table,
        (vrf.staticDeleteIpv4 env p gate vrfId).2) := by
  rw [staticDeleteIpv4]
  split
  · exact .none
  · rename_i default
    dsimp only
    split
    · exact .none
    · split
      · exact .none
      · exact staticUninstallIpv4_step good (new (by simpa using default))

theorem staticDeleteIpv4_roomy (env : Surroundings) {distance}
    (roomy : Roomy distance (vrf.table (applyMaskIpv4 p))) (gate : StaticGate)
    (vrfId : Nat) :
    Roomy distance ((vrf.staticDeleteIpv4 env p gate vrfId).1.table (applyMaskIpv4 p)) := by
  rw [staticDeleteIpv4]
  split
  · exact roomy
  · dsimp only
    split
    · exact roomy
    · split
      · exact roomy
      · exact staticUninstallIpv4_roomy roomy _

variable (kept env) in
theorem staticOutdate_step (gate : StaticGate) (vrfId : Nat) (good : Good vrf.table) {distance}
    (masked : applyMaskIpv4 p = p)
    (new : ∀ rib : Rib, rib.type = routeStatic → comes rib) (roomy : Roomy distance (vrf.table p)) :
    NodeStep kept env vrf.table p comes
      (((vrf.lockStatic p).staticOutdate env p gate vrfId).1.table,
        ((vrf.lockStatic p).staticOutdate env p gate vrfId).2) ∧
      Roomy distance (((vrf.lockStatic p).staticOutdate env p gate vrfId).1.table p) := by
  rw [staticOutdate]
  split
  · have room : Roomy distance ((vrf.lockStatic p).table (applyMaskIpv4 p)) := by rwa [masked]
    have left := staticDeleteIpv4_roomy env room gate vrfId
    have held : Good (vrf.lockStatic p).table := good
    have step : NodeStep kept env (vrf.lockStatic p).table (applyMaskIpv4 p) comes
        (((vrf.lockStatic p).staticDeleteIpv4 env p gate vrfId).1.table,
          ((vrf.lockStatic p).staticDeleteIpv4 env p gate vrfId).2) :=
      staticDeleteIpv4_step held gate vrfId fun _ _ _ _ _ => new
    rw [masked] at left step
    exact ⟨step, left⟩
  · exact ⟨.none, roomy⟩

variable (kept env) (comes) in
/-- A static route that is added may first take the place of one with another distance. -/
theorem staticAddIpv4_steps (good : Good vrf.table) {gate distance vrfId}
    (roomy : vrfId = 0 → Roomy distance (vrf.table (applyMaskIpv4 p)))
    (new : vrfId = 0 → ∀ rib : Rib, rib.type = routeStatic → comes rib) :
    ∃ first last, NodeStep kept env vrf.table (applyMaskIpv4 p) comes first ∧
      NodeStep kept env first.1 (applyMaskIpv4 p) comes last ∧
      (vrf.staticAddIpv4 env p gate distance vrfId).1.table = last.1 ∧
      (vrf.staticAddIpv4 env p gate distance vrfId).2 = first.2 ++ last.2 := by
  rw [staticAddIpv4]
  split
  · exact ⟨_, _, .none, .none, rfl, rfl⟩
  · rename_i default
    dsimp only
    split
    · exact ⟨_, _, .none, .none, rfl, rfl⟩
    · have default : vrfId = 0 := by simpa using default
      obtain ⟨step, room⟩ :=
        staticOutdate_step kept env gate vrfId good (applyMaskIpv4_idem p) (new default)
        (roomy default)
      exact ⟨_, _, step, staticInstallIpv4_step (step.change good).good room (new default),
        rfl, rfl⟩

end Vrf
end Calls

/-- A call that changes the RIB. -/
inductive RibOp where
  | add (env : Surroundings) (type flags : Octet) (p : PrefixIpv4) (gate : Option InAddr)
    (ifindex metric : BitVec 32)
    (distance : Octet)
  | zread (env : Surroundings) (message : RouteMessage)
  | delete (env : Surroundings) (type : Octet) (p : PrefixIpv4) (ifindex : BitVec 32)
  | configure (op : StaticOp)
  | update (env : Surroundings) (order : List PrefixIpv4)

def Vrf.ribStep (vrf : Vrf) : RibOp → Vrf × List RibCall
  | .add env type flags p gate ifindex metric distance =>
    let added := env.ribAddIpv4 vrf.table type flags p gate ifindex metric distance
    ({ vrf with table := added.1 }, added.2)
  | .zread env message =>
    let added := env.zreadIpv4Add vrf.table message
    ({ vrf with table := added.1 }, added.2)
  | .delete env type p ifindex =>
    let deleted := env.ribDeleteIpv4 vrf.table type p ifindex
    ({ vrf with table := deleted.1 }, deleted.2)
  | .configure op => vrf.configure op
  | .update env order =>
    let updated := env.ribUpdate vrf.table order
    ({ vrf with table := updated.1 }, updated.2)

/-- A route that comes without the mark of a selected one, and, if it is a connected
route, without a distance. -/
def Plain (type flags distance : Octet) : Prop :=
  flags.getLsbD ZebraFlag.selected.bit = false ∧ (type = routeConnect → distance = 0)

def StaticOp.Roomy (table : RibTable) : StaticOp → Prop
  | .add _ p _ distance vrfId => vrfId = 0 → Zebrad.Roomy distance (table (applyMaskIpv4 p))
  | .delete .. => True

/-- The calls that keep the RIB good. -/
def Vrf.RibFine (kept : (Octet → Bool) → Prop) (vrf : Vrf) : RibOp → Prop
  | .add _ type flags _ _ _ _ distance => Plain type flags distance
  | .zread _ message => Plain message.type message.flags message.distance
  | .delete _ type p ifindex => KernelAware kept vrf.table type (applyMaskIpv4 p) ifindex
  | .configure op => op.Roomy vrf.table
  | .update .. => True

section Plain
variable {env : Surroundings}

theorem Surroundings.defaultDistance_alike (env : Surroundings) (rib : Rib) :
    (env.defaultDistance rib).type = rib.type ∧ (env.defaultDistance rib).flags = rib.flags ∧
      (env.defaultDistance rib).nexthop = rib.nexthop ∧
      (rib.type = routeConnect → rib.distance = 0 → (env.defaultDistance rib).distance = 0) := by
  rw [defaultDistance]
  split
  · exact ⟨rfl, rfl, rfl, fun _ zero => zero⟩
  · split
    · rename_i bgp
      exact ⟨rfl, rfl, rfl, fun connect => absurd (bgp.1.symm.trans connect) (by decide)⟩
    · exact ⟨rfl, rfl, rfl, fun connect _ => by simp [connect, routeConnect, routeInfo]⟩

theorem Rib.ownFib_alike (rib : Rib) : rib.Alike rib.ownFib := by
  rw [ownFib]
  split
  · exact rib.setFib_alike true
  · exact ⟨rfl, rfl, rfl⟩

theorem ownFib_plain {rib : Rib} (connect : rib.type = routeConnect → rib.distance = 0)
    (few : rib.nexthop.length < 256)
    (unselected : rib.check .selected = false) :
    rib.ownFib.Regular ∧ rib.ownFib.check .selected = false :=
  ⟨Rib.Regular.of_core ⟨connect, few⟩ rib.ownFib_alike.core,
    rib.ownFib_alike.selected.trans unselected⟩

theorem newRib_plain {type flags distance : Octet} (plain : Plain type flags distance)
    (gate : Option InAddr)
    (ifindex metric : BitVec 32) : (env.newRib type flags gate ifindex metric distance).Regular ∧
      (env.newRib type flags gate ifindex metric distance).check .selected = false := by
  obtain ⟨kind, marks, hops, zero⟩ := env.defaultDistance_alike { type, distance, flags, metric }
  -- whichever nexthop is added
  have added (nexthop : Nexthop) :
      ((env.defaultDistance { type, distance, flags, metric }).nexthopAdd nexthop).ownFib.Regular ∧
      ((env.defaultDistance { type, distance, flags, metric }).nexthopAdd nexthop).ownFib.check
        .selected = false := by
    apply ownFib_plain
    · intro connect
      have connect : type = routeConnect := kind.symm.trans connect
      exact zero connect (plain.2 connect)
    · rw [nexthopAdd, hops]
      exact (by decide : 1 < 256)
    · rw [nexthopAdd, marks]
      exact plain.1
  cases gate with
  | none => exact added _
  | some gate =>
    rw [newRib.eq_def]
    dsimp only
    split
    · exact added _
    · exact added _

theorem nexthopMessageAdd_alike (rib : Rib) (hop : MessageNexthop) :
    (rib.nexthopMessageAdd hop).type = rib.type ∧
    (rib.nexthopMessageAdd hop).check .selected = rib.check .selected ∧
    (rib.nexthopMessageAdd hop).nexthop.length ≤ rib.nexthop.length + 1 := by
  cases hop with
  | ifindex ifindex => exact ⟨rfl, rfl, by simp [nexthopMessageAdd, nexthopIfindexAdd, nexthopAdd]⟩
  | ipv4 ipv4 => exact ⟨rfl, rfl, by simp [nexthopMessageAdd, nexthopIpv4Add, nexthopAdd]⟩
  | blackhole =>
    refine ⟨rfl, (rib.check_setFlag .blackhole .selected).trans (by simp), ?_⟩
    simp [nexthopMessageAdd, nexthopBlackholeAdd, nexthopAdd, setFlag]
  | skipped => exact ⟨rfl, rfl, Nat.le_succ _⟩

theorem foldl_nexthopMessageAdd (hops : List MessageNexthop) (rib : Rib) :
    (hops.foldl nexthopMessageAdd rib).type = rib.type ∧
      (hops.foldl nexthopMessageAdd rib).check .selected = rib.check .selected ∧
      (hops.foldl nexthopMessageAdd rib).nexthop.length ≤ rib.nexthop.length + hops.length := by
  induction hops generalizing rib with
  | nil => exact ⟨rfl, rfl, le_rfl⟩
  | cons hop rest ih =>
    obtain ⟨type, selected, length⟩ := ih (rib.nexthopMessageAdd hop)
    obtain ⟨same, still, longer⟩ := nexthopMessageAdd_alike rib hop
    refine ⟨type.trans same, selected.trans still, le_trans length ?_⟩
    rw [length_cons]
    omega

theorem message_plain {message : RouteMessage}
    (plain : Plain message.type message.flags message.distance) :
    (env.defaultDistance message.rib).ownFib.Regular ∧
      (env.defaultDistance message.rib).ownFib.check .selected = false := by
  obtain ⟨kind, marks, hops, zero⟩ := env.defaultDistance_alike message.rib
  obtain ⟨type, selected, length⟩ :=
    foldl_nexthopMessageAdd message.nexthops { type := message.type, flags := message.flags }
  have own : message.rib.type = message.type := type
  apply ownFib_plain
  · intro connect
    exact zero (kind.symm.trans connect) (plain.2 ((own.symm.trans kind.symm).trans connect))
  · rw [hops]
    have bound := length
    exact lt_of_le_of_lt bound (by simpa using message.few)
  · rw [check, marks]
    exact selected.trans plain.1

end Plain

theorem Vrf.ribStep_change {kept : (Octet → Bool) → Prop} {vrf : Vrf} (good : Good vrf.table)
    {op : RibOp}
    (fine : vrf.RibFine kept op) :
    Change kept vrf.table (vrf.ribStep op).1.table (vrf.ribStep op).2 := by
  cases op with
  | add env type flags p gate ifindex metric distance =>
    obtain ⟨regular, unselected⟩ := newRib_plain fine gate ifindex metric
    have step : NodeStep kept env vrf.table (applyMaskIpv4 p) (fun _ => True) _ :=
      ribAddIpv4_step good regular unselected (.inr trivial)
    exact step.change good
  | zread env message =>
    obtain ⟨regular, unselected⟩ := message_plain fine
    have step : NodeStep kept env vrf.table (applyMaskIpv4 message.p) (fun _ => True) _ :=
      ribAddIpv4Multipath_step good regular unselected trivial
    exact step.change good
  | delete env type p ifindex =>
    have step : NodeStep kept env vrf.table (applyMaskIpv4 p) (fun _ => True) _ :=
      ribDeleteIpv4_step good fine fun _ _ _ _ _ => trivial
    exact step.change good
  | configure op =>
    cases op with
    | add env p gate distance vrfId =>
      obtain ⟨first, last, step, next, table, calls⟩ :=
        Vrf.staticAddIpv4_steps kept env (fun _ => True) good fine fun _ _ _ => trivial
      have change := (step.change good).trans (next.change (step.change good).good)
      rwa [← table, ← calls] at change
    | delete env p gate vrfId =>
      have step : NodeStep kept env vrf.table (applyMaskIpv4 p) (fun _ => True) _ :=
        staticDeleteIpv4_step good gate vrfId fun _ _ _ _ _ _ _ => trivial
      exact step.change good
  | update env order => exact ribUpdate_change good order

instance (type flags distance : Octet) : Decidable (Plain type flags distance) :=
  inferInstanceAs (Decidable (_ ∧ _))

instance (distance : Octet) (ribs : List Rib) : Decidable (Roomy distance ribs) :=
  inferInstanceAs (Decidable (∀ rib ∈ ribs, _ → _))

instance (table : RibTable) : (op : StaticOp) → Decidable (op.Roomy table)
  | .add _ p _ distance vrfId =>
    inferInstanceAs (Decidable (vrfId = 0 → Roomy distance (table (applyMaskIpv4 p))))
  | .delete .. => .isTrue trivial

/-- A host with one interface that is up. -/
def oneUp : Surroundings where
  ifLookupByIndex := fun index => if index = 1 then some ⟨1, true⟩ else none
  ifLookupByName := fun name => if name = "eth0" then some ⟨1, true⟩ else none

/-- A client's route over a gateway. -/
def clientRoute (type flags distance : Octet) (addr : InAddr) (gateway : InAddr) :
    RouteMessage where
  type := type
  flags := flags
  p := ⟨addr, 8⟩
  nexthops := [.ipv4 gateway]
  distance := distance
  metric := 0
  few := by simp

end Zebra.Zebrad
