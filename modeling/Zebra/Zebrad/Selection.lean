import Zebra.Base.Run
import Zebra.Zebrad.RibProcess

namespace Zebra.Zebrad
open Base List Rib Bool Nat

def RibCall.place : RibCall → PrefixIpv4
  | .install p | .uninstall p | .redistributeAdd p _ | .redistributeDelete p _ => p

/-- The calls for a newly selected rib. -/
def announce (p : PrefixIpv4) (rib shown : Rib) : List RibCall :=
  (if rib.system then [] else [.install p]) ++ [.redistributeAdd p shown]

/-- One who keeps track, by the calls alone, of whether a prefix has a selected route
of some types. -/
structure Mirror (p : PrefixIpv4) where
  keep : Octet → Bool
  apply : Bool → RibCall → Bool
  elsewhere : ∀ held call, call.place ≠ p → apply held call = held
  lost : ∀ (rib : Rib) held, rib.distance ≠ distanceInfinity →
    (withdraw p rib).2.foldl apply held = if keep rib.type then false else held
  gained : ∀ (rib shown : Rib) held, shown.type = rib.type →
    (announce p rib shown).foldl apply held = if keep rib.type then true else held

/-- What it should have found. -/
def Mirror.shows {p : PrefixIpv4} (mirror : Mirror p) (ribs : List Rib) : Bool :=
  ribs.any fun rib => rib.check .selected && mirror.keep rib.type

def selectedCount (ribs : List Rib) : Nat :=
  ribs.countP fun rib => rib.check .selected

/-- Ribs that are not counted away and a connected route that nothing comes before. -/
structure Rib.Regular (rib : Rib) : Prop where
  connect : rib.type = routeConnect → rib.distance = 0
  few : rib.nexthop.length < 256

theorem Rib.Regular.of_core {rib other : Rib} (regular : other.Regular)
    (core : rib.core = other.core) : rib.Regular := by
  refine ⟨fun connect => ?_, length_of_core core ▸ regular.few⟩
  exact (congrArg RibCore.distance core).trans
    (regular.connect ((congrArg RibCore.type core).symm.trans connect))

variable {ribs : List Rib}

theorem regular_of_core {others : List Rib} (cores : ribs.map Rib.core = others.map Rib.core)
    (regular : ∀ rib ∈ others, rib.Regular) : ∀ rib ∈ ribs, rib.Regular := by
  intro rib member
  have there : rib.core ∈ others.map Rib.core := cores ▸ mem_map_of_mem member
  obtain ⟨other, inside, core⟩ := mem_map.mp there
  exact (regular other inside).of_core core.symm

/-- The ribs of a node, and one that leaves it, as they come to `rib_process`. -/
structure Handed (ribs : List Rib) (del : Option Rib) : Prop where
  regular : ∀ rib ∈ ribs, rib.Regular
  lone : selectedCount (del.toList ++ ribs) ≤ 1
  finite : ∀ rib ∈ del.toList ++ ribs, rib.check .selected = true → rib.distance ≠ distanceInfinity

theorem selected_unique (lone : selectedCount ribs ≤ 1) {index other : Nat} {rib second}
    (there : ribs[index]? = some rib) (found : ribs[other]? = some second)
    (selected : rib.check .selected = true)
    (chosen : second.check .selected = true) : index = other := by
  induction ribs generalizing index other with
  | nil => simp at there
  | cons first rest ih =>
    rw [selectedCount, countP_cons] at lone
    cases index with
    | zero =>
      cases other with
      | zero => rfl
      | succ other =>
        obtain rfl : first = rib := by simpa using there
        have positive : 0 < rest.countP fun rib => rib.check .selected :=
          countP_pos_iff.mpr ⟨second, mem_of_getElem? found, chosen⟩
        rw [if_pos selected] at lone
        omega
    | succ index =>
      cases other with
      | zero =>
        obtain rfl : first = second := by simpa using found
        have positive : 0 < rest.countP fun rib => rib.check .selected :=
          countP_pos_iff.mpr ⟨rib, mem_of_getElem? there, selected⟩
        rw [if_pos chosen] at lone
        omega
      | succ other => exact congrArg (· + 1) (ih (le_of_add_right_le lone) there found)

theorem selectedCount_zero : selectedCount ribs = 0 ↔
    ∀ rib ∈ ribs, rib.check .selected = false := by
  simp [selectedCount, countP_eq_zero]

theorem selectedCount_le_one (place : Nat)
    (only : ∀ index rib, ribs[index]? = some rib → rib.check .selected = true → index = place) :
    selectedCount ribs ≤ 1 := by
  induction ribs generalizing place with
  | nil => exact zero_le 1
  | cons first rest ih =>
    rw [selectedCount, countP_cons]
    split
    · rename_i selected
      have head : 0 = place := only 0 first rfl selected
      have others : selectedCount rest = 0 := by
        refine selectedCount_zero.mpr fun rib member => eq_false_iff.mpr fun chosen => ?_
        obtain ⟨index, there⟩ := mem_iff_getElem?.mp member
        cases (only (index + 1) rib there chosen).trans head.symm
      exact le_of_eq (congrArg (· + 1) others)
    · refine ih (place - 1) fun index rib there chosen => ?_
      rw [← only (index + 1) rib there chosen, Nat.add_sub_cancel]

section Fib
variable {ribs : List Rib}

theorem fibRib_none (none : fibRib ribs = none) : ∀ rib ∈ ribs, rib.check .selected = false := by
  intro rib member
  obtain ⟨index, there⟩ := mem_iff_getElem?.mp member
  have missing := List.find?_eq_none.mp none index
    (mem_reverse.mpr (mem_range.mpr (List.getElem?_eq_some_iff.mp there).1))
  simpa [there] using missing

theorem fibRib_some {index} (found : fibRib ribs = some index) :
    ∃ rib, ribs[index]? = some rib ∧ rib.check .selected = true := by
  have hit := find?_some found
  exact (Option.any_eq_true ..).mp hit

end Fib

variable {p : PrefixIpv4} (mirror : Mirror p)

theorem Mirror.shows_none (none : ∀ rib ∈ ribs, rib.check .selected = false) :
    mirror.shows ribs = false :=
  any_eq_false.mpr fun rib member => by simp [none rib member]

theorem Mirror.shows_append (ribs others : List Rib) :
    mirror.shows (ribs ++ others) = (mirror.shows ribs || mirror.shows others) :=
  any_append

theorem Mirror.shows_lone (lone : selectedCount ribs ≤ 1) {index : Nat} {rib}
    (there : ribs[index]? = some rib)
    (selected : rib.check .selected = true) : mirror.shows ribs = mirror.keep rib.type := by
  apply Bool.eq_iff_iff.mpr
  rw [Mirror.shows, any_eq_true]
  constructor
  · rintro ⟨other, member, holds⟩
    obtain ⟨place, found⟩ := mem_iff_getElem?.mp member
    rw [and_eq_true] at holds
    obtain rfl := selected_unique lone there found selected holds.1
    cases there.symm.trans found
    exact holds.2
  · intro kept
    exact ⟨rib, mem_of_getElem? there, by simp [selected, kept]⟩

/-- What the selected ribs look like from outside. -/
def Rib.sign (rib : Rib) : Octet × Bool :=
  (rib.type, rib.check .selected)

section Signs
variable {ribs others : List Rib} (same : ribs.map Rib.sign = others.map Rib.sign)
include same

theorem selectedCount_congr : selectedCount ribs = selectedCount others := by
  have count (list : List Rib) : selectedCount list = (list.map sign).countP Prod.snd := by
    rw [countP_map]
    rfl
  rw [count, count, same]

theorem Mirror.shows_congr : mirror.shows ribs = mirror.shows others := by
  have any (list : List Rib) :
      mirror.shows list = (list.map Rib.sign).any fun sign => sign.2 && mirror.keep sign.1 := by
    rw [any_map]
    rfl
  rw [any, any, same]

end Signs

namespace Scene
variable (scene : Scene) {ribs : List Rib} {del : Option Rib}

theorem type_of_core {rib other : Rib} (same : rib.core = other.core) : rib.type = other.type :=
  congrArg RibCore.type same

theorem sign_nexthopActiveUpdate (set : Bool) (rib : Rib) :
    (scene.nexthopActiveUpdate set rib).sign = rib.sign := by
  rw [sign, sign, scene.selected_nexthopActiveUpdate,
    type_of_core (scene.core_nexthopActiveUpdate rib set)]

theorem sign_refreshRib (rib : Rib) : (scene.refreshRib rib).sign = rib.sign := by
  obtain ⟨core, selected, -⟩ := scene.refreshRib_alike rib
  rw [sign, sign, selected, type_of_core core]

theorem sign_updated (ribs : List Rib) :
    (ribs.map (scene.nexthopActiveUpdate false)).map sign = ribs.map sign := by
  rw [map_map]
  exact map_congr_left fun rib _ => scene.sign_nexthopActiveUpdate false rib

theorem dropFib_unselected (lone : selectedCount (del.toList ++ ribs) ≤ 1) :
    ∀ rib ∈ (scene.dropFib ribs del).1, rib.check .selected = false := by
  rw [dropFib]
  split
  · rename_i gone chosen
    obtain ⟨rfl, selected⟩ : del = some gone ∧ gone.check .selected = true := by
      simpa [Option.filter_eq_some_iff] using chosen
    apply selectedCount_zero.mp
    rw [selectedCount, Option.toList_some, singleton_append, countP_cons, if_pos selected] at lone
    exact le_zero.mp (le_of_succ_le_succ lone)
  · have few : selectedCount ribs ≤ 1 := by
      rw [selectedCount, countP_append] at lone
      exact le_of_add_left_le lone
    split
    · rename_i none
      exact fibRib_none none
    · rename_i fib found
      obtain ⟨old, there, selected⟩ := fibRib_some found
      intro rib member
      obtain ⟨index, at_index⟩ := mem_iff_getElem?.mp member
      rw [getElem?_modify] at at_index
      obtain ⟨before, at_before, rfl⟩ := Option.map_eq_some_iff.mp at_index
      split
      · exact scene.selected_dropRib before
      · rename_i apart
        apply eq_false_iff.mpr
        intro chosen
        exact apart (selected_unique few there at_before selected chosen)

theorem quiet_of_filter (none : del.filter (fun del => del.check .selected) = none) :
    ∀ rib ∈ del.toList, rib.check .selected = false := by
  intro rib member
  obtain rfl : del = some rib := by simpa using member
  simpa [Option.filter_some] using none

theorem Mirror.lost_keep (mirror : Mirror p) {rib} (finite : rib.distance ≠ distanceInfinity) :
    (withdraw p rib).2.foldl mirror.apply (mirror.keep rib.type) = false := by
  rw [mirror.lost rib _ finite]
  split
  · rfl
  · rename_i idle
    exact eq_false_iff.mpr idle

theorem dropFib_shows (mirror : Mirror scene.top) (lone : selectedCount (del.toList ++ ribs) ≤ 1)
    (finite : ∀ rib ∈ del.toList ++ ribs, rib.check .selected = true →
      rib.distance ≠ distanceInfinity) :
    (scene.dropFib ribs del).2.foldl mirror.apply (mirror.shows (del.toList ++ ribs)) = false := by
  rw [dropFib]
  split
  · rename_i gone chosen
    obtain ⟨rfl, selected⟩ : del = some gone ∧ gone.check .selected = true := by
      simpa [Option.filter_eq_some_iff] using chosen
    have first : ((some gone).toList ++ ribs)[0]? = some gone := rfl
    rw [mirror.shows_lone lone first selected]
    exact Mirror.lost_keep mirror (finite gone (by simp) selected)
  · rename_i none
    have quiet := quiet_of_filter none
    have few : selectedCount ribs ≤ 1 := by
      rw [selectedCount, countP_append] at lone
      exact le_of_add_left_le lone
    rw [Mirror.shows_append, mirror.shows_none quiet]
    split
    · rename_i none
      exact mirror.shows_none (fibRib_none none)
    · rename_i fib found
      obtain ⟨old, there, selected⟩ := fibRib_some found
      rw [there, mirror.shows_lone few there selected]
      exact Mirror.lost_keep mirror
        (finite old (mem_append_right _ (mem_of_getElem? there)) selected)

theorem takeSelect_selected (none : ∀ rib ∈ ribs, rib.check .selected = false) {select index}
    {rib} (there : (scene.takeSelect ribs select).1[index]? = some rib) :
    rib.check .selected = true ↔ select = some index := by
  cases select with
  | none => simp [none rib (mem_of_getElem? there)]
  | some select =>
    rw [takeSelect, getElem?_modify] at there
    obtain ⟨old, found, rfl⟩ := Option.map_eq_some_iff.mp there
    split
    · rename_i same
      simp [scene.selected_installRib, same]
    · rename_i apart
      simp [none old (mem_of_getElem? found), apart]

theorem takeSelect_shows (mirror : Mirror scene.top)
    (none : ∀ rib ∈ ribs, rib.check .selected = false)
    {select : Option Nat} (valid : ∀ index ∈ select, ∃ rib, ribs[index]? = some rib) :
    (scene.takeSelect ribs select).2.foldl mirror.apply false =
      mirror.shows (scene.takeSelect ribs select).1 := by
  cases select with
  | none => exact (mirror.shows_none none).symm
  | some select =>
    obtain ⟨rib, there⟩ := valid select rfl
    have own : (scene.takeSelect ribs (some select)).1[select]? = some (scene.installRib rib) := by
      simp [takeSelect, there]
    have calls : (scene.takeSelect ribs (some select)).2 =
        announce scene.top rib (scene.installRib rib) := by
      simp [takeSelect, there, announce]
    have type := type_of_core (scene.core_installRib rib)
    have lone := selectedCount_le_one select fun index other found chosen =>
        (Option.some.inj ((scene.takeSelect_selected none found).mp chosen)).symm
    rw [calls, mirror.gained rib _ _ type,
      mirror.shows_lone lone own (scene.selected_installRib rib), type]
    cases mirror.keep rib.type <;> rfl

/-- The ribs of the node as the loop of `rib_process` leaves them. -/
def updated : List Rib :=
  (scene.table scene.top).map (scene.nexthopActiveUpdate false)

theorem current_updated : scene.Current (scene.table scene.top) scene.updated :=
  current_update _

variable {scene}

theorem lone_updated (lone : selectedCount (del.toList ++ scene.table scene.top) ≤ 1) :
    selectedCount (del.toList ++ scene.updated) ≤ 1 := by
  have same : (del.toList ++ scene.updated).map sign =
      (del.toList ++ scene.table scene.top).map sign := by
    rw [map_append, map_append, updated, scene.sign_updated]
  rwa [selectedCount_congr same]

theorem regular_updated (regular : ∀ rib ∈ scene.table scene.top, rib.Regular) :
    ∀ rib ∈ scene.updated, rib.Regular :=
  regular_of_core scene.current_updated.core regular

/-- Both ways through `rib_process`. -/
inductive Course (scene : Scene) (del : Option Rib) : List Rib × List RibCall → Prop where
  | stays {select rib result} (chosen : selectRib scene.updated = some select)
    (there : scene.updated[select]? = some rib)
    (selected : rib.check .selected = true)
      (quiet : ∀ rib ∈ del.toList, rib.check .selected = false)
    (outcome : result = (scene.updated, []) ∨ rib.check .changed = true ∧
      result = (scene.updated.modify select scene.refreshRib, scene.refreshCalls rib)) :
        Course scene del result
  | moves (moved :
      ¬ ((selectRib scene.updated).isSome ∧ selectRib scene.updated = fibRib scene.updated ∧
      ¬ del.any fun del => del.check .selected)) : Course scene del
        ((scene.takeSelect (scene.dropFib scene.updated del).1 (selectRib scene.updated)).1,
      (scene.dropFib scene.updated del).2 ++
        (scene.takeSelect (scene.dropFib scene.updated del).1 (selectRib scene.updated)).2)

variable (scene) in
theorem ribProcess_course (del : Option Rib) : Course scene del (scene.ribProcess del) := by
  rw [ribProcess]
  split
  · rename_i same
    obtain ⟨some, same, quiet⟩ := same
    obtain ⟨select, chosen⟩ := Option.isSome_iff_exists.mp some
    have fib : fibRib scene.updated = Option.some select := same.symm.trans chosen
    obtain ⟨rib, there, selected⟩ := fibRib_some fib
    have quiet : ∀ rib ∈ del.toList, rib.check .selected = false := by
      intro rib member
      obtain rfl : del = Option.some rib := by simpa using member
      simpa using quiet
    refine .stays chosen there selected quiet ?_
    have there : ((scene.table scene.top).map (scene.nexthopActiveUpdate false))[select]? =
      Option.some rib := there
    rw [chosen, Option.bind_some, there]
    dsimp only
    split
    · rename_i changed
      exact .inr ⟨changed, rfl⟩
    · exact .inl rfl
  · rename_i moved
    exact .moves moved

theorem getElem?_of_map {Value Image : Type} {g : Value → Image} {values others : List Value}
    (same : values.map g = others.map g) {index : Nat} {value}
    (there : values[index]? = some value) :
    ∃ other, others[index]? = some other ∧ g other = g value := by
  have at_index := congrArg (·[index]?) same
  simp only [getElem?_map, there, Option.map_some] at at_index
  exact Option.map_eq_some_iff.mp at_index.symm

theorem ribProcess_selected (lone : selectedCount (del.toList ++ scene.table scene.top) ≤ 1)
    {index : Nat} {rib} (there : (scene.ribProcess del).1[index]? = some rib) :
    rib.check .selected = true ↔ selectRib scene.updated = some index := by
  have lone := lone_updated lone
  have course := scene.ribProcess_course del
  generalize scene.ribProcess del = result at there course
  cases course with
  | stays chosen at_select selected quiet outcome =>
    rename_i select old
    have signs : result.1.map Rib.sign = scene.updated.map Rib.sign := by
      rcases outcome with rfl | ⟨-, rfl⟩
      · rfl
      · exact map_modify scene.sign_refreshRib scene.updated select
    obtain ⟨own, found, sign⟩ := getElem?_of_map signs there
    have same : own.check .selected = rib.check .selected := congrArg Prod.snd sign
    have few : selectedCount scene.updated ≤ 1 := by
      rw [selectedCount, countP_append] at lone
      exact le_of_add_left_le lone
    rw [chosen, Option.some.injEq, ← same]
    constructor
    · intro own_selected
      exact selected_unique few at_select found selected own_selected
    · rintro rfl
      cases at_select.symm.trans found
      exact selected
  | moves => exact scene.takeSelect_selected (scene.dropFib_unselected lone) there

/-- Who follows the calls of `rib_process` knows what it has selected. -/
theorem ribProcess_shows (handed : Handed (scene.table scene.top) del) (mirror : Mirror scene.top) :
    (scene.ribProcess del).2.foldl mirror.apply
      (mirror.shows (del.toList ++ scene.table scene.top)) =
      mirror.shows (scene.ribProcess del).1 := by
  have lone := lone_updated handed.lone
  have shown : mirror.shows (del.toList ++ scene.table scene.top) =
      mirror.shows (del.toList ++ scene.updated) := by
    apply mirror.shows_congr
    rw [map_append, map_append, updated, scene.sign_updated]
  have finite : ∀ rib ∈ del.toList ++ scene.updated, rib.check .selected = true →
      rib.distance ≠ distanceInfinity := by
    intro rib member selected
    rcases mem_append.mp member with gone | own
    · exact handed.finite rib (mem_append_left _ gone) selected
    · obtain ⟨old, there, rfl⟩ := mem_map.mp own
      have distance := congrArg RibCore.distance (scene.core_nexthopActiveUpdate old false)
      rw [scene.selected_nexthopActiveUpdate] at selected
      exact fun infinite => handed.finite old (mem_append_right _ there) selected
        (distance.symm.trans infinite)
  have course := scene.ribProcess_course del
  rw [shown]
  generalize scene.ribProcess del = result at course
  cases course with
  | stays chosen at_select selected quiet outcome =>
    rename_i select old
    have few : selectedCount scene.updated ≤ 1 := by
      rw [selectedCount, countP_append] at lone
      exact le_of_add_left_le lone
    rw [mirror.shows_append, mirror.shows_none quiet, Bool.false_or]
    rcases outcome with rfl | ⟨-, rfl⟩
    · rfl
    · have signs := map_modify scene.sign_refreshRib scene.updated select
      rw [mirror.shows_congr signs, mirror.shows_lone few at_select selected, refreshCalls,
        append_assoc, foldl_append]
      have lost := finite old (mem_append_right _ (mem_of_getElem? at_select)) selected
      rw [Mirror.lost_keep mirror lost]
      exact (mirror.gained old _ _ (type_of_core (scene.refreshRib_alike old).1)).trans
        (by cases mirror.keep old.type <;> rfl)
  | moves =>
    rw [foldl_append, scene.dropFib_shows mirror lone finite]
    apply scene.takeSelect_shows mirror (scene.dropFib_unselected lone)
    intro select chosen
    have choice :=
      selectRib_choice fun rib member => (regular_updated handed.regular rib member).connect
    rw [chosen] at choice
    obtain ⟨rib, there, -⟩ := choice
    have cores :=
      scene.current_updated.core.trans (current_dropFib scene.current_updated del).core.symm
    obtain ⟨other, found, -⟩ := getElem?_of_map cores there
    exact ⟨other, found⟩

/-- What the code wants of the ribs of a node: at most one is selected, it is active, and it
is a connected route if one is active, else one of the least distance. -/
structure Settled (ribs : List Rib) : Prop where
  lone : selectedCount ribs ≤ 1
  live : ∀ rib ∈ ribs, rib.check .selected = true → rib.live = true
  best : ∀ rib ∈ ribs, rib.check .selected = true →
    if ∃ other ∈ ribs, other.type = routeConnect ∧ other.live = true then rib.type = routeConnect
    else rib.distance < distanceInfinity ∧
      ∀ other ∈ ribs, other.live = true → other.distance < distanceInfinity →
        rib.distance ≤ other.distance

theorem lt_infinity {distance} : distance < distanceInfinity ↔ distance ≠ distanceInfinity := by
  constructor
  · rintro less rfl
    exact nomatch less
  · intro apart
    have value : distance.toNat ≠ 255 := fun equal => apart (BitVec.eq_of_toNat_eq equal)
    exact BitVec.lt_def.mpr (show distance.toNat < 255 by omega)

theorem usable_updated (regular : ∀ rib ∈ scene.table scene.top, rib.Regular) {rib}
    (member : rib ∈ scene.updated) :
    rib.usable = true ↔ scene.alive rib = true ∧ rib.distance ≠ distanceInfinity := by
  obtain ⟨old, there, rfl⟩ := mem_map.mp member
  rw [usable, and_eq_true, decide_eq_true_eq, decide_eq_true_eq,
    scene.nexthopActiveNum_ne_zero old false (regular old there).few,
    scene.alive_congr (scene.core_nexthopActiveUpdate old false)]

theorem ribProcess_settled (handed : Handed (scene.table scene.top) del) :
    Settled (scene.ribProcess del).1 := by
  have choice := selectRib_choice fun rib member =>
    (regular_updated handed.regular rib member).connect
  have current := scene.ribProcess_current del
  have cores := current.core.trans scene.current_updated.core.symm
  -- each rib comes from one of the loop, with the same given parts
  have source {index : Nat} {rib} (there : (scene.ribProcess del).1[index]? = some rib) :
      ∃ old, scene.updated[index]? = some old ∧ old.core = rib.core ∧
        rib.live = scene.alive old := by
    obtain ⟨old, found, core⟩ := getElem?_of_map cores there
    exact ⟨old, found, core, (current.live rib (mem_of_getElem? there)).trans
      (scene.alive_congr core.symm)⟩
  have chosen {rib : Rib} (member : rib ∈ (scene.ribProcess del).1)
      (selected : rib.check .selected = true) :
      ∃ old, Chosen scene.updated old ∧ old ∈ scene.updated ∧ old.core = rib.core ∧
        rib.live = scene.alive old := by
    obtain ⟨index, there⟩ := mem_iff_getElem?.mp member
    rw [(ribProcess_selected handed.lone there).mp selected] at choice
    obtain ⟨own, found, chosen⟩ := choice
    obtain ⟨old, at_index, core, live⟩ := source there
    cases found.symm.trans at_index
    exact ⟨own, chosen, mem_of_getElem? found, core, live⟩
  have usable {old : Rib} (member : old ∈ scene.updated) := usable_updated handed.regular member
  refine ⟨?_, fun rib member selected => ?_, fun rib member selected => ?_⟩
  · cases select : selectRib scene.updated with
    | none =>
      refine selectedCount_le_one 0 fun index rib there selected => ?_
      exact absurd ((ribProcess_selected handed.lone there).mp selected) (by simp [select])
    | some place =>
      refine selectedCount_le_one place fun index rib there selected => ?_
      exact (Option.some.inj
        (select.symm.trans ((ribProcess_selected handed.lone there).mp selected))).symm
  · obtain ⟨old, chosen, inside, -, live⟩ := chosen member selected
    exact live.trans ((usable inside).mp chosen.usable).1
  · obtain ⟨old, chosen, inside, core, live⟩ := chosen member selected
    have able := (usable inside).mp chosen.usable
    have type : old.type = rib.type := type_of_core core
    have distance : old.distance = rib.distance := congrArg RibCore.distance core
    split
    · rename_i connected
      obtain ⟨other, there, connect, other_live⟩ := connected
      obtain ⟨place, at_place⟩ := mem_iff_getElem?.mp there
      obtain ⟨origin, found, same, alive⟩ := source at_place
      have origin_inside := mem_of_getElem? found
      have origin_connect : origin.type = routeConnect := (type_of_core same).trans connect
      have zero := (regular_updated handed.regular origin origin_inside).connect origin_connect
      have finite : origin.distance ≠ distanceInfinity := by
        rw [zero]
        decide
      rw [← type]
      exact chosen.connect origin origin_inside
        ((usable origin_inside).mpr ⟨alive.symm.trans other_live, finite⟩)
        origin_connect
    · rename_i unconnected
      have apart : old.type ≠ routeConnect := fun connect =>
        unconnected ⟨rib, member, type.symm.trans connect, live.trans able.1⟩
      refine ⟨distance ▸ lt_infinity.mpr able.2, fun other there other_live finite => ?_⟩
      obtain ⟨place, at_place⟩ := mem_iff_getElem?.mp there
      obtain ⟨origin, found, same, alive⟩ := source at_place
      have origin_inside := mem_of_getElem? found
      have origin_distance : origin.distance = other.distance := congrArg RibCore.distance same
      rw [← distance, ← origin_distance]
      rw [← origin_distance] at finite
      exact chosen.least apart origin origin_inside
        ((usable origin_inside).mpr ⟨alive.symm.trans other_live, lt_infinity.mp finite⟩)

variable (scene) in
/-- No nexthop of the rib can be used, or it is selected and the same nexthops can be used
as before. -/
def Steady (rib : Rib) : Prop :=
  scene.alive rib = true → rib.check .selected = true ∧
    ∀ nexthop ∈ rib.nexthop, nexthop.active = scene.reaches (rib.check .internal) nexthop

theorem unchanged_nexthopActiveUpdate {rib : Rib} (set : Bool)
    (same : ∀ nexthop ∈ rib.nexthop, nexthop.active = scene.reaches (rib.check .internal) nexthop) :
    (scene.nexthopActiveUpdate set rib).check .changed = false := by
  have still : rib.nexthop.map Nexthop.active =
      (rib.nexthop.map (scene.nexthopActiveCheck rib set)).map Nexthop.active := by
    rw [map_map]
    exact map_congr_left fun nexthop member =>
      (same nexthop member).trans (scene.active_nexthopActiveCheck rib set nexthop).symm
  rw [nexthopActiveUpdate]
  simp only [ne_eq, ← still, not_true_eq_false, if_false]
  exact (rib.check_unsetFlag .changed .changed).trans (by simp)

theorem withdraw_announces {p q : PrefixIpv4} {rib shown : Rib} :
    .redistributeAdd q shown ∉ (withdraw p rib).2 := by
  rw [withdraw]
  split <;> simp

/-- What `rib_process` announces is a rib of the node that was not steady. -/
theorem ribProcess_announces (handed : Handed (scene.table scene.top) del) {p shown}
    (there : .redistributeAdd p shown ∈ (scene.ribProcess del).2) :
    p = scene.top ∧ ∃ rib ∈ scene.table scene.top, shown.core = rib.core ∧ ¬ scene.Steady rib := by
  have lone := lone_updated handed.lone
  have choice := selectRib_choice fun rib member =>
    (regular_updated handed.regular rib member).connect
  -- a rib that the loop chooses is one of the node with a usable nexthop
  have source {index : Nat} {rib} (chosen : selectRib scene.updated = some index)
      (found : scene.updated[index]? = some rib) : ∃ old ∈ scene.table scene.top,
        scene.nexthopActiveUpdate false old = rib ∧ scene.alive old = true := by
    obtain ⟨old, member, rfl⟩ := mem_map.mp (mem_of_getElem? found)
    rw [chosen] at choice
    obtain ⟨own, same, best⟩ := choice
    cases found.symm.trans same
    refine ⟨old, member, rfl, ?_⟩
    rw [← scene.alive_congr (scene.core_nexthopActiveUpdate old false)]
    exact ((usable_updated handed.regular (mem_of_getElem? found)).mp best.usable).1
  have course := scene.ribProcess_course del
  generalize scene.ribProcess del = result at there course
  cases course with
  | stays chosen at_select selected quiet outcome =>
    rcases outcome with rfl | ⟨changed, rfl⟩
    · cases there
    · obtain ⟨old, member, rfl, alive⟩ := source chosen at_select
      rw [refreshCalls, append_assoc] at there
      rcases mem_append.mp there with lost | gained
      · exact absurd lost withdraw_announces
      · have same := gained
        simp only [mem_append, mem_singleton, RibCall.redistributeAdd.injEq] at same
        obtain ⟨rfl, rfl⟩ := same.resolve_left (by split <;> simp)
        refine ⟨rfl, old, member, ?_, fun steady => ?_⟩
        · exact (scene.refreshRib_alike _).1.trans (scene.core_nexthopActiveUpdate old false)
        · exact absurd changed (by simp [unchanged_nexthopActiveUpdate false (steady alive).2])
  | moves moved =>
    rcases mem_append.mp there with lost | gained
    · rw [dropFib] at lost
      split at lost
      · exact absurd lost withdraw_announces
      · split at lost
        · cases lost
        · rename_i fib found
          obtain ⟨rib, at_fib, -⟩ := fibRib_some found
          rw [at_fib] at lost
          exact absurd lost withdraw_announces
    · cases chosen : selectRib scene.updated with
      | none => simp [chosen, takeSelect] at gained
      | some index =>
        rw [chosen, takeSelect] at gained
        cases at_index : (scene.dropFib scene.updated del).1[index]? with
        | none => simp [at_index] at gained
        | some rib =>
          have cores :=
            (current_dropFib scene.current_updated del).core.trans scene.current_updated.core.symm
          obtain ⟨own, found, core⟩ := getElem?_of_map cores at_index
          obtain ⟨old, member, rfl, alive⟩ := source chosen found
          have same := gained
          simp only [at_index, Option.map_some, Option.getD_some, mem_append, mem_singleton,
            RibCall.redistributeAdd.injEq] at same
          obtain ⟨rfl, rfl⟩ := same.resolve_left (by split <;> simp)
          refine ⟨rfl, old, member, ?_, fun steady => moved ?_⟩
          · exact (scene.core_installRib rib).trans
              (core.symm.trans (scene.core_nexthopActiveUpdate old false))
          · -- it was selected, so nothing would have moved
            have selected : (scene.nexthopActiveUpdate false old).check .selected = true :=
              (scene.selected_nexthopActiveUpdate old false).trans (steady alive).1
            have first : del.toList.countP (fun rib => rib.check .selected) = 0 := by
              have own : 0 < selectedCount scene.updated :=
                countP_pos_iff.mpr ⟨_, mem_of_getElem? found, selected⟩
              rw [selectedCount, countP_append] at lone
              rw [selectedCount] at own
              omega
            refine ⟨by simp [chosen], ?_, ?_⟩
            · cases fib : fibRib scene.updated with
              | none => exact absurd selected (by simp [fibRib_none fib _ (mem_of_getElem? found)])
              | some place =>
                obtain ⟨other, at_place, other_selected⟩ := fibRib_some fib
                have few : selectedCount scene.updated ≤ 1 := by
                  rw [selectedCount, countP_append] at lone
                  exact le_of_add_left_le lone
                rw [chosen, selected_unique few found at_place selected other_selected]
            · rw [countP_eq_zero] at first
              cases del with
              | none => simp
              | some del => simpa using first

end Scene
end Zebra.Zebrad
