import Zebra.Base.Position
import Zebra.Zebrad.Static

namespace Zebra.Zebrad
open Base Function Rib List ZebraFlag Nexthop Scene Option Surroundings

/-- The part of a nexthop that is given, not derived. -/
def Nexthop.key (nexthop : Nexthop) : NexthopType × InAddr × String × BitVec 32 :=
  (nexthop.type, nexthop.gate, nexthop.ifname,
    if nexthop.type = .ifindex ∨ nexthop.type = .ipv4Ifindex then nexthop.ifindex else 0)

/-- The part of a rib that `rib_process` leaves alone. -/
structure RibCore where
  type : Octet
  table : Int
  distance : Octet
  refcnt : Nat
  nexthopNum : Octet
  internal : Bool
  blackhole : Bool
  keys : List (NexthopType × InAddr × String × BitVec 32)

def Rib.core (rib : Rib) : RibCore where
  type := rib.type
  table := rib.table
  distance := rib.distance
  refcnt := rib.refcnt
  nexthopNum := rib.nexthopNum
  internal := rib.check .internal
  blackhole := rib.check .blackhole
  keys := rib.nexthop.map Nexthop.key

def RibCore.serves (distance : Octet) (core : RibCore) : Bool :=
  core.type = routeStatic && core.distance = distance

theorem Rib.serves_core (distance : Octet) (rib : Rib) :
    rib.core.serves distance = rib.servesStatic distance := rfl

theorem Rib.length_of_core {rib other : Rib} (same : rib.core = other.core) :
    rib.nexthop.length = other.nexthop.length := by
  simpa [core] using congrArg (length ∘ RibCore.keys) same

/-- A rib with an active nexthop. -/
def Rib.live (rib : Rib) : Bool :=
  rib.nexthop.any Nexthop.active

section Flags
variable (rib : Rib)

@[simp] theorem Rib.core_setFlag_selected : (rib.setFlag .selected).core = rib.core := by
  simp [core, setFlag, check, bit]

theorem Rib.core_setFlag_changed : (rib.setFlag .changed).core = rib.core := by
  simp [core, setFlag, check, bit]

@[simp] theorem Rib.core_unsetFlag_selected : (rib.unsetFlag .selected).core = rib.core := by
  simp [core, unsetFlag, check, bit]

theorem Rib.core_unsetFlag_changed : (rib.unsetFlag .changed).core = rib.core := by
  simp [core, unsetFlag, check, bit]

end Flags

section Active
variable (scene : Scene)

/-- Whether a nexthop can be used; `internal` is the flag of its rib. -/
def Scene.reaches (internal : Bool) (nexthop : Nexthop) : Bool :=
  match nexthop.type with
  | .ifindex => (scene.ifLookupByIndex nexthop.ifindex).any Interface.up
  | .ifname => (scene.ifLookupByName nexthop.ifname).any Interface.up
  | .ipv4 | .ipv4Ifindex =>
    (scene.lookup (covering nexthop.gate)).any fun found => found.type = routeConnect ||
      internal && found.nexthop.any fun newhop => newhop.fib && !newhop.recursive
  | .blackhole => true

def Scene.alive (rib : Rib) : Bool :=
  rib.nexthop.any (scene.reaches (rib.check .internal))

theorem Scene.reaches_congr {internal nexthop other} (same : nexthop.key = other.key) :
    scene.reaches internal nexthop = scene.reaches internal other := by
  obtain ⟨type, _, _, _, ifindex, ifname, gate, _, _, _⟩ := nexthop
  obtain ⟨_, _, _, _, _, _, _, _, _, _⟩ := other
  simp only [key, Prod.mk.injEq] at same
  obtain ⟨rfl, rfl, rfl, index⟩ := same
  cases type <;> simp_all [reaches]

theorem Scene.alive_congr {rib other} (same : rib.core = other.core) :
    scene.alive rib = scene.alive other := by
  have internal : rib.check .internal = other.check .internal := congrArg RibCore.internal same
  have keys : rib.nexthop.map key = other.nexthop.map key := congrArg RibCore.keys same
  rw [alive, alive, internal]
  generalize rib.nexthop = hops at keys
  generalize other.nexthop = others at keys
  induction hops generalizing others with
  | nil => simp_all
  | cons first rest ih =>
    cases others with
    | nil => simp at keys
    | cons second more =>
      simp only [map_cons, cons.injEq] at keys
      rw [any_cons, any_cons, scene.reaches_congr keys.1, ih more keys.2]

theorem Nexthop.key_resolve (nexthop newhop : Nexthop) :
    (nexthop.resolve newhop).key = nexthop.key := rfl

theorem Scene.key_nexthopActiveIpv4 (rib : Rib) (nexthop : Nexthop) (set : Bool) :
    (scene.nexthopActiveIpv4 rib nexthop set).2.key = nexthop.key := by
  rw [nexthopActiveIpv4]
  split
  · grind [key]
  · split
    · split <;> grind [key]
    · split
      · split <;> grind [key, key_resolve]
      · grind [key]

theorem Scene.gate_prepared (nexthop : Nexthop) (set : Bool) :
    (if set then { (if nexthop.type = .ipv4 then { nexthop with ifindex := 0 } else nexthop) with
      recursive := false }
      else if nexthop.type = .ipv4 then { nexthop with ifindex := 0 } else nexthop).gate =
        nexthop.gate := by
  split <;> split <;> rfl

theorem Scene.nexthopActiveIpv4_reaches (rib : Rib) {nexthop} (set : Bool)
    (gateway : nexthop.type = .ipv4 ∨ nexthop.type = .ipv4Ifindex) :
    (scene.nexthopActiveIpv4 rib nexthop set).1 = scene.reaches (rib.check .internal) nexthop := by
  have reached : scene.reaches (rib.check .internal) nexthop =
      (scene.lookup (covering nexthop.gate)).any fun found => found.type = routeConnect ||
        rib.check .internal && found.nexthop.any fun newhop => newhop.fib && !newhop.recursive := by
    rcases gateway with type | type <;> rw [reaches, type]
  rw [reached, nexthopActiveIpv4]
  simp only [gate_prepared]
  split
  · rename_i missing
    rw [missing]
    rfl
  · rename_i found there
    rw [there, any_some]
    split
    · rename_i connect
      split <;> simp [connect]
    · rename_i apart
      split
      · rename_i internal
        split
        · rename_i newhop usable
          have hit := find?_some usable
          simp only [apart, internal, decide_false, Bool.false_or, Bool.true_and]
          exact (any_eq_true.mpr ⟨newhop, mem_of_find?_eq_some usable, hit⟩).symm
        · rename_i none
          simpa [apart, internal] using none
      · rename_i external
        simp [apart, external]

theorem Scene.key_nexthopActiveCheck (rib : Rib) (set : Bool) (nexthop : Nexthop) :
    (scene.nexthopActiveCheck rib set nexthop).key = nexthop.key := by
  rw [nexthopActiveCheck]
  split
  · rfl
  · rename_i type
    split <;> simp [key, type]
  · exact scene.key_nexthopActiveIpv4 rib nexthop set
  · exact scene.key_nexthopActiveIpv4 rib nexthop set
  · rfl

theorem Scene.active_nexthopActiveCheck (rib : Rib) (set : Bool) (nexthop : Nexthop) :
    (scene.nexthopActiveCheck rib set nexthop).active =
      scene.reaches (rib.check .internal) nexthop := by
  rw [nexthopActiveCheck]
  split
  · rename_i type
    rw [reaches, type]
  · rename_i type
    rw [reaches, type]
    cases scene.ifLookupByName nexthop.ifname with
    | none => rfl
    | some ifp => cases up : ifp.up <;> simp [Option.filter, up]
  · rename_i type
    exact scene.nexthopActiveIpv4_reaches rib set (.inl type)
  · rename_i type
    exact scene.nexthopActiveIpv4_reaches rib set (.inr type)
  · rename_i type
    rw [reaches, type]

end Active

section Ribs
variable (scene : Scene) (rib : Rib)

/-- A rib whose given parts, selection and active nexthops are as before. -/
structure Rib.Alike (rib other : Rib) : Prop where
  core : other.core = rib.core
  selected : other.check .selected = rib.check .selected
  live : other.live = rib.live

section
variable (set : Bool)

/-- `nexthop_active_update` before it marks a change. -/
def Scene.checked : Rib :=
  { rib.unsetFlag .changed with
    nexthop := rib.nexthop.map (scene.nexthopActiveCheck rib set)
    nexthopActiveNum :=
      BitVec.ofNat 8 ((rib.nexthop.map (scene.nexthopActiveCheck rib set)).countP Nexthop.active) }

theorem Scene.nexthopActiveUpdate_eq : scene.nexthopActiveUpdate set rib = scene.checked rib set ∨
    scene.nexthopActiveUpdate set rib = (scene.checked rib set).setFlag .changed := by
  rw [nexthopActiveUpdate]
  split
  · exact .inr rfl
  · exact .inl rfl

theorem Scene.core_checked : (scene.checked rib set).core = rib.core := by
  have keys : (rib.nexthop.map (scene.nexthopActiveCheck rib set)).map key =
      rib.nexthop.map key := by
    rw [List.map_map]
    exact map_congr_left fun nexthop _ => scene.key_nexthopActiveCheck rib set nexthop
  rw [← core_unsetFlag_changed rib, checked, core]
  simp only [keys]
  rfl

theorem Scene.core_nexthopActiveUpdate : (scene.nexthopActiveUpdate set rib).core = rib.core := by
  rcases scene.nexthopActiveUpdate_eq rib set with same | same <;> rw [same]
  · exact scene.core_checked rib set
  · exact (core_setFlag_changed _).trans (scene.core_checked rib set)

theorem Scene.selected_nexthopActiveUpdate :
    (scene.nexthopActiveUpdate set rib).check .selected = rib.check .selected := by
  have unset : (scene.checked rib set).check .selected = rib.check .selected :=
    (rib.check_unsetFlag .changed .selected).trans (by simp)
  rcases scene.nexthopActiveUpdate_eq rib set with same | same <;> rw [same]
  · exact unset
  · simp [unset]

theorem any_active (hops : List Nexthop) : hops.any active = (hops.map active).any id := by
  rw [List.any_map]
  rfl

theorem Scene.live_nexthopActiveUpdate :
    (scene.nexthopActiveUpdate set rib).live = scene.alive rib := by
  have live : (scene.checked rib set).live = scene.alive rib := by
    have active : (rib.nexthop.map (scene.nexthopActiveCheck rib set)).map active =
        rib.nexthop.map (scene.reaches (rib.check .internal)) := by
      rw [List.map_map]
      exact map_congr_left fun nexthop _ => scene.active_nexthopActiveCheck rib set nexthop
    rw [Rib.live, checked, any_active, active, List.any_map]
    rfl
  rcases scene.nexthopActiveUpdate_eq rib set with same | same <;> rw [same] <;> exact live

theorem Scene.nexthopActiveNum_ne_zero (few : rib.nexthop.length < 256) :
    (scene.nexthopActiveUpdate set rib).nexthopActiveNum ≠ 0 ↔ scene.alive rib = true := by
  have count : (scene.checked rib set).nexthopActiveNum ≠ 0 ↔ scene.alive rib = true := by
    have bound : (rib.nexthop.map (scene.nexthopActiveCheck rib set)).countP active < 256 :=
      lt_of_le_of_lt countP_le_length (by simpa using few)
    have zero : BitVec.ofNat 8
        ((rib.nexthop.map (scene.nexthopActiveCheck rib set)).countP Nexthop.active) ≠ 0 ↔
        0 < (rib.nexthop.map (scene.nexthopActiveCheck rib set)).countP active := by
      rw [Ne, ← BitVec.toNat_inj, BitVec.toNat_ofNat, Nat.mod_eq_of_lt bound]
      exact Nat.pos_iff_ne_zero.symm
    rw [checked, zero, alive]
    simp [scene.active_nexthopActiveCheck]
  rcases scene.nexthopActiveUpdate_eq rib set with same | same <;> rw [same] <;> exact count

end

theorem Rib.setFib_alike (fib : Bool) : rib.Alike (rib.setFib fib) := by
  refine ⟨?_, rfl, ?_⟩
  · simp [core, setFib, check, comp_def, key]
  · simp [live, setFib, comp_def]

theorem markFib_map {Value : Type} (f : Nexthop → Value)
    (blind : ∀ nexthop, f { nexthop with fib := true } = f nexthop)
    (room : Option Nat) (hops : List Nexthop) : (markFib room hops).map f = hops.map f := by
  fun_induction markFib room hops with
  | case1 => rfl
  | case2 => rfl
  | case3 room nexthop rest more active ih => rw [map_cons, map_cons, ih, blind]
  | case4 room nexthop rest more idle ih => rw [map_cons, map_cons, ih]

theorem Rib.markFib_alike (room : Option Nat) :
    rib.Alike { rib with nexthop := markFib room rib.nexthop } := by
  refine ⟨?_, rfl, ?_⟩
  · simp only [core, markFib_map key (fun _ => rfl)]
    rfl
  · rw [live, live, any_active, any_active, markFib_map active (fun _ => rfl)]

theorem Surroundings.kernelAddIpv4_alike (env : Surroundings) :
    rib.Alike (env.kernelAddIpv4 rib) := by
  rw [kernelAddIpv4]
  split
  · exact rib.setFib_alike true
  · split
    · exact rib.markFib_alike _
    · exact rib.markFib_alike _

theorem withdraw_alike (p : PrefixIpv4) : rib.Alike (withdraw p rib).1 := by
  rw [withdraw]
  split
  · exact ⟨rfl, rfl, rfl⟩
  · exact rib.setFib_alike false

theorem Rib.core_ribUninstall (p : PrefixIpv4) : (ribUninstall p rib).1.core = rib.core := by
  rw [ribUninstall]
  split
  · exact (core_unsetFlag_selected _).trans (withdraw_alike rib p).core
  · rfl

end Ribs

section Choice
variable {ribs : List Rib}

/-- A rib that the loop can choose. -/
def Rib.usable (rib : Rib) : Bool :=
  rib.nexthopActiveNum ≠ 0 && rib.distance ≠ distanceInfinity

/-- The choice among some ribs: a connected route where there is one, else a route of the
least distance. -/
structure Chosen (seen : List Rib) (select : Rib) : Prop where
  usable : select.usable = true
  connect : ∀ rib ∈ seen, rib.usable = true → rib.type = routeConnect → select.type = routeConnect
  least : select.type ≠ routeConnect → ∀ rib ∈ seen, rib.usable = true →
    select.distance ≤ rib.distance

theorem Rib.replaces_eq (rib : Rib) (select : Option Rib) : rib.replaces select =
    (rib.usable &&
      (select.all (fun select => rib.distance < select.distance) || rib.type = routeConnect)) := rfl

variable {seen : List Rib} {rib select : Rib}

theorem Chosen.pass (chosen : Chosen seen select) (idle : rib.usable = false) :
    Chosen (rib :: seen) select := by
  refine ⟨chosen.usable, forall_mem_cons.mpr ⟨fun able => ?_, chosen.connect⟩,
    fun apart => forall_mem_cons.mpr ⟨fun able => ?_, chosen.least apart⟩⟩
  · exact absurd able (by simp [idle])
  · exact absurd able (by simp [idle])

theorem Chosen.replace (chosen : Chosen seen select) (able : rib.usable = true)
    (regular : select.type = routeConnect → select.distance = 0)
    (better : rib.distance < select.distance ∨ rib.type = routeConnect) :
    Chosen (rib :: seen) rib := by
  by_cases connect : rib.type = routeConnect
  · exact ⟨able, fun _ _ _ _ => connect, fun apart => absurd connect apart⟩
  · have less : rib.distance < select.distance := better.resolve_right connect
    have apart : select.type ≠ routeConnect := fun select_connect => by
      rw [regular select_connect] at less
      exact nomatch less
    refine ⟨able, forall_mem_cons.mpr ⟨fun _ own => own, fun other member able own => ?_⟩,
      fun _ => forall_mem_cons.mpr ⟨fun _ => BitVec.le_refl _, fun other member able => ?_⟩⟩
    · exact absurd (chosen.connect other member able own) apart
    · exact BitVec.le_trans (BitVec.le_of_lt less) (chosen.least apart other member able)

theorem Chosen.stay (chosen : Chosen seen select)
    (worse : ¬ (rib.distance < select.distance ∨ rib.type = routeConnect)) :
    Chosen (rib :: seen) select := by
  rw [not_or] at worse
  refine ⟨chosen.usable, forall_mem_cons.mpr ⟨fun _ own => absurd own worse.2, chosen.connect⟩,
    fun apart => forall_mem_cons.mpr ⟨fun _ => BitVec.not_lt.mp worse.1, chosen.least apart⟩⟩

theorem Chosen.first (able : rib.usable = true) (idle : ∀ other ∈ seen, other.usable = false) :
    Chosen (rib :: seen) rib := by
  refine ⟨able, forall_mem_cons.mpr ⟨fun _ connect => connect, fun other member able => ?_⟩,
    fun _ => forall_mem_cons.mpr ⟨fun _ => BitVec.le_refl _, fun other member able => ?_⟩⟩
  · exact absurd able (by simp [idle other member])
  · exact absurd able (by simp [idle other member])

/-- What the loop knows after some of the ribs. -/
def Choice (ribs seen : List Rib) : Option Nat → Prop
  | none => ∀ rib ∈ seen, rib.usable = false
  | some select => ∃ rib, ribs[select]? = some rib ∧ Chosen seen rib

theorem Choice.subset {all select} (choice : Choice ribs all select)
    (part : ∀ rib ∈ seen, rib ∈ all) : Choice ribs seen select := by
  cases select with
  | none => exact fun rib member => choice rib (part rib member)
  | some select =>
    obtain ⟨rib, there, chosen⟩ := choice
    exact ⟨rib, there, chosen.usable, fun other member => chosen.connect other (part other member),
      fun apart other member => chosen.least apart other (part other member)⟩

section
variable (regular : ∀ rib ∈ ribs, rib.type = routeConnect → rib.distance = 0)
include regular

theorem Choice.step {select} (choice : Choice ribs seen select) {index}
    (there : ribs[index]? = some rib) :
    Choice ribs (rib :: seen)
    (if rib.replaces (select.bind (ribs[·]?)) then some index else select) := by
  rw [replaces_eq]
  cases able : rib.usable with
  | false =>
    cases select with
    | none => exact forall_mem_cons.mpr ⟨able, choice⟩
    | some select =>
      obtain ⟨old, found, chosen⟩ := choice
      exact ⟨old, found, chosen.pass able⟩
  | true =>
    cases select with
    | none => exact ⟨rib, there, .first able choice⟩
    | some select =>
      obtain ⟨old, found, chosen⟩ := choice
      simp only [bind_some, found, all_some, Bool.true_and, Bool.or_eq_true, decide_eq_true_eq]
      split
      · rename_i better
        exact ⟨rib, there, chosen.replace able (regular old (mem_of_getElem? found)) better⟩
      · rename_i worse
        exact ⟨old, found, chosen.stay worse⟩

theorem selectLoop_choice (order : List Nat) {select} (choice : Choice ribs seen select) :
    ∃ all, Choice ribs all (selectLoop ribs select order) ∧ (∀ rib ∈ seen, rib ∈ all) ∧
      ∀ index ∈ order, ∀ rib, ribs[index]? = some rib → rib ∈ all := by
  induction order generalizing seen select with
  | nil => exact ⟨seen, choice, fun _ member => member, nofun⟩
  | cons index rest ih =>
    rw [selectLoop]
    split
    · rename_i missing
      obtain ⟨all, final, kept, covered⟩ := ih choice
      refine ⟨all, final, kept, forall_mem_cons.mpr ⟨fun rib there => ?_, covered⟩⟩
      cases missing.symm.trans there
    · rename_i rib there
      have next := choice.step regular there
      rw [← apply_ite (fun select => selectLoop ribs select rest)]
      obtain ⟨all, final, kept, covered⟩ := ih next
      refine ⟨all, final, fun other member => kept other (.tail _ member),
        forall_mem_cons.mpr ⟨fun other found => ?_, covered⟩⟩
      cases there.symm.trans found
      exact kept rib (by simp)

theorem selectRib_choice : Choice ribs ribs (selectRib ribs) := by
  have start : Choice ribs [] none := nofun
  obtain ⟨all, final, -, covered⟩ := selectLoop_choice regular (range ribs.length) start
  refine final.subset fun rib member => ?_
  obtain ⟨index, there⟩ := mem_iff_getElem?.mp member
  exact covered index (mem_range.mpr (List.getElem?_eq_some_iff.mp there).1) rib there

end
end Choice

section Process
variable (scene : Scene)

section
variable (rib : Rib)

theorem Scene.core_installRib : (scene.installRib rib).core = rib.core := by
  rw [installRib]
  rw [core_setFlag_selected]
  split
  · exact scene.core_nexthopActiveUpdate rib true
  · exact (kernelAddIpv4_alike _ _).core.trans (scene.core_nexthopActiveUpdate rib true)

theorem Scene.live_installRib : (scene.installRib rib).live = scene.alive rib := by
  show live (if _ then _ else _) = _
  split
  · exact scene.live_nexthopActiveUpdate rib true
  · exact (kernelAddIpv4_alike _ _).live.trans (scene.live_nexthopActiveUpdate rib true)

theorem Scene.selected_installRib : (scene.installRib rib).check .selected = true := by
  simp [installRib]

theorem Scene.refreshRib_alike : (scene.refreshRib rib).core = rib.core ∧
    (scene.refreshRib rib).check .selected = rib.check .selected ∧
    (scene.refreshRib rib).live = scene.alive rib := by
  have withdrawn := withdraw_alike rib scene.top
  have updated : (scene.nexthopActiveUpdate true (withdraw scene.top rib).1).core = rib.core ∧
      (scene.nexthopActiveUpdate true (withdraw scene.top rib).1).check .selected =
        rib.check .selected ∧
      (scene.nexthopActiveUpdate true (withdraw scene.top rib).1).live = scene.alive rib :=
    ⟨(scene.core_nexthopActiveUpdate _ true).trans withdrawn.core,
      (scene.selected_nexthopActiveUpdate _ true).trans withdrawn.selected,
      (scene.live_nexthopActiveUpdate _ true).trans (scene.alive_congr withdrawn.core)⟩
  rw [refreshRib]
  split
  · exact updated
  · have added := kernelAddIpv4_alike (scene.nexthopActiveUpdate true (withdraw scene.top rib).1)
      scene.toSurroundings
    exact ⟨added.core.trans updated.1, added.selected.trans updated.2.1,
      added.live.trans updated.2.2⟩

/-- The rib that gives way. -/
def Scene.dropRib : Rib :=
  scene.nexthopActiveUpdate true ((withdraw scene.top rib).1.unsetFlag .selected)

theorem Scene.core_dropRib : (scene.dropRib rib).core = rib.core :=
  (scene.core_nexthopActiveUpdate _ true).trans
    ((core_unsetFlag_selected _).trans (withdraw_alike rib scene.top).core)

theorem Scene.live_dropRib : (scene.dropRib rib).live = scene.alive rib :=
  (scene.live_nexthopActiveUpdate _ true).trans
    (scene.alive_congr ((core_unsetFlag_selected _).trans (withdraw_alike rib scene.top).core))

theorem Scene.selected_dropRib : (scene.dropRib rib).check .selected = false :=
  (scene.selected_nexthopActiveUpdate _ true).trans (by simp)

end

/-- Ribs with the given parts of others, each with the active nexthops that the scene
gives it. -/
structure Scene.Current (before after : List Rib) : Prop where
  core : after.map Rib.core = before.map Rib.core
  live : ∀ rib ∈ after, rib.live = scene.alive rib

variable {scene} {before after : List Rib}

section
variable (current : scene.Current before after)
include current

theorem Scene.Current.modify {f}
    (core : ∀ rib, (f rib).core = rib.core) (live : ∀ rib, (f rib).live = scene.alive rib)
    (index : Nat) :
    scene.Current before (after.modify index f) := by
  refine ⟨(map_modify core after index).trans current.core, fun rib member => ?_⟩
  rcases mem_modify member with own | ⟨old, -, rfl⟩
  · exact current.live rib own
  · rw [live, scene.alive_congr (core old)]

theorem Scene.current_dropFib (del : Option Rib) :
    scene.Current before (scene.dropFib after del).1 := by
  rw [dropFib]
  split
  · exact current
  · split
    · exact current
    · exact current.modify scene.core_dropRib scene.live_dropRib _

theorem Scene.current_takeSelect (select : Option Nat) :
    scene.Current before (scene.takeSelect after select).1 := by
  cases select with
  | none => exact current
  | some select => exact current.modify scene.core_installRib scene.live_installRib select

end

theorem Scene.current_update (ribs : List Rib) :
    scene.Current ribs (ribs.map (scene.nexthopActiveUpdate false)) := by
  refine ⟨?_, fun rib member => ?_⟩
  · rw [List.map_map]
    exact map_congr_left fun rib _ => scene.core_nexthopActiveUpdate rib false
  · obtain ⟨old, -, rfl⟩ := mem_map.mp member
    rw [scene.live_nexthopActiveUpdate,
      scene.alive_congr (scene.core_nexthopActiveUpdate old false)]

variable (scene) in
theorem Scene.ribProcess_current (del : Option Rib) :
    scene.Current (scene.table scene.top) (scene.ribProcess del).1 := by
  have updated := scene.current_update (scene.table scene.top)
  rw [ribProcess]
  split
  · split
    · exact updated
    · split
      · exact updated.modify (fun rib => (scene.refreshRib_alike rib).1)
          (fun rib => (scene.refreshRib_alike rib).2.2) _
      · exact updated
  · exact current_takeSelect (current_dropFib updated del) _

theorem Surroundings.process_other (env : Surroundings) (table : RibTable) {p other}
    (apart : other ≠ p)
    (ribs : List Rib) (del : Option Rib) : (env.process table p ribs del).1 other = table other :=
  update_of_ne apart ..

theorem Surroundings.process_core (env : Surroundings) (table : RibTable) (p : PrefixIpv4)
    (ribs : List Rib)
    (del : Option Rib) : ((env.process table p ribs del).1 p).map core = ribs.map core := by
  have current := ribProcess_current { env with table := update table p ribs, top := p } del
  have own : (env.process table p ribs del).1 p = _ := update_self ..
  have node : update table p ribs p = ribs := update_self ..
  rw [own, current.core]
  exact congrArg _ node

end Process
end Zebra.Zebrad
