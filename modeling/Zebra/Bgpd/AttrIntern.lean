import Mathlib
import Zebra.Base.Pool
import Zebra.Base.Run
import Zebra.Bgpd.AttrParse

/-! `bgp_attr_intern` and `bgp_attr_unintern` of bgpd/bgp_attr.c over the hashes themselves. -/
namespace Zebra.Bgpd
open Base List Pool Prod
namespace Attr

/-- The fields that are no pointers. -/
def bare (attr : Attr) : Attr :=
  { attr with aspath := none, community := none, ecommunity := none, cluster := none,
              transit := none }

/-- The objects in the order in which `bgp_attr_intern` takes them. -/
def slots (attr : Attr) : List (Option Ref) :=
  [attr.aspath.map Ref.aspath, attr.community.map Ref.community, attr.ecommunity.map Ref.ecommunity,
    attr.cluster.map Ref.cluster, attr.transit.map Ref.transit]

/-- All that can be read of an attribute set whose pointers are followed. -/
def fields (attr : Attr) : Attr × List (Option (Option Ref)) :=
  (attr.bare, attr.slots.map (Option.map some))

theorem eq_of_hashCmp {attr other : Attr} (equal : attr.hashCmp other = true)
    (originator : attr.originatorId = other.originatorId) : attr = other := by
  cases attr
  simp [hashCmp] at equal originator
  simp [equal, originator]

end Attr

/-- `struct attr` in the hash. -/
structure AttrCell where
  scalars : Attr
  pointers : List (Option Nat)
deriving DecidableEq

/-- The objects that the pointers reach. -/
def AttrCell.targets (cell : AttrCell) : List Nat :=
  cell.pointers.reduceOption

/-- `attrhash_cmp`: objects are compared by address. -/
def attrhashCmp (attr1 attr2 : AttrCell) : Bool :=
  attr1.scalars.hashCmp attr2.scalars && attr1.pointers = attr2.pointers

/-- `ashash`, `comhash`, `ecomhash`, `cluster_hash` and `transit_hash` in one, and `attrhash`. -/
structure Hashes where
  objects : Pool Ref := {}
  attrs : Pool AttrCell := {}

/-- An argument of `bgp_attr_intern`. Its objects are interned already where `known`
has their address (`refcnt` is not zero) and are not interned elsewhere. -/
structure AttrArgument where
  attr : Attr
  known : Ref → Option Nat := fun _ => none

namespace Hashes

def internObject (known : Ref → Option Nat) (objects : Pool Ref) :
    Option Ref → Pool Ref × Option Nat
  | none => (objects, none)
  | some ref =>
    match known ref with
    | some id => (objects.hold id, some id)
    | none =>
      let interned := objects.intern (fun ref other => decide (ref = other)) ref
      (interned.1, some interned.2)

def internObjects (known : Ref → Option Nat) (objects : Pool Ref) :
    List (Option Ref) → Pool Ref × List (Option Nat)
  | [] => (objects, [])
  | slot :: rest =>
    let first := internObject known objects slot
    let others := internObjects known first.1 rest
    (others.1, first.2 :: others.2)

def bgpAttrIntern (hashes : Hashes) (argument : AttrArgument) : Hashes × Nat :=
  let objects := internObjects argument.known hashes.objects argument.attr.slots
  let find := hashes.attrs.intern attrhashCmp ⟨argument.attr.bare, objects.2⟩
  (⟨objects.1, find.1⟩, find.2)

def bgpAttrUnintern (hashes : Hashes) (id : Nat) : Hashes :=
  match hashes.attrs.object? id with
  | none => hashes
  | some cell => ⟨hashes.objects.releases cell.targets, hashes.attrs.release id⟩

/-- What a reader finds behind a pointer to an interned attribute set. -/
def read (hashes : Hashes) (cell : AttrCell) : Attr × List (Option (Option Ref)) :=
  (cell.scalars, cell.pointers.map (Option.map hashes.objects.object?))

end Hashes

/-- The hashes with the references that are out: `outside` those that others hold on the
objects, `issued` the answers of `bgp_attr_intern` with the arguments' contents. -/
structure Interning extends Hashes where
  outside : List Nat := []
  issued : List (Nat × Attr) := []

inductive InternOp where
  /-- `aspath_intern` and its like for a holder other than an attribute set. -/
  | hold (ref : Ref)
  /-- `aspath_unintern` and its like by such a holder. -/
  | drop (index : Nat)
  | intern (argument : AttrArgument)
  /-- `bgp_attr_unintern` of an answer that is out. -/
  | unintern (index : Nat)

def Interning.step (state : Interning) : InternOp → Interning
  | .hold ref =>
    let interned := state.objects.intern (fun ref other => decide (ref = other)) ref
    { state with objects := interned.1, outside := interned.2 :: state.outside }
  | .drop index =>
    match state.outside[index]? with
    | none => state
    | some id =>
      { state with objects := state.objects.release id, outside := state.outside.eraseIdx index }
  | .intern argument =>
    let interned := state.bgpAttrIntern argument
    { state with toHashes := interned.1, issued := (interned.2, argument.attr) :: state.issued }
  | .unintern index =>
    match state.issued[index]? with
    | none => state
    | some (id, _) =>
      { state with toHashes := state.bgpAttrUnintern id, issued := state.issued.eraseIdx index }

/-- An argument's interned objects are those that it says. -/
def Interning.Reaches (state : Interning) (argument : AttrArgument) : Prop :=
  ∀ slot ∈ argument.attr.slots, ∀ ref ∈ slot, ∀ id ∈ argument.known ref,
    state.objects.object? id = some ref

/-- No attribute set of the hash has the argument's contents except for the originator. -/
def Interning.NoNamesake (state : Interning) (attr : Attr) : Prop :=
  ∀ id < state.attrs.fresh, ∀ cell ∈ state.attrs.object? id, cell.scalars.hashCmp attr.bare = true →
    (state.read cell).2 = attr.fields.2 → cell.scalars.originatorId = attr.originatorId

/-- Every answer that is out reads as what was asked for. -/
def Interning.Faithful (state : Interning) : Prop :=
  ∀ answer ∈ state.issued, (state.attrs.object? answer.1).map state.read = some answer.2.fields

section Objects
variable {pool : Pool Ref} {held : Nat → Nat} {known : Ref → Option Nat}

/-- What interning the objects of some slots does. -/
structure ObjectsInterned (pool : Pool Ref) (held : Nat → Nat) (slots : List (Option Ref))
    (result : Pool Ref × List (Option Nat)) : Prop where
  backed : result.1.Backed fun id => held id + result.2.reduceOption.count id
  kept : ∀ {id ref}, pool.object? id = some ref → result.1.object? id = some ref
  reads : result.2.map (Option.map result.1.object?) = slots.map (Option.map some)

theorem Interned.same {ref result}
    (interned : Interned (fun ref other => decide (ref = other)) pool held ref result) :
    result.1.object? result.2 = some ref := by
  obtain ⟨found, there, rfl | ⟨-, same⟩⟩ := interned.answer
  · exact there
  · obtain rfl : found = ref := of_decide_eq_true same
    exact there

theorem reads_kept {other : Pool Ref} {pointers : List (Option Nat)} {slots : List (Option Ref)}
    (kept : ∀ {id ref}, some id ∈ pointers → pool.object? id = some ref →
      other.object? id = some ref)
    (reads : pointers.map (Option.map pool.object?) = slots.map (Option.map some)) :
    pointers.map (Option.map other.object?) = slots.map (Option.map some) := by
  rw [← reads]
  apply map_congr_left
  intro pointer member
  cases pointer with
  | none => rfl
  | some id =>
    have read : some (pool.object? id) ∈ slots.map (Option.map some) := by
      rw [← reads]
      exact mem_map_of_mem member
    obtain ⟨slot, -, at_slot⟩ := mem_map.mp read
    obtain ⟨ref, -, there⟩ := Option.map_eq_some_iff.mp at_slot
    rw [Option.map_some, Option.map_some, ← there, kept member there.symm]

theorem count_pointer (own id : Nat) :
    [some own].reduceOption.count id = if id = own then 1 else 0 :=
  (count_first id).trans (zero_add _)

theorem internObject_spec (backed : pool.Backed held) {slot}
    (reaches : ∀ ref ∈ slot, ∀ id ∈ known ref, pool.object? id = some ref) :
    ObjectsInterned pool held [slot]
      ((Hashes.internObject known pool slot).1, [(Hashes.internObject known pool slot).2]) := by
  cases slot with
  | none => exact ⟨backed, fun there => there, rfl⟩
  | some ref =>
    rw [Hashes.internObject]
    split
    · rename_i id address
      have there := reaches ref rfl id address
      have present : 0 < held id := by
        obtain ⟨counted, found, -⟩ := Option.map_eq_some_iff.mp there
        exact (backed.counted found).2
      refine ⟨(backed.hold present).congr fun other => ?_, fun before => ?_, ?_⟩
      · exact congrArg (held other + ·) (count_pointer _ other)
      · rw [hold_object?]
        exact before
      · simp [hold_object?, there]
    · have interned := backed.intern (fun ref other => decide (ref = other)) ref
      refine ⟨interned.backed.congr fun other => ?_, interned.kept, ?_⟩
      · exact congrArg (held other + ·) (count_pointer _ other)
      · simp [Interned.same interned]

theorem internObjects_spec {slots : List (Option Ref)} (backed : pool.Backed held)
    (reaches : ∀ slot ∈ slots, ∀ ref ∈ slot, ∀ id ∈ known ref, pool.object? id = some ref) :
    ObjectsInterned pool held slots (Hashes.internObjects known pool slots) := by
  induction slots generalizing pool held with
  | nil => exact ⟨backed, fun there => there, rfl⟩
  | cons slot rest ih =>
    have first := internObject_spec backed (reaches slot (by simp))
    have others := ih first.backed fun slot member ref ofSlot id address =>
      first.kept (reaches slot (by simp [member]) ref ofSlot id address)
    refine ⟨others.backed.congr fun id => ?_, fun there => others.kept (first.kept there), ?_⟩
    · rw [Hashes.internObjects, ← singleton_append, reduceOption_append, count_append, add_assoc]
    · rw [Hashes.internObjects, map_cons, others.reads]
      exact congrArg (· ++ rest.map (Option.map some))
        (reads_kept (fun _ => others.kept) first.reads)

end Objects

namespace Interning

/-- The objects that an interned attribute set holds. -/
def targets (attrs : Pool AttrCell) (id : Nat) : List Nat :=
  ((attrs.object? id).map AttrCell.targets).getD []

/-- The objects that the answers that are out hold, once for each answer. -/
def drawn (attrs : Pool AttrCell) (issued : List (Nat × Attr)) : List Nat :=
  issued.flatMap fun answer => targets attrs answer.1

def Reads (objects : Pool Ref) (attrs : Pool AttrCell) (id : Nat) (attr : Attr) : Prop :=
  ∃ cell, attrs.object? id = some cell ∧ cell.scalars = attr.bare ∧
    cell.pointers.map (Option.map objects.object?) = attr.slots.map (Option.map some)

/-- The counts of both hashes are the references that are out. -/
structure Sound (state : Interning) : Prop where
  attrs : state.attrs.Backed fun id => (state.issued.map Prod.fst).count id
  objects : state.objects.Backed fun id =>
    state.outside.count id + (drawn state.attrs state.issued).count id
  reads : ∀ answer ∈ state.issued, Reads state.objects state.attrs answer.1 answer.2

variable {state : Interning} {issued : List (Nat × Attr)}

theorem Reads.congr {objects other attrs fewer id} {attr : Attr}
    (reads : Reads objects attrs id attr) (same : fewer.object? id = attrs.object? id)
    (kept : ∀ {target ref}, target ∈ targets attrs id → objects.object? target = some ref →
      other.object? target = some ref) : Reads other fewer id attr := by
  obtain ⟨cell, there, scalars, reads⟩ := reads
  refine ⟨cell, same.trans there, scalars, reads_kept (fun pointer => kept ?_) reads⟩
  rw [targets, there]
  exact reduceOption_mem_iff.mpr pointer

theorem mem_drawn {attrs answer target} (member : answer ∈ issued)
    (reached : target ∈ targets attrs answer.1) : 0 < (drawn attrs issued).count target :=
  count_pos_iff.mpr (mem_flatMap.mpr ⟨answer, member, reached⟩)

theorem drawn_congr {attrs other}
    (same : ∀ answer ∈ issued, other.object? answer.1 = attrs.object? answer.1) :
    drawn other issued = drawn attrs issued := by
  refine congrArg flatten (map_congr_left fun answer member => ?_)
  rw [targets, targets, same answer member]

theorem kept_out {attrs other : Pool AttrCell} {objects}
    (reads : ∀ answer ∈ issued, Reads objects attrs answer.1 answer.2)
    (kept : ∀ {id cell}, attrs.object? id = some cell → other.object? id = some cell) :
    ∀ answer ∈ issued, other.object? answer.1 = attrs.object? answer.1 := by
  intro answer member
  obtain ⟨cell, there, -⟩ := reads answer member
  exact (kept there).trans there.symm

section
variable (sound : state.Sound)
include sound

theorem Sound.faithful : state.Faithful := by
  intro answer member
  obtain ⟨cell, there, scalars, reads⟩ := sound.reads answer member
  rw [there, Option.map_some, Hashes.read, Attr.fields, scalars, reads]

theorem Sound.hold (ref : Ref) : (state.step (.hold ref)).Sound := by
  have interned := sound.objects.intern (fun ref other => decide (ref = other)) ref
  refine ⟨sound.attrs, interned.backed.congr fun id => ?_, fun answer member => ?_⟩
  · exact (congrArg (· + (drawn state.attrs state.issued).count id) (count_first id)).trans
      (Nat.add_right_comm ..)
  · exact (sound.reads answer member).congr rfl fun _ => interned.kept

theorem Sound.drop (index : Nat) : (state.step (.drop index)).Sound := by
  rw [step]
  split
  · exact sound
  · rename_i id at_index
    obtain ⟨bound, rfl⟩ := List.getElem?_eq_some_iff.mp at_index
    have counts (id : Nat) :=
      ((List.getElem_cons_eraseIdx_perm bound).count_eq id).symm.trans (count_first id)
    have present := counts state.outside[index]
    rw [if_pos rfl] at present
    refine ⟨sound.attrs, (sound.objects.release ?_).congr fun id => ?_, fun answer member => ?_⟩
    · omega
    · have := counts id
      show (state.outside.eraseIdx index).count id + (drawn state.attrs state.issued).count id = _
      omega
    · refine (sound.reads answer member).congr rfl fun {target ref} reached there => ?_
      rw [← there]
      apply sound.objects.release_object?
      have := counts target
      have out : 0 < (drawn state.attrs state.issued).count target := mem_drawn member reached
      omega

/-- The answer is the argument: where another set of the hash answers, it has the same
objects, and then the same scalars. -/
theorem intern_answer {argument : AttrArgument} {objects : Pool Ref × List (Option Nat)}
    {find : Pool AttrCell × Nat} {held : Nat → Nat}
    (interned : ObjectsInterned state.objects held argument.attr.slots objects)
    (found : Interned attrhashCmp state.attrs (fun id => (state.issued.map fst).count id)
      ⟨argument.attr.bare, objects.2⟩ find) (apart : state.NoNamesake argument.attr) :
    find.1.object? find.2 = some ⟨argument.attr.bare, objects.2⟩ := by
  obtain ⟨cell, there, rfl | ⟨before, same⟩⟩ := found.answer
  · exact there
  · obtain ⟨equal, pointers⟩ : cell.scalars.hashCmp argument.attr.bare = true ∧
        cell.pointers = objects.2 := by
      simpa [attrhashCmp] using same
    obtain ⟨counted, at_cell, rfl⟩ := Option.map_eq_some_iff.mp before
    obtain ⟨answer, member, own⟩ := mem_map.mp (count_pos_iff.mp (sound.attrs.counted at_cell).2)
    obtain ⟨_, own_cell, -, reads⟩ := sound.reads answer member
    rw [own] at own_cell
    cases before.symm.trans own_cell
    have contents := reads_kept (fun _ => interned.kept) reads
    have read : counted.object.pointers.map (Option.map state.objects.object?) =
        argument.attr.slots.map (Option.map some) := by
      rw [reads, ← contents, pointers, interned.reads]
    have originator := apart find.2 (sound.attrs.young at_cell) _ before equal read
    rw [there, ← Attr.eq_of_hashCmp equal originator, ← pointers]

theorem Sound.intern {argument : AttrArgument} (reaches : state.Reaches argument)
    (apart : state.NoNamesake argument.attr) : (state.step (.intern argument)).Sound := by
  have interned := internObjects_spec sound.objects reaches
  have found := sound.attrs.intern attrhashCmp ⟨argument.attr.bare,
    (Hashes.internObjects argument.known state.objects argument.attr.slots).2⟩
  have answer := intern_answer sound interned found apart
  have same := kept_out sound.reads found.kept
  refine ⟨found.backed.congr fun id => ?_, interned.backed.congr fun id => ?_, fun out member => ?_⟩
  · exact count_first id
  · have step : drawn (state.step (.intern argument)).attrs (state.step (.intern argument)).issued =
        (Hashes.internObjects argument.known state.objects argument.attr.slots).2.reduceOption ++
          drawn state.attrs state.issued := by
      rw [← drawn_congr same]
      exact congrArg (· ++ drawn _ state.issued)
        (congrArg (fun cell => (cell.map AttrCell.targets).getD []) answer)
    rw [step, count_append]
    show state.outside.count id + _ = _
    omega
  · rcases mem_cons.mp member with rfl | before
    · exact ⟨_, answer, rfl, interned.reads⟩
    · exact (sound.reads out before).congr (same out before) fun _ => interned.kept

end

section Erased
variable {issued : List (Nat × Attr)} {index id : Nat} {attr : Attr}
  (at_index : issued[index]? = some (id, attr))
include at_index

theorem erased_perm : ((id, attr) :: issued.eraseIdx index).Perm issued := by
  obtain ⟨bound, own⟩ := List.getElem?_eq_some_iff.mp at_index
  rw [← own]
  exact List.getElem_cons_eraseIdx_perm bound

theorem count_erased (other : Nat) : (issued.map fst).count other =
    ((issued.eraseIdx index).map fst).count other + if other = id then 1 else 0 :=
  (((erased_perm at_index).map fst).count_eq other).symm.trans (count_first other)

theorem drawn_erased {attrs cell} (there : attrs.object? id = some cell) (target : Nat) :
    (drawn attrs issued).count target =
      cell.targets.count target + (drawn attrs (issued.eraseIdx index)).count target := by
  rw [drawn, ← ((erased_perm at_index).flatMap_right _).count_eq, flatMap_cons, count_append,
    targets, there]
  rfl

end Erased

theorem Sound.unintern (sound : state.Sound) (index : Nat) :
    (state.step (.unintern index)).Sound := by
  rw [step]
  split
  · exact sound
  · rename_i id attr at_index
    obtain ⟨cell, there, -⟩ := sound.reads (id, attr) (mem_of_getElem? at_index)
    have fewer := count_erased at_index
    have less := drawn_erased at_index there
    have present : 0 < (state.issued.map fst).count id := by
      rw [fewer, if_pos rfl]
      exact Nat.succ_pos _
    have enough (target : Nat) : cell.targets.count target ≤
        state.outside.count target + (drawn state.attrs state.issued).count target := by
      rw [less]
      omega
    have same : ∀ answer ∈ state.issued.eraseIdx index,
        (state.attrs.release id).object? answer.1 = state.attrs.object? answer.1 := by
      intro answer member
      apply sound.attrs.release_object?
      have out : 0 < ((state.issued.eraseIdx index).map fst).count answer.1 :=
        count_pos_iff.mpr (mem_map_of_mem member)
      rw [fewer, Nat.add_sub_cancel]
      exact out
    rw [Hashes.bgpAttrUnintern, there]
    refine ⟨(sound.attrs.release present).congr fun other => ?_,
      (sound.objects.releases enough).congr fun target => ?_, fun answer member => ?_⟩
    · rw [fewer, Nat.add_sub_cancel]
    · have erased := drawn_congr same
      show state.outside.count
        target + (drawn (state.attrs.release id) (state.issued.eraseIdx index)).count target = _
      rw [erased, less]
      omega
    · refine (sound.reads answer (mem_of_mem_eraseIdx member)).congr (same answer member)
        fun {target ref} reached there => ?_
      have out : 0 < (drawn state.attrs (state.issued.eraseIdx index)).count target :=
        mem_drawn member reached
      rw [← there]
      apply sound.objects.releases_object? enough
      rw [less]
      omega

/-- A call of `bgp_attr_intern` is given objects that are there. -/
def Proper (state : Interning) : InternOp → Prop
  | .intern argument => state.Reaches argument
  | _ => True

/-- Also, it finds no set that differs in the originator only. -/
def Admits (state : Interning) : InternOp → Prop
  | .intern argument => state.Reaches argument ∧ state.NoNamesake argument.attr
  | _ => True

theorem Sound.step {state : Interning} (sound : state.Sound) (op : InternOp)
    (admitted : state.Admits op) :
    (state.step op).Sound := by
  cases op with
  | hold ref => exact sound.hold ref
  | drop index => exact sound.drop index
  | intern argument => exact sound.intern admitted.1 admitted.2
  | unintern index => exact sound.unintern index

theorem Sound.initial : ({} : Interning).Sound := by
  refine ⟨⟨nofun, fun held => ?_, nofun⟩, ⟨nofun, fun held => ?_, nofun⟩, nofun⟩
  · exact nomatch held
  · exact absurd held (by simp [drawn])

instance (state : Interning) (argument : AttrArgument) : Decidable (state.Reaches argument) :=
  inferInstanceAs (Decidable (∀ slot ∈ argument.attr.slots, ∀ ref ∈ slot, ∀ id ∈ argument.known ref,
    state.objects.object? id = some ref))

instance (state : Interning) (attr : Attr) : Decidable (state.NoNamesake attr) :=
  Nat.decidableBallLT state.attrs.fresh fun id _ => ∀ cell ∈ state.attrs.object? id,
    cell.scalars.hashCmp attr.bare = true → (state.read cell).2 = attr.fields.2 →
      cell.scalars.originatorId = attr.originatorId

instance (state : Interning) : (op : InternOp) → Decidable (state.Proper op)
  | .intern argument => inferInstanceAs (Decidable (state.Reaches argument))
  | .hold _ | .drop _ | .unintern _ => .isTrue trivial

instance (state : Interning) : (op : InternOp) → Decidable (state.Admits op)
  | .intern argument =>
    inferInstanceAs (Decidable (state.Reaches argument ∧ state.NoNamesake argument.attr))
  | .hold _ | .drop _ | .unintern _ => .isTrue trivial

/-- Every answer that is out, at every point of a run, reads as the set that was asked for. -/
theorem interned_faithful {ops : List InternOp} (run : Allowed Interning.step Admits {} ops) :
    (ops.foldl Interning.step {}).Faithful :=
  (run.invariant (fun _ op admitted sound => sound.step op admitted) Sound.initial).faithful

/-- Two sets that `attrhash_cmp` can tell apart, one of them given with an interned AS path. -/
def apartRun : List InternOp :=
  [.hold (.aspath ⟨[]⟩), .intern ⟨{ origin := 1, aspath := some ⟨[]⟩ }, fun _ => some 0⟩,
    .intern ⟨{ origin := 2, aspath := some ⟨[]⟩, originatorId := 7 }, fun _ => none⟩,
      .unintern 1, .drop 0]

theorem interned_faithful_apart : Allowed Interning.step Admits {} apartRun ∧
    (apartRun.foldl Interning.step {}).Faithful :=
  have run : Allowed Interning.step Admits {} apartRun := by decide +kernel
  ⟨run, interned_faithful run⟩

/-- A route with an originator. -/
def reflected (originator : Ipv4) : Attr :=
  { (((({} : Attr).mark .origin).mark .asPath).mark .nextHop).mark .originatorId with
    nexthop := 0x0a000001
    originatorId := originator
    aspath := some ⟨[]⟩ }

/-- Two routes that differ in the originator only. -/
def namesakeRun : List InternOp :=
  [.intern ⟨reflected 1, fun _ => none⟩, .intern ⟨reflected 2, fun _ => none⟩]

theorem not_interned_faithful :
    ¬ ∀ ops : List InternOp, Allowed Interning.step Proper {} ops →
    (ops.foldl Interning.step {}).Faithful := by
  intro faithful
  have second := faithful namesakeRun (by decide +kernel) (0, reflected 2) (by decide +kernel)
  exact absurd second (by decide +kernel)

end Interning
end Zebra.Bgpd
