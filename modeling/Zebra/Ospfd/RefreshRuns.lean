import Mathlib.Tactic.Ring
import Zebra.Ospfd.Refresh

namespace Zebra.Ospfd
open Function Base.Wheel List Option PacedRefresher Int Bool Event
namespace Refresher

/-- Each instance is in the slot that it names and in no other, and is locked once for it beside the
locks of others. -/
structure Sound (base : LsaId → Int) (r : Refresher) : Prop where
  index : r.index < ospfLsaRefresherSlots
  member : ∀ x (i : Nat), (r.slot i).count x = if r.refreshList x = i then 1 else 0
  range : ∀ x, r.refreshList x = -1 ∨ 0 ≤ r.refreshList x ∧ r.refreshList x < ospfLsaRefresherSlots
  lock : ∀ x, (r.lsa x).lock = base x + if r.refreshList x < 0 then 0 else 1
  held : ∀ x, 0 < base x

/-- Only the locks of the instances may differ. -/
def Alike (r after : Refresher) : Prop :=
  ∀ x, ∃ lock, after.lsa x = (r.lsa x).relock lock

theorem Alike.refl (r : Refresher) : r.Alike r := fun x => ⟨(r.lsa x).lock, rfl⟩

theorem Alike.trans {first second third : Refresher} (one : first.Alike second)
    (two : second.Alike third) :
    first.Alike third := by
  intro x
  obtain ⟨lock, same⟩ := one x
  obtain ⟨final, equal⟩ := two x
  exact ⟨final, by rw [equal, same]; rfl⟩

theorem Alike.getAge {r after : Refresher} (alike : r.Alike after) (x : LsaId) (now : Time) :
    (after.lsa x).getAge now = (r.lsa x).getAge now := by
  obtain ⟨lock, same⟩ := alike x
  rw [same]
  rfl

section Fields
variable (r : Refresher) (x other : LsaId)

theorem setLock_lsa (lock : Int) :
    (r.setLock x lock).lsa other = if other = x then (r.lsa x).relock lock else r.lsa other :=
  update_apply ..

theorem setRefreshList_refreshList (list : Int) :
    (r.setRefreshList x list).refreshList other = if other = x then list else r.refreshList other :=
  update_apply ..

theorem setQs_slot (i j : Nat) (list : Option (List LsaId)) :
    (r.setQs i list).slot j = if j = i then list.getD [] else r.slot j := by
  have queues : (r.setQs i list).qs j = if j = i then list else r.qs j := update_apply ..
  rw [slot, queues]
  split <;> rfl

theorem setLock_alike (lock : Int) : r.Alike (r.setLock x lock) := by
  intro other
  rw [setLock_lsa]
  split
  · rename_i same
    exact ⟨lock, by rw [same]⟩
  · exact ⟨_, rfl⟩

end Fields

section Sound
variable {base : LsaId → Int} {r : Refresher} {x : LsaId}

section
variable (sound : r.Sound base)
include sound

theorem Sound.mem_slot {i : Nat} : x ∈ r.slot i ↔ r.refreshList x = i := by
  rw [← count_pos_iff, sound.member x i]
  split
  · exact iff_of_true Nat.one_pos ‹_›
  · exact iff_of_false (lt_irrefl _) ‹_›

theorem Sound.nodup (i : Nat) : (r.slot i).Nodup := by
  rw [nodup_iff_count_le_one]
  intro x
  rw [sound.member x i]
  split
  · exact le_rfl
  · exact Nat.zero_le _

theorem Sound.named (registered : 0 ≤ r.refreshList x) :
    (r.refreshList x).toNat < ospfLsaRefresherSlots ∧
    r.refreshList x = ((r.refreshList x).toNat : Int) := by
  have inside := (sound.range x).resolve_left (by omega)
  omega

theorem Sound.qs (registered : 0 ≤ r.refreshList x) :
    r.qs (r.refreshList x).toNat = some (r.slot (r.refreshList x).toNat) ∧
    x ∈ r.slot (r.refreshList x).toNat := by
  have member : x ∈ r.slot (r.refreshList x).toNat := sound.mem_slot.mpr (sound.named registered).2
  refine ⟨?_, member⟩
  rw [slot] at member ⊢
  cases present : r.qs (r.refreshList x).toNat with
  | none =>
    rw [present] at member
    exact nomatch member
  | some list => rfl

end

theorem Created.sound (created : r.Created) : r.Sound fun x => (r.lsa x).lock where
  index := by rw [created.index]; decide
  member x i := by
    rw [slot, created.qs, created.refreshList]
    rfl
  range x := .inl (created.refreshList x)
  lock x := by rw [created.refreshList, if_pos (by decide), add_zero]
  held := created.held

theorem toU16_of_small {value : Int} (low : 0 ≤ value) (high : value < 65536) :
    toU16 value = value.toNat := by
  rw [toU16, emod_eq_of_lt low high]

theorem delay_nonneg (lsa : OspfLsa) (now : Time) (random : Nat) : 0 ≤ delay lsa now random := by
  rw [delay]
  split <;> omega

theorem refreshIndex_lt (r : Refresher) (x : LsaId) (now : Time) (random : Nat) :
    r.refreshIndex x now random < ospfLsaRefresherSlots := by
  have positive := Int.tdiv_nonneg (delay_nonneg (r.lsa x) now random)
    (show (0 : Int) ≤ ospfLsaRefresherGranularity by decide)
  have slots : (ospfLsaRefresherSlots : Int) = 271 := rfl
  rw [refreshIndex, slots, Int.tmod_eq_emod_of_nonneg (by omega),
    toU16_of_small (by omega) (by omega)]
  omega

/-- An instance is put in a slot. -/
def place (r : Refresher) (x : LsaId) (i : Nat) : Refresher :=
  ((r.ospfLsaLock x).setQs i (some (r.slot i ++ [x]))).setRefreshList x i

theorem place_slot (r : Refresher) (x : LsaId) (i j : Nat) :
    (r.place x i).slot j = if j = i then r.slot i ++ [x] else r.slot j :=
  setQs_slot (r.ospfLsaLock x) i j _

theorem place_refreshList (r : Refresher) (x other : LsaId) (i : Nat) :
    (r.place x i).refreshList other = if other = x then (i : Int) else r.refreshList other :=
  update_apply ..

theorem place_lsa (r : Refresher) (x other : LsaId) (i : Nat) :
    (r.place x i).lsa other = if other = x then (r.lsa x).relock ((r.lsa x).lock + 1)
    else r.lsa other :=
  update_apply ..

theorem Sound.place (sound : r.Sound base) (apart : r.refreshList x < 0) {i : Nat}
    (inside : i < ospfLsaRefresherSlots) :
    (r.place x i).Sound base := by
  refine ⟨sound.index, fun other j => ?_, fun other => ?_, fun other => ?_, sound.held⟩
  · have before := sound.member other j
    rw [place_slot, place_refreshList]
    by_cases here : j = i
    · rw [if_pos here, count_append, count_singleton, ← here, before]
      by_cases same : other = x
      · rw [same, if_pos rfl, if_neg (by omega), if_pos rfl, if_pos (beq_self_eq_true x)]
      · have unequal : ¬(x == other) = true := fun equal => same (beq_iff_eq.mp equal).symm
        rw [if_neg same, if_neg unequal, add_zero]
    · rw [if_neg here, before]
      by_cases same : other = x
      · rw [same, if_neg (by omega), if_neg (by omega)]
      · rw [if_neg same]
  · rw [place_refreshList]
    split
    · exact .inr ⟨natCast_nonneg i, ofNat_lt.mpr inside⟩
    · exact sound.range other
  · rw [place_refreshList, place_lsa]
    have before := sound.lock other
    by_cases same : other = x
    · rw [same, if_pos apart] at before
      rw [if_pos same, if_pos same, if_neg (by omega), same]
      exact (congrArg (· + 1) before).trans (by rw [Int.add_zero])
    · rw [if_neg same, if_neg same]
      exact before

theorem Sound.locked (sound : r.Sound base) (registered : 0 ≤ r.refreshList x) :
    1 < (r.lsa x).lock := by
  have count := sound.lock x
  have own := sound.held x
  omega

variable {after : Refresher} {now : Time}

/-- What remains when instances have left their slots. -/
def left (r : Refresher) (gone : List LsaId) : Refresher :=
  { r with
    lsa := fun x => if x ∈ gone then (r.lsa x).relock ((r.lsa x).lock - 1) else r.lsa x
    refreshList := fun x => if x ∈ gone then -1 else r.refreshList x }

theorem release_all {gone : List LsaId} (nodup : gone.Nodup)
    (more : ∀ x ∈ gone, 1 < (r.lsa x).lock) :
    gone.foldlM release r = some (r.left gone) := by
  induction gone generalizing r with
  | nil =>
    rfl
  | cons x rest ih =>
    obtain ⟨apart, nodup⟩ := nodup_cons.mp nodup
    have first : r.release x = some ((r.setLock x ((r.lsa x).lock - 1)).setRefreshList x (-1)) := by
      rw [release, ospfLsaUnlock, if_neg (not_le.mpr (more x mem_cons_self))]
      rfl
    have others (y : LsaId) (member : y ∈ rest) :
        (r.setLock x ((r.lsa x).lock - 1)).lsa y = r.lsa y := by
      have different : y ≠ x := fun same => apart (same ▸ member)
      rw [setLock_lsa, if_neg different]
    rw [foldlM_cons, first, bind_eq_bind, bind_some,
      ih nodup fun y member => (others y member).symm ▸ more y (mem_cons_of_mem x member)]
    have lsas : ((r.setLock x ((r.lsa x).lock - 1)).setRefreshList x (-1) |>.left rest).lsa =
        (r.left (x :: rest)).lsa := by
      funext y
      by_cases later : y ∈ rest
      · exact (if_pos later).trans
          ((congrArg (fun lsa : OspfLsa => lsa.relock (lsa.lock - 1)) (others y later)).trans
          (if_pos (mem_cons_of_mem x later)).symm)
      · refine (if_neg later).trans ((setLock_lsa r x y _).trans ?_)
        by_cases same : y = x
        · rw [if_pos same, same]
          exact (if_pos mem_cons_self).symm
        · rw [if_neg same]
          exact (if_neg (by rw [mem_cons]; exact fun member => member.elim same later)).symm
    have lists :
        ((r.setLock x ((r.lsa x).lock - 1)).setRefreshList x (-1) |>.left rest).refreshList =
        (r.left (x :: rest)).refreshList := by
      funext y
      by_cases later : y ∈ rest
      · exact (if_pos later).trans (if_pos (mem_cons_of_mem x later)).symm
      · refine (if_neg later).trans ((setRefreshList_refreshList _ x y _).trans ?_)
        by_cases same : y = x
        · rw [if_pos same, same]
          exact (if_pos mem_cons_self).symm
        · rw [if_neg same]
          exact (if_neg (by rw [mem_cons]; exact fun member => member.elim same later)).symm
    have whole : ((r.setLock x ((r.lsa x).lock - 1)).setRefreshList x (-1)).left rest =
        r.left (x :: rest) :=
      congrArg₂ (fun lsa refreshList => { r with lsa, refreshList : Refresher }) lsas lists
    rw [whole]

theorem left_alike (r : Refresher) (gone : List LsaId) : r.Alike (r.left gone) := by
  intro x
  rw [left]
  dsimp only
  split
  · exact ⟨_, rfl⟩
  · exact ⟨_, rfl⟩

/-- An instance is in the way of a walker that goes so far. -/
def Passed (r : Refresher) (x : LsaId) (distance : Nat) : Prop :=
  0 ≤ r.refreshList x ∧ ahead ospfLsaRefresherSlots r.index (r.refreshList x).toNat < distance

theorem registerLsa_new (own : (r.lsa x).self = true) (apart : r.refreshList x < 0) (now : Time)
    (random : Nat) :
    r.registerLsa x now random = some (r.place x (r.refreshIndex x now random)) := by
  rw [registerLsa, if_neg (by rw [own]; exact false_ne_true.symm), if_pos apart]
  rfl

theorem registerLsa_again (own : (r.lsa x).self = true) (registered : 0 ≤ r.refreshList x)
    (now : Time) (random : Nat) :
    r.registerLsa x now random = some r := by
  rw [registerLsa, if_neg (by rw [own]; exact false_ne_true.symm), if_neg (not_lt.mpr registered)]

theorem place_alike (r : Refresher) (x : LsaId) (i : Nat) : r.Alike (r.place x i) :=
  setLock_alike r x _

theorem registerLsa_own {random : Nat} (done : r.registerLsa x now random = some after) :
    (r.lsa x).self = true := by
  rw [registerLsa] at done
  split at done
  · cases done
  · simpa using ‹¬(r.lsa x).self = false›

section
variable (sound : r.Sound base)
include sound

theorem Sound.take {gone : List LsaId} (registered : ∀ x ∈ gone, 0 ≤ r.refreshList x)
    (index : after.index < ospfLsaRefresherSlots)
    (slots : ∀ x i, (after.slot i).count x = if x ∈ gone then 0 else (r.slot i).count x)
    (lists : ∀ x, after.refreshList x = if x ∈ gone then -1 else r.refreshList x)
    (locks : ∀ x, (after.lsa x).lock = if x ∈ gone then (r.lsa x).lock - 1 else (r.lsa x).lock) :
    after.Sound base := by
  refine ⟨index, fun x i => ?_, fun x => ?_, fun x => ?_, sound.held⟩
  · rw [slots, lists]
    by_cases out : x ∈ gone
    · rw [if_pos out, if_pos out, if_neg (by omega)]
    · rw [if_neg out, if_neg out]
      exact sound.member x i
  · rw [lists]
    split
    · exact .inl rfl
    · exact sound.range x
  · rw [lists, locks]
    have before := sound.lock x
    by_cases out : x ∈ gone
    · have named := registered x out
      rw [if_pos out, if_pos out]
      omega
    · rw [if_neg out, if_neg out]
      exact before

theorem Sound.drain (acc : List LsaId) (i : Nat) :
    Refresher.drain (r, acc) i = some ((r.setQs i none).left (r.slot i), acc ++ r.slot i) ∧
      ((r.setQs i none).left (r.slot i)).Sound base := by
  have registered (x : LsaId) (member : x ∈ r.slot i) : 0 ≤ r.refreshList x := by
    rw [sound.mem_slot.mp member]
    exact natCast_nonneg i
  constructor
  · have drained : (r.slot i).foldlM release (r.setQs i none) =
        some ((r.setQs i none).left (r.slot i)) :=
      release_all (r := r.setQs i none) (sound.nodup i) fun x member =>
        sound.locked (registered x member)
    rw [Refresher.drain, drained]
    rfl
  · refine sound.take registered sound.index (fun x j => ?_) (fun x => rfl) fun x => ?_
    · have slots : ((r.setQs i none).left (r.slot i)).slot j = if j = i then [] else r.slot j :=
        setQs_slot r i j none
      rw [slots]
      by_cases here : j = i
      · rw [if_pos here, count_nil]
        by_cases member : x ∈ r.slot i
        · rw [if_pos member]
        · rw [if_neg member, here, count_eq_zero_of_not_mem member]
      · rw [if_neg here]
        by_cases member : x ∈ r.slot i
        · have named := sound.mem_slot.mp member
          rw [if_pos member, sound.member x j, if_neg (by omega)]
        · rw [if_neg member]
    · show (if x ∈ r.slot i then _ else _ : OspfLsa).lock = _
      split <;> rfl

theorem Sound.drains (acc : List LsaId) {slots : List Nat} :
    ∃ after handed, slots.foldlM Refresher.drain (r, acc) = some (after, handed) ∧
      after.Sound base ∧ r.Alike after ∧
      after.index = r.index ∧ after.started = r.started ∧
      ∀ x, (after.refreshList x = if ∃ i ∈ slots, r.refreshList x = (i : Nat) then -1
        else r.refreshList x) ∧
        (x ∈ handed ↔ x ∈ acc ∨ ∃ i ∈ slots, r.refreshList x = (i : Nat)) := by
  induction slots generalizing r acc with
  | nil =>
    refine ⟨r, acc, rfl, sound, Alike.refl r, rfl, rfl, fun x => ?_⟩
    have nowhere : ¬∃ i ∈ ([] : List Nat), r.refreshList x = (i : Nat) :=
      fun ⟨_, member, _⟩ => not_mem_nil member
    exact ⟨(if_neg nowhere).symm, (or_iff_left nowhere).symm⟩
  | cons i rest ih =>
    obtain ⟨drained, kept⟩ := sound.drain acc i
    obtain ⟨after, handed, ran, final, alike, index, started, lists⟩ := ih kept (acc ++ r.slot i)
    have alikeFirst : r.Alike ((r.setQs i none).left (r.slot i)) :=
      left_alike (r.setQs i none) (r.slot i)
    refine ⟨after, handed, ?_, final, alikeFirst.trans alike, index, started, fun x => ?_⟩
    · rw [foldlM_cons, drained]
      exact ran
    · have first : ((r.setQs i none).left (r.slot i)).refreshList x = if x ∈ r.slot i then -1
        else r.refreshList x := rfl
      obtain ⟨list, member⟩ := lists x
      rw [mem_append] at member
      by_cases here : x ∈ r.slot i
      · have named := sound.mem_slot.mp here
        have there : ∃ j ∈ i :: rest, r.refreshList x = (j : Nat) := ⟨i, mem_cons_self, named⟩
        rw [if_pos here] at first
        rw [if_pos there, list, first, ite_self, member]
        exact ⟨rfl, iff_of_true (.inl (.inr here)) (.inr there)⟩
      · rw [if_neg here] at first
        rw [first] at list member
        have same : (∃ j ∈ i :: rest, r.refreshList x = (j : Nat)) ↔
            ∃ j ∈ rest, r.refreshList x = (j : Nat) := by
          rw [exists_mem_cons_iff, or_iff_right (mt sound.mem_slot.mpr here)]
        rw [or_iff_left here] at member
        simp only [same]
        exact ⟨list, member⟩

theorem Sound.passed_iff {distance : Nat} (within : distance ≤ ospfLsaRefresherSlots) :
    (∃ i ∈ (List.range distance).map fun step => (r.index + step) % ospfLsaRefresherSlots,
      r.refreshList x = (i : Nat)) ↔
      r.Passed x distance := by
  constructor
  · rintro ⟨i, member, named⟩
    have registered : 0 ≤ r.refreshList x := named ▸ natCast_nonneg i
    have inside := (sound.named registered).1
    have same : (r.refreshList x).toNat = i := by omega
    rw [Passed, same]
    exact ⟨registered, (visited_mem sound.index within (same ▸ inside)).mp member⟩
  · rintro ⟨registered, near⟩
    obtain ⟨inside, named⟩ := sound.named registered
    exact ⟨_, (visited_mem sound.index within inside).mpr near, named⟩

/-- The walker takes the instances it passes; a clock that was set back can keep it going for
  ever. -/
theorem Sound.walker (now : Time) :
    (ospfLsaRefresherSlots ≤ r.nextIndex now ∧ r.lsaRefreshWalker now = none) ∨
      r.nextIndex now < ospfLsaRefresherSlots ∧
      ∃ after handed, r.lsaRefreshWalker now = some (after, handed) ∧ after.Sound base ∧
        r.Alike after ∧
        after.index = r.nextIndex now ∧ after.started = seconds now ∧
        ∀ x, (r.Passed x (ahead ospfLsaRefresherSlots r.index (r.nextIndex now)) →
          after.refreshList x = -1 ∧ x ∈ handed) ∧
          (¬r.Passed x (ahead ospfLsaRefresherSlots r.index (r.nextIndex now)) →
            after.refreshList x = r.refreshList x ∧ x ∉ handed) := by
  rcases Nat.lt_or_ge (r.nextIndex now) ospfLsaRefresherSlots with inside | outside
  · refine .inr ⟨inside, ?_⟩
    have bound : ahead ospfLsaRefresherSlots r.index (r.nextIndex now) < ospfLsaRefresherSlots :=
      ahead_lt sound.index
    have moved : ({ r with index := r.nextIndex now } : Refresher).Sound base :=
      ⟨inside, sound.member, sound.range, sound.lock, sound.held⟩
    obtain ⟨after, handed, ran, final, alike, index, started, lists⟩ := moved.drains []
    refine ⟨{ after with started := seconds now }, handed, ?_,
      ⟨final.index, final.member, final.range, final.lock, final.held⟩,
      alike, index, rfl, fun x => ?_⟩
    · rw [lsaRefreshWalker, visited_eq sound.index inside (by omega), Option.bind_some, ran]
      rfl
    · have passed := sound.passed_iff (x := x) (le_of_lt bound)
      obtain ⟨list, member⟩ := lists x
      constructor
      · intro near
        exact ⟨list.trans (if_pos (passed.mpr near)), member.mpr (.inr (passed.mpr near))⟩
      · intro far
        refine ⟨list.trans (if_neg (mt passed.mp far)), fun there => ?_⟩
        exact (member.mp there).elim List.not_mem_nil (mt passed.mp far)
  · exact .inl ⟨outside, by rw [lsaRefreshWalker, visited_outside sound.index outside]; rfl⟩

theorem Sound.register {random : Nat} (done : r.registerLsa x now random = some after) :
    after.Sound base ∧ r.Alike after ∧ after.index = r.index ∧ after.started = r.started ∧
      ∀ y, 0 ≤ r.refreshList y → after.refreshList y = r.refreshList y := by
  have own := registerLsa_own done
  rcases Int.lt_or_le (r.refreshList x) 0 with apart | registered
  · rw [registerLsa_new own apart] at done
    cases done
    refine ⟨sound.place apart (refreshIndex_lt r x now random), place_alike r x _, rfl, rfl,
      fun y named => ?_⟩
    rw [place_refreshList, if_neg]
    rintro rfl
    omega
  · rw [registerLsa_again own registered] at done
    cases done
    exact ⟨sound, Alike.refl r, rfl, rfl, fun _ _ => rfl⟩

theorem unregisterLsa_there (own : (r.lsa x).self = true) (registered : 0 ≤ r.refreshList x) :
    ∃ after, r.unregisterLsa x = some after ∧ after.Sound base ∧ r.Alike after ∧
      after.index = r.index ∧
      after.started = r.started ∧ ∀ y, y ≠ x → after.refreshList y = r.refreshList y := by
  obtain ⟨queue, member⟩ := sound.qs registered
  have locked := sound.locked registered
  generalize slotOf : (r.refreshList x).toNat = i at queue member
  have rest : ∀ list : List LsaId, (if list = [] then none else some list).getD [] = list := by
    intro list
    split
    · exact (‹list = []›).symm
    · rfl
  refine ⟨((r.setQs i (if (r.slot i).erase x = [] then none
    else some ((r.slot i).erase x))).setLock x
    ((r.lsa x).lock - 1)).setRefreshList x (-1), ?_, ?_, setLock_alike r x _, rfl, rfl,
      fun y different => ?_⟩
  · rw [unregisterLsa, if_neg (by rw [own]; exact false_ne_true.symm), if_pos registered,
      slotOf, queue]
    exact (congrArg (Option.map fun freed : Refresher => freed.setRefreshList x (-1))
      (if_neg (not_le.mpr locked))).trans rfl
  · have only : ∀ y ∈ [x], 0 ≤ r.refreshList y := by
      intro y here
      rw [mem_singleton.mp here]
      exact registered
    refine sound.take only sound.index (fun y j => ?_) (fun y => ?_) fun y => ?_
    · have slots :=
        setQs_slot r i j (if (r.slot i).erase x = [] then none else some ((r.slot i).erase x))
      rw [rest] at slots
      refine (congrArg (count y) slots).trans ?_
      by_cases here : j = i
      · rw [if_pos here, here]
        by_cases same : y = x
        · rw [if_pos (mem_singleton.mpr same), same, count_erase_self, sound.member x i,
            if_pos (sound.mem_slot.mp member)]
        · rw [if_neg (mt mem_singleton.mp same), count_erase_of_ne same]
      · rw [if_neg here]
        by_cases same : y = x
        · rw [if_pos (mem_singleton.mpr same), same, sound.member x j, if_neg (by omega)]
        · rw [if_neg (mt mem_singleton.mp same)]
    · refine (setRefreshList_refreshList _ x y _).trans ?_
      by_cases same : y = x
      · rw [if_pos same, if_pos (mem_singleton.mpr same)]
      · rw [if_neg same, if_neg (mt mem_singleton.mp same)]
        rfl
    · refine (congrArg OspfLsa.lock (setLock_lsa r x y _)).trans ?_
      by_cases same : y = x
      · rw [if_pos same, if_pos (mem_singleton.mpr same), same]
        rfl
      · rw [if_neg same, if_neg (mt mem_singleton.mp same)]
  · exact (setRefreshList_refreshList _ x y _).trans (if_neg different)

theorem Sound.unregister (done : r.unregisterLsa x = some after) :
    after.Sound base ∧ r.Alike after ∧ after.index = r.index ∧ after.started = r.started ∧
      ∀ y, y ≠ x → after.refreshList y = r.refreshList y := by
  by_cases own : (r.lsa x).self = false
  · rw [unregisterLsa, if_pos own] at done
    cases done
  · rcases Int.lt_or_le (r.refreshList x) 0 with apart | registered
    · rw [unregisterLsa, if_neg own, if_neg (Int.not_le.mpr apart)] at done
      cases done
      exact ⟨sound, Alike.refl r, rfl, rfl, fun _ _ => rfl⟩
    · obtain ⟨final, ran, shape⟩ := unregisterLsa_there sound (by simpa using own) registered
      rw [ran] at done
      cases done
      exact shape

theorem Sound.call {call : Call} {handed : List LsaId}
    (called : r.call now call = some (after, handed)) : after.Sound base := by
  cases call with
  | register x random =>
    obtain ⟨final, done, same⟩ := map_eq_some_iff.mp called
    cases same
    exact (sound.register done).1
  | unregister x =>
    obtain ⟨final, done, same⟩ := map_eq_some_iff.mp called
    cases same
    exact (sound.unregister done).1
  | walk =>
    obtain ⟨-, endless⟩ | ⟨-, final, walked, ran, kept, -⟩ := sound.walker now
    · rw [Refresher.call, endless] at called
      cases called
    · rw [Refresher.call, ran] at called
      cases Option.some.inj called
      exact kept

end

theorem Reached.sound {start : Refresher} (created : start.Created) (reached : Reached start r) :
    r.Sound fun x => (start.lsa x).lock := by
  induction reached with
  | start => exact created.sound
  | call reached now call called ih => exact ih.call called

theorem nextIndex_eq {turns : Nat} (forward : r.granules now = turns) :
    r.nextIndex now = (r.index + turns) % ospfLsaRefresherSlots := by
  have slots : (ospfLsaRefresherSlots : Int) = 271 := rfl
  have bound : ospfLsaRefresherSlots = 271 := rfl
  rw [nextIndex, slots, tmod_eq_emod_of_nonneg (by omega),
    toU16_of_small (by omega) (by omega), bound]
  omega

theorem granules_eq (forward : r.started ≤ seconds now) :
    r.granules now = ((seconds now - r.started).toNat / 10 : Nat) := by
  have granularity : ospfLsaRefresherGranularity = 10 := rfl
  rw [granules, granularity, tdiv_eq_ediv_of_nonneg (by omega)]
  omega

/-- Every call for an own instance returns, unless the clock is set back. -/
theorem Sound.returns (sound : r.Sound base) (forward : r.started ≤ seconds now) (call : Call)
    (own : ∀ x, (r.lsa x).self = true) : (r.call now call).isSome := by
  cases call with
  | register x random =>
    rcases Int.lt_or_le (r.refreshList x) 0 with apart | registered
    · rw [Refresher.call, registerLsa_new (own x) apart]
      rfl
    · rw [Refresher.call, registerLsa_again (own x) registered]
      rfl
  | unregister x =>
    rcases Int.lt_or_le (r.refreshList x) 0 with apart | registered
    · rw [Refresher.call, unregisterLsa, if_neg (by rw [own x]; exact false_ne_true.symm),
        if_neg (Int.not_le.mpr apart)]
      rfl
    · obtain ⟨final, ran, -⟩ := unregisterLsa_there sound (own x) registered
      rw [Refresher.call, ran]
      rfl
  | walk =>
    obtain ⟨outside, -⟩ | ⟨-, final, walked, ran, -⟩ := sound.walker now
    · rw [nextIndex_eq (granules_eq forward)] at outside
      exact absurd (Nat.mod_lt _ (by decide)) (not_lt.mpr outside)
    · rw [Refresher.call, ran]
      rfl

end Sound
end Refresher

namespace PacedRefresher
open Refresher

/-- The queue is sound, and the walker ran last when it says. -/
structure Paced (interval : Nat) (base : LsaId → Int) (p : PacedRefresher) : Prop where
  sound : p.r.Sound base
  started : p.r.started = seconds p.walked
  early : p.walked ≤ p.now
  late : p.now ≤ p.nextWalk interval

/-- When an instance that is in a slot is handed over. -/
def due (interval : Nat) (p : PacedRefresher) (x : LsaId) : Time :=
  p.dueAt interval (ahead ospfLsaRefresherSlots p.r.index (p.r.refreshList x).toNat)

section Paced
variable {interval : Nat} {base : LsaId → Int} {p after : PacedRefresher} {x : LsaId}
  {handed : List (LsaId × Int)}

theorem Paced.create {r : Refresher} (created : r.Created) (now : Time) (interval : Nat) :
    Paced interval (fun x => (r.lsa x).lock) (create r now) where
  sound := ⟨created.sound.index, created.sound.member, created.sound.range, created.sound.lock,
    created.sound.held⟩
  started := rfl
  early := Int.le_refl _
  late := Int.le_add_of_nonneg_right (Int.mul_nonneg (Int.natCast_nonneg interval) (by decide))

/-- What an event leaves of an instance that it does not unregister. -/
structure Stays (interval : Nat) (p after : PacedRefresher) (x : LsaId) : Prop where
  registered : 0 ≤ after.r.refreshList x
  due : after.due interval x = p.due interval x

theorem Stays.of_eq (registered : 0 ≤ p.r.refreshList x) (walked : after.walked = p.walked)
    (index : after.r.index = p.r.index)
    (list : after.r.refreshList x = p.r.refreshList x) : Stays interval p after x :=
  ⟨list ▸ registered, by
    rw [PacedRefresher.due, PacedRefresher.due, dueAt, dueAt, walked, index, list]⟩

section
variable (paced : Paced interval base p)
include paced

theorem Paced.nextIndex (arrived : p.now = p.nextWalk interval) :
    p.r.nextIndex p.now = (p.r.index + interval / 10) % ospfLsaRefresherSlots := by
  have elapsed : seconds p.now - p.r.started = interval := by
    rw [paced.started, seconds, seconds, arrived, nextWalk]
    omega
  refine nextIndex_eq ((granules_eq (by omega)).trans ?_)
  rw [elapsed, toNat_natCast]

/-- The walker comes to the slots that are nearer than it goes, and the others come nearer. -/
theorem Paced.walk (short : interval / 10 < ospfLsaRefresherSlots)
    (arrived : p.now = p.nextWalk interval) :
    ∃ r list, p.r.lsaRefreshWalker p.now = some (r, list) ∧ Paced interval base ⟨r, p.now, p.now⟩ ∧
      p.r.Alike r ∧
      r.index = (p.r.index + interval / 10) % ospfLsaRefresherSlots ∧
      ∀ x, (p.r.Passed x (interval / 10) → r.refreshList x = -1 ∧ x ∈ list) ∧
        (¬p.r.Passed x (interval / 10) → r.refreshList x = p.r.refreshList x ∧ x ∉ list) := by
  have index := paced.nextIndex arrived
  obtain ⟨outside, -⟩ | ⟨-, r, list, ran, kept, alike, moved, started, lists⟩ :=
    paced.sound.walker p.now
  · rw [index] at outside
    exact absurd (Nat.mod_lt _ (by decide)) (not_lt.mpr outside)
  · rw [index, ahead_put paced.sound.index, Nat.mod_eq_of_lt short] at lists
    have later : (0 : Int) ≤ (interval : Int) * 1000000 := by omega
    exact ⟨r, list, ran, ⟨kept, started, le_refl _, le_add_of_nonneg_right later⟩, alike,
      moved.trans index, lists⟩

theorem Paced.stays (positive : 0 < interval / 10)
    (registered : 0 ≤ p.r.refreshList x) (far : ¬p.r.Passed x (interval / 10)) {r : Refresher}
    (arrived : p.now = p.nextWalk interval)
    (index : r.index = (p.r.index + interval / 10) % ospfLsaRefresherSlots)
    (list : r.refreshList x = p.r.refreshList x) : Stays interval p ⟨r, p.now, p.now⟩ x := by
  have beyond := Nat.le_of_not_lt fun near => far ⟨registered, near⟩
  have nearer := ahead_moved paced.sound.index (paced.sound.named registered).1 beyond
  refine ⟨list ▸ registered, ?_⟩
  rw [due, due, dueAt, dueAt]
  rw [index, list, nearer, arrived, nextWalk, Nat.div_eq_sub_div positive beyond]
  push_cast
  ring

/-- Until it is handed over, or unregistered, an instance is due when it was; it is handed over
  then. -/
theorem Paced.step (positive : 0 < interval / 10) (short : interval / 10 < ospfLsaRefresherSlots)
    {event : Event} (done : p.step interval event = some (after, handed)) :
    Paced interval base after ∧ p.r.Alike after.r ∧
      (0 ≤ p.r.refreshList x → event ≠ .unregister x →
        (Stays interval p after x ∧ ∀ age, (x, age) ∉ handed) ∨
        (x, (p.r.lsa x).getAge (p.due interval x)) ∈ handed) := by
  cases event with
  | wait micros =>
    rw [PacedRefresher.step] at done
    split at done
    · rename_i within
      cases Option.some.inj done
      have later : p.now ≤ p.now + micros := le_add_of_nonneg_right (natCast_nonneg micros)
      refine ⟨⟨paced.sound, paced.started, le_trans paced.early later, within⟩, Alike.refl _, ?_⟩
      intro registered _
      exact .inl ⟨Stays.of_eq registered rfl rfl rfl, fun _ => not_mem_nil⟩
    · cases done
  | register y random =>
    obtain ⟨r, registers, same⟩ := map_eq_some_iff.mp done
    cases same
    obtain ⟨kept, alike, index, started, lists⟩ := paced.sound.register registers
    refine ⟨⟨kept, started.trans paced.started, paced.early, paced.late⟩, alike,
      fun registered _ => ?_⟩
    exact .inl ⟨Stays.of_eq registered rfl index (lists x registered), fun _ => not_mem_nil⟩
  | unregister y =>
    obtain ⟨r, leaves, same⟩ := map_eq_some_iff.mp done
    cases same
    obtain ⟨kept, alike, index, started, lists⟩ := paced.sound.unregister leaves
    refine ⟨⟨kept, started.trans paced.started, paced.early, paced.late⟩, alike,
      fun registered other => ?_⟩
    have different : x ≠ y := fun same => other (same ▸ rfl)
    exact .inl ⟨Stays.of_eq registered rfl index (lists x different), fun _ => not_mem_nil⟩
  | walk =>
    rw [PacedRefresher.step] at done
    split at done
    · rename_i arrived
      obtain ⟨r, list, ran, kept, alike, index, lists⟩ := paced.walk short arrived
      rw [ran] at done
      cases Option.some.inj done
      refine ⟨kept, alike, fun registered _ => ?_⟩
      by_cases near : p.r.Passed x (interval / 10)
      · have first : p.due interval x = p.now := by
          rw [due, dueAt, Nat.div_eq_of_lt near.2, arrived, nextWalk, Nat.cast_one, one_mul]
        rw [first]
        exact .inr (mem_map.mpr ⟨x, ((lists x).1 near).2, rfl⟩)
      · obtain ⟨same, out⟩ := (lists x).2 near
        refine .inl ⟨paced.stays positive registered near arrived index same, fun age member => ?_⟩
        obtain ⟨y, there, equal⟩ := mem_map.mp member
        exact out ((Prod.mk.inj equal).1 ▸ there)
    · cases done

theorem Paced.now_le_due (x : LsaId) : p.now ≤ p.due interval x := by
  refine Int.le_trans paced.late ?_
  rw [nextWalk, due, dueAt]
  generalize ahead ospfLsaRefresherSlots p.r.index (p.r.refreshList x).toNat /
    (interval / 10) = turns
  have more : (1 : Int) * (interval * 1000000) ≤ (turns + 1 : Nat) * (interval * 1000000) :=
    Int.mul_le_mul_of_nonneg_right (by omega) (by omega)
  omega

theorem Paced.run (positive : 0 < interval / 10) (short : interval / 10 < ospfLsaRefresherSlots)
    {events : List Event} (ran : run interval p events = some (after, handed)) :
    Paced interval base after ∧ p.r.Alike after.r ∧
      (0 ≤ p.r.refreshList x → unregister x ∉ events →
        Stays interval p after x ∨ (x, (p.r.lsa x).getAge (p.due interval x)) ∈ handed) := by
  induction events generalizing p handed with
  | nil =>
    cases Option.some.inj ran
    exact ⟨paced, Alike.refl _, fun registered _ => .inl ⟨registered, rfl⟩⟩
  | cons event rest ih =>
    obtain ⟨⟨next, first⟩, done, remain⟩ := bind_eq_some_iff.mp ran
    obtain ⟨⟨last, later⟩, runs, same⟩ := map_eq_some_iff.mp remain
    cases same
    obtain ⟨kept, alike, one⟩ := paced.step (x := x) positive short done
    obtain ⟨final, alikeRest, all⟩ := ih kept runs
    refine ⟨final, alike.trans alikeRest, fun registered never => ?_⟩
    have notFirst : event ≠ .unregister x := fun same => never (same ▸ mem_cons_self)
    have notLater : unregister x ∉ rest := fun member => never (.tail _ member)
    obtain ⟨stays, -⟩ | gone := one registered notFirst
    · obtain still | gone := all stays.registered notLater
      · exact .inl ⟨still.registered, still.due.trans stays.due⟩
      · rw [alike.getAge, stays.due] at gone
        exact .inr (mem_append_right _ gone)
    · exact .inr (mem_append_left _ gone)

end

theorem run_cons {next last : PacedRefresher} {event : Event} {rest : List Event}
    {first later : List (LsaId × Int)}
    (done : p.step interval event = some (next, first))
    (ran : run interval next rest = some (last, later)) :
    run interval p (event :: rest) = some (last, first ++ later) := by
  rw [run, done, bind_some]
  dsimp only
  rw [ran]
  rfl

section
variable (paced : Paced interval base p) (positive : 0 < interval / 10)
  (short : interval / 10 < ospfLsaRefresherSlots) (registered : 0 ≤ p.r.refreshList x)
include paced positive short registered

/-- A run may go on until an instance is due, and it waits till then. -/
theorem Paced.until_due :
    ∃ events last handed, PacedRefresher.run interval p events = some (last, handed) ∧
      unregister x ∉ events ∧
      (∀ age, (x, age) ∉ handed) ∧ 0 ≤ last.r.refreshList x ∧ last.now = p.due interval x := by
  generalize left : ahead ospfLsaRefresherSlots p.r.index (p.r.refreshList x).toNat = distance
  induction distance using Nat.strong_induction_on generalizing p with
  | _ distance ih =>
    -- the walker's next time
    have arrive : p.step interval (.wait (p.nextWalk interval - p.now).toNat) =
        some ({ p with now := p.nextWalk interval }, []) := by
      have gap : p.now + ((p.nextWalk interval - p.now).toNat : Int) = p.nextWalk interval := by
        rw [toNat_of_nonneg (sub_nonneg_of_le paced.late)]
        exact add_sub_cancel p.now _
      rw [PacedRefresher.step, gap, if_pos (le_refl _)]
    have there : Paced interval base { p with now := p.nextWalk interval } :=
      ⟨paced.sound, paced.started, le_trans paced.early paced.late, le_refl _⟩
    by_cases near : distance < interval / 10
    · refine ⟨[.wait (p.nextWalk interval - p.now).toNat], { p with
        now := p.nextWalk interval }, [], ?_, by simp,
        fun _ => not_mem_nil, registered, ?_⟩
      · exact run_cons arrive rfl
      · rw [due, dueAt, left, Nat.div_eq_of_lt near, Nat.cast_one, one_mul]
        rfl
    · have far : ¬p.r.Passed x (interval / 10) := fun passed => near (left ▸ passed.2)
      obtain ⟨r, list, walks, kept, alike, index, lists⟩ := there.walk short rfl
      obtain ⟨same, out⟩ := (lists x).2 far
      have passes := there.stays positive registered far rfl index same
      have stays : Stays interval p ⟨r, p.nextWalk interval, p.nextWalk interval⟩ x :=
        ⟨passes.registered, passes.due.trans rfl⟩
      have nearer : ahead ospfLsaRefresherSlots r.index (r.refreshList x).toNat =
          distance - interval / 10 := by
        rw [index, same, ← left]
        exact ahead_moved paced.sound.index (paced.sound.named registered).1
          (left ▸ Nat.le_of_not_lt near)
      obtain ⟨events, last, handed, ran, never, waits, still, final⟩ :=
        ih (distance - interval / 10) (by omega) kept
        stays.registered nearer
      refine ⟨.wait (p.nextWalk interval - p.now).toNat :: .walk :: events, last,
        list.map (fun y => (y, (p.r.lsa y).getAge (p.nextWalk interval))) ++ handed, ?_, ?_,
          fun age member => ?_, still,
        final.trans stays.due⟩
      · have walked : PacedRefresher.step interval { p with now := p.nextWalk interval } .walk =
            some (⟨r, p.nextWalk interval, p.nextWalk interval⟩,
              list.map fun y => (y, (p.r.lsa y).getAge (p.nextWalk interval))) := by
          refine (if_pos rfl).trans ?_
          rw [walks]
          rfl
        have whole := run_cons arrive (run_cons walked ran)
        exact whole
      · simpa using never
      · rcases mem_append.mp member with early | late
        · obtain ⟨y, here, equal⟩ := mem_map.mp early
          exact out ((Prod.mk.inj equal).1 ▸ here)
        · exact waits age late

/-- An instance that waits is handed over in time exactly if it is below MaxAge when it is due. -/
theorem Paced.inTime_iff : InTime interval p x ↔
    (p.r.lsa x).getAge (p.due interval x) < ospfLsaMaxage := by
  constructor
  · intro inTime
    obtain ⟨events, last, handed, ran, never, waits, still, final⟩ :=
      paced.until_due positive short registered
    obtain ⟨-, alike, -⟩ := paced.run (x := x) positive short ran
    obtain ⟨age, member, -⟩ | ⟨-, young⟩ := inTime events last handed ran never
    · exact absurd member (waits age)
    · rwa [alike.getAge, final] at young
  · intro young events last handed ran never
    obtain ⟨kept, alike, all⟩ := paced.run (x := x) positive short ran
    obtain still | gone := all registered never
    · refine .inr ⟨still.registered, ?_⟩
      have older : (last.r.lsa x).getAge last.now ≤
          (last.r.lsa x).getAge (last.due interval x) := by
        exact Int.add_le_add_left
          (Int.ediv_le_ediv (by decide) (Int.sub_le_sub_right (kept.now_le_due x) _)) _
      rw [still.due, alike.getAge x (p.due interval x)] at older
      exact Int.lt_of_le_of_lt older young
    · exact .inl ⟨_, gone, young⟩

end

theorem elapsed_le {now walked : Int} (late : now ≤ walked + interval * 1000000) :
    seconds now - seconds walked ≤ interval := by
  rw [seconds, seconds]
  omega

/-- Whoever is registered anew is due when the walker comes to its slot. -/
theorem Paced.due_registered (paced : Paced interval base p) (bound : interval ≤ 1800)
    (own : (p.r.lsa x).self = true)
    (apart : p.r.refreshList x < 0) (random : Nat) {r : Refresher}
    (registers : p.r.registerLsa x p.now random = some r) :
    Paced interval base { p with r } ∧ 0 ≤ r.refreshList x ∧ p.r.Alike r ∧
      ({ p with r } : PacedRefresher).due interval x = p.dueAt interval (p.putAhead x random) := by
  obtain ⟨kept, alike, index, started, -⟩ := paced.sound.register registers
  rw [registerLsa_new own apart] at registers
  cases registers
  have list : (p.r.place x (p.r.refreshIndex x p.now random)).refreshList x =
      (p.r.refreshIndex x p.now random : Int) := by
    rw [place_refreshList, if_pos rfl]
  refine ⟨⟨kept, started.trans paced.started, paced.early, paced.late⟩,
    list ▸ Int.natCast_nonneg _, alike, ?_⟩
  have slot : p.r.refreshIndex x p.now random =
      (p.r.index + ((seconds p.now - p.r.started).toNat /
        10 + (delay (p.r.lsa x) p.now random).toNat / 10)) %
        ospfLsaRefresherSlots := by
    have forward : p.r.started ≤ seconds p.now := by
      rw [paced.started]
      exact Int.ediv_le_ediv (by decide) paced.early
    have soon : seconds p.now - p.r.started ≤ interval := by
      rw [paced.started]
      exact elapsed_le paced.late
    have positive := delay_nonneg (p.r.lsa x) p.now random
    have inside := paced.sound.index
    have slots : (ospfLsaRefresherSlots : Int) = 271 := rfl
    have size : ospfLsaRefresherSlots = 271 := rfl
    have granularity : ospfLsaRefresherGranularity = 10 := rfl
    have current : toU16 (p.r.index + p.r.granules p.now) =
        p.r.index + (seconds p.now - p.r.started).toNat / 10 := by
      rw [granules_eq forward, toU16_of_small (by omega) (by omega)]
      omega
    rw [refreshIndex, current, granularity, Int.tdiv_eq_ediv_of_nonneg positive, slots,
      Int.tmod_eq_emod_of_nonneg (by omega), toU16_of_small (by omega) (by omega), size]
    omega
  have put : ahead ospfLsaRefresherSlots p.r.index (p.r.refreshIndex x p.now random) =
      p.putAhead x random := by
    rw [slot, ahead_put paced.sound.index, putAhead]
  rw [due]
  rw [list, Int.toNat_natCast, index, put]
  rfl

end Paced
end PacedRefresher

section

/-- Whatever is called when, each instance is in the slot that it names, once, and in no other, and
has one lock for it; a call for an own instance returns unless the clock is set back. If the walker
keeps its pace, an instance that is registered is handed over below MaxAge exactly if it is below
MaxAge when the walker comes to the slot, which lies the granules since its last run and of the
delay ahead. -/
theorem refresh_wheel_sound {start : Refresher} (created : start.Created) :
    (∀ r, Refresher.Reached start r → ∀ x,
      (∀ i : Nat, (r.slot i).count x = if r.refreshList x = i then 1 else 0) ∧
      (r.refreshList x = -1 ∨ 0 ≤ r.refreshList x ∧ r.refreshList x < ospfLsaRefresherSlots) ∧
      ((r.lsa x).lock = (start.lsa x).lock + if r.refreshList x < 0 then 0 else 1) ∧
      ∀ now call, r.started ≤ seconds now → (∀ y, (r.lsa y).self = true) →
      (r.call now call).isSome) ∧
    ∀ value, 10 ≤ value → value ≤ 1800 → ∀ now p,
      PacedRefresher.Reached (ospfRefreshTimer value) (.create start now) p →
      ∀ x random r, p.r.refreshList x < 0 → p.r.registerLsa x p.now random = some r →
        (PacedRefresher.InTime (ospfRefreshTimer value) { p with r } x ↔
          (p.r.lsa x).getAge (p.dueAt (ospfRefreshTimer value) (p.putAhead x random)) <
            ospfLsaMaxage) := by
  constructor
  · intro r reached x
    have sound := reached.sound created
    exact ⟨sound.member x, sound.range x, sound.lock x,
      fun now call forward own => sound.returns forward call own⟩
  · intro value low high now p ⟨events, handed, ran⟩ x random r apart registers
    have turn : ospfRefreshTimer value / 10 = value / 10 := Nat.mul_div_cancel _ (by decide)
    have positive : 0 < ospfRefreshTimer value / 10 := by omega
    have size : ospfLsaRefresherSlots = 271 := rfl
    have short : ospfRefreshTimer value / 10 < ospfLsaRefresherSlots := by omega
    have bound : ospfRefreshTimer value ≤ 1800 := by
      rw [ospfRefreshTimer]
      omega
    obtain ⟨paced, -⟩ := (PacedRefresher.Paced.create created now (ospfRefreshTimer value)).run
      (x := x) positive short ran
    obtain ⟨kept, registered, alike, due⟩ :=
      paced.due_registered bound (Refresher.registerLsa_own registers) apart random registers
    rw [kept.inTime_iff positive short registered, due, alike.getAge]

/-- A refreshed summary. -/
def sampleRefreshed : OspfLsa where
  data := { key := ⟨.summary, 1, 1⟩, lsSeqnum := 0x80000002 }
  self := true

def sampleRefresher : Refresher where
  started := 0
  lsa _ := sampleRefreshed

theorem sampleRefresher_created : sampleRefresher.Created where
  index := rfl
  qs _ := rfl
  refreshList _ := rfl
  held _ := zero_lt_one

/-- Two instances are registered, the walker runs, and one of the two is taken out. -/
def sampleEvents : List Event :=
  [.register 1 7, .register 2 60, .wait 10000000, .walk, .unregister 1, .wait 3000000]

/-- A third instance then gets to `ospf_lsa_refresh` in time. -/
theorem refresh_wheel_sound_default : ∃ p,
    (run (ospfRefreshTimer 10) (.create sampleRefresher 0) sampleEvents).map Prod.fst = some p ∧
    ∃ r, p.r.registerLsa 0 p.now 119 = some r ∧ PacedRefresher.InTime (ospfRefreshTimer 10)
    { p with r } 0 := by
  have done : ((run (ospfRefreshTimer 10) (.create sampleRefresher 0) sampleEvents).bind fun out =>
      (out.1.r.registerLsa 0 out.1.now 119).map fun _ => (out.1.r.refreshList 0,
        (out.1.r.lsa 0).getAge (out.1.dueAt (ospfRefreshTimer 10) (out.1.putAhead 0 119)))) =
          some (-1, 1860) := by
    decide +kernel
  obtain ⟨⟨p, handed⟩, ran, rest⟩ := bind_eq_some_iff.mp done
  obtain ⟨r, registers, seen⟩ := map_eq_some_iff.mp rest
  obtain ⟨apart, age⟩ := Prod.mk.inj seen
  refine ⟨p, congrArg (Option.map Prod.fst) ran, r, registers, ?_⟩
  have sound := (refresh_wheel_sound sampleRefresher_created).2 10 (by decide) (by decide) 0
    p ⟨_, _, ran⟩ 0 119 r (apart ▸ by decide) registers
  rw [sound, age]
  decide

/-- With the highest interval, a delay of 1859 seconds that starts with the walker takes two of its
  rounds. -/
theorem refresh_wheel_late :
    ∃ r, sampleRefresher.registerLsa 0 0 119 = some r ∧
      ¬PacedRefresher.InTime (ospfRefreshTimer 1800) ⟨r, 0, 0⟩ 0 := by
  refine ⟨(sampleRefresher.registerLsa 0 0 119).getD sampleRefresher, rfl, fun inTime => ?_⟩
  have waited :
      (run (ospfRefreshTimer 1800)
      ⟨(sampleRefresher.registerLsa 0 0 119).getD sampleRefresher, 0, 0⟩
      [.wait 1800000000, .walk, .wait 1800000000]).map
        (fun out => (out.2, (out.1.r.lsa 0).getAge out.1.now)) = some ([], 3600) := by
    decide +kernel
  obtain ⟨⟨last, handed⟩, ran, same⟩ := map_eq_some_iff.mp waited
  obtain ⟨rfl, age⟩ :=
    Prod.mk.inj (show (handed, (last.r.lsa 0).getAge last.now) = ([], 3600) from same)
  obtain ⟨_, member, -⟩ | ⟨-, young⟩ := inTime _ last _ ran (by decide)
  · exact not_mem_nil member
  · rw [age] at young
    exact absurd young (by decide)

end
end Zebra.Ospfd
