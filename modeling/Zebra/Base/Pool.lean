import Mathlib.Logic.Function.Basic

/-! Shared objects that are counted, searched with a comparison of the pool's own. -/
namespace Zebra.Base
open Function Option
variable {Object : Type}

structure Counted (Object : Type) where
  object : Object
  refcnt : Nat

/-- The objects by their addresses; an address is not used twice. -/
structure Pool (Object : Type) where
  cell : Nat → Option (Counted Object) := fun _ => none
  fresh : Nat := 0

namespace Pool

def object? (pool : Pool Object) (id : Nat) : Option Object :=
  (pool.cell id).map Counted.object

def find (same : Object → Object → Bool) (pool : Pool Object) (object : Object) : Option Nat :=
  (List.range pool.fresh).find? fun id => (pool.cell id).any fun counted =>
    same counted.object object

/-- One more reference. -/
def hold (pool : Pool Object) (id : Nat) : Pool Object :=
  { pool with cell := update pool.cell id ((pool.cell id).map fun counted =>
      { counted with refcnt := counted.refcnt + 1 }) }

def insert (pool : Pool Object) (object : Object) : Pool Object :=
  { cell := update pool.cell pool.fresh (some ⟨object, 1⟩), fresh := pool.fresh + 1 }

/-- The object that compares equal, or the object itself, with one more reference. -/
def intern (same : Object → Object → Bool) (pool : Pool Object) (object : Object) :
    Pool Object × Nat :=
  match pool.find same object with
  | some id => (pool.hold id, id)
  | none => (pool.insert object, pool.fresh)

/-- One reference less; without references an object is freed. -/
def release (pool : Pool Object) (id : Nat) : Pool Object :=
  { pool with cell := update pool.cell id ((pool.cell id).bind fun counted =>
      if counted.refcnt ≤ 1 then none else some { counted with refcnt := counted.refcnt - 1 }) }

/-- The reference counts are the references that are held. -/
structure Backed (pool : Pool Object) (held : Nat → Nat) : Prop where
  counted : ∀ {id counted}, pool.cell id = some counted → counted.refcnt = held id ∧ 0 < held id
  live : ∀ {id}, 0 < held id → ∃ counted, pool.cell id = some counted
  young : ∀ {id counted}, pool.cell id = some counted → id < pool.fresh

variable {pool : Pool Object} {held : Nat → Nat}

theorem Backed.congr (backed : pool.Backed held) {other} (equal : ∀ id, other id = held id) :
    pool.Backed other := by
  obtain rfl : other = held := funext equal
  exact backed

theorem find_some {same object id} (found : pool.find same object = some id) :
    ∃ counted, pool.cell id = some counted ∧ same counted.object object = true := by
  have hit := List.find?_some found
  exact (any_eq_true ..).mp hit

theorem hold_ne {id other} (apart : other ≠ id) : (pool.hold id).cell other = pool.cell other :=
  update_of_ne apart ..

/-- One cell changes, and the references to its object with it. -/
theorem Backed.change (backed : pool.Backed held) {after : Pool Object} {now id cell}
    (cells : after.cell = update pool.cell id cell)
    (refs : ∀ other, other ≠ id → now other = held other)
    (counts : ∀ counted, cell = some counted → counted.refcnt = now id ∧ 0 < now id)
    (live : 0 < now id → cell.isSome = true)
    (fresh : pool.fresh ≤ after.fresh) (young : cell.isSome = true → id < after.fresh) :
    after.Backed now := by
  have here : after.cell id = cell := by rw [cells, update_self]
  have elsewhere : ∀ {other}, other ≠ id → after.cell other = pool.cell other :=
    fun apart => by rw [cells, update_of_ne apart]
  refine ⟨fun {other counted} found => ?_, fun {other} positive => ?_,
    fun {other counted} found => ?_⟩ <;>
    by_cases same : other = id
  · subst same
    exact counts counted (here.symm.trans found)
  · rw [refs other same]
    exact backed.counted ((elsewhere same).symm.trans found)
  · subst same
    exact here ▸ isSome_iff_exists.mp (live positive)
  · rw [refs other same] at positive
    exact elsewhere same ▸ backed.live positive
  · subst same
    exact young (here ▸ isSome_iff_exists.mpr ⟨counted, found⟩)
  · exact Nat.lt_of_lt_of_le (backed.young ((elsewhere same).symm.trans found)) fresh

theorem Backed.hold (backed : pool.Backed held) {id : Nat} (present : 0 < held id) :
    (pool.hold id).Backed fun other => held other + if other = id then 1 else 0 := by
  obtain ⟨mine, known⟩ := backed.live present
  refine backed.change rfl (fun other apart => by simp [apart]) (fun counted found => ?_)
    (fun _ => by simp [known])
    (Nat.le_refl _) fun _ => backed.young known
  rw [known] at found
  cases found
  simp [(backed.counted known).1]

theorem hold_object? (pool : Pool Object) (id other : Nat) :
    (pool.hold id).object? other = pool.object? other := by
  by_cases same : other = id
  · subst same
    cases known : pool.cell other <;> simp [object?, hold, known]
  · rw [object?, hold_ne same, object?]

section
variable (backed : pool.Backed held)
include backed

theorem Backed.fresh_none : pool.cell pool.fresh = none ∧ held pool.fresh = 0 := by
  have none : pool.cell pool.fresh = none := by
    by_contra present
    obtain ⟨counted, found⟩ := ne_none_iff_exists'.mp present
    exact absurd (backed.young found) (Nat.lt_irrefl _)
  refine ⟨none, Nat.eq_zero_of_not_pos fun positive => ?_⟩
  obtain ⟨counted, found⟩ := backed.live positive
  cases none.symm.trans found

theorem Backed.insert (object : Object) :
    (pool.insert object).Backed fun other => held other + if other = pool.fresh then 1 else 0 := by
  refine backed.change rfl (fun other apart => by simp [apart]) (fun counted found => ?_)
    (fun _ => rfl)
    (Nat.le_succ _) fun _ => Nat.lt_succ_self _
  cases found
  simp [backed.fresh_none.2]

theorem Backed.insert_object? (object : Object) {id known}
    (found : pool.object? id = some known) : (pool.insert object).object? id = some known := by
  have apart : id ≠ pool.fresh := by
    rintro rfl
    simp [object?, backed.fresh_none.1] at found
  rw [object?, Pool.insert]
  dsimp only
  rw [update_of_ne apart]
  exact found

/-- What interning does: the object answered is the one asked for, or compares equal to it. -/
structure Interned (same : Object → Object → Bool) (pool : Pool Object) (held : Nat → Nat)
    (object : Object) (result : Pool Object × Nat) : Prop where
  backed : result.1.Backed fun other => held other + if other = result.2 then 1 else 0
  kept : ∀ {id known}, pool.object? id = some known → result.1.object? id = some known
  answer : ∃ found, result.1.object? result.2 = some found ∧
    (found = object ∨ pool.object? result.2 = some found ∧ same found object = true)

theorem Backed.intern (same : Object → Object → Bool) (object : Object) :
    Interned same pool held object (pool.intern same object) := by
  rw [Pool.intern]
  split
  · rename_i hit found
    obtain ⟨counted, known, equal⟩ := find_some found
    have object : pool.object? hit = some counted.object := by rw [object?, known]; rfl
    refine ⟨backed.hold (backed.counted known).2, fun before => ?_, counted.object, ?_,
      .inr ⟨object, equal⟩⟩
    · rw [hold_object?]
      exact before
    · rw [hold_object?]
      exact object
  · exact ⟨backed.insert object, backed.insert_object? object, object, by
      simp [Pool.insert, object?], .inl rfl⟩

theorem Backed.release {id : Nat} (present : 0 < held id) :
    (pool.release id).Backed fun other => held other - if other = id then 1 else 0 := by
  obtain ⟨mine, known⟩ := backed.live present
  have count := (backed.counted known).1
  refine backed.change rfl (fun other apart => by simp [apart]) (fun counted found => ?_)
    (fun left => ?_)
    (Nat.le_refl _) fun _ => backed.young known
  · simp only [known, bind_some] at found
    split at found
    · exact nomatch found
    · cases found
      simp only [if_true]
      omega
  · simp only [if_true] at left
    simp only [known, bind_some]
    rw [if_neg (by omega), isSome_some]

theorem Backed.release_object? {id other}
    (left : 0 < held other - if other = id then 1 else 0) :
    (pool.release id).object? other = pool.object? other := by
  by_cases same : other = id
  · subst same
    simp only [if_true] at left
    obtain ⟨mine, known⟩ := backed.live (show 0 < held other by omega)
    have count := (backed.counted known).1
    simp only [object?, Pool.release, update_self, known, bind_some]
    rw [if_neg (by omega)]
    rfl
  · rw [object?, Pool.release]
    dsimp only
    rw [update_of_ne same, object?]

end

def releases (pool : Pool Object) (ids : List Nat) : Pool Object :=
  ids.foldl release pool

section Releases
variable {first : Nat} {rest : List Nat}

theorem count_first (id : Nat) : (first :: rest).count id = rest.count id + if id = first then 1
    else 0 := by
  simp only [List.count_cons, beq_iff_eq, @eq_comm _ id first]

theorem enough_rest (enough : ∀ id, (first :: rest).count id ≤ held id) (id : Nat) :
    rest.count id ≤ held id - if id = first then 1 else 0 := by
  have both := enough id
  rw [count_first] at both
  exact Nat.le_sub_of_add_le both

theorem enough_first (enough : ∀ id, (first :: rest).count id ≤ held id) : 0 < held first :=
  Nat.lt_of_lt_of_le (by simp) (enough first)

end Releases

theorem Backed.releases {ids} (backed : pool.Backed held) (enough : ∀ id, ids.count id ≤ held id) :
    (pool.releases ids).Backed fun id => held id - ids.count id := by
  induction ids generalizing pool held with
  | nil => exact backed
  | cons first rest ih =>
    refine (ih (backed.release (enough_first enough)) (enough_rest enough)).congr fun id => ?_
    rw [count_first, Nat.sub_sub, Nat.add_comm]

theorem Backed.releases_object? {ids} (backed : pool.Backed held)
    (enough : ∀ id, ids.count id ≤ held id)
    {id} (left : 0 < held id - ids.count id) :
    (pool.releases ids).object? id = pool.object? id := by
  induction ids generalizing pool held with
  | nil => rfl
  | cons first rest ih =>
    rw [count_first, Nat.add_comm, ← Nat.sub_sub] at left
    have kept := backed.release_object? (Nat.lt_of_lt_of_le left (Nat.sub_le ..))
    exact (ih (backed.release (enough_first enough)) (enough_rest enough) left).trans kept

end Pool
end Zebra.Base
