import Mathlib

/-! Items packed one after the other into packets, each as full as it gets. -/
namespace Zebra.Base
open List
section Packing
variable {Item : Type} (size : Item → Nat)

def load (items : List Item) : Nat := (items.map size).sum

@[simp] theorem load_nil : load size [] = 0 := rfl

@[simp] theorem load_cons (item : Item) (items : List Item) :
    load size (item :: items) = size item + load size items := by
  simp [load]

@[simp] theorem load_append (first second : List Item) :
    load size (first ++ second) = load size first + load size second := by
  simp [load]

theorem load_const (each : Nat) (items : List Item) :
    load (fun _ => each) items = each * items.length := by
  simp [load, Nat.mul_comm]

/-- Packets with `overhead` each: none exceeds `limit` or `most`, and none has room for the item
  behind it. -/
structure Packed (overhead limit most : Nat) (groups : List (List Item)) : Prop where
  some_ : ∀ group ∈ groups, group ≠ []
  fits : ∀ group ∈ groups, overhead + load size group ≤ limit ∧ overhead + load size group ≤ most
  full : groups.IsChain fun group next => ∀ item ∈ next.head?,
    limit < overhead + load size group + size item

/-- The items can be packed. -/
def Packs (overhead limit most : Nat) (items : List Item) : Prop :=
  ∃ groups : List (List Item), groups.flatten = items ∧ Packed size overhead limit most groups

variable {size} {overhead limit most : Nat} {items : List Item} {groups : List (List Item)}

section
variable {group} (packed : Packed size overhead limit most (group :: groups))
include packed

theorem Packed.tail :
    Packed size overhead limit most groups where
  some_ later member := packed.some_ later (.tail _ member)
  fits later member := packed.fits later (.tail _ member)
  full := packed.full.tail

theorem Packed.next {item}
    (behind : item ∈ groups.flatten.head?) : limit < overhead + load size group + size item := by
  cases groups with
  | nil => exact nomatch behind
  | cons next rest =>
    have nonempty := packed.some_ next (.tail _ mem_cons_self)
    have step := (isChain_cons_cons.mp packed.full).1
    refine step item ?_
    rwa [flatten_cons, head?_append_of_ne_nil _ nonempty] at behind

end

theorem load_mem {item} (member : item ∈ items) : size item ≤ load size items := by
  obtain ⟨before, behind, rfl⟩ := append_of_mem member
  simp only [load_append, load_cons]
  omega

theorem exists_full (start : Nat) (room : overhead + start ≤ limit) (items : List Item) :
    ∃ group rest, items = group ++ rest ∧ overhead + (start + load size group) ≤ limit ∧
      ∀ item ∈ rest.head?, limit < overhead + (start + load size group) + size item := by
  induction items generalizing start with
  | nil => exact ⟨[], [], rfl, room, by simp⟩
  | cons item items ih =>
    by_cases fits : overhead + (start + size item) ≤ limit
    · obtain ⟨group, rest, rfl, within, full⟩ := ih (start + size item) fits
      refine ⟨item :: group, rest, rfl, ?_, ?_⟩
      · rwa [load_cons, ← Nat.add_assoc start]
      · rwa [load_cons, ← Nat.add_assoc start]
    · refine ⟨[], item :: items, rfl, room, fun next is => ?_⟩
      obtain rfl : item = next := by simpa using is
      omega

theorem Packed.cons {group} (packed : Packed size overhead limit most groups) (some_ : group ≠ [])
    (fits : overhead + load size group ≤ limit ∧ overhead + load size group ≤ most)
    (full : ∀ item ∈ groups.flatten.head?, limit < overhead + load size group + size item) :
    Packed size overhead limit most (group :: groups) where
  some_ := forall_mem_cons.mpr ⟨some_, packed.some_⟩
  fits := forall_mem_cons.mpr ⟨fits, packed.fits⟩
  full := by
    cases groups with
    | nil => exact isChain_singleton _
    | cons next rest =>
      refine isChain_cons_cons.mpr ⟨fun item is => full item ?_, packed.full⟩
      rwa [flatten_cons, head?_append_of_ne_nil _ (packed.some_ next mem_cons_self)]

/-- Items that fit alone can be packed, and only those, where every packet up to the limit is
  good. -/
theorem packs_iff (wide : ∀ group, overhead + load size group ≤ limit →
    overhead + load size group ≤ most) :
    Packs size overhead limit most items ↔ ∀ item ∈ items, overhead + size item ≤ limit := by
  constructor
  · rintro ⟨groups, rfl, packed⟩ item member
    obtain ⟨group, inside, there⟩ := mem_flatten.mp member
    exact le_trans (Nat.add_le_add_left (load_mem there) _) (packed.fits group inside).1
  · intro alone
    induction count : items.length using Nat.strongRecOn generalizing items with
    | ind n ih =>
      cases items with
      | nil => exact ⟨[], rfl, by simp, by simp, isChain_nil⟩
      | cons item items =>
        obtain ⟨group, rest, split, within, full⟩ :=
          @exists_full _ size _ _ (size item) (alone item mem_cons_self) items
        have shorter : rest.length < n := by
          rw [← count, split, length_cons, length_append]
          omega
        have later : ∀ next ∈ rest, overhead + size next ≤ limit := fun next member =>
          alone next (.tail _ (split ▸ mem_append_right _ member))
        obtain ⟨groups, same, packed⟩ := ih rest.length shorter later rfl
        refine ⟨(item :: group) :: groups, ?_,
          packed.cons nofun ⟨within, wide _ within⟩ (same ▸ full)⟩
        rw [flatten_cons, same, split]
        rfl

/-- Lengths that are kept modulo a word and add up to those of all items were not reduced. -/
theorem load_exact {carried word lengths}
    (reduced : List.Forall₂
      (fun group length => length = (overhead + load size group) % word) groups lengths)
    (exact_ : List.Forall₂
      (fun group length => length = overhead + load size group ∧ length ≤ most) carried lengths) :
    load size carried.flatten ≤ load size groups.flatten ∧
      (load size groups.flatten ≤ load size carried.flatten →
        ∀ group ∈ groups, overhead + load size group ≤ most) := by
  induction reduced generalizing carried with
  | nil =>
    obtain rfl := forall₂_nil_right_iff.mp exact_
    exact ⟨le_rfl, fun _ => by simp⟩
  | @cons group length groups lengths reduced _ ih =>
    obtain ⟨part, carried, ⟨is, within⟩, more, rfl⟩ := forall₂_cons_right_iff.mp exact_
    obtain ⟨below, same⟩ := ih more
    have least := Nat.mod_le (overhead + load size group) word
    simp only [flatten_cons, load_append] at below same least ⊢
    refine ⟨by omega, fun all => forall_mem_cons.mpr ⟨by omega, same (by omega)⟩⟩

theorem packs_one (wide : ∀ item ∈ items, most + size item ≤ limit) (below : most ≤ limit) :
    Packs size overhead limit most items ↔ items = [] ∨ overhead + load size items ≤ most := by
  constructor
  · rintro ⟨groups, rfl, packed⟩
    rcases groups with _ | ⟨group, _ | ⟨next, rest⟩⟩
    · exact .inl rfl
    · right
      simpa using (packed.fits group mem_cons_self).2
    · obtain ⟨item, items, is⟩ := exists_cons_of_ne_nil (packed.some_ next (by simp))
      have full : limit < overhead + load size group + size item := packed.next (by simp [is])
      have narrow := wide item (by simp [is])
      have fits := (packed.fits group mem_cons_self).2
      omega
  · intro one
    by_cases empty : items = []
    · exact ⟨[], empty.symm, by simp, by simp, isChain_nil⟩
    · have fits := one.resolve_left empty
      exact ⟨[items], by simp, by simpa using empty, by
        simpa using ⟨fits.trans below, fits⟩, isChain_singleton _⟩

end Packing
end Zebra.Base
