import Zebra.Base.Packing

namespace Zebra.Base
open List Option
section Drain
variable {Item Packet : Type} {send : List Item → Option (Packet × List Item)}

/-- `while (listcount (items))` send a packet, for so many rounds at most. -/
def drain (send : List Item → Option (Packet × List Item)) : Nat → List Item → Option (List Packet)
  | _, [] => some []
  | 0, _ :: _ => none
  | rounds + 1, item :: items => do
    let (op, rest) ← send (item :: items)
    let later ← drain send rounds rest
    return op :: later

/-- What the packets take, one after the other. -/
inductive Drained (Took : List Item → List Item → Packet → Prop) :
    List (List Item) → List Packet → Prop where
  | done : Drained Took [] []
  | packet {taken : List Item} {groups : List (List Item)} {op : Packet} {packets : List Packet} :
      taken ≠ [] → Took taken groups.flatten op → Drained Took groups packets →
        Drained Took (taken :: groups) (op :: packets)

variable {items : List Item} {op : Packet} {packets : List Packet} {rounds : Nat}

@[simp] theorem drain_nil : drain send rounds [] = some [] := by
  cases rounds <;> rfl

theorem drain_stuck (some_ : items ≠ []) (sent : send items = some (op, items)) :
    drain send rounds items = none := by
  obtain ⟨item, later, rfl⟩ := exists_cons_of_ne_nil some_
  induction rounds with
  | zero => rfl
  | succ rounds ih =>
    rw [drain, sent]
    exact (congrArg (bind · _) ih).trans rfl

theorem drain_mono {more} (ran : drain send rounds items = some packets) (enough : rounds ≤ more) :
    drain send more items = some packets := by
  induction rounds generalizing items packets more with
  | zero =>
    cases items with
    | nil => simpa using ran
    | cons => cases ran
  | succ rounds ih =>
    obtain ⟨more, rfl⟩ : ∃ fewer, more = fewer + 1 :=
      Nat.exists_eq_add_one.mpr (Nat.zero_lt_of_lt enough)
    cases items with
    | nil => exact ran
    | cons item items =>
      rw [drain] at ran ⊢
      obtain ⟨⟨op, rest⟩, sent, ran⟩ := bind_eq_some_iff.mp ran
      obtain ⟨later, drained, same⟩ := bind_eq_some_iff.mp ran
      rw [sent]
      exact (congrArg (bind · _) (ih drained (Nat.le_of_succ_le_succ enough))).trans same

variable {Took : List Item → List Item → Packet → Prop}

theorem drain_drained
    (spec : ∀ items op rest, send items = some (op, rest) →
      ∃ taken, items = taken ++ rest ∧ Took taken rest op)
    (ran : drain send rounds items = some packets) :
    ∃ groups, groups.flatten = items ∧ Drained Took groups packets := by
  induction rounds generalizing items packets with
  | zero =>
    cases items with
    | nil => exact ⟨[], rfl, by rw [← some.inj ran]; exact .done⟩
    | cons => cases ran
  | succ rounds ih =>
    cases items with
    | nil => exact ⟨[], rfl, by rw [← some.inj ran]; exact .done⟩
    | cons item items =>
      have whole := ran
      obtain ⟨⟨op, rest⟩, sent, ran⟩ := bind_eq_some_iff.mp ran
      obtain ⟨later, drained, same⟩ := bind_eq_some_iff.mp ran
      obtain ⟨taken, split, took⟩ := spec _ _ _ sent
      obtain ⟨groups, rfl, takes⟩ := ih drained
      have some_ : taken ≠ [] := by
        rintro rfl
        rw [nil_append] at split
        rw [← split] at sent
        rw [drain_stuck (cons_ne_nil _ _) sent] at whole
        cases whole
      rw [← some.inj same, split]
      exact ⟨taken :: groups, rfl, .packet some_ took takes⟩

theorem Drained.forall₂ {Each groups}
    (drained : Drained Took groups packets)
    (each : ∀ taken rest op, Took taken rest op → Each taken op) :
    List.Forall₂ Each groups packets := by
  induction drained with
  | done => exact .nil
  | packet _ took _ ih => exact .cons (each _ _ _ took) ih

variable {size : Item → Nat} {overhead limit most : Nat} {groups : List (List Item)}

theorem Drained.packed (drained : Drained Took groups packets)
    (within : ∀ taken rest op, Took taken rest op → taken ≠ [] → overhead + load size taken ≤ most →
      overhead + load size taken ≤ limit)
    (full : ∀ taken rest op, Took taken rest op →
      ∀ item ∈ rest.head?, limit < overhead + load size taken + size item)
    (short : ∀ taken ∈ groups, overhead + load size taken ≤ most) :
    Packed size overhead limit most groups := by
  induction drained with
  | done => exact ⟨by simp, by simp, isChain_nil⟩
  | packet some_ took _ ih =>
    obtain ⟨first, later⟩ := forall_mem_cons.mp short
    exact (ih later).cons some_ ⟨within _ _ _ took some_ first, first⟩ (full _ _ _ took)

theorem drain_packed {Carries}
    (spec : ∀ group rest, group ≠ [] → overhead + load size group ≤ limit →
      overhead + load size group ≤ most →
      (∀ item ∈ rest.head?, limit < overhead + load size group + size item) →
      ∃ op, send (group ++ rest) = some (op, rest) ∧ Carries group op)
    (packed : Packed size overhead limit most groups) :
    ∃ packets, drain send groups.length groups.flatten = some packets ∧
      List.Forall₂ Carries groups packets := by
  induction groups with
  | nil => exact ⟨[], rfl, .nil⟩
  | cons group groups ih =>
    obtain ⟨packets, drained, carries⟩ := ih packed.tail
    have some_ := packed.some_ group mem_cons_self
    obtain ⟨within, short⟩ := packed.fits group mem_cons_self
    obtain ⟨op, sent, carry⟩ :=
      spec group groups.flatten some_ within short fun item is => packed.next is
    obtain ⟨item, later, isGroup⟩ := exists_cons_of_ne_nil some_
    refine ⟨op :: packets, ?_, .cons carry carries⟩
    rw [flatten_cons, isGroup, cons_append, length_cons, drain, ← cons_append, ← isGroup, sent]
    exact (congrArg (bind · _) drained).trans rfl

end Drain
end Zebra.Base
