import Mathlib.Data.List.Basic
import Mathlib.Data.List.InsertIdx

namespace Zebra.Base
open List
variable {Value Image : Type} {values : List Value}

theorem forall_split_concat {Good : List Value → Value → Prop} {last : Value} :
    (∀ front next back, values ++ [last] = front ++ next :: back → Good front next) ↔
      (∀ front next back, values = front ++ next :: back → Good front next) ∧ Good values last := by
  constructor
  · intro all
    refine ⟨fun front next back split => ?_, all values last [] rfl⟩
    refine all front next (back ++ [last]) ?_
    rw [split, append_assoc]
    rfl
  · rintro ⟨all, own⟩ front next back split
    obtain rfl | ⟨rest, other, rfl⟩ := back.eq_nil_or_concat'
    · obtain ⟨rfl, same⟩ := append_inj' split rfl
      cases same
      exact own
    · have longer : values ++ [last] = (front ++ next :: rest) ++ [other] := by
        rw [split, append_assoc]
        rfl
      exact all front next rest (append_inj_left' longer rfl)

theorem map_modify {g : Value → Image} {f} (same : ∀ value, g (f value) = g value)
    (values : List Value) (index : Nat) : (values.modify index f).map g = values.map g := by
  apply ext_getElem?
  intro other
  rw [getElem?_map, getElem?_map, getElem?_modify]
  cases values[other]? with
  | none => rfl
  | some value =>
    show some (g (if _ then _ else _)) = some (g value)
    split
    · rw [same]
    · rfl

theorem mem_modify {f index value} (member : value ∈ values.modify index f) :
    value ∈ values ∨ ∃ old ∈ values, value = f old := by
  obtain ⟨place, there⟩ := mem_iff_getElem?.mp member
  rw [getElem?_modify] at there
  obtain ⟨old, found, rfl⟩ := Option.map_eq_some_iff.mp there
  have own := mem_of_getElem? found
  split
  · exact .inr ⟨old, own, rfl⟩
  · exact .inl own

/-- A list around the first of its values with a property. -/
structure Around (p : Value → Bool) (values : List Value) (index : Nat) where
  before : List Value
  value : Value
  after : List Value
  split : values = before ++ value :: after
  place : before.length = index
  holds : p value = true
  first : ∀ other ∈ before, p other = false

theorem around {p index} (found : values.findIdx? p = some index) :
    Nonempty (Around p values index) := by
  obtain ⟨bound, holds, first⟩ := findIdx?_eq_some_iff_getElem.mp found
  refine ⟨⟨values.take index, values[index], values.drop (index + 1), ?_, ?_, holds,
    fun other member => ?_⟩⟩
  · rw [getElem_cons_drop, take_append_drop]
  · rw [length_take, Nat.min_eq_left (Nat.le_of_lt bound)]
  · obtain ⟨place, small, rfl⟩ := mem_take_iff_getElem.mp member
    have before : place < index := Nat.lt_of_lt_of_le small (Nat.min_le_left ..)
    simpa using first place before

namespace Around
variable {p : Value → Bool} {index : Nat} (spot : Around p values index)
include spot

theorem getElem? : values[index]? = some spot.value := by
  obtain ⟨before, value, after, rfl, rfl, -, -⟩ := spot
  simp

theorem modify (f : Value → Value) :
    values.modify index f = spot.before ++ f spot.value :: spot.after := by
  obtain ⟨before, value, after, rfl, rfl, -, first⟩ := spot
  dsimp only
  clear first
  induction before with
  | nil => rfl
  | cons first rest ih => exact congrArg (first :: ·) ih

theorem eraseIdx : values.eraseIdx index = spot.before ++ spot.after := by
  obtain ⟨before, value, after, rfl, rfl, -, -⟩ := spot
  simp [eraseIdx_append]

theorem perm : values.Perm (spot.value :: values.eraseIdx index) := by
  rw [spot.eraseIdx]
  obtain ⟨before, value, after, rfl, rfl, -, -⟩ := spot
  exact perm_middle

theorem set (value : Value) : values.set index value = spot.before ++ value :: spot.after := by
  obtain ⟨before, own, after, rfl, rfl, -, -⟩ := spot
  simp

end Around
end Zebra.Base
