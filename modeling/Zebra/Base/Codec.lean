import Zebra.Base.Wire

/-! Messages that are put together in a stream of a fixed size, and their decoders. -/
namespace Zebra.Base
open List

/-- What is put at the end of a stream: as a whole or not at all, or as much as there is
room for. -/
inductive Put where
  | whole (octets : List Octet)
  | part (octets : List Octet)

def Put.octets : Put → List Octet
  | .whole octets | .part octets => octets

@[simp] theorem Put.octets_whole (octets : List Octet) : (Put.whole octets).octets = octets := rfl

@[simp] theorem Put.octets_part (octets : List Octet) : (Put.part octets).octets = octets := rfl

def Put.onto (size : Nat) (stream : List Octet) : Put → List Octet
  | .whole octets => if stream.length + octets.length ≤ size then stream ++ octets else stream
  | .part octets => stream ++ octets.take (size - stream.length)

def written (size : Nat) (puts : List Put) : List Octet :=
  puts.foldl (Put.onto size) []

theorem Put.onto_fits {size stream} {put : Put} (fits : stream.length + put.octets.length ≤ size) :
    put.onto size stream = stream ++ put.octets := by
  cases put with
  | whole octets => exact if_pos fits
  | part octets =>
    have room : octets.length ≤ size - stream.length := Nat.le_sub_of_add_le' fits
    rw [Put.onto, take_of_length_le room]
    rfl

theorem written_fits {size : Nat} {puts : List Put}
    (fits : (puts.flatMap Put.octets).length ≤ size) :
    written size puts = puts.flatMap Put.octets := by
  -- from any stream that leaves room
  have from_stream (stream : List Octet) : (stream ++ puts.flatMap Put.octets).length ≤ size →
      puts.foldl (Put.onto size) stream = stream ++ puts.flatMap Put.octets := by
    clear fits
    induction puts generalizing stream with
    | nil => simp
    | cons put rest ih =>
      intro fits
      rw [flatMap_cons, ← append_assoc] at fits ⊢
      have first : stream.length + put.octets.length ≤ size := by
        rw [length_append, length_append] at fits
        exact Nat.le_of_add_right_le fits
      rw [foldl_cons, Put.onto_fits first]
      exact ih _ fits
  exact from_stream [] fits

abbrev Decoder (Value : Type) := StateT (List Octet) Option Value

namespace Decoder
variable {Value Result : Type}

def take (count : Nat) : Decoder (List Octet) := fun octets =>
  if count ≤ octets.length then some (octets.take count, octets.drop count) else none

def octet : Decoder Octet
  | [] => none
  | head :: rest => some (head, rest)

/-- A number in network byte order. -/
def number (count : Nat) : Decoder (BitVec (8 * count)) := do
  let octets ← take count
  pure (BitVec.ofNat _ (ofOctets octets))

/-- A number of 32 bits. -/
def long : Decoder (BitVec 32) :=
  number 4

/-- A field that may be left out. -/
def optional (present : Bool) (decoder : Decoder Value) (absent : Value) : Decoder Value :=
  if present then decoder else pure absent

theorem optional_true (decoder : Decoder Value) (absent : Value) :
    optional true decoder absent = decoder := rfl

/-- As many values as were announced. -/
def repeated (decoder : Decoder Value) :
    (count : Nat) → Decoder { values : List Value // values.length = count }
  | 0 => pure ⟨[], rfl⟩
  | count + 1 => do
    let value ← decoder
    let rest ← repeated decoder count
    pure ⟨value :: rest.1, congrArg (· + 1) rest.2⟩

/-- Where these octets come first, they are taken and no others. -/
def Reads (decoder : Decoder Value) (octets : List Octet) (value : Value) : Prop :=
  ∀ rest, decoder (octets ++ rest) = some (value, rest)

/-- A success takes so many octets. -/
def Takes (decoder : Decoder Value) (count : Nat) : Prop :=
  ∀ octets value rest, decoder octets = some (value, rest) → octets.length = count + rest.length

theorem bind_apply (first : Decoder Value) (second : Value → Decoder Result) (octets : List Octet) :
    (first >>= second) octets = (first octets).bind fun taken => second taken.1 taken.2 := rfl

variable {first decoder : Decoder Value} {second : Value → Decoder Result} {octets : List Octet}
  {value : Value} {count : Nat}

theorem Reads.then (reads : Reads first octets value) (rest : List Octet) :
    (first >>= second) (octets ++ rest) = second value rest := by
  rw [bind_apply, reads rest]
  rfl

theorem Reads.bind {more result} (reads : Reads first octets value)
    (next : Reads (second value) more result) :
    Reads (first >>= second) (octets ++ more) result := by
  intro rest
  rw [append_assoc, reads.then]
  exact next rest

theorem reads_pure (value : Value) : Reads (pure value) [] value :=
  fun _ => rfl

section
variable (reads : Reads decoder octets value)
include reads

theorem Reads.whole : decoder octets = some (value, []) := by
  have end_of_message := reads []
  rwa [append_nil] at end_of_message

theorem Reads.map (f : Value → Result) :
    Reads (do let value ← decoder; pure (f value)) octets (f value) := by
  have both : Reads (decoder >>= fun value => pure (f value)) (octets ++ []) (f value) :=
    reads.bind (reads_pure _)
  rwa [append_nil] at both

theorem reads_optional {present absent} :
    Reads (optional present decoder absent) (if present then octets else [])
    (if present then value else absent) := by
  cases present with
  | false => exact reads_pure absent
  | true => exact reads

end

theorem reads_octet (value : Octet) : Reads octet [value] value :=
  fun _ => rfl

theorem reads_take (length : octets.length = count) : Reads (take count) octets octets := by
  intro rest
  subst length
  simp [take]

theorem reads_number {count} (value : BitVec (8 * count)) :
    Reads (number count) (toOctets count value.toNat) value := by
  have taken := (reads_take (length_toOctets count value.toNat)).map fun octets =>
    BitVec.ofNat (8 * count) (ofOctets octets)
  rwa [ofOctets_toOctets_toNat, BitVec.ofNat_toNat, BitVec.setWidth_eq] at taken

theorem reads_long (value : BitVec 32) : Reads long (toOctets 4 value.toNat) value :=
  @reads_number 4 value

/-- Of the items that were written, as many as were announced. -/
theorem repeated_flatMap {Item : Type} {write : Item → List Octet} {view : Item → Value}
    {items : List Item}
    (reads : ∀ item ∈ items, Reads decoder (write item) (view item)) (few : count ≤ items.length)
    (rest : List Octet) :
    ∃ taken, taken.1 = (items.take count).map view ∧
      repeated decoder count (items.flatMap write ++ rest) =
        some (taken, (items.drop count).flatMap write ++ rest) := by
  induction count generalizing items with
  | zero => exact ⟨⟨[], rfl⟩, rfl, rfl⟩
  | succ count ih =>
    cases items with
    | nil => exact absurd few (Nat.not_succ_le_zero count)
    | cons item others =>
      obtain ⟨taken, same, later⟩ := ih (fun item member => reads item (.tail _ member))
        (Nat.le_of_succ_le_succ few)
      refine ⟨⟨view item :: taken.1, congrArg (· + 1) taken.2⟩, by simp [same], ?_⟩
      rw [flatMap_cons, append_assoc, repeated, (reads item mem_cons_self).then, bind_apply, later]
      rfl

theorem takes_pure (value : Value) : Takes (pure value) 0 := by
  intro octets other rest taken
  cases Option.some.inj taken
  exact (zero_add _).symm

theorem Takes.bind {more} (takes : Takes first count) (next : ∀ value, Takes (second value) more) :
    Takes (first >>= second) (count + more) := by
  intro octets result rest taken
  obtain ⟨⟨value, middle⟩, here, later⟩ := Option.bind_eq_some_iff.mp taken
  rw [takes octets value middle here, next value middle result rest later, add_assoc]

theorem takes_take (count : Nat) : Takes (take count) count := by
  intro octets value rest taken
  rw [take] at taken
  split at taken
  · rename_i enough
    cases Option.some.inj taken
    rw [length_drop, Nat.add_sub_cancel' enough]
  · cases taken

theorem takes_number (count : Nat) : Takes (number count) count :=
  (takes_take count).bind fun _ => takes_pure _

theorem takes_octet : Takes octet 1 := by
  intro octets value rest taken
  cases octets with
  | nil => cases taken
  | cons head tail =>
    cases Option.some.inj taken
    exact add_comm ..

theorem takes_long : Takes long 4 :=
  takes_number 4

theorem takes_optional {present absent} (takes : Takes decoder count) :
    Takes (optional present decoder absent) (if present then count else 0) := by
  cases present with
  | false => exact takes_pure absent
  | true => exact takes

/-- Octets that are not of the number that a decoder takes are not taken as a whole. -/
theorem Takes.ne_whole {decoder count} (takes : Takes decoder count) {octets}
    (apart : octets.length ≠ count) (value : Value) : decoder octets ≠ some (value, []) :=
  fun taken => apart (takes octets value [] taken)

end Decoder

def framed (size : Nat) (command : Octet) (body : List Put) : List Octet :=
  let octets := written size (.whole [0, 0] :: .whole [command] :: body)
  toOctets 2 octets.length ++ octets.drop 2

def unframe : Decoder (Octet × List Octet) := do
  let length ← Decoder.number 2
  let command ← Decoder.octet
  let body ← Decoder.take (length.toNat - 3)
  pure (command, body)

theorem unframe_framed {size} (small : size < 65536) (command : Octet) {body}
    (fits : (body.flatMap Put.octets).length + 3 ≤ size) :
    Decoder.Reads unframe (framed size command body) (command, body.flatMap Put.octets) := by
  have whole : written size (.whole [0, 0] :: .whole [command] :: body) =
      [0, 0, command] ++ body.flatMap Put.octets := by
    rw [written_fits]
    · rfl
    · rw [flatMap_cons, flatMap_cons, length_append, length_append]
      simp only [Put.octets_whole, length_cons, length_nil]
      omega
  have length : ([0, 0, command] ++ body.flatMap Put.octets).length =
    (body.flatMap Put.octets).length + 3 := by simp
  have split : framed size command body =
      toOctets 2 (BitVec.ofNat (8 * 2) ((body.flatMap Put.octets).length + 3)).toNat ++
        ([command] ++ body.flatMap Put.octets) := by
    have bound : (body.flatMap Put.octets).length + 3 < 2 ^ (8 * 2) := lt_of_le_of_lt fits small
    rw [framed, whole, length, BitVec.toNat_ofNat, Nat.mod_eq_of_lt bound]
    rfl
  rw [split]
  refine (Decoder.reads_number _).bind ((Decoder.reads_octet command).bind ?_)
  apply Decoder.Reads.map
  apply Decoder.reads_take
  have bound : (body.flatMap Put.octets).length + 3 < 2 ^ (8 * 2) := lt_of_le_of_lt fits small
  rw [BitVec.toNat_ofNat, Nat.mod_eq_of_lt bound, Nat.add_sub_cancel]

end Zebra.Base
