import Zebra.Base.Codec
import Zebra.Base.Reader

/-! A parser that walks over a buffer, beside the decoder of the message in the buffer. -/
namespace Zebra.Base
open Reader List Option
variable {World Failure Value Result : Type}

/-- What the message has left. -/
def left (data : List Octet) (cursor : Cursor World) : List Octet :=
  (data.take cursor.hi).drop cursor.getp

section
variable {data : List Octet} {cursor : Cursor World} (held : cursor.hi ≤ data.length)
include held

theorem length_left : (left data cursor).length = cursor.hi - cursor.getp := by
  rw [left, length_drop, length_take_of_le held]

theorem slice_eq_left {count} (inside : cursor.getp + count ≤ cursor.hi)
    : slice data cursor.getp count = (left data cursor).take count := by
  refine ext_getElem? fun index => ?_
  by_cases small : index < count
  · have here : cursor.getp + index < data.length := by omega
    rw [slice, getElem?_map, getElem?_range small, map_some, getD_eq_getElem?_getD,
      getElem?_take_of_lt small, left, getElem?_drop, getElem?_take_of_lt (by omega),
      getElem?_eq_getElem here, getD_some]
  · rw [getElem?_eq_none (by rw [length_slice]; omega),
      getElem?_eq_none (by rw [length_take]; omega)]

end

/-- No access and no move went out of the message, and the world is as it has to be. -/
structure Kept (Fits : World → Prop) (cursor : Cursor World) : Prop where
  inside : ∀ access ∈ cursor.accesses, access.Inside
  ends : cursor.getp ≤ cursor.hi
  world : Fits cursor.world

/-- The limits stay, and what is wrong is never put right. -/
structure Steady (Fits : World → Prop) (reader : Reader World Failure Value) : Prop where
  lo : ∀ data cursor, (reader.run data cursor).2.lo = cursor.lo
  hi : ∀ data cursor, (reader.run data cursor).2.hi = cursor.hi
  advances : reader.Advances
  worsens : ∀ data cursor, Kept Fits (reader.run data cursor).2 → Kept Fits cursor

/-- The parser reads what the decoder does, and goes wrong where the decoder has no result. -/
structure Follows (Fits : World → Prop) (Same : Value → Result → Prop)
    (reader : Reader World Failure Value) (decoder : Decoder Result) : Prop where
  steady : Steady Fits reader
  reads : ∀ data cursor, cursor.lo ≤ cursor.getp → cursor.hi ≤ data.length → Kept Fits cursor →
    ∀ result rest, decoder (left data cursor) = some (result, rest) →
      ∃ value after, reader.run data cursor = (.ok value, after) ∧ Same value result ∧
        Kept Fits after ∧ left data after = rest
  fails : ∀ data cursor, cursor.lo ≤ cursor.getp → cursor.hi ≤ data.length → Kept Fits cursor →
    decoder (left data cursor) = none → ¬Kept Fits (reader.run data cursor).2

variable (count : Nat)

namespace Steady
variable {Fits : World → Prop}

theorem pure (value : Value) : Steady Fits (Pure.pure value : Reader World Failure Value) :=
  ⟨fun _ _ => rfl, fun _ _ => rfl, advances_pure value, fun _ _ => id⟩

theorem of_run {reader : Reader World Failure Value} {data cursor after}
    {outcome : Except Failure Value} (steady : Steady Fits reader)
    (ran : reader.run data cursor = (outcome, after)) :
    after.lo = cursor.lo ∧ after.hi = cursor.hi ∧ cursor.getp ≤ after.getp := by
  have lo := steady.lo data cursor
  have hi := steady.hi data cursor
  have moved := steady.advances data cursor
  rw [ran] at lo hi moved
  exact ⟨lo, hi, moved⟩

theorem bind {first} {second : Value → Reader World Failure Result} (firstly : Steady Fits first)
    (secondly : ∀ value, Steady Fits (second value)) : Steady Fits (first >>= second) := by
  refine ⟨fun data cursor => ?_, fun data cursor => ?_,
    firstly.advances.bind fun value => (secondly value).advances,
    fun data cursor => ?_⟩
  · have before := firstly.lo data cursor
    rw [run_bind]
    split
    · rename_i value middle ran
      rw [ran] at before
      exact ((secondly value).lo data middle).trans before
    · rename_i ran
      rwa [ran] at before
  · have before := firstly.hi data cursor
    rw [run_bind]
    split
    · rename_i value middle ran
      rw [ran] at before
      exact ((secondly value).hi data middle).trans before
    · rename_i ran
      rwa [ran] at before
  · have before := firstly.worsens data cursor
    rw [run_bind]
    split
    · rename_i value middle ran
      rw [ran] at before
      exact fun kept => before ((secondly value).worsens data middle kept)
    · rename_i ran
      rwa [ran] at before

theorem take : Steady Fits (take count : Reader World Failure _) := by
  refine ⟨fun _ _ => rfl, fun _ _ => rfl, fun _ _ => Nat.le_add_right ..,
    fun data cursor kept => ?_⟩
  exact ⟨fun access member => kept.inside access (.tail _ member),
    Nat.le_of_add_right_le kept.ends, kept.world⟩

theorem forward : Steady Fits (forward count : Reader World Failure Unit) :=
  ⟨fun _ _ => rfl, fun _ _ => rfl, advances_forward count,
    fun _ _ kept => ⟨kept.inside, Nat.le_of_add_right_le kept.ends, kept.world⟩⟩

theorem change {step} (worse : ∀ world, Fits (step world) → Fits world) :
    Steady Fits (change step : Reader World Failure Unit) :=
  ⟨fun _ _ => rfl, fun _ _ => rfl, fun _ _ => le_rfl,
    fun _ _ kept => ⟨kept.inside, kept.ends, worse _ kept.world⟩⟩

theorem ite {condition : Prop} [Decidable condition] {first second : Reader World Failure Value}
    (firstly : Steady Fits first)
    (secondly : Steady Fits second) : Steady Fits (if condition then first else second) := by
  split
  · exact firstly
  · exact secondly

end Steady

namespace Follows
variable {Fits : World → Prop} {Same : Value → Result → Prop} {reader : Reader World Failure Value}
  {decoder : Decoder Result} {data : List Octet} {cursor : Cursor World}

theorem pure {value result} (same : Same value result) :
    Follows Fits Same (Pure.pure value : Reader World Failure Value)
    (Pure.pure result : Decoder Result) := by
  refine ⟨Steady.pure value, fun data cursor _ _ kept other rest done => ?_,
    fun data cursor _ _ _ failed => by cases failed⟩
  cases Option.some.inj done
  exact ⟨value, cursor, rfl, same, kept, rfl⟩

theorem bind {NextValue NextResult : Type} {Next : NextValue → NextResult → Prop}
    {second : Value → Reader World Failure NextValue}
    {later : Result → Decoder NextResult} (firstly : Follows Fits Same reader decoder)
    (steady : ∀ value, Steady Fits (second value))
    (secondly : ∀ value result, Same value result →
      Follows Fits Next (second value) (later result)) :
    Follows Fits Next (reader >>= second) (decoder >>= later) := by
  refine ⟨firstly.steady.bind steady, fun data cursor low held kept result rest done => ?_,
    fun data cursor low held kept failed => ?_⟩
  · obtain ⟨⟨between, middle⟩, begun, ended⟩ := bind_eq_some_iff.mp done
    obtain ⟨value, after, ran, same, good, same_left⟩ :=
      firstly.reads data cursor low held kept between middle begun
    obtain ⟨lo, hi, moved⟩ := firstly.steady.of_run ran
    rw [run_bind_ok ran]
    rw [← same_left] at ended
    exact (secondly value between same).reads data after (by omega)
      (by omega) good result rest ended
  · rw [Decoder.bind_apply] at failed
    cases begun : decoder (left data cursor) with
    | none =>
      have bad := firstly.fails data cursor low held kept begun
      rw [run_bind]
      split
      · rename_i value middle ran
        rw [ran] at bad
        exact fun after => bad ((steady value).worsens data middle after)
      · rename_i ran
        rwa [ran] at bad
    | some found =>
      obtain ⟨value, after, ran, same, good, same_left⟩ :=
        firstly.reads data cursor low held kept found.1 found.2 begun
      obtain ⟨lo, hi, moved⟩ := firstly.steady.of_run ran
      rw [begun, bind_some, ← same_left] at failed
      rw [run_bind_ok ran]
      exact (secondly value found.1 same).fails data after (by omega) (by omega) good failed

section
variable (follows : Follows Fits Same reader decoder)
include follows

theorem kept_iff (low : cursor.lo ≤ cursor.getp) (held : cursor.hi ≤ data.length)
    (kept : Kept Fits cursor) : Kept Fits (reader.run data cursor).2 ↔
    (decoder (left data cursor)).isSome := by
  cases decoded : decoder (left data cursor) with
  | none =>
    exact ⟨fun after => absurd after (follows.fails data cursor low held kept decoded),
    fun impossible => by cases impossible⟩
  | some found =>
    obtain ⟨value, after, ran, -, good, -⟩ :=
      follows.reads data cursor low held kept found.1 found.2 decoded
    rw [ran]
    exact ⟨fun _ => rfl, fun _ => good⟩

theorem map {NextValue NextResult : Type} {Next : NextValue → NextResult → Prop}
    {value : Value → NextValue} {result : Result → NextResult}
    (same : ∀ first second, Same first second → Next (value first) (result second)) :
    Follows Fits Next (do let first ← reader; Pure.pure (value first))
    (do let second ← decoder; Pure.pure (result second)) :=
  follows.bind (fun _ => Steady.pure _) fun first second related =>
    Follows.pure (same first second related)

theorem map_right {NextResult : Type} {Next : Value → NextResult → Prop}
    (result : Result → NextResult)
    (same : ∀ first second, Same first second → Next first (result second)) :
    Follows Fits Next reader (do let second ← decoder; Pure.pure (result second)) := by
  have moved := follows.map same
  exact (bind_pure reader) ▸ moved

end

theorem of_move (value : List Octet → Value) (result : List Octet → Result) {count}
    (steady : Steady Fits reader)
    (moves : ∀ data cursor, (reader.run data cursor).1 =
      .ok (value (slice data cursor.getp count)) ∧
      (reader.run data cursor).2.getp = cursor.getp + count)
    (keeps : ∀ data cursor, cursor.lo ≤ cursor.getp → cursor.getp + count ≤ cursor.hi →
      Kept Fits cursor →
      Kept Fits (reader.run data cursor).2)
    (same : ∀ octets, octets.length = count → Same (value octets) (result octets)) :
    Follows Fits Same reader (do let octets ← Decoder.take count; Pure.pure (result octets)) := by
  refine ⟨steady, fun data cursor low held kept found rest done => ?_,
    fun data cursor low held kept failed after => ?_⟩
  · rw [Decoder.bind_apply, Decoder.take] at done
    have size : (left data cursor).length = cursor.hi - cursor.getp := length_left held
    split at done
    · rename_i enough
      have inside : cursor.getp + count ≤ cursor.hi := by
        have ends := kept.ends
        omega
      cases Option.some.inj done
      refine ⟨value (slice data cursor.getp count), (reader.run data cursor).2,
        Prod.ext (moves data cursor).1 rfl, ?_,
        keeps data cursor low inside kept, ?_⟩
      · rw [slice_eq_left held inside]
        refine same _ ?_
        rw [length_take_of_le enough]
      · rw [left, left, steady.hi, (moves data cursor).2, drop_drop]
    · cases done
  · rw [Decoder.bind_apply, Decoder.take] at failed
    have size : (left data cursor).length = cursor.hi - cursor.getp := length_left held
    have ends := after.ends
    rw [steady.hi, (moves data cursor).2] at ends
    rw [if_pos (by omega)] at failed
    cases failed

theorem take :
    Follows Fits (fun first second => first = second) (Reader.take count : Reader World Failure _)
    (Decoder.take count) := by
  have moved : Follows Fits (fun first second => first = second)
      (Reader.take count : Reader World Failure _)
      (do let octets ← Decoder.take count; Pure.pure (id octets)) :=
        of_move id id (Steady.take count)
    (fun _ _ => ⟨rfl, rfl⟩) (fun data cursor low inside kept =>
      ⟨forall_mem_cons.mpr ⟨⟨low, inside⟩, kept.inside⟩, inside, kept.world⟩)
    fun _ _ => rfl
  exact (bind_pure (Decoder.take count)) ▸ moved

theorem number :
    Follows Fits (fun first second => first = second) (number count : Reader World Failure _)
    (Decoder.number count) :=
  (take count).map fun _ _ same => congrArg (fun octets => BitVec.ofNat _ (ofOctets octets)) same

theorem forward {value} {result : Result} (same : Same value result) (count : Nat) :
    Follows Fits Same
    (do let _ ← (forward count : Reader World Failure Unit); Pure.pure value)
    (do let _ ← Decoder.take count; Pure.pure result) :=
  of_move (fun _ => value) (fun _ => result) ((Steady.forward count).bind fun _ => Steady.pure _)
    (fun _ _ => ⟨rfl, rfl⟩)
    (fun _ _ _ inside kept => ⟨kept.inside, inside, kept.world⟩) fun _ _ => same

theorem ite {condition : Prop} [Decidable condition] {other otherwise}
    (firstly : Follows Fits Same reader decoder) (secondly : Follows Fits Same other otherwise) :
    Follows Fits Same (if condition then reader else other)
    (if condition then decoder else otherwise) := by
  split
  · exact firstly
  · exact secondly

end Follows

namespace Reader

def octet : Reader World Failure Octet := do
  let octets ← take 1
  pure (octets.headD 0)

/-- A field that may be left out. -/
def optional (present : Bool) (reader : Reader World Failure Value) (absent : Value) :
    Reader World Failure Value :=
  if present then reader else pure absent

/-- As many values as were announced. -/
def repeated (reader : Reader World Failure Value) : Nat → Reader World Failure (List Value)
  | 0 => pure []
  | count + 1 => do
    let value ← reader
    let rest ← repeated reader count
    pure (value :: rest)

end Reader

section More
variable {Fits : World → Prop} {Same : Value → Result → Prop} {reader : Reader World Failure Value}
  {decoder : Decoder Result}

theorem Steady.repeated (steady : Steady Fits reader) (count : Nat) :
    Steady Fits (reader.repeated count) := by
  induction count with
  | zero => exact Steady.pure []
  | succ count ih => exact steady.bind fun _ => ih.bind fun _ => Steady.pure _

theorem Steady.octet : Steady Fits (octet : Reader World Failure Octet) :=
  (Steady.take 1).bind fun _ => Steady.pure _

theorem Steady.number : Steady Fits (number count : Reader World Failure _) :=
  (Steady.take count).bind fun _ => Steady.pure _

theorem Steady.optional {present : Bool} {absent} (steady : Steady Fits reader) :
    Steady Fits (reader.optional present absent) :=
  Steady.ite steady (Steady.pure absent)

theorem Follows.octet :
    Follows Fits (fun first second => first = second)
    (Reader.octet : Reader World Failure Octet) Decoder.octet := by
  have taken : Follows Fits (fun first second => first = second)
      (Reader.octet : Reader World Failure Octet)
      (do let octets ← Decoder.take 1; Pure.pure (octets.headD 0)) :=
    (Follows.take 1).map fun _ _ same => congrArg (fun octets => octets.headD 0) same
  have same : (do let octets ← Decoder.take 1; Pure.pure (octets.headD 0)) = Decoder.octet := by
    funext octets
    cases octets with
    | nil => rfl
    | cons head rest => rfl
  rwa [same] at taken

theorem Follows.optional {present absent missing} (follows : Follows Fits Same reader decoder)
    (same : Same absent missing) : Follows Fits Same (reader.optional present absent)
    (decoder.optional present missing) := by
  cases present with
  | false => exact Follows.pure same
  | true => exact follows

theorem Follows.repeated {decoder : Decoder Value}
    (follows : Follows Fits (fun first second => first = second) reader decoder) (count : Nat) :
    Follows Fits (fun values result => values = result.1) (reader.repeated count)
    (decoder.repeated count) := by
  induction count with
  | zero => exact Follows.pure rfl
  | succ count ih =>
    refine follows.bind (fun _ => (follows.steady.repeated count).bind fun _ => Steady.pure _)
      fun value result same => ?_
    refine ih.bind (fun _ => Steady.pure _) fun rest others equal => Follows.pure ?_
    rw [same, equal]

end More
end Zebra.Base
