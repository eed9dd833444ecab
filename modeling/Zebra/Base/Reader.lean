import Zebra.Base.Wire

/-! Parsers that walk over a buffer and remember every access. `World` is whatever else they
change. -/
namespace Zebra.Base
section
variable (data : List Octet) (pos count : Nat)

/-- `count` octets from `pos` on; what lies behind the buffer reads as zero. -/
def slice : List Octet :=
  (List.range count).map fun index => data.getD (pos + index) 0

@[simp] theorem length_slice : (slice data pos count).length = count := by
  rw [slice, List.length_map, List.length_range]

/-- The number in `count` octets from `pos` on, in network byte order. -/
def field : BitVec (8 * count) :=
  BitVec.ofNat _ (ofOctets (slice data pos count))

end

/-- An access to `count` octets from `pos` on, made for the octets `lo` to `hi`. -/
structure Access where
  pos : Nat
  count : Nat
  lo : Nat
  hi : Nat
deriving DecidableEq

def Access.Inside (access : Access) : Prop :=
  access.lo ≤ access.pos ∧ access.pos + access.count ≤ access.hi

instance (access : Access) : Decidable access.Inside :=
  inferInstanceAs (Decidable (_ ∧ _))

structure Cursor (World : Type) where
  getp : Nat
  lo : Nat
  hi : Nat
  accesses : List Access := []
  world : World

def Reader (World Failure Value : Type) :=
  List Octet → Cursor World → Except Failure Value × Cursor World

/-- A computation whose first part gives a value goes on with it. -/
theorem bind_ran {Value Result} {first : Option Value} {value} {next : Value → Option Result}
    {result} (ran : first = some value) (rest : next value = result) : first.bind next = result :=
  (congrArg (Option.bind · _) ran).trans rest

namespace Reader
variable {World Failure Value Result : Type}

/-- One part after the other. -/
def andThen (first : Except Failure Value × Cursor World)
    (second : Value → Cursor World → Except Failure Result × Cursor World) :
    Except Failure Result × Cursor World :=
  match first with
  | (.ok value, cursor) => second value cursor
  | (.error failure, cursor) => (.error failure, cursor)

section
variable (outcome : Except Failure Value × Cursor World)

theorem andThen_ok : andThen outcome (fun value cursor => (.ok value, cursor)) = outcome := by
  rcases outcome with ⟨_ | _, _⟩ <;> rfl

theorem andThen_assoc {Last : Type}
    (second : Value → Cursor World → Except Failure Result × Cursor World)
    (third : Result → Cursor World → Except Failure Last × Cursor World) :
    andThen (andThen outcome second) third = andThen outcome fun value cursor =>
      andThen (second value cursor) third := by
  rcases outcome with ⟨_ | _, _⟩ <;> rfl

end

instance : Monad (Reader World Failure) where
  pure value := fun _ cursor => (.ok value, cursor)
  bind first second :=
    fun data cursor => andThen (first data cursor) fun value cursor => second value data cursor

instance : LawfulMonad (Reader World Failure) :=
  LawfulMonad.mk' _ (fun _ => funext fun _ => funext fun _ => andThen_ok _) (fun _ _ => rfl)
    fun _ _ _ => funext fun _ => funext fun _ => andThen_assoc _ _ _

def run (reader : Reader World Failure Value) (data : List Octet) (cursor : Cursor World) :
    Except Failure Value × Cursor World :=
  reader data cursor

def fail (failure : Failure) : Reader World Failure Value :=
  fun _ cursor => (.error failure, cursor)

def getp : Reader World Failure Nat :=
  fun _ cursor => (.ok cursor.getp, cursor)

def look : Reader World Failure World :=
  fun _ cursor => (.ok cursor.world, cursor)

def change (step : World → World) : Reader World Failure Unit :=
  fun _ cursor => (.ok (), { cursor with world := step cursor.world })

/-- Later accesses are for these octets. -/
def within (lo hi : Nat) : Reader World Failure Unit :=
  fun _ cursor => (.ok (), { cursor with lo := lo, hi := hi })

/-- Look at octets without moving. -/
def peek (pos count : Nat) : Reader World Failure (List Octet) :=
  fun data cursor => (.ok (slice data pos count),
    { cursor with accesses := ⟨pos, count, cursor.lo, cursor.hi⟩ :: cursor.accesses })

def forward (count : Nat) : Reader World Failure Unit :=
  fun _ cursor => (.ok (), { cursor with getp := cursor.getp + count })

/-- Take octets at the read pointer. -/
def take (count : Nat) : Reader World Failure (List Octet) :=
  fun data cursor => (.ok (slice data cursor.getp count),
    { cursor with
      getp := cursor.getp + count
      accesses := ⟨cursor.getp, count, cursor.lo, cursor.hi⟩ :: cursor.accesses })

/-- Take a number in network byte order. -/
def number (count : Nat) : Reader World Failure (BitVec (8 * count)) := do
  let octets ← take count
  pure (BitVec.ofNat _ (ofOctets octets))

variable (failure : Failure)

section Run
variable {data : List Octet} {cursor : Cursor World}

@[simp] theorem run_pure (value : Value) :
    (pure value : Reader World Failure Value).run data cursor = (.ok value, cursor) := rfl

@[simp] theorem run_fail :
    (fail failure : Reader World Failure Value).run data cursor = (.error failure, cursor) := rfl

theorem run_bind (first : Reader World Failure Value)
    (second : Value → Reader World Failure Result) :
    (first >>= second).run data cursor =
      match first.run data cursor with
      | (.ok value, cursor) => (second value).run data cursor
      | (.error failure, cursor) => (.error failure, cursor) := rfl

variable {first : Reader World Failure Value} {second : Value → Reader World Failure Result}
  {after : Cursor World}

theorem run_bind_ok {value} (succeeds : first.run data cursor = (.ok value, after)) :
    (first >>= second).run data cursor = (second value).run data after := by
  rw [run_bind, succeeds]

theorem run_bind_error {failure} (fails : first.run data cursor = (.error failure, after)) :
    (first >>= second).run data cursor = (.error failure, after) := by
  rw [run_bind, fails]

theorem run_bind_eq_ok {result}
    (succeeds : (first >>= second).run data cursor = (.ok result, after)) :
    ∃ value middle, first.run data cursor = (.ok value, middle) ∧
      (second value).run data middle = (.ok result, after) := by
  rw [run_bind] at succeeds
  split at succeeds
  · rename_i value middle done
    exact ⟨value, middle, done, succeeds⟩
  · cases succeeds

@[simp] theorem run_getp :
    (getp : Reader World Failure Nat).run data cursor = (.ok cursor.getp, cursor) := rfl

@[simp] theorem run_look :
    (look : Reader World Failure World).run data cursor = (.ok cursor.world, cursor) := rfl

@[simp] theorem run_change (step : World → World) :
    (change step : Reader World Failure Unit).run data cursor =
      (.ok (), { cursor with world := step cursor.world }) := rfl

@[simp] theorem run_within (lo hi : Nat) :
    (within lo hi : Reader World Failure Unit).run data cursor =
      (.ok (), { cursor with lo := lo, hi := hi }) :=
  rfl

@[simp] theorem run_peek (pos count : Nat) :
    (peek pos count : Reader World Failure (List Octet)).run data cursor =
      (.ok (slice data pos count),
      { cursor with accesses := ⟨pos, count, cursor.lo, cursor.hi⟩ :: cursor.accesses }) := rfl

@[simp] theorem run_forward (count : Nat) :
    (forward count : Reader World Failure Unit).run data cursor =
      (.ok (), { cursor with getp := cursor.getp + count }) := rfl

@[simp] theorem run_take (count : Nat) :
    (take count : Reader World Failure (List Octet)).run data cursor =
      (.ok (slice data cursor.getp count),
      { cursor with
        getp := cursor.getp + count
        accesses := ⟨cursor.getp, count, cursor.lo, cursor.hi⟩ :: cursor.accesses }) := rfl

@[simp] theorem run_number (count : Nat) :
    (number count : Reader World Failure (BitVec (8 * count))).run data cursor =
      (.ok (field data cursor.getp count),
      { cursor with
        getp := cursor.getp + count
        accesses := ⟨cursor.getp, count, cursor.lo, cursor.hi⟩ :: cursor.accesses }) := rfl

end Run

/-- The read pointer never goes back. -/
def Advances (reader : Reader World Failure Value) : Prop :=
  ∀ data cursor, cursor.getp ≤ (reader.run data cursor).2.getp

variable {first : Reader World Failure Value} {second : Value → Reader World Failure Result}
  {Good : Value → Prop}

theorem Advances.bind (firstly : first.Advances) (secondly : ∀ value, (second value).Advances) :
    (first >>= second).Advances := by
  intro data cursor
  have moved := firstly data cursor
  rw [run_bind]
  split
  · rename_i value middle ran
    rw [ran] at moved
    exact le_trans moved (secondly value data middle)
  · rename_i ran
    rw [ran] at moved
    exact moved

theorem advances_pure (value : Value) : (pure value : Reader World Failure Value).Advances :=
  fun _ _ => le_rfl

theorem advances_fail : (fail failure : Reader World Failure Value).Advances :=
  fun _ _ => le_rfl

theorem advances_number (count : Nat) : (number count : Reader World Failure _).Advances :=
  fun _ _ => Nat.le_add_right ..

theorem advances_forward (count : Nat) : (forward count : Reader World Failure Unit).Advances :=
  fun _ _ => Nat.le_add_right ..

/-- Whatever value comes out is a good one. -/
def Yields (reader : Reader World Failure Value) (Good : Value → Prop) : Prop :=
  ∀ data cursor value after, reader.run data cursor = (.ok value, after) → Good value

theorem Yields.andThen {Fair Good} (firstly : first.Yields Fair)
    (secondly : ∀ value, Fair value → (second value).Yields Good) :
    (first >>= second).Yields Good := by
  intro data cursor value after ran
  obtain ⟨middle, between, begun, rest⟩ := run_bind_eq_ok ran
  exact secondly middle (firstly data cursor middle between begun) data between value after rest

theorem Yields.bind {Good} (secondly : ∀ value, (second value).Yields Good) :
    (first >>= second).Yields Good :=
  Yields.andThen (fun _ _ _ _ _ => trivial) fun value _ => secondly value

theorem Yields.ite {condition : Prop} [Decidable condition] {second}
    (firstly : condition → first.Yields Good) (secondly : ¬ condition → second.Yields Good) :
    (if condition then first else second).Yields Good := by
  split
  · rename_i holds
    exact firstly holds
  · rename_i fails
    exact secondly fails

theorem yields_pure {value} (good : Good value) :
    (pure value : Reader World Failure Value).Yields Good := by
  intro data cursor result after ran
  cases ran
  exact good

theorem yields_fail {failure} : (fail failure : Reader World Failure Value).Yields Good := by
  intro data cursor result after ran
  cases ran

/-- All accesses so far are good ones. -/
def Holds (Good : Access → Prop) (cursor : Cursor World) : Prop :=
  ∀ access ∈ cursor.accesses, Good access

/-- All accesses up to the end of the parser are good ones. -/
def Clean (Good : Access → Prop) (reader : Reader World Failure Value) (data : List Octet)
    (cursor : Cursor World) : Prop :=
  Holds Good (reader.run data cursor).2

section Clean
variable {Good : Access → Prop} {data : List Octet} {cursor : Cursor World}

@[simp] theorem holds_cons (access : Access) (accesses : List Access) (getp lo hi : Nat)
    (world : World) :
    Holds Good { getp := getp, lo := lo, hi := hi, accesses := access :: accesses,
                 world := world } ↔
      Good access ∧
        Holds Good { getp := getp, lo := lo, hi := hi, accesses := accesses, world := world } :=
  List.forall_mem_cons

theorem holds_congr {other : Cursor World} (same : other.accesses = cursor.accesses) :
    Holds Good other ↔ Holds Good cursor := by
  rw [Holds, same, Holds]

theorem clean_bind_ok {first} {second : Value → Reader World Failure Result}
    {value : Value} {after} (succeeds : first.run data cursor = (.ok value, after)) :
    Clean Good (first >>= second) data cursor ↔ Clean Good (second value) data after := by
  rw [Clean, run_bind_ok succeeds, Clean]

/-- A last part without accesses does not matter. -/
theorem clean_bind_silent (first : Reader World Failure Value)
    {second : Value → Reader World Failure Result}
    (silent : ∀ value after, ((second value).run data after).2.accesses = after.accesses) :
    Clean Good (first >>= second) data cursor ↔ Clean Good first data cursor := by
  unfold Clean
  rw [run_bind]
  split
  · rename_i value after succeeds
    rw [succeeds]
    exact holds_congr (silent value after)
  · rename_i fails
    rw [fails]

theorem clean_map (reader : Reader World Failure Value) (result : Value → Result) :
    Clean Good (reader >>= fun value => pure (result value)) data cursor ↔
    Clean Good reader data cursor :=
  clean_bind_silent reader fun _ _ => rfl

end Clean
end Reader
end Zebra.Base
