import Zebra.Ospf6d.Message

namespace Zebra.Ospf6d.Message
open Base Workspace List

/-- An LSA that is handed on has a whole header. -/
abbrev Sound (work : Workspace) : Prop := Safe lsaHeaderSize work

variable {work : Workspace} {pos end_ num p : Nat} {data : List Octet}

theorem sound_see {count} : Sound (work.see pos count) ↔
    Sound work ∧ pos + count ≤ work.data.length := safe_see

theorem sound_put {octets} :
    Sound (work.put pos octets) ↔ Sound work ∧ pos + octets.length ≤ work.data.length := safe_put

theorem sound_copy {count} :
    Sound (work.copy pos count) ↔ Sound work ∧ pos + count ≤ work.data.length ∧
    lsaHeaderSize ≤ count := safe_copy

section Loops
variable {part : Nat → Workspace → Bool × Workspace} {size : Nat} {positive : 0 < size}
  {reach : List Octet → Nat → Nat}

/-- What a part of a message does: it reads so far, and leaves the data. -/
structure Reaches (part : Nat → Workspace → Bool × Workspace) (reach : List Octet → Nat → Nat) :
    Prop where
  data : ∀ p work, (part p work).2.data = work.data
  sound : ∀ p work, Sound (part p work).2 ↔ Sound work ∧ p + reach work.data p ≤ work.data.length

theorem forParts_data (reaches : Reaches part reach) (end_ p : Nat) (work : Workspace) :
    (forParts size positive part end_ p work).2.data = work.data := by
  induction p, work using forParts.induct size positive part end_ with
  | case1 p work more next same ih =>
    rw [forParts, if_pos more, same]
    have first := reaches.data p work
    rw [same] at first
    exact ih.trans first
  | case2 p work more next same =>
    rw [forParts, if_pos more, same]
    have first := reaches.data p work
    rwa [same] at first
  | case3 p work short =>
    rw [forParts, if_neg short]

/-- All parts that the message says it has are inside. -/
def PartsFit (size : Nat) (reach : List Octet → Nat → Nat) (data : List Octet)
    (end_ p : Nat) : Prop :=
  ∀ i, p + size * (i + 1) ≤ end_ → p + size * i + reach data (p + size * i) ≤ data.length

theorem PartsFit.step {data end_ p} (more : p + size ≤ end_) : PartsFit size reach data end_ p ↔
    p + reach data p ≤ data.length ∧ PartsFit size reach data end_ (p + size) := by
  have shift (i : Nat) : p + size * (i + 1) = p + size + size * i := by rw [Nat.mul_succ]; omega
  constructor
  · intro fits
    have first := fits 0
    rw [zero_add, mul_one] at first
    refine ⟨first more, fun i room => ?_⟩
    have later := fits (i + 1)
    rw [shift (i + 1), shift i] at later
    exact later room
  · rintro ⟨first, later⟩ i room
    cases i with
    | zero => exact first
    | succ i =>
      rw [shift (i + 1)] at room
      rw [shift i]
      exact later i room

theorem forParts_sound (reaches : Reaches part reach) (end_ p : Nat) (work : Workspace)
    (sound : Sound work)
    (fits : PartsFit size reach work.data end_ p) :
    Sound (forParts size positive part end_ p work).2 := by
  induction p, work using forParts.induct size positive part end_ with
  | case1 p work more next same ih =>
    rw [forParts, if_pos more, same]
    obtain ⟨first, later⟩ := (PartsFit.step more).mp fits
    have here := (reaches.sound p work).mpr ⟨sound, first⟩
    have data := reaches.data p work
    rw [same] at here data
    rw [← data] at later
    exact ih here later
  | case2 p work more next same =>
    rw [forParts, if_pos more, same]
    have here := (reaches.sound p work).mpr ⟨sound, ((PartsFit.step more).mp fits).1⟩
    rwa [same] at here
  | case3 p work short =>
    rw [forParts, if_neg short]
    exact sound

theorem fits_of_forParts (reaches : Reaches part reach) (goes : ∀ p work, (part p work).1 = true)
    (end_ p : Nat) (work : Workspace)
    (sound : Sound (forParts size positive part end_ p work).2) :
    Sound work ∧ PartsFit size reach work.data end_ p := by
  induction p, work using forParts.induct size positive part end_ with
  | case1 p work more next same ih =>
    rw [forParts, if_pos more, same] at sound
    obtain ⟨here, later⟩ := ih sound
    have first := reaches.sound p work
    have data := reaches.data p work
    rw [same] at first data
    rw [data] at later
    exact ⟨(first.mp here).1, (PartsFit.step more).mpr ⟨(first.mp here).2, later⟩⟩
  | case2 p work more next same =>
    have always := goes p work
    rw [same] at always
    cases always
  | case3 p work short =>
    rw [forParts, if_neg short] at sound
    refine ⟨sound, fun i room => ?_⟩
    have grows : size ≤ size * (i + 1) := Nat.le_mul_of_pos_right size (Nat.succ_pos i)
    omega

end Loops

theorem hello_reaches : Reaches helloPart fun _ _ => 4 :=
  ⟨fun _ _ => rfl, fun _ _ => safe_see⟩

theorem lsack_reaches : Reaches lsackPart fun _ _ => lsaHeaderSize :=
  ⟨fun _ _ => rfl, fun _ _ => safe_see⟩

theorem dbdesc_reaches (master stub : Bool) :
    Reaches (dbdescPart master stub) fun _ _ => lsaHeaderSize :=
  ⟨fun _ _ => rfl, fun _ _ => safe_see⟩

/-- How far an entry of a request is read. -/
def lsreqReach (data : List Octet) (p : Nat) : Nat :=
  if lsaScope (field data (p + 2) 2) = scopeReserved then 4 else 12

theorem lsreq_reaches (oi : Interface) : Reaches (lsreqPart oi) lsreqReach := by
  refine ⟨fun p work => ?_, fun p work => ?_⟩
  · rw [lsreqPart]
    split
    · rfl
    · rfl
  · rw [lsreqPart, lsreqReach]
    split
    · exact sound_see
    · have both : Sound ((work.see (p + 2) 2).see (p + 4) 8) ↔
          (Sound work ∧ p + 2 + 2 ≤ work.data.length) ∧ p + 4 + 8 ≤ work.data.length := by
        rw [sound_see, sound_see, see_data]
      refine both.trans ⟨fun sound => ⟨sound.1.1, sound.2⟩, fun sound => ⟨⟨sound.1, ?_⟩, sound.2⟩⟩
      omega

/-- Each LSA that the update says it has is read as far as its length, and to its end if that has
  room. -/
def LsasFit (data : List Octet) (end_ num p : Nat) : Prop :=
  if p < end_ then
    p + lsaHeaderSize ≤ data.length ∧
      if p + lsaSize data p ≤ end_ ∧ num ≠ 0 ∧ lsaHeaderSize ≤ lsaSize data p then
        p + lsaSize data p ≤ data.length ∧ LsasFit data end_ (num - 1) (p + lsaSize data p)
      else True
  else True
termination_by end_ - p
decreasing_by
  have header : lsaHeaderSize = 20 := rfl
  omega

theorem LsasFit.of_end (ended : ¬p < end_) : LsasFit data end_ num p := by
  rw [LsasFit, if_neg ended]
  trivial

theorem lsasFit_last (more : p < end_)
    (last : ¬(p + lsaSize data p ≤ end_ ∧ num ≠ 0 ∧ lsaHeaderSize ≤ lsaSize data p)) :
    LsasFit data end_ num p ↔ p + lsaHeaderSize ≤ data.length := by
  rw [LsasFit, if_pos more, if_neg last, and_true]

theorem lsasFit_next (more : p < end_)
    (next : p + lsaSize data p ≤ end_ ∧ num ≠ 0 ∧ lsaHeaderSize ≤ lsaSize data p) :
    LsasFit data end_ num p ↔ p + lsaHeaderSize ≤ data.length ∧ p + lsaSize data p ≤ data.length ∧
      LsasFit data end_ (num - 1) (p + lsaSize data p) := by
  rw [LsasFit, if_pos more, if_pos next]

theorem lsupdateLsas_sound (end_ num p : Nat) (work : Workspace) :
    Sound (lsupdateLsas end_ num p work) ↔ Sound work ∧ LsasFit work.data end_ num p := by
  have length (work : Workspace) (p : Nat) :
      Sound (work.see (p + 18) 2) ↔ Sound work ∧ p + lsaHeaderSize ≤ work.data.length := sound_see
  induction num, p, work using lsupdateLsas.induct end_ with
  | case1 p work more size room =>
    rw [lsupdateLsas, if_pos more, lsasFit_last more fun next => next.2.1 rfl]
    rw [if_pos room, if_pos rfl, length]
  | case2 num p work more size room some_ short =>
    rw [lsupdateLsas, if_pos more, lsasFit_last more fun next => Nat.not_le_of_lt short next.2.2]
    rw [if_pos room, if_neg some_, if_pos short, length]
  | case3 num p work more size seen room some_ long ih =>
    have next : p + lsaSize work.data p ≤ end_ ∧ num ≠ 0 ∧ lsaHeaderSize ≤ lsaSize work.data p :=
      ⟨room, some_, Nat.le_of_not_lt long⟩
    have later : Sound (lsupdateLsas end_ (num - 1) (p + lsaSize work.data p)
        ((work.see (p + 18) 2).copy p (lsaSize work.data p))) ↔ _ := ih
    rw [lsupdateLsas, if_pos more, lsasFit_next more next]
    rw [if_pos room, if_neg some_, if_neg long, later, sound_copy, length]
    refine ⟨fun sound => ⟨sound.1.1.1, sound.1.1.2, sound.1.2.1, sound.2⟩,
      fun sound => ⟨⟨⟨sound.1, sound.2.1⟩, sound.2.2.1, next.2.2⟩, sound.2.2.2⟩⟩
  | case4 num p work more size long =>
    rw [lsupdateLsas, if_pos more, lsasFit_last more fun next => long next.1]
    rw [if_neg long, length]
  | case5 num p work ended =>
    rw [lsupdateLsas, if_neg ended]
    exact ⟨fun sound => ⟨sound, LsasFit.of_end ended⟩, And.left⟩

/-- No bit says that the description begins an exchange, and there are routers of which it may be
the slave's or the master's. -/
def DbdescTaken (data : List Octet) : Prop :=
  bitI (octetOf data 23) = false ∧ if bitMs (octetOf data 23) then field data 4 4 ≠ 0
    else field data 4 4 ≠ 0xffffffff

/-- The fixed part of the message is inside, and so are all parts that its length says it has. -/
structure Fits (data : List Octet) : Prop where
  hello : octetOf data 1 = 1 → 36 ≤ data.length ∧
    PartsFit 4 (fun _ _ => 4) data (messageEnd data) 36
  dbdesc : octetOf data 1 = 2 → 28 ≤ data.length ∧
    (DbdescTaken data → PartsFit lsaHeaderSize (fun _ _ => lsaHeaderSize) data (messageEnd data) 28)
  lsreq : octetOf data 1 = 3 → PartsFit lsreqEntrySize lsreqReach data (messageEnd data) headerSize
  lsupdate : octetOf data 1 = 4 → 20 ≤ data.length ∧ LsasFit data (messageEnd data)
    (field data 16 4).toNat 20
  lsack : octetOf data 1 = 5 →
    PartsFit lsaHeaderSize (fun _ _ => lsaHeaderSize) data (messageEnd data) headerSize

section Receive
variable {oi : Interface} {work after : Workspace} {passed : Bool}

theorem examin_cases (long : headerSize ≤ work.data.length)
    (done : ospf6HeaderExamin oi work = (passed, after)) :
    after.data = work.data ∧ (Sound after ↔ Sound work) ∧
    (passed = true → octetOf work.data 0 = 3) := by
  have inside (pos count : Nat) (here : pos + count ≤ 16) (seen : Workspace)
      (same : seen.data = work.data) :
      Sound (seen.see pos count) ↔ Sound seen := by
    rw [sound_see, same]
    exact ⟨And.left, fun sound => ⟨sound, le_trans here long⟩⟩
  have first := inside 0 1 (by decide) work rfl
  have second := (inside 8 4 (by decide) (work.see 0 1) rfl).trans first
  have third := (inside 14 1 (by decide) ((work.see 0 1).see 8 4) rfl).trans second
  have fourth := (inside 4 4 (by decide) (((work.see 0 1).see 8 4).see 14 1) rfl).trans third
  rw [ospf6HeaderExamin] at done
  split at done
  · cases done
    exact ⟨rfl, first, fun impossible => by cases impossible⟩
  · rename_i version
    rw [not_not] at version
    split at done
    · cases done
      exact ⟨rfl, second, fun _ => version⟩
    · split at done
      · cases done
        exact ⟨rfl, third, fun _ => version⟩
      · cases done
        exact ⟨rfl, fourth, fun _ => version⟩

/-- What a receiver does with a message whose header is accepted decides whether it is sound. -/
theorem examined_sound {rest : Workspace → Workspace} (sound : Sound work)
    (long : headerSize ≤ work.data.length)
    (goes : ∀ after, after.data = work.data → Sound after → octetOf work.data 0 = 3 →
      Sound (rest after)) :
    Sound (match ospf6HeaderExamin oi work with
      | (false, work) => work
      | (true, work) => rest work) := by
  cases examined : ospf6HeaderExamin oi work with
  | mk passed after =>
    obtain ⟨data, same, version⟩ := examin_cases long examined
    cases passed with
    | false => exact same.mpr sound
    | true => exact goes after data (same.mpr sound) (version rfl)

theorem see_inside {pos count least} (sound : Sound work) (enough : least ≤ work.data.length)
    (here : pos + count ≤ least) :
    Sound (work.see pos count) :=
  sound_see.mpr ⟨sound, le_trans here enough⟩

theorem hello_new (oi : Interface) (data : List Octet) (seen : Workspace) : ∃ made,
    (if (ospf6NeighborLookup (field data 4 4) oi).isNone then ((seen.see 28 4).see 32 4).see 20 1
      else seen) = made ∧
      made.data = seen.data ∧ (36 ≤ seen.data.length → Sound seen → Sound made) := by
  refine ⟨_, rfl, ?_⟩
  split
  · refine ⟨rfl, fun enough sound => ?_⟩
    rw [sound_see, sound_see, sound_see]
    exact ⟨⟨⟨sound, le_trans (by decide) enough⟩, le_trans (by decide) enough⟩,
      le_trans (by decide) enough⟩
  · exact ⟨rfl, fun _ => id⟩

section
variable (sound : Sound work) (long : headerSize ≤ work.data.length)
include sound long

theorem hello_sound
    (fits : octetOf work.data 0 = 3 → 36 ≤ work.data.length ∧
      PartsFit 4 (fun _ _ => 4) work.data (messageEnd work.data) 36) :
    Sound (ospf6HelloRecv oi work) := by
  refine examined_sound sound long fun after data good version => ?_
  obtain ⟨enough, parts⟩ := fits version
  rw [← data] at enough parts
  dsimp only
  have first : Sound (after.see 24 2) := see_inside good enough (by decide)
  split
  · exact first
  · have second : Sound ((after.see 24 2).see 26 2) := see_inside first enough (by decide)
    split
    · exact second
    · have third : Sound (((after.see 24 2).see 26 2).see 23 1) :=
        see_inside second enough (by decide)
      split
      · exact third
      · obtain ⟨made, equal, kept, makes⟩ :=
          hello_new oi after.data (((after.see 24 2).see 26 2).see 23 1)
        rw [equal]
        have size : made.data.length = after.data.length := congrArg length kept
        have partsMade : PartsFit 4 (fun _ _ => 4)
            (made.see 16 4).data (messageEnd after.data) 36 := by
          rw [see_data, kept]
          exact parts
        have looped :
            Sound (forParts 4 (by decide) helloPart (messageEnd after.data) 36 (made.see 16 4)).2 :=
          forParts_sound hello_reaches _ _ _
            (see_inside (makes enough third) (size ▸ enough) (by decide)) partsMade
        have last :
            36 ≤ (forParts 4 (by decide) helloPart (messageEnd after.data) 36
            (made.see 16 4)).2.data.length := by
          rw [forParts_data hello_reaches]
          exact size ▸ enough
        exact see_inside (see_inside (see_inside looped last (by decide)) last (by decide)) last
          (by decide)

theorem lsreq_sound
    (fits : octetOf work.data 0 = 3 →
      PartsFit lsreqEntrySize lsreqReach work.data (messageEnd work.data) headerSize) :
    Sound (ospf6LsreqRecv oi work) := by
  refine examined_sound sound long fun after data good version => ?_
  have parts := fits version
  rw [← data] at parts
  split
  · exact good
  · split
    · exact forParts_sound (lsreq_reaches oi) _ _ _ good parts
    · exact good

theorem lsack_sound
    (fits : octetOf work.data 0 = 3 → PartsFit lsaHeaderSize (fun _ _ => lsaHeaderSize) work.data
      (messageEnd work.data) headerSize) :
    Sound (ospf6LsackRecv oi work) := by
  refine examined_sound sound long fun after data good version => ?_
  have parts := fits version
  rw [← data] at parts
  split
  · exact good
  · split
    · exact forParts_sound lsack_reaches _ _ _ good parts
    · exact good

theorem lsupdate_sound
    (fits : octetOf work.data 0 = 3 → 20 ≤ work.data.length ∧
      LsasFit work.data (messageEnd work.data) (field work.data 16 4).toNat 20)
    : Sound (ospf6LsupdateRecv oi work) := by
  refine examined_sound sound long fun after data good version => ?_
  obtain ⟨enough, lsas⟩ := fits version
  rw [← data] at enough lsas
  split
  · exact good
  · split
    · exact (lsupdateLsas_sound _ _ _ _).mpr ⟨see_inside good enough (by decide), lsas⟩
    · exact good

end

/-- A gate stays inside, and what it lets through is right. -/
structure Gated (work : Workspace) (right : Prop) (result : Bool × Workspace) : Prop where
  sound : Sound result.2
  data : result.2.data = work.data
  passes : result.1 = true → right

theorem Gated.shut {right : Prop} (sound : Sound after) (data : after.data = work.data) :
    Gated work right (false, after) :=
  ⟨sound, data, fun impossible => by cases impossible⟩

theorem Gated.imp {first second : Prop} {result : Bool × Workspace}
    (gated : Gated work first result) (weaker : first → second) :
    Gated work second result :=
  ⟨gated.sound, gated.data, weaker ∘ gated.passes⟩

section
variable (master : Bool) (on : Neighbor) (enough : 28 ≤ work.data.length) (sound : Sound work)
include master on enough sound

/-- The gate of an exchange reads the fixed part only, and lets a description through that has no
bit I and the right bit MS. -/
theorem exchange_gated :
    Gated work (bitI (octetOf work.data 23) = false ∧ bitMs (octetOf work.data 23) ≠ master)
    (dbdescExchange master on work) := by
  have first : Sound (work.see headerSize dbdescSize) := see_inside sound enough (by decide)
  have second : Sound ((work.see headerSize dbdescSize).see 23 1) :=
    see_inside first enough (by decide)
  have third : Sound (((work.see headerSize dbdescSize).see 23 1).see 17 3) :=
    see_inside second enough (by decide)
  rw [dbdescExchange]
  split
  · exact .shut first rfl
  · split
    · exact .shut second rfl
    · rename_i other
      split
      · exact .shut second rfl
      · rename_i unset
        split
        · exact .shut third rfl
        · exact ⟨see_inside third enough (by decide), rfl,
            fun _ => ⟨Bool.not_eq_true _ ▸ unset, other⟩⟩

/-- What goes through the gate, and has more than the fixed part, begins no exchange. -/
theorem gate_gated :
    Gated work (messageEnd work.data = 28 ∨ bitI (octetOf work.data 23) = false ∧
      bitMs (octetOf work.data 23) ≠ master)
      (dbdescGate master on work) := by
  have first : Sound (work.see 23 1) := see_inside sound enough (by decide)
  have second : Sound ((work.see 23 1).see 24 4) := see_inside first enough (by decide)
  have third : Sound (((work.see 23 1).see 24 4).see 17 3) := see_inside second enough (by decide)
  have masters : Gated work (bitI (octetOf work.data 23) = false ∧
      bitMs (octetOf work.data 23) ≠ true) (masterExstart on work) := by
    rw [masterExstart]
    split
    · exact .shut first rfl
    · split
      · exact .shut second rfl
      · obtain ⟨good, same, right⟩ := exchange_gated true _
          (show 28 ≤ (((work.see 23 1).see 24 4).see 17 3).data.length from enough) third
        exact ⟨good, same, right⟩
  have slaves : Gated work (messageEnd work.data = 28) (slaveExstart work) := by
    rw [slaveExstart]
    split
    · split
      · rename_i only
        exact ⟨third, rfl, fun _ => only⟩
      · exact .shut first rfl
    · exact .shut first rfl
  have exstart : Gated work (messageEnd work.data = 28 ∨
      bitI (octetOf work.data 23) = false ∧ bitMs (octetOf work.data 23) ≠ master)
      (if master then masterExstart on work else slaveExstart work) := by
    cases master with
    | true => exact masters.imp .inr
    | false => exact slaves.imp .inl
  rw [dbdescGate]
  split
  · exact .shut sound rfl
  · exact .shut sound rfl
  · exact .shut sound rfl
  · split
    · exact exstart
    · exact .shut sound rfl
  · exact exstart
  · exact (exchange_gated master on enough sound).imp .inr
  · exact .shut (see_inside sound enough (by decide)) rfl
  · exact .shut (see_inside sound enough (by decide)) rfl

theorem dbdescRecv_sound
    (parts : bitI (octetOf work.data 23) = false → bitMs (octetOf work.data 23) ≠ master →
      PartsFit lsaHeaderSize (fun _ _ => lsaHeaderSize) work.data (messageEnd work.data) 28) :
    Sound (dbdescRecv master oi on work) := by
  rw [dbdescRecv]
  have gated := gate_gated master on enough sound
  cases done : dbdescGate master on work with
  | mk go after =>
    rw [done] at gated
    obtain ⟨good, data, right⟩ := gated
    cases go with
    | false => exact good
    | true =>
      have fits : PartsFit lsaHeaderSize (fun _ _ => lsaHeaderSize) after.data
          (messageEnd after.data) (headerSize + dbdescSize) := by
        rw [data]
        rcases right rfl with only | ⟨unset, other⟩
        · intro i room
          have grows : lsaHeaderSize ≤ lsaHeaderSize * (i + 1) :=
            Nat.le_mul_of_pos_right _ (Nat.succ_pos i)
          have fixed : headerSize + dbdescSize = 28 := rfl
          have header : lsaHeaderSize = 20 := rfl
          omega
        · exact parts unset other
      have looped : Sound
          (forParts lsaHeaderSize (by decide) (dbdescPart master oi.stub) (messageEnd after.data)
          (headerSize + dbdescSize) after).2 :=
            forParts_sound (dbdesc_reaches master oi.stub) _ _ _ good fits
      have kept :
          (forParts lsaHeaderSize (by decide) (dbdescPart master oi.stub) (messageEnd after.data)
          (headerSize + dbdescSize) after).2.data =
            work.data := (forParts_data (dbdesc_reaches master oi.stub) _ _ _).trans data
      dsimp only
      split
      · rename_i ended same
        rwa [same] at looped
      · rename_i ended same
        rw [same] at looped kept
        have size : 28 ≤ ended.data.length := kept ▸ enough
        cases master with
        | true => exact see_inside (see_inside looped size (by decide)) size (by decide)
        | false => exact see_inside (see_inside looped size (by decide)) size (by decide)

end

theorem octetOf_overwrite (data : List Octet) (pos : Nat) :
    octetOf (overwrite data pos [0]) pos = 0 := by
  have zero : slice (overwrite data pos [0]) pos 1 = [0] := by
    rw [slice, range_one, map_singleton, add_zero, getD_eq_getElem?_getD, overwrite,
      getElem?_mapIdx]
    by_cases here : pos < data.length
    · rw [List.getElem?_eq_getElem here, Option.map_some,
        if_pos ⟨Nat.le_refl _, Nat.lt_succ_self _⟩, Nat.sub_self]
      rfl
    · rw [List.getElem?_eq_none (Nat.le_of_not_lt here)]
      rfl
  rw [octetOf, field, zero]
  rfl

theorem cleared (work : Workspace) : ∃ clear,
    (if octetOf work.data 16 ≠ 0 ∨ octetOf work.data 22 ≠ 0 then
        ((if octetOf work.data 16 = 0 then (work.see 16 1).see 22 1
          else work.see 16 1).put 16 [0]).put 22 [0]
      else (if octetOf work.data 16 = 0 then (work.see 16 1).see 22 1 else work.see 16 1)) = clear ∧
      clear.data.length = work.data.length ∧ (28 ≤ work.data.length → Sound work → Sound clear) ∧
      (Sound clear → Sound work) ∧
      (∀ pos count, pos + count ≤ 16 ∨ 17 ≤ pos ∧ pos + count ≤ 22 ∨ 23 ≤ pos →
        slice clear.data pos count = slice work.data pos count) ∧ octetOf clear.data 16 = 0 := by
  obtain ⟨seen, equal, data, makes, back⟩ : ∃ seen,
      (if octetOf work.data 16 = 0 then (work.see 16 1).see 22 1 else work.see 16 1) = seen ∧
        seen.data = work.data ∧
        (28 ≤ work.data.length → Sound work → Sound seen) ∧ (Sound seen → Sound work) := by
    refine ⟨_, rfl, ?_⟩
    have first (enough : 28 ≤ work.data.length) (sound : Sound work) : Sound (work.see 16 1) :=
      see_inside sound enough (by decide)
    split
    · exact ⟨rfl, fun enough sound => see_inside (first enough sound) enough (by decide),
        fun sound => (sound_see.mp (sound_see.mp sound).1).1⟩
    · exact ⟨rfl, first, fun sound => (sound_see.mp sound).1⟩
  rw [equal]
  refine ⟨_, rfl, ?_⟩
  split
  · have size : ((seen.put 16 [0]).put 22 [0]).data.length = work.data.length := by
      rw [put_data, put_data, length_overwrite, length_overwrite, data]
    refine ⟨size, fun enough sound => ?_, fun sound => ?_, fun pos count apart => ?_, ?_⟩
    · have long : 28 ≤ seen.data.length := data ▸ enough
      refine sound_put.mpr ⟨sound_put.mpr ⟨makes enough sound, le_trans (by decide) long⟩, ?_⟩
      rw [put_data, length_overwrite]
      exact le_trans (by decide) long
    · exact back (sound_put.mp (sound_put.mp sound).1).1
    · rw [put_data, put_data, slice_overwrite, slice_overwrite, data]
      · rw [length_singleton]
        omega
      · rw [length_singleton]
        omega
    · rw [put_data, octetOf, field_overwrite (.inl (by decide))]
      exact octetOf_overwrite _ _
  · rename_i none_
    refine ⟨congrArg length data, makes, back, fun pos count _ => by rw [data], ?_⟩
    rw [data]
    exact not_not.mp fun other => none_ (.inl other)

theorem dbdesc_sound {receiver : Receiver} (sound : Sound work)
    (long : headerSize ≤ work.data.length) (fits : octetOf work.data 0 = 3 → 28 ≤ work.data.length ∧
      (DbdescTaken work.data →
        PartsFit lsaHeaderSize (fun _ _ => lsaHeaderSize) work.data (messageEnd work.data) 28)) :
    Sound (ospf6DbdescRecv receiver oi work) := by
  refine examined_sound sound long fun after data good version => ?_
  obtain ⟨enough, parts⟩ := fits version
  rw [← data] at enough parts
  dsimp only
  split
  · exact good
  · rename_i on _
    have first : Sound (after.see 20 2) := see_inside good enough (by decide)
    split
    · exact first
    · obtain ⟨clear, equal, size, makes, -, slices, -⟩ := cleared (after.see 20 2)
      rw [see_data] at equal size slices makes
      rw [equal]
      have good := makes enough first
      have bits : octetOf clear.data 23 = octetOf after.data 23 := by
        rw [octetOf, octetOf, field, field, slices 23 1 (.inr (.inr le_rfl))]
      have ends : messageEnd clear.data = messageEnd after.data := by
        rw [messageEnd, messageEnd, field, field, slices 2 2 (.inl (by decide))]
      have clears (master : Bool)
          (role : bitMs (octetOf after.data 23) ≠ master → bitI (octetOf after.data 23) = false →
          DbdescTaken after.data) : Sound (dbdescRecv master oi on clear) := by
        refine dbdescRecv_sound master on (size ▸ enough) good fun unset other i room => ?_
        rw [bits] at unset other
        rw [ends] at room
        rw [size]
        exact parts (role other unset) i room
      split
      · rename_i less
        refine clears true fun other unset => ⟨unset, ?_⟩
        rw [if_neg other]
        intro top
        rw [top, BitVec.lt_def] at less
        have value : (0xffffffff : BitVec (8 * 4)).toNat = 4294967295 := rfl
        omega
      · split
        · rename_i more
          refine clears false fun other unset => ⟨unset, ?_⟩
          rw [if_pos (Bool.of_not_eq_false other)]
          intro zero
          rw [zero] at more
          exact Nat.not_lt_zero _ more
        · exact good

theorem receive_sound (receiver : Receiver) {datagram}
    (fits : headerSize ≤ datagram.length → octetOf datagram 0 = 3 → Fits datagram) :
    Sound (ospf6Receive receiver datagram) := by
  have start : Sound { data := datagram } := safe_start datagram
  rw [ospf6Receive]
  dsimp only
  split
  · exact start
  · rename_i long
    have long := Nat.le_of_not_lt long
    have typed : Sound (({ data := datagram } : Workspace).see 1 1) :=
      see_inside start long (by decide)
    split
    · exact start
    · split
      · exact start
      · split
        · rename_i type
          exact hello_sound typed long fun version => (fits long version).hello type
        · split
          · rename_i type
            exact dbdesc_sound typed long fun version => (fits long version).dbdesc type
          · split
            · rename_i type
              exact lsreq_sound typed long fun version => (fits long version).lsreq type
            · split
              · rename_i type
                exact lsupdate_sound typed long fun version => (fits long version).lsupdate type
              · split
                · rename_i type
                  exact lsack_sound typed long fun version => (fits long version).lsack type
                · exact typed

end Receive

/-! A router that takes a datagram as far as any does -/

def willingNeighbor (data : List Octet) : Neighbor :=
  { routerId := field data 4 4, state := .exchange, needAdjacency := true,
    dbdescSeqnum := if bitMs (octetOf data 23) then field data 24 4 - 1 else field data 24 4,
    options := Vector.ofFn fun index => octetOf data (17 + index), dbdescLast :=
      Vector.replicate 12 1 }

def willingInterface (data : List Octet) : Interface :=
  { passive := false, areaId := field data 8 4, instanceId := octetOf data 14,
    helloInterval := field data 24 2,
    deadInterval := field data 26 2, options := octetOf data 23, stub := false, ifmtu :=
      (field data 20 2).toNat,
    neighbors := [willingNeighbor data], lsdb := fun _ _ _ => true }

/-- An id other than the neighbor's, and less if the neighbor says that it is the master. -/
def willingId (data : List Octet) : BitVec 32 :=
  if bitMs (octetOf data 23) then (if field data 4 4 = 0 then 1 else 0)
  else if field data 4 4 = 0xffffffff then 0 else 0xffffffff

def willingReceiver (data : List Octet) : Receiver :=
  { routerId := willingId data, oi := some (willingInterface data) }

section Willing
variable {work : Workspace}

theorem willing_lookup (data : List Octet) :
    ospf6NeighborLookup (field data 4 4) (willingInterface data) = some (willingNeighbor data) := by
  rw [ospf6NeighborLookup, willingInterface, find?_cons_of_pos]
  exact decide_eq_true rfl

section
variable (version : octetOf work.data 0 = 3) (long : headerSize ≤ work.data.length)
include version long

theorem willing_examin : ∃ after,
    ospf6HeaderExamin (willingInterface work.data) work = (true, after) ∧
    after.data = work.data := by
  have passed : (ospf6HeaderExamin (willingInterface work.data) work).1 = true := by
    have area : ¬field work.data 8 4 ≠ (willingInterface work.data).areaId := not_not.mpr rfl
    have instance_ : ¬octetOf work.data 14 ≠ (willingInterface work.data).instanceId :=
      not_not.mpr rfl
    rw [ospf6HeaderExamin]
    rw [if_neg (not_not.mpr version), if_neg area, if_neg instance_]
  refine ⟨_, Prod.ext passed rfl, ?_⟩
  exact (examin_cases long (Prod.ext passed rfl)).1

theorem hello_fits (sound : Sound (ospf6HelloRecv (willingInterface work.data) work)) :
    36 ≤ work.data.length ∧ PartsFit 4 (fun _ _ => 4) work.data (messageEnd work.data) 36 := by
  obtain ⟨after, examined, data⟩ := willing_examin version long
  rw [ospf6HelloRecv, examined] at sound
  dsimp only at sound
  have hello : ¬field work.data 24 2 ≠ (willingInterface work.data).helloInterval := not_not.mpr rfl
  have dead : ¬field work.data 26 2 ≠ (willingInterface work.data).deadInterval := not_not.mpr rfl
  have options : ¬optE (octetOf work.data 23) ≠ optE (willingInterface work.data).options :=
    not_not.mpr rfl
  rw [data, if_neg hello, if_neg dead, if_neg options] at sound
  obtain ⟨made, equal, kept, -⟩ :=
    hello_new (willingInterface work.data) work.data (((after.see 24 2).see 26 2).see 23 1)
  rw [equal] at sound
  obtain ⟨drouter, enough⟩ := sound_see.mp sound
  obtain ⟨looped, parts⟩ :=
    fits_of_forParts hello_reaches (fun _ _ => rfl) _ _ _ (sound_see.mp (sound_see.mp drouter).1).1
  have same : (made.see 16 4).data = work.data := kept.trans data
  rw [same] at parts
  refine ⟨?_, parts⟩
  rw [see_data, see_data, forParts_data hello_reaches, same] at enough
  exact enough

theorem lsreq_fits (sound : Sound (ospf6LsreqRecv (willingInterface work.data) work)) :
    PartsFit lsreqEntrySize lsreqReach work.data (messageEnd work.data) headerSize := by
  obtain ⟨after, examined, data⟩ := willing_examin version long
  rw [ospf6LsreqRecv, examined] at sound
  dsimp only at sound
  rw [data, willing_lookup] at sound
  have goes (p : Nat) (work' : Workspace) :
      (lsreqPart (willingInterface work.data) p work').1 = true := by
    rw [lsreqPart]
    split
    · rfl
    · rfl
  have parts := (fits_of_forParts (lsreq_reaches _) goes _ _ _ sound).2
  rwa [data] at parts

theorem lsack_fits (sound : Sound (ospf6LsackRecv (willingInterface work.data) work)) :
    PartsFit lsaHeaderSize (fun _ _ => lsaHeaderSize) work.data
      (messageEnd work.data) headerSize := by
  obtain ⟨after, examined, data⟩ := willing_examin version long
  rw [ospf6LsackRecv, examined] at sound
  dsimp only at sound
  rw [data, willing_lookup] at sound
  have parts := (fits_of_forParts lsack_reaches (fun _ _ => rfl) _ _ _ sound).2
  rwa [data] at parts

theorem lsupdate_fits (sound : Sound (ospf6LsupdateRecv (willingInterface work.data) work)) :
    20 ≤ work.data.length ∧ LsasFit work.data (messageEnd work.data)
    (field work.data 16 4).toNat 20 := by
  obtain ⟨after, examined, data⟩ := willing_examin version long
  rw [ospf6LsupdateRecv, examined] at sound
  dsimp only at sound
  rw [data, willing_lookup] at sound
  obtain ⟨first, lsas⟩ := (lsupdateLsas_sound _ _ _ _).mp sound
  rw [see_data, data] at lsas
  exact ⟨data ▸ (sound_see.mp first).2, lsas⟩

end

/-- A master or a slave in Exchange looks at the whole fixed part. -/
theorem exchange_back {master on} (sound : Sound (dbdescExchange master on work).2) :
    28 ≤ work.data.length := by
  have fixed : Sound (work.see headerSize dbdescSize) → 28 ≤ work.data.length :=
    fun seen => (sound_see.mp seen).2
  rw [dbdescExchange] at sound
  split at sound
  · exact fixed sound
  · split at sound
    · exact fixed (sound_see.mp sound).1
    · split at sound
      · exact fixed (sound_see.mp sound).1
      · split at sound
        · exact fixed (sound_see.mp (sound_see.mp sound).1).1
        · exact fixed (sound_see.mp (sound_see.mp (sound_see.mp sound).1).1).1

theorem goes_dbdesc (master : Bool) (p : Nat) (work : Workspace) :
    (dbdescPart master false p work).1 = true := rfl

theorem dbdescRecv_back {master oi on} (open_ : oi.stub = false) (exchanging : on.state = .exchange)
    (sound : Sound (dbdescRecv master oi on work)) : Sound (dbdescExchange master on work).2 ∧
      ((dbdescExchange master on work).1 = true →
        PartsFit lsaHeaderSize (fun _ _ => lsaHeaderSize) (dbdescExchange master on work).2.data
          (messageEnd (dbdescExchange master on work).2.data) 28) := by
  rw [dbdescRecv, dbdescGate, exchanging] at sound
  cases done : dbdescExchange master on work with
  | mk go after =>
    rw [done] at sound
    cases go with
    | false => exact ⟨sound, fun impossible => by cases impossible⟩
    | true =>
      dsimp only at sound
      rw [open_] at sound
      have looped : Sound
          (forParts lsaHeaderSize (by decide) (dbdescPart master false) (messageEnd after.data)
          (headerSize + dbdescSize) after).2 := by
        split at sound
        · rename_i ended same
          rw [same]
          exact sound
        · rename_i ended same
          rw [same]
          cases master with
          | true => exact (sound_see.mp (sound_see.mp sound).1).1
          | false => exact (sound_see.mp (sound_see.mp sound).1).1
      obtain ⟨good, parts⟩ :=
        fits_of_forParts (dbdesc_reaches master false) (goes_dbdesc master) _ _ _ looped
      exact ⟨good, fun _ => parts⟩

theorem octetOf_getD (data : List Octet) (pos : Nat) : octetOf data pos = data.getD pos 0 := by
  have one : slice data pos 1 = [data.getD pos 0] := rfl
  have value : ofOctets [data.getD pos 0] = (data.getD pos 0).toNat := by
    rw [ofOctets_cons]; simp [ofOctets]
  rw [octetOf, field, one, value]
  exact BitVec.ofNat_toNat 8 _

theorem toList_options (data : List Octet) (pos count : Nat) :
    (Vector.ofFn fun index : Fin count => octetOf data (pos + index)).toList =
      slice data pos count := by
  rw [Vector.toList_ofFn]
  refine List.ext_getElem (by rw [List.length_ofFn, length_slice]) fun index first second => ?_
  rw [List.getElem_ofFn, octetOf_getD]
  exact ((List.getElem_map _).trans
    (congrArg (fun at_ => data.getD (pos + at_) 0) (List.getElem_range _))).symm

theorem exchange_willing {clear master} (data : List Octet) (zero : octetOf clear.data 16 = 0)
    (slices : ∀ pos count, pos + count ≤ 16 ∨ 17 ≤ pos ∧ pos + count ≤ 22 ∨ 23 ≤ pos →
      slice clear.data pos count = slice data pos count)
    (unset : bitI (octetOf data 23) = false) (role : bitMs (octetOf data 23) = !master) :
    (dbdescExchange master (willingNeighbor data) clear).1 = true := by
  have fields (pos count : Nat)
      (apart : pos + count ≤ 16 ∨ 17 ≤ pos ∧ pos + count ≤ 22 ∨ 23 ≤ pos) :
      field clear.data pos count = field data pos count := by
    rw [field, field, slices pos count apart]
  have bits : octetOf clear.data 23 = octetOf data 23 := fields 23 1 (.inr (.inr le_rfl))
  have new : duplicated (willingNeighbor data) clear.data = false := by
    refine decide_eq_false fun same => ?_
    have one : octetOf clear.data 16 = 1 := by
      have first := congrArg (fun octets => octets.take 1) same
      have slice_one : slice clear.data 16 1 = [1] := first
      rw [octetOf, field, slice_one]
      rfl
    rw [zero] at one
    exact absurd one (by decide)
  have options : slice clear.data 17 3 = (willingNeighbor data).options.toList := by
    rw [slices 17 3 (.inr (.inl (by decide)))]
    exact (toList_options data 17 3).symm
  rw [dbdescExchange]
  rw [new, if_neg Bool.false_ne_true, bits, role, if_neg (by cases master <;> decide), unset,
    if_neg Bool.false_ne_true, if_neg (not_not.mpr options), fields 24 4 (.inr (.inr (by decide)))]
  refine decide_eq_true ?_
  rw [willingNeighbor, role]
  cases master with
  | true => rfl
  | false => exact (BitVec.sub_add_cancel (field data 24 4) 1).symm

theorem dbdesc_fits (version : octetOf work.data 0 = 3) (long : headerSize ≤ work.data.length)
    (sound : Sound (ospf6DbdescRecv (willingReceiver work.data)
      (willingInterface work.data) work)) : 28 ≤ work.data.length ∧
      (DbdescTaken work.data →
        PartsFit lsaHeaderSize (fun _ _ => lsaHeaderSize) work.data (messageEnd work.data) 28) := by
  obtain ⟨after, examined, data⟩ := willing_examin version long
  rw [ospf6DbdescRecv, examined] at sound
  dsimp only at sound
  have mtu : ¬(field work.data 20 2).toNat ≠ (willingInterface work.data).ifmtu := not_not.mpr rfl
  rw [data, willing_lookup] at sound
  dsimp only at sound
  rw [if_neg mtu] at sound
  obtain ⟨clear, equal, size, -, back, slices, zero⟩ := cleared (after.see 20 2)
  rw [see_data, data] at equal size slices
  rw [equal] at sound
  have either (master : Bool)
      (received : Sound
      (dbdescRecv master (willingInterface work.data) (willingNeighbor work.data) clear)) :
      28 ≤ work.data.length ∧
        (bitI (octetOf work.data 23) = false → bitMs (octetOf work.data 23) = (!master) →
        PartsFit lsaHeaderSize (fun _ _ => lsaHeaderSize) work.data (messageEnd work.data) 28) := by
    obtain ⟨good, parts⟩ := dbdescRecv_back rfl rfl received
    have kept : (dbdescExchange master (willingNeighbor work.data) clear).2.data = clear.data := by
      rw [dbdescExchange]
      split
      · rfl
      · split
        · rfl
        · split
          · rfl
          · split
            · rfl
            · rfl
    refine ⟨size ▸ exchange_back good, fun unset role i room => ?_⟩
    have fits := parts (exchange_willing work.data zero slices unset role)
    rw [kept, messageEnd, field, slices 2 2 (.inl (by decide))] at fits
    rw [← size]
    exact fits i room
  have other : willingId work.data ≠ field work.data 4 4 := by
    rw [willingId]
    split
    · split
      · rename_i zero
        rw [zero]
        decide
      · exact Ne.symm ‹_›
    · split
      · rename_i top
        rw [top]
        decide
      · exact Ne.symm ‹_›
  have masters : field work.data 4 4 < willingId work.data ∨
      willingId work.data < field work.data 4 4 := by
    rcases Nat.lt_or_gt_of_ne fun same => other (BitVec.eq_of_toNat_eq same) with less | more
    · exact .inr less
    · exact .inl more
  rcases masters with master | slave
  · have received :
        Sound (dbdescRecv true (willingInterface work.data) (willingNeighbor work.data) clear) := by
      have taken : field work.data 4 4 < (willingReceiver work.data).routerId := master
      rwa [if_pos taken] at sound
    obtain ⟨enough, parts⟩ := either true received
    refine ⟨enough, fun taken => parts taken.1 ?_⟩
    cases bit : bitMs (octetOf work.data 23) with
    | false => rfl
    | true =>
      have some_ := taken.2
      rw [if_pos bit] at some_
      rw [willingId, if_pos bit, if_neg some_] at master
      exact absurd master (by simp)
  · have received : Sound
        (dbdescRecv false (willingInterface work.data) (willingNeighbor work.data) clear) := by
      have not_ : ¬field work.data 4 4 < (willingReceiver work.data).routerId :=
        fun less => Nat.lt_asymm less slave
      have taken : (willingReceiver work.data).routerId < field work.data 4 4 := slave
      rwa [if_neg not_, if_pos taken] at sound
    obtain ⟨enough, parts⟩ := either false received
    refine ⟨enough, fun taken => parts taken.1 ?_⟩
    cases bit : bitMs (octetOf work.data 23) with
    | true => rfl
    | false =>
      have unset : ¬bitMs (octetOf work.data 23) = true := by rw [bit]; exact Bool.false_ne_true
      have less := taken.2
      rw [if_neg unset] at less
      rw [willingId, if_neg unset, if_neg less] at slave
      have top : (0xffffffff : BitVec 32).toNat < (field work.data 4 4).toNat := slave
      have value : (0xffffffff : BitVec 32).toNat = 4294967295 := rfl
      omega

end Willing

/-- What a router takes as far as any does is received inside only if it fits. -/
theorem fits_of_received {datagram}
    (sound : Sound (ospf6Receive (willingReceiver datagram) datagram))
    (long : headerSize ≤ datagram.length) (version : octetOf datagram 0 = 3) : Fits datagram := by
  rw [ospf6Receive] at sound
  rw [if_neg (Nat.not_lt_of_le long)] at sound
  have received : Sound (if octetOf datagram 1 = 1 then
      ospf6HelloRecv (willingInterface datagram) (({ data := datagram } : Workspace).see 1 1)
      else if octetOf datagram 1 = 2 then
        ospf6DbdescRecv (willingReceiver datagram) (willingInterface datagram)
          (({ data := datagram } : Workspace).see 1 1)
      else if octetOf datagram 1 = 3 then ospf6LsreqRecv (willingInterface datagram)
        (({ data := datagram } : Workspace).see 1 1)
      else if octetOf datagram 1 = 4 then ospf6LsupdateRecv (willingInterface datagram)
        (({ data := datagram } : Workspace).see 1 1)
      else if octetOf datagram 1 = 5 then ospf6LsackRecv (willingInterface datagram)
        (({ data := datagram } : Workspace).see 1 1)
      else ({ data := datagram } : Workspace).see 1 1) := by
    exact sound
  refine ⟨fun type => ?_, fun type => ?_, fun type => ?_, fun type => ?_, fun type => ?_⟩
  · rw [if_pos type] at received
    exact @hello_fits (({ data := datagram } : Workspace).see 1 1) version long received
  · rw [type] at received
    exact @dbdesc_fits (({ data := datagram } : Workspace).see 1 1) version long received
  · rw [type] at received
    exact @lsreq_fits (({ data := datagram } : Workspace).see 1 1) version long received
  · rw [type] at received
    exact @lsupdate_fits (({ data := datagram } : Workspace).see 1 1) version long received
  · rw [type] at received
    exact @lsack_fits (({ data := datagram } : Workspace).see 1 1) version long received

/-- A datagram is received inside its octets by every router exactly when what its length says it
  has is there. -/
theorem ospf6_receive_inside (datagram : List Octet) :
    (∀ receiver, Safe lsaHeaderSize (ospf6Receive receiver datagram)) ↔
    (headerSize ≤ datagram.length → octetOf datagram 0 = 3 → Fits datagram) :=
  ⟨fun sound => fits_of_received (sound (willingReceiver datagram)),
    fun fits receiver => receive_sound receiver fits⟩

/-- A Hello that ends behind its header. -/
def bareHello : List Octet := [3, 1, 0, 16, 10, 0, 0, 2, 0, 0, 0, 0, 0, 0, 0, 0]

/-- An acknowledgement of 36 octets that says it has 56. -/
def longLsack : List Octet :=
  [3, 5, 0, 56, 10, 0, 0, 2, 0, 0, 0, 0, 0, 0, 0, 0] ++ List.replicate 20 0

theorem ospf6_receive_outside :
    ¬Safe lsaHeaderSize (ospf6Receive (willingReceiver bareHello) bareHello) ∧
    ¬Safe lsaHeaderSize (ospf6Receive (willingReceiver longLsack) longLsack) := by
  refine ⟨fun sound => ?_, fun sound => ?_⟩
  · have enough := ((fits_of_received sound (by decide) (by decide)).hello (by decide)).1
    exact nomatch enough
  · have parts := (fits_of_received sound (by decide) (by decide)).lsack (by decide)
    exact absurd (parts 1 (by decide)) (by decide)

end Zebra.Ospf6d.Message
