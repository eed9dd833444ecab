import Zebra.Ospfd.Packet

namespace Zebra.Ospfd.Packet
open Base Workspace Workspace Bool AuthType BitVec And Nat

/-- An LSA that is copied has a whole header. -/
abbrev Sound (work : Workspace) : Prop := Safe ospfLsaHeaderSize work

abbrev Intact (work : Workspace) (data : List Octet) : Prop := Holds ospfLsaHeaderSize work data

theorem number_lt (data : List Octet) (pos : Nat) : number data pos 2 < 65536 :=
  (field data pos 2).isLt

/-! ### Loops over parts of one size -/

section Loops
variable {oi : Interface} {nbr : Neighbor} {routerId : InAddr} {data : List Octet}
  {work : Workspace} (pos rounds : Nat)

section
variable (intact : Intact work data)
include intact

theorem bidirectional_intact (fits : pos + 4 * rounds ≤ data.length) :
    Intact (ospfNbrBidirectional routerId pos rounds work).2 data := by
  induction rounds generalizing pos work with
  | zero => exact intact
  | succ rounds ih =>
    have seen := intact.see pos 4 (by omega)
    rw [ospfNbrBidirectional]
    split
    · exact seen
    · exact ih _ seen (by omega)

theorem dbDescHeaders_intact (fits : pos + 20 * rounds ≤ data.length) :
    Intact (dbDescHeaders oi pos rounds work).2 data := by
  induction rounds generalizing pos work with
  | zero => exact intact
  | succ rounds ih =>
    have seen := intact.see (pos + 3) 1 (by omega)
    rw [dbDescHeaders]
    split
    · exact seen
    · split
      · exact seen
      · have whole := seen.see pos ospfLsaHeaderSize (by rw [ospfLsaHeaderSize]; omega)
        exact ih _ whole (by rw [ospfLsaHeaderSize]; omega)

theorem lsReqEntries_intact (fits : pos + 12 * rounds ≤ data.length) :
    Intact (lsReqEntries oi pos rounds work) data := by
  induction rounds generalizing pos work with
  | zero => exact intact
  | succ rounds ih =>
    have seen :=
      ((intact.see pos 4 (by omega)).see (pos + 4) 4 (by omega)).see (pos + 8) 4 (by omega)
    rw [lsReqEntries]
    split
    · exact seen
    · split
      · exact seen
      · exact ih _ seen (by rw [ospfLsaKeySize]; omega)

theorem lsAckHeaders_intact (fits : pos + 20 * rounds ≤ data.length) :
    Intact (lsAckHeaders nbr pos rounds work) data := by
  induction rounds generalizing pos work with
  | zero => exact intact
  | succ rounds ih =>
    have seen := intact.see (pos + 3) 1 (by omega)
    have named := (seen.see (pos + 4) 4 (by omega)).see (pos + 8) 4 (by omega)
    rw [lsAckHeaders]
    have rest : pos + ospfLsaHeaderSize + 20 * rounds ≤ data.length := by
      rw [ospfLsaHeaderSize]; omega
    split
    · exact ih _ seen rest
    · dsimp only
      split
      · exact ih _ (named.see (pos + 12) 4 (by omega)) rest
      · exact ih _ named rest

end

theorem sound_of_bidirectional (sound : Sound (ospfNbrBidirectional routerId pos rounds work).2) :
    Sound work := by
  induction rounds generalizing pos work with
  | zero => exact sound
  | succ rounds ih =>
    rw [ospfNbrBidirectional] at sound
    split at sound
    · exact sound.of_see
    · exact (ih _ sound).of_see

theorem sound_of_dbDescHeaders (sound : Sound (dbDescHeaders oi pos rounds work).2) :
    Sound work := by
  induction rounds generalizing pos work with
  | zero => exact sound
  | succ rounds ih =>
    rw [dbDescHeaders] at sound
    split at sound
    · exact sound.of_see
    · split at sound
      · exact sound.of_see
      · exact (ih _ sound).of_see.of_see

theorem sound_of_lsReqEntries (sound : Sound (lsReqEntries oi pos rounds work)) : Sound work := by
  induction rounds generalizing pos work with
  | zero => exact sound
  | succ rounds ih =>
    rw [lsReqEntries] at sound
    split at sound
    · exact sound.of_see.of_see.of_see
    · split at sound
      · exact sound.of_see.of_see.of_see
      · exact (ih _ sound).of_see.of_see.of_see

theorem sound_of_lsAckHeaders (sound : Sound (lsAckHeaders nbr pos rounds work)) : Sound work := by
  induction rounds generalizing pos work with
  | zero => exact sound
  | succ rounds ih =>
    rw [lsAckHeaders] at sound
    split at sound
    · exact (ih _ sound).of_see
    · dsimp only at sound
      split at sound
      · exact (ih _ sound).of_see.of_see.of_see.of_see
      · exact (ih _ sound).of_see.of_see.of_see

end Loops

/-! ### The LSAs of an update -/

section
variable (data : List Octet) (pos : Nat)

/-- What the checksum of the LSA at a position should be. -/
def lsaSum : BitVec 16 :=
  let zeroed := overwrite data (pos + 16) [0, 0]
  fletcher (slice zeroed (pos + 2) ((number zeroed (pos + 18) 2 + 65536 - 2) % 65536))

/-- The checksum of the LSA at a position is right, and its type is known. -/
def takesLsa : Bool :=
  field data (pos + 16) 2 = lsaSum data pos && knownType (number data (pos + 3) 1)

/-- The packet with the checksum filled in. -/
def summed : List Octet :=
  overwrite (overwrite data (pos + 16) [0, 0]) (pos + 16) (toOctets 2 (lsaSum data pos).toNat)

/-- The packet with the age limited. -/
def aged : List Octet :=
  if 3600 < number data pos 2 then overwrite data pos (toOctets 2 3600) else data

/-- The packet behind an LSA. -/
def updated : List Octet :=
  if takesLsa data pos then aged (summed data pos) pos else summed data pos

end

/-- As long as the number of LSAs and the size go, every LSA has at least the octets in front of its
options, and a whole header when it is taken. -/
def LsasFit : Nat → Nat → Nat → List Octet → Prop
  | 0, _, _, _ => True
  | count + 1, pos, size, data =>
    let length := number data (pos + 18) 2
    ospfLsaHeaderSize ≤ size → length ≤ size →
      2 ≤ length ∧ (takesLsa data pos = true → ospfLsaHeaderSize ≤ length) ∧
      LsasFit count (pos + length) (size - length) (updated data pos)

section Update
variable {work : Workspace} {pos size : Nat}

@[simp] theorem length_summed (data : List Octet) (pos : Nat) :
    (summed data pos).length = data.length := by
  rw [summed, length_overwrite, length_overwrite]

@[simp] theorem length_aged (data : List Octet) (pos : Nat) :
    (aged data pos).length = data.length := by
  rw [aged]
  split
  · exact length_overwrite ..
  · rfl

@[simp] theorem length_updated (data : List Octet) (pos : Nat) :
    (updated data pos).length = data.length := by
  rw [updated]
  split
  · rw [length_aged, length_summed]
  · exact length_summed ..

@[simp] theorem lsaChecksum_data (pos : Nat) (work : Workspace) :
    (ospfLsaChecksum pos work).2.data = summed work.data pos := rfl

@[simp] theorem limitAge_data (pos : Nat) (work : Workspace) :
    (limitAge pos work).data = aged work.data pos := by
  exact apply_ite data ..

theorem sound_limitAge (fits : pos + 2 ≤ work.data.length) :
    Sound (limitAge pos work) ↔ Sound work := by
  rw [limitAge]
  split
  · simp only [Sound, safe_put, safe_see, see_data, length_toOctets]
    exact ⟨fun sound => sound.1.1, fun sound => ⟨⟨sound, fits⟩, fits⟩⟩
  · simp only [Sound, safe_see]
    exact ⟨left, fun sound => ⟨sound, fits⟩⟩

theorem summed_type (data : List Octet) (pos : Nat) :
    number (summed data pos) (pos + 3) 1 = number data (pos + 3) 1 := by
  apply congrArg BitVec.toNat
  rw [summed, field_overwrite (.inl (by omega)), field_overwrite (.inl (by omega))]

theorem updLsa_eq (pos length : Nat) (work : Workspace) :
    updLsa pos length work =
      let checked := (ospfLsaChecksum pos (work.see (pos + 16) 2)).2
      if field work.data (pos + 16) 2 ≠ lsaSum work.data pos then checked
      else if knownType (number work.data (pos + 3) 1) then
        (limitAge pos (checked.see (pos + 3) 1)).copy pos length
      else checked.see (pos + 3) 1 := by
  rw [updLsa]
  dsimp only
  rw [see_data, see_data, lsaChecksum_data, see_data, summed_type]
  cases knownType (number work.data (pos + 3) 1) <;> rfl

theorem updLsa_data (pos length : Nat) (work : Workspace) :
    (updLsa pos length work).data = updated work.data pos := by
  rw [updLsa_eq, updated, takesLsa]
  by_cases right : field work.data (pos + 16) 2 = lsaSum work.data pos
  · rw [if_neg (not_not.mpr right), decide_eq_true right, Bool.true_and]
    split
    · rw [copy_data, limitAge_data, see_data, lsaChecksum_data, see_data]
    · rfl
  · rw [if_pos right, decide_eq_false right]
    rfl

section
variable (long : ospfLsaHeaderSize ≤ size) (fits : pos + size ≤ work.data.length)
  (short : number work.data (pos + 18) 2 ≤ size)
include long fits short

theorem sound_lsaChecksum :
    Sound (ospfLsaChecksum pos work).2 ↔ Sound work ∧ 2 ≤ number work.data (pos + 18) 2 := by
  have same : number (overwrite work.data (pos + 16) [0, 0])
      (pos + 18) 2 = number work.data (pos + 18) 2 :=
    congrArg BitVec.toNat (field_overwrite (.inr le_rfl))
  rw [ospfLsaHeaderSize] at long
  simp only [ospfLsaChecksum, Sound, safe_put, safe_see, safe_minus, put_data, see_data,
    minus_data, same, length_overwrite, length_toOctets, List.length_cons, List.length_nil]
  constructor
  · intro sound
    exact ⟨sound.1.1.1.1.1, sound.1.1.2⟩
  · intro sound
    refine ⟨⟨⟨⟨⟨sound.1, ?_⟩, ?_⟩, sound.2⟩, ?_⟩, ?_⟩ <;> omega

theorem sound_updLsa :
    Sound (updLsa pos (number work.data (pos + 18) 2) work) ↔
    Sound work ∧ 2 ≤ number work.data (pos + 18) 2 ∧
      (takesLsa work.data pos = true → ospfLsaHeaderSize ≤ number work.data (pos + 18) 2) := by
  have room : pos + 20 ≤ work.data.length := by
    rw [ospfLsaHeaderSize] at long
    omega
  have seen : Sound (work.see (pos + 16) 2) ↔ Sound work := by
    rw [Sound, safe_see]
    exact ⟨left, fun sound => ⟨sound, by omega⟩⟩
  have checked := @sound_lsaChecksum (work.see (pos + 16) 2) pos size long fits short
  rw [seen] at checked
  have typed : Sound (((ospfLsaChecksum pos (work.see (pos + 16) 2)).2).see (pos + 3) 1) ↔
      Sound work ∧ 2 ≤ number work.data (pos + 18) 2 := by
    rw [Sound, safe_see, lsaChecksum_data, length_summed, see_data, ← Sound, checked]
    exact ⟨left, fun sound => ⟨sound, by omega⟩⟩
  rw [updLsa_eq, takesLsa, and_eq_true, decide_eq_true_eq]
  by_cases right : field work.data (pos + 16) 2 = lsaSum work.data pos
  · rw [if_neg (not_not.mpr right)]
    split
    · rename_i known
      have limited :=
        @sound_limitAge (((ospfLsaChecksum pos (work.see (pos + 16) 2)).2).see (pos + 3) 1) pos
        (by rw [see_data, lsaChecksum_data, length_summed, see_data]; omega)
      rw [Sound, safe_copy, limitAge_data, length_aged, see_data, lsaChecksum_data,
        length_summed, see_data, ← Sound, limited, typed]
      refine ⟨fun sound => ⟨sound.1.1, sound.1.2, fun _ => sound.2.2⟩,
        fun sound => ⟨⟨sound.1, sound.2.1⟩, ?_, ?_⟩⟩
      · omega
      · exact sound.2.2 ⟨right, known⟩
    · rename_i unknown
      rw [typed]
      exact ⟨fun sound => ⟨sound.1, sound.2, fun takes => absurd takes.2 unknown⟩,
        fun sound => ⟨sound.1, sound.2.1⟩⟩
  · rw [if_pos right, checked]
    exact ⟨fun sound => ⟨sound.1, sound.2, fun takes => absurd takes.1 right⟩,
      fun sound => ⟨sound.1, sound.2.1⟩⟩

end

theorem sound_updLsas (count : Nat) (fits : pos + size ≤ work.data.length) :
    Sound (updLsas count pos size work) ↔ Sound work ∧ LsasFit count pos size work.data := by
  induction count generalizing pos size work with
  | zero => exact ⟨fun sound => ⟨sound, trivial⟩, left⟩
  | succ count ih =>
    rw [updLsas]
    by_cases room : size < ospfLsaHeaderSize
    · rw [if_pos room]
      exact ⟨fun sound => ⟨sound, fun long => absurd room (not_lt.mpr long)⟩, left⟩
    · rw [if_neg room]
      dsimp only
      have long := not_lt.mp room
      have seen : Sound (work.see (pos + 18) 2) ↔ Sound work := by
        rw [Sound, safe_see]
        rw [ospfLsaHeaderSize] at long
        exact ⟨left, fun sound => ⟨sound, by omega⟩⟩
      rw [see_data]
      by_cases large : size < number work.data (pos + 18) 2
      · rw [if_pos large, seen]
        exact ⟨fun sound => ⟨sound, fun _ short => absurd large (not_lt.mpr short)⟩, left⟩
      · have short := not_lt.mp large
        have one := @sound_updLsa (work.see (pos + 18) 2) pos size long fits short
        rw [see_data, seen] at one
        rw [if_neg large, ih (by rw [updLsa_data, length_updated, see_data]; omega), one,
          updLsa_data]
        exact ⟨fun sound => ⟨sound.1.1, fun _ _ => ⟨sound.1.2.1, sound.1.2.2, sound.2⟩⟩,
          fun sound =>
            ⟨⟨sound.1, (sound.2 long short).1, (sound.2 long short).2.1⟩, (sound.2 long short).2.2⟩⟩

theorem sound_of_updLsa (pos length : Nat) (work : Workspace)
    (sound : Sound (updLsa pos length work)) : Sound work := by
  have checked : ∀ {work}, Sound (ospfLsaChecksum pos work).2 → Sound work := by
    intro work sound
    simp only [ospfLsaChecksum, Sound, safe_put, safe_see, safe_minus] at sound
    exact sound.1.1.1.1.1
  have limited : ∀ {work}, Sound (limitAge pos work) → Sound work := by
    intro work sound
    rw [limitAge] at sound
    split at sound
    · exact (safe_put.mp sound).1.of_see
    · exact sound.of_see
  rw [updLsa_eq] at sound
  split at sound
  · exact (checked sound).of_see
  · split at sound
    · exact (safe_see.mp (checked (limited (safe_copy.mp sound).1).of_see)).1
    · exact (checked sound.of_see).of_see

theorem sound_of_updLsas (count pos size : Nat) (work : Workspace)
    (sound : Sound (updLsas count pos size work)) :
    Sound work := by
  induction count generalizing pos size work with
  | zero => exact sound
  | succ count ih =>
    rw [updLsas] at sound
    split at sound
    · exact sound
    · dsimp only at sound
      split at sound
      · exact sound.of_see
      · exact (sound_of_updLsa _ _ _ (ih _ _ _ sound)).of_see

end Update

/-! ### The bodies -/

/-- A Hello that reaches the neighbours it lists has the octets in front of them. -/
structure HelloFits (data : List Octet) (body size : Nat) : Prop where
  checked : body + 12 ≤ data.length
  whole : field data (body + 6) 1 &&& ospfOptionT = 0 → ospfHelloMinSize ≤ size

/-- A description that can be processed has the octets in front of its headers. -/
structure DbDescFits (data : List Octet) (body size : Nat) : Prop where
  checked : body + 3 ≤ data.length
  whole : ddOptions data body &&& ospfOptionT = 0 → body + 8 ≤ data.length
  processed : ddOptions data body &&& ospfOptionT = 0 → isSetDdI (ddFlags data body) = false →
    ospfDbDescMinSize ≤ size

structure LsUpdFits (data : List Octet) (body size : Nat) : Prop where
  counted : ospfLsUpdMinSize ≤ size
  lsas : LsasFit (number data body 4 % 65536) (body + ospfLsUpdMinSize)
    (size - ospfLsUpdMinSize) data

/-- The body has what its type makes the router read. -/
structure BodyFits (data : List Octet) (h size : Nat) : Prop where
  hello : number data (h + 1) 1 = 1 → HelloFits data (h + ospfHeaderSize) size
  dbDesc : number data (h + 1) 1 = 2 → DbDescFits data (h + ospfHeaderSize) size
  lsUpd : number data (h + 1) 1 = 4 → LsUpdFits data (h + ospfHeaderSize) size

section Bodies
variable {ospf : Receiver} {oi : Interface} {src : InAddr} {h body size : Nat} {work : Workspace}

theorem sound_helloStore : Sound (helloStore body work) ↔
    Sound work ∧ body + 20 ≤ work.data.length := by
  simp only [helloStore, Sound, safe_see, see_data]
  constructor
  · intro sound
    exact ⟨sound.1.1.1, sound.2⟩
  · intro sound
    refine ⟨⟨⟨sound.1, ?_⟩, ?_⟩, ?_⟩ <;> omega

section
variable {data : List Octet} (intact : Intact work data)
include intact

theorem helloStore_intact (room : body + 20 ≤ data.length) : Intact (helloStore body work) data :=
  ((intact.see _ 1 (by omega)).see _ 4 (by omega)).see _ 4 (by omega)

theorem helloAccepted_intact (fits : body + size ≤ data.length) (whole : ospfHelloMinSize ≤ size) :
    Intact (helloAccepted ospf oi src body size work) data := by
  have room : body + 20 ≤ data.length := le_trans (Nat.add_le_add_left whole _) fits
  have asked :
      Intact (if oi.type = .nbma ∧ oi.priority = 0 then work.see (body + 7) 1 else work) data := by
    split
    · exact intact.see _ 1 (by omega)
    · exact intact
  rw [helloAccepted]
  dsimp only
  generalize (if oi.type = .nbma ∧ oi.priority = 0 then work.see (body + 7) 1 else work) =
    began at asked ⊢
  split
  · exact helloStore_intact asked room
  · have listed := @bidirectional_intact ospf.routerId _ _ (body + ospfHelloMinSize)
      ((size - ospfHelloMinSize) / 4)
      (asked.minus whole) (by omega)
    split
    · rename_i after ran
      rw [ran] at listed
      exact helloStore_intact (listed.see _ 1 (by omega)) room
    · rename_i after ran
      rw [ran] at listed
      exact helloStore_intact listed room

theorem dbDescProc_intact (room : body + 8 ≤ data.length) (fits : body + size ≤ data.length)
    (whole : ospfDbDescMinSize ≤ size) :
    Intact (ospfDbDescProc oi body size work) data := by
  have listed := @dbDescHeaders_intact oi _ _ (body + ospfDbDescMinSize)
    ((size + 65536 - ospfDbDescMinSize) % 65536 / ospfLsaHeaderSize) (intact.minus whole)
      (by rw [ospfLsaHeaderSize]; omega)
  rw [ospfDbDescProc]
  split
  · rename_i after ran
    rwa [ran] at listed
  · rename_i after ran
    rw [ran] at listed
    exact ((listed.see _ 1 (by omega)).see _ 4 (by omega)).see _ 1 (by omega)

theorem isDup_intact (nbr : Neighbor) (room : body + 8 ≤ data.length) :
    Intact (ospfDbDescIsDup nbr body work).2 data := by
  have opted := intact.see (body + 2) 1 (by omega)
  have flagged := opted.see (body + 3) 1 (by omega)
  rw [ospfDbDescIsDup]
  split
  · exact opted
  · split
    · exact flagged
    · exact flagged.see _ 4 (by omega)

end

theorem ospfHello_intact (intact : Intact work work.data)
    (header : h + ospfHeaderSize ≤ work.data.length)
    (fits : h + ospfHeaderSize + size ≤ work.data.length)
    (hello : HelloFits work.data (h + ospfHeaderSize) size) :
    Intact (ospfHello ospf oi src h size work) work.data := by
  have room := hello.checked
  have named := intact.see (h + 4) 4 (by rw [ospfHeaderSize] at header; omega)
  have masked := named.see (h + ospfHeaderSize) 4 (by omega)
  have timed := masked.see (h + ospfHeaderSize + 4) 2 (by omega)
  have waited := timed.see (h + ospfHeaderSize + 8) 4 (by omega)
  have opted := waited.see (h + ospfHeaderSize + 6) 1 (by omega)
  rw [ospfHello]
  split
  · exact named
  split
  · exact named
  split
  · exact masked
  split
  · exact timed
  split
  · exact waited
  split
  · exact opted
  split
  · exact opted
  · rename_i clear _
    exact helloAccepted_intact opted fits (hello.whole (not_not.mp clear))

theorem sound_of_dbDescProc (sound : Sound (ospfDbDescProc oi body size work)) :
    Sound work ∧ ospfDbDescMinSize ≤ size := by
  rw [ospfDbDescProc] at sound
  split at sound
  · rename_i after ran
    have listed : Sound (dbDescHeaders oi (body + ospfDbDescMinSize)
        ((size + 65536 - ospfDbDescMinSize) % 65536 / ospfLsaHeaderSize)
          (work.minus size ospfDbDescMinSize)).2 := by
      rw [ran]
      exact sound
    exact safe_minus.mp (sound_of_dbDescHeaders _ _ listed)
  · rename_i after ran
    have listed : Sound (dbDescHeaders oi (body + ospfDbDescMinSize)
        ((size + 65536 - ospfDbDescMinSize) % 65536 / ospfLsaHeaderSize)
          (work.minus size ospfDbDescMinSize)).2 := by
      rw [ran]
      exact sound.of_see.of_see.of_see
    exact safe_minus.mp (sound_of_dbDescHeaders _ _ listed)

section
variable {data : List Octet} (nbr : Neighbor) (intact : Intact work data)
  (room : body + 8 ≤ data.length)
  (fits : body + size ≤ data.length)
  (processed : isSetDdI (ddFlags data body) = false → ospfDbDescMinSize ≤ size)
include intact room fits processed

theorem dbDescExStart_intact : Intact (dbDescExStart ospf oi nbr body size work) data := by
  have flagged := intact.see (body + 3) 1 (by omega)
  have numbered := flagged.see (body + 4) 4 (by omega)
  rw [dbDescExStart, intact.same]
  split
  · rename_i initial
    split
    · exact dbDescProc_intact (numbered.see _ 1 (by omega)) room fits (le_of_eq initial.2.symm)
    · exact flagged
  · split
    · rename_i answer
      split
      · refine dbDescProc_intact (numbered.see _ 1 (by omega)) room fits (processed ?_)
        rw [and_eq_true, not_eq_true', not_eq_true'] at answer
        exact answer.2
      · exact numbered
    · exact flagged

theorem dbDescExchange_intact : Intact (dbDescExchange oi nbr body size work) data := by
  have compared := isDup_intact intact nbr room
  rw [dbDescExchange, intact.same]
  split
  · rename_i after ran
    rwa [ran] at compared
  · rename_i after ran
    rw [ran] at compared
    have flagged := compared.see (body + 3) 1 (by omega)
    have opted := flagged.see (body + 2) 1 (by omega)
    have numbered := opted.see (body + 4) 4 (by omega)
    split
    · exact flagged
    split
    · exact flagged
    split
    · exact opted
    split
    · exact numbered
    · rename_i first _ _
      exact dbDescProc_intact numbered room fits (processed (eq_false_iff.mpr first))

end

section
variable (intact : Intact work work.data) (fits : h + ospfHeaderSize + size ≤ work.data.length)
include intact fits

theorem ospfDbDesc_intact (dbDesc : DbDescFits work.data (h + ospfHeaderSize) size) :
    Intact (ospfDbDesc ospf oi src h size work) work.data := by
  have room := dbDesc.checked
  rw [ospfDbDesc]
  split
  · exact intact
  · rename_i nbr _
    have sized := intact.see (h + ospfHeaderSize) 2 (by omega)
    have opted := sized.see (h + ospfHeaderSize + 2) 1 (by omega)
    split
    · exact sized
    split
    · exact opted
    · rename_i clear
      have free := not_not.mp clear
      have whole := dbDesc.whole free
      have processed := dbDesc.processed free
      split
      · split
        · exact dbDescExStart_intact nbr opted whole fits processed
        · exact opted
      · exact dbDescExStart_intact nbr opted whole fits processed
      · exact dbDescExchange_intact nbr opted whole fits processed
      · exact isDup_intact opted nbr whole
      · exact isDup_intact opted nbr whole
      · exact opted

theorem ospfLsReq_intact : Intact (ospfLsReq oi src h size work) work.data := by
  rw [ospfLsReq]
  split
  · exact intact
  · split
    · exact intact
    · exact lsReqEntries_intact _ _ intact (by rw [ospfLsaKeySize]; omega)

theorem ospfLsAck_intact : Intact (ospfLsAck oi src h size work) work.data := by
  rw [ospfLsAck]
  split
  · exact intact
  · split
    · exact intact
    · exact lsAckHeaders_intact _ _ intact (by rw [ospfLsaHeaderSize]; omega)

end

theorem sound_lsUpdListLsa (small : size < 65536) (fits : body + size ≤ work.data.length) :
    Sound (ospfLsUpdListLsa body size work) ↔ Sound work ∧ LsUpdFits work.data body size := by
  have listed : ospfLsUpdMinSize ≤ size → (Sound (ospfLsUpdListLsa body size work) ↔
      Sound ((work.see body 4).minus size ospfLsUpdMinSize) ∧
        LsasFit (number work.data body 4 % 65536) (body + ospfLsUpdMinSize)
          (size - ospfLsUpdMinSize) work.data) := by
    intro counted
    have rest : (size + 2 ^ 64 - ospfLsUpdMinSize) % 2 ^ 64 = size - ospfLsUpdMinSize := by
      omega
    rw [ospfLsUpdListLsa, rest, sound_updLsas _ (by rw [minus_data, see_data]; omega),
      minus_data, see_data]
  constructor
  · intro sound
    have began := sound_of_updLsas _ _ _ _ sound
    have counted := (safe_minus.mp began).2
    exact ⟨(safe_minus.mp began).1.of_see, counted, ((listed counted).mp sound).2⟩
  · rintro ⟨sound, counted, lsas⟩
    refine (listed counted).mpr ⟨safe_minus.mpr ⟨safe_see.mpr ⟨sound, ?_⟩, counted⟩, lsas⟩
    rw [ospfLsUpdMinSize] at counted
    omega

variable (sound : Sound work) (small : size < 65536)
  (fits : h + ospfHeaderSize + size ≤ work.data.length)
include sound small fits

theorem ospfLsUpd_sound (lsUpd : LsUpdFits work.data (h + ospfHeaderSize) size)
    : Sound (ospfLsUpd oi src h size work) := by
  rw [ospfLsUpd]
  split
  · exact sound
  · split
    · exact sound
    · exact (sound_lsUpdListLsa small fits).mpr ⟨sound, lsUpd⟩

theorem handle_sound (body : BodyFits work.data h size) :
    Sound (handle ospf oi src h size work) := by
  have header : h + ospfHeaderSize ≤ work.data.length := le_trans (le_add_right _ _) fits
  have typed := sound.intact.see (h + 1) 1 (by rw [ospfHeaderSize] at header; omega)
  rw [handle]
  split
  · rename_i type
    exact (ospfHello_intact typed header fits (body.hello type)).safe
  split
  · rename_i type
    exact (ospfDbDesc_intact typed fits (body.dbDesc type)).safe
  split
  · exact (ospfLsReq_intact typed fits).safe
  split
  · rename_i type
    exact ospfLsUpd_sound typed.safe small fits (body.lsUpd type)
  split
  · exact (ospfLsAck_intact typed fits).safe
  · exact typed.safe

end Bodies

/-! ### The headers -/

/-- The packet has the length its body needs. -/
structure PacketFits (data : List Octet) (h : Nat) : Prop where
  header : ospfHeaderSize ≤ number data (h + 2) 2
  body : BodyFits data h (number data (h + 2) 2 - ospfHeaderSize)

/-- The checksum is that of the packet. -/
def sumMatches (data : List Octet) (h : Nat) : Prop :=
  inCksum (slice (cleared data h) h (number (cleared data h) (h + 2) 2)) = field data (h + 12) 2

/-- A packet with a checksum is as long as it says, and its body fits when the checksum is right. -/
structure SumFits (data : List Octet) (h : Nat) : Prop where
  header : h + ospfHeaderSize ≤ data.length
  length : h + number (cleared data h) (h + 2) 2 ≤ data.length
  packet : sumMatches data h → PacketFits (cleared data h) h

/-- A packet the digest is computed for. -/
structure Digested (data : List Octet) (h : Nat) : Prop where
  size : number data (h + 19) 1 = ospfAuthMd5Size
  length : number data (h + 2) 2 + ospfAuthSimpleSize ≤ data.length
  sum : field data (h + 12) 2 = 0

/-- A packet with a digest has it behind the length it says, and its body fits when it is the digest
of the packet and a key. -/
structure DigestFits (md5 : List Octet → List Octet) (data : List Octet) (h : Nat) : Prop where
  key : h + 20 ≤ data.length
  header : Digested data h → h + ospfHeaderSize ≤ data.length
  length : Digested data h → h + number data (h + 2) 2 + ospfAuthMd5Size ≤ data.length
  packet : Digested data h → ∀ ck, digestMatches md5 data h (number data (h + 2) 2) ck = true →
    PacketFits data h

structure HeaderFits (md5 : List Octet → List Octet) (data : List Octet) (h : Nat) : Prop where
  authType : h + 16 ≤ data.length
  null : number data (h + 14) 2 = AuthType.null.code → SumFits data h
  simple : number data (h + 14) 2 = AuthType.simple.code → SumFits data h
  cryptographic : number data (h + 14) 2 = AuthType.cryptographic.code → DigestFits md5 data h

/-- What a packet in the buffer must have. -/
structure Fits (md5 : List Octet → List Octet) (data : List Octet) : Prop where
  addresses : 20 ≤ data.length
  type : headerEnd data + 2 ≤ data.length
  area : inMulticast (field data 16 4) = false → headerEnd data + 12 ≤ data.length
  header : number data (headerEnd data) 1 = 2 → HeaderFits md5 data (headerEnd data)

/-- A packet that may be passed on, when it is. -/
def Passes (h : Nat) (outcome : Bool × Workspace) : Prop :=
  Sound outcome.2 ∧ (outcome.1 = true → PacketFits outcome.2.data h ∧
    h + number outcome.2.data (h + 2) 2 ≤ outcome.2.data.length)

section Headers
variable {md5 : List Octet → List Octet} {ospf : Receiver} {oi : Interface} {h : Nat}
  {work : Workspace}

theorem passes_false (sound : Sound work) : Passes h (false, work) :=
  ⟨sound, fun passed => nomatch passed⟩

theorem checkCrypt_spec {data} (keys : List CryptKey) (intact : Intact work data)
    (key : h + 20 ≤ data.length) :
    Intact (checkCrypt h keys work).2 data ∧ ((checkCrypt h keys work).1 = true →
      number data (h + 19) 1 = ospfAuthMd5Size ∧
      number data (h + 2) 2 + ospfAuthSimpleSize ≤ data.length) := by
  induction keys generalizing work with
  | nil => exact ⟨intact, nofun⟩
  | cons ck rest ih =>
    have sized := intact.see (h + 19) 1 (by omega)
    have named := sized.see (h + 18) 1 (by omega)
    have measured := named.see (h + 2) 2 (by omega)
    rw [checkCrypt, intact.same]
    split
    · rename_i size
      split
      · split
        · rename_i length
          exact ⟨measured, fun _ => ⟨size, length⟩⟩
        · exact ih measured
      · exact ih named
    · exact ih sized

theorem checkSum_passes (sound : Sound work) (fits : SumFits work.data h) :
    Passes h (ospfCheckSum h work) := by
  have header := fits.header
  have length := fits.length
  rw [ospfHeaderSize] at header
  have same : field (overwrite work.data (h + 16) (List.replicate 8 0))
      (h + 12) 2 = field work.data (h + 12) 2 :=
    field_overwrite (.inl (by omega))
  refine ⟨?_, fun passed => ?_⟩
  · simp only [ospfCheckSum, Sound, safe_put, safe_see, put_data, see_data, length_overwrite,
      List.length_replicate, List.length_cons, List.length_nil]
    exact ⟨⟨⟨⟨⟨sound, by omega⟩, by omega⟩, by omega⟩, by omega⟩, length⟩
  · simp only [ospfCheckSum, put_data, see_data, same, decide_eq_true_eq] at passed
    refine ⟨fits.packet passed, ?_⟩
    simp only [ospfCheckSum, put_data, see_data, length_overwrite]
    exact length

theorem compareDigest_passes (ck : CryptKey) (sound : Sound work) (digested : Digested work.data h)
    (fits : DigestFits md5 work.data h) :
    Passes h (compareDigest md5 h (number work.data (h + 2) 2) ck work) := by
  have length := fits.length digested
  rw [compareDigest]
  refine ⟨?_, fun passed => ⟨fits.packet digested ck passed, ?_⟩⟩
  · simp only [Sound, safe_see, see_data]
    exact ⟨⟨sound, le_trans (le_add_right _ _) length⟩, length⟩
  · exact le_trans (le_add_right _ _) length

theorem checkMd5Digest_passes (intact : Intact work work.data) (digested : Digested work.data h)
    (fits : DigestFits md5 work.data h) :
    Passes h (ospfCheckMd5Digest md5 oi h (number work.data (h + 2) 2) work) := by
  have header := fits.header digested
  rw [ospfHeaderSize] at header
  have named := intact.see (h + 18) 1 (by omega)
  have known := named.see (h + 4) 4 (by omega)
  have numbered := known.see (h + 20) 4 (by omega)
  rw [ospfCheckMd5Digest]
  split
  · exact passes_false named.safe
  · rename_i ck _
    split
    · exact compareDigest_passes ck known.safe digested fits
    · split
      · exact passes_false numbered.safe
      · exact compareDigest_passes ck numbered.safe digested fits

theorem checkSumOrDigest_passes (intact : Intact work work.data)
    (authType : h + 16 ≤ work.data.length)
    (sums : number work.data (h + 14) 2 ≠ cryptographic.code → SumFits work.data h)
    (digests : number work.data (h + 14) 2 = cryptographic.code → DigestFits md5 work.data h ∧
      number work.data (h + 19) 1 = ospfAuthMd5Size ∧
      number work.data (h + 2) 2 + ospfAuthSimpleSize ≤ work.data.length) :
    Passes h (checkSumOrDigest md5 oi h work) := by
  have typed := intact.see (h + 14) 2 (by omega)
  rw [checkSumOrDigest]
  split
  · rename_i type
    exact checkSum_passes typed.safe (sums type)
  · rename_i type
    obtain ⟨fits, size, length⟩ := digests (not_not.mp type)
    have summed := typed.see (h + 12) 2 (by omega)
    split
    · exact passes_false summed.safe
    · rename_i sum
      exact checkMd5Digest_passes (summed.see (h + 2) 2 (by omega))
        ⟨size, length, not_not.mp sum⟩ fits

theorem checkAuth_spec {data} (intact : Intact work data) (fits : HeaderFits md5 data h) :
    Intact (ospfCheckAuth oi h work).2 data ∧ ((ospfCheckAuth oi h work).1 = true →
      (number data (h + 14) 2 ≠ cryptographic.code → SumFits data h) ∧
      (number data (h + 14) 2 = cryptographic.code → DigestFits md5 data h ∧
        number data (h + 19) 1 = ospfAuthMd5Size ∧
        number data (h + 2) 2 + ospfAuthSimpleSize ≤ data.length)) := by
  have room := fits.authType
  have typed := intact.see (h + 14) 2 (by omega)
  rw [ospfCheckAuth, intact.same]
  split
  · rename_i null
    refine ⟨typed, fun _ => ⟨fun _ => fits.null null, fun other => ?_⟩⟩
    exact absurd (null.symm.trans other) (by decide)
  split
  · rename_i simple
    have read := typed.see (h + 16) ospfAuthSimpleSize (fits.simple simple).header
    refine ⟨read, fun _ => ⟨fun _ => fits.simple simple, fun other => ?_⟩⟩
    exact absurd (simple.symm.trans other) (by decide)
  split
  · rename_i cryptographic
    have digest := fits.cryptographic cryptographic
    obtain ⟨checked, passed⟩ := checkCrypt_spec oi.authCrypt typed digest.key
    exact ⟨checked, fun passes =>
      ⟨fun other => absurd cryptographic other, fun _ => ⟨digest, passed passes⟩⟩⟩
  · exact ⟨typed, nofun⟩

section
variable (sound : Sound work) (addresses : 20 ≤ work.data.length) (type : h + 2 ≤ work.data.length)
  (fits : number work.data h 1 = 2 → HeaderFits md5 work.data h)
include sound addresses type fits

theorem verifyHeader_passes : Passes h (ospfVerifyHeader md5 oi h work) := by
  have began := sound.intact.see h 1 (by omega)
  rw [ospfVerifyHeader]
  dsimp only
  split
  · exact passes_false began.safe
  · rename_i version
    have header := fits (not_not.mp version)
    have room := header.authType
    have placed := began.see (h + 8) 4 (by omega)
    have sent := placed.see 12 4 (by omega)
    have typed := sent.see (h + 14) 2 (by omega)
    split
    · exact passes_false placed.safe
    split
    · exact passes_false sent.safe
    split
    · exact passes_false typed.safe
    · obtain ⟨checked, passed⟩ := @checkAuth_spec md5 oi h _ _ typed header
      split
      · rename_i after ran
        rw [ran] at checked
        exact passes_false checked.safe
      · rename_i after ran
        rw [ran] at checked passed
        obtain ⟨sums, digests⟩ := passed rfl
        have same := checked.same
        dsimp only at same
        rw [← same] at checked room sums digests
        exact checkSumOrDigest_passes checked room sums digests

theorem verified_sound : Sound (verified md5 ospf oi h work) := by
  obtain ⟨checked, passed⟩ := @verifyHeader_passes md5 oi h work sound addresses type fits
  rw [verified]
  split
  · rename_i after ran
    rw [ran] at checked
    exact checked
  · rename_i after ran
    rw [ran] at checked passed
    obtain ⟨packet, length⟩ := passed rfl
    dsimp only at checked packet length ⊢
    have header := packet.header
    have small := number_lt after.data (h + 2)
    have rest : (number after.data (h + 2) 2 + 65536 - ospfHeaderSize) % 65536 =
        number after.data (h + 2) 2 - ospfHeaderSize := by
      omega
    have measured :
        Sound ((after.see (h + 2) 2).minus (number after.data (h + 2) 2) ospfHeaderSize) := by
      refine safe_minus.mpr ⟨safe_see.mpr ⟨checked, ?_⟩, header⟩
      rw [ospfHeaderSize] at header
      omega
    rw [rest]
    refine handle_sound measured (by omega) ?_ packet.body
    rw [minus_data, see_data]
    omega

end

theorem associateVlink_intact {data} (rcvOi : Interface) (areas : List InAddr)
    (vlinks : List VlData) (intact : Intact work data)
    (room : h + 12 ≤ data.length) : Intact (associateVlink rcvOi areas h vlinks work).2 data := by
  induction vlinks generalizing work with
  | nil => exact intact
  | cons vlData rest ih =>
    rw [associateVlink]
    split
    · have named := intact.see (h + 4) 4 (by omega)
      split
      · exact named
      · exact ih named
    · exact ih intact

theorem associatePacketVl_intact {data} (found : Option Interface) (intact : Intact work data)
    (addresses : 20 ≤ data.length)
    (area : inMulticast (field data 16 4) = false → h + 12 ≤ data.length) :
    Intact (ospfAssociatePacketVl ospf found h work).2 data := by
  have sent := intact.see 16 4 (by omega)
  rw [ospfAssociatePacketVl, intact.same]
  dsimp only
  split
  · exact sent
  · rename_i unicast
    have room := area (eq_false_iff.mpr unicast)
    have placed := sent.see (h + 8) 4 (by omega)
    split
    · exact placed
    · split
      · exact placed
      · rename_i rcvOi _
        have linked := associateVlink_intact rcvOi ospf.areas ospf.vlinks placed room
        split
        · rename_i ran
          rwa [ran] at linked
        · rename_i ran
          rwa [ran] at linked

theorem received_sound (data : List Octet) (fits : Fits md5 data) :
    Sound (received md5 ospf { data := data }) := by
  have addresses := fits.addresses
  have type := fits.type
  have started : Intact _ data := (safe_start data).intact
  have sent := started.see 12 4 (by omega)
  have began := sent.see 0 1 (by omega)
  rw [received]
  dsimp only
  split
  · exact sent.safe
  split
  · exact began.safe
  · have associated := @associatePacketVl_intact ospf (headerEnd data) _ _
      (ospfIfLookupRecvIf ospf (field data 12 4)) began addresses fits.area
    split
    · rename_i after ran
      rw [ran] at associated
      exact associated.safe
    · rename_i oi after ran
      rw [ran] at associated
      have directed := associated.see 16 4 addresses
      split
      · exact directed.safe
      · have typed := directed.see (headerEnd data + 1) 1 (by omega)
        have same := typed.same
        refine verified_sound typed.safe ?_ ?_ ?_
        · rw [same]; exact addresses
        · rw [same]; exact type
        · rw [same]; exact fits.header

end Headers

/-! ### The router that reads on -/

/-- The neighbour finds nothing wrong with the description: it is the next one, and no duplicate. -/
structure Agreeing (nbr : Neighbor) (data : List Octet) (body : Nat) : Prop where
  state : nbr.state = .exchange
  master : isSetDdMs nbr.dd.ddFlags = true
  seqnum : nbr.dd.ddSeqnum = ddSeqnum data body
  options : nbr.dd.options = ddOptions data body
  lastRecv : nbr.dd.lastRecv = (ddFlags data body, ddOptions data body, ddSeqnum data body + 1)

/-- The router finds nothing wrong with the body of a packet. -/
structure Willing (ospf : Receiver) (oi : Interface) (data : List Octet) (h : Nat) : Prop where
  other : field data (h + 4) 4 ≠ ospf.routerId
  active : oi.passive = false
  link : oi.type = .pointopoint
  hello : oi.vHello = number data (h + ospfHeaderSize + 4) 2
  wait : oi.vWait = number data (h + ospfHeaderSize + 8) 4
  options : oi.options = field data (h + ospfHeaderSize + 6) 1
  mtu : oi.mtu = 65535
  nbr : ∃ nbr, ospfNbrLookupByAddr oi (field data 12 4) = some nbr ∧
    Agreeing nbr data (h + ospfHeaderSize)

section Needed
variable {md5 : List Octet → List Octet} {ospf : Receiver} {oi : Interface} {h body size : Nat}
  {work : Workspace}

theorem sound_of_helloAccepted {src} (link : oi.type = .pointopoint)
    (sound : Sound (helloAccepted ospf oi src body size work)) :
    Sound work ∧ ospfHelloMinSize ≤ size := by
  have wide : ∀ asks, ¬ (oi.type = .nbma ∧ asks) := by
    rintro asks ⟨nbma, -⟩
    rw [link] at nbma
    cases nbma
  rw [helloAccepted] at sound
  dsimp only at sound
  rw [if_neg (wide _), if_neg (wide _)] at sound
  split at sound
  · rename_i after ran
    have listed :
        Sound (ospfNbrBidirectional ospf.routerId
        (body + ospfHelloMinSize) ((size - ospfHelloMinSize) / 4)
        (work.minus size ospfHelloMinSize)).2 := by
      rw [ran]
      exact (sound_helloStore.mp sound).1.of_see
    exact safe_minus.mp (sound_of_bidirectional _ _ listed)
  · rename_i after ran
    have listed :
        Sound (ospfNbrBidirectional ospf.routerId
        (body + ospfHelloMinSize) ((size - ospfHelloMinSize) / 4)
        (work.minus size ospfHelloMinSize)).2 := by
      rw [ran]
      exact (sound_helloStore.mp sound).1
    exact safe_minus.mp (sound_of_bidirectional _ _ listed)

theorem sound_of_dbDescExchange {nbr} (agreeing : Agreeing nbr work.data body)
    (sound : Sound (dbDescExchange oi nbr body size work)) :
    (Sound work ∧ body + 8 ≤ work.data.length) ∧
      (isSetDdI (ddFlags work.data body) = false → ospfDbDescMinSize ≤ size) := by
  have differ : ddSeqnum work.data body ≠ ddSeqnum work.data body + 1 := by
    intro same
    have zero : (0 : BitVec 32) = 1 := (BitVec.add_right_inj (ddSeqnum work.data body)).mp
      (same.symm.trans (BitVec.add_zero _).symm).symm
    exact nomatch zero
  have compared : ospfDbDescIsDup nbr body work =
      (false, ((work.see (body + 2) 1).see (body + 3) 1).see (body + 4) 4) := by
    rw [ospfDbDescIsDup, agreeing.lastRecv]
    rw [if_neg (not_not.mpr rfl), if_neg (not_not.mpr rfl), decide_eq_false differ]
  have backward : ∀ {after}, Sound (after.see (body + 3) 1) →
      Sound after := fun seen => seen.of_see
  rw [dbDescExchange, compared] at sound
  dsimp only at sound
  rw [agreeing.lastRecv, if_neg (not_not.mpr rfl)] at sound
  have numbered : Sound (((work.see (body + 2) 1).see (body + 3) 1).see (body + 4) 4) ∧
      (isSetDdI (ddFlags work.data body) = false → ospfDbDescMinSize ≤ size) := by
    split at sound
    · rename_i initial
      exact ⟨backward sound, fun clear => absurd initial (eq_false_iff.mp clear)⟩
    · have expected : ddSeqnum work.data body = expectedSeqnum nbr := by
        rw [expectedSeqnum, if_pos agreeing.master, agreeing.seqnum]
      rw [if_neg (not_not.mpr agreeing.options.symm), if_neg (not_not.mpr expected)] at sound
      obtain ⟨processed, whole⟩ := sound_of_dbDescProc sound
      exact ⟨backward processed.of_see.of_see, fun _ => whole⟩
  have read := safe_see.mp numbered.1
  exact ⟨⟨read.1.of_see.of_see, read.2⟩, numbered.2⟩

section
variable (willing : Willing ospf oi work.data h)
include willing

theorem hello_needed (sound : Sound (ospfHello ospf oi (field work.data 12 4) h size work)) :
    Sound work ∧ HelloFits work.data (h + ospfHeaderSize) size := by
  rw [ospfHello] at sound
  rw [if_neg willing.other, willing.active, if_neg nofun,
    if_neg (fun wrong => wrong.1 willing.link), if_neg (not_not.mpr willing.hello),
    if_neg (not_not.mpr willing.wait)] at sound
  have reached :
      Sound (((((work.see (h + 4) 4).see (h + ospfHeaderSize) 4).see (h + ospfHeaderSize + 4) 2).see
      (h + ospfHeaderSize + 8) 4).see (h + ospfHeaderSize + 6) 1) ∧
      (field work.data (h + ospfHeaderSize + 6) 1 &&& ospfOptionT = 0 →
        ospfHelloMinSize ≤ size) := by
    split at sound
    · rename_i set
      exact ⟨sound, fun clear => absurd clear set⟩
    · rw [if_neg (by rw [willing.options]; exact fun differ => differ rfl)] at sound
      have accepted := sound_of_helloAccepted willing.link sound
      exact ⟨accepted.1, fun _ => accepted.2⟩
  have waited := reached.1.of_see
  have timed := safe_see.mp waited
  exact ⟨timed.1.of_see.of_see.of_see, timed.2, reached.2⟩

theorem dbDesc_needed (sound : Sound (ospfDbDesc ospf oi (field work.data 12 4) h size work)) :
    Sound work ∧ DbDescFits work.data (h + ospfHeaderSize) size := by
  obtain ⟨nbr, known, agreeing⟩ := willing.nbr
  have small : ¬ oi.mtu < number work.data (h + ospfHeaderSize) 2 := by
    rw [willing.mtu]
    have bound := number_lt work.data (h + ospfHeaderSize)
    omega
  rw [ospfDbDesc] at sound
  rw [known] at sound
  dsimp only at sound
  rw [if_neg small, agreeing.state] at sound
  have reached : Sound ((work.see (h + ospfHeaderSize) 2).see (h + ospfHeaderSize + 2) 1) ∧
      (ddOptions work.data (h + ospfHeaderSize) &&& ospfOptionT = 0 →
        h + ospfHeaderSize + 8 ≤ work.data.length ∧
        (isSetDdI (ddFlags work.data (h + ospfHeaderSize)) = false →
          ospfDbDescMinSize ≤ size)) := by
    split at sound
    · rename_i set
      exact ⟨sound, fun clear => absurd clear set⟩
    · obtain ⟨compared, processed⟩ := @sound_of_dbDescExchange oi _ size
        ((work.see (h + ospfHeaderSize) 2).see (h + ospfHeaderSize + 2) 1) nbr agreeing sound
      exact ⟨compared.1, fun _ => ⟨compared.2, processed⟩⟩
  have opted := safe_see.mp reached.1
  exact ⟨opted.1.of_see, opted.2, fun clear => (reached.2 clear).1,
    fun clear => (reached.2 clear).2⟩

theorem lsUpd_back (sound : Sound (ospfLsUpd oi (field work.data 12 4) h size work)) :
    Sound (ospfLsUpdListLsa (h + ospfHeaderSize) size work) := by
  obtain ⟨nbr, known, agreeing⟩ := willing.nbr
  rw [ospfLsUpd, known] at sound
  dsimp only at sound
  rw [agreeing.state] at sound
  exact sound

theorem handle_back (sound : Sound (handle ospf oi (field work.data 12 4) h size work)) :
    Sound work := by
  have typed : Sound (work.see (h + 1) 1) := by
    rw [handle] at sound
    split at sound
    · exact (@hello_needed ospf oi h size (work.see (h + 1) 1) willing sound).1
    split at sound
    · exact (@dbDesc_needed ospf oi h size (work.see (h + 1) 1) willing sound).1
    split at sound
    · rw [ospfLsReq] at sound
      split at sound
      · exact sound
      · split at sound
        · exact sound
        · exact sound_of_lsReqEntries _ _ sound
    split at sound
    · have counted := safe_minus.mp
        (sound_of_updLsas _ _ _ _ (@lsUpd_back ospf oi h size (work.see (h + 1) 1) willing sound))
      exact counted.1.of_see
    split at sound
    · rw [ospfLsAck] at sound
      split at sound
      · exact sound
      · split at sound
        · exact sound
        · exact sound_of_lsAckHeaders _ _ sound
    · exact sound
  exact typed.of_see

theorem handle_needed (small : size < 65536) (fits : h + ospfHeaderSize + size ≤ work.data.length)
    (sound : Sound (handle ospf oi (field work.data 12 4) h size work)) :
    BodyFits work.data h size := by
  rw [handle] at sound
  refine ⟨fun type => ?_, fun type => ?_, fun type => ?_⟩
  · rw [if_pos type] at sound
    exact (@hello_needed ospf oi h size (work.see (h + 1) 1) willing sound).2
  · rw [if_neg (by rw [type]; decide), if_pos type] at sound
    exact (@dbDesc_needed ospf oi h size (work.see (h + 1) 1) willing sound).2
  · rw [if_neg (by rw [type]; decide), if_neg (by rw [type]; decide), if_neg (by rw [type]; decide),
      if_pos type] at sound
    have listed := @lsUpd_back ospf oi h size (work.see (h + 1) 1) willing sound
    exact ((@sound_lsUpdListLsa _ size (work.see (h + 1) 1) small fits).mp listed).2

end

theorem verified_needed (willing : (ospfVerifyHeader md5 oi h work).1 = true →
      Willing ospf oi (ospfVerifyHeader md5 oi h work).2.data h)
    (sound : Sound (verified md5 ospf oi h work)) : Sound (ospfVerifyHeader md5 oi h work).2 ∧
      ((ospfVerifyHeader md5 oi h work).1 = true →
        h + number (ospfVerifyHeader md5 oi h work).2.data (h + 2) 2 ≤
          (ospfVerifyHeader md5 oi h work).2.data.length →
        PacketFits (ospfVerifyHeader md5 oi h work).2.data h) := by
  rw [verified] at sound
  split at sound
  · rename_i after ran
    rw [ran]
    exact ⟨sound, fun passed => nomatch passed⟩
  · rename_i after ran
    rw [ran] at willing ⊢
    dsimp only at willing sound ⊢
    have measured := @handle_back ospf oi h _
      ((after.see (h + 2) 2).minus (number after.data (h + 2) 2) ospfHeaderSize) (willing rfl) sound
    have enough := (safe_minus.mp measured).2
    have small := number_lt after.data (h + 2)
    have rest : (number after.data (h + 2) 2 + 65536 - ospfHeaderSize) % 65536 =
        number after.data (h + 2) 2 - ospfHeaderSize := by
      rw [ospfHeaderSize] at enough ⊢
      omega
    refine ⟨(safe_minus.mp measured).1.of_see, fun _ fits => ⟨enough, ?_⟩⟩
    rw [rest] at sound
    refine @handle_needed ospf oi h _
      ((after.see (h + 2) 2).minus (number after.data (h + 2) 2) ospfHeaderSize)
      (willing rfl) (by omega) ?_ sound
    rw [minus_data, see_data]
    omega

end Needed

/-- The router finds nothing wrong with the header of a packet, whose digest it checks with a
  key. -/
structure Admitting (oi : Interface) (data : List Octet) (h : Nat) (ck : CryptKey) : Prop where
  area : field data (h + 8) 4 = oi.areaId
  link : oi.type = .pointopoint
  authType : number data (h + 14) 2 ≤ 2 → number data (h + 14) 2 = (ospfAuthType oi).code
  authSimple : oi.authSimple.toList = slice data (h + 16) ospfAuthSimpleSize
  authCrypt : oi.authCrypt = [ck]
  keyId : field data (h + 18) 1 = ck.keyId
  nbr : ∃ nbr, ospfNbrLookupByRouterid oi (field data (h + 4) 4) = some nbr ∧ nbr.cryptSeqnum = 0

section Admitted
variable {md5 : List Octet → List Octet} {oi : Interface} {h : Nat} {ck : CryptKey}
  {work : Workspace}

/-- Up to the authentication type the header is read. -/
def begun (work : Workspace) (h : Nat) : Workspace :=
  (((work.see h 1).see (h + 8) 4).see 12 4).see (h + 14) 2

theorem sound_begun (sound : Sound (begun work h)) : Sound work ∧ h + 16 ≤ work.data.length := by
  have typed := safe_see.mp sound
  exact ⟨typed.1.of_see.of_see.of_see, typed.2⟩

theorem checkMd5Digest_reached {before} (admitting : Admitting oi before.data h ck) :
    ospfCheckMd5Digest md5 oi h (number before.data (h + 2) 2) before =
      compareDigest md5 h (number before.data (h + 2) 2) ck
        (((before.see (h + 18) 1).see (h + 4) 4).see (h + 20) 4) := by
  obtain ⟨nbr, known, fresh⟩ := admitting.nbr
  have key : ospfCryptKeyLookup oi (field before.data (h + 18) 1) = some ck := by
    rw [ospfCryptKeyLookup, admitting.authCrypt, admitting.keyId]
    exact List.find?_cons_of_pos (decide_eq_true rfl)
  have newer : ¬ number before.data (h + 20) 4 < nbr.cryptSeqnum.toNat := by
    rw [fresh]
    exact not_lt_zero _
  rw [ospfCheckMd5Digest]
  dsimp only
  rw [key]
  dsimp only
  rw [known]
  dsimp only
  rw [if_neg newer]

section
variable (admitting : Admitting oi work.data h ck)
include admitting

theorem verifyHeader_begun (version : number work.data h 1 = 2) :
    ospfVerifyHeader md5 oi h work =
      if number work.data (h + 14) 2 ≠ (ospfAuthType oi).code then (false, begun work h)
      else match ospfCheckAuth oi h (begun work h) with
        | (false, work) => (false, work)
        | (true, work) => checkSumOrDigest md5 oi h work := by
  have masked : (!ospfCheckNetworkMask oi (field work.data 12 4)) = false := by
    rw [ospfCheckNetworkMask, admitting.link]
    rfl
  rw [ospfVerifyHeader]
  dsimp only
  rw [if_neg (not_not.mpr version), if_neg (not_not.mpr admitting.area), masked]
  rfl

theorem verifyHeader_sum (version : number work.data h 1 = 2)
    (type : number work.data (h + 14) 2 = null.code ∨ number work.data (h + 14) 2 = simple.code) :
    ∃ before, ospfVerifyHeader md5 oi h work = ospfCheckSum h before ∧ before.data = work.data ∧
      (Sound before → Sound work) := by
  have small : number work.data (h + 14) 2 ≤ 2 := by
    rcases type with null | simple
    · rw [null]; decide
    · rw [simple]; decide
  rw [verifyHeader_begun admitting version, if_neg (not_not.mpr (admitting.authType small))]
  have summed : ∀ {before}, before.data = work.data →
      checkSumOrDigest md5 oi h before = ospfCheckSum h (before.see (h + 14) 2) := by
    intro before same
    rw [checkSumOrDigest]
    dsimp only
    rw [same, if_pos]
    rcases type with null | simple
    · rw [null]; decide
    · rw [simple]; decide
  rcases type with null | simple
  · have passed : ospfCheckAuth oi h (begun work h) = (true, (begun work h).see (h + 14) 2) := by
      rw [ospfCheckAuth]
      exact if_pos null
    rw [passed]
    dsimp only
    rw [@summed ((begun work h).see (h + 14) 2) rfl]
    exact ⟨_, rfl, rfl, fun sound => (sound_begun sound.of_see.of_see).1⟩
  · have passed : ospfCheckAuth oi h (begun work h) =
        (true, ((begun work h).see (h + 14) 2).see (h + 16) ospfAuthSimpleSize) := by
      have other : number (begun work h).data (h + 14) 2 ≠ null.code := by
        intro null
        exact absurd (null.symm.trans simple) (by decide)
      rw [ospfCheckAuth]
      dsimp only
      rw [if_neg other]
      refine (if_pos simple).trans ?_
      rw [decide_eq_true
        (show oi.authSimple.toList = slice (begun work h).data (h + 16) ospfAuthSimpleSize from
        admitting.authSimple)]
    rw [passed]
    dsimp only
    rw [@summed (((begun work h).see (h + 14) 2).see (h + 16) ospfAuthSimpleSize) rfl]
    exact ⟨_, rfl, rfl, fun sound => (sound_begun sound.of_see.of_see.of_see).1⟩

theorem checkAuth_digest (type : number work.data (h + 14) 2 = cryptographic.code) :
    ∃ after, ospfCheckAuth oi h (begun work h) =
        (decide (number work.data (h + 19) 1 = ospfAuthMd5Size ∧
          number work.data (h + 2) 2 + ospfAuthSimpleSize ≤ work.data.length), after) ∧
      after.data = work.data ∧ (Sound after → Sound work ∧ h + 20 ≤ work.data.length) := by
  have first : ospfCheckAuth oi h (begun work h) = checkCrypt h [ck]
      ((begun work h).see (h + 14) 2) := by
    rw [ospfCheckAuth]
    dsimp only
    rw [if_neg, if_neg, if_pos, admitting.authCrypt]
    · exact type
    · intro simple
      exact absurd (simple.symm.trans type) (by decide)
    · intro null
      exact absurd (null.symm.trans type) (by decide)
  have sized : Sound (((begun work h).see (h + 14) 2).see (h + 19) 1) →
      Sound work ∧ h + 20 ≤ work.data.length := by
    intro sound
    have seen := safe_see.mp sound
    exact ⟨(sound_begun seen.1.of_see).1, seen.2⟩
  rw [first, checkCrypt]
  dsimp only
  by_cases size : number work.data (h + 19) 1 = ospfAuthMd5Size
  · rw [if_pos
      (show number ((begun work h).see (h + 14) 2).data (h + 19) 1 = ospfAuthMd5Size from size),
      if_pos (show field ((begun work h).see (h + 14) 2).data (h + 18) 1 = ck.keyId from
        admitting.keyId)]
    have back : ∀ {before}, Sound (((before).see (h + 18) 1).see (h + 2) 2) → Sound before :=
      fun sound => sound.of_see.of_see
    by_cases length : number work.data (h + 2) 2 + ospfAuthSimpleSize ≤ work.data.length
    · rw [decide_eq_true ⟨size, length⟩]
      refine ⟨_, if_pos length, rfl, fun sound => sized (back sound)⟩
    · rw [decide_eq_false fun both => length both.2]
      refine ⟨_, if_neg length, rfl, fun sound => sized (back sound)⟩
  · rw [if_neg
      (show ¬ number ((begun work h).see (h + 14) 2).data (h + 19) 1 = ospfAuthMd5Size from size),
      decide_eq_false fun both => size both.1]
    exact ⟨_, rfl, rfl, sized⟩

theorem verifyHeader_digest (version : number work.data h 1 = 2)
    (type : number work.data (h + 14) 2 = cryptographic.code) :
    (Sound (ospfVerifyHeader md5 oi h work).2 → Sound work ∧ h + 20 ≤ work.data.length) ∧
    (Digested work.data h → ∃ before,
      ospfVerifyHeader md5 oi h work = compareDigest md5 h (number work.data (h + 2) 2) ck before ∧
      before.data = work.data ∧ (Sound before → h + ospfHeaderSize ≤ work.data.length)) ∧
    (¬ Digested work.data h → (ospfVerifyHeader md5 oi h work).1 = false) := by
  obtain ⟨after, ran, same, needed⟩ := checkAuth_digest admitting type
  have small : number work.data (h + 14) 2 ≤ 2 := by rw [type]; decide
  rw [verifyHeader_begun admitting version, if_neg (not_not.mpr (admitting.authType small)), ran]
  by_cases passes : number work.data (h + 19) 1 = ospfAuthMd5Size ∧
      number work.data (h + 2) 2 + ospfAuthSimpleSize ≤ work.data.length
  · rw [decide_eq_true passes]
    dsimp only
    have typed : number after.data (h + 14) 2 = cryptographic.code := by rw [same]; exact type
    rw [checkSumOrDigest]
    dsimp only
    rw [if_neg (not_not.mpr typed), same]
    by_cases sum : field work.data (h + 12) 2 = 0
    · have admitted :
          Admitting oi (((after.see (h + 14) 2).see (h + 12) 2).see (h + 2) 2).data h ck := by
        rw [see_data, see_data, see_data, same]
        exact admitting
      have reached := @checkMd5Digest_reached md5 oi h ck _ admitted
      rw [see_data, see_data, see_data, same] at reached
      rw [if_neg (not_not.mpr sum), reached]
      have back : ∀ {before}, Sound ((((((before.see (h + 14) 2).see (h + 12) 2).see (h + 2) 2).see
          (h + 18) 1).see (h + 4) 4).see (h + 20) 4) →
            Sound before ∧ h + ospfHeaderSize ≤ before.data.length := by
        intro before sound
        simp only [Sound, safe_see, see_data] at sound
        exact ⟨sound.1.1.1.1.1.1, sound.2⟩
      refine ⟨fun sound => ?_, fun _ => ⟨_, rfl, same, fun sound => ?_⟩,
        fun not => absurd ⟨passes.1, passes.2, sum⟩ not⟩
      · exact needed (back sound.of_see.of_see).1
      · rw [← same]
        exact (back sound).2
    · rw [if_pos sum]
      refine ⟨fun sound => needed sound.of_see.of_see, fun digested => absurd digested.sum sum,
        fun _ => rfl⟩
  · rw [decide_eq_false passes]
    exact ⟨needed, fun digested => absurd ⟨digested.size, digested.length⟩ passes, fun _ => rfl⟩

end

theorem checkSum_data (h : Nat) (before : Workspace) :
    (ospfCheckSum h before).2.data = cleared before.data h := rfl

theorem checkSum_fst {before} : (ospfCheckSum h before).1 = true ↔ sumMatches before.data h := by
  have same : field (overwrite before.data (h + 16) (List.replicate 8 0))
      (h + 12) 2 = field before.data (h + 12) 2 :=
    field_overwrite (.inl (by omega))
  simp only [ospfCheckSum, put_data, see_data, same, decide_eq_true_eq]
  rfl

theorem checkSum_needed {before} (sound : Sound (ospfCheckSum h before).2) :
    Sound before ∧ h + ospfHeaderSize ≤ before.data.length ∧
      h + number (cleared before.data h) (h + 2) 2 ≤ before.data.length := by
  simp only [ospfCheckSum, Sound, safe_put, safe_see, put_data, see_data, length_overwrite,
    List.length_replicate, List.length_cons, List.length_nil] at sound
  exact ⟨sound.1.1.1.1.1, sound.1.1.1.1.2, sound.2⟩

end Admitted

/-! ### One router for a packet -/

section
variable (data packet : List Octet) (h : Nat)

/-- A neighbour that goes on with the body of a packet. -/
def willingNbr : Neighbor :=
  let body := h + ospfHeaderSize
  { src := field packet 12 4
    routerId := field data (h + 4) 4
    state := .exchange
    twoWay := .exStart
    cryptSeqnum := 0
    dd :=
      { ddFlags := ospfDdFlagMs
        ddSeqnum := ddSeqnum packet body
        options := ddOptions packet body
        lastRecv := (ddFlags packet body, ddOptions packet body, ddSeqnum packet body + 1) }
    retransmits := fun _ _ _ => false }

/-- An interface that goes on with a packet; `packet` is what the packet is when its body is
  read. -/
def willingInterface (key : Vector Octet 16) : Interface :=
  let body := h + ospfHeaderSize
  let authType := number data (h + 14) 2
  { ifp := 0
    type := .pointopoint
    address := ~~~ field data 12 4
    prefixlen := 32
    destination := field data 12 4
    designated := true
    areaId := field data (h + 8) 4
    externalRouting := .default
    authType := if authType = 0 then .null else if authType = 1 then .simple else .cryptographic
    authSimple := ⟨(slice data (h + 16) 8).toArray, length_slice ..⟩
    authCrypt := [⟨field data (h + 18) 1, key⟩]
    passive := false
    vHello := number packet (body + 4) 2
    vWait := number packet (body + 8) 4
    options := field packet (body + 6) 1
    priority := 1
    mtu := 65535
    nbrs := [willingNbr data packet h]
    lsdb := fun _ _ _ => false }

def willingReceiver (key : Vector Octet 16) : Receiver where
  routerId := ~~~ field packet (h + 4) 4
  oiflist := [willingInterface data packet h key]
  areas := []
  vlinks := []
  ifp := none

end

section One
variable {md5 : List Octet → List Octet} {data packet : List Octet} {h : Nat}
  {key : Vector Octet 16}

theorem ne_not (value : InAddr) : value ≠ ~~~ value := by
  intro same
  have bit := congrArg (getLsbD · 0) same
  simp at bit

theorem willing_router (data packet : List Octet) (h : Nat) (key : Vector Octet 16) :
    Willing (willingReceiver data packet h key) (willingInterface data packet h key) packet h where
  other := ne_not _
  active := rfl
  link := rfl
  hello := rfl
  wait := rfl
  options := rfl
  mtu := rfl
  nbr := ⟨willingNbr data packet h, List.find?_cons_of_pos (decide_eq_true rfl), rfl,
    show isSetDdMs ospfDdFlagMs = true by decide, rfl, rfl, rfl⟩

theorem admitting_router (data packet : List Octet) (h : Nat) (key : Vector Octet 16) :
    Admitting (willingInterface data packet h key) data h ⟨field data (h + 18) 1, key⟩ where
  area := rfl
  link := rfl
  authType := by
    intro small
    have kind : ospfAuthType (willingInterface data packet h key) =
        (willingInterface data packet h key).authType :=
      if_neg fun both => nomatch both.2
    rw [kind]
    dsimp only [willingInterface]
    split
    · rename_i null
      exact null
    · split
      · rename_i simple
        exact simple
      · rw [AuthType.code]
        omega
  authSimple := rfl
  authCrypt := rfl
  keyId := rfl
  nbr := ⟨willingNbr data packet h, List.find?_cons_of_pos (decide_eq_true rfl), rfl⟩

theorem verifyHeader_back {oi ck work} (admitting : Admitting oi work.data h ck)
    (sound : Sound (ospfVerifyHeader md5 oi h work).2) :
    Sound work ∧ (number work.data h 1 = 2 → h + 16 ≤ work.data.length) := by
  by_cases version : number work.data h 1 = 2
  · by_cases type : number work.data (h + 14) 2 = (ospfAuthType oi).code
    · cases kind : ospfAuthType oi with
      | cryptographic =>
        rw [kind] at type
        have needed := (verifyHeader_digest admitting version type).1 sound
        exact ⟨needed.1, fun _ => by omega⟩
      | _ =>
        rw [kind] at type
        obtain ⟨before, ran, same, back⟩ :=
          @verifyHeader_sum md5 oi h ck work admitting version (by rw [type]; decide)
        rw [ran] at sound
        obtain ⟨summed, header, -⟩ := checkSum_needed sound
        rw [same, ospfHeaderSize] at header
        exact ⟨back summed, fun _ => by omega⟩
    · rw [verifyHeader_begun admitting version, if_pos type] at sound
      exact ⟨(sound_begun sound).1, fun _ => (sound_begun sound).2⟩
  · rw [ospfVerifyHeader] at sound
    dsimp only at sound
    rw [if_pos version] at sound
    exact ⟨sound.of_see, fun same => absurd same version⟩

theorem associate_reached {ospf oi work} (vlinks : ospf.vlinks = []) :
    ∃ after, ospfAssociatePacketVl ospf (some oi) h work = (some oi, after) ∧
      after.data = work.data ∧
      (Sound after → 20 ≤ work.data.length ∧
        (inMulticast (field work.data 16 4) = false → h + 12 ≤ work.data.length)) := by
  rw [ospfAssociatePacketVl]
  dsimp only
  split
  · rename_i multicast
    refine ⟨_, rfl, rfl, fun sound => ⟨(safe_see.mp sound).2, fun unicast => ?_⟩⟩
    exact absurd multicast (eq_false_iff.mp unicast)
  · have placed : Sound ((work.see 16 4).see (h + 8) 4) →
        20 ≤ work.data.length ∧
          (inMulticast (field work.data 16 4) = false → h + 12 ≤ work.data.length) := by
      intro sound
      exact ⟨(safe_see.mp sound.of_see).2, fun _ => (safe_see.mp sound).2⟩
    split
    · exact ⟨_, rfl, rfl, placed⟩
    · rw [vlinks]
      exact ⟨_, rfl, rfl, placed⟩

theorem received_reached (key : Vector Octet 16) :
    ∃ work, received md5 (willingReceiver data packet (headerEnd data) key) { data := data } =
        verified md5 (willingReceiver data packet (headerEnd data) key)
          (willingInterface data packet (headerEnd data) key) (headerEnd data) work ∧
      work.data = data ∧ (Sound work → 20 ≤ data.length ∧
        (inMulticast (field data 16 4) = false → headerEnd data + 12 ≤ data.length) ∧
          headerEnd data + 2 ≤ data.length) := by
  have own :
      (ospfIfLookupByLocalAddr (willingReceiver data packet (headerEnd data) key) none
      (field data 12 4)).isSome =
      false := by
    have other : decide
        (field data 12 4 = (willingInterface data packet (headerEnd data) key).address) = false :=
      decide_eq_false (ne_not _)
    rw [ospfIfLookupByLocalAddr, willingReceiver, List.find?_cons_of_neg]
    · rfl
    · rw [other]
      exact nofun
  have found : ospfIfLookupRecvIf (willingReceiver data packet (headerEnd data) key)
      (field data 12 4) =
      some (willingInterface data packet (headerEnd data) key) := by
    rw [ospfIfLookupRecvIf, willingReceiver, recvIf, if_neg (fun wrong => nomatch wrong)]
    exact (if_pos rfl).trans (if_pos rfl)
  obtain ⟨after, ran, same, needed⟩ := @associate_reached (headerEnd data)
    (willingReceiver data packet (headerEnd data) key)
      (willingInterface data packet (headerEnd data) key)
    (((Workspace.mk data [] false []).see 12 4).see 0 1) rfl
  rw [received]
  dsimp only
  rw [own, if_neg nofun, found, if_neg, ran]
  · dsimp only
    rw [if_neg fun dropped => nomatch dropped.2]
    refine ⟨_, rfl, same, fun sound => ?_⟩
    have typed := safe_see.mp sound
    obtain ⟨addresses, area⟩ := needed typed.1.of_see
    refine ⟨addresses, area, ?_⟩
    have room := typed.2
    rw [see_data, same] at room
    exact room
  · exact nofun

/-- What a packet is when its body is read. -/
def bodyOf (data : List Octet) (h : Nat) : List Octet :=
  if number data (h + 14) 2 = AuthType.cryptographic.code then data else cleared data h

theorem verifyHeader_body {oi ck work} (admitting : Admitting oi work.data h ck)
    (passed : (ospfVerifyHeader md5 oi h work).1 = true) :
    (ospfVerifyHeader md5 oi h work).2.data = bodyOf work.data h := by
  by_cases version : number work.data h 1 = 2
  · by_cases type : number work.data (h + 14) 2 = (ospfAuthType oi).code
    · rw [bodyOf]
      cases kind : ospfAuthType oi with
      | cryptographic =>
        rw [kind] at type
        obtain ⟨-, digested, other⟩ := @verifyHeader_digest md5 oi h ck work admitting version type
        by_cases both : Digested work.data h
        · obtain ⟨before, ran, same, -⟩ := digested both
          rw [ran, if_pos type]
          exact same
        · rw [other both] at passed
          cases passed
      | _ =>
        rw [kind] at type
        obtain ⟨before, ran, same, -⟩ :=
          @verifyHeader_sum md5 oi h ck work admitting version (by rw [type]; decide)
        rw [ran, checkSum_data, same, type, if_neg (by decide)]
    · rw [verifyHeader_begun admitting version, if_pos type] at passed
      cases passed
  · rw [ospfVerifyHeader] at passed
    dsimp only at passed
    rw [if_pos version] at passed
    cases passed

/-- What a router that reads on has read safely. -/
structure ReadOn (md5 : List Octet → List Octet) (h : Nat) (key : Vector Octet 16)
    (work : Workspace) : Prop where
  addresses : 20 ≤ work.data.length
  area : inMulticast (field work.data 16 4) = false → h + 12 ≤ work.data.length
  type : h + 2 ≤ work.data.length
  authType : number work.data h 1 = 2 → h + 16 ≤ work.data.length
  header : Sound
    (ospfVerifyHeader md5 (willingInterface work.data (bodyOf work.data h) h key) h work).2
  packet : (ospfVerifyHeader md5 (willingInterface work.data (bodyOf work.data h) h key) h work).1 =
    true →
    h + number (bodyOf work.data h) (h + 2) 2 ≤ work.data.length → PacketFits (bodyOf work.data h) h

@[simp] theorem length_bodyOf (data : List Octet) (h : Nat) :
    (bodyOf data h).length = data.length := by
  rw [bodyOf]
  split
  · rfl
  · rw [cleared, length_overwrite, length_overwrite]

theorem readOn (key : Vector Octet 16) (safe : ∀ ospf, Sound (received md5 ospf { data := data })) :
    ∃ work, work.data = data ∧ ReadOn md5 (headerEnd data) key work := by
  obtain ⟨work, ran, same, needed⟩ := @received_reached md5 data (bodyOf data (headerEnd data)) key
  have sound := safe (willingReceiver data (bodyOf data (headerEnd data)) (headerEnd data) key)
  rw [ran] at sound
  refine ⟨work, same, ?_⟩
  generalize headerEnd data = h at ran sound needed ⊢
  subst same
  have admitting := admitting_router work.data (bodyOf work.data h) h key
  have body := @verifyHeader_body md5 h _ _ work admitting
  obtain ⟨checked, packet⟩ := @verified_needed md5 _ _ h work (fun passed => by
    rw [body passed]
    exact willing_router ..) sound
  obtain ⟨back, authType⟩ := verifyHeader_back admitting checked
  obtain ⟨addresses, area, type⟩ := needed back
  refine ⟨addresses, area, type, authType, checked, fun passed fits => ?_⟩
  have whole := packet passed
  rw [body passed, length_bodyOf] at whole
  exact whole fits

theorem ReadOn.sumFits {work} (read : ReadOn md5 h key work) (version : number work.data h 1 = 2)
    (type : number work.data (h + 14) 2 = null.code ∨ number work.data (h + 14) 2 = simple.code) :
    SumFits work.data h := by
  have body : bodyOf work.data h = cleared work.data h := by
    rw [bodyOf, if_neg]
    rcases type with null | simple
    · rw [null]; decide
    · rw [simple]; decide
  obtain ⟨before, ran, same, -⟩ := @verifyHeader_sum md5 _ h _ work
    (admitting_router work.data (bodyOf work.data h) h key) version type
  have sound := read.header
  have packet := read.packet
  rw [ran] at sound packet
  obtain ⟨-, header, length⟩ := checkSum_needed sound
  rw [checkSum_fst, same, body] at packet
  rw [same] at header length
  exact ⟨header, length, fun right => packet right length⟩

theorem ReadOn.digested {work} (read : ReadOn md5 h key work) (version : number work.data h 1 = 2)
    (type : number work.data (h + 14) 2 = cryptographic.code) :
    h + 20 ≤ work.data.length ∧ (Digested work.data h → h + ospfHeaderSize ≤ work.data.length ∧
      h + number work.data (h + 2) 2 + ospfAuthMd5Size ≤ work.data.length ∧
      (digestMatches md5 work.data h (number work.data (h + 2) 2)
        ⟨field work.data (h + 18) 1, key⟩ = true →
        PacketFits work.data h)) := by
  obtain ⟨needed, reached, -⟩ := @verifyHeader_digest md5 _ h _ work
    (admitting_router work.data (bodyOf work.data h) h key) version type
  refine ⟨(needed read.header).2, fun digested => ?_⟩
  obtain ⟨before, ran, same, header⟩ := reached digested
  have sound := read.header
  have packet := read.packet
  rw [ran, compareDigest] at sound packet
  rw [bodyOf, if_pos type] at packet
  dsimp only at sound packet
  rw [same] at packet
  have compared := safe_see.mp sound
  have length : h + number work.data (h + 2) 2 + ospfAuthMd5Size ≤ work.data.length := by
    have right := compared.2
    rw [see_data, same] at right
    exact right
  exact ⟨header compared.1.of_see, length, fun right => packet right (by omega)⟩

theorem fits_of_received (safe : ∀ ospf, Sound (received md5 ospf { data := data })) :
    Fits md5 data := by
  have read :=  fun key => readOn key safe
  obtain ⟨work, same, first⟩ := read (Vector.replicate 16 0)
  have addresses := first.addresses
  have type := first.type
  have area := first.area
  have authType := first.authType
  have sums := first.sumFits
  have digests := first.digested
  rw [same] at addresses type area authType sums digests
  refine ⟨addresses, type, area, fun version =>
    ⟨authType version, fun null => sums version (.inl null),
    fun simple => sums version (.inr simple), fun cryptographic => ?_⟩⟩
  obtain ⟨room, digested⟩ := digests version cryptographic
  refine ⟨room, fun both => (digested both).1, fun both => (digested both).2.1,
    fun both ck right => ?_⟩
  obtain ⟨other, same, again⟩ := read ck.authKey
  have packet := again.digested
  rw [same] at packet
  exact ((packet version cryptographic).2 both).2.2 right

end One

/-- A datagram is received inside its octets by every router exactly when the packet it holds
  fits. -/
theorem ospf_read_inside (md5 : List Octet → List Octet) (datagram : List Octet) :
    (∀ ospf, Safe ospfLsaHeaderSize (ospfRead md5 ospf datagram)) ↔
      ∀ data, ospfRecvPacket datagram = some data → Fits md5 data := by
  constructor
  · intro safe data taken
    apply fits_of_received
    intro ospf
    have sound := safe ospf
    rw [ospfRead, taken] at sound
    exact sound
  · intro fits ospf
    rw [ospfRead]
    split
    · exact safe_start []
    · rename_i data taken
      exact received_sound data (fits data taken)

/-! Datagrams of 10.0.0.2 to 224.0.0.5 without authentication. -/

def samplePacket (type length : Octet) (body : List Octet) : List Octet :=
  let ospfh (sum : List Octet) :=
    [2, type, 0, length, 10, 0, 0, 2, 0, 0, 0, 0] ++ sum ++ [0, 0] ++ List.replicate 8 0
  ospfh (toOctets 2 (inCksum (ospfh [0, 0] ++ body)).toNat) ++ body

def sampleDatagram (packet : List Octet) : List Octet :=
  [0x45, 0, 0, BitVec.ofNat 8 (20 + packet.length), 0, 0, 0, 0, 1, 89, 0, 0, 10, 0, 0, 2, 224, 0, 0,
    5] ++ packet

/-- A Hello of 44 octets that says it has 200. -/
def longHello : List Octet :=
  sampleDatagram
    (samplePacket 1 200 [255, 255, 255, 0, 0, 10, 2, 1, 0, 0, 0, 40, 0, 0, 0, 0, 0, 0, 0, 0])

/-- An update with an LSA of 18 octets, whose checksum is right. -/
def shortLsa : List Octet :=
  sampleDatagram
    (samplePacket 4 48 [0, 0, 0, 1, 0, 1, 2, 1, 10, 0, 0, 2, 10, 0, 0, 2, 0x80, 0, 0, 1,
    82, 17, 0, 18])

def sampleReceiver (datagram : List Octet) : Receiver :=
  willingReceiver datagram (bodyOf datagram 20) 20 (Vector.replicate 16 0)

/-- The checksum of the Hello is computed over 156 octets behind the datagram, and the LSA is
accepted without the length of its own header. -/
theorem ospf_read_outside :
    ¬ Safe ospfLsaHeaderSize (ospfRead (fun _ => []) (sampleReceiver longHello) longHello) ∧
    ¬ Safe ospfLsaHeaderSize (ospfRead (fun _ => []) (sampleReceiver shortLsa) shortLsa) := by
  constructor
  · intro safe
    have summed : (20, 200) ∈
      (ospfRead (fun _ => []) (sampleReceiver longHello) longHello).accesses := by decide +kernel
    exact absurd (safe.inside _ summed) (by decide +kernel)
  · intro safe
    have copied : (ospfRead (fun _ => []) (sampleReceiver shortLsa) shortLsa).copies.map
        List.length = [18] := by
      decide +kernel
    have whole : ∀ length ∈
        (ospfRead (fun _ => []) (sampleReceiver shortLsa) shortLsa).copies.map List.length,
        ospfLsaHeaderSize ≤ length := List.forall_mem_map.mpr safe.whole
    rw [copied] at whole
    exact absurd (whole 18 (List.mem_singleton_self 18)) (by decide)

end Zebra.Ospfd.Packet
