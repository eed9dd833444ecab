import Zebra.Ripd.Auth

namespace Zebra.Ripd.Auth
open Base Lib Stream Md5Datagram BitVec
open List hiding Vector

/-- The stream of `rip_output_process` with a packet in it, for which there is room with an entry
  and a trailer. -/
structure Output (s : Stream) (original : List Octet) : Prop where
  size : s.size = 1500
  front : s.data.take original.length = original
  put : s.putp = original.length
  ends : s.endp = original.length
  least : ripHeaderSize + ripRteSize ≤ original.length
  room : original.length + 40 ≤ 1500

/-- The entry for authentication. -/
def entryOf (len : Nat) (keyid : Octet) (time : BitVec 32) : List Octet :=
  toOctets 2 (0xffff : BitVec 16).toNat ++ toOctets 2 (3 : BitVec 16).toNat ++ toOctets 2
    (BitVec.ofNat 16 len).toNat ++ [keyid] ++ [20] ++
    toOctets 4 time.toNat ++ toOctets 4 (0 : BitVec 32).toNat ++ toOctets 4 (0 : BitVec 32).toNat

/-- The packet up to its digest. -/
def messageOf (original : List Octet) (keyid : Octet) (time : BitVec 32) : List Octet :=
  original.take 4 ++ entryOf (original.length + 20) keyid time ++ original.drop 4 ++ toOctets 2
    (0xffff : BitVec 16).toNat ++
    toOctets 2 (1 : BitVec 16).toNat

@[simp] theorem length_entryOf (len : Nat) (keyid : Octet) (time : BitVec 32) :
    (entryOf len keyid time).length = 20 := by
  simp [entryOf]

section Sent
variable {s : Stream} {original : List Octet} {sender : AuthInterface} {now : Int}
  {md5 : List Octet → Vector Octet 16} {time : BitVec 32} {authStr : List Octet} {keyid : Octet}

theorem length_messageOf (least : 4 ≤ original.length) :
    (messageOf original keyid time).length = original.length + 24 := by
  simp only [messageOf, length_append, length_take, length_drop, length_entryOf, length_toOctets]
  omega

theorem moved (output : Output s original) : ∃ old room, old.length = 20 ∧ 20 ≤ room.length ∧
    s.load 4 (original.length - 4) = some (original.drop 4) ∧ s.store 24 (original.drop 4) =
      some { s with data := original.take 4 ++ (old ++ (original.drop 4 ++ room)) } := by
  obtain ⟨size, front, put, ends, least, room⟩ := output
  rw [ripHeaderSize, ripRteSize] at least
  rw [Stream.size] at size
  obtain ⟨rest, isRest⟩ := @exists_eq _ (s.data.drop original.length)
  have restLength : rest.length = 1500 - original.length := by rw [isRest, List.length_drop, size]
  have whole : s.data = original ++ rest := by
    rw [isRest]
    calc s.data = s.data.take original.length ++ s.data.drop original.length :=
      (List.take_append_drop ..).symm
      _ = original ++ s.data.drop original.length := by rw [front]
  obtain ⟨header, isHeader⟩ := @exists_eq _ (original.take 4)
  obtain ⟨rtes, isRtes⟩ := @exists_eq _ (original.drop 4)
  have headerLength : header.length = 4 := by rw [isHeader, List.length_take_of_le (by omega)]
  have rtesLength : rtes.length = original.length - 4 := by rw [isRtes, List.length_drop]
  have split : s.data = header ++ rtes ++ rest := by
    rw [whole, isHeader, isRtes, List.take_append_drop]
  rw [← isHeader, ← isRtes]
  have first : s.data = header ++ rtes.take 20 ++ (rtes.drop 20 ++ rest) := by
    rw [split, List.append_assoc, List.append_assoc]
    congr 1
    rw [← List.append_assoc, List.take_append_drop]
  have firstLength : (header ++ rtes.take 20).length = 24 := by
    rw [List.length_append, headerLength, List.length_take_of_le (by omega)]
  refine ⟨rtes.take 20, (rtes.drop 20 ++ rest).drop rtes.length,
    List.length_take_of_le (by omega), ?_, ?_, ?_⟩
  · rw [List.length_drop, List.length_append, List.length_drop, restLength]
    omega
  · have read := slice_middle header rtes rest
    rw [headerLength, rtesLength, ← split] at read
    have inside : 4 + (original.length - 4) ≤ s.size := by
      rw [Stream.size, size]
      omega
    rw [Stream.load, if_pos inside, read]
  · have stored := Stream.store_room first
      (by rw [List.length_append, List.length_drop, restLength]; omega : rtes.length ≤ _)
    rw [firstLength] at stored
    rw [stored]
    simp only [List.append_assoc]

theorem entry_written {header room least} (len : Nat) (place : 20 ≤ room.length)
    (next : Stream → Option Stream) :
    (do
      let s ← (standing header room least).streamPutw 0xffff
      let s ← s.streamPutw 3
      let s ← s.streamPutw (BitVec.ofNat 16 len)
      let s ← s.streamPutc keyid
      let s ← s.streamPutc (BitVec.ofNat 8 (ripAuthMd5Size + ripHeaderSize))
      let s ← s.streamPutl time
      let s ← s.streamPutl 0
      let s ← s.streamPutl 0
      next s) = next (standing (header ++ entryOf len keyid time) (room.drop 20) least) := by
  have two (value : BitVec 16) : (toOctets 2 value.toNat).length = 2 := length_toOctets ..
  have four (value : BitVec 32) : (toOctets 4 value.toNat).length = 4 := length_toOctets ..
  refine bind_ran (putWhole_on ?_) ?_
  · rw [two]
    omega
  refine bind_ran (putWhole_on ?_) ?_
  · simp only [two, List.length_drop]
    omega
  refine bind_ran (putWhole_on ?_) ?_
  · simp only [two, List.length_drop]
    omega
  refine bind_ran (putc_on ?_) ?_
  · simp only [two, List.length_drop]
    omega
  refine bind_ran (putc_on ?_) ?_
  · simp only [two, List.length_drop]
    omega
  refine bind_ran (putWhole_on ?_) ?_
  · simp only [two, four, List.length_drop]
    omega
  refine bind_ran (putWhole_on ?_) ?_
  · simp only [two, four, List.length_drop]
    omega
  refine bind_ran (putWhole_on ?_) ?_
  · simp only [two, four, List.length_drop]
    omega
  · simp only [two, four, List.drop_drop, entryOf, List.append_assoc]
    rfl

theorem ripAuthMd5Set_sends (output : Output s original) (type : sender.authType = .md5)
    (str : sender.sendStr now = some (authStr, keyid)) :
    ∃ finished, sender.ripAuthMd5Set now md5 time s = some finished ∧
      finished.data.take finished.endp =
      messageOf original keyid time ++
        (md5 (messageOf original keyid time ++ secretOf authStr)).toList := by
  obtain ⟨old, room, place, behind, loaded, stored⟩ := moved output
  obtain ⟨size, front, put, ends, least, -⟩ := output
  rw [ripHeaderSize, ripRteSize] at least
  have headerLength : (original.take 4).length = 4 := List.length_take_of_le (by omega)
  have two (value : BitVec 16) : (toOctets 2 value.toNat).length = 2 := length_toOctets ..
  have here :
      ({ s with data := original.take 4 ++ (old ++ (original.drop 4 ++ room)) } :
      Stream).streamSetPutp 4 =
      Stream.standing (original.take 4) (old ++ (original.drop 4 ++ room)) original.length := by
    have last : max original.length 4 = original.length := by omega
    rw [Stream.streamSetPutp, Stream.standing, headerLength, last, ← ends]
  obtain ⟨front, isFront⟩ :=
    @exists_eq _ (original.take 4 ++ entryOf (original.length + 20) keyid time ++ original.drop 4)
  have frontLength : front.length = original.length + 20 := by
    rw [isFront, List.length_append, List.length_append, headerLength, length_entryOf,
      List.length_drop]
    omega
  obtain ⟨message, isMessage⟩ := @exists_eq _ (messageOf original keyid time)
  have messageIs : front ++ toOctets 2 (0xffff : BitVec 16).toNat ++ toOctets 2
      (1 : BitVec 16).toNat = message := by
    rw [isFront, isMessage, messageOf]
  have messageLength : message.length = original.length + 24 := by
    rw [isMessage, length_messageOf (by omega)]
  -- behind the entries
  obtain ⟨entered, isEntered⟩ :=
      @exists_eq _
      ((Stream.standing (original.take 4 ++ entryOf (original.length + 20) keyid time)
      (original.drop 4 ++ room) original.length).streamSetPutp
      (original.length + 20))
  have enteredData : entered.data = front ++ room := by
    rw [isEntered, isFront, List.append_assoc]
    rfl
  have enteredPut : entered.putp = front.length := by
    rw [isEntered, frontLength]
    rfl
  have enteredEnd : entered.endp = original.length := by
    have last :
        max original.length (original.take 4 ++ entryOf (original.length + 20) keyid time).length =
        original.length := by
      rw [List.length_append, headerLength, length_entryOf]
      omega
    rw [isEntered]
    exact last
  have tag := @Stream.putWhole_standing entered front
    (toOctets 2 (0xffff : BitVec 16).toNat) room enteredData enteredPut (by rw [two]; omega)
  rw [two, enteredEnd] at tag
  have one := @Stream.putWhole_on (front ++ toOctets 2 (0xffff : BitVec 16).toNat)
    (toOctets 2 (1 : BitVec 16).toNat) (room.drop 2)
    original.length (by rw [two, List.length_drop]; omega)
  rw [two, messageIs, List.drop_drop] at one
  obtain ⟨digest, isDigest⟩ := @exists_eq _ (md5 (message ++ secretOf authStr))
  have read : (Stream.standing message (room.drop 4) original.length).load 0
      (Stream.standing message (room.drop 4) original.length).endp =
      some message := by
    have last : max original.length message.length = message.length := by omega
    have inside : 0 + message.length ≤ (message ++ room.drop 4).length := by
      rw [List.length_append]
      omega
    rw [Stream.load, Stream.standing, last]
    exact (if_pos inside).trans (congrArg some (slice_whole message _))
  have done := @Stream.put_on message digest.toList (room.drop 4) original.length
    (by rw [Vector.length_toList, List.length_drop]; omega)
  have dropped : (old ++ (original.drop 4 ++ room)).drop 20 = original.drop 4 ++ room :=
    List.drop_left' place
  refine ⟨Stream.standing (message ++ digest.toList)
    ((room.drop 4).drop digest.toList.length) original.length, ?_, ?_⟩
  · refine (if_neg (not_not.mpr type)).trans ?_
    rw [str]
    have enough : ¬ s.putp < ripHeaderSize + ripRteSize := by
      rw [put]
      exact not_lt.mpr least
    refine (if_neg enough).trans ?_
    rw [put]
    refine bind_ran loaded ?_
    refine bind_ran stored ?_
    rw [ripHeaderSize, here]
    refine (entry_written (original.length + 20)
      (by rw [List.length_append, place]; exact Nat.le_add_right ..) _).trans ?_
    rw [dropped]
    refine bind_ran ((congrArg (Stream.streamPutw · 0xffff) isEntered.symm).trans tag) ?_
    refine bind_ran one ?_
    refine bind_ran read ?_
    rw [← isDigest, done]
  · have last : max original.length (message ++ digest.toList).length =
        (message ++ digest.toList).length := by
      rw [List.length_append]
      omega
    rw [Stream.standing, last, List.take_left, ← isMessage, isDigest]

end Sent

/-- What authentication leaves of a packet: its header, the entry for authentication, which is
skipped, and the entries that it was sent with. -/
structure Yields (original packet : List Octet) (outcome : Nat × Workspace) : Prop where
  length : outcome.1 = original.length + 20
  header : (outcome.2.data.take outcome.1).take 4 = original.take 4
  entry : field outcome.2.data 4 2 = 0xffff
  rtes : (outcome.2.data.take outcome.1).drop 24 = original.drop 4
  inside : ∀ access ∈ outcome.2.accesses, access.1 + access.2 ≤ packet.length

section Received
variable {original tail : List Octet} {receiver : AuthInterface} {now : Int}
  {md5 : List Octet → Vector Octet 16} {time : BitVec 32} {authStr : List Octet} {keyid : Octet}

theorem field_single (front back : List Octet) (c : Octet) :
    field (front ++ [c] ++ back) front.length 1 = c := by
  have written := slice_middle front [c] back
  rw [length_singleton] at written
  rw [field, written]
  exact eq_of_toNat_eq (by simp [ofOctets])

section
variable (least : 4 ≤ original.length) (short : original.length + 20 < 65536)
include least short

theorem entry_fields :
    field (messageOf original keyid time ++ tail) 4 2 = 0xffff ∧
    field (messageOf original keyid time ++ tail) 6 2 = 3 ∧
      packetLen (messageOf original keyid time ++ tail) = original.length + 20 ∧
      field (messageOf original keyid time ++ tail) 10 1 = keyid ∧
      (field (messageOf original keyid time ++ tail) 11 1).toNat = 20 := by
  obtain ⟨header, isHeader⟩ := @exists_eq _ (original.take 4)
  have four : header.length = 4 := by rw [isHeader, List.length_take_of_le least]
  obtain ⟨len, isLen⟩ := @exists_eq _ (BitVec.ofNat 16 (original.length + 20))
  have lenIs : len.toNat = original.length + 20 := by
    rw [isLen, BitVec.toNat_ofNat, Nat.mod_eq_of_lt short]
  obtain ⟨back, split⟩ : ∃ back, messageOf original keyid time ++ tail =
      header ++ (toOctets 2 (0xffff : BitVec 16).toNat ++
      (toOctets 2 (3 : BitVec 16).toNat ++
        (toOctets 2 len.toNat ++ ([keyid] ++ ([20] ++ back))))) := by
    refine ⟨toOctets 4 time.toNat ++
      (toOctets 4 (0 : BitVec 32).toNat ++ (toOctets 4 (0 : BitVec 32).toNat ++ (original.drop 4 ++
      (toOctets 2 (0xffff : BitVec 16).toNat ++ (toOctets 2 (1 : BitVec 16).toNat ++ tail))))), ?_⟩
    rw [messageOf, entryOf, ← isHeader, ← isLen]
    simp only [List.append_assoc]
  have family :=
    field_middle header (toOctets 2 (3 : BitVec 16).toNat ++
    (toOctets 2 len.toNat ++ ([keyid] ++ ([20] ++ back)))) 0xffff
  have tag := field_middle (header ++ toOctets 2 (0xffff : BitVec 16).toNat)
    (toOctets 2 len.toNat ++ ([keyid] ++ ([20] ++ back))) 3
  have length := field_middle
    (header ++ (toOctets 2 (0xffff : BitVec 16).toNat ++ toOctets 2 (3 : BitVec 16).toNat))
    ([keyid] ++ ([20] ++ back)) len
  have key :=
    field_single
    (header ++ (toOctets 2 (0xffff : BitVec 16).toNat ++
    (toOctets 2 (3 : BitVec 16).toNat ++ toOctets 2 len.toNat)))
    ([20] ++ back) keyid
  have trailer := field_single
    (header ++ (toOctets 2 (0xffff : BitVec 16).toNat ++ (toOctets 2 (3 : BitVec 16).toNat ++
    (toOctets 2 len.toNat ++ [keyid])))) back 20
  simp only [List.append_assoc, List.length_append, length_toOctets, four,
    List.length_singleton] at family tag length key trailer
  rw [← split] at family tag length key trailer
  refine ⟨family, tag, ?_, key, ?_⟩
  · rw [packetLen, length, lenIs]
  · rw [trailer]
    rfl

theorem message_checked {digest} (size : digest.length = 16) :
    slice (messageOf original keyid time ++ digest)
    (packetLen (messageOf original keyid time ++ digest) + 4) 16 = digest ∧
      written (messageOf original keyid time ++ digest) authStr =
        messageOf original keyid time ++ secretOf authStr ∧
      checkedLen (messageOf original keyid time ++ digest) authStr = original.length + 40 := by
  obtain ⟨-, -, length, -, -⟩ := @entry_fields original digest time keyid least short
  have place : packetLen (messageOf original keyid time ++ digest) + 4 =
      (messageOf original keyid time).length := by
    rw [length, length_messageOf least]
  have over_ : written (messageOf original keyid time ++ digest) authStr =
      messageOf original keyid time ++ secretOf authStr := by
    have zeros := @overwrite_middle (messageOf original keyid time) digest [] (replicate 16 0)
      (by rw [size, length_replicate])
    have secret := @overwrite_middle (messageOf original keyid time) (replicate 16 0) []
      (secretOf authStr)
      (by rw [length_secretOf, length_replicate])
    simp only [append_nil] at zeros secret
    rw [written, place, zeros, secret]
  refine ⟨?_, over_, ?_⟩
  · have read := slice_middle (messageOf original keyid time) digest []
    rwa [append_nil, size, ← place] at read
  · rw [checkedLen, over_, length,
      (@entry_fields original (secretOf authStr) time keyid least short).2.2.2.2]

theorem ripAuthMd5_accepts (type : receiver.authType = .md5)
    (str : receiver.acceptStr now keyid = some authStr) {packet}
    (is : packet = messageOf original keyid time ++
      (md5 (messageOf original keyid time ++ secretOf authStr)).toList) :
    Yields original packet (receiver.ripAuthMd5 now md5 { data := packet }) := by
  obtain ⟨digest, isDigest⟩ :=
    @exists_eq _ ((md5 (messageOf original keyid time ++ secretOf authStr)).toList)
  rw [← isDigest] at is
  have sixteen : digest.length = 16 := by rw [isDigest, Vector.length_toList]
  obtain ⟨-, tag, length, key, trailer⟩ := @entry_fields original digest time keyid least short
  obtain ⟨read, over_, checked⟩ :=
    @message_checked original time authStr keyid least short digest sixteen
  have messageLength := @length_messageOf original time keyid least
  have size : packet.length = original.length + 40 := by
    rw [is, List.length_append, messageLength, sixteen]
  rw [← is] at tag length key trailer read over_ checked
  have whole : slice (messageOf original keyid time ++ secretOf authStr) 0 (original.length + 40) =
      messageOf original keyid time ++ secretOf authStr := by
    have all := slice_whole (messageOf original keyid time ++ secretOf authStr) []
    rwa [List.append_nil, List.length_append, length_secretOf, messageLength] at all
  have accepted : receiver.ripAuthMd5 now md5 { data := packet } =
      (original.length + 20, { data := messageOf original keyid time ++ secretOf authStr,
                               accesses := touched packet authStr }) := by
    rw [ripAuthMd5_entry type tag trailer, key, str]
    dsimp only
    rw [checkDigest_eq, over_, checked, whole, read, ← isDigest, if_pos rfl, length]
  have cut : (messageOf original keyid time ++ secretOf authStr).take (original.length + 20) =
      original.take 4 ++ entryOf (original.length + 20) keyid time ++ original.drop 4 := by
    have front :
        (original.take 4 ++ entryOf (original.length + 20) keyid time ++ original.drop 4).length =
        original.length + 20 := by
      rw [List.length_append, List.length_append, length_entryOf, List.length_take_of_le least,
        List.length_drop]
      omega
    rw [messageOf, List.append_assoc, List.append_assoc]
    exact List.take_left' front
  have four : (original.take 4).length = 4 := List.length_take_of_le least
  rw [accepted]
  refine ⟨rfl, ?_, (@entry_fields original (secretOf authStr) time keyid least short).1, ?_, ?_⟩
  · rw [cut, List.append_assoc]
    exact List.take_left' four
  · rw [cut]
    exact List.drop_left' (by rw [List.length_append, four, length_entryOf])
  · intro access member
    rw [touched, checked, length] at member
    simp only [List.mem_cons, List.not_mem_nil, or_false] at member
    obtain rfl | rfl | rfl | rfl | rfl | rfl | rfl | rfl | rfl := member <;> dsimp only <;> omega

end
end Received
/-- The check stays inside the packet exactly if the trailer lies where the packet says; and a
packet that is finished with a string is taken for what it was by a neighbour that looks up the same
one. -/
theorem auth_md5_bounded (datagram : Md5Datagram) (ri sender receiver : AuthInterface)
    (now sent received : Int)
    (md5 : List Octet → Vector Octet 16) (time : BitVec 32) (s : Stream)
    (original authStr : List Octet) (keyid : Octet) :
    ((∀ md5, Bounded datagram (ri.ripAuthMd5 now md5 { data := datagram.octets })) ↔
      ∀ str, datagram.authStr ri now = some str → datagram.Fits str) ∧
    (Output s original → sender.authType = .md5 → receiver.authType = .md5 →
      sender.sendStr sent = some (authStr, keyid) →
      receiver.acceptStr received keyid = some authStr →
      ∃ finished, sender.ripAuthMd5Set sent md5 time s = some finished ∧
        Yields original (finished.data.take finished.endp)
        (receiver.ripAuthMd5 received md5 { data := finished.data.take finished.endp })) := by
  constructor
  · cases str : datagram.authStr ri now with
    | none =>
      constructor
      · intro _ _ some_
        cases some_
      · intro _ md5
        exact ripAuthMd5_refused str
    | some own =>
      constructor
      · rintro bounded _ ⟨⟩
        exact (checked_iff str).mp bounded
      · intro fits
        exact (checked_iff str).mpr (fits own rfl)
  · intro output type type' str str'
    obtain ⟨finished, set, is⟩ :=
      @ripAuthMd5Set_sends s original sender sent md5 time authStr keyid output type str
    have least : 24 ≤ original.length := output.least
    have room := output.room
    exact ⟨finished, set, ripAuthMd5_accepts (by omega) (by omega) type' str' is⟩

/-- An interface with a string and no key chain. -/
def secretInterface : AuthInterface where
  authType := .md5
  authStr := some [0x6b, 0x65, 0x79]

/-- A response of one entry for authentication, which says that its trailer begins behind 500
  octets. -/
def farTrailer : Md5Datagram where
  octets := [2, 2, 0, 0, 0xff, 0xff, 0, 3, 0x01, 0xf4, 1, 20, 0, 0, 0, 1, 0, 0, 0, 0, 0, 0, 0, 0]
  minimum := by decide
  maximum := by decide
  aligned := by decide
  version := by decide
  family := by decide
  tag := by decide

theorem auth_md5_outside : ¬ ∀ md5,
    Bounded farTrailer (secretInterface.ripAuthMd5 0 md5 { data := farTrailer.octets }) := by
  have str : farTrailer.authStr secretInterface 0 = some [0x6b, 0x65, 0x79] := by decide
  intro bounded
  have digest := ((checked_iff str).mp bounded).digest
  exact nomatch digest

/-- A response with one route, in the stream. -/
def oneRoute : List Octet :=
  [2, 2, 0, 0, 0, 2, 0, 0, 10, 1, 0, 0, 255, 255, 0, 0, 0, 0, 0, 0, 0, 0, 0, 1]

theorem auth_md5_sampled :
    ∃ finished, secretInterface.ripAuthMd5Set 0 (fun _ => Vector.replicate 16 7) 1
    { data := oneRoute ++ List.replicate 1476 0, putp := 24, endp := 24 } = some finished ∧
    Yields oneRoute (finished.data.take finished.endp)
      (secretInterface.ripAuthMd5 0 (fun _ => Vector.replicate 16 7) {
        data := finished.data.take finished.endp }) := by
  have output :
      Output { data := oneRoute ++ List.replicate 1476 0, putp := 24, endp := 24 } oneRoute := by
    refine ⟨?_, List.take_left, rfl, rfl, by decide, by decide⟩
    rw [Stream.size, List.length_append, List.length_replicate]
    rfl
  exact (auth_md5_bounded farTrailer secretInterface secretInterface secretInterface 0 0 0 _ 1 _
    oneRoute [0x6b, 0x65, 0x79] 1).2
    output rfl rfl rfl rfl

end Zebra.Ripd.Auth
