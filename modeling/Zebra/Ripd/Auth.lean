import Mathlib.Data.Vector.Defs
import Zebra.Lib.Stream

/-! Authentication with MD5 of ripd/ripd.c, with the key chains of lib/keychain.c. The digest is any
function. -/
namespace Zebra.Ripd.Auth
open Base Lib
open List hiding Vector

/-- `struct key` -/
structure Key where
  index : BitVec 32
  string : Option (List Octet)
  acceptStart : Int := 0
  acceptEnd : Int := 0
  sendStart : Int := 0
  sendEnd : Int := 0

inductive AuthType where
  | noAuth
  | simplePassword
  | md5
deriving DecidableEq

/-- What authentication needs of `struct rip_interface`. `keyChain` is set where `ri->key_chain` is,
to what `keychain_lookup` finds under that name. -/
structure AuthInterface where
  authType : AuthType
  keyChain : Option (Option (List Key)) := none
  authStr : Option (List Octet) := none

def ripHeaderSize : Nat := 4
def ripRteSize : Nat := 20
def ripAuthMd5Size : Nat := 16

def keyLookupForAccept (now : Int) (keychain : List Key) (index : Nat) : Option Key :=
  keychain.find? fun key =>
    index ≤ key.index.toNat &&
      (key.acceptStart = 0 || key.acceptStart ≤ now && (now ≤ key.acceptEnd || key.acceptEnd = -1))

def keyLookupForSend (now : Int) (keychain : List Key) : Option Key :=
  keychain.find? fun key => key.sendStart = 0 || key.sendStart ≤ now &&
    (now ≤ key.sendEnd || key.sendEnd = -1)

/-- `strncpy (dest, str, RIP_AUTH_MD5_SIZE)` -/
def secretOf (str : List Octet) : List Octet :=
  let copied := (str.takeWhile (· ≠ 0)).take ripAuthMd5Size
  copied ++ List.replicate (ripAuthMd5Size - copied.length) 0

@[simp] theorem length_secretOf (str : List Octet) : (secretOf str).length = 16 := by
  have short : ((str.takeWhile (· ≠ 0)).take ripAuthMd5Size).length ≤ ripAuthMd5Size :=
    length_take_le ..
  rw [secretOf, length_append, length_replicate, Nat.add_sub_cancel' short]
  rfl

namespace AuthInterface
variable (ri : AuthInterface) (now : Int)

/-- `auth_str` for a key id that was received. -/
def acceptStr (keyid : Octet) : Option (List Octet) :=
  match ri.keyChain with
  | none => ri.authStr
  | some none => none
  | some (some keychain) => (keyLookupForAccept now keychain keyid.toNat).bind fun key =>
    ri.authStr.or key.string

/-- `auth_str` for sending, and the key id: 1 without a key chain. -/
def sendStr : Option (List Octet × Octet) :=
  match ri.keyChain with
  | none => ri.authStr.map (·, 1)
  | some none => none
  | some (some keychain) => (keyLookupForSend now keychain).bind fun key =>
    (ri.authStr.or key.string).map (·, BitVec.ofNat 8 (key.index.toNat % 256))

variable (md5 : List Octet → Vector Octet 16)

/-- `/* MD5 digest authentication. */` -/
def checkDigest (authStr : List Octet) (work : Workspace) : Nat × Workspace :=
  let work := work.see 8 2
  let packetLen := (field work.data 8 2).toNat
  let work := work.see (packetLen + 4) ripAuthMd5Size
  let pdigest := slice work.data (packetLen + 4) ripAuthMd5Size
  let work := work.put (packetLen + 4) (List.replicate ripAuthMd5Size 0)
  let work := work.put (packetLen + 4) (secretOf authStr)
  let work := work.see 11 1
  let size := packetLen + (field work.data 11 1).toNat
  let work := work.see 0 size
  if pdigest = (md5 (slice work.data 0 size)).toList then (packetLen, work) else (0, work)

/-- The packet is at the front of the buffer; the result is the new length, 0 where authentication
  failed. -/
def ripAuthMd5 (work : Workspace) : Nat × Workspace :=
  if ri.authType ≠ .md5 then (0, work)
  else
    let work := work.see 6 2
    if (field work.data 6 2).toNat ≠ 3 then (0, work)
    else
      let work := work.see 11 1
      if (field work.data 11 1).toNat ≠ ripHeaderSize + ripAuthMd5Size then (0, work)
      else
        let work := work.see 10 1
        match ri.acceptStr now (field work.data 10 1) with
        | none => (0, work)
        | some authStr => checkDigest md5 authStr work

/-- `none` is an access outside of the stream. -/
def ripAuthMd5Set (time : BitVec 32) (s : Stream) : Option Stream :=
  if ri.authType ≠ .md5 then some s
  else
    match ri.sendStr now with
    | none => some s
    | some (authStr, keyid) =>
      let len := s.putp
      if len < ripHeaderSize + ripRteSize then some s
      else do
        let rtes ← s.load ripHeaderSize (len - ripHeaderSize)
        let s ← s.store (ripHeaderSize + ripRteSize) rtes
        let s := s.streamSetPutp ripHeaderSize
        let len := len + ripRteSize
        let s ← s.streamPutw 0xffff
        let s ← s.streamPutw 3
        let s ← s.streamPutw (BitVec.ofNat 16 len)
        let s ← s.streamPutc keyid
        let s ← s.streamPutc (BitVec.ofNat 8 (ripAuthMd5Size + ripHeaderSize))
        let s ← s.streamPutl time
        let s ← s.streamPutl 0
        let s ← s.streamPutl 0
        let s := s.streamSetPutp len
        let s ← s.streamPutw 0xffff
        let s ← s.streamPutw 1
        let message ← s.load 0 s.endp
        s.streamPut (md5 (message ++ secretOf authStr)).toList

end AuthInterface

/-- The length of the packet without its trailer, as the packet has it. -/
def packetLen (data : List Octet) : Nat := (field data 8 2).toNat

/-- A packet with the secret in the place of its digest. -/
def written (data authStr : List Octet) : List Octet :=
  overwrite (overwrite data (packetLen data + 4) (List.replicate 16 0)) (packetLen data + 4)
    (secretOf authStr)

/-- What is checked: up to the length of the trailer, which is read again. -/
def checkedLen (data authStr : List Octet) : Nat :=
  packetLen data + (field (written data authStr) 11 1).toNat

/-- What is touched when the digest is checked. -/
def touched (data authStr : List Octet) : List (Nat × Nat) :=
  [(0, checkedLen data authStr), (11, 1), (packetLen data + 4, 16), (packetLen data + 4, 16),
    (packetLen data + 4, 16), (8, 2),
    (10, 1), (11, 1), (6, 2)]

section Check
variable {data authStr : List Octet} {ri : AuthInterface} {now : Int}
  {md5 : List Octet → Vector Octet 16}

/-- What is read of the first entry before the digest is checked. -/
def looked (data : List Octet) : Workspace :=
  { data := data, accesses := [(10, 1), (11, 1), (6, 2)] }

theorem checkDigest_eq : AuthInterface.checkDigest md5 authStr (looked data) =
    (if slice data (packetLen data + 4) 16 =
      (md5 (slice (written data authStr) 0 (checkedLen data authStr))).toList then
        packetLen data else 0,
      { data := written data authStr, accesses := touched data authStr }) := by
  obtain ⟨done, isDone⟩ := @exists_eq Workspace { data := written data authStr, accesses :=
    [(0, checkedLen data authStr), (11, 1), (packetLen data + 4, (secretOf authStr).length),
      (packetLen data + 4, 16),
      (packetLen data + 4, 16), (8, 2), (10, 1), (11, 1), (6, 2)] }
  have checked : AuthInterface.checkDigest md5 authStr (looked data) =
      if slice data (packetLen data + 4) 16 =
        (md5 (slice (written data authStr) 0 (checkedLen data authStr))).toList
      then (packetLen data, done) else (0, done) := by
    rw [isDone]
    rfl
  rw [length_secretOf] at isDone
  rw [checked, touched, ← isDone]
  split <;> rfl

theorem ripAuthMd5_entry (type : ri.authType = .md5) (tag : field data 6 2 = 3)
    (length : (field data 11 1).toNat = 20) :
    ri.ripAuthMd5 now md5 { data := data } =
      match ri.acceptStr now (field data 10 1) with
      | none => (0, looked data)
      | some authStr => AuthInterface.checkDigest md5 authStr (looked data) := by
  have three : ¬ (field data 6 2).toNat ≠ 3 := by
    rw [tag]
    decide
  refine (if_neg (not_not.mpr type)).trans ?_
  refine (if_neg three).trans ?_
  exact if_neg (not_not.mpr length)

end Check

/-- A datagram that passes the checks of `rip_read` on its length and has an entry for
  authentication with MD5. -/
structure Md5Datagram where
  octets : List Octet
  minimum : ripHeaderSize + ripRteSize ≤ octets.length
  maximum : octets.length ≤ 512
  aligned : (octets.length - ripHeaderSize) % ripRteSize = 0
  version : field octets 1 1 = 2
  family : field octets 4 2 = 0xffff
  tag : field octets 6 2 = 3

/-- Nothing outside of the datagram is touched, and a length that is returned is one of whole
  entries inside it. -/
structure Bounded (datagram : Md5Datagram) (outcome : Nat × Workspace) : Prop where
  inside : ∀ access ∈ outcome.2.accesses, access.1 + access.2 ≤ datagram.octets.length
  within : outcome.1 ≤ datagram.octets.length
  whole : outcome.1 ≠ 0 → ripHeaderSize ≤ outcome.1 ∧ (outcome.1 - ripHeaderSize) % ripRteSize = 0

namespace Md5Datagram
variable (datagram : Md5Datagram) (ri : AuthInterface) (now : Int)

/-- The string that authenticates the datagram, where it is looked at that far. -/
def authStr : Option (List Octet) :=
  if ri.authType = .md5 ∧ field datagram.octets 11 1 = (20 : BitVec (8 * 1)) then
    ri.acceptStr now (field datagram.octets 10 1) else none

/-- The length of the trailer as it is read again, after the secret is in its place: a trailer in
the first entry has the length written over. -/
def trailerLen (authStr : List Octet) : Nat :=
  if packetLen datagram.octets ≤ 7 then
    ((secretOf authStr).getD (7 - packetLen datagram.octets) 0).toNat else 20

/-- The trailer is inside, and behind whole entries. -/
structure Fits (authStr : List Octet) : Prop where
  digest : packetLen datagram.octets + 20 ≤ datagram.octets.length
  trailer : packetLen datagram.octets + datagram.trailerLen authStr ≤ datagram.octets.length
  entries : packetLen datagram.octets = 0 ∨ packetLen datagram.octets % 20 = 4

end Md5Datagram

section Overwrite
variable {data octets : List Octet} {pos index : Nat}

theorem field_octet (data : List Octet) (pos : Nat) :
    (field data pos 1).toNat = (data.getD pos 0).toNat := by
  simp [field, slice, ofOctets, range_succ]

theorem overwrite_inside (here : pos ≤ index) (before : index < pos + octets.length)
    (short : index < data.length) :
    (overwrite data pos octets).getD index 0 = octets.getD (index - pos) 0 := by
  simp [getD_eq_getElem?_getD, overwrite, short, here, before]

theorem overwrite_outside (apart : index < pos ∨ pos + octets.length ≤ index) :
    (overwrite data pos octets).getD index 0 = data.getD index 0 := by
  have never : ¬ (pos ≤ index ∧ index < pos + octets.length) := by omega
  simp only [getD_eq_getElem?_getD, overwrite, getElem?_mapIdx, if_neg never]
  cases data[index]? <;> rfl

end Overwrite

namespace Md5Datagram
variable {datagram : Md5Datagram} {ri : AuthInterface} {now : Int}
  {md5 : List Octet → Vector Octet 16} {authStr : List Octet}

theorem written_trailer (length : (field datagram.octets 11 1).toNat = 20) :
    (field (written datagram.octets authStr) 11 1).toNat = datagram.trailerLen authStr := by
  have room : 11 < datagram.octets.length := lt_of_lt_of_le (by decide) datagram.minimum
  rw [field_octet, written, trailerLen]
  split
  next front =>
    rw [overwrite_inside (by omega) (by rw [length_secretOf]; omega) (by rwa [length_overwrite])]
    have place : 11 - (packetLen datagram.octets + 4) = 7 - packetLen datagram.octets := by omega
    rw [place]
  next behind =>
    rw [overwrite_outside (.inl (by omega)),
      overwrite_outside (.inl (by omega)), ← field_octet, length]

theorem ripAuthMd5_refused (refused : datagram.authStr ri now = none) :
    Bounded datagram (ri.ripAuthMd5 now md5 { data := datagram.octets }) := by
  have room : 24 ≤ datagram.octets.length := datagram.minimum
  have bounded {accesses} (few : ∀ access ∈ accesses, access ∈ [(10, 1), (11, 1), (6, 2)]) :
      Bounded datagram (0, { data := datagram.octets, accesses := accesses }) := by
    refine ⟨fun access member => ?_, Nat.zero_le _, fun positive => absurd rfl positive⟩
    have one := few access member
    simp only [mem_cons, not_mem_nil, or_false] at one
    obtain rfl | rfl | rfl := one <;> dsimp only <;> omega
  by_cases type : ri.authType = .md5
  · by_cases length : (field datagram.octets 11 1).toNat = 20
    · rw [authStr, if_pos ⟨type, BitVec.eq_of_toNat_eq length⟩] at refused
      rw [ripAuthMd5_entry type datagram.tag length, refused]
      exact bounded fun _ => id
    · have stops : ri.ripAuthMd5 now md5 { data := datagram.octets } =
          (0, { data := datagram.octets, accesses := [(11, 1), (6, 2)] }) := by
        have tag : ¬ (field datagram.octets 6 2).toNat ≠ 3 := by
          rw [datagram.tag]
          decide
        refine (if_neg (not_not.mpr type)).trans ?_
        refine (if_neg tag).trans ?_
        exact if_pos length
      rw [stops]
      exact bounded (by simp)
  · have stops : ri.ripAuthMd5 now md5 { data := datagram.octets } =
      (0, { data := datagram.octets }) := if_pos type
    rw [stops]
    exact bounded (by simp)

theorem ripAuthMd5_checked (str : datagram.authStr ri now = some authStr) :
    (field datagram.octets 11 1).toNat = 20 ∧
      ri.ripAuthMd5 now md5 { data := datagram.octets } =
        AuthInterface.checkDigest md5 authStr (looked datagram.octets) := by
  rw [Md5Datagram.authStr] at str
  split at str
  next both =>
    have length : (field datagram.octets 11 1).toNat = 20 := by
      rw [both.2]
      rfl
    refine ⟨length, ?_⟩
    rw [ripAuthMd5_entry both.1 datagram.tag length, str]
  · cases str

/-- The accesses of a check are inside, and its length is one of whole entries, exactly where the
  trailer fits. -/
theorem checked_iff (str : datagram.authStr ri now = some authStr) :
    (∀ md5, Bounded datagram (ri.ripAuthMd5 now md5 { data := datagram.octets })) ↔
      datagram.Fits authStr := by
  constructor
  · intro bounded
    -- a digest that is always the one in the datagram
    obtain ⟨digest, isDigest⟩ : ∃ digest :
        Vector Octet 16, digest.toList = slice datagram.octets (packetLen datagram.octets + 4) 16 :=
      ⟨⟨(slice datagram.octets (packetLen datagram.octets + 4) 16).toArray, by simp⟩, by
        simp [Vector.toList]⟩
    obtain ⟨length, checks⟩ := @ripAuthMd5_checked datagram ri now (fun _ => digest) authStr str
    have kept := bounded fun _ => digest
    rw [checks, checkDigest_eq, if_pos isDigest.symm] at kept
    have inside := kept.inside
    have whole := kept.whole
    rw [touched, checkedLen, written_trailer length] at inside
    refine ⟨?_, ?_, ?_⟩
    · have digestInside := inside (packetLen datagram.octets + 4, 16) (by simp)
      omega
    · have trailerInside :=
        inside (0, packetLen datagram.octets + datagram.trailerLen authStr) (by simp)
      omega
    · by_cases none_ : packetLen datagram.octets = 0
      · exact .inl none_
      · rw [ripHeaderSize, ripRteSize] at *
        exact .inr (by omega)
  · intro fits md5
    obtain ⟨length, checks⟩ := @ripAuthMd5_checked datagram ri now md5 authStr str
    obtain ⟨digest, trailer, entries⟩ := fits
    rw [checks, checkDigest_eq]
    refine ⟨fun access member => ?_, ?_, fun positive => ?_⟩
    · rw [touched, checkedLen, written_trailer length] at member
      simp only [mem_cons, not_mem_nil, or_false] at member
      obtain rfl | rfl | rfl | rfl | rfl | rfl | rfl | rfl | rfl := member <;> dsimp only <;> omega
    · split <;> omega
    · rw [ripHeaderSize, ripRteSize]
      split at positive <;> rename_i same
      · rw [if_pos same]
        omega
      · exact absurd rfl positive

end Md5Datagram
end Zebra.Ripd.Auth
