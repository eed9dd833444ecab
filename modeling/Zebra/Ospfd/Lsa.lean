import Zebra.Base.Octets

/-! Link state advertisements of ospfd/ospf_lsa.h and ospfd/ospf_lsa.c, without the options for
opaque and NSSA ones. An instance is a heap object with an identity: two pointers to one object see
each other's changes. -/
namespace Zebra.Ospfd
open Base BitVec

abbrev InAddr := BitVec 32

/-- The types below `OSPF_MAX_LSA`. -/
inductive LsaType where
  | router
  | network
  | summary
  | asbrSummary
  | asExternal
deriving DecidableEq

/-- What a database files an instance under. -/
structure LsaKey where
  type : LsaType
  id : InAddr
  advRouter : InAddr
deriving DecidableEq

/-- `struct lsa_header`, in host order. -/
structure LsaHeader where
  lsAge : BitVec 16 := 0
  options : Octet := 0
  key : LsaKey
  lsSeqnum : BitVec 32
  checksum : BitVec 16 := 0
  length : BitVec 16 := 0
deriving DecidableEq

abbrev LsaId := Nat
abbrev AreaId := Nat

/-- A moment of `gettimeofday`, in microseconds. -/
abbrev Time := Int

/-- `struct ospf_lsa`, with the data behind its pointer. -/
structure OspfLsa where
  data : LsaHeader
  body : List Octet := []
  self : Bool := false
  selfChecked : Bool := false
  received : Bool := false
  discard : Bool := false
  tvRecv : Time := 0
  area : Option AreaId := none
  lock : Int := 1
  retransmitCounter : Int := 0
deriving DecidableEq

def ospfLsaMaxage : Int := 3600
def ospfLsaMaxageDiff : Int := 900
def ospfInitialSequenceNumber : BitVec 32 := 0x80000001
def ospfMaxSequenceNumber : BitVec 32 := 0x7fffffff

namespace OspfLsa

def key (lsa : OspfLsa) : LsaKey := lsa.data.key

/-- `get_age`: seconds, with the time since reception rounded down. -/
def getAge (now : Time) (lsa : OspfLsa) : Int :=
  lsa.data.lsAge.toNat + (now - lsa.tvRecv) / 1000000

/-- `LS_AGE`. -/
def lsAge (now : Time) (lsa : OspfLsa) : Int :=
  if ospfLsaMaxage < lsa.getAge now then ospfLsaMaxage else lsa.getAge now

/-- `IS_LSA_MAXAGE`. -/
def isMaxage (now : Time) (lsa : OspfLsa) : Bool :=
  lsa.lsAge now = ospfLsaMaxage

theorem isMaxage_iff {now} {lsa : OspfLsa} :
    lsa.isMaxage now = true ↔ ospfLsaMaxage ≤ lsa.getAge now := by
  rw [isMaxage, lsAge, decide_eq_true_eq]
  split <;> omega

theorem isMaxage_mono {now later} {lsa : OspfLsa} (after : now ≤ later)
    (old : lsa.isMaxage now = true) :
    lsa.isMaxage later = true := by
  rw [isMaxage_iff, getAge] at old ⊢
  have longer : (now - lsa.tvRecv) / 1000000 ≤ (later - lsa.tvRecv) / 1000000 :=
    Int.ediv_le_ediv (by decide) (Int.sub_le_sub_right after _)
  exact Int.le_trans old (Int.add_le_add_left longer _)

end OspfLsa

/-- `ospf_lsa_more_recent` on two instances: positive when the first one is. -/
def moreRecent (now : Time) (l1 l2 : OspfLsa) : Int :=
  if l2.data.lsSeqnum.toInt < l1.data.lsSeqnum.toInt then 1
  else if l1.data.lsSeqnum.toInt < l2.data.lsSeqnum.toInt then -1
  else if l1.data.checksum ≠ l2.data.checksum then
    (l1.data.checksum.toNat : Int) - l2.data.checksum.toNat
  else if l1.isMaxage now && !l2.isMaxage now then 1
  else if !l1.isMaxage now && l2.isMaxage now then -1
  else if ospfLsaMaxageDiff < l1.lsAge now - l2.lsAge now then -1
  else if ospfLsaMaxageDiff < l2.lsAge now - l1.lsAge now then 1
  else 0

/-- `ospf_lsa_more_recent`, where a missing instance is less recent than any other. -/
def ospfLsaMoreRecent (now : Time) : Option OspfLsa → Option OspfLsa → Int
  | none, none => 0
  | none, some _ => -1
  | some _, none => 1
  | some l1, some l2 => moreRecent now l1 l2

/-- `lsa_seqnum_increment`: the number wraps like any other. -/
def lsaSeqnumIncrement (lsa : OspfLsa) : BitVec 32 :=
  lsa.data.lsSeqnum + 1

theorem toInt_add_one {seqnum} (below : seqnum ≠ ospfMaxSequenceNumber) :
    (seqnum + 1).toInt = seqnum.toInt + 1 := by
  have bound : seqnum.toNat ≠ 2147483647 := fun same => below (eq_of_toNat_eq same)
  have one : (1 : BitVec 32).toNat = 1 := rfl
  rw [toInt_eq_toNat_cond, toInt_eq_toNat_cond, toNat_add, one]
  omega

theorem moreRecent_of_seqnum {now l1 l2} (later : l1.data.lsSeqnum.toInt < l2.data.lsSeqnum.toInt) :
    moreRecent now l1 l2 < 0 := by
  rw [moreRecent, if_neg (Int.not_lt.mpr (Int.le_of_lt later)), if_pos later]
  decide

end Zebra.Ospfd
