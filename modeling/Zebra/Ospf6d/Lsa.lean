import Zebra.Base.Wire
import Mathlib.Tactic.Common

/-! Instances of a link state advertisement in ospf6d/ospf6_lsa.c. `long` has 64 bits. -/
namespace Zebra.Ospf6d
open Base BitVec

/-- What a database files an instance under, in host order. -/
structure Ospf6LsaKey where
  type : BitVec 16
  advRouter : BitVec 32
  id : BitVec 32
deriving DecidableEq

/-- `struct ospf6_lsa_header`, in host order. -/
structure Ospf6LsaHeader where
  age : BitVec 16 := 0
  key : Ospf6LsaKey
  seqnum : BitVec 32
  checksum : BitVec 16 := 0
  length : BitVec 16 := 20
deriving DecidableEq

/-- `struct ospf6_lsa` with what is behind its header pointer; `birth` in whole seconds. -/
structure Ospf6Lsa where
  header : Ospf6LsaHeader
  body : List Octet := []
  birth : Int := 0
deriving DecidableEq

def maxage : Nat := 3600
def maxAgeDiff : Nat := 900
def initialSequenceNumber : BitVec 32 := 0x80000001
def maxSequenceNumber : BitVec 32 := 0x7fffffff

namespace Ospf6Lsa

def key (lsa : Ospf6Lsa) : Ospf6LsaKey := lsa.header.key

/-- `ospf6_lsa_age_current`. The header only caches this: every reader asks anew. -/
def ospf6LsaAgeCurrent (now : Int) (lsa : Ospf6Lsa) : Nat :=
  let ulage := (BitVec.ofInt 32 (now - lsa.birth)).toNat
  if maxage < ulage then maxage else ulage

/-- The `signed long` that `ospf6_lsa_compare` orders instances by: the number is unsigned until
it has 64 bits. -/
def seqnumOffset (lsa : Ospf6Lsa) : Int :=
  lsa.header.seqnum.toNat - (initialSequenceNumber.toNat : Int)

/-- The two checks of ages. -/
def compareAge (agea ageb : Nat) : Int :=
  if agea = maxage ∧ ageb ≠ maxage then -1
  else if agea ≠ maxage ∧ ageb = maxage then 1
  else if ageb < agea ∧ maxAgeDiff ≤ agea - ageb then 1
  else if agea < ageb ∧ maxAgeDiff ≤ ageb - agea then -1
  else 0

/-- `ospf6_lsa_compare`: -1 when `a` is more recent, 1 when `b` is. The callers pass two instances
of one advertisement. -/
def ospf6LsaCompare (now : Int) (a b : Ospf6Lsa) : Int :=
  if b.seqnumOffset < a.seqnumOffset then -1
  else if a.seqnumOffset < b.seqnumOffset then 1
  else if b.header.checksum < a.header.checksum then -1
  else if a.header.checksum < b.header.checksum then 0
  else compareAge (a.ospf6LsaAgeCurrent now) (b.ospf6LsaAgeCurrent now)

theorem compareAge_swap (agea ageb : Nat) : compareAge agea ageb = -compareAge ageb agea := by
  unfold compareAge
  grind

theorem seqnumOffset_lt_iff (a b : Ospf6Lsa) :
    a.seqnumOffset < b.seqnumOffset ↔ a.header.seqnum < b.header.seqnum := by
  rw [seqnumOffset, seqnumOffset, lt_def]
  omega

variable {now : Int} {a b old : Ospf6Lsa}

theorem compare_of_seqnum_gt (above : b.header.seqnum < a.header.seqnum) :
    ospf6LsaCompare now a b = -1 := by
  rw [ospf6LsaCompare, if_pos ((seqnumOffset_lt_iff b a).mpr above)]

theorem compare_of_seqnum_lt (below : a.header.seqnum < b.header.seqnum) :
    ospf6LsaCompare now a b = 1 := by
  have notAbove : ¬ b.header.seqnum < a.header.seqnum := BitVec.not_lt.mpr (BitVec.le_of_lt below)
  rw [ospf6LsaCompare, if_neg (notAbove ∘ (seqnumOffset_lt_iff b a).mp),
    if_pos ((seqnumOffset_lt_iff a b).mpr below)]

/-- Equal sequence numbers leave the decision to the checksums, then to the ages. -/
theorem compare_of_seqnum_eq (same : a.header.seqnum = b.header.seqnum) : ospf6LsaCompare now a b =
      if b.header.checksum < a.header.checksum then -1
      else if a.header.checksum < b.header.checksum then 0
      else compareAge (a.ospf6LsaAgeCurrent now) (b.ospf6LsaAgeCurrent now) := by
  have first : ¬ b.seqnumOffset < a.seqnumOffset := by rw [seqnumOffset, seqnumOffset, same]; omega
  have second : ¬ a.seqnumOffset < b.seqnumOffset := by rw [seqnumOffset, seqnumOffset, same]; omega
  rw [ospf6LsaCompare, if_neg first, if_neg second]

theorem compare_of_checksum_lt (same : a.header.seqnum = b.header.seqnum)
    (below : a.header.checksum < b.header.checksum) : ospf6LsaCompare now a b = 0 := by
  rw [compare_of_seqnum_eq same, if_neg (BitVec.not_lt.mpr (BitVec.le_of_lt below)), if_pos below]

/-- What the order of instances is for: it is antisymmetric, sequence numbers count as signed, and
instances that differ in the number or the checksum are told apart. -/
structure Ordered (now : Int) (a b : Ospf6Lsa) : Prop where
  antisymmetric : ospf6LsaCompare now a b = -ospf6LsaCompare now b a
  later : b.header.seqnum.toInt < a.header.seqnum.toInt → ospf6LsaCompare now a b = -1
  earlier : a.header.seqnum.toInt < b.header.seqnum.toInt → ospf6LsaCompare now a b = 1
  apart : a.header.seqnum ≠ b.header.seqnum ∨ a.header.checksum ≠ b.header.checksum →
    ospf6LsaCompare now a b ≠ 0

theorem toInt_lt_iff {first second : BitVec 32} (sign : first.msb = second.msb) :
    first.toInt < second.toInt ↔ first < second := by
  rw [lt_def, toInt_eq_msb_cond, toInt_eq_msb_cond, sign]
  split <;> omega

/-- Across the signs the unsigned order is the reverse of the signed one. -/
theorem toInt_lt_of_msb {first second : BitVec 32} (negative : first.msb = true)
    (positive : second.msb = false) :
    first.toInt < second.toInt ∧ second < first := by
  have upper := msb_eq_true_iff_two_mul_ge.mp negative
  have lower := msb_eq_false_iff_two_mul_lt.mp positive
  rw [lt_def, toInt_eq_msb_cond, toInt_eq_msb_cond, negative, positive]
  simp only [if_true, Bool.false_eq_true, if_false]
  omega

theorem lt_or_gt_of_toNat {width} {first second : BitVec width} (differ : first ≠ second) :
    first < second ∨ second < first :=
  Nat.lt_or_gt_of_ne fun same => differ (eq_of_toNat_eq same)

theorem ordered_of_seqnum_eq (same : a.header.seqnum = b.header.seqnum)
    (sums : a.header.checksum = b.header.checksum) : Ordered now a b where
  antisymmetric := by
    rw [compare_of_seqnum_eq same, compare_of_seqnum_eq same.symm, sums]
    simp only [BitVec.lt_irrefl, if_false]
    exact compareAge_swap _ _
  later above := absurd above (by rw [same]; omega)
  earlier below := absurd below (by rw [same]; omega)
  apart differ := absurd differ (by simp [same, sums])

theorem ordered_of_seqnum_ne (sign : a.header.seqnum.msb = b.header.seqnum.msb)
    (differ : a.header.seqnum ≠ b.header.seqnum) : Ordered now a b := by
  rcases lt_or_gt_of_toNat differ with below | above
  · have result : ospf6LsaCompare now a b = 1 := compare_of_seqnum_lt below
    have back : ospf6LsaCompare now b a = -1 := compare_of_seqnum_gt below
    refine ⟨by rw [result, back]; rfl, ?_, fun _ => result, fun _ => by rw [result]; decide⟩
    intro later
    exact absurd ((toInt_lt_iff sign.symm).mp later) (BitVec.not_lt.mpr (BitVec.le_of_lt below))
  · have result : ospf6LsaCompare now a b = -1 := compare_of_seqnum_gt above
    have back : ospf6LsaCompare now b a = 1 := compare_of_seqnum_lt above
    refine ⟨by rw [result, back], fun _ => result, ?_, fun _ => by rw [result]; decide⟩
    intro earlier
    exact absurd ((toInt_lt_iff sign).mp earlier) (BitVec.not_lt.mpr (BitVec.le_of_lt above))

theorem Ordered.sign (ordered : Ordered now a b) : a.header.seqnum.msb = b.header.seqnum.msb := by
  cases left : a.header.seqnum.msb <;> cases right : b.header.seqnum.msb
  · rfl
  · obtain ⟨later, above⟩ := toInt_lt_of_msb right left
    have said := ordered.later later
    rw [compare_of_seqnum_lt above] at said
    cases said
  · obtain ⟨earlier, above⟩ := toInt_lt_of_msb left right
    have said := ordered.earlier earlier
    rw [compare_of_seqnum_gt above] at said
    cases said
  · rfl

theorem Ordered.checksum (ordered : Ordered now a b) (same : a.header.seqnum = b.header.seqnum) :
    a.header.checksum = b.header.checksum := by
  by_contra differ
  have apart := ordered.apart (.inr differ)
  rcases lt_or_gt_of_toNat differ with below | above
  · exact apart (compare_of_checksum_lt same below)
  · have back := ordered.antisymmetric
    rw [compare_of_checksum_lt same.symm above] at back
    exact apart back

theorem ordered_iff : Ordered now a b ↔ a.header.seqnum.msb = b.header.seqnum.msb ∧
      (a.header.seqnum = b.header.seqnum → a.header.checksum = b.header.checksum) := by
  refine ⟨fun ordered => ⟨ordered.sign, ordered.checksum⟩, fun ⟨sign, sums⟩ => ?_⟩
  by_cases same : a.header.seqnum = b.header.seqnum
  · exact ordered_of_seqnum_eq same (sums same)
  · exact ordered_of_seqnum_ne sign same

/-- What `ospf6_lsdb_lookup` finds in a database: under a key only what belongs there. -/
structure Lookups where
  lookup : Ospf6LsaKey → Option Ospf6Lsa
  filed : ∀ {key lsa}, lookup key = some lsa → lsa.key = key

/-- `ospf6_new_ls_seqnum`. -/
def ospf6NewLsSeqnum (key : Ospf6LsaKey) (lsdb : Lookups) : BitVec 32 :=
  match lsdb.lookup key with
  | none => initialSequenceNumber
  | some lsa => BitVec.ofInt 32 (lsa.header.seqnum.toNat + 1)

/-- The octets that the checksum covers, with its own field zero. -/
def checkedOctets (lsa : Ospf6Lsa) : List Octet :=
  toOctets 2 lsa.header.key.type.toNat ++ toOctets 4 lsa.header.key.id.toNat ++
    toOctets 4 lsa.header.key.advRouter.toNat ++ toOctets 4 lsa.header.seqnum.toNat ++ [0, 0] ++
    toOctets 2 lsa.header.length.toNat ++ lsa.body

/-- `ospf6_lsa_checksum`. The sums are reduced at the end only: the source does it in between so
that they stay small. -/
def ospf6LsaChecksum (lsa : Ospf6Lsa) : BitVec 16 :=
  let length : Int := (lsa.header.length - 2).toNat
  let sums := (lsa.checkedOctets.take length.toNat).foldl
    (fun (sums : Nat × Nat) octet => (sums.1 + octet.toNat, sums.2 + (sums.1 + octet.toNat))) (0, 0)
  let c0 : Int := (sums.1 % 255 : Nat)
  let c1 : Int := (sums.2 % 255 : Nat)
  let x := ((length - 15) * c0 - c1).tmod 255
  let x := if x ≤ 0 then x + 255 else x
  let y := 510 - c0 - x
  let y := if 255 < y then y - 255 else y
  BitVec.ofInt 16 (256 * x + y)

/-- `ospf6_lsa_create`, with the birth that `ospf6_lsa_age_set` works out. -/
def ospf6LsaCreate (now : Int) (header : Ospf6LsaHeader) (body : List Octet) : Ospf6Lsa :=
  { header := header, body := body, birth := now - header.age.toNat }

/-- `self` with its age reset and the next sequence number, before the checksum. -/
def renewed (self : Ospf6Lsa) (lsdb : Lookups) : Ospf6Lsa :=
  { self with header := { self.header with age := 0, seqnum := ospf6NewLsSeqnum self.key lsdb } }

/-- `ospf6_lsa_refresh` up to the flooding: the instance it creates, which it also files among
our own. Without an instance of our own `old` is aged out and none is created. -/
def ospf6LsaRefresh (now : Int) (lsdbSelf lsdb : Lookups) (old : Ospf6Lsa) : Option Ospf6Lsa := do
  let self ← lsdbSelf.lookup old.key
  let self := self.renewed lsdb
  return ospf6LsaCreate now { self.header with checksum := self.ospf6LsaChecksum } self.body

/-- A refresh makes an instance more recent than the copy in the database, unless that has the
greatest number already. -/
def RefreshNewer (lsdbSelf lsdb : Lookups) (old : Ospf6Lsa) : Prop :=
  ∀ copy, lsdb.lookup old.key = some copy → copy.header.seqnum.toInt < maxSequenceNumber.toInt →
    ∀ created now new, ospf6LsaRefresh created lsdbSelf lsdb old = some new →
      ospf6LsaCompare now new copy = -1

theorem refresh_seqnum {lsdbSelf lsdb copy new} (found : lsdb.lookup old.key = some copy)
    (created : ospf6LsaRefresh now lsdbSelf lsdb old = some new) :
    new.header.seqnum = copy.header.seqnum + 1 := by
  obtain ⟨self, known, made⟩ := Option.bind_eq_some_iff.mp created
  cases made
  show ospf6NewLsSeqnum self.key lsdb = _
  rw [ospf6NewLsSeqnum, lsdbSelf.filed known, found]
  apply eq_of_toInt_eq
  rfl

theorem seqnum_lt_succ {number : BitVec 32} : number < number + 1 ↔ number ≠ 0xffffffff := by
  have whole : (number + 1).toNat = (number.toNat + 1) % 2 ^ 32 := toNat_add _ _
  rw [lt_def, whole, ne_eq, ← toNat_inj]
  show _ ↔ ¬ number.toNat = 4294967295
  omega

theorem refresh_some (now : Int) {lsdbSelf} (lsdb : Lookups) {self}
    (known : lsdbSelf.lookup old.key = some self) :
    ∃ new, ospf6LsaRefresh now lsdbSelf lsdb old = some new :=
  ⟨_, by rw [ospf6LsaRefresh, known]; rfl⟩

theorem refreshNewer_iff {lsdbSelf lsdb : Lookups} : RefreshNewer lsdbSelf lsdb old ↔
      ∀ copy, lsdb.lookup old.key = some copy → copy.header.seqnum = 0xffffffff →
        lsdbSelf.lookup old.key = none := by
  constructor
  · intro newer copy found last
    cases known : lsdbSelf.lookup old.key with
    | none => rfl
    | some self =>
      obtain ⟨new, made⟩ := refresh_some 0 lsdb known
      have said := newer copy found (by rw [last]; decide) 0 0 new made
      have wrapped := refresh_seqnum found made
      rw [compare_of_seqnum_lt (by rw [wrapped, last]; decide)] at said
      cases said
  · intro vacant copy found _ created now new made
    apply compare_of_seqnum_gt
    rw [refresh_seqnum found made, seqnum_lt_succ]
    intro last
    rw [ospf6LsaRefresh, vacant copy found last] at made
    cases made

/-- When the order of OSPFv3 instances is what it should be: for two instances exactly when their
sequence numbers have one sign and equal numbers come with equal checksums, for a refresh exactly
when the copy is not numbered -1 or there is nothing to refresh it from. -/
theorem ospf6_instance_order (now : Int) (a b : Ospf6Lsa) (lsdbSelf lsdb : Lookups)
    (old : Ospf6Lsa) :
    (Ordered now a b ↔ a.header.seqnum.msb = b.header.seqnum.msb ∧
      (a.header.seqnum = b.header.seqnum → a.header.checksum = b.header.checksum)) ∧
    (RefreshNewer lsdbSelf lsdb old ↔
      ∀ copy, lsdb.lookup old.key = some copy → copy.header.seqnum = 0xffffffff →
        lsdbSelf.lookup old.key = none) :=
  ⟨ordered_iff, refreshNewer_iff⟩

/-- Router-LSA 0.0.0.0 of 1.1.1.1, with a number and a checksum. -/
def sampleLsa (seqnum : BitVec 32) (checksum : BitVec 16) : Ospf6Lsa where
  header := { key := ⟨0x2001, 0x01010101, 0⟩, seqnum := seqnum, checksum := checksum }

def sampleLookups (seqnum : BitVec 32) : Lookups where
  lookup key := if key = (sampleLsa seqnum 0).key then some (sampleLsa seqnum 0) else none
  filed {key lsa} found := by
    split at found
    · cases found
      exact Eq.symm (by assumption)
    · cases found

/-- The smaller checksum makes two instances equal one way round and not the other; -1 is taken for
more recent than 0, so that a copy numbered -1 is refreshed by an instance older than it. -/
theorem ospf6_instances_out_of_order :
    ¬ Ordered 0 (sampleLsa 0x80000001 1) (sampleLsa 0x80000001 2) ∧
    ¬ Ordered 0 (sampleLsa 0 1) (sampleLsa 0xffffffff 1) ∧
    ¬ RefreshNewer (sampleLookups 0xffffffff) (sampleLookups 0xffffffff)
    (sampleLsa 0xffffffff 0) := by
  refine ⟨?_, ?_, ?_⟩
  · intro ordered
    cases ordered.antisymmetric
  · intro ordered
    cases ordered.later (by decide)
  · intro newer
    have said := newer (sampleLsa 0xffffffff 0) (by decide) (by decide) 0 0 _ rfl
    exact absurd said (by decide +kernel)

end Ospf6Lsa
end Zebra.Ospf6d
