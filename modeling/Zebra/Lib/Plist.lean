import Zebra.Lib.Prefix

/-! Prefix lists of lib/plist.c. How often an entry was looked at and matched is left out. -/
namespace Zebra
open Base Option

inductive PrefixListType where
  | deny
  | permit
deriving DecidableEq

/-- The prefix of an entry. One that came from a neighbour may be too long for its family. -/
structure EntryPrefix where
  family : Family
  prefixlen : Nat
  octets : Vector Octet 16
deriving DecidableEq

/-- `struct prefix_list_entry`. -/
structure PrefixListEntry where
  seq : BitVec 32
  le : Nat
  ge : Nat
  type : PrefixListType
  any : Bool := false
  route : EntryPrefix
deriving DecidableEq

/-- `struct prefix_list`, with its entries in order. -/
structure PrefixList where
  entries : List PrefixListEntry := []
  desc : Bool := false
deriving DecidableEq

/-- `IPV4_MAX_BITLEN` and `IPV6_MAX_BITLEN`. -/
def Family.maxBitlen (family : Family) : Nat := 8 * family.bytelen

def psize (prefixlen : Nat) : Nat := (prefixlen + 7) / 8

def Prefix.entry (p : Prefix) : EntryPrefix := ⟨p.family, p.prefixlen, p.octets⟩

namespace EntryPrefix

/-- `prefix_match`. -/
def includes (n : EntryPrefix) (p : Prefix) : Bool :=
  if p.prefixlen < n.prefixlen then false
  else if n.prefixlen % 8 ≠ 0 ∧
      maskbit (n.prefixlen % 8) &&&
        (octetAt n.octets (n.prefixlen / 8) ^^^ octetAt p.octets (n.prefixlen / 8)) ≠ 0 then false
  else octetsEqualBelow n.octets p.octets (n.prefixlen / 8)

/-- `prefix_same`: the whole address counts, not only the bits of the prefix. -/
def same (p1 p2 : EntryPrefix) : Bool :=
  p1.family = p2.family && p1.prefixlen = p2.prefixlen && p1.family ≠ .unspec &&
    octetsEqualBelow p1.octets p2.octets p1.family.bytelen

end EntryPrefix

def prefixListEntryMatch (pentry : PrefixListEntry) (p : Prefix) : Bool :=
  if pentry.route.includes p = false then false
  else if pentry.le = 0 ∧ pentry.ge = 0 then pentry.route.prefixlen = p.prefixlen
  else if pentry.le ≠ 0 ∧ pentry.le < p.prefixlen then false
  else if pentry.ge ≠ 0 ∧ p.prefixlen < pentry.ge then false
  else true

def prefixListApply : Option PrefixList → Prefix → PrefixListType
  | none, _ => .deny
  | some plist, p =>
    if plist.entries = [] then .permit
    else ((plist.entries.find? fun pentry => prefixListEntryMatch pentry p).map
      PrefixListEntry.type).getD .deny

namespace PrefixList
variable (plist : PrefixList)

def prefixNewSeqGet : BitVec 32 :=
  let maxseq := plist.entries.foldl
    (fun maxseq pentry => if maxseq < pentry.seq.toInt then pentry.seq.toInt else maxseq) 0
  BitVec.ofInt 32 (maxseq / 5 * 5 + 5)

/-- Before the first entry that is not lower. -/
def insertEntry (pentry : PrefixListEntry) : List PrefixListEntry → List PrefixListEntry
  | [] => [pentry]
  | point :: rest => if pentry.seq.toInt ≤ point.seq.toInt then pentry :: point :: rest
    else point :: insertEntry pentry rest

/-- The number that an entry gets. -/
def seqOf (pentry : PrefixListEntry) : BitVec 32 :=
  if pentry.seq = -1 then plist.prefixNewSeqGet else pentry.seq

/-- `prefix_list_entry_add`, which replaces the entry that has the number already. -/
def prefixListEntryAdd (pentry : PrefixListEntry) : PrefixList :=
  { plist with
    entries := insertEntry { pentry with seq := plist.seqOf pentry }
      (plist.entries.eraseP fun found => found.seq = plist.seqOf pentry) }

def prefixEntryDupCheck (new : PrefixListEntry) : Bool :=
  plist.entries.any fun pentry => pentry.route.same new.route && pentry.type =
    new.type && pentry.le = new.le &&
    pentry.ge = new.ge && pentry.seq ≠ plist.seqOf new

variable (route : EntryPrefix) (type : PrefixListType) (seq : BitVec 32) (le ge : Nat)

/-- What `prefix_list_entry_lookup` compares. A negative number is none. -/
def isEntry (pentry : PrefixListEntry) : Bool :=
  pentry.route.same route && pentry.type = type && !(0 ≤ seq.toInt && pentry.seq ≠ seq) &&
    pentry.le = le && pentry.ge = ge

/-- A list goes with its last entry, when it has no description. -/
def settle : Option PrefixList :=
  if plist.entries = [] ∧ plist.desc = false then none else some plist

/-- `prefix_list_entry_lookup` and `prefix_list_entry_delete`; whether there was such an entry. -/
def prefixListEntryDelete : Bool × Option PrefixList :=
  if plist.entries.any (isEntry route type seq le ge) then
    (true, { plist with entries := plist.entries.eraseP (isEntry route type seq le ge) }.settle)
  else (false, some plist)

end PrefixList

/-- The check of the two bounds. -/
def rangeInvalid (prefixlen ge le : Nat) : Bool :=
  ge ≠ 0 && ge ≤ prefixlen || le ≠ 0 && le ≤ prefixlen || le ≠ 0 && le < ge

section
variable (family : Family)

/-- An upper bound that is none. -/
def lastBound (ge le : Nat) : Nat :=
  if ge ≠ 0 ∧ le = family.maxBitlen then 0 else le

/-- The commands for one list. Without a number the number is -1, a bound that is not given is zero,
and without a prefix it is `any`. -/
inductive PrefixListCmd where
  | install (seq : BitVec 32) (type : PrefixListType) (route : Option Prefix) (ge le : Nat)
  | uninstall (seq : BitVec 32) (type : PrefixListType) (route : Option Prefix) (ge le : Nat)
  | delete
  | description
  | noDescription

/-- 0.0.0.0/0 or ::/0. -/
def anyRoute : Prefix where
  family := family
  prefixlen := 0
  octets := .replicate 16 0
  fits := Nat.zero_le _

/-- The route, `ge` and `le` of a command. -/
def given (route : Option Prefix) (ge le : Nat) : Prefix × Nat × Nat :=
  match route with
  | none => (anyRoute family, 0, family.maxBitlen)
  | some p => (p, ge, le)

/-- What the command line lets through: a prefix of the family, and bounds within it. -/
def parses (route : Option Prefix) (ge le : Nat) : Bool :=
  route.all (fun p => p.family = family) && ge ≤ family.maxBitlen && le ≤ family.maxBitlen

def vtyPrefixListInstall (plist : Option PrefixList) (seq : BitVec 32) (type : PrefixListType)
    (route : Option Prefix) (ge le : Nat) : Option PrefixList :=
  let (p, genum, lenum) := given family route ge le
  if parses family route ge le = false ∨ rangeInvalid p.prefixlen genum lenum then plist
  else
    let plist := plist.getD {}
    let pentry := { seq, le := lastBound family genum lenum, ge := genum, type, any := route.isNone,
                    route := p.entry }
    if plist.prefixEntryDupCheck pentry then some plist else some (plist.prefixListEntryAdd pentry)

def vtyPrefixListUninstall (plist : PrefixList) (seq : BitVec 32) (type : PrefixListType)
    (route : Option Prefix) (ge le : Nat) : Option PrefixList :=
  let (p, genum, lenum) := given family route ge le
  if parses family route ge le = false then some plist
  else (plist.prefixListEntryDelete p.entry type seq lenum genum).2

def prefixListCmd (plist : Option PrefixList) : PrefixListCmd → Option PrefixList
  | .install seq type route ge le => vtyPrefixListInstall family plist seq type route ge le
  | .uninstall seq type route ge le => plist.bind fun plist =>
    vtyPrefixListUninstall family plist seq type route ge le
  | .delete => none
  | .description => some { plist.getD {} with desc := true }
  | .noDescription => plist.bind fun plist => { plist with desc := false }.settle

end

/-- An entry as the command line makes it. -/
structure PrefixListEntry.Valid (family : Family) (pentry : PrefixListEntry) : Prop where
  seq : pentry.seq ≠ -1
  kind : pentry.route.family = family
  fits : pentry.route.prefixlen ≤ family.maxBitlen
  range : rangeInvalid pentry.route.prefixlen pentry.ge pentry.le = false
  last : lastBound family pentry.ge pentry.le = pentry.le
  ge : pentry.ge ≤ family.maxBitlen
  le : pentry.le ≤ family.maxBitlen

/-- Valid entries with growing numbers. -/
structure PrefixList.Valid (family : Family) (plist : PrefixList) : Prop where
  entries : ∀ pentry ∈ plist.entries, pentry.Valid family
  ordered : plist.entries.Pairwise fun first second => first.seq.toInt < second.seq.toInt

variable {family : Family} {plist : PrefixList}

section
variable (family : Family)

theorem lastBound_idem (ge le : Nat) :
    lastBound family ge (lastBound family ge le) = lastBound family ge le := by
  rw [lastBound]
  by_cases none : ge ≠ 0 ∧ le = family.maxBitlen
  · rw [lastBound, if_pos none]
    exact ite_self 0
  · rw [lastBound, if_neg none, if_neg none]

theorem lastBound_le {ge le} (bound : le ≤ family.maxBitlen) :
    lastBound family ge le ≤ family.maxBitlen := by
  rw [lastBound]
  split
  · exact Nat.zero_le _
  · exact bound

theorem rangeInvalid_lastBound {prefixlen ge le} (valid : rangeInvalid prefixlen ge le = false) :
    rangeInvalid prefixlen ge (lastBound family ge le) = false := by
  rw [lastBound]
  split
  · rw [rangeInvalid] at valid ⊢
    simp only [Bool.or_eq_false_iff] at valid ⊢
    exact ⟨⟨valid.1.1, rfl⟩, rfl⟩
  · exact valid

theorem PrefixList.valid_nil (desc : Bool) : PrefixList.Valid family { desc := desc } :=
  ⟨nofun, List.Pairwise.nil⟩

end

theorem maxseq_range (entries : List PrefixListEntry) {start} (low : 0 ≤ start)
    (high : start < 2147483648) :
    0 ≤ entries.foldl (fun maxseq pentry => if maxseq < pentry.seq.toInt then pentry.seq.toInt
      else maxseq) start ∧
    entries.foldl (fun maxseq pentry => if maxseq < pentry.seq.toInt then pentry.seq.toInt
      else maxseq) start < 2147483648 := by
  induction entries generalizing start with
  | nil => exact ⟨low, high⟩
  | cons pentry rest ih =>
    have small : 2 * pentry.seq.toInt < 2 ^ 32 := BitVec.two_mul_toInt_lt
    rw [List.foldl_cons]
    split
    · exact ih (by omega) (by omega)
    · exact ih low high

theorem prefixNewSeqGet_ne (plist : PrefixList) : plist.prefixNewSeqGet ≠ -1 := by
  obtain ⟨low, high⟩ := maxseq_range plist.entries (Int.le_refl 0) (by decide)
  rw [PrefixList.prefixNewSeqGet]
  generalize plist.entries.foldl (fun maxseq pentry => if maxseq < pentry.seq.toInt then
    pentry.seq.toInt else maxseq) 0 = maxseq at *
  intro equal
  have value := congrArg BitVec.toNat equal
  rw [BitVec.toNat_ofInt] at value
  have wrapped : (maxseq / 5 * 5 + 5) % ((2 ^ 32 : Nat) : Int) = maxseq / 5 * 5 + 5 :=
    Int.emod_eq_of_lt (by omega) (by omega)
  have minus : (-1 : BitVec 32).toNat = 4294967295 := by decide
  omega

theorem seqOf_ne (plist : PrefixList) (pentry : PrefixListEntry) : plist.seqOf pentry ≠ -1 := by
  rw [PrefixList.seqOf]
  split
  · exact prefixNewSeqGet_ne plist
  · assumption

theorem mem_insertEntry {pentry found entries} :
    found ∈ PrefixList.insertEntry pentry entries ↔ found = pentry ∨ found ∈ entries := by
  induction entries with
  | nil => rw [PrefixList.insertEntry, List.mem_singleton, or_iff_left List.not_mem_nil]
  | cons point rest ih =>
    rw [PrefixList.insertEntry]
    split
    · exact List.mem_cons
    · rw [List.mem_cons, ih, List.mem_cons]
      exact or_left_comm

theorem ordered_insertEntry {pentry entries}
    (ordered : entries.Pairwise fun first second => first.seq.toInt < second.seq.toInt)
    (new : ∀ found ∈ entries, found.seq ≠ pentry.seq) :
    (PrefixList.insertEntry pentry entries).Pairwise fun first second =>
      first.seq.toInt < second.seq.toInt := by
  induction entries with
  | nil => exact List.pairwise_singleton ..
  | cons point rest ih =>
    obtain ⟨first, later⟩ := List.pairwise_cons.mp ordered
    have apart : point.seq.toInt ≠ pentry.seq.toInt :=
      fun equal => new point List.mem_cons_self (BitVec.eq_of_toInt_eq equal)
    rw [PrefixList.insertEntry]
    split
    · refine List.pairwise_cons.mpr ⟨fun found member => ?_, ordered⟩
      rcases List.mem_cons.mp member with rfl | member
      · omega
      · have := first found member
        omega
    · refine List.pairwise_cons.mpr
        ⟨fun found member => ?_, ih later fun found member => new found (.tail _ member)⟩
      rcases mem_insertEntry.mp member with rfl | member
      · omega
      · exact first found member

theorem PrefixList.Valid.add (valid : plist.Valid family) {pentry}
    (fresh : PrefixListEntry.Valid family { pentry with seq := plist.seqOf pentry }) :
    (plist.prefixListEntryAdd pentry).Valid family := by
  have sub : (plist.entries.eraseP fun found => found.seq = plist.seqOf pentry).Sublist
    plist.entries := List.eraseP_sublist
  have ordered := valid.ordered.sublist sub
  have new (found : PrefixListEntry)
      (member : found ∈ plist.entries.eraseP fun found => found.seq = plist.seqOf pentry) :
      found.seq ≠ plist.seqOf pentry := by
    intro equal
    obtain none | ⟨gone, front, back, before, at_gone, whole, rest⟩ :=
      List.exists_or_eq_self_of_eraseP
        (fun found : PrefixListEntry => decide (found.seq = plist.seqOf pentry)) plist.entries
    · rw [none] at member
      have still := (List.eraseP_eq_self_iff.mp none) found member
      exact still (decide_eq_true equal)
    · rw [rest] at member
      have strict := valid.ordered
      rw [whole, List.pairwise_append] at strict
      obtain ⟨-, right, across⟩ := strict
      have same : gone.seq = found.seq := (of_decide_eq_true at_gone).trans equal.symm
      rcases List.mem_append.mp member with member | member
      · exact before found member (decide_eq_true equal)
      · have less := (List.pairwise_cons.mp right).1 found member
        rw [same] at less
        exact absurd less (Int.lt_irrefl _)
  refine ⟨fun found member => ?_, ordered_insertEntry ordered new⟩
  rcases mem_insertEntry.mp member with rfl | member
  · exact fresh
  · exact valid.entries found (sub.subset member)

theorem PrefixList.Valid.settle (valid : plist.Valid family) :
    ∀ found ∈ plist.settle, found.Valid family := by
  intro found here
  rw [PrefixList.settle] at here
  split at here
  · cases here
  · cases here
    exact valid

theorem valid_uninstall (valid : plist.Valid family) (seq : BitVec 32) (type : PrefixListType)
    (route : Option Prefix) (ge le : Nat) :
    ∀ after ∈ vtyPrefixListUninstall family plist seq type route ge le, after.Valid family := by
  rw [vtyPrefixListUninstall]
  cases given family route ge le with
  | mk p bounds =>
    dsimp only
    split
    · rintro after ⟨⟩
      exact valid
    · rw [PrefixList.prefixListEntryDelete]
      split
      · have sub :
            (plist.entries.eraseP (PrefixList.isEntry p.entry type seq bounds.2 bounds.1)).Sublist
            plist.entries :=
          List.eraseP_sublist
        have fewer :
            PrefixList.Valid family ⟨plist.entries.eraseP
            (PrefixList.isEntry p.entry type seq bounds.2 bounds.1), plist.desc⟩ :=
          ⟨fun found member => valid.entries found (sub.subset member), valid.ordered.sublist sub⟩
        exact fewer.settle
      · rintro after ⟨⟩
        exact valid

theorem parses_route {route ge le} (parsed : parses family route ge le = true) :
    (given family route ge le).1.family = family ∧
    (given family route ge le).2.1 ≤ family.maxBitlen ∧
      (given family route ge le).2.2 ≤ family.maxBitlen := by
  rw [parses, Bool.and_eq_true, Bool.and_eq_true, decide_eq_true_eq, decide_eq_true_eq] at parsed
  cases route with
  | none => exact ⟨rfl, Nat.zero_le _, le_rfl⟩
  | some p => exact ⟨of_decide_eq_true parsed.1.1, parsed.1.2, parsed.2⟩

theorem valid_install {before} (valid : ∀ plist ∈ before, plist.Valid family) (seq : BitVec 32)
    (type : PrefixListType) (route : Option Prefix) (ge le : Nat) :
    ∀ plist ∈ vtyPrefixListInstall family before seq type route ge le, plist.Valid family := by
  rw [vtyPrefixListInstall]
  have start : (before.getD {}).Valid family := by
    cases before with
    | none => exact PrefixList.valid_nil family false
    | some plist => exact valid plist rfl
  cases checked : given family route ge le with
  | mk p bounds =>
    obtain ⟨genum, lenum⟩ := bounds
    dsimp only
    split
    · exact valid
    · rename_i accepted
      rw [not_or, Bool.not_eq_false, Bool.not_eq_true] at accepted
      obtain ⟨kind, geBound, leBound⟩ := parses_route accepted.1
      rw [checked] at kind geBound leBound
      split
      · rintro plist ⟨⟩
        exact start
      · rintro plist ⟨⟩
        refine start.add ⟨seqOf_ne _ _, kind, ?_, rangeInvalid_lastBound family accepted.2,
          lastBound_idem family genum lenum, geBound,
          lastBound_le family leBound⟩
        exact kind ▸ p.fits

theorem valid_cmd {before} (valid : ∀ plist ∈ before, plist.Valid family) (cmd : PrefixListCmd) :
    ∀ plist ∈ prefixListCmd family before cmd, plist.Valid family := by
  cases cmd with
  | install seq type route ge le => exact valid_install valid seq type route ge le
  | uninstall seq type route ge le =>
    intro plist here
    obtain ⟨old, known, after⟩ := bind_eq_some_iff.mp here
    exact valid_uninstall (valid old known) seq type route ge le plist after
  | delete => exact fun _ none => absurd none (not_mem_none _)
  | description =>
    rintro plist ⟨⟩
    cases before with
    | none => exact PrefixList.valid_nil family true
    | some old => exact ⟨(valid old rfl).entries, (valid old rfl).ordered⟩
  | noDescription =>
    intro plist here
    obtain ⟨old, known, after⟩ := bind_eq_some_iff.mp here
    exact (⟨(valid old known).entries, (valid old known).ordered⟩ : PrefixList.Valid family
      { old with desc := false }).settle plist after

theorem valid_cmds (family : Family) (cmds : List PrefixListCmd) :
    ∀ plist ∈ cmds.foldl (prefixListCmd family) none, plist.Valid family := by
  have kept (before : Option PrefixList) (valid : ∀ plist ∈ before, plist.Valid family) :
      ∀ plist ∈ cmds.foldl (prefixListCmd family) before, plist.Valid family := by
    induction cmds generalizing before with
    | nil => exact valid
    | cons cmd rest ih => exact ih _ (valid_cmd valid cmd)
  exact kept none fun _ none => absurd none (not_mem_none _)

end Zebra
