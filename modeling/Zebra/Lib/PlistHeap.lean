import Zebra.Base.Deque
import Zebra.Lib.Plist

/-! Prefix lists of lib/plist.c as they are linked. What reads an entry that was freed has no
result. -/
namespace Zebra
open Function Base.Deque

/-- `prefix_master_ipv4`, `prefix_master_ipv6` and `prefix_master_orf`. -/
inductive PrefixMaster where
  | ipv4
  | ipv6
  | orf
deriving DecidableEq

/-- A name under a master. -/
structure PlistName where
  master : PrefixMaster
  name : String
deriving DecidableEq

/-- The address of a `struct prefix_list_entry`. -/
abbrev EntryAddr := Nat

/-- The lists there are, and whether they have a description; their entries; and how many entries
were made so far, which is where a walk along a list ends at the latest. -/
structure Plists where
  list : PlistName → Option Bool := fun _ => none
  links : Links PlistName EntryAddr := {}
  entry : EntryAddr → Option PrefixListEntry := fun _ => none
  made : Nat := 0

/-- An entry and where it is. -/
abbrev EntryCell := EntryAddr × PrefixListEntry

namespace Plists
section
variable (ps : Plists) (key : PlistName)

/-- What a loop over the entries of a list sees. -/
def cells : Option (List EntryCell) :=
  (ps.links.walk ps.made (ps.links.head key)).mapM fun pentry => (ps.entry pentry).map (pentry, ·)

def prefixListGet : Plists :=
  if (ps.list key).isSome then ps else { ps with list := update ps.list key (some false) }

def prefixListEntryFree (ps : Plists) (pentry : EntryAddr) : Plists :=
  { ps with entry := update ps.entry pentry none }

/-- `prefix_list_delete`. The next list of the name starts as zeros. -/
def prefixListDelete : Option Plists :=
  (ps.cells key).map fun cells =>
    let freed := cells.foldl (fun freed cell => freed.prefixListEntryFree cell.1) ps
    { freed with list := update freed.list key none, links := freed.links.clear key }

def prefixListEntryMake (ps : Plists) (addr : EntryAddr) (pentry : PrefixListEntry) : Plists :=
  { ps with entry := update ps.entry addr (some pentry), made := ps.made + 1 }

/-- The highest of the numbers, rounded. -/
def prefixNewSeqGet (cells : List EntryCell) : BitVec 32 :=
  let maxseq := cells.foldl (fun maxseq cell => if maxseq < cell.2.seq.toInt then cell.2.seq.toInt
    else maxseq) 0
  BitVec.ofInt 32 (maxseq / 5 * 5 + 5)

/-- The number that an entry is to get. -/
def seqFor (cells : List EntryCell) (seq : BitVec 32) : BitVec 32 :=
  if seq = -1 then prefixNewSeqGet cells else seq

def prefixSeqCheck (cells : List EntryCell) (seq : BitVec 32) : Option EntryCell :=
  cells.find? fun cell => cell.2.seq = seq

def prefixListEntryLookup (cells : List EntryCell) (route : EntryPrefix) (type : PrefixListType)
    (seq : BitVec 32) (le ge : Nat) : Option EntryCell :=
  cells.find? fun cell => PrefixList.isEntry route type seq le ge cell.2

def prefixEntryDupCheck (cells : List EntryCell) (new : PrefixListEntry) : Bool :=
  cells.any fun cell => cell.2.route.same new.route && cell.2.type = new.type && cell.2.le =
    new.le && cell.2.ge = new.ge &&
    cell.2.seq ≠ seqFor cells new.seq

/-- A list with neither head nor tail nor description goes. -/
def settle : Option Plists :=
  if ps.links.head key = none ∧ ps.links.tail key = none ∧
    ps.list key = some false then ps.prefixListDelete key else some ps

/-- `prefix_list_entry_delete` without `update_list`. -/
def entryUnlink (pentry : EntryAddr) : Plists :=
  { ps with links := ps.links.delete key pentry }.prefixListEntryFree pentry

def prefixListEntryDelete (pentry : EntryAddr) (updateList : Bool) : Option Plists :=
  if updateList then (ps.entryUnlink key pentry).settle key else some (ps.entryUnlink key pentry)

/-- The entry that `replace` is goes first. -/
def entryReplace (replace : Option EntryCell) : Plists :=
  match replace with
  | some old => ps.entryUnlink key old.1
  | none => ps

/-- The entry at `addr` is linked before `point`, or at the end. -/
def entryLink (addr : EntryAddr) (point : Option EntryCell) : Plists :=
  match point with
  | some there => { ps with links := ps.links.insertBefore key there.1 addr }
  | none => { ps with links := ps.links.append key addr }

/-- `prefix_list_entry_add` for an entry that is made at `addr`. -/
def prefixListEntryAdd (addr : EntryAddr) (pentry : PrefixListEntry) : Option Plists :=
  (ps.cells key).bind fun cells =>
    let seq := seqFor cells pentry.seq
    let cut := ps.entryReplace key (prefixSeqCheck cells seq)
    (cut.cells key).map fun cells =>
      (cut.prefixListEntryMake addr { pentry with seq }).entryLink key addr
        (cells.find? fun point => seq.toInt ≤ point.2.seq.toInt)

/-- `prefix_list_apply`. -/
def prefixListApply (p : Prefix) : Option PrefixListType :=
  if ps.list key = none then some .deny
  else if ps.links.count key = 0 then some .permit
  else
    (ps.cells key).map fun cells =>
      ((cells.find? fun cell => prefixListEntryMatch cell.2 p).map fun cell =>
        cell.2.type).getD .deny

/-- A checked entry is added, unless the same policy is there. -/
def install (addr : EntryAddr) (pentry : PrefixListEntry) : Option Plists :=
  let ps := ps.prefixListGet key
  (ps.cells key).bind fun cells =>
    if prefixEntryDupCheck cells pentry then some ps else ps.prefixListEntryAdd key addr pentry

/-- The entry that is given is deleted, if it is there. -/
def uninstall (route : EntryPrefix) (type : PrefixListType) (seq : BitVec 32) (le ge : Nat) :
    Option Plists :=
  (ps.cells key).bind fun cells =>
    match prefixListEntryLookup cells route type seq le ge with
    | some cell => ps.prefixListEntryDelete key cell.1 true
    | none => some ps

def vtyPrefixListInstall (family : Family) (ps : Plists) (key : PlistName) (addr : EntryAddr)
    (seq : BitVec 32)
    (type : PrefixListType) (route : Option Prefix) (ge le : Nat) : Option Plists :=
  let (p, genum, lenum) := given family route ge le
  if parses family route ge le = false ∨ rangeInvalid p.prefixlen genum lenum then some ps
  else ps.install key addr { seq, le := lastBound family genum lenum, ge := genum, type,
                             any := route.isNone, route := p.entry }

def vtyPrefixListUninstall (family : Family) (ps : Plists) (key : PlistName) (seq : BitVec 32)
    (type : PrefixListType) (route : Option Prefix) (ge le : Nat) : Option Plists :=
  let (p, genum, lenum) := given family route ge le
  if ps.list key = none ∨ parses family route ge le = false then some ps
  else ps.uninstall key p.entry type seq lenum genum

def vtyPrefixListDescUnset : Option Plists :=
  if ps.list key = none then some ps
    else { ps with list := update ps.list key (some false) }.settle key

def prefixListCmd (family : Family) (ps : Plists) (key : PlistName) (addr : EntryAddr) :
    PrefixListCmd → Option Plists
  | .install seq type route ge le => vtyPrefixListInstall family ps key addr seq type route ge le
  | .uninstall seq type route ge le => vtyPrefixListUninstall family ps key seq type route ge le
  | .delete => if ps.list key = none then some ps else ps.prefixListDelete key
  | .description => some { ps.prefixListGet key with
    list := update (ps.prefixListGet key).list key (some true) }
  | .noDescription => ps.vtyPrefixListDescUnset key

/-- `afi == AFI_IP ? 32 : 128`. -/
def orfMaxBitlen (ip : Bool) : Nat := if ip then 32 else 128

/-- `prefix_bgp_orf_set`. -/
def prefixBgpOrfSet (addr : EntryAddr) (ip : Bool) (orfp : PrefixListEntry) (set : Bool) :
    Option Plists :=
  if rangeInvalid orfp.route.prefixlen orfp.ge orfp.le then some ps
  else
    let le := if orfp.ge ≠ 0 ∧ orfp.le = orfMaxBitlen ip then 0 else orfp.le
    if set then ps.install key addr { orfp with le, any := false }
    else (ps.prefixListGet key).uninstall key orfp.route orfp.type orfp.seq le orfp.ge

def prefixBgpOrfRemoveAll : Option Plists :=
  if ps.list key = none then some ps else ps.prefixListDelete key

end

/-- The callers of this file and of its two list functions. An entry to delete is one that a walk
  finds. -/
inductive Op where
  | entryAdd (key : PlistName) (pentry : PrefixListEntry)
  | entryDelete (key : PlistName) (wanted : PrefixListEntry → Bool) (updateList : Bool)
  | cmd (ip : Bool) (name : String) (cmd : PrefixListCmd)
  | orfSet (name : String) (ip : Bool) (orfp : PrefixListEntry) (set : Bool)
  | orfRemoveAll (name : String)

/-- A list of the configuration. -/
def confKey (ip : Bool) (name : String) : PlistName :=
  ⟨if ip then .ipv4 else .ipv6, name⟩

/-- One call; an entry that it makes is made at `addr`. -/
def act (addr : EntryAddr) (ps : Plists) : Op → Option Plists
  | .entryAdd key pentry => if ps.list key = none then some ps
  else ps.prefixListEntryAdd key addr pentry
  | .entryDelete key wanted updateList =>
    if ps.list key = none then some ps
    else
      (ps.cells key).bind fun cells =>
        match cells.find? fun cell => wanted cell.2 with
        | some cell => ps.prefixListEntryDelete key cell.1 updateList
        | none => some ps
  | .cmd ip name cmd => ps.prefixListCmd (if ip then .inet else .inet6) (confKey ip name) addr cmd
  | .orfSet name ip orfp set => ps.prefixBgpOrfSet ⟨.orf, name⟩ addr ip orfp set
  | .orfRemoveAll name => ps.prefixBgpOrfRemoveAll ⟨.orf, name⟩

/-- What calls lead to. An entry is made where none is. -/
inductive Reached : Plists → Prop where
  | start : Reached {}
  | step {ps after : Plists} (reached : Reached ps) {addr : EntryAddr}
      (unused : ps.entry addr = none) (op : Op)
      (acted : ps.act addr op = some after) : Reached after

end Plists
end Zebra
