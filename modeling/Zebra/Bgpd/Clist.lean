import Zebra.Base.Octets
import Zebra.Base.Row

/-! Community-lists and extcommunity-lists of bgpd/bgp_clist.c, over the master of either. The
result `none` is a NULL pointer that is followed. -/
namespace Zebra.Bgpd.Clist
open Base

abbrev CString := List Octet

inductive Direct where
  | deny
  | permit
deriving DecidableEq

inductive Style where
  | standard
  | expanded
deriving DecidableEq

/-- `struct community_entry`, with values and compiled expressions of any types. -/
structure CommunityEntry (Value Regex : Type) where
  direct : Direct
  style : Style
  any : Bool
  com : Option Value
  config : Option CString
  reg : Option Regex
deriving DecidableEq

inductive ListError where
  | cantFindList
  | malformedVal
  | standardConflict
  | expandedConflict
deriving DecidableEq

/-- What a value that is looked up is handed on as: `void *arg`. -/
inductive Arg (Value : Type) where
  | com (com : Value)
  | str (str : CString)

section Cmp
variable {Value : Type} [DecidableEq Value]

def communityCmp : Option Value → Option Value → Option Bool
  | none, none => some true
  | some com1, some com2 => some (com1 = com2)
  | _, _ => some false

def ecommunityCmp : Option Value → Option Value → Option Bool
  | some ecom1, some ecom2 => some (ecom1 = ecom2)
  | _, _ => none

end Cmp

/-- What is different between the two kinds of lists: what makes a value from a string, how values
are compared, and what a standard entry has as its configuration. -/
structure Family (Value Regex : Type) where
  str2com : CString → Option Value
  regcomp : CString → Option Regex
  checksNull : Bool
  configOf : Value → Option CString

section Families
variable {Value Regex : Type} (str2com : CString → Option Value) (regcomp : CString → Option Regex)

def communityFamily : Family Value Regex where
  str2com := str2com
  regcomp := regcomp
  checksNull := true
  configOf _ := none

def extcommunityFamily (ecom2str : Value → CString) : Family Value Regex where
  str2com := str2com
  regcomp := regcomp
  checksNull := false
  configOf ecom := some (ecom2str ecom)

end Families

/-- `struct community_list_master` -/
structure CommunityListMaster (Value Regex : Type) where
  num : Row CString (List (CommunityEntry Value Regex)) := []
  str : Row CString (List (CommunityEntry Value Regex)) := []

def isdigit (c : Octet) : Bool := 48 ≤ c && c ≤ 57

/-- `atol`, as far as a `long` goes. -/
def atol (name : CString) : Nat :=
  (name.takeWhile isdigit).foldl (fun number c => number * 10 + (c.toNat - 48)) 0

/-- `strcmp (first, second) >= 0` -/
def strcmpGe : CString → CString → Bool
  | _, [] => true
  | [], _ :: _ => false
  | c :: first, d :: second => if c = d then strcmpGe first second else d ≤ c

namespace CommunityListMaster
variable {Value Regex : Type} (cm : CommunityListMaster Value Regex) (name : CString)

def lookup : Option (List (CommunityEntry Value Regex)) :=
  (cm.num.lookup name).or (cm.str.lookup name)

def communityListInsert : CommunityListMaster Value Regex :=
  if name.all isdigit then
    { cm with num := cm.num.place (fun point => atol name ≤ atol point) name [] }
  else { cm with str := cm.str.place (fun point => strcmpGe point name) name [] }

def communityListGet : CommunityListMaster Value Regex :=
  if (cm.lookup name).isSome then cm else cm.communityListInsert name

/-- The list that `community_list_lookup` finds has other entries. -/
def update (entries : List (CommunityEntry Value Regex)) : CommunityListMaster Value Regex :=
  if (cm.num.lookup name).isSome then { cm with num := cm.num.replace name entries }
    else { cm with str := cm.str.replace name entries }

/-- The list that `community_list_lookup` finds is deleted. -/
def communityListDelete : CommunityListMaster Value Regex :=
  if (cm.num.lookup name).isSome then { cm with num := cm.num.remove name }
    else { cm with str := cm.str.remove name }

/-- `community_list_entry_delete`, with the entries that stay. -/
def communityListEntryDelete (entries : List (CommunityEntry Value Regex)) :
    CommunityListMaster Value Regex :=
  if entries.isEmpty then cm.communityListDelete name else cm.update name entries

end CommunityListMaster

/-- What `community_list_entry_lookup` comes to: the entry with those around it, none, or one whose
  absent value is used. -/
inductive Lookup (Entry : Type) where
  | found (before : List Entry) (entry : Entry) (after : List Entry)
  | missing (before : List Entry)
  | fault (before : List Entry) (entry : Entry)

namespace Lookup
variable {Entry : Type}

/-- One more entry in front, which was passed. -/
def behind (passed : Entry) : Lookup Entry → Lookup Entry
  | found before entry after => found (passed :: before) entry after
  | missing before => missing (passed :: before)
  | fault before entry => fault (passed :: before) entry

/-- The entries that were compared with the value. -/
def compared : Lookup Entry → List Entry
  | found before entry _ => before ++ [entry]
  | missing before => before
  | fault before entry => before ++ [entry]

end Lookup

/-- A call of `community_list_unset`: the entries that were compared with the value, and those that
  were removed. -/
structure Unset (Value Regex : Type) where
  compared : List (CommunityEntry Value Regex) := []
  removed : List (CommunityEntry Value Regex) := []
  answer : Option (Option ListError × CommunityListMaster Value Regex)

namespace Family
variable {Value Regex : Type} [DecidableEq Value] (family : Family Value Regex)

/-- `community_cmp` or `ecommunity_cmp`. -/
def cmp : Option Value → Option Value → Option Bool :=
  if family.checksNull then communityCmp else ecommunityCmp

/-- An entry compared with a value. `mixed` is the comparison with a value that is not of the
entry's style, and is read as one of that. -/
def entryCmp (mixed : CommunityEntry Value Regex → Arg Value → Option Bool)
    (entry : CommunityEntry Value Regex) (arg : Arg Value) :
    Option Bool :=
  match entry.style, arg with
  | .standard, .com com => family.cmp entry.com (some com)
  | .expanded, .str str => entry.config.map fun config => config = str
  | _, _ => mixed entry arg

def communityListEntryLookup (mixed : CommunityEntry Value Regex → Arg Value → Option Bool)
    (arg : Arg Value) :
    List (CommunityEntry Value Regex) → Lookup (CommunityEntry Value Regex)
  | [] => .missing []
  | entry :: rest =>
    match family.entryCmp mixed entry arg with
    | none => .fault [] entry
    | some true => .found [] entry rest
    | some false => (communityListEntryLookup mixed arg rest).behind entry

def communityListDupCheck (new : CommunityEntry Value Regex) :
    List (CommunityEntry Value Regex) → Option Bool
  | [] => some false
  | entry :: rest =>
    if entry.style ≠ new.style ∨ entry.direct ≠ new.direct ∨
      entry.any ≠ new.any then communityListDupCheck new rest
    else if entry.any then some true
    else
      let same := match entry.style with
        | .standard => family.cmp entry.com new.com
        | .expanded => entry.config.bind fun config => new.config.map fun config' =>
          config = config'
      match same with
      | none => none
      | some true => some true
      | some false => communityListDupCheck new rest

/-- `com` and `regex` -/
def valueOf (str : CString) (style : Style) : Option Value × Option Regex :=
  match style with
  | .standard => (family.str2com str, none)
  | .expanded => (none, family.regcomp str)

/-- `! com && ! regex` -/
def malformed (str : CString) (style : Style) : Bool :=
  (family.valueOf str style).1.isNone && (family.valueOf str style).2.isNone

/-- The new entry. -/
def entryOf (str : Option CString) (direct : Direct) (style : Style) : CommunityEntry Value Regex :=
  let com := str.bind fun str => (family.valueOf str style).1
  let regex := str.bind fun str => (family.valueOf str style).2
  { direct := direct, style := style, any := str.isNone, com := com, reg := regex,
    config := match com with
      | some com => family.configOf com
      | none => if regex.isSome then str else none }

section
variable (cm : CommunityListMaster Value Regex) (name : CString) (str : Option CString)
  (direct : Direct) (style : Style)

/-- What `community_list_set` does with a list that has no other style. -/
def setEntry (entries : List (CommunityEntry Value Regex))
    : Option (Option ListError × CommunityListMaster Value Regex) :=
  if str.any fun str => family.malformed str style then some (some .malformedVal, cm)
  else
    let entry := family.entryOf str direct style
    (family.communityListDupCheck entry entries).map fun dup =>
      (none, if dup then cm else cm.update name (entries ++ [entry]))

/-- `community_list_set` and `extcommunity_list_set` -/
def set : Option (Option ListError × CommunityListMaster Value Regex) :=
  let cm := cm.communityListGet name
  let entries := (cm.lookup name).getD []
  match entries.head?.map CommunityEntry.style with
  | some .standard =>
    if style ≠ .standard then some (some .standardConflict, cm)
      else family.setEntry cm name str direct style entries
  | some .expanded =>
    if style ≠ .expanded then some (some .expandedConflict, cm)
      else family.setEntry cm name str direct style entries
  | none => family.setEntry cm name str direct style entries

end

/-- `community_list_unset` and `extcommunity_list_unset`; the direction is handed on, and not looked
  at. -/
def unset (mixed : CommunityEntry Value Regex → Arg Value → Option Bool)
    (cm : CommunityListMaster Value Regex) (name : CString)
    (str : Option CString) (_direct : Direct) (style : Style) : Unset Value Regex :=
  match cm.lookup name with
  | none => { answer := some (some .cantFindList, cm) }
  | some entries =>
    match str with
    | none => { removed := entries, answer := some (none, cm.communityListDelete name) }
    | some str =>
      if family.malformed str style then { answer := some (some .malformedVal, cm) }
      else
        match family.communityListEntryLookup mixed
          (((family.valueOf str style).1.map Arg.com).getD (.str str)) entries with
        | .found before entry after =>
          { compared := before ++ [entry], removed := [entry],
            answer := some (none, cm.communityListEntryDelete name (before ++ after)) }
        | .missing before => { compared := before, answer := some (some .cantFindList, cm) }
        | .fault before entry => { compared := before ++ [entry], answer := none }

end Family
end Zebra.Bgpd.Clist
