import Mathlib
import Zebra.Bgpd.Clist

/-! What a community-list makes of communities, of bgpd/bgp_clist.c and bgpd/bgp_community.c. -/
namespace Zebra.Bgpd.Clist
open List

abbrev Comval := BitVec 32

/-- The values of a `struct community`, in host order. -/
abbrev Community := List Comval

/-- `sizeof (u_int32_t *)`, in octets. -/
def sizeofPointer : Nat := 8

def communityInternet : Comval := 0x0
def communityNoExport : Comval := 0xFFFFFF01
def communityNoAdvertise : Comval := 0xFFFFFF02
def communityLocalAs : Comval := 0xFFFFFF03

def communityInclude (com : Community) (val : Comval) : Bool := com.any fun one => one = val

/-- The loop of `community_match`: every value of the second set is met in the first one. -/
def matchFrom : Community → Community → Bool
  | _, [] => true
  | [], _ :: _ => false
  | one :: com1, val :: com2 => if one = val then matchFrom com1 com2
    else matchFrom com1 (val :: com2)

def communityMatch : Option Community → Option Community → Bool
  | none, none => true
  | some com1, some com2 => if com1.length < com2.length then false else matchFrom com1 com2
  | _, _ => false

def text (str : String) : CString := str.toList.map fun c => BitVec.ofNat 8 c.toNat

/-- `%d` of a number that is not negative. -/
def printed (number : Nat) : CString := (Nat.toDigits 10 number).map fun c => BitVec.ofNat 8 c.toNat

/-- A value as it is printed. -/
def comvalStr (comval : Comval) : CString :=
  if comval = communityInternet then text "internet"
  else if comval = communityNoExport then text "no-export"
  else if comval = communityNoAdvertise then text "no-advertise"
  else if comval = communityLocalAs then text "local-AS"
  else printed (comval.toNat / 2 ^ 16) ++ text ":" ++ printed (comval.toNat % 2 ^ 16)

/-- `community_com2str` -/
def communityCom2str (com : Community) : CString := (text " ").intercalate (com.map comvalStr)

section Matches
variable {Regex : Type} (regexec : Regex → CString → Bool)

def communityRegexpMatch (com : Option Community) (reg : Regex) : Bool :=
  regexec reg ((com.map communityCom2str).getD [])

def comvalRegexpMatch (comval : Comval) (reg : Regex) : Bool := regexec reg (comvalStr comval)

/-- Whether an entry of `community_list_match` decides. A standard entry has its values, an expanded
  one its expression. -/
def entryMatches (com : Option Community) (entry : CommunityEntry Community Regex) : Bool :=
  entry.any ||
    match entry.style with
    | .standard => entry.com.any (communityInclude · communityInternet) ||
      communityMatch com entry.com
    | .expanded => entry.reg.any (communityRegexpMatch regexec com)

def communityListMatch (com : Option Community) : List (CommunityEntry Community Regex) → Bool
  | [] => false
  | entry :: list => if entryMatches regexec com entry then entry.direct = .permit
    else communityListMatch com list

/-- The condition on an entry in `community_list_match_delete`. -/
def comvalMatches (comval : Comval) (entry : CommunityEntry Community Regex) : Bool :=
  entry.any ||
    (entry.style = .standard && entry.com.any (communityInclude · comval)) ||
    (entry.style = .expanded && entry.reg.any (comvalRegexpMatch regexec comval))

/-- `memcpy` of words within a block. -/
def memcpyWithin (block : Community) (dest src count : Nat) : Option Community :=
  if src + count ≤ block.length ∧ dest + count ≤ block.length then
    some (block.take dest ++ (block.drop src).take count ++ block.drop (dest + count))
  else none

/-- `community_del_val`. What is moved is `c * sizeof (val)` octets, and `val` is a pointer. -/
def communityDelVal (com : Community) (val : Comval) : Option Community :=
  match com.findIdx? (· = val) with
  | none => some com
  | some i =>
    let c := com.length - i - 1
    (if 0 < c then memcpyWithin com i (i + 1) (c * sizeofPointer / 4) else some com).map
      fun moved => moved.take (com.length - 1)

/-- The loop over the entries for one value. -/
def deleteByList (comval : Comval) (merge : Community) :
    List (CommunityEntry Community Regex) → Option Community
  | [] => some merge
  | entry :: clist =>
    if comvalMatches regexec comval entry then
      if entry.direct = .permit then communityDelVal merge comval else some merge
    else deleteByList comval merge clist

/-- The loop over the values. -/
def deleteFrom (clist : List (CommunityEntry Community Regex)) :
    Community → Community → Option Community
  | merge, [] => some merge
  | merge, comval :: com => (deleteByList regexec comval merge clist).bind fun merge =>
    deleteFrom clist merge com

section
variable (com : Community) (clist : List (CommunityEntry Community Regex))

/-- `community_list_match_delete` of a set that is there. -/
def communityListMatchDelete : Option Community :=
  deleteFrom regexec clist com com

/-- The first entry that matches the value is a permit. -/
def permitted (clist : List (CommunityEntry Community Regex)) (comval : Comval) : Bool :=
  ((clist.find? (comvalMatches regexec comval)).map CommunityEntry.direct) = some .permit

theorem deleteByList_permitted (comval : Comval) (merge : Community)
    (clist : List (CommunityEntry Community Regex)) :
    deleteByList regexec comval merge clist =
      if permitted regexec clist comval then communityDelVal merge comval else some merge := by
  induction clist with
  | nil => simp [deleteByList, permitted]
  | cons entry clist ih =>
    by_cases takes : comvalMatches regexec comval entry
    · simp [deleteByList, permitted, takes]
    · simpa [deleteByList, permitted, takes] using ih

theorem communityDelVal_found (kept rest : Community) (val : Comval) (apart : val ∉ kept) :
    communityDelVal (kept ++ val :: rest) val = if rest = [] then some kept else none := by
  have other : kept.findIdx? (fun one => decide (one = val)) = none := by
    refine findIdx?_eq_none_iff.mpr ?_
    intro one member
    refine decide_eq_false ?_
    rintro rfl
    exact apart member
  have found : (kept ++ val :: rest).findIdx? (fun one => decide (one = val)) =
      some kept.length := by
    simp [findIdx?_append, other, findIdx?_cons]
  have behind : (kept ++ val :: rest).length - kept.length - 1 = rest.length := by simp
  simp only [communityDelVal, found, behind]
  cases rest with
  | nil => simp
  | cons next rest =>
    -- twice as many words are moved as there are behind the value
    have beyond : (kept ++ val :: next :: rest).length <
        kept.length + 1 + (next :: rest).length * sizeofPointer / 4 := by
      simp only [length_append, length_cons, sizeofPointer]
      omega
    have outside : memcpyWithin (kept ++ val :: next :: rest) kept.length (kept.length + 1)
        ((next :: rest).length * sizeofPointer / 4) = none :=
      if_neg fun within => absurd within.1 (not_le.mpr beyond)
    rw [if_pos (by simp), outside, if_neg (by simp)]
    rfl

/-- The loop stands before `rest`: of the values passed those are kept that no entry permits. -/
theorem deleteFrom_rest (clist : List (CommunityEntry Community Regex)) (kept rest : Community)
    (sorted : (kept ++ rest).Pairwise (· < ·)) :
    deleteFrom regexec clist (kept ++ rest) rest =
      if ∀ val ∈ rest.dropLast, permitted regexec clist val = false then
        some (kept ++ rest.filter fun val => !permitted regexec clist val)
      else none := by
  induction rest generalizing kept with
  | nil => simp [deleteFrom]
  | cons val rest ih =>
    have apart : val ∉ kept := by
      intro member
      have less := (pairwise_append.mp sorted).2.2 val member val mem_cons_self
      exact absurd less (by simp)
    rw [deleteFrom, deleteByList_permitted]
    cases isPermitted : permitted regexec clist val with
    | false =>
      have next := ih (kept ++ [val]) (by simpa using sorted)
      cases rest with
      | nil => simp [deleteFrom, isPermitted]
      | cons second rest => simpa [isPermitted] using next
    | true =>
      simp only [if_true, communityDelVal_found kept rest val apart]
      cases rest with
      | nil => simp [deleteFrom, isPermitted]
      | cons second rest => simp [isPermitted]

theorem matchDelete_eq (sorted : com.Pairwise (· < ·)) :
    communityListMatchDelete regexec com clist =
      if ∀ val ∈ com.dropLast, permitted regexec clist val = false then
        some (com.filter fun val => !permitted regexec clist val)
      else none := by
  simpa [communityListMatchDelete] using deleteFrom_rest regexec clist [] com sorted

/-- A standard entry of one value that is not the keyword. -/
def OneValue (entry : CommunityEntry Community Regex) : Prop :=
  entry.any = false ∧ entry.style = .standard ∧ ∃ val, entry.com = some [val] ∧
    val ≠ communityInternet

theorem oneValue_matches (entry : CommunityEntry Community Regex) (one : OneValue entry)
    (comval : Comval) :
    entryMatches regexec (some [comval]) entry = comvalMatches regexec comval entry := by
  obtain ⟨notAny, standard, val, hasVal, notInternet⟩ := one
  by_cases same : comval = val
  · simp [entryMatches, comvalMatches, notAny, standard, hasVal, communityInclude, communityMatch,
      matchFrom, same]
  · simp [entryMatches, comvalMatches, notAny, standard, hasVal, communityInclude, communityMatch,
      matchFrom, same, notInternet, Ne.symm same]

theorem listMatch_permitted (clist : List (CommunityEntry Community Regex))
    (ones : ∀ entry ∈ clist, OneValue entry)
    (comval : Comval) : communityListMatch regexec (some [comval]) clist =
      permitted regexec clist comval := by
  induction clist with
  | nil => simp [communityListMatch, permitted]
  | cons entry clist ih =>
    obtain ⟨one, others⟩ := forall_mem_cons.mp ones
    rw [communityListMatch, oneValue_matches regexec entry one, ih others]
    by_cases takes : comvalMatches regexec comval entry
    · simp [permitted, takes]
    · simp [permitted, takes]

/-- What the deletion is for: the values stay that no entry permits first, and for one value and a
list of single values it says the same as the match. -/
def DeletesPermitted : Prop :=
  (∃ merge, communityListMatchDelete regexec com clist = some merge ∧
    merge = (com.filter fun val => !permitted regexec clist val) ∧ merge.Pairwise (· < ·)) ∧
  ∀ comval, com = [comval] → (∀ entry ∈ clist, OneValue entry) →
    communityListMatchDelete regexec com clist =
      some (if communityListMatch regexec (some [comval]) clist then [] else [comval])

end

/-- The deletion stays within the values if nothing is deleted but the last value. -/
theorem match_delete_exact (com : Community) (clist : List (CommunityEntry Community Regex))
    (sorted : com.Pairwise (· < ·)) :
    DeletesPermitted regexec com clist ↔ ∀ val ∈ com.dropLast,
      permitted regexec clist val = false := by
  have result := matchDelete_eq regexec com clist sorted
  constructor
  · rintro ⟨⟨merge, deleted, -⟩, -⟩
    by_contra reached
    rw [result, if_neg reached] at deleted
    exact nomatch deleted
  · intro last
    rw [if_pos last] at result
    refine ⟨⟨_, result, rfl, sorted.sublist filter_sublist⟩, ?_⟩
    rintro comval rfl ones
    rw [result, listMatch_permitted regexec clist ones]
    cases isPermitted : permitted regexec clist comval <;> simp [isPermitted]

end Matches

/-- An entry that permits one value. -/
def permitOne (val : Comval) : CommunityEntry Community CString :=
  { direct := .permit, style := .standard, any := false, com := some [val], config := none,
    reg := none }

theorem match_delete_exact_last :
    DeletesPermitted (fun reg str => decide (reg = str)) [1, 2] [permitOne 2] ↔
      ∀ val ∈ [(1 : Comval), 2].dropLast, permitted (fun reg str => decide (reg = str))
      [permitOne 2] val = false :=
  match_delete_exact _ [1, 2] [permitOne 2] (by decide)

/-- The first value of two is deleted: four octets behind the block are read. -/
theorem match_delete_beyond : ¬ DeletesPermitted (fun reg str => decide (reg = str)) [1, 2]
    [permitOne 1] := by
  rintro ⟨⟨merge, deleted, -⟩, -⟩
  have beyond : communityListMatchDelete (fun reg str => decide (reg = str)) [1, 2]
      [permitOne 1] = none := by
    decide +kernel
  cases beyond.symm.trans deleted

end Zebra.Bgpd.Clist
