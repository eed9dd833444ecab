import Zebra.Base.Octets

/-! AS paths of bgpd/bgp_aspath.c. A path is its raw data, a run of segments: one octet of type, one
octet of length and that many two octet AS numbers. -/
namespace Zebra.Bgpd
open Base Option

abbrev As := BitVec 16

def asSet : Octet := 1
def asSequence : Octet := 2
def asConfedSequence : Octet := 3
def asConfedSet : Octet := 4

structure Aspath where
  data : List Octet
deriving DecidableEq

structure Segment where
  type : Octet
  length : Octet
  asval : List Octet
deriving DecidableEq

/-- The segment at a pointer into the data, and the data behind it. -/
def segmentAt : List Octet → Option (Segment × List Octet)
  | type :: length :: rest =>
    if rest.length < 2 * length.toNat then none
    else some (⟨type, length, rest.take (2 * length.toNat)⟩, rest.drop (2 * length.toNat))
  | _ => none

/-- `ntohs (asval[0])`. -/
def Segment.first (segment : Segment) : Option As :=
  match segment.asval with
  | high :: low :: _ => some (high ++ low)
  | _ => none

def readAs : List Octet → List As
  | high :: low :: rest => (high ++ low) :: readAs rest
  | _ => []

/-- What a segment adds to `count`: sequences their length, sets one, and
confederation segments nothing. -/
def Segment.hops (segment : Segment) : Nat :=
  if segment.type = asSequence then segment.length.toNat
  else if segment.type = asSet then 1
  else 0

def countLoop : Nat → List Octet → Nat → Option Nat
  | _, [], count => some count
  | 0, _ :: _, _ => none
  | fuel + 1, data, count =>
    match segmentAt data with
    | none => none
    | some (segment, rest) =>
      if segment.type = asSet ∨ segment.type = asSequence ∨ segment.type = asConfedSet ∨
          segment.type = asConfedSequence then countLoop fuel rest (count + segment.hops)
      else none

/-- The check and the count of `aspath_make_str_count`; `none` is its NULL. The
text it builds for display is left out. -/
def aspathMakeStrCount (data : List Octet) : Option Nat :=
  countLoop data.length data 0

/-- `aspath->count`, which stays zero when no count could be made. -/
def Aspath.count (aspath : Aspath) : Nat :=
  (aspathMakeStrCount aspath.data).getD 0

def Aspath.length (aspath : Aspath) : Nat := aspath.data.length

/-- The paths that `aspath_parse` lets into the hash; others get there when a path is made
  longer. -/
def Aspath.Wellformed (aspath : Aspath) : Prop :=
  (aspathMakeStrCount aspath.data).isSome

instance (aspath : Aspath) : Decidable aspath.Wellformed :=
  inferInstanceAs (Decidable ((aspathMakeStrCount aspath.data).isSome = true))

/-- `aspath_parse` without the reference it takes. What is `stored` in the hash is answered as it
is; only a new path is checked. -/
def aspathParse (stored : Aspath → Bool) (data : List Octet) : Option Aspath :=
  if data.length % 2 = 1 then none
  else if stored ⟨data⟩ then some ⟨data⟩
  else if (aspathMakeStrCount data).isSome then some ⟨data⟩ else none

def isConfed (type : Octet) : Bool :=
  type = asConfedSequence || type = asConfedSet

/-- Past the leading confederation segments that are not empty; `none` is a header behind the
  data. -/
def skipLeading : Nat → List Octet → Option (List Octet)
  | fuel + 1, type :: length :: rest =>
    if length ≠ 0 ∧ isConfed type then skipLeading fuel (rest.drop (2 * length.toNat))
    else some (type :: length :: rest)
  | _, _ => none

/-- The first AS of a segment of this type, if it is one and has any; `none` is a read behind the
  data. -/
def leadingAs (sequence : Octet) : List Octet → Option (Option As)
  | [] => some none
  | type :: length :: rest =>
    if length = 0 ∨ type ≠ sequence then some none
    else match rest with
      | high :: low :: _ => some (some (high ++ low))
      | _ => none
  | [_] => none

/-- Both have a first AS, and the same one. The second is not looked at without the first. -/
def sameFirst (sequence : Octet) (seg1 seg2 : List Octet) : Option Bool := do
  let as1 ← leadingAs sequence seg1
  if as1 = none then some false
  else (leadingAs sequence seg2).map fun as2 => decide (as2 = as1)

section
variable (aspath : Aspath)

/-- Where `aspath_cmp_left` looks into a path. A path without data is a NULL pointer, and stays
  one. -/
def Aspath.leading : Option (List Octet) :=
  if aspath.data = [] then some [] else skipLeading aspath.data.length aspath.data

/-- `aspath_cmp_left` with every read within the data of the two paths. -/
def readCmpLeft (aspath1 aspath2 : Aspath) : Option Bool := do
  let seg1 ← aspath1.leading
  let seg2 ← aspath2.leading
  sameFirst asSequence seg1 seg2

/-- `aspath_cmp_left_confed` in the same way. -/
def readCmpLeftConfed (aspath1 aspath2 : Aspath) : Option Bool :=
  if aspath1.count ≠ 0 ∨ aspath2.count ≠ 0 then some false
  else sameFirst asConfedSequence aspath1.data aspath2.data

def loopCheck (asno : As) : Nat → List Octet → Nat
  | 0, _ => 0
  | fuel + 1, data =>
    match segmentAt data with
    | none => 0
    | some (segment, rest) => (readAs segment.asval).count asno + loopCheck asno fuel rest

/-- `aspath_loop_check`: how often `asno` occurs; a missing path has none. -/
def aspathLoopCheck (aspath : Option Aspath) (asno : As) : Nat :=
  match aspath with
  | none => 0
  | some aspath => loopCheck asno aspath.data.length aspath.data

/-- `aspath_firstas_check` reads `asval[0]` whatever the segment's length says. -/
def aspathFirstasCheck (asno : As) : Bool :=
  match aspath.data with
  | type :: _ :: high :: low :: _ => type = asSequence && (high ++ low : As) = asno
  | _ => false

def asOctets (asno : As) : List Octet :=
  [asno.extractLsb' 8 8, asno.extractLsb' 0 8]

/-- `aspath_add_one_as`: the length of the first segment is one octet and wraps. -/
def aspathAddOneAs (asno : As) (type : Octet) : Aspath :=
  match aspath.data with
  | first :: length :: rest =>
    if length = 0 then ⟨type :: 1 :: asOctets asno⟩
    else if first = type then ⟨type :: (length + 1) :: asOctets asno ++ rest⟩
    else ⟨type :: 1 :: asOctets asno ++ aspath.data⟩
  | _ => ⟨type :: 1 :: asOctets asno⟩

def aspathAddSeq (asno : As) : Aspath :=
  aspathAddOneAs aspath asno asSequence

def aspathAddConfedSeq (asno : As) : Aspath :=
  aspathAddOneAs aspath asno asConfedSequence

end

/-- Two leftmost ASes are there and equal. -/
def sameLeft : Option As → Option As → Bool
  | some first, some second => first = second
  | _, _ => false

theorem sameLeft_iff {first second} :
    sameLeft first second = true ↔ ∃ asno, first = some asno ∧ second = some asno := by
  cases first with
  | none => simp [sameLeft]
  | some first =>
    cases second with
    | none => simp [sameLeft]
    | some second =>
      simp only [sameLeft, decide_eq_true_eq, some.injEq]
      exact ⟨fun same => ⟨first, rfl, same.symm⟩, fun ⟨_, left, right⟩ => left.trans right.symm⟩

theorem sameFirst_eq {sequence seg1 seg2 as1 as2} (first : leadingAs sequence seg1 = some as1)
    (second : leadingAs sequence seg2 = some as2) :
    sameFirst sequence seg1 seg2 = some (sameLeft as1 as2) := by
  simp only [sameFirst, first, second, bind_eq_bind, bind_some, map_some]
  cases as1 with
  | none => rfl
  | some as1 =>
    cases as2 with
    | none => simp [sameLeft]
    | some as2 => simp [sameLeft, eq_comm]

section
variable {fuel data start count} (counted : countLoop fuel data start = some count)
include counted

theorem countLoop_le : start ≤ count := by
  induction fuel generalizing data start with
  | zero =>
    cases data with
    | nil => simp only [countLoop, some.injEq] at counted; omega
    | cons head rest => simp [countLoop] at counted
  | succ fuel ih =>
    cases data with
    | nil => simp only [countLoop, some.injEq] at counted; omega
    | cons head rest =>
      simp only [countLoop] at counted
      split at counted
      · cases counted
      · split at counted
        · exact le_trans (Nat.le_add_right ..) (ih counted)
        · cases counted

end

end Zebra.Bgpd
