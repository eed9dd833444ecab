import Mathlib
import Zebra.Bgpd.Aspath

namespace Zebra.Bgpd
open Base List

inductive SegmentType where
  | set
  | sequence
  | confedSequence
  | confedSet
deriving DecidableEq

def SegmentType.code : SegmentType → Octet
  | .set => asSet
  | .sequence => asSequence
  | .confedSequence => asConfedSequence
  | .confedSet => asConfedSet

def SegmentType.confed : SegmentType → Bool
  | .set | .sequence => false
  | .confedSequence | .confedSet => true

/-- A segment with no more ASes than its octet of length counts. -/
structure PathSegment where
  type : SegmentType
  asns : List As
  short : asns.length < 256
deriving DecidableEq

namespace PathSegment

def octets (segment : PathSegment) : List Octet :=
  segment.type.code :: BitVec.ofNat 8 segment.asns.length :: segment.asns.flatMap asOctets

def hops (segment : PathSegment) : Nat :=
  match segment.type with
  | .sequence => segment.asns.length
  | .set => 1
  | _ => 0

end PathSegment

def pathOctets (path : List PathSegment) : List Octet := path.flatMap PathSegment.octets

/-- The ASes of a path in order, each with the type of its segment. -/
def flattened (path : List PathSegment) : List (SegmentType × As) :=
  path.flatMap fun segment => segment.asns.map (segment.type, ·)

section Segments
variable {path : List PathSegment} {data : List Octet} {fuel start count : Nat}

@[simp] theorem pathOctets_nil : pathOctets [] = [] := rfl

section
variable (segment : PathSegment)

@[simp] theorem pathOctets_cons :
    pathOctets (segment :: path) = segment.octets ++ pathOctets path := rfl

@[simp] theorem pathOctets_append (first second : List PathSegment) :
    pathOctets (first ++ second) = pathOctets first ++ pathOctets second := flatMap_append

theorem length_asOctets (asns : List As) : (asns.flatMap asOctets).length = 2 * asns.length := by
  induction asns with
  | nil => rfl
  | cons asno asns ih => rw [flatMap_cons, length_append, ih, length_cons]; simp [asOctets]; omega

theorem octets_as (high low : Octet) : asOctets (high ++ low) = [high, low] := by
  have bits : ∀ index, (high ++ low : BitVec (8 + 8)).getLsbD index =
      if index < 8 then low.getLsbD index else high.getLsbD (index - 8) :=
        fun index => BitVec.getLsbD_append
  have first : (high ++ low : BitVec (8 + 8)).extractLsb' 8 8 = high := by
    apply BitVec.eq_of_getLsbD_eq
    intro index inside
    simp [inside, bits]
  have second : (high ++ low : BitVec (8 + 8)).extractLsb' 0 8 = low := by
    apply BitVec.eq_of_getLsbD_eq
    intro index inside
    simp [inside, bits]
  exact congr (congrArg _ first) (congrArg (· :: []) second)

theorem as_octets (asno : As) : ∃ high low, asOctets asno = [high, low] ∧ high ++ low = asno := by
  refine ⟨_, _, rfl, BitVec.eq_of_getLsbD_eq fun index inside => BitVec.getLsbD_append.trans ?_⟩
  by_cases small : index < 8
  · simp [small]
  · simp [small, show index - 8 < 8 by omega, show 8 + (index - 8) = index by omega]

@[simp] theorem readAs_asOctets (asns : List As) : readAs (asns.flatMap asOctets) = asns := by
  induction asns with
  | nil => rfl
  | cons asno asns ih =>
    obtain ⟨high, low, octets, whole⟩ := as_octets asno
    simp [octets, readAs, ih, whole]

theorem asOctets_readAs (count : Nat) (long : data.length = 2 * count) :
    (readAs data).length = count ∧ (readAs data).flatMap asOctets = data := by
  induction count generalizing data with
  | zero => simp_all [readAs]
  | succ count ih =>
    match data, long with
    | high :: low :: rest, long =>
      obtain ⟨size, same⟩ := @ih rest (by simpa [Nat.mul_add] using long)
      simp [readAs, octets_as, size, same]

theorem PathSegment.length_toNat :
    (BitVec.ofNat 8 segment.asns.length).toNat = segment.asns.length := by
  simp [Nat.mod_eq_of_lt segment.short]

theorem length_octets : segment.octets.length = 2 + 2 * segment.asns.length := by
  simp only [PathSegment.octets, length_cons, length_asOctets]
  omega

theorem segmentAt_octets (rest : List Octet) : segmentAt (segment.octets ++ rest) =
    some (⟨segment.type.code, BitVec.ofNat 8 segment.asns.length, segment.asns.flatMap asOctets⟩,
      rest) := by
  have long := length_asOctets segment.asns
  rw [PathSegment.octets, cons_append, cons_append, segmentAt, segment.length_toNat, ← long,
    if_neg (by simp)]
  simp only [take_left, drop_left]

theorem octets_of_segmentAt {segment rest} (here : segmentAt data = some (segment, rest))
    {type : SegmentType} (code : segment.type = type.code) : ∃ first :
    PathSegment, data = first.octets ++ rest ∧
      segment =
        ⟨first.type.code, BitVec.ofNat 8 first.asns.length, first.asns.flatMap asOctets⟩ := by
  match data, here with
  | one :: length :: behind, here =>
    rw [segmentAt] at here
    split at here
    · cases here
    · cases here
      obtain ⟨size, same⟩ :=
        @asOctets_readAs (behind.take (2 * length.toNat)) length.toNat (by simp; omega)
      refine ⟨⟨type, readAs (behind.take (2 * length.toNat)), by rw [size]; exact length.isLt⟩,
        ?_, ?_⟩
      · simp [PathSegment.octets, size, same, ← code]
      · simp [size, same, ← code]

theorem known_code (type : Octet) :
    (type = asSet ∨ type = asSequence ∨ type = asConfedSet ∨ type = asConfedSequence) ↔ ∃ one :
    SegmentType, type = one.code := by
  constructor
  · rintro (rfl | rfl | rfl | rfl)
    exacts [⟨.set, rfl⟩, ⟨.sequence, rfl⟩, ⟨.confedSet, rfl⟩, ⟨.confedSequence, rfl⟩]
  · rintro ⟨one, rfl⟩
    cases one <;> simp [SegmentType.code]

theorem hops_octets (asval : List Octet) :
    Segment.hops ⟨segment.type.code, BitVec.ofNat 8 segment.asns.length, asval⟩ = segment.hops := by
  rw [Segment.hops, PathSegment.hops, segment.length_toNat]
  cases segment.type <;> rfl

end

theorem countLoop_octets (enough : (pathOctets path).length ≤ fuel) :
    countLoop fuel (pathOctets path) start = some (start + (path.map PathSegment.hops).sum) := by
  induction path generalizing fuel start with
  | nil => cases fuel <;> simp [countLoop]
  | cons segment path ih =>
    have here := segmentAt_octets segment (pathOctets path)
    have known := (known_code segment.type.code).mpr ⟨_, rfl⟩
    rw [pathOctets_cons, length_append, length_octets] at enough
    obtain ⟨fuel, rfl⟩ : ∃ more, fuel = more + 1 := ⟨fuel - 1, by omega⟩
    rw [pathOctets_cons]
    rw [PathSegment.octets, cons_append] at here ⊢
    simp only [countLoop, here, known, if_true, hops_octets, @ih fuel _ (by omega), map_cons,
      sum_cons, Nat.add_assoc]

/-- What `aspath_make_str_count` accepts is a run of segments. -/
theorem path_of_counted (counted : countLoop fuel data start = some count) :
    ∃ path, data = pathOctets path := by
  fun_induction countLoop fuel data start with
  | case1 => exact ⟨[], rfl⟩
  | case2 => cases counted
  | case3 => cases counted
  | case4 fuel first data start segment rest here known ih =>
    obtain ⟨type, code⟩ := (known_code segment.type).mp known
    obtain ⟨path, rfl⟩ := ih counted
    obtain ⟨one, same, -⟩ := octets_of_segmentAt here code
    exact ⟨one :: path, same⟩
  | case5 => cases counted

theorem wellformed_iff : Aspath.Wellformed ⟨data⟩ ↔ ∃ path, data = pathOctets path := by
  rw [Aspath.Wellformed, aspathMakeStrCount, Option.isSome_iff_exists]
  constructor
  · rintro ⟨count, counted⟩
    exact path_of_counted counted
  · rintro ⟨path, rfl⟩
    exact ⟨_, countLoop_octets le_rfl⟩

end Segments
end Zebra.Bgpd
