import Mathlib.Data.List.TakeWhile
import Zebra.Bgpd.AspathSegments

/-! The comparison of the leftmost ASes of two paths, of bgpd/bgp_aspath.c. -/
namespace Zebra.Bgpd
open Base List PathSegment Option Nat

/-- The first AS of a path that starts with a sequence. -/
def front : List PathSegment → Option As
  | [] => none
  | segment :: _ => if segment.type = .sequence then segment.asns.head? else none

def PathSegment.skipped (segment : PathSegment) : Bool := segment.type.confed && segment.asns ≠ []

/-- The AS that a path has leftmost behind its leading confederation segments. -/
def leftmost (path : List PathSegment) : Option As := front (path.dropWhile (·.type.confed))

theorem isConfed_code (type : SegmentType) : isConfed type.code = type.confed := by
  cases type <;> decide

theorem length_eq_zero (segment : PathSegment) :
    BitVec.ofNat 8 segment.asns.length = 0#8 ↔ segment.asns = [] := by
  rw [← length_eq_zero_iff, ← segment.length_toNat]
  simp [← BitVec.toNat_inj]

theorem drop_asns (asns : List As) (rest : List Octet) :
    (asns.flatMap asOctets ++ rest).drop (2 * asns.length) = rest := by
  rw [← length_asOctets, drop_left]

theorem skipLeading_octets (fuel : Nat) (path : List PathSegment) (enough : path.length ≤ fuel) :
    skipLeading fuel (pathOctets path) =
      if path.dropWhile skipped = [] then none else some (pathOctets (path.dropWhile skipped)) := by
  induction path generalizing fuel with
  | nil => cases fuel <;> rfl
  | cons segment path ih =>
    obtain ⟨fuel, rfl⟩ :=
      exists_eq_add_one_of_ne_zero (ne_of_gt (lt_of_lt_of_le (succ_pos _) enough))
    rw [pathOctets_cons, octets, cons_append, cons_append, skipLeading,
      segment.length_toNat, drop_asns, ih fuel (le_of_succ_le_succ enough)]
    by_cases skip : segment.skipped = true
    · have both : segment.type.confed = true ∧ ¬segment.asns = [] := by simpa [skipped] using skip
      simp [length_eq_zero, isConfed_code, both, skip]
    · have both : ¬(¬segment.asns = [] ∧ segment.type.confed = true) := by
        simpa [skipped, and_comm] using skip
      simp [length_eq_zero, isConfed_code, both, skip, octets]

/-- A path of which `aspath_cmp_left` finds the end of the leading confederation segments. -/
def Inside (path : List PathSegment) : Prop := path = [] ∨ ∃ segment ∈ path, segment.skipped = false

section
variable (path : List PathSegment)

theorem length_le_octets : path.length ≤ (pathOctets path).length := by
  induction path with
  | nil => exact zero_le _
  | cons segment path ih =>
    rw [pathOctets_cons, length_append, length_octets, length_cons]
    omega

theorem leadingAs_octets : leadingAs asSequence (pathOctets path) = some (front path) := by
  cases path with
  | nil => rfl
  | cons segment path =>
    have sequence : segment.type.code = asSequence ↔
      segment.type = .sequence := by cases segment.type <;> decide
    have empty := length_eq_zero segment
    rw [pathOctets_cons, PathSegment.octets, front]
    cases asns : segment.asns with
    | nil => simp [leadingAs]
    | cons asno others =>
      obtain ⟨high, low, octets, whole⟩ := as_octets asno
      rw [asns] at empty
      have counted : ¬BitVec.ofNat 8 (others.length + 1) = 0#8 := by simpa using empty
      rw [flatMap_cons, octets]
      by_cases type : segment.type = .sequence
      · simp [leadingAs, counted, type, whole, SegmentType.code]
      · simp [leadingAs, sequence, type]

theorem leading_eq : Aspath.leading ⟨pathOctets path⟩ = if path ≠ [] ∧
    path.dropWhile skipped = [] then none
    else some (pathOctets (path.dropWhile skipped)) := by
  cases path with
  | nil => rfl
  | cons segment path =>
    rw [Aspath.leading, if_neg (by simp [octets]), skipLeading_octets _ _ (length_le_octets _)]
    simp

theorem leading_inside :
    Aspath.leading ⟨pathOctets path⟩ = none ∧ ¬Inside path ∨
      Aspath.leading ⟨pathOctets path⟩ = some (pathOctets (path.dropWhile skipped)) ∧
      Inside path := by
  have all : path.dropWhile skipped = [] ↔ ∀ segment ∈ path, segment.skipped = true :=
    dropWhile_eq_nil_iff
  rw [leading_eq]
  by_cases passed : path ≠ [] ∧ path.dropWhile skipped = []
  · exact .inl ⟨if_pos passed, by simpa [Inside, passed.1] using all.mp passed.2⟩
  · refine .inr ⟨if_neg passed, ?_⟩
    by_cases empty : path = []
    · exact .inl empty
    · exact .inr (by simpa [empty, all] using passed)

end

/-- None of the leading confederation segments is empty. -/
def Filled (path : List PathSegment) : Prop :=
  ∀ segment ∈ path.takeWhile (·.type.confed), segment.asns ≠ []

/-- The comparison reads inside the two paths, and finds whether they have the same AS leftmost. -/
def ComparesLeft (path1 path2 : List PathSegment) : Prop :=
  ∃ result, readCmpLeft ⟨pathOctets path1⟩ ⟨pathOctets path2⟩ = some result ∧
    (result = true ↔ ∃ asno, leftmost path1 = some asno ∧ leftmost path2 = some asno)

theorem filled_cons {segment path} (confed : segment.type.confed = true) :
    Filled (segment :: path) ↔ segment.asns ≠ [] ∧ Filled path := by
  simp [Filled, confed]

theorem front_filled {path} (filled : Filled path) :
    front (path.dropWhile skipped) = leftmost path := by
  induction path with
  | nil => rfl
  | cons segment path ih =>
    by_cases confed : segment.type.confed = true
    · rw [filled_cons confed] at filled
      simpa [leftmost, confed, skipped, filled.1] using ih filled.2
    · simp [leftmost, confed, skipped]

theorem front_empty {path} (empty : ¬Filled path) : front (path.dropWhile skipped) = none := by
  induction path with
  | nil => rfl
  | cons segment path ih =>
    by_cases confed : segment.type.confed = true
    · by_cases here : segment.asns = []
      · simp [skipped, here, front]
      · rw [filled_cons confed, not_and] at empty
        simpa [confed, skipped, here] using ih (empty here)
    · exact absurd (by simp [Filled, confed]) empty

/-- An empty confederation segment in front ends the search, and hides the AS behind it. -/
theorem cmp_left_exact (path1 path2 : List PathSegment) : ComparesLeft path1 path2 ↔
    Inside path1 ∧ Inside path2 ∧
    ((∃ asno, leftmost path1 = some asno ∧ leftmost path2 = some asno) →
      Filled path1 ∧ Filled path2) := by
  obtain ⟨reads1, inside1⟩ | ⟨reads1, inside1⟩ := leading_inside path1
  · simp [ComparesLeft, readCmpLeft, reads1, inside1]
  obtain ⟨reads2, inside2⟩ | ⟨reads2, inside2⟩ := leading_inside path2
  · simp [ComparesLeft, readCmpLeft, reads1, reads2, inside2]
  have result : readCmpLeft ⟨pathOctets path1⟩ ⟨pathOctets path2⟩ =
      some (sameLeft (front (path1.dropWhile skipped)) (front (path2.dropWhile skipped))) := by
    simp only [readCmpLeft, reads1, reads2, bind_eq_bind, bind_some]
    exact sameFirst_eq (leadingAs_octets _) (leadingAs_octets _)
  simp only [ComparesLeft, result, some.injEq, exists_eq_left', sameLeft_iff, inside1,
    inside2, true_and]
  by_cases filled1 : Filled path1
  · by_cases filled2 : Filled path2
    · simp [front_filled, filled1, filled2]
    · simp [front_filled, front_empty, filled1, filled2]
  · simp [front_empty, filled1]

/-- One confederation segment and nothing behind it. -/
theorem cmp_left_confed : ¬ComparesLeft [⟨.confedSequence, [1], by decide⟩]
    [⟨.confedSequence, [1], by decide⟩] := by
  rintro ⟨result, compared, -⟩
  exact Option.some_ne_none result (compared.symm.trans (by decide))

end Zebra.Bgpd
