import Zebra.Bgpd.AspathSegments

namespace Zebra.Bgpd
open Base Nat List

def aspathStrDefaultLen : Nat := 32

/-- `aspath_delimiter_char`: what stands in front of a segment and what behind it. -/
def aspathDelimiterChar (type : Octet) : Char × Char :=
  if type = asSet then ('\x7b', '\x7d')
  else if type = asSequence then (' ', ' ')
  else if type = asConfedSet then ('[', ']')
  else if type = asConfedSequence then ('(', ')')
  else (' ', ' ')

/-- The loop that doubles a buffer until an index is inside. -/
def doubled : Nat → Nat → Nat → Nat
  | fuel + 1, index, size => if size ≤ index then doubled fuel index (size * 2) else size
  | 0, _, size => size

/-- The variables of `aspath_make_str_count`, and whether every write so far was inside the
  buffer. -/
structure Printer where
  strSize : Nat
  str : List Char
  space : Bool
  type : Octet
  count : Nat
  inside : Bool

namespace Printer
section
variable (printer : Printer)

/-- `str_buf[str_pnt++] = char`. -/
def put (char : Char) : Printer :=
  { printer with str := printer.str ++ [char],
                 inside := printer.inside && decide (printer.str.length < printer.strSize) }

/-- `sprintf`, which writes a zero behind the digits. -/
def digits (asno : As) : Printer :=
  let text := Nat.toDigits 10 asno.toNat
  { printer with str := printer.str ++ text, inside := printer.inside &&
                   decide (printer.str.length + text.length < printer.strSize) }

def asval (separator : Char) (asno : As) : Printer :=
  (if printer.space then printer.put separator else { printer with space := true }).digits asno

def asvals (separator : Char) (asns : List As) : Printer :=
  asns.foldl (fun printer => printer.asval separator) { printer with space := false }

/-- The buffer length check. -/
def reserve (estimateLen : Nat) : Printer :=
  let index := printer.str.length + estimateLen
  { printer with strSize := doubled (index + 1) index printer.strSize }

/-- The end of the segment before, and the start of this one. -/
def delimiters (type : Octet) : Printer :=
  let printer := if printer.type ≠ asSequence then printer.put (aspathDelimiterChar printer.type).2
    else printer
  let printer := if printer.space then printer.put ' ' else printer
  if type ≠ asSequence then printer.put (aspathDelimiterChar type).1 else printer

/-- One round of the loop over the segments. -/
def segment (segment : Segment) : Printer :=
  let separator := if segment.type = asSet ∨ segment.type = asConfedSet then ',' else ' '
  let printer := (printer.reserve (segment.length.toNat * 6 + 4)).delimiters segment.type
  { printer.asvals separator (readAs segment.asval) with
    type := segment.type, count := printer.count + segment.hops }

def finish : Printer :=
  let printer := if printer.type ≠ asSequence then printer.put (aspathDelimiterChar printer.type).2
    else printer
  { printer with inside := printer.inside && decide (printer.str.length < printer.strSize) }

end
end Printer

def makeStrLoop : Nat → List Octet → Printer → Option Printer
  | _, [], printer => some printer
  | 0, _ :: _, _ => none
  | fuel + 1, data, printer =>
    match segmentAt data with
    | none => none
    | some (segment, rest) =>
      if segment.type = asSet ∨ segment.type = asSequence ∨ segment.type = asConfedSet ∨
          segment.type = asConfedSequence then makeStrLoop fuel rest (printer.segment segment)
      else none

/-- `aspath_make_str_count` with its text. -/
def aspathMakeStr (data : List Octet) : Option Printer :=
  if data = [] then some ⟨1, [], false, asSequence, 0, true⟩
  else (makeStrLoop data.length data ⟨aspathStrDefaultLen, [], false, asSequence, 0, true⟩).map
    Printer.finish

theorem lt_doubled {fuel index size} (positive : 0 < size) (enough : index < fuel + size) :
    index < doubled fuel index size := by
  induction fuel generalizing size with
  | zero => simpa [doubled] using enough
  | succ fuel ih =>
    rw [doubled]
    split
    · exact ih (by omega) (by omega)
    · omega

namespace Printer

/-- All writes were inside the buffer, and there is room for more. -/
def Fits (printer : Printer) (room : Nat) : Prop :=
  printer.inside = true ∧ printer.str.length + room ≤ printer.strSize

section
variable {printer result : Printer} {room fuel : Nat} {data : List Octet}

theorem Fits.put (fits : printer.Fits (room + 1)) (char : Char) : (printer.put char).Fits room := by
  obtain ⟨inside, enough⟩ := fits
  simp only [Fits, Printer.put, inside, length_append, length_singleton, Bool.true_and,
    decide_eq_true_eq]
  omega

theorem Fits.less {more} (fits : printer.Fits more) (le : room ≤ more) : printer.Fits room :=
  ⟨fits.1, le_trans (Nat.add_le_add_left le _) fits.2⟩

theorem Fits.put_if {condition : Prop} [Decidable condition] (fits : printer.Fits (room + 1))
    (char : Char) :
    (if condition then printer.put char else printer).Fits room := by
  split
  · exact fits.put char
  · exact fits.less (le_succ _)

theorem length_digits (asno : As) : (toDigits 10 asno.toNat).length ≤ 5 :=
  (length_toDigits_le_iff (by decide) (by decide)).mpr (lt_trans asno.isLt (by decide))

theorem Fits.asval (fits : printer.Fits (room + 1 + 6)) (separator : Char) (asno : As) :
    (printer.asval separator asno).Fits (room + 1) := by
  have short := length_digits asno
  have separated : (if printer.space then printer.put separator
      else { printer with space := true }).Fits (room + 1 + 5) := by
    split
    · exact fits.put separator
    · exact fits.less (le_succ _)
  obtain ⟨inside, enough⟩ := separated
  simp only [Fits, Printer.asval, digits, inside, length_append, Bool.true_and, decide_eq_true_eq]
  omega

theorem Fits.asvals (separator : Char) (asns : List As)
    (fits : printer.Fits (room + 1 + 6 * asns.length)) :
    (printer.asvals separator asns).Fits (room + 1) := by
  have loop : ∀ printer : Printer, printer.Fits (room + 1 + 6 * asns.length) →
      (asns.foldl (fun printer => printer.asval separator) printer).Fits (room + 1) := by
    clear fits
    induction asns with
    | nil => exact fun _ fits => fits
    | cons asno asns ih =>
      intro printer fits
      have first : printer.Fits (room + 6 * asns.length + 1 + 6) :=
        fits.less (by simp only [length_cons]; omega)
      exact ih _ ((first.asval separator asno).less (by omega))
  exact loop _ fits

theorem Fits.delimiters (fits : printer.Fits (room + 1 + 1 + 1)) (type : Octet) :
    (printer.delimiters type).Fits room :=
  ((fits.put_if _).put_if ' ').put_if _

theorem Fits.reserve (fits : printer.Fits 2) (estimateLen : Nat) :
    (printer.reserve estimateLen).Fits (estimateLen + 1) := by
  have positive : 0 < printer.strSize := lt_of_lt_of_le (Nat.lt_add_left _ Nat.two_pos) fits.2
  have grown := @lt_doubled (printer.str.length + estimateLen + 1)
    (printer.str.length + estimateLen) _ positive (by omega)
  exact ⟨fits.1, grown⟩

theorem Fits.segment (fits : printer.Fits 2) (segment : Segment)
    (all : (readAs segment.asval).length = segment.length.toNat) :
    (printer.segment segment).Fits 2 := by
  have room : segment.length.toNat * 6 + 4 + 1 =
    1 + 1 + 6 * (readAs segment.asval).length + 1 + 1 + 1 := by omega
  have delimited := (room ▸ fits.reserve (segment.length.toNat * 6 + 4)).delimiters segment.type
  exact delimited.asvals _ _

theorem count_delimiters (type : Octet) : (printer.delimiters type).count = printer.count := by
  simp only [delimiters]
  split <;> split <;> split <;> rfl

theorem count_segment (segment : Segment) :
    (printer.segment segment).count = printer.count + segment.hops :=
  congrArg (· + _) (count_delimiters _)

theorem makeStrLoop_fits (ran : makeStrLoop fuel data printer = some result)
    (fits : printer.Fits 2) : result.Fits 2 := by
  fun_induction makeStrLoop fuel data printer with
  | case1 => exact Option.some.inj ran ▸ fits
  | case2 => cases ran
  | case3 => cases ran
  | case4 fuel first data printer segment rest here known ih =>
    obtain ⟨type, code⟩ := (known_code segment.type).mp known
    obtain ⟨one, -, rfl⟩ := octets_of_segmentAt here code
    exact ih ran (fits.segment _ (by rw [readAs_asOctets, one.length_toNat]))
  | case5 => cases ran

theorem makeStrLoop_count :
    (makeStrLoop fuel data printer).map Printer.count = countLoop fuel data printer.count := by
  fun_induction makeStrLoop fuel data printer with
  | case1 fuel => cases fuel <;> rfl
  | case2 => rfl
  | case3 => simp_all [countLoop]
  | case4 => simp_all [countLoop, count_segment]
  | case5 => simp_all [countLoop]

end
end Printer

/-- The text of a path is built along with its count, and inside its buffer. -/
theorem aspathMakeStr_count (data : List Octet) :
    (aspathMakeStr data).map Printer.count = aspathMakeStrCount data := by
  rw [aspathMakeStr, aspathMakeStrCount]
  split
  · simp [*, countLoop]
  · have same (printer : Printer) : printer.finish.count = printer.count := by
      rw [Printer.finish]
      split <;> rfl
    rw [Option.map_map]
    exact (congrArg (Option.map · _) (funext same)).trans Printer.makeStrLoop_count

theorem aspathMakeStr_inside {data printer} (made : aspathMakeStr data = some printer) :
    printer.inside = true := by
  rw [aspathMakeStr] at made
  split at made
  · cases made
    rfl
  · obtain ⟨filled, ran, rfl⟩ := Option.map_eq_some_iff.mp made
    have fits := Printer.makeStrLoop_fits ran ⟨rfl, by decide⟩
    have ended : (if filled.type ≠ asSequence then filled.put (aspathDelimiterChar filled.type).2
        else filled).Fits 1 :=
      fits.put_if _
    simp only [Printer.finish, ended.1, Bool.true_and, decide_eq_true_eq]
    exact ended.2

theorem even_octets (path : List PathSegment) : (pathOctets path).length % 2 = 0 := by
  induction path with
  | nil => rfl
  | cons segment path ih =>
    rw [pathOctets_cons, length_append, length_octets]
    omega

section
variable (stored : Aspath → Bool) (data : List Octet)

/-- Runs of whole segments and nothing else are accepted; they are counted as the ASes outside
confederations, with one for a set, and their text stays inside its buffer. -/
structure ParsesExactly : Prop where
  accepts : (aspathParse stored data).isSome ↔ ∃ path, data = pathOctets path
  counts : ∀ path, data = pathOctets path → aspathParse stored data = some ⟨data⟩ ∧
    ∃ printer, aspathMakeStr data = some printer ∧ printer.count = (path.map PathSegment.hops).sum ∧
      printer.inside = true

variable {stored data}

theorem parse_eq_some {path : List PathSegment} (whole : data = pathOctets path) :
    aspathParse stored data = some ⟨data⟩ := by
  have accepted : (aspathMakeStrCount data).isSome := wellformed_iff.mpr ⟨path, whole⟩
  have even : ¬ data.length % 2 = 1 := by
    rw [whole, even_octets]
    decide
  rw [aspathParse, if_neg even, if_pos accepted, ite_self]

/-- What the hash holds is answered without a look at it. -/
theorem parse_isSome_iff : (aspathParse stored data).isSome ↔
    (∃ path, data = pathOctets path) ∨ stored ⟨data⟩ = true ∧ data.length % 2 = 0 := by
  constructor
  · intro accepted
    rw [aspathParse] at accepted
    split at accepted
    · cases accepted
    · rename_i even
      split at accepted
      · rename_i held
        exact .inr ⟨held, by omega⟩
      · split at accepted
        · rename_i checked
          exact .inl (wellformed_iff.mp checked)
        · cases accepted
  · rintro (⟨path, whole⟩ | ⟨held, even⟩)
    · rw [parse_eq_some whole]
      rfl
    · rw [aspathParse, if_neg (by omega), if_pos held]
      rfl

variable (stored data)

/-- Parsing is exact unless the hash holds a path under these octets that is no run of segments. -/
theorem aspath_parse_exact_iff : ParsesExactly stored data ↔
    (stored ⟨data⟩ = true → data.length % 2 = 0 → ∃ path, data = pathOctets path) := by
  constructor
  · intro exactly held even
    exact exactly.accepts.mp (parse_isSome_iff.mpr (.inr ⟨held, even⟩))
  · intro whole
    refine ⟨parse_isSome_iff.trans ⟨?_, .inl⟩, ?_⟩
    · rintro (known | ⟨held, even⟩)
      · exact known
      · exact whole held even
    · rintro path rfl
      have counted := (aspathMakeStr_count (pathOctets path)).trans (countLoop_octets le_rfl)
      obtain ⟨printer, made, count⟩ := Option.map_eq_some_iff.mp counted
      exact ⟨parse_eq_some rfl, printer, made, count.trans (Nat.zero_add _),
        aspathMakeStr_inside made⟩

end

/-- The longest segment. -/
def longest : Aspath :=
  ⟨asSequence :: 255 :: (replicate 255 1).flatMap asOctets⟩

/-- One AS more leaves a length octet of zero in the hash, and its octets are accepted from then
  on. -/
theorem aspath_parse_longest : longest.Wellformed ∧
    ¬ ParsesExactly (fun path => path = aspathAddSeq longest 7) (aspathAddSeq longest 7).data := by
  refine ⟨by decide +kernel, fun exactly => ?_⟩
  have accepted :
      (aspathParse (fun path => path = aspathAddSeq longest 7)
      (aspathAddSeq longest 7).data).isSome :=
    parse_isSome_iff.mpr (.inr ⟨decide_eq_true rfl, by decide +kernel⟩)
  have unchecked : ¬ (aspathAddSeq longest 7).Wellformed := by decide +kernel
  exact unchecked (wellformed_iff.mpr (exactly.accepts.mp accepted))

end Zebra.Bgpd
