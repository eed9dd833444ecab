import Zebra.Bgpd.MplsVpn
import Zebra.Lib.Stream

namespace Zebra.Bgpd.MplsVpn
open Base Lib List VpnParse

/-- A record: a length, a label, a route distinguisher of a known type and the octets of a
  prefix. -/
structure VpnRecord where
  prefixlen : Octet
  label : List Octet
  rd : List Octet
  octets : List Octet
  low : 88 ≤ prefixlen.toNat
  high : prefixlen.toNat ≤ 120
  length_label : label.length = 3
  length_rd : rd.length = 8
  known : decodeRdType rd 0 = rdTypeAs ∨ decodeRdType rd 0 = rdTypeIp
  length_octets : octets.length = psize prefixlen.toNat - 11

def VpnRecord.encode (record : VpnRecord) : List Octet :=
  record.prefixlen :: (record.label ++ record.rd ++ record.octets)

def VpnRecord.route (record : VpnRecord) : VpnRoute where
  prefixlen := record.prefixlen.toNat - 88
  octets := record.octets
  rd := record.rd
  tag := record.label

/-- What is asked of the parser, on a block behind other octets and in front of others. -/
structure Exact (front nlri : List Octet) (result : Int × VpnParse) : Prop where
  inside : ∀ read ∈ result.2.reads, front.length ≤ read.1 ∧
    read.1 + read.2 ≤ front.length + nlri.length
  fits : ∀ count ∈ result.2.copied, count ≤ 4
  whole : ∃ records : List VpnRecord, ∃ rest, nlri = records.flatMap VpnRecord.encode ++ rest ∧
    result.2.calls = records.map VpnRecord.route
  lengths : ∀ route ∈ result.2.calls, route.prefixlen ≤ 32
  accepts : result.1 = 0 ↔ ∃ records : List VpnRecord, nlri = records.flatMap VpnRecord.encode
  once : ∀ records : List VpnRecord, nlri = records.flatMap VpnRecord.encode →
    result.2.calls = records.map VpnRecord.route

/-- What follows whole records ends there, has a length below 88, or has a whole header; where the
type in it is known the length is at most 120 and the whole record is there. -/
def Upright (rest : List Octet) : Prop :=
  rest = [] ∨ ofOctets (slice rest 0 1) < 88 ∨
    12 ≤ rest.length ∧ (decodeRdType rest 4 = rdTypeAs ∨ decodeRdType rest 4 = rdTypeIp →
      ofOctets (slice rest 0 1) ≤ 120 ∧ 1 + psize (ofOctets (slice rest 0 1)) ≤ rest.length)

def Orderly (nlri : List Octet) : Prop :=
  ∀ (records : List VpnRecord) rest, nlri = records.flatMap VpnRecord.encode ++ rest → Upright rest

theorem slice_behind (front rest : List Octet) (pos count : Nat) :
    slice (front ++ rest) (front.length + pos) count = slice rest pos count := by
  refine map_congr_left fun index _ => ?_
  rw [getD_eq_getElem?_getD, getElem?_append_right (by omega)]
  congr 2
  omega

theorem type_behind (front rest : List Octet) (pos : Nat) :
    decodeRdType (front ++ rest) (front.length + pos) = decodeRdType rest pos := by
  rw [decodeRdType, field, slice_behind, decodeRdType, field]

theorem slice_inside (rest back : List Octet) {pos count} (inside : pos + count ≤ rest.length) :
    slice (rest ++ back) pos count = slice rest pos count := by
  refine map_congr_left fun index member => ?_
  have below := mem_range.mp member
  rw [getD_eq_getElem?_getD, getD_eq_getElem?_getD, getElem?_append_left (by omega)]

namespace VpnRecord
variable (record : VpnRecord)

theorem length_encode : record.encode.length = 1 + psize record.prefixlen.toNat := by
  have low := record.low
  simp only [encode, length_cons, length_append, record.length_label, record.length_rd,
    record.length_octets]
  simp only [psize]
  omega

theorem fields (rest : List Octet) :
    slice (record.encode ++ rest) 0 1 = [record.prefixlen] ∧
    slice (record.encode ++ rest) 1 3 = record.label ∧
      slice (record.encode ++ rest) 4 8 = record.rd ∧
      slice (record.encode ++ rest) 12 (psize record.prefixlen.toNat - 11) = record.octets := by
  have label := slice_middle [record.prefixlen] record.label (record.rd ++ record.octets ++ rest)
  have rd := slice_middle (record.prefixlen :: record.label) record.rd (record.octets ++ rest)
  have octets := slice_middle (record.prefixlen :: record.label ++ record.rd) record.octets rest
  simp only [length_cons, length_append, record.length_label, record.length_rd,
    record.length_octets, length_nil] at label rd octets
  refine ⟨slice_whole [record.prefixlen] _, ?_, ?_, ?_⟩
  · simpa [encode] using label
  · simpa [encode] using rd
  · simpa [encode] using octets

theorem type (rest : List Octet) :
    decodeRdType (record.encode ++ rest) 4 = decodeRdType record.rd 0 := by
  have all := (record.fields rest).2.2.1
  have eight := slice_whole record.rd []
  have inner : ∀ data, slice (slice data 4 8) 0 2 = slice data 4 2 := fun data => rfl
  rw [decodeRdType, decodeRdType, field, field, ← all, inner]

end VpnRecord

theorem exists_record {rest} (low : 88 ≤ ofOctets (slice rest 0 1))
    (high : ofOctets (slice rest 0 1) ≤ 120)
    (known : decodeRdType rest 4 = rdTypeAs ∨ decodeRdType rest 4 = rdTypeIp)
    (there : 1 + psize (ofOctets (slice rest 0 1)) ≤ rest.length) :
    ∃ (record : VpnRecord) (more : List Octet), rest = record.encode ++ more := by
  cases rest with
  | nil => simp [slice, ofOctets] at low
  | cons head rest =>
    have isHead : ofOctets (slice (head :: rest) 0 1) = head.toNat := by simp [slice, ofOctets]
    rw [isHead] at low high there
    simp only [psize, length_cons] at there
    refine ⟨⟨head, rest.take 3, (rest.drop 3).take 8, (rest.drop 11).take (psize head.toNat - 11),
      low, high, ?_, ?_, ?_, ?_⟩,
      rest.drop (psize head.toNat), ?_⟩
    · simp only [length_take]; omega
    · simp only [length_take, length_drop]; omega
    · have same : decodeRdType ((rest.drop 3).take 8) 0 = decodeRdType (head :: rest) 4 := by
        have one : head :: rest = head :: rest.take 3 ++ (rest.drop 3) := by simp
        have here := type_behind (head :: rest.take 3) (rest.drop 3) 0
        rw [← one] at here
        have four : (head :: rest.take 3).length + 0 = 4 := by simp; omega
        rw [four] at here
        rw [here, decodeRdType, decodeRdType, field, field]
        conv_rhs => rw [← take_append_drop 8 (rest.drop 3)]
        rw [slice_inside _ _ (by simp; omega)]
      rw [same]
      exact known
    · simp only [length_take, length_drop, psize]; omega
    · have split : 11 + (psize head.toNat - 11) = psize head.toNat := by simp only [psize]; omega
      have last : rest.drop (psize head.toNat) = (rest.drop 11).drop (psize head.toNat - 11) := by
        rw [drop_drop, split]
      have middle : rest.drop 11 = (rest.drop 3).drop 8 := by rw [drop_drop]
      simp only [VpnRecord.encode, cons_append, append_assoc, last, take_append_drop]
      rw [middle, take_append_drop, take_append_drop]

theorem rounds_record (front rest : List Octet) (record : VpnRecord) {lim}
    (room : front.length + record.encode.length ≤ lim) :
    let data := front ++ (record.encode ++ rest)
    let tail := nlriRounds data lim (front.length + record.encode.length)
    ∃ round : VpnParse, nlriRounds data lim front.length = (tail.1, round.followedBy tail.2) ∧
      (∀ read ∈ round.reads, front.length ≤ read.1 ∧
        read.1 + read.2 ≤ front.length + record.encode.length) ∧
      (∀ count ∈ round.copied, count ≤ 4) ∧ round.calls = [record.route] := by
  have size := record.length_encode
  have low := record.low
  have high := record.high
  obtain ⟨head, label, rd, octets⟩ := record.fields rest
  have isHead : ofOctets (slice (front ++ (record.encode ++ rest)) front.length 1) =
      record.prefixlen.toNat := by
    have here := slice_behind front (record.encode ++ rest) 0 1
    rw [add_zero] at here
    rw [here, head]
    simp [ofOctets]
  have known : decodeRdType (front ++ (record.encode ++ rest)) (front.length + 1 + 3) = rdTypeAs ∨
      decodeRdType (front ++ (record.encode ++ rest)) (front.length + 1 + 3) = rdTypeIp := by
    rw [add_assoc, type_behind, record.type]
    exact record.known
  have bounds : 11 ≤ psize record.prefixlen.toNat ∧ psize record.prefixlen.toNat ≤ 15 := by
    simp only [psize]
    omega
  have tagHere := (slice_behind front (record.encode ++ rest) 1 3).trans label
  have rdHere := (slice_behind front (record.encode ++ rest) 4 8).trans rd
  have octetsHere :=
    (slice_behind front (record.encode ++ rest) 12 (psize record.prefixlen.toNat - 11)).trans octets
  have next : front.length + 1 + psize record.prefixlen.toNat =
    front.length + record.encode.length := by omega
  intro data tail
  refine ⟨{
    reads := [(front.length, 1), (front.length + 1, 3), (front.length + 1 + 3, 8),
      (front.length + 1 + 3, 2),
      (front.length + 1 + 5, 6), (front.length + 1 + 11, psize record.prefixlen.toNat - 11)]
    copied := [psize record.prefixlen.toNat - 11]
    calls := [record.route] }, ?_, ?_, ?_, rfl⟩
  · simp only [data, tail]
    rw [nlriRounds, if_pos (by omega)]
    dsimp only
    rw [isHead, if_neg (by omega), if_pos known, if_neg (by omega), next, tagHere,
      rdHere, octetsHere]
    rfl
  · simp only [forall_mem_cons, not_mem_nil, false_implies, implies_true, and_true]
    omega
  · simp only [forall_mem_cons, not_mem_nil, false_implies, implies_true, and_true]
    omega

theorem rounds_records (records : List VpnRecord) (front rest : List Octet) {lim}
    (room : front.length + (records.flatMap VpnRecord.encode).length ≤ lim) :
    let data := front ++ (records.flatMap VpnRecord.encode ++ rest)
    let tail := nlriRounds data lim (front.length + (records.flatMap VpnRecord.encode).length)
    ∃ rounds : VpnParse, nlriRounds data lim front.length = (tail.1, rounds.followedBy tail.2) ∧
      (∀ read ∈ rounds.reads, front.length ≤ read.1 ∧
        read.1 + read.2 ≤ front.length + (records.flatMap VpnRecord.encode).length) ∧
      (∀ count ∈ rounds.copied, count ≤ 4) ∧ rounds.calls = records.map VpnRecord.route := by
  induction records generalizing front with
  | nil => exact ⟨{}, rfl, by simp, by simp, rfl⟩
  | cons record records ih =>
    simp only [flatMap_cons, length_append] at room ⊢
    obtain ⟨round, run, inside, fits, calls⟩ :=
      @rounds_record front (records.flatMap VpnRecord.encode ++ rest) record lim (by omega)
    obtain ⟨rounds, run', inside', fits', calls'⟩ :=
      ih (front ++ record.encode) (by rw [length_append]; omega)
    simp only [length_append, append_assoc] at run run' inside' ⊢
    refine ⟨round.followedBy rounds, ?_, ?_, ?_, ?_⟩
    · rw [run, run', ← add_assoc]
      simp [followedBy]
    · intro read member
      rcases mem_append.mp member with member | member
      · have bound := inside read member
        omega
      · have bound := inside' read member
        omega
    · intro count member
      exact (mem_append.mp member).elim (fits count) (fits' count)
    · simp [followedBy, calls, calls']

section Stops
variable (front rest back : List Octet)

theorem head_here (some_ : rest ≠ []) :
    ofOctets (slice (front ++ (rest ++ back)) front.length 1) = ofOctets (slice rest 0 1) := by
  have here := slice_behind front (rest ++ back) 0 1
  rw [add_zero] at here
  rw [here, slice_inside rest back (length_pos_iff.mpr some_)]

theorem type_here (long : 12 ≤ rest.length) :
    decodeRdType (front ++ (rest ++ back)) (front.length + 1 + 3) = decodeRdType rest 4 := by
  rw [add_assoc, type_behind, decodeRdType, field, slice_inside rest back (by omega),
    decodeRdType, field]

theorem rounds_end (data : List Octet) (lim : Nat) : nlriRounds data lim lim = (0, {}) := by
  rw [nlriRounds, if_neg (lt_irrefl lim), if_neg (not_not.mpr rfl)]

theorem rounds_stop (some_ : rest ≠ []) (upright : Upright rest)
    (none_ : ∀ (record : VpnRecord) more, rest ≠ record.encode ++ more) :
    let result := nlriRounds (front ++ (rest ++ back)) (front.length + rest.length) front.length
    result.1 = -1 ∧ (∀ read ∈ result.2.reads, front.length ≤ read.1 ∧
      read.1 + read.2 ≤ front.length + rest.length) ∧
      result.2.copied = [] ∧ result.2.calls = [] := by
  have positive := length_pos_iff.mpr some_
  have head := head_here front rest back some_
  rw [nlriRounds, if_pos (by omega)]
  dsimp only
  rw [head]
  by_cases low : ofOctets (slice rest 0 1) < 88
  · rw [if_pos low]
    refine ⟨rfl, ?_, rfl, rfl⟩
    simp only [forall_mem_cons, not_mem_nil, false_implies, implies_true, and_true]
    omega
  · obtain ⟨long, fits⟩ := (upright.resolve_left some_).resolve_left low
    have unknown : ¬ (decodeRdType rest 4 = rdTypeAs ∨ decodeRdType rest 4 = rdTypeIp) :=
        fun known => by
      obtain ⟨record, more, same⟩ :=
        exists_record (not_lt.mp low) (fits known).1 known (fits known).2
      exact none_ record more same
    rw [if_neg low, type_here front rest back long, if_neg unknown]
    refine ⟨rfl, ?_, rfl, rfl⟩
    simp only [forall_mem_cons, not_mem_nil, false_implies, implies_true, and_true]
    omega

theorem rounds_overrun (bent : ¬ Upright rest) :
    let result := nlriRounds (front ++ (rest ++ back)) (front.length + rest.length) front.length
    (∃ read ∈ result.2.reads, front.length + rest.length < read.1 + read.2) ∨
      ∃ count ∈ result.2.copied, 4 < count := by
  simp only [Upright, not_or] at bent
  obtain ⟨some_, high, bent⟩ := bent
  have positive := length_pos_iff.mpr some_
  have head := head_here front rest back some_
  have size : 11 ≤ psize (ofOctets (slice rest 0 1)) := by
    simp only [psize]
    omega
  rw [nlriRounds, if_pos (by omega)]
  dsimp only
  rw [head, if_neg high]
  by_cases known : decodeRdType (front ++ (rest ++ back)) (front.length + 1 + 3) = rdTypeAs ∨
      decodeRdType (front ++ (rest ++ back)) (front.length + 1 + 3) = rdTypeIp
  · rw [if_pos known]
    by_cases beyond :
      front.length + rest.length < front.length + 1 + psize (ofOctets (slice rest 0 1))
    · rw [if_pos beyond]
      refine .inl ⟨(front.length + 1 + 11, psize (ofOctets (slice rest 0 1)) - 11), by simp, ?_⟩
      dsimp only
      omega
    · rw [if_neg beyond]
      refine .inr ⟨psize (ofOctets (slice rest 0 1)) - 11, by simp [followedBy], ?_⟩
      have long : 12 ≤ rest.length := by omega
      rw [type_here front rest back long] at known
      have tall : ¬ ofOctets (slice rest 0 1) ≤ 120 :=
        fun small => bent ⟨long, fun _ => ⟨small, by omega⟩⟩
      simp only [psize]
      omega
  · rw [if_neg known]
    have short : rest.length < 12 := by
      by_contra long
      rw [type_here front rest back (not_lt.mp long)] at known
      exact bent ⟨Nat.not_lt.mp long, fun known' => absurd known' known⟩
    refine .inl ⟨(front.length + 1 + 3, 8), by simp, ?_⟩
    dsimp only
    omega

end Stops

theorem whole_records (nlri : List Octet) : ∃ (records : List VpnRecord) (rest : List Octet),
    nlri = records.flatMap VpnRecord.encode ++ rest ∧
    ∀ (record : VpnRecord) more, rest ≠ record.encode ++ more := by
  induction size : nlri.length using Nat.strong_induction_on generalizing nlri with
  | _ size_ ih =>
    by_cases more : ∃ (record : VpnRecord) (more : List Octet), nlri = record.encode ++ more
    · obtain ⟨record, more, same⟩ := more
      have length := record.length_encode
      have shorter : more.length < size_ := by
        rw [← size, same, length_append]
        omega
      obtain ⟨records, rest, whole, stops⟩ := ih _ shorter more rfl
      exact ⟨record :: records, rest, by rw [same, whole, flatMap_cons, append_assoc], stops⟩
    · exact ⟨[], nlri, rfl, fun record rest same => more ⟨record, rest, same⟩⟩

theorem rounds_whole (records : List VpnRecord) (front back : List Octet) :
    let nlri := records.flatMap VpnRecord.encode
    let result := nlriRounds (front ++ (nlri ++ back)) (front.length + nlri.length) front.length
    result.1 = 0 ∧ result.2.calls = records.map VpnRecord.route := by
  obtain ⟨rounds, run, -, -, calls⟩ := rounds_records records front back le_rfl
  intro nlri result
  rw [rounds_end] at run
  refine ⟨congrArg Prod.fst run, (congrArg (fun result => result.2.calls) run).trans ?_⟩
  simp [followedBy, calls]

theorem rounds_exact (front nlri back : List Octet) :
    Exact front nlri (nlriRounds (front ++ (nlri ++ back))
      (front.length + nlri.length) front.length) ↔ Orderly nlri := by
  constructor
  · rintro exact_ records rest rfl
    by_contra bent
    obtain ⟨rounds, run, -⟩ := @rounds_records records front (rest ++ back)
      (front.length + (records.flatMap VpnRecord.encode ++ rest).length)
        (by rw [length_append]; omega)
    have over_ := rounds_overrun (front ++ records.flatMap VpnRecord.encode) rest back bent
    simp only [length_append, append_assoc, ← add_assoc] at run over_ exact_
    rw [run] at exact_
    rcases over_ with ⟨read, member, beyond⟩ | ⟨count, member, large⟩
    · have bound := (exact_.inside read (mem_append_right _ member)).2
      simp only [length_append] at bound
      omega
    · have bound := exact_.fits count (mem_append_right _ member)
      omega
  · intro orderly
    obtain ⟨records, rest, same, none_⟩ := whole_records nlri
    obtain ⟨rounds, run, inside, fits, calls⟩ := @rounds_records records front (rest ++ back)
      (front.length + nlri.length) (by rw [same, length_append]; omega)
    have joined : records.flatMap VpnRecord.encode ++ (rest ++ back) = nlri ++ back := by
      rw [same, append_assoc]
    rw [joined] at run
    have length : nlri.length = (records.flatMap VpnRecord.encode).length + rest.length := by
      rw [same, length_append]
    have tail : ∃ later : Int × VpnParse, nlriRounds (front ++ (nlri ++ back))
          (front.length + nlri.length) front.length =
          (later.1, rounds.followedBy later.2) ∧ (rest = [] → later.1 = 0) ∧
            (rest ≠ [] → later.1 = -1) ∧
        (∀ read ∈ later.2.reads, front.length ≤ read.1 ∧
          read.1 + read.2 ≤ front.length + nlri.length) ∧
        later.2.copied = [] ∧ later.2.calls = [] := by
      refine ⟨_, run, ?_⟩
      by_cases ends : rest = []
      · have here : front.length + (records.flatMap VpnRecord.encode).length =
            front.length + nlri.length := by
          simp [length, ends]
        rw [here, rounds_end]
        exact ⟨fun _ => rfl, fun more => absurd ends more, by simp, rfl, rfl⟩
      · have stops := rounds_stop (front ++ records.flatMap VpnRecord.encode) rest back ends
          (orderly records rest same) none_
        simp only [length_append, append_assoc, joined, add_assoc, ← length] at stops
        refine ⟨fun none_ => absurd none_ ends, fun _ => stops.1, fun read member => ?_, stops.2.2⟩
        have bound := stops.2.1 read member
        omega
    obtain ⟨later, result, zero, error, insideLater, copied, noCalls⟩ := tail
    have madeCalls : (rounds.followedBy later.2).calls = records.map VpnRecord.route := by
      simp [followedBy, calls, noCalls]
    have onWhole : ∀ others : List VpnRecord, nlri = others.flatMap VpnRecord.encode →
        later.1 = 0 ∧ (rounds.followedBy later.2).calls = others.map VpnRecord.route := by
      rintro others rfl
      have whole := rounds_whole others front back
      dsimp only at whole
      rwa [result] at whole
    rw [result]
    refine ⟨?_, ?_, ⟨records, rest, same, madeCalls⟩, ?_, ?_,
      fun others whole => (onWhole others whole).2⟩
    · intro read member
      rcases mem_append.mp member with member | member
      · have bound := inside read member
        omega
      · exact insideLater read member
    · intro count member
      rw [followedBy, copied, append_nil] at member
      exact fits count member
    · rw [madeCalls]
      simp only [forall_mem_map]
      intro record _
      have high := record.high
      simp only [VpnRecord.route]
      omega
    · constructor
      · intro accepted
        refine ⟨records, ?_⟩
        by_cases ends : rest = []
        · rw [same, ends, append_nil]
        · cases (error ends).symm.trans accepted
      · rintro ⟨others, whole⟩
        exact (onWhole others whole).1

/-- The parser does what is asked of it exactly on the orderly blocks of a peer that is up, and on
  empty ones. -/
theorem vpnv4_exact (established : Bool) (front nlri back : List Octet) :
    Exact front nlri
      (bgpNlriParseVpnv4 established (front ++ (nlri ++ back)) front.length nlri.length) ↔
      nlri = [] ∨ established ∧ Orderly nlri := by
  cases established with
  | true =>
    have empty : nlri = [] → Orderly nlri := by
      rintro rfl records rest same
      exact .inl (append_eq_nil_iff.mp same.symm).2
    rw [bgpNlriParseVpnv4, if_neg nofun, rounds_exact]
    simpa using empty
  | false =>
    rw [bgpNlriParseVpnv4]
    have noRecords : ∀ records, records.flatMap VpnRecord.encode = [] → records = [] := by
      intro records none_
      cases records with
      | nil => rfl
      | cons record records => simp [VpnRecord.encode] at none_
    constructor
    · intro exact_
      obtain ⟨records, whole⟩ := exact_.accepts.mp rfl
      have none_ : records = [] := map_eq_nil_iff.mp (exact_.once records whole).symm
      exact .inl (by rw [whole, none_]; rfl)
    · rintro (rfl | ⟨never, _⟩)
      · refine ⟨by simp, by simp, ⟨[], [], rfl, rfl⟩, by
          simp, ⟨fun _ => ⟨[], rfl⟩, fun _ => rfl⟩, fun records whole => ?_⟩
        rw [noRecords records whole.symm]
        rfl
      · exact nomatch never

/-- A record of two octets: what is behind the block is read. -/
theorem vpnv4_overruns : ¬ Exact [] [88, 0] (bgpNlriParseVpnv4 true [88, 0] 0 2) := by
  intro exact_
  have upright := (rounds_exact [] [88, 0] []).mp exact_ [] [88, 0] rfl
  rcases upright with none_ | low | ⟨long, _⟩
  · exact nomatch none_
  · exact nomatch low
  · exact nomatch long

end Zebra.Bgpd.MplsVpn
