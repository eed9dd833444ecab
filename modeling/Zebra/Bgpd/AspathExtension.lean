import Zebra.Bgpd.AspathLeft

/-! More ASes in front of the path of an attribute, of bgpd/bgp_aspath.c. -/
namespace Zebra.Bgpd
open Base List PathSegment BitVec Nat

theorem code_injective {first second : SegmentType} (same : first.code = second.code) :
    first = second := by
  cases first <;> cases second <;> first | rfl | exact nomatch same

theorem take_asns (asns : List As) (rest : List Octet) :
    (asns.flatMap asOctets ++ rest).take (2 * asns.length) = asns.flatMap asOctets := by
  rw [← length_asOctets, take_left]

/-- The data of `as1` in front of its last segment, and from there on. -/
def lastSegment : Nat → List Octet → Option (List Octet × List Octet)
  | fuel + 1, type :: length :: rest =>
    match lastSegment fuel (rest.drop (2 * length.toNat)) with
    | none => some ([], type :: length :: rest)
    | some (before, last) => some (type :: length :: rest.take (2 * length.toNat) ++ before, last)
  | _, _ => none

section
variable (as1 as2 : Aspath)

def aspathMerge : Aspath := ⟨as1.data ++ as2.data⟩

/-- `aspath_prepend`: the length of the segment that both sequences go into is one octet and
  wraps. -/
def aspathPrepend : Aspath :=
  match lastSegment as1.data.length as1.data, as2.data with
  | _, [] => as1
  | none, _ => as2
  | some (before, type1 :: length1 :: asval1), type2 :: length2 :: asval2 =>
    if type1 ≠ type2 then aspathMerge as1 as2
    else if type1 = asSequence then ⟨before ++ type1 :: (length1 + length2) :: asval1 ++ asval2⟩
    else aspathMerge as1 as2
  | _, _ => as2

end

/-- Well formed data that hold the added ASes and behind them the old ones. -/
def Extends (added old : List (SegmentType × As)) (data : List Octet) : Prop :=
  ∃ path, data = pathOctets path ∧ flattened path = added ++ old

/-- `aspath_add_one_as` has room for one more AS of that type. -/
def Room (type : SegmentType) : List PathSegment → Prop
  | [] => True
  | segment :: path =>
    if segment.asns = [] then flattened path = []
      else segment.type = type → segment.asns.length < 255

/-- The two segments that `aspath_prepend` would make one fit into one. -/
def Joinable (path1 path2 : List PathSegment) : Prop :=
  ∀ last ∈ path1.getLast?, ∀ first ∈ path2.head?,
    last.type = .sequence → first.type = .sequence → last.asns.length + first.asns.length < 256

/-- The second octets of the pairs: lengths and the lower halves of the ASes. -/
def lowSum : List Octet → Nat
  | _ :: low :: rest => low.toNat + lowSum rest
  | _ => 0

def weight (asns : List (SegmentType × As)) : Nat :=
  (asns.map fun one => 1 + lowSum (asOctets one.2)).sum

section
variable {added old : List (SegmentType × As)} {path path1 path2 : List PathSegment}
  {data : List Octet}

theorem lowSum_header (type length : Octet) (asns : List As) (rest : List Octet) :
    lowSum (type :: length :: (asns.flatMap asOctets ++ rest)) =
      length.toNat + (asns.map (lowSum ∘ asOctets)).sum + lowSum rest := by
  have values : lowSum (asns.flatMap asOctets ++ rest) =
      (asns.map (lowSum ∘ asOctets)).sum + lowSum rest := by
    induction asns with
    | nil => simp
    | cons asno asns ih => simpa [asOctets, lowSum, Nat.add_assoc] using ih
  rw [lowSum, values, Nat.add_assoc]

variable (type : SegmentType)

theorem weight_asns (asns : List As) :
    weight (asns.map (type, ·)) = asns.length + (asns.map (lowSum ∘ asOctets)).sum := by
  induction asns with
  | nil => rfl
  | cons asno asns ih => simp [weight] at ih ⊢; omega

theorem flattened_cons (segment : PathSegment) (path : List PathSegment) :
    flattened (segment :: path) = segment.asns.map (segment.type, ·) ++ flattened path := rfl

theorem flattened_append (path1 path2 : List PathSegment) :
    flattened (path1 ++ path2) = flattened path1 ++ flattened path2 :=
  flatMap_append

theorem weight_append (first second : List (SegmentType × As)) :
    weight (first ++ second) = weight first + weight second := by
  simp [weight]

theorem lowSum_path (path : List PathSegment) (rest : List Octet) :
    lowSum (pathOctets path ++ rest) = weight (flattened path) + lowSum rest := by
  induction path with
  | nil => exact (Nat.zero_add _).symm
  | cons segment path ih =>
    rw [pathOctets_cons, PathSegment.octets, List.append_assoc, List.cons_append, List.cons_append,
      lowSum_header, ih, flattened_cons, weight_append, weight_asns, segment.length_toNat]
    omega

theorem weight_of_extends (extended : Extends added old data) :
    lowSum data = weight added + weight old := by
  obtain ⟨path, rfl, all⟩ := extended
  have sum := lowSum_path path []
  rwa [append_nil, all, weight_append] at sum

theorem lastSegment_nil (fuel : Nat) : lastSegment fuel [] = none := by
  cases fuel <;> rfl

theorem lastSegment_octets (last : PathSegment) (fuel : Nat) (enough : path.length < fuel) :
    lastSegment fuel (pathOctets (path ++ [last])) = some (pathOctets path, last.octets) := by
  induction path generalizing fuel with
  | nil =>
    obtain ⟨fuel, rfl⟩ := exists_eq_add_one_of_ne_zero (ne_of_gt enough)
    have behind := drop_asns last.asns []
    rw [append_nil] at behind
    simp only [nil_append, pathOctets_cons, pathOctets_nil, append_nil, PathSegment.octets,
      lastSegment, last.length_toNat, behind, lastSegment_nil]
  | cons segment path ih =>
    obtain ⟨fuel, rfl⟩ :=
      Nat.exists_eq_add_one_of_ne_zero (ne_of_gt (lt_of_le_of_lt (Nat.zero_le _) enough))
    have found := ih fuel (Nat.lt_of_succ_lt_succ enough)
    simp only [PathSegment.octets, List.cons_append, lastSegment, segment.length_toNat, drop_asns,
      take_asns, pathOctets_cons]
    rw [found]
    rfl

def single (type : SegmentType) (asno : As) : PathSegment :=
  ⟨type, [asno], Nat.lt_add_left 254 Nat.one_lt_two⟩

theorem add_cons (asno : As) (segment : PathSegment) (path : List PathSegment) :
    (aspathAddOneAs ⟨pathOctets (segment :: path)⟩ asno type.code).data =
      if segment.asns = [] then (single type asno).octets
      else if segment.type = type then type.code :: BitVec.ofNat 8 (segment.asns.length + 1) ::
        ((asno :: segment.asns).flatMap asOctets ++ pathOctets path)
      else pathOctets (single type asno :: segment :: path) := by
  have empty := length_eq_zero segment
  have same : segment.type.code = type.code ↔ segment.type = type := ⟨code_injective, congrArg _⟩
  by_cases none_ : segment.asns = []
  · simp [aspathAddOneAs, PathSegment.octets, none_, single]
  · by_cases equal : segment.type = type
    · simp [aspathAddOneAs, PathSegment.octets, none_, empty, equal, ofNat_add]
    · simp [aspathAddOneAs, PathSegment.octets, none_, empty, equal, same, single]

theorem add_exact (asno : As) : Extends [(type, asno)] (flattened path)
    (aspathAddOneAs ⟨pathOctets path⟩ asno type.code).data ↔ Room type path := by
  cases path with
  | nil => exact iff_of_true ⟨[single type asno], rfl, rfl⟩ trivial
  | cons segment path =>
    rw [add_cons, Room]
    by_cases none_ : segment.asns = []
    · rw [if_pos none_, if_pos none_, flattened_cons, none_, map_nil, nil_append]
      constructor
      · intro extended
        have sum := weight_of_extends extended
        cases old : flattened path with
        | nil => rfl
        | cons => simp [lowSum, weight, asOctets, old, single, octets] at sum
      · intro nothing
        exact ⟨[single type asno], rfl, by rw [nothing]; rfl⟩
    · rw [if_neg none_, if_neg none_]
      by_cases same : segment.type = type
      · subst same
        rw [if_pos rfl]
        constructor
        · intro extended _
          have sum := weight_of_extends extended
          have rest := lowSum_path path []
          rw [append_nil] at rest
          have added : weight [(segment.type, asno)] = 1 + lowSum (asOctets asno) := rfl
          rw [lowSum_header, rest, flattened_cons, weight_append, weight_asns, added,
            toNat_ofNat, map_cons, sum_cons, Function.comp_apply] at sum
          simp only [lowSum] at sum
          omega
        · intro room
          exact ⟨⟨segment.type, asno :: segment.asns, succ_lt_succ (room rfl)⟩ :: path, rfl, rfl⟩
      · rw [if_neg same]
        exact iff_of_true ⟨single type asno :: segment :: path, rfl, rfl⟩ fun equal =>
          absurd equal same

theorem prepend_cons (init rest : List PathSegment) (last first : PathSegment) :
    (aspathPrepend ⟨pathOctets (init ++ [last])⟩ ⟨pathOctets (first :: rest)⟩).data =
      if last.type = .sequence ∧ first.type = .sequence then pathOctets init ++
        asSequence :: BitVec.ofNat 8 (last.asns.length + first.asns.length) ::
          ((last.asns ++ first.asns).flatMap asOctets ++ pathOctets rest)
      else pathOctets (init ++ [last] ++ first :: rest) := by
  have long := length_le_octets (init ++ [last])
  rw [length_append] at long
  have found := lastSegment_octets last (pathOctets (init ++ [last])).length long
  have merged : aspathMerge ⟨pathOctets (init ++ [last])⟩ ⟨pathOctets (first :: rest)⟩ =
      ⟨pathOctets (init ++ [last] ++ first :: rest)⟩ :=
        congrArg Aspath.mk (pathOctets_append ..).symm
  have same : last.type.code = first.type.code ↔ last.type = first.type :=
    ⟨code_injective, congrArg _⟩
  have sequence : last.type.code = asSequence ↔
    last.type = .sequence := by cases last.type <;> decide
  rw [aspathPrepend, found]
  change (if last.type.code ≠ first.type.code then aspathMerge _ _
    else if last.type.code = asSequence then ⟨pathOctets init ++ last.type.code ::
      (BitVec.ofNat 8 last.asns.length + BitVec.ofNat 8 first.asns.length) ::
        last.asns.flatMap asOctets ++
        (first.asns.flatMap asOctets ++ pathOctets rest)⟩
    else aspathMerge _ _ : Aspath).data = _
  rw [merged]
  by_cases equal : last.type = first.type
  · by_cases front : last.type = .sequence
    · simp [← equal, front, SegmentType.code, ofNat_add]
    · simp [← equal, front, sequence]
  · rw [if_pos (mt same.mp equal), if_neg fun both => equal (both.1.trans both.2.symm)]

theorem prepend_exact : Extends (flattened path1) (flattened path2)
    (aspathPrepend ⟨pathOctets path1⟩ ⟨pathOctets path2⟩).data ↔ Joinable path1 path2 := by
  obtain rfl | ⟨init, last, rfl⟩ := path1.eq_nil_or_concat
  · exact iff_of_true ⟨path2, by cases path2 <;> rfl, rfl⟩ (by simp [Joinable])
  rw [concat_eq_append]
  cases path2 with
  | nil =>
    exact iff_of_true ⟨init ++ [last], by simp [aspathPrepend], by simp [flattened]⟩
      (by simp [Joinable])
  | cons first rest =>
    rw [prepend_cons]
    by_cases both : last.type = .sequence ∧ first.type = .sequence
    · rw [if_pos both]
      constructor
      · intro extended
        have sum := weight_of_extends extended
        have behind := lowSum_path rest []
        rw [append_nil] at behind
        rw [lowSum_path, lowSum_header, behind, flattened_append, flattened_cons, flattened_cons,
          weight_append, weight_append, weight_append, weight_asns, weight_asns, toNat_ofNat,
          map_append, sum_append_nat] at sum
        have nothing : weight (flattened []) = 0 ∧ lowSum [] = 0 := ⟨rfl, rfl⟩
        simp [Joinable]
        omega
      · intro joinable
        have fits := joinable last (by simp) first (by simp) both.1 both.2
        refine ⟨init ++ ⟨.sequence, last.asns ++ first.asns, by simpa using fits⟩ :: rest, ?_, ?_⟩
        · simp [PathSegment.octets, SegmentType.code]
        · simp [flattened, both]
    · rw [if_neg both]
      exact iff_of_true ⟨_, rfl, flattened_append ..⟩
        (by simpa [Joinable] using fun left right => absurd ⟨left, right⟩ both)

end

/-- A path is extended by an AS or by another path in front exactly while the segment that grows has
  room. -/
theorem extension_exact (path path2 : List PathSegment) (asno : As) :
    (Extends [(.sequence, asno)] (flattened path) (aspathAddSeq ⟨pathOctets path⟩ asno).data ↔
      Room .sequence path) ∧
    (Extends [(.confedSequence, asno)] (flattened path)
      (aspathAddConfedSeq ⟨pathOctets path⟩ asno).data ↔
      Room .confedSequence path) ∧
    (Extends (flattened path) (flattened path2)
      (aspathPrepend ⟨pathOctets path⟩ ⟨pathOctets path2⟩).data ↔
      Joinable path path2) :=
  ⟨add_exact .sequence asno, add_exact .confedSequence asno, prepend_exact⟩

def fullSequence : PathSegment :=
  ⟨.sequence, List.replicate 255 1, by rw [List.length_replicate]; decide⟩

/-- A sequence of 255 ASes has no room for another one. -/
theorem extension_full :
    ¬Extends [(.sequence, 1)] (flattened [fullSequence])
    (aspathAddSeq ⟨pathOctets [fullSequence]⟩ 1).data := by
  intro extended
  have room := (add_exact .sequence 1).mp extended
  have long : fullSequence.asns.length = 255 := length_replicate
  rw [Room, if_neg (ne_nil_of_length_pos (long ▸ succ_pos _)), long] at room
  exact lt_irrefl _ (room rfl)

end Zebra.Bgpd
