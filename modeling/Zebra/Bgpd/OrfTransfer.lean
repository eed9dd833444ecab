import Zebra.Bgpd.Orf

namespace Zebra.Bgpd
open Base PrefixList EntryPrefix PrefixListEntry Option

/-- An entry on the wire. -/
def orfOctets (pentry : PrefixListEntry) : List Octet :=
  orfFlag pentry.type :: (toOctets 4 pentry.seq.toNat ++
    (BitVec.ofNat 8 pentry.ge :: BitVec.ofNat 8 pentry.le ::
      BitVec.ofNat 8 pentry.route.prefixlen ::
      pentry.route.octets.toList.take (psize pentry.route.prefixlen)))

/-- What arrives of an entry: the octets of the address that the prefix reaches into. -/
def received (pentry : PrefixListEntry) : PrefixListEntry :=
  { pentry with
    any := false
    route :=
      { pentry.route with
        octets := Vector.ofFn fun i => if i.val < psize pentry.route.prefixlen then
          octetAt pentry.route.octets i.val else 0 } }

variable {family : Family} {pentry : PrefixListEntry}

theorem maxBitlen_le (family : Family) : family.maxBitlen ≤ 128 := by
  cases family <;> decide

theorem psize_le (valid : pentry.Valid family) : psize pentry.route.prefixlen ≤ 16 := by
  have fits := valid.fits
  have bound := maxBitlen_le family
  rw [psize]
  omega

theorem length_orfOctets (valid : pentry.Valid family) :
    (orfOctets pentry).length = 8 + psize pentry.route.prefixlen := by
  have short := psize_le valid
  rw [orfOctets, List.length_cons, List.length_append, length_toOctets, List.length_cons,
    List.length_cons, List.length_cons, List.length_take, Vector.length_toList]
  omega

variable {s : List Octet} {plist : PrefixList}

theorem streamRemain_of_le (room : s.length ≤ bgpMaxPacketSize) :
    streamRemain s = bgpMaxPacketSize - s.length := by
  rw [bgpMaxPacketSize] at room
  rw [streamRemain, bgpMaxPacketSize]
  omega

theorem streamPutc_fits {s c} (room : s.length + 1 ≤ bgpMaxPacketSize) :
    streamPutc s c = s ++ [c] :=
  if_neg (Nat.not_le_of_lt room)

theorem streamPutw_fits {s w} (room : s.length + 2 ≤ bgpMaxPacketSize) :
    streamPutw s w = s ++ toOctets 2 w.toNat := by
  rw [streamPutw, streamRemain_of_le (by omega), if_neg (by omega)]

theorem streamPutl_fits {l} (room : s.length + 4 ≤ bgpMaxPacketSize) :
    streamPutl s l = s ++ toOctets 4 l.toNat := by
  rw [streamPutl, streamRemain_of_le (by omega), if_neg (by omega)]

theorem getD_take_octets {octets : Vector Octet 16} {count index} (short : count ≤ 16)
    (bound : index < count) (more : List Octet) :
    (octets.toList.take count ++ more).getD index 0 = octetAt octets index := by
  have length : (octets.toList.take count).length = count := by
    rw [List.length_take, Vector.length_toList]
    omega
  rw [List.getD_eq_getElem?_getD, List.getElem?_append_left (by omega),
    List.getElem?_take_of_lt bound, Vector.getElem?_toList]
  rfl

theorem toNat_octet {value} (small : value ≤ 128) : (BitVec.ofNat 8 value).toNat = value := by
  rw [BitVec.toNat_ofNat]
  omega

section
variable (valid : pentry.Valid family)
include valid

theorem putOrfEntry_fits (room : s.length + (orfOctets pentry).length ≤ bgpMaxPacketSize) :
    putOrfEntry s pentry = s ++ orfOctets pentry := by
  rw [length_orfOctets valid] at room
  have flag := @streamPutc_fits s (orfFlag pentry.type) (by omega)
  have seq : streamPutl (s ++ [orfFlag pentry.type]) pentry.seq =
      s ++ [orfFlag pentry.type] ++ toOctets 4 pentry.seq.toNat :=
    streamPutl_fits (by rw [List.length_append, List.length_singleton]; omega)
  have lengthSeq : (s ++ [orfFlag pentry.type] ++ toOctets 4 pentry.seq.toNat).length =
      s.length + 5 := by
    rw [List.length_append, List.length_append, length_toOctets, List.length_singleton]
  have ge := @streamPutc_fits (s ++ [orfFlag pentry.type] ++ toOctets 4 pentry.seq.toNat)
    (BitVec.ofNat 8 pentry.ge) (by omega)
  have lengthGe :
      (s ++ [orfFlag pentry.type] ++ toOctets 4 pentry.seq.toNat ++
      [BitVec.ofNat 8 pentry.ge]).length = s.length + 6 := by
    rw [List.length_append, lengthSeq, List.length_singleton]
  have le := @streamPutc_fits
    (s ++ [orfFlag pentry.type] ++ toOctets 4 pentry.seq.toNat ++ [BitVec.ofNat 8 pentry.ge])
    (BitVec.ofNat 8 pentry.le) (by omega)
  have lengthLe :
      (s ++ [orfFlag pentry.type] ++ toOctets 4 pentry.seq.toNat ++ [BitVec.ofNat 8 pentry.ge] ++
      [BitVec.ofNat 8 pentry.le]).length = s.length + 7 := by
    rw [List.length_append, lengthGe, List.length_singleton]
  rw [putOrfEntry, flag, seq, ge, le, streamPutPrefix, streamRemain_of_le (by omega),
    if_neg (by omega), streamPutc_fits (by omega), orfOctets]
  simp only [List.append_assoc, List.cons_append, List.nil_append]

theorem octetAt_received (index : Nat) :
    octetAt (received pentry).route.octets index =
      if index < psize pentry.route.prefixlen then octetAt pentry.route.octets index else 0 := by
  have short := psize_le valid
  rw [octetAt, received]
  by_cases bound : index < 16
  · rw [Vector.getElem?_eq_getElem bound, Vector.getElem_ofFn, getD_some]
  · rw [Vector.getElem?_eq_none (Nat.le_of_not_lt bound), if_neg (by omega)]
    rfl

theorem getD_orfOctets (more : List Octet) {index : Nat}
    (bound : index < psize pentry.route.prefixlen) :
    (orfOctets pentry ++ more).getD (8 + index) 0 = octetAt pentry.route.octets index := by
  rw [add_comm]
  exact getD_take_octets (psize_le valid) bound more

theorem readOrf_orfOctets (more : List Octet) :
    readOrf family (orfOctets pentry ++ more) = received pentry := by
  have bound := maxBitlen_le family
  have len := toNat_octet (le_trans valid.fits bound)
  have seq : BitVec.ofNat 32 (ofOctets (toOctets 4 pentry.seq.toNat)) = pentry.seq := by
    rw [@ofOctets_toOctets_toNat 4 pentry.seq, BitVec.ofNat_toNat, BitVec.setWidth_eq]
  have type : (if orfFlag pentry.type &&& orfCommonPartDeny ≠ 0 then PrefixListType.deny
      else .permit) = pentry.type := by
    cases pentry.type <;> rfl
  have octets :
      (Vector.ofFn fun i : Fin 16 => if i.val < psize (BitVec.ofNat 8 pentry.route.prefixlen).toNat
      then (orfOctets pentry ++ more).getD (8 + i.val) 0 else 0) =
        (received pentry).route.octets := by
    rw [len]
    refine congrArg Vector.ofFn (funext fun i => ?_)
    split
    · exact getD_orfOctets valid more ‹_›
    · rfl
  calc readOrf family (orfOctets pentry ++ more)
    _ = { seq := BitVec.ofNat 32 (ofOctets (toOctets 4 pentry.seq.toNat))
          ge := (BitVec.ofNat 8 pentry.ge).toNat
          le := (BitVec.ofNat 8 pentry.le).toNat
          type := if orfFlag pentry.type &&& orfCommonPartDeny ≠ 0 then .deny else .permit
          route :=
            { family
              prefixlen := (BitVec.ofNat 8 pentry.route.prefixlen).toNat
              octets := Vector.ofFn fun i :
                Fin 16 => if i.val < psize (BitVec.ofNat 8 pentry.route.prefixlen).toNat
                then (orfOctets pentry ++ more).getD (8 + i.val) 0 else 0 } } := rfl
    _ = received pentry := by
      rw [seq, type, octets, len, toNat_octet (le_trans valid.ge bound),
        toNat_octet (le_trans valid.le bound), ← valid.kind]
      rfl

end

theorem prefixBgpOrfEntry_fits {entries : List PrefixListEntry}
    (valid : ∀ pentry ∈ entries, pentry.Valid family)
    (room : s.length + (entries.flatMap orfOctets).length ≤ bgpMaxPacketSize) :
    entries.foldl putOrfEntry s = s ++ entries.flatMap orfOctets := by
  induction entries generalizing s with
  | nil => rw [List.flatMap_nil, List.append_nil, List.foldl_nil]
  | cons pentry rest ih =>
    rw [List.flatMap_cons, List.length_append] at room
    rw [List.foldl_cons, putOrfEntry_fits (valid pentry List.mem_cons_self) (by omega),
      List.flatMap_cons, ← List.append_assoc]
    refine ih (fun other member => valid other (.tail _ member)) ?_
    rw [List.length_append]
    omega

theorem streamPutwAt_append (front back : List Octet) (high low : Octet) (w : Nat) :
    streamPutwAt (front ++ high :: low :: back) front.length w =
      front ++ (toOctets 2 w ++ back) := by
  have octets : toOctets 2 w = [BitVec.ofNat 8 (w / 256), BitVec.ofNat 8 w] := by
    rw [toOctets, toOctets, toOctets, Nat.pow_zero, Nat.div_one, Nat.pow_one]
  have next : front.length + 1 - front.length = 1 := Nat.add_sub_cancel_left ..
  rw [streamPutwAt, List.set_append_right _ _ (Nat.le_refl _), Nat.sub_self, List.set_cons_zero,
    List.set_append_right _ _ (Nat.le_add_right _ _), next, List.set_cons_succ,
      List.set_cons_zero, octets]
  rfl

theorem streamPutc_two {s first second} (room : s.length + 2 ≤ bgpMaxPacketSize) :
    streamPutc (streamPutc s first) second = s ++ [first, second] := by
  have inner := @streamPutc_fits s first (by omega)
  have outer := @streamPutc_fits (s ++ [first]) second
    (by rw [List.length_append, List.length_singleton]; exact room)
  rw [inner, outer, List.append_assoc]
  rfl

theorem putOrf_fits {s : List Octet} (orfType whenToRefresh : Octet) {plist : PrefixList}
    (valid : plist.Valid family)
    (room : s.length + 4 + (plist.entries.flatMap orfOctets).length ≤ bgpMaxPacketSize) :
    putOrf s orfType whenToRefresh false plist = s ++ (whenToRefresh :: orfType ::
      (toOctets 2 (plist.entries.flatMap orfOctets).length ++
        plist.entries.flatMap orfOctets)) := by
  have start := @streamPutc_two s whenToRefresh orfType (by omega)
  have lengthStart : (s ++ [whenToRefresh, orfType]).length = s.length + 2 := List.length_append
  have filled : streamPutw (s ++ [whenToRefresh, orfType]) 0 =
      s ++ [whenToRefresh, orfType] ++ [0, 0] :=
    streamPutw_fits (by omega)
  have lengthFilled : (s ++ [whenToRefresh, orfType] ++ [0, 0]).length = s.length + 4 := by
    rw [List.length_append, lengthStart]
    rfl
  have entries : prefixBgpOrfEntry (s ++ [whenToRefresh, orfType] ++ [0, 0]) plist =
      s ++ [whenToRefresh, orfType] ++ 0 :: 0 :: plist.entries.flatMap orfOctets := by
    rw [prefixBgpOrfEntry, prefixBgpOrfEntry_fits valid.entries (by omega),
      List.append_assoc _ [0, 0]]
    rfl
  have size :
      ((s ++ [whenToRefresh, orfType] ++ 0 :: 0 :: plist.entries.flatMap orfOctets).length -
      (s ++ [whenToRefresh, orfType]).length - 2)
      % 2 ^ 16 = (plist.entries.flatMap orfOctets).length := by
    rw [bgpMaxPacketSize] at room
    rw [List.length_append, List.length_cons, List.length_cons]
    omega
  rw [putOrf, start, filled, if_neg nofun, entries, size, streamPutwAt_append, List.append_assoc]
  rfl

theorem bgpRouteRefreshSend_eq (msgType : Octet) (afi : Afi) (safi : Safi) {orfType}
    (whenToRefresh : Octet)
    (valid : plist.Valid family) (known : orfType = orfTypePrefix ∨ orfType = orfTypePrefixOld)
    (room : 27 + (plist.entries.flatMap orfOctets).length ≤ bgpMaxPacketSize) :
    ∃ header, header.length = 19 ∧
      bgpRouteRefreshSend msgType afi safi orfType whenToRefresh false (some plist) =
      header ++ (toOctets 2 afi.code.toNat ++ (0 :: safi.code :: whenToRefresh :: orfType ::
        (toOctets 2 (plist.entries.flatMap orfOctets).length ++
          plist.entries.flatMap orfOctets))) := by
  have marker : (bgpPacketSetMarker msgType).length = 19 := rfl
  have code :=
    @streamPutw_fits (bgpPacketSetMarker msgType) afi.code (by rw [marker, bgpMaxPacketSize]; omega)
  have lengthCode : (bgpPacketSetMarker msgType ++ toOctets 2 afi.code.toNat).length = 21 := by
    rw [List.length_append, length_toOctets, marker]
  have kind := @streamPutc_two (bgpPacketSetMarker msgType ++ toOctets 2 afi.code.toNat) 0 safi.code
    (by rw [lengthCode, bgpMaxPacketSize]; omega)
  have filter :=
    @putOrf_fits _ (bgpPacketSetMarker msgType ++ toOctets 2 afi.code.toNat ++ [0, safi.code])
    orfType whenToRefresh
    plist valid (by
      exact room)
  have sent : bgpRouteRefreshSend msgType afi safi orfType whenToRefresh false (some plist) =
      streamPutwAt (bgpPacketSetMarker msgType ++ toOctets 2 afi.code.toNat ++ [0, safi.code] ++
        (whenToRefresh :: orfType ::
        (toOctets 2 (plist.entries.flatMap orfOctets).length ++ plist.entries.flatMap orfOctets)))
          16
      (bgpPacketSetMarker msgType ++ toOctets 2 afi.code.toNat ++ [0, safi.code] ++
        (whenToRefresh :: orfType ::
        (toOctets 2 (plist.entries.flatMap orfOctets).length ++
          plist.entries.flatMap orfOctets))).length := by
    rw [bgpRouteRefreshSend, code, kind, if_pos ⟨known, .inr rfl⟩, getD_some, filter]
  rw [sent]
  generalize (bgpPacketSetMarker msgType ++ toOctets 2 afi.code.toNat ++ [0, safi.code] ++
    (whenToRefresh :: orfType ::
    (toOctets 2 (plist.entries.flatMap orfOctets).length ++
      plist.entries.flatMap orfOctets))).length = size
  have place := streamPutwAt_append (List.replicate 16 0xff)
    (msgType :: (toOctets 2 afi.code.toNat ++ (0 :: safi.code :: whenToRefresh ::
    orfType :: (toOctets 2 (plist.entries.flatMap orfOctets).length ++
      plist.entries.flatMap orfOctets)))) 0 0 size
  refine ⟨List.replicate 16 0xff ++ (toOctets 2 size ++ [msgType]), ?_, ?_⟩
  · rw [List.length_append, List.length_append, length_toOctets, List.length_replicate,
      List.length_singleton]
  · exact place

theorem prefixlen_received (pentry : PrefixListEntry) :
    (received pentry).route.prefixlen = pentry.route.prefixlen := by
  rw [received]

/-- Two entries that are the same to the receiver, but for their numbers. -/
def Twins (first second : PrefixListEntry) : Prop :=
  first.type = second.type ∧ first.le = second.le ∧ first.ge = second.ge ∧
    first.route.prefixlen = second.route.prefixlen ∧
    ∀ index < psize first.route.prefixlen,
      octetAt first.route.octets index = octetAt second.route.octets index

instance (first second : PrefixListEntry) : Decidable (Twins first second) :=
  inferInstanceAs (Decidable (_ ∧ _ ∧ _ ∧ _ ∧ ∀ index < _, _ = _))

theorem same_received {first second} (specified : family ≠ .unspec)
    (validFirst : first.Valid family) (validSecond : second.Valid family) :
    (received first).route.same (received second).route = true ↔
    first.route.prefixlen = second.route.prefixlen ∧
      ∀ index < psize first.route.prefixlen,
        octetAt first.route.octets index = octetAt second.route.octets index := by
  have kind : (received first).route.family = family := validFirst.kind
  have inside : psize first.route.prefixlen ≤ family.bytelen := by
    have fits := validFirst.fits
    rw [Family.maxBitlen] at fits
    rw [psize]
    omega
  rw [same, Bool.and_eq_true, Bool.and_eq_true, Bool.and_eq_true, octetsEqualBelow_iff,
    decide_eq_true_eq, decide_eq_true_eq, decide_eq_true_eq, kind, prefixlen_received,
    prefixlen_received]
  constructor
  · rintro ⟨⟨⟨-, length⟩, -⟩, octets⟩
    refine ⟨length, fun index below => ?_⟩
    have equal := octets index (lt_of_lt_of_le below inside)
    rwa [octetAt_received validFirst, octetAt_received validSecond, ← length, if_pos below,
      if_pos below] at equal
  · rintro ⟨length, octets⟩
    refine ⟨⟨⟨validSecond.kind.symm, length⟩, specified⟩, fun index _ => ?_⟩
    rw [octetAt_received validFirst, octetAt_received validSecond, ← length]
    split
    · exact octets index ‹_›
    · rfl

/-- The list of the receiver when some entries have arrived. -/
def arrived (done : List PrefixListEntry) : PrefixList := { entries := done.map received }

variable {done : List PrefixListEntry}

theorem insertEntry_last {entries}
    (higher : ∀ found ∈ entries, found.seq.toInt < pentry.seq.toInt) :
    insertEntry pentry entries = entries ++ [pentry] := by
  induction entries with
  | nil => rfl
  | cons point rest ih =>
    rw [insertEntry, if_neg (Int.not_le_of_gt (higher point List.mem_cons_self)),
      ih fun found member => higher found (.tail _ member)]
    rfl

section
variable (valid : pentry.Valid family)
include valid

theorem seqOf_received (plist : PrefixList) : plist.seqOf (received pentry) = pentry.seq :=
  if_neg valid.seq

theorem entryAdd_arrived (higher : ∀ found ∈ done, found.seq.toInt < pentry.seq.toInt) :
    (arrived done).prefixListEntryAdd (received pentry) = arrived (done ++ [pentry]) := by
  have behind (found : PrefixListEntry) (member : found ∈ done.map received) :
      found.seq.toInt < pentry.seq.toInt := by
    obtain ⟨original, earlier, rfl⟩ := List.mem_map.mp member
    exact higher original earlier
  have kept : (done.map received).eraseP (fun found => found.seq = pentry.seq) =
      done.map received := by
    refine List.eraseP_of_forall_not fun found member equal => ?_
    exact Int.lt_irrefl _ (of_decide_eq_true equal ▸ behind found member)
  have whole : { received pentry with seq := pentry.seq } = received pentry := rfl
  rw [prefixListEntryAdd, seqOf_received valid, arrived, kept, whole,
    @insertEntry_last (received pentry) _ behind, arrived, List.map_append, List.map_singleton]

theorem orfEntries_step (more : List Octet) (plist : Option PrefixList) {fuel left}
    (some : left ≠ 0) :
    orfEntries family (fuel + 1) left (orfOctets pentry ++ more) plist =
      if (plist.getD {}).prefixEntryDupCheck (received pentry) then none
      else orfEntries family fuel (left - (orfOctets pentry).length) more
        (.some ((plist.getD {}).prefixListEntryAdd (received pentry))) := by
  have flag : (orfOctets pentry ++ more).getD 0 0 = orfFlag pentry.type := rfl
  have length : ((orfOctets pentry ++ more).getD 7 0).toNat = pentry.route.prefixlen :=
    toNat_octet (le_trans valid.fits (maxBitlen_le family))
  have keeps : orfFlag pentry.type &&& orfCommonPartRemoveAll = 0 := by
    cases pentry.type <;> rfl
  have adds : orfFlag pentry.type &&& orfCommonPartRemove = 0 := by
    cases pentry.type <;> rfl
  have entry : { received pentry with
      le := lastBound family (received pentry).ge (received pentry).le } = received pentry := by
    have last : lastBound family (received pentry).ge (received pentry).le = (received pentry).le :=
      valid.last
    rw [last]
  have whole := (length_orfOctets valid).symm
  have range : ¬rangeInvalid (received pentry).route.prefixlen (received pentry).ge
      (received pentry).le = true :=
    Bool.not_eq_true _ ▸ valid.range
  have set : prefixBgpOrfSet family plist (received pentry) true =
      if (plist.getD {}).prefixEntryDupCheck (received pentry) then (false, .some (plist.getD {}))
      else (true, .some ((plist.getD {}).prefixListEntryAdd (received pentry))) := by
    rw [prefixBgpOrfSet, if_neg range, entry, if_pos rfl]
  rw [orfEntries, if_neg some, flag, keeps, if_neg (not_not_intro rfl), adds,
    readOrf_orfOctets valid, length, whole, List.drop_left, decide_eq_true rfl, set]
  by_cases dup : (plist.getD {}).prefixEntryDupCheck (received pentry) = true
  · rw [if_pos dup, if_pos dup, if_neg nofun]
  · rw [if_neg dup, if_neg dup, if_pos rfl]

theorem includes_received (p : Prefix) :
    (received pentry).route.includes p = pentry.route.includes p := by
  have below (index : Nat) (bound : index < psize pentry.route.prefixlen) :
      octetAt (received pentry).route.octets index = octetAt pentry.route.octets index := by
    rw [octetAt_received valid, if_pos bound]
  have whole :
      octetsEqualBelow (received pentry).route.octets p.octets (pentry.route.prefixlen / 8) =
      octetsEqualBelow pentry.route.octets p.octets (pentry.route.prefixlen / 8) := by
    rw [Bool.eq_iff_iff, octetsEqualBelow_iff, octetsEqualBelow_iff]
    refine forall_congr' fun index => imp_congr_right fun bound => ?_
    rw [below index (by rw [psize]; omega)]
  rw [includes, includes, prefixlen_received, whole]
  by_cases part : pentry.route.prefixlen % 8 = 0
  · simp only [part, ne_eq, not_true_eq_false, false_and, if_false]
  · rw [below _ (by rw [psize]; omega)]

theorem entryMatch_received (p : Prefix) :
    prefixListEntryMatch (received pentry) p = prefixListEntryMatch pentry p := by
  rw [prefixListEntryMatch, includes_received valid]
  rfl

end

theorem dupCheck_arrived (specified : family ≠ .unspec) (valid : pentry.Valid family)
    (earlier : ∀ found ∈ done, found.Valid family)
    (higher : ∀ found ∈ done, found.seq.toInt < pentry.seq.toInt) :
    (arrived done).prefixEntryDupCheck (received pentry) = true ↔
    ∃ found ∈ done, Twins found pentry := by
  rw [prefixEntryDupCheck, arrived, List.any_map, List.any_eq_true]
  refine exists_congr fun found => and_congr_right fun member => ?_
  have apart : found.seq ≠ pentry.seq := fun equal => Int.lt_irrefl _ (equal ▸ higher found member)
  rw [Function.comp_apply, seqOf_received valid, Bool.and_eq_true, Bool.and_eq_true,
    Bool.and_eq_true, Bool.and_eq_true, same_received specified (earlier found member) valid]
  simp only [decide_eq_true_eq, Twins]
  constructor
  · rintro ⟨⟨⟨⟨⟨length, octets⟩, type⟩, le⟩, ge⟩, -⟩
    exact ⟨type, le, ge, length, octets⟩
  · rintro ⟨type, le, ge, length, octets⟩
    exact ⟨⟨⟨⟨⟨length, octets⟩, type⟩, le⟩, ge⟩, apart⟩

/-- The whole loop: an entry whose twin has arrived before costs the list. -/
theorem orfEntries_arrived (specified : family ≠ .unspec) {rest}
    (valid : ∀ found ∈ done ++ rest, found.Valid family)
    (ordered : (done ++ rest).Pairwise fun first second => first.seq.toInt < second.seq.toInt)
    (apart : done.Pairwise fun first second => ¬Twins first second) {fuel}
    (enough : (rest.flatMap orfOctets).length ≤ fuel) :
    ((done ++ rest).Pairwise (fun first second => ¬Twins first second) →
      orfEntries family fuel (rest.flatMap orfOctets).length (rest.flatMap orfOctets)
      (some (arrived done)) = some (arrived (done ++ rest))) ∧
    (¬(done ++ rest).Pairwise (fun first second => ¬Twins first second) →
      orfEntries family fuel (rest.flatMap orfOctets).length (rest.flatMap orfOctets)
      (some (arrived done)) = none) := by
  induction rest generalizing done fuel with
  | nil =>
    rw [List.append_nil]
    refine ⟨fun _ => ?_, fun twins => absurd apart twins⟩
    cases fuel with
    | zero => rfl
    | succ fuel => exact if_pos rfl
  | cons pentry rest ih =>
    have here := valid pentry List.mem_append_cons_self
    have earlier (found : PrefixListEntry) (member : found ∈ done) :=
      valid found (List.mem_append_left _ member)
    have higher (found : PrefixListEntry) (member : found ∈ done) :
        found.seq.toInt < pentry.seq.toInt :=
      (List.pairwise_append.mp ordered).2.2 found member pentry List.mem_cons_self
    have long : (orfOctets pentry).length ≠ 0 := by
      rw [length_orfOctets here]
      omega
    have total : ((pentry :: rest).flatMap orfOctets).length =
        (orfOctets pentry).length + (rest.flatMap orfOctets).length := by
      rw [List.flatMap_cons, List.length_append]
    obtain ⟨fuel, rfl⟩ : ∃ less, fuel = less + 1 := Nat.exists_eq_succ_of_ne_zero (by omega)
    rw [total, List.flatMap_cons, orfEntries_step here _ _ (by omega), getD_some,
      Nat.add_sub_cancel_left, entryAdd_arrived here higher]
    have dup := dupCheck_arrived specified here earlier higher
    by_cases twin : ∃ found ∈ done, Twins found pentry
    · rw [if_pos (dup.mpr twin)]
      refine ⟨fun none => ?_, fun _ => rfl⟩
      obtain ⟨found, member, twins⟩ := twin
      exact absurd twins ((List.pairwise_append.mp none).2.2 found member pentry List.mem_cons_self)
    · rw [if_neg (mt dup.mp twin)]
      have grown : (done ++ [pentry]).Pairwise fun first second => ¬Twins first second := by
        refine List.pairwise_append.mpr
          ⟨apart, List.pairwise_singleton .., fun found member other last twins => ?_⟩
        rw [List.mem_singleton.mp last] at twins
        exact twin ⟨found, member, twins⟩
      have split : done ++ pentry :: rest = done ++ [pentry] ++ rest :=
        (List.append_assoc done [pentry] rest).symm
      rw [split] at valid ordered ⊢
      exact ih valid ordered grown (by omega)

/-- The octets of the entries of a list. -/
def orfLength (plist : PrefixList) : Nat :=
  (plist.entries.map fun pentry => 8 + psize pentry.route.prefixlen).sum

/-- The octets behind a prefix decide nothing. -/
theorem apply_arrived (valid : plist.Valid family) (p : Prefix) :
    prefixListApply (some (arrived plist.entries)) p = prefixListApply (some plist) p := by
  have found (entries : List PrefixListEntry) (valid : ∀ pentry ∈ entries, pentry.Valid family) :
      ((entries.map received).find? fun pentry => prefixListEntryMatch pentry p).map type =
        (entries.find? fun pentry => prefixListEntryMatch pentry p).map type := by
    induction entries with
    | nil => rfl
    | cons pentry rest ih =>
      rw [List.map_cons, List.find?_cons, List.find?_cons,
        entryMatch_received (valid pentry List.mem_cons_self)]
      split
      · rfl
      · exact ih fun other member => valid other (.tail _ member)
  rw [prefixListApply, arrived, found _ valid.entries]
  exact ite_congr (propext List.map_eq_nil_iff) (fun _ => rfl) fun _ => rfl

theorem length_entries (valid : plist.Valid family) :
    (plist.entries.flatMap orfOctets).length = orfLength plist := by
  rw [List.length_flatMap]
  exact congrArg List.sum
    (List.map_congr_left fun pentry member => length_orfOctets (valid.entries pentry member))

/-- The whole list goes into one message. -/
def Fits (plist : PrefixList) : Prop := 27 + orfLength plist ≤ bgpMaxPacketSize

theorem ofCode_afi (afi : Afi) :
    Afi.ofCode (BitVec.ofNat 16 (ofOctets (toOctets 2 afi.code.toNat))) = some afi := by
  cases afi <;> decide

theorem ofCode_safi (safi : Safi) : Safi.ofCode safi.code = some safi := by
  cases safi <;> decide

variable {afi : Afi} {safi : Safi} {orfType whenToRefresh : Octet} {plist : PrefixList}
  {peer : OrfPeer}

/-- The list under the neighbour's name after the message. -/
def afterRefresh (msgType : Octet) (afi : Afi) (safi : Safi) (orfType whenToRefresh : Octet)
    (plist : PrefixList) (peer : OrfPeer) :
    Option PrefixList :=
  let message := bgpRouteRefreshSend msgType afi safi orfType whenToRefresh false (some plist)
  (peer.bgpRouteRefreshReceive (message.length - 19) (message.drop 19)).2.orfPlist afi safi

theorem orfPlist_setOrfPlist (list : Option PrefixList) :
    (peer.setOrfPlist afi safi list).orfPlist afi safi = list :=
  if_pos ⟨rfl, rfl⟩

section
variable (known : orfType = orfTypePrefix ∨ orfType = orfTypePrefixOld)
include known

theorem orfParts_one {length} (small : length < 65536) (entries : List Octet)
    (before : Option PrefixList) (fuel : Nat) :
    orfParts family (fuel + 2) (3 + length) (orfType :: (toOctets 2 length ++ entries)) before =
      orfEntries family length length entries before := by
  have read : ofOctets (toOctets 2 length) = length := by
    rw [ofOctets_toOctets]
    exact Nat.mod_eq_of_lt small
  have first : (orfType :: (toOctets 2 length ++ entries)).getD 0 0 = orfType := rfl
  have second : ofOctets [(orfType :: (toOctets 2 length ++ entries)).getD 1 0,
      (orfType :: (toOctets 2 length ++ entries)).getD 2 0] =
      length := read
  have behind : (orfType :: (toOctets 2 length ++ entries)).drop 3 = entries := rfl
  rw [orfParts, if_neg (by omega), first, second]
  dsimp only
  rw [if_pos known, behind, Nat.sub_self, orfParts, if_pos rfl]

theorem orfPlist_receive (capable : peer.refreshAdv = true)
    (up : peer.status = .established) {length} (small : length < 65536) (entries : List Octet) :
    (peer.bgpRouteRefreshReceive (8 + length)
      (toOctets 2 afi.code.toNat ++ (0 :: safi.code :: whenToRefresh :: orfType ::
      (toOctets 2 length ++ entries)))).2.orfPlist afi safi =
      if length = 0 then peer.orfPlist afi safi
      else orfEntries afi.family length length entries (peer.orfPlist afi safi) := by
  generalize shape : toOctets 2 afi.code.toNat ++
    (0 :: safi.code :: whenToRefresh :: orfType :: (toOctets 2 length ++ entries)) = ibuf
  have code : ofOctets [ibuf.getD 0 0, ibuf.getD 1 0] = ofOctets (toOctets 2 afi.code.toNat) := by
    rw [← shape]
    rfl
  have kind : ibuf.getD 3 0 = safi.code := by
    rw [← shape]
    rfl
  have filter : ibuf.drop 5 = orfType :: (toOctets 2 length ++ entries) := by
    rw [← shape]
    rfl
  have left : 8 + length - 5 = 3 + length := by omega
  have fuel : 8 + length = 6 + length + 2 := by omega
  have list : orfParts afi.family (8 + length) (8 + length - 5) (ibuf.drop 5)
      (peer.orfPlist afi safi) =
      orfEntries afi.family length length entries (peer.orfPlist afi safi) := by
    rw [left, fuel, filter, orfParts_one known small]
  rw [OrfPeer.bgpRouteRefreshReceive, if_neg (ne_of_eq_of_ne capable Bool.noConfusion),
    if_neg (not_not_intro up), code, ofCode_afi, kind, ofCode_safi]
  dsimp only
  rw [if_neg (by omega), list]
  by_cases empty : length = 0
  · rw [if_pos empty, if_pos (by omega)]
  · rw [if_neg (by omega)]
    split
    · exact orfPlist_setOrfPlist _
    · exact orfPlist_setOrfPlist _

end

theorem afterRefresh_eq (msgType : Octet) (valid : plist.Valid afi.family)
    (known : orfType = orfTypePrefix ∨ orfType = orfTypePrefixOld)
    (fits : Fits plist) (capable : peer.refreshAdv = true) (up : peer.status = .established) :
    afterRefresh msgType afi safi orfType whenToRefresh plist peer =
      if orfLength plist = 0 then peer.orfPlist afi safi
      else orfEntries afi.family (orfLength plist) (orfLength plist)
      (plist.entries.flatMap orfOctets) (peer.orfPlist afi safi) := by
  have length := length_entries valid
  have small : orfLength plist < 65536 := by
    rw [Fits, bgpMaxPacketSize] at fits
    omega
  obtain ⟨header, short, message⟩ :=
    bgpRouteRefreshSend_eq msgType afi safi whenToRefresh valid known (length ▸ fits)
  rw [length] at message
  have size :
      (bgpRouteRefreshSend msgType afi safi orfType whenToRefresh false (some plist)).length - 19 =
      8 + orfLength plist := by
    rw [message, List.length_append, List.length_append, List.length_cons, List.length_cons,
      List.length_cons, List.length_cons, List.length_append, length_toOctets, length_toOctets,
      short, length]
    omega
  rw [afterRefresh, size, message, List.drop_left' short]
  exact orfPlist_receive known capable up small _

/-- An entry whose twin is on the list is told apart from it only by octets that are not sent. -/
def Distinct (plist : PrefixList) : Prop :=
  plist.entries.Pairwise fun first second => ¬Twins first second

instance (plist : PrefixList) : Decidable (Distinct plist) :=
  inferInstanceAs (Decidable (List.Pairwise _ _))

theorem family_ne_unspec (afi : Afi) : afi.family ≠ .unspec := by
  cases afi <;> decide

theorem orfLength_eq_zero : orfLength plist = 0 ↔ plist.entries = [] := by
  rw [orfLength]
  constructor
  · intro none
    cases entries : plist.entries with
    | nil => rfl
    | cons pentry rest =>
      rw [entries, List.map_cons, List.sum_cons] at none
      omega
  · intro none
    rw [none]
    rfl

theorem orfEntries_none {entries} (valid : ∀ pentry ∈ entries, pentry.Valid family)
    (some : entries ≠ []) {fuel} (enough : (entries.flatMap orfOctets).length ≤ fuel) :
    orfEntries family fuel (entries.flatMap orfOctets).length (entries.flatMap orfOctets) none =
      orfEntries family fuel (entries.flatMap orfOctets).length (entries.flatMap orfOctets)
      (.some (arrived [])) := by
  cases entries with
  | nil => exact absurd rfl some
  | cons pentry rest =>
    have here := valid pentry List.mem_cons_self
    have long : ((pentry :: rest).flatMap orfOctets).length ≠ 0 := by
      rw [List.flatMap_cons, List.length_append, length_orfOctets here]
      omega
    obtain ⟨fuel, rfl⟩ : ∃ less, fuel = less + 1 := Nat.exists_eq_succ_of_ne_zero (by omega)
    rw [List.flatMap_cons] at long ⊢
    rw [orfEntries_step here _ _ long, orfEntries_step here _ _ long]
    rfl

theorem afterRefresh_cases (msgType : Octet) (valid : plist.Valid afi.family)
    (known : orfType = orfTypePrefix ∨ orfType = orfTypePrefixOld)
    (fits : Fits plist) (capable : peer.refreshAdv = true) (up : peer.status = .established)
    (fresh : peer.orfPlist afi safi = none) :
    (plist.entries ≠ [] ∧ Distinct plist ∧
      afterRefresh msgType afi safi orfType whenToRefresh plist peer =
        some (arrived plist.entries)) ∨
    (¬(plist.entries ≠ [] ∧ Distinct plist) ∧
      afterRefresh msgType afi safi orfType whenToRefresh plist peer = none) := by
  have loop := @orfEntries_arrived _ [] (family_ne_unspec afi) plist.entries valid.entries
    valid.ordered List.Pairwise.nil (orfLength plist)
    (le_of_eq (length_entries valid))
  rw [afterRefresh_eq msgType valid known fits capable up, fresh]
  by_cases empty : plist.entries = []
  · rw [if_pos (orfLength_eq_zero.mpr empty)]
    exact .inr ⟨fun both => both.1 empty, rfl⟩
  · have start := orfEntries_none valid.entries empty (le_of_eq (length_entries valid))
    rw [length_entries valid] at start loop
    rw [if_neg (mt orfLength_eq_zero.mp empty), start]
    by_cases distinct : Distinct plist
    · exact .inl ⟨empty, distinct, loop.1 distinct⟩
    · exact .inr ⟨fun both => distinct both.2, loop.2 distinct⟩

/-- The filter arrives. A list that does not has become one that denies all. -/
theorem orf_transfer (cmds : List PrefixListCmd)
    (made : plist ∈ cmds.foldl (prefixListCmd afi.family) none) (fits : Fits plist)
    (known : orfType = orfTypePrefix ∨ orfType = orfTypePrefixOld)
    (capable : peer.refreshAdv = true) (up : peer.status = .established)
    (fresh : peer.orfPlist afi safi = none) (msgType whenToRefresh : Octet) :
    (∀ p : Prefix, p.family = afi.family →
      prefixListApply (afterRefresh msgType afi safi orfType whenToRefresh plist peer) p =
        prefixListApply (some plist) p) ↔
    plist.entries ≠ [] ∧ (Distinct plist ∨ ∀ p : Prefix, p.family = afi.family →
      prefixListApply (some plist) p = .deny) := by
  have valid := valid_cmds afi.family cmds plist made
  obtain ⟨some, distinct, after⟩ | ⟨lost, after⟩ :=
    @afterRefresh_cases afi safi orfType whenToRefresh plist peer msgType valid known fits
      capable up fresh
  · rw [after]
    exact ⟨fun _ => ⟨some, .inl distinct⟩, fun _ p _ => apply_arrived valid p⟩
  · rw [after]
    constructor
    · intro same
      refine ⟨fun empty => ?_, .inr fun p kind => (same p kind).symm⟩
      have decided := same (anyRoute afi.family) rfl
      rw [prefixListApply, prefixListApply, if_pos empty] at decided
      cases decided
    · rintro ⟨some, distinct | denies⟩
      · exact absurd ⟨some, distinct⟩ lost
      · intro p kind
        exact (denies p kind).symm

/-- 10.0.0.`last`/8. -/
def netTen (last : Octet) : Prefix where
  family := .inet
  prefixlen := 8
  octets := #v[10, 0, 0, last, 0, 0, 0, 0, 0, 0, 0, 0, 0, 0, 0, 0]
  fits := by decide

/-- `permit 10.0.0.1/8 le 24`. -/
def permitTen : PrefixListEntry :=
  { seq := 5, le := 24, ge := 0, type := .permit, route := (netTen 1).entry }

/-- 11.0.0.0/8. -/
def netEleven : Prefix :=
  { netTen 0 with octets := #v[11, 0, 0, 0, 0, 0, 0, 0, 0, 0, 0, 0, 0, 0, 0, 0] }

/-- `permit 10.0.0.1/8 le 24` and `permit 11.0.0.0/8 le 24`, and then `seq 2 deny 10.0.0.2/8` in
  front of them. -/
def threeCmds : List PrefixListCmd :=
  [.install (-1) .permit (some (netTen 1)) 0 24, .install (-1) .permit (some netEleven) 0 24,
    .install 2 .deny (some (netTen 2)) 0 0]

def threeEntries : PrefixList where
  entries := [{ seq := 2, le := 0, ge := 0, type := .deny, route := (netTen 2).entry }, permitTen,
    { permitTen with seq := 10, route := netEleven.entry }]

theorem threeEntries_made : threeEntries ∈ threeCmds.foldl (prefixListCmd Afi.ip.family) none := by
  decide +kernel

/-- Three entries arrive in the order of their numbers: the denial decides on 10.0.0.0/8. -/
theorem orf_transfer_three :
    (∀ p : Prefix, p.family = .inet →
      prefixListApply
        (afterRefresh 5 .ip .unicast orfTypePrefix refreshImmediate threeEntries {}) p =
        prefixListApply (some threeEntries) p) ∧
      prefixListApply (some threeEntries) (netTen 0) = .deny ∧
      prefixListApply (some threeEntries) netEleven = .permit := by
  have fits : Fits threeEntries := by
    rw [Fits]
    decide
  have distinct : Distinct threeEntries := by decide +kernel
  refine ⟨?_, by decide, by decide⟩
  exact (orf_transfer threeCmds threeEntries_made fits
    (.inl rfl) rfl rfl rfl 5 refreshImmediate).mpr
    ⟨List.cons_ne_nil _ _, .inl distinct⟩

/-- The address of an entry is compared beyond its prefix by the sender, and beyond it the receiver
  sees zeros. -/
theorem orf_twins_lost :
    ∃ plist ∈ [PrefixListCmd.install (-1) .permit (some (netTen 1)) 0 24,
      .install (-1) .permit (some (netTen 2)) 0 24].foldl
        (prefixListCmd Afi.ip.family) none,
      prefixListApply (some plist) (netTen 0) = .permit ∧
      prefixListApply (afterRefresh 5 .ip .unicast orfTypePrefix refreshImmediate plist {})
      (netTen 0) = .deny := by
  refine ⟨{ entries := [permitTen, { permitTen with seq := 10, route := (netTen 2).entry }] },
    ?_, ?_, ?_⟩
  · decide +kernel
  · decide +kernel
  · decide +kernel

end Zebra.Bgpd
