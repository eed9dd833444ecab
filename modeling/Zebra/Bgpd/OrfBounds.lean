import Zebra.Bgpd.Orf

namespace Zebra.Bgpd
open Base List

/-- The accesses in turn, and how many octets were copied into the prefix of an entry. -/
structure OrfTrace where
  reads : List Access := []
  copied : List Nat := []
deriving DecidableEq

def OrfTrace.followedBy (first second : OrfTrace) : OrfTrace where
  reads := first.reads ++ second.reads
  copied := first.copied ++ second.copied

/-- The octets of the union in `struct prefix`. -/
def prefixRoom : Nat := 16

structure OrfTrace.Sound (trace : OrfTrace) : Prop where
  inside : ∀ access ∈ trace.reads, access.Inside
  fits : ∀ count ∈ trace.copied, count ≤ prefixRoom

/-- The length of the entry in front of what is left, and what `prefix_bgp_orf_set` makes of it. -/
def orfEntryLength (rest : List Octet) : Nat := 8 + psize (rest.getD 7 0).toNat

def orfEntrySet (family : Family) (rest : List Octet) (plist : Option PrefixList) :
    Bool × Option PrefixList :=
  prefixBgpOrfSet family plist (readOrf family rest) (rest.getD 0 0 &&& orfCommonPartRemove = 0)

/-- The loop over the entries from `pos` on, as far as `p_end` is away; they stand between `lo` and
  `hi`. -/
def orfEntriesRun (family : Family) (lo hi pos left : Nat) (rest : List Octet)
    (plist : Option PrefixList) :
    OrfTrace × Option PrefixList :=
  if left = 0 then ({}, plist)
  else if rest.getD 0 0 &&& orfCommonPartRemoveAll ≠ 0 then ({ reads := [⟨pos, 1, lo, hi⟩] }, none)
  else
    let psize := psize (rest.getD 7 0).toNat
    let here := {
      reads := [⟨pos, 1, lo, hi⟩, ⟨pos + 1, 4, lo, hi⟩, ⟨pos + 5, 1, lo, hi⟩, ⟨pos + 6, 1, lo, hi⟩,
        ⟨pos + 7, 1, lo, hi⟩,
        ⟨pos + 8, psize, lo, hi⟩]
      copied := [psize] }
    let ret := orfEntrySet family rest plist
    if ret.1 then
      let later := orfEntriesRun family lo hi (pos + orfEntryLength rest)
        (left - orfEntryLength rest)
        (rest.drop (orfEntryLength rest)) ret.2
      (OrfTrace.followedBy here later.1, later.2)
    else (here, none)
termination_by left
decreasing_by simp only [orfEntryLength]; omega

/-- The length field of a filter. -/
def orfLen (rest : List Octet) : Nat := ofOctets [rest.getD 1 0, rest.getD 2 0]

def orfPrefixType (rest : List Octet) : Prop :=
  rest.getD 0 0 = orfTypePrefix ∨ rest.getD 0 0 = orfTypePrefixOld

instance (rest : List Octet) : Decidable (orfPrefixType rest) := inferInstanceAs (Decidable (_ ∨ _))

/-- The entries of the filter at `pos`, of which the message has what stands in front of `hi`. -/
def orfPartEntries (family : Family) (hi pos : Nat) (rest : List Octet)
    (plist : Option PrefixList) :
    OrfTrace × Option PrefixList :=
  if orfPrefixType rest then
    orfEntriesRun family (pos + 3) (min (pos + 3 + orfLen rest) hi) (pos + 3) (orfLen rest)
      (rest.drop 3) plist
  else ({}, plist)

/-- The loop over the filters. -/
def orfPartsRun (family : Family) (hi pos left : Nat) (rest : List Octet)
    (plist : Option PrefixList) :
    OrfTrace × Option PrefixList :=
  if left = 0 then ({}, plist)
  else
    let entries := orfPartEntries family hi pos rest plist
    let later := orfPartsRun family hi (pos + (3 + orfLen rest)) (left - (3 + orfLen rest))
      (rest.drop (3 + orfLen rest)) entries.2
    (({ reads := [⟨pos, 1, 0, hi⟩, ⟨pos + 1, 2, 0, hi⟩] } : OrfTrace).followedBy
      (entries.1.followedBy later.1), later.2)
termination_by left

namespace OrfPeer

/-- `bgp_route_refresh_receive`, with what it reads. -/
def bgpRouteRefreshRun (peer : OrfPeer) (size : Nat) (ibuf : List Octet) :
    OrfTrace × RefreshOutcome × OrfPeer :=
  let header : OrfTrace := { reads := [⟨0, 2, 0, size⟩, ⟨2, 1, 0, size⟩, ⟨3, 1, 0, size⟩] }
  if peer.refreshAdv = false then ({}, .notify 1 3, peer)
  else if peer.status ≠ .established then ({}, .notify 5 0, peer)
  else
    match Afi.ofCode (BitVec.ofNat 16 (ofOctets [ibuf.getD 0 0, ibuf.getD 1 0])),
      Safi.ofCode (ibuf.getD 3 0) with
    | some afi, some safi =>
      if size = 4 then (header, peer.announce afi safi)
      else if (size : Int) - 4 < 5 then (header, .notify 6 0, peer)
      else
        let parts := orfPartsRun afi.family size 5 (size - 5) (ibuf.drop 5) (peer.orfPlist afi safi)
        let trace :=
          header.followedBy (({ reads := [⟨4, 1, 0, size⟩] } : OrfTrace).followedBy parts.1)
        let peer := peer.setOrfPlist afi safi parts.2
        if ibuf.getD 4 0 = refreshDefer then (trace, .deferred, peer)
          else (trace, peer.announce afi safi)
    | _, _ => (header, .ignored, peer)

end OrfPeer

variable (family : Family)

theorem orfEntries_run (lo hi pos left fuel : Nat) (rest : List Octet) (plist : Option PrefixList)
    (enough : left ≤ fuel) :
    orfEntries family fuel left rest plist =
      (orfEntriesRun family lo hi pos left rest plist).2 := by
  induction fuel generalizing pos left rest plist with
  | zero =>
    obtain rfl : left = 0 := Nat.le_zero.mp enough
    rw [orfEntriesRun]
    rfl
  | succ fuel ih =>
    rw [orfEntries, orfEntriesRun]
    split
    · rfl
    · split
      · rfl
      · have next := ih (pos + orfEntryLength rest) (left - orfEntryLength rest)
          (rest.drop (orfEntryLength rest))
          (orfEntrySet family rest plist).2 (by simp only [orfEntryLength]; omega)
        have same : prefixBgpOrfSet family plist (readOrf family rest)
            (rest.getD 0 0 &&& orfCommonPartRemove = 0) =
            orfEntrySet family rest plist := rfl
        dsimp only
        rw [same]
        cases (orfEntrySet family rest plist).1 with
        | false => rfl
        | true => exact next

theorem orfParts_run (hi pos left fuel : Nat) (rest : List Octet) (plist : Option PrefixList)
    (enough : left ≤ fuel) :
    orfParts family fuel left rest plist = (orfPartsRun family hi pos left rest plist).2 := by
  induction fuel generalizing pos left rest plist with
  | zero =>
    obtain rfl : left = 0 := Nat.le_zero.mp enough
    rw [orfPartsRun]
    rfl
  | succ fuel ih =>
    have entries : (if rest.getD 0 0 = orfTypePrefix ∨ rest.getD 0 0 = orfTypePrefixOld then
        orfEntries family (orfLen rest) (orfLen rest) (rest.drop 3) plist else plist) =
          (orfPartEntries family hi pos rest plist).2 := by
      rw [orfPartEntries]
      by_cases isPrefix : orfPrefixType rest
      · rw [if_pos isPrefix]
        exact (if_pos isPrefix).trans (orfEntries_run family _ _ _ _ _ _ plist le_rfl)
      · rw [if_neg isPrefix]
        exact if_neg isPrefix
    rw [orfParts, orfPartsRun]
    split
    · rfl
    · exact (congrArg (orfParts family fuel (left - (3 + orfLen rest))
        (rest.drop (3 + orfLen rest))) entries).trans
        (ih _ _ _ _ (by omega))

theorem OrfPeer.run_receive (peer : OrfPeer) (size : Nat) (ibuf : List Octet) :
    (peer.bgpRouteRefreshRun size ibuf).2 = peer.bgpRouteRefreshReceive size ibuf := by
  rw [bgpRouteRefreshRun, bgpRouteRefreshReceive]
  by_cases capable : peer.refreshAdv = false
  · rw [if_pos capable, if_pos capable]
  · by_cases up : peer.status ≠ .established
    · rw [if_neg capable, if_neg capable, if_pos up, if_pos up]
    · rw [if_neg capable, if_neg capable, if_neg up, if_neg up]
      cases Afi.ofCode (BitVec.ofNat 16 (ofOctets [ibuf.getD 0 0, ibuf.getD 1 0])) with
      | none => rfl
      | some afi =>
        cases Safi.ofCode (ibuf.getD 3 0) with
        | none => rfl
        | some safi =>
          dsimp only
          rw [orfParts_run _ size 5 (size - 5) size _ _ (by omega)]
          split
          · rfl
          · split
            · rfl
            · split <;> rfl

/-- As long as the entries go there is one, and it is whole, in front of `hi`, and its prefix is
  short enough. -/
def EntriesFit (family : Family) (hi pos left : Nat) (rest : List Octet)
    (plist : Option PrefixList) : Prop :=
  if left = 0 then True
  else pos + 1 ≤ hi ∧ (rest.getD 0 0 &&& orfCommonPartRemoveAll = 0 →
    pos + orfEntryLength rest ≤ hi ∧ (rest.getD 7 0).toNat ≤ 128 ∧
      ((orfEntrySet family rest plist).1 →
      EntriesFit family hi (pos + orfEntryLength rest) (left - orfEntryLength rest)
        (rest.drop (orfEntryLength rest)) (orfEntrySet family rest plist).2))
termination_by left
decreasing_by simp only [orfEntryLength]; omega

/-- As long as the filters go they have a type and a length, and the entries of prefix filters
  fit. -/
def PartsFit (family : Family) (hi pos left : Nat) (rest : List Octet)
    (plist : Option PrefixList) : Prop :=
  if left = 0 then True
  else pos + 3 ≤ hi ∧
    (orfPrefixType rest →
      EntriesFit family (min (pos + 3 + orfLen rest) hi) (pos + 3) (orfLen rest)
        (rest.drop 3) plist) ∧
    PartsFit family hi (pos + (3 + orfLen rest)) (left - (3 + orfLen rest))
      (rest.drop (3 + orfLen rest))
      (orfPartEntries family hi pos rest plist).2
termination_by left

theorem OrfTrace.sound_followedBy {first second : OrfTrace} :
    (first.followedBy second).Sound ↔ first.Sound ∧ second.Sound := by
  constructor
  · rintro ⟨inside, fits⟩
    exact ⟨⟨fun access member => inside access (mem_append_left _ member),
        fun count member => fits count (mem_append_left _ member)⟩,
      ⟨fun access member => inside access (mem_append_right _ member),
        fun count member => fits count (mem_append_right _ member)⟩⟩
  · rintro ⟨⟨inside, fits⟩, inside', fits'⟩
    exact ⟨fun access member => (mem_append.mp member).elim (inside access) (inside' access),
      fun count member => (mem_append.mp member).elim (fits count) (fits' count)⟩

theorem OrfTrace.sound_reads {reads copied} :
    ({ reads := reads, copied := copied } : OrfTrace).Sound ↔
      (∀ access ∈ reads, access.Inside) ∧ ∀ count ∈ copied, count ≤ prefixRoom :=
  ⟨fun sound => ⟨sound.1, sound.2⟩, fun sound => ⟨sound.1, sound.2⟩⟩

theorem OrfTrace.sound_empty : ({} : OrfTrace).Sound := ⟨by simp, by simp⟩

theorem orfEntries_sound (lo hi pos left : Nat) (rest : List Octet) (plist : Option PrefixList)
    (behind : lo ≤ pos) :
    (orfEntriesRun family lo hi pos left rest plist).1.Sound ↔
    EntriesFit family hi pos left rest plist := by
  induction left using Nat.strong_induction_on generalizing pos rest plist with
  | _ left ih =>
    rw [orfEntriesRun, EntriesFit]
    by_cases ends : left = 0
    · rw [if_pos ends, if_pos ends]
      exact iff_of_true OrfTrace.sound_empty trivial
    · rw [if_neg ends, if_neg ends]
      by_cases all : rest.getD 0 0 &&& orfCommonPartRemoveAll = 0
      · have here :
              (∀ access ∈ [(⟨pos, 1, lo, hi⟩ : Access), ⟨pos + 1, 4, lo, hi⟩, ⟨pos + 5, 1, lo, hi⟩,
              ⟨pos + 6, 1, lo, hi⟩, ⟨pos + 7, 1, lo, hi⟩,
                ⟨pos + 8, psize (rest.getD 7 0).toNat, lo, hi⟩], access.Inside) ∧
            (∀ count ∈ [psize (rest.getD 7 0).toNat], count ≤ prefixRoom) ↔
              pos + orfEntryLength rest ≤ hi ∧ (rest.getD 7 0).toNat ≤ 128 := by
          simp only [forall_mem_cons, not_mem_nil, false_implies, implies_true, and_true,
            Access.Inside, orfEntryLength, psize, prefixRoom]
          omega
        have first : pos + orfEntryLength rest ≤ hi → pos + 1 ≤ hi := by
          simp only [orfEntryLength]
          omega
        rw [if_neg (not_not.mpr all)]
        simp only [all, true_implies]
        by_cases taken : (orfEntrySet family rest plist).1
        · have next := ih (left - orfEntryLength rest) (by simp only [orfEntryLength]; omega)
            (pos + orfEntryLength rest)
            (rest.drop (orfEntryLength rest)) (orfEntrySet family rest plist).2 (by omega)
          rw [if_pos taken, OrfTrace.sound_followedBy, OrfTrace.sound_reads, here, next]
          exact ⟨fun sound => ⟨first sound.1.1, sound.1.1, sound.1.2, fun _ => sound.2⟩,
            fun fits => ⟨⟨fits.2.1, fits.2.2.1⟩, fits.2.2.2 taken⟩⟩
        · rw [if_neg taken, OrfTrace.sound_reads, here]
          exact ⟨fun sound => ⟨first sound.1, sound.1, sound.2, fun taken' => absurd taken' taken⟩,
            fun fits => ⟨fits.2.1, fits.2.2.1⟩⟩
      · rw [if_pos all, OrfTrace.sound_reads]
        simp only [all, false_implies, and_true, forall_mem_cons, not_mem_nil, implies_true,
          Access.Inside, behind, true_and]

theorem orfParts_sound (hi pos left : Nat) (rest : List Octet) (plist : Option PrefixList) :
    (orfPartsRun family hi pos left rest plist).1.Sound ↔
    PartsFit family hi pos left rest plist := by
  induction left using Nat.strong_induction_on generalizing pos rest plist with
  | _ left ih =>
    rw [orfPartsRun, PartsFit]
    by_cases ends : left = 0
    · rw [if_pos ends, if_pos ends]
      exact iff_of_true OrfTrace.sound_empty trivial
    · have entries : (orfPartEntries family hi pos rest plist).1.Sound ↔ (orfPrefixType rest →
          EntriesFit family (min (pos + 3 + orfLen rest) hi) (pos + 3) (orfLen rest)
            (rest.drop 3) plist) := by
        rw [orfPartEntries]
        by_cases isPrefix : orfPrefixType rest
        · rw [if_pos isPrefix, orfEntries_sound family _ _ _ _ _ plist le_rfl]
          exact ⟨fun fits _ => fits, fun fits => fits isPrefix⟩
        · rw [if_neg isPrefix]
          exact iff_of_true OrfTrace.sound_empty fun isPrefix' => absurd isPrefix' isPrefix
      rw [if_neg ends, if_neg ends, OrfTrace.sound_followedBy, OrfTrace.sound_followedBy,
        OrfTrace.sound_reads, entries, ih (left - (3 + orfLen rest)) (by omega)]
      refine and_congr_left fun _ => ?_
      simp only [forall_mem_cons, not_mem_nil, false_implies, implies_true, and_true, Access.Inside]
      omega

/-- What is asked of a message of so many octets. -/
def MessageFits (peer : OrfPeer) (size : Nat) (ibuf : List Octet) : Prop :=
  peer.refreshAdv = true → peer.status = .established → 4 ≤ size ∧
    ∀ afi safi, Afi.ofCode (BitVec.ofNat 16 (ofOctets [ibuf.getD 0 0, ibuf.getD 1 0])) = some afi →
      Safi.ofCode (ibuf.getD 3 0) = some safi → 9 ≤ size →
        PartsFit afi.family size 5 (size - 5) (ibuf.drop 5) (peer.orfPlist afi safi)

/-- Decoding ends, and touches only the message and the block of each filter exactly where the
  entries fit. -/
theorem route_refresh_bounds (peer : OrfPeer) (size : Nat) (ibuf : List Octet) :
    (peer.bgpRouteRefreshRun size ibuf).2 = peer.bgpRouteRefreshReceive size ibuf ∧
      ((peer.bgpRouteRefreshRun size ibuf).1.Sound ↔ MessageFits peer size ibuf) := by
  refine ⟨peer.run_receive size ibuf, ?_⟩
  have header :
      ({ reads := [⟨0, 2, 0, size⟩, ⟨2, 1, 0, size⟩, ⟨3, 1, 0, size⟩] } : OrfTrace).Sound ↔
      4 ≤ size := by
    simp only [OrfTrace.sound_reads, forall_mem_cons, not_mem_nil, false_implies, implies_true,
      and_true, Access.Inside]
    omega
  rw [OrfPeer.bgpRouteRefreshRun, MessageFits]
  by_cases capable : peer.refreshAdv = false
  · rw [if_pos capable]
    exact iff_of_true OrfTrace.sound_empty fun isCapable => absurd (isCapable.symm.trans capable)
      (by decide)
  · have isCapable : peer.refreshAdv = true := by simpa using capable
    by_cases up : peer.status = .established
    · rw [if_neg capable, if_neg (not_not.mpr up)]
      simp only [isCapable, up, true_implies]
      cases Afi.ofCode (BitVec.ofNat 16 (ofOctets [ibuf.getD 0 0, ibuf.getD 1 0])) with
      | none => simpa using header
      | some afi =>
        cases Safi.ofCode (ibuf.getD 3 0) with
        | none => simpa using header
        | some safi =>
          by_cases four : size = 4
          · simpa [four] using header
          · by_cases short : (size : Int) - 4 < 5
            · have few : ¬ 9 ≤ size := by omega
              simpa [four, short, few] using header
            · have enough : 9 ≤ size := by omega
              have parts :=
                orfParts_sound afi.family size 5 (size - 5) (ibuf.drop 5) (peer.orfPlist afi safi)
              have when_ : ({ reads := [⟨4, 1, 0, size⟩] } : OrfTrace).Sound := by
                simp only [OrfTrace.sound_reads, forall_mem_cons, not_mem_nil, false_implies,
                  implies_true, and_true, Access.Inside]
                omega
              simp only [four, short, if_false, apply_ite Prod.fst, ite_self,
                OrfTrace.sound_followedBy, header, parts, when_, true_and, Option.some.injEq,
                enough, true_implies]
              exact and_congr_right fun _ =>
                ⟨fun fits _ _ same same' => same ▸ same' ▸ fits, fun fits => fits afi safi rfl rfl⟩
    · rw [if_neg capable, if_pos up]
      exact iff_of_true OrfTrace.sound_empty fun _ isUp => absurd isUp up

/-- A filter of one entry with a prefix length of 255: 32 octets are copied into the prefix, and the
last 31 of them are behind the message. -/
theorem route_refresh_overruns :
    ¬ (({} : OrfPeer).bgpRouteRefreshRun 17
    [0, 1, 0, 1, 1, 64, 0, 9, 0, 0, 0, 0, 1, 0, 0, 255, 0]).1.Sound := by
  intro sound
  exact absurd (sound.fits 32 (by decide +kernel)) (by decide)

end Zebra.Bgpd
