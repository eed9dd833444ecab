import Zebra.Ospfd.Ase

/-! Link State IDs of the summary-LSAs and AS-external-LSAs that the router originates. -/
namespace Zebra.Ospfd
open Function Option

/-- `struct prefix_ipv4` of a route, without host bits. -/
structure NetPrefix where
  addr : InAddr
  prefixlen : Nat
  fits : prefixlen ≤ 32
  masked : addr &&& masklen2ip prefixlen = addr
deriving DecidableEq

/-- The LSAs of one type and of this router in a database, by their Link State ID: the prefix each
was originated for, of which the LSA holds the mask. -/
abbrev IdTable := InAddr → Option NetPrefix

inductive PrefixLsa where
  | summary
  | asExternal
deriving DecidableEq

/-- The ID that stands for a failure. -/
def noId : InAddr := 0xffffffff

namespace NetPrefix

def mask (p : NetPrefix) : InAddr := masklen2ip p.prefixlen

/-- The address with the host bits set. -/
def wildcard (p : NetPrefix) : InAddr := p.addr ||| ~~~ p.mask

end NetPrefix

/-- `ospf_lsa_lookup_by_prefix`: the ID of the LSA that is found. -/
def ospfLsaLookupByPrefix (lsdb : IdTable) (p : NetPrefix) : Option InAddr :=
  match lsdb p.addr with
  | none => none
  | some lsa =>
    if p.mask ≠ lsa.mask then
      if (lsdb p.wildcard).isSome then some p.wildcard else none
    else some p.addr

section
variable (type : PrefixLsa) (lsdb : IdTable)

/-- What `ospf->lsdb` has of a type: summary-LSAs are in the databases of areas only. -/
def ospfLsdb : IdTable :=
  match type with
  | .summary => fun _ => none
  | .asExternal => lsdb

/-- `ospf_lsa_unique_id`. The second lookup is in `ospf->lsdb`, whatever the database. -/
def ospfLsaUniqueId (p : NetPrefix) : InAddr :=
  match lsdb p.addr with
  | none => p.addr
  | some lsa =>
    if ipMasklen lsa.mask = p.prefixlen then noId
    else if (ospfLsdb type lsdb p.wildcard).isSome then noId
    else p.wildcard

/-- `ospf_summary_lsa_originate`, and `ospf_external_lsa_originate`, which alone looks whether there
is an ID. -/
def originate (p : NetPrefix) : IdTable :=
  let id := ospfLsaUniqueId type lsdb p
  if type = .asExternal ∧ id = noId then lsdb else Function.update lsdb id (some p)

inductive IdStep where
  | originate (p : NetPrefix)
  | flush (id : InAddr)

/-- A flushed LSA is gone when the flush is through. -/
def idStep : IdStep → IdTable
  | .originate p => originate type lsdb p
  | .flush id => Function.update lsdb id none

end

theorem ipMasklen_masklen2ip {prefixlen} (fits : prefixlen ≤ 32) :
    ipMasklen (masklen2ip prefixlen) = prefixlen := by
  have all : ∀ len ∈ List.range 33, ipMasklen (masklen2ip len) = len := by decide +kernel
  exact all prefixlen (List.mem_range.mpr (Nat.lt_succ_of_le fits))

namespace NetPrefix

theorem ipMasklen_mask (p : NetPrefix) : ipMasklen p.mask = p.prefixlen :=
  ipMasklen_masklen2ip p.fits

theorem mask_eq_iff {p q : NetPrefix} : p.mask = q.mask ↔ p.prefixlen = q.prefixlen := by
  constructor
  · intro same
    rw [← p.ipMasklen_mask, same, q.ipMasklen_mask]
  · intro same
    rw [mask, same, mask]

theorem wildcard_and_mask (p : NetPrefix) : p.wildcard &&& p.mask = p.addr := by
  have cleared : p.mask &&& ~~~ p.mask = 0#32 := BitVec.and_not_self _
  rw [wildcard, BitVec.and_comm, BitVec.and_or_distrib_left, cleared, BitVec.or_zero,
    BitVec.and_comm]
  exact p.masked

theorem ext_of {p q : NetPrefix} (addr : p.addr = q.addr) (len : p.prefixlen = q.prefixlen) :
    p = q := by
  cases q
  cases addr
  cases len
  rfl

/-- No other prefix of the same length has the wildcard of a prefix for its address. -/
theorem eq_of_wildcard {p q : NetPrefix} (addr : q.addr = p.wildcard)
    (len : p.prefixlen = q.prefixlen) : p = q := by
  refine ext_of ?_ len
  rw [← p.wildcard_and_mask, ← addr, mask_eq_iff.mpr len]
  exact q.masked

end NetPrefix

/-- The lookup finds the LSA that was originated for the prefix, or none when there is none. -/
def Right (lsdb : IdTable) (p : NetPrefix) : Prop :=
  (∀ id, ospfLsaLookupByPrefix lsdb p = some id → lsdb id = some p) ∧
    (ospfLsaLookupByPrefix lsdb p = none → ∀ id, lsdb id ≠ some p)

section Lookup
variable {lsdb : IdTable} {p q : NetPrefix}

theorem lookup_free (free : lsdb p.addr = none) : ospfLsaLookupByPrefix lsdb p = none := by
  rw [ospfLsaLookupByPrefix, free]

theorem lookup_same (found : lsdb p.addr = some q) (len : p.prefixlen = q.prefixlen) :
    ospfLsaLookupByPrefix lsdb p = some p.addr := by
  rw [ospfLsaLookupByPrefix, found]
  exact if_neg (not_not.mpr (NetPrefix.mask_eq_iff.mpr len))

theorem lookup_other (found : lsdb p.addr = some q) (len : p.prefixlen ≠ q.prefixlen) :
    ospfLsaLookupByPrefix lsdb p = if (lsdb p.wildcard).isSome then some p.wildcard else none := by
  rw [ospfLsaLookupByPrefix, found]
  exact if_pos (mt NetPrefix.mask_eq_iff.mp len)

/-- A prefix that is not there is looked up in vain: its address is free, or taken at another
length while its wildcard is free. -/
theorem Right.absent (right : Right lsdb p) (absent : ∀ id, lsdb id ≠ some p) :
    lsdb p.addr = none ∨ (∃ q, lsdb p.addr = some q ∧ p.prefixlen ≠ q.prefixlen) ∧
    lsdb p.wildcard = none := by
  cases found : lsdb p.addr with
  | none => exact .inl rfl
  | some q =>
    right
    by_cases len : p.prefixlen = q.prefixlen
    · exact absurd (right.1 _ (lookup_same found len)) (absent _)
    · refine ⟨⟨q, rfl, len⟩, ?_⟩
      cases taken : lsdb p.wildcard with
      | none => rfl
      | some r =>
        have result := lookup_other found len
        rw [taken] at result
        exact absurd (right.1 _ result) (absent _)

/-- A prefix that is there has its LSA at its address, or at its wildcard while its address is taken
at another length. -/
theorem Right.present (right : Right lsdb p) (present : ∃ id, lsdb id = some p) :
    lsdb p.addr = some p ∨ (∃ q, lsdb p.addr = some q ∧ p.prefixlen ≠ q.prefixlen) ∧
    lsdb p.wildcard = some p := by
  obtain ⟨id, here⟩ := present
  cases found : lsdb p.addr with
  | none => exact absurd here (right.2 (lookup_free found) id)
  | some q =>
    by_cases len : p.prefixlen = q.prefixlen
    · exact .inl (found ▸ right.1 _ (lookup_same found len))
    · right
      refine ⟨⟨q, rfl, len⟩, ?_⟩
      have result := lookup_other found len
      cases taken : lsdb p.wildcard with
      | none =>
        rw [taken] at result
        exact absurd here (right.2 result id)
      | some r =>
        rw [taken] at result
        exact taken ▸ right.1 _ result

theorem right_of_free (free : lsdb p.addr = none) (absent : ∀ id, lsdb id ≠ some p) :
    Right lsdb p := by
  refine ⟨fun id found => ?_, fun _ => absent⟩
  rw [lookup_free free] at found
  cases found

theorem right_at_addr (here : lsdb p.addr = some p) : Right lsdb p := by
  have result := lookup_same here rfl
  refine ⟨fun id found => ?_, fun none => ?_⟩
  · rw [result] at found
    cases found
    exact here
  · rw [result] at none
    cases none

section
variable (taken : lsdb p.addr = some q) (len : p.prefixlen ≠ q.prefixlen)
include taken len

theorem right_at_wildcard (here : lsdb p.wildcard = some p) : Right lsdb p := by
  have result := lookup_other taken len
  rw [here] at result
  refine ⟨fun id found => ?_, fun none => ?_⟩
  · rw [result] at found
    cases found
    exact here
  · rw [result] at none
    cases none

theorem right_of_wildcard_free (free : lsdb p.wildcard = none) (absent : ∀ id, lsdb id ≠ some p)
    : Right lsdb p := by
  have result := lookup_other taken len
  rw [free] at result
  refine ⟨fun id found => ?_, fun _ => absent⟩
  rw [result] at found
  cases found

/-- A lookup goes wrong at a wildcard that another prefix has. -/
theorem wrong_at_wildcard {r} (other : lsdb p.wildcard = some r) (differ : r ≠ p) :
    ¬ Right lsdb p := by
  intro right
  have result := lookup_other taken len
  rw [other] at result
  have here := right.1 _ result
  rw [other] at here
  exact differ (some.inj here)

end

theorem Right.congr {other} (right : Right lsdb p) (addr : other p.addr = lsdb p.addr)
    (wildcard : other p.wildcard = lsdb p.wildcard ∨ ∀ q, lsdb p.addr = some q →
      p.prefixlen = q.prefixlen)
    (absent : (∀ id, lsdb id ≠ some p) → ∀ id, other id ≠ some p) : Right other p := by
  by_cases there : ∃ id, lsdb id = some p
  · rcases right.present there with here | ⟨⟨q, taken, len⟩, here⟩
    · exact right_at_addr (addr.trans here)
    · rcases wildcard with same | equal
      · exact right_at_wildcard (addr.trans taken) len (same.trans here)
      · exact absurd (equal q taken) len
  · have gone : ∀ id, lsdb id ≠ some p := fun id here => there ⟨id, here⟩
    rcases right.absent gone with free | ⟨⟨q, taken, len⟩, free⟩
    · exact right_of_free (addr.trans free) (absent gone)
    · rcases wildcard with same | equal
      · exact right_of_wildcard_free (addr.trans taken) len (same.trans free) (absent gone)
      · exact absurd (equal q taken) len

end Lookup

/-- The lookups of the prefixes in question are right, and the ID of a failure is not in use. -/
structure Fine (asked : Set NetPrefix) (lsdb : IdTable) : Prop where
  right : ∀ p ∈ asked, Right lsdb p
  unfailed : lsdb noId = none

/-- Where a prefix goes that is not there yet: to its address, or to its wildcard when that is
taken. -/
def placeFor (lsdb : IdTable) (p : NetPrefix) : InAddr :=
  if (lsdb p.addr).isSome then p.wildcard else p.addr

/-- An LSA at this ID misleads the lookup of the prefix: it takes its address while its wildcard is
taken too, or its wildcard while its address is taken at another length. -/
def Misleads (lsdb : IdTable) (id : InAddr) (q : NetPrefix) : Prop :=
  (q.addr = id ∧ (q.wildcard = id ∨ (lsdb q.wildcard).isSome)) ∨
    (q.wildcard = id ∧ ∃ r, lsdb q.addr = some r ∧ q.prefixlen ≠ r.prefixlen)

/-- When an origination does no harm. A summary-LSA is not originated again while it has its address
for its ID; the first origination takes a place that is not the ID of a failure and that misleads
no lookup (an AS-external-LSA with such an ID is not originated at all). -/
def OriginationClear (type : PrefixLsa) (asked : Set NetPrefix) (lsdb : IdTable)
    (p : NetPrefix) : Prop :=
  ((∃ id, lsdb id = some p) → type = .summary → lsdb p.addr ≠ some p) ∧
    ((∀ id, lsdb id ≠ some p) → type = .asExternal ∧ placeFor lsdb p = noId ∨
      placeFor lsdb p ≠ noId ∧ ∀ q ∈ asked, q ≠ p → ¬ Misleads lsdb (placeFor lsdb p) q)

/-- When a flush does no harm: no other prefix that is there has the ID for its address. -/
def FlushClear (asked : Set NetPrefix) (lsdb : IdTable) (id : InAddr) : Prop :=
  ∀ p, lsdb id = some p → ∀ q ∈ asked, q ≠ p → q.addr = id → ∀ place, lsdb place ≠ some q

section Steps
variable {type : PrefixLsa} {asked : Set NetPrefix} {lsdb : IdTable} {p q : NetPrefix} {id : InAddr}

theorem right_update_iff (right : Right lsdb q) (differ : q ≠ p) (free : lsdb id = none)
    (own : id = p.addr ∨ id = p.wildcard) :
    Right (update lsdb id (some p)) q ↔ ¬ Misleads lsdb id q := by
  have others (place : InAddr) (gone : lsdb place ≠ some q) :
      update lsdb id (some p) place ≠ some q := by
    by_cases here : place = id
    · rw [here, update_self]
      exact fun same => differ (some.inj same).symm
    · rwa [update_of_ne here]
  by_cases atAddr : q.addr = id
  · have gone : ∀ place, lsdb place ≠ some q := right.2 (lookup_free (atAddr ▸ free))
    have taken : update lsdb id (some p) q.addr = some p := by rw [atAddr, update_self]
    -- at the same length it would be the same prefix
    have len : q.prefixlen ≠ p.prefixlen := by
      intro same
      rcases own with addr | wildcard
      · exact differ (NetPrefix.ext_of (atAddr.trans addr) same)
      · exact differ (NetPrefix.eq_of_wildcard (atAddr.trans wildcard) same.symm).symm
    by_cases clash : q.wildcard = id ∨ (lsdb q.wildcard).isSome
    · refine ⟨fun still => absurd still ?_, fun harmless => absurd (.inl ⟨atAddr, clash⟩) harmless⟩
      by_cases same : q.wildcard = id
      · exact wrong_at_wildcard taken len (by rw [same, update_self]) differ.symm
      · obtain ⟨r, used⟩ := isSome_iff_exists.mp (clash.resolve_left same)
        refine wrong_at_wildcard taken len ((update_of_ne same _ _).trans used) ?_
        exact fun same => gone _ (same ▸ used)
    · rw [not_or] at clash
      refine ⟨fun _ misleads => ?_, fun _ => ?_⟩
      · rcases misleads with ⟨_, both⟩ | ⟨same, _⟩
        · exact not_or.mpr clash both
        · exact clash.1 same
      · refine right_of_wildcard_free taken len ?_ fun place => others place (gone place)
        rw [update_of_ne clash.1]
        simpa using clash.2
  · have addr : update lsdb id (some p) q.addr = lsdb q.addr := update_of_ne atAddr _ _
    by_cases clash : q.wildcard = id ∧ ∃ r, lsdb q.addr = some r ∧ q.prefixlen ≠ r.prefixlen
    · obtain ⟨same, r, taken, len⟩ := clash
      refine ⟨fun still => absurd still ?_, fun harmless =>
        absurd (.inr ⟨same, r, taken, len⟩) harmless⟩
      exact wrong_at_wildcard (addr.trans taken) len (by rw [same, update_self]) differ.symm
    · refine ⟨fun _ misleads => ?_, fun _ => ?_⟩
      · rcases misleads with ⟨same, _⟩ | both
        · exact atAddr same
        · exact clash both
      · refine right.congr addr ?_ fun gone place => others place (gone place)
        by_cases same : q.wildcard = id
        · right
          intro r taken
          by_contra len
          exact clash ⟨same, r, taken, len⟩
        · exact .inl (update_of_ne same _ _)

section
variable (right : Right lsdb p) (absent : ∀ id, lsdb id ≠ some p)
include right absent

theorem placeFor_free :
    lsdb (placeFor lsdb p) = none ∧ (placeFor lsdb p = p.addr ∨ placeFor lsdb p = p.wildcard) := by
  rcases right.absent absent with free | ⟨⟨q, taken, len⟩, free⟩
  · have place : placeFor lsdb p = p.addr := by rw [placeFor, free]; rfl
    exact ⟨place ▸ free, .inl place⟩
  · have place : placeFor lsdb p = p.wildcard := by rw [placeFor, taken]; rfl
    exact ⟨place ▸ free, .inr place⟩

theorem right_placed : Right (update lsdb (placeFor lsdb p) (some p)) p := by
  rcases right.absent absent with free | ⟨⟨q, taken, len⟩, free⟩
  · have place : placeFor lsdb p = p.addr := by rw [placeFor, free]; rfl
    exact right_at_addr (by rw [place, update_self])
  · have place : placeFor lsdb p = p.wildcard := by rw [placeFor, taken]; rfl
    have apart : p.addr ≠ p.wildcard := by
      intro same
      rw [same, free] at taken
      cases taken
    rw [place]
    exact right_at_wildcard ((update_of_ne apart _ _).trans taken) len (update_self _ _ _)

theorem uniqueId_absent : ospfLsaUniqueId type lsdb p = placeFor lsdb p := by
  rcases right.absent absent with free | ⟨⟨q, taken, len⟩, free⟩
  · rw [ospfLsaUniqueId, placeFor, free]
    rfl
  · have vacant : ospfLsdb type lsdb p.wildcard = none := by
      cases type
      · rfl
      · exact free
    rw [ospfLsaUniqueId, placeFor, taken]
    dsimp only
    rw [q.ipMasklen_mask, if_neg len.symm, vacant]
    rfl

end

theorem uniqueId_at_addr (here : lsdb p.addr = some p) : ospfLsaUniqueId type lsdb p = noId := by
  rw [ospfLsaUniqueId, here]
  exact if_pos p.ipMasklen_mask

theorem uniqueId_at_wildcard (taken : lsdb p.addr = some q) (len : p.prefixlen ≠ q.prefixlen)
    (here : lsdb p.wildcard = some p) :
    ospfLsaUniqueId .summary lsdb p = p.wildcard ∧ ospfLsaUniqueId .asExternal lsdb p = noId := by
  have masks : ¬ ipMasklen q.mask = p.prefixlen := by
    rw [q.ipMasklen_mask]
    exact len.symm
  have used : (ospfLsdb .asExternal lsdb p.wildcard).isSome = true := by rw [ospfLsdb, here]; rfl
  constructor
  · rw [ospfLsaUniqueId, taken]
    exact (if_neg masks).trans rfl
  · rw [ospfLsaUniqueId, taken]
    exact (if_neg masks).trans (if_pos used)

theorem originate_absent (right : Right lsdb p) (absent : ∀ id, lsdb id ≠ some p) :
    originate type lsdb p = if type = .asExternal ∧ placeFor lsdb p = noId then lsdb
      else update lsdb (placeFor lsdb p) (some p) := by
  rw [originate, uniqueId_absent right absent]

/-- A prefix that is there already: nothing happens, except that a summary-LSA at its address comes
in a second time, under the ID of a failure. -/
theorem originate_present (right : Right lsdb p) (present : ∃ id, lsdb id = some p) :
    originate type lsdb p =
      if type = .summary ∧ lsdb p.addr = some p then update lsdb noId (some p) else lsdb := by
  rcases right.present present with here | ⟨⟨q, taken, len⟩, here⟩
  · rw [originate, uniqueId_at_addr here]
    cases type with
    | summary => exact (if_neg (fun both => nomatch both.1)).trans (if_pos ⟨rfl, here⟩).symm
    | asExternal => exact (if_pos ⟨rfl, rfl⟩).trans (if_neg (fun both => nomatch both.1)).symm
  · have apart : lsdb p.addr ≠ some p := by
      intro same
      rw [taken] at same
      exact len (congrArg NetPrefix.prefixlen (some.inj same)).symm
    obtain ⟨summary, external⟩ := uniqueId_at_wildcard taken len here
    rw [if_neg (fun both => apart both.2), originate]
    cases type with
    | summary =>
      rw [summary, ← here]
      exact update_eq_self _ _
    | asExternal =>
      rw [external]
      exact if_pos ⟨rfl, rfl⟩

theorem Fine.originate_iff (fine : Fine asked lsdb) (member : p ∈ asked) :
    Fine asked (originate type lsdb p) ↔ OriginationClear type asked lsdb p := by
  have right := fine.right p member
  by_cases present : ∃ id, lsdb id = some p
  · rw [originate_present right present]
    by_cases again : type = .summary ∧ lsdb p.addr = some p
    · rw [if_pos again]
      constructor
      · intro after
        have unused := after.unfailed
        cases unused
      · intro clear
        exact absurd again.2 (clear.1 present again.1)
    · rw [if_neg again]
      refine ⟨fun _ => ⟨fun _ summary here => again ⟨summary, here⟩, fun absent => ?_⟩,
        fun _ => fine⟩
      obtain ⟨id, here⟩ := present
      exact absurd here (absent id)
  · have absent : ∀ id, lsdb id ≠ some p := fun id here => present ⟨id, here⟩
    obtain ⟨free, own⟩ := placeFor_free right absent
    rw [originate_absent right absent]
    by_cases refused : type = .asExternal ∧ placeFor lsdb p = noId
    · rw [if_pos refused]
      exact ⟨fun _ => ⟨fun there => absurd there present, fun _ => .inl refused⟩, fun _ => fine⟩
    · rw [if_neg refused]
      constructor
      · intro after
        refine ⟨fun there => absurd there present,
          fun _ => .inr ⟨fun place => ?_, fun q asks differ => ?_⟩⟩
        · have unused := after.unfailed
          rw [place] at unused
          cases unused
        · exact (right_update_iff (fine.right q asks) differ free own).mp (after.right q asks)
      · intro clear
        obtain ⟨apart, harmless⟩ := (clear.2 absent).resolve_left refused
        refine ⟨fun q asks => ?_, by rw [update_of_ne (Ne.symm apart)]; exact fine.unfailed⟩
        by_cases differ : q = p
        · rw [differ]
          exact right_placed right absent
        · exact (right_update_iff (fine.right q asks) differ free own).mpr (harmless q asks differ)

/-- Every prefix has one LSA at most. -/
def Once (lsdb : IdTable) : Prop :=
  ∀ ⦃id place p⦄, lsdb id = some p → lsdb place = some p → id = place

theorem Once.originate (once : Once lsdb) (right : Right lsdb p)
    (clear : OriginationClear type asked lsdb p) :
    Once (originate type lsdb p) := by
  by_cases present : ∃ id, lsdb id = some p
  · rw [originate_present right present, if_neg fun again => clear.1 present again.1 again.2]
    exact once
  · have absent : ∀ id, lsdb id ≠ some p := fun id here => present ⟨id, here⟩
    rw [originate_absent right absent]
    split
    · exact once
    · intro id place q first second
      by_cases here : id = placeFor lsdb p <;> by_cases there : place = placeFor lsdb p
      · rw [here, there]
      · rw [here, update_self] at first
        rw [update_of_ne there, ← some.inj first] at second
        exact absurd second (absent place)
      · rw [there, update_self] at second
        rw [update_of_ne here, ← some.inj second] at first
        exact absurd first (absent id)
      · rw [update_of_ne here] at first
        rw [update_of_ne there] at second
        exact once first second

theorem of_flushed {place} (there : update lsdb id none place = some q) :
    place ≠ id ∧ lsdb place = some q := by
  by_cases here : place = id
  · rw [here, update_self] at there
    cases there
  · exact ⟨here, by rwa [update_of_ne here] at there⟩

theorem Once.flush (once : Once lsdb) (id : InAddr) : Once (update lsdb id none) :=
  fun _ _ _ first second => once (of_flushed first).2 (of_flushed second).2

theorem right_flushed (right : Right lsdb p) (once : Once lsdb) (here : lsdb id = some p) :
    Right (update lsdb id none) p := by
  have gone : ∀ place, update lsdb id none place ≠ some p := by
    intro place there
    obtain ⟨apart, before⟩ := of_flushed there
    exact apart (once before here)
  rcases right.present ⟨id, here⟩ with atAddr | ⟨⟨q, taken, len⟩, atWildcard⟩
  · exact right_of_free (by rw [once atAddr here, update_self]) gone
  · have place := once atWildcard here
    have apart : p.addr ≠ id := by
      intro same
      rw [same, here] at taken
      exact len (congrArg NetPrefix.prefixlen (some.inj taken))
    exact right_of_wildcard_free ((update_of_ne apart _ _).trans taken) len
      (by rw [place, update_self]) gone

theorem right_flush_other_iff (right : Right lsdb q) (here : lsdb id = some p) (differ : q ≠ p) :
    Right (update lsdb id none) q ↔ (q.addr = id → ∀ place, lsdb place ≠ some q) := by
  have kept {place} (there : lsdb place = some q) : update lsdb id none place = some q := by
    have apart : place ≠ id := by
      intro same
      rw [same, here] at there
      exact differ (some.inj there).symm
    rwa [update_of_ne apart]
  by_cases atAddr : q.addr = id
  · have free : update lsdb id none q.addr = none := by rw [atAddr, update_self]
    constructor
    · intro after _ place there
      exact after.2 (lookup_free free) place (kept there)
    · intro gone
      exact right_of_free free fun place there => gone atAddr place (of_flushed there).2
  · refine ⟨fun _ same => absurd same atAddr, fun _ => ?_⟩
    refine right.congr (update_of_ne atAddr _ _) ?_ fun gone place there =>
      gone place (of_flushed there).2
    by_cases same : q.wildcard = id
    · right
      intro r taken
      by_contra len
      exact wrong_at_wildcard taken len (same ▸ here) differ.symm right
    · exact .inl (update_of_ne same _ _)

theorem Fine.flush_iff (fine : Fine asked lsdb) (once : Once lsdb) (id : InAddr) :
    Fine asked (update lsdb id none) ↔ FlushClear asked lsdb id := by
  constructor
  · intro after p here q asks differ
    exact (right_flush_other_iff (fine.right q asks) here differ).mp (after.right q asks)
  · intro clear
    refine ⟨fun q asks => ?_, ?_⟩
    · cases here : lsdb id with
      | none =>
        rw [← here, update_eq_self]
        exact fine.right q asks
      | some p =>
        by_cases differ : q = p
        · rw [differ] at asks ⊢
          exact right_flushed (fine.right p asks) once here
        · exact (right_flush_other_iff (fine.right q asks) here differ).mpr
            (clear p here q asks differ)
    · by_cases here : noId = id
      · rw [here, update_self]
      · rw [update_of_ne here]
        exact fine.unfailed

end Steps

def StepClear (type : PrefixLsa) (asked : Set NetPrefix) (lsdb : IdTable) : IdStep → Prop
  | .originate p => p ∈ asked ∧ OriginationClear type asked lsdb p
  | .flush id => FlushClear asked lsdb id

/-- The databases that originations and flushes lead to when each of them is clear. -/
inductive ClearRun (type : PrefixLsa) (asked : Set NetPrefix) : IdTable → Prop where
  | empty : ClearRun type asked fun _ => none
  | step {lsdb : IdTable} (step : IdStep) :
      ClearRun type asked lsdb → StepClear type asked lsdb step →
      ClearRun type asked (idStep type lsdb step)

theorem ClearRun.fine {type asked lsdb} (run : ClearRun type asked lsdb) :
    Fine asked lsdb ∧ Once lsdb := by
  induction run with
  | empty => exact ⟨⟨fun p _ => right_of_free rfl nofun, rfl⟩, nofun⟩
  | step step _ clear ih =>
    obtain ⟨fine, once⟩ := ih
    cases step with
    | originate p =>
      obtain ⟨member, clear⟩ := clear
      exact ⟨(fine.originate_iff member).mpr clear, once.originate (fine.right p member) clear⟩
    | flush id => exact ⟨(fine.flush_iff once id).mpr clear, once.flush id⟩

theorem Fine.uniqueId {type asked lsdb p q}
    (fine : Fine asked lsdb) (member : p ∈ asked)
    (used : lsdb (ospfLsaUniqueId type lsdb p) = some q) : q = p := by
  have right := fine.right p member
  have failed (id : ospfLsaUniqueId type lsdb p = noId) : q = p := by
    rw [id, fine.unfailed] at used
    cases used
  by_cases present : ∃ id, lsdb id = some p
  · rcases right.present present with here | ⟨⟨r, taken, len⟩, here⟩
    · exact failed (uniqueId_at_addr here)
    · obtain ⟨summary, external⟩ := uniqueId_at_wildcard taken len here
      cases type with
      | summary =>
        rw [summary, here] at used
        exact (some.inj used).symm
      | asExternal => exact failed external
  · have absent : ∀ id, lsdb id ≠ some p := fun id here => present ⟨id, here⟩
    rw [uniqueId_absent right absent, (placeFor_free right absent).1] at used
    cases used

/-- In every run of clear originations and flushes the IDs are unique, no LSA has the ID of a
failure and every lookup of a prefix in question finds the LSA that was originated for it; and the
next step keeps it so exactly when it is clear. -/
theorem lsa_unique_id_runs {type : PrefixLsa} {asked : Set NetPrefix} {lsdb : IdTable}
    (run : ClearRun type asked lsdb) :
    Fine asked lsdb ∧ (∀ p ∈ asked, ∀ q, lsdb (ospfLsaUniqueId type lsdb p) = some q → q = p) ∧
    (∀ p ∈ asked, Fine asked (originate type lsdb p) ↔ OriginationClear type asked lsdb p) ∧
    ∀ id, Fine asked (update lsdb id none) ↔ FlushClear asked lsdb id := by
  obtain ⟨fine, once⟩ := run.fine
  exact ⟨fine, fun p member q used => fine.uniqueId member used,
    fun p member => fine.originate_iff member,
    fun id => fine.flush_iff once id⟩

def ten8 : NetPrefix := ⟨0x0a000000, 8, by decide, by decide⟩
def ten16 : NetPrefix := ⟨0x0a000000, 16, by decide, by decide⟩
def ten24 : NetPrefix := ⟨0x0a000000, 24, by decide, by decide⟩
def host255 : NetPrefix := ⟨0x0a0000ff, 32, by decide, by decide⟩

def run (type : PrefixLsa) (steps : List IdStep) : IdTable :=
  steps.foldl (idStep type) fun _ => none

/-- Two prefixes of one address, of which the second one goes again. -/
theorem lsa_unique_id_two :
    (run .summary [.originate ten8, .originate ten16]) 0x0a00ffff = some ten16 ∧
    Fine {ten8, ten16} (run .summary [.originate ten8, .originate ten16, .flush 0x0a00ffff]) := by
  have first : StepClear .summary {ten8, ten16} (fun _ => none) (.originate ten8) := by
    refine ⟨Set.mem_insert _ _, fun ⟨id, there⟩ => absurd there (by simp),
      fun _ => .inr ⟨by decide, ?_⟩⟩
    rintro q (rfl | rfl) differ
    · exact absurd rfl differ
    · rintro (⟨_, same | used⟩ | ⟨same, _⟩)
      · exact absurd same (by decide)
      · cases used
      · exact absurd same (by decide)
  have second : StepClear .summary {ten8, ten16} (run .summary [.originate ten8])
      (.originate ten16) := by
    refine ⟨Set.mem_insert_of_mem _ rfl, fun _ _ => by
      decide +kernel, fun _ => .inr ⟨by decide +kernel, ?_⟩⟩
    have place : placeFor (run .summary [.originate ten8]) ten16 = 0x0a00ffff := by decide +kernel
    rw [place]
    rintro q (rfl | rfl) differ
    · rintro (⟨same, _⟩ | ⟨same, _⟩)
      · exact absurd same (by decide)
      · exact absurd same (by decide)
    · exact absurd rfl differ
  have third : StepClear .summary {ten8, ten16} (run .summary [.originate ten8, .originate ten16])
      (.flush 0x0a00ffff) := by
    rintro p - q (rfl | rfl) - same
    · exact absurd same (by decide)
    · exact absurd same (by decide)
  have clear : ClearRun .summary {ten8, ten16}
      (run .summary [.originate ten8, .originate ten16, .flush 0x0a00ffff]) :=
    .step (.flush 0x0a00ffff)
      (.step (.originate ten16) (.step (.originate ten8) .empty first) second) third
  exact ⟨by decide +kernel, (lsa_unique_id_runs clear).1⟩

/-- The flush of 10.0.0.0/8 hides the LSA of 10.0.0.0/16; an ID is chosen that a host has already,
in a database of an area; and a second origination brings in an LSA under the ID of a failure. -/
theorem lsa_unique_id_fails :
    (let lsdb := run .summary [.originate ten8, .originate ten16, .flush 0x0a000000]
     lsdb 0x0a00ffff = some ten16 ∧ ospfLsaLookupByPrefix lsdb ten16 = none) ∧
    (let lsdb := run .summary [.originate ten16, .originate host255]
     ospfLsaUniqueId .summary lsdb ten24 = 0x0a0000ff ∧ lsdb 0x0a0000ff = some host255) ∧
    run .summary [.originate ten8, .originate ten8] noId = some ten8 := by
  decide +kernel

end Zebra.Ospfd
