import Zebra.Base.Chain
import Zebra.Base.Deque
import Zebra.Base.Run

/-! The hash table of lib/hash.c. Data are values: what a stored pointer points to is not changed in
what the key and the comparison look at. -/
namespace Zebra
open Function List Base Chain
open Deque (writeAt)

/-- `hash_key` and `hash_cmp`, which respect each other. -/
structure HashKeys (Data : Type) where
  hashKey : Data → Nat
  hashCmp : Data → Data → Bool
  equivalence : Equivalence fun first second => hashCmp first second = true
  respects : ∀ {first second}, hashCmp first second = true → hashKey first = hashKey second

/-- The chains of backets, and what the backets hold; `backets` are those in use, the latest
  first. -/
structure Hash (Backet Data : Type) where
  index : Nat → Option Backet := fun _ => none
  next : Backet → Option Backet := fun _ => none
  key : Backet → Nat := fun _ => 0
  data : Backet → Data
  count : Nat := 0
  backets : List Backet := []

inductive HashCall (Backet Data : Type) where
  | get (data : Data) (allocFunc : Option (Data → Option Data)) (fresh : Backet)
  | release (data : Data)

namespace Hash
variable {Backet Data : Type}

/-- The walk along a chain. `pp` is the backet before, at the first backet that one itself; only
`hash_release` looks at it. -/
def walk (hash : Hash Backet Data) (wanted : Backet → Bool) :
    Nat → Option Backet → Option Backet → Option (Option Backet × Backet)
  | 0, _, _ => none
  | _ + 1, _, none => none
  | rounds + 1, pp, some backet =>
    if wanted backet then some (pp, backet)
      else hash.walk wanted rounds (some backet) (hash.next backet)

variable [DecidableEq Backet] (keys : HashKeys Data) (size : Nat) (hash : Hash Backet Data)
  (data : Data)

/-- No chain has more than `count` backets. -/
def search : Option (Option Backet × Backet) :=
  let key := keys.hashKey data
  let index := key % size
  hash.walk (fun backet => hash.key backet = key && keys.hashCmp (hash.data backet) data) hash.count
    (hash.index index) (hash.index index)

/-- `hash_get`; `hash_lookup` is this without an allocator. -/
def hashGet (allocFunc : Option (Data → Option Data)) (fresh : Backet) :
    Hash Backet Data × Option Data :=
  match hash.search keys size data with
  | some (_, backet) => (hash, some (hash.data backet))
  | none =>
    match allocFunc.bind (· data) with
    | none => (hash, none)
    | some newdata =>
      let key := keys.hashKey data
      let index := key % size
      ({ data := update hash.data fresh newdata
         key := update hash.key fresh key
         next := update hash.next fresh (hash.index index)
         index := update hash.index index (some fresh)
         count := hash.count + 1
         backets := fresh :: hash.backets }, some newdata)

def hashRelease : Hash Backet Data × Option Data :=
  match hash.search keys size data with
  | none => (hash, none)
  | some (pp, backet) =>
    let index := keys.hashKey data % size
    let first := some backet = pp
    ({ hash with
       index := if first then update hash.index index (hash.next backet) else hash.index
       next := if first then hash.next else writeAt hash.next pp (hash.next backet)
       count := hash.count - 1
       backets := hash.backets.erase backet }, some (hash.data backet))

def call : HashCall Backet Data → Hash Backet Data × Option Data
  | .get data allocFunc fresh => hash.hashGet keys size data allocFunc fresh
  | .release data => hash.hashRelease keys size data

abbrev after (call : HashCall Backet Data) : Hash Backet Data := (hash.call keys size call).1

/-- `XMALLOC` gives a backet that is not in use, and what the allocator makes is equivalent to its
  argument. -/
def Fits : HashCall Backet Data → Prop
  | .get data allocFunc fresh =>
    fresh ∉ hash.backets ∧ ∀ newdata, allocFunc.bind (· data) = some newdata →
      keys.hashCmp newdata data = true
  | .release _ => True

/-- The backet whose data is equivalent. -/
abbrev entry : Option Backet :=
  hash.backets.find? fun backet => keys.hashCmp (hash.data backet) data

/-- The backets whose key belongs to a chain. -/
abbrev chain (index : Nat) : List Backet :=
  hash.backets.filter fun backet => hash.key backet % size = index

/-- The chains as lists that are linked in both directions; the table has no backward links. -/
abbrev links (prev : Backet → Option Backet) : Links Nat Backet :=
  { head := hash.index, next := hash.next, prev }

structure Interned : Prop where
  sized : 0 < size
  chains : ∃ prev, (hash.links prev).Filed (hash.chain size)
  keyed : ∀ backet ∈ hash.backets, hash.key backet = keys.hashKey (hash.data backet)
  apart : ∀ first ∈ hash.backets, ∀ second ∈ hash.backets,
    keys.hashCmp (hash.data first) (hash.data second) = true → first = second
  nodup : hash.backets.Nodup
  count : hash.count = hash.backets.length

variable {keys size hash data}

omit [DecidableEq Backet] in
theorem walk_spec {wanted chain pp rounds prev first} (trail : Trail (hash.links prev) first chain)
    (enough : chain.length ≤ rounds) :
    (hash.walk wanted rounds pp first = none ∧ ∀ backet ∈ chain, wanted backet = false) ∨
      ∃ before backet after, chain = before ++ backet :: after ∧ wanted backet = true ∧
        hash.walk wanted rounds pp first = some (before.getLast?.or pp, backet) := by
  induction chain generalizing first pp rounds with
  | nil =>
    obtain rfl : first = none := trail
    cases rounds <;> exact .inl ⟨rfl, by simp⟩
  | cons top rest ih =>
    obtain ⟨rfl, trail⟩ := trail
    cases rounds with
    | zero => exact absurd enough (Nat.not_succ_le_zero _)
    | succ rounds =>
      cases hit : wanted top with
      | true => exact .inr ⟨[], top, rest, rfl, hit, if_pos hit⟩
      | false =>
        rw [walk, hit]
        obtain ⟨absent, others⟩ | ⟨before, backet, after, rfl, found, walked⟩ :=
          ih trail (Nat.le_of_succ_le_succ enough)
        · exact .inl ⟨absent, forall_mem_cons.mpr ⟨hit, others⟩⟩
        · refine .inr ⟨top :: before, backet, after, rfl, found, walked.trans ?_⟩
          cases before <;> simp [getLast?_cons]

theorem chain_erase (backet : Backet) :
    ({ hash with backets := hash.backets.erase backet } : Hash Backet Data).chain size =
    update (hash.chain size) (hash.key backet % size)
    ((hash.chain size (hash.key backet % size)).erase backet) := by
  funext index
  refine erase_filter.symm.trans ?_
  by_cases here : index = hash.key backet % size
  · rw [here, update_self]
  · rw [update_of_ne here, erase_of_not_mem]
    exact fun there => here (of_decide_eq_true (mem_filter.mp there).2).symm

theorem chain_cons {fresh} (unused : fresh ∉ hash.backets) (key : Nat) :
    ({ hash with key := update hash.key fresh key,
                 backets := fresh :: hash.backets } : Hash Backet Data).chain size =
      update (hash.chain size) (key % size) (fresh :: hash.chain size (key % size)) := by
  funext index
  have rest : (hash.backets.filter fun backet => update hash.key fresh key backet % size = index) =
      hash.chain size index := by
    refine filter_congr fun backet member => ?_
    rw [update_of_ne]
    rintro rfl
    exact unused member
  simp only [chain, filter_cons, rest, update_self, decide_eq_true_eq]
  by_cases here : key % size = index
  · rw [if_pos here, ← here, update_self]
  · rw [if_neg here, update_of_ne (Ne.symm here)]

theorem unlink_eq {prev : Backet → Option Backet} {backet}
    (forward : hash.next backet ≠ some backet)
    (backward : prev backet ≠ some backet) (index : Nat) : (hash.links prev).unlink index backet =
      let pp := (prev backet).or (some backet)
      { head := if some backet = pp then update hash.index index (hash.next backet) else hash.index
        next := if some backet = pp then hash.next else writeAt hash.next pp (hash.next backet)
        prev := ((hash.links prev).unlink index backet).prev } := by
  obtain ⟨-, nexts, heads⟩ := unlink_links (hash.links prev) index forward
  have equal : ∀ {one other : Links Nat Backet}, one.head = other.head → one.next = other.next →
      one.prev = other.prev → one = other := by
    rintro ⟨⟩ ⟨⟩ rfl rfl rfl
    rfl
  refine equal (funext fun other => (heads other).trans ?_)
    (funext fun other => (nexts other).trans ?_) rfl
  · cases before : prev backet with
    | none => simp [before, update_apply]
    | some pp => simp [before, Ne.symm (before ▸ backward)]
  · cases before : prev backet with
    | none => simp [before]
    | some pp => simp [before, Ne.symm (before ▸ backward), writeAt, update_apply, eq_comm]

namespace Interned
variable (interned : hash.Interned keys size)
include interned

omit [DecidableEq Backet] in
theorem entry_of_mem {backet} (member : backet ∈ hash.backets)
    (same : keys.hashCmp (hash.data backet) data = true) :
    hash.entry keys data = some backet := by
  cases found : hash.entry keys data with
  | none => exact absurd same (find?_eq_none.mp found backet member)
  | some other =>
    have hit := find?_some found
    have alike := keys.equivalence.trans hit (keys.equivalence.symm same)
    rw [interned.apart other (mem_of_find?_eq_some found) backet member alike]

omit [DecidableEq Backet] in
theorem search_spec {prev} (filed : (hash.links prev).Filed (hash.chain size)) (data : Data) :
    (hash.search keys size data = none ∧ hash.entry keys data = none) ∨
      ∃ backet ∈ hash.chain size (keys.hashKey data % size), prev backet ≠ some backet ∧
        keys.hashCmp (hash.data backet) data = true ∧ hash.entry keys data = some backet ∧
        hash.search keys size data = some ((prev backet).or (some backet), backet) := by
  have follows := filed.follows (keys.hashKey data % size)
  have enough :=
    (length_filter_le (fun backet => decide (hash.key backet % size = keys.hashKey data % size))
    hash.backets).trans_eq
    interned.count.symm
  obtain ⟨absent, others⟩ | ⟨before, backet, after, whole, found, walked⟩ :=
    walk_spec follows.trail enough
  · refine .inl ⟨absent, find?_eq_none.mpr fun backet member same => ?_⟩
    have key := (interned.keyed backet member).trans (keys.respects same)
    have other := others backet (mem_filter.mpr ⟨member, decide_eq_true (congrArg (· % size) key)⟩)
    simp [key, same] at other
  · have member := whole ▸ mem_append_cons_self
    obtain ⟨starts, chained⟩ := follows_none.mp follows
    have prev_eq : prev backet = before.getLast? := chained.prev whole
    have alone :=
      (nodup_cons.mp (nodup_middle.mp (whole ▸ filed.nodup (keys.hashKey data % size)))).1
    have same := (Bool.and_eq_true_iff.mp found).2
    refine .inr ⟨backet, member, fun loop =>
      alone (mem_append_left _ (mem_of_getLast? (prev_eq.symm.trans loop))), same,
      interned.entry_of_mem (mem_filter.mp member).1 same, walked.trans ?_⟩
    rw [prev_eq, show hash.index (keys.hashKey data % size) = _ from
      starts.trans (congrArg _ whole)]
    cases before <;> simp [getLast?_cons]

theorem get {allocFunc fresh} (fits : hash.Fits keys (.get data allocFunc fresh)) :
    (hash.hashGet keys size data allocFunc fresh).1.Interned keys size ∧
      (hash.hashGet keys size data allocFunc fresh).2 =
        ((hash.entry keys data).map hash.data).or (allocFunc.bind (· data)) ∧
      ∀ found ∈ (hash.hashGet keys size data allocFunc fresh).2, keys.hashCmp found data = true ∧
        ∃ backet ∈ (hash.hashGet keys size data allocFunc fresh).1.backets,
          (hash.hashGet keys size data allocFunc fresh).1.data backet = found := by
  obtain ⟨unused, same⟩ := fits
  obtain ⟨prev, filed⟩ := interned.chains
  obtain ⟨absent, none⟩ | ⟨backet, inside, _, alike, entry, found⟩ :=
    interned.search_spec filed data
  · rw [hashGet, absent, none]
    cases made : allocFunc.bind (· data) with
    | none => exact ⟨interned, rfl, nofun⟩
    | some newdata =>
      have equal := same newdata made
      have differ : ∀ backet ∈ hash.backets, backet ≠ fresh :=
        fun backet member here => unused (here ▸ member)
      have foreign : ∀ backet ∈ hash.backets, keys.hashCmp (hash.data backet) newdata ≠ true :=
          fun backet member alike =>
        find?_eq_none.mp none backet member (keys.equivalence.trans alike equal)
      have kept : ∀ backet ∈ hash.backets,
          update hash.data fresh newdata backet = hash.data backet :=
        fun backet member => update_of_ne (differ backet member) ..
      have pushed :=
        filed.push (keys.hashKey data % size) fun index there => unused (mem_filter.mp there).1
      rw [← chain_cons unused] at pushed
      refine ⟨⟨interned.sized, ⟨_, pushed⟩, forall_mem_cons.mpr ⟨?_, fun backet member => ?_⟩, ?_,
        nodup_cons.mpr ⟨unused, interned.nodup⟩,
        congrArg (· + 1) interned.count⟩, rfl, ?_⟩
      · dsimp only
        rw [update_self, update_self]
        exact (keys.respects equal).symm
      · dsimp only
        rw [update_of_ne (differ backet member), kept backet member]
        exact interned.keyed backet member
      · intro first firstIn second secondIn alike
        dsimp only at alike
        rcases mem_cons.mp firstIn with rfl | old <;> rcases mem_cons.mp secondIn with rfl | old'
        · rfl
        · rw [update_self, kept second old'] at alike
          exact absurd (keys.equivalence.symm alike) (foreign second old')
        · rw [update_self, kept first old] at alike
          exact absurd alike (foreign first old)
        · rw [kept first old, kept second old'] at alike
          exact interned.apart first old second old' alike
      · rintro _ ⟨⟩
        exact ⟨equal, fresh, mem_cons_self, update_self ..⟩
  · rw [hashGet, found, entry]
    refine ⟨interned, rfl, ?_⟩
    rintro _ ⟨⟩
    exact ⟨alike, backet, (mem_filter.mp inside).1, rfl⟩

theorem release (data : Data) : (hash.hashRelease keys size data).1.Interned keys size ∧
    (hash.hashRelease keys size data).2 = (hash.entry keys data).map hash.data ∧
    (hash.hashRelease keys size data).1.backets =
      ((hash.entry keys data).elim hash.backets hash.backets.erase) ∧
    (hash.hashRelease keys size data).1.data = hash.data := by
  obtain ⟨prev, filed⟩ := interned.chains
  obtain ⟨absent, none⟩ | ⟨backet, inside, noLoop, same, entry, found⟩ :=
    interned.search_spec filed data
  · rw [hashRelease, absent, none]
    exact ⟨interned, rfl, rfl, rfl⟩
  · have member := (mem_filter.mp inside).1
    have key := congrArg (· % size) ((interned.keyed backet member).trans (keys.respects same)).symm
    have unlinked := filed.unlink inside
    rw [key, ← chain_erase, ← key,
      unlink_eq ((filed.follows _).next_ne (filed.nodup _) inside) noLoop] at unlinked
    have kept : ∀ {other}, other ∈ hash.backets.erase backet → other ∈ hash.backets :=
      mem_of_mem_erase
    rw [hashRelease, found, entry]
    refine ⟨⟨interned.sized, ⟨_, unlinked⟩, fun other there => interned.keyed other (kept there),
      fun first firstIn second secondIn =>
        interned.apart first (kept firstIn) second (kept secondIn), interned.nodup.erase _, ?_⟩,
      rfl, rfl, rfl⟩
    rw [interned.count, length_erase_of_mem member]

theorem call {call} (fits : hash.Fits keys call) :
    (hash.after keys size call).Interned keys size := by
  cases call with
  | get data allocFunc fresh => exact (interned.get fits).1
  | release data => exact (interned.release data).1

/-- An entry stays as it is until an equivalent argument releases it. -/
theorem stays {call backet} (member : backet ∈ hash.backets) (fits : hash.Fits keys call)
    (kept : ∀ data, call = .release data → keys.hashCmp (hash.data backet) data ≠ true) :
    backet ∈ (hash.after keys size call).backets ∧
    (hash.after keys size call).data backet = hash.data backet := by
  cases call with
  | get data allocFunc fresh =>
    rw [after, Hash.call, hashGet]
    split
    · exact ⟨member, rfl⟩
    · split
      · exact ⟨member, rfl⟩
      · refine ⟨mem_cons_of_mem _ member, update_of_ne ?_ ..⟩
        rintro rfl
        exact fits.1 member
  | release data =>
    obtain ⟨-, -, backets, same⟩ := interned.release data
    refine ⟨?_, congrFun same backet⟩
    rw [after, Hash.call, backets]
    cases found : hash.entry keys data with
    | none => exact member
    | some other =>
      refine (mem_erase_of_ne ?_).mpr member
      rintro rfl
      have hit := find?_some found
      exact kept data rfl hit

theorem stays_run {calls backet} (member : backet ∈ hash.backets)
    (run : Allowed (after keys size) (Fits keys) hash calls)
    (kept : ∀ data, .release data ∈ calls → keys.hashCmp (hash.data backet) data ≠ true) :
    (calls.foldl (after keys size) hash).Interned keys size ∧
    backet ∈ (calls.foldl (after keys size) hash).backets ∧
      (calls.foldl (after keys size) hash).data backet = hash.data backet := by
  induction calls generalizing hash with
  | nil => exact ⟨interned, member, rfl⟩
  | cons call rest ih =>
    obtain ⟨there, data⟩ :=
      interned.stays member run.1 fun data same => kept data (same ▸ mem_cons_self)
    have later :=
      ih (interned.call run.1) there run.2 fun other inside => data ▸ kept other (.tail _ inside)
    rwa [data] at later

end Interned

omit [DecidableEq Backet] in
theorem interned_new (sized : 0 < size) (data : Backet → Data) :
    ({ data } : Hash Backet Data).Interned keys size :=
  ⟨sized, ⟨fun _ => none, fun _ => rfl, fun _ => nodup_nil,
    fun there => absurd there not_mem_nil⟩, by simp, by simp, nodup_nil, rfl⟩

/-- What is in the table, what each call returns and takes out, and that an entry is found until it
  is released. -/
theorem hash_interns (sized : 0 < size) (data : Backet → Data) (calls : List (HashCall Backet Data))
    (run : Allowed (after keys size) (Fits keys) { data } calls) :
    let hash := calls.foldl (after keys size) { data }
    hash.Interned keys size ∧
    (∀ data allocFunc fresh, hash.Fits keys (.get data allocFunc fresh) →
      let (next, got) := hash.hashGet keys size data allocFunc fresh
      got = ((hash.entry keys data).map hash.data).or (allocFunc.bind (· data)) ∧
      ∀ found ∈ got, keys.hashCmp found data = true ∧
        ∃ backet ∈ next.backets, next.data backet = found) ∧
    (∀ data,
      let (next, gone) := hash.hashRelease keys size data
      gone = (hash.entry keys data).map hash.data ∧
      next.backets = (hash.entry keys data).elim hash.backets hash.backets.erase ∧
        next.data = hash.data) ∧
    ∀ backet ∈ hash.backets, ∀ later, Allowed (after keys size) (Fits keys) hash later →
      (∀ data, .release data ∈ later → keys.hashCmp (hash.data backet) data ≠ true) →
      ∀ data, keys.hashCmp (hash.data backet) data = true → ∀ allocFunc fresh,
        ((later.foldl (after keys size) hash).hashGet keys size data allocFunc fresh).2 =
          some (hash.data backet) := by
  have interned := run.invariant (fun _ _ fits interned => interned.call fits)
    (interned_new sized data)
  refine ⟨interned, fun _ _ _ fits => (interned.get fits).2,
    fun data => (interned.release data).2, ?_⟩
  intro backet member later further kept data same allocFunc fresh
  obtain ⟨interned, there, stays⟩ := interned.stays_run member further kept
  obtain ⟨prev, filed⟩ := interned.chains
  rw [← stays] at same
  have entry := interned.entry_of_mem there same
  obtain ⟨-, absent⟩ | ⟨other, -, -, -, other_eq, found⟩ := interned.search_spec filed data
  · exact absurd (absent.symm.trans entry) nofun
  · rw [hashGet, found]
    obtain rfl : other = backet := Option.some.inj (other_eq.symm.trans entry)
    exact congrArg some stays

/-- Entries for numbers; the mark is not looked at. -/
def sampleKeys : HashKeys (Nat × Bool) where
  hashKey := Prod.fst
  hashCmp first second := first.1 == second.1
  equivalence := ⟨fun _ => beq_self_eq_true _, fun same => beq_iff_eq.mpr (eq_of_beq same).symm,
    fun one two => beq_iff_eq.mpr ((eq_of_beq one).trans (eq_of_beq two))⟩
  respects same := eq_of_beq same

/-- 5 and 9 share a chain, 5 is asked for again with another mark and then released. -/
def sampleCalls : List (HashCall Nat (Nat × Bool)) :=
  [.get (5, true) (some some) 0, .get (9, true) (some some) 1, .get (5, false) (some some) 2,
    .release (5, false)]

theorem sampleCalls_allowed : Allowed (after sampleKeys 4) (Fits sampleKeys)
    { data := fun _ => (0, true) } sampleCalls := by
  refine ⟨⟨by decide, ?_⟩, ⟨by decide, ?_⟩, ⟨by decide, ?_⟩, trivial, trivial⟩
  · rintro _ ⟨⟩
    exact beq_self_eq_true _
  · rintro _ ⟨⟩
    exact beq_self_eq_true _
  · rintro _ ⟨⟩
    exact beq_self_eq_true _

/-- The first entry for 5 is what the second call returns and the release takes out; the one for 9
  is still found. -/
theorem hash_interns_two :
    let hash := sampleCalls.foldl (after sampleKeys 4) { data := fun _ => (0, true) }
    let before := (sampleCalls.take 3).foldl (after sampleKeys 4) { data := fun _ => (0, true) }
    hash.Interned sampleKeys 4 ∧ before.chain 4 1 = [1, 0] ∧
      (before.call sampleKeys 4 (.get (5, false) none 3)).2 = some (5, true) ∧
      hash.backets = [1] ∧ (hash.hashGet sampleKeys 4 (9, false) (some some) 3).2 =
        some (9, true) := by
  have all := hash_interns (by decide) _ _ sampleCalls_allowed
  exact ⟨all.1, by decide, by decide, by decide,
    all.2.2.2 1 (by decide) [] trivial (by simp) (9, false) rfl (some some) 3⟩

end Hash
end Zebra
