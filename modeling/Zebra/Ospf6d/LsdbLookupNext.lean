import Zebra.Ospf6d.LsdbRuns
import Zebra.Ospf6d.RouteInvariant

namespace Zebra.Ospf6d
open Base Base.LinkedTree Option RouteTable Prefix Prod List

/-- `/* walk down tree. */`, with the last node that includes the key. -/
def walkMatched {Info : Type} (table : RouteTable Info) (key : Prefix) :
    Nat → Option NodeId → Option NodeId → Option (Option NodeId)
  | 0, _, _ => none
  | _ + 1, matched, none => some matched
  | fuel + 1, matched, some id => do
    let node ← table.nodes id
    if node.p.prefixlen ≤ key.prefixlen ∧ prefixMatch node.p key then
      walkMatched table key fuel (some id) (node.link (checkBit key.octets node.p.prefixlen))
    else return matched

namespace Ospf6Lsdb

/-- `assert (lsa_prev->next == lsa_next); if (lsa_next) assert (lsa_next->prev == lsa_prev);` -/
def assertLinked (db : Ospf6Lsdb) (prev : LsaId) (next : Option LsaId) : Option Unit := do
  if (← db.lsas prev).next ≠ next then none
  match next with
  | none => return ()
  | some next => if (← db.lsas next).prev = some prev then return () else none

variable (db : Ospf6Lsdb) (key : Ospf6LsaKey)

/-- `ospf6_lsdb_lookup_next`. An empty table has no node to lock. -/
def ospf6LsdbLookupNext : Option (Ospf6Lsdb × Option LsaId) := do
  let matched ← walkMatched db.table key.lsdbKey (key.lsdbKey.prefixlen + 2) none db.table.top
  let start ← matched.or db.table.top
  let table ← db.table.routeLockNode start
  let (table, node) ← skipBare RouteTable.routeNext (table.fresh + 1) table (some start)
  match node with
  | none => return ({ db with table }, none)
  | some node =>
    let found ← table.nodes node
    if PrefixSame found.p key.lsdbKey then
      let (table, next) ← table.routeNext node
      let (table, next) ← skipBare RouteTable.routeNext (table.fresh + 1) table next
      let (table, lsa) ← infoBeside table next
      db.assertLinked (← found.info) lsa
      return ({ db with table }, lsa)
    else
      let (table, lsa) ← infoBeside table (some node)
      return ({ db with table }, lsa)

/-- The stored advertisement with the least key above the given one, if there is one. -/
def IsNext : Option LsaId → Prop
  | none => ∀ id lsa, db.Stores id → db.lsas id = some lsa → ¬ key.value.toNat < lsa.key.value.toNat
  | some next => ∃ lsa, db.Stores next ∧ db.lsas next = some lsa ∧
      key.value.toNat < lsa.key.value.toNat ∧
      ∀ id other, db.Stores id → db.lsas id = some other → key.value.toNat < other.key.value.toNat →
        lsa.key.value.toNat ≤ other.key.value.toNat

/-- A key is under every node of the table that includes the given one. -/
def Under (db : Ospf6Lsdb) (key other : Ospf6LsaKey) : Prop :=
  ∀ place node, db.table.nodes place = some node → node.p.Covers key.lsdbKey →
    node.p.Covers other.lsdbKey

/-- The table has a node, and the key is stored, or no stored key below it is under all nodes that
  include it. -/
def FindsNext : Prop :=
  db.table.top ≠ none ∧ (db.HasKey key ∨ ∀ id lsa, db.Stores id → db.lsas id = some lsa →
    lsa.key.value.toNat < key.value.toNat → ¬ db.Under key lsa.key)

end Ospf6Lsdb

section Walk
variable {Info : Type} {table : RouteTable Info} {key : Prefix} {id : NodeId}
  {node : RouteNode Info}

/-- The deepest node that includes a key. -/
def Deepest (table : RouteTable Info) (key : Prefix) : Option NodeId → Prop
  | none => ∀ id node, table.nodes id = some node → ¬ node.p.bits <+: key.bits
  | some matched => ∃ found, table.nodes matched = some found ∧ found.p.bits <+: key.bits ∧
      ∀ id node, table.nodes id = some node → node.p.bits <+: key.bits →
        node.p.bits <+: found.p.bits

theorem walkMatched_spec (wf : table.Wellformed) (fuel : Nat) (found : table.nodes id = some node)
    (enough : key.prefixlen + 1 - node.p.prefixlen < fuel) (matched : Option NodeId)
    (above : ∀ other otherNode, table.nodes other = some otherNode → otherNode.p.bits <+: key.bits →
      node.p.bits <+: otherNode.p.bits ∨
        ∃ place last, matched = some place ∧ table.nodes place = some last ∧
          otherNode.p.bits <+: last.p.bits)
    (last : ∀ place, matched = some place → ∃ last, table.nodes place = some last ∧
      last.p.bits <+: key.bits) :
    ∃ result, walkMatched table key fuel matched (some id) = some result ∧
      Deepest table key result := by
  induction fuel generalizing id node matched with
  | zero => omega
  | succ fuel ih =>
    rw [walkMatched, found]
    simp only [bind_eq_bind, bind_some]
    by_cases covers : node.p.Covers key
    · rw [if_pos ((walk_test_iff node.p key).mpr covers), checkBit_eq]
      have begins := bits_begins.mpr covers
      -- what includes the key and is not passed is below the child, or is this node
      have child : ∀ other otherNode, table.nodes other = some otherNode →
          otherNode.p.bits <+: key.bits →
          otherNode.p.bits <+: node.p.bits ∨ ∃ child first,
            node.link (bitAt key.octets node.p.prefixlen) = some child ∧
            table.Spelled child first ∧ first <+: otherNode.p.bits := by
        intro other otherNode present below
        rcases prefix_or_prefix_of_prefix below begins with short | long
        · exact .inl short
        · by_cases same : node.p.bits = otherNode.p.bits
          · exact .inl (same ▸ prefix_rfl)
          · obtain ⟨side, further⟩ := exists_side long same
            have short := (further.trans below).length_le
            have level : node.p.Above side key := above_iff.mpr (further.trans below)
            rw [show bitAt key.octets node.p.prefixlen = side from level.2.2]
            exact .inr (wf.below_child found ⟨otherNode, present, rfl⟩ further)
      obtain ⟨fuel, rfl⟩ : ∃ smaller, fuel = smaller + 1 :=
        ⟨fuel - 1, by have short := covers.1; omega⟩
      cases linked : node.link (bitAt key.octets node.p.prefixlen) with
      | none =>
        refine ⟨some id, rfl, node, found, begins, fun other otherNode present below => ?_⟩
        rcases child other otherNode present below with short | ⟨_, _, seat, _⟩
        · exact short
        · rw [linked] at seat
          cases seat
      | some lower =>
        obtain ⟨_, ⟨lowerNode, lowerFound, rfl⟩, longer⟩ := wf.child_word found linked
        have length := longer.length_le
        rw [length_append, length_bits, length_bits, length_singleton] at length
        refine ih lowerFound (by omega) (some id)
          (fun other otherNode present below => ?_) fun place same => ?_
        · rcases child other otherNode present below with short | ⟨_, _, seat, spelled, under⟩
          · exact .inr ⟨id, node, rfl, found, short⟩
          · rw [linked] at seat
            cases seat
            rw [spelled.unique ⟨lowerNode, lowerFound, rfl⟩] at under
            exact .inl under
        · cases same
          exact ⟨node, found, begins⟩
    · rw [if_neg (mt (walk_test_iff node.p key).mp covers)]
      refine ⟨matched, rfl, ?_⟩
      have outside : ∀ other otherNode, table.nodes other = some otherNode →
          otherNode.p.bits <+: key.bits →
          ¬ node.p.bits <+: otherNode.p.bits :=
            fun _ _ _ below long => covers (bits_begins.mp (long.trans below))
      cases matched with
      | none =>
        intro other otherNode present below
        rcases above other otherNode present below with long | ⟨_, _, same, _⟩
        · exact outside other otherNode present below long
        · cases same
      | some place =>
        obtain ⟨lastNode, lastFound, lastBelow⟩ := last place rfl
        refine ⟨lastNode, lastFound, lastBelow, fun other otherNode present below => ?_⟩
        rcases above other otherNode present below with long | ⟨_, _, same, there, short⟩
        · exact absurd long (outside other otherNode present below)
        · cases same
          rw [lastFound] at there
          cases there
          exact short

/-- A search starts in front of what is above the key; below the key it starts in front of what is
under all nodes that include the key. -/
theorem walkMatched_top (wf : table.Wellformed) (filled : table.top ≠ none) :
    ∃ matched start first, walkMatched table key (key.prefixlen + 2) none table.top = some matched ∧
      matched.or table.top = some start ∧ table.nodes start = some first ∧
      ∀ id node, table.nodes id = some node →
      (key.bits ≤ node.p.bits → first.p.bits ≤ node.p.bits) ∧
        (node.p.bits < key.bits → (first.p.bits ≤ node.p.bits ↔
          ∀ other otherNode, table.nodes other = some otherNode → otherNode.p.bits <+: key.bits →
            otherNode.p.bits <+: node.p.bits)) := by
  obtain ⟨top, isTop⟩ := ne_none_iff_exists'.mp filled
  obtain ⟨root, rootFound, _⟩ := wf.represents.top.mp isTop
  have begins : ∀ id node, table.nodes id = some node → root.p.bits <+: node.p.bits := by
    intro id node found
    obtain ⟨_, _, again, there, begins⟩ := wf.top_begins found
    rw [isTop] at again
    cases again
    rw [rootFound] at there
    cases there
    exact begins
  obtain ⟨matched, walked, deepest⟩ :=
    @walkMatched_spec _ _ key _ _ wf (key.prefixlen + 2) rootFound (by omega) none
    (fun other otherNode present _ => .inl (begins other otherNode present)) nofun
  rw [← isTop] at walked
  cases matched with
  | none =>
    refine ⟨none, top, root, walked, isTop, rootFound, fun id node found => ?_⟩
    have front := le_of_begins (begins id node found)
    exact ⟨fun _ => front, fun _ => iff_of_true front fun other otherNode present covers =>
      absurd covers (deepest other otherNode present)⟩
  | some place =>
    obtain ⟨first, firstFound, covers, deeper⟩ := deepest
    refine ⟨some place, place, first, walked, rfl, firstFound,
      fun id node found => ⟨(le_of_begins covers).trans, fun early => ?_⟩⟩
    constructor
    · intro behind other otherNode present above
      exact (deeper other otherNode present above).trans
        (begins_of_between covers behind (le_of_lt early))
    · exact fun under => le_of_begins (under place first firstFound covers)

end Walk

namespace Ospf6Lsdb
variable {db : Ospf6Lsdb} {extra : LsaId → Nat} {stored : List LsaId} {key : Ospf6LsaKey}
  {result : Option LsaId}

theorem prefixSame_iff {place node} (keyed : Keyed db.table)
    (found : db.table.nodes place = some node) (full : node.info.isSome) :
    PrefixSame node.p key.lsdbKey ↔ node.p.bits = key.word := by
  refine ⟨PrefixSame.bits, fun same => ?_⟩
  obtain ⟨other, named⟩ := keyed.named found (keyed.lock_ne found full)
  rw [named] at same ⊢
  rw [@word_injective other _ same]
  exact ⟨rfl, rfl, nofun, (octetsEqualBelow_iff ..).mpr fun _ _ => rfl⟩

section
variable (sound : db.Sound extra stored)
include sound

theorem Sound.isNext_iff : db.IsNext key result ↔
    Follower (· < ·) stored db.wordOf key.word result := by
  have above : ∀ {id lsa}, db.lsas id = some lsa →
      (key.word < db.wordOf id ↔ key.value.toNat < lsa.key.value.toNat) := by
    intro id lsa found
    rw [wordOf_eq found, word_lt_iff]
  cases result with
  | none =>
    constructor
    · intro last id member later
      obtain ⟨lsa, found⟩ := sound.live member
      exact last id lsa (sound.stores.mp member) found ((above found).mp later)
    · exact fun last id lsa stores found later => last id (sound.stores.mpr stores)
        ((above found).mpr later)
  | some next =>
    constructor
    · rintro ⟨lsa, stores, found, later, least⟩
      refine ⟨sound.stores.mpr stores, (above found).mpr later, fun id member behind less => ?_⟩
      obtain ⟨other, otherFound⟩ := sound.live member
      rw [wordOf_eq otherFound, wordOf_eq found, word_lt_iff] at less
      exact absurd less (not_lt.mpr
        (least id other (sound.stores.mp member) otherFound ((above otherFound).mp behind)))
    · rintro ⟨member, later, least⟩
      obtain ⟨lsa, found⟩ := sound.live member
      refine ⟨lsa, sound.stores.mp member, found, (above found).mp later,
        fun id other stores otherFound behind => ?_⟩
      have first := least id (sound.stores.mpr stores) ((above otherFound).mpr behind)
      rw [wordOf_eq otherFound, wordOf_eq found] at first
      exact not_lt.mp (mt (word_lt_iff _ _).mpr first)

/-- The key is stored, or nothing stored below it is under all nodes that include it. -/
theorem Sound.findsNext_iff : db.FindsNext key ↔ db.table.top ≠ none ∧
    ((∃ id ∈ stored, db.wordOf id = key.word) ∨ ∀ id ∈ stored, db.wordOf id < key.word →
      ¬ ∀ place node, db.table.nodes place = some node → node.p.bits <+: key.word →
      node.p.bits <+: db.wordOf id) := by
  refine and_congr_right fun _ => or_congr sound.hasKey ?_
  simp only [Under, ← bits_begins]
  constructor
  · intro outside id member less
    obtain ⟨lsa, found⟩ := sound.live member
    rw [wordOf_eq found] at less ⊢
    exact outside id lsa (sound.stores.mp member) found ((word_lt_iff _ _).mp less)
  · intro outside id lsa stores found less
    have here := outside id (sound.stores.mpr stores)
    rw [wordOf_eq found] at here
    exact here ((word_lt_iff _ _).mpr less)

theorem Sound.assertLinked {id} (member : id ∈ stored)
    (next : Follower (· < ·) stored db.wordOf (db.wordOf id) result) :
    db.assertLinked id result = some () := by
  obtain ⟨lsa, found⟩ := sound.live member
  have linked : lsa.next = result := (sound.next member found).unique sound.distinct next
  cases result with
  | none => simp [assertLinked, found, linked]
  | some after =>
    obtain ⟨there, behind, first⟩ := next
    obtain ⟨afterLsa, afterFound⟩ := sound.live there
    have back : Follower (· > ·) stored db.wordOf (db.wordOf after) (some id) := by
      refine ⟨member, behind, fun other inside front less => ?_⟩
      exact first other inside less front
    have linkedBack : afterLsa.prev = some id :=
      (sound.prev there afterFound).unique sound.distinct back
    simp [assertLinked, found, linked, afterFound, linkedBack]

theorem Sound.ospf6LsdbLookupNext (key : Ospf6LsaKey) (filled : db.table.top ≠ none) :
    ∃ result, db.ospf6LsdbLookupNext key = some (db, result) ∧
    (db.IsNext key result ↔ db.FindsNext key) := by
  have wf := sound.keyed.wf
  rw [sound.findsNext_iff]
  obtain ⟨matched, start, first, walked, chosen, firstFound, launch⟩ :=
    @walkMatched_top _ _ key.lsdbKey wf filled
  obtain ⟨found, skipped, behind⟩ :=
    skipBare_spec wf (moves_next wf) ((db.table.hold start).fresh + 1) firstFound
    (Nat.succ_lt_succ (wf.behind_card_lt firstFound))
  simp only [Ospf6Lsdb.ospf6LsdbLookupNext, walked, chosen, routeLockNode_hold firstFound, skipped,
    bind_eq_bind, bind_some, sound.isNext_iff]
  -- what the start says of the stored words
  have starts : ∀ id ∈ stored, (key.word ≤ db.wordOf id → first.p.bits ≤ db.wordOf id) ∧
      (db.wordOf id < key.word →
        (first.p.bits ≤ db.wordOf id ↔ ∀ place node, db.table.nodes place = some node →
        node.p.bits <+: key.word → node.p.bits <+: db.wordOf id)) := by
    intro id member
    obtain ⟨place, node, there, same, _⟩ := sound.carries_iff.mpr ⟨member, rfl⟩
    rw [← same]
    exact launch place node there
  cases found with
  | none =>
    have nothing : ∀ id ∈ stored, ¬ first.p.bits ≤ db.wordOf id := by
      intro id member reached
      obtain ⟨place, node, there, same, carried⟩ := sound.carries_iff.mpr ⟨member, rfl⟩
      exact behind place node there (by rw [carried]; rfl) (not_lt.mpr (same ▸ reached))
    refine ⟨none, rfl, iff_of_true (fun id member later => ?_)
      ⟨filled, .inr fun id member less under => ?_⟩⟩
    · exact nothing id member ((starts id member).1 (le_of_lt later))
    · exact nothing id member (((starts id member).2 less).mpr under)
  | some place =>
    obtain ⟨node, found, full, reached, least⟩ := behind
    obtain ⟨id, carried⟩ := isSome_iff_exists.mp full
    obtain ⟨member, word⟩ := sound.carries_iff.mp ⟨place, node, found, rfl, carried⟩
    have nearest : ∀ other ∈ stored, first.p.bits ≤ db.wordOf other →
        db.wordOf id ≤ db.wordOf other := by
      intro other inside ahead
      obtain ⟨there, otherNode, present, same, carries⟩ := sound.carries_iff.mpr ⟨inside, rfl⟩
      rw [word, ← same]
      exact not_lt.mp
        (least there otherNode present (by rw [carries]; rfl) (not_lt.mpr (same ▸ ahead)))
    have held : (db.table.hold place).nodes place = _ := nodes_hold_self found
    simp only [holding, held, carried, bind_some]
    by_cases same : node.p.bits = key.word
    · obtain ⟨held, after, next, ran, unlocked, beside⟩ :=
        infoBeside_spec sound.keyed (moves_next wf) found
      simp only [besideInfo, routeLockNode_hold found, bind_eq_bind, bind_some] at ran
      obtain ⟨⟨walkedTable, walkedNode⟩, stepped, ran⟩ := bind_eq_some_iff.mp ran
      have follower := beside.follower fun word id => sound.carries_iff
      simp only [(prefixSame_iff sound.keyed found full).mpr same, if_true, stepped, ran,
        unlocked, bind_some, sound.assertLinked member (word ▸ follower)]
      exact ⟨next, rfl, iff_of_true (same ▸ follower) ⟨filled, .inl ⟨id, member, word.trans same⟩⟩⟩
    · refine ⟨some id, ?_, ?_⟩
      · simp only [if_neg (mt (prefixSame_iff sound.keyed found full).mp same), infoBeside, held,
          wf.unlock_hold found, bind_eq_bind, bind_some, carried]
        rfl
      · rw [← word] at same reached
        rcases lt_or_gt_of_ne same with less | later
        · have under := ((starts id member).2 less).mp (not_lt.mp reached)
          refine iff_of_false (fun follower => lt_asymm less follower.2.1) ?_
          rintro ⟨_, ⟨other, inside, equal⟩ | outside⟩
          · obtain ⟨there, otherNode, present, alike, _⟩ := sound.carries_iff.mpr ⟨inside, equal⟩
            have begins := under there otherNode present (alike ▸ prefix_rfl)
            rw [alike] at begins
            exact absurd less (not_lt.mpr (le_of_begins begins))
          · exact outside id member less under
        · refine iff_of_true ⟨member, later, fun other inside behind => ?_⟩
            ⟨filled, .inr fun other inside less under => ?_⟩
          · exact not_lt.mpr (nearest other inside ((starts other inside).1 (le_of_lt behind)))
          · have least := nearest other inside (((starts other inside).2 less).mpr under)
            exact absurd (later.trans_le least) (lt_asymm less)

end

/-- In every database a run reaches the lookup returns the next advertisement, with all locks as
they were, exactly where the search of the table finds it. -/
theorem ospf6_lsdb_lookup_next_exact {condition : Ospf6Lsdb → Move → Prop} {db : Ospf6Lsdb}
    (key : Ospf6LsaKey) (reached : Reached condition db) :
    (∃ result, db.ospf6LsdbLookupNext key = some (db, result) ∧ db.IsNext key result) ↔
      db.FindsNext key := by
  obtain ⟨stored, sound, _⟩ := reached.sound
  constructor
  · rintro ⟨result, ran, next⟩
    have filled : db.table.top ≠ none := by
      intro empty
      simp [ospf6LsdbLookupNext, walkMatched, empty] at ran
    obtain ⟨found, again, same⟩ := sound.ospf6LsdbLookupNext key filled
    rw [ran] at again
    cases again
    exact same.mp next
  · intro finds
    obtain ⟨result, ran, same⟩ := sound.ospf6LsdbLookupNext key finds.1
    exact ⟨result, ran, same.mpr finds⟩

theorem reached_one : ∃ db node lsa, Reached KeepsLocks db ∧ db.table.top = some 0 ∧
    db.table.nodes 0 = some node ∧
    node.info = some 0 ∧ db.lsas 0 = some lsa ∧ lsa.key = sampleKey ∧
    (db.ospf6LsdbLookupNext ⟨0x2001, 2, 0⟩).map snd = some (some 0) := by
  obtain ⟨db, ran⟩ :=
    isSome_iff_exists.mp (by decide +kernel : ((create {} sampleKey).move (.add 0)).isSome)
  have reached : Reached KeepsLocks db := by
    refine .step (.step .init (.create sampleKey) trivial trivial rfl) (.add 0) nofun ?_ ran
    rintro lsa _ ⟨other, _, ⟨place, node, found, _⟩, _⟩
    cases found
  have seen : ((create {} sampleKey).move (.add 0)).map
      (fun db => (db.table.top, (db.table.nodes 0).bind RouteNode.info,
      (db.lsas 0).map LsaCell.key, (db.ospf6LsdbLookupNext ⟨0x2001, 2, 0⟩).map snd)) =
      some (some 0, some 0, some sampleKey, some (some 0)) := by decide +kernel
  rw [ran, map_some, some.injEq, Prod.mk.injEq, Prod.mk.injEq, Prod.mk.injEq] at seen
  obtain ⟨top, info, key, found⟩ := seen
  obtain ⟨node, there, carried⟩ := bind_eq_some_iff.mp info
  obtain ⟨lsa, present, same⟩ := map_eq_some_iff.mp key
  exact ⟨db, node, lsa, reached, top, there, carried, present, same, found⟩

/-- The nodes that include a key and not a stored one below it. -/
def PartedHere (db : Ospf6Lsdb) (key : Ospf6LsaKey) : Prop :=
  ∀ other ∈ db.storedKeys, other.value.toNat < key.value.toNat → ∃ place ∈ range db.table.fresh,
    ∃ node ∈ (db.table.nodes place).toList, prefixMatch node.p key.lsdbKey = true ∧
      prefixMatch node.p other.lsdbKey = false

instance (db : Ospf6Lsdb) (key : Ospf6LsaKey) : Decidable (db.PartedHere key) :=
  inferInstanceAs (Decidable (∀ other ∈ db.storedKeys, _ → ∃ place ∈ range db.table.fresh,
    ∃ node ∈ (db.table.nodes place).toList, _))

theorem Reached.findsNext {condition} (reached : Reached condition db)
    (filled : db.table.top ≠ none) (parted : db.PartedHere key) : db.FindsNext key := by
  obtain ⟨stored, sound, _⟩ := reached.sound
  refine ⟨filled, .inr fun id lsa stores found less under => ?_⟩
  obtain ⟨place, _, node, member, covers, misses⟩ :=
    parted _ (sound.mem_storedKeys.mpr ⟨id, lsa, stores, found, rfl⟩) less
  have covered := under place node (Option.mem_toList.mp member) ((prefixMatch_iff ..).mp covers)
  rw [(prefixMatch_iff ..).mpr covered] at misses
  cases misses

/-- The key is not stored, one of the three stored keys is below it, and the next one is found. -/
theorem ospf6_lsdb_lookup_next_exact_between : ∃ db, attempt Fresh move {} sampleMoves = some db ∧
    ¬ db.HasKey ⟨0x2002, 7, 4⟩ ∧ db.ospf6LsdbLookupNext ⟨0x2002, 7, 4⟩ = some (db, some 2) ∧
      db.IsNext ⟨0x2002, 7, 4⟩ (some 2) := by
  obtain ⟨db, ran⟩ :=
    isSome_iff_exists.mp (by decide +kernel : (attempt Fresh move {} sampleMoves).isSome)
  have seen : (attempt Fresh move {} sampleMoves).map (fun db =>
      (db.storedKeys.contains ⟨0x2002, 7, 4⟩, db.table.top, decide (db.PartedHere ⟨0x2002, 7, 4⟩),
        (db.ospf6LsdbLookupNext ⟨0x2002, 7, 4⟩).map snd)) =
          some (false, some 1, true, some (some 2)) := by decide +kernel
  rw [ran, map_some, some.injEq, Prod.mk.injEq, Prod.mk.injEq, Prod.mk.injEq] at seen
  obtain ⟨absent, top, parted, next⟩ := seen
  have reached : Reached KeepsLocks db := .attempt ran
  obtain ⟨stored, sound, _⟩ := reached.sound
  obtain ⟨result, found, isNext⟩ := (ospf6_lsdb_lookup_next_exact ⟨0x2002, 7, 4⟩ reached).mpr
    (reached.findsNext (by rw [top]; exact some_ne_none 1) (of_decide_eq_true parted))
  rw [found, map_some, some.injEq] at next
  subst next
  refine ⟨db, ran, fun has => ?_, found, isNext⟩
  rw [← sound.mem_storedKeys, ← contains_iff_mem, absent] at has
  cases has

/-- An empty database has no node to lock, and a key no node includes may find the advertisement
  below it. -/
theorem ospf6_lsdb_lookup_next_misses :
    (∃ db, Reached (fun _ _ => True) db ∧ ∀ key, db.ospf6LsdbLookupNext key = none) ∧
    ∃ db lsa key, Reached KeepsLocks db ∧ db.lsas 0 = some lsa ∧
      lsa.key.value.toNat < key.value.toNat ∧
      (db.ospf6LsdbLookupNext key).map snd = some (some 0) := by
  obtain ⟨db, _, lsa, reached, _, _, _, present, same, found⟩ := reached_one
  refine ⟨⟨{}, .init, fun _ => rfl⟩, db, lsa, ⟨0x2001, 2, 0⟩, reached, present, ?_, found⟩
  rw [same]
  decide +kernel

end Ospf6Lsdb
end Zebra.Ospf6d
