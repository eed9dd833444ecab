import Zebra.Base.Run
import Zebra.Lib.PlistHeap

namespace Zebra
open Function Base.Deque Option Prod PrefixList

/-- The bits of the route are those of the prefix, and its length is within the bounds; without
bounds it is the route's own. -/
def PrefixListEntry.Matches (pentry : PrefixListEntry) (p : Prefix) : Prop :=
  pentry.route.prefixlen ≤ p.prefixlen ∧
    Base.Agree pentry.route.prefixlen pentry.route.octets p.octets ∧
    if pentry.le = 0 ∧ pentry.ge = 0 then p.prefixlen = pentry.route.prefixlen
    else pentry.ge ≤ p.prefixlen ∧ (pentry.le ≠ 0 → p.prefixlen ≤ pentry.le)

theorem includes_iff (n : EntryPrefix) (p : Prefix) :
    n.includes p = true ↔ n.prefixlen ≤ p.prefixlen ∧ Base.Agree n.prefixlen n.octets p.octets := by
  rw [EntryPrefix.includes]
  split
  · rename_i longer
    exact ⟨fun impossible => absurd impossible Bool.false_ne_true,
      fun both => absurd both.1 (Nat.not_le_of_lt longer)⟩
  · rename_i fits
    -- a route that fits has the length of a prefix of the family of `p`
    have bound : n.prefixlen ≤ 8 * p.family.bytelen := Nat.le_trans (Nat.le_of_not_lt fits) p.fits
    have same := prefixMatch_iff ⟨p.family, n.prefixlen, n.octets, bound⟩ p
    rw [prefixMatch, if_neg fits] at same
    exact same

theorem prefixListEntryMatch_iff (pentry : PrefixListEntry) (p : Prefix) :
    prefixListEntryMatch pentry p = true ↔ pentry.Matches p := by
  rw [prefixListEntryMatch, PrefixListEntry.Matches, ← and_assoc, ← includes_iff]
  by_cases inside : pentry.route.includes p = true
  · rw [inside, if_neg Bool.false_ne_true.symm, and_iff_right rfl]
    split
    · rw [decide_eq_true_eq, eq_comm]
    · split
      · rename_i long
        exact ⟨fun impossible => absurd impossible Bool.false_ne_true,
          fun both => absurd (both.2 long.1) (Nat.not_le_of_lt long.2)⟩
      · split
        · rename_i short
          exact ⟨fun impossible => absurd impossible Bool.false_ne_true,
            fun both => absurd both.1 (Nat.not_le_of_lt short.2)⟩
        · rename_i notLong notShort
          refine iff_of_true rfl
            ⟨?_, fun given => Nat.le_of_not_lt fun long => notLong ⟨given, long⟩⟩
          by_cases none : pentry.ge = 0
          · exact none ▸ Nat.zero_le _
          · exact Nat.le_of_not_lt fun short => notShort ⟨none, short⟩
  · rw [Bool.not_eq_true] at inside
    rw [inside]
    exact ⟨fun impossible => absurd impossible Bool.false_ne_true,
      fun both => absurd both.1 Bool.false_ne_true⟩

/-- An entry that is looked for is deleted; with `updateList` the list may go. -/
def PrefixList.entryDelete (plist : PrefixList) (wanted : PrefixListEntry → Bool)
    (updateList : Bool) : Option PrefixList :=
  if plist.entries.any wanted then
    if updateList then { plist with entries := plist.entries.eraseP wanted }.settle
    else some { plist with entries := plist.entries.eraseP wanted }
  else some plist

namespace Plists

/-- Before the first cell that is not lower. -/
def insertCell (cell : EntryCell) : List EntryCell → List EntryCell
  | [] => [cell]
  | point :: rest => if cell.2.seq.toInt ≤ point.2.seq.toInt then cell :: point :: rest
    else point :: insertCell cell rest

theorem map_insertCell (cell : EntryCell) (cells : List EntryCell) :
    (insertCell cell cells).map snd = insertEntry cell.2 (cells.map snd) := by
  induction cells with
  | nil => rfl
  | cons point rest ih =>
    rw [List.map_cons, insertCell, insertEntry]
    split
    · rfl
    · rw [List.map_cons, ih]

theorem insertCell_split (cell : EntryCell) (cells : List EntryCell) :
    ∃ before after, cells = before ++ after ∧ insertCell cell cells = before ++ cell :: after ∧
      cells.find? (fun point => cell.2.seq.toInt ≤ point.2.seq.toInt) = after.head? := by
  induction cells with
  | nil => exact ⟨[], [], rfl, rfl, rfl⟩
  | cons point rest ih =>
    rw [insertCell]
    by_cases low : cell.2.seq.toInt ≤ point.2.seq.toInt
    · rw [if_pos low]
      exact ⟨[], point :: rest, rfl, rfl, List.find?_cons_of_pos (decide_eq_true low)⟩
    · obtain ⟨before, after, whole, inserted, found⟩ := ih
      rw [if_neg low, inserted]
      exact ⟨point :: before, after, congrArg (point :: ·) whole, rfl,
        by rw [← found]; exact List.find?_cons_of_neg (mt of_decide_eq_true low)⟩

/-- The entries of every list, each where its cell says. -/
structure Represents (ps : Plists) (cells : PlistName → List EntryCell) : Prop where
  filed : ps.links.Filed fun key => (cells key).map Prod.fst
  entry : ∀ {key cell}, cell ∈ cells key → ps.entry cell.1 = some cell.2
  gone : ∀ {key}, ps.list key = none → cells key = []
  sorted : ∀ key, (cells key).Pairwise fun first second => first.2.seq.toInt < second.2.seq.toInt
  short : ∀ key, (cells key).length ≤ ps.made

/-- A list with its entries in order, as the model of lists without links has it. -/
def view (ps : Plists) (cells : PlistName → List EntryCell) (key : PlistName) : Option PrefixList :=
  (ps.list key).map fun desc => ⟨(cells key).map Prod.snd, desc⟩

theorem map_update (cells : PlistName → List EntryCell) (key : PlistName)
    (changed : List EntryCell) :
    (fun other => (update cells key changed other).map fst) =
      update (fun other => (cells other).map fst) key (changed.map fst) := by
  funext other
  exact apply_update (fun _ cells => cells.map fst) cells key changed other

theorem freed (ps : Plists) (cells : List EntryCell) :
    (∀ addr, (cells.foldl (fun freed cell => freed.prefixListEntryFree cell.1) ps).entry addr =
      if addr ∈ cells.map fst then none else ps.entry addr) ∧
    (cells.foldl (fun freed cell => freed.prefixListEntryFree cell.1) ps).list = ps.list ∧
    (cells.foldl (fun freed cell => freed.prefixListEntryFree cell.1) ps).links = ps.links ∧
    (cells.foldl (fun freed cell => freed.prefixListEntryFree cell.1) ps).made = ps.made := by
  induction cells generalizing ps with
  | nil => exact ⟨fun addr => (if_neg List.not_mem_nil).symm, rfl, rfl, rfl⟩
  | cons cell rest ih =>
    obtain ⟨entries, lists, links, count⟩ := ih (ps.prefixListEntryFree cell.1)
    refine ⟨fun addr => (entries addr).trans ?_, lists, links, count⟩
    by_cases later : addr ∈ rest.map fst
    · exact (if_pos later).trans (if_pos (.tail _ later)).symm
    · refine (if_neg later).trans ((update_apply ..).trans (if_congr ?_ rfl rfl))
      rw [List.map_cons, List.mem_cons, or_iff_left later]

namespace Represents
variable {ps : Plists} {cells : PlistName → List EntryCell} {key : PlistName} {addr : EntryAddr}

theorem start : Represents {} fun _ => [] where
  filed := by
    refine ⟨fun list => ⟨rfl, rfl, rfl, fun split => ?_, fun split => ?_, List.nodup_nil⟩,
      fun member => ?_⟩
    · exact absurd split (by simp)
    · exact absurd split (by simp)
    · exact nomatch member
  entry member := nomatch member
  gone _ := rfl
  sorted _ := List.Pairwise.nil
  short _ := Nat.zero_le _

theorem cells_eq (represents : ps.Represents cells) (key : PlistName) :
    ps.cells key = some (cells key) := by
  have holds := represents.filed.holds key
  have walked : ps.links.walk ps.made (ps.links.head key) = (cells key).map fst := by
    rw [holds.head]
    exact holds.walk (List.nil_append _).symm (by rw [List.length_map]; exact represents.short key)
  rw [Plists.cells, walked]
  have entry : ∀ cell ∈ cells key, ps.entry cell.1 = some cell.2 :=
    fun _ member => represents.entry member
  generalize cells key = there at entry
  induction there with
  | nil => rfl
  | cons cell rest ih =>
    rw [List.map_cons, List.mapM_cons, entry cell List.mem_cons_self,
      ih fun other member => entry other (.tail _ member)]
    rfl

theorem apart (represents : ps.Represents cells) {other first second} (here : first ∈ cells key)
    (there : second ∈ cells other) (same : first.1 = second.1) : key = other :=
  represents.filed.apart (List.mem_map_of_mem here) (same ▸ List.mem_map_of_mem there)

variable (represents : ps.Represents cells)
include represents

theorem unused_ne (unused : ps.entry addr = none) {cell} (member : cell ∈ cells key) :
    cell.1 ≠ addr := by
  intro same
  have present := represents.entry member
  rw [same, unused] at present
  cases present

theorem unlink {before after cell} (split : cells key = before ++ cell :: after) :
    (ps.entryUnlink key cell.1).Represents (update cells key (before ++ after)) := by
  have here : cell ∈ cells key := split ▸ List.mem_append_cons_self
  have fewer : (before ++ after).Sublist (cells key) := by
    rw [split]
    exact List.Sublist.append_left (List.sublist_cons_self cell after) before
  have splitFst : (cells key).map fst = before.map fst ++ cell.1 :: after.map fst := by
    rw [split, List.map_append, List.map_cons]
  have absent : cell.1 ∉ (before ++ after).map fst := by
    have nodup := (represents.filed.holds key).nodup
    rw [splitFst] at nodup
    rw [List.map_append]
    exact (List.nodup_cons.mp (List.nodup_middle.mp nodup)).1
  have remain (other : PlistName) :
      (update cells key (before ++ after) other).Sublist (cells other) := by
    by_cases same : other = key
    · subst same
      rw [update_self]
      exact fewer
    · rw [update_of_ne same]
  refine ⟨?_, ?_, ?_, ?_, ?_⟩
  · rw [map_update, List.map_append]
    exact represents.filed.delete splitFst
  · intro other found member
    have different : found.1 ≠ cell.1 := by
      intro same
      obtain rfl := represents.apart here ((remain other).subset member) same.symm
      rw [update_self] at member
      exact absent (same ▸ List.mem_map_of_mem member)
    exact (update_of_ne different ..).trans (represents.entry ((remain other).subset member))
  · intro other none
    have empty := remain other
    rw [represents.gone none] at empty
    exact List.sublist_nil.mp empty
  · exact fun other => (represents.sorted other).sublist (remain other)
  · exact fun other => le_trans (remain other).length_le (represents.short other)

theorem link (unused : ps.entry addr = none) (known : ps.list key ≠ none) {pentry}
    {before after} (split : cells key = before ++ after)
    (sorted : (before ++ (addr, pentry) :: after).Pairwise fun first second =>
      first.2.seq.toInt < second.2.seq.toInt) :
    ((ps.prefixListEntryMake addr pentry).entryLink key addr after.head?).Represents
      (update cells key (before ++ (addr, pentry) :: after)) := by
  have fresh (list : PlistName) : addr ∉ (cells list).map fst := by
    intro member
    obtain ⟨cell, there, same⟩ := List.mem_map.mp member
    exact represents.unused_ne unused there same
  have linked : ((ps.prefixListEntryMake addr pentry).entryLink key addr after.head?).links.Filed
      fun other => (update cells key (before ++ (addr, pentry) :: after) other).map fst := by
    rw [map_update, List.map_append]
    cases after with
    | nil =>
      have added := represents.filed.append key fresh
      rw [split, List.append_nil] at added
      exact added
    | cons point rest =>
      have splitFst : (cells key).map fst = before.map fst ++ point.1 :: rest.map fst := by
        rw [split, List.map_append, List.map_cons]
      exact represents.filed.insertBefore splitFst fresh
  have rest : ((ps.prefixListEntryMake addr pentry).entryLink key addr after.head?).entry =
      update ps.entry addr (some pentry) ∧
      ((ps.prefixListEntryMake addr pentry).entryLink key addr after.head?).list = ps.list ∧
      ((ps.prefixListEntryMake addr pentry).entryLink key addr after.head?).made = ps.made + 1 := by
    cases after with
    | nil => exact ⟨rfl, rfl, rfl⟩
    | cons point rest => exact ⟨rfl, rfl, rfl⟩
  obtain ⟨entries, lists, count⟩ := rest
  refine ⟨linked, ?_, ?_, ?_, ?_⟩
  · intro other cell member
    rw [entries]
    by_cases same : other = key
    · subst same
      rw [update_self, List.mem_append, List.mem_cons,
        or_left_comm, ← List.mem_append, ← split] at member
      rcases member with rfl | member
      · exact update_self ..
      · exact (update_of_ne (represents.unused_ne unused member) ..).trans (represents.entry member)
    · rw [update_of_ne same] at member
      exact (update_of_ne (represents.unused_ne unused member) ..).trans (represents.entry member)
  · intro other none
    rw [lists] at none
    have different : other ≠ key := fun same => known (same ▸ none)
    rw [update_of_ne different]
    exact represents.gone none
  · intro other
    by_cases same : other = key
    · subst same
      rw [update_self]
      exact sorted
    · rw [update_of_ne same]
      exact represents.sorted other
  · intro other
    rw [count]
    by_cases same : other = key
    · subst same
      have bound := represents.short other
      rw [split, List.length_append] at bound
      rw [update_self, List.length_append, List.length_cons]
      omega
    · rw [update_of_ne same]
      exact Nat.le_succ_of_le (represents.short other)

theorem delete (key : PlistName) :
    ∃ after, ps.prefixListDelete key = some after ∧ after.Represents (update cells key []) ∧
      after.list = update ps.list key none := by
  obtain ⟨entries, lists, links, count⟩ := freed ps (cells key)
  refine ⟨_, by rw [prefixListDelete, represents.cells_eq]; rfl, ?_, by dsimp only; rw [lists]⟩
  refine ⟨?_, ?_, ?_, ?_, ?_⟩
  · dsimp only
    rw [map_update, links]
    exact represents.filed.clear key
  · intro other cell member
    by_cases same : other = key
    · subst same
      rw [update_self] at member
      exact nomatch member
    · rw [update_of_ne same] at member
      refine (entries cell.1).trans ((if_neg fun there => ?_).trans (represents.entry member))
      obtain ⟨found, here, at_⟩ := List.mem_map.mp there
      exact same (represents.apart member here at_.symm)
  · intro other none
    by_cases same : other = key
    · rw [same, update_self]
    · dsimp only at none
      rw [update_of_ne same, lists] at none
      rw [update_of_ne same, represents.gone none]
  · intro other
    by_cases same : other = key
    · rw [same, update_self]
      exact List.Pairwise.nil
    · rw [update_of_ne same]
      exact represents.sorted other
  · intro other
    by_cases same : other = key
    · rw [same, update_self]
      exact Nat.zero_le _
    · rw [update_of_ne same]
      exact count.symm ▸ represents.short other

end Represents

/-! What an operation does to the list it is about -/

/-- The operation runs, and afterwards its list is `want` and the others are as they were. -/
def Does (ps : Plists) (cells : PlistName → List EntryCell) (key : PlistName)
    (result : Option Plists) (want : Option PrefixList) : Prop :=
  ∃ after now, result = some after ∧ after.Represents now ∧
    after.view now = update (ps.view cells) key want

section Does
variable {ps : Plists} {cells : PlistName → List EntryCell} {key : PlistName} {addr : EntryAddr}

theorem view_update {after : Plists} {desc} (lists : after.list = update ps.list key desc)
    (changed : List EntryCell) :
    after.view (update cells key changed) =
      update (ps.view cells) key (desc.map fun desc => ⟨changed.map snd, desc⟩) := by
  funext other
  rw [view, lists]
  by_cases same : other = key
  · subst same
    rw [update_self, update_self, update_self]
  · rw [update_of_ne same, update_of_ne same, update_of_ne same]
    rfl

theorem view_key {desc} (known : ps.list key = some desc) :
    ps.view cells key = some ⟨(cells key).map snd, desc⟩ := by
  rw [view, known]
  rfl

theorem view_none (unknown : ps.list key = none) : ps.view cells key = none := by
  rw [view, unknown]
  rfl

theorem Represents.stay (represents : ps.Represents cells) (key : PlistName) :
    Does ps cells key (some ps) (ps.view cells key) :=
  ⟨ps, cells, rfl, represents, (update_eq_self ..).symm⟩

theorem Does.then {result next want final} (first : Does ps cells key result want)
    (second : ∀ after now, result = some after → after.Represents now → after.view now key = want →
      Does after now key next final) : Does ps cells key next final := by
  obtain ⟨after, now, ran, represents, views⟩ := first
  have mine : after.view now key = want := by rw [views, update_self]
  obtain ⟨last, final, done, kept, finalViews⟩ := second after now ran represents mine
  refine ⟨last, final, done, kept, ?_⟩
  rw [finalViews, views, update_idem]

section
variable (represents : ps.Represents cells)
include represents

theorem Represents.does_delete (key : PlistName) :
    Does ps cells key (ps.prefixListDelete key) none := by
  obtain ⟨after, ran, kept, lists⟩ := represents.delete key
  exact ⟨after, _, ran, kept, view_update lists []⟩

theorem settle_empty {desc} (known : ps.list key = some desc) :
    ps.links.head key = none ∧ ps.links.tail key = none ∧ ps.list key = some false ↔
      (cells key).map snd = [] ∧ desc = false := by
  have holds := represents.filed.holds key
  rw [holds.head, holds.tail, known, List.head?_eq_none_iff, List.getLast?_eq_none_iff,
    List.map_eq_nil_iff, List.map_eq_nil_iff, some_inj]
  exact ⟨fun all => ⟨all.1, all.2.2⟩, fun both => ⟨both.1, both.1, both.2⟩⟩

theorem Represents.does_settle (known : ps.list key ≠ none) :
    Does ps cells key (ps.settle key) ((ps.view cells key).bind PrefixList.settle) := by
  obtain ⟨desc, known⟩ := ne_none_iff_exists'.mp known
  rw [settle, view_key known, bind_some, PrefixList.settle]
  by_cases empty : (cells key).map snd = [] ∧ desc = false
  · rw [if_pos ((settle_empty represents known).mpr empty), if_pos empty]
    exact represents.does_delete key
  · rw [if_neg (mt (settle_empty represents known).mp empty), if_neg empty, ← view_key known]
    exact represents.stay key

theorem Represents.does_unlink (known : ps.list key ≠ none) {wanted : PrefixListEntry → Bool}
    {before after : List EntryCell} {cell} (split : cells key = before ++ cell :: after)
    (erased : (cells key).eraseP (fun cell => wanted cell.2) = before ++ after) :
    Does ps cells key (some (ps.entryUnlink key cell.1))
      ((ps.view cells key).map fun plist => { plist with
        entries := plist.entries.eraseP wanted }) := by
  obtain ⟨desc, known⟩ := ne_none_iff_exists'.mp known
  refine ⟨_, _, rfl, represents.unlink split, ?_⟩
  have same : (ps.entryUnlink key cell.1).list = update ps.list key (some desc) := by
    rw [← known, update_eq_self]
    rfl
  rw [view_update same, view_key known, ← erased]
  have commute : (cells key |>.map snd).eraseP wanted =
      ((cells key).eraseP fun cell => wanted cell.2).map snd :=
    List.eraseP_map ..
  rw [map_some, map_some, commute]

theorem Represents.does_describe (known : ps.list key ≠ none) (flag : Bool) :
    Does ps cells key (some { ps with list := update ps.list key (some flag) })
      ((ps.view cells key).map fun plist => { plist with desc := flag }) := by
  obtain ⟨desc, there⟩ := ne_none_iff_exists'.mp known
  refine ⟨_, cells, rfl,
    ⟨represents.filed, represents.entry, fun {other} absent => ?_, represents.sorted,
      represents.short⟩, ?_⟩
  · have different : other ≠ key := by
      intro same
      dsimp only at absent
      rw [same, update_self] at absent
      exact some_ne_none flag absent
    exact represents.gone ((update_of_ne different ..).symm.trans absent)
  · have views := @view_update ps cells key { ps with list := update ps.list key (some flag) }
      (some flag) rfl (cells key)
    rw [update_eq_self] at views
    rw [views, view_key there]
    rfl

end

theorem seqOf_map (cells : List EntryCell) (desc : Bool) (pentry : PrefixListEntry) :
    (⟨cells.map snd, desc⟩ : PrefixList).seqOf pentry = seqFor cells pentry.seq := by
  rw [seqOf, seqFor, PrefixList.prefixNewSeqGet, prefixNewSeqGet, List.foldl_map]

theorem dupCheck_map (cells : List EntryCell) (desc : Bool) (new : PrefixListEntry) :
    (⟨cells.map snd, desc⟩ : PrefixList).prefixEntryDupCheck new =
      prefixEntryDupCheck cells new := by
  rw [PrefixList.prefixEntryDupCheck, List.any_map, seqOf_map]
  rfl

theorem Represents.replace (represents : ps.Represents cells) (unused : ps.entry addr = none)
    (seq : BitVec 32) :
    (ps.entryReplace key (prefixSeqCheck (cells key) seq)).Represents
        (update cells key ((cells key).eraseP fun cell => cell.2.seq = seq)) ∧
      (ps.entryReplace key (prefixSeqCheck (cells key) seq)).entry addr = none ∧
      (ps.entryReplace key (prefixSeqCheck (cells key) seq)).list = ps.list := by
  rw [prefixSeqCheck]
  obtain ⟨absent, kept⟩ | ⟨before, old, after, present, split, left⟩ :=
    find_erase (fun cell : EntryCell => decide (cell.2.seq = seq)) (cells key)
  · rw [absent, kept, update_eq_self]
    exact ⟨represents, unused, rfl⟩
  · rw [present, left]
    have member : old ∈ cells key := split ▸ List.mem_append_cons_self
    exact ⟨represents.unlink split,
      (update_of_ne (represents.unused_ne unused member).symm ..).trans unused, rfl⟩

theorem entryLink_list (ps : Plists) (key : PlistName) (addr : EntryAddr)
    (point : Option EntryCell) :
    (ps.entryLink key addr point).list = ps.list := by
  cases point <;> rfl

theorem erased_ne {cells : List EntryCell}
    (sorted : cells.Pairwise fun first second => first.2.seq.toInt < second.2.seq.toInt)
    {seq : BitVec 32} : ∀ cell ∈ cells.eraseP fun cell => cell.2.seq = seq, cell.2.seq ≠ seq := by
  induction cells with
  | nil => exact nofun
  | cons first rest ih =>
    obtain ⟨above, later⟩ := List.pairwise_cons.mp sorted
    intro cell member same
    by_cases here : first.2.seq = seq
    · have cut : (first :: rest).eraseP (fun cell => decide (cell.2.seq = seq)) = rest :=
        List.eraseP_cons_of_pos (decide_eq_true here)
      rw [cut] at member
      have less := above cell member
      rw [here, same] at less
      exact Int.lt_irrefl _ less
    · have kept : (first :: rest).eraseP (fun cell => decide (cell.2.seq = seq)) =
          first :: rest.eraseP fun cell => decide (cell.2.seq = seq) :=
        List.eraseP_cons_of_neg (mt of_decide_eq_true here)
      rw [kept] at member
      rcases List.mem_cons.mp member with rfl | member
      · exact here same
      · exact ih later cell member same

variable (represents : ps.Represents cells)
include represents

theorem Represents.does_add (unused : ps.entry addr = none) (known : ps.list key ≠ none)
    (pentry : PrefixListEntry) :
    Does ps cells key (ps.prefixListEntryAdd key addr pentry)
      ((ps.view cells key).map fun plist => plist.prefixListEntryAdd pentry) := by
  obtain ⟨desc, there⟩ := ne_none_iff_exists'.mp known
  have cutShape :=
    @Represents.replace ps cells key addr represents unused (seqFor (cells key) pentry.seq)
  rw [prefixListEntryAdd, represents.cells_eq, bind_some, view_key there, map_some,
    PrefixList.prefixListEntryAdd, seqOf_map]
  dsimp only
  generalize seqFor (cells key) pentry.seq = seq at cutShape ⊢
  generalize ps.entryReplace key (prefixSeqCheck (cells key) seq) = cut at cutShape ⊢
  obtain ⟨cutRep, cutUnused, cutList⟩ := cutShape
  have fewer : ((cells key).eraseP fun cell => cell.2.seq = seq).Sublist (cells key) :=
    List.eraseP_sublist
  have sorted := (represents.sorted key).sublist fewer
  have apart : ∀ cell ∈ (cells key).eraseP fun cell => cell.2.seq = seq, cell.2.seq ≠ seq :=
    erased_ne (represents.sorted key)
  have erasedMap : ((cells key).map snd).eraseP (fun found => found.seq = seq) =
      ((cells key).eraseP fun cell => cell.2.seq = seq).map snd := List.eraseP_map ..
  rw [erasedMap]
  generalize (cells key).eraseP (fun cell => cell.2.seq = seq) = erased at cutRep sorted apart ⊢
  obtain ⟨before, after, whole, inserted, point⟩ :=
    insertCell_split (addr, { pentry with seq }) erased
  have ordered : (before ++ (addr, { pentry with seq }) :: after).Pairwise
      fun first second => first.2.seq.toInt < second.2.seq.toInt := by
    rw [← inserted]
    apply (List.pairwise_map (f := snd)
      (R := fun first second : PrefixListEntry => first.seq.toInt < second.seq.toInt)).mp
    rw [map_insertCell]
    refine ordered_insertEntry (List.pairwise_map.mpr sorted) fun found member => ?_
    obtain ⟨cell, here, rfl⟩ := List.mem_map.mp member
    exact apart cell here
  have linked := cutRep.link cutUnused (cutList ▸ known) ((update_self ..).trans whole) ordered
  rw [update_idem] at linked
  rw [cutRep.cells_eq, update_self]
  refine ⟨_, _, rfl, point ▸ linked, ?_⟩
  have lists : ((cut.prefixListEntryMake addr { pentry with seq }).entryLink key addr
      (erased.find? fun point => seq.toInt ≤ point.2.seq.toInt)).list =
        update ps.list key (some desc) := by
    rw [← there, update_eq_self, ← cutList, entryLink_list]
    rfl
  rw [view_update lists, ← inserted, map_insertCell]
  rfl

theorem Represents.does_get (key : PlistName) :
    Does ps cells key (some (ps.prefixListGet key)) (some ((ps.view cells key).getD {})) ∧
      (ps.prefixListGet key).list key ≠ none ∧ (ps.prefixListGet key).entry = ps.entry := by
  rw [prefixListGet]
  cases known : ps.list key with
  | some desc =>
    rw [if_pos isSome_some, view_key known, getD_some, ← view_key known]
    exact ⟨represents.stay key, known ▸ nofun, rfl⟩
  | none =>
    rw [if_neg (by simp), view_none known]
    have empty := represents.gone known
    refine ⟨⟨_, cells, rfl, ⟨represents.filed, represents.entry, fun {other} absent => ?_,
      represents.sorted, represents.short⟩, ?_⟩,
      by dsimp only; rw [update_self]; exact nofun, rfl⟩
    · by_cases same : other = key
      · exact same ▸ empty
      · exact represents.gone ((update_of_ne same ..).symm.trans absent)
    · have views := @view_update ps cells key { ps with list := update ps.list key (some false) }
        (some false) rfl []
      rw [← empty, update_eq_self] at views
      rw [views, empty]
      rfl

theorem Represents.does_install (unused : ps.entry addr = none) (key : PlistName)
    (pentry : PrefixListEntry) :
    Does ps cells key (ps.install key addr pentry)
      (some (if ((ps.view cells key).getD {}).prefixEntryDupCheck pentry then
        (ps.view cells key).getD {}
        else ((ps.view cells key).getD {}).prefixListEntryAdd pentry)) := by
  obtain ⟨got, known, entries⟩ := represents.does_get key
  refine got.then fun after now ran kept mine => ?_
  cases ran
  obtain ⟨desc, there⟩ := ne_none_iff_exists'.mp known
  have viewed := @view_key _ now key _ there
  have plist := viewed.symm.trans mine
  rw [install, kept.cells_eq, bind_some, ← some.inj plist, dupCheck_map]
  by_cases dup : prefixEntryDupCheck (now key) pentry = true
  · rw [if_pos dup, if_pos dup, ← view_key there]
    exact kept.stay key
  · rw [if_neg dup, if_neg dup]
    have added := kept.does_add (entries ▸ unused) known pentry
    rwa [view_key there] at added

theorem Represents.does_drop (key : PlistName) :
    Does ps cells key (if ps.list key = none then some ps else ps.prefixListDelete key) none := by
  split
  · rename_i unknown
    have stay := represents.stay key
    rwa [view_none unknown] at stay
  · exact represents.does_delete key

theorem Represents.does_entryDelete {desc} (known : ps.list key = some desc)
    (wanted : PrefixListEntry → Bool) (updateList : Bool) : Does ps cells key
      ((ps.cells key).bind fun cells =>
        match cells.find? fun cell => wanted cell.2 with
        | some cell => ps.prefixListEntryDelete key cell.1 updateList
        | none => some ps)
      ((ps.view cells key).bind fun plist => plist.entryDelete wanted updateList) := by
  rw [represents.cells_eq, bind_some, view_key known, bind_some, entryDelete]
  have commute : ((cells key).map snd).any wanted = (cells key).any fun cell => wanted cell.2 :=
    List.any_map
  rw [commute]
  obtain ⟨absent, -⟩ | ⟨before, cell, after, present, split, left⟩ :=
    find_erase (fun cell : EntryCell => wanted cell.2) (cells key)
  · have nowhere : ((cells key).any fun cell => wanted cell.2) = false := by
      rw [List.any_eq_false]
      exact List.find?_eq_none.mp absent
    rw [absent, nowhere, ← view_key known]
    exact represents.stay key
  · have somewhere : ((cells key).any fun cell => wanted cell.2) = true :=
      List.any_eq_true.mpr ⟨cell, List.mem_of_find?_eq_some present,
        List.find?_some (p := fun cell : EntryCell => wanted cell.2) present⟩
    rw [present, somewhere]
    have there : ps.list key ≠ none := known ▸ nofun
    have unlinked := represents.does_unlink there split left
    cases updateList with
    | false =>
      rw [view_key known] at unlinked
      exact unlinked
    | true =>
      refine unlinked.then fun cut now ran kept mine => ?_
      cases ran
      have settled := @Represents.does_settle _ _ key kept there
      rw [mine, view_key known] at settled
      exact settled

theorem Represents.does_uninstall {desc} (known : ps.list key = some desc) (route : EntryPrefix)
    (type : PrefixListType) (seq : BitVec 32) (le ge : Nat) :
    Does ps cells key (ps.uninstall key route type seq le ge)
      ((ps.view cells key).bind fun plist =>
        (plist.prefixListEntryDelete route type seq le ge).2) := by
  have deleted := represents.does_entryDelete known (PrefixList.isEntry route type seq le ge) true
  have same (plist : PrefixList) : (plist.prefixListEntryDelete route type seq le ge).2 =
      plist.entryDelete (PrefixList.isEntry route type seq le ge) true := by
    rw [PrefixList.prefixListEntryDelete, PrefixList.entryDelete]
    split <;> rfl
  rwa [funext same]

end Does

/-- The list that a call is about. -/
def Op.key : Op → PlistName
  | .entryAdd key _ => key
  | .entryDelete key _ _ => key
  | .cmd ip name _ => confKey ip name
  | .orfSet name _ _ _ => ⟨.orf, name⟩
  | .orfRemoveAll name => ⟨.orf, name⟩

/-- What a call makes of its list. -/
def Op.effect (op : Op) (plist : Option PrefixList) : Option PrefixList :=
  match op with
  | .entryAdd _ pentry => plist.map fun plist => plist.prefixListEntryAdd pentry
  | .entryDelete _ wanted updateList => plist.bind fun plist => plist.entryDelete wanted updateList
  | .cmd ip _ command => Zebra.prefixListCmd (if ip then .inet else .inet6) plist command
  | .orfSet _ ip orfp set =>
    if rangeInvalid orfp.route.prefixlen orfp.ge orfp.le then plist
    else
      let le := if orfp.ge ≠ 0 ∧ orfp.le = orfMaxBitlen ip then 0 else orfp.le
      let plist := plist.getD {}
      if set then
        some (if plist.prefixEntryDupCheck { orfp with le, any := false } then plist
          else plist.prefixListEntryAdd { orfp with le, any := false })
      else (plist.prefixListEntryDelete orfp.route orfp.type orfp.seq le orfp.ge).2
  | .orfRemoveAll _ => none

section Calls
variable {ps : Plists} {cells : PlistName → List EntryCell} {addr : EntryAddr}

section
variable (represents : ps.Represents cells) (unused : ps.entry addr = none)
include represents unused

theorem Represents.does_cmd (family : Family) (key : PlistName) (cmd : PrefixListCmd) :
    Does ps cells key (ps.prefixListCmd family key addr cmd)
    (Zebra.prefixListCmd family (ps.view cells key) cmd) := by
  cases cmd with
  | install seq type route ge le =>
    rw [prefixListCmd, Zebra.prefixListCmd, vtyPrefixListInstall, Zebra.vtyPrefixListInstall]
    dsimp only
    split
    · exact represents.stay key
    · have installed := represents.does_install unused key
        { seq, le := lastBound family (given family route ge le).2.1 (given family route ge le).2.2
          ge := (given family route ge le).2.1, type, any := route.isNone, route :=
            (given family route ge le).1.entry }
      rwa [apply_ite some] at installed
  | uninstall seq type route ge le =>
    rw [prefixListCmd, Zebra.prefixListCmd, vtyPrefixListUninstall]
    cases known : ps.list key with
    | none =>
      have stay := represents.stay key
      rw [view_none known] at stay ⊢
      dsimp only
      rwa [if_pos (.inl rfl)]
    | some desc =>
      rw [view_key known, bind_some, Zebra.vtyPrefixListUninstall]
      dsimp only
      by_cases malformed : parses family route ge le = false
      · rw [if_pos (.inr malformed), if_pos malformed, ← view_key known]
        exact represents.stay key
      · rw [if_neg (by simpa using malformed), if_neg malformed]
        have gone := represents.does_uninstall known (given family route ge le).1.entry type seq
          (given family route ge le).2.2 (given family route ge le).2.1
        rwa [view_key known, bind_some] at gone
  | delete => exact represents.does_drop key
  | description =>
    obtain ⟨got, known, -⟩ := represents.does_get key
    refine got.then fun after now ran kept mine => ?_
    cases ran
    have described := kept.does_describe known true
    rwa [mine] at described
  | noDescription =>
    rw [prefixListCmd, vtyPrefixListDescUnset]
    cases known : ps.list key with
    | none =>
      have stay := represents.stay key
      rw [view_none known] at stay ⊢
      rwa [if_pos rfl]
    | some desc =>
      refine (represents.does_describe (known ▸ some_ne_none _) false).then
        fun after now ran kept mine => ?_
      cases ran
      have settled :=
        @Represents.does_settle _ _ key kept (by dsimp only; rw [update_self]; exact some_ne_none _)
      rw [mine, view_key known] at settled
      rw [view_key known]
      exact settled

theorem Represents.does_orfSet (name : String) (ip : Bool) (orfp : PrefixListEntry) (set : Bool) :
    Does ps cells ⟨.orf, name⟩ (ps.prefixBgpOrfSet ⟨.orf, name⟩ addr ip orfp set)
      ((Op.orfSet name ip orfp set).effect (ps.view cells ⟨.orf, name⟩)) := by
  rw [prefixBgpOrfSet, Op.effect]
  split
  · exact represents.stay _
  · generalize (if orfp.ge ≠ 0 ∧ orfp.le = orfMaxBitlen ip then 0 else orfp.le) = le
    cases set with
    | true =>
      exact represents.does_install unused _ { orfp with le, any := false }
    | false =>
      obtain ⟨got, known, -⟩ := represents.does_get ⟨.orf, name⟩
      refine got.then fun after now ran kept mine => ?_
      cases ran
      obtain ⟨desc, there⟩ := ne_none_iff_exists'.mp known
      have gone := kept.does_uninstall there orfp.route orfp.type orfp.seq le orfp.ge
      rwa [mine, bind_some] at gone

/-- Every call runs, and does to its list what it does to a list without links. -/
theorem Represents.does_act (op : Op) :
    Does ps cells op.key (ps.act addr op) (op.effect (ps.view cells op.key)) := by
  cases op with
  | entryAdd key pentry =>
    rw [act, Op.key]
    cases known : ps.list key with
    | none =>
      have stay := represents.stay key
      rw [view_none known] at stay ⊢
      rwa [if_pos rfl]
    | some desc =>
      exact represents.does_add unused (known ▸ some_ne_none _) pentry
  | entryDelete key wanted updateList =>
    rw [act, Op.key]
    cases known : ps.list key with
    | none =>
      have stay := represents.stay key
      rw [view_none known] at stay ⊢
      rwa [if_pos rfl]
    | some desc =>
      exact represents.does_entryDelete known wanted updateList
  | cmd ip name command => exact represents.does_cmd unused _ _ command
  | orfSet name ip orfp set => exact represents.does_orfSet unused name ip orfp set
  | orfRemoveAll name => exact represents.does_drop ⟨.orf, name⟩

end

theorem Reached.represents (reached : Reached ps) : ∃ cells, ps.Represents cells := by
  induction reached with
  | start => exact ⟨_, Represents.start⟩
  | step reached unused op acted ih =>
    obtain ⟨cells, represents⟩ := ih
    obtain ⟨after, now, ran, kept, -⟩ := represents.does_act unused op
    rw [acted] at ran
    cases ran
    exact ⟨now, kept⟩

theorem Represents.apply_eq (represents : ps.Represents cells) {key desc}
    (known : ps.list key = some desc) (p : Prefix) :
    ps.prefixListApply key p = some (if cells key = [] then .permit
      else (((cells key).find? fun cell => prefixListEntryMatch cell.2 p).map fun cell =>
        cell.2.type).getD .deny) := by
  have count := (represents.filed.holds key).count
  rw [List.length_map] at count
  rw [prefixListApply, if_neg (known ▸ nofun), count, represents.cells_eq, map_some]
  by_cases empty : cells key = []
  · rw [if_pos empty, if_pos (by rw [empty]; rfl)]
  · have some_ : ((cells key).length : Int) ≠ 0 := by
      intro zero
      exact empty (List.length_eq_zero_iff.mp (Int.ofNat_eq_zero.mp zero))
    rw [if_neg empty, if_neg some_]

theorem find_lowest {cells : List EntryCell}
    (sorted : cells.Pairwise fun first second => first.2.seq.toInt < second.2.seq.toInt)
    {p : Prefix} {cell} (member : cell ∈ cells) (hit : cell.2.Matches p)
    (lowest : ∀ other ∈ cells, other.2.Matches p → cell.2.seq.toInt ≤ other.2.seq.toInt) :
    cells.find? (fun cell => prefixListEntryMatch cell.2 p) = some cell := by
  obtain ⟨before, after, rfl⟩ := List.append_of_mem member
  rw [List.find?_eq_some_iff_append]
  refine ⟨(prefixListEntryMatch_iff _ _).mpr hit, before, after, rfl, fun other early => ?_⟩
  rw [Bool.not_eq_true', ← Bool.not_eq_true, prefixListEntryMatch_iff]
  intro also
  have less := (List.pairwise_append.mp sorted).2.2 other early cell List.mem_cons_self
  exact absurd (lowest other (List.mem_append_left _ early) also) (Int.not_le.mpr less)

/-- The entries of every list there is are linked both ways between its head and its tail, counted,
and in the order of their numbers; the list answers with its lowest entry that matches; and no
further call reads an entry that is freed. -/
theorem prefix_lists_sound {ps : Plists} (reached : Reached ps) :
    (∀ op addr, ps.entry addr = none → (ps.act addr op).isSome) ∧
    ∀ key, ps.list key ≠ none → ∃ cells : List EntryCell,
      ps.links.Holds key (cells.map fst) ∧ (∀ cell ∈ cells, ps.entry cell.1 = some cell.2) ∧
      (cells.Pairwise fun first second => first.2.seq.toInt < second.2.seq.toInt) ∧
      ps.links.count key = cells.length ∧
      ∀ p,
        (cells = [] → ps.prefixListApply key p = some .permit) ∧
        (∀ cell ∈ cells, cell.2.Matches p →
          (∀ other ∈ cells, other.2.Matches p → cell.2.seq.toInt ≤ other.2.seq.toInt) →
          ps.prefixListApply key p = some cell.2.type) ∧
        (cells ≠ [] → (∀ cell ∈ cells, ¬ cell.2.Matches p) →
          ps.prefixListApply key p = some .deny) := by
  obtain ⟨cells, represents⟩ := reached.represents
  constructor
  · intro op addr unused
    obtain ⟨after, now, ran, -⟩ := represents.does_act unused op
    rw [ran]
    exact isSome_some
  · intro key there
    obtain ⟨desc, known⟩ := ne_none_iff_exists'.mp there
    have holds := represents.filed.holds key
    have count := holds.count
    rw [List.length_map] at count
    refine ⟨cells key, holds, fun cell member => represents.entry member, represents.sorted key,
      count, fun p => ⟨?_, ?_, ?_⟩⟩
    · intro empty
      rw [represents.apply_eq known, if_pos empty]
    · intro cell member hit lowest
      rw [represents.apply_eq known, if_neg (List.ne_nil_of_mem member),
        find_lowest (represents.sorted key) member hit lowest]
      rfl
    · intro entries misses
      have nowhere : (cells key).find? (fun cell => prefixListEntryMatch cell.2 p) = none := by
        rw [List.find?_eq_none]
        exact fun cell member => mt (prefixListEntryMatch_iff _ _).mp (misses cell member)
      rw [represents.apply_eq known, if_neg entries, nowhere]
      rfl

theorem sampleTens_size :
    (#[10, 0, 0, 0, 0, 0, 0, 0, 0, 0, 0, 0, 0, 0, 0, 0] : Array Base.Octet).size = 16 := rfl

/-- A prefix that starts with 10 and zeros. -/
def sampleTens (prefixlen : Nat) (fits : prefixlen ≤ 8 * Family.inet.bytelen) : Prefix :=
  ⟨.inet, prefixlen, ⟨#[10, 0, 0, 0, 0, 0, 0, 0, 0, 0, 0, 0, 0, 0, 0, 0], sampleTens_size⟩, fits⟩

theorem eight_fits : 8 ≤ 8 * Family.inet.bytelen := by decide

theorem twentyFour_fits : 24 ≤ 8 * Family.inet.bytelen := by decide

def sampleKey : PlistName := ⟨.ipv4, "a"⟩

/-- Two entries at the tail, one in front of them and one in the place of the first. Then an entry
goes again, and a neighbour asks for all prefixes of 10.0.0.0/8. -/
def sampleCalls : List (EntryAddr × Op) :=
  [(0, .cmd true "a" (.install (-1) .deny (some (sampleTens 8 eight_fits)) 0 16)),
    (1, .cmd true "a" (.install (-1) .permit (some (sampleTens 8 eight_fits)) 0 32)),
    (2, .cmd true "a" (.install 2 .permit (some (sampleTens 24 twentyFour_fits)) 0 0)),
    (3, .cmd true "a" (.install 5 .deny (some (sampleTens 8 eight_fits)) 0 24)),
    (4, .cmd true "a" (.install 7 .deny none 0 0)),
      (5, .cmd true "a" (.uninstall 7 .deny none 0 0)),
    (6, .orfSet "a" true ⟨5, 32, 0, .permit, false, (sampleTens 8 eight_fits).entry⟩ true)]

def sampleLists : Option Plists :=
  Base.attempt (fun (ps : Plists) (call : EntryAddr × Op) => ps.entry call.1 = none)
    (fun ps call => ps.act call.1 call.2) {}
    sampleCalls

/-- The three entries that are left, in the order of their numbers; the first that matches
  10.0.0.0/8 denies it. -/
theorem prefix_lists_sound_three : ∃ ps ∈ sampleLists, ∃ cells : List EntryCell,
    ps.links.Holds sampleKey (cells.map fst) ∧ cells.map fst = [2, 3, 1] ∧
    (cells.Pairwise fun first second => first.2.seq.toInt < second.2.seq.toInt) ∧
    (∀ cell ∈ cells, cell.2.Matches (sampleTens 8 eight_fits) →
      (∀ other ∈ cells, other.2.Matches (sampleTens 8 eight_fits) →
        cell.2.seq.toInt ≤ other.2.seq.toInt) →
      cell.2.type = .deny) := by
  obtain ⟨ps, ran⟩ := isSome_iff_exists.mp (by decide +kernel : sampleLists.isSome)
  have seen : sampleLists.map
      (fun ps => (ps.links.walk 3 (ps.links.head sampleKey), ps.links.count sampleKey,
      (ps.list sampleKey).isSome, ps.prefixListApply sampleKey (sampleTens 8 eight_fits))) =
        some ([2, 3, 1], 3, true, some .deny) := by decide +kernel
  rw [ran, map_some, some.injEq, Prod.mk.injEq, Prod.mk.injEq, Prod.mk.injEq] at seen
  obtain ⟨walked, counted, known, denied⟩ := seen
  have reached : Reached ps :=
    Base.attempt_invariant (fun earlier unused acted => .step earlier unused _ acted) .start ran
  obtain ⟨cells, holds, -, sorted, count, answers⟩ :=
    (prefix_lists_sound reached).2 sampleKey (ne_none_iff_isSome.mpr known)
  have length : (cells.map fst).length = 3 := by
    rw [List.length_map]
    omega
  refine ⟨ps, ran, cells, holds, ?_, sorted, fun cell member hit lowest => ?_⟩
  · rw [← holds.walk (List.nil_append _).symm (Nat.le_of_eq length), ← holds.head, walked]
  · have answer := (answers _).2.1 cell member hit lowest
    rw [denied, some.injEq] at answer
    exact answer.symm

end Calls
end Plists
end Zebra
