import Mathlib.Data.List.Induction
import Mathlib.Data.List.Nodup
import Mathlib.Data.List.Perm.Basic

/-! Choosing an element by running through a list. The comparison need not be transitive. -/
namespace Zebra.Base.Contest

open List Option

universe u
variable {Candidate : Type u}

section
variable (beats : Candidate → Candidate → Bool)

/-- The better of the current choice and the next candidate. -/
def pick : Option Candidate → Candidate → Option Candidate
  | none, next => some next
  | some current, next => if beats next current then some next else some current

def scan (order : List Candidate) : Option Candidate :=
  order.foldl (pick beats) none

/-- Of two different candidates exactly one beats the other. -/
def Decided (candidates : List Candidate) : Prop :=
  ∀ first ∈ candidates, ∀ second ∈ candidates, first ≠ second →
    beats first second = !beats second first

end

variable {beats : Candidate → Candidate → Bool} {order other : List Candidate}

@[simp] theorem scan_nil : scan beats [] = none := rfl

theorem scan_concat (last : Candidate) :
    scan beats (order ++ [last]) = pick beats (scan beats order) last := by
  simp [scan, foldl_append]

theorem pick_isSome (current : Option Candidate) (next : Candidate) :
    ∃ x, pick beats current next = some x := by
  cases current with
  | none => exact ⟨next, rfl⟩
  | some current =>
    simp only [pick]
    split
    · exact ⟨next, rfl⟩
    · exact ⟨current, rfl⟩

theorem scan_mem {winner} (chosen : scan beats order = some winner) : winner ∈ order := by
  induction order using reverseRecOn generalizing winner with
  | nil => simp at chosen
  | append_singleton front last ih =>
    rw [scan_concat] at chosen
    cases previous : scan beats front with
    | none =>
      rw [previous] at chosen
      cases chosen
      simp
    | some current =>
      rw [previous] at chosen
      simp only [pick] at chosen
      split at chosen
      · cases chosen
        simp
      · cases chosen
        exact mem_append_left _ (ih previous)

theorem scan_isSome (beats : Candidate → Candidate → Bool) (nonempty : order ≠ []) :
    ∃ winner, scan beats order = some winner := by
  obtain ⟨front, last, rfl⟩ := eq_nil_or_concat' order |>.resolve_left nonempty
  rw [scan_concat]
  exact pick_isSome _ _

section
variable (decided : Decided beats order)
include decided

theorem Decided.perm (same : order.Perm other) : Decided beats other :=
  fun first firstIn second secondIn =>
    decided first (same.mem_iff.mpr firstIn) second (same.mem_iff.mpr secondIn)

theorem Decided.subset (part : ∀ x ∈ other, x ∈ order) : Decided beats other :=
  fun first firstIn second secondIn =>
    decided first (part first firstIn) second (part second secondIn)

theorem Decided.beaten {first second}
    (firstIn : first ∈ order) (secondIn : second ∈ order) (wins : beats first second = true)
    (apart : first ≠ second) : beats second first = false := by
  have opposite := decided first firstIn second secondIn apart
  rw [wins] at opposite
  simpa using opposite.symm

/-- A later candidate from a dominant set is never dropped for one outside it. -/
theorem scan_dominant {leading : Candidate → Prop}
    (ahead : ∀ leader ∈ order, leading leader → ∀ rival ∈ order, ¬ leading rival →
      beats leader rival = true) {winner : Candidate} (chosen : scan beats order = some winner)
    (inhabited : ∃ leader ∈ order, leading leader) : leading winner := by
  induction order using reverseRecOn generalizing winner with
  | nil => simp at chosen
  | append_singleton front last ih =>
    have inFront : ∀ x ∈ front, x ∈ front ++ [last] := fun _ => mem_append_left _
    have lastIn : last ∈ front ++ [last] := by simp
    have frontDecided := decided.subset inFront
    have frontAhead : ∀ leader ∈ front, leading leader → ∀ rival ∈ front, ¬ leading rival →
        beats leader rival = true := fun leader leaderIn leads rival rivalIn =>
      ahead leader (inFront _ leaderIn) leads rival (inFront _ rivalIn)
    rw [scan_concat] at chosen
    cases previous : scan beats front with
    | none =>
      have empty : front = [] := by
        by_contra nonempty
        obtain ⟨x, found⟩ := scan_isSome beats nonempty
        rw [previous] at found
        cases found
      subst empty
      cases chosen
      obtain ⟨leader, leaderIn, leads⟩ := inhabited
      simp only [nil_append, mem_singleton] at leaderIn
      exact leaderIn ▸ leads
    | some current =>
      have currentIn := scan_mem previous
      rw [previous] at chosen
      simp only [pick] at chosen
      by_cases replaced : beats last current = true
      · rw [if_pos replaced] at chosen
        cases chosen
        by_contra outside
        have others : ∃ leader ∈ front, leading leader := by
          obtain ⟨leader, leaderIn, leads⟩ := inhabited
          rcases mem_append.mp leaderIn with early | late
          · exact ⟨leader, early, leads⟩
          · exact absurd (mem_singleton.mp late ▸ leads) outside
        have currentLeads := ih frontDecided frontAhead previous others
        have wins := ahead current (inFront _ currentIn) currentLeads last lastIn outside
        have apart : current ≠ last := fun same => outside (same ▸ currentLeads)
        rw [decided.beaten (inFront _ currentIn) lastIn wins apart] at replaced
        cases replaced
      · rw [if_neg replaced] at chosen
        cases chosen
        by_contra outside
        have others : ¬ ∃ leader ∈ front, leading leader := fun others =>
          outside (ih frontDecided frontAhead previous others)
        obtain ⟨leader, leaderIn, leads⟩ := inhabited
        rcases mem_append.mp leaderIn with early | late
        · exact others ⟨leader, early, leads⟩
        · have isLast := mem_singleton.mp late
          subst isLast
          exact replaced (ahead leader lastIn leads winner (inFront _ currentIn) outside)

end

/-- A set of candidates each of which beats every candidate outside the set. -/
structure Dominant (beats : Candidate → Candidate → Bool) (candidates : List Candidate)
    (leading : Candidate → Prop) : Prop where
  inhabited : ∃ leader ∈ candidates, leading leader
  ahead : ∀ leader ∈ candidates, leading leader → ∀ rival ∈ candidates, ¬ leading rival →
    beats leader rival = true

theorem Dominant.scan (dominant : Dominant beats order leading) (decided : Decided beats order)
    {winner : Candidate} (chosen : Contest.scan beats order = some winner) : leading winner :=
  scan_dominant decided dominant.ahead chosen dominant.inhabited

/-- In every dominant set: the candidates that win in some order. -/
def Top (beats : Candidate → Candidate → Bool) (candidates : List Candidate)
    (x : Candidate) : Prop :=
  ∀ leading, Dominant beats candidates leading → leading x

theorem top_dominant (decided : Decided beats order) (nonempty : order ≠ []) :
    Dominant beats order (Top beats order) := by
  constructor
  · obtain ⟨winner, chosen⟩ := scan_isSome beats nonempty
    exact ⟨winner, scan_mem chosen, fun _ dominant => dominant.scan decided chosen⟩
  · intro leader leaderIn leads rival rivalIn outside
    simp only [Top, not_forall] at outside
    obtain ⟨leading, dominant, behind⟩ := outside
    exact dominant.ahead leader leaderIn (leads leading dominant) rival rivalIn behind

theorem top_wins [DecidableEq Candidate] (decided : Decided beats order) (distinct : order.Nodup)
    {x} (present : x ∈ order) (top : Top beats order x) :
    ∃ arranged, arranged.Perm order ∧ scan beats arranged = some x := by
  induction counted : order.length generalizing order x with
  | zero =>
    rw [length_eq_zero_iff] at counted
    subst counted
    cases present
  | succ size ih =>
    have without := perm_cons_erase present
    by_cases alone : order.erase x = []
    · rw [alone] at without
      exact ⟨[x], without.symm, rfl⟩
    · have part : ∀ y ∈ order.erase x, y ∈ order := fun y => mem_of_mem_erase
      have restDecided := decided.subset part
      have restDistinct := distinct.erase x
      have absent : x ∉ order.erase x := distinct.not_mem_erase
      have dominant := top_dominant restDecided alone
      -- Otherwise the top of the rest would dominate the whole and leave `x` outside.
      have beatsOne : ∃ z ∈ order.erase x, Top beats (order.erase x) z ∧ beats x z = true := by
        by_contra none
        push Not at none
        have whole : Dominant beats order
            (fun y => y ∈ order.erase x ∧ Top beats (order.erase x) y) := by
          constructor
          · obtain ⟨leader, leaderIn, leads⟩ := dominant.inhabited
            exact ⟨leader, part _ leaderIn, leaderIn, leads⟩
          · rintro leader - ⟨leaderIn, leads⟩ rival rivalIn outside
            by_cases isX : rival = x
            · subst isX
              have apart : leader ≠ rival := fun same => absent (same ▸ leaderIn)
              rw [decided leader (part _ leaderIn) rival rivalIn apart]
              simpa using none leader leaderIn leads
            · have rivalRest := (mem_erase_of_ne isX).mpr rivalIn
              exact dominant.ahead leader leaderIn leads rival rivalRest
                fun topRival => outside ⟨rivalRest, topRival⟩
        exact absent (top _ whole).1
      obtain ⟨z, zIn, zTop, wins⟩ := beatsOne
      have smaller : (order.erase x).length = size := by
        rw [length_erase_of_mem present, counted, Nat.add_sub_cancel]
      obtain ⟨arranged, same, chosen⟩ := ih restDecided restDistinct zIn zTop smaller
      refine ⟨arranged ++ [x], ?_, ?_⟩
      · exact (perm_append_singleton x arranged).trans ((same.cons x).trans without.symm)
      · rw [scan_concat, chosen, pick, if_pos wins]

theorem scan_of_beats_all (decided : Decided beats order) {winner} (present : winner ∈ order)
    (wins : ∀ rival ∈ order, rival ≠ winner → beats winner rival = true) :
    scan beats order = some winner := by
  obtain ⟨chosen, found⟩ := scan_isSome beats (ne_nil_of_mem present)
  have alone : Dominant beats order (fun x => x = winner) := by
    refine ⟨⟨winner, present, rfl⟩, ?_⟩
    rintro leader - rfl rival rivalIn apart
    exact wins rival rivalIn apart
  rw [found, alone.scan decided found]

/-! Two rounds: first each group chooses its leader, then the leaders compete. -/
section TwoRounds
variable [DecidableEq Candidate] {grouped : Candidate → Candidate → Bool}

/-- The group of a candidate, in the order of the list. -/
def group (grouped : Candidate → Candidate → Bool) (order : List Candidate) (x : Candidate) :
    List Candidate :=
  order.filter (grouped x)

section
variable (beats grouped : Candidate → Candidate → Bool) (order : List Candidate)

def leads (x : Candidate) : Bool :=
  decide (scan beats (group grouped order x) = some x)

def twoRounds : Option Candidate :=
  scan beats (order.filter (leads beats grouped order))

end

/-- The groups are the classes of an equivalence. -/
structure Grouping (grouped : Candidate → Candidate → Bool) : Prop where
  refl : ∀ x, grouped x x = true
  symm : ∀ {x y}, grouped x y = true → grouped y x = true
  trans : ∀ {x y z}, grouped x y = true → grouped y z = true → grouped x z = true

/-- One candidate beats its whole group, and in every other group a dominant set. -/
def Undisputed (beats grouped : Candidate → Candidate → Bool) (order : List Candidate)
    (winner : Candidate) : Prop :=
  (∀ rival ∈ order, grouped winner rival = true → rival ≠ winner → beats winner rival = true) ∧
  ∀ rival ∈ order, grouped winner rival = false →
    ∃ leading, Dominant beats (group grouped order rival) leading ∧
      ∀ x ∈ group grouped order rival, leading x → beats winner x = true

omit [DecidableEq Candidate] in
theorem mem_group {x y : Candidate} : y ∈ group grouped order x ↔ y ∈ order ∧ grouped x y = true :=
  mem_filter

theorem leads_iff {x} : leads beats grouped order x = true ↔
    scan beats (group grouped order x) = some x :=
  decide_eq_true_iff

omit [DecidableEq Candidate] in
theorem group_perm (grouped : Candidate → Candidate → Bool) (same : order.Perm other)
    (x : Candidate) :
    (group grouped order x).Perm (group grouped other x) :=
  same.filter _

omit [DecidableEq Candidate] in
theorem group_decided (grouped : Candidate → Candidate → Bool) (decided : Decided beats order)
    (x : Candidate) :
    Decided beats (group grouped order x) :=
  decided.subset fun _ member => (mem_group.mp member).1

omit [DecidableEq Candidate] in
theorem Dominant.perm {leading : Candidate → Prop} (dominant : Dominant beats order leading)
    (same : order.Perm other) : Dominant beats other leading := by
  obtain ⟨leader, leaderIn, isLeading⟩ := dominant.inhabited
  refine ⟨⟨leader, same.mem_iff.mp leaderIn, isLeading⟩, ?_⟩
  intro x xIn xLeads y yIn yBehind
  exact dominant.ahead x (same.mem_iff.mpr xIn) xLeads y (same.mem_iff.mpr yIn) yBehind

section
variable (grouping : Grouping grouped)
include grouping

omit [DecidableEq Candidate] in
theorem Grouping.group_eq {x y : Candidate} (same : grouped x y = true) :
    group grouped order x = group grouped order y := by
  apply filter_congr
  intro z _
  exact Bool.eq_iff_iff.mpr ⟨grouping.trans (grouping.symm same), grouping.trans same⟩

theorem Grouping.leader_unique {x y} (same : grouped x y = true)
    (xLeads : leads beats grouped order x = true)
    (yLeads : leads beats grouped order y = true) : x = y := by
  rw [leads_iff] at xLeads yLeads
  rw [grouping.group_eq same, yLeads] at xLeads
  exact (some.inj xLeads).symm

omit [DecidableEq Candidate] in
theorem Grouping.group_rest {first x : Candidate} {rest : List Candidate}
    (separate : grouped first x = false) :
    group grouped (first :: rest) x = group grouped (rest.filter fun y => !grouped first y) x := by
  have notFirst : grouped x first = false := by
    by_contra together
    rw [grouping.symm (by simpa using together)] at separate
    cases separate
  rw [group, group, List.filter_cons, if_neg (by simp [notFirst]), List.filter_filter]
  apply List.filter_congr
  intro y _
  by_cases together : grouped x y = true
  · have outside : grouped first y = false := by
      by_contra inside
      rw [grouping.trans (by simpa using inside) (grouping.symm together)] at separate
      cases separate
    simp [together, outside]
  · simp [together]

theorem Grouping.leads_cons {first best x}
    {rest} (chosen : scan beats (group grouped (first :: rest) first) = some best) :
    (x ∈ first :: rest ∧ leads beats grouped (first :: rest) x = true) ↔
      x = best ∨ (x ∈ rest.filter fun y => !grouped first y) ∧
        leads beats grouped (rest.filter fun y => !grouped first y) x = true := by
  by_cases together : grouped first x = true
  · have outside : x ∉ rest.filter fun y => !grouped first y := by
      simp [together]
    rw [leads_iff, ← grouping.group_eq together, chosen, some.injEq]
    constructor
    · exact fun ⟨_, same⟩ => Or.inl same.symm
    · rintro (rfl | ⟨inside, -⟩)
      · exact ⟨(mem_group.mp (scan_mem chosen)).1, rfl⟩
      · exact absurd inside outside
  · have separate : grouped first x = false := by simpa using together
    have notBest : x ≠ best := by
      rintro rfl
      exact together (mem_group.mp (scan_mem chosen)).2
    have notFirst : x ≠ first := by
      rintro rfl
      exact together (grouping.refl x)
    rw [leads, leads, grouping.group_rest separate]
    simp [notBest, notFirst, separate]

/-- An undisputed candidate is chosen in every order. -/
theorem Undisputed.chosen (decided : Decided beats order)
    {winner} (present : winner ∈ order) (undisputed : Undisputed beats grouped order winner)
    (same : order.Perm other) : twoRounds beats grouped other = some winner := by
  have otherDecided := decided.perm same
  have otherIn := same.mem_iff.mp present
  have winnerLeads : leads beats grouped other winner = true := by
    rw [leads_iff]
    apply scan_of_beats_all (group_decided grouped otherDecided winner)
      (mem_group.mpr ⟨otherIn, grouping.refl winner⟩)
    intro rival rivalIn apart
    obtain ⟨rivalHere, rivalGrouped⟩ := mem_group.mp rivalIn
    exact undisputed.1 rival (same.mem_iff.mpr rivalHere) rivalGrouped apart
  apply scan_of_beats_all (otherDecided.subset fun _ member => (mem_filter.mp member).1)
    (mem_filter.mpr ⟨otherIn, winnerLeads⟩)
  intro rival rivalIn apart
  obtain ⟨rivalHere, rivalLeads⟩ := mem_filter.mp rivalIn
  have separate : grouped winner rival = false := by
    by_contra together
    exact apart (grouping.leader_unique (by simpa using together) winnerLeads rivalLeads).symm
  obtain ⟨leading, dominant, wins⟩ := undisputed.2 rival (same.mem_iff.mpr rivalHere) separate
  have shuffled := group_perm grouped same rival
  have rivalAhead := (dominant.perm shuffled).scan (group_decided grouped otherDecided rival)
    (leads_iff.mp rivalLeads)
  exact wins rival (mem_group.mpr ⟨same.mem_iff.mpr rivalHere, grouping.refl rival⟩) rivalAhead

omit [DecidableEq Candidate] in
/-- Put one group, rearranged, behind all other candidates. -/
theorem Grouping.regroup {x : Candidate} {arranged : List Candidate}
    (same : arranged.Perm (group grouped order x)) :
    let moved := order.filter (fun y => !grouped x y) ++ arranged
    moved.Perm order ∧ (∀ y, grouped x y = true → group grouped moved y = arranged) := by
  intro moved
  have inGroup : ∀ y ∈ arranged, grouped x y = true := fun y member =>
    (mem_group.mp (same.mem_iff.mp member)).2
  refine ⟨?_, ?_⟩
  · exact (List.Perm.append_left _ same).trans
      (List.perm_append_comm.trans (List.filter_append_perm (grouped x) order))
  · intro y together
    rw [← grouping.group_eq together]
    simp only [moved, group, List.filter_append, List.filter_filter]
    have front : order.filter (fun a => grouped x a && !grouped x a) = [] := by
      simp
    rw [front, List.nil_append, List.filter_eq_self]
    exact inGroup

end

theorem Grouping.leader_exists (beats : Candidate → Candidate → Bool) (grouping : Grouping grouped)
    {x} (present : x ∈ order) :
    ∃ leader ∈ order, grouped x leader = true ∧ leads beats grouped order leader = true := by
  have member : x ∈ group grouped order x := mem_group.mpr ⟨present, grouping.refl x⟩
  obtain ⟨leader, chosen⟩ := scan_isSome beats (ne_nil_of_mem member)
  obtain ⟨leaderIn, same⟩ := mem_group.mp (scan_mem chosen)
  refine ⟨leader, leaderIn, same, ?_⟩
  rw [leads_iff, ← grouping.group_eq same]
  exact chosen

theorem Grouping.twoRounds_isSome (beats : Candidate → Candidate → Bool)
    (grouping : Grouping grouped) (nonempty : order ≠ []) :
    ∃ winner, twoRounds beats grouped order = some winner := by
  obtain ⟨x, present⟩ := exists_mem_of_ne_nil order nonempty
  obtain ⟨leader, leaderIn, -, isLeader⟩ := grouping.leader_exists beats present
  exact scan_isSome beats (ne_nil_of_mem (mem_filter.mpr ⟨leaderIn, isLeader⟩))

theorem twoRounds_leads {winner} (chosen : twoRounds beats grouped order = some winner) :
    winner ∈ order ∧ leads beats grouped order winner = true :=
  mem_filter.mp (scan_mem chosen)

variable (grouping : Grouping grouped) (decided : Decided beats order) (distinct : order.Nodup)
include grouping decided distinct

/-- If the choice does not depend on the order, the chosen candidate is undisputed. -/
theorem Grouping.undisputed {winner}
    (always : ∀ arranged, arranged.Perm order → twoRounds beats grouped arranged = some winner) :
    Undisputed beats grouped order winner := by
  obtain ⟨present, -⟩ := twoRounds_leads (always order (Perm.refl order))
  have winnerGroup : winner ∈ group grouped order winner :=
    mem_group.mpr ⟨present, grouping.refl winner⟩
  constructor
  · intro rival rivalIn together apart
    have dominant := top_dominant (group_decided grouped decided winner)
      (ne_nil_of_mem winnerGroup)
    -- Any other top member could be made the leader, and then `winner` is not chosen.
    have onlyTop : ∀ x ∈ group grouped order winner,
        Top beats (group grouped order winner) x → x = winner := by
      intro x xIn xTop
      obtain ⟨arranged, same, chosen⟩ := top_wins (group_decided grouped decided winner)
        (distinct.filter _) xIn xTop
      obtain ⟨shuffled, regrouped⟩ := grouping.regroup same
      obtain ⟨-, winnerLeads⟩ := twoRounds_leads (always _ shuffled)
      rw [leads_iff, regrouped winner (grouping.refl winner), chosen] at winnerLeads
      exact some.inj winnerLeads
    obtain ⟨leader, leaderIn, leaderTop⟩ := dominant.inhabited
    have isWinner := onlyTop leader leaderIn leaderTop
    subst isWinner
    apply dominant.ahead leader leaderIn leaderTop rival (mem_group.mpr ⟨rivalIn, together⟩)
    exact fun rivalTop => apart (onlyTop rival (mem_group.mpr ⟨rivalIn, together⟩) rivalTop)
  · intro rival rivalIn separate
    have rivalGroup : rival ∈ group grouped order rival :=
      mem_group.mpr ⟨rivalIn, grouping.refl rival⟩
    refine ⟨Top beats (group grouped order rival),
      top_dominant (group_decided grouped decided rival) (ne_nil_of_mem rivalGroup), ?_⟩
    intro x xIn xTop
    by_contra loses
    obtain ⟨xHere, xGrouped⟩ := mem_group.mp xIn
    have xApart : winner ≠ x := by
      rintro rfl
      rw [grouping.symm xGrouped] at separate
      cases separate
    obtain ⟨arranged, same, chosen⟩ := top_wins (group_decided grouped decided rival)
      (distinct.filter _) xIn xTop
    obtain ⟨shuffled, regrouped⟩ := grouping.regroup same
    have picked := always _ shuffled
    have onlyX : ∀ y ∈ arranged, leads beats grouped
        (order.filter (fun y => !grouped rival y) ++ arranged) y = decide (y = x) := by
      intro y yIn
      have yGrouped := (mem_group.mp (same.mem_iff.mp yIn)).2
      rw [leads, regrouped y yGrouped, chosen]
      exact decide_eq_decide.mpr ⟨fun equal => (some.inj equal).symm, fun equal => equal ▸ rfl⟩
    have last : arranged.filter (leads beats grouped
        (order.filter (fun y => !grouped rival y) ++ arranged)) = [x] := by
      have arrangedDistinct : arranged.Nodup := same.nodup_iff.mpr (distinct.filter _)
      have xArranged : x ∈ arranged := same.mem_iff.mpr xIn
      rw [filter_congr onlyX, filter_eq, count_eq_one_of_mem arrangedDistinct xArranged]
      rfl
    rw [twoRounds, filter_append, last, scan_concat] at picked
    cases previous :
        scan beats ((order.filter fun y => !grouped rival y).filter (leads beats grouped
        (order.filter (fun y => !grouped rival y) ++ arranged))) with
    | none =>
      rw [previous] at picked
      exact xApart (some.inj picked).symm
    | some current =>
      rw [previous, pick] at picked
      split at picked
      · exact xApart (some.inj picked).symm
      · rename_i kept
        cases picked
        rw [decided x xHere winner present xApart.symm] at kept
        exact loses (by simpa using kept)

/-- The choice is independent of the order exactly when some candidate is undisputed. -/
theorem Grouping.order_independent_iff : (∀ arranged, arranged.Perm order →
      twoRounds beats grouped arranged = twoRounds beats grouped order) ↔
    order = [] ∨ ∃ winner ∈ order, Undisputed beats grouped order winner := by
  constructor
  · intro always
    by_cases empty : order = []
    · exact Or.inl empty
    · obtain ⟨winner, chosen⟩ := grouping.twoRounds_isSome beats empty
      refine Or.inr ⟨winner, (twoRounds_leads chosen).1, ?_⟩
      exact grouping.undisputed decided distinct fun arranged same =>
        (always arranged same).trans chosen
  · rintro (rfl | ⟨winner, present, undisputed⟩) arranged same
    · rw [same.eq_nil]
    · rw [undisputed.chosen grouping decided present same.symm,
        undisputed.chosen grouping decided present (Perm.refl order)]

end TwoRounds

end Zebra.Base.Contest
