import Zebra.Lib.Routemap

namespace Zebra
open List RouteMapIndex RouteMap
variable {Object : Type} {p : Prefix} {map : RouteMap Object} {cmds : RouteMapCmds Object}

namespace RouteMapIndex
variable {index : RouteMapIndex Object} {object : Object}

def Matches (index : RouteMapIndex Object) (p : Prefix) (object : Object) : Prop :=
  ∀ rule ∈ index.matchList, rule.apply p object = true

/-- The match rules disagree. -/
def Mixed (index : RouteMapIndex Object) (p : Prefix) (object : Object) : Prop :=
  (∃ rule ∈ index.matchList, rule.apply p object = true) ∧
    ∃ rule ∈ index.matchList, rule.apply p object = false

theorem tryMatch_cases (rules : List (MatchRule Object)) :
    (tryMatch p object rules = .rmapMatch ∧ ∃ rule ∈ rules, rule.apply p object = true) ∨
      (tryMatch p object rules = .rmapNomatch ∧ ∀ rule ∈ rules, rule.apply p object = false) := by
  induction rules with
  | nil => exact .inr ⟨rfl, by simp⟩
  | cons rule rest ih =>
    rw [tryMatch]
    cases said : rule.apply p object with
    | true => exact .inl ⟨rfl, rule, by simp, said⟩
    | false =>
      rcases ih with ⟨result, other, member, yes⟩ | ⟨result, none⟩
      · exact .inl ⟨result, other, .tail _ member, yes⟩
      · exact .inr ⟨result, by simpa [said] using none⟩

theorem matchResult_cases (index : RouteMapIndex Object) (p : Prefix) (object : Object) :
    (index.matchResult p object = .rmapMatch ∧
      (index.matchList = [] ∨ ∃ rule ∈ index.matchList, rule.apply p object = true)) ∨
    (index.matchResult p object = .rmapNomatch ∧ index.matchList ≠ [] ∧
      ∀ rule ∈ index.matchList, rule.apply p object = false) := by
  rw [matchResult]
  by_cases bare : index.matchList = []
  · rw [if_pos (by simp [bare])]
    exact .inl ⟨rfl, .inl bare⟩
  · rw [if_neg (by simpa using bare)]
    rcases tryMatch_cases index.matchList with ⟨result, yes⟩ | ⟨result, no⟩
    · exact .inl ⟨result, .inr yes⟩
    · exact .inr ⟨result, bare, no⟩

section
variable (all : index.Matches p object)
include all

theorem matchResult_of_matches : index.matchResult p object = .rmapMatch := by
  rcases matchResult_cases index p object with ⟨result, _⟩ | ⟨_, bare, no⟩
  · exact result
  · obtain ⟨rule, member⟩ := exists_mem_of_ne_nil _ bare
    have yes := all rule member
    rw [no rule member] at yes
    cases yes

theorem applyIndex_deny (deny : index.type = .deny) :
    index.routeMapApplyIndex p object = (.rmapDenymatch, object) := by
  rw [routeMapApplyIndex, matchResult_of_matches all, deny]
  rfl

theorem applyIndex_permit (permit : index.type = .permit) :
    index.routeMapApplyIndex p object = (.rmapMatch, index.applySets p object) := by
  rw [routeMapApplyIndex, matchResult_of_matches all, permit]
  rfl

end

theorem matchResult_of_not_matches (unmixed : ¬ index.Mixed p object)
    (fails : ¬ index.Matches p object) :
    index.matchResult p object = .rmapNomatch := by
  rcases matchResult_cases index p object with ⟨_, bare | yes⟩ | ⟨result, _⟩
  · exact absurd (by simp [Matches, bare]) fails
  · refine absurd ⟨yes, ?_⟩ unmixed
    simpa [Matches] using fails
  · exact result

theorem applyIndex_pass (unmixed : ¬ index.Mixed p object) (fails : ¬ index.Matches p object) :
    index.routeMapApplyIndex p object = (.rmapNomatch, object) := by
  rw [routeMapApplyIndex, matchResult_of_not_matches unmixed fails]
  rfl

/-- The source's own test of an index. -/
def Passed (index : RouteMapIndex Object) (p : Prefix) (object : Object) : Prop :=
  (index.routeMapApplyIndex p object).1 ≠ .rmapNomatch

theorem passed_iff : index.Passed p object ↔ index.matchResult p object = .rmapMatch := by
  rw [Passed, routeMapApplyIndex]
  rcases matchResult_cases index p object with ⟨result, _⟩ | ⟨result, _⟩
  · rw [result]
    cases index.type <;> simp
  · rw [result]
    simp

/-- The test of an index is the conjunction of its rules exactly when they agree. -/
theorem passed_iff_matches : (index.Passed p object ↔ index.Matches p object) ↔
    ¬ index.Mixed p object := by
  rw [passed_iff]
  constructor
  · rintro same ⟨⟨rule, member, yes⟩, other, found, no⟩
    have passed : index.matchResult p object = .rmapMatch := by
      rcases matchResult_cases index p object with ⟨result, _⟩ | ⟨_, _, none⟩
      · exact result
      · rw [none rule member] at yes
        cases yes
    rw [same.mp passed other found] at no
    cases no
  · intro unmixed
    refine ⟨fun result => ?_, matchResult_of_matches⟩
    by_contra fails
    rw [matchResult_of_not_matches unmixed fails] at result
    cases result

end RouteMapIndex

/-- How a walk comes to its end: at a deny, at a permit, by a jump past the last index, or at the
end of the map, with a permit among the indexes that matched or with none. -/
inductive WalkEnd where
  | deny
  | exit
  | jumped
  | ended (permitted : Bool)
deriving DecidableEq

/-- The last index that matched was a permit. -/
def WalkEnd.accepted : WalkEnd → Bool
  | .deny => false
  | .exit => true
  | .jumped => true
  | .ended permitted => permitted

/-- The first index with at least this preference, and what follows it. -/
def atLeast (map : RouteMap Object) (pref : Nat) : RouteMap Object :=
  map.dropWhile fun index => index.pref < pref

/-- The matrix. From an index on, with an object and a note whether a permit matched before, the
walk looks at each index with the object as it is then, and ends with an object. -/
inductive MatrixWalk (map : RouteMap Object) (p : Prefix) :
    RouteMap Object → Bool → Object → List (RouteMapIndex Object × Object) → WalkEnd →
    Object → Prop where
  | ended {permitted : Bool} {object : Object} :
    MatrixWalk map p [] permitted object [] (.ended permitted) object
  | pass {index : RouteMapIndex Object} {rest : RouteMap Object} {permitted : Bool}
      {object last : Object}
      {visits : List (RouteMapIndex Object × Object)} {ending : WalkEnd} :
      ¬ index.Matches p object → MatrixWalk map p rest permitted object visits ending last →
      MatrixWalk map p (index :: rest) permitted object ((index, object) :: visits) ending last
  | deny {index : RouteMapIndex Object} {rest : RouteMap Object} {permitted : Bool}
      {object : Object} :
      index.Matches p object → index.type = .deny →
      MatrixWalk map p (index :: rest) permitted object [(index, object)] .deny object
  | exit {index : RouteMapIndex Object} {rest : RouteMap Object} {permitted : Bool}
      {object : Object} :
      index.Matches p object → index.type = .permit → index.exitpolicy = .rmapExit →
      MatrixWalk map p (index :: rest) permitted object [(index, object)] .exit
        (index.applySets p object)
  | next {index : RouteMapIndex Object} {rest : RouteMap Object} {permitted : Bool}
      {object last : Object}
      {visits : List (RouteMapIndex Object × Object)} {ending : WalkEnd} :
      index.Matches p object → index.type = .permit → index.exitpolicy = .rmapNext →
      MatrixWalk map p rest true (index.applySets p object) visits ending last →
      MatrixWalk map p (index :: rest) permitted object ((index, object) :: visits) ending last
  | jump {index : RouteMapIndex Object} {rest : RouteMap Object} {permitted : Bool}
      {object last : Object}
      {visits : List (RouteMapIndex Object × Object)} {ending : WalkEnd} :
      index.Matches p object → index.type = .permit → index.exitpolicy = .rmapGoto →
      atLeast map index.nextpref ≠ [] →
      MatrixWalk map p (atLeast map index.nextpref) true
        (index.applySets p object) visits ending last →
      MatrixWalk map p (index :: rest) permitted object ((index, object) :: visits) ending last
  | jumped {index : RouteMapIndex Object} {rest : RouteMap Object} {permitted : Bool}
      {object : Object} :
      index.Matches p object → index.type = .permit → index.exitpolicy = .rmapGoto →
      atLeast map index.nextpref = [] →
      MatrixWalk map p (index :: rest) permitted object [(index, object)] .jumped
        (index.applySets p object)

/-- Preferences go up, and jumps go forward. -/
structure RouteMap.Sorted (map : RouteMap Object) : Prop where
  ordered : map.Pairwise fun first second => first.pref < second.pref
  forward : ∀ index ∈ map, index.exitpolicy = .rmapGoto → index.pref < index.nextpref

namespace RouteMap.Sorted

theorem mem_indexAdd {index other} : other ∈ routeMapIndexAdd index map ↔
    other = index ∨ other ∈ map := by
  induction map with
  | nil => simp [routeMapIndexAdd]
  | cons point rest ih =>
    rw [routeMapIndexAdd]
    split
    · simp
    · simp only [mem_cons, ih]
      tauto

theorem lookup_none {pref} (missing : routeMapIndexLookup map none pref = none) :
    ∀ other ∈ map, other.pref ≠ pref := by
  intro other member same
  have no := find?_eq_none.mp missing other member
  simp [same] at no

theorem command_pref (index : RouteMapIndex Object) (command : IndexCommand) :
    (index.command cmds command).pref = index.pref := by
  cases command <;> rw [RouteMapIndex.command]
  split <;> rfl

theorem command_forward {index : RouteMapIndex Object}
    (forward : index.exitpolicy = .rmapGoto → index.pref < index.nextpref)
    (command : IndexCommand) :
    (index.command cmds command).exitpolicy = .rmapGoto →
      (index.command cmds command).pref < (index.command cmds command).nextpref := by
  cases command with
  | rmapContinue => intro goto; cases goto
  | noRmapContinue => intro goto; cases goto
  | rmapContinueSeq d =>
    rw [RouteMapIndex.command]
    split
    · exact forward
    · rename_i above
      exact fun _ => Nat.lt_of_not_le above
  | addMatch name arg => exact forward
  | deleteMatch name arg => exact forward
  | addSet name arg => exact forward
  | deleteSet name arg => exact forward

section
variable (sorted : Sorted map)
include sorted

theorem add {index} (fresh : ∀ other ∈ map, other.pref ≠ index.pref)
    (stops : index.exitpolicy = .rmapExit) : Sorted (routeMapIndexAdd index map) := by
  refine ⟨?_, ?_⟩
  · obtain ⟨ordered, -⟩ := sorted
    induction map with
    | nil => simp [routeMapIndexAdd]
    | cons point rest ih =>
      obtain ⟨below, later⟩ := pairwise_cons.mp ordered
      have apart := fresh point (by simp)
      rw [routeMapIndexAdd]
      split
      · refine pairwise_cons.mpr ⟨?_, ordered⟩
        intro other member
        rcases mem_cons.mp member with rfl | member
        · omega
        · have := below other member
          omega
      · refine pairwise_cons.mpr ⟨?_, ih (fun other member => fresh other (by simp [member])) later⟩
        intro other member
        rcases mem_indexAdd.mp member with rfl | member
        · omega
        · exact below other member
  · intro other member goto
    rcases mem_indexAdd.mp member with rfl | member
    · rw [stops] at goto
      cases goto
    · exact sorted.forward other member goto

theorem sublist {less} (part : less.Sublist map) : Sorted less :=
  ⟨sorted.ordered.sublist part, fun index member => sorted.forward index (part.subset member)⟩

theorem delete (pref : Nat) : Sorted (routeMapIndexDelete map pref) :=
  sorted.sublist eraseP_sublist

/-- Preferences are unique, so that the deletion takes away the only index with its own. -/
theorem delete_apart {pref other} (kept : other ∈ routeMapIndexDelete map pref) :
    other.pref ≠ pref := by
  obtain ⟨ordered, -⟩ := sorted
  induction map with
  | nil => cases kept
  | cons point rest ih =>
    obtain ⟨below, later⟩ := pairwise_cons.mp ordered
    rw [routeMapIndexDelete] at kept
    by_cases here : point.pref = pref
    · rw [eraseP_cons_of_pos (by simpa using here)] at kept
      have := below other kept
      omega
    · rw [eraseP_cons_of_neg (by simpa using here)] at kept
      rcases mem_cons.mp kept with rfl | kept
      · exact here
      · exact ih kept later

theorem get (type : RouteMapType) (pref : Nat) : Sorted (routeMapIndexGet map type pref) := by
  rw [routeMapIndexGet]
  split
  · split
    · exact sorted
    · exact (sorted.delete pref).add (fun other kept => sorted.delete_apart kept) rfl
  · rename_i missing
    exact sorted.add (lookup_none missing) rfl

theorem under (pref : Nat) (command : IndexCommand) :
    Sorted (RouteMap.command cmds map (.under pref command)) := by
  refine ⟨?_, ?_⟩
  · refine pairwise_map.mpr (sorted.ordered.imp fun {first second} less => ?_)
    have same (index : RouteMapIndex Object) :
        (if index.pref = pref then index.command cmds command else index).pref = index.pref := by
      split
      · exact command_pref index command
      · rfl
    rw [same, same]
    exact less
  · intro other member
    obtain ⟨index, found, rfl⟩ := mem_map.mp member
    have forward := sorted.forward index found
    split
    · exact command_forward forward command
    · exact forward

theorem command (command : MapCommand) : Sorted (RouteMap.command cmds map command) := by
  cases command with
  | routeMap type pref =>
    rw [RouteMap.command]
    split
    · exact sorted
    · exact sorted.get type pref
  | noRouteMap type pref =>
    rw [RouteMap.command]
    split
    · exact sorted
    · split
      · exact sorted
      · exact sorted.delete _
  | noRouteMapAll => exact ⟨.nil, nofun⟩
  | under pref command => exact sorted.under pref command

end
end RouteMap.Sorted

theorem RouteMap.Built.sorted (built : Built cmds map) : map.Sorted := by
  induction built with
  | empty => exact ⟨.nil, nofun⟩
  | command command _ ih => exact ih.command command

/-- Each entry below the preference that a jump passes over, but the last, has a `continue` above
the next one's, and the last one has none above that of the entry it comes to. -/
def PassesPlainly (pref : Nat) : RouteMap Object → Prop
  | first :: second :: rest =>
    first.pref < pref →
      if second.pref < pref then second.pref < first.nextpref ∧ PassesPlainly pref (second :: rest)
      else first.nextpref ≤ second.pref
  | _ => True

/-- The source finds the first entry with the preference when the entries before it are passed over
  plainly. -/
theorem skipBelow_eq_dropWhile_iff (pref : Nat) (rest : RouteMap Object) :
    skipBelow pref rest = rest.dropWhile (fun index => index.pref < pref) ↔
    PassesPlainly pref rest := by
  induction rest with
  | nil => simp [skipBelow, PassesPlainly]
  | cons first rest ih =>
    rw [skipBelow, dropWhile_cons]
    by_cases below : first.pref < pref
    · rw [if_pos below, if_pos (by simpa using below)]
      cases rest with
      | nil => simp [skipBelow, PassesPlainly]
      | cons second rest =>
        have shorter :
            (rest.dropWhile fun index => index.pref < pref).length < (second :: rest).length :=
          Nat.lt_succ_of_le (dropWhile_suffix _).length_le
        have passed : (skipBelow second.nextpref rest).length < (second :: rest).length :=
          Nat.lt_succ_of_le (length_skipBelow_le ..)
        rw [PassesPlainly, imp_iff_right below]
        rw [skipBelow, dropWhile_cons] at ih ⊢
        by_cases meets : second.pref < first.nextpref <;> by_cases later : second.pref < pref
        · simpa [meets, later] using ih
        · -- the search goes past the entry
          simp only [meets, later, decide_false, if_true, if_false, Bool.false_eq_true]
          exact iff_of_false (fun same => absurd (congrArg length same) (ne_of_lt passed))
            (Nat.not_le.mpr meets)
        · -- the search stops at an entry that is still below
          simp only [meets, later, decide_true, if_true, if_false, false_and]
          exact iff_of_false (fun same => absurd (congrArg length same).symm (ne_of_lt shorter)) id
        · simpa [meets, later] using Nat.le_of_not_lt meets
    · rw [if_neg below, if_neg (by simpa using below)]
      cases rest <;> simp [PassesPlainly, below]

/-- What `route_map_apply` returns at the end of a walk. -/
def WalkEnd.returned : WalkEnd → RouteMapResult
  | .deny => .rmapDenymatch
  | .exit => .rmapMatch
  | .jumped => .rmapMatch
  | .ended _ => .rmapDenymatch

/-- The entries after one of them. -/
def after (map : RouteMap Object) (index : RouteMapIndex Object) : RouteMap Object :=
  atLeast map (index.pref + 1)

/-- The walk jumps from an entry that it looks at. -/
def Jumps (p : Prefix) (visit : RouteMapIndex Object × Object) : Prop :=
  visit.1.Matches p visit.2 ∧ visit.1.type = .permit ∧ visit.1.exitpolicy = .rmapGoto

/-- The source goes by the matrix on this route: it takes an index to match when all its rules do,
its search comes to the first index with the preference of a jump, and it returns what the walk
says, with the object that the walk ends with. -/
def FollowsMatrix (map : RouteMap Object) (p : Prefix) (object : Object) : Prop :=
  ∃ visits ending last, MatrixWalk map p map false object visits ending last ∧
    (∀ visit ∈ visits, (visit.1.Passed p visit.2 ↔ visit.1.Matches p visit.2)) ∧
    (∀ visit ∈ visits, Jumps p visit →
      skipBelow visit.1.nextpref (after map visit.1) = atLeast map visit.1.nextpref) ∧
    routeMapApply (some map) p object =
      (if ending.accepted then .rmapMatch else .rmapDenymatch, last)

/-- No index that the walk looks at has rules that disagree, its jumps pass over entries plainly,
and the walk does not come to the end of the map after a permit. -/
def WalksPlainly (map : RouteMap Object) (p : Prefix) (object : Object) : Prop :=
  ∃ visits ending last, MatrixWalk map p map false object visits ending last ∧
    (∀ visit ∈ visits, ¬ visit.1.Mixed p visit.2) ∧
    (∀ visit ∈ visits, Jumps p visit → PassesPlainly visit.1.nextpref (after map visit.1)) ∧
      ending ≠ .ended true

theorem WalkEnd.returned_eq_iff (ending : WalkEnd) :
    ending.returned = (if ending.accepted then .rmapMatch else .rmapDenymatch) ↔
    ending ≠ .ended true := by
  cases ending with
  | ended permitted => cases permitted <;> decide
  | _ => decide

section
variable (sorted : map.Sorted)
include sorted

/-- What follows an index are the entries of a higher preference. -/
theorem RouteMap.Sorted.after_eq {index rest} (position : index :: rest <:+ map) :
    after map index = rest := by
  obtain ⟨before, rfl⟩ := position
  have split : before ++ index :: rest = (before ++ [index]) ++ rest := by simp
  have ordered := pairwise_append.mp sorted.ordered
  rw [after, atLeast, split, dropWhile_append_of_pos]
  · cases rest with
    | nil => rfl
    | cons next rest =>
      have above := (pairwise_cons.mp ordered.2.1).1 next mem_cons_self
      exact dropWhile_cons_of_neg (by simpa using Nat.succ_le_of_lt above)
  · intro other member
    rw [decide_eq_true_eq, Nat.lt_succ_iff]
    rcases mem_append.mp member with earlier | last
    · exact Nat.le_of_lt (ordered.2.2 other earlier index mem_cons_self)
    · rw [mem_singleton.mp last]

/-- The source looks for the clause to jump to among the later ones only; in a sorted map that is
where it is. -/
theorem RouteMap.Sorted.atLeast_eq {index rest}
    (position : index :: rest <:+ map) (goto : index.exitpolicy = .rmapGoto) :
    atLeast map index.nextpref = rest.dropWhile fun other => other.pref < index.nextpref := by
  obtain ⟨before, rfl⟩ := position
  have forward := sorted.forward index (by simp) goto
  have split : before ++ index :: rest = (before ++ [index]) ++ rest := by simp
  rw [atLeast, split, dropWhile_append_of_pos]
  intro other member
  rw [decide_eq_true_eq]
  rcases mem_append.mp member with earlier | last
  · have less := (pairwise_append.mp sorted.ordered).2.2 other earlier index (by simp)
    omega
  · rw [mem_singleton.mp last]
    exact forward

theorem RouteMap.Sorted.skipBelow_iff {index} (member : index ∈ map)
    (goto : index.exitpolicy = .rmapGoto) :
    skipBelow index.nextpref (after map index) = atLeast map index.nextpref ↔
      PassesPlainly index.nextpref (after map index) := by
  obtain ⟨before, rest, split⟩ := append_of_mem member
  have position : index :: rest <:+ map := ⟨before, split.symm⟩
  rw [sorted.after_eq position, sorted.atLeast_eq position goto]
  exact skipBelow_eq_dropWhile_iff ..

theorem RouteMap.Sorted.walk_exists (p : Prefix) (bound : Nat) :
    ∀ rest permitted object, rest.length < bound → rest <:+ map →
      ∃ visits ending last, MatrixWalk map p rest permitted object visits ending last := by
  -- on the number of indexes left: every step leaves fewer
  induction bound with
  | zero => exact fun _ _ _ short _ => nomatch short
  | succ bound ih =>
    intro rest permitted object short position
    cases rest with
    | nil => exact ⟨_, _, _, .ended⟩
    | cons index rest =>
      have fewer : rest.length < bound := Nat.lt_of_succ_lt_succ short
      have later : rest <:+ map := (suffix_cons index rest).trans position
      by_cases all : index.Matches p object
      · cases type : index.type with
        | deny => exact ⟨_, _, _, .deny all type⟩
        | permit =>
          cases policy : index.exitpolicy with
          | rmapExit => exact ⟨_, _, _, .exit all type policy⟩
          | rmapNext =>
            obtain ⟨visits, ending, last, walk⟩ :=
              ih rest true (index.applySets p object) fewer later
            exact ⟨_, _, _, .next all type policy walk⟩
          | rmapGoto =>
            by_cases out : atLeast map index.nextpref = []
            · exact ⟨_, _, _, .jumped all type policy out⟩
            · have place := sorted.atLeast_eq position policy
              obtain ⟨visits, ending, last, walk⟩ :=
                ih (atLeast map index.nextpref) true (index.applySets p object)
                (by rw [place]; exact lt_of_le_of_lt (dropWhile_suffix _).length_le fewer)
                (dropWhile_suffix _)
              exact ⟨_, _, _, .jump all type policy out walk⟩
      · obtain ⟨visits, ending, last, walk⟩ := ih rest permitted object fewer later
        exact ⟨_, _, _, .pass all walk⟩

/-- Where the rules of no index disagree and the jumps come to the right place, the source walks as
the matrix says. -/
theorem MatrixWalk.apply {rest permitted object last} {visits ending}
    (walk : MatrixWalk map p rest permitted object visits ending last) (position : rest <:+ map)
    (unmixed : ∀ visit ∈ visits, ¬ visit.1.Mixed p visit.2)
    (jumps : ∀ visit ∈ visits, Jumps p visit →
      skipBelow visit.1.nextpref (after map visit.1) = atLeast map visit.1.nextpref) :
    applyFrom p rest object = (ending.returned, last) := by
  induction walk with
  | ended => rw [applyFrom]; rfl
  | @pass index rest _ object _ _ _ fails _ ih =>
    rw [applyFrom, RouteMapIndex.applyIndex_pass (unmixed (index, object) (by simp)) fails]
    exact ih ((suffix_cons index rest).trans position)
      (fun visit member => unmixed visit (by simp [member]))
      fun visit member => jumps visit (by simp [member])
  | deny all type => rw [applyFrom, RouteMapIndex.applyIndex_deny all type]; rfl
  | exit all type policy => rw [applyFrom, RouteMapIndex.applyIndex_permit all type, policy]; rfl
  | @next index rest _ _ _ _ _ all type policy _ ih =>
    rw [applyFrom, RouteMapIndex.applyIndex_permit all type, policy]
    exact ih ((suffix_cons index rest).trans position)
      (fun visit member => unmixed visit (by simp [member]))
      fun visit member => jumps visit (by simp [member])
  | jump all type policy place _ ih =>
    have same := jumps _ mem_cons_self ⟨all, type, policy⟩
    rw [sorted.after_eq position] at same
    have further := ih (dropWhile_suffix _) (fun visit member => unmixed visit (by simp [member]))
      fun visit member => jumps visit (by simp [member])
    rw [← same] at place further
    rw [applyFrom, RouteMapIndex.applyIndex_permit all type, policy]
    simp only [List.isEmpty_iff, if_neg place]
    exact further
  | jumped all type policy place =>
    have same := jumps _ mem_cons_self ⟨all, type, policy⟩
    rw [sorted.after_eq position] at same
    rw [← same] at place
    rw [applyFrom, RouteMapIndex.applyIndex_permit all type, policy]
    simp only [List.isEmpty_iff, if_pos place]
    rfl

omit sorted in
theorem MatrixWalk.visited {rest permitted object last} {visits ending}
    (walk : MatrixWalk map p rest permitted object visits ending last) (position : rest <:+ map) :
    ∀ visit ∈ visits, visit.1 ∈ map := by
  have later {index} {rest : RouteMap Object} (position : index :: rest <:+ map) :
      index ∈ map ∧ rest <:+ map :=
    ⟨position.subset mem_cons_self, (suffix_cons index rest).trans position⟩
  induction walk with
  | ended => nofun
  | pass _ _ ih | next _ _ _ _ ih =>
    exact forall_mem_cons.mpr ⟨(later position).1, ih (later position).2⟩
  | deny | exit | jumped => exact forall_mem_cons.mpr ⟨(later position).1, nofun⟩
  | jump _ _ _ _ _ ih => exact forall_mem_cons.mpr ⟨(later position).1, ih (dropWhile_suffix _)⟩

theorem followsMatrix_iff (object : Object) :
    FollowsMatrix map p object ↔ WalksPlainly map p object := by
  constructor
  · rintro ⟨visits, ending, last, walk, tests, jumps, applied⟩
    have unmixed (visit) (member : visit ∈ visits) := passed_iff_matches.mp (tests visit member)
    refine ⟨visits, ending, last, walk, unmixed, fun visit member jump => ?_, ?_⟩
    · exact (sorted.skipBelow_iff (walk.visited (suffix_refl map) visit member) jump.2.2).mp
        (jumps visit member jump)
    · rw [routeMapApply, walk.apply sorted (suffix_refl map) unmixed jumps] at applied
      exact ending.returned_eq_iff.mp (Prod.mk.inj applied).1
  · rintro ⟨visits, ending, last, walk, unmixed, passes, plain⟩
    have jumps (visit) (member : visit ∈ visits) (jump : Jumps p visit) :=
      (sorted.skipBelow_iff (walk.visited (suffix_refl map) visit member) jump.2.2).mpr
        (passes visit member jump)
    refine ⟨visits, ending, last, walk, fun visit member =>
      passed_iff_matches.mpr (unmixed visit member), jumps, ?_⟩
    rw [routeMapApply, walk.apply sorted (suffix_refl map) unmixed jumps,
      ending.returned_eq_iff.mpr plain]

end

theorem MatrixWalk.unique {rest permitted object last other} {visits visits' ending ending'}
    (first : MatrixWalk map p rest permitted object visits ending last)
    (second : MatrixWalk map p rest permitted object visits' ending' other) :
    visits = visits' ∧ ending = ending' ∧ last = other := by
  induction first generalizing visits' ending' other with
  | ended => cases second; exact ⟨rfl, rfl, rfl⟩
  | pass fails _ ih =>
    cases second with
    | pass _ walk =>
      obtain ⟨rfl, rfl, rfl⟩ := ih walk
      exact ⟨rfl, rfl, rfl⟩
    | _ => contradiction
  | deny all type => cases second <;> first | contradiction | exact ⟨rfl, rfl, rfl⟩ | simp_all
  | exit all type policy =>
    cases second <;> first | contradiction | exact ⟨rfl, rfl, rfl⟩ | simp_all
  | next all type policy _ ih =>
    cases second with
    | next _ _ _ walk =>
      obtain ⟨rfl, rfl, rfl⟩ := ih walk
      exact ⟨rfl, rfl, rfl⟩
    | _ => simp_all
  | jump all type policy place _ ih =>
    cases second with
    | jump _ _ _ _ walk =>
      obtain ⟨rfl, rfl, rfl⟩ := ih walk
      exact ⟨rfl, rfl, rfl⟩
    | _ => simp_all
  | jumped all type policy place =>
    cases second <;> first | contradiction | exact ⟨rfl, rfl, rfl⟩ | simp_all

/-- Every map that can be configured has one walk for every route, and `route_map_apply` follows it
exactly when no index on the way has rules that disagree, its jumps pass over entries plainly and
the walk does not come to the end of the map after a permit. -/
theorem route_map_follows_matrix (built : Built cmds map) (p : Prefix) (object : Object) :
    (∃ visits ending last, MatrixWalk map p map false object visits ending last ∧
      ∀ visits' ending' last', MatrixWalk map p map false object visits' ending' last' →
        visits = visits' ∧ ending = ending' ∧ last = last') ∧
    (FollowsMatrix map p object ↔ WalksPlainly map p object) := by
  refine ⟨?_, followsMatrix_iff built.sorted object⟩
  obtain ⟨visits, ending, last, walk⟩ :=
    built.sorted.walk_exists p _ map false object (Nat.lt_succ_self _) (suffix_refl map)
  exact ⟨visits, ending, last, walk, fun _ _ _ other => walk.unique other⟩

/-! A daemon whose objects are metrics. -/

def sampleCmds : RouteMapCmds Nat where
  routeMatchVec :=
    [⟨"metric", fun _ => some fun _ metric => metric = 20⟩, ⟨"any", fun _ => some fun _ _ => true⟩]
  routeSetVec := [⟨"metric", fun _ => some fun _ _ => 5⟩]

theorem sampleNet_fits : 8 ≤ 8 * Family.inet.bytelen := by decide

theorem sampleNet_size :
    (#[10, 0, 0, 0, 0, 0, 0, 0, 0, 0, 0, 0, 0, 0, 0, 0] : Array Base.Octet).size = 16 := rfl

def sampleNet : Prefix :=
  ⟨.inet, 8, ⟨#[10, 0, 0, 0, 0, 0, 0, 0, 0, 0, 0, 0, 0, 0, 0, 0], sampleNet_size⟩, sampleNet_fits⟩

theorem RouteMap.Built.run (commands : List MapCommand) (built : Built cmds map) :
    Built cmds (commands.foldl (RouteMap.command cmds) map) := by
  induction commands generalizing map with
  | nil => exact built
  | cons command rest ih => exact ih (.command command built)

/-- `route-map M permit 10`, `match any`, `set metric`, `continue 30`; `route-map M deny 20`;
`route-map M permit 30`, `match metric`; `route-map M permit 40`. -/
def passing : RouteMap Nat :=
  [{ pref := 10, type := .permit, exitpolicy := .rmapGoto, nextpref := 30
     matchList := [⟨"any", none, fun _ _ => true⟩], setList := [⟨"metric", none, fun _ _ => 5⟩] },
    { pref := 20, type := .deny },
    { pref := 30, type := .permit, matchList := [⟨"metric", none, fun _ metric => metric = 20⟩] },
    { pref := 40, type := .permit }]

theorem passing_built : Built sampleCmds passing :=
  RouteMap.Built.empty.run [.routeMap .permit 40, .routeMap .permit 10,
    .under 10 (.addMatch "any" none),
    .under 10 (.addSet "metric" none), .under 10 (.rmapContinueSeq 30), .routeMap .deny 20,
      .routeMap .permit 30,
    .under 30 (.addMatch "metric" none)]

/-- The walk passes over the deny, and ends at the last entry. -/
theorem passing_follows : FollowsMatrix passing sampleNet 7 := by
  refine (route_map_follows_matrix passing_built sampleNet 7).2.mpr
    ⟨_, _, _, .jump (by simp [RouteMapIndex.Matches]) rfl rfl ?_
      (.pass ?_ (.exit (by simp [RouteMapIndex.Matches]) rfl rfl)), ?_, ?_, by decide⟩
  · simp [atLeast, passing]
  · simp [RouteMapIndex.Matches, applySets]
  · simp [Mixed, applySets]
  · simp [Jumps, PassesPlainly, after, atLeast, passing]

/-- `route-map M permit 10`, `match metric`, `match any`. -/
def twoRules : RouteMap Nat :=
  [{ pref := 10, type := .permit
     matchList := [⟨"metric", none, fun _ metric => metric = 20⟩, ⟨"any", none, fun _ _ => true⟩] }]

theorem twoRules_built : Built sampleCmds twoRules :=
  RouteMap.Built.empty.run [.routeMap .permit 10, .under 10 (.addMatch "metric" none),
    .under 10 (.addMatch "any" none)]

/-- `route-map M permit 10`, `set metric`, `continue`. -/
def continued : RouteMap Nat :=
  [{ pref := 10, type := .permit, exitpolicy := .rmapNext,
     setList := [⟨"metric", none, fun _ _ => 5⟩] }]

theorem continued_built : Built sampleCmds continued :=
  RouteMap.Built.empty.run [.routeMap .permit 10, .under 10 (.addSet "metric" none),
    .under 10 .rmapContinue]

/-- `route-map M permit 10`, `continue 40`; `route-map M deny 20`, `deny 30` and `permit 40`. -/
def stopped : RouteMap Nat :=
  [{ pref := 10, type := .permit, exitpolicy := .rmapGoto, nextpref := 40 }, {
    pref := 20, type := .deny },
    { pref := 30, type := .deny }, { pref := 40, type := .permit }]

theorem stopped_built : Built sampleCmds stopped :=
  RouteMap.Built.empty.run [.routeMap .permit 10, .under 10 (.rmapContinueSeq 40),
    .routeMap .deny 20,
    .routeMap .deny 30, .routeMap .permit 40]

/-- One rule of two is enough for the source, what a `continue` has let through is denied at the end
of the map, and a jump stops at the second entry on its way. -/
theorem route_map_leaves_matrix :
    Built sampleCmds twoRules ∧ ¬ FollowsMatrix twoRules sampleNet 7 ∧
    Built sampleCmds continued ∧ ¬ FollowsMatrix continued sampleNet 7 ∧
    Built sampleCmds stopped ∧ ¬ FollowsMatrix stopped sampleNet 7 := by
  refine ⟨twoRules_built, ?_, continued_built, ?_, stopped_built, ?_⟩
  · rintro ⟨visits, ending, last, walk, tests, -⟩
    cases walk with
    | pass fails walk =>
      refine fails ((tests _ mem_cons_self).mp ?_)
      exact passed_iff.mpr rfl
    | _ => simp_all [RouteMapIndex.Matches]
  · rintro ⟨visits, ending, last, walk, -, -, applied⟩
    cases walk with
    | pass fails walk => exact fails (by simp [RouteMapIndex.Matches])
    | next _ _ _ walk =>
      cases walk
      rw [routeMapApply, continued, applyFrom,
        applyIndex_permit (by simp [RouteMapIndex.Matches]) rfl] at applied
      simp [applyFrom, WalkEnd.accepted] at applied
    | _ => simp_all
  · rintro ⟨visits, ending, last, walk, -, jumps, -⟩
    cases walk with
    | pass fails walk => exact fails (by simp [RouteMapIndex.Matches])
    | jump all type policy place walk =>
      have same := congrArg length (jumps _ mem_cons_self ⟨all, type, policy⟩)
      revert same
      decide
    | _ => simp_all [atLeast, stopped]

end Zebra
