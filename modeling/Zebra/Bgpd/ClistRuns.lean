import Zebra.Bgpd.Clist

namespace Zebra.Bgpd.Clist
open Base Option Row CommunityListMaster Family Lookup List
namespace CommunityListMaster
variable {Value Regex : Type} {cm : CommunityListMaster Value Regex} {name : CString}
  {entries old new : List (CommunityEntry Value Regex)}

theorem lookup_insert (absent : cm.lookup name = none) :
    (cm.communityListInsert name).lookup name = some [] := by
  obtain ⟨num, str⟩ := or_eq_none_iff.mp absent
  rw [communityListInsert, lookup]
  split
  · rw [lookup_place num]
    rfl
  · rw [num, lookup_place str]
    rfl

theorem delete_insert (absent : cm.lookup name = none) :
    (cm.communityListInsert name).communityListDelete name = cm := by
  obtain ⟨num, str⟩ := or_eq_none_iff.mp absent
  rw [communityListInsert, communityListDelete]
  split
  · rw [lookup_place num, if_pos (by rfl), remove_place num]
  · rw [num, if_neg (by simp), remove_place str]

theorem lookup_get : (cm.communityListGet name).lookup name = some ((cm.lookup name).getD []) := by
  rw [communityListGet]
  split
  next present =>
    obtain ⟨entries, is⟩ := isSome_iff_exists.mp present
    rw [is]
    rfl
  next absent =>
    have none_ := not_isSome_iff_eq_none.mp absent
    rw [lookup_insert none_, none_]
    rfl

section
variable (present : cm.lookup name = some entries)
include present

theorem get_present : cm.communityListGet name = cm := by
  rw [communityListGet, present]
  rfl

theorem update_self : cm.update name entries = cm := by
  rw [update]
  split
  next num =>
    obtain ⟨own, is⟩ := isSome_iff_exists.mp num
    rw [lookup, is] at present
    obtain rfl : own = entries := some.inj present
    rw [replace_self is]
  next num =>
    have none_ := not_isSome_iff_eq_none.mp num
    rw [lookup, none_] at present
    rw [replace_self present]

theorem delete_ne : cm.communityListDelete name ≠ cm := by
  intro same
  rw [communityListDelete] at same
  split at same
  next num =>
    obtain ⟨own, is⟩ := isSome_iff_exists.mp num
    have shorter := length_remove is
    have equal : Row.remove cm.num name = cm.num := congrArg CommunityListMaster.num same
    rw [equal] at shorter
    omega
  next num =>
    rw [lookup, not_isSome_iff_eq_none.mp num] at present
    have shorter := length_remove present
    have equal : remove cm.str name = cm.str := congrArg str same
    rw [equal] at shorter
    omega

end

theorem get_absent (absent : cm.lookup name = none) :
    cm.communityListGet name = cm.communityListInsert name := by
  rw [communityListGet, absent]
  rfl

theorem lookup_update (present : cm.lookup name = some old) :
    (cm.update name new).lookup name = some new := by
  rw [update, lookup]
  split
  next num =>
    obtain ⟨entries, is⟩ := isSome_iff_exists.mp num
    rw [lookup_replace is]
    rfl
  next num =>
    have none_ := not_isSome_iff_eq_none.mp num
    rw [lookup, none_] at present
    rw [none_, lookup_replace present]
    rfl

theorem isSome_update : ((cm.update name new).num.lookup name).isSome =
    (cm.num.lookup name).isSome := by
  rw [update]
  split
  next num =>
    obtain ⟨entries, is⟩ := isSome_iff_exists.mp num
    rw [is, lookup_replace is]
    rfl
  · rfl

theorem update_update : (cm.update name new).update name entries = cm.update name entries := by
  rw [update, isSome_update]
  split
  next num => rw [update, update, if_pos num, if_pos num, replace_replace]
  next num => rw [update, update, if_neg num, if_neg num, replace_replace]

theorem delete_update : (cm.update name new).communityListDelete name =
    cm.communityListDelete name := by
  rw [communityListDelete, isSome_update]
  split
  next num => rw [update, communityListDelete, if_pos num, if_pos num, remove_replace]
  next num => rw [update, communityListDelete, if_neg num, if_neg num, remove_replace]

/-- What holds of all lists. -/
def All (Good : List (CommunityEntry Value Regex) → Prop)
    (cm : CommunityListMaster Value Regex) : Prop :=
  (∀ entry ∈ cm.num, Good entry.2) ∧ ∀ entry ∈ cm.str, Good entry.2

section All
variable {Good : List (CommunityEntry Value Regex) → Prop}

theorem All.lookup (all : All Good cm) (present : cm.lookup name = some entries) :
    Good entries := by
  obtain first | second := or_eq_some_iff.mp present
  · exact good_lookup all.1 first
  · exact good_lookup all.2 second.2

theorem All.get (all : All Good cm) (empty : Good []) : All Good (cm.communityListGet name) := by
  rw [communityListGet]
  split
  · exact all
  · rw [communityListInsert]
    split
    · exact ⟨good_place all.1 empty, all.2⟩
    · exact ⟨all.1, good_place all.2 empty⟩

theorem All.update (all : All Good cm) (good : Good new) : All Good (cm.update name new) := by
  rw [CommunityListMaster.update]
  split
  · exact ⟨good_replace all.1 good, all.2⟩
  · exact ⟨all.1, good_replace all.2 good⟩

theorem All.delete (all : All Good cm) : All Good (cm.communityListDelete name) := by
  rw [communityListDelete]
  split
  · exact ⟨good_remove all.1, all.2⟩
  · exact ⟨all.1, good_remove all.2⟩

end All
end CommunityListMaster

section Entries
variable {Value Regex : Type} [DecidableEq Value] {family : Family Value Regex}
  {entry new : CommunityEntry Value Regex}
  {entries rest : List (CommunityEntry Value Regex)} {arg : Arg Value} {direct : Direct}
  {style : Style} {mixed : CommunityEntry Value Regex → Arg Value → Option Bool}

/-- An entry has a value, or is one for any. -/
def Formed (entry : CommunityEntry Value Regex) : Prop :=
  match entry.style with
  | .standard => entry.any = entry.com.isNone
  | .expanded => entry.any = entry.config.isNone

/-- A value is handed on as one of this style. -/
def Suits (arg : Arg Value) (style : Style) : Prop :=
  match style, arg with
  | .standard, .com _ => True
  | .expanded, .str _ => True
  | _, _ => False

/-- An entry has this value. -/
def Holds (arg : Arg Value) (entry : CommunityEntry Value Regex) : Prop :=
  match arg with
  | .com com => entry.com = some com
  | .str str => entry.config = some str

instance (arg : Arg Value) (entry : CommunityEntry Value Regex) : Decidable (Holds arg entry) :=
  match arg with
  | .com com => inferInstanceAs (Decidable (entry.com = some com))
  | .str str => inferInstanceAs (Decidable (entry.config = some str))

/-- A comparison with an entry does not use an absent value: NULL is looked for in standard
  community-lists only. -/
def Present (family : Family Value Regex) (entry : CommunityEntry Value Regex) : Prop :=
  entry.any = true → entry.style = .standard ∧ family.checksNull = true

/-- The entries of a list are of one style. -/
structure ListSound (entries : List (CommunityEntry Value Regex)) : Prop where
  formed : ∀ entry ∈ entries, Formed entry
  uniform : ∀ entry ∈ entries, ∀ other ∈ entries, entry.style = other.style

/-- The entries up to the first that has this value. -/
def upTo (arg : Arg Value) : List (CommunityEntry Value Regex) → List (CommunityEntry Value Regex)
  | [] => []
  | entry :: rest => if Holds arg entry then [entry] else entry :: upTo arg rest

theorem entryCmp_cases (formed : Formed entry) (suits : Suits arg entry.style) :
    (Holds arg entry → family.entryCmp mixed entry arg = some true) ∧
      (Present family entry → ¬ Holds arg entry → family.entryCmp mixed entry arg = some false) ∧
      (¬ Present family entry → family.entryCmp mixed entry arg = none) := by
  obtain ⟨direct, style, any, com, config, reg⟩ := entry
  cases style with
  | standard =>
    cases arg with
    | str _ => exact suits.elim
    | com value =>
      obtain rfl : any = com.isNone := formed
      cases com with
      | none =>
        cases checks : family.checksNull <;>
        simp [Family.entryCmp, Family.cmp, checks, Holds, Present, communityCmp, ecommunityCmp]
      | some own =>
        cases checks : family.checksNull <;>
          simp [Family.entryCmp, Family.cmp, checks, Holds, Present, communityCmp, ecommunityCmp]
  | expanded =>
    cases arg with
    | com _ => exact suits.elim
    | str value =>
      obtain rfl : any = config.isNone := formed
      cases config with
      | none => simp [Family.entryCmp, Holds, Present]
      | some own => simp [Family.entryCmp, Holds, Present]

/-- An absent value was used. -/
def Lookup.faults {Entry : Type} : Lookup Entry → Bool
  | .fault _ _ => true
  | _ => false

theorem Lookup.compared_behind {Entry : Type} (passed : Entry) (result : Lookup Entry) :
    (result.behind passed).compared = passed :: result.compared ∧
    (result.behind passed).faults = result.faults := by
  cases result <;> exact ⟨rfl, rfl⟩

/-- A lookup keeps to the entries of its direction and style, and uses no absent value, exactly
where all entries up to the one it is for allow it. -/
theorem lookup_clean_iff (formed : ∀ entry ∈ entries, Formed entry) (suits : Suits arg style) :
    (∀ entry ∈ (family.communityListEntryLookup mixed arg entries).compared, entry.direct = direct ∧
      entry.style = style) ∧
        (family.communityListEntryLookup mixed arg entries).faults = false ↔
      ∀ entry ∈ upTo arg entries, (entry.direct = direct ∧ entry.style = style) ∧
        Present family entry := by
  induction entries with
  | nil => simp [communityListEntryLookup, upTo, compared, faults]
  | cons entry rest ih =>
    obtain ⟨own, others⟩ := forall_mem_cons.mp formed
    have first : entry ∈ (family.communityListEntryLookup mixed arg (entry :: rest)).compared := by
      rw [communityListEntryLookup]
      split
      · exact mem_append_right [] (mem_singleton_self entry)
      · exact mem_append_right [] (mem_singleton_self entry)
      · rw [(compared_behind entry _).1]
        exact mem_cons_self
    have head : entry ∈ upTo arg (entry :: rest) := by
      rw [upTo]
      split
      · exact mem_singleton_self entry
      · exact mem_cons_self
    by_cases kind : entry.direct = direct ∧ entry.style = style
    · have cases_ := @entryCmp_cases _ _ _ family entry arg mixed own (kind.2 ▸ suits)
      by_cases present : Present family entry
      · by_cases holds : Holds arg entry
        · rw [communityListEntryLookup, cases_.1 holds, upTo, if_pos holds]
          simp [compared, faults, kind, present]
        · rw [communityListEntryLookup, cases_.2.1 present holds, upTo, if_neg holds]
          rw [(compared_behind entry _).1, (compared_behind entry _).2, forall_mem_cons,
            forall_mem_cons, and_assoc, ih others]
          exact ⟨fun all => ⟨⟨kind, present⟩, all.2⟩, fun all => ⟨kind, all.2⟩⟩
      · constructor
        · rintro ⟨-, sound⟩
          rw [communityListEntryLookup, cases_.2.2 present] at sound
          cases sound
        · intro all
          exact absurd (all entry head).2 present
    · constructor
      · rintro ⟨all, -⟩
        exact absurd (all entry first) kind
      · intro all
        exact absurd (all entry head).1 kind

theorem lookup_found {before after}
    (found : family.communityListEntryLookup mixed arg entries = .found before entry after) :
    entries = before ++ entry :: after ∧ ∀ passed ∈ before,
      family.entryCmp mixed passed arg = some false := by
  induction entries generalizing before with
  | nil => cases found
  | cons head rest ih =>
    rw [communityListEntryLookup] at found
    split at found
    · cases found
    · cases found
      exact ⟨rfl, fun _ none_ => (nomatch none_)⟩
    next passes =>
      cases result : family.communityListEntryLookup mixed arg rest with
      | found before' entry' after' =>
        rw [result] at found
        cases found
        obtain ⟨split, passed⟩ := ih result
        rw [split]
        exact ⟨rfl, forall_mem_cons.mpr ⟨passes, passed⟩⟩
      | missing _ =>
        rw [result] at found
        cases found
      | fault _ _ =>
        rw [result] at found
        cases found

theorem lookup_append (passed : ∀ entry ∈ entries, family.entryCmp mixed entry arg = some false)
    (holds : family.entryCmp mixed new arg = some true) :
    family.communityListEntryLookup mixed arg (entries ++ [new]) = .found entries new [] := by
  induction entries with
  | nil => rw [nil_append, communityListEntryLookup, holds]
  | cons entry rest ih =>
    obtain ⟨first, others⟩ := forall_mem_cons.mp passed
    rw [cons_append, communityListEntryLookup, first]
    rw [ih others]
    rfl

theorem before_new {Entry : Type} {entries before after : List Entry} {new entry : Entry}
    (fresh : new ∉ entries)
    (split : entries ++ [new] = before ++ entry :: after) (is : before ++ after = entries) :
    before = entries := by
  rw [← is, append_assoc] at split
  have last := congrArg getLast? (append_cancel_left split)
  cases after with
  | nil => rwa [append_nil] at is
  | cons next after =>
    rw [getLast?_append] at last
    have member : new ∈ next :: after := mem_of_getLast? last.symm
    exact absurd (is ▸ mem_append_right before member) fresh

theorem dupCheck_false (formed : Formed new)
    (dup : family.communityListDupCheck new entries = some false) : new ∉ entries := by
  induction entries with
  | nil => exact not_mem_nil
  | cons entry rest ih =>
    intro member
    obtain rfl | later := mem_cons.mp member
    · rw [communityListDupCheck, if_neg (by simp)] at dup
      split at dup
      · cases dup
      next value =>
        obtain ⟨direct, style, any, com, config, reg⟩ := new
        cases style with
        | standard =>
          obtain rfl : any = com.isNone := formed
          cases com with
          | none => exact value rfl
          | some own =>
            cases checks : family.checksNull <;>
            simp [Family.cmp, checks, communityCmp, ecommunityCmp] at dup
        | expanded =>
          obtain rfl : any = config.isNone := formed
          cases config with
          | none => exact value rfl
          | some own => simp at dup
    · rw [communityListDupCheck] at dup
      split at dup
      · exact ih dup later
      · split at dup
        · cases dup
        · dsimp only at dup
          split at dup
          · cases dup
          · cases dup
          · exact ih dup later

omit [DecidableEq Value] in
theorem ListSound.nil : ListSound ([] : List (CommunityEntry Value Regex)) :=
  ⟨fun _ none_ => (nomatch none_), fun _ none_ => (nomatch none_)⟩

omit [DecidableEq Value] in
theorem ListSound.snoc (sound : ListSound entries) (formed : Formed new)
    (first : ∀ entry ∈ entries.head?, entry.style = new.style) : ListSound (entries ++ [new]) := by
  have styled : ∀ entry ∈ entries ++ [new], entry.style = new.style := by
    intro entry member
    obtain old | is := mem_append.mp member
    · cases entries with
      | nil => cases old
      | cons head rest => exact (sound.uniform entry old head mem_cons_self).trans (first head rfl)
    · rw [mem_singleton.mp is]
  refine ⟨fun entry member => ?_, fun entry member other member' =>
    (styled entry member).trans (styled other member').symm⟩
  obtain old | is := mem_append.mp member
  · exact sound.formed entry old
  · rwa [mem_singleton.mp is]

omit [DecidableEq Value] in
theorem ListSound.without {before after : List (CommunityEntry Value Regex)}
    (sound : ListSound (before ++ entry :: after)) : ListSound (before ++ after) := by
  have kept : ∀ other ∈ before ++ after, other ∈ before ++ entry :: after := by
    intro other member
    obtain old | later := mem_append.mp member
    · exact mem_append_left _ old
    · exact mem_append_right before (mem_cons_of_mem entry later)
  exact ⟨fun other member => sound.formed other (kept other member),
    fun one member other member' => sound.uniform one (kept one member) other (kept other member')⟩

end Entries

/-- An unset that keeps to entries of its direction and style, and uses no absent value. -/
structure Unset.Clean {Value Regex : Type} (direct : Direct) (style : Style)
    (call : Unset Value Regex) : Prop where
  compared : ∀ entry ∈ call.compared, entry.direct = direct ∧ entry.style = style
  removed : ∀ entry ∈ call.removed, entry.direct = direct ∧ entry.style = style
  answered : call.answer ≠ none

namespace Family
variable {Value Regex : Type} [DecidableEq Value] {family : Family Value Regex}
  {cm cm' : CommunityListMaster Value Regex}
  {name value : CString} {str : Option CString} {direct : Direct} {style : Style}
  {entries : List (CommunityEntry Value Regex)}
  {mixed : CommunityEntry Value Regex → Arg Value → Option Bool}

/-- What a string is looked up as. -/
def argOf (family : Family Value Regex) (value : CString) (style : Style) : Arg Value :=
  ((family.valueOf value style).1.map Arg.com).getD (.str value)

omit [DecidableEq Value] in
theorem argOf_suits (parsed : family.malformed value style = false) :
    Suits (family.argOf value style) style := by
  cases style with
  | standard =>
    rw [malformed, valueOf] at parsed
    rw [argOf, valueOf]
    cases com : family.str2com value with
    | none => simp [com] at parsed
    | some _ => trivial
  | expanded => trivial

omit [DecidableEq Value] in
theorem entryOf_formed (parsed : ∀ value ∈ str, family.malformed value style = false) :
    Formed (family.entryOf str direct style) := by
  cases str with
  | none => cases style <;> rfl
  | some value =>
    have good := parsed value rfl
    cases style with
    | standard =>
      rw [malformed, valueOf] at good
      cases com : family.str2com value with
      | none => simp [com] at good
      | some _ => simp [Formed, entryOf, valueOf, com]
    | expanded =>
      rw [malformed, valueOf] at good
      cases reg : family.regcomp value with
      | none => simp [reg] at good
      | some _ => simp [Formed, entryOf, valueOf, reg]

omit [DecidableEq Value] in
theorem entryOf_holds (parsed : family.malformed value style = false) :
    Holds (family.argOf value style) (family.entryOf (some value) direct style) := by
  cases style with
  | standard =>
    rw [malformed, valueOf] at parsed
    cases com : family.str2com value with
    | none => simp [com] at parsed
    | some _ => simp [Holds, argOf, entryOf, valueOf, com]
  | expanded =>
    rw [malformed, valueOf] at parsed
    cases reg : family.regcomp value with
    | none => simp [reg] at parsed
    | some _ => simp [Holds, argOf, entryOf, valueOf, reg]

theorem set_setEntry {kept} (set : family.set cm name str direct style = some kept) :
    (∃ error, kept = (some error, cm.communityListGet name) ∧ (cm.lookup name).getD [] ≠ []) ∨
      (∀ entry ∈ ((cm.lookup name).getD []).head?, entry.style = style) ∧
        family.setEntry (cm.communityListGet name) name str direct style
          ((cm.lookup name).getD []) = some kept := by
  rw [Family.set, lookup_get] at set
  obtain ⟨entries, isEntries⟩ := @exists_eq _ ((cm.lookup name).getD [])
  rw [← isEntries] at set ⊢
  cases entries with
  | nil => exact .inr ⟨fun entry first => (nomatch first), set⟩
  | cons entry rest =>
    split at set
    next same =>
      split at set
      · exact .inl ⟨_, (some.inj set).symm, cons_ne_nil entry rest⟩
      next style_ =>
        refine .inr ⟨?_, set⟩
        rintro _ ⟨⟩
        rw [some.inj same]
        exact (not_not.mp style_).symm
    next same =>
      split at set
      · exact .inl ⟨_, (some.inj set).symm, cons_ne_nil entry rest⟩
      next style_ =>
        refine .inr ⟨?_, set⟩
        rintro _ ⟨⟩
        rw [some.inj same]
        exact (not_not.mp style_).symm
    next none_ => cases none_

/-- Where an entry may be compared and removed. -/
def MayUnset (family : Family Value Regex) (cm : CommunityListMaster Value Regex) (name : CString)
    (str : Option CString) (direct : Direct) (style : Style) : Prop :=
  ∀ entries, cm.lookup name = some entries →
    match str with
    | none => ∀ entry ∈ entries, entry.direct = direct ∧ entry.style = style
    | some value => family.malformed value style = false →
      ∀ entry ∈ upTo (family.argOf value style) entries,
        (entry.direct = direct ∧ entry.style = style) ∧ Present family entry

theorem unset_clean_iff (sound : cm.All ListSound) :
    (family.unset mixed cm name str direct style).Clean direct style ↔
    family.MayUnset cm name str direct style := by
  rw [unset, MayUnset]
  cases present : cm.lookup name with
  | none =>
    exact ⟨fun _ _ none_ => (nomatch none_), fun _ =>
    ⟨fun _ none_ => (nomatch none_), fun _ none_ => (nomatch none_), nofun⟩⟩
  | some entries =>
    have formed := (sound.lookup present).formed
    cases str with
    | none =>
      constructor
      · rintro clean _ ⟨⟩
        exact clean.removed
      · intro may
        exact ⟨fun _ none_ => (nomatch none_), may entries rfl, nofun⟩
    | some value =>
      dsimp only
      cases parsed : family.malformed value style with
      | true =>
        exact ⟨fun _ _ _ none_ => (nomatch none_),
        fun _ => ⟨fun _ none_ => (nomatch none_), fun _ none_ => (nomatch none_), nofun⟩⟩
      | false =>
        have clean := @lookup_clean_iff _ _ _ family entries
          (family.argOf value style) direct style mixed formed (argOf_suits parsed)
        rw [argOf] at clean ⊢
        cases result : family.communityListEntryLookup mixed
          (((family.valueOf value style).1.map Arg.com).getD (.str value)) entries with
        | found before entry after =>
          rw [result] at clean
          constructor
          · rintro kept _ ⟨⟩ _
            exact clean.mp ⟨kept.compared, rfl⟩
          · intro may
            have all := (clean.mpr (may entries rfl rfl)).1
            refine ⟨all, fun other member => ?_, nofun⟩
            exact all other (mem_append_right before member)
        | missing before =>
          rw [result] at clean
          constructor
          · rintro kept _ ⟨⟩ _
            exact clean.mp ⟨kept.compared, rfl⟩
          · intro may
            exact ⟨(clean.mpr (may entries rfl rfl)).1, fun _ none_ => (nomatch none_), nofun⟩
        | fault before entry =>
          rw [result] at clean
          constructor
          · intro kept
            exact absurd rfl kept.answered
          · intro may
            exact absurd (clean.mpr (may entries rfl rfl)).2 nofun

theorem unset_error {error} (failed : (family.unset mixed cm name str direct style).answer =
    some (some error, cm')) : cm' = cm := by
  rw [unset] at failed
  split at failed
  · cases failed
    rfl
  · split at failed
    · cases failed
    · split at failed
      · cases failed
        rfl
      · split at failed
        · cases failed
        · cases failed
          rfl
        · cases failed

/-- A set that returns an error leaves all lists alone, but for a list that is created for a
  malformed value. -/
theorem set_error_iff :
    (∀ error cm', family.set cm name str direct style = some (some error, cm') → cm' = cm) ↔
    (cm.lookup name).isSome ∨ ∀ value ∈ str, family.malformed value style = false := by
  cases present : cm.lookup name with
  | some entries =>
    refine ⟨fun _ => .inl rfl, fun _ error cm' failed => ?_⟩
    have same := get_present present
    obtain ⟨_, is, -⟩ | ⟨-, made⟩ := set_setEntry failed
    · rw [(Prod.mk.inj is).2, same]
    · rw [setEntry] at made
      split at made
      · rw [← (Prod.mk.inj (Option.some.inj made)).2, same]
      · obtain ⟨_, -, kept⟩ := map_eq_some_iff.mp made
        cases (Prod.mk.inj kept).1
  | none =>
    have entries : (cm.lookup name).getD [] = [] := by rw [present]; rfl
    constructor
    · intro kept
      refine .inr fun value is => ?_
      cases parsed : family.malformed value style with
      | false => rfl
      | true =>
        obtain rfl : str = some value := is
        have failed : family.set cm name (some value) direct style =
            some (some .malformedVal, cm.communityListInsert name) := by
          rw [set, lookup_get, entries, getD_some, get_absent present]
          dsimp only [head?_nil, map_none]
          rw [setEntry, any_some, parsed, if_pos rfl]
        have same := kept _ _ failed
        have there := lookup_insert present
        rw [same, present] at there
        cases there
    · rintro (none_ | parsed) error cm' failed
      · cases none_
      · obtain ⟨_, -, some_⟩ | ⟨-, made⟩ := set_setEntry failed
        · exact absurd entries some_
        · rw [setEntry] at made
          split at made
          next bad =>
            cases str with
            | none => cases bad
            | some value =>
              rw [any_some, parsed value rfl] at bad
              cases bad
          · obtain ⟨_, -, kept⟩ := map_eq_some_iff.mp made
            cases (Prod.mk.inj kept).1

/-- A set that adds an entry. -/
structure Adds (family : Family Value Regex) (cm cm' : CommunityListMaster Value Regex)
    (name : CString) (str : Option CString) (direct : Direct) (style : Style) : Prop where
  set : family.set cm name str direct style = some (none, cm')
  longer : ((cm'.lookup name).getD []).length = ((cm.lookup name).getD []).length + 1

section
variable (adds : Adds family cm cm' name str direct style)
include adds

theorem Adds.parts :
    (∀ value ∈ str, family.malformed value style = false) ∧
    (∀ entry ∈ ((cm.lookup name).getD []).head?, entry.style = style) ∧
      family.entryOf str direct style ∉ (cm.lookup name).getD [] ∧
      cm' = (cm.communityListGet name).update name
        ((cm.lookup name).getD [] ++ [family.entryOf str direct style]) := by
  obtain ⟨_, is, -⟩ | ⟨first, made⟩ := set_setEntry adds.set
  · cases (Prod.mk.inj is).1
  · rw [setEntry] at made
    split at made
    · cases (Prod.mk.inj (Option.some.inj made)).1
    next good =>
      have parsed : ∀ value ∈ str, family.malformed value style = false := by
        rintro value rfl
        exact Bool.eq_false_iff.mpr good
      obtain ⟨dup, check, kept⟩ := map_eq_some_iff.mp made
      have is := (Prod.mk.inj kept).2
      cases dup with
      | true =>
        have longer := adds.longer
        rw [← is, if_pos rfl, lookup_get, getD_some] at longer
        omega
      | false => exact ⟨parsed, first, dupCheck_false (entryOf_formed parsed) check, is.symm⟩

/-- Where an entry that is added is the first that has its value. -/
def MayRestore (family : Family Value Regex) (cm : CommunityListMaster Value Regex) (name : CString)
    (str : Option CString) (style : Style) : Prop :=
  ∀ entries, cm.lookup name = some entries →
    ∃ value ∈ str, entries ≠ [] ∧ ∀ entry ∈ entries, ¬ Holds (family.argOf value style) entry ∧
      Present family entry

theorem Adds.lookup :
    cm'.lookup name = some ((cm.lookup name).getD [] ++ [family.entryOf str direct style]) := by
  obtain ⟨-, -, -, is⟩ := adds.parts
  rw [is]
  exact lookup_update lookup_get

/-- Deleting the list restores what was without it. -/
theorem Adds.delete_iff : cm'.communityListDelete name = cm ↔ cm.lookup name = none := by
  obtain ⟨-, -, -, is⟩ := adds.parts
  rw [is, delete_update]
  cases present : cm.lookup name with
  | none =>
    rw [get_absent present]
    exact ⟨fun _ => rfl, fun _ => delete_insert present⟩
  | some own =>
    rw [get_present present]
    exact ⟨fun same => absurd same (delete_ne present), fun none_ => nomatch none_⟩

theorem Adds.styled (sound : cm.All ListSound) :
    ListSound ((cm.lookup name).getD []) ∧ ∀ entry ∈ (cm.lookup name).getD [],
      entry.style = style := by
  obtain ⟨-, first, -, -⟩ := adds.parts
  have listSound : ListSound ((cm.lookup name).getD []) := by
    cases present : cm.lookup name with
    | none => exact ⟨fun _ none_ => (nomatch none_), fun _ none_ => (nomatch none_)⟩
    | some own => exact sound.lookup present
  refine ⟨listSound, fun entry member => ?_⟩
  cases split : (cm.lookup name).getD [] with
  | nil => cases split ▸ member
  | cons head rest =>
    have own : head ∈ (cm.lookup name).getD [] := split ▸ mem_cons_self
    rw [listSound.uniform entry member head own]
    exact first head (by rw [split]; rfl)

end

variable (mixed) in
theorem Adds.compare (adds : Adds family cm cm' name str direct style) (sound : cm.All ListSound)
    (good : family.malformed value style = false) {entry : CommunityEntry Value Regex}
    (member : entry ∈ (cm.lookup name).getD []) :
    (Holds (family.argOf value style) entry →
      family.entryCmp mixed entry (family.argOf value style) = some true) ∧
      (Present family entry → ¬ Holds (family.argOf value style) entry →
        family.entryCmp mixed entry (family.argOf value style) = some false) ∧
      (¬ Present family entry → family.entryCmp mixed entry (family.argOf value style) = none) :=
  entryCmp_cases ((adds.styled sound).1.formed entry member)
    (((adds.styled sound).2 entry member).symm ▸ argOf_suits good)

theorem unset_value (there : cm'.lookup name = some entries)
    (good : family.malformed value style = false) :
    (family.unset mixed cm' name (some value) direct style).answer =
      match family.communityListEntryLookup mixed (family.argOf value style) entries with
      | .found before _ after => some (none, cm'.communityListEntryDelete name (before ++ after))
      | .missing _ => some (some .cantFindList, cm')
      | .fault _ _ => none := by
  rw [unset, there]
  dsimp only
  rw [good, argOf]
  cases family.communityListEntryLookup mixed
    (((family.valueOf value style).1.map Arg.com).getD (.str value)) entries <;> rfl

theorem Adds.newHolds (adds : Adds family cm cm' name (some value) direct style) :
    family.entryCmp mixed (family.entryOf (some value) direct style)
    (family.argOf value style) = some true := by
  obtain ⟨parsed, -⟩ := adds.parts
  have good := parsed value rfl
  refine (@entryCmp_cases _ _ _ family _ (family.argOf value style) mixed
    (entryOf_formed parsed) ?_).1 (entryOf_holds good)
  exact argOf_suits good

theorem restores_whole (adds : Adds family cm cm' name none direct style) :
    (family.unset mixed cm' name none direct style).answer = some (none, cm) ↔
    family.MayRestore cm name none style := by
  rw [unset, adds.lookup]
  rw [Option.some.injEq, Prod.mk.injEq, and_iff_right rfl, adds.delete_iff]
  constructor
  · intro absent entries present
    rw [absent] at present
    cases present
  · intro may
    cases present : cm.lookup name with
    | none => rfl
    | some own =>
      obtain ⟨_, none_, -⟩ := may own present
      cases none_

variable (sound : cm.All ListSound)
include sound

theorem restores_passed (adds : Adds family cm cm' name (some value) direct style)
    (passed : ∀ entry ∈ (cm.lookup name).getD [], ¬ Holds (family.argOf value style) entry ∧
      Present family entry) :
    (family.unset mixed cm' name (some value) direct style).answer = some (none, cm) ↔
    family.MayRestore cm name (some value) style := by
  obtain ⟨parsed, -, -, is⟩ := adds.parts
  have good := parsed value rfl
  have found := lookup_append
    (fun entry member => (adds.compare mixed sound good member).2.1 (passed entry member).2
      (passed entry member).1) adds.newHolds
  rw [unset_value adds.lookup good, found]
  dsimp only
  rw [append_nil, Option.some.injEq, Prod.mk.injEq, and_iff_right rfl, communityListEntryDelete]
  cases present : cm.lookup name with
  | none =>
    rw [getD_none, isEmpty_nil, if_pos rfl, adds.delete_iff, present]
    exact ⟨fun _ own some_ => (nomatch present.symm.trans some_), fun _ => rfl⟩
  | some entries =>
    rw [present] at passed
    rw [getD_some]
    constructor
    · intro same own some_
      obtain rfl : entries = own := some.inj (present.symm.trans some_)
      refine ⟨value, rfl, ?_, passed⟩
      rintro rfl
      rw [isEmpty_nil, if_pos rfl, adds.delete_iff, present] at same
      cases same
    · intro may
      obtain ⟨_, _, some_, -⟩ := may entries present
      have nonempty : entries.isEmpty = false := by rwa [isEmpty_eq_false_iff]
      rw [nonempty, if_neg nofun, is, update_update, get_present present,
        update_self present]

theorem restores_blocked (adds : Adds family cm cm' name (some value) direct style)
    (blocked : ¬ ∀ entry ∈ (cm.lookup name).getD [], ¬ Holds (family.argOf value style) entry ∧
      Present family entry) :
    (family.unset mixed cm' name (some value) direct style).answer = some (none, cm) ↔
    family.MayRestore cm name (some value) style := by
  obtain ⟨parsed, -, fresh, -⟩ := adds.parts
  have good := parsed value rfl
  have there := adds.lookup
  cases present : cm.lookup name with
  | none =>
    rw [present] at blocked
    exact absurd (fun _ none_ => (nomatch none_)) blocked
  | some entries =>
    have listed (entry : CommunityEntry Value Regex) (member : entry ∈ entries) :
        entry ∈ (cm.lookup name).getD [] := by
      rw [present]
      exact member
    rw [present] at blocked there fresh
    rw [getD_some] at blocked there fresh
    rw [unset_value there good]
    constructor
    · intro answer
      split at answer
      next before entry after found =>
        obtain ⟨split, before_⟩ := lookup_found found
        have same := (Prod.mk.inj (Option.some.inj answer)).2
        have size := congrArg length split
        rw [length_append, length_append, length_singleton, length_cons] at size
        have some_ : 0 < entries.length := by
          refine Nat.pos_of_ne_zero fun zero => blocked ?_
          rw [eq_nil_of_length_eq_zero zero]
          exact fun _ none_ => (nomatch none_)
        have nonempty : (before ++ after).isEmpty = false := by
          rw [isEmpty_eq_false_iff, ← length_pos_iff, length_append]
          omega
        rw [communityListEntryDelete, nonempty, if_neg nofun] at same
        have own : some (before ++ after) = some entries := by
          rw [← lookup_update there, same, present]
        have is := some.inj own
        obtain rfl : before = entries := before_new fresh split is
        refine absurd (fun passing member => ?_) blocked
        have fine := before_ passing member
        have cases_ := adds.compare mixed sound good (listed passing member)
        constructor
        · intro holds
          rw [cases_.1 holds] at fine
          cases fine
        · by_contra blank
          rw [cases_.2.2 blank] at fine
          cases fine
      · cases answer
      · cases answer
    · intro may
      obtain ⟨other, is, -, passes⟩ := may entries present
      obtain rfl : value = other := some.inj is
      exact absurd passes blocked

theorem restores_iff (adds : Adds family cm cm' name str direct style) :
    (family.unset mixed cm' name str direct style).answer = some (none, cm) ↔
    family.MayRestore cm name str style := by
  cases str with
  | none => exact restores_whole adds
  | some value =>
    by_cases passed : ∀ entry ∈ (cm.lookup name).getD [], ¬ Holds (family.argOf value style) entry ∧
      Present family entry
    · exact restores_passed sound adds passed
    · exact restores_blocked sound adds passed

theorem set_sound {error} (set : family.set cm name str direct style = some (error, cm')) :
    cm'.All ListSound := by
  have got : (cm.communityListGet name).All ListSound := sound.get ListSound.nil
  obtain ⟨_, is, -⟩ | ⟨first, made⟩ := set_setEntry set
  · rwa [(Prod.mk.inj is).2]
  · rw [setEntry] at made
    split at made
    · rwa [← (Prod.mk.inj (Option.some.inj made)).2]
    next good =>
      have parsed : ∀ value ∈ str, family.malformed value style = false := by
        rintro value rfl
        exact Bool.eq_false_iff.mpr good
      obtain ⟨dup, -, kept⟩ := map_eq_some_iff.mp made
      rw [← (Prod.mk.inj kept).2]
      split
      · exact got
      · have own : ListSound ((cm.lookup name).getD []) := got.lookup lookup_get
        exact got.update (own.snoc (entryOf_formed parsed) first)

theorem unset_sound {error}
    (unset : (family.unset mixed cm name str direct style).answer = some (error, cm')) :
    cm'.All ListSound := by
  rw [Family.unset] at unset
  split at unset
  · cases unset
    exact sound
  next entries present =>
    split at unset
    · cases unset
      exact sound.delete
    · split at unset
      · cases unset
        exact sound
      · split at unset
        next before entry after found =>
          cases unset
          have own := sound.lookup present
          rw [(lookup_found found).1] at own
          rw [communityListEntryDelete]
          split
          · exact sound.delete
          · exact sound.update own.without
        · cases unset
          exact sound
        · cases unset

end Family

/-- A call of the configuration. What a comparison with a value of another style reads may be
  different each time. -/
inductive Call (Value Regex : Type) where
  | set (name : CString) (str : Option CString) (direct : Direct) (style : Style)
  | unset (mixed : CommunityEntry Value Regex → Arg Value → Option Bool) (name : CString)
    (str : Option CString) (direct : Direct) (style : Style)

section Runs
variable {Value Regex : Type} [DecidableEq Value] {family : Family Value Regex}
  {cm cm' : CommunityListMaster Value Regex}

def Family.step (family : Family Value Regex) (cm : CommunityListMaster Value Regex)
    (call : Call Value Regex) :
    Option (CommunityListMaster Value Regex) :=
  match call with
  | .set name str direct style => (family.set cm name str direct style).map Prod.snd
  | .unset mixed name str direct style =>
    (family.unset mixed cm name str direct style).answer.map Prod.snd

theorem step_sound {call} (sound : cm.All ListSound) (step : family.step cm call = some cm') :
    cm'.All ListSound := by
  cases call with
  | set name str direct style =>
    obtain ⟨⟨error, kept⟩, set, rfl⟩ := map_eq_some_iff.mp step
    exact set_sound sound set
  | unset mixed name str direct style =>
    obtain ⟨⟨error, kept⟩, unset, rfl⟩ := map_eq_some_iff.mp step
    exact unset_sound sound unset

theorem run_sound {calls : List (Call Value Regex)} (sound : cm.All ListSound)
    (run : calls.foldlM family.step cm = some cm') :
    cm'.All ListSound := by
  induction calls generalizing cm with
  | nil => exact some.inj run ▸ sound
  | cons call calls ih =>
    obtain ⟨next, step, run⟩ := bind_eq_some_iff.mp run
    exact ih (step_sound sound step) run

end Runs

/-- What holds of the configuration of one kind of lists, in a state, for the arguments of a
  call. -/
structure Configured {Value Regex : Type} [DecidableEq Value] (family : Family Value Regex)
    (cm : CommunityListMaster Value Regex)
    (name : CString) (str : Option CString) (direct : Direct) (style : Style) : Prop where
  restored : ∀ mixed cm', family.Adds cm cm' name str direct style →
    ((family.unset mixed cm' name str direct style).answer = some (none, cm) ↔
      family.MayRestore cm name str style)
  clean : ∀ mixed, (family.unset mixed cm name str direct style).Clean direct style ↔
    family.MayUnset cm name str direct style
  set_failed :
    (∀ error cm', family.set cm name str direct style = some (some error, cm') → cm' = cm) ↔
    (cm.lookup name).isSome ∨ ∀ value ∈ str, family.malformed value style = false
  unset_failed : ∀ mixed error cm', (family.unset mixed cm name str direct style).answer =
    some (some error, cm') → cm' = cm

/-- In every state that calls lead to and for both kinds of lists: what a set adds its unset takes
away, an unset keeps to its own entries, and a call that fails changes nothing, each exactly under
its condition. -/
theorem community_lists_configured {Value Ecom Regex : Type} [DecidableEq Value] [DecidableEq Ecom]
    (str2com : CString → Option Value)
    (ecomStr2com : CString → Option Ecom) (ecom2str : Ecom → CString)
    (regcomp : CString → Option Regex)
    (calls : List (Call Value Regex)) (ecomCalls : List (Call Ecom Regex))
    (cm : CommunityListMaster Value Regex)
    (ecm : CommunityListMaster Ecom Regex)
    (run : calls.foldlM (communityFamily str2com regcomp).step {} = some cm)
    (ecomRun : ecomCalls.foldlM (extcommunityFamily ecomStr2com regcomp ecom2str).step
      {} = some ecm)
    (name : CString) (str : Option CString) (direct : Direct) (style : Style) :
    Configured (communityFamily str2com regcomp) cm name str direct style ∧
      Configured (extcommunityFamily ecomStr2com regcomp ecom2str) ecm name str direct style := by
  have initial {Value : Type} : ({} : CommunityListMaster Value Regex).All ListSound :=
    ⟨fun _ none_ => (nomatch none_), fun _ none_ => (nomatch none_)⟩
  have sound := run_sound initial run
  have ecomSound := run_sound initial ecomRun
  exact ⟨⟨fun _ _ => restores_iff sound, fun _ => unset_clean_iff sound, set_error_iff,
    fun _ _ _ => unset_error⟩,
    ⟨fun _ _ => restores_iff ecomSound, fun _ => unset_clean_iff ecomSound, set_error_iff,
      fun _ _ _ => unset_error⟩⟩

/-- `100:1` as a string and as a value. -/
def sampleString : CString := [0x31, 0x30, 0x30, 0x3a, 0x31]

/-- `100:2` -/
def otherString : CString := [0x31, 0x30, 0x30, 0x3a, 0x32]

def sampleStr2com (str : CString) : Option (List (BitVec 32)) :=
  if str = sampleString then some [0x00640001]
    else if str = otherString then some [0x00640002] else none

def sampleRegcomp (_ : CString) : Option Unit := some ()

/-- `ip community-list 1 deny 100:1` -/
def denied : Call (List (BitVec 32)) Unit := .set [0x31] (some sampleString) .deny .standard

/-- The list 1 with that entry. -/
def deniedList : CommunityListMaster (List (BitVec 32)) Unit where
  num := [([0x31], [{ direct := .deny, style := .standard, any := false, com := some [0x00640001],
                      config := none, reg := none }])]

/-- `no ip community-list 1 permit 100:1` removes the entry that denies. -/
theorem unset_other_direct :
    [denied].foldlM (communityFamily sampleStr2com sampleRegcomp).step {} = some deniedList ∧
    ¬ ((communityFamily sampleStr2com sampleRegcomp).unset
      (fun _ _ => none) deniedList [0x31] (some sampleString) .permit .standard).Clean
      .permit .standard := by
  refine ⟨rfl, fun clean => ?_⟩
  have entry :=
    clean.removed { direct := .deny, style := .standard, any := false, com := some [0x00640001],
                    config := none, reg := none }
    (by decide)
  cases entry.1

/-- Two lists; an entry of the first one comes and goes. -/
def sampleCalls : List (Call (List (BitVec 32)) Unit) :=
  [denied, .set [0x31] (some otherString) .permit .standard, .set [0x32] none .permit .standard,
    .unset (fun _ _ => none) [0x31] (some otherString) .permit .standard]

def sampleLists : CommunityListMaster (List (BitVec 32)) Unit where
  num := deniedList.num ++
    [([0x32], [{ direct := .permit, style := .standard, any := true, com := none, config := none,
                 reg := none }])]

/-- `ip extcommunity-list 1 deny` with a value and `ip extcommunity-list 2 permit`. -/
def sampleEcomCalls : List (Call CString Unit) :=
  [.set [0x31] (some sampleString) .deny .standard, .set [0x32] none .permit .standard]

def sampleEcomLists : CommunityListMaster CString Unit where
  num := [([0x31], [⟨.deny, .standard, false, some sampleString, some sampleString, none⟩]),
    ([0x32], [⟨.permit, .standard, true, none, none, none⟩])]

theorem community_lists_sampled :
    Configured (communityFamily sampleStr2com sampleRegcomp) sampleLists [0x31]
    (some otherString) .permit .standard ∧
    Configured (extcommunityFamily some sampleRegcomp id) sampleEcomLists [0x31]
    (some otherString) .permit .standard :=
  community_lists_configured sampleStr2com some id sampleRegcomp sampleCalls sampleEcomCalls
    sampleLists sampleEcomLists
    rfl rfl [0x31] (some otherString) .permit .standard

end Zebra.Bgpd.Clist
