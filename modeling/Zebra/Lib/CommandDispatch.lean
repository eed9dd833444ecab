import Zebra.Lib.Command

namespace Zebra
open List Option Except Prod CmdElement

/-! What it is for a word to match an alternative -/

/-- An alternative that stands for itself. -/
def keyword (str : Word) : Bool := !(cmdVararg str || cmdOption str || cmdVariable str)

/-- No other keyword of the commands begins like this word. -/
def Unambiguous (others : List CmdElement) (index : Nat) (str word : Word) : Prop :=
  ∀ cmd ∈ others, ∀ other ∈ cmd.position index, keyword other → word <+: other → other = str

/-- The word matches the alternative in full, among the commands that the words before it leave. -/
def Accepts (strict : Bool) (others : List CmdElement) (index : Nat) (str word : Word) : Prop :=
  if cmdVararg str then True
  else if cmdRange str then cmdRangeMatch str word = true
  else if cmdIpv6 str then cmdIpv6Match word = .exactMatch
  else if cmdIpv6Prefix str then cmdIpv6PrefixMatch word = .exactMatch
  else if cmdIpv4 str then cmdIpv4Match word = .exactMatch
  else if cmdIpv4Prefix str then cmdIpv4PrefixMatch word = .exactMatch
  else if cmdOption str || cmdVariable str then True
  else word = str ∨ strict = false ∧ word <+: str ∧ Unambiguous others index str word

/-- The word is no more than a part of the address that the alternative asks for. -/
def InPart (str word : Word) : Prop :=
  cmdIpv6Prefix str ∧ cmdIpv6PrefixMatch word = .partlyMatch ∨
    cmdIpv4 str ∧ cmdIpv4Match word = .partlyMatch ∨
    cmdIpv4Prefix str ∧ cmdIpv4PrefixMatch word = .partlyMatch

/-- Each word is taken by an alternative of its position that does not ask for more. -/
def Whole (cmd : CmdElement) (vline : List Word) : Prop :=
  ∀ i word, vline[i]? = some word → i < cmd.strvec.length →
    ∃ str ∈ cmd.position i, descMatch false str word ≠ .noMatch ∧ ¬InPart str word

section
variable (strvec : List (List Word))

/-- A vararg is the last position, and has no alternatives. -/
def VarargLast : Prop :=
  ∀ i descvec, strvec[i]? = some descvec → (∃ str ∈ descvec, cmdVararg str) →
    i + 1 = strvec.length ∧ descvec.length = 1

/-- A command as it is installed; no command of the daemons has a vararg elsewhere than at its
  end. -/
structure Installed (cmd : CmdElement) : Prop where
  built : ∃ string func daemon, installElement string func daemon = some cmd
  last : VarargLast cmd.strvec

def EndsVararg : Prop :=
  ∃ str, strvec.getLast? = some [str] ∧ cmdVararg str

/-- The word at a position is an argument: it stands for a variable, an option, one of several
alternatives or a vararg. -/
def isArg (i : Nat) : Bool :=
  match strvec[i]? with
  | some [str] => cmdVararg str || cmdVariable str || cmdOption str
  | _ => true

/-- The arguments among the words from the position `i` on. -/
def argsAt (i : Nat) (vline : List Word) : List Word :=
  ((vline.zipIdx i).filter fun word => isArg strvec word.2).map Prod.fst

end

/-! The filter -/

namespace MatchType

theorem le_raise (best found : MatchType) :
    best.rank ≤ (best.raise found).rank ∧ found.rank ≤ (best.raise found).rank := by
  rw [raise]
  split
  · exact ⟨Nat.le_of_lt ‹_›, Nat.le_refl _⟩
  · exact ⟨Nat.le_refl _, Nat.le_of_not_lt ‹_›⟩

theorem raise_mem (best found : MatchType) :
    best.raise found = best ∨ best.raise found = found := by
  rw [raise]
  split
  · exact .inr rfl
  · exact .inl rfl

variable {Item : Type} (kind : Item → MatchType)

theorem foldl_raise (items : List Item) (best : MatchType) :
    best.rank ≤ (items.foldl (fun best item => best.raise (kind item)) best).rank ∧
      (∀ item ∈ items, (kind item).rank ≤
        (items.foldl (fun best item => best.raise (kind item)) best).rank) ∧
      ((items.foldl (fun best item => best.raise (kind item)) best) = best ∨
        ∃ item ∈ items, (items.foldl (fun best item => best.raise (kind item)) best) =
          kind item) := by
  induction items generalizing best with
  | nil => exact ⟨Nat.le_refl _, nofun, .inl rfl⟩
  | cons item rest ih =>
    obtain ⟨above, all, one⟩ := ih (best.raise (kind item))
    have more := le_raise best (kind item)
    refine ⟨Nat.le_trans more.1 above, fun other member => ?_, ?_⟩
    · rcases mem_cons.mp member with rfl | member
      · exact Nat.le_trans more.2 above
      · exact all other member
    · rcases one with same | ⟨other, member, same⟩
      · rcases raise_mem best (kind item) with kept | raised
        · exact .inl (same.trans kept)
        · exact .inr ⟨item, mem_cons_self, same.trans raised⟩
      · exact .inr ⟨other, .tail _ member, same⟩

end MatchType

section Filter
variable {strict : Bool} {command : Word} {v : List CmdElement} {index : Nat} {cmd : CmdElement}

/-- The alternatives of all commands at a position. -/
def alternatives (v : List CmdElement) (index : Nat) : List Word :=
  v.flatMap fun cmd => cmd.position index

theorem mem_alternatives {str} : str ∈ alternatives v index ↔ ∃ cmd ∈ v, str ∈ cmd.position index :=
  mem_flatMap

theorem cmdFilter_best (strict : Bool) (command : Word) (v : List CmdElement) (index : Nat) :
    (cmdFilter strict command v index).1 =
      (alternatives v index).foldl
        (fun best str => best.raise (descMatch strict str command)) .noMatch := by
  rw [cmdFilter, alternatives, foldl_flatMap]

theorem rank_le_best (member : cmd ∈ v) {str} (there : str ∈ cmd.position index) :
    (descMatch strict str command).rank ≤ (cmdFilter strict command v index).1.rank := by
  rw [cmdFilter_best]
  exact (MatchType.foldl_raise (fun str => descMatch strict str command)
    (alternatives v index) .noMatch).2.1 str
    (mem_alternatives.mpr ⟨cmd, member, there⟩)

theorem best_mem (some_ : (cmdFilter strict command v index).1 ≠ .noMatch) :
    ∃ cmd ∈ v, ∃ str ∈ cmd.position index,
      (cmdFilter strict command v index).1 = descMatch strict str command := by
  rw [cmdFilter_best] at some_ ⊢
  obtain none_ | ⟨str, member, same⟩ :=
    (MatchType.foldl_raise (fun str => descMatch strict str command) (alternatives v index)
    .noMatch).2.2
  · exact absurd none_ some_
  · obtain ⟨cmd, here, there⟩ := mem_alternatives.mp member
    exact ⟨cmd, here, str, there, same⟩

theorem mem_cmdFilter : cmd ∈ (cmdFilter strict command v index).2 ↔
    cmd ∈ v ∧ ∃ str ∈ cmd.position index, descMatch strict str command ≠ .noMatch := by
  rw [cmdFilter, List.mem_filter, List.any_eq_true]
  simp only [decide_eq_true_eq]

theorem position_lt {str} (there : str ∈ cmd.position index) : index < cmd.strvec.length := by
  by_contra beyond
  rw [position, getD_eq_getElem?_getD, getElem?_eq_none (Nat.le_of_not_lt beyond)] at there
  exact not_mem_nil there

theorem position_eq {descvec} (here : cmd.strvec[index]? = some descvec) :
    cmd.position index = descvec := by
  rw [position, getD_eq_getElem?_getD, here, getD_some]

end Filter

/-! Ambiguity -/

section Ambiguous
variable {command : Word} {index : Nat} {type : MatchType} {v kept : List CmdElement}
  {cmd : CmdElement}

/-- The test that a kept command passes. -/
def passes (command : Word) (type : MatchType) (str : Word) : Bool :=
  match type with
  | .exactMatch => !(cmdOption str || cmdVariable str) && command = str
  | .partlyMatch => !(cmdOption str || cmdVariable str) && command.isPrefixOf str
  | _ => true

theorem ambiguousDesc_ok {seen after str} (done : ambiguousDesc command type seen str = .ok after) :
    (after.2 = true → seen.2 = true ∨ passes command type str = true) ∧
      (type = .partlyMatch → (∀ word, seen.1 = some word → after.1 = some word) ∧
        (passes command .partlyMatch str = true → after.1 = some str)) := by
  cases type with
  | exactMatch =>
    obtain rfl := ok.inj done
    exact ⟨fun found => (Bool.or_eq_true _ _).mp found, fun impossible => by cases impossible⟩
  | partlyMatch =>
    rw [ambiguousDesc] at done
    split at done
    · rename_i passed
      split at done
      · cases done
      · rename_i same
        obtain rfl := ok.inj done
        refine ⟨fun _ => .inr passed, fun _ => ⟨fun word before => ?_, fun _ => rfl⟩⟩
        rw [differs, before] at same
        have equal : word = str := by simpa using same
        exact congrArg some equal.symm
    · rename_i failed
      obtain rfl := ok.inj done
      exact ⟨.inl, fun _ => ⟨fun _ => id, fun passed => absurd passed failed⟩⟩
  | noMatch | extendMatch | ipv4PrefixMatch | ipv4Match | ipv6PrefixMatch | ipv6Match | rangeMatch
  | varargMatch =>
    exact ⟨fun _ => .inr rfl, fun impossible => by cases impossible⟩

theorem ambiguousDescs_ok {descvec : List Word} {seen after}
    (done : descvec.foldlM (ambiguousDesc command type) seen = .ok after) :
    (after.2 = true → seen.2 = true ∨ ∃ str ∈ descvec, passes command type str = true) ∧
      (type = .partlyMatch → (∀ word, seen.1 = some word → after.1 = some word) ∧
        ∀ str ∈ descvec, passes command .partlyMatch str = true → after.1 = some str) := by
  induction descvec generalizing seen with
  | nil =>
    obtain rfl := ok.inj done
    exact ⟨.inl, fun _ => ⟨fun _ => id, nofun⟩⟩
  | cons str rest ih =>
    rw [foldlM_cons] at done
    cases first : ambiguousDesc command type seen str with
    | error result =>
      rw [first] at done
      cases done
    | ok middle =>
      rw [first] at done
      obtain ⟨found, stays⟩ := ambiguousDesc_ok first
      obtain ⟨later, remains⟩ := ih done
      refine ⟨fun flag => ?_, fun partly => ⟨fun word before => ?_, fun other member passed => ?_⟩⟩
      · rcases later flag with flag | ⟨other, member, passed⟩
        · rcases found flag with flag | passed
          · exact .inl flag
          · exact .inr ⟨str, mem_cons_self, passed⟩
        · exact .inr ⟨other, .tail _ member, passed⟩
      · exact (remains partly).1 word ((stays partly).1 word before)
      · rcases mem_cons.mp member with rfl | member
        · exact (remains partly).1 _ ((stays partly).2 passed)
        · exact (remains partly).2 other member passed

/-- The commands that are kept have an alternative that passes; a word that begins keywords begins
  one only. -/
theorem ambiguousFrom_ok {matched : Option Word}
    (done : ambiguousFrom command index type matched v = .ok kept) :
    (∀ cmd ∈ kept, cmd ∈ v ∧ ∃ str ∈ cmd.position index, passes command type str = true) ∧
      (type = .partlyMatch → ∃ only, (∀ word, matched = some word → word = only) ∧
        ∀ cmd ∈ v, ∀ str ∈ cmd.position index, passes command .partlyMatch str = true →
          str = only) := by
  induction v generalizing matched kept with
  | nil =>
    obtain rfl := ok.inj done
    refine ⟨nofun, fun _ => ⟨matched.getD [], ?_, fun _ member => ?_⟩⟩
    · rintro word rfl
      rfl
    · exact nomatch member
  | cons cmd rest ih =>
    rw [ambiguousFrom] at done
    cases here : cmd.strvec[index]? with
    | none =>
      rw [here] at done
      cases done
    | some descvec =>
      rw [here] at done
      dsimp only at done
      cases one : descvec.foldlM (ambiguousDesc command type) (matched, false) with
      | error result =>
        rw [one] at done
        cases done
      | ok after =>
        rw [one] at done
        cases others : ambiguousFrom command index type after.1 rest with
        | error result =>
          rw [Except.bind, others] at done
          cases done
        | ok tail =>
          rw [Except.bind, others] at done
          obtain rfl := ok.inj done
          obtain ⟨found, stays⟩ := ambiguousDescs_ok one
          obtain ⟨keeps, unique⟩ := ih others
          rw [← position_eq here] at found stays
          refine ⟨fun other member => ?_, fun partly => ?_⟩
          · have old : other ∈ tail → other ∈ cmd :: rest ∧
                ∃ str ∈ other.position index, passes command type str = true :=
              fun member => ⟨.tail _ (keeps other member).1, (keeps other member).2⟩
            split at member
            · rename_i flag
              rcases mem_cons.mp member with rfl | member
              · exact ⟨mem_cons_self, (found flag).resolve_left nofun⟩
              · exact old member
            · exact old member
          · obtain ⟨only, before, all⟩ := unique partly
            obtain ⟨keep, set⟩ := stays partly
            refine ⟨only, fun word seen => before word (keep word seen),
              fun other member str there passed => ?_⟩
            rcases mem_cons.mp member with rfl | member
            · exact before str (set str there passed)
            · exact all other member str there passed

end Ambiguous

/-! The matchers answer no, partly or exactly -/

/-- What the matchers of addresses answer; not all of them know parts. -/
inductive Graded (parts : Prop) : MatchType → Prop
  | no : Graded parts .noMatch
  | whole : Graded parts .exactMatch
  | part : parts → Graded parts .partlyMatch

namespace Graded
variable {parts condition : Prop} [Decidable condition] {first second : MatchType}

theorem ite (firstly : Graded parts first) (secondly : Graded parts second) :
    Graded parts (if condition then first else second) := by
  split
  · exact firstly
  · exact secondly

theorem complete (graded : Graded parts first) (some_ : first ≠ .noMatch)
    (full : parts → first ≠ .partlyMatch) :
    first = .exactMatch := by
  cases graded with
  | no => exact absurd rfl some_
  | whole => rfl
  | part known => exact absurd rfl (full known)

end Graded

section Matchers
open Zebra.Graded
section
variable (str : Word)

theorem ipv4From_graded : ∀ dots nums num, Graded True (ipv4From dots nums num str) := by
  induction str with
  | nil => exact fun _ _ _ => ite no (ite (part trivial) whole)
  | cons c rest ih =>
    intro dots nums num
    exact ite (ite no (ite no (ite (part trivial) (ite no (ih ..))))) (ite no (ih ..))

theorem ipv4Mask_graded : Graded True (ipv4Mask str) :=
  ite no (ite no whole)

theorem ipv4PrefixFrom_graded : ∀ dots num, Graded True (ipv4PrefixFrom dots num str) := by
  induction str with
  | nil => exact fun _ _ => ite no (part trivial)
  | cons c rest ih =>
    intro dots num
    refine ite ?_ (ite ?_ (ite no (ih ..)))
    · exact ite no (ite (ite (part trivial) (ipv4Mask_graded rest)) (ih ..))
    · exact ite no (ite no (ite (part trivial) (ite no (ih ..))))

theorem ipv6From_graded : ∀ scan, Graded False (ipv6From scan str) := by
  induction str with
  | nil => exact fun _ => whole
  | cons c rest ih =>
    intro scan
    rw [ipv6From]
    split
    · exact no
    · exact ite no (ih _)

theorem ipv6Mask_graded : Graded True (ipv6Mask str) := by
  rw [ipv6Mask]
  split
  exact ite no (ite no whole)

end

theorem of_refused {condition : Prop} [Decidable condition]
    {after : Except MatchType Ipv6Scan} {result}
    (stopped : (if condition then .error .noMatch else after) = .error result)
    (later : after = .error result → Graded True result) : Graded True result := by
  split at stopped
  · exact error.inj stopped ▸ no
  · exact later stopped

theorem ipv6PrefixStep_graded {scan c next result}
    (stopped : ipv6PrefixStep scan c next = .error result) :
    Graded True result := by
  rw [ipv6PrefixStep] at stopped
  split at stopped
  · exact of_refused stopped nofun
  · exact of_refused stopped nofun
  · by_cases ends : next = some ':' ∨ next = some '.' ∨ next = none ∨ next = some '/'
    · rw [if_pos ends] at stopped
      exact of_refused stopped fun short => of_refused short nofun
    · rw [if_neg ends] at stopped
      cases stopped
  · cases stopped
  · split at stopped
    · exact error.inj stopped ▸ part trivial
    · cases stopped
  · cases stopped

theorem ipv6PrefixFrom_graded (str : Word) : ∀ scan, Graded True (ipv6PrefixFrom scan str) := by
  induction str with
  | nil => exact fun _ => ite (ipv6Mask_graded []) (part trivial)
  | cons c rest ih =>
    intro scan
    refine ite (ipv6Mask_graded _) ?_
    split
    · rename_i stopped
      exact ipv6PrefixStep_graded stopped
    · exact ite no (ih _)

theorem cmdIpv6Match_graded (word : Word) : Graded False (cmdIpv6Match word) := by
  refine ite no ?_
  split
  · exact whole
  · split
    · exact no
    · exact ipv6From_graded ..

theorem cmdIpv6PrefixMatch_graded (word : Word) : Graded True (cmdIpv6PrefixMatch word) := by
  refine ite no ?_
  split
  · exact part trivial
  · split
    · exact no
    · exact ipv6PrefixFrom_graded ..

end Matchers

/-! What the filters let through -/

section Alternatives
variable {strict : Bool} {others : List CmdElement} {index : Nat} {str word : Word}

theorem keyword_kinds (is : keyword str = true) :
    cmdVararg str = false ∧ cmdRange str = false ∧ cmdIpv6 str = false ∧
    cmdIpv6Prefix str = false ∧ cmdIpv4 str = false ∧ cmdIpv4Prefix str = false ∧
    (cmdOption str || cmdVariable str) = false := by
  rw [keyword, Bool.not_eq_true', Bool.or_eq_false_iff, Bool.or_eq_false_iff] at is
  obtain ⟨⟨vararg, option⟩, variable_⟩ := is
  have other (name : Word) (upper : cmdVariable name = true) : decide (str = name) = false := by
    refine decide_eq_false fun same => ?_
    rw [same, upper] at variable_
    cases variable_
  refine ⟨vararg, ?_, other _ (by decide), other _ (by decide), other _ (by decide),
    other _ (by decide), ?_⟩
  · rw [cmdRange, decide_eq_false_iff_not]
    intro range
    rw [cmdVariable, range] at variable_
    cases variable_
  · rw [option, variable_]
    rfl

theorem descMatch_keyword (is : keyword str = true) : descMatch strict str word =
    if word = str then .exactMatch else if !strict && word.isPrefixOf str then .partlyMatch
    else .noMatch := by
  obtain ⟨vararg, range, ipv6, ipv6Prefix, ipv4, ipv4Prefix, variable_⟩ := keyword_kinds is
  rw [descMatch, vararg, range, ipv6, ipv6Prefix, ipv4, ipv4Prefix, variable_]
  rfl

theorem accepts_keyword (is : keyword str = true) : Accepts strict others index str word ↔
    word = str ∨ strict = false ∧ word <+: str ∧ Unambiguous others index str word := by
  obtain ⟨vararg, range, ipv6, ipv6Prefix, ipv4, ipv4Prefix, variable_⟩ := keyword_kinds is
  rw [Accepts, vararg, range, ipv6, ipv6Prefix, ipv4, ipv4Prefix, variable_]
  rfl

theorem not_keyword (other : ¬keyword str = true) :
    cmdVararg str = true ∨ (cmdOption str || cmdVariable str) = true := by
  rw [keyword, Bool.not_eq_true, Bool.not_eq_false', Bool.or_assoc, Bool.or_eq_true] at other
  exact other

theorem taken_cases {result kind : MatchType}
    (taken : (if (if strict = true then decide (result = .exactMatch)
      else decide (result ≠ .noMatch)) = true then kind
      else .noMatch) ≠ .noMatch) : result ≠ .noMatch ∧ (strict = true → result = .exactMatch) := by
  cases strict with
  | true =>
    have exact_ : result = .exactMatch := by
      by_contra other
      exact taken (if_neg (by rw [if_pos rfl, decide_eq_true_eq]; exact other))
    exact ⟨by rw [exact_]; decide, fun _ => exact_⟩
  | false =>
    refine ⟨fun none_ => taken (if_neg ?_), fun impossible => nomatch impossible⟩
    rw [if_neg nofun, decide_eq_true_eq, not_not]
    exact none_

theorem taken_exact {parts : Prop} {result kind : MatchType} (graded : Graded parts result)
    (taken : (if (if strict = true then decide (result = .exactMatch)
      else decide (result ≠ .noMatch)) = true then kind
      else .noMatch) ≠ .noMatch) (whole : strict = false → parts → result ≠ .partlyMatch) : result =
      .exactMatch := by
  obtain ⟨some_, strictly⟩ := taken_cases taken
  cases strict with
  | true => exact strictly rfl
  | false => exact graded.complete some_ (whole rfl)

/-- What a filter lets through matches, unless it is a keyword or a part of an address. -/
theorem accepts_of_match (matched : descMatch strict str word ≠ .noMatch)
    (whole : strict = false → ¬InPart str word)
    (other : ¬keyword str = true) : Accepts strict others index str word := by
  rw [descMatch] at matched
  rw [Accepts]
  by_cases vararg : cmdVararg str = true
  · rw [if_pos vararg]
    trivial
  rw [if_neg vararg] at matched ⊢
  by_cases range : cmdRange str = true
  · rw [if_pos range] at matched ⊢
    split at matched
    · assumption
    · exact absurd rfl matched
  rw [if_neg range] at matched ⊢
  by_cases ipv6 : cmdIpv6 str = true
  · rw [if_pos ipv6] at matched ⊢
    exact taken_exact (cmdIpv6Match_graded word) matched nofun
  rw [if_neg ipv6] at matched ⊢
  by_cases ipv6Prefix : cmdIpv6Prefix str = true
  · rw [if_pos ipv6Prefix] at matched ⊢
    exact taken_exact (cmdIpv6PrefixMatch_graded word) matched fun lenient _ part =>
      whole lenient (.inl ⟨ipv6Prefix, part⟩)
  rw [if_neg ipv6Prefix] at matched ⊢
  by_cases ipv4 : cmdIpv4 str = true
  · rw [if_pos ipv4] at matched ⊢
    exact taken_exact (ipv4From_graded word ..) matched fun lenient _ part =>
      whole lenient (.inr (.inl ⟨ipv4, part⟩))
  rw [if_neg ipv4] at matched ⊢
  by_cases ipv4Prefix : cmdIpv4Prefix str = true
  · rw [if_pos ipv4Prefix] at matched ⊢
    exact taken_exact (ipv4PrefixFrom_graded word ..) matched fun lenient _ part =>
      whole lenient (.inr (.inr ⟨ipv4Prefix, part⟩))
  rw [if_neg ipv4Prefix]
  rw [if_pos ((not_keyword other).resolve_left vararg)]
  trivial

/-- Whatever matches is let through, and is not a part of an address. -/
theorem match_of_accepts (accepts : Accepts false others index str word) :
    descMatch false str word ≠ .noMatch ∧ ¬InPart str word := by
  have inPart (part : InPart str word) :
      (str = "X:X::X:X/M".toList ∧ cmdIpv6PrefixMatch word = .partlyMatch) ∨
      (str = "A.B.C.D".toList ∧ cmdIpv4Match word = .partlyMatch) ∨
      (str = "A.B.C.D/M".toList ∧ cmdIpv4PrefixMatch word = .partlyMatch) := by
    obtain ⟨ipv6Prefix, part⟩ | ⟨ipv4, part⟩ | ⟨ipv4Prefix, part⟩ := part
    · exact .inl ⟨of_decide_eq_true ipv6Prefix, part⟩
    · exact .inr (.inl ⟨of_decide_eq_true ipv4, part⟩)
    · exact .inr (.inr ⟨of_decide_eq_true ipv4Prefix, part⟩)
  constructor
  · rw [descMatch]
    rw [Accepts] at accepts
    by_cases vararg : cmdVararg str = true
    · rw [if_pos vararg]
      decide
    rw [if_neg vararg] at accepts ⊢
    by_cases range : cmdRange str = true
    · rw [if_pos range] at accepts ⊢
      rw [if_pos accepts]
      decide
    rw [if_neg range] at accepts ⊢
    by_cases ipv6 : cmdIpv6 str = true
    · rw [if_pos ipv6] at accepts ⊢
      rw [accepts]
      decide
    rw [if_neg ipv6] at accepts ⊢
    by_cases ipv6Prefix : cmdIpv6Prefix str = true
    · rw [if_pos ipv6Prefix] at accepts ⊢
      rw [accepts]
      decide
    rw [if_neg ipv6Prefix] at accepts ⊢
    by_cases ipv4 : cmdIpv4 str = true
    · rw [if_pos ipv4] at accepts ⊢
      rw [accepts]
      decide
    rw [if_neg ipv4] at accepts ⊢
    by_cases ipv4Prefix : cmdIpv4Prefix str = true
    · rw [if_pos ipv4Prefix] at accepts ⊢
      rw [accepts]
      decide
    rw [if_neg ipv4Prefix] at accepts ⊢
    by_cases variable_ : (cmdOption str || cmdVariable str) = true
    · rw [if_pos variable_]
      decide
    rw [if_neg variable_] at accepts ⊢
    by_cases same : word = str
    · rw [if_pos same]
      decide
    · obtain ⟨-, begins, -⟩ := accepts.resolve_left same
      rw [if_neg same,
        if_pos (by rw [Bool.not_false, Bool.true_and]; exact isPrefixOf_iff_prefix.mpr begins)]
      decide
  · intro inside
    obtain ⟨rfl, part⟩ | ⟨rfl, part⟩ | ⟨rfl, part⟩ := inPart inside
    · have exact_ : cmdIpv6PrefixMatch word = .exactMatch := accepts
      rw [part] at exact_
      cases exact_
    · have exact_ : cmdIpv4Match word = .exactMatch := accepts
      rw [part] at exact_
      cases exact_
    · have exact_ : cmdIpv4PrefixMatch word = .exactMatch := accepts
      rw [part] at exact_
      cases exact_

end Alternatives

/-! The words of a line -/

/-- The commands that one word leaves. -/
def keepStep (strict : Bool) (word : Word) (v : List CmdElement) (index : Nat) : List CmdElement :=
  match isCmdAmbiguous word (cmdFilter strict word v index).2 index
    (cmdFilter strict word v index).1 with
  | .ok kept => kept
  | .error _ => []

/-- The commands that words leave. -/
def remaining (strict : Bool) : Nat → List CmdElement → List Word → List CmdElement
  | _, v, [] => v
  | index, v, word :: rest => remaining strict (index + 1) (keepStep strict word v index) rest

section Steps
variable {strict : Bool} {word : Word} {v : List CmdElement} {index : Nat} {cmd : CmdElement}

theorem keepStep_filter (member : cmd ∈ keepStep strict word v index) :
    cmd ∈ (cmdFilter strict word v index).2 ∧
    ∃ str ∈ cmd.position index, passes word (cmdFilter strict word v index).1 str = true := by
  rw [keepStep] at member
  split at member
  · rename_i done
    exact (ambiguousFrom_ok done).1 cmd member
  · exact nomatch member

theorem keepStep_subset (member : cmd ∈ keepStep strict word v index) : cmd ∈ v :=
  (mem_cmdFilter.mp (keepStep_filter member).1).1

/-- A keyword that the word begins is the only one, when that is the best match. -/
theorem keepStep_unambiguous (member : cmd ∈ keepStep false word v index)
    (partly : (cmdFilter false word v index).1 = .partlyMatch) {str}
    (there : str ∈ cmd.position index)
    (is : keyword str = true) (begins : word <+: str) : Unambiguous v index str word := by
  rw [keepStep] at member
  split at member
  · rename_i done
    obtain ⟨only, -, all⟩ := (ambiguousFrom_ok done).2 partly
    have passed {other} (keyword_ : keyword other = true) (front : word <+: other) :
        passes word .partlyMatch other = true := by
      rw [passes, (keyword_kinds keyword_).2.2.2.2.2.2]
      exact isPrefixOf_iff_prefix.mpr front
    have mine := all cmd ((ambiguousFrom_ok done).1 cmd member).1 str there (passed is begins)
    intro rival here other place keyword_ front
    have shown : descMatch false other word ≠ .noMatch := by
      rw [descMatch_keyword keyword_]
      split
      · decide
      · rw [if_pos (by rw [Bool.not_false, Bool.true_and]; exact isPrefixOf_iff_prefix.mpr front)]
        decide
    exact (all rival (mem_cmdFilter.mpr ⟨here, other, place, shown⟩) other place
      (passed keyword_ front)).trans mine.symm
  · exact nomatch member

/-- A command that the strict filter leaves accepts the word. -/
theorem accepts_of_keepStep_strict (member : cmd ∈ keepStep true word v index) :
    ∃ str ∈ cmd.position index, Accepts true v index str word := by
  obtain ⟨-, str, there, matched⟩ := mem_cmdFilter.mp (keepStep_filter member).1
  refine ⟨str, there, ?_⟩
  by_cases is : keyword str = true
  · rw [descMatch_keyword is] at matched
    rw [accepts_keyword is]
    split at matched
    · exact .inl ‹_›
    · exact absurd rfl matched
  · exact accepts_of_match matched (fun impossible => by cases impossible) is

/-- A command that completion leaves accepts the word, unless the word is no more than a part of an
  address. -/
theorem accepts_of_keepStep (member : cmd ∈ keepStep false word v index) :
    (∃ str ∈ cmd.position index, Accepts false v index str word) ↔
      ∃ str ∈ cmd.position index, descMatch false str word ≠ .noMatch ∧ ¬InPart str word := by
  constructor
  · rintro ⟨str, there, accepts⟩
    exact ⟨str, there, match_of_accepts accepts⟩
  · rintro ⟨str, there, matched, whole⟩
    by_cases is : keyword str = true
    · -- the best match is this keyword or one that is the word itself
      have best : (descMatch false str word).rank ≤ (cmdFilter false word v index).1.rank :=
        rank_le_best (keepStep_subset member) there
      have shape := matched
      rw [descMatch_keyword is] at best shape
      by_cases same : word = str
      · exact ⟨str, there, (accepts_keyword is).mpr (.inl same)⟩
      · rw [if_neg same] at best shape
        split at shape
        · rename_i begins
          rw [if_pos begins] at best
          have front := isPrefixOf_iff_prefix.mp begins
          cases type : (cmdFilter false word v index).1 with
          | partlyMatch =>
            exact ⟨str, there, (accepts_keyword is).mpr
              (.inr ⟨rfl, front, keepStep_unambiguous member type there is front⟩)⟩
          | exactMatch =>
            obtain ⟨-, other, place, passed⟩ := keepStep_filter member
            rw [type, passes, Bool.and_eq_true, decide_eq_true_eq] at passed
            refine ⟨other, place, ?_⟩
            by_cases isToo : keyword other = true
            · exact (accepts_keyword isToo).mpr (.inl passed.2)
            · have vararg := (not_keyword isToo).resolve_right (by simpa using passed.1)
              rw [Accepts, if_pos vararg]
              trivial
          | noMatch | extendMatch | ipv4PrefixMatch | ipv4Match | ipv6PrefixMatch | ipv6Match
          | rangeMatch | varargMatch =>
            rw [type] at best
            exact nomatch best
        · exact absurd rfl shape
    · exact ⟨str, there, accepts_of_match matched (fun _ => whole) is⟩

theorem remaining_subset {words} : ∀ {index v}, cmd ∈ remaining strict index v words → cmd ∈ v := by
  induction words with
  | nil => exact fun member => member
  | cons word rest ih => exact fun member => keepStep_subset (ih member)

theorem remaining_append (front back : List Word) :
    ∀ index v, remaining strict index v (front ++ back) =
    remaining strict (index + front.length) (remaining strict index v front) back := by
  induction front with
  | nil => exact fun _ _ => rfl
  | cons word rest ih =>
    intro index v
    rw [cons_append, remaining, ih, remaining, length_cons, Nat.add_right_comm, Nat.add_assoc]

theorem remaining_kept {words i} (member : cmd ∈ remaining strict 0 v words)
    (there : words[i]? = some word) :
    cmd ∈ keepStep strict word (remaining strict 0 v (words.take i)) i := by
  have inside : i < words.length := (List.getElem?_eq_some_iff.mp there).1
  have same : words[i] = word := (List.getElem?_eq_some_iff.mp there).2
  have split : words = words.take i ++ word :: words.drop (i + 1) := by
    rw [← same, getElem_cons_drop, take_append_drop]
  rw [split, remaining_append, length_take_of_le (Nat.le_of_lt inside), Nat.zero_add] at member
  exact remaining_subset member

theorem findFrom_ok {words} : ∀ {index match_ v last best final},
    findFrom (cmdFilter strict) index match_ v words = .ok (last, best, final) →
      (last = index + words.length ∧ final = remaining strict index v words ∧
        (best = .varargMatch → best = match_)) ∨
      best = .varargMatch ∧ ∃ front word back, words = front ++ word :: back ∧
      last = index + front.length ∧
        cmdFilter strict word (remaining strict index v front) last = (.varargMatch, final) := by
  induction words with
  | nil =>
    intro index match_ v last best final done
    obtain ⟨rfl, rfl, rfl⟩ : index = last ∧ match_ = best ∧ v = final := by
      have same := ok.inj done
      exact ⟨(mk.inj same).1, (mk.inj (mk.inj same).2).1, (mk.inj (mk.inj same).2).2⟩
    exact .inl ⟨rfl, rfl, fun _ => rfl⟩
  | cons word rest ih =>
    intro index match_ v last best final done
    rw [findFrom] at done
    by_cases vararg : (cmdFilter strict word v index).1 = .varargMatch
    · rw [if_pos vararg] at done
      have same := ok.inj done
      obtain ⟨rfl, tail⟩ := mk.inj same
      cases tail
      exact .inr ⟨vararg, [], word, rest, rfl, rfl, Prod.ext vararg rfl⟩
    · rw [if_neg vararg] at done
      cases step : isCmdAmbiguous word (cmdFilter strict word v index).2 index
        (cmdFilter strict word v index).1 with
      | error result =>
        rw [step] at done
        cases done
      | ok kept =>
        rw [step] at done
        have keeps : keepStep strict word v index = kept := by rw [keepStep, step]
        obtain ⟨place, left, type⟩ | ⟨type, front, other, back, split, place, ends⟩ := ih done
        · refine .inl ⟨?_, ?_, fun same => absurd ((type same).symm.trans same) vararg⟩
          · rw [length_cons]
            omega
          · rw [left, remaining, keeps]
        · refine .inr ⟨type, word :: front, other, back, congrArg (word :: ·) split, ?_, ?_⟩
          · rw [length_cons]
            omega
          · rw [remaining, keeps]
            exact ends

end Steps

/-! The command that is found -/

theorem cmdCmdsize_le (strvec : List (List Word)) : cmdCmdsize strvec ≤ strvec.length := by
  induction strvec with
  | nil => exact Nat.le_refl _
  | cons descvec rest ih =>
    rw [cmdCmdsize.eq_def]
    split
    · exact Nat.zero_le _
    · rename_i str more same
      cases same
      split
      · exact Nat.zero_le _
      · exact Nat.succ_le_succ ih
    · rename_i more other same
      cases same
      exact Nat.succ_le_succ ih

theorem Installed.cmdsize {cmd} (installed : Installed cmd) :
    cmd.cmdsize = cmdCmdsize cmd.strvec := by
  obtain ⟨string, func, daemon, built⟩ := installed.built
  obtain ⟨strvec, -, rfl⟩ := map_eq_some_iff.mp built
  rfl

section Found
variable {strict : Bool} {node : List CmdElement} {vline : List Word} {last : Nat}
  {best : MatchType} {final : List CmdElement} {cmd : CmdElement}

theorem soleCommand_ok (sole : soleCommand last best final = .ok cmd) :
    cmd ∈ final ∧ (best = .varargMatch ∨ cmd.cmdsize ≤ last) ∧
    (best = .varargMatch → final = [cmd]) := by
  rw [soleCommand] at sole
  split at sole
  · cases sole
  · rename_i only filtered
    obtain rfl := ok.inj sole
    have member : only ∈ final.filter fun cmd => best = .varargMatch || cmd.cmdsize ≤ last := by
      rw [filtered]
      exact mem_singleton_self only
    obtain ⟨here, passed⟩ := mem_filter.mp member
    rw [Bool.or_eq_true, decide_eq_true_eq, decide_eq_true_eq] at passed
    refine ⟨here, passed, fun vararg => ?_⟩
    rw [← filtered, filter_eq_self.mpr]
    intro other _
    rw [Bool.or_eq_true, decide_eq_true_eq]
    exact .inl vararg
  · cases sole

/-- What is known of a command that is found. -/
structure Found (strict : Bool) (node : List CmdElement) (vline : List Word) (cmd : CmdElement) :
    Prop where
  installed : cmd ∈ node
  enough : cmd.cmdsize ≤ vline.length
  within : EndsVararg cmd.strvec ∨ vline.length ≤ cmd.strvec.length
  kept : ∀ i word, vline[i]? = some word → i < cmd.strvec.length →
    cmd ∈ keepStep strict word (remaining strict 0 node (vline.take i)) i ∨
      ∃ str ∈ cmd.position i, cmdVararg str

theorem found_of_ok (installed : ∀ cmd ∈ node, Installed cmd)
    (done : findFrom (cmdFilter strict) 0 .noMatch node vline = .ok (last, best, final))
    (sole : soleCommand last best final = .ok cmd) : Found strict node vline cmd := by
  obtain ⟨here, enough, alone⟩ := soleCommand_ok sole
  obtain ⟨place, left, type⟩ | ⟨vararg, front, word, back, split, place, ends⟩ := findFrom_ok done
  · rw [Nat.zero_add] at place
    have other : best ≠ .varargMatch := by
      intro vararg
      rw [type vararg] at vararg
      cases vararg
    rw [left] at here
    refine ⟨remaining_subset here, place ▸ enough.resolve_left other, .inr ?_,
      fun i word there _ => ?_⟩
    · by_contra longer
      have inside : cmd.strvec.length < vline.length := Nat.lt_of_not_le longer
      have kept := remaining_kept here (getElem?_eq_getElem inside)
      obtain ⟨str, member, -⟩ := (mem_cmdFilter.mp (keepStep_filter kept).1).2
      exact absurd (position_lt member) (Nat.lt_irrefl _)
    · exact .inl (remaining_kept here there)
  · rw [Nat.zero_add] at place
    -- the vararg is the command's own, as it is the only one
    have filtered : (cmdFilter strict word (remaining strict 0 node front) last).2 = [cmd] := by
      rw [ends]
      exact alone vararg
    have best : (cmdFilter strict word (remaining strict 0 node front) last).1 =
      .varargMatch := by rw [ends]
    obtain ⟨owner, among, str, member, match_⟩ := best_mem (by rw [best]; decide)
    rw [best] at match_
    have same : owner = cmd := by
      have passed := mem_cmdFilter.mpr ⟨among, str, member, by rw [← match_]; decide⟩
      rw [filtered] at passed
      exact mem_singleton.mp passed
    rw [same] at member among
    have isVararg : cmdVararg str = true := by
      by_contra other
      by_cases is : keyword str = true
      · rw [descMatch_keyword is] at match_
        split at match_
        · cases match_
        · split at match_
          · cases match_
          · cases match_
      · rw [descMatch, if_neg other] at match_
        repeat' split at match_
        all_goals cases match_
    have mine := installed cmd (remaining_subset among)
    have inside := position_lt member
    have position : cmd.strvec[last]? = some (cmd.position last) := by
      rw [CmdElement.position, getD_eq_getElem?_getD, getElem?_eq_getElem inside, getD_some]
    obtain ⟨ending, single⟩ := mine.last last _ position ⟨str, member, isVararg⟩
    have only : cmd.position last = [str] := by
      obtain ⟨one, shape⟩ := length_eq_one_iff.mp single
      rw [shape] at member ⊢
      rw [mem_singleton.mp member]
    refine ⟨remaining_subset among, ?_, .inl ⟨str, ?_, isVararg⟩, fun i found there bound => ?_⟩
    · have size := cmdCmdsize_le cmd.strvec
      rw [mine.cmdsize, split, length_append, length_cons]
      omega
    · rw [getLast?_eq_getElem?, ← ending, Nat.add_sub_cancel, position, only]
    · by_cases early : i < front.length
      · have early_ : front[i]? = some found := by
          rw [split, getElem?_append_left early] at there
          exact there
        have kept := remaining_kept among early_
        rw [split, take_append_of_le_length (Nat.le_of_lt early)]
        exact .inl kept
      · have here : i = last := by omega
        exact .inr ⟨str, here ▸ member, isVararg⟩

end Found

/-! The arguments -/

section Args
variable {strvec : List (List Word)} {vline argv : List Word} {i : Nat}

theorem pushArg_ok {word} (few : argv.length < cmdArgcMax) :
    (pushArg argv word = .error .errExeedArgcMax ∧ cmdArgcMax ≤ argv.length + 1) ∨
      (pushArg argv word = .ok (argv ++ [word]) ∧ argv.length + 1 < cmdArgcMax) := by
  rw [pushArg, if_neg (Nat.not_le_of_lt few)]
  by_cases many : cmdArgcMax ≤ argv.length + 1
  · exact .inl ⟨if_pos many, many⟩
  · exact .inr ⟨if_neg many, Nat.lt_of_not_le many⟩

theorem argsAt_cons (word : Word) (rest : List Word) :
    argsAt strvec i (word :: rest) = if isArg strvec i then word :: argsAt strvec (i + 1) rest
    else argsAt strvec (i + 1) rest := by
  rw [argsAt, zipIdx_cons, filter_cons]
  split
  · rfl
  · rfl

/-- Behind a vararg there are no positions, and all words are arguments. -/
def Behind (strvec : List (List Word)) (flag : Bool) (i : Nat) (vline : List Word) : Prop :=
  if flag then strvec.length ≤ i else i + vline.length ≤ strvec.length ∨
    i < strvec.length ∧ EndsVararg strvec

theorem isArg_behind (beyond : strvec.length ≤ i) : isArg strvec i = true := by
  rw [isArg, getElem?_eq_none beyond]

/-- The loop over the words reads no position that there is not, and collects the arguments. -/
theorem argsFrom_cases (lastOnly : VarargLast strvec) :
    ∀ {flag i argv}, argv.length < cmdArgcMax → Behind strvec flag i vline →
    argsFrom strvec flag i argv vline = .error .errExeedArgcMax ∨
      argsFrom strvec flag i argv vline = .ok (argv ++ argsAt strvec i vline) ∧
        (argv ++ argsAt strvec i vline).length < cmdArgcMax := by
  induction vline with
  | nil =>
    intro flag i argv few _
    have none_ : argv ++ argsAt strvec i [] = argv := append_nil _
    rw [none_]
    exact .inr ⟨rfl, few⟩
  | cons word rest ih =>
    intro flag i argv few behind
    -- a word that is an argument
    have push (next : Bool) (is : isArg strvec i = true) (after : Behind strvec next (i + 1) rest) :
        ((pushArg argv word).bind fun argv => argsFrom strvec next (i + 1) argv rest) =
          .error .errExeedArgcMax ∨
          ((pushArg argv word).bind fun argv => argsFrom strvec next (i + 1) argv rest) =
            .ok (argv ++ argsAt strvec i (word :: rest)) ∧
              (argv ++ argsAt strvec i (word :: rest)).length < cmdArgcMax := by
      rw [argsAt_cons, if_pos is, append_cons]
      rcases @pushArg_ok argv word few with ⟨pushed, -⟩ | ⟨pushed, more⟩
      · rw [pushed]
        exact .inl rfl
      · rw [pushed]
        exact ih (by rw [length_append]; exact more) after
    cases flag with
    | true =>
      have beyond : strvec.length ≤ i := behind
      exact push true (isArg_behind beyond) (Nat.le_succ_of_le beyond)
    | false =>
      have inside : i < strvec.length := by
        obtain short | ⟨inside, -⟩ : i + (word :: rest).length ≤ strvec.length ∨
          i < strvec.length ∧ EndsVararg strvec := behind
        · rw [length_cons] at short
          omega
        · exact inside
      have later (notVararg : ∀ str, strvec[i]? = some [str] → cmdVararg str = false) :
          Behind strvec false (i + 1) rest := by
        obtain short | ⟨-, str, ends, vararg⟩ :
            i + (word :: rest).length ≤ strvec.length ∨ i < strvec.length ∧ EndsVararg strvec :=
          behind
        · rw [length_cons] at short
          exact .inl (by omega)
        · refine .inr ⟨?_, str, ends, vararg⟩
          by_contra beyond
          have final : i = strvec.length - 1 := by omega
          rw [getLast?_eq_getElem?, ← final] at ends
          rw [notVararg str ends] at vararg
          cases vararg
      obtain ⟨descvec, here⟩ : ∃ descvec, strvec[i]? = some descvec :=
        ⟨_, getElem?_eq_getElem inside⟩
      have single (str : Word) (shape : descvec = [str]) :
          isArg strvec i = (cmdVararg str || cmdVariable str || cmdOption str) := by
        rw [isArg, here, shape]
      rw [argsFrom, here]
      split
      · rename_i none_
        cases none_
      · rename_i str same
        cases same
        split
        · rename_i is
          refine push _ ((single str rfl).trans is) ?_
          cases vararg : cmdVararg str with
          | true =>
            obtain ⟨ending, -⟩ := lastOnly i _ here ⟨str, mem_singleton_self str, vararg⟩
            exact Nat.le_of_eq ending.symm
          | false =>
            refine later fun other place => ?_
            rw [here] at place
            rw [← (cons.inj (some.inj place)).1]
            exact vararg
        · rename_i none_
          rw [argsAt_cons, if_neg (by rw [single str rfl]; exact none_)]
          refine ih few (later fun other place => ?_)
          rw [here] at place
          rw [← (cons.inj (some.inj place)).1]
          rw [Bool.or_assoc, Bool.not_eq_true, Bool.or_eq_false_iff] at none_
          exact none_.1
      · rename_i several same
        cases same
        have notSingle (str : Word) : strvec[i]? ≠ some [str] := by
          intro place
          rw [here] at place
          exact several str (some.inj place)
        refine push false ?_ (later fun str place => absurd place (notSingle str))
        rw [isArg]
        split
        · rename_i str place
          exact absurd place (notSingle str)
        · rfl

end Args

/-! No index is out of bounds -/

section Bounds
variable {strict : Bool} {command : Word} {index : Nat} {type : MatchType} {v : List CmdElement}

/-- The line stands for no command. -/
def CmdResult.refuses : CmdResult → Bool
  | .errNoMatch | .errAmbiguous | .errIncomplete => true
  | _ => false

variable {result : CmdResult}

theorem ambiguousDesc_error {seen str}
    (stopped : ambiguousDesc command type seen str = .error result) : result.refuses = true := by
  rw [ambiguousDesc.eq_def] at stopped
  repeat' split at stopped
  all_goals cases stopped
  all_goals rfl

theorem ambiguousDescs_error {descvec : List Word} : ∀ {seen},
    descvec.foldlM (ambiguousDesc command type) seen = .error result → result.refuses = true := by
  induction descvec with
  | nil => exact fun stopped => by cases stopped
  | cons str rest ih =>
    intro seen stopped
    rw [foldlM_cons] at stopped
    cases first : ambiguousDesc command type seen str with
    | error other =>
      rw [first] at stopped
      obtain rfl := error.inj stopped
      exact ambiguousDesc_error first
    | ok middle =>
      rw [first] at stopped
      exact ih stopped

theorem ambiguousFrom_error (inside : ∀ cmd ∈ v, index < cmd.strvec.length) : ∀ {matched},
    ambiguousFrom command index type matched v = .error result → result.refuses = true := by
  induction v with
  | nil => exact fun stopped => by cases stopped
  | cons cmd rest ih =>
    intro matched stopped
    obtain ⟨desc, present⟩ : ∃ desc, cmd.strvec[index]? = some desc :=
      ⟨_, getElem?_eq_getElem (inside cmd mem_cons_self)⟩
    rw [ambiguousFrom, present] at stopped
    dsimp only at stopped
    cases one : desc.foldlM (ambiguousDesc command type) (matched, false) with
    | error other =>
      rw [one] at stopped
      obtain rfl := error.inj stopped
      exact ambiguousDescs_error one
    | ok after =>
      cases others : ambiguousFrom command index type after.1 rest with
      | error other =>
        rw [one, Except.bind, others] at stopped
        obtain rfl := error.inj stopped
        exact ih (fun cmd member => inside cmd (.tail _ member)) others
      | ok kept =>
        rw [one, Except.bind, others] at stopped
        cases stopped

theorem findFrom_error {words} : ∀ {index match_ v},
    findFrom (cmdFilter strict) index match_ v words = .error result → result.refuses = true := by
  induction words with
  | nil => exact fun stopped => by cases stopped
  | cons word rest ih =>
    intro index match_ v stopped
    rw [findFrom] at stopped
    by_cases vararg : (cmdFilter strict word v index).1 = .varargMatch
    · rw [if_pos vararg] at stopped
      cases stopped
    · rw [if_neg vararg] at stopped
      cases step : isCmdAmbiguous word (cmdFilter strict word v index).2 index
        (cmdFilter strict word v index).1 with
      | error other =>
        rw [step] at stopped
        obtain rfl := error.inj stopped
        refine ambiguousFrom_error (fun cmd member => ?_) step
        obtain ⟨-, str, there, -⟩ := mem_cmdFilter.mp member
        exact position_lt there
      | ok kept =>
        rw [step] at stopped
        exact ih stopped

theorem soleCommand_error {last best final}
    (stopped : soleCommand last best final = .error result) : result.refuses = true := by
  rw [soleCommand] at stopped
  split at stopped
  · obtain rfl := error.inj stopped
    split <;> rfl
  · cases stopped
  · obtain rfl := error.inj stopped
    rfl

end Bounds

/-! What an invoked command has -/

/-- The line has words for the command, and the command gets its arguments. -/
structure Invoked (node : List CmdElement) (vline : List Word) (cmd : CmdElement)
    (argv : List Word) : Prop where
  installed : cmd ∈ node
  enough : cmd.cmdsize ≤ vline.length
  within : EndsVararg cmd.strvec ∨ vline.length ≤ cmd.strvec.length
  args : argv = argsAt cmd.strvec 0 vline
  argc : argv.length < cmdArgcMax

/-- Each word matches its position. -/
def Matches (strict : Bool) (node : List CmdElement) (vline : List Word)
    (cmd : CmdElement) : Prop :=
  ∀ i word, vline[i]? = some word → i < cmd.strvec.length →
    ∃ str ∈ cmd.position i, Accepts strict (remaining strict 0 node (vline.take i)) i str word

section Execution
variable {strict : Bool} {node : List CmdElement} {vline : List Word} {cmd : CmdElement}

theorem EndsVararg.pos {strvec} (ends : EndsVararg strvec) : 0 < strvec.length := by
  obtain ⟨str, last, -⟩ := ends
  rw [length_pos_iff]
  rintro rfl
  cases last

theorem Found.behind (found : Found strict node vline cmd) : Behind cmd.strvec false 0 vline := by
  rcases found.within with ends | short
  · exact .inr ⟨ends.pos, ends⟩
  · exact .inl (Nat.le_trans (Nat.le_of_eq (Nat.zero_add _)) short)

theorem Found.run_cases (found : Found strict node vline cmd) (installed : Installed cmd) :
    runCommand cmd vline = .errExeedArgcMax ∨
      (runCommand cmd vline = .successDaemon cmd ∨
        runCommand cmd vline = .invoked cmd (argsAt cmd.strvec 0 vline)) ∧
        (argsAt cmd.strvec 0 vline).length < cmdArgcMax := by
  rw [runCommand]
  obtain stopped | ⟨done, few⟩ :=
    argsFrom_cases installed.last (show ([] : List Word).length < cmdArgcMax by decide) found.behind
  · rw [stopped]
    exact .inl rfl
  · rw [done]
    dsimp only
    refine .inr ⟨?_, few⟩
    split
    · exact .inl rfl
    · exact .inr rfl

theorem cmdExecute_cases (installed : ∀ cmd ∈ node, Installed cmd) :
    cmdExecute (cmdFilter strict) node vline ≠ .outOfBounds ∧ ∀ cmd argv,
      cmdExecute (cmdFilter strict) node vline = .invoked cmd argv →
        Found strict node vline cmd ∧ Invoked node vline cmd argv := by
  have refused (result : CmdResult) (refuses : result.refuses = true) :
      result ≠ .outOfBounds ∧ ∀ cmd argv, result = .invoked cmd argv →
        Found strict node vline cmd ∧ Invoked node vline cmd argv := by
    refine ⟨?_, fun cmd argv => ?_⟩
    · rintro rfl
      cases refuses
    · rintro rfl
      cases refuses
  rw [cmdExecute]
  cases done : findFrom (cmdFilter strict) 0 .noMatch node vline with
  | error result => exact refused result (findFrom_error done)
  | ok state =>
    obtain ⟨last, best, final⟩ := state
    dsimp only
    cases sole : soleCommand last best final with
    | error result => exact refused result (soleCommand_error sole)
    | ok only =>
      dsimp only
      have found := found_of_ok installed done sole
      obtain many | ⟨result | result, few⟩ := found.run_cases (installed only found.installed)
      · rw [many]
        exact ⟨CmdResult.noConfusion, fun _ _ impossible => by cases impossible⟩
      · rw [result]
        exact ⟨CmdResult.noConfusion, fun _ _ impossible => by cases impossible⟩
      · rw [result]
        refine ⟨CmdResult.noConfusion, fun cmd argv same => ?_⟩
        obtain ⟨rfl, rfl⟩ := CmdResult.invoked.inj same
        exact ⟨found, found.installed, found.enough, found.within, rfl, few⟩

/-- Every word of a line that the strict filter leaves a command matches. -/
theorem Found.matches_strict (found : Found true node vline cmd) : Matches true node vline cmd := by
  intro i word there inside
  rcases found.kept i word there inside with kept | ⟨str, member, vararg⟩
  · exact accepts_of_keepStep_strict kept
  · refine ⟨str, member, ?_⟩
    rw [Accepts, if_pos vararg]
    trivial

theorem Found.matches_iff (found : Found false node vline cmd) :
    Matches false node vline cmd ↔ Whole cmd vline := by
  constructor
  · intro matches_ i word there inside
    obtain ⟨str, member, accepts⟩ := matches_ i word there inside
    exact ⟨str, member, match_of_accepts accepts⟩
  · intro whole i word there inside
    rcases found.kept i word there inside with kept | ⟨str, member, vararg⟩
    · exact (accepts_of_keepStep kept).mpr (whole i word there inside)
    · refine ⟨str, member, ?_⟩
      rw [Accepts, if_pos vararg]
      trivial

end Execution

/-- No index is out of the patterns or the arguments. A command that a line invokes has all its
words, and gets its arguments; the words match by the strict filter, and by completion they do if
and only if none is a mere part of an address. -/
theorem command_dispatch_sound (node : List CmdElement) (installed : ∀ cmd ∈ node, Installed cmd)
    (vline : List Word) :
    cmdExecuteCommandStrict node vline ≠ .outOfBounds ∧
    cmdExecuteCommand node vline ≠ .outOfBounds ∧
      (∀ cmd argv, cmdExecuteCommandStrict node vline = .invoked cmd argv →
        Invoked node vline cmd argv ∧ Matches true node vline cmd) ∧
      ∀ cmd argv, cmdExecuteCommand node vline = .invoked cmd argv →
        (Invoked node vline cmd argv ∧ Matches false node vline cmd ↔ Whole cmd vline) := by
  obtain ⟨strictBounds, strictly⟩ := @cmdExecute_cases true node vline installed
  obtain ⟨bounds, completed⟩ := @cmdExecute_cases false node vline installed
  refine ⟨strictBounds, bounds, fun cmd argv done => ?_, fun cmd argv done => ?_⟩
  · obtain ⟨found, invoked⟩ := strictly cmd argv done
    exact ⟨invoked, found.matches_strict⟩
  · obtain ⟨found, invoked⟩ := completed cmd argv done
    exact ⟨fun both => found.matches_iff.mp both.2,
      fun whole => ⟨invoked, found.matches_iff.mpr whole⟩⟩

/-- A command that shows the route to an address. -/
def showRoute : CmdElement :=
  { string := "show ip route A.B.C.D".toList, func := 0,
    strvec := ["show", "ip", "route", "A.B.C.D"].map fun str => [str.toList],
    cmdsize := 4 }

def showRouteLine (address : String) : List Word :=
  ["show", "ip", "route", address].map String.toList

theorem showRoute_installed : ∀ cmd ∈ [showRoute], Installed cmd := by
  intro cmd member
  obtain rfl := mem_singleton.mp member
  refine ⟨⟨"show ip route A.B.C.D".toList, 0, false, by decide +kernel⟩,
    fun i descvec here some_ => ?_⟩
  obtain ⟨str, inside, vararg⟩ := some_
  have none_ : ∀ descvec ∈ showRoute.strvec, ∀ str ∈ descvec, cmdVararg str = false := by
    decide +kernel
  rw [none_ descvec (mem_of_getElem? here) str inside] at vararg
  cases vararg

theorem command_dispatch_sound_address :
    cmdExecuteCommand [showRoute] (showRouteLine "10.0.0.1") =
      .invoked showRoute ["10.0.0.1".toList] ∧
      (Invoked [showRoute] (showRouteLine "10.0.0.1") showRoute ["10.0.0.1".toList] ∧
          Matches false [showRoute] (showRouteLine "10.0.0.1") showRoute ↔
        Whole showRoute (showRouteLine "10.0.0.1")) :=
  have invoked : cmdExecuteCommand [showRoute]
      (showRouteLine "10.0.0.1") = .invoked showRoute ["10.0.0.1".toList] := by
    decide +kernel
  ⟨invoked, (command_dispatch_sound [showRoute] showRoute_installed
    (showRouteLine "10.0.0.1")).2.2.2 _ _ invoked⟩

/-- A part of an address invokes the command. -/
theorem command_dispatch_part : Installed showRoute ∧
    cmdExecuteCommand [showRoute] (showRouteLine "10.0") = .invoked showRoute ["10.0".toList] ∧
      cmdIpv4Match "10.0".toList = .partlyMatch ∧ ¬Matches false [showRoute]
      (showRouteLine "10.0") showRoute := by
  refine ⟨showRoute_installed _ (mem_singleton_self _), by decide +kernel, by
    decide +kernel, fun matches_ => ?_⟩
  obtain ⟨str, member, accepts⟩ := matches_ 3 "10.0".toList rfl (by decide)
  obtain rfl : str = "A.B.C.D".toList := mem_singleton.mp member
  have exact_ : cmdIpv4Match "10.0".toList = .exactMatch := accepts
  revert exact_
  decide +kernel

end Zebra
