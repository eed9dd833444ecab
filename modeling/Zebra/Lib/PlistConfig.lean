import Zebra.Lib.Plist

namespace Zebra
open List PrefixList

theorem insertEntry_last {pentry entries} (apart : ∀ point ∈ entries, point.seq ≠ pentry.seq) :
    insertEntry pentry entries = entries ++ [pentry] ↔
    ∀ point ∈ entries, point.seq.toInt < pentry.seq.toInt := by
  induction entries with
  | nil => exact iff_of_true rfl nofun
  | cons point rest ih =>
    obtain ⟨here, later⟩ := forall_mem_cons.mp apart
    rw [insertEntry, forall_mem_cons]
    split
    · rename_i lower
      refine iff_of_false (fun same => ?_) fun above => absurd above.1 (Int.not_lt.mpr lower)
      exact here (congrArg PrefixListEntry.seq (cons.inj same).1).symm
    · rename_i higher
      rw [cons_append, cons_inj_right, ih later, and_iff_right (Int.not_le.mp higher)]

theorem eraseP_insertEntry {wanted} {pentry entries} (new : wanted pentry = true)
    (others : ∀ found ∈ entries, wanted found = false) :
    (insertEntry pentry entries).eraseP wanted = entries := by
  induction entries with
  | nil => exact eraseP_cons_of_pos new
  | cons point rest ih =>
    obtain ⟨here, later⟩ := forall_mem_cons.mp others
    rw [insertEntry]
    split
    · exact eraseP_cons_of_pos new
    · rw [eraseP_cons_of_neg (Bool.eq_false_iff.mp here), ih later]

theorem length_insertEntry (pentry : PrefixListEntry) (entries : List PrefixListEntry) :
    (insertEntry pentry entries).length = entries.length + 1 := by
  induction entries with
  | nil => rfl
  | cons point rest ih =>
    rw [insertEntry]
    split
    · rfl
    · rw [length_cons, ih, length_cons]

theorem maxseq_spec (entries : List PrefixListEntry) {start maxseq}
    (is : entries.foldl (fun maxseq pentry => if maxseq < pentry.seq.toInt then pentry.seq.toInt
      else maxseq) start = maxseq) :
    start ≤ maxseq ∧ (∀ found ∈ entries, found.seq.toInt ≤ maxseq) ∧
    (maxseq = start ∨ ∃ found ∈ entries, found.seq.toInt = maxseq) := by
  induction entries generalizing start with
  | nil => exact ⟨Int.le_of_eq is, nofun, .inl is.symm⟩
  | cons pentry rest ih =>
    rw [foldl_cons] at is
    rw [forall_mem_cons]
    split at is
    · obtain ⟨low, above, attained⟩ := ih is
      refine ⟨by omega, ⟨low, above⟩, .inr ?_⟩
      rcases attained with first | ⟨found, member, same⟩
      · exact ⟨pentry, mem_cons_self, first.symm⟩
      · exact ⟨found, .tail _ member, same⟩
    · obtain ⟨low, above, attained⟩ := ih is
      refine ⟨low, ⟨by omega, above⟩, attained.imp_right ?_⟩
      rintro ⟨found, member, same⟩
      exact ⟨found, .tail _ member, same⟩

/-- The number for an entry without one is higher than every other, and such an entry goes behind
  all the others. -/
def PrefixList.AutoLast (plist : PrefixList) : Prop :=
  (∀ found ∈ plist.entries, found.seq.toNat < plist.prefixNewSeqGet.toNat) ∧
    ∀ pentry, pentry.seq = -1 →
      (plist.prefixListEntryAdd pentry).entries =
        plist.entries ++ [{ pentry with seq := plist.prefixNewSeqGet }]

theorem autoLast_iff_order (plist : PrefixList) :
    plist.AutoLast ↔ ∀ found ∈ plist.entries,
      found.seq.toNat < plist.prefixNewSeqGet.toNat ∧
      found.seq.toInt < plist.prefixNewSeqGet.toInt := by
  rw [forall₂_and]
  refine and_congr_right fun above => ?_
  have apart : ∀ found ∈ plist.entries, found.seq ≠ plist.prefixNewSeqGet :=
      fun found member same =>
    absurd (above found member) (same ▸ lt_irrefl _)
  have adds {pentry} (auto : pentry.seq = -1) :
      (plist.prefixListEntryAdd pentry).entries =
        insertEntry { pentry with seq := plist.prefixNewSeqGet } plist.entries := by
    have none_ :=
      eraseP_of_forall_not fun found member same => apart found member (of_decide_eq_true same)
    rw [prefixListEntryAdd, seqOf, if_pos auto]
    exact congrArg _ none_
  constructor
  · intro last
    have one := last ⟨-1, 0, 0, .deny, false, ⟨.unspec, 0, .replicate 16 0⟩⟩ rfl
    rw [adds rfl] at one
    exact (insertEntry_last apart).mp one
  · intro lower pentry auto
    rw [adds auto]
    exact (insertEntry_last apart).mpr lower

theorem toInt_cases (number : BitVec 32) : number.toNat < 2147483648 ∧ number.toInt = number.toNat ∨
    2147483648 ≤ number.toNat ∧ number.toInt = number.toNat - 4294967296 := by
  rw [BitVec.toInt_eq_toNat_cond]
  split
  · exact .inl ⟨by omega, rfl⟩
  · exact .inr ⟨by omega, rfl⟩

/-- The rounded maximum has to stay a positive `int`. -/
theorem auto_seq_exact (plist : PrefixList) :
    plist.AutoLast ↔ ∀ found ∈ plist.entries, found.seq.toNat ≤ 2147483644 := by
  rw [autoLast_iff_order]
  generalize is : plist.entries.foldl
    (fun maxseq pentry => if maxseq < pentry.seq.toInt then pentry.seq.toInt else maxseq) 0 = maxseq
  have new : plist.prefixNewSeqGet = BitVec.ofInt 32 (maxseq / 5 * 5 + 5) := by
    rw [prefixNewSeqGet, is]
  obtain ⟨low, above, attained⟩ := maxseq_spec plist.entries is
  have high : maxseq < 2147483648 := by
    rcases attained with zero | ⟨found, _, same⟩
    · omega
    · rcases toInt_cases found.seq with here | here
      · omega
      · omega
  have number : (plist.prefixNewSeqGet.toNat : Int) = maxseq / 5 * 5 + 5 := by
    rw [new, BitVec.toNat_ofInt, Int.emod_eq_of_lt (by omega) (by omega),
      Int.toNat_of_nonneg (by omega)]
  have signed := toInt_cases plist.prefixNewSeqGet
  constructor
  · intro lower found member
    obtain ⟨below, less⟩ := lower found member
    rcases attained with zero | ⟨most, known, same⟩
    · omega
    · have mostLess := (lower most known).2
      omega
  · intro small found member
    have here := toInt_cases found.seq
    have bound := small found member
    have top := above found member
    have limit : maxseq ≤ 2147483644 := by
      rcases attained with zero | ⟨most, known, same⟩
      · omega
      · have sign := toInt_cases most.seq
        have bounded := small most known
        omega
    omega

/-- An entry with the highest positive number: the next one goes in front of it. -/
theorem auto_seq_wraps : ∃ cmds : List PrefixListCmd, ∃ plist,
    cmds.foldl (prefixListCmd .inet) none = some plist ∧ ¬ plist.AutoLast := by
  refine ⟨[.install 2147483647 .permit none 0 0], _, rfl, fun last => ?_⟩
  have small := (autoLast_iff_order _).mp last
    ⟨2147483647, 32, 0, .permit, true, (anyRoute .inet).entry⟩ (by decide)
  exact absurd small.2 (by decide)

section
variable (family : Family) (before : Option PrefixList) (seq : BitVec 32) (type : PrefixListType)
  (route : Option Prefix) (ge le : Nat)

/-- The entry of an install command, before it has its number. -/
def installEntry : PrefixListEntry :=
  let (p, genum, lenum) := given family route ge le
  { seq, le := lastBound family genum lenum, ge := genum, type, any := route.isNone,
    route := p.entry }

/-- The command is accepted. -/
def installAdds : Bool :=
  let (p, genum, lenum) := given family route ge le
  parses family route ge le && !rangeInvalid p.prefixlen genum lenum &&
    !(before.getD {}).prefixEntryDupCheck (installEntry family seq type route ge le)

/-- What the uninstall command with the same arguments looks for. -/
def isInstalled (pentry : PrefixListEntry) : Bool :=
  let (p, genum, lenum) := given family route ge le
  isEntry p.entry type seq lenum genum pentry

/-- An accepted command is taken back by the uninstall command with the same arguments, which
  succeeds; a rejected one changes nothing. -/
def InstallUndone : Prop :=
  if installAdds family before seq type route ge le then
    ∃ installed, vtyPrefixListInstall family before seq type route ge le = some installed ∧
      installed.entries.any (isInstalled family seq type route ge le) ∧
      vtyPrefixListUninstall family installed seq type route ge le = before
  else vtyPrefixListInstall family before seq type route ge le = before

theorem installAdds_iff : installAdds family before seq type route ge le = true ↔
    ¬ (parses family route ge le = false ∨
      rangeInvalid (given family route ge le).1.prefixlen (given family route ge le).2.1
        (given family route ge le).2.2 = true) ∧
    (before.getD {}).prefixEntryDupCheck (installEntry family seq type route ge le) = false := by
  rw [installAdds, Bool.and_eq_true, Bool.and_eq_true, Bool.not_eq_true', Bool.not_eq_true', not_or,
    Bool.not_eq_false, Bool.not_eq_true]

theorem vtyPrefixListInstall_eq : vtyPrefixListInstall family before seq type route ge le =
    if installAdds family before seq type route ge le then
      some ((before.getD {}).prefixListEntryAdd (installEntry family seq type route ge le))
      else before := by
  have adds := installAdds_iff family before seq type route ge le
  rw [vtyPrefixListInstall]
  dsimp only
  split
  · rename_i rejected
    exact (if_neg fun accepted => (adds.mp accepted).1 rejected).symm
  · rename_i accepted
    cases dup : (before.getD {}).prefixEntryDupCheck (installEntry family seq type route ge le) with
    | false =>
      exact (if_neg (Bool.eq_false_iff.mp dup)).trans (if_pos (adds.mpr ⟨accepted, dup⟩)).symm
    | true =>
      refine (if_pos dup).trans (Eq.trans ?_ (if_neg fun added => ?_).symm)
      · cases before with
        | none => cases dup
        | some plist => rfl
      · exact Bool.noConfusion (dup.symm.trans (adds.mp added).2)

theorem vtyPrefixListUninstall_eq {plist} (parsed : parses family route ge le ≠ false) :
    vtyPrefixListUninstall family plist seq type route ge le =
      if plist.entries.any (isInstalled family seq type route ge le) then
        { plist with
          entries := plist.entries.eraseP (isInstalled family seq type route ge le) }.settle
      else some plist := by
  rw [vtyPrefixListUninstall]
  exact (if_neg parsed).trans (apply_ite Prod.snd ..)

end

theorem settle_some {plist kept : PrefixList} (here : plist.settle = some kept) : plist = kept := by
  rw [settle] at here
  split at here
  · cases here
  · exact Option.some.inj here

/-- A list that is kept has an entry or a description. -/
theorem settled_cmds (family : Family) (cmds : List PrefixListCmd) :
    ∀ plist ∈ cmds.foldl (prefixListCmd family) none, plist.settle = some plist := by
  have settled (plist : PrefixList) : ∀ kept ∈ plist.settle, kept.settle = some kept :=
      fun kept here =>
    settle_some here ▸ here
  have step (before : Option PrefixList) (known : ∀ plist ∈ before, plist.settle = some plist)
      (cmd : PrefixListCmd) :
      ∀ plist ∈ prefixListCmd family before cmd, plist.settle = some plist := by
    cases cmd with
    | install seq type route ge le =>
      rw [prefixListCmd, vtyPrefixListInstall_eq]
      split
      · rintro _ ⟨⟩
        refine if_neg fun empty => ?_
        have length := congrArg List.length empty.1
        rw [prefixListEntryAdd, length_insertEntry] at length
        cases length
      · exact known
    | uninstall seq type route ge le =>
      intro plist here
      obtain ⟨old, there, after⟩ := Option.bind_eq_some_iff.mp here
      rw [vtyPrefixListUninstall] at after
      dsimp only at after
      split at after
      · exact Option.some.inj after ▸ known old there
      · rw [prefixListEntryDelete] at after
        split at after
        · exact settled _ plist after
        · exact Option.some.inj after ▸ known old there
    | delete => rintro _ ⟨⟩
    | description =>
      rintro _ ⟨⟩
      exact if_neg fun none_ => Bool.noConfusion none_.2
    | noDescription =>
      intro plist here
      obtain ⟨old, _, after⟩ := Option.bind_eq_some_iff.mp here
      exact settled _ plist after
  have kept (before : Option PrefixList) (known : ∀ plist ∈ before, plist.settle = some plist) :
      ∀ plist ∈ cmds.foldl (prefixListCmd family) before, plist.settle = some plist := by
    induction cmds generalizing before with
    | nil => exact known
    | cons cmd rest ih => exact ih _ (step before known cmd)
  exact kept none (by rintro _ ⟨⟩)

section
variable (family : Family) (before : Option PrefixList) (seq : BitVec 32) (type : PrefixListType)
  (route : Option Prefix) (ge le : Nat)

/-- No entry has the number yet, and the upper bound is not one that is stored as none. -/
def NewAsGiven : Prop :=
  (∀ found ∈ (before.getD {}).entries,
    found.seq ≠ (before.getD {}).seqOf (installEntry family seq type route ge le)) ∧
    ¬ ((given family route ge le).2.1 ≠ 0 ∧ (given family route ge le).2.2 = family.maxBitlen)

end

section
variable {family : Family} {before : Option PrefixList} {seq : BitVec 32} {type : PrefixListType}
  {route : Option Prefix} {ge le : Nat}

theorem EntryPrefix.same_refl {route : EntryPrefix} (known : route.family ≠ .unspec) :
    route.same route = true := by
  rw [same, decide_eq_true rfl, decide_eq_true rfl, decide_eq_true known,
    (octetsEqualBelow_iff ..).mpr fun _ _ => rfl]
  rfl

theorem isInstalled_iff {pentry} : isInstalled family seq type route ge le pentry = true ↔
    pentry.route.same (given family route ge le).1.entry = true ∧ pentry.type = type ∧
    (0 ≤ seq.toInt → pentry.seq = seq) ∧
      pentry.le = (given family route ge le).2.2 ∧ pentry.ge = (given family route ge le).2.1 := by
  rw [isInstalled]
  simp only [isEntry, Bool.and_eq_true, decide_eq_true_eq, Bool.not_eq_true', Bool.and_eq_false_iff,
    decide_eq_false_iff_not, not_not, ← imp_iff_not_or, and_assoc]

theorem undone_of_new (known : family ≠ .unspec)
    (settled : ∀ plist ∈ before, plist.settle = some plist)
    (adds : installAdds family before seq type route ge le = true)
    (new : NewAsGiven family before seq type route ge le) :
    InstallUndone family before seq type route ge le := by
  obtain ⟨fresh, stored⟩ := new
  obtain ⟨accepted, unique⟩ := (installAdds_iff ..).mp adds
  rw [not_or] at accepted
  rw [prefixEntryDupCheck, any_eq_false] at unique
  rw [InstallUndone, if_pos adds, vtyPrefixListInstall_eq, if_pos adds]
  generalize at_ : before.getD {} = plist at *
  generalize made : installEntry family seq type route ge le = pentry at *
  have whole : (plist.prefixListEntryAdd pentry).entries =
      insertEntry { pentry with seq := plist.seqOf pentry } plist.entries :=
    congrArg (insertEntry _)
      (eraseP_of_forall_not fun found member same => fresh found member (of_decide_eq_true same))
  have bound : pentry.le = (given family route ge le).2.2 := made ▸ if_neg stored
  have wanted :
      isInstalled family seq type route ge le { pentry with seq := plist.seqOf pentry } = true := by
    refine isInstalled_iff.mpr ⟨?_, made ▸ rfl, fun given_ => ?_, bound, made ▸ rfl⟩
    · have kind := (parses_route (Bool.not_eq_false _ ▸ accepted.1)).1
      exact made ▸ EntryPrefix.same_refl fun none_ => known (kind.symm.trans none_)
    · have number : pentry.seq = seq := made ▸ rfl
      have auto : pentry.seq ≠ -1 := fun minus => by
        rw [← number, minus] at given_
        exact nomatch given_
      exact (if_neg auto).trans number
  have others : ∀ found ∈ plist.entries, isInstalled family seq type route ge le found = false := by
    intro found member
    refine Bool.eq_false_iff.mpr fun is => unique found member ?_
    obtain ⟨same, kind, _, upper, lower⟩ := isInstalled_iff.mp is
    have route_ : pentry.route = (given family route ge le).1.entry := made ▸ rfl
    have type_ : pentry.type = type := made ▸ rfl
    have ge_ : pentry.ge = (given family route ge le).2.1 := made ▸ rfl
    rw [route_, type_, bound, ge_, same, decide_eq_true kind, decide_eq_true upper,
      decide_eq_true lower]
    exact decide_eq_true (fresh found member)
  have found := any_eq_true.mpr ⟨_, whole ▸ mem_insertEntry.mpr (.inl rfl), wanted⟩
  refine ⟨_, rfl, found, ?_⟩
  rw [vtyPrefixListUninstall_eq _ _ _ _ _ _ accepted.1, if_pos found, whole,
    eraseP_insertEntry wanted others]
  cases before with
  | none => exact at_ ▸ rfl
  | some old => exact at_ ▸ settled old rfl

theorem new_of_undone (known : family ≠ .unspec) (valid : ∀ plist ∈ before, plist.Valid family)
    (adds : installAdds family before seq type route ge le = true)
    (undone : InstallUndone family before seq type route ge le) :
    NewAsGiven family before seq type route ge le := by
  have accepted := ((installAdds_iff ..).mp adds).1
  rw [not_or] at accepted
  rw [InstallUndone, if_pos adds] at undone
  obtain ⟨installed, is, found, restored⟩ := undone
  have stored := valid_install valid seq type route ge le installed is
  rw [vtyPrefixListInstall_eq, if_pos adds] at is
  rw [vtyPrefixListUninstall_eq _ _ _ _ _ _ accepted.1, if_pos found] at restored
  constructor
  · intro old member same
    cases is
    cases before with
    | none => cases member
    | some plist =>
      -- one entry was replaced and one taken out
      have back := (length_eraseP.trans (if_pos found)).symm.trans
        (congrArg (List.length ∘ entries) (settle_some restored))
      change (insertEntry _ (eraseP _ plist.entries)).length - 1 = plist.entries.length at back
      have known_ : plist.entries.any (fun found => found.seq = _) = true :=
        any_eq_true.mpr ⟨old, member, decide_eq_true same⟩
      have some_ : 0 < plist.entries.length := length_pos_of_mem member
      rw [length_insertEntry, length_eraseP, if_pos known_] at back
      omega
  · rintro ⟨lower, upper⟩
    obtain ⟨pentry, member, wanted⟩ := any_eq_true.mp found
    obtain ⟨_, _, _, upper_, lower_⟩ := isInstalled_iff.mp wanted
    have last := (stored.entries pentry member).last
    rw [lower_, upper_, lastBound, if_pos ⟨lower, upper⟩, upper] at last
    cases family with
    | unspec => exact known rfl
    | inet => cases last
    | inet6 => cases last

end

/-- The command is taken back unless it replaced an entry or gave the longest length as the upper
  end of a range. -/
theorem install_undone_exact {family : Family} (known : family ≠ .unspec)
    (cmds : List PrefixListCmd) (seq : BitVec 32)
    (type : PrefixListType) (route : Option Prefix) (ge le : Nat) :
    InstallUndone family (cmds.foldl (prefixListCmd family) none) seq type route ge le ↔
      (installAdds family (cmds.foldl (prefixListCmd family) none) seq type route ge le = true →
        NewAsGiven family (cmds.foldl (prefixListCmd family) none) seq type route ge le) := by
  constructor
  · exact fun undone adds => new_of_undone known (valid_cmds family cmds) adds undone
  · intro new
    by_cases adds :
      installAdds family (cmds.foldl (prefixListCmd family) none) seq type route ge le = true
    · exact undone_of_new known (settled_cmds family cmds) adds (new adds)
    · rw [InstallUndone, if_neg adds, vtyPrefixListInstall_eq, if_neg adds]

/-- `seq 5 permit any`, `deny any` and `seq 7 permit 0.0.0.0/0 le 24`. -/
def threeEntries : List PrefixListCmd :=
  [.install 5 .permit none 0 0, .install (-1) .deny none 0 0,
    .install 7 .permit (some (anyRoute .inet)) 0 24]

/-- `deny 0.0.0.0/0 ge 8 le 16` comes behind the three entries, and is taken back. -/
theorem install_undone_exact_three :
    (threeEntries.foldl (prefixListCmd .inet) none).map (·.entries.length) = some 3 ∧
    installAdds .inet (threeEntries.foldl (prefixListCmd .inet) none)
    (-1) .deny (some (anyRoute .inet)) 8 16 = true ∧
    InstallUndone .inet (threeEntries.foldl (prefixListCmd .inet) none)
    (-1) .deny (some (anyRoute .inet)) 8 16 :=
  ⟨by decide +kernel, by decide +kernel,
    (install_undone_exact (by decide) threeEntries (-1) .deny (some (anyRoute .inet)) 8 16).mpr
      fun _ =>
      ⟨by decide +kernel, by decide +kernel⟩⟩

/-- `0.0.0.0/0 ge 1 le 32` cannot be taken back. -/
theorem install_range_stays : ¬ InstallUndone .inet ([].foldl (prefixListCmd .inet) none)
    (-1) .permit (some (anyRoute .inet)) 1 32 := by
  intro undone
  have new := new_of_undone (by decide) (valid_cmds .inet []) (by decide) undone
  exact new.2 ⟨by decide, rfl⟩

end Zebra
