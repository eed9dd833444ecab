import Zebra.Bgpd.RibSelection

namespace Zebra.Bgpd
open Base List Flags Account Rib Prod Bool Int

/-- A path that counts for its peer. -/
def Flags.live (flags : Flags) : Bool :=
  !flags.history && !flags.stale

theorem Flags.live_eq_of_lasting {flags other : Flags} (same : flags.lasting = other.lasting) :
    flags.live = other.live :=
  show flags.lasting.live = other.lasting.live by rw [same]

namespace Node

/-- The number of paths on the node that count for a peer. -/
def liveCount (node : Node) (peer : PeerId) : Nat :=
  node.info.countP fun ri => ri.id.peer = peer && (node.flags ri.id).live

def liveIds (node : Node) (peer : PeerId) : Finset PathId :=
  (node.info.map BgpInfo.id).toFinset.filter fun id => id.peer = peer ∧ (node.flags id).live = true

theorem mem_liveIds {node : Node} {peer id} :
    id ∈ node.liveIds peer ↔ id ∈ node.ids ∧ id.peer = peer ∧ (node.flags id).live = true := by
  simp only [liveIds, Finset.mem_filter, mem_toFinset]

theorem liveCount_eq_card {node : Node} (distinct : node.ids.Nodup) (peer : PeerId) :
    node.liveCount peer = (node.liveIds peer).card := by
  have filtered := (distinct.filter fun id => id.peer = peer && (node.flags id).live)
  have same : node.liveIds peer =
      (node.ids.filter fun id => id.peer = peer && (node.flags id).live).toFinset := by
    ext id
    simp [mem_liveIds]
  rw [same, toFinset_card_of_nodup filtered, ← countP_eq_length_filter, countP_map]
  rfl

/-- What one path adds to the count. -/
def liveAt (node : Node) (id : PathId) : Int :=
  if id ∈ node.info.map BgpInfo.id ∧ (node.flags id).live = true then 1 else 0

/-- A step that touches one path only, selection apart. -/
structure Touches (id : PathId) (node after : Node) : Prop where
  distinct : (node.info.map BgpInfo.id).Nodup → (after.info.map BgpInfo.id).Nodup
  ids : ∀ other, other ≠ id → (other ∈ after.info.map BgpInfo.id ↔ other ∈ node.info.map BgpInfo.id)
  lasting : ∀ other, other ≠ id → (after.flags other).lasting = (node.flags other).lasting
  damp : ∀ other, other ≠ id → after.damp other = node.damp other

namespace Touches
variable {id : PathId} {node middle after : Node}

theorem trans (first : Touches id node middle) (second : Touches id middle after) :
    Touches id node after where
  distinct := second.distinct ∘ first.distinct
  ids other apart := (second.ids other apart).trans (first.ids other apart)
  lasting other apart := (second.lasting other apart).trans (first.lasting other apart)
  damp other apart := (second.damp other apart).trans (first.damp other apart)

theorem of_quiet (id : PathId) (quiet : Quiet node after) : Touches id node after where
  distinct := by
    rw [quiet.info]
    exact fun distinct => distinct
  ids _ _ := by rw [quiet.info]
  lasting other _ := quiet.lasting other
  damp _ _ := by rw [quiet.damp]

theorem of_confined (confined : Confined id node after) : Touches id node after where
  distinct := by
    rw [confined.info]
    exact fun distinct => distinct
  ids _ _ := by rw [confined.info]
  lasting other apart := by rw [confined.flags other apart]
  damp := confined.damp

theorem refl (id : PathId) (node : Node) : Touches id node node := of_quiet id (Quiet.refl node)

section
variable (node : Node)

theorem setValid (id : PathId) (valid : Bool) : Touches id node (node.setValid id valid) :=
  of_confined (Confined.setFlags node id fun _ => rfl)

theorem replace (id : PathId) (ri : BgpInfo) : Touches id node (node.replace ri) where
  distinct distinct := by rwa [replace_ids]
  ids _ _ := by rw [replace_ids]
  lasting _ _ := rfl
  damp _ _ := rfl

theorem delete (id : PathId) : Touches id node (node.delete id) where
  distinct distinct := distinct.sublist (Sublist.map _ filter_sublist)
  ids other apart := by
    rw [delete_ids]
    exact and_iff_left apart
  lasting _ _ := rfl
  damp _ apart := if_neg apart

theorem fresh (id : PathId) (flags : Flags) : Touches id node (node.fresh id flags) where
  distinct distinct := distinct
  ids _ _ := Iff.rfl
  lasting other apart := by rw [fresh_flags_other node flags apart]
  damp _ apart := if_neg apart

theorem add (ri : BgpInfo) (absent : ri.id ∉ node.ids) :
    Touches ri.id node (node.add ri) where
  distinct distinct := nodup_cons.mpr ⟨absent, distinct⟩
  ids _ apart := by
    simp only [Node.add, map_cons, mem_cons]
    exact or_iff_right apart
  lasting _ _ := rfl
  damp _ _ := rfl

end

theorem liveCount (touches : Touches id node after) (distinct : node.ids.Nodup) (peer : PeerId) :
    (after.liveCount peer : Int) - node.liveCount peer =
      if id.peer = peer then after.liveAt id - node.liveAt id else 0 := by
  have split : ∀ some : Node, some.ids.Nodup → (some.liveCount peer : Int) =
      ((some.liveIds peer).erase id).card + if id.peer = peer then some.liveAt id else 0 := by
    intro some someDistinct
    rw [liveCount_eq_card someDistinct]
    by_cases member : id ∈ some.liveIds peer
    · have counted := mem_liveIds.mp member
      rw [← Finset.card_erase_add_one member, if_pos counted.2.1, liveAt,
        if_pos ⟨counted.1, counted.2.2⟩]
      rfl
    · rw [Finset.erase_eq_of_notMem member]
      split
      · rename_i own
        rw [liveAt, if_neg fun counted => member (mem_liveIds.mpr ⟨counted.1, own, counted.2⟩)]
        rfl
      · rfl
  have others : (after.liveIds peer).erase id = (node.liveIds peer).erase id := by
    ext other
    simp only [Finset.mem_erase, mem_liveIds]
    refine and_congr_right fun apart => ?_
    rw [touches.ids other apart, live_eq_of_lasting (touches.lasting other apart)]
  rw [split after (touches.distinct distinct), split node distinct, others]
  split <;> omega

end Touches

section LiveAt
variable {node : Node} {id : PathId}

theorem liveAt_absent (absent : id ∉ node.ids) : node.liveAt id = 0 :=
  if_neg fun counted => absent counted.1

theorem liveAt_history (history : (node.flags id).history = true) : node.liveAt id = 0 :=
  if_neg fun counted => by simp [live, history] at counted

theorem liveAt_stale (stale : (node.flags id).stale = true) : node.liveAt id = 0 :=
  if_neg fun counted => by simp [live, stale] at counted

theorem liveAt_live (member : id ∈ node.ids) (current : (node.flags id).history = false)
    (firm : (node.flags id).stale = false) : node.liveAt id = 1 :=
  if_pos ⟨member, by simp [live, current, firm]⟩

end LiveAt

/-- A history path belongs to a peer under dampening, dampening knows it, and it is
not stale. -/
def Marked (bgp : Bgp) (node : Node) (id : PathId) : Prop :=
  (node.flags id).history = true →
    dampConfigured bgp id = true ∧ (node.damp id).isSome = true ∧ (node.flags id).stale = false

theorem Marked.of_current {bgp node id} (current : (node.flags id).history = false) :
    Marked bgp node id := by
  intro history
  rw [current] at history
  cases history

end Node

open Node

/-- The flags that decide whether a path counts. -/
def Flags.ledger (flags : Flags) : Bool × Bool :=
  (flags.history, flags.stale)

theorem Node.Quiet.ledger {node after} (quiet : Quiet node after) (id : PathId) :
    (after.flags id).ledger = (node.flags id).ledger :=
  show (after.flags id).lasting.ledger = (node.flags id).lasting.ledger by rw [quiet.lasting id]

theorem Node.setValid_ledger (node : Node) (id : PathId) (valid : Bool) :
    ((node.setValid id valid).flags id).ledger = (node.flags id).ledger :=
  setFlags_congr node id id ledger fun _ => rfl

/-- What a call for one path may do: touch that path only, keep the account right
and its marks in order. -/
structure Booked (bgp : Bgp) (id : PathId) (before after : Local) : Prop where
  touches : Touches id before.1 after.1
  account : after.2.pcount - before.2.pcount = after.1.liveAt id - before.1.liveAt id
  marked : id ∈ after.1.info.map BgpInfo.id → Marked bgp after.1 id

section Calls
variable {bgp : Bgp} {cfg : DampConfig} {aggregates : List Bool} {node : Node} {account : Account}
  {id : PathId}

theorem Booked.refl (state : Local) (marked : id ∈ state.1.ids → Marked bgp state.1 id) :
    Booked bgp id state state :=
  ⟨Touches.refl id _, by omega, marked⟩

theorem delete_absent (node : Node) (id : PathId) : id ∉ (node.delete id).ids := by
  rw [delete_ids]
  exact fun member => member.2 rfl

theorem bgpRibRemove_booked (member : id ∈ node.ids) :
    Booked bgp id (node, account) (bgpRibRemove bgp aggregates id (node, account)) := by
  simp only [bgpRibRemove]
  split
  · rename_i history
    refine ⟨Touches.delete node id, ?_, fun present => absurd present (delete_absent node id)⟩
    rw [liveAt_absent (delete_absent node id), liveAt_history history]
    exact Int.sub_self _
  · rename_i current
    have decremented := (Reselects.aggregateDecrement bgp aggregates id node).quiet
    have touches := ((Touches.of_quiet id decremented).trans (Touches.setValid _ id false)).trans
      (Touches.of_quiet id (process_quiet bgp _))
    refine ⟨touches.trans (Touches.delete _ id), ?_,
      fun present => absurd present (delete_absent _ id)⟩
    rw [liveAt_absent (delete_absent _ id)]
    split
    · rename_i stale
      rw [liveAt_stale stale]
      exact Int.sub_self _
    · rename_i firm
      rw [liveAt_live member (by simpa using current) (by simpa using firm)]
      simp only [decrement]
      omega

theorem ribWithdrawTail_touches (status : DampStatus) :
    Touches id node (ribWithdrawTail bgp id status node) := by
  have processed :=
    (Touches.setValid node id false).trans (Touches.of_quiet id (process_quiet bgp _))
  have marked : Touches id node (if (node.flags id).valid then
      ((node.setValid id false).process bgp).setValid id true
        else (node.setValid id false).process bgp) := by
    split
    · exact processed.trans (Touches.setValid _ id true)
    · exact processed
  unfold ribWithdrawTail
  split
  · exact marked
  · exact marked.trans (Touches.delete _ id)

theorem ribWithdrawTail_ledger (bgp : Bgp) (id : PathId) (node : Node) :
    ((ribWithdrawTail bgp id .used node).flags id).ledger = (node.flags id).ledger ∧
    (ribWithdrawTail bgp id .used node).damp = node.damp := by
  have processed := process_quiet bgp (node.setValid id false)
  have kept := (processed.ledger id).trans (setValid_ledger node id false)
  simp only [ribWithdrawTail, ↓reduceIte]
  split
  · exact ⟨(setValid_ledger _ id true).trans kept, processed.damp⟩
  · exact ⟨kept, processed.damp⟩

theorem ribWithdrawTail_absent (bgp : Bgp) (id : PathId) (node : Node) {status}
    (dropped : status ≠ .used) :
    id ∉ (ribWithdrawTail bgp id status node).ids := by
  simp only [ribWithdrawTail, if_neg dropped]
  exact delete_absent _ id

theorem dampWithdraw_ledger (cfg : DampConfig) (now : Int) (attrChange : Bool) (id : PathId)
    (node : Node) :
    ((node.dampWithdraw cfg now attrChange id).1.flags id).ledger =
      (true, (node.flags id).stale) := by
  rw [dampWithdraw_flags]
  rfl

/-- A path that is history and that dampening keeps adds nothing and is marked. -/
theorem history_marked (configured : dampConfigured bgp id = true)
    (known : (node.damp id).isSome = true)
    (ledger : (node.flags id).ledger = (true, false)) :
    node.liveAt id = 0 ∧ Marked bgp node id := by
  simp only [Flags.ledger, Prod.mk.injEq] at ledger
  exact ⟨liveAt_history ledger.1, fun _ => ⟨configured, known, ledger.2⟩⟩

theorem ribWithdrawDamped_booked (now : Int) (configured : dampConfigured bgp id = true)
    (firm : (node.flags id).stale = false) :
    Touches id node (ribWithdrawDamped bgp cfg now id node) ∧
    (ribWithdrawDamped bgp cfg now id node).liveAt id = 0 ∧
    (id ∈ (ribWithdrawDamped bgp cfg now id node).ids →
      Marked bgp (ribWithdrawDamped bgp cfg now id node) id) := by
  have touches := Touches.of_confined (dampWithdraw_confined cfg now id node false)
  have ledger := dampWithdraw_ledger cfg now false id node
  have known : ((node.dampWithdraw cfg now false id).1.damp id).isSome = true := by
    obtain ⟨suppressTime, present⟩ := dampWithdraw_damp cfg now id node false
    rw [present]
    rfl
  rw [firm] at ledger
  unfold ribWithdrawDamped
  split
  · rename_i after suppressed
    rw [suppressed] at touches ledger known
    obtain ⟨gone, marked⟩ := history_marked configured known ledger
    exact ⟨touches, gone, fun _ => marked⟩
  · rename_i after status _ withdrawn
    rw [withdrawn] at touches ledger known
    refine ⟨touches.trans (ribWithdrawTail_touches status), ?_⟩
    by_cases used : status = .used
    · subst used
      obtain ⟨kept, keptDamp⟩ := ribWithdrawTail_ledger bgp id after
      obtain ⟨gone, marked⟩ := history_marked configured (keptDamp ▸ known) (kept.trans ledger)
      exact ⟨gone, fun _ => marked⟩
    · have absent := ribWithdrawTail_absent bgp id after used
      exact ⟨liveAt_absent absent, fun member => absurd member absent⟩

/-- Only a path that is not stale is counted down rightly. -/
theorem bgpRibWithdraw_booked (now : Int) (force : Bool) (member : id ∈ node.ids)
    (marked : Marked bgp node id)
    (counted : (node.flags id).history = false → (node.flags id).stale = false) :
    Booked bgp id (node, account)
    (bgpRibWithdraw bgp cfg aggregates now force id (node, account)) := by
  have firm : (node.flags id).stale = false := by
    cases history : (node.flags id).history with
    | true => exact (marked history).2.2
    | false => exact counted history
  have quiet : Quiet node
      (if !(node.flags id).history then node.aggregateDecrement bgp aggregates id else node) := by
    split
    · exact (Reselects.aggregateDecrement bgp aggregates id node).quiet
    · exact Quiet.refl node
  have paid :
      (if !(node.flags id).history then account.decrement else account).pcount - account.pcount =
      -node.liveAt id := by
    cases history : (node.flags id).history with
    | true =>
      rw [liveAt_history history]
      exact Int.sub_self _
    | false =>
      rw [liveAt_live member history firm]
      simp only [Bool.not_false, ↓reduceIte, decrement]
      omega
  have middleFirm := (congrArg snd (quiet.ledger id)).trans firm
  simp only [bgpRibWithdraw]
  split
  · rename_i dampened
    obtain ⟨touches, gone, kept⟩ :=
      ribWithdrawDamped_booked now (Bool.and_eq_true_iff.mp dampened).2 middleFirm
    refine ⟨(Touches.of_quiet id quiet).trans touches, ?_, kept⟩
    rw [gone, paid, Int.zero_sub]
  · have absent := ribWithdrawTail_absent bgp id
      (if !(node.flags id).history then node.aggregateDecrement bgp aggregates id else node)
      (show DampStatus.none ≠ .used by decide)
    refine ⟨(Touches.of_quiet id quiet).trans (ribWithdrawTail_touches .none), ?_,
      fun present => absurd present absent⟩
    rw [liveAt_absent absent, paid, Int.zero_sub]

theorem bgpWithdraw_booked (now : Int) (marked : id ∈ node.ids → Marked bgp node id)
    (counted : id ∈ node.ids → (node.flags id).history = false → (node.flags id).stale = false) :
    Booked bgp id (node, account) (bgpWithdraw bgp cfg aggregates now id (node, account)) := by
  unfold bgpWithdraw
  split
  · exact Booked.refl _ marked
  · rename_i ri found
    obtain ⟨riIn, rfl⟩ := find?_mem found
    have member := mem_map_of_mem (f := BgpInfo.id) riIn
    split
    · exact Booked.refl _ marked
    · exact bgpRibWithdraw_booked now false member (marked member) (counted member)

theorem Booked.of_quiet {middle : Node} {after} (quiet : Quiet node middle)
    (booked : Booked bgp id (middle, account) after) : Booked bgp id (node, account) after where
  touches := (Touches.of_quiet id quiet).trans booked.touches
  account := by
    have same : middle.liveAt id = node.liveAt id := by
      unfold liveAt
      rw [quiet.info, live_eq_of_lasting (quiet.lasting id)]
    rw [← same]
    exact booked.account
  marked := booked.marked

theorem dampUpdate_ledger (cfg : DampConfig) (now : Int) (known : (node.damp id).isSome = true) :
    ((node.dampUpdate cfg now id).1.flags id).ledger = (false, (node.flags id).stale) := by
  obtain ⟨bdi, present⟩ := Option.isSome_iff_exists.mp known
  rw [dampUpdate_flags cfg now id node present]
  rfl

/-- A path that is neither history nor stale adds one and is marked. -/
theorem current_marked (bgp : Bgp) (ledger : (node.flags id).ledger = (false, false))
    (member : id ∈ node.ids) :
    node.liveAt id = 1 ∧ Marked bgp node id := by
  simp only [Flags.ledger, Prod.mk.injEq] at ledger
  exact ⟨liveAt_live member ledger.1 ledger.2, Marked.of_current ledger.1⟩

theorem updateReturned_booked (env : Environment) (member : id ∈ node.ids)
    (known : (node.damp id).isSome = true) (firm : (node.flags id).stale = false) :
    Touches id node (updateReturned bgp cfg aggregates env id node) ∧
    (updateReturned bgp cfg aggregates env id node).liveAt id = 1 ∧
    Marked bgp (updateReturned bgp cfg aggregates env id node) id := by
  have confined := dampUpdate_confined cfg env.updateTime id node
  have ledger := dampUpdate_ledger cfg env.updateTime known
  rw [firm] at ledger
  rw [ids, ← confined.info] at member
  unfold updateReturned
  split
  · rename_i updated
    rw [updated] at confined ledger member
    exact ⟨Touches.of_confined confined, current_marked bgp ledger member⟩
  · rename_i after _ _ updated
    rw [updated] at confined ledger member
    have quiet :=
      (Reselects.aggregateIncrement bgp aggregates id after).quiet.trans (process_quiet bgp _)
    refine ⟨(Touches.of_confined confined).trans (Touches.of_quiet id quiet),
      current_marked bgp ((quiet.ledger id).trans ledger) ?_⟩
    rw [ids, quiet.info]
    exact member

theorem updateSame_booked (env : Environment) (member : id ∈ node.ids)
    (marked : Marked bgp node id) :
    Booked bgp id (node, account) (updateSame bgp cfg aggregates env id (node, account)) := by
  have unmarked : Reselects node (node.setFlags id fun f => { f with attrChanged := false }) :=
    Reselects.setFlags node id (fun _ => rfl) fun _ => rfl
  have quiet := unmarked.quiet
  simp only [updateSame]
  generalize node.setFlags id (fun f => { f with attrChanged := false }) = middle at quiet ⊢
  have ledger := quiet.ledger id
  simp only [Flags.ledger, Prod.mk.injEq] at ledger
  rw [Marked, ← ledger.1, ← ledger.2, ← quiet.damp] at marked
  rw [ids, ← quiet.info] at member
  apply Booked.of_quiet quiet
  split
  · rename_i dampened
    have history := (and_eq_true_iff.mp dampened).2
    obtain ⟨-, known, firm⟩ := marked history
    obtain ⟨touches, counts, stays⟩ := updateReturned_booked env member known firm
    refine ⟨touches, ?_, fun _ => stays⟩
    rw [liveAt_history history]
    simp only [increment]
    omega
  · rename_i undampened
    have current : (middle.flags id).history = false := by
      by_contra history
      have configured := (marked (by simpa using history)).1
      simp [configured, history] at undampened
    split
    · rename_i stale
      have refreshed : ((middle.setFlags id fun f => { f with stale := false }).flags id).ledger =
          (false, false) := by
        rw [setFlags_same, Flags.ledger, current]
      obtain ⟨counts, stays⟩ := current_marked bgp refreshed member
      refine ⟨Touches.of_confined (Confined.setFlags middle id fun _ => rfl), ?_, fun _ => stays⟩
      rw [liveAt_stale stale]
      simp only [increment]
      omega
    · exact Booked.refl _ fun _ => marked

section
variable (bgp : Bgp) (aggregates : List Bool) (env : Environment) (ri : BgpInfo) (node : Node)

theorem updateFinish_touches : Touches ri.id node (updateFinish bgp aggregates env ri node) := by
  have named := nexthopCheck_id bgp (bgp.peer ri.id.peer) env ri
  simp only [updateFinish, named]
  have replaced :=
    (Touches.replace node ri.id (nexthopCheck bgp (bgp.peer ri.id.peer) env ri).2).trans
    (Touches.setValid _ ri.id (nexthopCheck bgp (bgp.peer ri.id.peer) env ri).1)
  exact replaced.trans (Touches.of_quiet ri.id
    ((Reselects.aggregateIncrement bgp aggregates ri.id _).quiet.trans (process_quiet bgp _)))

theorem updateFinish_ledger :
    ((updateFinish bgp aggregates env ri node).flags ri.id).ledger = (node.flags ri.id).ledger ∧
    (updateFinish bgp aggregates env ri node).ids = node.ids := by
  have named := nexthopCheck_id bgp (bgp.peer ri.id.peer) env ri
  simp only [updateFinish, named]
  generalize nexthopCheck bgp (bgp.peer ri.id.peer) env ri = checked
  have quiet := (Reselects.aggregateIncrement bgp aggregates ri.id
    ((node.replace checked.2).setValid ri.id checked.1)).quiet.trans (process_quiet bgp _)
  refine ⟨(quiet.ledger ri.id).trans (setValid_ledger _ ri.id checked.1), ?_⟩
  rw [ids, quiet.info]
  exact replace_ids node checked.2

end

theorem updateDamped_booked (bgp : Bgp) (cfg : DampConfig) (aggregates : List Bool)
    (env : Environment) (ri : BgpInfo) (member : ri.id ∈ node.ids)
    (known : (node.damp ri.id).isSome = true) (firm : (node.flags ri.id).stale = false) :
    Touches ri.id node (updateDamped bgp cfg aggregates env ri node) ∧
    (updateDamped bgp cfg aggregates env ri node).liveAt ri.id = 1 ∧
    Marked bgp (updateDamped bgp cfg aggregates env ri node) ri.id := by
  have confined := dampUpdate_confined cfg env.updateTime ri.id node
  have ledger := dampUpdate_ledger cfg env.updateTime known
  rw [firm] at ledger
  rw [ids, ← confined.info] at member
  unfold updateDamped
  split
  · rename_i updated
    rw [updated] at confined ledger member
    exact ⟨Touches.of_confined confined, current_marked bgp ledger member⟩
  · rename_i after _ _ updated
    rw [updated] at confined ledger member
    obtain ⟨kept, ids⟩ := updateFinish_ledger bgp aggregates env ri after
    refine ⟨(Touches.of_confined confined).trans (updateFinish_touches bgp aggregates env ri after),
      current_marked bgp (kept.trans ledger) ?_⟩
    rw [ids]
    exact member

section
variable (cfg : DampConfig) (env : Environment)

theorem changeMark_stale (id : PathId) (node : Node) :
    ((changeMark bgp cfg env id node).flags id).stale = false := by
  unfold changeMark
  dsimp only
  split
  · rw [dampWithdraw_flags, setFlags_same]
  · rw [setFlags_same]

theorem changeMark_known (dampened : dampConfigured bgp id = true) (marked : Marked bgp node id) :
    ((changeMark bgp cfg env id node).damp id).isSome = true := by
  cases history : (node.flags id).history with
  | true =>
    unfold changeMark
    simpa [history] using (marked history).2.1
  | false =>
    obtain ⟨suppressTime, present⟩ := (changeMark_fresh bgp cfg env id node dampened history).2
    rw [present]
    rfl

theorem changeMark_ledger (undampened : dampConfigured bgp id = false) (marked : Marked bgp node id)
    : ((changeMark bgp cfg env id node).flags id).ledger = (false, false) := by
  have current : (node.flags id).history = false := by
    by_contra history
    rw [(marked (by simpa using history)).1] at undampened
    cases undampened
  unfold changeMark
  simp [undampened, ledger, current]

end

theorem increment_pcount (account : Account) : account.increment.pcount - account.pcount = 1 := by
  simp only [increment]
  omega

/-- A change of attributes pays for a path that did not count. -/
theorem change_paid (account : Account) (member : id ∈ node.ids) (marked : Marked bgp node id) :
    (if dampConfigured bgp id && (node.flags id).history then
      (if (node.flags id).stale then account.increment else account).increment
      else if (node.flags id).stale then account.increment else account).pcount - account.pcount =
      1 - node.liveAt id := by
  cases history : (node.flags id).history with
  | true =>
    obtain ⟨configured, -, firm⟩ := marked history
    rw [liveAt_history history]
    simp [configured, firm, increment_pcount]
  | false =>
    cases stale : (node.flags id).stale with
    | true =>
      rw [liveAt_stale stale]
      simp [increment_pcount]
    | false =>
      rw [liveAt_live member history stale]
      simp

/-- A change of attributes makes the path count, whatever it was before. -/
theorem updateChanged_booked (env : Environment) (ri : BgpInfo) (attrNew : Attr)
    (member : ri.id ∈ node.ids) (marked : Marked bgp node ri.id) :
    Booked bgp ri.id (node, account)
    (updateChanged bgp cfg aggregates env ri attrNew (node, account)) := by
  have confined := changeMark_confined bgp cfg env ri.id node
  have quiet :=
    (Reselects.aggregateDecrement bgp aggregates ri.id (changeMark bgp cfg env ri.id node)).quiet
  have touches := ((Touches.of_confined confined).trans (Touches.of_quiet ri.id quiet)).trans
    (Touches.replace _ ri.id { ri with attr := attrNew })
  have stays :
      ri.id ∈ (((changeMark bgp cfg env ri.id node).aggregateDecrement bgp aggregates ri.id).replace
      { ri with attr := attrNew }).ids := by
    rw [ids, replace_ids, quiet.info, confined.info]
    exact member
  have paid := change_paid account member marked
  simp only [updateChanged]
  split
  · rename_i dampened
    have known := changeMark_known cfg env dampened marked
    have firm := (congrArg snd (quiet.ledger ri.id)).trans (changeMark_stale cfg env ri.id node)
    rw [← quiet.damp] at known
    obtain ⟨updated, counts, kept⟩ :=
      updateDamped_booked bgp cfg aggregates env { ri with attr := attrNew } stays known firm
    refine ⟨touches.trans updated, ?_, fun _ => kept⟩
    rw [counts]
    exact paid
  · rename_i undampened
    have ledger :=
      (quiet.ledger ri.id).trans (changeMark_ledger cfg env (by simpa using undampened) marked)
    obtain ⟨kept, ids⟩ := updateFinish_ledger bgp aggregates env { ri with attr := attrNew }
      (((changeMark bgp cfg env ri.id node).aggregateDecrement bgp aggregates ri.id).replace
        { ri with attr := attrNew })
    rw [← ids] at stays
    obtain ⟨counts, current⟩ := current_marked bgp (kept.trans ledger) stays
    have finished := updateFinish_touches bgp aggregates env { ri with attr := attrNew }
      (((changeMark bgp cfg env ri.id node).aggregateDecrement bgp aggregates ri.id).replace
        { ri with attr := attrNew })
    refine ⟨touches.trans finished, ?_, fun _ => current⟩
    rw [counts]
    exact paid

theorem maximumPrefixOverflow_pcount (peer : Peer) (account : Account) :
    (account.maximumPrefixOverflow peer).2.pcount = account.pcount := by
  unfold maximumPrefixOverflow
  split
  · rfl
  · split
    · split <;> rfl
    · rfl

theorem updateNew_booked (env : Environment) (attrNew : Attr) (absent : id ∉ node.ids) :
    Booked bgp id (node, account) (updateNew bgp aggregates env id attrNew (node, account)) := by
  have named := nexthopCheck_id bgp (bgp.peer id.peer) env { id := id, attr := attrNew }
  have paid := (congrArg (· - account.pcount)
    (maximumPrefixOverflow_pcount (bgp.peer id.peer) account.increment)).trans
      (increment_pcount account)
  simp only [updateNew]
  generalize nexthopCheck bgp (bgp.peer id.peer) env { id := id, attr := attrNew } =
    checked at named ⊢
  obtain ⟨valid, ri⟩ := checked
  obtain rfl : ri.id = id := named
  have quiet :=
    (Reselects.aggregateIncrement bgp aggregates ri.id (node.fresh ri.id { valid := valid })).quiet
  have ledger :
      ((((node.fresh ri.id {
      valid := valid }).aggregateIncrement bgp aggregates ri.id).add ri).flags
      ri.id).ledger = (false, false) := by
    refine (quiet.ledger ri.id).trans ?_
    rw [fresh_flags_same]
    rfl
  have touches :=
    ((Touches.fresh node ri.id { valid := valid }).trans (Touches.of_quiet ri.id quiet)).trans
    (Touches.add _ ri (by rw [ids, quiet.info]; exact absent))
  split
  · rename_i overflowed
    rw [overflowed] at paid
    obtain ⟨counts, current⟩ := current_marked bgp ledger (mem_cons_self ..)
    refine ⟨touches, ?_, fun _ => current⟩
    rw [counts, liveAt_absent absent]
    exact paid
  · rename_i fits
    rw [fits] at paid
    have processed := process_quiet bgp
      (((node.fresh ri.id { valid := valid }).aggregateIncrement bgp aggregates ri.id).add ri)
    obtain ⟨counts, current⟩ := current_marked bgp ((processed.ledger ri.id).trans ledger)
      (by rw [ids, processed.info]; exact mem_cons_self ..)
    refine ⟨touches.trans (Touches.of_quiet ri.id processed), ?_, fun _ => current⟩
    rw [counts, liveAt_absent absent]
    exact paid

/-- What the counters need of a node. -/
structure Accountable (bgp : Bgp) (node : Node) : Prop where
  distinct : (node.info.map BgpInfo.id).Nodup
  marked : ∀ id ∈ node.info.map BgpInfo.id, Marked bgp node id

theorem Node.Touches.accountable {after} (touches : Touches id node after)
    (accountable : Accountable bgp node)
    (marked : id ∈ after.ids → Marked bgp after id) : Accountable bgp after where
  distinct := touches.distinct accountable.distinct
  marked other member := by
    by_cases same : other = id
    · subst same
      exact marked member
    · have before := accountable.marked other ((touches.ids other same).mp member)
      have ledger : (after.flags other).ledger = (node.flags other).ledger :=
        show (after.flags other).lasting.ledger = (node.flags other).lasting.ledger by
          rw [touches.lasting other same]
      simp only [Flags.ledger, Prod.mk.injEq] at ledger
      unfold Marked
      rw [ledger.1, ledger.2, touches.damp other same]
      exact before

theorem Node.Quiet.accountable {after} (quiet : Quiet node after)
    (accountable : Accountable bgp node) :
    Accountable bgp after where
  distinct := by
    rw [quiet.info]
    exact accountable.distinct
  marked id member := by
    rw [quiet.info] at member
    have ledger := quiet.ledger id
    simp only [Flags.ledger, Prod.mk.injEq] at ledger
    unfold Marked
    rw [ledger.1, ledger.2, quiet.damp]
    exact accountable.marked id member

theorem Node.Quiet.liveCount {after : Node} (quiet : Quiet node after) (peer : PeerId) :
    after.liveCount peer = node.liveCount peer := by
  unfold Node.liveCount
  rw [quiet.info]
  simp only [live_eq_of_lasting (quiet.lasting _)]

/-- What a call for a peer may do to a node and the peer's account: both move by the
same amount, and the counts of the other peers stay. -/
structure Balanced (bgp : Bgp) (peer : PeerId) (before after : Local) : Prop where
  accountable : Accountable bgp after.1
  own : after.2.pcount - before.2.pcount = after.1.liveCount peer - before.1.liveCount peer
  others : ∀ other, other ≠ peer → after.1.liveCount other = before.1.liveCount other

theorem Booked.balanced {before after} (booked : Booked bgp id before after)
    (accountable : Accountable bgp before.1) : Balanced bgp id.peer before after where
  accountable := booked.touches.accountable accountable booked.marked
  own := by rw [booked.touches.liveCount accountable.distinct, if_pos rfl, booked.account]
  others other apart := by
    have moved := booked.touches.liveCount accountable.distinct other
    rw [if_neg apart.symm] at moved
    omega

theorem Balanced.refl (peer : PeerId) {state} (accountable : Accountable bgp state.1) :
    Balanced bgp peer state state :=
  ⟨accountable, by omega, fun _ _ => rfl⟩

/-- A path that is stale but not history, and would be counted down again. -/
def countedOut (node : Node) (id : PathId) : Prop :=
  id ∈ node.info.map BgpInfo.id ∧ (node.flags id).history = false ∧ (node.flags id).stale = true

instance (node : Node) (id : PathId) : Decidable (countedOut node id) :=
  inferInstanceAs (Decidable (_ ∧ _))

theorem firm_of_not_countedOut (spared : ¬ countedOut node id) (member : id ∈ node.ids)
    (current : (node.flags id).history = false) : (node.flags id).stale = false := by
  by_contra stale
  exact spared ⟨member, current, by simpa using stale⟩

theorem bgpWithdraw_balanced (now : Int) (accountable : Accountable bgp node)
    (spared : ¬ countedOut node id) :
    Balanced bgp id.peer (node, account) (bgpWithdraw bgp cfg aggregates now id (node, account)) :=
  (bgpWithdraw_booked now (accountable.marked id) (firm_of_not_countedOut spared)).balanced
    accountable

theorem bgpUpdate_balanced (env : Environment) (attr : Attr) (accountable : Accountable bgp node)
    (spared : acceptUpdate bgp (bgp.peer id.peer) env attr = none → ¬ countedOut node id) :
    Balanced bgp id.peer (node, account)
    (bgpUpdate bgp cfg aggregates env id attr (node, account)) := by
  unfold bgpUpdate
  split
  · exact Balanced.refl _ accountable
  · rename_i ri found filtered
    obtain ⟨riIn, rfl⟩ := find?_mem found
    have member := mem_map_of_mem (f := BgpInfo.id) riIn
    exact (bgpRibWithdraw_booked env.withdrawTime true member (accountable.marked _ member)
      (firm_of_not_countedOut (spared filtered) member)).balanced accountable
  · rename_i attrNew missing _
    exact (updateNew_booked env attrNew (find?_absent missing)).balanced accountable
  · rename_i ri attrNew found _
    obtain ⟨riIn, rfl⟩ := find?_mem found
    have member := mem_map_of_mem (f := BgpInfo.id) riIn
    split
    · exact (updateSame_booked env member (accountable.marked _ member)).balanced accountable
    · exact (updateChanged_booked env ri attrNew member (accountable.marked _ member)).balanced
        accountable

theorem clearRouteNode_balanced (nsf : Bool) (peer : PeerId) (accountable : Accountable bgp node) :
    Balanced bgp peer (node, account) (clearRouteNode bgp aggregates nsf peer (node, account)) := by
  unfold clearRouteNode
  split
  · exact Balanced.refl peer accountable
  · rename_i ri found
    have member := mem_map_of_mem (f := BgpInfo.id) (mem_of_find?_eq_some found)
    obtain rfl : ri.id.peer = peer := by simpa using find?_some found
    dsimp only
    split
    · rename_i marks
      simp only [and_eq_true, not_eq_true'] at marks
      obtain ⟨⟨⟨-, firm⟩, current⟩, -⟩ := marks
      have stale :
          ((node.setFlags ri.id fun f => { f with stale := true }).flags ri.id).stale = true := by
        rw [setFlags_same]
      refine Booked.balanced
        ⟨Touches.of_confined (Confined.setFlags node ri.id fun _ => rfl), ?_, fun _ => ?_⟩
        accountable
      · rw [liveAt_stale stale, liveAt_live member current firm]
        simp only [decrement]
        omega
      · exact Marked.of_current (by rw [setFlags_same]; exact current)
    · exact (bgpRibRemove_booked member).balanced accountable

theorem clearStaleNode_balanced (peer : PeerId) (accountable : Accountable bgp node) :
    Balanced bgp peer (node, account) (clearStaleNode bgp aggregates peer (node, account)) := by
  unfold clearStaleNode
  split
  · exact Balanced.refl peer accountable
  · rename_i ri found
    have member := mem_map_of_mem (f := BgpInfo.id) (mem_of_find?_eq_some found)
    obtain rfl : ri.id.peer = peer := by simpa using find?_some found
    split
    · exact (bgpRibRemove_booked member).balanced accountable
    · exact Balanced.refl _ accountable

theorem aggregateRemove_touches (bgp : Bgp) (node : Node) :
    Touches (aggregateId bgp) node (aggregateRemove bgp node) := by
  unfold aggregateRemove
  split
  · exact Touches.refl _ node
  · rename_i ri found
    rw [(find?_mem found).2]
    exact ((Touches.setValid node (aggregateId bgp) false).trans
      (Touches.of_quiet _ (process_quiet bgp _))).trans (Touches.delete _ _)

theorem aggregateReplace_accountable (attr : Option Attr) (accountable : Accountable bgp node) :
    Accountable bgp (aggregateReplace bgp attr node) ∧
    ∀ peer, peer ≠ bgp.peerSelf → (aggregateReplace bgp attr node).liveCount peer =
      node.liveCount peer := by
  have removed := aggregateRemove_touches bgp node
  have absent : aggregateId bgp ∉ (aggregateRemove bgp node).ids := aggregateRemove_absent
  have replaced : Touches (aggregateId bgp) node (aggregateReplace bgp attr node) ∧
      (aggregateId bgp ∈ (aggregateReplace bgp attr node).ids →
        Marked bgp (aggregateReplace bgp attr node) (aggregateId bgp)) := by
    cases attr with
    | none => exact ⟨removed, fun member => absurd member absent⟩
    | some attr =>
      have quiet := process_quiet bgp
        (((aggregateRemove bgp node).fresh (aggregateId bgp) { valid := true }).add
        { id := aggregateId bgp, attr := attr })
      refine ⟨removed.trans (((Touches.fresh _ _ { valid := true }).trans
        (Touches.add _ { id := aggregateId bgp, attr := attr } absent)).trans
          (Touches.of_quiet _ quiet)),
        fun _ => Marked.of_current ?_⟩
      refine (congrArg fst (quiet.ledger (aggregateId bgp))).trans ?_
      exact congrArg history
        (fresh_flags_same (aggregateRemove bgp node) (aggregateId bgp) { valid := true })
  refine ⟨replaced.1.accountable accountable replaced.2, fun peer apart => ?_⟩
  have moved := replaced.1.liveCount accountable.distinct peer
  rw [if_neg (show (aggregateId bgp).peer ≠ peer from fun same => apart same.symm)] at moved
  omega

end Calls

namespace Rib
variable {Key : Type} [DecidableEq Key]

/-- The number of a peer's paths in the RIB that are neither history nor stale. -/
def liveCount (rib : Rib Key) (peer : PeerId) : Nat :=
  (rib.nodes.map fun entry => entry.2.liveCount peer).sum

/-- Every account is right, the daemon's own apart, which nobody reads. -/
def CountsPrefixes (bgp : Bgp) (rib : Rib Key) : Prop :=
  ∀ peer, peer ≠ bgp.peerSelf → (rib.accounts peer).pcount = rib.liveCount peer

structure Audited (bgp : Bgp) (rib : Rib Key) : Prop where
  accountable : ∀ entry ∈ rib.nodes, Accountable bgp entry.2
  counts : rib.CountsPrefixes bgp

theorem empty_accountable (bgp : Bgp) : Accountable bgp {} :=
  ⟨nodup_nil, by simp⟩

variable {bgp : Bgp} {rib : Rib Key} {peer : PeerId}

theorem Audited.node (audited : rib.Audited bgp) (key : Key) : Accountable bgp (rib.node key) := by
  unfold Rib.node
  cases found : rib.nodes.find? fun entry => entry.1 = key with
  | none => exact empty_accountable bgp
  | some entry => exact audited.accountable entry (mem_of_find?_eq_some found)

theorem Audited.store (audited : rib.Audited bgp) {key state}
    (accountable : Accountable bgp state.1) (moved : ∀ other, other ≠ bgp.peerSelf →
      (if other = peer then state.2 else rib.accounts other).pcount - (rib.accounts other).pcount =
        state.1.liveCount other - (rib.node key).liveCount other) :
        (rib.store key peer state).Audited bgp where
  accountable := storeNode_forall audited.accountable accountable
  counts other foreign := by
    have stored := storeNode_sum rib key state.1 (fun node => node.liveCount other) rfl
    have before := audited.counts other foreign
    have change := moved other foreign
    simp only [Rib.store, liveCount] at before stored ⊢
    omega

theorem Audited.onNode (audited : rib.Audited bgp) {key call}
    (balanced : Balanced bgp peer (rib.node key, rib.accounts peer)
      (call (rib.node key, rib.accounts peer))) :
    (rib.onNode key peer call).Audited bgp := by
  refine audited.store balanced.accountable fun other _ => ?_
  split
  · rename_i same
    subst same
    exact balanced.own
  · rename_i apart
    rw [balanced.others other apart]
    dsimp only
    omega

omit [DecidableEq Key] in
theorem walkNodes_balanced {call : Key → Local → Local}
    (each : ∀ key node account, Accountable bgp node →
      Balanced bgp peer (node, account) (call key (node, account)))
    (nodes : List (Key × Node)) (account : Account)
    (accountable : ∀ entry ∈ nodes, Accountable bgp entry.2) :
    ((walkNodes peer call nodes account).2.pcount - account.pcount =
      ((walkNodes peer call nodes account).1.map fun entry => entry.2.liveCount peer).sum -
        ((nodes.map fun entry => entry.2.liveCount peer).sum : Nat)) ∧
    ∀ other, other ≠ peer →
    ((walkNodes peer call nodes account).1.map fun entry => entry.2.liveCount other).sum =
      (nodes.map fun entry => entry.2.liveCount other).sum := by
  induction nodes generalizing account with
  | nil => simp [walkNodes]
  | cons first rest ih =>
    obtain ⟨key, node⟩ := first
    have head := each key node account (accountable _ (mem_cons_self ..))
    obtain ⟨own, others⟩ := ih (call key (node, account)).2 fun entry member =>
      accountable entry (mem_cons_of_mem _ member)
    simp only [walkNodes, map_cons, sum_cons]
    refine ⟨?_, fun other apart => by rw [head.others other apart, others other apart]⟩
    have headOwn := head.own
    dsimp only at headOwn
    omega

omit [DecidableEq Key] in
theorem Audited.walk (audited : rib.Audited bgp) {call : Key → Local → Local}
    (each : ∀ key node account, Accountable bgp node →
      Balanced bgp peer (node, account) (call key (node, account))) :
    (rib.walk peer call).Audited bgp where
  accountable :=
    walkNodes_forall (fun key node account kept => (each key node account kept).accountable) _ _
    audited.accountable
  counts other foreign := by
    obtain ⟨own, others⟩ :=
      walkNodes_balanced each rib.nodes (rib.accounts peer) audited.accountable
    have before := audited.counts other foreign
    simp only [Rib.walk, liveCount] at before ⊢
    split
    · rename_i same
      subst same
      omega
    · rename_i apart
      rw [others other apart]
      exact before

/-- A withdraw, or an update that the filters turn into one, of a stale path. -/
def WithdrawsStale (bgp : Bgp) (rib : Rib Key) : Op Key → Prop
  | .withdraw key id _ => countedOut (rib.node key) id
  | .update key id attr env =>
    acceptUpdate bgp (bgp.peer id.peer) env attr = none ∧ countedOut (rib.node key) id
  | _ => False

instance (bgp : Bgp) (rib : Rib Key) : (op : Op Key) → Decidable (rib.WithdrawsStale bgp op)
  | .withdraw .. => inferInstanceAs (Decidable (countedOut _ _))
  | .update .. => inferInstanceAs (Decidable (_ ∧ _))
  | .clearRoute .. | .clearStale .. | .aggregateChanged .. | .aggregateReplace .. => .isFalse id

section Run
variable {bgp : Bgp} {cfg : DampConfig} {aggregates : Key → List Bool}

theorem step_audited {rib : Rib Key} (op : Op Key) (spared : ¬ rib.WithdrawsStale bgp op)
    (audited : rib.Audited bgp) :
    (rib.step bgp cfg aggregates op).Audited bgp := by
  cases op with
  | update key id attr env =>
    exact audited.onNode (bgpUpdate_balanced env attr (audited.node key) fun filtered counted =>
      spared ⟨filtered, counted⟩)
  | withdraw key id now => exact audited.onNode (bgpWithdraw_balanced now (audited.node key) spared)
  | clearRoute peer nsf => exact audited.walk fun _ _ _ => clearRouteNode_balanced nsf peer
  | clearStale peer => exact audited.walk fun _ _ _ => clearStaleNode_balanced peer
  | aggregateChanged key summaryOnly =>
    have quiet := ((Reselects.aggregateDelete bgp summaryOnly (rib.node key)).trans
      (Reselects.aggregateRoute bgp none none summaryOnly _)).quiet
    refine audited.store (quiet.accountable (audited.node key)) fun other _ => ?_
    dsimp only
    rw [quiet.liveCount]
    split
    · rename_i same
      subst same
      omega
    · omega
  | aggregateReplace key attr =>
    obtain ⟨accountable, others⟩ := aggregateReplace_accountable attr (audited.node key)
    refine audited.store accountable fun other foreign => ?_
    rw [if_neg foreign, others other foreign]
    omega

/-- Whatever calls come in, from an empty RIB on: the counter of every peer is the
number of its paths that are neither history nor stale, and so never below zero,
unless a stale path is withdrawn. -/
theorem run_counts_prefixes (ops : List (Op Key))
    (run : Allowed (step bgp cfg aggregates) (fun rib op => ¬ rib.WithdrawsStale bgp op) {} ops) :
    (Rib.run bgp cfg aggregates {} ops).CountsPrefixes bgp := by
  have initial : (({} : Rib Key)).Audited bgp := ⟨by simp, fun _ _ => rfl⟩
  exact (run.invariant (fun _ op spared => step_audited op spared) initial).counts

end Run
end Rib

namespace Restarting

def bgp : Bgp where
  as := 65000
  peer := fun _ => { as := 100, localAs := 65000, remoteId := 1, suRemote := .inet 1 }
  peerSelf := 9

def announce : Op Unit :=
  .update () Flapping.id { aspath := some ⟨[2, 1, 0, 100]⟩, nexthop := 1 } Flapping.env

end Restarting

/-- A peer restarts, and withdraws its path when it is back: the path is counted down
twice, and the counter is below zero. -/
theorem run_counts_stale_twice :
    ((run Restarting.bgp Flapping.cfg (fun _ => []) {} [Restarting.announce, .clearRoute 0 true,
      .withdraw () Flapping.id 0]).accounts 0).pcount = -1 ∧
    ¬ (run Restarting.bgp Flapping.cfg (fun _ => []) {} [Restarting.announce, .clearRoute 0 true,
      .withdraw () Flapping.id 0]).CountsPrefixes Restarting.bgp := by
  refine ⟨by decide, fun counts => ?_⟩
  have own := counts 0 (by decide)
  revert own
  decide

/-- The same restart with the path announced again before it is withdrawn. -/
theorem run_counts_prefixes_refreshed :
    (run Restarting.bgp Flapping.cfg (fun _ => []) {} [Restarting.announce, .clearRoute 0 true,
      Restarting.announce, .withdraw () Flapping.id 0]).CountsPrefixes Restarting.bgp :=
  run_counts_prefixes _ (by decide)

end Zebra.Bgpd
