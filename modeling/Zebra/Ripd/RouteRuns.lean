import Zebra.Ripd.Route

namespace Zebra.Ripd
open RipInfo Function Option
open Ospfd (InAddr Dest)

namespace Rip

variable {rip rip' : Rip} {p q : Dest}

section
variable (rip : Rip) (p : Dest)

variable (info : Option RipInfo)

@[simp] theorem setInfo_info : (rip.setInfo p info).info p = info :=
  update_self _ _ _

@[simp] theorem setInfo_lock : (rip.setInfo p info).lock = rip.lock := rfl
@[simp] theorem setInfo_zebra : (rip.setInfo p info).zebra = rip.zebra := rfl

@[simp] theorem lockNode_info : (rip.lockNode p).info = rip.info := rfl
@[simp] theorem lockNode_zebra : (rip.lockNode p).zebra = rip.zebra := rfl

@[simp] theorem lockNode_lock : (rip.lockNode p).lock p = rip.lock p + 1 :=
  update_self _ _ _

@[simp] theorem unlockNode_info : (rip.routeUnlockNode p).info = rip.info := rfl
@[simp] theorem unlockNode_zebra : (rip.routeUnlockNode p).zebra = rip.zebra := rfl

@[simp] theorem unlockNode_lock : (rip.routeUnlockNode p).lock p = rip.lock p - 1 :=
  update_self _ _ _

section
variable (nexthop : InAddr) (metric distance : Nat)

@[simp] theorem zebraAdd_info :
    (rip.ripZebraIpv4Add p nexthop metric distance).info = rip.info := rfl

@[simp] theorem zebraAdd_lock :
    (rip.ripZebraIpv4Add p nexthop metric distance).lock = rip.lock := rfl

@[simp] theorem zebraAdd_zebra :
    (rip.ripZebraIpv4Add p nexthop metric distance).zebra p = some ⟨nexthop, metric, distance⟩ :=
  update_self _ _ _

end

@[simp] theorem zebraDelete_info : (rip.ripZebraIpv4Delete p).info = rip.info := rfl
@[simp] theorem zebraDelete_lock : (rip.ripZebraIpv4Delete p).lock = rip.lock := rfl

@[simp] theorem zebraDelete_zebra : (rip.ripZebraIpv4Delete p).zebra p = none :=
  update_self _ _ _

end

/-- Only the destination is concerned. -/
structure Only (p : Dest) (rip rip' : Rip) : Prop where
  info : ∀ q ≠ p, rip'.info q = rip.info q
  lock : ∀ q ≠ p, rip'.lock q = rip.lock q
  zebra : ∀ q ≠ p, rip'.zebra q = rip.zebra q

theorem Only.refl (p : Dest) (rip : Rip) : Only p rip rip :=
  ⟨fun _ _ => rfl, fun _ _ => rfl, fun _ _ => rfl⟩

section
variable (only : Only p rip rip')
include only

theorem Only.setInfo (info : Option RipInfo) : Only p rip (rip'.setInfo p info) :=
  ⟨fun q apart => (update_of_ne apart _ _).trans (only.info q apart), only.lock, only.zebra⟩

theorem Only.lockNode : Only p rip (rip'.lockNode p) :=
  ⟨only.info, fun q apart => (update_of_ne apart _ _).trans (only.lock q apart), only.zebra⟩

theorem Only.unlockNode : Only p rip (rip'.routeUnlockNode p) :=
  ⟨only.info, fun q apart => (update_of_ne apart _ _).trans (only.lock q apart), only.zebra⟩

theorem Only.zebraAdd (nexthop : InAddr) (metric distance : Nat) :
    Only p rip (rip'.ripZebraIpv4Add p nexthop metric distance) :=
  ⟨only.info, only.lock, fun q apart => (update_of_ne apart _ _).trans (only.zebra q apart)⟩

theorem Only.zebraDelete : Only p rip (rip'.ripZebraIpv4Delete p) :=
  ⟨only.info, only.lock, fun q apart => (update_of_ne apart _ _).trans (only.zebra q apart)⟩

end

theorem only_rteUpdate (rip : Rip) (rte : Rte) (rinfo : RipInfo) :
    Only rte.dest rip (rip.rteUpdate rte rinfo) := by
  have start := Only.refl rte.dest rip
  rw [rteUpdate]
  split
  · split
    · rw [adoptGarbage]
      split
      · exact (start.zebraAdd _ _ _).setInfo _
      · exact start.setInfo _
    · rw [adoptLive]
      split
      · exact ((start.zebraDelete.zebraAdd _ _ _).zebraDelete).setInfo _
      · exact (start.zebraDelete.zebraAdd _ _ _).setInfo _
  · exact start.setInfo _

theorem only_rteProcess (rip : Rip) (rte : Rte) : Only rte.dest rip (rip.ripRteProcess rte) := by
  have start := (Only.refl rte.dest rip).lockNode
  rw [ripRteProcess]
  split
  · dsimp only
    split
    · split
      · exact (start.setInfo _).zebraAdd _ _ _
      · exact start
    · split
      · exact start
      · have update := only_rteUpdate (rip.lockNode rte.dest) rte (rte.refreshed ‹RipInfo›)
        exact Only.unlockNode ⟨fun q apart => (update.info q apart).trans (start.info q apart),
          fun q apart => (update.lock q apart).trans (start.lock q apart),
          fun q apart => (update.zebra q apart).trans (start.zebra q apart)⟩
  · exact Only.refl _ _

theorem only_redistributeAdd (rip : Rip) (source : Source) (p : Dest) (ifindex : Nat)
    (nexthop : InAddr) :
    Only p rip (rip.ripRedistributeAdd source p ifindex nexthop) := by
  have start := (Only.refl p rip).lockNode
  rw [ripRedistributeAdd]
  split
  · dsimp only
    split
    · exact start.setInfo _
    · split
      · exact start.unlockNode
      · split
        · exact ((start.zebraDelete.setInfo _).unlockNode).setInfo _
        · exact ((start.setInfo _).unlockNode).setInfo _
  · exact Only.refl _ _

theorem only_redistributeDelete (rip : Rip) (type : RouteType) (subType : SubType) (p : Dest)
    (ifindex : Nat) :
    Only p rip (rip.ripRedistributeDelete type subType p ifindex) := by
  have start := (Only.refl p rip).lockNode
  rw [ripRedistributeDelete]
  split
  · split
    · exact Only.refl _ _
    · split
      · exact start.setInfo _
      · exact start
  · exact Only.refl _ _

end Rip

/-- The timers of a route go with its metric: at infinity it waits for its collection, learned and
in use it may time out, and else no timer runs. -/
structure RipInfo.Sound (p : Dest) (rinfo : RipInfo) : Prop where
  bounded : rinfo.metric ≤ ripMetricInfinity
  kind : rinfo.type = .rip → rinfo.subType = .rte ∨ rinfo.subType = .static
  infinite : rinfo.metric = ripMetricInfinity →
    rinfo.tGarbageCollect = true ∧ rinfo.tTimeout = false
  learned : rinfo.ripRouteRte = true → rinfo.metric < ripMetricInfinity →
    rinfo.tTimeout = true ∧ rinfo.tGarbageCollect = false
  others : rinfo.ripRouteRte = false → rinfo.metric < ripMetricInfinity →
    rinfo.tTimeout = false ∧ rinfo.tGarbageCollect = false
  valid : rinfo.ripRouteRte = true → ripDestinationCheck p.addr = true

/-- Learned from an entry, and in use. -/
def RipInfo.inUse (rinfo : RipInfo) : Bool :=
  rinfo.ripRouteRte && rinfo.metric < ripMetricInfinity

/-- A destination whose route is sound and which zebra knows exactly when its route is in use. -/
structure Rip.SoundAt (rip : Rip) (p : Dest) : Prop where
  route : ∀ rinfo, rip.info p = some rinfo → rinfo.Sound p
  zebra : (rip.zebra p).isSome = (rip.info p).any RipInfo.inUse

namespace RipInfo.Sound

variable {p : Dest} {rinfo : RipInfo}

theorem of_garbage (infinite : rinfo.metric = ripMetricInfinity)
    (kind : rinfo.type = .rip → rinfo.subType = .rte ∨ rinfo.subType = .static)
    (waits : rinfo.tGarbageCollect = true) (idle : rinfo.tTimeout = false)
    (valid : rinfo.ripRouteRte = true → ripDestinationCheck p.addr = true) : rinfo.Sound p where
  bounded := le_of_eq infinite
  kind := kind
  infinite _ := ⟨waits, idle⟩
  learned _ below := absurd infinite (ne_of_lt below)
  others _ below := absurd infinite (ne_of_lt below)
  valid := valid

section
variable (sound : rinfo.Sound p)
include sound

theorem infinite_of_garbage (runs : rinfo.tGarbageCollect = true) :
    rinfo.metric = ripMetricInfinity := by
  rcases Nat.lt_or_eq_of_le sound.bounded with below | infinite
  · cases learned : rinfo.ripRouteRte with
    | true =>
      have off := (sound.learned learned below).2
      rw [runs] at off
      cases off
    | false =>
      have off := (sound.others learned below).2
      rw [runs] at off
      cases off
  · exact infinite

theorem replaceable (lets : Rte.keepsOut rinfo = false) :
    rinfo.ripRouteRte = true ∨ rinfo.metric = ripMetricInfinity := by
  by_cases infinite : rinfo.metric = ripMetricInfinity
  · exact .inr infinite
  · simp only [Rte.keepsOut, ne_eq, infinite, not_false_eq_true, decide_true, Bool.and_true,
      Bool.or_eq_false_iff, decide_eq_false_iff_not, not_not] at lets
    have learned := (sound.kind lets.1).resolve_right lets.2
    simp [ripRouteRte, lets.1, learned]

theorem refreshed (rte : Rte)
    (may : rinfo.ripRouteRte = true ∨ rinfo.metric = ripMetricInfinity) :
    (rte.refreshed rinfo).Sound p ∧
      (rte.refreshed rinfo).ripRouteRte = rinfo.ripRouteRte ∧
      (rte.refreshed rinfo).metric = rinfo.metric := by
  rw [Rte.refreshed, ripTimeoutUpdate]
  split
  · split
    · rename_i finite
      have learned := may.resolve_right finite
      have below := lt_of_le_of_ne sound.bounded finite
      exact ⟨⟨sound.bounded, sound.kind, fun infinite => absurd infinite finite,
        fun _ _ => ⟨rfl, (sound.learned learned below).2⟩,
        fun other => absurd (other.symm.trans learned) nofun, sound.valid⟩, rfl, rfl⟩
    · exact ⟨sound, rfl, rfl⟩
  · exact ⟨sound, rfl, rfl⟩

theorem poisoned : rinfo.poisoned.Sound p :=
  of_garbage rfl sound.kind rfl rfl sound.valid

end

theorem of_learned (rte : ripRouteRte rinfo = true) (below : rinfo.metric < ripMetricInfinity)
    (valid : ripDestinationCheck p.addr = true) (idle : rinfo.tGarbageCollect = false) :
    rinfo.ripTimeoutUpdate.Sound p := by
  have kind : rinfo.type = .rip → rinfo.subType = .rte ∨ rinfo.subType = .static := by
    intro _
    simp only [ripRouteRte, Bool.and_eq_true, decide_eq_true_eq] at rte
    exact .inl rte.2
  rw [ripTimeoutUpdate, if_pos (ne_of_lt below)]
  exact ⟨le_of_lt below, kind, fun infinite => absurd infinite (ne_of_lt below),
    fun _ _ => ⟨rfl, idle⟩,
    fun other => absurd (other.symm.trans rte) nofun, fun _ => valid⟩

end RipInfo.Sound

theorem inUse_of_infinite {rinfo : RipInfo} (infinite : rinfo.metric = ripMetricInfinity) :
    rinfo.inUse = false := by
  rw [inUse, infinite]
  simp

theorem inUse_of_learned {rinfo : RipInfo} (learned : rinfo.ripRouteRte = true)
    (below : rinfo.metric < ripMetricInfinity) : rinfo.inUse = true := by
  rw [inUse, learned, decide_eq_true below]
  rfl

theorem ripTimeoutUpdate_inUse (rinfo : RipInfo) : rinfo.ripTimeoutUpdate.inUse = rinfo.inUse := by
  rw [ripTimeoutUpdate]
  split <;> rfl

theorem Rte.cost_le (rte : Rte) : rte.cost ≤ ripMetricInfinity := Nat.min_le_right _ _

variable (source : Source) (ifindex : Nat)

namespace Rip

variable {rip rip' : Rip} {p : Dest} {rinfo : RipInfo}

theorem SoundAt.of_info (route : rip.info p = some rinfo) (sound : rinfo.Sound p)
    (zebra : (rip.zebra p).isSome = rinfo.inUse) : rip.SoundAt p := by
  refine ⟨fun other found => ?_, ?_⟩
  · rw [route] at found
    cases found
    exact sound
  · rw [zebra, route]
    rfl

theorem SoundAt.of_none (gone : rip.info p = none) (unknown : rip.zebra p = none) :
    rip.SoundAt p := by
  refine ⟨fun other found => ?_, ?_⟩
  · rw [gone] at found
    cases found
  · rw [gone, unknown]
    rfl

theorem SoundAt.zebra_of_info (sound : rip.SoundAt p) (route : rip.info p = some rinfo) :
    (rip.zebra p).isSome = rinfo.inUse := by
  rw [sound.zebra, route]
  rfl

section
variable (rte : Rte) (sound : rinfo.Sound rte.dest)
include rte sound

theorem soundAt_adoptGarbage (infinite : rinfo.metric = ripMetricInfinity)
    (unknown : rip.zebra rte.dest = none)
    : (rip.adoptGarbage rte rinfo).SoundAt rte.dest := by
  rw [adoptGarbage]
  split
  · rename_i below
    refine .of_info (setInfo_info _ _ _) (.of_learned rfl below rte.valid rfl) ?_
    rw [setInfo_zebra, zebraAdd_zebra, ripTimeoutUpdate_inUse]
    exact (inUse_of_learned rfl below).symm
  · rename_i above
    have whole : rte.cost = ripMetricInfinity :=
      Nat.le_antisymm rte.cost_le (Nat.le_of_not_lt above)
    obtain ⟨waits, idle⟩ := sound.infinite infinite
    refine .of_info (setInfo_info _ _ _) (.of_garbage whole sound.kind waits idle sound.valid) ?_
    rw [setInfo_zebra, unknown, @inUse_of_infinite (rte.adopted rinfo) whole]
    rfl

theorem soundAt_adoptLive (learned : rinfo.ripRouteRte = true)
    (live : rinfo.metric < ripMetricInfinity)
    : (rip.adoptLive rte rinfo).SoundAt rte.dest := by
  rw [adoptLive]
  split
  · rename_i whole
    refine .of_info (setInfo_info _ _ _) (.of_garbage whole sound.kind rfl rfl sound.valid) ?_
    simp [inUse, Rte.adopted, whole]
  · rename_i finite
    have below : rte.cost < ripMetricInfinity := lt_of_le_of_ne rte.cost_le finite
    refine .of_info (setInfo_info _ _ _)
      (.of_learned learned below rte.valid (sound.learned learned live).2) ?_
    rw [setInfo_zebra, zebraAdd_zebra, ripTimeoutUpdate_inUse]
    apply Eq.symm
    apply inUse_of_learned
    · exact learned
    · exact below

theorem soundAt_rteUpdate (may : rinfo.ripRouteRte = true ∨ rinfo.metric = ripMetricInfinity)
    (zebra : (rip.zebra rte.dest).isSome = rinfo.inUse) :
    (rip.rteUpdate rte rinfo).SoundAt rte.dest := by
  rw [rteUpdate]
  split
  · split
    · rename_i infinite
      rw [inUse_of_infinite infinite] at zebra
      exact soundAt_adoptGarbage rte sound infinite (by simpa using zebra)
    · rename_i finite
      exact soundAt_adoptLive rte sound (may.resolve_right finite)
        (lt_of_le_of_ne sound.bounded finite)
  · exact .of_info (setInfo_info _ _ _) sound zebra

end

theorem SoundAt.rteProcess (rte : Rte) (sound : rip.SoundAt rte.dest) :
    (rip.ripRteProcess rte).SoundAt rte.dest := by
  rw [ripRteProcess]
  split
  · dsimp only
    split
    · split
      · rename_i finite
        have below : rte.cost < ripMetricInfinity := lt_of_le_of_ne rte.cost_le finite
        refine .of_info (setInfo_info _ _ _) ?_ ?_
        · exact .of_learned rfl below rte.valid rfl
        · rw [zebraAdd_zebra, Rte.route, ripTimeoutUpdate_inUse]
          exact (inUse_of_learned rfl below).symm
      · exact ⟨sound.route, sound.zebra⟩
    · rename_i rinfo found
      split
      · exact ⟨sound.route, sound.zebra⟩
      · rename_i lets
        have before := sound.route rinfo found
        have may := before.replaceable (Bool.eq_false_iff.mpr lets)
        obtain ⟨after, learned, metric⟩ := before.refreshed rte may
        have updated := @soundAt_rteUpdate (rip.lockNode rte.dest) _ rte after
          (by rw [learned, metric]; exact may)
          (by rw [inUse, learned, metric]; exact sound.zebra_of_info found)
        exact ⟨updated.route, updated.zebra⟩
  · exact sound

theorem SoundAt.timeout (sound : rip.SoundAt p) (found : rip.info p = some rinfo) :
    (rip.ripTimeout p rinfo).SoundAt p := by
  have before := sound.route rinfo found
  refine .of_info (setInfo_info _ _ _) (.of_garbage rfl before.kind rfl rfl before.valid) ?_
  rw [ripTimeout, setInfo_zebra, zebraDelete_zebra]
  exact (inUse_of_infinite rfl).symm

theorem SoundAt.garbageCollect (sound : rip.SoundAt p) (found : rip.info p = some rinfo)
    (runs : rinfo.tGarbageCollect = true) : (rip.ripGarbageCollect p).SoundAt p := by
  have zebra := sound.zebra_of_info found
  rw [inUse_of_infinite ((sound.route rinfo found).infinite_of_garbage runs)] at zebra
  have unknown : rip.zebra p = none := by simpa using zebra
  exact .of_none (setInfo_info _ _ _) unknown

theorem soundAt_insertSource (nexthop : InAddr) (unknown : rip.zebra p = none) :
    (rip.insertSource source p ifindex nexthop).SoundAt p := by
  have other : ripRouteRte { type := source.type, subType := source.subType, metric := 1 } =
      false := by
    rcases source.foreign with foreign | static
    · simp [ripRouteRte, foreign]
    · simp [ripRouteRte, static]
  refine .of_info (setInfo_info _ _ _)
    ⟨(by decide : 1 ≤ ripMetricInfinity), fun rip =>
    .inr (source.foreign.resolve_left (not_not.mpr rip)),
    fun infinite => absurd infinite (by decide : ¬ 1 = ripMetricInfinity),
    fun learned => absurd (other.symm.trans learned) nofun, fun _ _ => ⟨rfl, rfl⟩,
    fun learned => absurd (other.symm.trans learned) nofun⟩ ?_
  rw [insertSource, setInfo_zebra, unknown]
  exact (Bool.and_eq_false_iff.mpr (.inl other)).symm

theorem SoundAt.redistributeAdd (sound : rip.SoundAt p) (source : Source) (ifindex : Nat)
    (nexthop : InAddr) :
    (rip.ripRedistributeAdd source p ifindex nexthop).SoundAt p := by
  rw [ripRedistributeAdd]
  split
  · dsimp only
    rw [lockNode_info]
    split
    · rename_i gone
      have zebra := sound.zebra
      rw [gone] at zebra
      exact soundAt_insertSource source ifindex nexthop (by simpa using zebra)
    · rename_i rinfo found
      split
      · exact ⟨sound.route, sound.zebra⟩
      · split
        · exact soundAt_insertSource source ifindex nexthop (zebraDelete_zebra _ _)
        · rename_i other
          have zebra := sound.zebra_of_info found
          rw [inUse, Bool.eq_false_iff.mpr other] at zebra
          exact soundAt_insertSource source ifindex nexthop (by simpa using zebra)
  · exact sound

theorem soundAt_poisoned (sound : rinfo.Sound p) (unknown : rip.zebra p = none) :
    (rip.setInfo p (some rinfo.poisoned)).SoundAt p := by
  refine .of_info (setInfo_info _ _ _) sound.poisoned ?_
  rw [setInfo_zebra, unknown]
  exact (inUse_of_infinite rfl).symm

variable (sound : rip.SoundAt p)
include sound

/-- A redistributed route is not one that zebra has from RIP. -/
theorem SoundAt.unknown_of_source (found : rip.info p = some rinfo)
    (foreign : rinfo.type ≠ .rip ∨ rinfo.subType = .static) : rip.zebra p = none := by
  have zebra := sound.zebra_of_info found
  have other : rinfo.ripRouteRte = false := by
    rcases foreign with foreign | static
    · simp [ripRouteRte, foreign]
    · simp [ripRouteRte, static]
  rw [inUse, other] at zebra
  simpa using zebra

theorem SoundAt.redistributeDelete :
    (rip.ripRedistributeDelete source.type source.subType p ifindex).SoundAt p := by
  rw [ripRedistributeDelete]
  split
  · split
    · exact sound
    · rename_i rinfo found
      split
      · rename_i same
        refine soundAt_poisoned (sound.route rinfo found) (sound.unknown_of_source found ?_)
        rw [same.1, same.2.1]
        exact source.foreign
      · exact ⟨sound.route, sound.zebra⟩
  · exact sound

theorem SoundAt.redistributeWithdraw {type : RouteType} (foreign : type ≠ .rip) :
    (rip.ripRedistributeWithdraw type).SoundAt p := by
  cases found : rip.info p with
  | none =>
    have zebra := sound.zebra
    rw [found] at zebra
    have unknown : rip.zebra p = none := by simpa using zebra
    exact .of_none (by rw [ripRedistributeWithdraw]; simp [found]) unknown
  | some rinfo =>
    by_cases withdrawn : rinfo.type = type ∧ rinfo.subType ≠ .interface
    · have info : (rip.ripRedistributeWithdraw type).info p = some rinfo.poisoned := by
        simp [ripRedistributeWithdraw, found, withdrawn]
      refine .of_info info (sound.route rinfo found).poisoned ?_
      have unknown := sound.unknown_of_source found (.inl (withdrawn.1 ▸ foreign))
      rw [inUse_of_infinite rfl, ripRedistributeWithdraw, unknown]
      rfl
    · have info : (rip.ripRedistributeWithdraw type).info p = some rinfo := by
        simp only [ripRedistributeWithdraw, found, map_some, if_neg withdrawn]
      exact .of_info info (sound.route rinfo found) (sound.zebra_of_info found)

theorem SoundAt.ifDown : (rip.ripIfDown ifindex p).SoundAt p := by
  rw [ripIfDown]
  split
  · exact sound
  · rename_i rinfo found
    have before := sound.route rinfo found
    split
    · rename_i learned
      rw [ripRedistributeDelete, if_pos (before.valid learned.2), zebraDelete_info, found]
      dsimp only
      rw [if_pos ⟨rfl, rfl, rfl⟩]
      exact soundAt_poisoned before (zebraDelete_zebra _ _)
    · rename_i unlearned
      split
      · rename_i other
        have foreign : rinfo.type ≠ .rip ∨ rinfo.subType = .static := by
          by_contra both
          obtain ⟨rip, subType⟩ := not_or.mp both
          have kind := (before.kind (not_not.mp rip)).resolve_right subType
          exact unlearned ⟨other.1, by simp [ripRouteRte, not_not.mp rip, kind]⟩
        exact sound.redistributeDelete ⟨rinfo.type, rinfo.subType, foreign⟩ rinfo.ifindex
      · exact sound

end Rip

inductive RipStep where
  | rteProcess (rte : Rte)
  | timeout (p : Dest)
  | garbageCollect (p : Dest)
  | redistributeAdd (source : Source) (p : Dest) (ifindex : Nat) (nexthop : InAddr)
  | redistributeDelete (source : Source) (p : Dest) (ifindex : Nat)
  | redistributeWithdraw (type : RouteType) (foreign : type ≠ .rip)
  | ifDown (ifindex : Nat) (p : Dest)

namespace Rip

variable {rip rip' : Rip} {p : Dest} {rinfo : RipInfo} {move : RipStep}

/-- A step; a timer runs out only while it runs. -/
def step (rip : Rip) : RipStep → Option Rip
  | .rteProcess rte => some (rip.ripRteProcess rte)
  | .timeout p => (rip.info p).bind fun rinfo => if rinfo.tTimeout then
    some (rip.ripTimeout p rinfo) else none
  | .garbageCollect p => (rip.info p).bind fun rinfo => if rinfo.tGarbageCollect then
    some (rip.ripGarbageCollect p) else none
  | .redistributeAdd source p ifindex nexthop =>
    some (rip.ripRedistributeAdd source p ifindex nexthop)
  | .redistributeDelete source p ifindex =>
    some (rip.ripRedistributeDelete source.type source.subType p ifindex)
  | .redistributeWithdraw type _ => some (rip.ripRedistributeWithdraw type)
  | .ifDown ifindex p => some (rip.ripIfDown ifindex p)

theorem timeout_cases (ran : rip.step (.timeout p) = some rip') :
    ∃ rinfo, rip.info p = some rinfo ∧ rinfo.tTimeout = true ∧ rip' = rip.ripTimeout p rinfo := by
  obtain ⟨rinfo, found, guarded⟩ := bind_eq_some_iff.mp ran
  split at guarded
  · rename_i runs
    exact ⟨rinfo, found, runs, (Option.some.inj guarded).symm⟩
  · cases guarded

theorem garbageCollect_cases (ran : rip.step (.garbageCollect p) = some rip') :
    ∃ rinfo, rip.info p = some rinfo ∧ rinfo.tGarbageCollect = true ∧
      rip' = rip.ripGarbageCollect p := by
  obtain ⟨rinfo, found, guarded⟩ := bind_eq_some_iff.mp ran
  split at guarded
  · rename_i runs
    exact ⟨rinfo, found, runs, (Option.some.inj guarded).symm⟩
  · cases guarded

theorem only_ifDown (rip : Rip) (ifindex : Nat) (p : Dest) :
    Only p rip (rip.ripIfDown ifindex p) := by
  rw [ripIfDown]
  split
  · exact Only.refl _ _
  · split
    · have deleted := only_redistributeDelete
        (rip.ripZebraIpv4Delete p) ‹RipInfo›.type ‹RipInfo›.subType p ‹RipInfo›.ifindex
      have start := (Only.refl p rip).zebraDelete
      exact ⟨fun q apart => (deleted.info q apart).trans (start.info q apart),
        fun q apart => (deleted.lock q apart).trans (start.lock q apart),
        fun q apart => (deleted.zebra q apart).trans (start.zebra q apart)⟩
    · split
      · exact only_redistributeDelete _ _ _ _ _
      · exact Only.refl _ _

/-- Where a step changes anything: at one destination, except for a withdrawal. -/
def dest : RipStep → Option Dest
  | .rteProcess rte => some rte.dest
  | .timeout p => some p
  | .garbageCollect p => some p
  | .redistributeAdd _ p _ _ => some p
  | .redistributeDelete _ p _ => some p
  | .redistributeWithdraw _ _ => none
  | .ifDown _ p => some p

theorem only_of_step (ran : rip.step move = some rip') (here : dest move = some p) :
    Only p rip rip' := by
  cases move with
  | rteProcess rte => cases here; cases ran; exact only_rteProcess rip rte
  | timeout q =>
    cases here
    obtain ⟨rinfo, _, _, rfl⟩ := timeout_cases ran
    exact (Only.refl p rip).zebraDelete.setInfo _
  | garbageCollect q =>
    cases here
    obtain ⟨rinfo, _, _, rfl⟩ := garbageCollect_cases ran
    exact ((Only.refl p rip).setInfo _).unlockNode
  | redistributeAdd source q ifindex nexthop =>
    cases here; cases ran; exact only_redistributeAdd _ _ _ _ _
  | redistributeDelete source q ifindex =>
    cases here; cases ran; exact only_redistributeDelete _ _ _ _ _
  | redistributeWithdraw type foreign => cases here
  | ifDown ifindex q => cases here; cases ran; exact only_ifDown _ _ _

theorem SoundAt.frame {q} (only : Only p rip rip') (sound : rip.SoundAt q) (here : rip'.SoundAt p) :
    rip'.SoundAt q := by
  by_cases same : q = p
  · rw [same]
    exact here
  · refine ⟨fun rinfo found => sound.route rinfo ?_, ?_⟩
    · rwa [only.info q same] at found
    · rw [only.info q same, only.zebra q same]
      exact sound.zebra

theorem soundAt_step (sound : ∀ q, rip.SoundAt q) (ran : rip.step move = some rip') :
    ∀ q, rip'.SoundAt q := by
  intro q
  cases move with
  | rteProcess rte =>
    cases ran; exact (sound q).frame (only_rteProcess rip rte) ((sound _).rteProcess rte)
  | timeout p =>
    have only := only_of_step ran rfl
    obtain ⟨rinfo, found, _, rfl⟩ := timeout_cases ran
    exact (sound q).frame only ((sound p).timeout found)
  | garbageCollect p =>
    have only := only_of_step ran rfl
    obtain ⟨rinfo, found, runs, rfl⟩ := garbageCollect_cases ran
    exact (sound q).frame only ((sound p).garbageCollect found runs)
  | redistributeAdd source p ifindex nexthop =>
    cases ran
    exact (sound q).frame (only_redistributeAdd _ _ _ _ _)
      ((sound p).redistributeAdd source ifindex nexthop)
  | redistributeDelete source p ifindex =>
    cases ran
    exact (sound q).frame (only_redistributeDelete _ _ _ _ _)
      ((sound p).redistributeDelete source ifindex)
  | redistributeWithdraw type foreign => cases ran; exact (sound q).redistributeWithdraw foreign
  | ifDown ifindex p =>
    cases ran; exact (sound q).frame (only_ifDown _ _ _) ((sound p).ifDown ifindex)

/-- One lock for a node with a route, and none for any other. -/
def Locked (rip : Rip) : Prop :=
  ∀ p, rip.lock p = if (rip.info p).isSome then 1 else 0

/-- A step that gives back the locks it takes. An entry is not for a destination whose route keeps
it out, nor does it say that a destination without a route is unreachable; and no deletion finds a
route. -/
def Clean (rip : Rip) : RipStep → Prop
  | .rteProcess rte => rte.accepted = true →
      (rip.info rte.dest = none → rte.cost ≠ ripMetricInfinity) ∧
        ∀ rinfo, rip.info rte.dest = some rinfo → Rte.keepsOut rinfo = false
  | .redistributeDelete _ p _ => ripDestinationCheck p.addr = true → rip.info p = none
  | .ifDown ifindex p => ∀ rinfo, rip.info p = some rinfo → rinfo.ifindex = ifindex →
      ripDestinationCheck p.addr = true → rinfo.type = .static ∨ rinfo.type = .system
  | _ => True

theorem Locked.frame_iff (locked : rip.Locked) (only : Only p rip rip') :
    rip'.Locked ↔ rip'.lock p = if (rip'.info p).isSome then 1 else 0 := by
  refine ⟨fun after => after p, fun here q => ?_⟩
  by_cases same : q = p
  · rw [same]
    exact here
  · rw [only.lock q same, only.info q same]
    exact locked q

theorem rteUpdate_lock (rip : Rip) (rte : Rte) (rinfo : RipInfo) :
    (rip.rteUpdate rte rinfo).lock = rip.lock := by
  rw [rteUpdate, adoptGarbage, adoptLive]
  repeat' split
  all_goals rfl

theorem rteUpdate_isSome (rip : Rip) (rte : Rte) (rinfo : RipInfo) :
    ((rip.rteUpdate rte rinfo).info rte.dest).isSome = true := by
  rw [rteUpdate, adoptGarbage, adoptLive]
  repeat' split
  all_goals rw [setInfo_info]; rfl

section
variable (locked : rip.Locked)
include locked

theorem Locked.rteProcess_iff (rte : Rte) :
    (rip.ripRteProcess rte).Locked ↔ rip.Clean (.rteProcess rte) := by
  rw [locked.frame_iff (only_rteProcess rip rte), ripRteProcess, Clean]
  have before := locked rte.dest
  by_cases accepted : rte.accepted = true
  · simp only [accepted, if_true, lockNode_info, forall_const]
    cases found : rip.info rte.dest with
    | none =>
      rw [found] at before
      by_cases finite : rte.cost = ripMetricInfinity
      · simp [finite, found]
      · simp [finite, before]
    | some rinfo =>
      rw [found] at before
      cases keeps : Rte.keepsOut rinfo with
      | true => simp [keeps, found, before]
      | false => simp [keeps, rteUpdate_lock, rteUpdate_isSome, before]
  · simp only [accepted, if_false, Bool.false_eq_true, false_implies, iff_true]
    exact before

theorem Locked.redistributeAdd (p : Dest) (ifindex : Nat) (nexthop : InAddr) :
    (rip.ripRedistributeAdd source p ifindex nexthop).Locked := by
  rw [locked.frame_iff (only_redistributeAdd _ _ _ _ _), ripRedistributeAdd]
  have before := locked p
  split
  · simp only [lockNode_info]
    cases found : rip.info p with
    | none =>
      rw [found] at before
      simp [insertSource, before]
    | some rinfo =>
      rw [found] at before
      dsimp only
      split
      · simp [found, before]
      · split <;> simp [insertSource, before]
  · exact before

theorem Locked.redistributeDelete_iff (type : RouteType) (subType : SubType) (p : Dest)
    (ifindex : Nat) :
    (rip.ripRedistributeDelete type subType p ifindex).Locked ↔
    (ripDestinationCheck p.addr = true → rip.info p = none) := by
  rw [locked.frame_iff (only_redistributeDelete _ _ _ _ _), ripRedistributeDelete]
  have before := locked p
  by_cases valid : ripDestinationCheck p.addr = true
  · simp only [valid, if_true, forall_const]
    cases found : rip.info p with
    | none =>
      simpa [found] using before
    | some rinfo =>
      dsimp only
      split <;> simp [found, before]
  · simp only [valid, if_false, Bool.false_eq_true, false_implies, iff_true]
    exact before

theorem Locked.withdraw (type : RouteType) : (rip.ripRedistributeWithdraw type).Locked := by
  intro p
  have before := locked p
  simpa [ripRedistributeWithdraw] using before

theorem Locked.ifDown_iff (p : Dest) :
    (rip.ripIfDown ifindex p).Locked ↔ rip.Clean (.ifDown ifindex p) := by
  rw [ripIfDown, Clean]
  cases found : rip.info p with
  | none => simpa using locked
  | some rinfo =>
    dsimp only
    have silent : (rip.ripZebraIpv4Delete p).Locked := locked
    by_cases here : rinfo.ifindex = ifindex
    · cases learned : rinfo.ripRouteRte with
      | true =>
        have kind : rinfo.type = .rip := by
          simp only [ripRouteRte, Bool.and_eq_true, decide_eq_true_eq] at learned
          exact learned.1
        rw [if_pos ⟨here, rfl⟩, silent.redistributeDelete_iff, zebraDelete_info, found]
        simp [here, kind]
      | false =>
        rw [if_neg (by simp)]
        by_cases other : rinfo.type ≠ .static ∧ rinfo.type ≠ .system
        · rw [if_pos ⟨here, other⟩, locked.redistributeDelete_iff, found]
          simp [here, other]
        · rw [if_neg (fun both => other both.2)]
          refine ⟨fun _ q same _ _ => ?_, fun _ => locked⟩
          cases same
          simpa [or_iff_not_imp_left] using other
    · rw [if_neg (fun both => here both.1), if_neg (fun both => here both.1)]
      refine ⟨fun _ q same at_ => ?_, fun _ => locked⟩
      cases same
      exact absurd at_ here

theorem Locked.step_iff (ran : rip.step move = some rip') : rip'.Locked ↔ rip.Clean move := by
  cases move with
  | rteProcess rte => cases ran; exact locked.rteProcess_iff rte
  | timeout p =>
    have only := only_of_step ran rfl
    obtain ⟨rinfo, found, _, rfl⟩ := timeout_cases ran
    have before := locked p
    refine (locked.frame_iff only).trans ⟨fun _ => trivial, fun _ => ?_⟩
    simpa [ripTimeout, found] using before
  | garbageCollect p =>
    have only := only_of_step ran rfl
    obtain ⟨rinfo, found, _, rfl⟩ := garbageCollect_cases ran
    have before := locked p
    refine (locked.frame_iff only).trans ⟨fun _ => trivial, fun _ => ?_⟩
    simp [ripGarbageCollect, before, found]
  | redistributeAdd source p ifindex nexthop =>
    cases ran
    exact ⟨fun _ => trivial, fun _ => locked.redistributeAdd source p ifindex nexthop⟩
  | redistributeDelete source p ifindex => cases ran; exact locked.redistributeDelete_iff _ _ _ _
  | redistributeWithdraw type foreign =>
    cases ran; exact ⟨fun _ => trivial, fun _ => locked.withdraw type⟩
  | ifDown ifindex p => cases ran; exact locked.ifDown_iff ifindex p

end

/-- The states that the operations lead to, in any order. -/
inductive Reached : Rip → Prop where
  | start : Reached {}
  | step {rip rip' : Rip} (move : RipStep) : Reached rip → rip.step move = some rip' → Reached rip'

/-- The states that clean operations lead to. -/
inductive CleanRun : Rip → Prop where
  | start : CleanRun {}
  | step {rip rip' : Rip} (move : RipStep) :
    CleanRun rip → rip.Clean move → rip.step move = some rip' → CleanRun rip'

theorem Reached.soundAt (reached : Reached rip) : ∀ p, rip.SoundAt p := by
  induction reached with
  | start => exact fun p => .of_none rfl rfl
  | step move _ ran ih => exact soundAt_step ih ran

theorem CleanRun.locked (run : CleanRun rip) : rip.Locked := by
  induction run with
  | start => exact fun p => rfl
  | step move _ clean ran ih => exact (ih.step_iff ran).mpr clean

/-- The life cycle of a route in every run: at infinity its garbage-collection timer runs and its
timeout does not, learned and in use it is the other way round, and zebra has the routes that are
learned and in use. Each node has one lock or none throughout every run of clean operations, and a
further operation keeps it so exactly when it is clean. -/
theorem rip_route_life_cycle (rip : Rip) :
    (Reached rip → ∀ p,
      (∀ rinfo, rip.info p = some rinfo →
        (rinfo.metric = ripMetricInfinity → rinfo.tGarbageCollect = true ∧ rinfo.tTimeout = false) ∧
        (rinfo.ripRouteRte = true → rinfo.metric < ripMetricInfinity →
          rinfo.tTimeout = true ∧ rinfo.tGarbageCollect = false)) ∧
      ((rip.zebra p).isSome = true ↔
        ∃ rinfo, rip.info p = some rinfo ∧ rinfo.ripRouteRte = true ∧
          rinfo.metric < ripMetricInfinity)) ∧
    (CleanRun rip → rip.Locked ∧ ∀ move rip', rip.step move = some rip' →
      (rip'.Locked ↔ rip.Clean move)) := by
  refine ⟨fun reached p => ?_, fun run =>
    ⟨run.locked, fun move rip' ran => run.locked.step_iff ran⟩⟩
  have sound := reached.soundAt p
  refine ⟨fun rinfo found =>
    ⟨(sound.route rinfo found).infinite, (sound.route rinfo found).learned⟩, ?_⟩
  rw [sound.zebra, any_eq_true]
  simp only [inUse, Bool.and_eq_true, decide_eq_true_eq]

def sampleDest : Dest := ⟨0x0a000000, 8⟩

def sampleSource : Source := ⟨.connect, .redistribute, .inl (by decide)⟩

def sampleMoves (moves : List RipStep) : Option Rip :=
  moves.foldl (fun rip move => rip.bind fun rip => rip.step move) (some {})

/-- A response with an entry for it, from 10.1.1.1. -/
def sampleRte (metric : BitVec 32) : Rte where
  addr := 0x0a000000
  mask := 0xff000000
  nexthop := 0
  metric := metric
  tag := 0
  sender := 0x0a010101
  ifindex := 1
  ifMetric := 1
  filtered := false
  offset := none
  locals := []
  distance := 0
  valid := by decide

/-- A route is learned, times out, is learned again and redistributed beside it. -/
def sampleRun : List RipStep :=
  [.rteProcess (sampleRte 1), .timeout sampleDest, .rteProcess (sampleRte 3),
    .redistributeAdd sampleSource ⟨0x0b000000, 8⟩ 1 0]

theorem rip_route_learned : ∃ rip, sampleMoves sampleRun = some rip ∧ rip.lock sampleDest = 1 ∧
    rip.Locked ∧
    (rip.zebra sampleDest).isSome = true := by
  have learned := CleanRun.start.step (.rteProcess (sampleRte 1))
    (fun _ => ⟨fun _ => by decide, fun rinfo found => absurd found (by simp)⟩) rfl
  have expired := learned.step (.timeout sampleDest) trivial rfl
  have again := expired.step (.rteProcess (sampleRte 3))
    (fun _ => ⟨fun _ => by decide, by rintro _ ⟨⟩; rfl⟩) rfl
  have beside := again.step (.redistributeAdd sampleSource ⟨0x0b000000, 8⟩ 1 0) trivial rfl
  exact ⟨_, rfl, by decide +kernel, ((rip_route_life_cycle _).2 beside).1, by decide +kernel⟩

/-- A lock is left behind by an entry for a redistributed route, by the withdrawal of that route,
and by an entry for an unreachable destination that has no route. -/
theorem rip_locks_left :
    (sampleMoves [.redistributeAdd sampleSource sampleDest 1 0, .rteProcess (sampleRte 1)]).map
      (·.lock sampleDest) = some 2 ∧
    (sampleMoves [.redistributeAdd sampleSource sampleDest 1 0,
      .redistributeDelete sampleSource sampleDest 1,
      .garbageCollect sampleDest]).map (fun rip => (rip.lock sampleDest, rip.info sampleDest)) =
      some (1, none) ∧
    (sampleMoves [.rteProcess (sampleRte 16)]).map
      (fun rip => (rip.lock sampleDest, rip.info sampleDest)) = some (1, none) := by
  decide +kernel

end Rip

end Zebra.Ripd
