import Zebra.Base.Run
import Zebra.Zebrad.RibProcess

namespace Zebra.Zebrad
open Base Function Nexthop Rib RibCore List

/-- The gate of a static route that a nexthop stands for. -/
def keyGate : NexthopType × InAddr × String × BitVec 32 → Option StaticGate
  | (.ipv4, gate, _, _) => some (.gateway gate)
  | (.ifname, _, ifname, _) => some (.ifname ifname)
  | (.blackhole, _, _, _) => some .blackhole
  | _ => none

def Nexthop.staticGate (nexthop : Nexthop) : Option StaticGate :=
  keyGate nexthop.key

def StaticGate.key : StaticGate → NexthopType × InAddr × String × BitVec 32
  | .gateway ipv4 => (.ipv4, ipv4, "", 0)
  | .ifname name => (.ifname, 0, name, 0)
  | .blackhole => (.blackhole, 0, "", 0)

@[simp] theorem keyGate_key (gate : StaticGate) : keyGate gate.key = some gate := by
  cases gate <;> rfl

theorem staticIpv4NexthopSame_iff (nexthop : Nexthop) (gate : StaticGate) :
    staticIpv4NexthopSame nexthop gate = decide (keyGate nexthop.key = some gate) := by
  cases gate <;> cases type : nexthop.type <;>
    simp [staticIpv4NexthopSame, Nexthop.key, keyGate, type]

/-! The configuration and the ribs of a node. -/

def RibCore.withGate (core : RibCore) (gate : StaticGate) : RibCore :=
  { core with
    keys := core.keys ++ [gate.key]
    nexthopNum := core.nexthopNum + 1
    blackhole := core.blackhole || gate = .blackhole }

def RibCore.withoutKey (core : RibCore) (index : Nat) : RibCore :=
  { core with keys := core.keys.eraseIdx index, nexthopNum := core.nexthopNum - 1 }

theorem Rib.core_nexthopStaticAdd (rib : Rib) (gate : StaticGate) :
    (rib.nexthopStaticAdd gate).core = rib.core.withGate gate := by
  cases gate with
  | gateway ipv4 =>
    simp [nexthopStaticAdd, nexthopIpv4Add, nexthopAdd, core, withGate, check, key,
      StaticGate.key]
  | ifname ifname =>
    simp [nexthopStaticAdd, nexthopIfnameAdd, nexthopAdd, core, withGate, check, key,
      StaticGate.key]
  | blackhole =>
    simp [nexthopStaticAdd, nexthopBlackholeAdd, nexthopAdd, core, withGate, check,
      key, StaticGate.key, setFlag, ZebraFlag.bit]

theorem Rib.core_nexthopDelete (rib : Rib) (index : Nat) :
    (rib.nexthopDelete index).core = rib.core.withoutKey index := by
  simp [nexthopDelete, core, withoutKey, check, eraseIdx_map]

/-- The rib that a distance starts with. -/
def RibCore.bare (distance : Octet) : RibCore :=
  Rib.core { type := routeStatic, distance }

/-- How a static route enters the ribs of a node. -/
inductive Enters (si : StaticIpv4) : List RibCore → List RibCore → Prop where
  | joins {before core after} (serves : core.serves si.distance = true)
    (first : ∀ other ∈ before, other.serves si.distance = false) :
    Enters si (before ++ core :: after) (before ++ core.withGate si.gate :: after)
  | starts {cores} (none : ∀ other ∈ cores, other.serves si.distance = false) :
    Enters si cores ((RibCore.bare si.distance).withGate si.gate :: cores)

/-- How it leaves them, where its nexthop is found. -/
inductive Leaves (si : StaticIpv4) : List RibCore → List RibCore → Prop where
  | ends {before core after} (serves : core.serves si.distance = true)
    (first : ∀ other ∈ before, other.serves si.distance = false)
    (last : core.nexthopNum = 1) : Leaves si (before ++ core :: after) (before ++ after)
  | parts {before core after hops key rest} (serves : core.serves si.distance = true)
    (first : ∀ other ∈ before, other.serves si.distance = false) (more : core.nexthopNum ≠ 1)
    (keys : core.keys = hops ++ key :: rest) (own : keyGate key = some si.gate) :
    Leaves si (before ++ core :: after)
      (before ++ { core with keys := hops ++ rest, nexthopNum := core.nexthopNum - 1 } :: after)

variable (env : Surroundings) (table : RibTable) (p : PrefixIpv4) (si : StaticIpv4)

theorem Surroundings.staticInstallIpv4_other {other} (apart : other ≠ p) :
    (env.staticInstallIpv4 table p si).1 other = table other := by
  rw [staticInstallIpv4]
  split <;> exact env.process_other table apart ..

theorem Surroundings.staticUninstallIpv4_other {other} (apart : other ≠ p) :
    (env.staticUninstallIpv4 table p si).1 other = table other := by
  rw [staticUninstallIpv4]
  split
  · rfl
  · split
    · rfl
    · split
      · rfl
      · split <;> exact env.process_other table apart ..

theorem Surroundings.staticInstallIpv4_enters :
    Enters si ((table p).map core) (((env.staticInstallIpv4 table p si).1 p).map core) := by
  rw [staticInstallIpv4]
  split
  · rename_i index found
    obtain ⟨spot⟩ := around found
    have cores := congrArg (map core) spot.split
    rw [map_append, map_cons] at cores
    rw [env.process_core, spot.modify, cores, map_append, map_cons, core_nexthopStaticAdd,
      core_ribUninstall]
    exact .joins spot.holds (by simpa [serves_core] using spot.first)
  · rename_i missing
    rw [env.process_core, map_cons, core_nexthopStaticAdd]
    exact .starts (by simpa [serves_core] using missing)

theorem Surroundings.staticUninstallIpv4_leaves
    (served : ∃ core ∈ (table p).map Rib.core, core.serves si.distance = true)
    (present : ∀ core ∈ (table p).map Rib.core, core.serves si.distance = true →
      some si.gate ∈ core.keys.map keyGate) :
    Leaves si ((table p).map core) (((env.staticUninstallIpv4 table p si).1 p).map core) := by
  obtain ⟨_, member, serves⟩ := served
  obtain ⟨own, there, rfl⟩ := mem_map.mp member
  obtain ⟨index, found⟩ : ∃ index, (table p).findIdx? (servesStatic si.distance) = some index :=
    ⟨_, findIdx?_eq_some_of_exists ⟨own, there, serves⟩⟩
  obtain ⟨spot⟩ := around found
  have inside : spot.value ∈ table p := mem_of_getElem? spot.getElem?
  obtain ⟨key, keyed, gate⟩ := mem_map.mp (present _ (mem_map_of_mem inside) spot.holds)
  obtain ⟨hop, hopped, rfl⟩ := mem_map.mp keyed
  obtain ⟨place, hit⟩ : ∃ place, spot.value.nexthop.findIdx?
      (fun nexthop => staticIpv4NexthopSame nexthop si.gate) = some place :=
    ⟨_, findIdx?_eq_some_of_exists ⟨hop, hopped, by simp [staticIpv4NexthopSame_iff, gate]⟩⟩
  obtain ⟨hops⟩ := around hit
  have cores := congrArg (map core) spot.split
  rw [map_append, map_cons] at cores
  have first : ∀ other ∈ spot.before.map core, other.serves si.distance = false := by
    simpa [serves_core] using spot.first
  rw [staticUninstallIpv4, found]
  dsimp only
  rw [spot.getElem?]
  dsimp only
  rw [hit]
  dsimp only
  split
  · rename_i last
    rw [env.process_core, spot.eraseIdx, cores, map_append]
    exact .ends spot.holds first last
  · rename_i more
    rw [env.process_core, spot.set, cores, map_append, map_cons, core_nexthopDelete,
      core_ribUninstall]
    have keys :
        spot.value.core.keys = hops.before.map key ++ hops.value.key :: hops.after.map key := by
      have split := congrArg (map key) hops.split
      rw [map_append] at split
      exact split
    have erased : spot.value.core.withoutKey place = { spot.value.core with
        keys := hops.before.map key ++ hops.after.map key
        nexthopNum := spot.value.core.nexthopNum - 1 } := by
      rw [withoutKey]
      congr 1
      exact (eraseIdx_map ..).trans (by rw [hops.eraseIdx, map_append])
    rw [erased]
    exact .parts spot.holds first more keys (by simpa [staticIpv4NexthopSame_iff] using hops.holds)

/-- The ribs of one distance against the gates that are configured for it. -/
structure Serves (core : RibCore) (gates : List StaticGate) : Prop where
  configured : gates ≠ []
  keys : (core.keys.map keyGate).Perm (gates.map some)
  blackhole : core.blackhole = true ↔ .blackhole ∈ gates
  count : core.nexthopNum = BitVec.ofNat 8 gates.length

def Served (gates : List StaticGate) : List RibCore → Prop
  | [] => gates = []
  | [core] => Serves core gates
  | _ => False

variable {gates : List StaticGate} {cores after : List RibCore} {core : RibCore} {distance : Octet}
  {info : List StaticIpv4}

theorem Served.perm {others} (served : Served gates cores) (same : gates.Perm others) :
    Served others cores := by
  match cores, served with
  | [], served =>
    obtain rfl : gates = [] := served
    exact same.nil_eq.symm
  | [core], served =>
    refine ⟨fun none => ?_, served.keys.trans (same.map some),
      served.blackhole.trans same.mem_iff, ?_⟩
    · subst none
      exact served.configured same.eq_nil
    · rw [← same.length_eq]
      exact served.count

def gatesAt (info : List StaticIpv4) (distance : Octet) : List StaticGate :=
  (info.filter fun si => si.distance = distance).map StaticIpv4.gate

/-- The ribs of a node are those that its configuration asks for. -/
structure NodeAgrees (info : List StaticIpv4) (cores : List RibCore) : Prop where
  distinct : (info.map StaticIpv4.gate).Nodup
  served : ∀ distance, Served (gatesAt info distance) (cores.filter (RibCore.serves distance))

theorem serves_withGate (core : RibCore) (gate : StaticGate) (distance : Octet) :
    (core.withGate gate).serves distance = core.serves distance := rfl

theorem serves_iff (serves : core.serves distance = true) (other : Octet) :
    core.serves other = decide (other = distance) := by
  simp only [RibCore.serves, Bool.and_eq_true, decide_eq_true_eq] at serves
  simp [RibCore.serves, serves, eq_comm]

theorem filter_none (none : ∀ other ∈ cores, other.serves distance = false) :
    cores.filter (serves distance) = [] :=
  filter_eq_nil_iff.mpr fun other member => by simp [none other member]

theorem Served.alone {before}
    (served : Served gates ((before ++ core :: after).filter (serves distance)))
    (serves : core.serves distance = true)
    (first : ∀ other ∈ before, other.serves distance = false) :
    Serves core gates ∧ after.filter (RibCore.serves distance) = [] := by
  rw [filter_append, filter_none first, filter_cons_of_pos serves] at served
  cases rest : after.filter (RibCore.serves distance) with
  | nil => rw [rest] at served; exact ⟨served, rfl⟩
  | cons second more => rw [rest] at served; exact served.elim

theorem gatesAt_perm {other} (same : info.Perm other) (distance : Octet) :
    (gatesAt info distance).Perm (gatesAt other distance) :=
  (same.filter _).map _

theorem gatesAt_cons (si : StaticIpv4) (info : List StaticIpv4) (distance : Octet) :
    gatesAt (si :: info) distance = if si.distance = distance then si.gate :: gatesAt info distance
    else gatesAt info distance := by
  by_cases same : si.distance = distance
  · simp [same, gatesAt]
  · simp [same, gatesAt]

theorem staticInsert_perm (si : StaticIpv4) (info : List StaticIpv4) :
    (Vrf.staticInsert si info).Perm (si :: info) := by
  refine perm_middle.trans (Perm.cons si ?_)
  rw [takeWhile_append_dropWhile]

/-- A static route can go when it is not a blackhole beside others of its distance, and not
one of 257, 513 and so on. -/
def Leavable (gates : List StaticGate) (gate : StaticGate) : Prop :=
  (gate = .blackhole → gates.length = 1) ∧ (gates.length % 256 = 1 → gates.length = 1)

theorem Serves.join (serves : Serves core gates) (gate : StaticGate) :
    Serves (core.withGate gate) (gate :: gates) := by
  refine ⟨by simp, ?_, ?_, ?_⟩
  · have keys : (core.withGate gate).keys.map keyGate = core.keys.map keyGate ++ [some gate] := by
      simp [withGate]
    rw [keys]
    exact (perm_append_singleton ..).trans (serves.keys.cons _)
  · simp only [withGate, Bool.or_eq_true, serves.blackhole, decide_eq_true_eq, mem_cons]
    rw [or_comm, eq_comm]
  · simp only [withGate, serves.count, length_cons]
    exact (BitVec.ofNat_add ..).symm

theorem Serves.leave {rest gate} {hops after key}
    (serves : Serves core gates) (order : gates.Perm (gate :: rest))
    (leavable : Leavable gates gate)
    (more : core.nexthopNum ≠ 1) (keys : core.keys = hops ++ key :: after)
    (own : keyGate key = some gate) :
    Serves { core with keys := hops ++ after, nexthopNum := core.nexthopNum - 1 } rest := by
  have length : gates.length = rest.length + 1 := order.length_eq
  have several : gates.length ≠ 1 := fun single => by
    have := serves.count
    rw [single] at this
    exact more this
  refine ⟨fun none => ?_, ?_, ?_, ?_⟩
  · subst none
    exact several length
  · have before := serves.keys
    rw [keys, map_append, map_cons, own] at before
    have moved := (perm_middle.symm.trans before).trans (order.map some)
    rw [map_append]
    exact (perm_cons _).mp moved
  · have apart : gate ≠ .blackhole := fun hole => several (leavable.1 hole)
    rw [serves.blackhole, order.mem_iff, mem_cons]
    exact or_iff_right (Ne.symm apart)
  · rw [serves.count, length, BitVec.ofNat_add]
    exact BitVec.add_sub_cancel ..

theorem Serves.start (distance : Octet) (gate : StaticGate) :
    Serves ((bare distance).withGate gate) [gate] := by
  refine ⟨by simp, ?_, ?_, rfl⟩
  · simp [withGate, bare, core]
  · simp [withGate, bare, core, check, eq_comm]

section
variable (agrees : NodeAgrees info cores)
include agrees

theorem NodeAgrees.enter {si} (new : si.gate ∉ info.map StaticIpv4.gate)
    (enters : Enters si cores after) :
    NodeAgrees (Vrf.staticInsert si info) after := by
  have order := staticInsert_perm si info
  refine ⟨(order.map _).nodup_iff.mpr (nodup_cons.mpr ⟨new, agrees.distinct⟩), fun distance => ?_⟩
  apply Served.perm _ (gatesAt_perm order distance).symm
  rw [gatesAt_cons]
  have served := agrees.served distance
  cases enters with
  | joins serves first =>
    rename_i before core rest
    by_cases own : si.distance = distance
    · subst own
      obtain ⟨serving, alone⟩ := served.alone serves first
      rw [if_pos rfl, filter_append, filter_none first, filter_cons_of_pos (by exact serves), alone]
      exact serving.join si.gate
    · have other : core.serves distance = false := by simp [serves_iff serves, Ne.symm own]
      rw [if_neg own, filter_append, filter_cons_of_neg (by simp [serves_withGate, other])]
      rw [filter_append, filter_cons_of_neg (by simp [other])] at served
      exact served
  | starts none =>
    by_cases own : si.distance = distance
    · subst own
      rw [filter_none none] at served
      have empty : gatesAt info si.distance = [] := served
      rw [if_pos rfl, empty, filter_cons_of_pos (by simp [serves, withGate, bare, core]),
        filter_none none]
      exact .start si.distance si.gate
    · rw [if_neg own, filter_cons_of_neg
        (by simp [serves, withGate, bare, core, own])]
      exact served

theorem NodeAgrees.leave {rest si}
    (order : info.Perm (si :: rest)) (leavable : Leavable (gatesAt info si.distance) si.gate)
    (leaves : Leaves si cores after) : NodeAgrees rest after := by
  refine ⟨(nodup_cons.mp ((order.map StaticIpv4.gate).nodup_iff.mp agrees.distinct)).2,
    fun distance => ?_⟩
  have served := agrees.served distance
  have gates := gatesAt_perm order distance
  rw [gatesAt_cons] at gates
  cases leaves with
  | ends serves first last =>
    rename_i before core after
    by_cases own : si.distance = distance
    · subst own
      rw [if_pos rfl] at gates
      obtain ⟨serving, alone⟩ := served.alone serves first
      have wraps : (gatesAt info si.distance).length % 256 = 1 := by
        have count := congrArg BitVec.toNat (serving.count.symm.trans last)
        simpa using count
      have single := gates.length_eq.symm.trans (leavable.2 wraps)
      rw [filter_append, filter_none first, alone]
      exact length_eq_zero_iff.mp (Nat.succ.inj single)
    · have other : core.serves distance = false := by simp [serves_iff serves, Ne.symm own]
      rw [if_neg own] at gates
      rw [filter_append, filter_cons_of_neg (by simp [other]), ← filter_append] at served
      exact served.perm gates
  | parts serves first more keys gate =>
    rename_i before core after hops key hopsAfter
    by_cases own : si.distance = distance
    · subst own
      rw [if_pos rfl] at gates
      obtain ⟨serving, alone⟩ := served.alone serves first
      rw [filter_append, filter_none first, filter_cons_of_pos (by exact serves), alone]
      exact serving.leave gates leavable more keys gate
    · have other : core.serves distance = false := by simp [serves_iff serves, Ne.symm own]
      rw [if_neg own] at gates
      rw [filter_append, filter_cons_of_neg (by simp [other])] at served
      rw [filter_append, filter_cons_of_neg (by exact Bool.eq_false_iff.mp other)]
      exact served.perm gates

theorem NodeAgrees.serving {si} (member : si ∈ info) :
    (∃ core ∈ cores, core.serves si.distance = true) ∧
      ∀ core ∈ cores, core.serves si.distance = true → some si.gate ∈ core.keys.map keyGate := by
  have served := agrees.served si.distance
  have configured : si.gate ∈ gatesAt info si.distance :=
    mem_map_of_mem (mem_filter.mpr ⟨member, by simp⟩)
  match filtered : cores.filter (serves si.distance), served with
  | [], empty =>
    have none : gatesAt info si.distance = [] := empty
    exact absurd configured (by simp [none])
  | [core], serves =>
    have only {other} (inside : other ∈ cores) (serving : other.serves si.distance = true) :
        other = core := by
      have : other ∈ cores.filter (RibCore.serves si.distance) := mem_filter.mpr ⟨inside, serving⟩
      simpa [filtered] using this
    have there : core ∈ cores.filter (RibCore.serves si.distance) := by simp [filtered]
    refine ⟨⟨core, (mem_filter.mp there).1, (mem_filter.mp there).2⟩,
      fun other inside serving => ?_⟩
    rw [only inside serving]
    exact serves.keys.mem_iff.mpr (mem_map_of_mem configured)

end

namespace Vrf
variable {vrf : Vrf} {env : Surroundings} {p : PrefixIpv4} {gate : StaticGate}

def Agreeing (vrf : Vrf) : Prop :=
  ∀ p, NodeAgrees (vrf.stable p).info ((vrf.table p).map Rib.core)

/-- All static routes that `gate` names can go. -/
def Deletable (vrf : Vrf) (p : PrefixIpv4) (gate : StaticGate) : Prop :=
  ∀ si ∈ (vrf.stable p).info, si.gate = gate →
    Leavable (gatesAt (vrf.stable p).info si.distance) si.gate

theorem delete_stable (vrf : Vrf) (env : Surroundings) (p : PrefixIpv4) (gate : StaticGate) :
    (vrf.staticDeleteIpv4 env p gate 0).1.stable = vrf.stable ∧
        gate ∉ (vrf.stable (applyMaskIpv4 p)).info.map StaticIpv4.gate ∨
      ∃ si rest lock, si.gate = gate ∧ (vrf.stable (applyMaskIpv4 p)).info.Perm (si :: rest) ∧
        (vrf.staticDeleteIpv4 env p gate 0).1.stable = update vrf.stable (applyMaskIpv4 p)
        ⟨rest, lock⟩ := by
  rw [staticDeleteIpv4, if_neg (by simp)]
  dsimp only
  split
  · rename_i missing
    exact .inl ⟨rfl, by simpa using missing⟩
  · rename_i index found
    obtain ⟨spot⟩ := around found
    rw [spot.getElem?]
    exact .inr ⟨spot.value, _, _, by simpa using spot.holds, spot.perm, rfl⟩

theorem info_lockStatic (vrf : Vrf) (p q : PrefixIpv4) :
    ((vrf.lockStatic p).stable q).info = (vrf.stable q).info := by
  by_cases same : q = p
  · subst same
    simp [lockStatic]
  · simp [lockStatic, same]

/-- Nothing is left of a node of the static table without static routes. -/
def Released (vrf : Vrf) : Prop :=
  ∀ p, (vrf.stable p).info = [] → (vrf.stable p).lock = 0

/-- What the configuration asks for at a prefix and a distance. -/
structure StaticAgrees (vrf : Vrf) (p : PrefixIpv4) (distance : Octet) : Prop where
  absent : gatesAt (vrf.stable p).info distance = [] →
    ∀ rib ∈ vrf.table p, rib.servesStatic distance = false
  present : gatesAt (vrf.stable p).info distance ≠ [] → ∃ rib,
    (vrf.table p).filter (Rib.servesStatic distance) = [rib] ∧
      (rib.nexthop.map Nexthop.staticGate).Perm ((gatesAt (vrf.stable p).info distance).map some) ∧
      (rib.check .blackhole = true ↔ .blackhole ∈ gatesAt (vrf.stable p).info distance)
  released : (vrf.stable p).info = [] → (vrf.stable p).lock = 0

section
variable (agreeing : vrf.Agreeing)
include agreeing

theorem Agreeing.change (p : PrefixIpv4) {table node}
    (others : ∀ q, q ≠ p → table q = vrf.table q)
    (own : NodeAgrees node.info ((table p).map Rib.core)) :
    Agreeing ⟨table, update vrf.stable p node⟩ := by
  intro q
  dsimp only
  by_cases same : q = p
  · subst same
    rw [update_self]
    exact own
  · rw [update_of_ne same, others q same]
    exact agreeing q

theorem delete_agreeing (deletable : vrf.Deletable (applyMaskIpv4 p) gate) (vrfId : Nat) :
    (vrf.staticDeleteIpv4 env p gate vrfId).1.Agreeing := by
  rw [staticDeleteIpv4]
  split
  · exact agreeing
  · dsimp only
    split
    · exact agreeing
    · rename_i index found
      obtain ⟨spot⟩ := around found
      rw [spot.getElem?]
      have member := mem_of_getElem? spot.getElem?
      have node := agreeing (applyMaskIpv4 p)
      have named : spot.value.gate = gate := by simpa using spot.holds
      obtain ⟨served, present⟩ := node.serving member
      have leavable := deletable spot.value member named
      have left := node.leave spot.perm leavable
        (env.staticUninstallIpv4_leaves vrf.table _ spot.value served present)
      exact agreeing.change (applyMaskIpv4 p)
        (fun q apart => env.staticUninstallIpv4_other _ _ _ apart) left

theorem delete_absent (env : Surroundings) (p : PrefixIpv4) (gate : StaticGate) :
    gate ∉ ((vrf.staticDeleteIpv4 env p gate 0).1.stable
    (applyMaskIpv4 p)).info.map StaticIpv4.gate := by
  rcases delete_stable vrf env p gate with ⟨same, absent⟩ | ⟨si, rest, lock, named, order, changed⟩
  · rw [same]
    exact absent
  · rw [changed, update_self, ← named]
    exact (nodup_cons.mp
      ((order.map StaticIpv4.gate).nodup_iff.mp (agreeing (applyMaskIpv4 p)).distinct)).1

theorem lock_agreeing (p : PrefixIpv4) : (vrf.lockStatic p).Agreeing :=
  agreeing.change p (fun _ _ => rfl) (agreeing p)

theorem link_agreeing {si}
    (absent : si.gate ∉ (vrf.stable p).info.map StaticIpv4.gate) :
    (vrf.staticLink env p si).1.Agreeing := by
  have entered := (agreeing p).enter absent (env.staticInstallIpv4_enters vrf.table p si)
  exact agreeing.change p (fun q apart => env.staticInstallIpv4_other _ _ _ apart) entered

theorem outdate_agreeing (masked : applyMaskIpv4 p = p) (deletable : vrf.Deletable p gate) :
    (vrf.staticOutdate env p gate 0).1.Agreeing ∧
      gate ∉ ((vrf.staticOutdate env p gate 0).1.stable p).info.map StaticIpv4.gate := by
  rw [staticOutdate]
  split
  · have absent := delete_absent agreeing env p gate
    rw [masked] at absent
    exact ⟨delete_agreeing agreeing (by rwa [masked]) 0, absent⟩
  · rename_i unnamed
    exact ⟨agreeing, by simpa using unnamed⟩

theorem add_agreeing {distance} (vrfId : Nat)
    (deletable : (∀ si ∈ (vrf.stable (applyMaskIpv4 p)).info, si.gate = gate →
      si.distance ≠ distance) →
      vrf.Deletable (applyMaskIpv4 p) gate) :
      (vrf.staticAddIpv4 env p gate distance vrfId).1.Agreeing := by
  rw [staticAddIpv4]
  split
  · exact agreeing
  · rename_i default
    dsimp only
    split
    · exact agreeing
    · rename_i different
      obtain rfl : vrfId = 0 := by simpa using default
      have locked := lock_agreeing agreeing (applyMaskIpv4 p)
      have fine : (vrf.lockStatic (applyMaskIpv4 p)).Deletable (applyMaskIpv4 p) gate := by
        rw [Deletable, info_lockStatic]
        exact deletable (by simpa using different)
      obtain ⟨outdated, absent⟩ := outdate_agreeing locked (applyMaskIpv4_idem p) fine
      exact link_agreeing outdated absent

theorem Agreeing.staticAgrees (released : vrf.Released) (p : PrefixIpv4) (distance : Octet) :
    vrf.StaticAgrees p distance := by
  have served := (agreeing p).served distance
  have cores : ((vrf.table p).map core).filter (serves distance) =
      ((vrf.table p).filter (servesStatic distance)).map core := filter_map
  rw [cores] at served
  match ribs : (vrf.table p).filter (servesStatic distance), served with
  | [], empty =>
    refine ⟨fun _ rib member => ?_, fun configured => absurd empty configured, released p⟩
    exact Bool.eq_false_iff.mpr (filter_eq_nil_iff.mp ribs rib member)
  | [rib], serves =>
    refine ⟨fun none => absurd none serves.configured,
      fun _ => ⟨rib, ribs, ?_, serves.blackhole⟩, released p⟩
    have keys := serves.keys
    rw [core, map_map] at keys
    exact keys

end

theorem delete_other (vrf : Vrf) (env : Surroundings) (gate : StaticGate) {q}
    (apart : q ≠ applyMaskIpv4 p) :
    (vrf.staticDeleteIpv4 env p gate 0).1.stable q = vrf.stable q := by
  rcases delete_stable vrf env p gate with ⟨same, -⟩ | ⟨si, rest, lock, -, -, changed⟩
  · rw [same]
  · rw [changed, update_of_ne apart]

theorem outdate_other (vrf : Vrf) (env : Surroundings) (gate : StaticGate)
    (masked : applyMaskIpv4 p = p)
    {q} (apart : q ≠ p) : (vrf.staticOutdate env p gate 0).1.stable q = vrf.stable q := by
  rw [staticOutdate]
  split
  · exact delete_other vrf env gate (by rwa [masked])
  · rfl

theorem delete_released (released : vrf.Released)
    (several : ∀ si ∈ (vrf.stable (applyMaskIpv4 p)).info, si.gate = gate →
      (vrf.stable (applyMaskIpv4 p)).info.length ≠ 1) :
    (vrf.staticDeleteIpv4 env p gate 0).1.Released := by
  rcases delete_stable vrf env p gate with ⟨same, -⟩ | ⟨si, rest, lock, named, order, changed⟩
  · intro q
    rw [same]
    exact released q
  · intro q
    rw [changed]
    by_cases own : q = applyMaskIpv4 p
    · subst own
      rw [update_self]
      rintro rfl
      exact absurd order.length_eq (several si (order.mem_iff.mpr (by simp)) named)
    · rw [update_of_ne own]
      exact released q

theorem add_released (released : vrf.Released) {distance} (vrfId : Nat) :
    (vrf.staticAddIpv4 env p gate distance vrfId).1.Released := by
  rw [staticAddIpv4]
  split
  · exact released
  · rename_i default
    dsimp only
    split
    · exact released
    · obtain rfl : vrfId = 0 := by simpa using default
      intro q
      rw [staticLink]
      by_cases own : q = applyMaskIpv4 p
      · subst own
        exact fun empty => absurd empty (by simp [staticInsert])
      · dsimp only
        rw [update_of_ne own, outdate_other _ env gate (applyMaskIpv4_idem p) own, lockStatic]
        dsimp only
        rw [update_of_ne own]
        exact released q

end Vrf

namespace Vrf

def staticStep (vrf : Vrf) (op : StaticOp) : Vrf :=
  (vrf.configure op).1

/-- A static route that a call takes away, by a deletion or for another distance, can go,
and a deletion does not take the last one of its prefix. -/
def StaticFine (vrf : Vrf) : StaticOp → Prop
  | .add _ p gate distance vrfId => vrfId = 0 →
  ∀ si ∈ (vrf.stable (applyMaskIpv4 p)).info, si.gate = gate →
    si.distance ≠ distance →
      Leavable (gatesAt (vrf.stable (applyMaskIpv4 p)).info si.distance) si.gate
  | .delete _ p gate vrfId => vrfId = 0 → ∀ si ∈ (vrf.stable (applyMaskIpv4 p)).info,
    si.gate = gate →
    Leavable (gatesAt (vrf.stable (applyMaskIpv4 p)).info si.distance) si.gate ∧
      (vrf.stable (applyMaskIpv4 p)).info.length ≠ 1

theorem staticStep_agreeing (vrf : Vrf) (op : StaticOp) (fine : vrf.StaticFine op)
    (before : vrf.Agreeing ∧ vrf.Released) :
    (vrf.staticStep op).Agreeing ∧ (vrf.staticStep op).Released := by
  obtain ⟨agreeing, released⟩ := before
  cases op with
  | add env p gate distance vrfId =>
    by_cases default : vrfId = 0
    · refine ⟨add_agreeing agreeing vrfId fun different si member named => ?_,
        add_released released vrfId⟩
      exact fine default si member named (different si member named)
    · have same : (vrf.staticAddIpv4 env p gate distance vrfId).1 = vrf := by
        rw [staticAddIpv4, if_pos default]
      rw [staticStep, configure, same]
      exact ⟨agreeing, released⟩
  | delete env p gate vrfId =>
    by_cases default : vrfId = 0
    · subst default
      exact ⟨delete_agreeing agreeing (fun si member named => (fine rfl si member named).1) 0,
        delete_released released fun si member named => (fine rfl si member named).2⟩
    · have same : (vrf.staticDeleteIpv4 env p gate vrfId).1 = vrf := by
        rw [staticDeleteIpv4, if_pos default]
      rw [staticStep, configure, same]
      exact ⟨agreeing, released⟩

/-- A RIB without static routes, whatever else is in it. -/
def Unconfigured (vrf : Vrf) : Prop :=
  (∀ p, vrf.stable p = {}) ∧ ∀ p, ∀ rib ∈ vrf.table p, rib.type ≠ routeStatic

theorem Unconfigured.agreeing {vrf : Vrf} (start : vrf.Unconfigured) :
    vrf.Agreeing ∧ vrf.Released := by
  refine ⟨fun p => ?_, fun p _ => by rw [start.1]⟩
  rw [start.1]
  refine ⟨nodup_nil, fun distance => ?_⟩
  rw [filter_none]
  · rfl
  · intro core member
    obtain ⟨rib, there, rfl⟩ := mem_map.mp member
    simp [serves, core, start.2 p rib there]

/-- The RIB follows the static configuration in every run of configuration calls. -/
theorem staticAgrees_of_run {vrf : Vrf} {ops : List StaticOp} (start : vrf.Unconfigured)
    (run : Allowed staticStep StaticFine vrf ops) (p : PrefixIpv4) (distance : Octet) :
    (ops.foldl staticStep vrf).StaticAgrees p distance := by
  obtain ⟨agreeing, released⟩ :=
    run.invariant (fun vrf op => staticStep_agreeing vrf op) start.agreeing
  exact agreeing.staticAgrees released p distance

instance (gates : List StaticGate) (gate : StaticGate) : Decidable (Leavable gates gate) :=
  inferInstanceAs (Decidable (_ ∧ _))

instance (vrf : Vrf) : (op : StaticOp) → Decidable (vrf.StaticFine op)
  | .add _ p gate distance vrfId => inferInstanceAs (Decidable (vrfId = 0 →
      ∀ si ∈ (vrf.stable (applyMaskIpv4 p)).info, si.gate = gate → si.distance ≠ distance → _))
  | .delete _ p gate vrfId => inferInstanceAs (Decidable (vrfId = 0 →
      ∀ si ∈ (vrf.stable (applyMaskIpv4 p)).info, si.gate = gate → _ ∧ _))

/-- A host without interfaces. -/
def isolated : Surroundings where
  ifLookupByIndex := fun _ => none
  ifLookupByName := fun _ => none

def netTen : PrefixIpv4 := ⟨0x0a000000, 8⟩

def changedRun : List StaticOp :=
  [.add isolated netTen (.gateway 0x0b000001) 1 0, .add isolated netTen .blackhole 1 0,
    .add isolated netTen (.ifname "eth0") 2 0, .add isolated netTen (.gateway 0x0b000001) 2 0,
    .delete isolated netTen (.ifname "eth0") 0]

theorem staticAgrees_of_run_changed :
    Unconfigured {} ∧ Allowed staticStep StaticFine {} changedRun ∧
    (changedRun.foldl staticStep {}).StaticAgrees netTen 2 :=
  have start : Unconfigured {} := ⟨fun _ => rfl, nofun⟩
  have run : Allowed staticStep StaticFine {} changedRun := by decide +kernel
  ⟨start, run, staticAgrees_of_run start run netTen 2⟩

/-- `ip route 10.0.0.0/8 11.0.0.1`, `ip route 10.0.0.0/8 Null0`, and the latter taken back. -/
def blackholeRun : List StaticOp :=
  [.add isolated netTen (.gateway 0x0b000001) 1 0, .add isolated netTen .blackhole 1 0,
    .delete isolated netTen .blackhole 0]

theorem not_staticAgrees : ¬ ∀ (vrf : Vrf) (ops : List StaticOp), vrf.Unconfigured →
    ∀ p distance, (ops.foldl staticStep vrf).StaticAgrees p distance := by
  intro agrees
  have last := agrees {} blackholeRun ⟨fun _ => rfl, nofun⟩ netTen 1
  obtain ⟨rib, ribs, -, flagged⟩ := last.present (by decide +kernel)
  have carried : ∀ rib ∈ ((blackholeRun.foldl staticStep {}).table netTen).filter (servesStatic 1),
      rib.check .blackhole = true := by decide +kernel
  rw [ribs] at carried
  exact absurd (flagged.mp (carried rib (by simp))) (by decide +kernel)

end Vrf
end Zebra.Zebrad
