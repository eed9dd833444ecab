import Zebra.Zebrad.RibRuns

namespace Zebra.Zebrad
open Base Function RibCall

/-- The entries of the kernel after a call. -/
def RibCall.inKernel (kernel : PrefixIpv4 → Bool) : RibCall → PrefixIpv4 → Bool
  | .install p => update kernel p true
  | .uninstall p => update kernel p false
  | .redistributeAdd .. | .redistributeDelete .. => kernel

/-- Both tables, and the prefixes that `rib_install_kernel` has installed and
`rib_uninstall_kernel` has not removed. -/
structure Router extends Vrf where
  kernel : PrefixIpv4 → Bool := fun _ => false

def Router.step (router : Router) (op : RibOp) : Router :=
  let stepped := router.ribStep op
  ⟨stepped.1, stepped.2.foldl RibCall.inKernel router.kernel⟩

/-- The node of a prefix is in order, and the kernel has its route exactly when the
selected rib is not a system route. -/
structure Router.InOrder (router : Router) (p : PrefixIpv4) : Prop where
  settled : Scene.Settled (router.table p)
  kernel : router.kernel p = true ↔ ∃ rib ∈ router.table p, rib.check .selected = true ∧
    rib.system = false

/-- A deletion of a kernel route that is not there finds no selected route that zebra has
put into the kernel. -/
def OwnKernel (table : RibTable) (type : Octet) (p : PrefixIpv4) (ifindex : BitVec 32) : Prop :=
  type = routeKernel → (table p).findIdx? (Rib.meets type ifindex) = none →
    ∀ rib ∈ table p, rib.check .selected = true → rib.system = true

/-- The calls that leave the RIB in order. -/
def Router.Fine (router : Router) : RibOp → Prop
  | .add _ type flags _ _ _ _ distance => Plain type flags distance
  | .zread _ message => Plain message.type message.flags message.distance
  | .delete _ type p ifindex => OwnKernel router.table type (applyMaskIpv4 p) ifindex
  | .configure op => op.Roomy router.table
  | .update .. => True

/-- No system route is among the types. -/
def Foreign (keep : Octet → Bool) : Prop :=
  keep routeKernel = false ∧ keep routeConnect = false

def kernelMirror (p : PrefixIpv4) : Mirror p where
  keep type := !(type = routeKernel || type = routeConnect)
  apply held
    | .install q => if q = p then true else held
    | .uninstall q => if q = p then false else held
    | .redistributeAdd .. | .redistributeDelete .. => held
  elsewhere held call apart := by
    cases call <;> simp_all [RibCall.place]
  lost rib held _ := by
    rw [withdraw, Rib.system]
    cases rib.type = routeKernel || rib.type = routeConnect <;> simp
  gained rib shown held _ := by
    rw [announce, Rib.system]
    cases rib.type = routeKernel || rib.type = routeConnect <;> simp

theorem kernelMirror_foreign (p : PrefixIpv4) : Foreign (kernelMirror p).keep := by
  constructor <;> rfl

theorem foldl_inKernel (calls : List RibCall) (kernel : PrefixIpv4 → Bool) (p : PrefixIpv4) :
    calls.foldl inKernel kernel p = calls.foldl (kernelMirror p).apply (kernel p) := by
  induction calls generalizing kernel with
  | nil => rfl
  | cons call rest ih =>
    rw [List.foldl_cons, List.foldl_cons, ih]
    cases call with
    | install q => simp only [inKernel, kernelMirror, update_apply, eq_comm]
    | uninstall q => simp only [inKernel, kernelMirror, update_apply, eq_comm]
    | redistributeAdd q rib => rfl
    | redistributeDelete q rib => rfl

/-- The invariant of a run. -/
structure Router.Sound (router : Router) : Prop where
  good : Good router.table
  mirrored : ∀ p, router.kernel p = (kernelMirror p).shows (router.table p)

theorem Router.Sound.inOrder {router : Router} (sound : router.Sound) (p : PrefixIpv4) :
    router.InOrder p := by
  refine ⟨(sound.good p).settled, ?_⟩
  rw [sound.mirrored, Mirror.shows, List.any_eq_true]
  simp only [Bool.and_eq_true, kernelMirror, Rib.system, Bool.not_eq_true']

theorem Router.Fine.ribFine {router : Router} {op} (fine : router.Fine op) :
    router.RibFine Foreign op := by
  cases op with
  | delete env type p ifindex =>
    intro kernel missing rib member selected keep foreign
    have system := fine kernel missing rib member selected
    simp only [Rib.system, Bool.or_eq_true, decide_eq_true_eq] at system
    rcases system with own | own <;> rw [own]
    · exact foreign.1
    · exact foreign.2
  | _ => exact fine

theorem Router.step_sound (router : Router) (op : RibOp) (fine : router.Fine op)
    (sound : router.Sound) :
    (router.step op).Sound := by
  have change := Vrf.ribStep_change sound.good fine.ribFine
  refine ⟨change.good, fun p => ?_⟩
  have after := change.shows p (kernelMirror p) (kernelMirror_foreign p)
  rw [← sound.mirrored] at after
  exact (foldl_inKernel ..).trans after

theorem Router.initial_sound : ({} : Router).Sound := by
  refine ⟨fun p => ⟨nofun, ?_, nofun, nofun⟩, fun _ => rfl⟩
  exact Nat.zero_le 1

/-- The RIB is in order after every run of the calls that change it. -/
theorem Router.inOrder_of_run {ops : List RibOp} (run : Allowed Router.step Router.Fine {} ops)
    (p : PrefixIpv4) :
    (ops.foldl Router.step {}).InOrder p :=
  (run.invariant step_sound initial_sound).inOrder p

instance (table : RibTable) (type : Octet) (p : PrefixIpv4) (ifindex : BitVec 32) :
    Decidable (OwnKernel table type p ifindex) :=
  inferInstanceAs (Decidable (_ → _ → ∀ rib ∈ table p, _ → _))

instance (router : Router) : (op : RibOp) → Decidable (router.Fine op)
  | .add _ type flags _ _ _ _ distance => inferInstanceAs (Decidable (Plain type flags distance))
  | .zread _ message =>
    inferInstanceAs (Decidable (Plain message.type message.flags message.distance))
  | .delete _ type p ifindex =>
    inferInstanceAs (Decidable (OwnKernel router.table type (applyMaskIpv4 p) ifindex))
  | .configure op => inferInstanceAs (Decidable (op.Roomy router.table))
  | .update .. => .isTrue trivial

def orderlyRun : List RibOp :=
  [.add oneUp routeConnect 0 ⟨0x0a000000, 8⟩ none 1 0 0,
    .zread oneUp (clientRoute 4 0 0 0x14000000 0x0a000002),
    .configure (.add oneUp ⟨0x14000000, 8⟩ (.ifname "eth0") 1 0), .delete oneUp 4 ⟨0x14000000, 8⟩ 0,
    .update oneUp [⟨0x0a000000, 8⟩, ⟨0x14000000, 8⟩]]

theorem Router.inOrder_of_run_orderly : Allowed Router.step Router.Fine {} orderlyRun ∧
    (orderlyRun.foldl Router.step {}).InOrder ⟨0x14000000, 8⟩ :=
  have run : Allowed Router.step Router.Fine {} orderlyRun := by decide +kernel
  ⟨run, Router.inOrder_of_run run _⟩

/-- A RIP route that is selected, and an OSPF route of a greater distance that a client
sends with `ZEBRA_FLAG_SELECTED`. -/
def markedRun : List RibOp :=
  [.add oneUp routeConnect 0 ⟨0x0a000000, 8⟩ none 1 0 0,
    .zread oneUp (clientRoute 4 0 5 0x14000000 0x0a000002),
    .zread oneUp (clientRoute 6 0x10 9 0x14000000 0x0a000003)]

theorem Router.not_inOrder : ¬ ∀ (ops : List RibOp)
    (p : PrefixIpv4), (ops.foldl Router.step {}).InOrder p := by
  intro inOrder
  have lone := (inOrder markedRun ⟨0x14000000, 8⟩).settled.lone
  exact absurd lone (by decide +kernel)

end Zebra.Zebrad
