import Zebra.Base.Chain
import Zebra.Bgpd.Node

/-! The lists of route flap dampening (`bgp_damp.c`). -/
namespace Zebra.Bgpd.Damp
open Base.Chain Function

/-- A `struct bgp_info`, by its address. -/
abbrev Binfo := Nat

/-- A `struct bgp_damp_info`, by its address. -/
abbrev Bdi := Nat

inductive Head where
  | noReuse
  | reuse (index : Int)
deriving DecidableEq

/-- `struct bgp_damp_info`, without its links. -/
structure Info where
  binfo : Binfo
  afi : Afi
  safi : Safi
  penalty : Nat
  flap : Nat := 1
  startTime : Int
  tUpdated : Int
  suppressTime : Int := 0
  index : Int := -1
  lastrecord : DampRecord := .withdraw

/-- What dampening reads and writes in a path. -/
structure Path where
  damped : Bool := false
  history : Bool := false
  dampInfo : Option Bdi := none

/-- The path of an entry that the reuse timer reuses; it is no history after an update. -/
def Path.reused (path : Path) (lastrecord : DampRecord) : Path :=
  { path with damped := false, history := path.history && lastrecord ≠ .update }

/-- The configured values, in seconds and penalty points. -/
structure Params where
  halfLife : Nat := 0
  reuseLimit : Nat := 0
  suppressValue : Nat := 0
  maxSuppressTime : Nat := 0
deriving DecidableEq

/-- What is computed in floating point: the ceiling of the penalty, its decay over a time
difference, the place of a penalty in the table of reuse indices, which is negative for a
penalty below the reuse limit, and what is read at a place of the table. -/
structure Arithmetic where
  ceiling : Params → Nat
  decay : Params → Int → Nat → Nat
  scaled : Params → Nat → Int
  reuseIndex : Params → Int → Int

/-- `REUSE_ARRAY_SIZE`. -/
def reuseArraySize : Nat := 1024

namespace Arithmetic
variable (arith : Arithmetic) (params : Params) (penalty : Nat)

/-- Where `bgp_reuse_index` looks a penalty up. -/
def place : Int :=
  min (arith.scaled params penalty) (reuseArraySize - 1)

/-- How far a penalty is from the list in front. -/
def distance : Int :=
  arith.reuseIndex params (arith.place params penalty) - arith.reuseIndex params 0

/-- The penalty is looked up within the table, and does not lie before the first. -/
def Slotted : Prop :=
  0 ≤ arith.scaled params penalty ∧ 0 ≤ arith.distance params penalty

instance : Decidable (arith.Slotted params penalty) :=
  inferInstanceAs (Decidable (_ ∧ _))

end Arithmetic

def deltaReuse : Nat := 10

def maxReuseListSize : Nat := 256

/-- `struct bgp_damp_config`, the dampening information that is allocated, the paths, and
the address families with `BGP_CONFIG_DAMPENING`. The memory of the wheel is not
`allocated` before it is configured and after it is freed. -/
structure State where
  params : Params := {}
  reuseListSize : Nat := 0
  reuseOffset : Nat := 0
  allocated : Bool := false
  tReuse : Bool := false
  links : Links Head Bdi := {}
  info : Bdi → Option Info := fun _ => none
  fresh : Bdi := 0
  path : Binfo → Path := fun _ => {}
  /-- The paths that were freed with their entry. -/
  freed : List Binfo := []
  enabled : Afi → Safi → Bool := fun _ _ => false

namespace State

def setInfo (state : State) (bdi : Bdi) (info : Info) : State :=
  { state with info := update state.info bdi (some info) }

def setPath (state : State) (binfo : Binfo) (path : Path) : State :=
  { state with path := update state.path binfo path }

def push (state : State) (head : Head) (bdi : Bdi) : State :=
  { state with links := state.links.push head bdi }

def unlink (state : State) (head : Head) (bdi : Bdi) : State :=
  { state with links := state.links.unlink head bdi }

/-- The list an entry belongs on. -/
def home (state : State) (info : Info) : Head :=
  if (state.path info.binfo).damped then .reuse info.index else .noReuse

section Operations
variable (arith : Arithmetic)

section
variable (state : State)

/-- A distance that is negative can take the remainder before the wheel. -/
def bgpReuseIndex (penalty : Nat) : Int :=
  (state.reuseOffset + arith.distance state.params penalty).tmod state.reuseListSize

def bgpReuseListAdd (bdi : Bdi) (info : Info) : State :=
  let index := state.bgpReuseIndex arith info.penalty
  (state.setInfo bdi { info with index }).push (.reuse index) bdi

def bgpReuseListDelete (bdi : Bdi) (info : Info) : State :=
  state.unlink (.reuse info.index) bdi

/-- `BGP_DAMP_LIST_ADD`. -/
def bgpDampListAdd (bdi : Bdi) : State :=
  state.push .noReuse bdi

/-- `BGP_DAMP_LIST_DEL`. -/
def bgpDampListDel (bdi : Bdi) : State :=
  state.unlink .noReuse bdi

/-- The fields of an entry and of its path are cleared. With `withdraw` a path whose last
message was a withdraw is freed as well. -/
def release (bdi : Bdi) (info : Info) (withdraw : Bool) : State :=
  { state.setPath info.binfo {} with
    info := update state.info bdi none
    freed := state.freed ++ if info.lastrecord = .withdraw && withdraw then [info.binfo] else [] }

/-- `bgp_damp_info_free`: the flag of the path says which list the entry is taken from. -/
def bgpDampInfoFree (bdi : Bdi) (withdraw : Bool) : State :=
  match state.info bdi with
  | none => state
  | some info =>
    let unlinked := if (state.path info.binfo).damped then state.bgpReuseListDelete bdi info
      else state.bgpDampListDel bdi
    unlinked.release bdi info withdraw

/-- The penalty of a reused entry is at most half the reuse limit: it is forgotten. -/
def forgets (penalty : Nat) : Bool :=
  2 * penalty ≤ state.params.reuseLimit

/-- The entry of a path. -/
def entry (binfo : Binfo) : Option (Bdi × Info) :=
  (state.path binfo).dampInfo.bind fun bdi => (state.info bdi).map (bdi, ·)

/-- A new entry for a path; it is on no list yet. -/
def allocate (info : Info) : State :=
  { (state.setInfo state.fresh info).setPath info.binfo
      { state.path info.binfo with dampInfo := some state.fresh } with fresh := state.fresh + 1 }

section
variable (binfo : Binfo) (afi : Afi) (safi : Safi) (attrChange : Bool) (now : Int)

/-- The penalty of a path with the charge of a withdraw. -/
def charged : Nat :=
  let added := if attrChange then defaultPenalty / 2 else defaultPenalty
  match state.entry binfo with
  | some (_, info) =>
    min (arith.decay state.params (now - info.tUpdated) info.penalty + added)
      (arith.ceiling state.params)
  | none => added

/-- The first part of `bgp_damp_withdraw`: the entry, a new one if there is none. -/
def bgpDampCharge : State × Bdi × Info :=
  let penalty := state.charged arith binfo attrChange now
  match state.entry binfo with
  | some (bdi, info) =>
    (state, bdi, { info with
      penalty, flap := info.flap + 1, lastrecord := .withdraw, tUpdated := now })
  | none =>
    let info := { binfo, afi, safi, penalty, startTime := now, tUpdated := now }
    ((state.allocate info).bgpDampListAdd state.fresh, state.fresh, info)

/-- The second part of `bgp_damp_withdraw`: the entry moves within the wheel, or onto it. -/
def bgpDampSuppress (bdi : Bdi) (info : Info) (lastPenalty : Option Nat) (now : Int) :
    State × DampStatus :=
  let path := state.path info.binfo
  if path.damped then
    (if lastPenalty ≠ some info.penalty then
      (state.bgpReuseListDelete bdi info).bgpReuseListAdd arith bdi info
      else state, .suppressed)
  else if state.params.suppressValue ≤ info.penalty then
    let suppressed := { info with suppressTime := now }
    (((state.setPath info.binfo { path with damped := true }).bgpDampListDel bdi).bgpReuseListAdd
      arith bdi suppressed, .used)
  else (state, .used)

def bgpDampWithdraw : State × DampStatus :=
  let lastPenalty := (state.entry binfo).map fun entry => entry.2.penalty
  let charged := state.bgpDampCharge arith binfo afi safi attrChange now
  let recorded := charged.1.setInfo charged.2.1 charged.2.2
  (recorded.setPath binfo { recorded.path binfo with history := true }).bgpDampSuppress arith
    charged.2.1 charged.2.2
    lastPenalty now

end

/-- A suppressed path is used again: its entry leaves the wheel. -/
def bgpDampUnsuppress (bdi : Bdi) (info reused : Info) : State :=
  (((state.setPath info.binfo { state.path info.binfo with damped := false }).bgpReuseListDelete bdi
    info).bgpDampListAdd bdi).setInfo bdi reused

/-- An entry is kept, with the time of its update, while its penalty is high enough. -/
def bgpDampRemember (bdi : Bdi) (info : Info) (withdraw : Bool) (now : Int) : State :=
  if state.forgets info.penalty then state.bgpDampInfoFree bdi withdraw
  else state.setInfo bdi { info with tUpdated := now }

/-- The second part of `bgp_damp_update`: whether the path is used again. -/
def bgpDampReuse (bdi : Bdi) (info : Info) (now : Int) : State × DampStatus :=
  let damped := (state.path info.binfo).damped
  if !damped && decide (info.penalty < state.params.suppressValue) then
    (state.bgpDampRemember bdi info false now, .used)
  else if damped && decide (info.penalty < state.params.reuseLimit) then
    let reused := { info with suppressTime := 0 }
    ((state.bgpDampUnsuppress bdi info reused).bgpDampRemember bdi reused false now, .used)
  else (state.bgpDampRemember bdi info false now, .suppressed)

def bgpDampUpdate (binfo : Binfo) (now : Int) : State × DampStatus :=
  match state.entry binfo with
  | none => (state, .used)
  | some (bdi, info) =>
    let updated := { info with
      lastrecord := .update
      penalty := arith.decay state.params (now - info.tUpdated) info.penalty }
    ((state.setPath binfo { state.path binfo with
      history := false }).setInfo bdi updated).bgpDampReuse bdi updated now

/-- `bgp_damp_scan` of a path with dampening information. -/
def bgpDampScan (binfo : Binfo) (now : Int) : State :=
  match state.entry binfo with
  | none => state
  | some (bdi, info) =>
    if (state.path binfo).damped then
      if state.params.maxSuppressTime ≤ now - info.suppressTime then
        state.bgpDampUnsuppress bdi info
          { info with penalty := state.params.reuseLimit, suppressTime := 0, tUpdated := now }
      else state
    else
      let penalty := arith.decay state.params (now - info.tUpdated) info.penalty
      (state.setInfo bdi { info with penalty }).bgpDampRemember bdi { info with penalty } true now

/-- A round of `bgp_reuse_timer`, once the penalty has decayed. -/
def reuseDecayed (bdi : Bdi) (info : Info) : State :=
  if info.penalty < state.params.reuseLimit then
    let used :=
      (state.setPath info.binfo ((state.path info.binfo).reused info.lastrecord)).setInfo bdi
      { info with suppressTime := 0 }
    if state.forgets info.penalty then used.bgpDampInfoFree bdi true else used.bgpDampListAdd bdi
  else state.bgpReuseListAdd arith bdi info

/-- One round of `bgp_reuse_timer`. -/
def reuseEntry (bdi : Bdi) (info : Info) (now : Int) : State :=
  let decayed := { info with
    penalty := arith.decay state.params (now - info.tUpdated) info.penalty
    tUpdated := now }
  (state.setInfo bdi decayed).reuseDecayed arith bdi decayed

end

/-- The loop of `bgp_reuse_timer` over the list it has taken from the wheel. -/
def reuseLoop (now : Int) : Nat → Option Bdi → State → State
  | 0, _, state | _, none, state => state
  | fuel + 1, some bdi, state =>
    match state.info bdi with
    | none => state
    | some info => reuseLoop now fuel (state.links.next bdi) (state.reuseEntry arith bdi info now)

def bgpReuseTimer (state : State) (now : Int) : State :=
  let first := state.links.head (.reuse state.reuseOffset)
  let state := { state with
    tReuse := true
    links := state.links.detach (.reuse state.reuseOffset)
    reuseOffset := (state.reuseOffset + 1) % state.reuseListSize }
  state.reuseLoop arith now state.fresh first

/-- The entries of one list are freed. -/
def cleanLoop : Nat → Option Bdi → State → State
  | 0, _, state | _, none, state => state
  | fuel + 1, some bdi, state => cleanLoop fuel (state.links.next bdi)
    (state.bgpDampInfoFree bdi true)

variable (state : State)

def cleanList (head : Head) : State :=
  let state := cleanLoop state.fresh (state.links.head head) state
  { state with links := state.links.detach head }

def cleanWheel (size : Nat) : State :=
  (List.range size).foldl (fun state (index : Nat) => state.cleanList (.reuse index)) state

def bgpDampInfoClean : State :=
  ({ state with reuseOffset := 0 }.cleanWheel state.reuseListSize).cleanList .noReuse

/-- `bgp_damp_parameter_set`: the wheel is new memory; the entries of the one before are
not looked at. -/
def bgpDampParameterSet (params : Params) : State :=
  let size := (params.maxSuppressTime + deltaReuse - 1) / deltaReuse + 1
  { state with
    params
    reuseListSize := if maxReuseListSize < size then maxReuseListSize else size
    allocated := true
    links := { state.links with head := fun
      | .noReuse => state.links.head .noReuse
      | .reuse _ => none } }

variable (afi : Afi) (safi : Safi)

def setEnabled (flag : Bool) : State :=
  { state with enabled := fun afi' safi' => if afi' = afi ∧ safi' = safi then flag
                 else state.enabled afi' safi' }

def bgpDampDisable : State :=
  { { state with tReuse := false }.bgpDampInfoClean with
    allocated := false }.setEnabled afi safi false

def bgpDampEnable (params : Params) : State :=
  if state.enabled afi safi && state.params = params then state
  else
    let state := if state.enabled afi safi then state.bgpDampDisable afi safi else state
    { (state.setEnabled afi safi true).bgpDampParameterSet params with tReuse := true }

end Operations
end State

/-- The calls; the family is the one whose flag the caller has looked at. -/
inductive Op where
  | withdraw (binfo : Binfo) (afi : Afi) (safi : Safi) (attrChange : Bool) (now : Int)
  | update (binfo : Binfo) (afi : Afi) (safi : Safi) (now : Int)
  | scan (binfo : Binfo) (afi : Afi) (safi : Safi) (now : Int)
  | reuseTimer (now : Int)
  | infoFree (bdi : Bdi) (withdraw : Bool)
  | enable (afi : Afi) (safi : Safi) (params : Params)
  | disable (afi : Afi) (safi : Safi)

namespace State

def step (arith : Arithmetic) (state : State) : Op → State
  | .withdraw binfo afi safi attrChange now =>
    if state.enabled afi safi then (state.bgpDampWithdraw arith binfo afi safi attrChange now).1
      else state
  | .update binfo afi safi now => if state.enabled afi safi then
    (state.bgpDampUpdate arith binfo now).1 else state
  | .scan binfo afi safi now => if state.enabled afi safi then state.bgpDampScan arith binfo now
    else state
  | .reuseTimer now => if state.tReuse then state.bgpReuseTimer arith now else state
  | .infoFree bdi withdraw => state.bgpDampInfoFree bdi withdraw
  | .enable afi safi params => state.bgpDampEnable afi safi params
  | .disable afi safi => state.bgpDampDisable afi safi

/-- Every entry is on one list once, the reuse list of its index if its path is
suppressed, the other list if not, and nothing else is on a list. -/
structure Linked (state : State) : Prop where
  lists : ∃ lists : Head → List Bdi, state.links.Filed lists ∧
    ∀ head bdi, bdi ∈ lists head ↔ ∃ info, state.info bdi = some info ∧ state.home info = head
  inWheel : ∀ bdi info, state.info bdi = some info → (state.path info.binfo).damped →
    state.allocated ∧ 0 ≤ info.index ∧ info.index < state.reuseListSize

end State
end Zebra.Bgpd.Damp
