/-! Runs of a state machine whose steps are allowed in some states only. -/
namespace Zebra.Base
variable {State Op : Type}

/-- Every operation of the run finds a state that allows it. -/
def Allowed (step : State → Op → State) (allowed : State → Op → Prop) : State → List Op → Prop
  | _, [] => True
  | state, op :: rest => allowed state op ∧ Allowed step allowed (step state op) rest

instance Allowed.decidable (step : State → Op → State) (allowed : State → Op → Prop)
    [∀ state op, Decidable (allowed state op)] :
    (state : State) → (ops : List Op) → Decidable (Allowed step allowed state ops)
  | _, [] => .isTrue trivial
  | state, op :: rest =>
    haveI := Allowed.decidable step allowed (step state op) rest
    inferInstanceAs (Decidable (allowed state op ∧ Allowed step allowed (step state op) rest))

variable {step : State → Op → State} {allowed : State → Op → Prop}

/-- Every step of the run is related to the state before it. -/
def Along (step : State → Op → State) (related : State → State → Prop) : State → List Op → Prop
  | _, [] => True
  | state, op :: rest => related state (step state op) ∧ Along step related (step state op) rest

section
variable {Invariant : State → Prop}
  (kept : ∀ state op, allowed state op → Invariant state → Invariant (step state op))
include kept

theorem Allowed.invariant
    {state} {ops : List Op} (run : Allowed step allowed state ops) (initial : Invariant state) :
    Invariant (ops.foldl step state) := by
  induction ops generalizing state with
  | nil => exact initial
  | cons op rest ih => exact ih run.2 (kept state op run.1 initial)

/-- What every allowed step shows in a state with the invariant is shown along the run. -/
theorem Allowed.along {related}
    (shown : ∀ state op, allowed state op → Invariant state → related state (step state op))
    {state} {ops : List Op} (run : Allowed step allowed state ops) (initial : Invariant state) :
    Along step related state ops := by
  induction ops generalizing state with
  | nil => trivial
  | cons op rest ih => exact ⟨shown state op run.1 initial, ih run.2 (kept state op run.1 initial)⟩

end

section
variable (allowed : State → Op → Prop) [∀ state op, Decidable (allowed state op)]
  (call : State → Op → Option State)

/-- Calls one after the other, each in a state that allows it. -/
def attempt : State → List Op → Option State
  | state, [] => some state
  | state, op :: rest => if allowed state op then (call state op).bind fun next => attempt next rest
    else none

end

section
variable {allowed : State → Op → Prop} [∀ state op, Decidable (allowed state op)]
  {call : State → Op → Option State}

theorem attempt_invariant {Invariant : State → Prop}
    (kept : ∀ {state op next}, Invariant state → allowed state op → call state op = some next →
      Invariant next)
    {state after} {ops : List Op} (initial : Invariant state)
    (ran : attempt allowed call state ops = some after) :
    Invariant after := by
  induction ops generalizing state with
  | nil => exact Option.some.inj ran ▸ initial
  | cons op rest ih =>
    rw [attempt] at ran
    split at ran
    · next permitted =>
      obtain ⟨next, step, rest⟩ := Option.bind_eq_some_iff.mp ran
      exact ih (kept initial permitted step) rest
    · cases ran

end

end Zebra.Base
