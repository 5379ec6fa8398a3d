/-
Runs of a partial step function. A system is a function from a state and an
action to an optional next state; an action that is not enabled yields `none`.
Interleavings are action lists, so "for every run" is a quantifier over lists.
-/

import Mathlib.Data.Option.Basic
import Mathlib.Data.List.Basic

namespace Cab403.ActionRuns

variable {State Action : Type*}

/-- The state after a list of actions, or `none` if one of them was not enabled. -/
def run (step : State → Action → Option State) : State → List Action → Option State
  | state, [] => some state
  | state, action :: rest => (step state action).bind fun next => run step next rest

/-- Every action of the run is taken in a state that allows it. -/
def Along (step : State → Action → Option State) (allowed : State → Action → Prop) :
    State → List Action → Prop
  | _, [] => True
  | state, action :: rest =>
      allowed state action ∧
        match step state action with
        | some next => Along step allowed next rest
        | none => True

instance Along.decidable (step : State → Action → Option State)
    (allowed : State → Action → Prop) [∀ state action, Decidable (allowed state action)] :
    ∀ state actions, Decidable (Along step allowed state actions)
  | _, [] => isTrue trivial
  | state, action :: rest =>
      match taken : step state action with
      | none => decidable_of_iff (allowed state action) (by simp only [Along, taken, and_true])
      | some next =>
          have := Along.decidable step allowed next rest
          decidable_of_iff (allowed state action ∧ Along step allowed next rest)
            (by simp only [Along, taken])

variable {step : State → Action → Option State} {allowed : State → Action → Prop}

theorem run_cons_eq_some {state final : State} {action : Action} {rest : List Action} :
    run step state (action :: rest) = some final ↔
      ∃ next, step state action = some next ∧ run step next rest = some final :=
  Option.bind_eq_some_iff

theorem run_append_eq_some {state final : State} {front back : List Action} :
    run step state (front ++ back) = some final ↔
      ∃ midway, run step state front = some midway ∧ run step midway back = some final := by
  induction front generalizing state with
  | nil => simp only [List.nil_append, run, Option.some.injEq, exists_eq_left']
  | cons action front ih =>
      simp only [List.cons_append, run_cons_eq_some, ih]
      constructor
      · rintro ⟨next, taken, midway, before, after⟩
        exact ⟨midway, ⟨next, taken, before⟩, after⟩
      · rintro ⟨midway, ⟨next, taken, before⟩, after⟩
        exact ⟨next, taken, midway, before, after⟩

theorem Along.head {state : State} {action : Action} {rest : List Action}
    (along : Along step allowed state (action :: rest)) : allowed state action :=
  along.1

theorem Along.tail {state next : State} {action : Action} {rest : List Action}
    (along : Along step allowed state (action :: rest)) (taken : step state action = some next) :
    Along step allowed next rest := by
  have later := along.2
  rw [taken] at later
  exact later

theorem Along.and {other : State → Action → Prop} {state : State} {actions : List Action}
    (left : Along step allowed state actions) (right : Along step other state actions) :
    Along step (fun state action => allowed state action ∧ other state action) state actions := by
  induction actions generalizing state with
  | nil => trivial
  | cons action rest ih =>
      refine ⟨⟨left.head, right.head⟩, ?_⟩
      cases taken : step state action with
      | none => trivial
      | some next => exact ih (left.tail taken) (right.tail taken)

theorem Along.of_append {state : State} {front back : List Action}
    (along : Along step allowed state (front ++ back)) :
    Along step allowed state front ∧
      ∀ midway, run step state front = some midway → Along step allowed midway back := by
  induction front generalizing state with
  | nil =>
      refine ⟨trivial, fun midway ran => ?_⟩
      cases ran
      exact along
  | cons action front ih =>
      refine ⟨⟨along.head, ?_⟩, fun midway ran => ?_⟩
      · cases taken : step state action with
        | none => trivial
        | some next => exact (ih (along.tail taken)).1
      · obtain ⟨next, taken, later⟩ := run_cons_eq_some.mp ran
        exact (ih (along.tail taken)).2 midway later

theorem Along.append {state midway : State} {front back : List Action}
    (before : Along step allowed state front) (ran : run step state front = some midway)
    (after : Along step allowed midway back) : Along step allowed state (front ++ back) := by
  induction front generalizing state with
  | nil =>
      cases ran
      exact after
  | cons action front ih =>
      obtain ⟨next, taken, later⟩ := run_cons_eq_some.mp ran
      refine ⟨before.head, ?_⟩
      rw [taken]
      exact ih (before.tail taken) later

theorem along_of_forall {scope : Action → Prop} {actions : List Action} {state : State}
    (held : ∀ action ∈ actions, scope action) :
    Along step (fun _ action => scope action) state actions := by
  induction actions generalizing state with
  | nil => trivial
  | cons action rest ih =>
      refine ⟨held action List.mem_cons_self, ?_⟩
      have later := fun other member => held other (List.mem_cons_of_mem action member)
      cases step state action with
      | none => trivial
      | some next => exact ih later

theorem along_congr {other : State → Action → Prop}
    (same : ∀ state action, allowed state action ↔ other state action) {state : State}
    {actions : List Action} :
    Along step allowed state actions ↔ Along step other state actions := by
  induction actions generalizing state with
  | nil => rfl
  | cons action rest ih =>
      refine and_congr (same state action) ?_
      cases step state action with
      | none => rfl
      | some next => exact ih

/-- A step that is guarded by a condition was taken under it. -/
theorem of_guarded {condition : Prop} [Decidable condition] {next final : State}
    (taken : (if condition then some next else none) = some final) : condition ∧ next = final := by
  obtain ⟨held, same⟩ := Option.ite_none_right_eq_some.mp taken
  exact ⟨held, Option.some.inj same⟩

/-- A predicate that every allowed step preserves holds after every allowed run. -/
theorem invariant_run {invariant : State → Prop}
    (preserved : ∀ state action next, invariant state → allowed state action →
      step state action = some next → invariant next)
    {start final : State} {actions : List Action} (initial : invariant start)
    (along : Along step allowed start actions) (ran : run step start actions = some final) :
    invariant final := by
  induction actions generalizing start with
  | nil =>
      cases ran
      exact initial
  | cons action rest ih =>
      obtain ⟨next, taken, later⟩ := run_cons_eq_some.mp ran
      exact ih (preserved start action next initial along.head taken) (along.tail taken) later

/-- The rule without a side condition on the steps. -/
theorem invariant_run_always {invariant : State → Prop}
    (preserved : ∀ state action next, invariant state →
      step state action = some next → invariant next)
    {start final : State} {actions : List Action} (initial : invariant start)
    (ran : run step start actions = some final) : invariant final := by
  induction actions generalizing start with
  | nil =>
      cases ran
      exact initial
  | cons action rest ih =>
      obtain ⟨next, taken, later⟩ := run_cons_eq_some.mp ran
      exact ih (preserved start action next initial taken) later

/-- Allowed steps that never fail and keep a relation to an abstract state: so do runs. -/
theorem refines_run {Abstract : Type*} {next : Abstract → Action → Abstract}
    {related : State → Abstract → Prop}
    (simulates : ∀ state abstract action, related state abstract → allowed state action →
      ∃ after, step state action = some after ∧ related after (next abstract action))
    {start : State} {abstract : Abstract} {actions : List Action}
    (initial : related start abstract) (along : Along step allowed start actions) :
    ∃ final, run step start actions = some final ∧
      related final (actions.foldl next abstract) := by
  induction actions generalizing start abstract with
  | nil => exact ⟨start, rfl, initial⟩
  | cons action rest ih =>
      obtain ⟨after, taken, later⟩ := simulates start abstract action initial along.head
      obtain ⟨final, ran, related⟩ := ih later (along.tail taken)
      exact ⟨final, run_cons_eq_some.mpr ⟨after, taken, ran⟩, related⟩

/-- A rank that every step lowers bounds the length of a run. -/
theorem run_length_le {invariant : State → Prop} {rank : State → Nat}
    (preserved : ∀ state action next, invariant state →
      step state action = some next → invariant next)
    (lowers : ∀ state action next, invariant state →
      step state action = some next → rank next < rank state)
    {start final : State} {actions : List Action} (initial : invariant start)
    (ran : run step start actions = some final) :
    actions.length + rank final ≤ rank start := by
  induction actions generalizing start with
  | nil =>
      cases ran
      exact Nat.le_of_eq (Nat.zero_add _)
  | cons action rest ih =>
      obtain ⟨next, taken, later⟩ := run_cons_eq_some.mp ran
      have shorter := ih (preserved start action next initial taken) later
      have lower := lowers start action next initial taken
      rw [List.length_cons]
      omega

/-! ### What can be reached -/

/-- Some run of allowed steps leads from one state to the other. -/
def Leads (step : State → Action → Option State) (allowed : State → Action → Prop)
    (start final : State) : Prop :=
  ∃ actions, Along step allowed start actions ∧ run step start actions = some final

theorem Leads.refl (state : State) : Leads step allowed state state := ⟨[], trivial, rfl⟩

theorem Leads.of_step {state next : State} (action : Action) (permitted : allowed state action)
    (taken : step state action = some next) : Leads step allowed state next := by
  refine ⟨[action], ⟨permitted, ?_⟩, run_cons_eq_some.mpr ⟨next, taken, rfl⟩⟩
  rw [taken]
  trivial

theorem Leads.trans {start midway final : State} (first : Leads step allowed start midway)
    (second : Leads step allowed midway final) : Leads step allowed start final := by
  obtain ⟨front, before, ranFront⟩ := first
  obtain ⟨back, after, ranBack⟩ := second
  exact ⟨front ++ back, before.append ranFront after,
    run_append_eq_some.mpr ⟨midway, ranFront, ranBack⟩⟩

theorem Leads.preserves {invariant : State → Prop} {start final : State}
    (leads : Leads step allowed start final)
    (preserved : ∀ state action next, invariant state → allowed state action →
      step state action = some next → invariant next)
    (initial : invariant start) : invariant final := by
  obtain ⟨actions, along, ran⟩ := leads
  exact invariant_run preserved initial along ran

end Cab403.ActionRuns
