/-
Why the doors of a standing car open. In normal mode the loop takes a broadcast that
finds nothing else to do as news of a destination; a ghost flag records whether the
connection thread has in fact written one since the loop last woke.
-/

import Cab403.Elevator.CarProcess

namespace Cab403.Elevator

open CText ActionRuns

/-- A car, and whether its destination was written since the previous wake-up. -/
structure WatchedCar where
  system : CarSystem
  written : Bool
  deriving DecidableEq

def WatchedCar.start (lowestFloor : CharArray 4) : WatchedCar :=
  { system := CarSystem.start lowestFloor
    written := false }

def writtenAfter (state : WatchedCar) : CarAction → Bool
  | .loop _ => false
  | .connectionTop => state.written || state.system.car.Applies
  | _ => state.written

def watchedStep (state : WatchedCar) (action : CarAction) : Option WatchedCar :=
  (carStep state.system action).map fun next =>
    { system := next
      written := writtenAfter state action }

def AtRest (shm : CarSharedMem) : Prop :=
  shm.status = Status.closed.chars ∧ shm.currentFloor = shm.destinationFloor

instance (shm : CarSharedMem) : Decidable (AtRest shm) := inferInstanceAs (Decidable (_ ∧ _))

/-- A car at rest starts to open only for the open button or a written destination. -/
def OpensForReason (state : WatchedCar) : CarAction → Prop
  | .loop ret =>
      AtRest state.system.car.shm →
        Effect.status .opening ∈ (elevatorLoop ret state.system.car.shm).effects →
        state.system.car.shm.openButton = 1 ∨ state.written = true
  | _ => True

/-- No broadcast finds a car at rest in normal mode with neither button pressed and no
destination written since the previous wake-up. -/
def BroadcastHasNews (state : WatchedCar) : CarAction → Prop
  | .loop .broadcast =>
      AtRest state.system.car.shm → state.system.car.shm.emergencyMode ≠ 1 →
        state.system.car.shm.individualServiceMode ≠ 1 →
        state.system.car.shm.openButton = 1 ∨ state.system.car.shm.closeButton = 1 ∨
          state.written = true
  | _ => True

/-! ### One iteration -/

section Iterations

variable {shm : CarSharedMem}

/-- Without the open button only the last branch of the normal mode opens a car at rest. -/
theorem opening_iff (ret : WaitResult) (rest : AtRest shm) (unpressed : shm.openButton ≠ 1) :
    Effect.status .opening ∈ (elevatorLoop ret shm).effects ↔
      ret = .broadcast ∧ shm.emergencyMode ≠ 1 ∧ shm.individualServiceMode ≠ 1 ∧
        shm.closeButton ≠ 1 := by
  obtain ⟨closed, equal⟩ := rest
  by_cases emergency : shm.emergencyMode = 1
  · rw [elevatorLoop_of_emergency emergency]
    cases ret with
    | broadcast =>
        by_cases pressed : shm.closeButton = 1 <;>
          simp [Iteration.emergencyBroadcast, Iteration.StatusIs, Iteration.start, closed,
            unpressed, pressed, emergency]
    | timedOut =>
        simp [Iteration.emergencyTimeout, Iteration.StatusIs, Iteration.start, closed, unpressed]
  by_cases service : shm.individualServiceMode = 1
  · rw [elevatorLoop_of_service emergency service]
    cases ret with
    | broadcast =>
        by_cases pressed : shm.closeButton = 1 <;>
          simp [Iteration.serviceBroadcast, Iteration.StatusIs, Iteration.FloorsEqual,
            Iteration.start, closed, equal, unpressed, pressed, service]
    | timedOut =>
        simp [Iteration.serviceTimeout, Iteration.StatusIs, Iteration.FloorsEqual,
          Iteration.start, closed, equal, unpressed]
  · rw [elevatorLoop_of_normal emergency service]
    cases ret with
    | broadcast =>
        by_cases pressed : shm.closeButton = 1 <;>
          simp [Iteration.normalBroadcast, Iteration.StatusIs, Iteration.FloorsEqual,
            Iteration.start, closed, equal, unpressed, pressed, emergency, service]
    | timedOut =>
        simp [Iteration.normalTimeout, Iteration.StatusIs, Iteration.FloorsEqual,
          Iteration.start, closed, equal, unpressed]

end Iterations

theorem opensForReason_iff (state : WatchedCar) (action : CarAction) :
    OpensForReason state action ↔ BroadcastHasNews state action := by
  cases action with
  | loop ret =>
      by_cases pressed : state.system.car.shm.openButton = 1
      · cases ret with
        | broadcast => exact iff_of_true (fun _ _ => Or.inl pressed) (fun _ _ _ => Or.inl pressed)
        | timedOut => exact iff_of_true (fun _ _ => Or.inl pressed) trivial
      · cases ret with
        | broadcast =>
            constructor
            · intro reason rest notEmergency notService
              by_cases close : state.system.car.shm.closeButton = 1
              · exact Or.inr (Or.inl close)
              · have opens := (opening_iff .broadcast rest pressed).mpr
                  ⟨rfl, notEmergency, notService, close⟩
                exact Or.inr (Or.inr ((reason rest opens).resolve_left pressed))
            · intro news rest opens
              obtain ⟨_, notEmergency, notService, close⟩ :=
                (opening_iff .broadcast rest pressed).mp opens
              rcases news rest notEmergency notService with open_ | close_ | written
              · exact Or.inl open_
              · exact absurd close_ close
              · exact Or.inr written
        | timedOut =>
            refine iff_of_true (fun rest opens => ?_) trivial
            cases ((opening_iff .timedOut rest pressed).mp opens).1
  | connect | disconnect | connectionTop | pollTimeout | receive | readNotify | monitor => rfl
  | pollReady socket => rfl
  | send delivered => rfl
  | deliver message => rfl
  | operate operation => rfl
  | sensors doorObstruction overload => rfl

/-! ### Whole runs -/

/-- The doors open for a reason all along a run exactly when every broadcast that finds a
car at rest in normal mode has news for it. -/
theorem doors_open_for_reason_iff (lowestFloor : CharArray 4) (actions : List CarAction) :
    Along watchedStep OpensForReason (WatchedCar.start lowestFloor) actions ↔
      Along watchedStep BroadcastHasNews (WatchedCar.start lowestFloor) actions :=
  along_congr opensForReason_iff

def stopThenLoop : List CarAction := [.operate .stop, .loop .broadcast]

theorem doors_open_for_stop :
    ¬ ∀ (lowestFloor : CharArray 4) (actions : List CarAction),
      Along watchedStep OpensForReason (WatchedCar.start lowestFloor) actions := by
  intro always
  have reasons := always (digitFloor 1).chars stopThenLoop
  have reason := (reasons.tail rfl).head
  exact absurd (reason ⟨rfl, rfl⟩ (by decide)) (by decide)

end Cab403.Elevator
