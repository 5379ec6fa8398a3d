/-
Emergency mode over whole runs: iterations of `elevator_loop` interleaved with
everything other programs may write while `emergency_mode` stays 1. A car that
is not between floors never departs, and the doors follow the buttons.
-/

import Cab403.Elevator.DoorGraph

namespace Cab403.Elevator

open CText

/-- An iteration of the loop, or a write by another thread or program. -/
inductive EmergencyEvent where
  | wake (ret : WaitResult)
  | buttons (openButton closeButton : UInt8)
  | destination (floor : Token 3)
  | sensors (doorObstruction overload emergencyStop : UInt8)
  | serviceMode (value : UInt8)
  | obstruction
  deriving DecidableEq

def emergencyStep (shm : CarSharedMem) : EmergencyEvent → CarSharedMem
  | .wake ret => (elevatorLoop ret shm).shm
  | .buttons openButton closeButton =>
      { shm with openButton := openButton, closeButton := closeButton }
  | .destination floor => { shm with destinationFloor := floor.chars }
  | .sensors doorObstruction overload emergencyStop =>
      { shm with
        doorObstruction := doorObstruction
        overload := overload
        emergencyStop := emergencyStop }
  | .serviceMode value => { shm with individualServiceMode := value }
  | .obstruction =>
      if shm.status = Status.closing.chars then { shm with status := Status.opening.chars }
      else shm

def emergencyRun (start : CarSharedMem) (events : List EmergencyEvent) : CarSharedMem :=
  events.foldl emergencyStep start

def floorChanges (start : CarSharedMem) : List EmergencyEvent → Nat
  | [] => 0
  | event :: rest =>
      (if (emergencyStep start event).currentFloor = start.currentFloor then 0 else 1) +
        floorChanges (emergencyStep start event) rest

/-- Doors that start to move were commanded: the iteration found the button of
its direction pressed and leaves it released. -/
structure DoorsCommanded (before : CarSharedMem) (it : Iteration) : Prop where
  opening : Status.opening ∈ it.statusWrites → before.openButton = 1 ∧ it.shm.openButton = 0
  closing : Status.closing ∈ it.statusWrites → before.closeButton = 1 ∧ it.shm.closeButton = 0

structure EmergencySafe (start : CarSharedMem) (events : List EmergencyEvent) : Prop where
  movesOnce : floorChanges start events ≤ 1
  /-- By at most one floor, when the floor fields hold strings at all. -/
  oneFloor : start.currentFloor.Terminated → start.destinationFloor.Terminated →
    (floorStrToInt (emergencyRun start events).currentFloor -
      floorStrToInt start.currentFloor).natAbs ≤ 1
  neverBetweenAgain : ∀ earlier later, events = earlier ++ later →
    (emergencyRun start earlier).status ≠ Status.between.chars →
      (emergencyRun start events).status ≠ Status.between.chars
  doorsCommanded : ∀ earlier ret later, events = earlier ++ .wake ret :: later →
    DoorsCommanded (emergencyRun start earlier)
      (elevatorLoop ret (emergencyRun start earlier))

/-! ### One iteration in emergency mode -/

namespace Iteration

variable {it : Iteration}

theorem finishMove_currentFloor :
    it.finishMove.shm.currentFloor =
      Elevator.moveFloor it.shm.currentFloor it.shm.destinationFloor := by
  unfold finishMove
  dsimp only
  split_ifs <;> rfl

theorem emergencyBroadcast_destinationFloor :
    it.emergencyBroadcast.shm.destinationFloor = it.shm.destinationFloor := by
  unfold emergencyBroadcast
  dsimp only
  split_ifs <;> rfl

theorem emergencyTimeout_destinationFloor (still : ¬ it.StatusIs .between) :
    it.emergencyTimeout.shm.destinationFloor = it.shm.destinationFloor := by
  unfold emergencyTimeout finishOpening finishClosing stayOpen
  dsimp only
  rw [if_neg still]
  split_ifs <;> rfl

theorem emergencyTimeout_of_between (between : it.StatusIs .between) :
    it.emergencyTimeout = it.finishMove := by
  unfold emergencyTimeout
  rw [if_pos between]

theorem emergencyBroadcast_status_of_between
    (between : it.emergencyBroadcast.shm.status = Status.between.chars) :
    it.shm.status = Status.between.chars := by
  revert between
  unfold emergencyBroadcast
  dsimp only
  split_ifs <;> simp

theorem emergencyTimeout_status_ne_between :
    it.emergencyTimeout.shm.status ≠ Status.between.chars := by
  unfold emergencyTimeout finishMove finishOpening finishClosing stayOpen
  dsimp only
  split_ifs with between <;> simp_all [StatusIs]

private theorem emergencyBroadcast_doorsCommanded {shm : CarSharedMem} :
    DoorsCommanded shm (start shm).emergencyBroadcast := by
  unfold emergencyBroadcast
  dsimp only
  split_ifs <;> constructor <;> simp_all [start, statusWrites, Effect.statusWrite?]

private theorem emergencyTimeout_doorsCommanded {shm : CarSharedMem} :
    DoorsCommanded shm (start shm).emergencyTimeout := by
  unfold emergencyTimeout finishMove finishOpening finishClosing stayOpen
  dsimp only
  split_ifs <;> constructor <;> simp_all [start, statusWrites, Effect.statusWrite?]

end Iteration

theorem elevatorLoop_doorsCommanded {ret : WaitResult} {shm : CarSharedMem}
    (emergency : shm.emergencyMode = 1) : DoorsCommanded shm (elevatorLoop ret shm) := by
  rw [elevatorLoop_of_emergency emergency]
  cases ret with
  | broadcast => exact Iteration.emergencyBroadcast_doorsCommanded
  | timedOut => exact Iteration.emergencyTimeout_doorsCommanded

theorem elevatorLoop_emergency_floors {shm : CarSharedMem} (ret : WaitResult)
    (emergency : shm.emergencyMode = 1) :
    ((elevatorLoop ret shm).shm.currentFloor = shm.currentFloor ∧
        (elevatorLoop ret shm).shm.destinationFloor = shm.destinationFloor) ∨
      ((elevatorLoop ret shm).shm.currentFloor =
          moveFloor shm.currentFloor shm.destinationFloor ∧
        (elevatorLoop ret shm).shm.status ≠ Status.between.chars) := by
  rw [elevatorLoop_of_emergency emergency]
  cases ret with
  | broadcast =>
      exact Or.inl ⟨Iteration.emergencyBroadcast_currentFloor,
        Iteration.emergencyBroadcast_destinationFloor⟩
  | timedOut =>
      dsimp only
      by_cases between : (Iteration.start shm).StatusIs .between
      · refine Or.inr ⟨?_, Iteration.emergencyTimeout_status_ne_between⟩
        rw [Iteration.emergencyTimeout_of_between between, Iteration.finishMove_currentFloor]
        rfl
      · exact Or.inl ⟨Iteration.emergencyTimeout_currentFloor between,
          Iteration.emergencyTimeout_destinationFloor between⟩

/-! ### One event -/

theorem emergencyStep_emergencyMode (shm : CarSharedMem) (event : EmergencyEvent) :
    (emergencyStep shm event).emergencyMode = shm.emergencyMode := by
  cases event with
  | wake ret => exact elevatorLoop_emergencyMode
  | obstruction =>
      unfold emergencyStep
      dsimp only
      split <;> rfl
  | _ => rfl

theorem emergencyStep_still {shm : CarSharedMem} (emergency : shm.emergencyMode = 1)
    (still : shm.status ≠ Status.between.chars) (event : EmergencyEvent) :
    (emergencyStep shm event).currentFloor = shm.currentFloor ∧
      (emergencyStep shm event).status ≠ Status.between.chars := by
  cases event with
  | wake ret =>
      refine ⟨elevatorLoop_currentFloor still, ?_⟩
      unfold emergencyStep
      dsimp only
      rw [elevatorLoop_of_emergency emergency]
      cases ret with
      | broadcast =>
          exact fun between => still (Iteration.emergencyBroadcast_status_of_between between)
      | timedOut => exact Iteration.emergencyTimeout_status_ne_between
  | obstruction =>
      unfold emergencyStep
      dsimp only
      split
      · exact ⟨rfl, by simp⟩
      · exact ⟨rfl, still⟩
  | _ => exact ⟨rfl, still⟩

theorem emergencyStep_moves {shm : CarSharedMem} (emergency : shm.emergencyMode = 1)
    (event : EmergencyEvent) :
    ((emergencyStep shm event).currentFloor = shm.currentFloor ∧
        (shm.destinationFloor.Terminated →
          (emergencyStep shm event).destinationFloor.Terminated)) ∨
      (emergencyStep shm event).currentFloor = moveFloor shm.currentFloor shm.destinationFloor ∧
        (emergencyStep shm event).status ≠ Status.between.chars := by
  cases event with
  | wake ret =>
      rcases elevatorLoop_emergency_floors ret emergency with
        ⟨current, destination⟩ | ⟨current, arrived⟩
      · refine Or.inl ⟨current, fun terminated => ?_⟩
        change (elevatorLoop ret shm).shm.destinationFloor.Terminated
        rw [destination]
        exact terminated
      · exact Or.inr ⟨current, arrived⟩
  | destination floor => exact Or.inl ⟨rfl, fun _ => floor.chars_terminated⟩
  | obstruction =>
      unfold emergencyStep
      dsimp only
      split <;> exact Or.inl ⟨rfl, id⟩
  | _ => exact Or.inl ⟨rfl, id⟩

/-! ### Whole runs -/

theorem emergencyRun_emergencyMode (start : CarSharedMem) (events : List EmergencyEvent) :
    (emergencyRun start events).emergencyMode = start.emergencyMode := by
  induction events generalizing start with
  | nil => rfl
  | cons event rest ih =>
      exact (ih (emergencyStep start event)).trans (emergencyStep_emergencyMode start event)

theorem emergencyRun_append (start : CarSharedMem) (earlier later : List EmergencyEvent) :
    emergencyRun start (earlier ++ later) = emergencyRun (emergencyRun start earlier) later :=
  List.foldl_append

theorem emergencyRun_still {start : CarSharedMem} (emergency : start.emergencyMode = 1)
    (still : start.status ≠ Status.between.chars) (events : List EmergencyEvent) :
    (emergencyRun start events).currentFloor = start.currentFloor ∧
      (emergencyRun start events).status ≠ Status.between.chars ∧
      floorChanges start events = 0 := by
  induction events generalizing start with
  | nil => exact ⟨rfl, still, rfl⟩
  | cons event rest ih =>
      have now := emergencyStep_still emergency still event
      obtain ⟨floor, status, changes⟩ :=
        ih ((emergencyStep_emergencyMode start event).trans emergency) now.2
      refine ⟨floor.trans now.1, status, ?_⟩
      simp only [floorChanges, now.1, if_true, changes]

/-- The floor changes at most once, by one `move_floor`. -/
theorem emergencyRun_moves {start : CarSharedMem} (emergency : start.emergencyMode = 1)
    (events : List EmergencyEvent) :
    floorChanges start events ≤ 1 ∧
      ((emergencyRun start events).currentFloor = start.currentFloor ∨
        ∃ destination : CharArray 4,
          (start.destinationFloor.Terminated → destination.Terminated) ∧
            (emergencyRun start events).currentFloor =
              moveFloor start.currentFloor destination) := by
  induction events generalizing start with
  | nil => exact ⟨Nat.zero_le 1, Or.inl rfl⟩
  | cons event rest ih =>
      have kept := (emergencyStep_emergencyMode start event).trans emergency
      rcases emergencyStep_moves emergency event with ⟨same, terminated⟩ | ⟨moved, arrived⟩
      · obtain ⟨changes, floors⟩ := ih kept
        constructor
        · simp only [floorChanges, same, if_true, zero_add]
          exact changes
        · rcases floors with stayed | ⟨destination, later, reached⟩
          · exact Or.inl (stayed.trans same)
          · exact Or.inr ⟨destination, fun before => later (terminated before),
              by rw [← same]; exact reached⟩
      · obtain ⟨floor, _, changes⟩ := emergencyRun_still kept arrived rest
        constructor
        · simp only [floorChanges, changes, add_zero]
          split <;> omega
        · exact Or.inr ⟨start.destinationFloor, id, floor.trans moved⟩

/-- Emergency mode is safe: at most one floor is finished, the car never departs
and no door starts to move without its button. -/
theorem emergencyMode_safe (start : CarSharedMem) (events : List EmergencyEvent)
    (emergency : start.emergencyMode = 1) : EmergencySafe start events := by
  obtain ⟨movesOnce, floors⟩ := emergencyRun_moves emergency events
  have held (earlier : List EmergencyEvent) :
      (emergencyRun start earlier).emergencyMode = 1 :=
    (emergencyRun_emergencyMode start earlier).trans emergency
  refine
    { movesOnce := movesOnce
      oneFloor := ?_
      neverBetweenAgain := ?_
      doorsCommanded := ?_ }
  · intro currentTerminated destinationTerminated
    rcases floors with stayed | ⟨destination, terminated, reached⟩
    · rw [stayed]
      omega
    · rw [reached]
      exact moveFloor_number currentTerminated (terminated destinationTerminated)
  · rintro earlier later rfl still
    rw [emergencyRun_append]
    exact (emergencyRun_still (held earlier) still later).2.1
  · rintro earlier ret later rfl
    exact elevatorLoop_doorsCommanded (held earlier)

theorem emergencyMode_safe_between_one_two :
    EmergencySafe
      { resetShm (digitFloor 1).chars with
        destinationFloor := (digitFloor 2).chars
        status := Status.between.chars
        emergencyMode := 1 }
      [.buttons 1 0, .wake .timedOut, .wake .timedOut, .wake .broadcast] :=
  emergencyMode_safe _ _ rfl

end Cab403.Elevator
