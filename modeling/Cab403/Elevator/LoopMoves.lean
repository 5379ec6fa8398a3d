/-
What one iteration of `elevator_loop` does to the two floor fields: it arrives at
the next floor or leaves both as they were. Outside normal mode the iteration is
an arrival, a departure, or neither.
-/

import Cab403.Elevator.ElevatorLoop

namespace Cab403.Elevator

open CText

inductive LoopFloors (ret : WaitResult) (before after : CarSharedMem) : Prop
  | stays (current : after.currentFloor = before.currentFloor)
      (destination : after.destinationFloor = before.destinationFloor)
  | moves (timedOut : ret = .timedOut) (between : before.status = Status.between.chars)
      (current : after.currentFloor = moveFloor before.currentFloor before.destinationFloor)
      (destination : after.destinationFloor = before.destinationFloor ∨
        after.destinationFloor = after.currentFloor)

def Iteration.departures (it : Iteration) : Nat := it.effects.count (.status .between)

def Iteration.destinationWrites (it : Iteration) : List (CharArray 4) :=
  it.effects.filterMap fun
    | .destinationFloor value => some value
    | _ => none

/-- An iteration outside normal mode, as seen by the floors. -/
inductive ServiceMove (ret : WaitResult) (before : CarSharedMem) (it : Iteration) : Prop
  | arrives (timedOut : ret = .timedOut) (between : before.status = Status.between.chars)
      (current : it.shm.currentFloor = moveFloor before.currentFloor before.destinationFloor)
      (stopped : it.shm.status ≠ Status.between.chars)
      (dropped : it.shm.destinationFloor = it.shm.currentFloor)
      (writes : it.destinationWrites = [it.shm.currentFloor]) (departures : it.departures = 0)
  | departs (closed : before.status = Status.closed.chars)
      (apart : before.currentFloor ≠ before.destinationFloor)
      (moving : it.shm.status = Status.between.chars)
      (current : it.shm.currentFloor = before.currentFloor)
      (destination : it.shm.destinationFloor = before.destinationFloor)
      (writes : it.destinationWrites = []) (departures : it.departures = 1)
  | stays (status : it.shm.status = Status.between.chars ↔ before.status = Status.between.chars)
      (current : it.shm.currentFloor = before.currentFloor)
      (destination : it.shm.destinationFloor = before.destinationFloor)
      (writes : it.destinationWrites = []) (departures : it.departures = 0)

namespace Iteration

section Writes

variable (it : Iteration) (value : Status)

@[simp] theorem strcpyStatus_destinationWrites :
    (it.strcpyStatus value).destinationWrites = it.destinationWrites := by
  simp [destinationWrites]

@[simp] theorem moveFloor_destinationWrites :
    it.moveFloor.destinationWrites = it.destinationWrites := by
  simp [destinationWrites]

@[simp] theorem strcpyDestination_destinationWrites :
    it.strcpyDestination.destinationWrites = it.destinationWrites ++ [it.shm.currentFloor] := by
  simp [destinationWrites]

@[simp] theorem clearOpen_destinationWrites :
    it.clearOpen.destinationWrites = it.destinationWrites := rfl

@[simp] theorem clearClose_destinationWrites :
    it.clearClose.destinationWrites = it.destinationWrites := rfl

@[simp] theorem calculateAbsoluteTimeout_destinationWrites :
    it.calculateAbsoluteTimeout.destinationWrites = it.destinationWrites := by
  simp [destinationWrites]

@[simp] theorem notifyStatusChange_destinationWrites :
    it.notifyStatusChange.destinationWrites = it.destinationWrites := by
  simp [destinationWrites]

@[simp] theorem broadcast_destinationWrites :
    it.broadcast.destinationWrites = it.destinationWrites := by
  simp [destinationWrites]

@[simp] theorem strcpyStatus_departures :
    (it.strcpyStatus value).departures = it.departures + if value = .between then 1 else 0 := by
  simp [departures, List.count_append, List.count_singleton]

@[simp] theorem moveFloor_departures : it.moveFloor.departures = it.departures := by
  simp [departures, List.count_append]

@[simp] theorem strcpyDestination_departures :
    it.strcpyDestination.departures = it.departures := by
  simp [departures, List.count_append]

@[simp] theorem clearOpen_departures : it.clearOpen.departures = it.departures := rfl

@[simp] theorem clearClose_departures : it.clearClose.departures = it.departures := rfl

@[simp] theorem calculateAbsoluteTimeout_departures :
    it.calculateAbsoluteTimeout.departures = it.departures := by
  simp [departures, List.count_append]

@[simp] theorem notifyStatusChange_departures :
    it.notifyStatusChange.departures = it.departures := by
  simp [departures, List.count_append]

@[simp] theorem broadcast_departures : it.broadcast.departures = it.departures := by
  simp [departures, List.count_append]

end Writes

variable {ret : WaitResult} {shm : CarSharedMem}

@[simp] theorem start_shm : (start shm).shm = shm := rfl

@[simp] theorem start_departures : (start shm).departures = 0 := rfl

@[simp] theorem start_destinationWrites : (start shm).destinationWrites = [] := rfl

/-! ### Outside normal mode -/

private theorem finishMove_arrives (between : (start shm).StatusIs .between) :
    ServiceMove .timedOut shm (start shm).finishMove := by
  unfold finishMove
  dsimp only
  split
  · exact .arrives rfl between (by simp) (by simp) (by simp) (by simp) (by simp)
  · exact .arrives rfl between (by simp) (by simp) (by simp) (by simp) (by simp)

private theorem stays_of {it : Iteration}
    (status : it.shm.status = Status.between.chars ↔ shm.status = Status.between.chars)
    (current : it.shm.currentFloor = shm.currentFloor)
    (destination : it.shm.destinationFloor = shm.destinationFloor)
    (effects : it.destinationWrites = [] ∧ it.departures = 0) : ServiceMove ret shm it :=
  .stays status current destination effects.1 effects.2

private theorem emergencyBroadcast_move : ServiceMove ret shm (start shm).emergencyBroadcast := by
  unfold emergencyBroadcast
  dsimp only
  split_ifs <;> apply stays_of <;>
    simp_all [StatusIs]

private theorem finishOpening_move (opening : (start shm).StatusIs .opening) :
    ServiceMove ret shm (start shm).finishOpening := by
  have still := not_statusIs opening (show Status.opening ≠ .between by decide)
  unfold finishOpening
  dsimp only
  split_ifs <;> apply stays_of <;> simp_all [StatusIs]

private theorem finishClosing_move (closing : (start shm).StatusIs .closing) :
    ServiceMove ret shm (start shm).finishClosing := by
  have still := not_statusIs closing (show Status.closing ≠ .between by decide)
  unfold finishClosing
  dsimp only
  split_ifs <;> apply stays_of <;> simp_all [StatusIs]

private theorem stayOpen_move (opened : (start shm).StatusIs .opened) :
    ServiceMove ret shm (start shm).stayOpen := by
  have still := not_statusIs opened (show Status.opened ≠ .between by decide)
  unfold stayOpen
  dsimp only
  split_ifs <;> apply stays_of <;> simp_all [StatusIs]

private theorem emergencyTimeout_move : ServiceMove .timedOut shm (start shm).emergencyTimeout := by
  apply timeout_byStatus finishMove_arrives finishOpening_move finishClosing_move stayOpen_move
  case closed =>
    intro closed
    dsimp only
    split_ifs <;> apply stays_of <;> simp_all [StatusIs]
  case other => apply stays_of <;> simp

private theorem departs_of {it : Iteration} (closed : (start shm).StatusIs .closed)
    (apart : ¬ (start shm).FloorsEqual) (moving : it.shm.status = Status.between.chars)
    (current : it.shm.currentFloor = shm.currentFloor)
    (destination : it.shm.destinationFloor = shm.destinationFloor)
    (effects : it.destinationWrites = [] ∧ it.departures = 1) : ServiceMove ret shm it :=
  .departs closed apart moving current destination effects.1 effects.2

private theorem serviceBroadcast_move : ServiceMove ret shm (start shm).serviceBroadcast := by
  by_cases leaves : shm.closeButton ≠ 1 ∧ shm.openButton ≠ 1 ∧ ¬ (start shm).FloorsEqual ∧
      (start shm).StatusIs .closed
  · obtain ⟨notClose, notOpen, apart, closed⟩ := leaves
    unfold serviceBroadcast
    rw [start_shm, if_neg notClose, if_neg notOpen, if_pos apart, if_pos closed]
    apply departs_of closed apart <;> simp
  · unfold serviceBroadcast
    dsimp only
    split_ifs <;> apply stays_of <;> simp_all [StatusIs]

private theorem serviceTimeout_move : ServiceMove .timedOut shm (start shm).serviceTimeout := by
  apply timeout_byStatus finishMove_arrives finishOpening_move finishClosing_move stayOpen_move
  case closed =>
    intro closed
    dsimp only
    split_ifs with pressed together
    · apply stays_of <;> simp_all [StatusIs]
    · apply stays_of <;> simp_all [StatusIs]
    · apply departs_of closed together <;> simp
  case other => apply stays_of <;> simp

/-! ### Normal mode -/

private def FloorsKept (shm : CarSharedMem) (it : Iteration) : Prop :=
  it.shm.currentFloor = shm.currentFloor ∧ it.shm.destinationFloor = shm.destinationFloor ∧
    it.destinationWrites = []

private theorem normalBroadcast_floorsKept : FloorsKept shm (start shm).normalBroadcast := by
  unfold normalBroadcast
  dsimp only
  split_ifs <;> refine ⟨?_, ?_, ?_⟩ <;> simp

private theorem normalTimeout_floorsKept (still : ¬ (start shm).StatusIs .between) :
    FloorsKept shm (start shm).normalTimeout := by
  unfold normalTimeout
  rw [if_neg still]
  dsimp only
  split_ifs <;> refine ⟨?_, ?_, ?_⟩ <;> simp

private theorem normalTimeout_arrives (between : (start shm).StatusIs .between) :
    (start shm).normalTimeout.shm.currentFloor =
        Elevator.moveFloor shm.currentFloor shm.destinationFloor ∧
      (start shm).normalTimeout.shm.destinationFloor = shm.destinationFloor ∧
      (start shm).normalTimeout.destinationWrites = [] := by
  unfold normalTimeout
  rw [if_pos between]
  dsimp only
  split_ifs <;> refine ⟨?_, ?_, ?_⟩ <;> simp

end Iteration

/-- Outside normal mode the loop writes the destination only on arrival, and it
leaves a floor only for a different destination. -/
theorem elevatorLoop_serviceMove (ret : WaitResult) {shm : CarSharedMem}
    (notNormal : shm.emergencyMode = 1 ∨ shm.individualServiceMode = 1) :
    ServiceMove ret shm (elevatorLoop ret shm) := by
  by_cases emergency : shm.emergencyMode = 1
  · rw [elevatorLoop_of_emergency emergency]
    cases ret with
    | broadcast => exact Iteration.emergencyBroadcast_move
    | timedOut => exact Iteration.emergencyTimeout_move
  · rw [elevatorLoop_of_service emergency (notNormal.resolve_left emergency)]
    cases ret with
    | broadcast => exact Iteration.serviceBroadcast_move
    | timedOut => exact Iteration.serviceTimeout_move

theorem ServiceMove.floors {ret : WaitResult} {before : CarSharedMem} {it : Iteration}
    (move : ServiceMove ret before it) : LoopFloors ret before it.shm := by
  cases move with
  | arrives timedOut between current stopped dropped _ _ =>
      exact .moves timedOut between current (Or.inr dropped)
  | departs _ _ _ current destination _ _ => exact .stays current destination
  | stays _ current destination _ _ => exact .stays current destination

theorem elevatorLoop_normalFloors (ret : WaitResult) {shm : CarSharedMem}
    (notEmergency : shm.emergencyMode ≠ 1) (notService : shm.individualServiceMode ≠ 1) :
    LoopFloors ret shm (elevatorLoop ret shm).shm ∧
      (elevatorLoop ret shm).destinationWrites = [] ∧
      (elevatorLoop ret shm).shm.destinationFloor = shm.destinationFloor := by
  rw [elevatorLoop_of_normal notEmergency notService]
  cases ret with
  | broadcast =>
      have kept : Iteration.FloorsKept shm (Iteration.start shm).normalBroadcast :=
        Iteration.normalBroadcast_floorsKept
      obtain ⟨current, destination, writes⟩ := kept
      exact ⟨.stays current destination, writes, destination⟩
  | timedOut =>
      by_cases between : (Iteration.start shm).StatusIs .between
      · obtain ⟨current, destination, writes⟩ := Iteration.normalTimeout_arrives between
        exact ⟨.moves rfl between current (Or.inl destination), writes, destination⟩
      · obtain ⟨current, destination, writes⟩ := Iteration.normalTimeout_floorsKept between
        exact ⟨.stays current destination, writes, destination⟩

/-- In every mode the floors stay, or the car arrives at the next floor. -/
theorem elevatorLoop_floors (ret : WaitResult) (shm : CarSharedMem) :
    LoopFloors ret shm (elevatorLoop ret shm).shm := by
  by_cases normal : shm.emergencyMode = 1 ∨ shm.individualServiceMode = 1
  · exact (elevatorLoop_serviceMove ret normal).floors
  · rw [not_or] at normal
    exact (elevatorLoop_normalFloors ret normal.1 normal.2).1

theorem elevatorLoop_destinationFloor (ret : WaitResult) (shm : CarSharedMem) :
    (elevatorLoop ret shm).shm.destinationFloor =
      (elevatorLoop ret shm).destinationWrites.getLastD shm.destinationFloor := by
  by_cases normal : shm.emergencyMode = 1 ∨ shm.individualServiceMode = 1
  · cases elevatorLoop_serviceMove ret normal with
    | arrives _ _ _ _ dropped writes _ => rw [writes, dropped]; rfl
    | departs _ _ _ _ destination writes _ => rw [writes, destination]; rfl
    | stays _ _ destination writes _ => rw [writes, destination]; rfl
  · rw [not_or] at normal
    obtain ⟨_, writes, destination⟩ := elevatorLoop_normalFloors ret normal.1 normal.2
    rw [writes, destination]
    rfl

end Cab403.Elevator
