/-
Predicates on floors over the steps of a car. Both floor fields, the pending
destination and the messages under way satisfy a predicate as long as every floor
that enters does: by a move, in a message or through the service tool.
-/

import Cab403.Elevator.CarProcess
import Cab403.Elevator.LoopMoves

namespace Cab403.Elevator

open CText ActionRuns

structure FloorsSatisfy (allowed : CharArray 4 → Prop) (state : CarSystem) : Prop where
  current : allowed state.car.shm.currentFloor
  destination : allowed state.car.shm.destinationFloor
  pending : state.car.pendingDestination = CharArray.empty 4 ∨
    allowed state.car.pendingDestination
  inbox : ∀ message ∈ state.inbox, ∀ floor, floorMessage? message.text = some floor →
    allowed floor.chars

/-- What an action brings in satisfies the predicate. -/
def Supplies (allowed : CharArray 4 → Prop) (state : CarSystem) : CarAction → Prop
  | .loop ret =>
      ret = .timedOut → state.car.shm.status = Status.between.chars →
        allowed (moveFloor state.car.shm.currentFloor state.car.shm.destinationFloor)
  | .deliver message => ∀ floor, floorMessage? message.text = some floor → allowed floor.chars
  | .operate operation =>
      ∀ shm, operate operation state.car.shm = .stored shm → allowed shm.destinationFloor
  | _ => True

section Steps

variable {allowed : CharArray 4 → Prop}

theorem floorsSatisfy_start {lowestFloor : CharArray 4} (lowest : allowed lowestFloor) :
    FloorsSatisfy allowed (CarSystem.start lowestFloor) :=
  { current := lowest
    destination := lowest
    pending := Or.inl rfl
    inbox := by intro message member; cases member }

theorem loop_satisfies {ret : WaitResult} {shm : CarSharedMem}
    (current : allowed shm.currentFloor) (destination : allowed shm.destinationFloor)
    (moved : ret = .timedOut → shm.status = Status.between.chars →
      allowed (moveFloor shm.currentFloor shm.destinationFloor)) :
    allowed (elevatorLoop ret shm).shm.currentFloor ∧
      allowed (elevatorLoop ret shm).shm.destinationFloor := by
  cases elevatorLoop_floors ret shm with
  | stays currentKept destinationKept =>
      rw [currentKept, destinationKept]
      exact ⟨current, destination⟩
  | moves timedOut between arrived dropped =>
      have reached : allowed (elevatorLoop ret shm).shm.currentFloor := by
        rw [arrived]
        exact moved timedOut between
      refine ⟨reached, ?_⟩
      rcases dropped with kept | same
      · rw [kept]
        exact destination
      · rw [same]
        exact reached

/-- The service tool leaves the destination, or sets it to the floor above or below. -/
theorem operate_floors {operation : Operation} {shm next : CarSharedMem}
    (stored : operate operation shm = .stored next) :
    next.currentFloor = shm.currentFloor ∧
      (next.destinationFloor = shm.destinationFloor ∨
        next.destinationFloor = floorAbove shm.currentFloor ∨
        next.destinationFloor = floorBelow shm.currentFloor) := by
  cases operation with
  | up =>
      obtain ⟨_, _, rfl⟩ := operateMove_stored stored
      exact ⟨rfl, Or.inr (Or.inl rfl)⟩
  | down =>
      obtain ⟨_, _, rfl⟩ := operateMove_stored stored
      exact ⟨rfl, Or.inr (Or.inr rfl)⟩
  | openDoors | closeDoors | stop | serviceOn | serviceOff =>
      cases stored
      exact ⟨rfl, Or.inl rfl⟩

theorem applyPending_satisfies {car : CarProcess} (destination : allowed car.shm.destinationFloor)
    (pending : car.pendingDestination = CharArray.empty 4 ∨ allowed car.pendingDestination) :
    car.applyPending.shm.currentFloor = car.shm.currentFloor ∧
      allowed car.applyPending.shm.destinationFloor ∧
      (car.applyPending.pendingDestination = CharArray.empty 4 ∨
        allowed car.applyPending.pendingDestination) := by
  by_cases applies : car.Applies
  · rw [CarProcess.applyPending_of_applies applies]
    exact ⟨rfl, pending.resolve_left applies.1, Or.inl rfl⟩
  · rw [CarProcess.applyPending_of_not_applies applies]
    exact ⟨rfl, destination, pending⟩

theorem receiveMessage_satisfies {car : CarProcess} {message : CString} {pipe : Bool}
    (pending : car.pendingDestination = CharArray.empty 4 ∨ allowed car.pendingDestination)
    (names : ∀ floor, floorMessage? message.text = some floor → allowed floor.chars) :
    (car.receiveMessage message.text pipe).pendingDestination = CharArray.empty 4 ∨
      allowed (car.receiveMessage message.text pipe).pendingDestination := by
  unfold CarProcess.receiveMessage
  dsimp only
  cases found : floorMessage? message.text with
  | none => exact pending
  | some floor => exact Or.inr (names floor found)

theorem floorsSatisfy_step {state next : CarSystem} {action : CarAction}
    (held : FloorsSatisfy allowed state) (supplied : Supplies allowed state action)
    (taken : carStep state action = some next) : FloorsSatisfy allowed next := by
  obtain ⟨current, destination, pending, inbox⟩ := held
  cases action with
  | loop ret =>
      obtain ⟨_, rfl⟩ := of_guarded taken
      obtain ⟨stepped, dropped⟩ := loop_satisfies current destination supplied
      exact ⟨stepped, dropped, pending, inbox⟩
  | connect | pollTimeout | pollReady _ | readNotify =>
      obtain ⟨_, rfl⟩ := of_guarded taken
      exact ⟨current, destination, pending, inbox⟩
  | disconnect =>
      obtain ⟨_, rfl⟩ := of_guarded taken
      exact ⟨current, destination, pending, by intro message member; cases member⟩
  | connectionTop =>
      obtain ⟨_, rfl⟩ := of_guarded taken
      obtain ⟨same, applied, stillPending⟩ := applyPending_satisfies destination pending
      refine ⟨?_, ?_, ?_, inbox⟩
      · rw [CarProcess.connectionTop_shm, same]
        exact current
      · rw [CarProcess.connectionTop_shm]
        exact applied
      · rw [CarProcess.connectionTop_pendingDestination]
        exact stillPending
  | receive =>
      obtain ⟨pipe, message, later, _, arrived, rfl⟩ := carStep_receive taken
      rw [arrived] at inbox
      have names := inbox message List.mem_cons_self
      refine ⟨current, destination, receiveMessage_satisfies pending names, ?_⟩
      intro other member
      exact inbox other (List.mem_cons_of_mem message member)
  | send delivered =>
      obtain ⟨_, rfl⟩ := of_guarded taken
      refine ⟨current, destination, pending, ?_⟩
      intro message member
      dsimp only at member
      split at member
      · cases member
      · exact inbox message member
  | deliver message =>
      obtain ⟨_, rfl⟩ := of_guarded taken
      refine ⟨current, destination, pending, ?_⟩
      intro other member
      rcases List.mem_append.mp member with old | new
      · exact inbox other old
      · rw [List.mem_singleton.mp new]
        exact supplied
  | operate operation =>
      rcases carStep_operate taken with ⟨shm, stored, rfl⟩ | ⟨_, rfl⟩
      · refine ⟨?_, supplied shm stored, pending, inbox⟩
        change allowed shm.currentFloor
        rw [(operate_floors stored).1]
        exact current
      · exact ⟨current, destination, pending, inbox⟩
  | sensors doorObstruction overload =>
      cases taken
      exact ⟨current, destination, pending, inbox⟩
  | monitor =>
      obtain ⟨_, _, _, rfl⟩ := carStep_monitor taken
      exact ⟨current, destination, pending, inbox⟩

end Steps

theorem carStep_currentFloor {state next : CarSystem} {action : CarAction}
    (taken : carStep state action = some next) (notLoop : ∀ ret, action ≠ .loop ret) :
    next.car.shm.currentFloor = state.car.shm.currentFloor := by
  cases action with
  | loop ret => exact absurd rfl (notLoop ret)
  | connect | disconnect | pollTimeout | pollReady _ | readNotify | send _ | deliver _ =>
      obtain ⟨_, rfl⟩ := of_guarded taken
      rfl
  | connectionTop =>
      obtain ⟨_, rfl⟩ := of_guarded taken
      rw [CarProcess.connectionTop_shm]
      unfold CarProcess.applyPending
      split <;> rfl
  | receive =>
      obtain ⟨_, _, _, _, _, rfl⟩ := carStep_receive taken
      rfl
  | operate operation =>
      rcases carStep_operate taken with ⟨shm, stored, rfl⟩ | ⟨_, rfl⟩
      · exact (operate_floors stored).1
      · rfl
  | sensors doorObstruction overload =>
      cases taken
      rfl
  | monitor =>
      obtain ⟨_, _, _, rfl⟩ := carStep_monitor taken
      rfl

/-! ### Floors are strings -/

/-- The floors of a car that was started with a floor string are strings. -/
theorem floors_terminated {lowestFloor : CharArray 4} (lowest : lowestFloor.Terminated)
    {actions : List CarAction} {reached : CarSystem}
    (ran : run carStep (CarSystem.start lowestFloor) actions = some reached) :
    FloorsSatisfy CharArray.Terminated reached := by
  apply invariant_run_always _ (floorsSatisfy_start lowest) ran
  intro state action next held taken
  apply floorsSatisfy_step held _ taken
  cases action with
  | loop ret => exact fun _ _ => moveFloor_terminated held.current
  | deliver message => exact fun floor _ => floor.chars_terminated
  | operate operation =>
      intro shm stored
      rcases (operate_floors stored).2 with same | above | below
      · rw [same]
        exact held.destination
      · rw [above]
        exact floorAbove_terminated state.car.shm.currentFloor
      · rw [below]
        exact floorBelow_terminated state.car.shm.currentFloor
  | connect | disconnect | connectionTop | pollTimeout | receive | readNotify | monitor => trivial
  | pollReady socket => trivial
  | send delivered => trivial
  | sensors doorObstruction overload => trivial

end Cab403.Elevator
