/-
One car with its surroundings: the elevator loop, the controller-connection
thread, the service tool of internal.c, the safety monitor and a controller that
may send any message. A step is one critical section of the shared memory or one
action of the connection thread between two of them. Messages arrive whole and in
order, as the framing of shared.h delivers them.
-/

import Cab403.Elevator.ElevatorLoop
import Cab403.Elevator.SafetyMonitor
import Cab403.Library.ActionRuns

namespace Cab403.Elevator

open CText ActionRuns

/-! ### The service tool -/

inductive Operation where
  | openDoors
  | closeDoors
  | stop
  | serviceOn
  | serviceOff
  | up
  | down
  deriving DecidableEq, Repr

/-- What an operation does under the mutex: store and broadcast, or print a refusal. -/
inductive Operated where
  | stored (shm : CarSharedMem)
  | refused (written : List UInt8)
  deriving DecidableEq

def operateMove (nextFloor : CharArray 4 → CharArray 4) (shm : CarSharedMem) : Operated :=
  if shm.individualServiceMode ≠ 0 then
    if shm.status = Status.closed.chars then
      .stored { shm with destinationFloor := nextFloor shm.currentFloor }
    else if shm.status = Status.between.chars then
      .refused (bytes "Operation not allowed while elevator is moving.\n")
    else .refused (bytes "Operation not allowed while doors are open.\n")
  else .refused (bytes "Operation only allowed in service mode.\n")

def operate (operation : Operation) (shm : CarSharedMem) : Operated :=
  match operation with
  | .openDoors => .stored { shm with openButton := 1 }
  | .closeDoors => .stored { shm with closeButton := 1 }
  | .stop => .stored { shm with emergencyStop := 1 }
  | .serviceOn => .stored { shm with individualServiceMode := 1, emergencyMode := 0 }
  | .serviceOff => .stored { shm with individualServiceMode := 0 }
  | .up => operateMove floorAbove shm
  | .down => operateMove floorBelow shm

/-! ### The connection thread -/

inductive ConnectionAt where
  | outside
  | greeting
  | report
  | top
  | polling
  /-- `poll` found the socket readable, and the pipe as well if `pipe`. -/
  | socket (pipe : Bool)
  | pipe
  | farewell (message : List UInt8)
  /-- A failed `write` has ended the process. -/
  | exited
  deriving DecidableEq, Repr

structure CarProcess where
  shm : CarSharedMem
  /-- A broadcast has reached the waiting loop, which has not run since. -/
  wake : Bool
  notify : Nat
  connection : ConnectionAt
  pendingDestination : CharArray 4
  deriving DecidableEq

def CarProcess.start (lowestFloor : CharArray 4) : CarProcess :=
  { shm := resetShm lowestFloor
    wake := false
    notify := 0
    connection := .outside
    pendingDestination := CharArray.empty 4 }

/-- The floor that `strncmp(message, "FLOOR ", 6)` and `sscanf("%3s")` find. -/
def floorMessage? (message : List UInt8) : Option (Token 3) := do
  let rest ← stripLiteral (bytes "FLOOR ") message
  let (floor, _) ← scanString 3 rest
  return floor

namespace CarProcess

def loop (ret : WaitResult) (car : CarProcess) : CarProcess :=
  let it := elevatorLoop ret car.shm
  { car with
    shm := it.shm
    wake := false
    notify := car.notify + it.effects.count .notify }

def Applies (car : CarProcess) : Prop :=
  car.pendingDestination ≠ CharArray.empty 4 ∧ car.shm.status ≠ Status.between.chars

instance (car : CarProcess) : Decidable car.Applies := inferInstanceAs (Decidable (_ ∧ _))

def applyPending (car : CarProcess) : CarProcess :=
  if car.Applies then
    { car with
      shm := { car.shm with destinationFloor := car.pendingDestination }
      pendingDestination := CharArray.empty 4
      wake := true }
  else car

def connectionTop (car : CarProcess) : CarProcess :=
  let car := car.applyPending
  if car.shm.emergencyMode = 1 then
    { car with connection := .farewell (bytes "EMERGENCY") }
  else if car.shm.individualServiceMode = 1 then
    { car with connection := .farewell (bytes "INDIVIDUAL SERVICE") }
  else { car with connection := .polling }

def pollReady (socket : Bool) (car : CarProcess) : CarProcess :=
  { car with connection := if socket then .socket (0 < car.notify) else .pipe }

/-- After the socket: the pipe, if it was readable too. -/
def receiveMessage (message : List UInt8) (pipe : Bool) (car : CarProcess) : CarProcess :=
  { car with
    pendingDestination :=
      match floorMessage? message with
      | some floor => floor.chars
      | none => car.pendingDestination
    connection := if pipe then .pipe else .top }

def readNotify (car : CarProcess) : CarProcess :=
  { car with
    notify := car.notify - 1
    connection := .report }

def afterSend : ConnectionAt → ConnectionAt
  | .greeting => .report
  | .report => .top
  | .farewell _ => .outside
  | other => other

def SendDue (car : CarProcess) : Prop := afterSend car.connection ≠ car.connection

instance (car : CarProcess) : Decidable car.SendDue := inferInstanceAs (Decidable (_ ≠ _))

def storeAndBroadcast (shm : CarSharedMem) (car : CarProcess) : CarProcess :=
  { car with
    shm := shm
    wake := true }

end CarProcess

/-! ### What these actions write -/

section Writes

theorem operateMove_stored {nextFloor : CharArray 4 → CharArray 4} {shm next : CarSharedMem}
    (stored : operateMove nextFloor shm = .stored next) :
    shm.individualServiceMode ≠ 0 ∧ shm.status = Status.closed.chars ∧
      next = { shm with destinationFloor := nextFloor shm.currentFloor } := by
  unfold operateMove at stored
  split at stored
  · rename_i service
    split at stored
    · rename_i closed
      cases stored
      exact ⟨service, closed, rfl⟩
    · split at stored <;> cases stored
  · cases stored

variable (car : CarProcess)

theorem CarProcess.applyPending_of_applies {car : CarProcess} (applies : car.Applies) :
    car.applyPending =
      { car with
        shm := { car.shm with destinationFloor := car.pendingDestination }
        pendingDestination := CharArray.empty 4
        wake := true } :=
  if_pos applies

theorem CarProcess.applyPending_of_not_applies {car : CarProcess} (kept : ¬ car.Applies) :
    car.applyPending = car :=
  if_neg kept

theorem CarProcess.connectionTop_eq :
    car.connectionTop = { car.applyPending with connection := car.connectionTop.connection } := by
  unfold CarProcess.connectionTop
  dsimp only
  split_ifs <;> rfl

@[simp] theorem CarProcess.connectionTop_shm :
    car.connectionTop.shm = car.applyPending.shm := by
  rw [CarProcess.connectionTop_eq]

@[simp] theorem CarProcess.connectionTop_pendingDestination :
    car.connectionTop.pendingDestination = car.applyPending.pendingDestination := by
  rw [CarProcess.connectionTop_eq]

end Writes

/-! ### The car among its surroundings -/

structure CarSystem where
  car : CarProcess
  inbox : List CString
  deriving DecidableEq

def CarSystem.start (lowestFloor : CharArray 4) : CarSystem :=
  { car := CarProcess.start lowestFloor
    inbox := [] }

inductive CarAction where
  | loop (ret : WaitResult)
  | connect
  /-- The connection is found dead, or a read or `poll` fails. -/
  | disconnect
  | connectionTop
  | pollTimeout
  | pollReady (socket : Bool)
  | receive
  | readNotify
  | send (delivered : Bool)
  | deliver (message : CString)
  | operate (operation : Operation)
  | sensors (doorObstruction overload : UInt8)
  | monitor
  deriving DecidableEq

def ConnectionAt.GivesUp : ConnectionAt → Prop
  | .top | .polling | .socket _ | .pipe => True
  | _ => False

instance : DecidablePred ConnectionAt.GivesUp := fun point => by
  cases point <;> unfold ConnectionAt.GivesUp <;> infer_instance

def carStep (state : CarSystem) : CarAction → Option CarSystem
  | .loop ret =>
      if state.car.connection ≠ .exited then some { state with car := state.car.loop ret }
      else none
  | .connect =>
      if state.car.connection = .outside then
        some { state with car := { state.car with connection := .greeting } }
      else none
  | .disconnect =>
      if state.car.connection.GivesUp then
        some { car := { state.car with connection := .outside }, inbox := [] }
      else none
  | .connectionTop =>
      if state.car.connection = .top then some { state with car := state.car.connectionTop }
      else none
  | .pollTimeout =>
      if state.car.connection = .polling then
        some { state with car := { state.car with connection := .report } }
      else none
  | .pollReady socket =>
      if state.car.connection = .polling ∧ (socket = true ∨ 0 < state.car.notify) then
        some { state with car := state.car.pollReady socket }
      else none
  | .receive =>
      match state.car.connection, state.inbox with
      | .socket pipe, message :: later =>
          some { car := state.car.receiveMessage message.text pipe, inbox := later }
      | _, _ => none
  | .readNotify =>
      if state.car.connection = .pipe ∧ 0 < state.car.notify then
        some { state with car := state.car.readNotify }
      else none
  | .send delivered =>
      if state.car.SendDue then
        some
          { car := { state.car with
              connection :=
                if delivered then CarProcess.afterSend state.car.connection else .exited }
            inbox :=
              if CarProcess.afterSend state.car.connection = .outside then [] else state.inbox }
      else none
  | .deliver message =>
      if state.car.connection ≠ .outside ∧ state.car.connection ≠ .exited then
        some { state with inbox := state.inbox ++ [message] }
      else none
  | .operate operation =>
      match operate operation state.car.shm with
      | .stored shm => some { state with car := state.car.storeAndBroadcast shm }
      | .refused _ => some state
  | .sensors doorObstruction overload =>
      some
        { state with
          car := state.car.storeAndBroadcast
            { state.car.shm with doorObstruction := doorObstruction, overload := overload } }
  | .monitor =>
      some
        { state with
          car := { state.car with shm := (Safety.monitorPass state.car.shm).shm } }

theorem carStep_receive {state next : CarSystem} (taken : carStep state .receive = some next) :
    ∃ pipe message later, state.car.connection = .socket pipe ∧ state.inbox = message :: later ∧
      next = { car := state.car.receiveMessage message.text pipe, inbox := later } := by
  simp only [carStep] at taken
  split at taken
  · rename_i pipe message later place arrived
    cases taken
    exact ⟨pipe, message, later, place, arrived, rfl⟩
  · cases taken

theorem carStep_operate {state next : CarSystem} {operation : Operation}
    (taken : carStep state (.operate operation) = some next) :
    (∃ shm, operate operation state.car.shm = .stored shm ∧
        next = { state with car := state.car.storeAndBroadcast shm }) ∨
      (∃ written, operate operation state.car.shm = .refused written) ∧ next = state := by
  simp only [carStep] at taken
  split at taken
  · rename_i shm stored
    cases taken
    exact Or.inl ⟨shm, stored, rfl⟩
  · rename_i written refused
    cases taken
    exact Or.inr ⟨⟨written, refused⟩, rfl⟩

theorem carStep_monitor {state next : CarSystem} (taken : carStep state .monitor = some next) :
    ∃ status emergencyMode,
      (Safety.monitorPass state.car.shm).shm =
          { state.car.shm with status := status, emergencyMode := emergencyMode } ∧
        next =
          { state with
            car := { state.car with
              shm := { state.car.shm with
                status := status, emergencyMode := emergencyMode } } } := by
  have passed := Safety.monitorPass_frame state.car.shm
  refine ⟨_, _, passed, ?_⟩
  rw [← passed]
  exact (Option.some.inj taken).symm

end Cab403.Elevator
