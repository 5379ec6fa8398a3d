/-
One iteration of `elevator_loop` in car.c: the wait returns with a broadcast or
with a timeout, one of the three modes handles it, and the mutex is held until
the next wait. An iteration records what it stores and announces, in order.
-/

import Cab403.Elevator.Floors
import Cab403.Elevator.SharedMemory

namespace Cab403.Elevator

open CText

/-- What `pthread_cond_timedwait` returned: `0` or `ETIMEDOUT`. -/
inductive WaitResult where
  | broadcast
  | timedOut
  deriving DecidableEq, Repr

/-- Stores and announcements of an iteration, buttons apart. -/
inductive Effect where
  | status (value : Status)
  | currentFloor (value : CharArray 4)
  | destinationFloor (value : CharArray 4)
  | calculateTimeout
  | notify
  | broadcast
  deriving DecidableEq

structure Iteration where
  shm : CarSharedMem
  effects : List Effect

namespace Iteration

def start (shm : CarSharedMem) : Iteration :=
  { shm := shm
    effects := [] }

def strcpyStatus (it : Iteration) (value : Status) : Iteration :=
  { shm := { it.shm with status := value.chars }
    effects := it.effects ++ [.status value] }

def moveFloor (it : Iteration) : Iteration :=
  let floor := Elevator.moveFloor it.shm.currentFloor it.shm.destinationFloor
  { shm := { it.shm with currentFloor := floor }
    effects := it.effects ++ [.currentFloor floor] }

def strcpyDestination (it : Iteration) : Iteration :=
  { shm := { it.shm with destinationFloor := it.shm.currentFloor }
    effects := it.effects ++ [.destinationFloor it.shm.currentFloor] }

def clearOpen (it : Iteration) : Iteration :=
  { it with shm := { it.shm with openButton := 0 } }

def clearClose (it : Iteration) : Iteration :=
  { it with shm := { it.shm with closeButton := 0 } }

def calculateAbsoluteTimeout (it : Iteration) : Iteration :=
  { it with effects := it.effects ++ [.calculateTimeout] }

def notifyStatusChange (it : Iteration) : Iteration :=
  { it with effects := it.effects ++ [.notify] }

def broadcast (it : Iteration) : Iteration :=
  { it with effects := it.effects ++ [.broadcast] }

def StatusIs (it : Iteration) (value : Status) : Prop := it.shm.status = value.chars

instance (it : Iteration) (value : Status) : Decidable (it.StatusIs value) :=
  inferInstanceAs (Decidable (_ = _))

def FloorsEqual (it : Iteration) : Prop := it.shm.currentFloor = it.shm.destinationFloor

instance (it : Iteration) : Decidable it.FloorsEqual := inferInstanceAs (Decidable (_ = _))

section Operations

variable (it : Iteration) (value : Status)

@[simp] theorem strcpyStatus_shm :
    (it.strcpyStatus value).shm = { it.shm with status := value.chars } := rfl

@[simp] theorem strcpyStatus_effects :
    (it.strcpyStatus value).effects = it.effects ++ [.status value] := rfl

@[simp] theorem moveFloor_shm :
    it.moveFloor.shm = { it.shm with
      currentFloor := Elevator.moveFloor it.shm.currentFloor it.shm.destinationFloor } := rfl

@[simp] theorem moveFloor_effects :
    it.moveFloor.effects = it.effects ++
      [.currentFloor (Elevator.moveFloor it.shm.currentFloor it.shm.destinationFloor)] := rfl

@[simp] theorem strcpyDestination_shm :
    it.strcpyDestination.shm = { it.shm with destinationFloor := it.shm.currentFloor } := rfl

@[simp] theorem strcpyDestination_effects :
    it.strcpyDestination.effects =
      it.effects ++ [.destinationFloor it.shm.currentFloor] := rfl

@[simp] theorem clearOpen_shm : it.clearOpen.shm = { it.shm with openButton := 0 } := rfl

@[simp] theorem clearOpen_effects : it.clearOpen.effects = it.effects := rfl

@[simp] theorem clearClose_shm : it.clearClose.shm = { it.shm with closeButton := 0 } := rfl

@[simp] theorem clearClose_effects : it.clearClose.effects = it.effects := rfl

@[simp] theorem calculateAbsoluteTimeout_shm : it.calculateAbsoluteTimeout.shm = it.shm := rfl

@[simp] theorem calculateAbsoluteTimeout_effects :
    it.calculateAbsoluteTimeout.effects = it.effects ++ [.calculateTimeout] := rfl

@[simp] theorem notifyStatusChange_shm : it.notifyStatusChange.shm = it.shm := rfl

@[simp] theorem notifyStatusChange_effects :
    it.notifyStatusChange.effects = it.effects ++ [.notify] := rfl

@[simp] theorem broadcast_shm : it.broadcast.shm = it.shm := rfl

@[simp] theorem broadcast_effects : it.broadcast.effects = it.effects ++ [.broadcast] := rfl

end Operations

/-! ### Emergency mode -/

def emergencyBroadcast (it : Iteration) : Iteration :=
  if it.shm.closeButton = 1 then
    let it := it.clearClose
    if it.StatusIs .opened then
      it.calculateAbsoluteTimeout.strcpyStatus .closing |>.notifyStatusChange |>.broadcast
    else it
  else if it.shm.openButton = 1 then
    let it := it.clearOpen
    if it.StatusIs .closed then
      it.calculateAbsoluteTimeout.strcpyStatus .opening |>.notifyStatusChange |>.broadcast
    else if it.StatusIs .closing then
      it.calculateAbsoluteTimeout.strcpyStatus .opening |>.notifyStatusChange |>.broadcast
    else it
  else it

def finishMove (it : Iteration) : Iteration :=
  let it := it.moveFloor.strcpyDestination.strcpyStatus .closed |>.notifyStatusChange
  let it :=
    if it.shm.openButton = 1 then it.strcpyStatus .opening |>.notifyStatusChange else it
  it.calculateAbsoluteTimeout.clearOpen.clearClose.broadcast

def finishOpening (it : Iteration) : Iteration :=
  let it := it.clearOpen
  let it :=
    if it.shm.closeButton = 1 then (it.strcpyStatus .closing).clearClose
    else it.strcpyStatus .opened
  it.calculateAbsoluteTimeout.notifyStatusChange.broadcast

def finishClosing (it : Iteration) : Iteration :=
  let it := it.clearClose
  let it :=
    if it.shm.openButton = 1 then (it.strcpyStatus .opening).clearOpen
    else it.strcpyStatus .closed
  it.calculateAbsoluteTimeout.notifyStatusChange.broadcast

/-- `Open` timed out outside normal mode: only the close button moves the doors. -/
def stayOpen (it : Iteration) : Iteration :=
  let it := it.clearOpen
  let it :=
    if it.shm.closeButton = 1 then
      it.clearClose.strcpyStatus .closing |>.notifyStatusChange |>.broadcast
    else it
  it.calculateAbsoluteTimeout

def emergencyTimeout (it : Iteration) : Iteration :=
  if it.StatusIs .between then it.finishMove
  else if it.StatusIs .opening then it.finishOpening
  else if it.StatusIs .closing then it.finishClosing
  else if it.StatusIs .opened then it.stayOpen
  else if it.StatusIs .closed then
    let it := it.clearClose
    let it :=
      if it.shm.openButton = 1 then
        it.clearOpen.strcpyStatus .opening |>.notifyStatusChange |>.broadcast
      else it
    it.calculateAbsoluteTimeout
  else it

/-! ### Individual service mode -/

def serviceBroadcast (it : Iteration) : Iteration :=
  if it.shm.closeButton = 1 then
    let it := it.clearClose
    if it.StatusIs .opened then
      it.calculateAbsoluteTimeout.strcpyStatus .closing |>.notifyStatusChange |>.broadcast
    else it
  else if it.shm.openButton = 1 then
    let it := it.clearOpen
    if it.StatusIs .closed then
      it.calculateAbsoluteTimeout.strcpyStatus .opening |>.notifyStatusChange |>.broadcast
    else if it.StatusIs .closing then
      it.calculateAbsoluteTimeout.strcpyStatus .opening |>.notifyStatusChange |>.broadcast
    else it
  else if ¬ it.FloorsEqual then
    if it.StatusIs .closed then
      it.calculateAbsoluteTimeout.strcpyStatus .between |>.notifyStatusChange
    else it
  else it

def serviceTimeout (it : Iteration) : Iteration :=
  if it.StatusIs .between then it.finishMove
  else if it.StatusIs .opening then it.finishOpening
  else if it.StatusIs .closing then it.finishClosing
  else if it.StatusIs .opened then it.stayOpen
  else if it.StatusIs .closed then
    let it := it.clearClose
    let it :=
      if it.shm.openButton = 1 then
        it.clearOpen.strcpyStatus .opening |>.notifyStatusChange |>.broadcast
      else if ¬ it.FloorsEqual then it.strcpyStatus .between |>.notifyStatusChange
      else it
    it.calculateAbsoluteTimeout
  else it

/-! ### Normal mode -/

def normalBroadcast (it : Iteration) : Iteration :=
  if it.shm.openButton = 1 then
    let it := it.clearOpen
    if it.StatusIs .closed then
      it.calculateAbsoluteTimeout.strcpyStatus .opening |>.notifyStatusChange |>.broadcast
    else if it.StatusIs .closing then
      it.calculateAbsoluteTimeout.strcpyStatus .opening |>.notifyStatusChange |>.broadcast
    else if it.StatusIs .opened then it.calculateAbsoluteTimeout
    else it
  else if it.shm.closeButton = 1 then
    let it := it.clearClose
    if it.StatusIs .opened then
      it.calculateAbsoluteTimeout.strcpyStatus .closing |>.notifyStatusChange |>.broadcast
    else it
  else if ¬ it.FloorsEqual then
    if it.StatusIs .closed then
      it.calculateAbsoluteTimeout.strcpyStatus .between |>.notifyStatusChange |>.broadcast
    else it
  else
    if it.StatusIs .closed then
      it.calculateAbsoluteTimeout.strcpyStatus .opening |>.notifyStatusChange |>.broadcast
    else it

def normalTimeout (it : Iteration) : Iteration :=
  if it.StatusIs .between then
    let it := it.moveFloor.strcpyStatus .closed
    if ¬ it.FloorsEqual then
      it.strcpyStatus .between |>.calculateAbsoluteTimeout |>.notifyStatusChange |>.broadcast
    else
      it.strcpyStatus .opening |>.calculateAbsoluteTimeout |>.notifyStatusChange |>.broadcast
  else if it.StatusIs .closed then
    let it :=
      if it.shm.openButton = 1 then
        it.clearOpen.calculateAbsoluteTimeout.strcpyStatus .opening
          |>.notifyStatusChange |>.broadcast
      else it
    -- not an `else`: the departure is tested after an opening as well
    if ¬ it.FloorsEqual then
      it.calculateAbsoluteTimeout.strcpyStatus .between |>.notifyStatusChange |>.broadcast
    else it
  else if it.StatusIs .opening then
    if it.shm.closeButton = 1 then
      it.clearClose.strcpyStatus .closing |>.calculateAbsoluteTimeout
        |>.notifyStatusChange |>.broadcast
    else
      it.strcpyStatus .opened |>.calculateAbsoluteTimeout |>.notifyStatusChange |>.broadcast
  else if it.StatusIs .opened then
    if it.shm.openButton = 1 then it.clearOpen.calculateAbsoluteTimeout
    else if it.shm.closeButton = 1 then
      it.clearClose.calculateAbsoluteTimeout.strcpyStatus .closing
        |>.notifyStatusChange |>.broadcast
    else
      it.calculateAbsoluteTimeout.strcpyStatus .closing |>.notifyStatusChange |>.broadcast
  else if it.StatusIs .closing then
    if it.shm.openButton = 1 then
      it.clearOpen.strcpyStatus .opening |>.calculateAbsoluteTimeout
        |>.notifyStatusChange |>.broadcast
    else
      let it := it.strcpyStatus .closed |>.calculateAbsoluteTimeout |>.notifyStatusChange
      let it :=
        if ¬ it.FloorsEqual then
          it.strcpyStatus .between |>.notifyStatusChange
            |>.calculateAbsoluteTimeout |>.broadcast
        else it
      it.broadcast
  else it

/-- The statuses are told apart by `strcmp`. -/
theorem not_statusIs {it : Iteration} {status other : Status} (found : it.StatusIs status)
    (differs : status ≠ other) : ¬ it.StatusIs other := by
  intro same
  exact differs (Status.chars_inj.mp (found.symm.trans same))

/-- The handlers of a timeout outside normal mode differ only in what they do with a
closed car. -/
theorem timeout_byStatus {motive : Iteration → Prop} {it atClosed : Iteration}
    (between : it.StatusIs .between → motive it.finishMove)
    (opening : it.StatusIs .opening → motive it.finishOpening)
    (closing : it.StatusIs .closing → motive it.finishClosing)
    (opened : it.StatusIs .opened → motive it.stayOpen)
    (closed : it.StatusIs .closed → motive atClosed) (other : motive it) :
    motive
      (if it.StatusIs .between then it.finishMove
        else if it.StatusIs .opening then it.finishOpening
        else if it.StatusIs .closing then it.finishClosing
        else if it.StatusIs .opened then it.stayOpen
        else if it.StatusIs .closed then atClosed
        else it) := by
  split
  · exact between ‹_›
  split
  · exact opening ‹_›
  split
  · exact closing ‹_›
  split
  · exact opened ‹_›
  split
  · exact closed ‹_›
  · exact other

end Iteration

def elevatorLoop (ret : WaitResult) (shm : CarSharedMem) : Iteration :=
  let it := Iteration.start shm
  if shm.emergencyMode = 1 then
    match ret with
    | .broadcast => it.emergencyBroadcast
    | .timedOut => it.emergencyTimeout
  else if shm.individualServiceMode = 1 then
    match ret with
    | .broadcast => it.serviceBroadcast
    | .timedOut => it.serviceTimeout
  else
    match ret with
    | .broadcast => it.normalBroadcast
    | .timedOut => it.normalTimeout

/-! ### What no handler writes -/

/-- The fields an iteration only reads: the sensors and the two mode flags. -/
def CarSharedMem.readOnly (shm : CarSharedMem) : UInt8 × UInt8 × UInt8 × UInt8 × UInt8 :=
  (shm.doorObstruction, shm.overload, shm.emergencyStop, shm.individualServiceMode,
    shm.emergencyMode)

namespace Iteration

variable {it : Iteration}

theorem finishMove_readOnly : it.finishMove.shm.readOnly = it.shm.readOnly := by
  unfold finishMove
  dsimp only
  split_ifs <;> rfl

theorem finishOpening_readOnly : it.finishOpening.shm.readOnly = it.shm.readOnly := by
  unfold finishOpening
  dsimp only
  split_ifs <;> rfl

theorem finishClosing_readOnly : it.finishClosing.shm.readOnly = it.shm.readOnly := by
  unfold finishClosing
  dsimp only
  split_ifs <;> rfl

theorem stayOpen_readOnly : it.stayOpen.shm.readOnly = it.shm.readOnly := by
  unfold stayOpen
  dsimp only
  split_ifs <;> rfl

theorem emergencyBroadcast_readOnly :
    it.emergencyBroadcast.shm.readOnly = it.shm.readOnly := by
  unfold emergencyBroadcast
  dsimp only
  split_ifs <;> rfl

theorem emergencyTimeout_readOnly : it.emergencyTimeout.shm.readOnly = it.shm.readOnly := by
  apply timeout_byStatus (motive := fun after => after.shm.readOnly = it.shm.readOnly)
  case between => exact fun _ => finishMove_readOnly
  case opening => exact fun _ => finishOpening_readOnly
  case closing => exact fun _ => finishClosing_readOnly
  case opened => exact fun _ => stayOpen_readOnly
  case closed =>
    intro _
    dsimp only
    split_ifs <;> rfl
  case other => rfl

theorem serviceBroadcast_readOnly : it.serviceBroadcast.shm.readOnly = it.shm.readOnly := by
  unfold serviceBroadcast
  dsimp only
  split_ifs <;> rfl

theorem serviceTimeout_readOnly : it.serviceTimeout.shm.readOnly = it.shm.readOnly := by
  apply timeout_byStatus (motive := fun after => after.shm.readOnly = it.shm.readOnly)
  case between => exact fun _ => finishMove_readOnly
  case opening => exact fun _ => finishOpening_readOnly
  case closing => exact fun _ => finishClosing_readOnly
  case opened => exact fun _ => stayOpen_readOnly
  case closed =>
    intro _
    dsimp only
    split_ifs <;> rfl
  case other => rfl

theorem normalBroadcast_readOnly : it.normalBroadcast.shm.readOnly = it.shm.readOnly := by
  unfold normalBroadcast
  dsimp only
  split_ifs <;> rfl

theorem normalTimeout_readOnly : it.normalTimeout.shm.readOnly = it.shm.readOnly := by
  unfold normalTimeout
  dsimp only
  split_ifs <;> rfl

end Iteration

section Modes

variable {ret : WaitResult} {shm : CarSharedMem}

theorem elevatorLoop_of_emergency (emergency : shm.emergencyMode = 1) :
    elevatorLoop ret shm =
      match ret with
      | .broadcast => (Iteration.start shm).emergencyBroadcast
      | .timedOut => (Iteration.start shm).emergencyTimeout := by
  unfold elevatorLoop
  dsimp only
  rw [if_pos emergency]

theorem elevatorLoop_of_service (notEmergency : shm.emergencyMode ≠ 1)
    (service : shm.individualServiceMode = 1) :
    elevatorLoop ret shm =
      match ret with
      | .broadcast => (Iteration.start shm).serviceBroadcast
      | .timedOut => (Iteration.start shm).serviceTimeout := by
  unfold elevatorLoop
  dsimp only
  rw [if_neg notEmergency, if_pos service]

theorem elevatorLoop_of_normal (notEmergency : shm.emergencyMode ≠ 1)
    (notService : shm.individualServiceMode ≠ 1) :
    elevatorLoop ret shm =
      match ret with
      | .broadcast => (Iteration.start shm).normalBroadcast
      | .timedOut => (Iteration.start shm).normalTimeout := by
  unfold elevatorLoop
  dsimp only
  rw [if_neg notEmergency, if_neg notService]

theorem elevatorLoop_readOnly : (elevatorLoop ret shm).shm.readOnly = shm.readOnly := by
  unfold elevatorLoop
  dsimp only
  split
  · cases ret with
    | broadcast => exact Iteration.emergencyBroadcast_readOnly
    | timedOut => exact Iteration.emergencyTimeout_readOnly
  split
  · cases ret with
    | broadcast => exact Iteration.serviceBroadcast_readOnly
    | timedOut => exact Iteration.serviceTimeout_readOnly
  · cases ret with
    | broadcast => exact Iteration.normalBroadcast_readOnly
    | timedOut => exact Iteration.normalTimeout_readOnly

theorem elevatorLoop_emergencyMode :
    (elevatorLoop ret shm).shm.emergencyMode = shm.emergencyMode :=
  congrArg (fun fields => fields.2.2.2.2) elevatorLoop_readOnly

theorem elevatorLoop_individualServiceMode :
    (elevatorLoop ret shm).shm.individualServiceMode = shm.individualServiceMode :=
  congrArg (fun fields => fields.2.2.2.1) elevatorLoop_readOnly

end Modes

end Cab403.Elevator
