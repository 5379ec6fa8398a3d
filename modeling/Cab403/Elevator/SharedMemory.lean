/-
The shared memory of one car, less its mutex and condition variable: every
access of the programs is made under the mutex, so the models take one critical
section as one step and keep only the data.
-/

import Cab403.Library.CText

namespace Cab403.Elevator

open CText

inductive Status where
  | opening
  | opened
  | closing
  | closed
  | between
  deriving DecidableEq, Repr

def Status.text : Status → List UInt8
  | .opening => bytes "Opening"
  | .opened => bytes "Open"
  | .closing => bytes "Closing"
  | .closed => bytes "Closed"
  | .between => bytes "Between"

def Status.chars (status : Status) : CharArray 8 :=
  { text := status.text
    noNul := by cases status <;> decide
    fits := by cases status <;> decide }

theorem Status.text_injective {left right : Status} (same : left.text = right.text) :
    left = right := by
  revert same
  cases left <;> cases right <;> decide

@[simp] theorem Status.chars_inj {left right : Status} :
    left.chars = right.chars ↔ left = right := by
  constructor
  · intro same
    exact Status.text_injective (congrArg CharArray.text same)
  · rintro rfl
    rfl

structure CarSharedMem where
  currentFloor : CharArray 4
  destinationFloor : CharArray 4
  status : CharArray 8
  openButton : UInt8
  closeButton : UInt8
  doorObstruction : UInt8
  overload : UInt8
  emergencyStop : UInt8
  individualServiceMode : UInt8
  emergencyMode : UInt8
  deriving DecidableEq

/-- `reset_shm`: everything zero, then `Closed` and both floors at `floor`. The NUL that
`strcpy` writes behind a floor of four characters falls on the status. -/
def resetShm (floor : CharArray 4) : CarSharedMem :=
  { currentFloor := floor
    destinationFloor := floor
    status := if floor.Terminated then Status.closed.chars else CharArray.empty 8
    openButton := 0
    closeButton := 0
    doorObstruction := 0
    overload := 0
    emergencyStop := 0
    individualServiceMode := 0
    emergencyMode := 0 }

theorem resetShm_status {floor : CharArray 4} (terminated : floor.Terminated) :
    (resetShm floor).status = Status.closed.chars :=
  if_pos terminated

end Cab403.Elevator
