/-
A car on its own in normal mode: timeouts and nothing else. It moves by floor numbers
and arrives by floor strings, so it reaches a destination that is spelled as the car
prints it, and no other.
-/

import Cab403.Elevator.CallMessage
import Cab403.Elevator.LoopMoves

namespace Cab403.Elevator

open CText

def timeoutStep (shm : CarSharedMem) : CarSharedMem := (elevatorLoop .timedOut shm).shm

structure Arrived (shm : CarSharedMem) : Prop where
  opening : shm.status = Status.opening.chars
  same : shm.currentFloor = shm.destinationFloor

def distance (shm : CarSharedMem) : Nat :=
  (floorStrToInt shm.destinationFloor - floorStrToInt shm.currentFloor).natAbs

/-- The string that `floor_int_to_str` prints for its number. -/
def Canonical (floor : CharArray 4) : Prop := floorIntToStr (floorStrToInt floor) = floor

instance (floor : CharArray 4) : Decidable (Canonical floor) := inferInstanceAs (Decidable (_ = _))

structure LeftAlone (shm : CarSharedMem) : Prop where
  notEmergency : shm.emergencyMode ≠ 1
  notService : shm.individualServiceMode ≠ 1
  openButton : shm.openButton = 0
  closeButton : shm.closeButton = 0

structure HasTrip (shm : CarSharedMem) : Prop extends LeftAlone shm where
  status : ∃ status : Status, shm.status = status.chars
  current : ValidFloor shm.currentFloor
  accepted : CallTool.validateFloorInput shm.destinationFloor.text = true
  short : shm.destinationFloor.text.length ≤ 3
  apart : floorStrToInt shm.currentFloor ≠ floorStrToInt shm.destinationFloor

/-! ### Canonical floors -/

theorem canonical_of_validFloor {floor : CharArray 4} (valid : ValidFloor floor) :
    Canonical floor :=
  ((validFloor_iff floor).mp valid).2

theorem Canonical.terminated {floor : CharArray 4} (canonical : Canonical floor) :
    floor.Terminated := by
  rw [← canonical]
  exact floorIntToStr_terminated _

theorem canonical_floorIntToStr {number : Int} (low : -99 ≤ number) (high : number ≤ 999) :
    Canonical (floorIntToStr number) :=
  congrArg floorIntToStr (floorStrToInt_floorIntToStr low high)

theorem Canonical.eq_of_number {left right : CharArray 4} (canonical : Canonical left)
    (other : Canonical right) (same : floorStrToInt left = floorStrToInt right) : left = right := by
  rw [← canonical, same]
  exact other

section Moves

variable {current destination : CharArray 4}

theorem Canonical.moveFloor (canonical : Canonical current) (terminated : destination.Terminated) :
    Canonical (moveFloor current destination) := by
  have bounds := floorStrToInt_bounds canonical.terminated
  have targetBounds := floorStrToInt_bounds terminated
  unfold Elevator.moveFloor
  dsimp only
  split
  · exact canonical_floorIntToStr (by omega) (by omega)
  · split
    · exact canonical_floorIntToStr (by omega) (by omega)
    · exact canonical

/-- A move brings the car one floor closer. -/
theorem moveFloor_closer (canonical : Canonical current) (terminated : destination.Terminated)
    (apart : floorStrToInt current ≠ floorStrToInt destination) :
    (floorStrToInt destination - floorStrToInt (moveFloor current destination)).natAbs + 1 =
      (floorStrToInt destination - floorStrToInt current).natAbs := by
  have bounds := floorStrToInt_bounds canonical.terminated
  have targetBounds := floorStrToInt_bounds terminated
  unfold Elevator.moveFloor
  dsimp only
  split
  · rw [floorStrToInt_floorIntToStr (by omega) (by omega)]
    omega
  · rw [if_pos (by omega), floorStrToInt_floorIntToStr (by omega) (by omega)]
    omega

end Moves

/-! ### One timeout -/

section Step

variable {shm : CarSharedMem}

theorem timeoutStep_eq (leftAlone : LeftAlone shm) :
    timeoutStep shm = (Iteration.start shm).normalTimeout.shm := by
  rw [timeoutStep, elevatorLoop_of_normal leftAlone.notEmergency leftAlone.notService]

theorem timeoutStep_between (leftAlone : LeftAlone shm)
    (between : shm.status = Status.between.chars) :
    timeoutStep shm =
      { shm with
        currentFloor := moveFloor shm.currentFloor shm.destinationFloor
        status :=
          if moveFloor shm.currentFloor shm.destinationFloor = shm.destinationFloor then
            Status.opening.chars
          else Status.between.chars } := by
  have moving : (Iteration.start shm).StatusIs .between := between
  rw [timeoutStep_eq leftAlone, Iteration.normalTimeout, if_pos moving]
  by_cases same : moveFloor shm.currentFloor shm.destinationFloor = shm.destinationFloor
  · rw [if_pos same]
    exact congrArg Iteration.shm (if_neg (not_not_intro same))
  · rw [if_neg same]
    exact congrArg Iteration.shm (if_pos same)

def nextStatus : Status → Status
  | .opening => .opened
  | .opened => .closing
  | .closing | .closed | .between => .between

theorem timeoutStep_waiting (leftAlone : LeftAlone shm)
    (apart : shm.currentFloor ≠ shm.destinationFloor) {status : Status}
    (found : shm.status = status.chars) (waiting : status ≠ .between) :
    timeoutStep shm = { shm with status := (nextStatus status).chars } := by
  have noOpen : shm.openButton ≠ 1 := by
    rw [leftAlone.openButton]
    decide
  have noClose : shm.closeButton ≠ 1 := by
    rw [leftAlone.closeButton]
    decide
  rw [timeoutStep_eq leftAlone]
  cases status with
  | between => exact absurd rfl waiting
  | opening | opened | closing | closed =>
      simp [Iteration.normalTimeout, Iteration.StatusIs, Iteration.FloorsEqual, found, apart,
        noOpen, noClose, nextStatus]

end Step

/-! ### Reaching the destination -/

section Reaches

variable {shm : CarSharedMem}

/-- A car on the way arrives after as many timeouts as there are floors to go. -/
theorem arrives_from_between (floors : Nat) (leftAlone : LeftAlone shm)
    (between : shm.status = Status.between.chars) (current : Canonical shm.currentFloor)
    (destination : Canonical shm.destinationFloor) (away : distance shm = floors + 1) :
    Arrived (timeoutStep^[floors + 1] shm) := by
  induction floors generalizing shm with
  | zero =>
      have apart : floorStrToInt shm.currentFloor ≠ floorStrToInt shm.destinationFloor := by
        unfold distance at away
        omega
      have closer := moveFloor_closer current destination.terminated apart
      have same : moveFloor shm.currentFloor shm.destinationFloor = shm.destinationFloor := by
        apply (current.moveFloor destination.terminated).eq_of_number destination
        unfold distance at away
        omega
      rw [Function.iterate_one, timeoutStep_between leftAlone between, if_pos same]
      exact ⟨rfl, same⟩
  | succ floors ih =>
      have apart : floorStrToInt shm.currentFloor ≠ floorStrToInt shm.destinationFloor := by
        unfold distance at away
        omega
      have closer := moveFloor_closer current destination.terminated apart
      have further : moveFloor shm.currentFloor shm.destinationFloor ≠ shm.destinationFloor := by
        intro same
        unfold distance at away
        rw [same] at closer
        omega
      rw [Function.iterate_succ_apply, timeoutStep_between leftAlone between, if_neg further]
      apply ih
      · exact { leftAlone with }
      · rfl
      · exact current.moveFloor destination.terminated
      · exact destination
      · unfold distance at away ⊢
        dsimp only
        omega

def waits : Status → Nat
  | .opening => 3
  | .opened => 2
  | .closing | .closed => 1
  | .between => 0

theorem waits_nextStatus {status : Status} (waiting : status ≠ .between) :
    waits (nextStatus status) + 1 = waits status := by
  cases status with
  | between => exact absurd rfl waiting
  | opening | opened | closing | closed => rfl

theorem departs_after_waits (count : Nat) (leftAlone : LeftAlone shm)
    (apart : shm.currentFloor ≠ shm.destinationFloor) {status : Status}
    (found : shm.status = status.chars) (counted : waits status = count) :
    timeoutStep^[count] shm = { shm with status := Status.between.chars } := by
  induction count generalizing shm status with
  | zero =>
      have moving : status = .between := by
        cases status with
        | between => rfl
        | opening | opened | closing | closed => cases counted
      rw [moving] at found
      rw [Function.iterate_zero_apply, ← found]
  | succ count ih =>
      have waiting : status ≠ .between := by
        rintro rfl
        cases counted
      have left := waits_nextStatus waiting
      rw [Function.iterate_succ_apply, timeoutStep_waiting leftAlone apart found waiting]
      exact ih { leftAlone with } apart rfl (by omega)

theorem arrives_of_canonical (trip : HasTrip shm) (canonical : Canonical shm.destinationFloor) :
    ∃ steps, steps ≤ distance shm + 4 ∧ Arrived (timeoutStep^[steps] shm) := by
  obtain ⟨status, found⟩ := trip.status
  obtain ⟨floors, away⟩ : ∃ floors, distance shm = floors + 1 := by
    have apart := trip.apart
    refine ⟨distance shm - 1, ?_⟩
    unfold distance
    omega
  have apart : shm.currentFloor ≠ shm.destinationFloor :=
    fun same => trip.apart (congrArg floorStrToInt same)
  have few : waits status ≤ 4 := by cases status <;> decide
  refine ⟨floors + 1 + waits status, by omega, ?_⟩
  rw [Function.iterate_add_apply, departs_after_waits _ trip.toLeftAlone apart found rfl]
  exact arrives_from_between floors { trip.toLeftAlone with } rfl
    (canonical_of_validFloor trip.current) canonical away

/-! ### Only a canonical destination is reached -/

/-- The car keeps to canonical floors and to its destination. -/
structure OnTheWay (destination : CharArray 4) (shm : CarSharedMem) : Prop where
  notEmergency : shm.emergencyMode ≠ 1
  notService : shm.individualServiceMode ≠ 1
  current : Canonical shm.currentFloor
  destination : shm.destinationFloor = destination

theorem normalTimeout_destination (it : Iteration) :
    it.normalTimeout.shm.destinationFloor = it.shm.destinationFloor := by
  unfold Iteration.normalTimeout
  dsimp only
  split_ifs <;> rfl

theorem OnTheWay.timeoutStep {destination : CharArray 4} (terminated : destination.Terminated)
    (onTheWay : OnTheWay destination shm) : OnTheWay destination (timeoutStep shm) := by
  have normal := @elevatorLoop_of_normal .timedOut shm onTheWay.notEmergency onTheWay.notService
  constructor
  case notEmergency =>
    rw [Elevator.timeoutStep, elevatorLoop_emergencyMode]
    exact onTheWay.notEmergency
  case notService =>
    rw [Elevator.timeoutStep, elevatorLoop_individualServiceMode]
    exact onTheWay.notService
  case current =>
    cases elevatorLoop_floors .timedOut shm with
    | stays current _ =>
        rw [Elevator.timeoutStep, current]
        exact onTheWay.current
    | moves _ _ current _ =>
        rw [Elevator.timeoutStep, current]
        rw [← onTheWay.destination] at terminated
        exact onTheWay.current.moveFloor terminated
  case destination =>
    rw [Elevator.timeoutStep, normal]
    exact (normalTimeout_destination _).trans onTheWay.destination

theorem OnTheWay.iterate {destination : CharArray 4} (terminated : destination.Terminated)
    (steps : Nat) (onTheWay : OnTheWay destination shm) :
    OnTheWay destination (Elevator.timeoutStep^[steps] shm) := by
  induction steps with
  | zero => exact onTheWay
  | succ steps ih =>
      rw [Function.iterate_succ_apply']
      exact ih.timeoutStep terminated

theorem canonical_of_arrives (trip : HasTrip shm) {steps : Nat}
    (arrived : Arrived (timeoutStep^[steps] shm)) : Canonical shm.destinationFloor := by
  have terminated : shm.destinationFloor.Terminated := Nat.lt_succ_of_le trip.short
  have departed : OnTheWay shm.destinationFloor shm :=
    { notEmergency := trip.notEmergency
      notService := trip.notService
      current := canonical_of_validFloor trip.current
      destination := rfl }
  have reached := departed.iterate terminated steps
  have same := arrived.same
  rw [reached.destination] at same
  rw [← same]
  exact reached.current

end Reaches

/-- Left alone, a car with a trip reaches its destination within the floors to go and four
timeouts more, exactly if the destination is spelled as the car prints it. -/
theorem destination_reached_iff (shm : CarSharedMem) (trip : HasTrip shm) :
    (∃ steps, steps ≤ distance shm + 4 ∧ Arrived (timeoutStep^[steps] shm)) ↔
      floorIntToStr (floorStrToInt shm.destinationFloor) = shm.destinationFloor := by
  constructor
  · intro reached
    obtain ⟨steps, _, arrived⟩ := reached
    exact canonical_of_arrives trip arrived
  · intro canonical
    exact arrives_of_canonical trip canonical

def closedAtOne (destination : CharArray 4) : CarSharedMem :=
  { resetShm (digitFloor 1).chars with destinationFloor := destination }

theorem destination_reached_three :
    (∃ steps, steps ≤ distance (closedAtOne (digitFloor 3).chars) + 4 ∧
        Arrived (timeoutStep^[steps] (closedAtOne (digitFloor 3).chars))) ↔
      floorIntToStr (floorStrToInt (digitFloor 3).chars) = (digitFloor 3).chars :=
  destination_reached_iff (closedAtOne (digitFloor 3).chars)
    ⟨⟨by decide, by decide, rfl, rfl⟩, ⟨.closed, rfl⟩, by decide, by decide, by decide, by decide⟩

/-- The destination `05` is accepted and never reached. -/
theorem destination_missed_zeroFive :
    ¬ ∀ shm, HasTrip shm →
      ∃ steps, steps ≤ distance shm + 4 ∧ Arrived (timeoutStep^[steps] shm) := by
  intro always
  have trip : HasTrip (closedAtOne ⟨bytes "05", by decide, by decide⟩) :=
    ⟨⟨by decide, by decide, rfl, rfl⟩, ⟨.closed, rfl⟩, by decide, by decide, by decide, by decide⟩
  obtain ⟨steps, _, arrived⟩ := always _ trip
  exact absurd (canonical_of_arrives trip arrived) (by decide)

end Cab403.Elevator
