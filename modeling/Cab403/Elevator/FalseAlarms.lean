/-
What makes the safety monitor report inconsistent data. Of the eleven conditions of its
last check the car, its connection thread and the service tool can meet only those on the
two floors; the others need a sensor. Without a stop, a sensor or a floor that is none,
no car is ever in emergency mode.
-/

import Cab403.Elevator.ServiceRecovery

namespace Cab403.Elevator

open CText ActionRuns Safety

/-! ### One iteration of the loop -/

namespace Iteration

variable {it : Iteration}

theorem emergencyBroadcast_buttons : ButtonsKept it.shm it.emergencyBroadcast.shm := by
  unfold emergencyBroadcast ButtonsKept
  dsimp only
  split_ifs <;> simp

theorem emergencyTimeout_buttons : ButtonsKept it.shm it.emergencyTimeout.shm := by
  apply timeout_byStatus (motive := fun after => ButtonsKept it.shm after.shm)
  case between => exact fun _ => finishMove_buttons
  case opening => exact fun _ => finishOpening_buttons
  case closing => exact fun _ => finishClosing_buttons
  case opened => exact fun _ => stayOpen_buttons
  case closed =>
    intro _
    dsimp only
    split_ifs <;> simp [ButtonsKept]
  case other => simp [ButtonsKept]

theorem normalBroadcast_buttons : ButtonsKept it.shm it.normalBroadcast.shm := by
  unfold normalBroadcast ButtonsKept
  dsimp only
  split_ifs <;> simp

theorem normalTimeout_buttons : ButtonsKept it.shm it.normalTimeout.shm := by
  unfold normalTimeout ButtonsKept
  dsimp only
  split_ifs <;> simp

theorem normalTimeout_status (found : ∃ status : Status, it.shm.status = status.chars) :
    ∃ status : Status, it.normalTimeout.shm.status = status.chars := by
  unfold normalTimeout
  dsimp only
  split_ifs <;> simp [found]

end Iteration

theorem elevatorLoop_buttons (ret : WaitResult) (shm : CarSharedMem) :
    ButtonsKept shm (elevatorLoop ret shm).shm := by
  by_cases emergency : shm.emergencyMode = 1
  · rw [elevatorLoop_of_emergency emergency]
    cases ret with
    | broadcast => exact Iteration.emergencyBroadcast_buttons
    | timedOut => exact Iteration.emergencyTimeout_buttons
  · by_cases service : shm.individualServiceMode = 1
    · rw [elevatorLoop_of_service emergency service]
      cases ret with
      | broadcast => exact Iteration.serviceBroadcast_buttons
      | timedOut => exact Iteration.serviceTimeout_buttons
    · rw [elevatorLoop_of_normal emergency service]
      cases ret with
      | broadcast => exact Iteration.normalBroadcast_buttons
      | timedOut => exact Iteration.normalTimeout_buttons

theorem elevatorLoop_status (ret : WaitResult) {shm : CarSharedMem}
    (found : ∃ status : Status, shm.status = status.chars) :
    ∃ status : Status, (elevatorLoop ret shm).shm.status = status.chars := by
  by_cases departs : OpensAndDeparts ret shm
  · obtain ⟨notEmergency, notService, rfl, _⟩ := departs
    rw [elevatorLoop_of_normal notEmergency notService]
    exact Iteration.normalTimeout_status found
  · obtain ⟨status, held⟩ := found
    exact ⟨_, (elevatorLoop_lawful held departs).held⟩

/-! ### The last check of a pass -/

def consistencyAlarm : List UInt8 := bytes "Data consistency error!\n"

theorem alarm_iff_inconsistent (shm : CarSharedMem) :
    consistencyAlarm ∈ (monitorPass shm).written ↔
      shm.emergencyMode ≠ 1 ∧ ¬ (shm.emergencyStop = 1 ∧ shm.emergencyMode = 0) ∧
        ¬ (shm.overload = 1 ∧ shm.emergencyMode = 0) ∧
        Inconsistent (checkObstruction ⟨shm, []⟩).shm := by
  obtain ⟨status, turned⟩ : ∃ status,
      checkObstruction ⟨shm, []⟩ = ⟨{ shm with status := status }, []⟩ := by
    unfold checkObstruction
    split
    · exact ⟨_, rfl⟩
    · exact ⟨shm.status, rfl⟩
  have stopOther : consistencyAlarm ≠ bytes "The emergency stop button has been pressed!\n" := by
    decide
  have overloadOther : consistencyAlarm ≠ bytes "The overload sensor has been tripped!\n" := by
    decide
  unfold monitorPass
  rw [turned]
  by_cases stop : shm.emergencyStop = 1 ∧ shm.emergencyMode = 0
  · simp [checkEmergencyStop, checkOverload, checkConsistency, stop, stopOther]
  · by_cases overload : shm.overload = 1 ∧ shm.emergencyMode = 0
    · rw [checkEmergencyStop, if_neg stop, checkOverload, if_pos overload, checkConsistency,
        if_neg (fun found => found.1 rfl)]
      simp [overload, overloadOther]
    · simp only [checkEmergencyStop, checkOverload, checkConsistency, if_neg stop,
        if_neg overload]
      split
      · rename_i found
        simpa [consistencyAlarm, stop, overload] using found
      · rename_i quiet
        simpa [stop, overload] using quiet

/-- What the car's own programs never break: the status is one of the five, and every flag
that is no sensor is 0 or 1. -/
structure Tidy (shm : CarSharedMem) : Prop where
  status : ∃ status : Status, shm.status = status.chars
  openButton : ¬ shm.openButton > 1
  closeButton : ¬ shm.closeButton > 1
  emergencyStop : ¬ shm.emergencyStop > 1
  individualServiceMode : ¬ shm.individualServiceMode > 1
  emergencyMode : ¬ shm.emergencyMode > 1

inductive AlarmCause (shm : CarSharedMem) : Prop
  | currentFloor (noFloor : ¬ Numeric shm.currentFloor.text)
  | destinationFloor (noFloor : ¬ Numeric shm.destinationFloor.text)
  | sensor (outside : shm.doorObstruction > 1 ∨ shm.overload > 1)
  | obstructed (obstruction : shm.doorObstruction = 1)
      (notOpening : shm.status ≠ Status.opening.chars)
      (notClosing : shm.status ≠ Status.closing.chars)

theorem inconsistent_iff_cause {shm : CarSharedMem} (tidy : Tidy shm) :
    Inconsistent (checkObstruction ⟨shm, []⟩).shm ↔ AlarmCause shm := by
  obtain ⟨status, openButton, closeButton, stop, service, emergency⟩ := tidy
  have objects {found : CharArray 8} (known : ∃ status : Status, found = status.chars) :
      Inconsistent { shm with status := found } ↔
        ¬ Numeric shm.currentFloor.text ∨ ¬ Numeric shm.destinationFloor.text ∨
          (shm.doorObstruction > 1 ∨ shm.overload > 1) ∨
          (shm.doorObstruction = 1 ∧ ¬ (found = Status.opening.chars ∨
            found = Status.closing.chars)) := by
    simp only [Inconsistent, ← Bool.not_eq_true, validateFloorInput_iff, validateStatus_iff,
      safeStrcmp_status, known, not_true_eq_false, openButton, closeButton, stop, service,
      emergency, false_or, or_assoc]
  unfold checkObstruction
  split
  · rename_i turned
    rw [safeStrcmp_status] at turned
    have opening := objects ⟨Status.opening, safeStrncpy_opening⟩
    rw [opening, safeStrncpy_opening]
    constructor
    · rintro (current | destination | sensor | ⟨_, neither⟩)
      · exact .currentFloor current
      · exact .destinationFloor destination
      · exact .sensor sensor
      · exact absurd (Or.inl rfl) neither
    · intro cause
      cases cause with
      | currentFloor noFloor => exact Or.inl noFloor
      | destinationFloor noFloor => exact Or.inr (Or.inl noFloor)
      | sensor outside => exact Or.inr (Or.inr (Or.inl outside))
      | obstructed _ _ notClosing => exact absurd turned.2 notClosing
  · have same := objects status
    rw [show { shm with status := shm.status } = shm from rfl] at same
    rw [same]
    constructor
    · rintro (current | destination | sensor | ⟨obstruction, neither⟩)
      · exact .currentFloor current
      · exact .destinationFloor destination
      · exact .sensor sensor
      · rw [not_or] at neither
        exact .obstructed obstruction neither.1 neither.2
    · intro cause
      cases cause with
      | currentFloor noFloor => exact Or.inl noFloor
      | destinationFloor noFloor => exact Or.inr (Or.inl noFloor)
      | sensor outside => exact Or.inr (Or.inr (Or.inl outside))
      | obstructed obstruction notOpening notClosing =>
          exact Or.inr (Or.inr (Or.inr ⟨obstruction, not_or.mpr ⟨notOpening, notClosing⟩⟩))

/-! ### Every step keeps the memory tidy -/

section Steps

variable {shm : CarSharedMem} {state next : CarSystem} {action : CarAction}

theorem Tidy.loop (tidy : Tidy shm) (ret : WaitResult) : Tidy (elevatorLoop ret shm).shm := by
  have readOnly : (elevatorLoop ret shm).shm.readOnly = shm.readOnly := elevatorLoop_readOnly
  simp only [CarSharedMem.readOnly, Prod.mk.injEq] at readOnly
  obtain ⟨_, _, stop, service, emergency⟩ := readOnly
  have buttons := elevatorLoop_buttons ret shm
  exact
    { status := elevatorLoop_status ret tidy.status
      openButton := buttons.open tidy.openButton
      closeButton := buttons.close tidy.closeButton
      emergencyStop := by rw [stop]; exact tidy.emergencyStop
      individualServiceMode := by rw [service]; exact tidy.individualServiceMode
      emergencyMode := by rw [emergency]; exact tidy.emergencyMode }

theorem monitorPass_emergencyMode (shm : CarSharedMem) :
    (monitorPass shm).shm.emergencyMode = shm.emergencyMode ∨
      (monitorPass shm).shm.emergencyMode = 1 := by
  unfold monitorPass checkConsistency checkOverload checkEmergencyStop checkObstruction
  split_ifs <;> simp

theorem Tidy.monitorPass (tidy : Tidy shm) : Tidy (Safety.monitorPass shm).shm := by
  have frame := monitorPass_frame shm
  have status : ∃ status : Status, (Safety.monitorPass shm).shm.status = status.chars := by
    rcases monitorPass_status shm with same | ⟨_, opening⟩
    · rw [same]
      exact tidy.status
    · exact ⟨.opening, opening⟩
  have emergency : ¬ (Safety.monitorPass shm).shm.emergencyMode > 1 := by
    rcases monitorPass_emergencyMode shm with same | raised
    · rw [same]
      exact tidy.emergencyMode
    · rw [raised]
      decide
  rw [frame]
  exact { tidy with status := status, emergencyMode := emergency }

theorem Tidy.operate (tidy : Tidy shm) {operation : Operation} {after : CarSharedMem}
    (stored : operate operation shm = .stored after) : Tidy after := by
  have one : ¬ (1 : UInt8) > 1 := by decide
  have zero : ¬ (0 : UInt8) > 1 := by decide
  cases operation with
  | openDoors =>
      cases stored
      exact { tidy with openButton := one }
  | closeDoors =>
      cases stored
      exact { tidy with closeButton := one }
  | stop =>
      cases stored
      exact { tidy with emergencyStop := one }
  | serviceOn =>
      cases stored
      exact { tidy with individualServiceMode := one, emergencyMode := zero }
  | serviceOff =>
      cases stored
      exact { tidy with individualServiceMode := zero }
  | up | down =>
      obtain ⟨_, _, rfl⟩ := operateMove_stored stored
      exact { tidy with }

theorem tidy_step (tidy : Tidy state.car.shm) (taken : carStep state action = some next) :
    Tidy next.car.shm := by
  cases action with
  | loop ret =>
      obtain ⟨_, rfl⟩ := of_guarded taken
      exact tidy.loop ret
  | connect | disconnect | pollTimeout | pollReady _ | readNotify | send _ | deliver _ =>
      obtain ⟨_, rfl⟩ := of_guarded taken
      exact tidy
  | connectionTop =>
      obtain ⟨_, rfl⟩ := of_guarded taken
      rw [CarProcess.connectionTop_shm]
      unfold CarProcess.applyPending
      split
      · exact { tidy with }
      · exact tidy
  | receive =>
      obtain ⟨_, _, _, _, _, rfl⟩ := carStep_receive taken
      exact tidy
  | operate operation =>
      rcases carStep_operate taken with ⟨shm, stored, rfl⟩ | ⟨_, rfl⟩
      · exact tidy.operate stored
      · exact tidy
  | sensors doorObstruction overload =>
      cases taken
      exact { tidy with }
  | monitor =>
      cases taken
      exact tidy.monitorPass

theorem tidy_start {lowestFloor : CharArray 4} (terminated : lowestFloor.Terminated) :
    Tidy (CarSystem.start lowestFloor).car.shm := by
  have zero : ¬ (0 : UInt8) > 1 := by decide
  exact ⟨⟨.closed, resetShm_status terminated⟩, zero, zero, zero, zero, zero⟩

end Steps

/-- In every state that the car's programs, its sensors and any messages reach, a pass of
the monitor reports inconsistent data exactly for a floor that is none, a sensor that is
neither 0 nor 1, or an obstruction at doors that neither open nor close. (A car that was
started at a floor of four characters has no status, which the monitor reports as well.) -/
theorem consistency_alarm_iff (lowestFloor : CharArray 4) (terminated : lowestFloor.Terminated)
    (actions : List CarAction) (reached : CarSystem)
    (ran : run carStep (CarSystem.start lowestFloor) actions = some reached) :
    consistencyAlarm ∈ (monitorPass reached.car.shm).written ↔
      reached.car.shm.emergencyMode = 0 ∧ reached.car.shm.emergencyStop = 0 ∧
        reached.car.shm.overload ≠ 1 ∧ AlarmCause reached.car.shm := by
  have tidy : Tidy reached.car.shm := by
    refine @invariant_run_always CarSystem CarAction carStep (fun state => Tidy state.car.shm)
      (fun _ _ _ held taken => tidy_step held taken) _ _ _ (tidy_start terminated) ran
  rw [alarm_iff_inconsistent, inconsistent_iff_cause tidy]
  constructor
  · rintro ⟨notEmergency, noStop, noOverload, cause⟩
    have quiet := flag_eq_zero tidy.emergencyMode notEmergency
    exact ⟨quiet, flag_eq_zero tidy.emergencyStop fun stop => noStop ⟨stop, quiet⟩,
      fun overload => noOverload ⟨overload, quiet⟩, cause⟩
  · rintro ⟨quiet, noStop, noOverload, cause⟩
    refine ⟨?_, ?_, fun found => noOverload found.1, cause⟩
    · rw [quiet]
      decide
    · rw [noStop]
      exact fun found => absurd found.1 (by decide)

def sentToPlusFive : List CarAction :=
  [.connect, .send true, .send true, .connectionTop, .deliver ⟨bytes "FLOOR +5", by decide⟩,
    .pollReady true, .receive, .connectionTop]

/-- The monitor does not take `+5` for a floor. -/
theorem consistency_alarm_plusFive :
    consistencyAlarm ∈
      (monitorPass ((run carStep (CarSystem.start (digitFloor 1).chars) sentToPlusFive).get
        (by decide)).car.shm).written :=
  (consistency_alarm_iff (digitFloor 1).chars (by decide) sentToPlusFive _
    (Option.some_get _).symm).mpr
    ⟨by decide, by decide, by decide,
      .destinationFloor ((validateFloorInput_iff _).not.mp (by decide))⟩

/-! ### Emergencies have a cause -/

def Raises : CarAction → Prop
  | .operate .stop => True
  | .sensors doorObstruction overload => doorObstruction ≠ 0 ∨ overload ≠ 0
  | _ => False

/-- The floors of messages are digits, possibly behind a `B`, and neither `up` at `B0` nor
`down` at `0` is accepted. -/
def NumericTraffic (state : CarSystem) : CarAction → Prop
  | .deliver message => ∀ floor, floorMessage? message.text = some floor → Numeric floor.text
  | .operate .up =>
      state.car.shm.status = Status.closed.chars → ¬ BesideZero state.car.shm.currentFloor True
  | .operate .down =>
      state.car.shm.status = Status.closed.chars → ¬ BesideZero state.car.shm.currentFloor False
  | _ => True

structure Calm (state : CarSystem) : Prop where
  tidy : Tidy state.car.shm
  emergencyMode : state.car.shm.emergencyMode = 0
  emergencyStop : state.car.shm.emergencyStop = 0
  doorObstruction : state.car.shm.doorObstruction = 0
  overload : state.car.shm.overload = 0
  floors : FloorsSatisfy NumericFloor state

section Calmness

variable {shm : CarSharedMem} {state next : CarSystem} {action : CarAction}

theorem supplies_numeric (floors : FloorsSatisfy NumericFloor state)
    (traffic : NumericTraffic state action) : Supplies NumericFloor state action := by
  cases action with
  | loop ret => exact fun _ _ => floors.current.moveFloor floors.destination
  | deliver message => exact fun floor named => ⟨traffic floor named, floor.chars_terminated⟩
  | operate operation =>
      intro shm stored
      cases operation with
      | up =>
          obtain ⟨_, closed, rfl⟩ := operateMove_stored stored
          exact floors.current.above (traffic closed)
      | down =>
          obtain ⟨_, closed, rfl⟩ := operateMove_stored stored
          exact floors.current.below (traffic closed)
      | openDoors | closeDoors | stop | serviceOn | serviceOff =>
          cases stored
          exact floors.destination
  | connect | disconnect | connectionTop | pollTimeout | receive | readNotify | monitor => trivial
  | pollReady _ | send _ | sensors _ _ => trivial

/-- The monitor leaves calm memory as it is. -/
theorem Calm.monitorPass (calm : Calm state) :
    (Safety.monitorPass state.car.shm).shm = state.car.shm := by
  have consistent : ¬ Inconsistent (checkObstruction ⟨state.car.shm, []⟩).shm := by
    rw [inconsistent_iff_cause calm.tidy]
    intro cause
    cases cause with
    | currentFloor noFloor => exact noFloor calm.floors.current.numeric
    | destinationFloor noFloor => exact noFloor calm.floors.destination.numeric
    | sensor outside =>
        rw [calm.doorObstruction, calm.overload] at outside
        exact absurd outside (by decide)
    | obstructed obstruction _ _ =>
        rw [calm.doorObstruction] at obstruction
        exact absurd obstruction (by decide)
  have noObstruction : ¬ (state.car.shm.doorObstruction = 1 ∧
      safeStrcmp state.car.shm.status.text Status.closing.text 8 = true) := by
    rw [calm.doorObstruction]
    exact fun found => absurd found.1 (by decide)
  have noStop : ¬ (state.car.shm.emergencyStop = 1 ∧ state.car.shm.emergencyMode = 0) := by
    rw [calm.emergencyStop]
    exact fun found => absurd found.1 (by decide)
  have noOverload : ¬ (state.car.shm.overload = 1 ∧ state.car.shm.emergencyMode = 0) := by
    rw [calm.overload]
    exact fun found => absurd found.1 (by decide)
  rw [checkObstruction, if_neg noObstruction] at consistent
  unfold Safety.monitorPass
  rw [checkObstruction, if_neg noObstruction, checkEmergencyStop, if_neg noStop, checkOverload,
    if_neg noOverload, checkConsistency, if_neg fun found => consistent found.2]

theorem calm_step (calm : Calm state) (quiet : ¬ Raises action)
    (traffic : NumericTraffic state action) (taken : carStep state action = some next) :
    Calm next := by
  have tidy := tidy_step calm.tidy taken
  have floors := floorsSatisfy_step calm.floors (supplies_numeric calm.floors traffic) taken
  have unchanged := calm.monitorPass
  obtain ⟨_, emergencyMode, emergencyStop, doorObstruction, overload, _⟩ := calm
  cases action with
  | loop ret =>
      obtain ⟨_, rfl⟩ := of_guarded taken
      have readOnly : (elevatorLoop ret state.car.shm).shm.readOnly = state.car.shm.readOnly :=
        elevatorLoop_readOnly
      simp only [CarSharedMem.readOnly, Prod.mk.injEq] at readOnly
      obtain ⟨obstruction, load, stop, _, emergency⟩ := readOnly
      exact ⟨tidy, emergency.trans emergencyMode, stop.trans emergencyStop,
        obstruction.trans doorObstruction, load.trans overload, floors⟩
  | connect | disconnect | pollTimeout | pollReady _ | readNotify | send _ | deliver _ =>
      obtain ⟨_, rfl⟩ := of_guarded taken
      exact ⟨tidy, emergencyMode, emergencyStop, doorObstruction, overload, floors⟩
  | connectionTop =>
      obtain ⟨_, rfl⟩ := of_guarded taken
      have flags : state.car.connectionTop.shm.readOnly = state.car.shm.readOnly := by
        rw [CarProcess.connectionTop_shm]
        unfold CarProcess.applyPending
        split <;> rfl
      simp only [CarSharedMem.readOnly, Prod.mk.injEq] at flags
      obtain ⟨obstruction, load, stop, _, emergency⟩ := flags
      exact ⟨tidy, emergency.trans emergencyMode, stop.trans emergencyStop,
        obstruction.trans doorObstruction, load.trans overload, floors⟩
  | receive =>
      obtain ⟨_, _, _, _, _, rfl⟩ := carStep_receive taken
      exact ⟨tidy, emergencyMode, emergencyStop, doorObstruction, overload, floors⟩
  | operate operation =>
      rcases carStep_operate taken with ⟨shm, stored, rfl⟩ | ⟨_, rfl⟩
      · cases operation with
        | stop => exact absurd trivial quiet
        | up | down =>
            obtain ⟨_, _, rfl⟩ := operateMove_stored stored
            exact ⟨tidy, emergencyMode, emergencyStop, doorObstruction, overload, floors⟩
        | serviceOn =>
            cases stored
            exact ⟨tidy, rfl, emergencyStop, doorObstruction, overload, floors⟩
        | openDoors | closeDoors | serviceOff =>
            cases stored
            exact ⟨tidy, emergencyMode, emergencyStop, doorObstruction, overload, floors⟩
      · exact ⟨tidy, emergencyMode, emergencyStop, doorObstruction, overload, floors⟩
  | sensors obstruction load =>
      cases taken
      rw [Raises, not_or, not_not, not_not] at quiet
      exact ⟨tidy, emergencyMode, emergencyStop, quiet.1, quiet.2, floors⟩
  | monitor =>
      cases taken
      rw [unchanged] at tidy floors ⊢
      exact ⟨tidy, emergencyMode, emergencyStop, doorObstruction, overload, floors⟩

end Calmness

/-- A car that was started at a floor of at most three characters, and is sent to floors only,
comes into emergency mode only after a stop command or a sensor's report. -/
theorem emergency_has_cause (lowestFloor : CharArray 4) (lowest : NumericFloor lowestFloor)
    (actions : List CarAction) (reached : CarSystem)
    (traffic : Along carStep NumericTraffic (CarSystem.start lowestFloor) actions)
    (ran : run carStep (CarSystem.start lowestFloor) actions = some reached)
    (emergency : reached.car.shm.emergencyMode ≠ 0) : ∃ action ∈ actions, Raises action := by
  by_contra without
  have quiet : ∀ action ∈ actions, ¬ Raises action :=
    fun action member raised => without ⟨action, member, raised⟩
  have start : Calm (CarSystem.start lowestFloor) :=
    ⟨tidy_start lowest.terminated, rfl, rfl, rfl, rfl, floorsSatisfy_start lowest⟩
  have calm := invariant_run
    (fun _ _ _ held allowed taken => calm_step held allowed.1 allowed.2 taken) start
    ((along_of_forall quiet).and traffic) ran
  exact emergency calm.emergencyMode

theorem emergency_has_cause_stopped : ∃ action ∈ stopAndMonitor, Raises action :=
  emergency_has_cause (digitFloor 1).chars
    ⟨(validateFloorInput_iff _).mp (by decide), by decide⟩ stopAndMonitor stoppedAtOne
    ⟨trivial, trivial, trivial⟩ (by decide) (by decide)

end Cab403.Elevator
