/-
Recovery from emergency mode through service mode. The command `service_on` clears
`emergency_mode` and nothing that causes it, so the safety monitor may set it again
at its next pass. The causes are the latched stop and overload, doors that an
obstruction does not allow, and the destinations `-1` and `B-1`, which the service
tool computes next to a floor numbered zero.
-/

import Cab403.Elevator.CarFloors
import Cab403.Elevator.DoorGraph

namespace Cab403.Elevator

open CText CDecimal ActionRuns Safety

/-- The programs at work in service mode: the monitor, the loop and the buttons. -/
def InService : CarAction → Prop
  | .monitor | .loop _ => True
  | .operate .openDoors | .operate .closeDoors | .operate .up | .operate .down => True
  | _ => False

instance : DecidablePred InService
  | .monitor | .loop _ => .isTrue trivial
  | .operate .openDoors | .operate .closeDoors | .operate .up | .operate .down => .isTrue trivial
  | .connect | .disconnect | .connectionTop | .pollTimeout | .pollReady _ | .receive
  | .readNotify | .send _ | .deliver _ | .sensors _ _ => .isFalse id
  | .operate .stop | .operate .serviceOn | .operate .serviceOff => .isFalse id

/-- `up` and `down` at this floor compute a destination that is not a floor. -/
def BesideZero (floor : CharArray 4) (basement : Prop) : Prop :=
  floorStrToInt floor = 0 ∧ (floor.text.head? = some 66 ↔ basement)

instance (floor : CharArray 4) (basement : Prop) [Decidable basement] :
    Decidable (BesideZero floor basement) :=
  inferInstanceAs (Decidable (_ ∧ _))

/-- No cause of an emergency is left or made: a pass of the monitor finds neither a
stop nor an overload latched, and an obstruction only at opening or closing doors;
neither `up` at `B0` nor `down` at `0` is accepted. -/
def Unlatched (state : CarSystem) : CarAction → Prop
  | .monitor =>
      state.car.shm.emergencyStop ≠ 1 ∧ state.car.shm.overload ≠ 1 ∧
        (state.car.shm.doorObstruction = 1 →
          state.car.shm.status = Status.opening.chars ∨
            state.car.shm.status = Status.closing.chars)
  | .operate .up =>
      state.car.shm.status = Status.closed.chars → ¬ BesideZero state.car.shm.currentFloor True
  | .operate .down =>
      state.car.shm.status = Status.closed.chars → ¬ BesideZero state.car.shm.currentFloor False
  | _ => True

instance (state : CarSystem) : DecidablePred (Unlatched state)
  | .monitor => inferInstanceAs (Decidable (_ ∧ _ ∧ (_ → _)))
  | .operate .up | .operate .down => inferInstanceAs (Decidable (_ → ¬ _))
  | .loop _ | .connect | .disconnect | .connectionTop | .pollTimeout | .pollReady _ | .receive
  | .readNotify | .send _ | .deliver _ | .sensors _ _ => .isTrue trivial
  | .operate .openDoors | .operate .closeDoors | .operate .stop | .operate .serviceOn
  | .operate .serviceOff => .isTrue trivial

/-! ### Floors the monitor accepts -/

def Numeric (text : List UInt8) : Prop :=
  ∃ digits, digits ≠ [] ∧ (∀ byte ∈ digits, isDigit byte = true) ∧
    (text = digits ∨ text = 66 :: digits)

theorem boundedLength_eq {limit : Nat} {text : List UInt8} (noNul : (0 : UInt8) ∉ text)
    (short : text.length ≤ limit) : boundedLength limit text = text.length := by
  induction limit generalizing text with
  | zero =>
      rw [boundedLength, List.eq_nil_of_length_eq_zero (Nat.le_zero.mp short), List.length_nil]
  | succ limit ih =>
      cases text with
      | nil => rfl
      | cons head tail =>
          have nonzero : head ≠ 0 := by
            rintro rfl
            exact noNul List.mem_cons_self
          rw [boundedLength, if_neg nonzero, List.length_cons,
            ih (fun member => noNul (List.mem_cons_of_mem head member))
              (by rw [List.length_cons] at short; omega)]

theorem validateFloorInput_iff (floor : CharArray 4) :
    validateFloorInput floor.text = true ↔ Numeric floor.text := by
  have length := boundedLength_eq floor.noNul floor.fits
  have fits := floor.fits
  unfold validateFloorInput
  dsimp only
  rw [length, List.take_length]
  cases text : floor.text with
  | nil =>
      refine iff_of_false Bool.false_ne_true ?_
      rintro ⟨digits, nonempty, _, same | same⟩
      · exact nonempty same.symm
      · cases same
  | cons head tail =>
      rw [text] at fits
      rw [if_neg (by rw [List.length_cons] at fits ⊢; omega)]
      by_cases basement : head = 66
      · subst basement
        have notDigit : ¬ isDigit 66 = true := by decide
        rw [if_pos (show (66 :: tail).head? = some 66 from rfl)]
        cases tail with
        | nil =>
            refine iff_of_false Bool.false_ne_true ?_
            rintro ⟨digits, nonempty, allDigits, rfl | same⟩
            · exact notDigit (allDigits 66 List.mem_cons_self)
            · exact nonempty (List.cons.inj same).2.symm
        | cons next rest =>
            rw [if_neg (by simp), List.drop_one, List.tail_cons, List.all_eq_true]
            constructor
            · intro allDigits
              exact ⟨next :: rest, List.cons_ne_nil _ _, allDigits, Or.inr rfl⟩
            · rintro ⟨digits, _, allDigits, rfl | same⟩
              · exact absurd (allDigits 66 List.mem_cons_self) notDigit
              · rw [(List.cons.inj same).2]
                exact allDigits
      · have ground : (head :: tail).head? ≠ some 66 := fun same => basement (Option.some.inj same)
        rw [if_neg ground, List.all_eq_true]
        constructor
        · intro allDigits
          exact ⟨head :: tail, List.cons_ne_nil _ _, allDigits, Or.inl rfl⟩
        · rintro ⟨digits, _, allDigits, rfl | same⟩
          · exact allDigits
          · exact absurd (List.cons.inj same).1 basement

/-! ### Printing a floor -/

theorem numeric_decimal (value : Nat) : Numeric (decimal value) :=
  ⟨decimal value, decimal_ne_nil value, decimal_isDigit value, Or.inl rfl⟩

theorem numeric_basement (value : Nat) : Numeric (66 :: decimal value) :=
  ⟨decimal value, decimal_ne_nil value, decimal_isDigit value, Or.inr rfl⟩

theorem numeric_floorIntToStr {number : Int} (low : -99 ≤ number) (high : number ≤ 999) :
    Numeric (floorIntToStr number).text := by
  by_cases basement : number < 0
  · obtain ⟨value, rfl⟩ : ∃ value : Nat, number = -(value : Int) := ⟨number.natAbs, by omega⟩
    rw [floorIntToStr_text_of_neg value (by omega) (by omega)]
    exact numeric_basement value
  · obtain ⟨value, rfl⟩ : ∃ value : Nat, number = (value : Int) := ⟨number.natAbs, by omega⟩
    rw [floorIntToStr_text_of_nonneg value (by omega)]
    exact numeric_decimal value

/-- A floor string of at most three characters that the monitor accepts. -/
structure NumericFloor (floor : CharArray 4) : Prop where
  numeric : Numeric floor.text
  terminated : floor.Terminated

theorem NumericFloor.moveFloor {current destination : CharArray 4} (from_ : NumericFloor current)
    (to_ : NumericFloor destination) : NumericFloor (moveFloor current destination) := by
  have currentBounds := floorStrToInt_bounds from_.terminated
  have destinationBounds := floorStrToInt_bounds to_.terminated
  refine ⟨?_, moveFloor_terminated from_.terminated⟩
  unfold Elevator.moveFloor
  dsimp only
  split
  · exact numeric_floorIntToStr (by omega) (by omega)
  · split
    · exact numeric_floorIntToStr (by omega) (by omega)
    · exact from_.numeric

/-- The number of a numeric floor, on either side of the ground. -/
theorem NumericFloor.cases {floor : CharArray 4} (numericFloor : NumericFloor floor) :
    (∃ rest value, floor.text = 66 :: rest ∧ atoi rest = (value : Nat) ∧ value ≤ 99) ∨
      (∀ rest, floor.text ≠ 66 :: rest) ∧ ∃ value : Nat, atoi floor.text = value ∧ value ≤ 999 := by
  obtain ⟨⟨digits, nonempty, allDigits, same⟩, terminated⟩ := numericFloor
  have converted : atoi digits = digitsValue digits := by
    rw [atoi, strtol_digits nonempty allDigits]
  have bound := digitsValue_lt digits allDigits
  unfold CharArray.Terminated at terminated
  rcases same with same | same
  · right
    rw [same] at terminated ⊢
    have short : digits.length ≤ 3 := by omega
    have power := Nat.pow_le_pow_right (show 0 < 10 by decide) short
    refine ⟨?_, digitsValue digits, converted, by omega⟩
    rintro rest rfl
    exact absurd (allDigits 66 List.mem_cons_self) (by decide)
  · left
    rw [same, List.length_cons] at terminated
    have short : digits.length ≤ 2 := by omega
    have power := Nat.pow_le_pow_right (show 0 < 10 by decide) short
    exact ⟨digits, digitsValue digits, same, converted, by omega⟩

theorem NumericFloor.copy {floor : CharArray 4} (numericFloor : NumericFloor floor) :
    NumericFloor (copyFloor floor) := by
  have whole : (copyFloor floor).text = floor.text :=
    snprintf_of_fits numericFloor.terminated
  exact ⟨by rw [whole]; exact numericFloor.numeric, CharArray.format_terminated (by decide) _ _⟩

theorem NumericFloor.above {floor : CharArray 4} (numericFloor : NumericFloor floor)
    (beside : ¬ BesideZero floor True) : NumericFloor (floorAbove floor) := by
  refine ⟨?_, floorAbove_terminated floor⟩
  rcases numericFloor.cases with ⟨rest, value, text, number, small⟩ | ⟨ground, value, number, small⟩
  · have positive : value ≠ 0 := by
      rintro rfl
      apply beside
      refine ⟨?_, iff_of_true (by rw [text]; rfl) trivial⟩
      simp only [floorStrToInt, text, floorNumber, number]
      rfl
    simp only [floorAbove, text, number]
    split
    · exact numeric_decimal 1
    · rw [CharArray.format_text, show (value : Int) - 1 = ((value - 1 : Nat) : Int) by omega,
        formatInt_natCast, basement_snprintf (by omega)]
      exact numeric_basement (value - 1)
  · unfold floorAbove
    split
    · rename_i rest text
      exact absurd text (ground rest)
    · simp only [number]
      split
      · rw [CharArray.format_text, show (value : Int) + 1 = ((value + 1 : Nat) : Int) by omega,
          formatInt_natCast, decimal_snprintf (by omega)]
        exact numeric_decimal (value + 1)
      · exact numericFloor.copy.numeric

theorem NumericFloor.below {floor : CharArray 4} (numericFloor : NumericFloor floor)
    (beside : ¬ BesideZero floor False) : NumericFloor (floorBelow floor) := by
  refine ⟨?_, floorBelow_terminated floor⟩
  rcases numericFloor.cases with ⟨rest, value, text, number, small⟩ | ⟨ground, value, number, small⟩
  · have copied := numericFloor.copy.numeric
    simp only [floorBelow, text, number]
    split
    · rw [CharArray.format_text, show (value : Int) + 1 = ((value + 1 : Nat) : Int) by omega,
        formatInt_natCast, basement_snprintf (by omega)]
      exact numeric_basement (value + 1)
    · exact copied
  · have positive : value ≠ 0 := by
      rintro rfl
      have notBasement : floor.text.head? ≠ some 66 := by
        intro basement
        obtain ⟨rest, text⟩ := List.head?_eq_some_iff.mp basement
        exact ground rest text
      apply beside
      refine ⟨?_, iff_of_false notBasement id⟩
      rw [floorStrToInt, floorNumber_eq_atoi notBasement, number]
      rfl
    unfold floorBelow
    split
    · rename_i rest text
      exact absurd text (ground rest)
    · simp only [number]
      split
      · exact numeric_basement 1
      · rw [CharArray.format_text, show (value : Int) - 1 = ((value - 1 : Nat) : Int) by omega,
          formatInt_natCast, decimal_snprintf (by omega)]
        exact numeric_decimal (value - 1)

/-! ### Statuses the monitor accepts -/

theorem statusMatches_iff {status valid : List UInt8} (limit : Nat) (noNul1 : (0 : UInt8) ∉ status)
    (noNul2 : (0 : UInt8) ∉ valid) (short : valid.length < limit) :
    statusMatches limit status valid = true ↔ status = valid := by
  apply comparison_iff (fun _ _ _ _ _ => rfl) _ limit noNul1 noNul2 short
  intro status valid limit ended
  cases status with
  | nil => simp [statusMatches, eq_comm]
  | cons byte status =>
      cases valid with
      | nil => simp [statusMatches]
      | cons expected valid => simp at ended

theorem validateStatus_iff (field : CharArray 8) :
    validateStatus field.text = true ↔ ∃ status : Status, field = status.chars := by
  have matches_iff (status : Status) :
      statusMatches 8 field.text status.text = true ↔ field = status.chars := by
    rw [CharArray.ext_iff]
    exact statusMatches_iff 8 field.noNul status.chars.noNul (by cases status <;> decide)
  simp only [validateStatus, List.any_cons, List.any_nil, Bool.or_false, Bool.or_eq_true,
    matches_iff]
  constructor
  · rintro (held | held | held | held | held)
    · exact ⟨_, held⟩
    · exact ⟨_, held⟩
    · exact ⟨_, held⟩
    · exact ⟨_, held⟩
    · exact ⟨_, held⟩
  · rintro ⟨status, held⟩
    cases status with
    | opening => exact Or.inl held
    | opened => exact Or.inr (Or.inl held)
    | closing => exact Or.inr (Or.inr (Or.inl held))
    | closed => exact Or.inr (Or.inr (Or.inr (Or.inl held)))
    | between => exact Or.inr (Or.inr (Or.inr (Or.inr held)))

/-! ### The buttons -/

def ButtonsKept (before after : CarSharedMem) : Prop :=
  (after.openButton = before.openButton ∨ after.openButton = 0) ∧
    (after.closeButton = before.closeButton ∨ after.closeButton = 0)

theorem ButtonsKept.open {before after : CarSharedMem} (kept : ButtonsKept before after)
    (found : ¬ before.openButton > 1) : ¬ after.openButton > 1 := by
  rcases kept.1 with same | released
  · rw [same]
    exact found
  · rw [released]
    decide

theorem ButtonsKept.close {before after : CarSharedMem} (kept : ButtonsKept before after)
    (found : ¬ before.closeButton > 1) : ¬ after.closeButton > 1 := by
  rcases kept.2 with same | released
  · rw [same]
    exact found
  · rw [released]
    decide

namespace Iteration

variable {it : Iteration}

theorem serviceBroadcast_buttons : ButtonsKept it.shm it.serviceBroadcast.shm := by
  unfold serviceBroadcast ButtonsKept
  dsimp only
  split_ifs <;> simp

theorem finishMove_buttons : ButtonsKept it.shm it.finishMove.shm := by
  unfold finishMove ButtonsKept
  dsimp only
  split_ifs <;> simp

theorem finishOpening_buttons : ButtonsKept it.shm it.finishOpening.shm := by
  unfold finishOpening ButtonsKept
  dsimp only
  split_ifs <;> simp

theorem finishClosing_buttons : ButtonsKept it.shm it.finishClosing.shm := by
  unfold finishClosing ButtonsKept
  dsimp only
  split_ifs <;> simp

theorem stayOpen_buttons : ButtonsKept it.shm it.stayOpen.shm := by
  unfold stayOpen ButtonsKept
  dsimp only
  split_ifs <;> simp

theorem serviceTimeout_buttons : ButtonsKept it.shm it.serviceTimeout.shm := by
  apply timeout_byStatus (motive := fun after => ButtonsKept it.shm after.shm)
  case between => exact fun _ => finishMove_buttons
  case opening => exact fun _ => finishOpening_buttons
  case closing => exact fun _ => finishClosing_buttons
  case opened => exact fun _ => stayOpen_buttons
  case closed =>
    intro _
    dsimp only
    split_ifs <;> simp [ButtonsKept]
  case other => simp [ButtonsKept]

end Iteration

/-! ### What recovery keeps -/

structure Recovered (shm : CarSharedMem) : Prop where
  emergencyMode : shm.emergencyMode = 0
  individualServiceMode : shm.individualServiceMode = 1
  emergencyStop : ¬ shm.emergencyStop > 1
  overload : ¬ shm.overload > 1
  doorObstruction : ¬ shm.doorObstruction > 1
  currentFloor : NumericFloor shm.currentFloor
  destinationFloor : NumericFloor shm.destinationFloor
  status : ∃ status : Status, shm.status = status.chars
  openButton : ¬ shm.openButton > 1
  closeButton : ¬ shm.closeButton > 1

section Steps

variable {shm next : CarSharedMem}

theorem recovered_loop (ret : WaitResult) (recovered : Recovered shm) :
    Recovered (elevatorLoop ret shm).shm := by
  have readOnly : (elevatorLoop ret shm).shm.readOnly = shm.readOnly := elevatorLoop_readOnly
  simp only [CarSharedMem.readOnly, Prod.mk.injEq] at readOnly
  obtain ⟨obstruction, overload, stop, service, emergency⟩ := readOnly
  have notEmergency : shm.emergencyMode ≠ 1 := by
    rw [recovered.emergencyMode]
    decide
  have moved : NumericFloor (moveFloor shm.currentFloor shm.destinationFloor) :=
    recovered.currentFloor.moveFloor recovered.destinationFloor
  have floors : NumericFloor (elevatorLoop ret shm).shm.currentFloor ∧
      NumericFloor (elevatorLoop ret shm).shm.destinationFloor :=
    loop_satisfies recovered.currentFloor recovered.destinationFloor (fun _ _ => moved)
  obtain ⟨found, held⟩ := recovered.status
  have lawful : Lawful found (elevatorLoop ret shm) :=
    elevatorLoop_lawful held (fun departs => departs.2.1 recovered.individualServiceMode)
  have buttons : ButtonsKept shm (elevatorLoop ret shm).shm := by
    rw [elevatorLoop_of_service notEmergency recovered.individualServiceMode]
    cases ret with
    | broadcast => exact Iteration.serviceBroadcast_buttons
    | timedOut => exact Iteration.serviceTimeout_buttons
  exact
    { emergencyMode := emergency.trans recovered.emergencyMode
      individualServiceMode := service.trans recovered.individualServiceMode
      emergencyStop := by rw [stop]; exact recovered.emergencyStop
      overload := by rw [overload]; exact recovered.overload
      doorObstruction := by rw [obstruction]; exact recovered.doorObstruction
      currentFloor := floors.1
      destinationFloor := floors.2
      status := ⟨_, lawful.held⟩
      openButton := buttons.open recovered.openButton
      closeButton := buttons.close recovered.closeButton }

theorem recovered_operate {operation : Operation} (recovered : Recovered shm)
    (inService : InService (.operate operation))
    (above : operation = .up → shm.status = Status.closed.chars →
      ¬ BesideZero shm.currentFloor True)
    (below : operation = .down → shm.status = Status.closed.chars →
      ¬ BesideZero shm.currentFloor False)
    (stored : operate operation shm = .stored next) : Recovered next := by
  have pressed : ¬ (1 : UInt8) > 1 := by decide
  cases operation with
  | openDoors =>
      cases stored
      exact { recovered with openButton := pressed }
  | closeDoors =>
      cases stored
      exact { recovered with closeButton := pressed }
  | up =>
      obtain ⟨_, closed, rfl⟩ := operateMove_stored stored
      exact { recovered with destinationFloor := recovered.currentFloor.above (above rfl closed) }
  | down =>
      obtain ⟨_, closed, rfl⟩ := operateMove_stored stored
      exact { recovered with destinationFloor := recovered.currentFloor.below (below rfl closed) }
  | stop | serviceOn | serviceOff => exact absurd inService id

theorem Recovered.not_inconsistent (recovered : Recovered shm)
    (allowed : shm.doorObstruction = 1 →
      shm.status = Status.opening.chars ∨ shm.status = Status.closing.chars) :
    ¬ Inconsistent shm := by
  have service : ¬ shm.individualServiceMode > 1 := by
    rw [recovered.individualServiceMode]
    decide
  have emergency : ¬ shm.emergencyMode > 1 := by
    rw [recovered.emergencyMode]
    decide
  simp only [Inconsistent, not_or, Bool.not_eq_false, validateFloorInput_iff, validateStatus_iff,
    safeStrcmp_status]
  refine ⟨recovered.currentFloor.numeric, recovered.destinationFloor.numeric, recovered.status,
    recovered.openButton, recovered.closeButton, recovered.doorObstruction, recovered.overload,
    recovered.emergencyStop, service, emergency, ?_⟩
  rintro ⟨obstructed, neither⟩
  rcases allowed obstructed with opening | closing
  · exact neither.1 opening
  · exact neither.2 closing

theorem recovered_monitorPass (recovered : Recovered shm) (noStop : shm.emergencyStop ≠ 1)
    (noOverload : shm.overload ≠ 1)
    (allowed : shm.doorObstruction = 1 →
      shm.status = Status.opening.chars ∨ shm.status = Status.closing.chars) :
    Recovered (monitorPass shm).shm := by
  -- the first check may turn the doors; the others then find nothing
  obtain ⟨status, obstructed, same⟩ : ∃ status : Status,
      (checkObstruction ⟨shm, []⟩).shm = { shm with status := status.chars } ∧
        (shm.doorObstruction = 1 → status = .opening ∨ status = .closing) := by
    unfold checkObstruction
    split
    · rw [safeStrncpy_opening]
      exact ⟨.opening, rfl, fun _ => Or.inl rfl⟩
    · obtain ⟨status, held⟩ := recovered.status
      refine ⟨status, by rw [← held], ?_⟩
      rw [held, Status.chars_inj, Status.chars_inj] at allowed
      exact allowed
  have turned : Recovered (checkObstruction ⟨shm, []⟩).shm := by
    rw [obstructed]
    exact { recovered with status := ⟨status, rfl⟩ }
  have consistent : ¬ Inconsistent (checkObstruction ⟨shm, []⟩).shm := by
    apply turned.not_inconsistent
    rw [obstructed, Status.chars_inj, Status.chars_inj]
    exact same
  have quiet : (monitorPass shm).shm = (checkObstruction ⟨shm, []⟩).shm := by
    have stop : (checkObstruction ⟨shm, []⟩).shm.emergencyStop ≠ 1 := by
      rw [obstructed]
      exact noStop
    have overload : (checkObstruction ⟨shm, []⟩).shm.overload ≠ 1 := by
      rw [obstructed]
      exact noOverload
    unfold monitorPass
    rw [checkEmergencyStop, if_neg (fun found => stop found.1), checkOverload,
      if_neg (fun found => overload found.1), checkConsistency,
      if_neg (fun found => consistent found.2)]
  rw [quiet]
  exact turned

end Steps

theorem recovered_step {state next : CarSystem} {action : CarAction}
    (recovered : Recovered state.car.shm) (inService : InService action)
    (unlatched : Unlatched state action) (taken : carStep state action = some next) :
    Recovered next.car.shm := by
  cases action with
  | loop ret =>
      obtain ⟨_, rfl⟩ := of_guarded taken
      exact recovered_loop ret recovered
  | monitor =>
      obtain ⟨_, _, passed, rfl⟩ := carStep_monitor taken
      obtain ⟨noStop, noOverload, allowed⟩ := unlatched
      have after := recovered_monitorPass recovered noStop noOverload allowed
      rw [passed] at after
      exact after
  | operate operation =>
      rcases carStep_operate taken with ⟨shm, stored, rfl⟩ | ⟨_, rfl⟩
      · apply recovered_operate recovered inService _ _ stored
        · intro isUp
          subst isUp
          exact unlatched
        · intro isDown
          subst isDown
          exact unlatched
      · exact recovered
  | connect | disconnect | connectionTop | pollTimeout | receive | readNotify =>
      exact absurd inService id
  | pollReady _ | send _ | deliver _ | sensors _ _ => exact absurd inService id

/-- The command makes the mode flags right; the rest of the memory was consistent. -/
theorem recovered_serviceOn {shm : CarSharedMem} (floors : shm.currentFloor.Terminated)
    (destinations : shm.destinationFloor.Terminated) (consistent : ¬ Inconsistent shm) :
    Recovered { shm with individualServiceMode := 1, emergencyMode := 0 } := by
  simp only [Inconsistent, not_or, Bool.not_eq_false, validateFloorInput_iff,
    validateStatus_iff] at consistent
  obtain ⟨current, destination, status, openButton, closeButton, obstruction, overload,
    emergencyStop, _⟩ := consistent
  exact
    { emergencyMode := rfl
      individualServiceMode := rfl
      emergencyStop := emergencyStop
      overload := overload
      doorObstruction := obstruction
      currentFloor := ⟨current, floors⟩
      destinationFloor := ⟨destination, destinations⟩
      status := status
      openButton := openButton
      closeButton := closeButton }

/-! ### Recovery over whole runs -/

/-- After `service_on` in a car with consistent data, stopped or not, `emergency_mode` stays
cleared and service mode on, as long as nothing latched is met and no move makes a
floor that is none. -/
theorem service_recovers (lowestFloor : CharArray 4) (lowest : lowestFloor.Terminated)
    (before events : List CarAction) (stopped reached : CarSystem)
    (ranBefore : run carStep (CarSystem.start lowestFloor) before = some stopped)
    (consistent : ¬ Inconsistent stopped.car.shm)
    (scope : ∀ action ∈ events, InService action)
    (unlatched : Along carStep Unlatched stopped (.operate .serviceOn :: events))
    (ran : run carStep stopped (.operate .serviceOn :: events) = some reached) :
    reached.car.shm.emergencyMode = 0 ∧ reached.car.shm.individualServiceMode = 1 := by
  have floors := floors_terminated lowest ranBefore
  obtain ⟨next, taken, later⟩ := run_cons_eq_some.mp ran
  have first : Recovered next.car.shm := by
    rcases carStep_operate taken with ⟨shm, stored, rfl⟩ | ⟨⟨_, refused⟩, _⟩
    · cases stored
      exact recovered_serviceOn floors.current floors.destination consistent
    · cases refused
  have preserved : ∀ state action next, Recovered state.car.shm →
      InService action ∧ Unlatched state action → carStep state action = some next →
        Recovered next.car.shm := by
    intro state action next held allowed taken
    exact recovered_step held allowed.1 allowed.2 taken
  have recovered : Recovered reached.car.shm :=
    invariant_run preserved first ((along_of_forall scope).and (unlatched.tail taken)) later
  exact ⟨recovered.emergencyMode, recovered.individualServiceMode⟩

/-! ### A stop that stays latched -/

def stopAndMonitor : List CarAction := [.operate .stop, .monitor]

def stoppedAtOne : CarSystem :=
  { CarSystem.start (digitFloor 1).chars with
    car :=
      { CarProcess.start (digitFloor 1).chars with
        shm :=
          { resetShm (digitFloor 1).chars with
            emergencyStop := 1
            emergencyMode := 1 }
        wake := true } }

def serviceAfterStop : CarSystem :=
  { stoppedAtOne with
    car :=
      { stoppedAtOne.car with
        shm := { stoppedAtOne.car.shm with individualServiceMode := 1 } } }

/-- The pass after `service_on` still finds the stop and sets the mode again. -/
theorem service_recovers_not_stop :
    ¬ ∀ (lowestFloor : CharArray 4) (before events : List CarAction) (stopped reached : CarSystem),
      lowestFloor.Terminated →
      run carStep (CarSystem.start lowestFloor) before = some stopped →
      stopped.car.shm.emergencyMode = 1 → ¬ Inconsistent stopped.car.shm →
      (∀ action ∈ events, InService action) →
      run carStep stopped (.operate .serviceOn :: events) = some reached →
        reached.car.shm.emergencyMode = 0 ∧ reached.car.shm.individualServiceMode = 1 := by
  intro recovers
  have cleared := (recovers (digitFloor 1).chars stopAndMonitor [.monitor] stoppedAtOne
    serviceAfterStop (by decide) (by decide) rfl (by decide) (by decide) (by decide)).1
  exact absurd cleared (by decide)

def overloadThenClear : List CarAction := [.sensors 0 1, .monitor, .sensors 0 0]

def openInService : List CarAction := [.operate .openDoors, .loop .broadcast, .monitor]

def clearedAtOne : CarSystem :=
  { stoppedAtOne with
    car :=
      { stoppedAtOne.car with
        shm := { stoppedAtOne.car.shm with emergencyStop := 0 } } }

def openingInService : CarSystem :=
  { clearedAtOne with
    car :=
      { clearedAtOne.car with
        shm :=
          { resetShm (digitFloor 1).chars with
            status := Status.opening.chars
            individualServiceMode := 1 }
        wake := false
        notify := 1 } }

theorem service_recovers_overload :
    openingInService.car.shm.emergencyMode = 0 ∧
      openingInService.car.shm.individualServiceMode = 1 :=
  service_recovers (digitFloor 1).chars (by decide) overloadThenClear openInService clearedAtOne
    openingInService (by decide) (by decide) (by decide) (by decide) (by decide)

end Cab403.Elevator
