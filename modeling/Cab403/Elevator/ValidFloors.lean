/-
The floors of a car over whole runs. Valid destinations and the service tool keep
both floor fields on levels of the building, as long as no move crosses from `B1`
to `1` or back: that move stores the floor `0`.
-/

import Cab403.Elevator.CarFloors

namespace Cab403.Elevator

open CText ActionRuns

/-- A controller message names a level, if it names a floor at all. -/
def NamesLevel (message : CString) : Prop :=
  ∀ floor, floorMessage? message.text = some floor → ValidFloor floor.chars

instance (message : CString) : Decidable (NamesLevel message) :=
  inferInstanceAs (Decidable (∀ floor ∈ floorMessage? message.text, ValidFloor floor.chars))

def ValidTraffic (_ : CarSystem) : CarAction → Prop
  | .deliver message => NamesLevel message
  | _ => True

def AvoidsGround (state : CarSystem) : CarAction → Prop
  | .loop .timedOut =>
      state.car.shm.status = Status.between.chars →
        ¬ CrossesGround state.car.shm.currentFloor state.car.shm.destinationFloor
  | _ => True

instance (state : CarSystem) : DecidablePred (ValidTraffic state)
  | .deliver message => inferInstanceAs (Decidable (NamesLevel message))
  | .loop _ | .connect | .disconnect | .connectionTop | .pollTimeout | .pollReady _ | .receive
  | .readNotify | .send _ | .operate _ | .sensors _ _ | .monitor => .isTrue trivial

instance (state : CarSystem) (action : CarAction) : Decidable (AvoidsGround state action) := by
  rcases action with ⟨_ | _⟩ | _ <;> unfold AvoidsGround <;> infer_instance

structure OnLevels (state : CarSystem) : Prop where
  current : ValidFloor state.car.shm.currentFloor
  destination : ValidFloor state.car.shm.destinationFloor
  pending : state.car.pendingDestination = CharArray.empty 4 ∨
    ValidFloor state.car.pendingDestination
  inbox : ∀ message ∈ state.inbox, NamesLevel message

/-- `current_floor` stays, or goes to the next floor as internal.c computes it. -/
def NextFloor (before after : CarSystem) : Prop :=
  after.car.shm.currentFloor = before.car.shm.currentFloor ∨
    after.car.shm.currentFloor = floorAbove before.car.shm.currentFloor ∨
    after.car.shm.currentFloor = floorBelow before.car.shm.currentFloor

theorem onLevels_start {lowestFloor : CharArray 4} (valid : ValidFloor lowestFloor) :
    OnLevels (CarSystem.start lowestFloor) :=
  { current := valid
    destination := valid
    pending := Or.inl rfl
    inbox := by intro message member; cases member }

/-! ### One step -/

theorem validFloor_of_next {current next : CharArray 4} (valid : ValidFloor current)
    (stepped : next = current ∨ next = floorAbove current ∨ next = floorBelow current) :
    ValidFloor next := by
  rcases stepped with same | above | below
  · rw [same]
    exact valid
  · rw [above]
    exact validFloor_floorAbove valid
  · rw [below]
    exact validFloor_floorBelow valid

/-- What a step stores away from the ground is a level. -/
theorem supplies_levels {state : CarSystem} {action : CarAction} (levels : OnLevels state)
    (traffic : ValidTraffic state action) (away : AvoidsGround state action) :
    Supplies ValidFloor state action := by
  cases action with
  | loop ret =>
      rintro rfl between
      exact validFloor_of_next levels.current
        (moveFloor_of_not_crossesGround levels.current levels.destination (away between))
  | deliver message => exact traffic
  | operate operation =>
      intro shm stored
      rcases (operate_floors stored).2 with kept | stepped
      · rw [kept]
        exact levels.destination
      · exact validFloor_of_next levels.current (Or.inr stepped)
  | connect | disconnect | connectionTop | pollTimeout | receive | readNotify | monitor => trivial
  | pollReady socket => trivial
  | send delivered => trivial
  | sensors doorObstruction overload => trivial

theorem loop_nextFloor {ret : WaitResult} {shm : CarSharedMem}
    (current : ValidFloor shm.currentFloor) (destination : ValidFloor shm.destinationFloor)
    (away : ret = .timedOut → shm.status = Status.between.chars →
      ¬ CrossesGround shm.currentFloor shm.destinationFloor) :
    (elevatorLoop ret shm).shm.currentFloor = shm.currentFloor ∨
      (elevatorLoop ret shm).shm.currentFloor = floorAbove shm.currentFloor ∨
      (elevatorLoop ret shm).shm.currentFloor = floorBelow shm.currentFloor := by
  cases elevatorLoop_floors ret shm with
  | stays kept _ => exact Or.inl kept
  | moves timedOut between moved _ =>
      rw [moved]
      exact moveFloor_of_not_crossesGround current destination (away timedOut between)

theorem onLevels_step (state : CarSystem) (action : CarAction) (next : CarSystem)
    (levels : OnLevels state) (traffic : ValidTraffic state action)
    (away : AvoidsGround state action) (taken : carStep state action = some next) :
    OnLevels next ∧ NextFloor state next := by
  have satisfied : FloorsSatisfy ValidFloor state :=
    ⟨levels.current, levels.destination, levels.pending, levels.inbox⟩
  have kept := floorsSatisfy_step satisfied (supplies_levels levels traffic away) taken
  refine ⟨⟨kept.current, kept.destination, kept.pending, kept.inbox⟩, ?_⟩
  cases action with
  | loop ret =>
      obtain ⟨_, rfl⟩ := of_guarded taken
      apply loop_nextFloor levels.current levels.destination
      rintro rfl
      exact away
  | _ => exact Or.inl (carStep_currentFloor taken nofun)

/-! ### Whole runs -/

/-- In every run with valid destinations and no move across the ground, both floors are
levels, and each further such step goes to a neighbouring level or stays. -/
theorem floors_stay_on_levels (lowestFloor : CharArray 4) (valid : ValidFloor lowestFloor)
    (actions : List CarAction) (reached : CarSystem)
    (traffic : Along carStep ValidTraffic (CarSystem.start lowestFloor) actions)
    (away : Along carStep AvoidsGround (CarSystem.start lowestFloor) actions)
    (ran : run carStep (CarSystem.start lowestFloor) actions = some reached) :
    ValidFloor reached.car.shm.currentFloor ∧ ValidFloor reached.car.shm.destinationFloor ∧
      ∀ action next, ValidTraffic reached action → AvoidsGround reached action →
        carStep reached action = some next → NextFloor reached next := by
  have levels : OnLevels reached :=
    invariant_run
      (fun state action next held allowed taken =>
        (onLevels_step state action next held allowed.1 allowed.2 taken).1)
      (onLevels_start valid) (traffic.and away) ran
  exact ⟨levels.current, levels.destination, fun action next valid_ away_ taken =>
    (onLevels_step reached action next levels valid_ away_ taken).2⟩

/-! ### The ground boundary -/

def sentTo (floor : CString) : List CarAction :=
  [.connect, .send true, .send true, .deliver floor, .connectionTop, .pollReady true,
    .receive, .connectionTop, .loop .broadcast, .loop .timedOut]

def arrivedAt (floor : CharArray 4) : CarSystem :=
  { car :=
      { shm := { resetShm floor with status := Status.opening.chars }
        wake := false
        notify := 2
        connection := .polling
        pendingDestination := CharArray.empty 4 }
    inbox := [] }

/-- From `B1` the car sent to `1` arrives at the floor `0`. -/
theorem floors_leave_levels :
    ¬ ∀ (lowestFloor : CharArray 4) (actions : List CarAction) (reached : CarSystem),
      ValidFloor lowestFloor →
      Along carStep ValidTraffic (CarSystem.start lowestFloor) actions →
      run carStep (CarSystem.start lowestFloor) actions = some reached →
        ValidFloor reached.car.shm.currentFloor ∧ ValidFloor reached.car.shm.destinationFloor ∧
          ∀ action next, ValidTraffic reached action →
            carStep reached action = some next → NextFloor reached next := by
  intro always
  have current := (always ⟨bytes "B1", by decide, by decide⟩
    (sentTo ⟨bytes "FLOOR 1", by decide⟩)
    { car :=
        { shm :=
            { resetShm (digitFloor 0).chars with
              destinationFloor := (digitFloor 1).chars
              status := Status.between.chars }
          wake := false
          notify := 2
          connection := .polling
          pendingDestination := CharArray.empty 4 }
      inbox := [] }
    (by decide) (by decide) (by decide)).1
  exact absurd current (by decide)

theorem floors_stay_on_levels_oneToTwo :
    ValidFloor (digitFloor 2).chars ∧
      ValidFloor (digitFloor 2).chars ∧
      ∀ action next,
        ValidTraffic (arrivedAt (digitFloor 2).chars) action →
        AvoidsGround (arrivedAt (digitFloor 2).chars) action →
        carStep (arrivedAt (digitFloor 2).chars) action = some next →
          NextFloor (arrivedAt (digitFloor 2).chars) next :=
  floors_stay_on_levels (digitFloor 1).chars (by decide)
    (sentTo ⟨bytes "FLOOR 2", by decide⟩)
    (arrivedAt (digitFloor 2).chars) (by decide) (by decide) (by decide)

end Cab403.Elevator
