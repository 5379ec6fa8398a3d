/-
Service mode over whole runs of a car among its surroundings. Three writers share
`destination_floor`: the loop on arrival, the connection thread with its pending
destination, and the commands `up` and `down`. A tally counts accepted commands and
departures since service mode was switched on.
-/

import Cab403.Elevator.CarProcess
import Cab403.Elevator.LoopMoves

namespace Cab403.Elevator

open CText ActionRuns

def AcceptsMove (state : CarSystem) : CarAction → Prop
  | .operate .up | .operate .down =>
      state.car.shm.individualServiceMode ≠ 0 ∧ state.car.shm.status = Status.closed.chars
  | _ => False

instance (state : CarSystem) (action : CarAction) : Decidable (AcceptsMove state action) := by
  unfold AcceptsMove
  split <;> infer_instance

def destinationWrites (state : CarSystem) : CarAction → List (CharArray 4)
  | .loop ret => (elevatorLoop ret state.car.shm).destinationWrites
  | .connectionTop => if state.car.Applies then [state.car.pendingDestination] else []
  | .operate operation =>
      match operation, operate operation state.car.shm with
      | .up, .stored shm | .down, .stored shm => [shm.destinationFloor]
      | _, _ => []
  | _ => []

/-- In service mode the destination is written by an accepted command, or by the
arrival that sets it to the floor reached. -/
def DestinationLaw (state : CarSystem) (action : CarAction) : Prop :=
  state.car.shm.individualServiceMode = 1 →
    ∀ value ∈ destinationWrites state action,
      AcceptsMove state action ∨
        ∃ ret, action = .loop ret ∧ state.car.shm.status = Status.between.chars ∧
          value = (elevatorLoop ret state.car.shm).shm.currentFloor

/-! ### The tally -/

structure TalliedCar where
  system : CarSystem
  accepted : Nat
  departures : Nat
  deriving DecidableEq

def TalliedCar.start (lowestFloor : CharArray 4) : TalliedCar :=
  { system := CarSystem.start lowestFloor
    accepted := 0
    departures := 0 }

def SwitchesOn (state : CarSystem) (action : CarAction) : Prop :=
  action = .operate .serviceOn ∧ state.car.shm.individualServiceMode ≠ 1

instance (state : CarSystem) (action : CarAction) : Decidable (SwitchesOn state action) :=
  inferInstanceAs (Decidable (_ ∧ _))

def departuresOf (state : CarSystem) : CarAction → Nat
  | .loop ret => (elevatorLoop ret state.car.shm).departures
  | _ => 0

def tallyStep (state : TalliedCar) (action : CarAction) : Option TalliedCar :=
  (carStep state.system action).map fun next =>
    if SwitchesOn state.system action then { system := next, accepted := 0, departures := 0 }
    else
      { system := next
        accepted := state.accepted + if AcceptsMove state.system action then 1 else 0
        departures := state.departures + departuresOf state.system action }

/-- Neither a pending destination nor one under way is taken into service mode. -/
def NothingCarriedOver (state : TalliedCar) : CarAction → Prop
  | .connectionTop =>
      state.system.car.shm.individualServiceMode = 1 → ¬ state.system.car.Applies
  | .operate .serviceOn =>
      state.system.car.shm.individualServiceMode ≠ 1 →
        state.system.car.shm.destinationFloor = state.system.car.shm.currentFloor ∨
          state.system.car.shm.status = Status.between.chars
  | _ => True

instance (state : TalliedCar) (action : CarAction) :
    Decidable (NothingCarriedOver state action) := by
  unfold NothingCarriedOver
  split <;> infer_instance

def Outstanding (shm : CarSharedMem) : Prop :=
  shm.destinationFloor ≠ shm.currentFloor ∧ shm.status ≠ Status.between.chars

instance (shm : CarSharedMem) : Decidable (Outstanding shm) := inferInstanceAs (Decidable (_ ∧ _))

/-- Every departure so far, and the one still outstanding, was paid for by a command. -/
def PaidFor (state : TalliedCar) : Prop :=
  state.system.car.shm.individualServiceMode = 1 →
    state.departures + (if Outstanding state.system.car.shm then 1 else 0) ≤ state.accepted

/-! ### The recorded writes are all writes -/

theorem carStep_destinationFloor {state next : CarSystem} {action : CarAction}
    (taken : carStep state action = some next) :
    next.car.shm.destinationFloor =
      (destinationWrites state action).getLastD state.car.shm.destinationFloor := by
  cases action with
  | loop ret =>
      obtain ⟨_, rfl⟩ := of_guarded taken
      exact elevatorLoop_destinationFloor ret state.car.shm
  | connectionTop =>
      obtain ⟨_, rfl⟩ := of_guarded taken
      rw [CarProcess.connectionTop_shm]
      by_cases applies : state.car.Applies
      · rw [CarProcess.applyPending_of_applies applies, destinationWrites, if_pos applies]
        rfl
      · rw [CarProcess.applyPending_of_not_applies applies, destinationWrites, if_neg applies]
        rfl
  | connect | disconnect | pollTimeout | pollReady _ | readNotify | send _ | deliver _ =>
      obtain ⟨_, rfl⟩ := of_guarded taken
      rfl
  | receive =>
      obtain ⟨pipe, message, later, _, _, rfl⟩ := carStep_receive taken
      rfl
  | operate operation =>
      simp only [carStep] at taken
      cases result : operate operation state.car.shm with
      | stored shm =>
          rw [result] at taken
          cases taken
          cases operation with
          | up | down =>
              simp only [destinationWrites, result]
              rfl
          | openDoors | closeDoors | stop | serviceOn | serviceOff =>
              cases result
              rfl
      | refused written =>
          rw [result] at taken
          cases taken
          cases operation <;> simp only [destinationWrites, result] <;> rfl
  | sensors doorObstruction overload =>
      cases taken
      rfl
  | monitor =>
      obtain ⟨_, _, _, rfl⟩ := carStep_monitor taken
      rfl

/-! ### One step -/

theorem tallyStep_eq_some {state next : TalliedCar} {action : CarAction}
    (taken : tallyStep state action = some next) :
    ∃ system, carStep state.system action = some system ∧ next.system = system ∧
      (SwitchesOn state.system action → next.accepted = 0 ∧ next.departures = 0) ∧
      (¬ SwitchesOn state.system action →
        next.accepted = state.accepted + (if AcceptsMove state.system action then 1 else 0) ∧
          next.departures = state.departures + departuresOf state.system action) := by
  obtain ⟨system, stepped, rfl⟩ := Option.map_eq_some_iff.mp taken
  refine ⟨system, stepped, ?_, ?_, ?_⟩
  · split <;> rfl
  · intro switches
    rw [if_pos switches]
    exact ⟨rfl, rfl⟩
  · intro keeps
    rw [if_neg keeps]
    exact ⟨rfl, rfl⟩

private theorem paidFor_of_quiet {state next : TalliedCar} (paid : PaidFor state)
    (service : next.system.car.shm.individualServiceMode = 1 →
      state.system.car.shm.individualServiceMode = 1)
    (outstanding : Outstanding next.system.car.shm → Outstanding state.system.car.shm)
    (accepted : state.accepted ≤ next.accepted) (departures : next.departures = state.departures) :
    PaidFor next := by
  intro serviceNext
  have before := paid (service serviceNext)
  rw [departures]
  by_cases stillOutstanding : Outstanding next.system.car.shm
  · rw [if_pos (outstanding stillOutstanding)] at before
    rw [if_pos stillOutstanding]
    omega
  · rw [if_neg stillOutstanding]
    omega

private theorem paidFor_loop {state next : TalliedCar} {ret : WaitResult} (paid : PaidFor state)
    (shm : next.system.car.shm = (elevatorLoop ret state.system.car.shm).shm)
    (accepted : state.accepted ≤ next.accepted)
    (departures : next.departures =
      state.departures + (elevatorLoop ret state.system.car.shm).departures) : PaidFor next := by
  intro serviceNext
  rw [shm, elevatorLoop_individualServiceMode] at serviceNext
  have before := paid serviceNext
  cases elevatorLoop_serviceMove ret (Or.inr serviceNext) with
  | arrives _ _ _ _ dropped _ none =>
      have reached : ¬ Outstanding next.system.car.shm := by
        rw [shm]
        exact fun outstanding => outstanding.1 dropped
      rw [departures, none, if_neg reached]
      omega
  | departs closed apart moving _ _ _ one =>
      have left : Outstanding state.system.car.shm :=
        ⟨fun same => apart same.symm, by rw [closed]; simp⟩
      have gone : ¬ Outstanding next.system.car.shm := by
        rw [shm]
        exact fun outstanding => outstanding.2 moving
      rw [if_pos left] at before
      rw [departures, one, if_neg gone]
      omega
  | stays status current destination _ none =>
      have same : Outstanding next.system.car.shm ↔ Outstanding state.system.car.shm := by
        simp only [shm, Outstanding, ne_eq, current, destination, status]
      rw [departures, none]
      simp only [same]
      omega

private theorem paidFor_operate {state next : TalliedCar} {operation : Operation}
    {shm : CarSharedMem} (paid : PaidFor state)
    (carried : NothingCarriedOver state (.operate operation))
    (taken : tallyStep state (.operate operation) = some next)
    (stored : operate operation state.system.car.shm = .stored shm)
    (after : next.system.car.shm = shm) : PaidFor next := by
  obtain ⟨_, _, _, switched, kept⟩ := tallyStep_eq_some taken
  cases operation with
  | serviceOn =>
      cases stored
      by_cases on : state.system.car.shm.individualServiceMode = 1
      · obtain ⟨accepted, departures⟩ := kept fun switches => switches.2 on
        exact paidFor_of_quiet paid (fun _ => on) (by rw [after]; exact id) (by omega) departures
      · obtain ⟨accepted, departures⟩ := switched ⟨rfl, on⟩
        intro _
        have settled : ¬ Outstanding next.system.car.shm := by
          rw [after]
          intro outstanding
          rcases outstanding with ⟨apart, notBetween⟩
          rcases carried on with same | between
          · exact apart same
          · exact notBetween between
        rw [if_neg settled, departures, accepted]
  | serviceOff =>
      cases stored
      intro serviceNext
      rw [after] at serviceNext
      have off : (0 : UInt8) = 1 := serviceNext
      exact absurd off (by decide)
  | up | down =>
      obtain ⟨service, closed, rfl⟩ := operateMove_stored stored
      obtain ⟨accepted, departures⟩ := kept fun switches => by cases switches.1
      intro serviceNext
      rw [after] at serviceNext
      have before := paid serviceNext
      rw [if_pos ⟨service, closed⟩] at accepted
      simp only [departuresOf] at departures
      split <;> omega
  | openDoors | closeDoors | stop =>
      cases stored
      obtain ⟨accepted, departures⟩ := kept fun switches => by cases switches.1
      exact paidFor_of_quiet paid (by rw [after]; exact id) (by rw [after]; exact id)
        (by omega) departures

theorem monitorPass_outstanding (shm : CarSharedMem) :
    Outstanding (Safety.monitorPass shm).shm → Outstanding shm := by
  rw [Safety.monitorPass_frame]
  intro outstanding
  rcases outstanding with ⟨apart, notBetween⟩
  refine ⟨apart, ?_⟩
  rcases Safety.monitorPass_status shm with same | ⟨closing, _⟩
  · rw [← same]
    exact notBetween
  · rw [closing]
    simp

/-- Each step keeps the account between commands and departures. -/
theorem paidFor_step (state : TalliedCar) (action : CarAction) (next : TalliedCar)
    (paid : PaidFor state) (carried : NothingCarriedOver state action)
    (taken : tallyStep state action = some next) : PaidFor next := by
  obtain ⟨system, stepped, after, _, kept⟩ := tallyStep_eq_some taken
  cases action with
  | loop ret =>
      obtain ⟨_, rfl⟩ := of_guarded stepped
      obtain ⟨accepted, departures⟩ := kept fun switches => by cases switches.1
      exact paidFor_loop paid (by rw [after]; rfl) (by omega) departures
  | connectionTop =>
      obtain ⟨_, rfl⟩ := of_guarded stepped
      obtain ⟨accepted, departures⟩ := kept fun switches => by cases switches.1
      by_cases applies : state.system.car.Applies
      · -- a destination is applied only while service mode is off
        intro serviceNext
        rw [after, CarProcess.connectionTop_shm,
          CarProcess.applyPending_of_applies applies] at serviceNext
        exact absurd applies (carried serviceNext)
      · have same : next.system.car.shm = state.system.car.shm := by
          rw [after, CarProcess.connectionTop_shm, CarProcess.applyPending_of_not_applies applies]
        exact paidFor_of_quiet paid (by rw [same]; exact id) (by rw [same]; exact id)
          (by omega) departures
  | operate operation =>
      rcases carStep_operate stepped with ⟨shm, stored, rfl⟩ | ⟨⟨written, refused⟩, rfl⟩
      · exact paidFor_operate paid carried taken stored (by rw [after]; rfl)
      · obtain ⟨accepted, departures⟩ := kept fun switches => by
          cases switches.1
          cases refused
        exact paidFor_of_quiet paid (by rw [after]; exact id) (by rw [after]; exact id)
          (by omega) departures
  | connect | disconnect | pollTimeout | pollReady _ | readNotify | send _ | deliver _ =>
      obtain ⟨_, rfl⟩ := of_guarded stepped
      obtain ⟨accepted, departures⟩ := kept fun switches => by cases switches.1
      exact paidFor_of_quiet paid (by rw [after]; exact id) (by rw [after]; exact id)
        (by omega) departures
  | receive =>
      obtain ⟨pipe, message, later, _, _, rfl⟩ := carStep_receive stepped
      obtain ⟨accepted, departures⟩ := kept fun switches => by cases switches.1
      exact paidFor_of_quiet paid (by rw [after]; exact id) (by rw [after]; exact id)
        (by omega) departures
  | sensors doorObstruction overload =>
      cases stepped
      obtain ⟨accepted, departures⟩ := kept fun switches => by cases switches.1
      exact paidFor_of_quiet paid (by rw [after]; exact id) (by rw [after]; exact id)
        (by omega) departures
  | monitor =>
      obtain ⟨_, _, passed, rfl⟩ := carStep_monitor stepped
      obtain ⟨accepted, departures⟩ := kept fun switches => by cases switches.1
      have outstanding := monitorPass_outstanding state.system.car.shm
      rw [passed] at outstanding
      exact paidFor_of_quiet paid (by rw [after]; exact id) (by rw [after]; exact outstanding)
        (by omega) departures

theorem acceptsMove_of_write {state : CarSystem} {operation : Operation} {value : CharArray 4}
    (member : value ∈ destinationWrites state (.operate operation)) :
    AcceptsMove state (.operate operation) := by
  cases operation with
  | up =>
      cases result : operate .up state.car.shm with
      | stored shm =>
          obtain ⟨service, closed, _⟩ := operateMove_stored result
          exact ⟨service, closed⟩
      | refused written => simp [destinationWrites, result] at member
  | down =>
      cases result : operate .down state.car.shm with
      | stored shm =>
          obtain ⟨service, closed, _⟩ := operateMove_stored result
          exact ⟨service, closed⟩
      | refused written => simp [destinationWrites, result] at member
  | openDoors | closeDoors | stop | serviceOn | serviceOff =>
      simp [destinationWrites] at member

theorem destinationLaw_of_nothingCarriedOver {state : TalliedCar} {action : CarAction}
    (carried : NothingCarriedOver state action) : DestinationLaw state.system action := by
  intro service value member
  cases action with
  | loop ret =>
      cases elevatorLoop_serviceMove ret (Or.inr service) with
      | arrives _ between _ _ _ writes _ =>
          simp only [destinationWrites, writes, List.mem_singleton] at member
          exact Or.inr ⟨ret, rfl, between, member⟩
      | departs _ _ _ _ _ writes _ | stays _ _ _ writes _ =>
          simp only [destinationWrites, writes, List.not_mem_nil] at member
  | connectionTop =>
      simp only [destinationWrites, if_neg (carried service), List.not_mem_nil] at member
  | operate operation => exact Or.inl (acceptsMove_of_write member)
  | _ => simp [destinationWrites] at member

/-! ### Whole runs -/

/-- In every run that carries no destination into service mode, the car leaves a floor at
most once for each accepted command, and each further such step obeys the law. -/
theorem serviceMode_moves_on_command (lowestFloor : CharArray 4) (actions : List CarAction)
    (reached : TalliedCar)
    (carried : Along tallyStep NothingCarriedOver (TalliedCar.start lowestFloor) actions)
    (ran : run tallyStep (TalliedCar.start lowestFloor) actions = some reached) :
    (reached.system.car.shm.individualServiceMode = 1 → reached.departures ≤ reached.accepted) ∧
      ∀ action, NothingCarriedOver reached action → DestinationLaw reached.system action := by
  have initial : PaidFor (TalliedCar.start lowestFloor) := by
    intro service
    have off : (0 : UInt8) = 1 := service
    exact absurd off (by decide)
  have paid := invariant_run paidFor_step initial carried ran
  refine ⟨fun service => ?_, fun action => destinationLaw_of_nothingCarriedOver⟩
  have account := paid service
  omega

def upOnce : TalliedCar :=
  { system :=
      { car :=
          { shm :=
              { resetShm (digitFloor 2).chars with individualServiceMode := 1 }
            wake := false
            notify := 2
            connection := .outside
            pendingDestination := CharArray.empty 4 }
        inbox := [] }
    accepted := 1
    departures := 1 }

/-- A floor request that is still pending when service mode is switched on. -/
def requestThenService : List CarAction :=
  [.connect, .send true, .send true, .deliver ⟨bytes "FLOOR 3", by decide⟩, .connectionTop,
    .pollReady true, .receive, .operate .serviceOn, .connectionTop, .loop .broadcast]

/-- The pending request moves the car in service mode without a command. -/
theorem serviceMode_moved_by_pending :
    ¬ ∀ (lowestFloor : CharArray 4) (actions : List CarAction) (reached : TalliedCar),
      run tallyStep (TalliedCar.start lowestFloor) actions = some reached →
        (reached.system.car.shm.individualServiceMode = 1 →
            reached.departures ≤ reached.accepted) ∧
          ∀ action next, tallyStep reached action = some next →
            DestinationLaw reached.system action := by
  intro always
  have account := (always (digitFloor 1).chars requestThenService
    { system :=
        { car :=
            { shm :=
                { resetShm (digitFloor 1).chars with
                  destinationFloor := (digitFloor 3).chars
                  status := Status.between.chars
                  individualServiceMode := 1 }
              wake := false
              notify := 1
              connection := .farewell (bytes "INDIVIDUAL SERVICE")
              pendingDestination := CharArray.empty 4 }
          inbox := [] }
      accepted := 0
      departures := 1 }
    (by decide)).1
  exact absurd (account rfl) (by decide)

theorem serviceMode_moves_on_command_up :
    ((upOnce.system.car.shm.individualServiceMode = 1 → upOnce.departures ≤ upOnce.accepted) ∧
      ∀ action, NothingCarriedOver upOnce action → DestinationLaw upOnce.system action) :=
  serviceMode_moves_on_command (digitFloor 1).chars
    [.operate .serviceOn, .operate .up, .loop .broadcast, .loop .timedOut] upOnce
    (by decide) (by decide)

end Cab403.Elevator
