/-
The registration of a car, over the car and the controller together. The connection
thread sends its `CAR` message before it looks at the modes, so a car that is out of
service registers, and may be selected until the controller has read that it leaves.
-/

import Cab403.Elevator.CallDispatch

namespace Cab403.Elevator.Peers

open CText ActionRuns Controller Framing CarRegistry

/-! ### The car and the controller -/

def registrationText (name : Token 255) (range : CarRange) : List UInt8 :=
  bytes "CAR" ++ 32 :: (name.text ++
    32 :: (range.lowestFloor.text ++ 32 :: range.highestFloor.text))

structure RegistrationSystem where
  car : CarSystem
  controller : ControllerState
  /-- The connections of the car, the latest first. -/
  connections : List PeerId
  /-- The mode was set when the latest `CAR` was sent, and has stayed set. -/
  emergencySince : Bool
  serviceSince : Bool

inductive RegistrationAction where
  /-- The car by itself, or a message that it gets. -/
  | car (action : CarAction)
  | connect (peer : PeerId) (connFd : Nat)
  | send (delivered : Bool)
  | disconnect
  /-- The controller, or one of the other peers. -/
  | controller (action : PeerAction)

def RegistrationSystem.start (lowestFloor : CharArray 4) (record : CarRecord) :
    RegistrationSystem :=
  { car := CarSystem.start lowestFloor
    controller := controllerStart record
    connections := []
    emergencySince := false
    serviceSince := false }

def OnSocket : CarAction → Prop
  | .connect | .disconnect | .send _ => True
  | _ => False

instance : DecidablePred OnSocket
  | .connect | .disconnect | .send _ => .isTrue trivial
  | .loop _ | .connectionTop | .pollTimeout | .pollReady _ | .receive | .readNotify
  | .deliver _ | .operate _ | .sensors _ _ | .monitor => .isFalse id

def PeerAction.outside? : PeerAction → Option PeerId
  | .connect peer _ | .sends peer _ | .closes peer => some peer
  | _ => none

def outgoingText (greeting : List UInt8) (car : CarProcess) : List UInt8 :=
  match car.connection with
  | .greeting => greeting
  | .report => statusText car.shm
  | .farewell message => message
  | _ => []

def outgoingFrame (greeting : List UInt8) (car : CarProcess) : List UInt8 :=
  let text := outgoingText greeting car
  htonl text.length ++ text

/-- The controller learns of an action, if it still runs. -/
def ControllerState.hears (state : ControllerState) (action : PeerAction) : ControllerState :=
  (peerStep state action).getD state

namespace RegistrationSystem

def track (state : RegistrationSystem) (car : CarSystem) : RegistrationSystem :=
  { state with
    car := car
    emergencySince := state.emergencySince && decide (car.car.shm.emergencyMode = 1)
    serviceSince := state.serviceSince && decide (car.car.shm.individualServiceMode = 1) }

def registered (state : RegistrationSystem) : RegistrationSystem :=
  { state with
    emergencySince := decide (state.car.car.shm.emergencyMode = 1)
    serviceSince := decide (state.car.car.shm.individualServiceMode = 1) }

def closeSocket (state : RegistrationSystem) (peer : PeerId) : RegistrationSystem :=
  { state with controller := state.controller.hears (.closes peer) }

/-- A mode was set before the latest `CAR` was sent and has stayed set. -/
def OutOfService (state : RegistrationSystem) : Prop :=
  state.emergencySince = true ∨ state.serviceSince = true

instance (state : RegistrationSystem) : Decidable state.OutOfService :=
  inferInstanceAs (Decidable (_ ∨ _))

/-- The thread has sent its `CAR` message, or tried to. -/
def sent (state : RegistrationSystem) (greeting : List UInt8) (peer : PeerId) (delivered : Bool)
    (car : CarSystem) : RegistrationSystem :=
  let tracked := state.track car
  if delivered then
    let heard :=
      { tracked with
        controller :=
          state.controller.hears (.sends peer (outgoingFrame greeting state.car.car)) }
    if state.car.car.connection = .greeting then heard.registered
    else if car.car.connection = .outside then heard.closeSocket peer
    else heard
  -- the process has ended
  else tracked.closeSocket peer

end RegistrationSystem

def registrationStep (name : Token 255) (range : CarRange) (state : RegistrationSystem) :
    RegistrationAction → Option RegistrationSystem
  | .car action =>
      if OnSocket action then none else (carStep state.car action).map state.track
  | .connect peer connFd => do
      let car ← carStep state.car .connect
      let controller ← peerStep state.controller (.connect peer connFd)
      return { state.track car with
        controller := controller
        connections := peer :: state.connections }
  | .send delivered =>
      match state.connections with
      | [] => none
      | peer :: _ =>
          (carStep state.car (.send delivered)).map
            (state.sent (registrationText name range) peer delivered)
  | .disconnect =>
      match state.connections with
      | [] => none
      | peer :: _ =>
          (carStep state.car .disconnect).map fun car => (state.track car).closeSocket peer
  | .controller action =>
      if ∀ peer ∈ action.outside?, peer ∉ state.connections then
        (peerStep state.controller action).map fun controller =>
          { state with controller := controller }
      else none

/-! ### When the car may register -/

def ControlAt.unselected? : ControlAt → Option Call
  | .taken call _ => some call
  | _ => none

/-- A car out of service is not the first in the list to reach the floors of a call that
is selected for, and no call is in hand for it when it registers with a mode set. -/
def NotDispatched (state : RegistrationSystem) : RegistrationAction → Prop
  | .controller .select =>
      state.OutOfService → ∀ call ∈ state.controller.control.unselected?,
        ∀ car ∈ state.controller.cars, car ∈ state.connections →
          canAccessFloors (state.controller.record car).range call →
            ∃ other ∈ state.controller.cars.takeWhile (fun other => other ≠ car),
              canAccessFloors (state.controller.record other).range call
  | .send _ =>
      state.car.car.connection = .greeting → state.registered.OutOfService →
        ∀ car ∈ state.connections, ¬ state.controller.control.Uses car
  | _ => True

instance (state : RegistrationSystem) (action : RegistrationAction) :
    Decidable (NotDispatched state action) := by
  unfold NotDispatched
  split <;> infer_instance

/-! ### Cars in use -/

section Use

variable {state next : ControllerState} {action : PeerAction}

theorem hears_handler (state : ControllerState) (handler : action.OfHandler) :
    Progresses state (state.hears action) ∧ (state.hears action).control = state.control := by
  unfold ControllerState.hears
  cases result : peerStep state action with
  | none => exact ⟨progresses_of_same rfl (fun _ => ⟨rfl, rfl⟩) rfl, rfl⟩
  | some after =>
      obtain ⟨_, handled⟩ := handlerStep_of_ofHandler result handler
      exact ⟨handled.toProgresses, handled.control⟩

/-- What a step of the control loop leaves alone, and the car it takes into use. -/
structure ControlStep (before : ControllerState) (action : PeerAction) (after : ControllerState) :
    Prop where
  thread : after.thread = before.thread
  cars : after.cars = before.cars
  uses : ∀ car, after.control.Uses car → before.control.Uses car ∨
    action = .select ∧
      ∃ call ∈ before.control.unselected?, before.selectBestCar call = some car

theorem controlStep_of_case (step : ControlCase state action next) :
    ControlStep state action next := by
  cases step with
  | take waiting queued => exact ⟨rfl, rfl, fun _ => False.elim⟩
  | select selecting found =>
      refine ⟨rfl, rfl, ?_⟩
      intro car same
      subst same
      refine Or.inr ⟨rfl, _, ?_, found⟩
      rw [selecting]
      rfl
  | selectNone selecting missing => exact ⟨rfl, rfl, fun _ => False.elim⟩
  | insert selected present computed fits =>
      rw [send_eq]
      refine ⟨rfl, rfl, ?_⟩
      intro other same
      rw [selected]
      exact Or.inl same
  | insertFreed selected freed => exact ⟨rfl, rfl, fun _ => Or.inl⟩
  | refuse replying fits =>
      rw [send_eq]
      exact ⟨rfl, rfl, fun _ => False.elim⟩
  | reply replying present fits =>
      rw [send_eq]
      exact ⟨rfl, rfl, fun _ => False.elim⟩
  | replyFreed replying freed => exact ⟨rfl, rfl, fun _ => Or.inl⟩

theorem selectBestCar_first {call : Call} {car : PeerId}
    (found : state.selectBestCar call = some car) :
    car ∈ state.cars ∧ canAccessFloors (state.record car).range call ∧
      ∀ other ∈ state.cars.takeWhile (fun other => other ≠ car),
        ¬ canAccessFloors (state.record other).range call := by
  obtain ⟨fits, before, after, split, skipped⟩ := List.find?_eq_some_iff_append.mp found
  have reaches : canAccessFloors (state.record car).range call := of_decide_eq_true fits
  have earlier : ∀ other ∈ before, ¬ canAccessFloors (state.record other).range call := by
    intro other member
    simpa using skipped other member
  have passed : ∀ other ∈ before, decide (other ≠ car) = true := by
    intro other member
    rw [decide_eq_true_eq]
    rintro rfl
    exact earlier other member reaches
  refine ⟨List.mem_of_find?_eq_some found, reaches, ?_⟩
  rw [split, List.takeWhile_append_of_pos passed, List.takeWhile_cons_of_neg (by simp),
    List.append_nil]
  exact earlier

end Use

/-! ### Calls in hand -/

/-- A car that the control loop has selected is not out of service. -/
structure InHandInService (state : RegistrationSystem) : Prop where
  listed : ∀ car ∈ state.controller.cars, (state.controller.thread car).Registered
  used : ∀ car, state.controller.control.Uses car → (state.controller.thread car).Registered
  inService : ∀ car ∈ state.connections, state.controller.control.Uses car → ¬ state.OutOfService

section Steps

variable {state next : RegistrationSystem}

theorem inHandInService_start (lowestFloor : CharArray 4) (record : CarRecord) :
    InHandInService (RegistrationSystem.start lowestFloor record) :=
  { listed := by intro car member; cases member
    used := fun _ => False.elim
    inService := by intro car member; cases member }

/-- A step of the car or of a handler takes no car into use. -/
theorem InHandInService.ofHandler (held : InHandInService state)
    (progresses : Progresses state.controller next.controller)
    (control : next.controller.control = state.controller.control)
    (inService : ∀ car ∈ next.connections, state.controller.control.Uses car →
      ¬ next.OutOfService) : InHandInService next := by
  refine ⟨?_, ?_, ?_⟩
  · intro car member
    rcases progresses.listed car member with before | fresh
    · exact (progresses.registered car (held.listed car before)).1
    · exact fresh
  · rw [control]
    exact fun car uses => (progresses.registered car (held.used car uses)).1
  · rw [control]
    exact inService

theorem outOfService_track {car : CarSystem} (out : (state.track car).OutOfService) :
    state.OutOfService := by
  simp only [RegistrationSystem.OutOfService, RegistrationSystem.track, Bool.and_eq_true] at out ⊢
  exact out.imp And.left And.left

theorem InHandInService.hears (held : InHandInService state) {action : PeerAction}
    (handler : action.OfHandler) :
    InHandInService { state with controller := state.controller.hears action } := by
  obtain ⟨progresses, control⟩ := hears_handler state.controller handler
  exact held.ofHandler progresses control held.inService

theorem InHandInService.track (held : InHandInService state) (car : CarSystem) :
    InHandInService (state.track car) := by
  refine held.ofHandler (progresses_of_same rfl (fun _ => ⟨rfl, rfl⟩) rfl) rfl ?_
  exact fun connection member uses out =>
    held.inService connection member uses (outOfService_track out)

theorem inHandInService_sent {greeting : List UInt8} {peer : PeerId} {delivered : Bool}
    {car : CarSystem} (held : InHandInService state)
    (notDispatched : NotDispatched state (.send delivered))
    (same : car.car.shm = state.car.car.shm) :
    InHandInService (state.sent greeting peer delivered car) := by
  have tracked := held.track car
  have sends : (PeerAction.sends peer (outgoingFrame greeting state.car.car)).OfHandler := trivial
  have closes : (PeerAction.closes peer).OfHandler := trivial
  have heard := tracked.hears sends
  unfold RegistrationSystem.sent
  dsimp only
  split
  · split
    · rename_i greets
      -- the modes are looked at again, and no call is in hand for the car
      refine ⟨heard.listed, heard.used, ?_⟩
      intro connection member uses out
      refine notDispatched greets ?_ connection member ?_
      · simp only [RegistrationSystem.OutOfService, RegistrationSystem.registered] at out ⊢
        simpa only [RegistrationSystem.track, same] using out
      · rw [← (hears_handler state.controller sends).2]
        exact uses
    · split
      · exact heard.hears closes
      · exact heard
  · exact tracked.hears closes

theorem inHandInService_control {action : PeerAction} {controller : ControllerState}
    (held : InHandInService state) (notDispatched : NotDispatched state (.controller action))
    (stepped : ControlStep state.controller action controller) :
    InHandInService { state with controller := controller } := by
  obtain ⟨thread, cars, uses⟩ := stepped
  refine ⟨?_, ?_, ?_⟩
  · change ∀ car ∈ controller.cars, (controller.thread car).Registered
    rw [cars, thread]
    exact held.listed
  · change ∀ car, controller.control.Uses car → (controller.thread car).Registered
    rw [thread]
    intro car used
    rcases uses car used with before | ⟨_, call, _, found⟩
    · exact held.used car before
    · exact held.listed car (selectBestCar_first found).1
  · intro car member used out
    rcases uses car used with before | ⟨rfl, call, unselected, found⟩
    · exact held.inService car member before out
    · -- an earlier car of the list would have been selected
      obtain ⟨listed, reaches, first⟩ := selectBestCar_first found
      obtain ⟨other, earlier, fits⟩ := notDispatched out call unselected car listed member reaches
      exact first other earlier fits

theorem inHandInService_connect {peer : PeerId} {connFd : Nat} {car : CarSystem}
    {controller : ControllerState} (held : InHandInService state)
    (accepted : peerStep state.controller (.connect peer connFd) = some controller) :
    InHandInService { state.track car with
      controller := controller
      connections := peer :: state.connections } := by
  obtain ⟨_, handled⟩ := handlerStep_of_ofHandler accepted trivial
  have unused : ¬ (state.controller.thread peer).Registered := by
    cases (peerStep_cases accepted).2 with
    | connect absent free =>
        rw [absent]
        exact id
    | control step => cases step
  refine held.ofHandler handled.toProgresses handled.control ?_
  intro connection member uses out
  rcases List.mem_cons.mp member with rfl | old
  · exact unused (held.used connection uses)
  · exact held.inService connection old uses (outOfService_track out)

theorem carStep_send_shm {car after : CarSystem} {delivered : Bool}
    (taken : carStep car (.send delivered) = some after) : after.car.shm = car.car.shm := by
  obtain ⟨_, rfl⟩ := of_guarded taken
  rfl

theorem inHandInService_step {name : Token 255} {range : CarRange} {action : RegistrationAction}
    (held : InHandInService state) (notDispatched : NotDispatched state action)
    (taken : registrationStep name range state action = some next) : InHandInService next := by
  cases action with
  | car action =>
      simp only [registrationStep] at taken
      split at taken
      · cases taken
      · obtain ⟨car, _, rfl⟩ := Option.map_eq_some_iff.mp taken
        exact held.track car
  | connect peer connFd =>
      obtain ⟨car, _, later⟩ := Option.bind_eq_some_iff.mp taken
      obtain ⟨controller, accepted, connected⟩ := Option.bind_eq_some_iff.mp later
      cases connected
      exact inHandInService_connect held accepted
  | send delivered =>
      simp only [registrationStep] at taken
      split at taken
      · cases taken
      · obtain ⟨car, stepped, rfl⟩ := Option.map_eq_some_iff.mp taken
        exact inHandInService_sent held notDispatched (carStep_send_shm stepped)
  | disconnect =>
      simp only [registrationStep] at taken
      split at taken
      · cases taken
      · obtain ⟨car, _, rfl⟩ := Option.map_eq_some_iff.mp taken
        exact (held.track car).hears trivial
  | controller action =>
      obtain ⟨_, mapped⟩ := Option.ite_none_right_eq_some.mp taken
      obtain ⟨controller, stepped, rfl⟩ := Option.map_eq_some_iff.mp mapped
      by_cases handler : action.OfHandler
      · obtain ⟨_, handled⟩ := handlerStep_of_ofHandler stepped handler
        exact held.ofHandler handled.toProgresses handled.control held.inService
      · have controls := controlStep_of_case (controlCase_of_taken stepped handler)
        exact inHandInService_control held notDispatched controls

end Steps

/-! ### Whole runs -/

def ControlAt.offered? : ControlAt → Option PeerId
  | .replying _ car => car
  | _ => none

def RepliesInService (name : Token 255) (range : CarRange) (state : RegistrationSystem) : Prop :=
  ∀ writes next, registrationStep name range state (.controller (.reply writes)) = some next →
    ∀ car ∈ state.connections, state.controller.control.offered? = some car →
      ¬ state.OutOfService

/-- No reply names a car that was out of service when it registered and has stayed so,
in every run in which such a car is not dispatched. -/
theorem no_reply_out_of_service (name : Token 255) (range : CarRange)
    (lowestFloor : CharArray 4) (record : CarRecord) (actions : List RegistrationAction)
    (reached : RegistrationSystem)
    (notDispatched : Along (registrationStep name range) NotDispatched
      (RegistrationSystem.start lowestFloor record) actions)
    (ran : run (registrationStep name range) (RegistrationSystem.start lowestFloor record)
      actions = some reached) : RepliesInService name range reached := by
  have held : InHandInService reached :=
    invariant_run (fun _ _ _ held allowed taken => inHandInService_step held allowed taken)
      (inHandInService_start lowestFloor record) notDispatched ran
  intro writes next _ car member offered
  apply held.inService car member
  cases at_ : reached.controller.control <;> rw [at_] at offered
  · cases offered
  · cases offered
  · cases offered
  · simp only [ControlAt.offered?] at offered
    subst offered
    rfl

/-! ### A registration in service mode -/

def registers (peer : PeerId) : List RegistrationAction :=
  [.connect peer 4, .send true, .send true,
    .controller (.receive peer [] (Vector.replicate 4 7)),
    .controller (.receive peer [] (Vector.replicate 4 7)), .controller (.link peer)]

theorem callTwoThree_noNul : (0 : UInt8) ∉ bytes "CALL 2 3" := by decide

def isCalledFor (peer : PeerId) : List RegistrationAction :=
  [.controller (.connect peer 5),
    .controller (.sends peer (frame ⟨bytes "CALL 2 3", callTwoThree_noNul⟩)),
    .controller (.receive peer [] (Vector.replicate 4 7)), .controller .take, .controller .select,
    .controller (.insert [.sent 3])]

def nameA : Token 255 := blankRecord.name

/-- Service mode is on before the car connects. -/
def registersInService : List RegistrationAction :=
  .car (.operate .serviceOn) :: (registers 0 ++ isCalledFor 1)

def calledInService : RegistrationSystem :=
  (run (registrationStep nameA oneToNine)
    (RegistrationSystem.start (digitFloor 1).chars blankRecord) registersInService).get
      (by decide +kernel)

/-- The call is answered with the car before the controller reads that it leaves. -/
theorem reply_out_of_service :
    ¬ ∀ (name : Token 255) (range : CarRange) (lowestFloor : CharArray 4) (record : CarRecord)
        (actions : List RegistrationAction) (reached : RegistrationSystem),
      run (registrationStep name range) (RegistrationSystem.start lowestFloor record) actions =
          some reached → RepliesInService name range reached := by
  intro never
  have answered : (registrationStep nameA oneToNine calledInService
      (.controller (.reply []))).isSome = true := by decide +kernel
  have inService := never nameA oneToNine (digitFloor 1).chars blankRecord registersInService
    calledInService (Option.some_get _).symm [] _ (Option.some_get answered).symm 0
    (by decide +kernel) (by decide +kernel)
  exact inService (by decide +kernel)

def registersInTime : List RegistrationAction :=
  registers 0 ++ isCalledFor 1 ++ [.car (.operate .serviceOn)]

def calledInTime : RegistrationSystem :=
  (run (registrationStep nameA oneToNine)
    (RegistrationSystem.start (digitFloor 1).chars blankRecord) registersInTime).get
      (by decide +kernel)

theorem no_reply_out_of_service_inTime : RepliesInService nameA oneToNine calledInTime :=
  no_reply_out_of_service nameA oneToNine (digitFloor 1).chars blankRecord registersInTime
    calledInTime (by decide +kernel) (Option.some_get _).symm

end Cab403.Elevator.Peers
