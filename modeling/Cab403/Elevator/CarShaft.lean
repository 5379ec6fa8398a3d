/-
A car and the controller's records of its connections. Calls and reports are
arbitrary. The range of the car is looked at once, at the selection of a call; every
stop, every `FLOOR` message and every floor on the way stays in it from there.
-/

import Cab403.Elevator.CarFloors
import Cab403.Elevator.ControllerPeers
import Cab403.Elevator.FloorInsertion

namespace Cab403.Elevator

open CText ActionRuns Controller CarRegistry Peers

def InShaft (range : CarRange) (number : Int) : Prop :=
  tokenFloorNumber range.lowestFloor ≤ number ∧ number ≤ tokenFloorNumber range.highestFloor

/-! ### The car and its records -/

structure ShaftSystem where
  system : CarSystem
  /-- The records of the car's connections that are not freed yet. -/
  record : PeerId → Option CarRecord
  /-- The call for which the control loop has selected a record. -/
  selected : Option (Call × PeerId)
  /-- The floors of all `FLOOR` messages written to a connection of the car. -/
  sent : List (Token 3)

inductive ShaftAction where
  | car (action : CarAction)
  | register (connection : PeerId) (report : CarData)
  | free (connection : PeerId)
  | report (connection : PeerId) (report : CarData)
  | serve (connection : PeerId) (delivered : Bool)
  | select (call : Call) (connection : PeerId)
  | insert (delivered : Bool)

def ShaftSystem.start (range : CarRange) : ShaftSystem :=
  { system := CarSystem.start range.lowestFloor.chars
    record := fun _ => none
    selected := none
    sent := [] }

/-- Service mode is never switched on, and only the controller sends messages. -/
def OwnAction : CarAction → Prop
  | .deliver _ | .operate .serviceOn => False
  | _ => True

instance : DecidablePred OwnAction
  | .deliver _ | .operate .serviceOn => .isFalse id
  | .loop _ | .connect | .disconnect | .connectionTop | .pollTimeout | .pollReady _ | .receive
  | .readNotify | .send _ | .sensors _ _ | .monitor => .isTrue trivial
  | .operate .openDoors | .operate .closeDoors | .operate .stop | .operate .serviceOff
  | .operate .up | .operate .down => .isTrue trivial

def ShaftSystem.storeRecord (state : ShaftSystem) (connection : PeerId)
    (record : Option CarRecord) : ShaftSystem :=
  { state with record := Function.update state.record connection record }

/-- The `FLOOR` message of an update, if there is one. It is lost if the car has closed
the connection. -/
def ShaftSystem.announce (state : ShaftSystem) (delivered : Bool) :
    Option (Token 3) → ShaftSystem
  | none => state
  | some floor =>
      { state with
        system :=
          if delivered then (carStep state.system (.deliver (floorText floor))).getD state.system
          else state.system
        sent := state.sent ++ [floor] }

def shaftStep (name : Token 255) (range : CarRange) (state : ShaftSystem) :
    ShaftAction → Option ShaftSystem
  | .car action =>
      if OwnAction action then
        (carStep state.system action).map fun system => { state with system := system }
      else none
  | .register connection report =>
      some
        (state.storeRecord connection
          (some { name := name, range := range, data := report, queue := [] }))
  | .free connection => some (state.storeRecord connection none)
  | .report connection report => do
      let record ← state.record connection
      return state.storeRecord connection (some { record with data := report })
  | .serve connection delivered => do
      let record ← state.record connection
      let update := serveArrival record.data record.queue
      return (state.storeRecord connection (some { record with queue := update.queue })).announce
        delivered update.sent
  | .select call connection => do
      let record ← state.record connection
      if canAccessFloors record.range call then
        return { state with selected := some (call, connection) }
      else none
  | .insert delivered => do
      let (call, connection) ← state.selected
      let record ← state.record connection
      let update := insertFloorsIntoQueue record.data record.queue call
      return ({ state with selected := none }.storeRecord connection
        (some { record with queue := update.queue })).announce delivered update.sent

/-! ### Bounds -/

structure StaysInShaft (range : CarRange) (state : ShaftSystem) : Prop where
  queued : ∀ connection record, state.record connection = some record →
    ∀ node ∈ record.queue, InShaft range (tokenFloorNumber node.floor)
  sent : ∀ floor ∈ state.sent, InShaft range (tokenFloorNumber floor)
  currentFloor : InShaft range (floorStrToInt state.system.car.shm.currentFloor)

def FloorInShaft (range : CarRange) (floor : CharArray 4) : Prop :=
  floor.Terminated ∧ InShaft range (floorStrToInt floor)

structure ShaftInvariant (range : CarRange) (state : ShaftSystem) : Prop where
  registered : ∀ connection record, state.record connection = some record →
    record.range = range ∧ ∀ node ∈ record.queue, InShaft range (tokenFloorNumber node.floor)
  selected : ∀ call connection, state.selected = some (call, connection) →
    InShaft range (tokenFloorNumber call.currentFloor) ∧
      InShaft range (tokenFloorNumber call.destinationFloor)
  sent : ∀ floor ∈ state.sent, InShaft range (tokenFloorNumber floor)
  floors : FloorsSatisfy (FloorInShaft range) state.system
  noService : state.system.car.shm.individualServiceMode = 0

theorem ShaftInvariant.stays {range : CarRange} {state : ShaftSystem}
    (invariant : ShaftInvariant range state) : StaysInShaft range state :=
  { queued := fun connection record present => (invariant.registered connection record present).2
    sent := invariant.sent
    currentFloor := invariant.floors.current.2 }

section Steps

variable {range : CarRange} {state next : ShaftSystem}

theorem floorInShaft_chars {floor : Token 3} :
    FloorInShaft range floor.chars ↔ InShaft range (tokenFloorNumber floor) :=
  and_iff_right floor.chars_terminated

theorem shaftInvariant_start (ordered : tokenFloorNumber range.lowestFloor ≤
    tokenFloorNumber range.highestFloor) : ShaftInvariant range (ShaftSystem.start range) :=
  { registered := by intro connection record present; cases present
    selected := by intro call connection present; cases present
    sent := by intro floor member; cases member
    floors := floorsSatisfy_start (floorInShaft_chars.mpr ⟨le_refl _, ordered⟩)
    noService := rfl }

/-- A floor on the way lies between the floor left and the destination. -/
theorem floorInShaft_moveFloor {current destination : CharArray 4}
    (from_ : FloorInShaft range current) (to_ : FloorInShaft range destination) :
    FloorInShaft range (moveFloor current destination) := by
  have currentBounds := floorStrToInt_bounds from_.1
  have destinationBounds := floorStrToInt_bounds to_.1
  obtain ⟨terminated, low, high⟩ := from_
  obtain ⟨_, lowDestination, highDestination⟩ := to_
  refine ⟨moveFloor_terminated terminated, ?_⟩
  unfold moveFloor InShaft
  dsimp only
  split
  · rw [floorStrToInt_floorIntToStr (by omega) (by omega)]
    omega
  · split
    · rw [floorStrToInt_floorIntToStr (by omega) (by omega)]
      omega
    · exact ⟨low, high⟩

/-! ### The car's own steps -/

theorem carStep_noService {system after : CarSystem} {action : CarAction}
    (noService : system.car.shm.individualServiceMode = 0) (own : OwnAction action)
    (taken : carStep system action = some after) :
    after.car.shm.individualServiceMode = 0 := by
  cases action with
  | loop ret =>
      obtain ⟨_, rfl⟩ := of_guarded taken
      exact elevatorLoop_individualServiceMode.trans noService
  | connect | disconnect | pollTimeout | pollReady _ | readNotify | send _ | deliver _ =>
      obtain ⟨_, rfl⟩ := of_guarded taken
      exact noService
  | connectionTop =>
      obtain ⟨_, rfl⟩ := of_guarded taken
      rw [CarProcess.connectionTop_shm]
      unfold CarProcess.applyPending
      split <;> exact noService
  | receive =>
      obtain ⟨_, _, _, _, _, rfl⟩ := carStep_receive taken
      exact noService
  | operate operation =>
      rcases carStep_operate taken with ⟨shm, stored, rfl⟩ | ⟨_, rfl⟩
      · cases operation with
        | serviceOn => exact absurd own id
        | up | down =>
            obtain ⟨service, _, rfl⟩ := operateMove_stored stored
            exact absurd noService service
        | openDoors | closeDoors | stop =>
            cases stored
            exact noService
        | serviceOff =>
            cases stored
            rfl
      · exact noService
  | sensors doorObstruction overload =>
      cases taken
      exact noService
  | monitor =>
      obtain ⟨_, _, _, rfl⟩ := carStep_monitor taken
      exact noService

/-- Without service mode the car brings in no floor of its own. -/
theorem supplies_ownAction {system : CarSystem} {action : CarAction}
    (floors : FloorsSatisfy (FloorInShaft range) system)
    (noService : system.car.shm.individualServiceMode = 0) (own : OwnAction action) :
    Supplies (FloorInShaft range) system action := by
  cases action with
  | loop ret => exact fun _ _ => floorInShaft_moveFloor floors.current floors.destination
  | deliver message => exact absurd own id
  | operate operation =>
      intro shm stored
      cases operation with
      | serviceOn => exact absurd own id
      | up | down =>
          obtain ⟨service, _⟩ := operateMove_stored stored
          exact absurd noService service
      | openDoors | closeDoors | stop | serviceOff =>
          cases stored
          exact floors.destination
  | connect | disconnect | connectionTop | pollTimeout | receive | readNotify | monitor => trivial
  | pollReady socket => trivial
  | send delivered => trivial
  | sensors doorObstruction overload => trivial

/-! ### The controller's steps -/

theorem floorMessage?_text (floor : Token 3) :
    floorMessage? (floorText floor).text = some floor := by
  have ends : FieldEnds [] := by
    intro byte member
    cases member
  have scanned := floorMessage?_append floor ends
  rw [List.append_nil] at scanned
  exact scanned

theorem shaftInvariant_announce {sent : Option (Token 3)} (invariant : ShaftInvariant range state)
    (delivered : Bool)
    (inShaft : ∀ floor, sent = some floor → InShaft range (tokenFloorNumber floor)) :
    ShaftInvariant range (state.announce delivered sent) := by
  cases sent with
  | none => exact invariant
  | some floor =>
      have allowed := inShaft floor rfl
      have arrives : ∀ after, carStep state.system (.deliver (floorText floor)) = some after →
          FloorsSatisfy (FloorInShaft range) after ∧ after.car.shm.individualServiceMode = 0 := by
        intro after taken
        constructor
        · refine floorsSatisfy_step invariant.floors ?_ taken
          intro named scanned
          rw [floorMessage?_text] at scanned
          cases scanned
          exact floorInShaft_chars.mpr allowed
        · obtain ⟨_, rfl⟩ := of_guarded taken
          exact invariant.noService
      have kept :
          FloorsSatisfy (FloorInShaft range) (state.announce delivered (some floor)).system ∧
            (state.announce delivered (some floor)).system.car.shm.individualServiceMode = 0 := by
        simp only [ShaftSystem.announce]
        split
        · cases result : carStep state.system (.deliver (floorText floor)) with
          | none => exact ⟨invariant.floors, invariant.noService⟩
          | some after => exact arrives after result
        · exact ⟨invariant.floors, invariant.noService⟩
      refine ⟨invariant.registered, invariant.selected, ?_, kept.1, kept.2⟩
      intro other member
      rcases List.mem_append.mp member with old | new
      · exact invariant.sent other old
      · rw [List.mem_singleton.mp new]
        exact allowed

theorem shaftInvariant_storeRecord (invariant : ShaftInvariant range state) (connection : PeerId)
    {stored : Option CarRecord}
    (fits : ∀ record, stored = some record →
      record.range = range ∧ ∀ node ∈ record.queue, InShaft range (tokenFloorNumber node.floor)) :
    ShaftInvariant range (state.storeRecord connection stored) := by
  refine ⟨?_, invariant.selected, invariant.sent, invariant.floors, invariant.noService⟩
  intro other record present
  change Function.update state.record connection stored other = some record at present
  by_cases own : other = connection
  · subst own
    rw [Function.update_self] at present
    exact fits record present
  · rw [Function.update_of_ne own] at present
    exact invariant.registered other record present

/-- What an update announces is the head of the queue it leaves. -/
theorem announces_inShaft {before : List FloorNode} {update : QueueUpdate}
    (announces : Announces before update)
    (queued : ∀ node ∈ update.queue, InShaft range (tokenFloorNumber node.floor)) :
    ∀ floor, update.sent = some floor → InShaft range (tokenFloorNumber floor) := by
  intro floor sent
  obtain ⟨head, first, rfl⟩ := Option.map_eq_some_iff.mp (announces.sent floor sent)
  exact queued head (List.mem_of_mem_head? first)

theorem shaftInvariant_step {name : Token 255} {action : ShaftAction}
    (invariant : ShaftInvariant range state)
    (taken : shaftStep name range state action = some next) :
    ShaftInvariant range next := by
  cases action with
  | car action =>
      simp only [shaftStep] at taken
      split at taken
      · rename_i own
        obtain ⟨after, stepped, rfl⟩ := Option.map_eq_some_iff.mp taken
        exact
          { registered := invariant.registered
            selected := invariant.selected
            sent := invariant.sent
            floors := floorsSatisfy_step invariant.floors
              (supplies_ownAction invariant.floors invariant.noService own) stepped
            noService := carStep_noService invariant.noService own stepped }
      · cases taken
  | register connection report =>
      cases taken
      apply shaftInvariant_storeRecord invariant
      rintro record ⟨⟩
      exact ⟨rfl, by intro node member; cases member⟩
  | free connection =>
      cases taken
      apply shaftInvariant_storeRecord invariant
      rintro record ⟨⟩
  | report connection report =>
      obtain ⟨record, present, stored⟩ := Option.bind_eq_some_iff.mp taken
      cases stored
      apply shaftInvariant_storeRecord invariant
      rintro other ⟨⟩
      exact invariant.registered connection record present
  | serve connection delivered =>
      obtain ⟨record, present, stored⟩ := Option.bind_eq_some_iff.mp taken
      cases stored
      obtain ⟨registered, queued⟩ := invariant.registered connection record present
      have remaining : ∀ node ∈ (serveArrival record.data record.queue).queue,
          InShaft range (tokenFloorNumber node.floor) :=
        fun node member => queued node ((serveArrival_sublist _ _).subset member)
      apply shaftInvariant_announce
      · apply shaftInvariant_storeRecord invariant
        rintro other ⟨⟩
        exact ⟨registered, remaining⟩
      · exact announces_inShaft (serveArrival_announces record.data record.queue) remaining
  | select call connection =>
      obtain ⟨record, present, selected⟩ := Option.bind_eq_some_iff.mp taken
      split at selected
      · rename_i reaches
        cases selected
        rw [(invariant.registered connection record present).1] at reaches
        obtain ⟨⟨⟨lowFrom, highFrom⟩, lowTo⟩, highTo⟩ := reaches
        refine ⟨invariant.registered, ?_, invariant.sent, invariant.floors, invariant.noService⟩
        rintro other chosen ⟨⟩
        exact ⟨⟨lowFrom, highFrom⟩, ⟨lowTo, highTo⟩⟩
      · cases selected
  | insert delivered =>
      obtain ⟨⟨call, connection⟩, selected, later⟩ := Option.bind_eq_some_iff.mp taken
      obtain ⟨record, present, stored⟩ := Option.bind_eq_some_iff.mp later
      cases stored
      obtain ⟨registered, queued⟩ := invariant.registered connection record present
      obtain ⟨fromFloor, toFloor⟩ := invariant.selected call connection selected
      have inserted : ∀ node ∈ (insertFloorsIntoQueue record.data record.queue call).queue,
          InShaft range (tokenFloorNumber node.floor) := by
        intro node member
        rcases mem_insertFloors member with old | rfl | rfl
        · exact queued node old
        · exact fromFloor
        · exact toFloor
      have released : ShaftInvariant range { state with selected := none } :=
        { invariant with selected := by intro other chosen none_; cases none_ }
      apply shaftInvariant_announce
      · apply shaftInvariant_storeRecord released
        rintro other ⟨⟩
        exact ⟨registered, inserted⟩
      · exact announces_inShaft (insertFloorsIntoQueue_announces record.data record.queue call)
          inserted

end Steps

/-! ### Whole runs -/

/-- A car that is registered with its range, starts at its lowest floor and never
enters service mode stays in its shaft, and so do its stops and `FLOOR` messages. -/
theorem car_stays_in_shaft (name : Token 255) (range : CarRange)
    (ordered : tokenFloorNumber range.lowestFloor ≤ tokenFloorNumber range.highestFloor)
    (actions : List ShaftAction) (reached : ShaftSystem)
    (ran : run (shaftStep name range) (ShaftSystem.start range) actions = some reached) :
    StaysInShaft range reached := by
  have invariant : ShaftInvariant range reached :=
    invariant_run_always (fun _ _ _ held taken => shaftInvariant_step held taken)
      (shaftInvariant_start ordered) ran
  exact invariant.stays

def callTwoThree : Call :=
  { currentFloor := digitFloor 2
    destinationFloor := digitFloor 3 }

def restingAtOne : CarData :=
  { currentFloor := digitFloor 1
    destinationFloor := digitFloor 1
    status := statusToken .closed }

/-- The car registers, is selected for a call and moves to its first stop. -/
def movesToCaller : List ShaftAction :=
  [.car .connect, .car (.send true), .car (.send true), .register 0 restingAtOne,
    .select callTwoThree 0, .insert true, .car .connectionTop, .car (.pollReady true),
    .car .receive, .car .connectionTop, .car (.loop .broadcast), .car (.loop .timedOut)]

theorem car_stays_in_shaft_movesToCaller :
    StaysInShaft oneToNine
      ((run (shaftStep (Token.ofText (bytes "A")) oneToNine) (ShaftSystem.start oneToNine)
        movesToCaller).get (by decide)) :=
  car_stays_in_shaft (Token.ofText (bytes "A")) oneToNine (by decide) movesToCaller _
    (Option.some_get _).symm

end Cab403.Elevator
