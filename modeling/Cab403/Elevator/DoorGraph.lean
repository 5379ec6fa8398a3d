/-
The door and motion law of the car: which status may be written over which, and
that the floor changes only on a car found between floors. Every handler is
walked once, store by store; one branch of the normal-mode timeout breaks it.
-/

import Cab403.Elevator.ElevatorLoop
import Mathlib.Data.List.Chain

namespace Cab403.Elevator

open CText

def DoorEdge : Status → Status → Prop
  | .closed, .opening => True
  | .closed, .between => True
  | .opening, .opened => True
  | .opening, .closing => True
  | .opened, .closing => True
  | .closing, .closed => True
  | .closing, .opening => True
  | .between, .closed => True
  | _, _ => False

instance (before after : Status) : Decidable (DoorEdge before after) := by
  cases before <;> cases after <;> first | exact isTrue trivial | exact isFalse id

theorem DoorEdge.closed_of_between {before : Status} (edge : DoorEdge before .between) :
    before = .closed := by
  revert edge
  cases before <;> decide

def Effect.statusWrite? : Effect → Option Status
  | .status value => some value
  | _ => none

/-- The values an iteration wrote to `status`, in order. -/
def Iteration.statusWrites (it : Iteration) : List Status :=
  it.effects.filterMap Effect.statusWrite?

structure DoorLaw (found : Status) (before : CarSharedMem) (it : Iteration) : Prop where
  edges : List.IsChain DoorEdge (found :: it.statusWrites)
  betweenOverClosed :
    List.IsChain (fun prior value => value = .between → prior = .closed)
      (found :: it.statusWrites)
  floorFromBetween : it.shm.currentFloor ≠ before.currentFloor → found = .between

/-! ### Following the stores of a handler -/

/-- The writes so far follow the graph and end in the status the memory holds. -/
structure Lawful (found : Status) (it : Iteration) : Prop where
  edges : List.IsChain DoorEdge (found :: it.statusWrites)
  held : it.shm.status = ((found :: it.statusWrites).getLast (List.cons_ne_nil _ _)).chars

namespace Lawful

variable {found : Status} {it : Iteration}

theorem initial {shm : CarSharedMem} (held : shm.status = found.chars) :
    Lawful found (Iteration.start shm) :=
  { edges := List.isChain_singleton found
    held := held }

theorem strcpyStatus (lawful : Lawful found it) (prior value : Status)
    (statusIs : it.StatusIs prior) (edge : DoorEdge prior value) :
    Lawful found (it.strcpyStatus value) := by
  have last : (found :: it.statusWrites).getLast (List.cons_ne_nil _ _) = prior :=
    Status.chars_inj.mp (lawful.held.symm.trans statusIs)
  have writes : (it.strcpyStatus value).statusWrites = it.statusWrites ++ [value] := by
    simp [Iteration.statusWrites, Effect.statusWrite?]
  constructor
  · rw [writes, ← List.cons_append, List.isChain_append]
    refine ⟨lawful.edges, List.isChain_singleton value, ?_⟩
    intro before beforeLast after afterHead
    rw [List.getLast?_eq_some_getLast (List.cons_ne_nil _ _), last] at beforeLast
    cases beforeLast
    cases afterHead
    exact edge
  · simp [writes]

theorem of_same (lawful : Lawful found it) {later : Iteration}
    (writes : later.statusWrites = it.statusWrites) (held : later.shm.status = it.shm.status) :
    Lawful found later := by
  constructor
  · rw [writes]
    exact lawful.edges
  · simpa only [held, writes] using lawful.held

theorem moveFloor (lawful : Lawful found it) : Lawful found it.moveFloor :=
  lawful.of_same (by simp [Iteration.statusWrites, Effect.statusWrite?]) rfl

theorem strcpyDestination (lawful : Lawful found it) : Lawful found it.strcpyDestination :=
  lawful.of_same (by simp [Iteration.statusWrites, Effect.statusWrite?]) rfl

theorem clearOpen (lawful : Lawful found it) : Lawful found it.clearOpen :=
  lawful.of_same rfl rfl

theorem clearClose (lawful : Lawful found it) : Lawful found it.clearClose :=
  lawful.of_same rfl rfl

theorem calculateAbsoluteTimeout (lawful : Lawful found it) :
    Lawful found it.calculateAbsoluteTimeout :=
  lawful.of_same (by simp [Iteration.statusWrites, Effect.statusWrite?]) rfl

theorem notifyStatusChange (lawful : Lawful found it) : Lawful found it.notifyStatusChange :=
  lawful.of_same (by simp [Iteration.statusWrites, Effect.statusWrite?]) rfl

theorem broadcast (lawful : Lawful found it) : Lawful found it.broadcast :=
  lawful.of_same (by simp [Iteration.statusWrites, Effect.statusWrite?]) rfl

theorem startClosing (lawful : Lawful found it) (opened : it.StatusIs .opened) :
    Lawful found
      (it.clearClose.calculateAbsoluteTimeout.strcpyStatus
        .closing).notifyStatusChange.broadcast :=
  lawful.clearClose.calculateAbsoluteTimeout.strcpyStatus .opened .closing opened trivial
    |>.notifyStatusChange |>.broadcast

theorem startOpening {before : Status} (lawful : Lawful found it) (held : it.StatusIs before)
    (edge : DoorEdge before .opening) :
    Lawful found
      (it.clearOpen.calculateAbsoluteTimeout.strcpyStatus
        .opening).notifyStatusChange.broadcast :=
  lawful.clearOpen.calculateAbsoluteTimeout.strcpyStatus before .opening held edge
    |>.notifyStatusChange |>.broadcast

/-! ### The handlers outside normal mode -/

theorem emergencyBroadcast (lawful : Lawful found it) : Lawful found it.emergencyBroadcast := by
  unfold Iteration.emergencyBroadcast
  dsimp only
  split
  · split
    · rename_i opened
      exact lawful.startClosing opened
    · exact lawful.clearClose
  · split
    · split
      · rename_i closed
        exact lawful.startOpening closed trivial
      · split
        · rename_i closing
          exact lawful.startOpening closing trivial
        · exact lawful.clearOpen
    · exact lawful

theorem finishMove (lawful : Lawful found it) (between : it.StatusIs .between) :
    Lawful found it.finishMove := by
  have closed :=
    lawful.moveFloor.strcpyDestination.strcpyStatus .between .closed between trivial
  have arrived := closed.notifyStatusChange
  unfold Iteration.finishMove
  dsimp only
  split
  · exact arrived.strcpyStatus .closed .opening rfl trivial
      |>.notifyStatusChange |>.calculateAbsoluteTimeout |>.clearOpen |>.clearClose |>.broadcast
  · exact arrived.calculateAbsoluteTimeout.clearOpen.clearClose.broadcast

theorem finishOpening (lawful : Lawful found it) (opening : it.StatusIs .opening) :
    Lawful found it.finishOpening := by
  unfold Iteration.finishOpening
  dsimp only
  split
  · exact lawful.clearOpen.strcpyStatus .opening .closing opening trivial
      |>.clearClose |>.calculateAbsoluteTimeout |>.notifyStatusChange |>.broadcast
  · exact lawful.clearOpen.strcpyStatus .opening .opened opening trivial
      |>.calculateAbsoluteTimeout |>.notifyStatusChange |>.broadcast

theorem finishClosing (lawful : Lawful found it) (closing : it.StatusIs .closing) :
    Lawful found it.finishClosing := by
  unfold Iteration.finishClosing
  dsimp only
  split
  · exact lawful.clearClose.strcpyStatus .closing .opening closing trivial
      |>.clearOpen |>.calculateAbsoluteTimeout |>.notifyStatusChange |>.broadcast
  · exact lawful.clearClose.strcpyStatus .closing .closed closing trivial
      |>.calculateAbsoluteTimeout |>.notifyStatusChange |>.broadcast

theorem stayOpen (lawful : Lawful found it) (opened : it.StatusIs .opened) :
    Lawful found it.stayOpen := by
  unfold Iteration.stayOpen
  dsimp only
  split
  · exact lawful.clearOpen.clearClose.strcpyStatus .opened .closing opened trivial
      |>.notifyStatusChange |>.broadcast |>.calculateAbsoluteTimeout
  · exact lawful.clearOpen.calculateAbsoluteTimeout

theorem emergencyTimeout (lawful : Lawful found it) : Lawful found it.emergencyTimeout := by
  apply Iteration.timeout_byStatus lawful.finishMove lawful.finishOpening lawful.finishClosing
    lawful.stayOpen
  case closed =>
    intro closed
    dsimp only
    split
    · exact lawful.clearClose.clearOpen.strcpyStatus .closed .opening closed trivial
        |>.notifyStatusChange |>.broadcast |>.calculateAbsoluteTimeout
    · exact lawful.clearClose.calculateAbsoluteTimeout
  case other => exact lawful

theorem serviceBroadcast (lawful : Lawful found it) : Lawful found it.serviceBroadcast := by
  unfold Iteration.serviceBroadcast
  dsimp only
  split
  · split
    · rename_i opened
      exact lawful.startClosing opened
    · exact lawful.clearClose
  split
  · split
    · rename_i closed
      exact lawful.startOpening closed trivial
    · split
      · rename_i closing
        exact lawful.startOpening closing trivial
      · exact lawful.clearOpen
  split
  · split
    · rename_i closed
      have between :=
        lawful.calculateAbsoluteTimeout.strcpyStatus .closed .between closed trivial
      exact between.notifyStatusChange
    · exact lawful
  · exact lawful

theorem serviceTimeout (lawful : Lawful found it) : Lawful found it.serviceTimeout := by
  apply Iteration.timeout_byStatus lawful.finishMove lawful.finishOpening lawful.finishClosing
    lawful.stayOpen
  case closed =>
    intro closed
    dsimp only
    split
    · exact lawful.clearClose.clearOpen.strcpyStatus .closed .opening closed trivial
        |>.notifyStatusChange |>.broadcast |>.calculateAbsoluteTimeout
    · split
      · exact lawful.clearClose.strcpyStatus .closed .between closed trivial
          |>.notifyStatusChange |>.calculateAbsoluteTimeout
      · exact lawful.clearClose.calculateAbsoluteTimeout
  case other => exact lawful

/-! ### The handlers of normal mode -/

theorem normalBroadcast (lawful : Lawful found it) : Lawful found it.normalBroadcast := by
  unfold Iteration.normalBroadcast
  dsimp only
  split
  · split
    · rename_i closed
      exact lawful.startOpening closed trivial
    split
    · rename_i closing
      exact lawful.startOpening closing trivial
    split
    · exact lawful.clearOpen.calculateAbsoluteTimeout
    · exact lawful.clearOpen
  split
  · split
    · rename_i opened
      exact lawful.startClosing opened
    · exact lawful.clearClose
  split
  · split
    · rename_i closed
      exact lawful.calculateAbsoluteTimeout.strcpyStatus .closed .between closed trivial
        |>.notifyStatusChange |>.broadcast
    · exact lawful
  · split
    · rename_i closed
      exact lawful.calculateAbsoluteTimeout.strcpyStatus .closed .opening closed trivial
        |>.notifyStatusChange |>.broadcast
    · exact lawful

/-- The branch of the normal-mode timeout that departs over opening doors. -/
def DepartsOpening (it : Iteration) : Prop :=
  it.StatusIs .closed ∧ it.shm.openButton = 1 ∧ ¬ it.FloorsEqual

theorem normalTimeout (lawful : Lawful found it) (allowed : ¬ DepartsOpening it) :
    Lawful found it.normalTimeout := by
  unfold Iteration.normalTimeout
  dsimp only
  split
  · rename_i between
    have moved := lawful.moveFloor.strcpyStatus .between .closed between trivial
    split
    · exact moved.strcpyStatus .closed .between rfl trivial
        |>.calculateAbsoluteTimeout |>.notifyStatusChange |>.broadcast
    · exact moved.strcpyStatus .closed .opening rfl trivial
        |>.calculateAbsoluteTimeout |>.notifyStatusChange |>.broadcast
  split
  · rename_i closed
    by_cases pressed : it.shm.openButton = 1
    · have arrived : it.FloorsEqual := by
        by_contra apart
        exact allowed ⟨closed, pressed, apart⟩
      rw [if_pos pressed]
      split
      · rename_i apart
        exact absurd arrived apart
      · exact lawful.startOpening closed trivial
    · rw [if_neg pressed]
      split
      · exact lawful.calculateAbsoluteTimeout.strcpyStatus .closed .between closed trivial
          |>.notifyStatusChange |>.broadcast
      · exact lawful
  split
  · rename_i opening
    split
    · exact lawful.clearClose.strcpyStatus .opening .closing opening trivial
        |>.calculateAbsoluteTimeout |>.notifyStatusChange |>.broadcast
    · exact lawful.strcpyStatus .opening .opened opening trivial
        |>.calculateAbsoluteTimeout |>.notifyStatusChange |>.broadcast
  split
  · rename_i opened
    split
    · exact lawful.clearOpen.calculateAbsoluteTimeout
    split
    · exact lawful.clearClose.calculateAbsoluteTimeout.strcpyStatus .opened .closing
        opened trivial |>.notifyStatusChange |>.broadcast
    · exact lawful.calculateAbsoluteTimeout.strcpyStatus .opened .closing opened trivial
        |>.notifyStatusChange |>.broadcast
  split
  · rename_i closing
    split
    · exact lawful.clearOpen.strcpyStatus .closing .opening closing trivial
        |>.calculateAbsoluteTimeout |>.notifyStatusChange |>.broadcast
    · have shut := lawful.strcpyStatus .closing .closed closing trivial
        |>.calculateAbsoluteTimeout |>.notifyStatusChange
      split
      · exact shut.strcpyStatus .closed .between rfl trivial
          |>.notifyStatusChange |>.calculateAbsoluteTimeout |>.broadcast |>.broadcast
      · exact shut.broadcast
  · exact lawful

/-- In the excluded branch the iteration writes `Opening` and then `Between`. -/
theorem normalTimeout_departs {it : Iteration} (departs : DepartsOpening it) :
    it.normalTimeout.statusWrites = it.statusWrites ++ [.opening, .between] := by
  obtain ⟨closed, pressed, apart⟩ := departs
  have notBetween : ¬ it.StatusIs .between := by
    intro between
    have clash := Status.chars_inj.mp (closed.symm.trans between)
    contradiction
  unfold Iteration.normalTimeout
  dsimp only
  rw [if_neg notBetween, if_pos closed, if_pos pressed]
  split
  · simp only [Iteration.statusWrites, Iteration.broadcast_effects,
      Iteration.notifyStatusChange_effects, Iteration.strcpyStatus_effects,
      Iteration.calculateAbsoluteTimeout_effects, Iteration.clearOpen_effects,
      List.append_assoc, List.filterMap_append]
    rfl
  · rename_i arrived
    exact absurd apart arrived

end Lawful

/-! ### Floors move only between floors -/

namespace Iteration

variable {it : Iteration}

theorem emergencyBroadcast_currentFloor :
    it.emergencyBroadcast.shm.currentFloor = it.shm.currentFloor := by
  unfold emergencyBroadcast
  dsimp only
  split_ifs <;> rfl

theorem serviceBroadcast_currentFloor :
    it.serviceBroadcast.shm.currentFloor = it.shm.currentFloor := by
  unfold serviceBroadcast
  dsimp only
  split_ifs <;> rfl

theorem normalBroadcast_currentFloor :
    it.normalBroadcast.shm.currentFloor = it.shm.currentFloor := by
  unfold normalBroadcast
  dsimp only
  split_ifs <;> rfl

theorem finishOpening_currentFloor : it.finishOpening.shm.currentFloor = it.shm.currentFloor := by
  unfold finishOpening
  dsimp only
  split_ifs <;> rfl

theorem finishClosing_currentFloor : it.finishClosing.shm.currentFloor = it.shm.currentFloor := by
  unfold finishClosing
  dsimp only
  split_ifs <;> rfl

theorem stayOpen_currentFloor : it.stayOpen.shm.currentFloor = it.shm.currentFloor := by
  unfold stayOpen
  dsimp only
  split_ifs <;> rfl

theorem emergencyTimeout_currentFloor (still : ¬ it.StatusIs .between) :
    it.emergencyTimeout.shm.currentFloor = it.shm.currentFloor := by
  unfold emergencyTimeout
  dsimp only
  rw [if_neg still]
  split_ifs
  · exact finishOpening_currentFloor
  · exact finishClosing_currentFloor
  · exact stayOpen_currentFloor
  all_goals rfl

theorem serviceTimeout_currentFloor (still : ¬ it.StatusIs .between) :
    it.serviceTimeout.shm.currentFloor = it.shm.currentFloor := by
  unfold serviceTimeout
  dsimp only
  rw [if_neg still]
  split_ifs
  · exact finishOpening_currentFloor
  · exact finishClosing_currentFloor
  · exact stayOpen_currentFloor
  all_goals rfl

theorem normalTimeout_currentFloor (still : ¬ it.StatusIs .between) :
    it.normalTimeout.shm.currentFloor = it.shm.currentFloor := by
  unfold normalTimeout
  dsimp only
  rw [if_neg still]
  split_ifs <;> rfl

end Iteration

theorem elevatorLoop_currentFloor {ret : WaitResult} {shm : CarSharedMem}
    (still : shm.status ≠ Status.between.chars) :
    (elevatorLoop ret shm).shm.currentFloor = shm.currentFloor := by
  unfold elevatorLoop
  dsimp only
  split
  · cases ret with
    | broadcast => exact Iteration.emergencyBroadcast_currentFloor
    | timedOut => exact Iteration.emergencyTimeout_currentFloor still
  split
  · cases ret with
    | broadcast => exact Iteration.serviceBroadcast_currentFloor
    | timedOut => exact Iteration.serviceTimeout_currentFloor still
  · cases ret with
    | broadcast => exact Iteration.normalBroadcast_currentFloor
    | timedOut => exact Iteration.normalTimeout_currentFloor still

/-! ### The law and its exception -/

/-- A timeout in normal mode that finds a closed car with its open button
pressed and another destination. -/
def OpensAndDeparts (ret : WaitResult) (shm : CarSharedMem) : Prop :=
  shm.emergencyMode ≠ 1 ∧ shm.individualServiceMode ≠ 1 ∧ ret = .timedOut ∧
    shm.status = Status.closed.chars ∧ shm.openButton = 1 ∧
    shm.currentFloor ≠ shm.destinationFloor

theorem elevatorLoop_lawful {ret : WaitResult} {shm : CarSharedMem} {found : Status}
    (held : shm.status = found.chars) (allowed : ¬ OpensAndDeparts ret shm) :
    Lawful found (elevatorLoop ret shm) := by
  have start := Lawful.initial held
  unfold elevatorLoop
  dsimp only
  split
  · cases ret with
    | broadcast => exact start.emergencyBroadcast
    | timedOut => exact start.emergencyTimeout
  rename_i notEmergency
  split
  · cases ret with
    | broadcast => exact start.serviceBroadcast
    | timedOut => exact start.serviceTimeout
  rename_i notService
  cases ret with
  | broadcast => exact start.normalBroadcast
  | timedOut =>
      apply start.normalTimeout
      intro departs
      rcases departs with ⟨closed, pressed, apart⟩
      exact allowed ⟨notEmergency, notService, rfl, closed, pressed, apart⟩

theorem elevatorLoop_statusWrites_of_opensAndDeparts {ret : WaitResult} {shm : CarSharedMem}
    (departs : OpensAndDeparts ret shm) :
    (elevatorLoop ret shm).statusWrites = [.opening, .between] := by
  obtain ⟨notEmergency, notService, rfl, closed, pressed, apart⟩ := departs
  simp only [elevatorLoop, if_neg notEmergency, if_neg notService]
  exact Lawful.normalTimeout_departs ⟨closed, pressed, apart⟩

/-- An iteration obeys the door law exactly when it is not the normal-mode
timeout that opens the doors and departs in one go. -/
theorem elevatorLoop_doorLaw_iff (ret : WaitResult) (shm : CarSharedMem) (found : Status)
    (held : shm.status = found.chars) :
    DoorLaw found shm (elevatorLoop ret shm) ↔ ¬ OpensAndDeparts ret shm := by
  constructor
  · intro law departs
    have writes := elevatorLoop_statusWrites_of_opensAndDeparts departs
    have edges := law.edges
    rw [writes] at edges
    obtain ⟨_, later⟩ := List.isChain_cons_cons.mp edges
    exact (List.isChain_cons_cons.mp later).1
  · intro allowed
    have lawful := elevatorLoop_lawful held allowed
    exact
      { edges := lawful.edges
        betweenOverClosed := lawful.edges.imp (fun before after edge same => by
          subst same
          exact edge.closed_of_between)
        floorFromBetween := by
          intro moved
          by_contra still
          refine moved (elevatorLoop_currentFloor ?_)
          rw [held, Ne, Status.chars_inj]
          exact still }

def pressedAtDeparture : CarSharedMem :=
  { resetShm (digitFloor 1).chars with
    destinationFloor := (digitFloor 2).chars
    openButton := 1 }

/-- Doors that are opening start the car: the law fails on the timeout there. -/
theorem doorLaw_fails_pressedAtDeparture :
    ¬ ∀ (ret : WaitResult) (shm : CarSharedMem) (found : Status),
      shm.status = found.chars → DoorLaw found shm (elevatorLoop ret shm) := by
  intro law
  have edges := (law .timedOut pressedAtDeparture .closed rfl).edges
  have writes : (elevatorLoop .timedOut pressedAtDeparture).statusWrites =
      [.opening, .between] := by decide
  rw [writes] at edges
  exact absurd edges (by decide)

theorem elevatorLoop_doorLaw_iff_unpressed :
    DoorLaw .closed { pressedAtDeparture with openButton := 0 }
        (elevatorLoop .timedOut { pressedAtDeparture with openButton := 0 }) ↔
      ¬ OpensAndDeparts .timedOut { pressedAtDeparture with openButton := 0 } :=
  elevatorLoop_doorLaw_iff .timedOut { pressedAtDeparture with openButton := 0 } .closed rfl

end Cab403.Elevator
