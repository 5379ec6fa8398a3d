/-
Who hears of a change. An iteration of `elevator_loop` that changes the status or the
floor is meant to write to the notify pipe, for the controller thread, and to broadcast,
for the processes that wait on the memory. Departures in service mode do the first only;
in everything else service mode is emergency mode.
-/

import Cab403.Elevator.ElevatorLoop
import Cab403.Elevator.LoopMoves

namespace Cab403.Elevator

open CText

def ETIMEDOUT : Int := 110

/-- An iteration for any result of the wait: the handlers know two of them. -/
def elevatorIteration (ret : Int) (shm : CarSharedMem) : Iteration :=
  if ret = 0 then elevatorLoop .broadcast shm
  else if ret = ETIMEDOUT then elevatorLoop .timedOut shm
  else Iteration.start shm

/-! ### Changes and what follows them -/

/-- The two fields whose changes are announced. -/
structure Shown where
  status : CharArray 8
  currentFloor : CharArray 4
  deriving DecidableEq

def CarSharedMem.shown (shm : CarSharedMem) : Shown :=
  { status := shm.status
    currentFloor := shm.currentFloor }

def Shown.after (shown : Shown) : Effect → Shown
  | .status value => { shown with status := value.chars }
  | .currentFloor value => { shown with currentFloor := value }
  | .destinationFloor _ | .calculateTimeout | .notify | .broadcast => shown

section After

variable (shown : Shown) (floor : CharArray 4)

@[simp] theorem after_destinationFloor : shown.after (.destinationFloor floor) = shown := rfl

@[simp] theorem after_calculateTimeout : shown.after .calculateTimeout = shown := rfl

@[simp] theorem after_notify : shown.after .notify = shown := rfl

@[simp] theorem after_broadcast : shown.after .broadcast = shown := rfl

end After

def afterLastChange (shown : Shown) : List Effect → Option (List Effect)
  | [] => none
  | effect :: rest =>
      match afterLastChange (shown.after effect) rest with
      | some later => some later
      | none => if shown.after effect = shown then none else some rest

def Heard (effects : List Effect) : Prop := .notify ∈ effects ∧ .broadcast ∈ effects

/-- Both announcements are made after the last change. -/
def Announced (shm : CarSharedMem) (effects : List Effect) : Prop :=
  ∀ rest ∈ afterLastChange shm.shown effects, Heard rest

def EachHeard (shown : Shown) : List Effect → Prop
  | [] => True
  | effect :: rest =>
      (shown.after effect ≠ shown → Heard rest) ∧ EachHeard (shown.after effect) rest

theorem afterLastChange_suffix {shown : Shown} {effects rest : List Effect}
    (found : afterLastChange shown effects = some rest) : rest <:+ effects := by
  induction effects generalizing shown with
  | nil => cases found
  | cons effect effects ih =>
      rw [afterLastChange] at found
      cases later : afterLastChange (shown.after effect) effects with
      | some last =>
          rw [later] at found
          cases found
          exact (ih later).trans (List.suffix_cons effect effects)
      | none =>
          rw [later] at found
          dsimp only at found
          split at found
          · cases found
          · cases found
            exact List.suffix_cons effect _

theorem Heard.of_suffix {rest whole : List Effect} (heard : Heard rest)
    (suffix : rest <:+ whole) : Heard whole :=
  ⟨suffix.subset heard.1, suffix.subset heard.2⟩

/-- What is heard after the last change is heard after each. -/
theorem eachHeard_iff (shown : Shown) (effects : List Effect) :
    EachHeard shown effects ↔ ∀ rest ∈ afterLastChange shown effects, Heard rest := by
  induction effects generalizing shown with
  | nil =>
      constructor
      · intro _ rest none_
        cases none_
      · intro _
        trivial
  | cons effect effects ih =>
      rw [EachHeard, ih, afterLastChange]
      cases later : afterLastChange (shown.after effect) effects with
      | some last =>
          constructor
          · intro each
            exact each.2
          · intro heard
            have atLast : Heard last := heard last rfl
            exact ⟨fun _ => atLast.of_suffix (afterLastChange_suffix later), heard⟩
      | none =>
          dsimp only
          by_cases same : shown.after effect = shown
          · rw [if_pos same]
            exact ⟨fun each => each.2, fun heard => ⟨fun changed => absurd same changed, heard⟩⟩
          · rw [if_neg same]
            constructor
            · intro each rest found
              cases found
              exact each.1 same
            · intro heard
              exact ⟨fun _ => heard effects rfl, nofun⟩

theorem announced_iff_eachHeard (shm : CarSharedMem) (effects : List Effect) :
    Announced shm effects ↔ EachHeard shm.shown effects :=
  (eachHeard_iff shm.shown effects).symm

/-! ### The departure of service mode -/

structure ServiceDeparture (ret : Int) (shm : CarSharedMem) : Prop where
  notEmergency : shm.emergencyMode ≠ 1
  service : shm.individualServiceMode = 1
  closed : shm.status = Status.closed.chars
  apart : shm.currentFloor ≠ shm.destinationFloor
  noOpen : shm.openButton ≠ 1
  woken : ret = 0 ∧ shm.closeButton ≠ 1 ∨ ret = ETIMEDOUT

namespace Iteration

variable (shm : CarSharedMem)

theorem start_effects : (start shm).effects = [] := rfl

theorem finishMove_heard : EachHeard shm.shown (start shm).finishMove.effects := by
  unfold finishMove
  dsimp only
  split_ifs <;> simp [EachHeard, Heard, start_effects]

theorem finishOpening_heard : EachHeard shm.shown (start shm).finishOpening.effects := by
  unfold finishOpening
  dsimp only
  split_ifs <;> simp [EachHeard, Heard, start_effects]

theorem finishClosing_heard : EachHeard shm.shown (start shm).finishClosing.effects := by
  unfold finishClosing
  dsimp only
  split_ifs <;> simp [EachHeard, Heard, start_effects]

theorem stayOpen_heard : EachHeard shm.shown (start shm).stayOpen.effects := by
  unfold stayOpen
  dsimp only
  split_ifs <;> simp [EachHeard, Heard, start_effects]

theorem emergencyBroadcast_heard : EachHeard shm.shown (start shm).emergencyBroadcast.effects := by
  unfold emergencyBroadcast
  dsimp only
  split_ifs <;> simp [EachHeard, Heard, start_effects]

theorem emergencyTimeout_heard : EachHeard shm.shown (start shm).emergencyTimeout.effects := by
  apply timeout_byStatus (motive := fun after => EachHeard shm.shown after.effects)
  case between => exact fun _ => finishMove_heard shm
  case opening => exact fun _ => finishOpening_heard shm
  case closing => exact fun _ => finishClosing_heard shm
  case opened => exact fun _ => stayOpen_heard shm
  case closed =>
    intro _
    dsimp only
    split_ifs <;> simp [EachHeard, Heard, start_effects]
  case other => trivial

theorem normalBroadcast_heard : EachHeard shm.shown (start shm).normalBroadcast.effects := by
  unfold normalBroadcast
  dsimp only
  split_ifs <;> simp [EachHeard, Heard, start_effects]

theorem normalTimeout_heard : EachHeard shm.shown (start shm).normalTimeout.effects := by
  unfold normalTimeout
  dsimp only
  split_ifs <;> simp [EachHeard, Heard, start_effects]

/-! ### Service mode beside emergency mode -/

variable (it : Iteration)

def Departs : Prop :=
  it.StatusIs .closed ∧ ¬ it.FloorsEqual ∧ it.shm.openButton ≠ 1

theorem serviceBroadcast_of_stays (stays : ¬ (it.Departs ∧ it.shm.closeButton ≠ 1)) :
    it.serviceBroadcast = it.emergencyBroadcast := by
  unfold serviceBroadcast emergencyBroadcast
  by_cases close : it.shm.closeButton = 1
  · rw [if_pos close, if_pos close]
  · rw [if_neg close, if_neg close]
    by_cases press : it.shm.openButton = 1
    · rw [if_pos press, if_pos press]
    · rw [if_neg press, if_neg press]
      by_cases apart : ¬ it.FloorsEqual
      · have open_ : ¬ it.StatusIs .closed := fun closed => stays ⟨⟨closed, apart, press⟩, close⟩
        rw [if_pos apart, if_neg open_]
      · rw [if_neg apart]

theorem serviceBroadcast_of_departs (departs : it.Departs) (noClose : it.shm.closeButton ≠ 1) :
    it.serviceBroadcast = (it.calculateAbsoluteTimeout.strcpyStatus .between).notifyStatusChange ∧
      it.emergencyBroadcast = it := by
  obtain ⟨closed, apart, noOpen⟩ := departs
  unfold serviceBroadcast emergencyBroadcast
  rw [if_neg noClose, if_neg noOpen, if_pos apart, if_pos closed, if_neg noClose, if_neg noOpen]
  exact ⟨rfl, rfl⟩

theorem serviceTimeout_of_closed (closed : it.StatusIs .closed) :
    it.serviceTimeout =
        (if it.clearClose.shm.openButton = 1 then
          it.clearClose.clearOpen.strcpyStatus .opening |>.notifyStatusChange |>.broadcast
        else if ¬ it.clearClose.FloorsEqual then
          it.clearClose.strcpyStatus .between |>.notifyStatusChange
        else it.clearClose).calculateAbsoluteTimeout ∧
      it.emergencyTimeout =
        (if it.clearClose.shm.openButton = 1 then
          it.clearClose.clearOpen.strcpyStatus .opening |>.notifyStatusChange |>.broadcast
        else it.clearClose).calculateAbsoluteTimeout := by
  unfold serviceTimeout emergencyTimeout
  rw [if_neg (not_statusIs closed (by decide)), if_neg (not_statusIs closed (by decide)),
    if_neg (not_statusIs closed (by decide)), if_neg (not_statusIs closed (by decide)),
    if_pos closed, if_neg (not_statusIs closed (by decide)),
    if_neg (not_statusIs closed (by decide)), if_neg (not_statusIs closed (by decide)),
    if_neg (not_statusIs closed (by decide)), if_pos closed]
  exact ⟨rfl, rfl⟩

theorem serviceTimeout_of_stays (stays : ¬ it.Departs) :
    it.serviceTimeout = it.emergencyTimeout := by
  by_cases closed : it.StatusIs .closed
  · obtain ⟨service, emergency⟩ := serviceTimeout_of_closed it closed
    rw [service, emergency]
    by_cases press : it.clearClose.shm.openButton = 1
    · rw [if_pos press, if_pos press]
    · have level : it.clearClose.FloorsEqual := by
        by_contra apart
        exact stays ⟨closed, apart, press⟩
      rw [if_neg press, if_neg press, if_neg (not_not_intro level)]
  · unfold serviceTimeout emergencyTimeout
    rw [if_neg closed, if_neg closed]

theorem serviceTimeout_of_departs (departs : it.Departs) :
    it.serviceTimeout =
        (it.clearClose.strcpyStatus .between).notifyStatusChange.calculateAbsoluteTimeout ∧
      it.emergencyTimeout = it.clearClose.calculateAbsoluteTimeout := by
  obtain ⟨closed, apart, noOpen⟩ := departs
  have press : ¬ it.clearClose.shm.openButton = 1 := noOpen
  have unequal : ¬ it.clearClose.FloorsEqual := apart
  obtain ⟨service, emergency⟩ := serviceTimeout_of_closed it closed
  rw [service, emergency, if_neg press, if_neg press, if_pos unequal]
  exact ⟨rfl, rfl⟩

/-! ### The mode flag -/

def withMode (mode : UInt8) : Iteration :=
  { it with shm := { it.shm with emergencyMode := mode } }

variable (mode : UInt8)

theorem withMode_ite (condition : Prop) [Decidable condition] (left right : Iteration) :
    (if condition then left else right).withMode mode =
      if condition then left.withMode mode else right.withMode mode :=
  apply_ite (fun it : Iteration => it.withMode mode) condition left right

theorem withMode_notifyStatusChange :
    it.notifyStatusChange.withMode mode = (it.withMode mode).notifyStatusChange := rfl

theorem withMode_broadcast : it.broadcast.withMode mode = (it.withMode mode).broadcast := rfl

theorem withMode_calculateAbsoluteTimeout :
    it.calculateAbsoluteTimeout.withMode mode =
      (it.withMode mode).calculateAbsoluteTimeout := rfl

theorem withMode_clearOpen : it.clearOpen.withMode mode = (it.withMode mode).clearOpen := rfl

theorem withMode_clearClose : it.clearClose.withMode mode = (it.withMode mode).clearClose := rfl

theorem finishMove_withMode : (it.withMode mode).finishMove = it.finishMove.withMode mode := by
  unfold finishMove
  dsimp only
  simp only [withMode_ite, withMode_broadcast, withMode_calculateAbsoluteTimeout,
    withMode_clearOpen, withMode_clearClose]
  rfl

theorem finishOpening_withMode :
    (it.withMode mode).finishOpening = it.finishOpening.withMode mode := by
  unfold finishOpening
  dsimp only
  simp only [withMode_ite, withMode_notifyStatusChange, withMode_broadcast,
    withMode_calculateAbsoluteTimeout]
  rfl

theorem finishClosing_withMode :
    (it.withMode mode).finishClosing = it.finishClosing.withMode mode := by
  unfold finishClosing
  dsimp only
  simp only [withMode_ite, withMode_notifyStatusChange, withMode_broadcast,
    withMode_calculateAbsoluteTimeout]
  rfl

theorem stayOpen_withMode : (it.withMode mode).stayOpen = it.stayOpen.withMode mode := by
  unfold stayOpen
  dsimp only
  simp only [withMode_ite, withMode_calculateAbsoluteTimeout]
  rfl

theorem emergencyBroadcast_withMode :
    (it.withMode mode).emergencyBroadcast = it.emergencyBroadcast.withMode mode := by
  unfold emergencyBroadcast
  dsimp only
  simp only [withMode_ite]
  rfl

theorem emergencyTimeout_withMode :
    (it.withMode mode).emergencyTimeout = it.emergencyTimeout.withMode mode := by
  unfold emergencyTimeout
  rw [finishMove_withMode, finishOpening_withMode, finishClosing_withMode, stayOpen_withMode]
  dsimp only
  simp only [withMode_ite, withMode_calculateAbsoluteTimeout]
  rfl

end Iteration

/-! ### Announced, but for the departure -/

theorem elevatorIteration_broadcast (shm : CarSharedMem) :
    elevatorIteration 0 shm = elevatorLoop .broadcast shm := rfl

theorem elevatorIteration_timedOut (shm : CarSharedMem) :
    elevatorIteration ETIMEDOUT shm = elevatorLoop .timedOut shm := rfl

theorem elevatorIteration_other {ret : Int} (notBroadcast : ret ≠ 0) (notTimedOut : ret ≠ ETIMEDOUT)
    (shm : CarSharedMem) : elevatorIteration ret shm = Iteration.start shm := by
  rw [elevatorIteration, if_neg notBroadcast, if_neg notTimedOut]

section Service

variable {ret : Int} {shm : CarSharedMem} (notEmergency : shm.emergencyMode ≠ 1)
  (service : shm.individualServiceMode = 1)

include notEmergency service

/-- Away from a departure, service mode does what the handlers of emergency mode do. -/
theorem serviceIteration_of_stays (stays : ¬ ServiceDeparture ret shm) :
    elevatorIteration ret shm =
      if ret = 0 then (Iteration.start shm).emergencyBroadcast
      else if ret = ETIMEDOUT then (Iteration.start shm).emergencyTimeout
      else Iteration.start shm := by
  by_cases broadcast : ret = 0
  · subst broadcast
    rw [if_pos rfl, elevatorIteration_broadcast, elevatorLoop_of_service notEmergency service]
    apply Iteration.serviceBroadcast_of_stays
    rintro ⟨⟨closed, apart, noOpen⟩, noClose⟩
    exact stays ⟨notEmergency, service, closed, apart, noOpen, Or.inl ⟨rfl, noClose⟩⟩
  · rw [if_neg broadcast]
    by_cases timedOut : ret = ETIMEDOUT
    · subst timedOut
      rw [if_pos rfl, elevatorIteration_timedOut, elevatorLoop_of_service notEmergency service]
      apply Iteration.serviceTimeout_of_stays
      rintro ⟨closed, apart, noOpen⟩
      exact stays ⟨notEmergency, service, closed, apart, noOpen, Or.inr rfl⟩
    · rw [if_neg timedOut, elevatorIteration_other broadcast timedOut]

end Service

theorem announced_of_quiet {ret : Int} {shm : CarSharedMem} (quiet : ¬ ServiceDeparture ret shm) :
    EachHeard shm.shown (elevatorIteration ret shm).effects := by
  by_cases emergency : shm.emergencyMode = 1
  · unfold elevatorIteration
    rw [elevatorLoop_of_emergency emergency, elevatorLoop_of_emergency emergency]
    split_ifs
    · exact Iteration.emergencyBroadcast_heard shm
    · exact Iteration.emergencyTimeout_heard shm
    · trivial
  by_cases service : shm.individualServiceMode = 1
  · rw [serviceIteration_of_stays emergency service quiet]
    split_ifs
    · exact Iteration.emergencyBroadcast_heard shm
    · exact Iteration.emergencyTimeout_heard shm
    · trivial
  · unfold elevatorIteration
    rw [elevatorLoop_of_normal emergency service, elevatorLoop_of_normal emergency service]
    split_ifs
    · exact Iteration.normalBroadcast_heard shm
    · exact Iteration.normalTimeout_heard shm
    · trivial

/-- What a departure does: `Between` is stored and one byte is written. -/
theorem ServiceDeparture.iteration {ret : Int} {shm : CarSharedMem}
    (departure : ServiceDeparture ret shm) :
    (ret = 0 ∧ shm.closeButton ≠ 1 ∧
        elevatorIteration ret shm =
          ((Iteration.start shm).calculateAbsoluteTimeout.strcpyStatus
            .between).notifyStatusChange ∧
        (Iteration.start shm).emergencyBroadcast = Iteration.start shm) ∨
      ret = ETIMEDOUT ∧
        elevatorIteration ret shm =
          ((Iteration.start shm).clearClose.strcpyStatus
            .between).notifyStatusChange.calculateAbsoluteTimeout ∧
        (Iteration.start shm).emergencyTimeout =
          (Iteration.start shm).clearClose.calculateAbsoluteTimeout := by
  have departs : (Iteration.start shm).Departs :=
    ⟨departure.closed, departure.apart, departure.noOpen⟩
  rcases departure.woken with ⟨rfl, noClose⟩ | rfl
  · left
    refine ⟨rfl, noClose, ?_⟩
    rw [elevatorIteration_broadcast,
      elevatorLoop_of_service departure.notEmergency departure.service]
    exact Iteration.serviceBroadcast_of_departs _ departs noClose
  · right
    refine ⟨rfl, ?_⟩
    rw [elevatorIteration_timedOut,
      elevatorLoop_of_service departure.notEmergency departure.service]
    exact Iteration.serviceTimeout_of_departs _ departs

/-- An iteration announces its last change, unless it is a departure in service mode. -/
theorem iteration_announced_iff (ret : Int) (shm : CarSharedMem) :
    Announced shm (elevatorIteration ret shm).effects ↔ ¬ ServiceDeparture ret shm := by
  rw [announced_iff_eachHeard]
  constructor
  · intro heard departure
    have changed : shm.shown.after (.status .between) ≠ shm.shown := by
      intro same
      have between : Status.between.chars = shm.status := congrArg Shown.status same
      rw [departure.closed, Status.chars_inj] at between
      cases between
    rcases departure.iteration with ⟨_, _, stored, _⟩ | ⟨_, stored, _⟩
    · rw [stored] at heard
      exact absurd (heard.2.1 changed).2 (by decide)
    · rw [stored] at heard
      exact absurd (heard.1 changed).2 (by decide)
  · intro quiet
    exact announced_of_quiet quiet

def closedInService : CarSharedMem :=
  { resetShm (digitFloor 1).chars with
    destinationFloor := (digitFloor 2).chars
    individualServiceMode := 1 }

theorem iteration_not_announced :
    ¬ ∀ ret shm, Announced shm (elevatorIteration ret shm).effects := by
  intro always
  have found : afterLastChange closedInService.shown
      (elevatorIteration ETIMEDOUT closedInService).effects =
        some [.notify, .calculateTimeout] := by decide
  exact absurd (always ETIMEDOUT closedInService _ found).2 (by decide)

/-! ### Service mode is emergency mode with departures -/

/-- The bytes written to the notify pipe: the letter `1` each time. -/
def Iteration.notifyBytes (it : Iteration) : List UInt8 :=
  it.effects.filterMap fun
    | .notify => some 49
    | _ => none

theorem emergencyIteration (ret : Int) (shm : CarSharedMem) :
    elevatorIteration ret { shm with emergencyMode := 1 } =
      (if ret = 0 then (Iteration.start shm).emergencyBroadcast
        else if ret = ETIMEDOUT then (Iteration.start shm).emergencyTimeout
        else Iteration.start shm).withMode 1 := by
  rw [elevatorIteration, elevatorLoop_of_emergency rfl, elevatorLoop_of_emergency rfl,
    Iteration.withMode_ite, Iteration.withMode_ite, ← Iteration.emergencyBroadcast_withMode,
    ← Iteration.emergencyTimeout_withMode]
  rfl

theorem iteration_restored (ret : Int) (shm : CarSharedMem) :
    (elevatorIteration ret shm).shm =
      { (elevatorIteration ret shm).shm with emergencyMode := shm.emergencyMode } := by
  have kept : (elevatorIteration ret shm).shm.emergencyMode = shm.emergencyMode := by
    unfold elevatorIteration
    split_ifs
    · exact elevatorLoop_emergencyMode
    · exact elevatorLoop_emergencyMode
    · rfl
  rw [← kept]

/-- An iteration in service mode beside the same one in emergency mode: only a departure
makes a difference, the status `Between` and one byte. -/
theorem service_is_emergency_with_departures (ret : Int) (shm : CarSharedMem)
    (notEmergency : shm.emergencyMode ≠ 1) (service : shm.individualServiceMode = 1) :
    (¬ ServiceDeparture ret shm →
      (elevatorIteration ret shm).shm =
          { (elevatorIteration ret { shm with emergencyMode := 1 }).shm with
            emergencyMode := shm.emergencyMode } ∧
        (elevatorIteration ret shm).notifyBytes =
          (elevatorIteration ret { shm with emergencyMode := 1 }).notifyBytes) ∧
      (ServiceDeparture ret shm →
        (elevatorIteration ret { shm with emergencyMode := 1 }).shm.status =
            Status.closed.chars ∧
          (elevatorIteration ret shm).shm =
            { (elevatorIteration ret { shm with emergencyMode := 1 }).shm with
              status := Status.between.chars
              emergencyMode := shm.emergencyMode } ∧
          (elevatorIteration ret shm).notifyBytes =
            (elevatorIteration ret { shm with emergencyMode := 1 }).notifyBytes ++ [49]) := by
  constructor
  · intro stays
    rw [emergencyIteration, ← serviceIteration_of_stays notEmergency service stays]
    exact ⟨iteration_restored ret shm, rfl⟩
  · intro departure
    rw [emergencyIteration]
    rcases departure.iteration with ⟨rfl, _, stored, quiet⟩ | ⟨rfl, stored, quiet⟩
    · rw [stored, if_pos rfl, quiet]
      exact ⟨departure.closed, rfl, rfl⟩
    · rw [stored, if_neg (by decide), if_pos rfl, quiet]
      exact ⟨departure.closed, rfl, rfl⟩

theorem service_is_emergency_with_departures_closed :
    (¬ ServiceDeparture 0 closedInService →
      (elevatorIteration 0 closedInService).shm =
          { (elevatorIteration 0 { closedInService with emergencyMode := 1 }).shm with
            emergencyMode := closedInService.emergencyMode } ∧
        (elevatorIteration 0 closedInService).notifyBytes =
          (elevatorIteration 0 { closedInService with emergencyMode := 1 }).notifyBytes) ∧
      (ServiceDeparture 0 closedInService →
        (elevatorIteration 0 { closedInService with emergencyMode := 1 }).shm.status =
            Status.closed.chars ∧
          (elevatorIteration 0 closedInService).shm =
            { (elevatorIteration 0 { closedInService with emergencyMode := 1 }).shm with
              status := Status.between.chars
              emergencyMode := closedInService.emergencyMode } ∧
          (elevatorIteration 0 closedInService).notifyBytes =
            (elevatorIteration 0 { closedInService with emergencyMode := 1 }).notifyBytes ++
              [49]) :=
  service_is_emergency_with_departures 0 closedInService (by decide) (by decide)

end Cab403.Elevator
