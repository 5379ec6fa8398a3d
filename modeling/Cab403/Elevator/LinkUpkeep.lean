/-
What stays true of a connected car and its record while nobody switches a mode: the
floors are spelled as the car prints them, the status is one of the five, reports scan,
and the connection thread is somewhere in its loop. Buttons, spurious wake-ups and foreign
reports may come at any time.
-/

import Cab403.Elevator.DestinationReached
import Cab403.Elevator.FalseAlarms
import Cab403.Elevator.FloorInsertion
import Cab403.Elevator.StuckStops

namespace Cab403.Elevator

open CText CDecimal ActionRuns Controller Framing

/-- The floors of a call are spelled as the car prints them. -/
def CanonicalCalls (_ : Link) : LinkAction → Prop
  | .insert call =>
      Canonical call.currentFloor.chars ∧ Canonical call.destinationFloor.chars
  | _ => True

instance (link : Link) : ∀ action, Decidable (CanonicalCalls link action)
  | .insert call =>
      inferInstanceAs (Decidable (Canonical call.currentFloor.chars ∧
        Canonical call.destinationFloor.chars))
  | .write _ | .unlock | .receiveReport | .anyReport _ | .update | .serve | .loop _
  | .connectionTop | .pollTimeout | .pollReady | .receive _ _ | .readNotify | .sendStatus
  | .press _ => inferInstanceAs (Decidable True)

/-- The connection thread is in its loop, and what `poll` has seen is still there. -/
def ConnectionAt.Serves (down : List UInt8) (notify : Nat) : ConnectionAt → Prop
  | .report | .top | .polling => True
  | .socket readable => down ≠ [] ∧ (readable = true → 0 < notify)
  | .pipe => 0 < notify
  | .outside | .greeting | .farewell _ | .exited => False

/-- A message as `send_status` writes it. -/
def IsReport (message : List UInt8) : Prop :=
  ∃ report : CarData, message =
    statusLine report.status.text report.currentFloor.text report.destinationFloor.text

structure Upkeep (link : Link) : Prop where
  agreed : LinkInvariant link
  status : ∃ status : Status, link.car.shm.status = status.chars
  openButton : link.car.shm.openButton = 0 ∨ link.car.shm.openButton = 1
  closeButton : link.car.shm.closeButton = 0 ∨ link.car.shm.closeButton = 1
  current : Canonical link.car.shm.currentFloor
  destination : Canonical link.car.shm.destinationFloor
  pending : link.car.pendingDestination = CharArray.empty 4 ∨
    Canonical link.car.pendingDestination
  inFlight : ∃ floors : List (Token 3), link.down ++ link.outgoing = floors.flatMap floorFrame ∧
    ∀ floor ∈ floors, Canonical floor.chars
  queued : ∀ node ∈ link.queue, Canonical node.floor.chars
  moving : link.car.shm.status = Status.between.chars →
    link.car.shm.currentFloor ≠ link.car.shm.destinationFloor
  reports : ∀ message ∈ link.up, IsReport message
  serves : link.car.connection.Serves link.down link.car.notify

/-! ### Reports -/

theorem Canonical.token {floor : CharArray 4} (canonical : Canonical floor) :
    ∃ token : Token 3, token.text = floor.text := by
  have bounds := floorStrToInt_bounds canonical.terminated
  have solid (value : Nat) : ∀ byte ∈ decimal value, isSolid byte = true :=
    fun byte member => isSolid_of_isDigit (decimal_isDigit value byte member)
  have short : floor.text.length ≤ 3 := Nat.le_of_lt_succ canonical.terminated
  rw [← canonical] at short ⊢
  by_cases basement : floorStrToInt floor < 0
  · obtain ⟨value, number⟩ : ∃ value : Nat, floorStrToInt floor = -(value : Int) :=
      ⟨(floorStrToInt floor).natAbs, by omega⟩
    have text := floorIntToStr_text_of_neg value (by omega) (by omega)
    rw [← number] at text
    refine ⟨⟨_, ?_, ?_, short⟩, rfl⟩
    · rw [text]
      exact List.cons_ne_nil _ _
    · rw [text]
      exact List.forall_mem_cons.mpr ⟨by decide, solid value⟩
  · obtain ⟨value, number⟩ : ∃ value : Nat, floorStrToInt floor = (value : Int) :=
      ⟨(floorStrToInt floor).natAbs, by omega⟩
    have text := floorIntToStr_text_of_nonneg value (by omega)
    rw [← number] at text
    refine ⟨⟨_, ?_, ?_, short⟩, rfl⟩
    · rw [text]
      exact decimal_ne_nil value
    · rw [text]
      exact solid value

theorem isReport_statusText {shm : CarSharedMem} {status : Status}
    (found : shm.status = status.chars) (current : Canonical shm.currentFloor)
    (destination : Canonical shm.destinationFloor) : IsReport (statusText shm) := by
  obtain ⟨currentToken, currentText⟩ := current.token
  obtain ⟨destinationToken, destinationText⟩ := destination.token
  refine ⟨⟨currentToken, destinationToken, statusToken status⟩, ?_⟩
  rw [statusText, currentText, destinationText, found]
  rfl

/-! ### The loop -/

/-- Only a car that has still to go is under way. -/
theorem loop_moving {shm : CarSharedMem} (ret : WaitResult) (normal : NormalMode shm)
    (moving : shm.status = Status.between.chars → shm.currentFloor ≠ shm.destinationFloor) :
    (elevatorLoop ret shm).shm.status = Status.between.chars →
      (elevatorLoop ret shm).shm.currentFloor ≠ (elevatorLoop ret shm).shm.destinationFloor := by
  rw [elevatorLoop_of_normal normal.1 normal.2]
  cases ret with
  | broadcast =>
      unfold Iteration.normalBroadcast
      dsimp only
      split_ifs <;> simp_all [Iteration.StatusIs, Iteration.FloorsEqual]
  | timedOut =>
      unfold Iteration.normalTimeout
      dsimp only
      split_ifs <;> simp_all [Iteration.StatusIs, Iteration.FloorsEqual]

theorem loop_canonical {shm : CarSharedMem} (ret : WaitResult)
    (current : Canonical shm.currentFloor) (destination : Canonical shm.destinationFloor) :
    Canonical (elevatorLoop ret shm).shm.currentFloor := by
  cases elevatorLoop_floors ret shm with
  | stays same _ =>
      rw [same]
      exact current
  | moves _ _ moved _ =>
      rw [moved]
      exact current.moveFloor destination.terminated

theorem ConnectionAt.Serves.mono {down later : List UInt8} {notify more : Nat}
    {point : ConnectionAt} (serves : point.Serves down notify) (grown : down ≠ [] → later ≠ [])
    (further : notify ≤ more) : point.Serves later more := by
  cases point with
  | report | top | polling => trivial
  | socket readable =>
      exact ⟨grown serves.1, fun both => Nat.lt_of_lt_of_le (serves.2 both) further⟩
  | pipe => exact Nat.lt_of_lt_of_le serves further
  | outside | greeting | farewell _ | exited => exact serves

/-! ### One step -/

section Steps

variable {link next : Link}

theorem Upkeep.announced (upkeep : Upkeep link) {holder : Holder} {update : QueueUpdate}
    (free : link.queueMutex = none) (announces : Announces link.queue update)
    (queued : ∀ node ∈ update.queue, Canonical node.floor.chars) :
    ∃ floors : List (Token 3),
      (link.lockedUpdate holder update).down ++ (link.lockedUpdate holder update).outgoing =
          floors.flatMap floorFrame ∧
        ∀ floor ∈ floors, Canonical floor.chars := by
  obtain ⟨floors, stream, canonical⟩ := upkeep.inFlight
  rw [upkeep.agreed.finished free, List.append_nil] at stream
  cases sent : update.sent with
  | none =>
      refine ⟨floors, ?_, canonical⟩
      simp only [Link.lockedUpdate, sent, Option.map_none, Option.getD_none, List.append_nil]
      exact stream
  | some floor =>
      refine ⟨floors ++ [floor], ?_, fun other member => ?_⟩
      · simp only [Link.lockedUpdate, sent, Option.map_some, Option.getD_some, stream,
          List.flatMap_append, List.flatMap_cons, List.flatMap_nil, List.append_nil]
      · rcases List.mem_append.mp member with old | new
        · exact canonical other old
        · obtain ⟨head, isHead, same⟩ := Option.map_eq_some_iff.mp (announces.sent floor sent)
          rw [List.mem_singleton.mp new, ← same]
          exact queued head (List.mem_of_mem_head? isHead)

theorem Upkeep.insert (upkeep : Upkeep link) (free : link.queueMutex = none) {call : Call}
    (current : Canonical call.currentFloor.chars)
    (destination : Canonical call.destinationFloor.chars)
    (agreed : LinkInvariant
      (link.lockedUpdate .control (insertFloorsIntoQueue link.data link.queue call))) :
    Upkeep (link.lockedUpdate .control (insertFloorsIntoQueue link.data link.queue call)) := by
  have queued : ∀ node ∈ (insertFloorsIntoQueue link.data link.queue call).queue,
      Canonical node.floor.chars := by
    intro node member
    rcases mem_insertFloors member with old | rfl | rfl
    · exact upkeep.queued node old
    · exact current
    · exact destination
  exact { upkeep with
    agreed := agreed
    queued := queued
    inFlight := upkeep.announced free
      (insertFloorsIntoQueue_announces link.data link.queue call) queued }

theorem Upkeep.serve (upkeep : Upkeep link) (free : link.queueMutex = none)
    (agreed : LinkInvariant
      { link.lockedUpdate .handler (serveArrival link.data link.queue) with
        handler := .receiving }) :
    Upkeep
      { link.lockedUpdate .handler (serveArrival link.data link.queue) with
        handler := .receiving } := by
  have queued : ∀ node ∈ (serveArrival link.data link.queue).queue, Canonical node.floor.chars :=
    fun node member =>
      upkeep.queued node ((serveArrival_sublist link.data link.queue).subset member)
  exact { upkeep with
    agreed := agreed
    queued := queued
    inFlight := @Upkeep.announced link upkeep .handler (serveArrival link.data link.queue) free
      (serveArrival_announces link.data link.queue) queued }

theorem Upkeep.loop (upkeep : Upkeep link) (ret : WaitResult)
    (agreed : LinkInvariant { link with car := link.car.loop ret }) :
    Upkeep { link with car := link.car.loop ret } := by
  have normal := upkeep.agreed.normal
  obtain ⟨openButton, closeButton⟩ := elevatorLoop_buttons ret link.car.shm
  have destination := (loop_normal ret normal).2
  exact { upkeep with
    agreed := agreed
    status := elevatorLoop_status ret upkeep.status
    moving := loop_moving ret normal upkeep.moving
    openButton := openButton.elim (fun same => same ▸ upkeep.openButton) Or.inl
    closeButton := closeButton.elim (fun same => same ▸ upkeep.closeButton) Or.inl
    current := loop_canonical ret upkeep.current upkeep.destination
    destination := destination ▸ upkeep.destination
    serves := upkeep.serves.mono id (Nat.le_add_right _ _) }

theorem Upkeep.connectionTop (upkeep : Upkeep link)
    (agreed : LinkInvariant { link with car := link.car.connectionTop }) :
    Upkeep { link with car := link.car.connectionTop } := by
  obtain ⟨notEmergency, notService⟩ := upkeep.agreed.normal
  by_cases applies : link.car.Applies
  · have shape : link.car.connectionTop =
        { link.car.applyPending with connection := .polling } := by
      unfold CarProcess.connectionTop
      rw [CarProcess.applyPending_of_applies applies]
      dsimp only
      rw [if_neg notEmergency, if_neg notService]
    rw [CarProcess.applyPending_of_applies applies] at shape
    rw [shape] at agreed ⊢
    exact { upkeep with
      agreed := agreed
      destination := upkeep.pending.resolve_left applies.1
      pending := Or.inl rfl
      moving := fun between => absurd between applies.2
      serves := trivial }
  · have shape : link.car.connectionTop = { link.car with connection := .polling } := by
      unfold CarProcess.connectionTop
      rw [CarProcess.applyPending_of_not_applies applies]
      dsimp only
      rw [if_neg notEmergency, if_neg notService]
    rw [shape] at agreed ⊢
    exact { upkeep with
      agreed := agreed
      serves := trivial }

theorem Upkeep.receive (upkeep : Upkeep link) {reads : List Nat} {stack : Vector UInt8 4}
    (agreed : LinkInvariant next) (taken : linkStep link (.receive reads stack) = some next) :
    Upkeep next := by
  obtain ⟨floors, stream, canonical⟩ := upkeep.inFlight
  obtain ⟨readable, place, received⟩ := linkStep_receive taken
  have serves := upkeep.serves
  rw [place] at serves
  cases floors with
  | nil =>
      rw [List.flatMap_nil, List.append_eq_nil_iff] at stream
      exact absurd stream.1 serves.1
  | cons floor rest =>
      rw [List.flatMap_cons] at stream
      obtain ⟨unread, remains, rfl⟩ := receiveFloor_frame stream received
      exact { upkeep with
        agreed := agreed
        pending := Or.inr (canonical floor List.mem_cons_self)
        inFlight := ⟨rest, remains, fun other member =>
          canonical other (List.mem_cons_of_mem floor member)⟩
        serves := by
          cases readable with
          | true => exact serves.2 rfl
          | false => trivial }

theorem upkeep_step (link : Link) (action : LinkAction) (next : Link) (upkeep : Upkeep link)
    (calls : CanonicalCalls link action) (taken : linkStep link action = some next) :
    Upkeep next := by
  have agreed := linkInvariant_step link action next upkeep.agreed taken
  cases action with
  | insert call =>
      obtain ⟨free, rfl⟩ := of_guarded taken
      exact upkeep.insert free calls.1 calls.2 agreed
  | serve =>
      obtain ⟨⟨_, free⟩, rfl⟩ := of_guarded taken
      exact upkeep.serve free agreed
  | write extra =>
      obtain ⟨_, rfl⟩ := of_guarded taken
      obtain ⟨floors, stream, canonical⟩ := upkeep.inFlight
      exact { upkeep with
        agreed := agreed
        inFlight := ⟨floors, by
          rw [← stream, List.append_assoc, List.take_append_drop], canonical⟩
        serves := upkeep.serves.mono
          (fun some_ => List.append_ne_nil_of_left_ne_nil some_ _) (Nat.le_refl _) }
  | unlock =>
      obtain ⟨_, rfl⟩ := of_guarded taken
      exact { upkeep with agreed := agreed }
  | receiveReport =>
      obtain ⟨message, later, report, arrived, _, _, rfl⟩ := linkStep_receiveReport taken
      exact { upkeep with
        agreed := agreed
        reports := fun other member =>
          upkeep.reports other (by rw [arrived]; exact List.mem_cons_of_mem message member) }
  | anyReport report =>
      obtain ⟨_, rfl⟩ := of_guarded taken
      exact { upkeep with agreed := agreed }
  | update =>
      obtain ⟨report, _, rfl⟩ := linkStep_update taken
      exact { upkeep with agreed := agreed }
  | loop ret =>
      cases taken
      exact upkeep.loop ret agreed
  | connectionTop =>
      obtain ⟨_, rfl⟩ := of_guarded taken
      exact upkeep.connectionTop agreed
  | pollTimeout =>
      obtain ⟨_, rfl⟩ := of_guarded taken
      exact { upkeep with agreed := agreed, serves := trivial }
  | pollReady =>
      obtain ⟨⟨_, ready⟩, rfl⟩ := of_guarded taken
      refine { upkeep with agreed := agreed, serves := ?_ }
      unfold CarProcess.pollReady
      by_cases some_ : link.down = []
      · simp only [some_, ne_eq, not_true_eq_false, decide_false, Bool.false_eq_true, if_false]
        exact ready.resolve_left (fun other => other some_)
      · simp only [ne_eq, some_, not_false_eq_true, decide_true, if_true]
        exact ⟨some_, of_decide_eq_true⟩
  | receive reads stack => exact upkeep.receive agreed taken
  | readNotify =>
      obtain ⟨_, rfl⟩ := of_guarded taken
      exact { upkeep with agreed := agreed, serves := trivial }
  | sendStatus =>
      obtain ⟨_, rfl⟩ := of_guarded taken
      obtain ⟨status, found⟩ := upkeep.status
      refine { upkeep with agreed := agreed, serves := trivial, reports := ?_ }
      intro message member
      rcases List.mem_append.mp member with old | new
      · exact upkeep.reports message old
      · rw [List.mem_singleton.mp new]
        exact isReport_statusText found upkeep.current upkeep.destination
  | press openDoors =>
      cases taken
      cases openDoors with
      | true => exact { upkeep with agreed := agreed, openButton := Or.inr rfl }
      | false => exact { upkeep with agreed := agreed, closeButton := Or.inr rfl }

end Steps

end Cab403.Elevator
