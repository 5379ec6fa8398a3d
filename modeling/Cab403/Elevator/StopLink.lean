/-
A connected car and its record in the controller, joined by the two directions of
one socket. The control loop inserts calls and the car's handler serves arrivals,
each holding `queue_mutex` until its `FLOOR` message is written; the car receives the
bytes, keeps the destination pending and applies it. The head of the queue is the
stop that was announced last.
-/

import Cab403.Elevator.CarProcess
import Cab403.Elevator.FloorQueue
import Cab403.Elevator.Framing
import Cab403.Elevator.LoopMoves

namespace Cab403.Elevator

open CText ActionRuns Controller Framing

/-! ### The messages -/

def floorText (floor : Token 3) : CString :=
  { text := bytes "FLOOR " ++ floor.text
    noNul := by
      rw [List.mem_append, not_or]
      exact ⟨by decide, floor.noNul⟩ }

def floorFrame (floor : Token 3) : List UInt8 := frame (floorText floor)

def statusLine (status currentFloor destinationFloor : List UInt8) : List UInt8 :=
  bytes "STATUS" ++ 32 :: (status ++ 32 :: (currentFloor ++ 32 :: destinationFloor))

def statusText (shm : CarSharedMem) : List UInt8 :=
  statusLine shm.status.text shm.currentFloor.text shm.destinationFloor.text

def statusMessage? (message : List UInt8) : Option CarData := do
  let rest ← stripLiteral (bytes "STATUS") message
  let (status, rest) ← scanString 7 rest
  let (currentFloor, rest) ← scanString 3 rest
  let (destinationFloor, _) ← scanString 3 rest
  return { currentFloor := currentFloor, destinationFloor := destinationFloor, status := status }

/-! ### The states of the link -/

inductive Holder where
  | control
  | handler
  deriving DecidableEq, Repr

inductive HandlerAt where
  | receiving
  | received (report : CarData)
  /-- The report is stored, the queue is still to be looked at. -/
  | updated
  deriving DecidableEq

structure Link where
  car : CarProcess
  up : List (List UInt8)
  down : List UInt8
  data : CarData
  queue : List FloorNode
  queueMutex : Option Holder
  handler : HandlerAt
  /-- Bytes the holder of the mutex has still to write. -/
  outgoing : List UInt8
  written : List UInt8
  deriving DecidableEq

inductive LinkAction where
  | insert (call : Call)
  /-- One `write` takes `extra + 1` bytes, or all that remain. -/
  | write (extra : Nat)
  | unlock
  /-- The handler reads a report of the car, or any report at all. -/
  | receiveReport
  | anyReport (report : CarData)
  | update
  | serve
  | loop (ret : WaitResult)
  | connectionTop
  | pollTimeout
  | pollReady
  /-- `receive_msg` in the car, with the counts of its reads and the stack it finds. -/
  | receive (reads : List Nat) (stack : Vector UInt8 4)
  | readNotify
  | sendStatus
  | press (openDoors : Bool)
  deriving DecidableEq

/-- The message of an update, if it has one, is due under the mutex. -/
def Link.lockedUpdate (link : Link) (holder : Holder) (update : QueueUpdate) : Link :=
  { link with
    queue := update.queue
    queueMutex := some holder
    outgoing := (update.sent.map floorFrame).getD [] }

def Link.receiveFloor (link : Link) (reads : List Nat) (stack : Vector UInt8 4) (pipe : Bool) :
    Option Link :=
  if 4 ≤ link.down.length then
    match receiveMsg reads stack link.down with
    | { result := .message message, unread := unread, .. } =>
        some { link with car := link.car.receiveMessage message pipe, down := unread }
    | _ => none
  else none

def linkStep (link : Link) : LinkAction → Option Link
  | .insert call =>
      if link.queueMutex = none then
        some (link.lockedUpdate .control (insertFloorsIntoQueue link.data link.queue call))
      else none
  | .write extra =>
      if link.outgoing ≠ [] then
        some
          { link with
            down := link.down ++ link.outgoing.take (extra + 1)
            written := link.written ++ link.outgoing.take (extra + 1)
            outgoing := link.outgoing.drop (extra + 1) }
      else none
  | .unlock =>
      if link.queueMutex ≠ none ∧ link.outgoing = [] then some { link with queueMutex := none }
      else none
  | .receiveReport =>
      match link.up with
      | [] => none
      | message :: later =>
          match statusMessage? message with
          -- a report that does not scan ends the connection, and the run with it
          | none => none
          | some report =>
              if link.handler = .receiving ∧ link.queueMutex ≠ some .handler then
                some { link with up := later, handler := .received report }
              else none
  | .anyReport report =>
      if link.handler = .receiving ∧ link.queueMutex ≠ some .handler then
        some { link with handler := .received report }
      else none
  | .update =>
      match link.handler with
      | .received report =>
          -- the control loop holds `data_mutex` as long as `queue_mutex`
          if link.queueMutex ≠ some .control then
            some { link with data := report, handler := .updated }
          else none
      | _ => none
  | .serve =>
      if link.handler = .updated ∧ link.queueMutex = none then
        some
          { link.lockedUpdate .handler (serveArrival link.data link.queue) with
            handler := .receiving }
      else none
  | .loop ret => some { link with car := link.car.loop ret }
  | .connectionTop =>
      if link.car.connection = .top then some { link with car := link.car.connectionTop }
      else none
  | .pollTimeout =>
      if link.car.connection = .polling then
        some { link with car := { link.car with connection := .report } }
      else none
  | .pollReady =>
      if link.car.connection = .polling ∧ (link.down ≠ [] ∨ 0 < link.car.notify) then
        some { link with car := link.car.pollReady (link.down ≠ []) }
      else none
  | .receive reads stack =>
      match link.car.connection with
      | .socket pipe => link.receiveFloor reads stack pipe
      | _ => none
  | .readNotify =>
      if link.car.connection = .pipe ∧ 0 < link.car.notify then
        some { link with car := link.car.readNotify }
      else none
  | .sendStatus =>
      if link.car.connection = .report then
        some
          { link with
            car := { link.car with connection := .top }
            up := link.up ++ [statusText link.car.shm] }
      else none
  | .press openDoors =>
      let shm := link.car.shm
      some
        { link with
          car := link.car.storeAndBroadcast
            (if openDoors then { shm with openButton := 1 } else { shm with closeButton := 1 }) }

/-! ### The next stop, on both sides -/

def NormalMode (shm : CarSharedMem) : Prop :=
  shm.emergencyMode ≠ 1 ∧ shm.individualServiceMode ≠ 1

instance (shm : CarSharedMem) : Decidable (NormalMode shm) := inferInstanceAs (Decidable (_ ∧ _))

/-- A car in normal mode, in any state, whose record has just been linked in. -/
structure Link.Fresh (link : Link) : Prop where
  normal : NormalMode link.car.shm
  queue : link.queue = []
  queueMutex : link.queueMutex = none
  handler : link.handler = .receiving
  down : link.down = []
  outgoing : link.outgoing = []
  written : link.written = []

/-- The floor named by the last message in flight, else the pending destination,
else the destination. -/
def lastAnnounced (inFlight : List (Token 3)) (car : CarProcess) : List UInt8 :=
  match inFlight.getLast? with
  | some floor => floor.text
  | none =>
      if car.pendingDestination = CharArray.empty 4 then car.shm.destinationFloor.text
      else car.pendingDestination.text

structure Agreement (link : Link) : Prop where
  frames : ∃ floors : List (Token 3),
    link.written ++ link.outgoing = floors.flatMap floorFrame
  finished : link.queueMutex = none → link.outgoing = []
  nextStop : link.queueMutex = none → ∀ head ∈ link.queue.head?,
    ∃ inFlight : List (Token 3), link.down = inFlight.flatMap floorFrame ∧
      lastAnnounced inFlight link.car = head.floor.text

/-- The agreement extended to the states in which a frame is half written. -/
structure LinkInvariant (link : Link) : Prop where
  normal : NormalMode link.car.shm
  frames : ∃ floors : List (Token 3),
    link.written ++ link.outgoing = floors.flatMap floorFrame
  finished : link.queueMutex = none → link.outgoing = []
  nextStop : ∃ inFlight : List (Token 3), link.down ++ link.outgoing = inFlight.flatMap floorFrame ∧
    ∀ head ∈ link.queue.head?, lastAnnounced inFlight link.car = head.floor.text

theorem LinkInvariant.agreement {link : Link} (invariant : LinkInvariant link) :
    Agreement link :=
  { frames := invariant.frames
    finished := invariant.finished
    nextStop := by
      intro free head isHead
      obtain ⟨inFlight, stream, announced⟩ := invariant.nextStop
      rw [invariant.finished free, List.append_nil] at stream
      exact ⟨inFlight, stream, announced head isHead⟩ }

theorem linkInvariant_of_fresh {link : Link} (fresh : link.Fresh) : LinkInvariant link :=
  { normal := fresh.normal
    frames := ⟨[], by rw [fresh.written, fresh.outgoing]; rfl⟩
    finished := fun _ => fresh.outgoing
    nextStop := by
      refine ⟨[], by rw [fresh.down, fresh.outgoing]; rfl, ?_⟩
      intro head isHead
      rw [fresh.queue] at isHead
      cases isHead }

/-! ### Reading the messages -/

theorem floorMessage?_append (floor : Token 3) {rest : List UInt8} (ends : FieldEnds rest) :
    floorMessage? ((floorText floor).text ++ rest) = some floor := by
  have scanned := scanString_token floor ends
  simp only [floorMessage?, floorText, List.append_assoc, stripLiteral_append, scanned,
    Option.bind_eq_bind, Option.bind_some, Option.pure_def]

theorem floorMessage?_floorText (floor : Token 3) :
    floorMessage? ((floorText floor).text ++ [0]) = some floor := by
  apply floorMessage?_append
  intro byte member
  cases member
  decide

theorem floorText_short (floor : Token 3) : (floorText floor).strlen < 2 ^ 32 - 1 := by
  have short := floor.short
  have length : (floorText floor).strlen = 6 + floor.text.length := by
    simp only [CString.strlen, floorText, List.length_append]
    rfl
  omega

theorem statusMessage?_statusLine (report : CarData) :
    statusMessage?
        (statusLine report.status.text report.currentFloor.text report.destinationFloor.text) =
      some report := by
  have status := scanString_space report.status
    (fieldEnds_blank (report.currentFloor.text ++ 32 :: report.destinationFloor.text))
  have current := scanString_space report.currentFloor
    (fieldEnds_blank report.destinationFloor.text)
  have destination := scanString_space report.destinationFloor fieldEnds_nil
  rw [List.append_nil] at destination
  simp only [statusMessage?, statusLine, stripLiteral_append, status, current, destination,
    Option.bind_eq_bind, Option.bind_some, Option.pure_def]

theorem receiveFloor_frame {link next : Link} {reads : List Nat} {stack : Vector UInt8 4}
    {pipe : Bool} {floor : Token 3} {later : List UInt8}
    (stream : link.down ++ link.outgoing = floorFrame floor ++ later)
    (taken : link.receiveFloor reads stack pipe = some next) :
    ∃ unread, unread ++ link.outgoing = later ∧
      next =
        { link with
          car :=
            { link.car with
              pendingDestination := floor.chars
              connection := if pipe then .pipe else .top }
          down := unread } := by
  unfold Link.receiveFloor at taken
  split at taken
  · rename_i header
    split at taken
    · rename_i message unread kernel outcome
      cases taken
      obtain ⟨text, rest⟩ := receiveMsg_partial (floorText_short floor) stream header
        (by rw [outcome])
      rw [outcome] at rest
      refine ⟨unread, rest, ?_⟩
      rw [text, CarProcess.receiveMessage, floorMessage?_floorText]
    · cases taken
  · cases taken

/-! ### One step -/

theorem linkStep_receive {link next : Link} {reads : List Nat} {stack : Vector UInt8 4}
    (taken : linkStep link (.receive reads stack) = some next) :
    ∃ pipe, link.car.connection = .socket pipe ∧
      link.receiveFloor reads stack pipe = some next := by
  simp only [linkStep] at taken
  split at taken
  · rename_i pipe place
    exact ⟨pipe, place, taken⟩
  · cases taken

/-- A receive reads the first floor in flight. -/
theorem linkStep_receiveFloor {link next : Link} {reads : List Nat} {stack : Vector UInt8 4}
    {inFlight : List (Token 3)} (stream : link.down ++ link.outgoing = inFlight.flatMap floorFrame)
    (taken : linkStep link (.receive reads stack) = some next) :
    ∃ (floor : Token 3) (rest : List (Token 3)) (pipe : Bool) (unread : List UInt8),
      inFlight = floor :: rest ∧
      unread ++ link.outgoing = rest.flatMap floorFrame ∧
      next =
        { link with
          car :=
            { link.car with
              pendingDestination := floor.chars
              connection := if pipe then .pipe else .top }
          down := unread } := by
  obtain ⟨pipe, _, received⟩ := linkStep_receive taken
  cases inFlight with
  | nil =>
      rw [List.flatMap_nil, List.append_eq_nil_iff] at stream
      unfold Link.receiveFloor at received
      rw [stream.1] at received
      cases received
  | cons floor rest =>
      rw [List.flatMap_cons] at stream
      obtain ⟨unread, remains, read⟩ := receiveFloor_frame stream received
      exact ⟨floor, rest, pipe, unread, rfl, remains, read⟩

theorem linkStep_receiveReport {link next : Link}
    (taken : linkStep link .receiveReport = some next) :
    ∃ message later report, link.up = message :: later ∧ statusMessage? message = some report ∧
      link.handler = .receiving ∧
      next = { link with up := later, handler := .received report } := by
  simp only [linkStep] at taken
  split at taken
  · cases taken
  · rename_i message later arrived
    split at taken
    · cases taken
    · rename_i report scanned
      obtain ⟨⟨idle, _⟩, rfl⟩ := of_guarded taken
      exact ⟨message, later, report, arrived, scanned, idle, rfl⟩

theorem linkStep_update {link next : Link} (taken : linkStep link .update = some next) :
    ∃ report, link.handler = .received report ∧
      next = { link with data := report, handler := .updated } := by
  simp only [linkStep] at taken
  split at taken
  · rename_i report received
    obtain ⟨_, rfl⟩ := of_guarded taken
    exact ⟨report, received, rfl⟩
  · cases taken

theorem loop_normal {car : CarProcess} (ret : WaitResult) (normal : NormalMode car.shm) :
    NormalMode (car.loop ret).shm ∧
      (car.loop ret).shm.destinationFloor = car.shm.destinationFloor := by
  refine ⟨⟨?_, ?_⟩, (elevatorLoop_normalFloors ret normal.1 normal.2).2.2⟩
  · change (elevatorLoop ret car.shm).shm.emergencyMode ≠ 1
    rw [elevatorLoop_emergencyMode]
    exact normal.1
  · change (elevatorLoop ret car.shm).shm.individualServiceMode ≠ 1
    rw [elevatorLoop_individualServiceMode]
    exact normal.2

theorem lastAnnounced_snoc (inFlight : List (Token 3)) (floor : Token 3) (car : CarProcess) :
    lastAnnounced (inFlight ++ [floor]) car = floor.text := by
  simp only [lastAnnounced, List.getLast?_append, List.getLast?_singleton, Option.some_or]

theorem lastAnnounced_cons (floor : Token 3) (rest : List (Token 3)) (car : CarProcess)
    (point : ConnectionAt) :
    lastAnnounced (floor :: rest) car =
      lastAnnounced rest
        { car with pendingDestination := floor.chars, connection := point } := by
  cases rest with
  | nil =>
      simp only [lastAnnounced, List.getLast?_singleton, List.getLast?_nil,
        if_neg floor.chars_ne_empty, Token.chars_text]
  | cons second rest =>
      obtain ⟨last, found⟩ : ∃ last, (second :: rest).getLast? = some last :=
        ⟨_, List.getLast?_eq_some_getLast (List.cons_ne_nil second rest)⟩
      simp only [lastAnnounced, List.getLast?_cons_cons, found]

theorem lastAnnounced_congr {inFlight : List (Token 3)} {left right : CarProcess}
    (pending : left.pendingDestination = right.pendingDestination)
    (destination : left.shm.destinationFloor = right.shm.destinationFloor) :
    lastAnnounced inFlight left = lastAnnounced inFlight right := by
  simp only [lastAnnounced, pending, destination]

theorem lastAnnounced_applyPending (inFlight : List (Token 3)) (car : CarProcess) :
    lastAnnounced inFlight car.applyPending = lastAnnounced inFlight car := by
  by_cases applies : car.Applies
  · simp only [lastAnnounced, CarProcess.applyPending_of_applies applies, if_true,
      if_neg applies.1]
  · rw [CarProcess.applyPending_of_not_applies applies]

/-- An update of the queue under the free mutex keeps the invariant: the head keeps
its floor, or the message that is due names the new one. -/
theorem linkInvariant_lockedUpdate {link : Link} {holder : Holder} {update : QueueUpdate}
    (invariant : LinkInvariant link) (free : link.queueMutex = none)
    (announces : Announces link.queue update) :
    LinkInvariant (link.lockedUpdate holder update) := by
  obtain ⟨floors, history⟩ := invariant.frames
  obtain ⟨inFlight, stream, announced⟩ := invariant.nextStop
  rw [invariant.finished free, List.append_nil] at history stream
  cases sent : update.sent with
  | none =>
      refine ⟨invariant.normal, ⟨floors, ?_⟩, nofun, inFlight, ?_, ?_⟩
      · simp only [Link.lockedUpdate, sent, Option.map_none, Option.getD_none, List.append_nil]
        exact history
      · simp only [Link.lockedUpdate, sent, Option.map_none, Option.getD_none, List.append_nil]
        exact stream
      · intro head isHead
        change head ∈ update.queue.head? at isHead
        have nonempty : update.queue ≠ [] := by
          intro empty
          rw [empty] at isHead
          cases isHead
        have kept := announces.kept sent nonempty
        rw [Option.mem_def.mp isHead, Option.map_some] at kept
        obtain ⟨old, isOld, same⟩ := Option.map_eq_some_iff.mp kept.symm
        rw [← same]
        exact announced old isOld
  | some floor =>
      refine ⟨invariant.normal, ⟨floors ++ [floor], ?_⟩, nofun, inFlight ++ [floor], ?_, ?_⟩
      · simp only [Link.lockedUpdate, sent, Option.map_some, Option.getD_some, history,
          List.flatMap_append, List.flatMap_cons, List.flatMap_nil, List.append_nil]
      · simp only [Link.lockedUpdate, sent, Option.map_some, Option.getD_some, stream,
          List.flatMap_append, List.flatMap_cons, List.flatMap_nil, List.append_nil]
      · intro head isHead
        have named := announces.sent floor sent
        change head ∈ update.queue.head? at isHead
        rw [Option.mem_def.mp isHead, Option.map_some] at named
        rw [lastAnnounced_snoc, Option.some.inj named]

theorem LinkInvariant.withCar {link : Link} (invariant : LinkInvariant link) {car : CarProcess}
    (normal : NormalMode car.shm)
    (announced : ∀ inFlight, lastAnnounced inFlight car = lastAnnounced inFlight link.car) :
    LinkInvariant { link with car := car } := by
  obtain ⟨inFlight, stream, heads⟩ := invariant.nextStop
  refine ⟨normal, invariant.frames, invariant.finished, inFlight, stream, ?_⟩
  intro head isHead
  rw [announced]
  exact heads head isHead

theorem linkInvariant_step (link : Link) (action : LinkAction) (next : Link)
    (invariant : LinkInvariant link) (taken : linkStep link action = some next) :
    LinkInvariant next := by
  have same : ∀ inFlight, lastAnnounced inFlight link.car = lastAnnounced inFlight link.car :=
    fun _ => rfl
  cases action with
  | insert call =>
      obtain ⟨free, rfl⟩ := of_guarded taken
      exact linkInvariant_lockedUpdate invariant free
        (insertFloorsIntoQueue_announces link.data link.queue call)
  | serve =>
      obtain ⟨⟨_, free⟩, rfl⟩ := of_guarded taken
      have served :
          LinkInvariant (link.lockedUpdate .handler (serveArrival link.data link.queue)) :=
        linkInvariant_lockedUpdate invariant free (serveArrival_announces link.data link.queue)
      exact ⟨served.normal, served.frames, served.finished, served.nextStop⟩
  | write extra =>
      obtain ⟨_, rfl⟩ := of_guarded taken
      obtain ⟨floors, history⟩ := invariant.frames
      obtain ⟨inFlight, stream, announced⟩ := invariant.nextStop
      refine ⟨invariant.normal, ⟨floors, ?_⟩, ?_, inFlight, ?_, announced⟩
      · rw [← history, List.append_assoc, List.take_append_drop]
      · intro free
        change link.outgoing.drop (extra + 1) = []
        rw [invariant.finished free, List.drop_nil]
      · rw [← stream, List.append_assoc, List.take_append_drop]
  | unlock =>
      obtain ⟨⟨_, finished⟩, rfl⟩ := of_guarded taken
      exact ⟨invariant.normal, invariant.frames, fun _ => finished, invariant.nextStop⟩
  | receiveReport =>
      obtain ⟨message, later, report, _, _, _, rfl⟩ := linkStep_receiveReport taken
      exact ⟨invariant.normal, invariant.frames, invariant.finished, invariant.nextStop⟩
  | anyReport report =>
      obtain ⟨_, rfl⟩ := of_guarded taken
      exact ⟨invariant.normal, invariant.frames, invariant.finished, invariant.nextStop⟩
  | update =>
      obtain ⟨report, _, rfl⟩ := linkStep_update taken
      exact ⟨invariant.normal, invariant.frames, invariant.finished, invariant.nextStop⟩
  | loop ret =>
      cases taken
      obtain ⟨normal, destination⟩ := loop_normal ret invariant.normal
      exact invariant.withCar normal (fun inFlight => lastAnnounced_congr rfl destination)
  | connectionTop =>
      obtain ⟨_, rfl⟩ := of_guarded taken
      refine invariant.withCar ?_ ?_
      · rw [CarProcess.connectionTop_shm]
        by_cases applies : link.car.Applies
        · rw [CarProcess.applyPending_of_applies applies]
          exact invariant.normal
        · rw [CarProcess.applyPending_of_not_applies applies]
          exact invariant.normal
      · intro inFlight
        rw [← lastAnnounced_applyPending inFlight link.car]
        exact lastAnnounced_congr (CarProcess.connectionTop_pendingDestination link.car)
          (congrArg CarSharedMem.destinationFloor (CarProcess.connectionTop_shm link.car))
  | receive reads stack =>
      obtain ⟨inFlight, stream, announced⟩ := invariant.nextStop
      obtain ⟨floor, rest, pipe, unread, rfl, remains, rfl⟩ := linkStep_receiveFloor stream taken
      refine ⟨invariant.normal, invariant.frames, invariant.finished, rest, remains, ?_⟩
      intro head isHead
      rw [← announced head isHead]
      exact (lastAnnounced_cons floor rest link.car _).symm
  | pollTimeout | pollReady | readNotify =>
      obtain ⟨_, rfl⟩ := of_guarded taken
      exact invariant.withCar invariant.normal same
  | sendStatus =>
      obtain ⟨_, rfl⟩ := of_guarded taken
      have moved : LinkInvariant { link with car := { link.car with connection := .top } } :=
        invariant.withCar invariant.normal same
      exact ⟨moved.normal, moved.frames, moved.finished, moved.nextStop⟩
  | press openDoors =>
      cases taken
      refine invariant.withCar ?_ ?_
      · cases openDoors <;> exact invariant.normal
      · intro inFlight
        cases openDoors <;> exact lastAnnounced_congr rfl rfl

/-! ### Whole runs -/

/-- In every state of every run the frames are whole and the two sides agree. -/
theorem link_agrees (start : Link) (fresh : start.Fresh) (actions : List LinkAction)
    (reached : Link) (ran : run linkStep start actions = some reached) : Agreement reached :=
  (invariant_run_always linkInvariant_step (linkInvariant_of_fresh fresh) ran).agreement

def linkStart (floor : Token 3) : Link :=
  { car := { CarProcess.start floor.chars with connection := .top }
    up := []
    down := []
    data :=
      { currentFloor := floor
        destinationFloor := floor
        status := statusToken .closed }
    queue := []
    queueMutex := none
    handler := .receiving
    outgoing := []
    written := [] }

theorem linkStart_fresh (floor : Token 3) : (linkStart floor).Fresh :=
  { normal := ⟨(by decide : (0 : UInt8) ≠ 1), (by decide : (0 : UInt8) ≠ 1)⟩
    queue := rfl
    queueMutex := rfl
    handler := rfl
    down := rfl
    outgoing := rfl
    written := rfl }

def firstCall : List LinkAction :=
  [.insert
      { currentFloor := digitFloor 1
        destinationFloor := digitFloor 2 },
    .write 2, .write 20, .unlock, .connectionTop, .pollReady,
    .receive [0, 1] (Vector.replicate 4 7), .connectionTop, .loop .broadcast]

theorem link_agrees_firstCall :
    Agreement
      ((run linkStep (linkStart (digitFloor 1)) firstCall).get
        (by decide)) :=
  link_agrees (linkStart (digitFloor 1)) (linkStart_fresh _)
    firstCall _ (Option.some_get _).symm

end Cab403.Elevator
