/-
The controller among its peers. Every connection has a handler thread that receives
messages and, for a car, serves its floor queue while `monitor_socket` watches the
connection; the control loop dispatches the queued calls. Peers send any bytes and
close at any time, and a descriptor that is closed may be given out again. A step is
one receive, one critical section with the message it sends, or an action of a peer.
Accepting connections, creating threads and allocating memory are taken to succeed,
and the sections of `car_list_mutex` to be exclusive, which CarRegistry treats.
-/

import Cab403.Elevator.CarRegistry
import Cab403.Elevator.StopLink

namespace Cab403.Elevator.Peers

open CText ActionRuns Controller Framing CarRegistry

/-! ### The messages of a peer -/

def callMessage? (message : List UInt8) : Option Call := do
  let rest ← stripLiteral (bytes "CALL") message
  let (currentFloor, rest) ← scanString 3 rest
  let (destinationFloor, _) ← scanString 3 rest
  return { currentFloor := currentFloor, destinationFloor := destinationFloor }

def carMessage? (message : List UInt8) : Option (Token 255 × CarRange) := do
  let rest ← stripLiteral (bytes "CAR") message
  let (name, rest) ← scanString 255 rest
  let (lowestFloor, rest) ← scanString 3 rest
  let (highestFloor, _) ← scanString 3 rest
  return (name, { lowestFloor := lowestFloor, highestFloor := highestFloor })

def carReply (name : Token 255) : CString :=
  { text := bytes "CAR " ++ name.text
    noNul := by
      rw [List.mem_append, not_or]
      exact ⟨by decide, name.noNul⟩ }

def unavailable : CString := { text := bytes "UNAVAILABLE", noNul := by decide }

/-! ### The states of the controller -/

abbrev PeerId := Nat

structure CarRecord where
  name : Token 255
  range : CarRange
  data : CarData
  queue : List FloorNode

inductive ThreadAt where
  | absent
  /-- `handle_connection` is about to receive the initial message. -/
  | accepted
  /-- The `CAR` message was read, the first status is due. -/
  | greeted (name : Token 255) (range : CarRange)
  | created
  | serving
  | reported (report : CarData)
  | updated
  /-- `receive_msg` returned NULL. -/
  | lost
  | leaving
  | unlinked
  | hungUp
  /-- The thread has returned, and a record it had is freed. -/
  | ended

inductive ControlAt where
  | waiting
  | taken (call : Call) (caller : PeerId)
  | selected (call : Call) (caller : PeerId) (car : PeerId)
  /-- The reply is due: the name of a car, or `UNAVAILABLE`. -/
  | replying (caller : PeerId) (car : Option PeerId)

inductive Outcome where
  | running
  | exited
  /-- A NULL pointer, a freed record or memory outside a block was accessed. -/
  | crashed
  deriving DecidableEq, Repr

structure ControllerState where
  /-- Bytes a peer has sent and the controller has not read. -/
  incoming : PeerId → List UInt8
  /-- One of the two ends is closed or shut down. -/
  closed : PeerId → Bool
  descriptor : Nat → Option PeerId
  /-- The descriptor that `accept` returned for the connection. -/
  connFd : PeerId → Nat
  thread : PeerId → ThreadAt
  /-- `connected` in the frame of `handle_car_connection`. -/
  connected : PeerId → Bool
  monitored : PeerId → Bool
  record : PeerId → CarRecord
  cars : List PeerId
  calls : List (Call × PeerId)
  control : ControlAt
  outcome : Outcome

inductive PeerAction where
  | connect (peer : PeerId) (connFd : Nat)
  | sends (peer : PeerId) (sent : List UInt8)
  | closes (peer : PeerId)
  | receive (peer : PeerId) (reads : List Nat) (stack : Vector UInt8 4)
  /-- `monitor_socket` finds the connection over, by the end of the stream if `eof`. -/
  | monitor (peer : PeerId) (eof : Bool)
  | drop (peer : PeerId)
  | breakOff (peer : PeerId)
  | link (peer : PeerId)
  | update (peer : PeerId)
  | serve (peer : PeerId) (writes : List WriteResult)
  | unlink (peer : PeerId)
  | hangUp (peer : PeerId)
  | free (peer : PeerId)
  | take
  | select
  | insert (writes : List WriteResult)
  | reply (writes : List WriteResult)

namespace ControllerState

def moveThread (state : ControllerState) (peer : PeerId) (point : ThreadAt) : ControllerState :=
  { state with thread := Function.update state.thread peer point }

def storeRecord (state : ControllerState) (peer : PeerId) (record : CarRecord) :
    ControllerState :=
  { state with record := Function.update state.record peer record }

def setConnected (state : ControllerState) (peer : PeerId) (connected : Bool) : ControllerState :=
  { state with connected := Function.update state.connected peer connected }

/-! ### Descriptors -/

def shutdown (state : ControllerState) (connFd : Nat) : ControllerState :=
  match state.descriptor connFd with
  | some peer => { state with closed := Function.update state.closed peer true }
  | none => state

def close (state : ControllerState) (connFd : Nat) : ControllerState :=
  { state with descriptor := Function.update state.descriptor connFd none }

/-- Nothing more arrives on the descriptor than what is there. -/
def Over (state : ControllerState) (connFd : Nat) : Prop :=
  match state.descriptor connFd with
  | some peer => state.closed peer = true
  | none => True

instance (state : ControllerState) (connFd : Nat) : Decidable (state.Over connFd) := by
  unfold Over
  split <;> infer_instance

def unread (state : ControllerState) (connFd : Nat) : List UInt8 :=
  match state.descriptor connFd with
  | some peer => state.incoming peer
  | none => []

def consume (state : ControllerState) (connFd : Nat) (later : List UInt8) : ControllerState :=
  match state.descriptor connFd with
  | some peer => { state with incoming := Function.update state.incoming peer later }
  | none => state

/-- The results that the writes of a message can have. -/
def WritesFit (state : ControllerState) (connFd : Nat) (writes : List WriteResult) :
    Option CString → Prop
  | none => writes = []
  | some _ =>
      match state.descriptor connFd with
      | some peer => .failed ∈ writes → state.closed peer = true
      | none => writes = [.failed]

instance (state : ControllerState) (connFd : Nat) (writes : List WriteResult)
    (sent : Option CString) : Decidable (state.WritesFit connFd writes sent) := by
  unfold WritesFit
  split
  · infer_instance
  · split <;> infer_instance

/-- `send_message`, if there is a message: a failed write ends the process. -/
def send (state : ControllerState) (writes : List WriteResult) (sent : Option CString) :
    ControllerState :=
  match sent with
  | some buf =>
      if (sendMessage writes buf).exited then { state with outcome := .exited } else state
  | none => state

/-- `receive_msg` returns: the stream has ended, or it holds a whole frame, or a
header whose length wraps. -/
def ReceiveReturns (state : ControllerState) (connFd : Nat) (stack : Vector UInt8 4) : Prop :=
  state.Over connFd ∨
    (4 ≤ (state.unread connFd).length ∧
      (headerLength stack (state.unread connFd) = 2 ^ 32 - 1 ∨
        headerLength stack (state.unread connFd) ≤ ((state.unread connFd).drop 4).length))

instance (state : ControllerState) (connFd : Nat) (stack : Vector UInt8 4) :
    Decidable (state.ReceiveReturns connFd stack) :=
  inferInstanceAs (Decidable (_ ∨ _))

/-! ### The threads -/

def closeAndReturn (state : ControllerState) (peer : PeerId) : ControllerState :=
  (state.close (state.connFd peer)).moveThread peer .ended

def queueCall (state : ControllerState) (peer : PeerId) (call : Call) : ControllerState :=
  { state.moveThread peer .ended with calls := state.calls ++ [(call, peer)] }

/-- `handle_connection` on its message, with the beginning of the handler it picks. -/
def initialMessage (state : ControllerState) (peer : PeerId) (message : List UInt8) :
    ControllerState :=
  if bytes "CALL" <+: message then
    match callMessage? message with
    | some call => state.queueCall peer call
    | none => state.closeAndReturn peer
  else if bytes "CAR" <+: message then
    match carMessage? message with
    | some (name, range) => state.moveThread peer (.greeted name range)
    | none => state.closeAndReturn peer
  else state.closeAndReturn peer

def received (state : ControllerState) (peer : PeerId) (result : Received) :
    Option ControllerState :=
  match state.thread peer, result with
  | .accepted, .message message => some (state.initialMessage peer message)
  -- `strncmp` of a NULL message
  | .accepted, .null => some { state with outcome := .crashed }
  | .greeted name range, .message message =>
      match statusMessage? message with
      | some report =>
          some
            ((state.moveThread peer .created).storeRecord peer
              { name := name, range := range, data := report, queue := [] })
      | none => some (state.closeAndReturn peer)
  | .greeted _ _, .null => some (state.closeAndReturn peer)
  | .serving, .message message =>
      match statusMessage? message with
      | some report => some (state.moveThread peer (.reported report))
      | none => some (state.moveThread peer .leaving)
  | .serving, .null => some (state.moveThread peer .lost)
  | .accepted, .overrun | .greeted _ _, .overrun | .serving, .overrun =>
      some { state with outcome := .crashed }
  | _, _ => none

def accept (state : ControllerState) (peer : PeerId) (connFd : Nat) : ControllerState :=
  { state.moveThread peer .accepted with
    descriptor := Function.update state.descriptor connFd (some peer)
    connFd := Function.update state.connFd peer connFd }

def linkCar (state : ControllerState) (peer : PeerId) : ControllerState :=
  { (state.setConnected peer true).moveThread peer .serving with
    cars := peer :: state.cars
    monitored := Function.update state.monitored peer true }

def unlinkCar (state : ControllerState) (peer : PeerId) : ControllerState :=
  { state.moveThread peer .unlinked with cars := state.cars.erase peer }

/-- The section after a NULL message: the descriptor is closed even when the monitor has
closed it before. -/
def breakOff (state : ControllerState) (peer : PeerId) : ControllerState :=
  (((state.setConnected peer false).shutdown (state.connFd peer)).close
    (state.connFd peer)).moveThread peer .leaving

def monitorSocket (state : ControllerState) (peer : PeerId) (eof : Bool) : ControllerState :=
  let returned := { state with monitored := Function.update state.monitored peer false }
  if state.connected peer then
    let down := (returned.setConnected peer false).shutdown (state.connFd peer)
    if eof then down.close (state.connFd peer) else down
  else returned

def hangUp (state : ControllerState) (peer : PeerId) : ControllerState :=
  if state.connected peer then
    (((state.shutdown (state.connFd peer)).close (state.connFd peer)).setConnected peer
      false).moveThread peer .hungUp
  else state.moveThread peer .hungUp

def Freed (state : ControllerState) (peer : PeerId) : Prop :=
  match state.thread peer with
  | .ended => True
  | _ => False

instance (state : ControllerState) (peer : PeerId) : Decidable (state.Freed peer) := by
  unfold Freed
  split <;> infer_instance

/-- `select_best_car`, in one section of the list mutex. -/
def selectBestCar (state : ControllerState) (call : Call) : Option PeerId :=
  state.cars.find? fun car => canAccessFloors (state.record car).range call

def answered (state : ControllerState) (caller : PeerId) : ControllerState :=
  { state.close (state.connFd caller) with control := .waiting }

end ControllerState

def controlStep (state : ControllerState) : PeerAction → Option ControllerState
  | .take =>
      match state.control, state.calls with
      | .waiting, (call, caller) :: calls =>
          some { state with calls := calls, control := .taken call caller }
      | _, _ => none
  | .select =>
      match state.control with
      | .taken call caller =>
          match state.selectBestCar call with
          | some car => some { state with control := .selected call caller car }
          | none => some { state with control := .replying caller none }
      | _ => none
  | .insert writes =>
      match state.control with
      | .selected call caller car =>
          if state.Freed car then some { state with outcome := .crashed }
          else
            let record := state.record car
            let update := insertFloorsIntoQueue record.data record.queue call
            if state.WritesFit (state.connFd car) writes (update.sent.map floorText) then
              some
                (({ state with control := .replying caller (some car) }.storeRecord car
                  { record with queue := update.queue }).send writes (update.sent.map floorText))
            else none
      | _ => none
  | .reply writes =>
      match state.control with
      | .replying caller none =>
          if state.WritesFit (state.connFd caller) writes (some unavailable) then
            some
              ((state.answered caller).send writes (some unavailable))
          else none
      | .replying caller (some car) =>
          if state.Freed car then some { state with outcome := .crashed }
          else if state.WritesFit (state.connFd caller) writes
              (some (carReply (state.record car).name)) then
            some
              ((state.answered caller).send writes (some (carReply (state.record car).name)))
          else none
      | _ => none
  | _ => none

def peerStep (state : ControllerState) (action : PeerAction) : Option ControllerState :=
  if state.outcome ≠ .running then none
  else
    match action with
    | .connect peer connFd =>
        match state.thread peer, state.descriptor connFd with
        | .absent, none => some (state.accept peer connFd)
        | _, _ => none
    | .sends peer sent =>
        match state.thread peer, state.closed peer with
        | .absent, _ | _, true => none
        | _, false =>
            some
              { state with
                incoming := Function.update state.incoming peer (state.incoming peer ++ sent) }
    | .closes peer =>
        match state.thread peer with
        | .absent => none
        | _ => some { state with closed := Function.update state.closed peer true }
    | .receive peer reads stack =>
        if state.ReceiveReturns (state.connFd peer) stack then
          let outcome := receiveMsg reads stack (state.unread (state.connFd peer))
          (state.consume (state.connFd peer) outcome.unread).received peer outcome.result
        else none
    | .monitor peer eof =>
        if state.monitored peer = true ∧
            (state.closed peer = true ∨ state.connected peer = false ∨
              state.descriptor (state.connFd peer) ≠ some peer) then
          -- `connected` and its mutex lie in the frame of the handler
          if state.Freed peer then some { state with outcome := .crashed }
          else some (state.monitorSocket peer eof)
        else none
    | .drop peer =>
        match state.thread peer, state.connected peer with
        | .serving, false => some (state.moveThread peer .leaving)
        | _, _ => none
    | .breakOff peer =>
        match state.thread peer with
        | .lost => some (state.breakOff peer)
        | _ => none
    | .link peer =>
        match state.thread peer with
        | .created => some (state.linkCar peer)
        | _ => none
    | .update peer =>
        match state.thread peer with
        | .reported report =>
            some
              ((state.moveThread peer .updated).storeRecord peer
                { state.record peer with data := report })
        | _ => none
    | .serve peer writes =>
        match state.thread peer with
        | .updated =>
            let record := state.record peer
            let update := serveArrival record.data record.queue
            if state.WritesFit (state.connFd peer) writes (update.sent.map floorText) then
              some
                (((state.moveThread peer .serving).storeRecord peer
                  { record with queue := update.queue }).send writes (update.sent.map floorText))
            else none
        | _ => none
    | .unlink peer =>
        match state.thread peer with
        | .leaving => some (state.unlinkCar peer)
        | _ => none
    | .hangUp peer =>
        match state.thread peer with
        | .unlinked => some (state.hangUp peer)
        | _ => none
    | .free peer =>
        match state.thread peer with
        | .hungUp => some (state.moveThread peer .ended)
        | _ => none
    | action => controlStep state action

def controllerStart (record : CarRecord) : ControllerState :=
  { incoming := fun _ => []
    closed := fun _ => false
    descriptor := fun _ => none
    connFd := fun _ => 0
    thread := fun _ => .absent
    connected := fun _ => false
    monitored := fun _ => false
    record := fun _ => record
    cars := []
    calls := []
    control := .waiting
    outcome := .running }

end Cab403.Elevator.Peers
