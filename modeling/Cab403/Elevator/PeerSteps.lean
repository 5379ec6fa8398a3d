/-
What one step of the controller finds and leaves: a case for every way in which a
handler, a monitor, a peer or the control loop can take a step.
-/

import Cab403.Elevator.ControllerPeers

namespace Cab403.Elevator.Peers

open CText ActionRuns Controller Framing CarRegistry

/-! ### The control loop -/

inductive ControlCase (state : ControllerState) : PeerAction → ControllerState → Prop where
  | take {call : Call} {caller : PeerId} {calls : List (Call × PeerId)}
      (waiting : state.control = .waiting) (queued : state.calls = (call, caller) :: calls) :
      ControlCase state .take { state with calls := calls, control := .taken call caller }
  | select {call : Call} {caller car : PeerId} (selecting : state.control = .taken call caller)
      (found : state.selectBestCar call = some car) :
      ControlCase state .select { state with control := .selected call caller car }
  | selectNone {call : Call} {caller : PeerId} (selecting : state.control = .taken call caller)
      (missing : state.selectBestCar call = none) :
      ControlCase state .select { state with control := .replying caller none }
  | insert {writes : List WriteResult} {call : Call} {caller car : PeerId} {update : QueueUpdate}
      (selected : state.control = .selected call caller car) (present : ¬ state.Freed car)
      (computed : update =
        insertFloorsIntoQueue (state.record car).data (state.record car).queue call)
      (fits : state.WritesFit (state.connFd car) writes (update.sent.map floorText)) :
      ControlCase state (.insert writes)
        (({ state with control := .replying caller (some car) }.storeRecord car
          { state.record car with queue := update.queue }).send writes
            (update.sent.map floorText))
  | insertFreed {writes : List WriteResult} {call : Call} {caller car : PeerId}
      (selected : state.control = .selected call caller car) (freed : state.Freed car) :
      ControlCase state (.insert writes) { state with outcome := .crashed }
  | refuse {writes : List WriteResult} {caller : PeerId}
      (replying : state.control = .replying caller none)
      (fits : state.WritesFit (state.connFd caller) writes (some unavailable)) :
      ControlCase state (.reply writes) ((state.answered caller).send writes (some unavailable))
  | reply {writes : List WriteResult} {caller car : PeerId}
      (replying : state.control = .replying caller (some car)) (present : ¬ state.Freed car)
      (fits : state.WritesFit (state.connFd caller) writes
        (some (carReply (state.record car).name))) :
      ControlCase state (.reply writes)
        ((state.answered caller).send writes (some (carReply (state.record car).name)))
  | replyFreed {writes : List WriteResult} {caller car : PeerId}
      (replying : state.control = .replying caller (some car)) (freed : state.Freed car) :
      ControlCase state (.reply writes) { state with outcome := .crashed }

theorem controlStep_cases {state next : ControllerState} {action : PeerAction}
    (taken : controlStep state action = some next) : ControlCase state action next := by
  unfold controlStep at taken
  split at taken
  · split at taken
    · rename_i waiting queued
      cases taken
      exact .take waiting queued
    · cases taken
  · split at taken
    · rename_i selecting
      split at taken
      · rename_i found
        cases taken
        exact .select selecting found
      · rename_i missing
        cases taken
        exact .selectNone selecting missing
    · cases taken
  · split at taken
    · rename_i selected
      split at taken
      · rename_i freed
        cases taken
        exact .insertFreed selected freed
      · rename_i present
        obtain ⟨fits, rfl⟩ := of_guarded taken
        exact .insert selected present rfl fits
    · cases taken
  · split at taken
    · rename_i replying
      obtain ⟨fits, rfl⟩ := of_guarded taken
      exact .refuse replying fits
    · rename_i replying
      split at taken
      · rename_i freed
        cases taken
        exact .replyFreed replying freed
      · rename_i present
        obtain ⟨fits, rfl⟩ := of_guarded taken
        exact .reply replying present fits
    · cases taken
  · cases taken

/-! ### A receive -/

inductive ReceivedCase (state : ControllerState) (peer : PeerId) :
    Received → ControllerState → Prop where
  | initial {message : List UInt8} (accepted : state.thread peer = .accepted) :
      ReceivedCase state peer (.message message) (state.initialMessage peer message)
  | initialNull (accepted : state.thread peer = .accepted) :
      ReceivedCase state peer .null { state with outcome := .crashed }
  | created {name : Token 255} {range : CarRange} {message : List UInt8} {report : CarData}
      (greeted : state.thread peer = .greeted name range)
      (found : statusMessage? message = some report) :
      ReceivedCase state peer (.message message)
        ((state.moveThread peer .created).storeRecord peer
          { name := name, range := range, data := report, queue := [] })
  | noStatus {name : Token 255} {range : CarRange} {message : List UInt8}
      (greeted : state.thread peer = .greeted name range)
      (unclear : statusMessage? message = none) :
      ReceivedCase state peer (.message message) (state.closeAndReturn peer)
  | statusNull {name : Token 255} {range : CarRange}
      (greeted : state.thread peer = .greeted name range) :
      ReceivedCase state peer .null (state.closeAndReturn peer)
  | reported {message : List UInt8} {report : CarData} (serving : state.thread peer = .serving)
      (found : statusMessage? message = some report) :
      ReceivedCase state peer (.message message) (state.moveThread peer (.reported report))
  | farewell {message : List UInt8} (serving : state.thread peer = .serving)
      (unclear : statusMessage? message = none) :
      ReceivedCase state peer (.message message) (state.moveThread peer .leaving)
  | lost (serving : state.thread peer = .serving) :
      ReceivedCase state peer .null (state.moveThread peer .lost)
  | overrun : ReceivedCase state peer .overrun { state with outcome := .crashed }

theorem received_cases {state next : ControllerState} {peer : PeerId} {result : Received}
    (taken : state.received peer result = some next) : ReceivedCase state peer result next := by
  unfold ControllerState.received at taken
  split at taken
  · rename_i accepted
    cases taken
    exact .initial accepted
  · rename_i accepted
    cases taken
    exact .initialNull accepted
  · rename_i greeted
    split at taken
    · rename_i found
      cases taken
      exact .created greeted found
    · rename_i unclear
      cases taken
      exact .noStatus greeted unclear
  · rename_i greeted
    cases taken
    exact .statusNull greeted
  · rename_i serving
    split at taken
    · rename_i found
      cases taken
      exact .reported serving found
    · rename_i unclear
      cases taken
      exact .farewell serving unclear
  · rename_i serving
    cases taken
    exact .lost serving
  · cases taken
    exact .overrun
  · cases taken
    exact .overrun
  · cases taken
    exact .overrun
  · cases taken

/-! ### Every step -/

inductive PeerCase (state : ControllerState) : PeerAction → ControllerState → Prop where
  | connect {peer : PeerId} {connFd : Nat} (absent : state.thread peer = .absent)
      (free : state.descriptor connFd = none) :
      PeerCase state (.connect peer connFd) (state.accept peer connFd)
  | sends {peer : PeerId} {sent : List UInt8} (opened : state.closed peer = false) :
      PeerCase state (.sends peer sent)
        { state with
          incoming := Function.update state.incoming peer (state.incoming peer ++ sent) }
  | closes {peer : PeerId} :
      PeerCase state (.closes peer)
        { state with closed := Function.update state.closed peer true }
  | receive {peer : PeerId} {reads : List Nat} {stack : Vector UInt8 4}
      {outcome : ReceiveOutcome} {next : ControllerState}
      (returns : state.ReceiveReturns (state.connFd peer) stack)
      (computed : outcome = receiveMsg reads stack (state.unread (state.connFd peer)))
      (handled : ReceivedCase (state.consume (state.connFd peer) outcome.unread) peer
        outcome.result next) :
      PeerCase state (.receive peer reads stack) next
  | monitor {peer : PeerId} {eof : Bool} (watched : state.monitored peer = true)
      (present : ¬ state.Freed peer) :
      PeerCase state (.monitor peer eof) (state.monitorSocket peer eof)
  | monitorFreed {peer : PeerId} {eof : Bool} (watched : state.monitored peer = true)
      (freed : state.Freed peer) :
      PeerCase state (.monitor peer eof) { state with outcome := .crashed }
  | drop {peer : PeerId} (serving : state.thread peer = .serving)
      (disconnected : state.connected peer = false) :
      PeerCase state (.drop peer) (state.moveThread peer .leaving)
  | breakOff {peer : PeerId} (lost : state.thread peer = .lost) :
      PeerCase state (.breakOff peer) (state.breakOff peer)
  | link {peer : PeerId} (created : state.thread peer = .created) :
      PeerCase state (.link peer) (state.linkCar peer)
  | update {peer : PeerId} {report : CarData} (reported : state.thread peer = .reported report) :
      PeerCase state (.update peer)
        ((state.moveThread peer .updated).storeRecord peer
          { state.record peer with data := report })
  | serve {peer : PeerId} {writes : List WriteResult} {update : QueueUpdate}
      (updated : state.thread peer = .updated)
      (computed : update = serveArrival (state.record peer).data (state.record peer).queue)
      (fits : state.WritesFit (state.connFd peer) writes (update.sent.map floorText)) :
      PeerCase state (.serve peer writes)
        (((state.moveThread peer .serving).storeRecord peer
          { state.record peer with queue := update.queue }).send writes
            (update.sent.map floorText))
  | unlink {peer : PeerId} (leaving : state.thread peer = .leaving) :
      PeerCase state (.unlink peer) (state.unlinkCar peer)
  | hangUp {peer : PeerId} (unlinked : state.thread peer = .unlinked) :
      PeerCase state (.hangUp peer) (state.hangUp peer)
  | free {peer : PeerId} (hungUp : state.thread peer = .hungUp) :
      PeerCase state (.free peer) (state.moveThread peer .ended)
  | control {action : PeerAction} {next : ControllerState}
      (handled : ControlCase state action next) :
      PeerCase state action next

theorem peerStep_cases {state next : ControllerState} {action : PeerAction}
    (taken : peerStep state action = some next) :
    state.outcome = .running ∧ PeerCase state action next := by
  unfold peerStep at taken
  split at taken
  · cases taken
  rename_i running
  refine ⟨not_not.mp running, ?_⟩
  cases action with
  | connect peer connFd =>
      dsimp only at taken
      split at taken <;> cases taken
      rename_i absent free
      exact .connect absent free
  | sends peer sent =>
      dsimp only at taken
      split at taken <;> cases taken
      rename_i opened _
      exact .sends opened
  | closes peer =>
      dsimp only at taken
      split at taken <;> cases taken
      exact .closes
  | receive peer reads stack =>
      obtain ⟨returns, received⟩ := Option.ite_none_right_eq_some.mp taken
      exact .receive returns rfl (received_cases received)
  | monitor peer eof =>
      obtain ⟨⟨watched, _⟩, stepped⟩ := Option.ite_none_right_eq_some.mp taken
      split at stepped
      · rename_i freed
        cases stepped
        exact .monitorFreed watched freed
      · rename_i present
        cases stepped
        exact .monitor watched present
  | drop peer =>
      dsimp only at taken
      split at taken <;> cases taken
      rename_i serving disconnected
      exact .drop serving disconnected
  | breakOff peer =>
      dsimp only at taken
      split at taken <;> cases taken
      rename_i lost
      exact .breakOff lost
  | link peer =>
      dsimp only at taken
      split at taken <;> cases taken
      rename_i created
      exact .link created
  | update peer =>
      dsimp only at taken
      split at taken <;> cases taken
      rename_i reported
      exact .update reported
  | serve peer writes =>
      dsimp only at taken
      split at taken
      · rename_i updated
        obtain ⟨fits, rfl⟩ := of_guarded taken
        exact .serve updated rfl fits
      · cases taken
  | unlink peer =>
      dsimp only at taken
      split at taken <;> cases taken
      rename_i leaving
      exact .unlink leaving
  | hangUp peer =>
      dsimp only at taken
      split at taken <;> cases taken
      rename_i unlinked
      exact .hangUp unlinked
  | free peer =>
      dsimp only at taken
      split at taken <;> cases taken
      rename_i hungUp
      exact .free hungUp
  | take | select | insert writes | reply writes => exact .control (controlStep_cases taken)

end Cab403.Elevator.Peers
