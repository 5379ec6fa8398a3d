/-
A call from its arguments to the line that the call tool prints: the request of call.c
goes through the controller among any other peers, and `main` reads the answer that
comes back. The connection is followed by the bytes its peer has sent.
-/

import Cab403.Elevator.CallMessage
import Cab403.Elevator.CallDispatch

namespace Cab403.Elevator.CallTool

open CText ActionRuns Controller Framing CarRegistry Peers

/-! ### The answer in the call tool -/

section Request

variable {source destination : CString}

def Serves (range : CarRange) (source destination : CString) : Prop :=
  ((tokenFloorNumber range.lowestFloor ≤ floorNumber source.text ∧
      tokenFloorNumber range.highestFloor ≥ floorNumber source.text) ∧
    tokenFloorNumber range.lowestFloor ≤ floorNumber destination.text) ∧
    tokenFloorNumber range.highestFloor ≥ floorNumber destination.text

end Request

/-! ### What a peer has sent -/

def bytesFrom (peer : PeerId) : PeerAction → List UInt8
  | .sends other sent => if other = peer then sent else []
  | _ => []

/-- The thread of the connection has not read its initial message. -/
def Unheard : ThreadAt → Prop
  | .absent | .accepted => True
  | _ => False

/-- A receive that finds the request, whole or in part, returns the request or nothing. -/
theorem receiveMsg_request {request : CString} (short : request.strlen < 2 ^ 32 - 1)
    {reads : List Nat} {stack : Vector UInt8 4} {arrived message : List UInt8}
    (sent : arrived <+: frame request)
    (received : (receiveMsg reads stack arrived).result = .message message) :
    message = request.text ++ [0] ∨ message = [0] := by
  obtain ⟨outgoing, stream⟩ := sent
  by_cases header : 4 ≤ arrived.length
  · have whole : arrived ++ outgoing = frame request ++ [] := by
      rw [stream, List.append_nil]
    have first := receiveMsg_partial short whole header received
    exact Or.inl first.1
  · have nothing : arrived.drop 4 = [] := List.drop_eq_nil_of_le (by omega)
    rw [receiveMsg_result, nothing, List.take_nil] at received
    split at received
    · cases received
    · split at received
      · cases received
        exact Or.inr rfl
      · cases received

section Steps

variable {state next : ControllerState} {peer other : PeerId}

/-- A receive that is tolerated moves its thread on, and queues what it has read. -/
structure Hears (state next : ControllerState) (other : PeerId) (result : Received) : Prop where
  moved : ∃ point, ¬ Unheard point ∧ next.thread = Function.update state.thread other point
  incoming : next.incoming = state.incoming
  calls : next.calls = state.calls ∨
    ∃ message call, state.thread other = .accepted ∧ result = .message message ∧
      callMessage? message = some call ∧ next.calls = state.calls ++ [(call, other)]

theorem hears_of_move {result : Received} (point : ThreadAt) (heard : ¬ Unheard point)
    (thread : next.thread = Function.update state.thread other point)
    (incoming : next.incoming = state.incoming) (calls : next.calls = state.calls) :
    Hears state next other result :=
  { moved := ⟨point, heard, thread⟩
    incoming := incoming
    calls := Or.inl calls }

theorem hears_initialMessage {message : List UInt8} (accepted : state.thread other = .accepted) :
    Hears state (state.initialMessage other message) other (.message message) := by
  unfold ControllerState.initialMessage
  split
  · split
    · rename_i call parsed
      exact
        { moved := ⟨.ended, id, rfl⟩
          incoming := rfl
          calls := Or.inr ⟨message, call, accepted, rfl, parsed, rfl⟩ }
    · exact hears_of_move _ id rfl rfl rfl
  · split
    · split
      · exact hears_of_move _ id rfl rfl rfl
      · exact hears_of_move _ id rfl rfl rfl
    · exact hears_of_move _ id rfl rfl rfl

theorem hears_received {result : Received} (case : ReceivedCase state other result next)
    (fits : result ≠ .overrun) (whole : state.thread other = .accepted → result ≠ .null) :
    Hears state next other result := by
  cases case with
  | initial accepted => exact hears_initialMessage accepted
  | initialNull accepted => exact absurd rfl (whole accepted)
  | created greeted found => exact hears_of_move .created id rfl rfl rfl
  | noStatus greeted unclear => exact hears_of_move .ended id rfl rfl rfl
  | statusNull greeted => exact hears_of_move .ended id rfl rfl rfl
  | reported serving found => exact hears_of_move _ id rfl rfl rfl
  | farewell serving unclear => exact hears_of_move _ id rfl rfl rfl
  | lost serving => exact hears_of_move _ id rfl rfl rfl
  | overrun => exact absurd rfl fits

theorem send_incoming (writes : List WriteResult) (sent : Option CString) :
    (state.send writes sent).incoming = state.incoming := by
  rw [send_eq]

theorem send_thread (writes : List WriteResult) (sent : Option CString) :
    (state.send writes sent).thread = state.thread := by
  rw [send_eq]

theorem send_calls (writes : List WriteResult) (sent : Option CString) :
    (state.send writes sent).calls = state.calls := by
  rw [send_eq]

structure Passes (state next : ControllerState) : Prop where
  thread : next.thread = state.thread ∨
    ∃ other point, ¬ Unheard point ∧ next.thread = Function.update state.thread other point
  incoming : next.incoming = state.incoming
  calls : next.calls.drop state.calls.length = []

theorem drop_of_same (same : next.calls = state.calls) :
    next.calls.drop state.calls.length = [] := by
  rw [same, List.drop_length]

theorem passes_of_same (thread : next.thread = state.thread)
    (incoming : next.incoming = state.incoming) (calls : next.calls = state.calls) :
    Passes state next :=
  ⟨Or.inl thread, incoming, drop_of_same calls⟩

theorem passes_of_move (other : PeerId) (point : ThreadAt) (heard : ¬ Unheard point)
    (thread : next.thread = Function.update state.thread other point)
    (incoming : next.incoming = state.incoming) (calls : next.calls = state.calls) :
    Passes state next :=
  ⟨Or.inr ⟨other, point, heard, thread⟩, incoming, drop_of_same calls⟩

theorem passes_control {action : PeerAction} (case : ControlCase state action next) :
    Passes state next := by
  cases case with
  | take waiting queued =>
      refine ⟨Or.inl rfl, rfl, ?_⟩
      rw [queued]
      exact List.drop_eq_nil_of_le (Nat.le_succ _)
  | select selecting found => exact passes_of_same rfl rfl rfl
  | selectNone selecting missing => exact passes_of_same rfl rfl rfl
  | insert selected present computed fits =>
      exact passes_of_same (send_thread _ _) (send_incoming _ _) (send_calls _ _)
  | insertFreed selected freed => exact passes_of_same rfl rfl rfl
  | refuse replying fits =>
      exact passes_of_same (send_thread _ _) (send_incoming _ _) (send_calls _ _)
  | reply replying present fits =>
      exact passes_of_same (send_thread _ _) (send_incoming _ _) (send_calls _ _)
  | replyFreed replying freed => exact passes_of_same rfl rfl rfl

theorem passes_monitorSocket (eof : Bool) : Passes state (state.monitorSocket other eof) := by
  unfold ControllerState.monitorSocket
  dsimp only
  rw [shutdown_eq]
  split_ifs <;> exact passes_of_same rfl rfl rfl

theorem passes_breakOff : Passes state (state.breakOff other) := by
  unfold ControllerState.breakOff
  rw [shutdown_eq]
  exact passes_of_move other .leaving id rfl rfl rfl

theorem passes_hangUp : Passes state (state.hangUp other) := by
  unfold ControllerState.hangUp
  rw [shutdown_eq]
  split
  · exact passes_of_move other .hungUp id rfl rfl rfl
  · exact passes_of_move other .hungUp id rfl rfl rfl

theorem Passes.unheard (passes : Passes state next) (unheard : Unheard (next.thread peer)) :
    Unheard (state.thread peer) := by
  cases passes.thread with
  | inl same =>
      rw [same] at unheard
      exact unheard
  | inr moved =>
      obtain ⟨other, point, heard, thread⟩ := moved
      rw [thread] at unheard
      by_cases own : peer = other
      · subst own
        rw [Function.update_self] at unheard
        exact absurd unheard heard
      · rwa [Function.update_of_ne own] at unheard

/-- What a tolerated receive returns: no overrun, and a message at the beginning. -/
theorem tolerated_receive {reads : List Nat} {stack : Vector UInt8 4}
    (tolerated : Tolerated state (.receive other reads stack)) {outcome : ReceiveOutcome}
    (computed : outcome = receiveMsg reads stack (state.unread (state.connFd other))) :
    outcome.result ≠ .overrun ∧ (state.thread other = .accepted → outcome.result ≠ .null) := by
  obtain ⟨fits, whole, _⟩ := tolerated
  subst computed
  rw [receiveMsg_result, if_neg fits]
  constructor
  · split <;> nofun
  · intro accepted
    rw [if_pos (whole (by rw [accepted]; trivial))]
    nofun

theorem hears_receive {reads : List Nat} {stack : Vector UInt8 4} {outcome : ReceiveOutcome}
    (tolerated : Tolerated state (.receive other reads stack))
    (computed : outcome = receiveMsg reads stack (state.unread (state.connFd other)))
    (handled : ReceivedCase (state.consume (state.connFd other) outcome.unread) other
      outcome.result next) :
    Hears (state.consume (state.connFd other) outcome.unread) next other outcome.result := by
  obtain ⟨fits, whole⟩ := tolerated_receive tolerated computed
  apply hears_received handled fits
  rw [consume_thread]
  exact whole

/-- Until its thread has read, a connection holds what its peer has sent. -/
theorem incoming_step {action : PeerAction} (tolerated : Tolerated state action)
    (taken : peerStep state action = some next) (unheard : Unheard (next.thread peer)) :
    Unheard (state.thread peer) ∧
      next.incoming peer = state.incoming peer ++ bytesFrom peer action := by
  have settled (passes : Passes state next) (silent : bytesFrom peer action = []) :
      Unheard (state.thread peer) ∧
        next.incoming peer = state.incoming peer ++ bytesFrom peer action := by
    rw [passes.incoming, silent, List.append_nil]
    exact ⟨passes.unheard unheard, rfl⟩
  obtain ⟨_, step⟩ := peerStep_cases taken
  cases step with
  | connect absent free =>
      rename_i other connFd
      refine ⟨?_, (List.append_nil _).symm⟩
      by_cases own : peer = other
      · rw [own, absent]
        trivial
      · have same : (state.accept other connFd).thread peer = state.thread peer :=
          Function.update_of_ne own _ _
        rwa [same] at unheard
  | sends opened =>
      rename_i other sent
      refine ⟨unheard, ?_⟩
      dsimp only [bytesFrom]
      by_cases own : other = peer
      · rw [if_pos own, own, Function.update_self]
      · rw [if_neg own, Function.update_of_ne (Ne.symm own), List.append_nil]
  | closes => exact settled (passes_of_same rfl rfl rfl) rfl
  | receive returns computed handled =>
      rename_i other reads stack outcome
      have hears := hears_receive tolerated computed handled
      obtain ⟨point, heard, moved⟩ := hears.moved
      have apart : peer ≠ other := by
        intro own
        rw [moved, own, Function.update_self] at unheard
        exact heard unheard
      have before := (untouched_consume tolerated.2.2 outcome.unread).others peer apart
      rw [moved, Function.update_of_ne apart, consume_thread] at unheard
      rw [hears.incoming, before.incoming]
      exact ⟨unheard, (List.append_nil _).symm⟩
  | monitor watched present => exact settled (passes_monitorSocket _) rfl
  | monitorFreed watched freed => exact settled (passes_of_same rfl rfl rfl) rfl
  | drop serving disconnected => exact settled (passes_of_move _ .leaving id rfl rfl rfl) rfl
  | breakOff lost => exact settled passes_breakOff rfl
  | link created => exact settled (passes_of_move _ .serving id rfl rfl rfl) rfl
  | update reported => exact settled (passes_of_move _ .updated id rfl rfl rfl) rfl
  | serve updated computed fits =>
      exact settled
        (passes_of_move _ .serving id (send_thread _ _) (send_incoming _ _) (send_calls _ _)) rfl
  | unlink leaving => exact settled (passes_of_move _ .unlinked id rfl rfl rfl) rfl
  | hangUp unlinked => exact settled passes_hangUp rfl
  | free hungUp => exact settled (passes_of_move _ .ended id rfl rfl rfl) rfl
  | control step =>
      refine settled (passes_control step) ?_
      cases step <;> rfl

theorem unread_of_accepted (sound : Sound state) {caller : PeerId}
    (accepted : state.thread caller = .accepted) :
    state.unread (state.connFd caller) = state.incoming caller := by
  have holds : state.Holds caller := by
    unfold ControllerState.Holds
    rw [accepted]
    trivial
  unfold ControllerState.unread
  rw [sound.owned caller holds]

/-- A call is queued by the receive that has read it. -/
theorem queued_step {action : PeerAction} (tolerated : Tolerated state action)
    (taken : peerStep state action = some next) {node : Call × PeerId}
    (member : node ∈ next.calls.drop state.calls.length) :
    state.thread node.2 = .accepted ∧
      ∃ reads stack message,
        (receiveMsg reads stack (state.unread (state.connFd node.2))).result =
            .message message ∧
          callMessage? message = some node.1 := by
  have settled (passes : Passes state next) : False := by
    rw [passes.calls] at member
    cases member
  have kept (same : next.calls = state.calls) : False := by
    rw [drop_of_same same] at member
    cases member
  obtain ⟨_, step⟩ := peerStep_cases taken
  cases step with
  | connect absent free => exact (kept rfl).elim
  | sends opened => exact (kept rfl).elim
  | closes => exact (kept rfl).elim
  | receive returns computed handled =>
      rename_i other reads stack outcome
      have hears := hears_receive tolerated computed handled
      have consumed : (state.consume (state.connFd other) outcome.unread).calls = state.calls := by
        rw [consume_eq]
      cases hears.calls with
      | inl same => exact (kept (same.trans consumed)).elim
      | inr queued =>
          obtain ⟨message, call, accepted, result, parsed, calls⟩ := queued
          rw [calls, consumed, List.drop_left, List.mem_singleton] at member
          subst member
          rw [consume_thread] at accepted
          rw [computed] at result
          exact ⟨accepted, reads, stack, message, result, parsed⟩
  | monitor watched present => exact (settled (passes_monitorSocket _)).elim
  | monitorFreed watched freed => exact (kept rfl).elim
  | drop serving disconnected => exact (kept rfl).elim
  | breakOff lost => exact (settled passes_breakOff).elim
  | link created => exact (kept rfl).elim
  | update reported => exact (kept rfl).elim
  | serve updated computed fits => exact (kept (send_calls _ _)).elim
  | unlink leaving => exact (kept rfl).elim
  | hangUp unlinked => exact (settled passes_hangUp).elim
  | free hungUp => exact (kept rfl).elim
  | control step => exact (settled (passes_control step)).elim

end Steps

/-! ### One peer over a run -/

def LogTolerated (log : DispatchLog) (action : PeerAction) : Prop :=
  Tolerated log.controller action

instance (log : DispatchLog) (action : PeerAction) : Decidable (LogTolerated log action) :=
  inferInstanceAs (Decidable (Tolerated _ _))

/-- A peer has sent the beginning of one request, and no other call is queued for it. -/
structure Follows (peer : PeerId) (request : CString) (log : DispatchLog) (sent : List UInt8) :
    Prop where
  sound : Sound log.controller
  logged : Logged log
  stream : Unheard (log.controller.thread peer) → log.controller.incoming peer = sent
  queued : ∀ node ∈ log.appended, node.2 = peer →
    callMessage? (request.text ++ [0]) = some node.1

section Runs

variable {peer : PeerId} {request : CString} {log after : DispatchLog} {sent : List UInt8}

theorem logStep_controller {action : PeerAction} (taken : logStep log action = some after) :
    ∃ next, peerStep log.controller action = some next ∧ after.controller = next ∧
      after.appended = log.appended ++ next.calls.drop log.controller.calls.length := by
  obtain ⟨next, stepped, same⟩ := Option.map_eq_some_iff.mp taken
  refine ⟨next, stepped, ?_⟩
  rw [← same]
  split
  · exact ⟨rfl, rfl⟩
  · exact ⟨rfl, rfl⟩
  · split <;> exact ⟨rfl, rfl⟩
  · exact ⟨rfl, rfl⟩

theorem Follows.step {action : PeerAction} (short : request.strlen < 2 ^ 32 - 1)
    (follows : Follows peer request log sent)
    (within : sent ++ bytesFrom peer action <+: frame request)
    (tolerated : LogTolerated log action) (taken : logStep log action = some after) :
    Follows peer request after (sent ++ bytesFrom peer action) := by
  obtain ⟨next, stepped, rfl, appended⟩ := logStep_controller taken
  refine ⟨sound_step _ _ _ follows.sound tolerated stepped, logged_step follows.logged taken,
    fun unheard => ?_, fun node member own => ?_⟩
  · obtain ⟨before, incoming⟩ := incoming_step tolerated stepped unheard
    rw [incoming, follows.stream before]
  · rw [appended] at member
    cases List.mem_append.mp member with
    | inl earlier => exact follows.queued node earlier own
    | inr new =>
        obtain ⟨accepted, reads, stack, message, result, parsed⟩ :=
          queued_step tolerated stepped new
        rw [unread_of_accepted follows.sound accepted, own] at result
        rw [own] at accepted
        have unheard : Unheard (log.controller.thread peer) := by
          rw [accepted]
          trivial
        rw [follows.stream unheard] at result
        have prefixed : sent <+: frame request := (List.prefix_append sent _).trans within
        cases receiveMsg_request short prefixed result with
        | inl whole =>
            rw [← whole]
            exact parsed
        | inr empty =>
            rw [empty] at parsed
            cases parsed

end Runs

/-! ### From the arguments to the printed line -/

end Cab403.Elevator.CallTool
