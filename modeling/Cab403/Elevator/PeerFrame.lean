/-
What the controller tolerates of its peers, and what a failing peer leaves alone. A
thread closes its descriptor by number, so the other connections are left alone only
while the number has not been given to one of them.
-/

import Cab403.Elevator.ControllerPeers

namespace Cab403.Elevator.Peers

open CText ActionRuns Controller Framing CarRegistry

/-! ### What is tolerated and what is isolated -/

def ControlAt.Uses : ControlAt → PeerId → Prop
  | .selected _ _ used, car => used = car
  | .replying _ (some used), car => used = car
  | _, _ => False

instance (control : ControlAt) (car : PeerId) : Decidable (control.Uses car) := by
  unfold ControlAt.Uses
  split <;> infer_instance

def ThreadAt.AwaitsInitial : ThreadAt → Prop
  | .accepted => True
  | _ => False

instance (point : ThreadAt) : Decidable point.AwaitsInitial := by
  unfold ThreadAt.AwaitsInitial
  split <;> infer_instance

def ControllerState.Owns (state : ControllerState) (peer : PeerId) : Prop :=
  state.descriptor (state.connFd peer) = none ∨ state.descriptor (state.connFd peer) = some peer

instance (state : ControllerState) (peer : PeerId) : Decidable (state.Owns peer) :=
  inferInstanceAs (Decidable (_ ∨ _))

/-- No header has the length whose successor wraps, the initial message is a whole
frame, a handler reads and closes its own connection, no write fails, and a handler
returns after the control loop and its monitor have done with its record and frame. -/
def Tolerated (state : ControllerState) : PeerAction → Prop
  | .receive peer _ stack =>
      headerLength stack (state.unread (state.connFd peer)) ≠ 2 ^ 32 - 1 ∧
        ((state.thread peer).AwaitsInitial →
          headerLength stack (state.unread (state.connFd peer)) ≤
            ((state.unread (state.connFd peer)).drop 4).length) ∧
        state.Owns peer
  | .serve _ writes | .insert writes | .reply writes => .failed ∉ writes
  | .breakOff peer => state.Owns peer
  | .free peer => ¬ state.control.Uses peer ∧ state.monitored peer = false
  | _ => True

instance (state : ControllerState) (action : PeerAction) : Decidable (Tolerated state action) := by
  unfold Tolerated
  split <;> infer_instance

structure SamePeer (before after : ControllerState) (peer : PeerId) : Prop where
  incoming : after.incoming peer = before.incoming peer
  closed : after.closed peer = before.closed peer
  connFd : after.connFd peer = before.connFd peer
  descriptor : ∀ number,
    after.descriptor number = some peer ↔ before.descriptor number = some peer
  thread : after.thread peer = before.thread peer
  connected : after.connected peer = before.connected peer
  monitored : after.monitored peer = before.monitored peer
  record : after.record peer = before.record peer

/-- The other peers stay as they were, with the queues of their cars and the places of
these in the list, and so do the queued calls. -/
structure Untouched (peer : PeerId) (before after : ControllerState) : Prop where
  others : ∀ other, other ≠ peer → SamePeer before after other
  cars : ∀ other, other ≠ peer → (other ∈ after.cars ↔ other ∈ before.cars)
  calls : after.calls = before.calls

/-! ### Operations of one peer -/

section Operations

variable {state next last : ControllerState} {peer : PeerId}

theorem SamePeer.refl (state : ControllerState) (peer : PeerId) : SamePeer state state peer :=
  ⟨rfl, rfl, rfl, fun _ => Iff.rfl, rfl, rfl, rfl, rfl⟩

theorem SamePeer.trans (first : SamePeer state next peer) (second : SamePeer next last peer) :
    SamePeer state last peer :=
  { incoming := second.incoming.trans first.incoming
    closed := second.closed.trans first.closed
    connFd := second.connFd.trans first.connFd
    descriptor := fun number => (second.descriptor number).trans (first.descriptor number)
    thread := second.thread.trans first.thread
    connected := second.connected.trans first.connected
    monitored := second.monitored.trans first.monitored
    record := second.record.trans first.record }

theorem Untouched.trans (first : Untouched peer state next) (second : Untouched peer next last) :
    Untouched peer state last :=
  { others := fun other apart => (first.others other apart).trans (second.others other apart)
    cars := fun other apart => (second.cars other apart).trans (first.cars other apart)
    calls := second.calls.trans first.calls }

theorem untouched_of_others (others : ∀ other, other ≠ peer → SamePeer state next other)
    (cars : next.cars = state.cars) (calls : next.calls = state.calls) :
    Untouched peer state next :=
  { others := others
    cars := fun other _ => by rw [cars]
    calls := calls }

theorem untouched_moveThread (point : ThreadAt) :
    Untouched peer state (state.moveThread peer point) :=
  untouched_of_others
    (fun other apart =>
      { SamePeer.refl state other with thread := Function.update_of_ne apart _ _ }) rfl rfl

theorem untouched_setConnected (connected : Bool) :
    Untouched peer state (state.setConnected peer connected) :=
  untouched_of_others
    (fun other apart =>
      { SamePeer.refl state other with connected := Function.update_of_ne apart _ _ }) rfl rfl

theorem untouched_shutdown (owns : state.Owns peer) :
    Untouched peer state (state.shutdown (state.connFd peer)) := by
  unfold ControllerState.shutdown
  rcases owns with free | own
  · rw [free]
    exact untouched_of_others (fun other _ => .refl state other) rfl rfl
  · rw [own]
    exact untouched_of_others
      (fun other apart =>
        { SamePeer.refl state other with closed := Function.update_of_ne apart _ _ }) rfl rfl

theorem untouched_close (owns : state.Owns peer) :
    Untouched peer state (state.close (state.connFd peer)) := by
  refine untouched_of_others (fun other apart => ?_) rfl rfl
  refine { SamePeer.refl state other with descriptor := fun number => ?_ }
  by_cases own : number = state.connFd peer
  · -- a descriptor that `peer` owns was not open for another connection
    subst own
    simp only [ControllerState.close, Function.update_self, reduceCtorEq, false_iff]
    intro foreign
    rcases owns with free | own
    · rw [free] at foreign
      cases foreign
    · rw [own] at foreign
      exact apart (Option.some.inj foreign).symm
  · simp only [ControllerState.close, Function.update_of_ne own]

theorem untouched_consume (owns : state.Owns peer) (later : List UInt8) :
    Untouched peer state (state.consume (state.connFd peer) later) := by
  unfold ControllerState.consume
  rcases owns with free | own
  · rw [free]
    exact untouched_of_others (fun other _ => .refl state other) rfl rfl
  · rw [own]
    exact untouched_of_others
      (fun other apart =>
        { SamePeer.refl state other with incoming := Function.update_of_ne apart _ _ }) rfl rfl

theorem shutdown_eq (connFd : Nat) :
    state.shutdown connFd = { state with closed := (state.shutdown connFd).closed } := by
  unfold ControllerState.shutdown
  split <;> rfl

theorem untouched_shutdown_close (owns : state.Owns peer) :
    Untouched peer state ((state.shutdown (state.connFd peer)).close (state.connFd peer)) := by
  apply (untouched_shutdown owns).trans
  rw [shutdown_eq]
  exact untouched_close owns

theorem untouched_closeAndReturn (owns : state.Owns peer) :
    Untouched peer state (state.closeAndReturn peer) :=
  (untouched_close owns).trans (untouched_moveThread .ended)

end Operations

end Cab403.Elevator.Peers
