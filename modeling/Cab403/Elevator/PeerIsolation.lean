/-
Isolation of the peers over whole runs: in every tolerated run the process keeps
running and a failing peer leaves the others alone; a peer that connects and closes
without a byte ends the process.
-/

import Cab403.Elevator.PeerSoundness
import Cab403.Library.ActionRuns

namespace Cab403.Elevator.Peers

open CText ActionRuns Controller Framing CarRegistry

section Steps

variable {state next : ControllerState} {peer : PeerId}

/-! ### Steps of the control loop -/

theorem send_of_accepted {writes : List WriteResult} (sent : Option CString)
    (accepted : WriteResult.failed ∉ writes) : state.send writes sent = state := by
  cases sent with
  | none => rfl
  | some buf =>
      obtain ⟨unused, whole, _⟩ := sendMessage_sent buf accepted
      simp only [ControllerState.send, whole, Bool.false_eq_true, if_false]

theorem Sound.moveControl (sound : Sound state) {control : ControlAt}
    {calls : List (Call × PeerId)}
    (callers : control.caller?.toList ++ calls.map Prod.snd = state.callers)
    (used : ∀ car, control.Uses car → (state.thread car).Alive) :
    Sound { state with control := control, calls := calls } := by
  refine ⟨sound.running, sound.distinct, sound.listed, used, sound.watched, ?_, ?_, ?_⟩
  · rw [ControllerState.callers, callers]
    exact sound.waiting
  · rw [ControllerState.callers, callers]
    exact sound.returned
  · intro other holds
    apply sound.owned other
    unfold ControllerState.Holds at holds ⊢
    rw [ControllerState.callers, callers] at holds
    exact holds

/-- The answered caller is gone, and only its own descriptor is closed. -/
theorem Sound.answered (sound : Sound state) {caller : PeerId} {car : Option PeerId}
    (replying : state.control = .replying caller car) : Sound (state.answered caller) := by
  have callers : state.callers = caller :: (state.answered caller).callers := by
    simp only [ControllerState.callers, replying]
    rfl
  have waiting := sound.waiting
  rw [callers] at waiting
  obtain ⟨gone, distinct⟩ := List.nodup_cons.mp waiting
  have member : caller ∈ state.callers := by
    rw [callers]
    exact List.mem_cons_self
  have ended := sound.returned caller member
  have holds : state.Holds caller := by
    rw [ControllerState.Holds, ended]
    exact member
  have closed := untouched_close (sound.owns holds)
  refine ⟨sound.running, sound.distinct, sound.listed, fun _ => False.elim, sound.watched, distinct,
    ?_, ?_⟩
  · intro other later
    apply sound.returned other
    rw [callers]
    exact List.mem_cons_of_mem caller later
  · intro other held
    by_cases own : other = caller
    · subst own
      unfold ControllerState.Holds at held
      rw [show (state.answered other).thread other = .ended from ended] at held
      exact absurd held gone
    · have before : state.Holds other := by
        unfold ControllerState.Holds at held ⊢
        rw [callers]
        cases at_ : state.thread other <;>
          rw [show (state.answered caller).thread other = _ from at_] at held <;>
            first | exact held | exact List.mem_cons_of_mem caller held
      exact (closed.others other own).owned (sound.owned other before)

theorem not_freed_of_alive (alive : (state.thread peer).Alive) : ¬ state.Freed peer := by
  intro freed
  unfold ControllerState.Freed at freed
  cases at_ : state.thread peer <;> rw [at_] at alive freed <;>
    first | exact alive | exact freed

theorem sound_controlStep {action : PeerAction} (sound : Sound state)
    (tolerated : Tolerated state action) (step : ControlCase state action next) :
    Sound next := by
  have used := sound.used
  cases step with
  | take waiting queued =>
      refine sound.moveControl ?_ (fun _ => False.elim)
      rw [ControllerState.callers, waiting, queued]
      rfl
  | select selecting found =>
      refine sound.moveControl ?_ ?_
      · rw [ControllerState.callers, selecting]
        rfl
      · intro car same
        subst same
        exact (sound.listed _ (List.mem_of_find?_eq_some found)).alive
  | selectNone selecting missing =>
      refine sound.moveControl ?_ (fun _ => False.elim)
      rw [ControllerState.callers, selecting]
      rfl
  | insert selected present computed fits =>
      rename_i call caller car update
      rw [selected] at used
      rw [send_of_accepted _ tolerated]
      have replying : Sound { state with control := .replying caller (some car) } := by
        refine sound.moveControl ?_ used
        rw [ControllerState.callers, selected]
        rfl
      exact replying.withData
  | insertFreed selected freed =>
      rw [selected] at used
      exact absurd freed (not_freed_of_alive (used _ rfl))
  | refuse replying fits =>
      rw [send_of_accepted _ tolerated]
      exact sound.answered replying
  | reply replying present fits =>
      rw [send_of_accepted _ tolerated]
      exact sound.answered replying
  | replyFreed replying freed =>
      rw [replying] at used
      exact absurd freed (not_freed_of_alive (used _ rfl))

/-! ### Every step -/

@[simp] theorem consume_thread (connFd : Nat) (later : List UInt8) :
    (state.consume connFd later).thread = state.thread := by
  unfold ControllerState.consume
  split <;> rfl

theorem sound_step (state : ControllerState) (action : PeerAction) (next : ControllerState)
    (sound : Sound state) (tolerated : Tolerated state action)
    (taken : peerStep state action = some next) : Sound next := by
  obtain ⟨_, step⟩ := peerStep_cases taken
  cases step with
  | connect absent free => exact sound_connect sound absent free
  | sends opened => exact sound.withData
  | closes => exact sound.withData
  | receive returns computed handled =>
      obtain ⟨fits, whole, _⟩ := tolerated
      subst computed
      refine sound_received (sound.consume _ _) ?_ ?_ handled
      · rw [receiveMsg_result, if_neg fits]
        split <;> exact nofun
      · intro initial
        rw [consume_thread] at initial
        rw [receiveMsg_result, if_neg fits, if_pos (whole initial)]
        exact nofun
  | monitor watched present => exact sound.monitorSocket watched _
  | monitorFreed watched freed =>
      exact absurd freed (not_freed_of_alive (sound.watched _ watched))
  | drop serving disconnected => exact sound.moveServing (by rw [serving]; trivial) trivial
  | breakOff lost => exact sound.breakOff tolerated lost
  | link created => exact sound_link sound created
  | update reported =>
      rename_i peer report
      have moved : Sound (state.moveThread peer .updated) :=
        sound.moveServing (by rw [reported]; trivial) trivial
      exact moved.withData
  | serve updated computed fits =>
      rename_i peer writes update
      rw [send_of_accepted _ tolerated]
      have moved : Sound (state.moveThread peer .serving) :=
        sound.moveServing (by rw [updated]; trivial) trivial
      exact moved.withData
  | unlink leaving => exact sound_unlink sound leaving
  | hangUp unlinked => exact sound.hangUp unlinked
  | free hungUp => exact sound_free sound hungUp tolerated.1 tolerated.2
  | control step => exact sound_controlStep sound tolerated step

/-! ### Failures -/

end Steps

/-! ### Whole runs -/

def blankRecord : CarRecord :=
  { name := Token.ofText (bytes "A")
    range := oneToNine
    data :=
      { currentFloor := digitFloor 1
        destinationFloor := digitFloor 1
        status := statusToken .closed }
    queue := [] }

end Cab403.Elevator.Peers
