/-
The connections of car.c: `controller_connection` and the `monitor_connection` thread
that it starts for each of them and joins before it closes the socket. A step is one
critical section, one receive or one system call; what poll, malloc and the other calls
report is left open. What the messages say and do is in the model of the car; here a
socket holds bytes that the car has not read.
-/

import Cab403.Library.ActionRuns

namespace Cab403.Elevator.CarConnection

open ActionRuns

inductive ThreadAt where
  | socket
  | connect
  /-- The `CAR` message and the first status. -/
  | greet
  | allocate
  | spawn
  /-- `connection_alive` is tested. -/
  | confirm
  /-- The section of the shared memory. -/
  | modes
  | polling
  /-- `fds[0]` is readable, and `fds[1]` as well if `pipe`. -/
  | receiving (pipe : Bool)
  | reading
  | reporting
  | farewell
  | cleanup
  | join
  | close
  | destroy
  /-- A failed `write` has ended the process. -/
  | exited
  deriving DecidableEq, Repr

inductive MonitorAt where
  | absent
  /-- The arguments are still to be read. -/
  | starting
  | polling
  | readable
  /-- A hang-up, the end of the stream or a failed `recv` was seen. -/
  | broken
  | freeing
  | returned
  deriving DecidableEq, Repr

/-- One pass of the outer loop: its socket, its `margs`, and the variables of its body. -/
structure Pass where
  opened : Bool
  closes : Nat
  allocated : Bool
  frees : Nat
  /-- `connection_alive` and `connection_mutex` exist. -/
  inScope : Bool
  alive : Bool
  monitor : MonitorAt
  unread : Nat
  /-- The peer has closed its end. -/
  ended : Bool
  /-- The socket reports `POLLERR` or `POLLHUP`. -/
  reset : Bool
  deriving DecidableEq, Repr

def Pass.fresh : Pass :=
  { opened := false
    closes := 0
    allocated := false
    frees := 0
    inScope := false
    alive := false
    monitor := .absent
    unread := 0
    ended := false
    reset := false }

namespace Pass

def close (pass : Pass) : Pass := { pass with closes := pass.closes + 1 }

def free (pass : Pass) : Pass := { pass with frees := pass.frees + 1 }

def Readable (pass : Pass) : Prop := 0 < pass.unread ∨ pass.ended = true ∨ pass.reset = true

def Over (pass : Pass) : Prop := pass.ended = true ∨ pass.reset = true

instance (pass : Pass) : Decidable pass.Readable := inferInstanceAs (Decidable (_ ∨ _))

instance (pass : Pass) : Decidable pass.Over := inferInstanceAs (Decidable (_ ∨ _))

end Pass

/-! ### The connection thread -/

inductive Polled where
  | failed
  | timeout
  | ready (socket pipe : Bool)
  deriving DecidableEq, Repr

inductive ThreadAction where
  | socket (made : Bool)
  | connect (made : Bool)
  | greet (delivered : Bool)
  | allocate (made : Bool)
  | spawn (made : Bool)
  | confirm
  /-- `leaves`: emergency or service mode is on. -/
  | modes (leaves : Bool)
  | poll (result : Polled)
  /-- `receive_msg` takes `count` bytes and returns a message or NULL. -/
  | receive (count : Nat) (message : Bool)
  | read (byte : Bool)
  | send (delivered : Bool)
  | cleanup
  | join
  | close
  | destroy
  deriving DecidableEq, Repr

def controllerConnection (thread : ThreadAt) (pass : Pass) :
    ThreadAction → Option (ThreadAt × Pass)
  | .socket made =>
      if thread = .socket then
        some (if made then (.connect, { pass with opened := true }) else (.socket, pass))
      else none
  | .connect made =>
      if thread = .connect then
        some (if made then (.greet, pass) else (.socket, pass.close))
      else none
  | .greet delivered =>
      if thread = .greet then some (if delivered then .allocate else .exited, pass) else none
  | .allocate made =>
      if thread = .allocate then
        some
          (if made then
            (.spawn, { pass with inScope := true, alive := true, allocated := true })
          else (.socket, pass.close))
      else none
  | .spawn made =>
      if thread = .spawn then
        some
          (if made then (.confirm, { pass with monitor := .starting })
          else (.socket, { pass.free.close with inScope := false }))
      else none
  | .confirm =>
      if thread = .confirm then some (if pass.alive then .modes else .cleanup, pass) else none
  | .modes leaves =>
      if thread = .modes then some (if leaves then .farewell else .polling, pass) else none
  | .poll result =>
      if thread = .polling then
        match result with
        | .failed => some (.cleanup, pass)
        | .timeout => some (.reporting, pass)
        | .ready socket pipe =>
            if socket then if pass.Readable then some (.receiving pipe, pass) else none
            else if pipe then some (.reading, pass)
            else none
      else none
  | .receive count message =>
      match thread with
      | .receiving pipe =>
          if count ≤ pass.unread ∧ (pass.Over ∨ message = true ∧ 4 ≤ count) then
            some
              (if message then if pipe then .reading else .confirm else .cleanup,
                { pass with unread := pass.unread - count })
          else none
      | _ => none
  | .read byte =>
      if thread = .reading then some (if byte then .reporting else .cleanup, pass) else none
  | .send delivered =>
      match thread with
      | .reporting => some (if delivered then .confirm else .exited, pass)
      | .farewell => some (if delivered then .cleanup else .exited, pass)
      | _ => none
  | .cleanup =>
      if thread = .cleanup then some (.join, { pass with alive := false }) else none
  | .join =>
      if thread = .join ∧ pass.monitor = .returned then some (.close, pass) else none
  | .close => if thread = .close then some (.destroy, pass.close) else none
  | .destroy =>
      if thread = .destroy then some (.socket, { pass with inScope := false }) else none

/-! ### The monitor -/

inductive MonitorPolled where
  | failed
  | hangUp
  | readable
  deriving DecidableEq, Repr

inductive MonitorAction where
  | start
  | poll (result : MonitorPolled)
  /-- `recv` with `MSG_PEEK`, which may report the error of the socket. -/
  | peek (failed : Bool)
  | clear
  | free
  deriving DecidableEq, Repr

/-- A byte that is still unread hides the end of the stream from `recv`. -/
def peeked (pass : Pass) : MonitorAt :=
  if pass.unread = 0 ∧ pass.ended = true then .broken else .polling

def monitorConnection (pass : Pass) : MonitorAction → Option Pass
  | .start =>
      if pass.monitor = .starting then some { pass with monitor := .polling } else none
  | .poll result =>
      if pass.monitor = .polling then
        match result with
        | .failed => some { pass with monitor := .freeing }
        | .hangUp => if pass.reset then some { pass with monitor := .broken } else none
        | .readable => if pass.Readable then some { pass with monitor := .readable } else none
      else none
  | .peek failed =>
      if pass.monitor = .readable then
        if failed then if pass.reset then some { pass with monitor := .broken } else none
        else some { pass with monitor := peeked pass }
      else none
  | .clear =>
      if pass.monitor = .broken then some { pass with alive := false, monitor := .freeing }
      else none
  | .free =>
      if pass.monitor = .freeing then some { pass.free with monitor := .returned } else none

/-! ### The two and the controller's end -/

inductive PeerAction where
  | send (count : Nat)
  | close
  | reset
  deriving DecidableEq, Repr

def peer (pass : Pass) : PeerAction → Option Pass
  | .send count =>
      if ¬ pass.Over then some { pass with unread := pass.unread + count } else none
  | .close => if ¬ pass.Over then some { pass with ended := true } else none
  | .reset => some { pass with reset := true }

structure State where
  thread : ThreadAt
  current : Nat
  passes : Nat → Pass

inductive Action where
  | thread (action : ThreadAction)
  | monitor (pass : Nat) (action : MonitorAction)
  | peer (pass : Nat) (action : PeerAction)
  deriving DecidableEq, Repr

def State.start : State :=
  { thread := .socket
    current := 0
    passes := fun _ => Pass.fresh }

def State.pass (state : State) : Pass := state.passes state.current

def State.set (state : State) (index : Nat) (pass : Pass) : State :=
  { state with passes := Function.update state.passes index pass }

/-- Back at `socket` the thread is in its next pass. -/
def State.arrive (state : State) (thread : ThreadAt) (pass : Pass) : State :=
  { thread := thread
    current := if thread = .socket then state.current + 1 else state.current
    passes := Function.update state.passes state.current pass }

def step (state : State) : Action → Option State
  | .thread action =>
      (controllerConnection state.thread state.pass action).map fun (thread, pass) =>
        state.arrive thread pass
  | .monitor index action =>
      if state.thread ≠ .exited then
        (monitorConnection (state.passes index) action).map (state.set index)
      else none
  | .peer index action =>
      if (state.passes index).opened then (peer (state.passes index) action).map (state.set index)
      else none

/-! ### Where the threads can stand -/

structure Holds (opened : Bool) (closes : Nat) (allocated inScope : Bool) (pass : Pass) :
    Prop where
  opened : pass.opened = opened
  closes : pass.closes = closes
  allocated : pass.allocated = allocated
  inScope : pass.inScope = inScope

structure Unmonitored (pass : Pass) : Prop where
  monitor : pass.monitor = .absent
  frees : pass.frees = 0

/-- The monitor frees its arguments last. -/
structure Monitored (pass : Pass) : Prop where
  monitor : pass.monitor ≠ .absent
  frees : pass.frees = if pass.monitor = .returned then 1 else 0

def Connected (pass : Pass) : Prop := Holds true 0 true true pass ∧ Monitored pass

def Greeting (pass : Pass) : Prop := Holds true 0 false false pass ∧ Unmonitored pass

def Fits (pass : Pass) : ThreadAt → Prop
  | .socket => pass = Pass.fresh
  | .connect | .greet | .allocate => Greeting pass
  | .spawn => Holds true 0 true true pass ∧ Unmonitored pass
  | .close => Connected pass ∧ pass.monitor = .returned
  | .destroy => Holds true 1 true true pass ∧ Monitored pass ∧ pass.monitor = .returned
  | .exited => Greeting pass ∨ Connected pass
  | _ => Connected pass

/-- Nothing of a past pass is left: its socket closed once, its arguments freed once. -/
structure Finished (pass : Pass) : Prop where
  closes : pass.closes = pass.opened.toNat
  frees : pass.frees = pass.allocated.toNat
  inScope : pass.inScope = false
  monitor : pass.monitor = .absent ∨ pass.monitor = .returned

def Arrives (pass : Pass) (thread : ThreadAt) : Prop :=
  if thread = .socket then Finished pass else Fits pass thread

theorem arrives_of_fits {pass : Pass} {thread : ThreadAt} (inside : thread ≠ .socket)
    (fits : Fits pass thread) : Arrives pass thread := by
  unfold Arrives
  rw [if_neg inside]
  exact fits

theorem arrives_of_finished {pass : Pass} (finished : Finished pass) :
    Arrives pass .socket := by
  unfold Arrives
  rw [if_pos rfl]
  exact finished

theorem Greeting.finished {pass : Pass} (greeting : Greeting pass) : Finished pass.close := by
  obtain ⟨holds, unmonitored⟩ := greeting
  exact
    { closes := by
        rw [Pass.close, holds.closes, holds.opened]
        rfl
      frees := by
        rw [Pass.close, unmonitored.frees, holds.allocated]
        rfl
      inScope := holds.inScope
      monitor := Or.inl unmonitored.monitor }

theorem Connected.withUnread {pass : Pass} (connected : Connected pass) (unread : Nat) :
    Connected { pass with unread := unread } :=
  ⟨⟨connected.1.opened, connected.1.closes, connected.1.allocated, connected.1.inScope⟩,
    ⟨connected.2.monitor, connected.2.frees⟩⟩

theorem controllerConnection_fits {thread after : ThreadAt} {pass next : Pass}
    {action : ThreadAction} (fits : Fits pass thread)
    (taken : controllerConnection thread pass action = some (after, next)) :
    Arrives next after := by
  cases action with
  | socket made =>
      obtain ⟨rfl, same⟩ := of_guarded taken
      have fresh : pass = Pass.fresh := fits
      subst fresh
      cases made with
      | true => cases same; exact ⟨⟨rfl, rfl, rfl, rfl⟩, ⟨rfl, rfl⟩⟩
      | false => cases same; exact arrives_of_finished ⟨rfl, rfl, rfl, Or.inl rfl⟩
  | connect made =>
      obtain ⟨rfl, same⟩ := of_guarded taken
      have greeting : Greeting pass := fits
      cases made with
      | true => cases same; exact arrives_of_fits nofun greeting
      | false => cases same; exact arrives_of_finished greeting.finished
  | greet delivered =>
      obtain ⟨rfl, same⟩ := of_guarded taken
      have greeting : Greeting pass := fits
      cases delivered with
      | true => cases same; exact arrives_of_fits nofun greeting
      | false => cases same; exact arrives_of_fits nofun (Or.inl greeting)
  | allocate made =>
      obtain ⟨rfl, same⟩ := of_guarded taken
      have greeting : Greeting pass := fits
      cases made with
      | true =>
          cases same
          exact arrives_of_fits nofun
            ⟨⟨greeting.1.opened, greeting.1.closes, rfl, rfl⟩, greeting.2.monitor,
              greeting.2.frees⟩
      | false => cases same; exact arrives_of_finished greeting.finished
  | spawn made =>
      obtain ⟨rfl, same⟩ := of_guarded taken
      obtain ⟨holds, unmonitored⟩ : Holds true 0 true true pass ∧ Unmonitored pass := fits
      cases made with
      | true =>
          cases same
          exact arrives_of_fits nofun
            ⟨⟨holds.opened, holds.closes, holds.allocated, holds.inScope⟩, nofun,
              unmonitored.frees⟩
      | false =>
          cases same
          apply arrives_of_finished
          exact
            { closes := by
                rw [Pass.close, Pass.free, holds.closes, holds.opened]
                rfl
              frees := by
                rw [Pass.close, Pass.free, unmonitored.frees, holds.allocated]
                rfl
              inScope := rfl
              monitor := Or.inl unmonitored.monitor }
  | confirm =>
      obtain ⟨rfl, same⟩ := of_guarded taken
      have connected : Connected pass := fits
      cases same
      split <;> exact arrives_of_fits nofun connected
  | modes leaves =>
      obtain ⟨rfl, same⟩ := of_guarded taken
      have connected : Connected pass := fits
      cases same
      split <;> exact arrives_of_fits nofun connected
  | poll result =>
      obtain ⟨rfl, same⟩ := Option.ite_none_right_eq_some.mp taken
      have connected : Connected pass := fits
      cases result with
      | failed => cases same; exact arrives_of_fits nofun connected
      | timeout => cases same; exact arrives_of_fits nofun connected
      | ready socket pipe =>
          cases socket with
          | true =>
              obtain ⟨_, same⟩ := of_guarded same
              cases same
              exact arrives_of_fits nofun connected
          | false =>
              obtain ⟨_, same⟩ := of_guarded same
              cases same
              exact arrives_of_fits nofun connected
  | receive count message =>
      cases thread with
      | receiving pipe =>
          obtain ⟨_, same⟩ := of_guarded taken
          have connected : Connected pass := fits
          cases same
          have read := connected.withUnread (pass.unread - count)
          split
          · split <;> exact arrives_of_fits nofun read
          · exact arrives_of_fits nofun read
      | _ => cases taken
  | read byte =>
      obtain ⟨rfl, same⟩ := of_guarded taken
      have connected : Connected pass := fits
      cases same
      split <;> exact arrives_of_fits nofun connected
  | send delivered =>
      cases thread with
      | reporting =>
          have connected : Connected pass := fits
          cases taken
          split
          · exact arrives_of_fits nofun connected
          · exact arrives_of_fits nofun (Or.inr connected)
      | farewell =>
          have connected : Connected pass := fits
          cases taken
          split
          · exact arrives_of_fits nofun connected
          · exact arrives_of_fits nofun (Or.inr connected)
      | _ => cases taken
  | cleanup =>
      obtain ⟨rfl, same⟩ := of_guarded taken
      have connected : Connected pass := fits
      cases same
      exact arrives_of_fits nofun
        ⟨⟨connected.1.opened, connected.1.closes, connected.1.allocated, connected.1.inScope⟩,
          ⟨connected.2.monitor, connected.2.frees⟩⟩
  | join =>
      obtain ⟨⟨rfl, returned⟩, same⟩ := of_guarded taken
      have connected : Connected pass := fits
      cases same
      exact arrives_of_fits nofun ⟨connected, returned⟩
  | close =>
      obtain ⟨rfl, same⟩ := of_guarded taken
      obtain ⟨⟨holds, monitored⟩, returned⟩ : Connected pass ∧ pass.monitor = .returned := fits
      cases same
      exact arrives_of_fits nofun
        ⟨⟨holds.opened, congrArg (· + 1) holds.closes, holds.allocated, holds.inScope⟩,
          ⟨monitored.monitor, monitored.frees⟩, returned⟩
  | destroy =>
      obtain ⟨rfl, same⟩ := of_guarded taken
      obtain ⟨holds, monitored, returned⟩ :
        Holds true 1 true true pass ∧ Monitored pass ∧ pass.monitor = .returned := fits
      cases same
      apply arrives_of_finished
      exact
        { closes := by
            rw [holds.closes, holds.opened]
            rfl
          frees := by
            rw [monitored.frees, if_pos returned, holds.allocated]
            rfl
          inScope := rfl
          monitor := Or.inr returned }

/-! ### The monitor and the peer -/

def Running : MonitorAt → Prop
  | .absent | .returned => False
  | _ => True

/-- A step of the monitor: what it may change, and that it has not ended before. -/
theorem monitorConnection_eq {pass next : Pass} {action : MonitorAction}
    (taken : monitorConnection pass action = some next) :
    Running pass.monitor ∧ next.monitor ≠ .absent ∧
      next =
        { pass with
          alive := next.alive
          monitor := next.monitor
          frees := pass.frees + if next.monitor = .returned then 1 else 0 } := by
  cases action with
  | start =>
      obtain ⟨starting, rfl⟩ := of_guarded taken
      rw [starting]
      exact ⟨trivial, nofun, rfl⟩
  | poll result =>
      obtain ⟨polling, same⟩ := Option.ite_none_right_eq_some.mp taken
      rw [polling]
      cases result with
      | failed => cases same; exact ⟨trivial, nofun, rfl⟩
      | hangUp => obtain ⟨_, rfl⟩ := of_guarded same; exact ⟨trivial, nofun, rfl⟩
      | readable => obtain ⟨_, rfl⟩ := of_guarded same; exact ⟨trivial, nofun, rfl⟩
  | peek failed =>
      obtain ⟨readable, same⟩ := Option.ite_none_right_eq_some.mp taken
      rw [readable]
      cases failed with
      | true => obtain ⟨_, rfl⟩ := of_guarded same; exact ⟨trivial, nofun, rfl⟩
      | false =>
          cases same
          dsimp only [peeked]
          split <;> exact ⟨trivial, nofun, rfl⟩
  | clear =>
      obtain ⟨broken, rfl⟩ := of_guarded taken
      rw [broken]
      exact ⟨trivial, nofun, rfl⟩
  | free =>
      obtain ⟨freeing, rfl⟩ := of_guarded taken
      rw [freeing]
      exact ⟨trivial, nofun, rfl⟩

theorem Running.ne_returned {monitor : MonitorAt} (running : Running monitor) :
    monitor ≠ .returned := by
  rintro rfl
  exact running

theorem Holds.monitor {opened : Bool} {closes : Nat} {allocated inScope : Bool}
    {pass next : Pass} {action : MonitorAction}
    (holds : Holds opened closes allocated inScope pass)
    (taken : monitorConnection pass action = some next) :
    Holds opened closes allocated inScope next := by
  obtain ⟨_, _, same⟩ := monitorConnection_eq taken
  rw [same]
  exact ⟨holds.opened, holds.closes, holds.allocated, holds.inScope⟩

theorem Monitored.monitor_step {pass next : Pass} {action : MonitorAction}
    (monitored : Monitored pass) (taken : monitorConnection pass action = some next) :
    Monitored next := by
  obtain ⟨running, present, same⟩ := monitorConnection_eq taken
  refine ⟨present, ?_⟩
  have before := monitored.frees
  rw [if_neg running.ne_returned] at before
  rw [same, before, Nat.zero_add]

theorem Unmonitored.not_running {pass : Pass} (unmonitored : Unmonitored pass) :
    ¬ Running pass.monitor := by
  rw [unmonitored.monitor]
  exact id

theorem not_running_of_returned {pass : Pass} (returned : pass.monitor = .returned) :
    ¬ Running pass.monitor := by
  rw [returned]
  exact id

/-- The monitor runs only while the thread is between its creation and the join. -/
theorem connected_of_running {pass : Pass} {thread : ThreadAt} (fits : Fits pass thread)
    (running : Running pass.monitor) :
    Connected pass ∧ ∀ next, Connected next → Fits next thread := by
  cases thread with
  | socket =>
      have fresh : pass = Pass.fresh := fits
      rw [fresh] at running
      exact running.elim
  | connect => exact absurd running (Unmonitored.not_running fits.2)
  | greet => exact absurd running (Unmonitored.not_running fits.2)
  | allocate => exact absurd running (Unmonitored.not_running fits.2)
  | spawn => exact absurd running (Unmonitored.not_running fits.2)
  | close => exact absurd running (not_running_of_returned fits.2)
  | destroy => exact absurd running (not_running_of_returned fits.2.2)
  | exited =>
      cases fits with
      | inl greeting => exact absurd running greeting.2.not_running
      | inr connected => exact ⟨connected, fun _ => Or.inr⟩
  | _ => exact ⟨fits, fun _ => id⟩

theorem peer_eq {pass next : Pass} {action : PeerAction} (taken : peer pass action = some next) :
    next = { pass with unread := next.unread, ended := next.ended, reset := next.reset } := by
  cases action with
  | send count => obtain ⟨_, rfl⟩ := of_guarded taken; rfl
  | close => obtain ⟨_, rfl⟩ := of_guarded taken; rfl
  | reset => cases taken; rfl

section Peer

variable {pass next : Pass} {action : PeerAction}

theorem Holds.peer {opened : Bool} {closes : Nat} {allocated inScope : Bool}
    (holds : Holds opened closes allocated inScope pass) (taken : peer pass action = some next) :
    Holds opened closes allocated inScope next := by
  rw [peer_eq taken]
  exact ⟨holds.opened, holds.closes, holds.allocated, holds.inScope⟩

theorem Unmonitored.peer (unmonitored : Unmonitored pass) (taken : peer pass action = some next) :
    Unmonitored next := by
  rw [peer_eq taken]
  exact ⟨unmonitored.monitor, unmonitored.frees⟩

theorem Monitored.peer (monitored : Monitored pass) (taken : peer pass action = some next) :
    Monitored next := by
  rw [peer_eq taken]
  exact ⟨monitored.monitor, monitored.frees⟩

theorem Finished.peer (finished : Finished pass) (taken : peer pass action = some next) :
    Finished next := by
  rw [peer_eq taken]
  exact ⟨finished.closes, finished.frees, finished.inScope, finished.monitor⟩

theorem peer_monitor (taken : peer pass action = some next) : next.monitor = pass.monitor := by
  rw [peer_eq taken]

theorem Greeting.peer (greeting : Greeting pass) (taken : peer pass action = some next) :
    Greeting next :=
  ⟨greeting.1.peer taken, greeting.2.peer taken⟩

theorem Connected.peer (connected : Connected pass) (taken : peer pass action = some next) :
    Connected next :=
  ⟨connected.1.peer taken, connected.2.peer taken⟩

theorem Fits.peer {thread : ThreadAt} (fits : Fits pass thread) (opened : pass.opened = true)
    (taken : peer pass action = some next) : Fits next thread := by
  cases thread with
  | socket =>
      have fresh : pass = Pass.fresh := fits
      rw [fresh] at opened
      cases opened
  | connect => exact Greeting.peer fits taken
  | greet => exact Greeting.peer fits taken
  | allocate => exact Greeting.peer fits taken
  | spawn => exact ⟨fits.1.peer taken, fits.2.peer taken⟩
  | close => exact ⟨Connected.peer fits.1 taken, (peer_monitor taken).trans fits.2⟩
  | destroy =>
      exact ⟨fits.1.peer taken, fits.2.1.peer taken, (peer_monitor taken).trans fits.2.2⟩
  | exited => exact Or.imp (Greeting.peer · taken) (Connected.peer · taken) fits
  | _ => exact Connected.peer fits taken

end Peer

/-! ### Every pass of a run -/

structure Reached (state : State) : Prop where
  here : Fits state.pass state.thread
  past : ∀ index, index < state.current → Finished (state.passes index)
  coming : ∀ index, state.current < index → state.passes index = Pass.fresh

theorem reached_start : Reached State.start where
  here := rfl
  past := fun index early => absurd early (Nat.not_lt_zero index)
  coming := fun _ _ => rfl

theorem Reached.arrive {state : State} {thread : ThreadAt} {pass : Pass}
    (reached : Reached state) (arrives : Arrives pass thread) :
    Reached (state.arrive thread pass) := by
  have later : ∀ index, state.current < index →
      Function.update state.passes state.current pass index = Pass.fresh := by
    intro index after
    rw [Function.update_of_ne (Nat.ne_of_gt after)]
    exact reached.coming index after
  have earlier : ∀ index, index < state.current →
      Finished (Function.update state.passes state.current pass index) := by
    intro index before
    rw [Function.update_of_ne (Nat.ne_of_lt before)]
    exact reached.past index before
  by_cases next : thread = .socket
  · subst next
    have finished : Finished pass := by
      unfold Arrives at arrives
      rwa [if_pos rfl] at arrives
    refine ⟨later _ (Nat.lt_succ_self _), fun index before => ?_, fun index after => ?_⟩
    · have within : index < state.current + 1 := before
      by_cases same : index = state.current
      · subst same
        dsimp only [State.arrive]
        rw [Function.update_self]
        exact finished
      · exact earlier index (by omega)
    · have beyond : state.current + 1 < index := after
      exact later index (by omega)
  · have fits : Fits pass thread := by
      unfold Arrives at arrives
      rwa [if_neg next] at arrives
    have stays : (state.arrive thread pass).current = state.current := if_neg next
    refine ⟨?_, fun index before => ?_, fun index after => ?_⟩
    · unfold State.pass
      rw [stays]
      dsimp only [State.arrive]
      rw [Function.update_self]
      exact fits
    · rw [stays] at before
      exact earlier index before
    · rw [stays] at after
      exact later index after

/-- A step on one pass that does not concern the thread's place. -/
theorem Reached.set {state : State} {index : Nat} {pass : Pass} (reached : Reached state)
    (here : index = state.current → Fits pass state.thread)
    (past : index < state.current → Finished pass) (known : index ≤ state.current) :
    Reached (state.set index pass) := by
  refine ⟨?_, fun other before => ?_, fun other after => ?_⟩
  · by_cases same : index = state.current
    · subst same
      unfold State.pass State.set
      dsimp only
      rw [Function.update_self]
      exact here rfl
    · unfold State.pass State.set
      dsimp only
      rw [Function.update_of_ne (Ne.symm same)]
      exact reached.here
  · by_cases same : other = index
    · subst same
      dsimp only [State.set]
      rw [Function.update_self]
      exact past before
    · dsimp only [State.set]
      rw [Function.update_of_ne same]
      exact reached.past other before
  · have beyond : state.current < other := after
    dsimp only [State.set]
    rw [Function.update_of_ne (by omega)]
    exact reached.coming other after

/-- A monitor that runs belongs to the pass of the thread. -/
theorem Reached.running {state : State} {index : Nat} (reached : Reached state)
    (running : Running (state.passes index).monitor) : index = state.current := by
  by_contra differs
  cases Nat.lt_or_gt_of_ne differs with
  | inl before =>
      cases (reached.past index before).monitor with
      | inl absent => rw [absent] at running; exact running
      | inr returned => rw [returned] at running; exact running
  | inr after =>
      rw [reached.coming index after] at running
      exact running

theorem reached_step {state next : State} {action : Action} (reached : Reached state)
    (taken : step state action = some next) : Reached next := by
  cases action with
  | thread action =>
      obtain ⟨⟨thread, pass⟩, moved, rfl⟩ := Option.map_eq_some_iff.mp taken
      exact reached.arrive (controllerConnection_fits reached.here moved)
  | monitor index action =>
      obtain ⟨_, mapped⟩ := Option.ite_none_right_eq_some.mp taken
      obtain ⟨pass, moved, rfl⟩ := Option.map_eq_some_iff.mp mapped
      obtain ⟨running, _, _⟩ := monitorConnection_eq moved
      obtain rfl := reached.running running
      obtain ⟨connected, fits⟩ := connected_of_running reached.here running
      apply reached.set
      · intro _
        exact fits pass ⟨connected.1.monitor moved, connected.2.monitor_step moved⟩
      · intro impossible
        exact absurd impossible (Nat.lt_irrefl _)
      · exact Nat.le_refl _
  | peer index action =>
      obtain ⟨opened, mapped⟩ := Option.ite_none_right_eq_some.mp taken
      obtain ⟨pass, moved, rfl⟩ := Option.map_eq_some_iff.mp mapped
      apply reached.set
      · rintro rfl
        exact reached.here.peer opened moved
      · intro before
        exact (reached.past index before).peer moved
      · by_contra beyond
        rw [reached.coming index (Nat.lt_of_not_le beyond)] at opened
        cases opened

theorem reached_run {state : State} {actions : List Action}
    (ran : run step State.start actions = some state) : Reached state :=
  invariant_run_always (fun _ _ _ => reached_step) reached_start ran

theorem Monitored.frees_le {pass : Pass} (monitored : Monitored pass) : pass.frees ≤ 1 := by
  rw [monitored.frees]
  split <;> omega

theorem Greeting.counts {pass : Pass} (greeting : Greeting pass) :
    pass.closes ≤ 1 ∧ pass.frees ≤ 1 := by
  rw [greeting.1.closes, greeting.2.frees]
  omega

theorem Connected.counts {pass : Pass} (connected : Connected pass) :
    pass.closes ≤ 1 ∧ pass.frees ≤ 1 := by
  refine ⟨?_, connected.2.frees_le⟩
  rw [connected.1.closes]
  omega

theorem Fits.counts {pass : Pass} {thread : ThreadAt} (fits : Fits pass thread) :
    pass.closes ≤ 1 ∧ pass.frees ≤ 1 := by
  cases thread with
  | socket =>
      have fresh : pass = Pass.fresh := fits
      rw [fresh]
      exact ⟨Nat.zero_le 1, Nat.zero_le 1⟩
  | connect => exact Greeting.counts fits
  | greet => exact Greeting.counts fits
  | allocate => exact Greeting.counts fits
  | spawn =>
      rw [fits.1.closes, fits.2.frees]
      omega
  | close => exact Connected.counts fits.1
  | destroy => exact ⟨Nat.le_of_eq fits.1.closes, fits.2.1.frees_le⟩
  | exited => exact fits.elim Greeting.counts Connected.counts
  | _ => exact Connected.counts fits

theorem Finished.counts {pass : Pass} (finished : Finished pass) :
    pass.closes ≤ 1 ∧ pass.frees ≤ 1 := by
  rw [finished.closes, finished.frees]
  exact ⟨Bool.toNat_le _, Bool.toNat_le _⟩

/-- In every run each socket is closed at most once and each `margs` freed at most once, and
nothing of a past connection is left. A monitor that runs belongs to the connection of the
thread, whose socket is open, whose arguments are allocated and whose variables exist. -/
theorem connections_released {state : State} {actions : List Action}
    (ran : run step State.start actions = some state) :
    (∀ index, (state.passes index).closes ≤ 1 ∧ (state.passes index).frees ≤ 1) ∧
      (∀ index, index < state.current → Finished (state.passes index)) ∧
      ∀ index, Running (state.passes index).monitor →
        index = state.current ∧ Holds true 0 true true (state.passes index) ∧
          (state.passes index).frees = 0 := by
  have reached := reached_run ran
  refine ⟨fun index => ?_, reached.past, fun index running => ?_⟩
  · cases Nat.lt_trichotomy index state.current with
    | inl before => exact (reached.past index before).counts
    | inr notBefore =>
        cases notBefore with
        | inl same =>
            subst same
            exact reached.here.counts
        | inr after =>
            rw [reached.coming index after]
            exact ⟨Nat.zero_le 1, Nat.zero_le 1⟩
  · obtain rfl := reached.running running
    obtain ⟨⟨holds, monitored⟩, _⟩ := connected_of_running reached.here running
    have pending : state.pass.monitor ≠ .returned := running.ne_returned
    exact ⟨rfl, holds, monitored.frees.trans (if_neg pending)⟩

/-- The controller closes its end, the monitor sees it, and the car connects again. -/
def reconnectTrace : List Action :=
  [.thread (.socket true), .thread (.connect true), .thread (.greet true),
    .thread (.allocate true), .thread (.spawn true), .monitor 0 .start, .peer 0 .close,
    .monitor 0 (.poll .readable), .monitor 0 (.peek false), .monitor 0 .clear, .monitor 0 .free,
    .thread .confirm, .thread .cleanup, .thread .join, .thread .close, .thread .destroy,
    .thread (.socket true), .thread (.connect true), .thread (.greet true),
    .thread (.allocate true), .thread (.spawn true), .monitor 1 .start]

def reconnected : State := (run step State.start reconnectTrace).get (by decide +kernel)

theorem connections_released_reconnectTrace :
    (∀ index, (reconnected.passes index).closes ≤ 1 ∧ (reconnected.passes index).frees ≤ 1) ∧
      (∀ index, index < reconnected.current → Finished (reconnected.passes index)) ∧
      ∀ index, Running (reconnected.passes index).monitor →
        index = reconnected.current ∧ Holds true 0 true true (reconnected.passes index) ∧
          (reconnected.passes index).frees = 0 :=
  @connections_released reconnected reconnectTrace (Option.some_get _).symm

/-! ### The join -/

def Watching : MonitorAt → Prop
  | .starting | .polling | .readable => True
  | _ => False

instance : DecidablePred Watching := fun monitor => by
  cases monitor <;> unfold Watching <;> infer_instance

/-- The steps of the car's two threads, except that `poll` does not fail. -/
def Own : Action → Prop
  | .thread _ => True
  | .monitor _ (.poll .failed) => False
  | .monitor _ _ => True
  | .peer _ _ => False

def Orderly : Action → Prop
  | .peer _ .reset => False
  | .peer _ _ => True
  | action => Own action

/-- The end of the stream, if it has come, stands behind bytes that nobody reads. -/
structure Hides (pass : Pass) : Prop where
  watching : Watching pass.monitor
  whole : pass.reset = false
  hidden : 0 < pass.unread ∨ pass.ended = false

section Hides

variable {pass next : Pass}

theorem monitorConnection_hides {action : MonitorAction} (hides : Hides pass)
    (fine : action ≠ .poll .failed) (taken : monitorConnection pass action = some next) :
    Hides next ∧ next.unread = pass.unread := by
  have whole := hides.whole
  have watching := hides.watching
  cases action with
  | start =>
      obtain ⟨_, rfl⟩ := of_guarded taken
      exact ⟨⟨trivial, whole, hides.hidden⟩, rfl⟩
  | poll result =>
      obtain ⟨_, same⟩ := Option.ite_none_right_eq_some.mp taken
      cases result with
      | failed => exact absurd rfl fine
      | hangUp =>
          obtain ⟨reset, _⟩ := of_guarded same
          rw [whole] at reset
          cases reset
      | readable =>
          obtain ⟨_, rfl⟩ := of_guarded same
          exact ⟨⟨trivial, whole, hides.hidden⟩, rfl⟩
  | peek failed =>
      obtain ⟨_, same⟩ := Option.ite_none_right_eq_some.mp taken
      cases failed with
      | true =>
          obtain ⟨reset, _⟩ := of_guarded same
          rw [whole] at reset
          cases reset
      | false =>
          cases same
          have stays : peeked pass = .polling := by
            apply if_neg
            rintro ⟨empty, ended⟩
            cases hides.hidden with
            | inl unread => omega
            | inr notEnded =>
                rw [notEnded] at ended
                cases ended
          rw [stays]
          exact ⟨⟨trivial, whole, hides.hidden⟩, rfl⟩
  | clear =>
      obtain ⟨broken, _⟩ := of_guarded taken
      rw [broken] at watching
      exact watching.elim
  | free =>
      obtain ⟨freeing, _⟩ := of_guarded taken
      rw [freeing] at watching
      exact watching.elim

theorem peer_hides {action : PeerAction} (hides : Hides pass) (orderly : action ≠ .reset)
    (unread : action = .close → 0 < pass.unread) (taken : peer pass action = some next) :
    Hides next ∧ pass.unread ≤ next.unread := by
  cases action with
  | send count =>
      obtain ⟨_, rfl⟩ := of_guarded taken
      exact ⟨⟨hides.watching, hides.whole, hides.hidden.imp_left (Nat.lt_add_right count)⟩,
        Nat.le_add_right _ count⟩
  | close =>
      obtain ⟨_, rfl⟩ := of_guarded taken
      exact ⟨⟨hides.watching, hides.whole, Or.inl (unread rfl)⟩, Nat.le_refl _⟩
  | reset => exact absurd rfl orderly

end Hides

structure Hidden (state : State) : Prop where
  join : state.thread = .join
  hides : Hides state.pass

theorem controllerConnection_join {pass : Pass} {action : ThreadAction}
    {arrived : ThreadAt × Pass} (taken : controllerConnection .join pass action = some arrived) :
    pass.monitor = .returned ∧ arrived = (.close, pass) := by
  cases action with
  | join =>
      obtain ⟨⟨_, returned⟩, rfl⟩ := of_guarded taken
      exact ⟨returned, rfl⟩
  | _ => cases taken

@[simp] theorem pass_set_current (state : State) (pass : Pass) :
    (state.set state.current pass).pass = pass := by
  simp only [State.pass, State.set, Function.update_self]

theorem pass_set_other (state : State) (pass : Pass) {index : Nat}
    (other : index ≠ state.current) : (state.set index pass).pass = state.pass := by
  simp only [State.pass, State.set, Function.update_of_ne (Ne.symm other)]

theorem Hidden.step {state next : State} {action : Action} (reached : Reached state)
    (hidden : Hidden state) (orderly : Orderly action)
    (unread : action = .peer state.current .close → 0 < state.pass.unread)
    (taken : step state action = some next) :
    Hidden next ∧ state.pass.unread ≤ next.pass.unread := by
  cases action with
  | thread action =>
      obtain ⟨arrived, moved, _⟩ := Option.map_eq_some_iff.mp taken
      rw [hidden.join] at moved
      have watching := hidden.hides.watching
      rw [(controllerConnection_join moved).1] at watching
      exact watching.elim
  | monitor index action =>
      obtain ⟨_, mapped⟩ := Option.ite_none_right_eq_some.mp taken
      obtain ⟨pass, moved, rfl⟩ := Option.map_eq_some_iff.mp mapped
      obtain ⟨running, _, _⟩ := monitorConnection_eq moved
      obtain rfl := reached.running running
      have fine : action ≠ .poll .failed := by
        rintro rfl
        exact orderly
      obtain ⟨hides, bytes⟩ := monitorConnection_hides hidden.hides fine moved
      rw [← pass_set_current state pass] at hides bytes
      exact ⟨⟨hidden.join, hides⟩, Nat.le_of_eq bytes.symm⟩
  | peer index action =>
      obtain ⟨_, mapped⟩ := Option.ite_none_right_eq_some.mp taken
      obtain ⟨pass, moved, rfl⟩ := Option.map_eq_some_iff.mp mapped
      by_cases here : index = state.current
      · have noReset : action ≠ .reset := by
          rintro rfl
          exact orderly
        have closes : action = .close → 0 < state.pass.unread := by
          rintro rfl
          rw [here] at unread
          exact unread rfl
        subst here
        obtain ⟨hides, bytes⟩ := peer_hides hidden.hides noReset closes moved
        rw [← pass_set_current state pass] at hides bytes
        exact ⟨⟨hidden.join, hides⟩, bytes⟩
      · have same := pass_set_other state pass here
        have hides := hidden.hides
        rw [← same] at hides
        exact ⟨⟨hidden.join, hides⟩, Nat.le_of_eq (congrArg Pass.unread same.symm)⟩

/-! ### The way out of the join -/

def Reconnects (state : State) : Prop :=
  ∃ later final, (∀ action ∈ later, Own action) ∧ run step state later = some final ∧
    final.thread = .socket

theorem Reconnects.of_step {state next : State} (action : Action) (own : Own action)
    (taken : step state action = some next) (reconnects : Reconnects next) :
    Reconnects state := by
  obtain ⟨later, final, owned, ran, back⟩ := reconnects
  refine ⟨action :: later, final, ?_, run_cons_eq_some.mpr ⟨next, taken, ran⟩, back⟩
  intro other member
  cases List.mem_cons.mp member with
  | inl same =>
      rw [same]
      exact own
  | inr member => exact owned other member

theorem monitor_taken {state : State} {pass : Pass} {action : MonitorAction}
    (join : state.thread = .join)
    (moved : monitorConnection state.pass action = some pass) :
    step state (.monitor state.current action) = some (state.set state.current pass) := by
  have runs : state.thread ≠ .exited := by
    rw [join]
    nofun
  have mapped : step state (.monitor state.current action) =
      (monitorConnection state.pass action).map (state.set state.current) :=
    if_pos runs
  rw [mapped, moved]
  rfl

theorem thread_taken {state : State} {after : ThreadAt} {pass : Pass} {action : ThreadAction}
    (moved : controllerConnection state.thread state.pass action = some (after, pass)) :
    step state (.thread action) = some (state.arrive after pass) := by
  simp only [step, moved, Option.map_some]

section Join

variable {state : State}

theorem reconnects_of_destroy (destroy : state.thread = .destroy) : Reconnects state := by
  have destroys : controllerConnection state.thread state.pass .destroy =
      some (.socket, { state.pass with inScope := false }) :=
    if_pos destroy
  apply Reconnects.of_step (.thread .destroy) trivial (thread_taken destroys)
  exact ⟨[], _, nofun, rfl, rfl⟩

theorem reconnects_of_close (close : state.thread = .close) : Reconnects state := by
  have closes : controllerConnection state.thread state.pass .close =
      some (.destroy, state.pass.close) :=
    if_pos close
  apply Reconnects.of_step (.thread .close) trivial (thread_taken closes)
  exact reconnects_of_destroy rfl

theorem reconnects_of_returned (join : state.thread = .join)
    (returned : state.pass.monitor = .returned) : Reconnects state := by
  have joins : controllerConnection state.thread state.pass .join = some (.close, state.pass) :=
    if_pos ⟨join, returned⟩
  apply Reconnects.of_step (.thread .join) trivial (thread_taken joins)
  exact reconnects_of_close rfl

theorem Reconnects.of_monitor {pass : Pass} (action : MonitorAction)
    (join : state.thread = .join) (own : Own (.monitor state.current action))
    (moved : monitorConnection state.pass action = some pass)
    (reconnects : Reconnects (state.set state.current pass)) : Reconnects state :=
  Reconnects.of_step (.monitor state.current action) own (monitor_taken join moved) reconnects

theorem reconnects_of_freeing (join : state.thread = .join)
    (freeing : state.pass.monitor = .freeing) : Reconnects state := by
  have frees : monitorConnection state.pass .free =
      some { state.pass.free with monitor := .returned } :=
    if_pos freeing
  apply Reconnects.of_monitor .free join trivial frees
  apply reconnects_of_returned
  · exact join
  · rw [pass_set_current]

theorem reconnects_of_broken (join : state.thread = .join)
    (broken : state.pass.monitor = .broken) : Reconnects state := by
  have clears : monitorConnection state.pass .clear =
      some { state.pass with alive := false, monitor := .freeing } :=
    if_pos broken
  apply Reconnects.of_monitor .clear join trivial clears
  apply reconnects_of_freeing
  · exact join
  · rw [pass_set_current]

/-- What the monitor can see: an error, or the end of the stream with nothing before it. -/
def Seen (pass : Pass) : Prop := pass.reset = true ∨ pass.unread = 0 ∧ pass.ended = true

theorem reconnects_of_readable (join : state.thread = .join) (seen : Seen state.pass)
    (readable : state.pass.monitor = .readable) : Reconnects state := by
  cases seen with
  | inl reset =>
      have peeks : monitorConnection state.pass (.peek true) =
          some { state.pass with monitor := .broken } := by
        simp only [monitorConnection, if_pos readable, reset, if_true]
      apply Reconnects.of_monitor (.peek true) join trivial peeks
      apply reconnects_of_broken
      · exact join
      · rw [pass_set_current]
  | inr ended =>
      have peeks : monitorConnection state.pass (.peek false) =
          some { state.pass with monitor := .broken } := by
        simp only [monitorConnection, if_pos readable, peeked, if_pos ended]
        rfl
      apply Reconnects.of_monitor (.peek false) join trivial peeks
      apply reconnects_of_broken
      · exact join
      · rw [pass_set_current]

theorem reconnects_of_polling (join : state.thread = .join) (seen : Seen state.pass)
    (polling : state.pass.monitor = .polling) : Reconnects state := by
  have readable : state.pass.Readable := by
    cases seen with
    | inl reset => exact Or.inr (Or.inr reset)
    | inr ended => exact Or.inr (Or.inl ended.2)
  have polls : monitorConnection state.pass (.poll .readable) =
      some { state.pass with monitor := .readable } := by
    simp only [monitorConnection, if_pos polling, if_pos readable]
  apply Reconnects.of_monitor (.poll .readable) join trivial polls
  apply reconnects_of_readable
  · exact join
  · rw [pass_set_current]
    exact seen
  · rw [pass_set_current]

theorem reconnects_of_starting (join : state.thread = .join) (seen : Seen state.pass)
    (starting : state.pass.monitor = .starting) : Reconnects state := by
  have starts : monitorConnection state.pass .start =
      some { state.pass with monitor := .polling } :=
    if_pos starting
  apply Reconnects.of_monitor .start join trivial starts
  apply reconnects_of_polling
  · exact join
  · rw [pass_set_current]
    exact seen
  · rw [pass_set_current]

end Join

/-- The monitor has seen the end, or it can see it. -/
theorem reconnects_of_seen {state : State} (reached : Reached state)
    (join : state.thread = .join) (seen : Watching state.pass.monitor → Seen state.pass) :
    Reconnects state := by
  have fits := reached.here
  rw [join] at fits
  have connected : Connected state.pass := fits
  cases monitor : state.pass.monitor with
  | absent => exact absurd monitor connected.2.monitor
  | starting =>
      rw [monitor] at seen
      exact reconnects_of_starting join (seen trivial) monitor
  | polling =>
      rw [monitor] at seen
      exact reconnects_of_polling join (seen trivial) monitor
  | readable =>
      rw [monitor] at seen
      exact reconnects_of_readable join (seen trivial) monitor
  | broken => exact reconnects_of_broken join monitor
  | freeing => exact reconnects_of_freeing join monitor
  | returned => exact reconnects_of_returned join monitor

theorem Own.orderly {action : Action} (own : Own action) : Orderly action := by
  cases action with
  | thread action => trivial
  | monitor index action => exact own
  | peer index action => exact own.elim

/-- Bytes that the thread left unread keep it in the join, whatever an orderly peer does. -/
theorem hidden_run {state final : State} {later : List Action} (reached : Reached state)
    (hidden : Hidden state) (unread : 0 < state.pass.unread)
    (orderly : ∀ action ∈ later, Orderly action) (ran : run step state later = some final) :
    final.thread = .join := by
  have kept : ∀ state action next, Reached state ∧ Hidden state ∧ 0 < state.pass.unread →
      Orderly action → step state action = some next →
        Reached next ∧ Hidden next ∧ 0 < next.pass.unread := by
    rintro state action next ⟨reached, hidden, unread⟩ orderly taken
    obtain ⟨stays, grows⟩ := hidden.step reached orderly (fun _ => unread) taken
    exact ⟨reached_step reached taken, stays, by omega⟩
  obtain ⟨_, stays, _⟩ :=
    invariant_run kept ⟨reached, hidden, unread⟩ (along_of_forall orderly) ran
  exact stays.join

theorem hidden_own_run {state final : State} {later : List Action} (reached : Reached state)
    (hidden : Hidden state) (own : ∀ action ∈ later, Own action)
    (ran : run step state later = some final) : final.thread = .join := by
  have kept : ∀ state action next, Reached state ∧ Hidden state → Own action →
      step state action = some next → Reached next ∧ Hidden next := by
    rintro state action next ⟨reached, hidden⟩ own taken
    have notPeer : action = .peer state.current .close → 0 < state.pass.unread := by
      rintro rfl
      exact own.elim
    exact ⟨reached_step reached taken, (hidden.step reached own.orderly notPeer taken).1⟩
  exact (invariant_run kept ⟨reached, hidden⟩ (along_of_forall own) ran).2.join

/-- The thread gets out of its join, if the peer does not reset the connection. -/
def LeavesJoin (state : State) : Prop :=
  ∃ later final, (∀ action ∈ later, Orderly action) ∧ run step state later = some final ∧
    final.thread ≠ .join

theorem Reconnects.leavesJoin {state : State} (reconnects : Reconnects state) :
    LeavesJoin state := by
  obtain ⟨later, final, own, ran, back⟩ := reconnects
  refine ⟨later, final, fun action member => (own action member).orderly, ran, ?_⟩
  rw [back]
  nofun

/-- The peer closes its end with nothing left to read. -/
theorem leavesJoin_of_empty {state : State} (reached : Reached state)
    (join : state.thread = .join) (empty : state.pass.unread = 0) : LeavesJoin state := by
  by_cases gone : state.pass.Over
  · apply Reconnects.leavesJoin
    apply reconnects_of_seen reached join
    intro _
    exact gone.elim (fun ended => Or.inr ⟨empty, ended⟩) Or.inl
  · have fits := reached.here
    rw [join] at fits
    have connected : Connected state.pass := fits
    let closed := state.set state.current { state.pass with ended := true }
    have taken : step state (.peer state.current .close) = some closed := by
      have ends : peer state.pass .close = some { state.pass with ended := true } :=
        if_pos gone
      have opened : (state.passes state.current).opened = true := connected.1.opened
      simp only [step, if_pos opened]
      exact congrArg (Option.map (state.set state.current)) ends
    have seen : Seen closed.pass := by
      rw [pass_set_current]
      exact Or.inr ⟨empty, rfl⟩
    obtain ⟨later, final, orderly, ran, left⟩ :=
      (reconnects_of_seen (reached_step reached taken) join fun _ => seen).leavesJoin
    refine ⟨.peer state.current .close :: later, final, ?_,
      run_cons_eq_some.mpr ⟨closed, taken, ran⟩, left⟩
    intro action member
    cases List.mem_cons.mp member with
    | inl same =>
        rw [same]
        trivial
    | inr member => exact orderly action member

/-- In every reachable state with the connection thread at its join and the monitor still
watching, the thread gets out without a reset of the connection exactly if no byte is left
unread: behind an unread byte the monitor never sees the peer close, and the car never
connects again. The two threads get back to `socket` by themselves exactly if the
monitor can see the end. -/
theorem join_returns_iff {state : State} {actions : List Action}
    (ran : run step State.start actions = some state) (join : state.thread = .join) :
    (LeavesJoin state ↔
        (Watching state.pass.monitor → state.pass.reset = true ∨ state.pass.unread = 0)) ∧
      (Reconnects state ↔ (Watching state.pass.monitor → Seen state.pass)) := by
  have reached := reached_run ran
  refine ⟨⟨?_, fun free => ?_⟩, ?_, reconnects_of_seen reached join⟩
  · rintro ⟨later, final, orderly, after, left⟩ watching
    by_contra stuck
    obtain ⟨whole, unread⟩ := not_or.mp stuck
    have hidden : Hidden state :=
      { join := join
        hides :=
          { watching := watching
            whole := Bool.eq_false_iff.mpr whole
            hidden := Or.inl (Nat.pos_of_ne_zero unread) } }
    exact left (hidden_run reached hidden (Nat.pos_of_ne_zero unread) orderly after)
  · by_cases watching : Watching state.pass.monitor
    · cases free watching with
      | inl reset => exact (reconnects_of_seen reached join fun _ => Or.inl reset).leavesJoin
      | inr empty => exact leavesJoin_of_empty reached join empty
    · exact (reconnects_of_seen reached join fun holds => absurd holds watching).leavesJoin
  · rintro ⟨later, final, own, after, back⟩ watching
    by_contra unseen
    obtain ⟨whole, unread⟩ := not_or.mp unseen
    have behind : 0 < state.pass.unread ∨ state.pass.ended = false := by
      by_contra exposed
      obtain ⟨empty, ended⟩ := not_or.mp exposed
      exact unread ⟨by omega, (Bool.not_eq_false _).mp ended⟩
    have hidden : Hidden state :=
      { join := join
        hides :=
          { watching := watching
            whole := Bool.eq_false_iff.mpr whole
            hidden := behind } }
    have stays := hidden_own_run reached hidden own after
    rw [stays] at back
    cases back

/-- The monitor starts; then the car goes out of service, with a message still unread. -/
def farewellTrace : List Action :=
  [.thread (.socket true), .thread (.connect true), .thread (.greet true),
    .thread (.allocate true), .thread (.spawn true), .monitor 0 .start, .thread .confirm,
    .peer 0 (.send 11), .thread (.modes true), .thread (.send true), .thread .cleanup,
    .peer 0 .close]

def saidFarewell : State := (run step State.start farewellTrace).get (by decide +kernel)

theorem join_returns_iff_farewellTrace :
    (LeavesJoin saidFarewell ↔
        (Watching saidFarewell.pass.monitor →
          saidFarewell.pass.reset = true ∨ saidFarewell.pass.unread = 0)) ∧
      (Reconnects saidFarewell ↔
        (Watching saidFarewell.pass.monitor → Seen saidFarewell.pass)) :=
  @join_returns_iff saidFarewell farewellTrace (Option.some_get _).symm (by decide +kernel)

end Cab403.Elevator.CarConnection
