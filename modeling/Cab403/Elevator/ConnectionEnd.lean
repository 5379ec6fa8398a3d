/-
How the connection of a car ends in the controller: `handle_car_connection` and the
`monitor_socket` thread it detaches share the flag `connected`, its mutex and the
descriptor. A step is one critical section, one receive or one system call. What a
receive or a poll reports is left open, so every way a connection can end is a run.
-/

import Cab403.Library.ActionRuns

namespace Cab403.Elevator.ConnectionEnd

open ActionRuns

inductive HandlerAt where
  /-- The first status of the car is due. -/
  | greeting
  | linked
  | loopTop
  | receiving
  /-- `receive_msg` returned NULL. -/
  | lost
  | unlinking
  | hangingUp
  | freeing
  | returned
  deriving DecidableEq, Repr

inductive MonitorAt where
  | absent
  | polling
  | readable
  /-- A hang-up, or a failed `recv`, was seen. -/
  | broken
  /-- `recv` has returned 0. -/
  | ended
  | returned
  deriving DecidableEq, Repr

inductive Received where
  | null
  | status
  | other
  deriving DecidableEq, Repr

inductive Polled where
  | failed
  | hangUp
  | readable
  deriving DecidableEq, Repr

inductive Peeked where
  | zero
  | failed
  /-- A byte, or `EAGAIN`. -/
  | nothingNew
  deriving DecidableEq, Repr

structure Connection where
  handler : HandlerAt
  monitor : MonitorAt
  connected : Bool
  /-- The number still names this connection. -/
  isOpen : Bool
  /-- The calls of `close(conn_fd)` that were made. -/
  closes : Nat
  /-- The monitor used the frame of the handler after its return. -/
  touchedFrame : Bool
  deriving DecidableEq, Repr

inductive ConnectionAction where
  | receive (result : Received)
  | startMonitor (created : Bool)
  | testConnected
  | breakOff
  | unlink
  | hangUp
  | free
  | poll (result : Polled)
  | peek (result : Peeked)
  /-- The section of the monitor behind what it has seen. -/
  | monitorSection
  deriving DecidableEq, Repr

def connectionStart : Connection :=
  { handler := .greeting
    monitor := .absent
    connected := false
    isOpen := true
    closes := 0
    touchedFrame := false }

def Connection.close (connection : Connection) : Connection :=
  { connection with
    isOpen := false
    closes := connection.closes + 1 }

def receiveStep (connection : Connection) (result : Received) : Option Connection :=
  match connection.handler, result with
  | .greeting, .status => some { connection with handler := .linked }
  | .greeting, _ => some { connection.close with handler := .returned }
  | .receiving, .status => some { connection with handler := .loopTop }
  | .receiving, .other => some { connection with handler := .unlinking }
  | .receiving, .null => some { connection with handler := .lost }
  | _, _ => none

def testConnected (connection : Connection) : Connection :=
  if connection.connected then { connection with handler := .receiving }
  else { connection with handler := .unlinking }

/-- The section after a NULL message: it closes without a look at `connected`. -/
def breakOff (connection : Connection) : Connection :=
  { connection.close with
    connected := false
    handler := .unlinking }

def hangUp (connection : Connection) : Connection :=
  if connection.connected then
    { connection.close with
      connected := false
      handler := .freeing }
  else { connection with handler := .freeing }

def handlerStep (connection : Connection) : ConnectionAction → Option Connection
  | .startMonitor created =>
      if connection.handler = .linked then
        some
          { connection with
            handler := .loopTop
            connected := true
            monitor := if created then .polling else .absent }
      else none
  | .testConnected =>
      if connection.handler = .loopTop then some (testConnected connection) else none
  | .breakOff => if connection.handler = .lost then some (breakOff connection) else none
  | .unlink =>
      if connection.handler = .unlinking then some { connection with handler := .hangingUp }
      else none
  | .hangUp => if connection.handler = .hangingUp then some (hangUp connection) else none
  | .free =>
      if connection.handler = .freeing then some { connection with handler := .returned } else none
  | _ => none

/-- A hang-up only shuts the connection down, the end of the stream also closes it. -/
def monitorSection (connection : Connection) (closing : Bool) : Connection :=
  let returned := { connection with monitor := .returned }
  -- the flag and its mutex are gone with the frame
  if connection.handler = .returned then { returned with touchedFrame := true }
  else if connection.connected then
    if closing then { returned.close with connected := false }
    else { returned with connected := false }
  else returned

def monitorStep (connection : Connection) : ConnectionAction → Option Connection
  | .poll result =>
      if connection.monitor = .polling then
        match result with
        | .failed => some { connection with monitor := .returned }
        | .hangUp => some { connection with monitor := .broken }
        | .readable => some { connection with monitor := .readable }
      else none
  | .peek result =>
      if connection.monitor = .readable then
        match result with
        | .zero => some { connection with monitor := .ended }
        | .failed => some { connection with monitor := .broken }
        | .nothingNew => some { connection with monitor := .polling }
      else none
  | .monitorSection =>
      match connection.monitor with
      | .broken => some (monitorSection connection false)
      | .ended => some (monitorSection connection true)
      | _ => none
  | _ => none

def connectionStep (connection : Connection) (action : ConnectionAction) : Option Connection :=
  match action with
  | .receive result => receiveStep connection result
  | .poll _ | .peek _ | .monitorSection => monitorStep connection action
  | _ => handlerStep connection action

/-! ### Orderly ends -/

def MonitorGone (connection : Connection) : Prop :=
  connection.monitor = .absent ∨ connection.monitor = .returned

instance (connection : Connection) : Decidable (MonitorGone connection) :=
  inferInstanceAs (Decidable (_ ∨ _))

/-- The section after a NULL message comes before the monitor has closed; when the last
section finds `connected` cleared, the descriptor has been closed; and the handler
returns after its monitor. -/
def Orderly (connection : Connection) : ConnectionAction → Prop
  | .breakOff => connection.isOpen = true
  | .hangUp => connection.connected = false → connection.isOpen = false
  | .free => MonitorGone connection
  | _ => True

instance (connection : Connection) (action : ConnectionAction) :
    Decidable (Orderly connection action) := by
  unfold Orderly
  split <;> infer_instance

def HandlerAt.Early : HandlerAt → Prop
  | .greeting | .linked => True
  | _ => False

def HandlerAt.Done : HandlerAt → Prop
  | .freeing | .returned => True
  | _ => False

structure ConnectionInvariant (connection : Connection) : Prop where
  counted : connection.closes = if connection.isOpen then 0 else 1
  flagged : connection.connected = true → connection.isOpen = true
  early : connection.handler.Early →
    connection.isOpen = true ∧ connection.connected = false ∧ connection.monitor = .absent
  done : connection.handler.Done → connection.isOpen = false
  gone : connection.handler = .returned → MonitorGone connection
  untouched : connection.touchedFrame = false

section Steps

variable {connection next : Connection}

theorem ConnectionInvariant.closes_of_closed (invariant : ConnectionInvariant connection)
    (closed : connection.isOpen = false) : connection.closes = 1 := by
  rw [invariant.counted, closed]
  rfl

theorem ConnectionInvariant.moveHandler (invariant : ConnectionInvariant connection)
    {point : HandlerAt} (early : point.Early → connection.handler.Early)
    (done : point.Done → connection.isOpen = false)
    (gone : point = .returned → MonitorGone connection) :
    ConnectionInvariant { connection with handler := point } :=
  { counted := invariant.counted
    flagged := invariant.flagged
    early := fun isEarly => invariant.early (early isEarly)
    done := done
    gone := gone
    untouched := invariant.untouched }

theorem ConnectionInvariant.moveMonitor (invariant : ConnectionInvariant connection)
    {point : MonitorAt} (running : ¬ MonitorGone connection) :
    ConnectionInvariant { connection with monitor := point } :=
  { counted := invariant.counted
    flagged := invariant.flagged
    early := fun isEarly => absurd (Or.inl (invariant.early isEarly).2.2) running
    done := invariant.done
    gone := fun returned => absurd (invariant.gone returned) running
    untouched := invariant.untouched }

/-- A section that closes the descriptor while it is open, and clears the flag. -/
theorem ConnectionInvariant.closing (invariant : ConnectionInvariant connection)
    (isOpen : connection.isOpen = true) {point : HandlerAt} {monitor : MonitorAt}
    (late : ¬ point.Early)
    (gone : point = .returned → monitor = .absent ∨ monitor = .returned) :
    ConnectionInvariant
      { connection.close with
        connected := false
        handler := point
        monitor := monitor } := by
  have once : connection.closes + 1 = 1 := by
    rw [invariant.counted, isOpen]
    rfl
  exact
    { counted := once
      flagged := fun impossible => absurd impossible Bool.false_ne_true
      early := fun isEarly => absurd isEarly late
      done := fun _ => rfl
      gone := gone
      untouched := invariant.untouched }

theorem invariant_receive {result : Received} (invariant : ConnectionInvariant connection)
    (taken : receiveStep connection result = some next) : ConnectionInvariant next := by
  unfold receiveStep at taken
  cases at_ : connection.handler with
  | greeting =>
      have early := invariant.early (by rw [at_]; trivial)
      have gone : HandlerAt.returned = .returned →
          connection.monitor = .absent ∨ connection.monitor = .returned :=
        fun _ => Or.inl early.2.2
      have returned := invariant.closing early.1 id gone
      rw [← early.2.1] at returned
      rw [at_] at taken
      cases result with
      | status =>
          cases taken
          exact invariant.moveHandler (fun _ => by rw [at_]; trivial) False.elim nofun
      | null | other =>
          cases taken
          exact returned
  | receiving =>
      rw [at_] at taken
      cases result with
      | null | status | other =>
          cases taken
          exact invariant.moveHandler False.elim False.elim nofun
  | _ =>
      rw [at_] at taken
      cases taken

theorem invariant_handlerStep {action : ConnectionAction}
    (invariant : ConnectionInvariant connection) (orderly : Orderly connection action)
    (taken : handlerStep connection action = some next) : ConnectionInvariant next := by
  cases action with
  | startMonitor created =>
      obtain ⟨linked, rfl⟩ := of_guarded taken
      have early := invariant.early (by rw [linked]; trivial)
      exact
        { counted := invariant.counted
          flagged := fun _ => early.1
          early := False.elim
          done := False.elim
          gone := nofun
          untouched := invariant.untouched }
  | testConnected =>
      obtain ⟨_, rfl⟩ := of_guarded taken
      unfold testConnected
      split
      · exact invariant.moveHandler False.elim False.elim nofun
      · exact invariant.moveHandler False.elim False.elim nofun
  | breakOff =>
      obtain ⟨_, rfl⟩ := of_guarded taken
      exact invariant.closing orderly id nofun
  | unlink =>
      obtain ⟨_, rfl⟩ := of_guarded taken
      exact invariant.moveHandler False.elim False.elim nofun
  | hangUp =>
      obtain ⟨_, rfl⟩ := of_guarded taken
      unfold hangUp
      split
      · rename_i connected
        exact invariant.closing (invariant.flagged connected) id nofun
      · rename_i cleared
        exact invariant.moveHandler False.elim (fun _ => orderly (Bool.eq_false_iff.mpr cleared))
          nofun
  | free =>
      obtain ⟨freeing, rfl⟩ := of_guarded taken
      exact invariant.moveHandler False.elim
        (fun _ => invariant.done (by rw [freeing]; trivial)) (fun _ => orderly)
  | receive result | poll result | peek result => cases taken
  | monitorSection => cases taken

theorem invariant_monitorSection (invariant : ConnectionInvariant connection) (closing : Bool)
    (running : ¬ MonitorGone connection) :
    ConnectionInvariant (monitorSection connection closing) := by
  have notReturned : connection.handler ≠ .returned := fun returned =>
    running (invariant.gone returned)
  have late : ¬ connection.handler.Early := fun early =>
    running (Or.inl (invariant.early early).2.2)
  unfold monitorSection
  dsimp only
  rw [if_neg notReturned]
  split
  · rename_i connected
    have isOpen := invariant.flagged connected
    split
    · exact invariant.closing isOpen late fun _ => Or.inr rfl
    · exact
        { counted := invariant.counted
          flagged := fun impossible => absurd impossible Bool.false_ne_true
          early := fun early => absurd early late
          done := invariant.done
          gone := fun _ => Or.inr rfl
          untouched := invariant.untouched }
  · exact invariant.moveMonitor running

theorem invariant_monitorStep (action : ConnectionAction)
    (invariant : ConnectionInvariant connection)
    (taken : monitorStep connection action = some next) : ConnectionInvariant next := by
  have running_of {point : MonitorAt} (at_ : connection.monitor = point)
      (present : point ≠ .absent) (working : point ≠ .returned) : ¬ MonitorGone connection := by
    unfold MonitorGone
    rw [at_, not_or]
    exact ⟨present, working⟩
  cases action with
  | poll result =>
      obtain ⟨polling, moved⟩ := Option.ite_none_right_eq_some.mp taken
      have running := running_of polling nofun nofun
      cases result with
      | failed | hangUp | readable =>
          cases moved
          exact invariant.moveMonitor running
  | peek result =>
      obtain ⟨readable, moved⟩ := Option.ite_none_right_eq_some.mp taken
      have running := running_of readable nofun nofun
      cases result with
      | zero | failed | nothingNew =>
          cases moved
          exact invariant.moveMonitor running
  | monitorSection =>
      unfold monitorStep at taken
      cases at_ : connection.monitor with
      | broken =>
          rw [at_] at taken
          cases taken
          exact invariant_monitorSection invariant false (running_of at_ nofun nofun)
      | ended =>
          rw [at_] at taken
          cases taken
          exact invariant_monitorSection invariant true (running_of at_ nofun nofun)
      | _ =>
          rw [at_] at taken
          cases taken
  | _ => cases taken

theorem connectionInvariant_step (connection : Connection) (action : ConnectionAction)
    (next : Connection) (invariant : ConnectionInvariant connection)
    (orderly : Orderly connection action) (taken : connectionStep connection action = some next) :
    ConnectionInvariant next := by
  cases action with
  | receive result => exact invariant_receive invariant taken
  | poll result => exact invariant_monitorStep (.poll result) invariant taken
  | peek result => exact invariant_monitorStep (.peek result) invariant taken
  | monitorSection => exact invariant_monitorStep .monitorSection invariant taken
  | startMonitor created => exact invariant_handlerStep invariant orderly taken
  | testConnected | breakOff | unlink | hangUp | free =>
      exact invariant_handlerStep invariant orderly taken

end Steps

/-! ### Whole connections -/

theorem connectionInvariant_start : ConnectionInvariant connectionStart :=
  { counted := rfl
    flagged := nofun
    early := fun _ => ⟨rfl, rfl, rfl⟩
    done := False.elim
    gone := nofun
    untouched := rfl }

/-- In every orderly run the descriptor is closed exactly once by the time the handler
has returned, and the monitor does not use the frame of the handler afterwards. -/
theorem descriptor_closed_once (actions : List ConnectionAction) (reached : Connection)
    (orderly : Along connectionStep Orderly connectionStart actions)
    (ran : run connectionStep connectionStart actions = some reached) :
    (reached.handler = .returned → reached.closes = 1) ∧ reached.touchedFrame = false := by
  have invariant := invariant_run connectionInvariant_step connectionInvariant_start orderly ran
  refine ⟨fun returned => ?_, invariant.untouched⟩
  apply invariant.closes_of_closed
  apply invariant.done
  rw [returned]
  trivial

def endedByPeer : List ConnectionAction :=
  [.receive .status, .startMonitor true, .testConnected, .receive .null, .poll .readable,
    .peek .zero, .breakOff, .monitorSection, .unlink, .hangUp, .free]

def endedReached : Connection :=
  (run connectionStep connectionStart endedByPeer).get (by decide)

theorem descriptor_closed_once_endedByPeer :
    (endedReached.handler = .returned → endedReached.closes = 1) ∧
      endedReached.touchedFrame = false :=
  descriptor_closed_once endedByPeer endedReached (by decide) (Option.some_get _).symm

/-! ### Disorderly ends -/

/-- The peer closes: the monitor finds the end of the stream and closes, and the handler,
whose receive returned NULL, closes the number again. -/
def closedTwice : List ConnectionAction :=
  [.receive .status, .startMonitor true, .testConnected, .receive .null, .poll .readable,
    .peek .zero, .monitorSection, .breakOff, .unlink, .hangUp, .free]

/-- The monitor shuts down after a hang-up, and the handler finds `connected` cleared at
the top of its loop. -/
def neverClosed : List ConnectionAction :=
  [.receive .status, .startMonitor true, .poll .hangUp, .monitorSection, .testConnected,
    .unlink, .hangUp, .free]

/-- The handler returns on a message that is no status before the monitor has locked the
mutex in its frame. -/
def monitorTooLate : List ConnectionAction :=
  [.receive .status, .startMonitor true, .testConnected, .receive .other, .unlink, .hangUp,
    .poll .hangUp, .free, .monitorSection]

theorem descriptor_closed_twice :
    ¬ ∀ (actions : List ConnectionAction) (reached : Connection),
      run connectionStep connectionStart actions = some reached →
      (reached.handler = .returned → reached.closes = 1) ∧ reached.touchedFrame = false := by
  intro always
  have once := (always closedTwice
    ((run connectionStep connectionStart closedTwice).get (by decide))
    (Option.some_get _).symm).1 (by decide)
  exact absurd once (by decide)

example : (run connectionStep connectionStart neverClosed).map Connection.closes = some 0 := by
  decide

example :
    (run connectionStep connectionStart monitorTooLate).map Connection.touchedFrame =
      some true := by
  decide

end Cab403.Elevator.ConnectionEnd
