/-
The loop of safety.c around its check pass, interleaved with the critical
sections of other programs: lock, change, broadcast, unlock. The monitor gives
the mutex up between a pass and the next wait, and a broadcast made there wakes
nobody.
-/

import Cab403.Elevator.Floors
import Cab403.Library.ActionRuns
import Cab403.Elevator.SafetyMonitor

namespace Cab403.Elevator.Safety

open CText ActionRuns

inductive MonitorAt where
  | unlocked
  | locked
  /-- In `pthread_cond_wait`, the mutex released; `woken` once a broadcast reached it. -/
  | waiting (woken : Bool)
  | checking
  | checked
  deriving DecidableEq, Repr

/-- The monitor owns the mutex before the wait and from its return to the unlock. -/
def MonitorAt.holds : MonitorAt → Bool
  | .locked | .checking | .checked => true
  | .unlocked | .waiting _ => false

def MonitorAt.waits : MonitorAt → Bool
  | .waiting _ => true
  | .unlocked | .locked | .checking | .checked => false

inductive Writer where
  | changing
  | announced
  deriving DecidableEq, Repr

structure MonitorState where
  shm : CarSharedMem
  monitor : MonitorAt
  writer : Option Writer
  deriving DecidableEq

inductive MonitorAction where
  | monitorLock
  | monitorWait
  | monitorWake
  | monitorSpurious
  | monitorCheck
  | monitorUnlock
  | writerLock
  | writerChange (shm : CarSharedMem)
  | writerBroadcast
  | writerUnlock
  deriving DecidableEq

def MonitorAt.wakeUp : MonitorAt → MonitorAt
  | .waiting _ => .waiting true
  | other => other

def monitorStep (state : MonitorState) : MonitorAction → Option MonitorState
  | .monitorLock =>
      if state.monitor = .unlocked ∧ state.writer = none then
        some { state with monitor := .locked }
      else none
  | .monitorWait =>
      if state.monitor = .locked then some { state with monitor := .waiting false } else none
  | .monitorWake =>
      if state.monitor = .waiting true ∧ state.writer = none then
        some { state with monitor := .checking }
      else none
  | .monitorSpurious =>
      if state.monitor = .waiting false ∧ state.writer = none then
        some { state with monitor := .checking }
      else none
  | .monitorCheck =>
      if state.monitor = .checking then
        some { state with shm := (monitorPass state.shm).shm, monitor := .checked }
      else none
  | .monitorUnlock =>
      if state.monitor = .checked then some { state with monitor := .unlocked } else none
  | .writerLock =>
      if state.monitor.holds = false ∧ state.writer = none then
        some { state with writer := some .changing }
      else none
  | .writerChange shm =>
      if state.writer = some .changing then some { state with shm := shm } else none
  | .writerBroadcast =>
      if state.writer = some .changing then
        some { state with monitor := state.monitor.wakeUp, writer := some .announced }
      else none
  | .writerUnlock =>
      if state.writer = some .announced then some { state with writer := none } else none

def monitorStart (shm : CarSharedMem) : MonitorState :=
  { shm := shm
    monitor := .unlocked
    writer := none }

/-- Blocked in the wait with no wake-up pending and the mutex free, the monitor
has missed nothing. -/
def NothingMissed (state : MonitorState) : Prop :=
  state.monitor = .waiting false → state.writer = none → FlaggedOrSafe state.shm

/-- A broadcast reaches the monitor in its wait, or announces memory that needs
no flag. -/
def HeardOrHarmless (state : MonitorState) : MonitorAction → Prop
  | .writerBroadcast => state.monitor.waits = true ∨ FlaggedOrSafe state.shm
  | _ => True

instance (state : MonitorState) (action : MonitorAction) :
    Decidable (HeardOrHarmless state action) := by
  cases action <;> unfold HeardOrHarmless <;> infer_instance

/-- Between passes the memory stays flagged or safe until a broadcast is heard. -/
structure MonitorInvariant (state : MonitorState) : Prop where
  exclusive : state.writer ≠ none → state.monitor.holds = false
  guarded : state.writer ≠ some .changing → state.monitor ≠ .waiting true →
    state.monitor ≠ .checking → FlaggedOrSafe state.shm

theorem monitorInvariant_step (state : MonitorState) (action : MonitorAction)
    (next : MonitorState) (invariant : MonitorInvariant state)
    (heard : HeardOrHarmless state action) (taken : monitorStep state action = some next) :
    MonitorInvariant next := by
  obtain ⟨exclusive, guarded⟩ := invariant
  cases action with
  | monitorLock =>
      obtain ⟨⟨unlocked, free⟩, rfl⟩ := of_guarded taken
      exact ⟨fun busy => absurd free busy, fun idle _ _ => guarded idle (by simp [unlocked])
        (by simp [unlocked])⟩
  | monitorWait =>
      obtain ⟨locked, rfl⟩ := of_guarded taken
      refine ⟨fun busy => rfl, fun idle _ _ => guarded idle ?_ ?_⟩
      · simp [locked]
      · simp [locked]
  | monitorWake =>
      obtain ⟨⟨_, free⟩, rfl⟩ := of_guarded taken
      exact ⟨fun busy => absurd free busy, fun _ _ notChecking => absurd rfl notChecking⟩
  | monitorSpurious =>
      obtain ⟨⟨_, free⟩, rfl⟩ := of_guarded taken
      exact ⟨fun busy => absurd free busy, fun _ _ notChecking => absurd rfl notChecking⟩
  | monitorCheck =>
      obtain ⟨checking, rfl⟩ := of_guarded taken
      refine ⟨fun busy => ?_, fun _ _ _ => monitorPass_flaggedOrSafe state.shm⟩
      have free := exclusive busy
      simp [checking, MonitorAt.holds] at free
  | monitorUnlock =>
      obtain ⟨checked, rfl⟩ := of_guarded taken
      exact ⟨fun _ => rfl, fun idle _ _ => guarded idle (by simp [checked]) (by simp [checked])⟩
  | writerLock =>
      obtain ⟨⟨free, _⟩, rfl⟩ := of_guarded taken
      exact ⟨fun _ => free, fun idle => absurd rfl idle⟩
  | writerChange shm =>
      obtain ⟨changing, rfl⟩ := of_guarded taken
      exact ⟨exclusive, fun idle => absurd changing idle⟩
  | writerBroadcast =>
      obtain ⟨changing, rfl⟩ := of_guarded taken
      have free := exclusive (by simp [changing])
      rcases heard with waits | harmless
      · have woken : state.monitor.wakeUp = .waiting true := by
          cases at_ : state.monitor <;> simp_all [MonitorAt.waits, MonitorAt.wakeUp]
        exact ⟨fun _ => by simp [woken, MonitorAt.holds], fun _ notWoken => absurd woken notWoken⟩
      · refine ⟨fun _ => ?_, fun _ _ _ => harmless⟩
        revert free
        cases state.monitor <;> simp [MonitorAt.wakeUp, MonitorAt.holds]
  | writerUnlock =>
      obtain ⟨announced, rfl⟩ := of_guarded taken
      refine ⟨fun busy => absurd rfl busy, fun _ => guarded ?_⟩
      simp [announced]

/-- In every run whose broadcasts are heard or harmless the monitor misses nothing. -/
theorem monitor_misses_nothing (start : CarSharedMem) (actions : List MonitorAction)
    (final : MonitorState) (safe : FlaggedOrSafe start)
    (heard : Along monitorStep HeardOrHarmless (monitorStart start) actions)
    (ran : run monitorStep (monitorStart start) actions = some final) : NothingMissed final := by
  have initial : MonitorInvariant (monitorStart start) :=
    ⟨fun busy => absurd rfl busy, fun _ _ _ => safe⟩
  have reached := invariant_run monitorInvariant_step initial heard ran
  intro waiting free
  refine reached.guarded ?_ ?_ ?_
  · simp [free]
  · simp [waiting]
  · simp [waiting]

/-! ### The window between a pass and the next wait -/

/-- A press that the monitor hears, then a stop announced in the window. -/
def stopInWindow (quiet : CarSharedMem) : List MonitorAction :=
  [.monitorLock, .monitorWait,
    .writerLock, .writerChange { quiet with openButton := 1 }, .writerBroadcast, .writerUnlock,
    .monitorWake, .monitorCheck, .monitorUnlock,
    .writerLock, .writerChange { quiet with emergencyStop := 1 }, .writerBroadcast, .writerUnlock,
    .monitorLock, .monitorWait]

theorem monitor_misses_stopInWindow :
    ¬ ∀ (start : CarSharedMem) (actions : List MonitorAction) (final : MonitorState),
      FlaggedOrSafe start → run monitorStep (monitorStart start) actions = some final →
        NothingMissed final := by
  intro never
  have missed := never (resetShm (digitFloor 1).chars)
    (stopInWindow (resetShm (digitFloor 1).chars))
    { shm := { resetShm (digitFloor 1).chars with emergencyStop := 1 }
      monitor := .waiting false
      writer := none }
    (by decide) (by decide)
  exact absurd (missed rfl rfl) (by decide)

theorem monitor_misses_nothing_heard :
    NothingMissed
      { shm := { resetShm (digitFloor 1).chars with
          emergencyStop := 1, emergencyMode := 1 }
        monitor := .waiting false
        writer := none } :=
  monitor_misses_nothing (resetShm (digitFloor 1).chars)
    [.monitorLock, .monitorWait, .writerLock,
      .writerChange { resetShm (digitFloor 1).chars with emergencyStop := 1 },
      .writerBroadcast, .writerUnlock, .monitorWake, .monitorCheck, .monitorUnlock,
      .monitorLock, .monitorWait]
    _ (by decide) (by decide) (by decide)

end Cab403.Elevator.Safety
