/-
The pipe between `elevator_loop` and the connection thread of car.c. The loop holds
the mutex of the shared memory except in `pthread_cond_timedwait`, so a write to a
full pipe blocks it with the mutex held. Only the connection thread reads the pipe,
one byte after a `poll`, and it locks the mutex before every `poll`.
-/

import Cab403.Elevator.CarProcess

namespace Cab403.Elevator.NotifyPipe

open Cab403.Elevator CText ActionRuns

/-! ### The loop against the other threads and processes -/

inductive LoopAt where
  /-- Before `pthread_mutex_lock`. -/
  | locking
  /-- In `pthread_cond_timedwait`, without the mutex. -/
  | waiting
  /-- With the mutex, and `left` calls of `notify_status_change` still to make. -/
  | writing (left : Nat)
  deriving DecidableEq, Repr

/-- The car with its surroundings; `system.car.notify` counts the bytes in the pipe. -/
structure PipeSystem where
  system : CarSystem
  loop : LoopAt
  deriving DecidableEq

inductive PipeAction where
  | lock
  | wait
  /-- `clock_gettime` finds the timeout in the past: no wait, the mutex is kept. -/
  | expire
  | wake (ret : WaitResult)
  /-- One `write` of `notify_status_change`. -/
  | write
  | other (action : CarAction)
  deriving DecidableEq

def IsLoop : CarAction → Prop
  | .loop _ => True
  | _ => False

instance : DecidablePred IsLoop := fun action => by
  cases action <;> unfold IsLoop <;> infer_instance

def TakesMutex : CarAction → Prop
  | .connectionTop | .operate _ | .sensors _ _ | .monitor => True
  | _ => False

instance : DecidablePred TakesMutex := fun action => by
  cases action <;> unfold TakesMutex <;> infer_instance

namespace PipeSystem

def start (lowestFloor : CharArray 4) : PipeSystem :=
  { system := CarSystem.start lowestFloor
    loop := .locking }

def connection (state : PipeSystem) : ConnectionAt := state.system.car.connection

def notify (state : PipeSystem) : Nat := state.system.car.notify

def shm (state : PipeSystem) : CarSharedMem := state.system.car.shm

def Runs (state : PipeSystem) : Prop := state.connection ≠ .exited

def MutexFree (state : PipeSystem) : Prop :=
  state.loop = .locking ∨ state.loop = .waiting

instance (state : PipeSystem) : Decidable state.Runs := inferInstanceAs (Decidable (_ ≠ _))

instance (state : PipeSystem) : Decidable state.MutexFree :=
  inferInstanceAs (Decidable (_ ∨ _))

/-- The stores of an iteration; its announcements are still to be written. -/
def iterate (ret : WaitResult) (state : PipeSystem) : PipeSystem :=
  let it := elevatorLoop ret state.shm
  { system := { state.system with car := { state.system.car with shm := it.shm, wake := false } }
    loop := .writing (it.effects.count .notify) }

def writeByte (left : Nat) (state : PipeSystem) : PipeSystem :=
  { system := { state.system with car := { state.system.car with notify := state.notify + 1 } }
    loop := .writing left }

end PipeSystem

def pipeStep (capacity : Nat) (state : PipeSystem) : PipeAction → Option PipeSystem
  | .lock =>
      if state.Runs ∧ state.loop = .locking then some { state with loop := .writing 0 } else none
  | .wait =>
      if state.Runs ∧ state.loop = .writing 0 then some { state with loop := .waiting } else none
  | .expire =>
      if state.Runs ∧ state.loop = .writing 0 then some (state.iterate .timedOut) else none
  | .wake ret =>
      if state.Runs ∧ state.loop = .waiting then some (state.iterate ret) else none
  | .write =>
      match state.loop with
      | .writing (left + 1) =>
          if state.Runs ∧ state.notify < capacity then some (state.writeByte left) else none
      | _ => none
  | .other action =>
      if ¬ IsLoop action ∧ (TakesMutex action → state.MutexFree) then
        (carStep state.system action).map fun system => { state with system := system }
      else none

/-! ### The steps -/

variable {capacity : Nat}

theorem pipeStep_write {state next : PipeSystem}
    (taken : pipeStep capacity state .write = some next) :
    ∃ left, state.loop = .writing (left + 1) ∧ state.Runs ∧ state.notify < capacity ∧
      next = state.writeByte left := by
  simp only [pipeStep] at taken
  split at taken
  · rename_i left writing
    obtain ⟨⟨runs, room⟩, same⟩ := of_guarded taken
    exact ⟨left, writing, runs, room, same.symm⟩
  · cases taken

theorem pipeStep_other {state next : PipeSystem} {action : CarAction}
    (taken : pipeStep capacity state (.other action) = some next) :
    ¬ IsLoop action ∧ (TakesMutex action → state.MutexFree) ∧
      ∃ system, carStep state.system action = some system ∧
        next = { state with system := system } := by
  simp only [pipeStep] at taken
  obtain ⟨⟨notLoop, free⟩, mapped⟩ := Option.ite_none_right_eq_some.mp taken
  obtain ⟨system, stepped, same⟩ := Option.map_eq_some_iff.mp mapped
  exact ⟨notLoop, free, system, stepped, same.symm⟩

/-! ### Who reads the pipe -/

/-- The connection thread is between its `poll` and the byte it may read after it. -/
def Reads : ConnectionAt → Prop
  | .polling | .socket true | .pipe => True
  | _ => False

instance : DecidablePred Reads
  | .polling | .socket true | .pipe => isTrue trivial
  | .outside | .greeting | .report | .top | .socket false | .farewell _ | .exited => isFalse id

/-- The bytes the connection thread can still read before its next look at the modes. -/
def readable (point : ConnectionAt) : Nat := if Reads point then 1 else 0

@[simp] theorem readable_of_reads {point : ConnectionAt} (reads : Reads point) :
    readable point = 1 :=
  if_pos reads

@[simp] theorem readable_of_not_reads {point : ConnectionAt} (reads : ¬ Reads point) :
    readable point = 0 :=
  if_neg reads

theorem readable_le (point : ConnectionAt) : readable point ≤ 1 := by
  unfold readable
  split <;> omega

def OutOfService (shm : CarSharedMem) : Prop :=
  shm.emergencyMode = 1 ∨ shm.individualServiceMode = 1

instance (shm : CarSharedMem) : Decidable (OutOfService shm) := inferInstanceAs (Decidable (_ ∨ _))

theorem applyPending_modes (car : CarProcess) :
    car.applyPending.shm.emergencyMode = car.shm.emergencyMode ∧
      car.applyPending.shm.individualServiceMode = car.shm.individualServiceMode ∧
      car.applyPending.notify = car.notify := by
  unfold CarProcess.applyPending
  split <;> exact ⟨rfl, rfl, rfl⟩

/-- Out of service the connection thread says goodbye before it polls. -/
theorem connectionTop_outOfService {car : CarProcess} (closed : OutOfService car.shm) :
    ¬ Reads car.connectionTop.connection := by
  obtain ⟨emergency, service, _⟩ := applyPending_modes car
  unfold CarProcess.connectionTop
  dsimp only
  rw [emergency, service]
  cases closed with
  | inl emergencyMode =>
      rw [if_pos emergencyMode]
      exact id
  | inr serviceMode =>
      split
      · exact id
      · exact id

theorem connectionTop_notify (car : CarProcess) : car.connectionTop.notify = car.notify := by
  rw [CarProcess.connectionTop_eq]
  exact (applyPending_modes car).2.2

theorem not_reads_afterSend {point : ConnectionAt} (due : CarProcess.afterSend point ≠ point) :
    ¬ Reads (CarProcess.afterSend point) := by
  cases point <;> first | exact id | exact absurd rfl due

/-- A step of the connection thread takes at most the one byte it was on its way to read,
and a new `poll` is reached through the modes only. -/
theorem carStep_readable {state next : CarSystem} {action : CarAction} (notLoop : ¬ IsLoop action)
    (modes : action = .connectionTop → OutOfService state.car.shm)
    (taken : carStep state action = some next) :
    state.car.notify + readable next.car.connection ≤
        next.car.notify + readable state.car.connection ∧
      next.car.notify ≤ state.car.notify := by
  cases action with
  | loop ret => exact absurd trivial notLoop
  | connect =>
      obtain ⟨outside, rfl⟩ := of_guarded taken
      simp [readable, Reads]
  | disconnect =>
      obtain ⟨_, rfl⟩ := of_guarded taken
      simp [readable, Reads]
  | connectionTop =>
      obtain ⟨atTop, rfl⟩ := of_guarded taken
      dsimp only
      rw [readable_of_not_reads (connectionTop_outOfService (modes rfl)), connectionTop_notify]
      omega
  | pollTimeout =>
      obtain ⟨_, rfl⟩ := of_guarded taken
      simp [readable, Reads]
  | pollReady socket =>
      obtain ⟨⟨polling, _⟩, rfl⟩ := of_guarded taken
      have before : readable state.car.connection = 1 := by
        rw [polling]
        rfl
      have after := readable_le (state.car.pollReady socket).connection
      rw [before]
      exact ⟨Nat.add_le_add_left after _, Nat.le_refl _⟩
  | receive =>
      obtain ⟨pipe, message, later, place, _, rfl⟩ := carStep_receive taken
      rw [place]
      cases pipe <;> exact ⟨Nat.le_refl _, Nat.le_refl _⟩
  | readNotify =>
      obtain ⟨⟨pipe, _⟩, rfl⟩ := of_guarded taken
      rw [pipe]
      have read : readable .pipe = 1 := rfl
      have reported : readable .report = 0 := rfl
      simp only [CarProcess.readNotify, read, reported]
      omega
  | send delivered =>
      obtain ⟨due, rfl⟩ := of_guarded taken
      dsimp only
      have sent : ¬ Reads (if delivered then CarProcess.afterSend state.car.connection
          else .exited) := by
        split
        · exact not_reads_afterSend due
        · exact id
      rw [readable_of_not_reads sent]
      omega
  | deliver message =>
      obtain ⟨_, rfl⟩ := of_guarded taken
      exact ⟨Nat.le_refl _, Nat.le_refl _⟩
  | operate operation =>
      obtain ⟨shm, _, rfl⟩ | ⟨_, rfl⟩ := carStep_operate taken
      · exact ⟨Nat.le_refl _, Nat.le_refl _⟩
      · exact ⟨Nat.le_refl _, Nat.le_refl _⟩
  | sensors doorObstruction overload =>
      cases taken
      exact ⟨Nat.le_refl _, Nat.le_refl _⟩
  | monitor =>
      cases taken
      exact ⟨Nat.le_refl _, Nat.le_refl _⟩

/-- Without the mutex nobody but the loop stores into the shared memory. -/
theorem carStep_shm {state next : CarSystem} {action : CarAction} (notLoop : ¬ IsLoop action)
    (unlocked : ¬ TakesMutex action) (taken : carStep state action = some next) :
    next.car.shm = state.car.shm := by
  cases action with
  | loop ret => exact absurd trivial notLoop
  | connectionTop => exact absurd trivial unlocked
  | operate operation => exact absurd trivial unlocked
  | sensors doorObstruction overload => exact absurd trivial unlocked
  | monitor => exact absurd trivial unlocked
  | receive =>
      obtain ⟨pipe, message, later, _, _, rfl⟩ := carStep_receive taken
      rfl
  | connect => obtain ⟨_, rfl⟩ := of_guarded taken; rfl
  | disconnect => obtain ⟨_, rfl⟩ := of_guarded taken; rfl
  | pollTimeout => obtain ⟨_, rfl⟩ := of_guarded taken; rfl
  | pollReady socket => obtain ⟨_, rfl⟩ := of_guarded taken; rfl
  | readNotify => obtain ⟨_, rfl⟩ := of_guarded taken; rfl
  | send delivered => obtain ⟨_, rfl⟩ := of_guarded taken; rfl
  | deliver message => obtain ⟨_, rfl⟩ := of_guarded taken; rfl

/-! ### The pipe over a run -/

theorem notify_le_step {state next : PipeSystem} {action : PipeAction}
    (within : state.notify ≤ capacity) (taken : pipeStep capacity state action = some next) :
    next.notify ≤ capacity := by
  cases action with
  | lock => obtain ⟨_, rfl⟩ := of_guarded taken; exact within
  | wait => obtain ⟨_, rfl⟩ := of_guarded taken; exact within
  | expire => obtain ⟨_, rfl⟩ := of_guarded taken; exact within
  | wake ret => obtain ⟨_, rfl⟩ := of_guarded taken; exact within
  | write =>
      obtain ⟨left, _, _, room, rfl⟩ := pipeStep_write taken
      exact room
  | other action =>
      obtain ⟨notLoop, _, system, stepped, rfl⟩ := pipeStep_other taken
      by_cases top : action = .connectionTop
      · subst top
        obtain ⟨_, rfl⟩ := of_guarded stepped
        exact (connectionTop_notify _).trans_le within
      · exact (carStep_readable notLoop (fun same => absurd same top) stepped).2.trans within

theorem notify_le_run {lowestFloor : CharArray 4} {actions : List PipeAction}
    {state : PipeSystem}
    (ran : run (pipeStep capacity) (PipeSystem.start lowestFloor) actions = some state) :
    state.notify ≤ capacity := by
  have empty : (PipeSystem.start lowestFloor).notify ≤ capacity := Nat.zero_le capacity
  exact invariant_run_always (fun _ _ _ => notify_le_step) empty ran

/-- A `write` of the loop can return: there is room, or a byte is on its way out. -/
def Drains (capacity : Nat) (state : PipeSystem) : Prop :=
  state.Runs ∧ (state.notify < capacity ∨ Reads state.connection)

instance (state : PipeSystem) : Decidable (Drains capacity state) :=
  inferInstanceAs (Decidable (_ ∧ _))

def Away (point : ConnectionAt) : Prop := point = .outside ∨ point = .exited

theorem Away.ne {point other : ConnectionAt} (away : Away point) (notOutside : other ≠ .outside)
    (notExited : other ≠ .exited) : point ≠ other := by
  rintro rfl
  exact away.elim notOutside notExited

/-- Only a new connection brings the thread back. -/
theorem carStep_away {state next : CarSystem} {action : CarAction}
    (away : Away state.car.connection)
    (unconnected : action = .connect → state.car.connection ≠ .outside)
    (taken : carStep state action = some next) :
    next.car.connection = state.car.connection ∧ action ≠ .connectionTop := by
  cases action with
  | loop ret => obtain ⟨_, rfl⟩ := of_guarded taken; exact ⟨rfl, nofun⟩
  | connect => obtain ⟨outside, _⟩ := of_guarded taken; exact absurd outside (unconnected rfl)
  | disconnect =>
      obtain ⟨gives, _⟩ := of_guarded taken
      cases away with
      | inl outside => rw [outside] at gives; exact gives.elim
      | inr exited => rw [exited] at gives; exact gives.elim
  | connectionTop => obtain ⟨top, _⟩ := of_guarded taken; exact absurd top (away.ne nofun nofun)
  | pollTimeout =>
      obtain ⟨polling, _⟩ := of_guarded taken
      exact absurd polling (away.ne nofun nofun)
  | pollReady socket =>
      obtain ⟨⟨polling, _⟩, _⟩ := of_guarded taken
      exact absurd polling (away.ne nofun nofun)
  | receive =>
      obtain ⟨pipe, _, _, place, _⟩ := carStep_receive taken
      exact absurd place (away.ne nofun nofun)
  | readNotify =>
      obtain ⟨⟨pipe, _⟩, _⟩ := of_guarded taken
      exact absurd pipe (away.ne nofun nofun)
  | send delivered =>
      obtain ⟨due, _⟩ := of_guarded taken
      unfold CarProcess.SendDue at due
      cases away with
      | inl outside => rw [outside] at due; exact absurd rfl due
      | inr exited => rw [exited] at due; exact absurd rfl due
  | deliver message => obtain ⟨_, rfl⟩ := of_guarded taken; exact ⟨rfl, nofun⟩
  | operate operation =>
      obtain ⟨shm, _, rfl⟩ | ⟨_, rfl⟩ := carStep_operate taken
      · exact ⟨rfl, nofun⟩
      · exact ⟨rfl, nofun⟩
  | sensors doorObstruction overload => cases taken; exact ⟨rfl, nofun⟩
  | monitor => cases taken; exact ⟨rfl, nofun⟩

structure Stuck (capacity : Nat) (blocked state : PipeSystem) : Prop where
  loop : state.loop = blocked.loop
  shm : state.shm = blocked.shm
  undrained : ¬ Drains capacity state

theorem Stuck.step {blocked state next : PipeSystem} {left : Nat} {action : PipeAction}
    (writing : blocked.loop = .writing (left + 1)) (stuck : Stuck capacity blocked state)
    (taken : pipeStep capacity state action = some next) : Stuck capacity blocked next := by
  have here := stuck.loop.trans writing
  cases action with
  | lock =>
      obtain ⟨⟨_, locking⟩, _⟩ := of_guarded taken
      cases here.symm.trans locking
  | wait =>
      obtain ⟨⟨_, done⟩, _⟩ := of_guarded taken
      cases here.symm.trans done
  | expire =>
      obtain ⟨⟨_, done⟩, _⟩ := of_guarded taken
      cases here.symm.trans done
  | wake ret =>
      obtain ⟨⟨_, waiting⟩, _⟩ := of_guarded taken
      cases here.symm.trans waiting
  | write =>
      obtain ⟨_, _, runs, room, _⟩ := pipeStep_write taken
      exact absurd ⟨runs, Or.inl room⟩ stuck.undrained
  | other action =>
      obtain ⟨notLoop, free, system, stepped, rfl⟩ := pipeStep_other taken
      have unlocked : ¬ TakesMutex action := by
        intro takes
        cases free takes with
        | inl locking => cases here.symm.trans locking
        | inr waiting => cases here.symm.trans waiting
      refine ⟨stuck.loop, (carStep_shm notLoop unlocked stepped).trans stuck.shm, ?_⟩
      rintro ⟨runs, drains⟩
      have ran : state.Runs := by
        intro exited
        have away : Away state.system.car.connection := Or.inr exited
        have notOutside : state.system.car.connection ≠ .outside := by
          intro outside
          cases outside.symm.trans exited
        exact runs ((carStep_away away (fun _ => notOutside) stepped).1.trans exited)
      have unread : ¬ Reads state.connection := by
        intro reads
        exact stuck.undrained ⟨ran, Or.inr reads⟩
      have full : ¬ state.notify < capacity := by
        intro room
        exact stuck.undrained ⟨ran, Or.inl room⟩
      have top : action = .connectionTop → OutOfService state.shm := by
        rintro rfl
        exact absurd trivial unlocked
      have bytes : state.notify + readable system.car.connection ≤
          system.car.notify + readable state.connection :=
        (carStep_readable notLoop top stepped).1
      have fewer : system.car.notify ≤ state.notify := (carStep_readable notLoop top stepped).2
      rw [readable_of_not_reads unread] at bytes
      cases drains with
      | inl room =>
          have below : system.car.notify < capacity := room
          omega
      | inr reads =>
          have one : readable system.car.connection = 1 := readable_of_reads reads
          omega

theorem Stuck.refuses {blocked state : PipeSystem} {left : Nat} {action : CarAction}
    (writing : blocked.loop = .writing (left + 1)) (stuck : Stuck capacity blocked state)
    (takes : TakesMutex action) : pipeStep capacity state (.other action) = none := by
  apply if_neg
  rintro ⟨_, free⟩
  have here := stuck.loop.trans writing
  cases free takes with
  | inl locking => cases here.symm.trans locking
  | inr waiting => cases here.symm.trans waiting

def Writes (capacity : Nat) (state : PipeSystem) : Prop :=
  ∃ later final, run (pipeStep capacity) state (later ++ [.write]) = some final

theorem Writes.of_step {state next : PipeSystem} {action : PipeAction}
    (taken : pipeStep capacity state action = some next) (writes : Writes capacity next) :
    Writes capacity state := by
  obtain ⟨later, final, ran⟩ := writes
  exact ⟨action :: later, final, run_cons_eq_some.mpr ⟨next, taken, ran⟩⟩

theorem writes_of_room {state : PipeSystem} {left : Nat}
    (writing : state.loop = .writing (left + 1)) (runs : state.Runs)
    (room : state.notify < capacity) : Writes capacity state := by
  refine ⟨[], state.writeByte left, ?_⟩
  apply run_cons_eq_some.mpr
  refine ⟨state.writeByte left, ?_, rfl⟩
  simp only [pipeStep, writing]
  exact if_pos ⟨runs, room⟩

theorem writes_of_pipe {state : PipeSystem} {left : Nat}
    (writing : state.loop = .writing (left + 1)) (atPipe : state.connection = .pipe)
    (holds : 0 < state.notify) (within : state.notify ≤ capacity) : Writes capacity state := by
  let next : PipeSystem :=
    { state with system := { state.system with car := state.system.car.readNotify } }
  have taken : pipeStep capacity state (.other .readNotify) = some next := by
    have read : carStep state.system .readNotify =
        some { state.system with car := state.system.car.readNotify } :=
      if_pos ⟨atPipe, holds⟩
    simp only [pipeStep, read]
    exact if_pos ⟨id, False.elim⟩
  have runs : next.Runs := by
    intro exited
    cases exited
  have room : next.notify < capacity := by
    have fewer : next.notify = state.notify - 1 := rfl
    omega
  exact Writes.of_step taken (writes_of_room writing runs room)

/-- With a message in the inbox the connection thread goes on from the socket to the pipe. -/
theorem writes_of_message {state : PipeSystem} {left : Nat}
    (writing : state.loop = .writing (left + 1)) (atSocket : state.connection = .socket true)
    (holds : 0 < state.notify) (within : state.notify ≤ capacity)
    (arrived : state.system.inbox ≠ []) : Writes capacity state := by
  obtain ⟨message, later, inbox⟩ := List.exists_cons_of_ne_nil arrived
  let next : PipeSystem :=
    { state with
      system :=
        { car := state.system.car.receiveMessage message.text true
          inbox := later } }
  have taken : pipeStep capacity state (.other .receive) = some next := by
    have place : state.system.car.connection = .socket true := atSocket
    simp only [pipeStep, carStep, place, inbox]
    exact if_pos ⟨id, False.elim⟩
  have atPipe : next.connection = .pipe := rfl
  exact Writes.of_step taken (writes_of_pipe writing atPipe holds within)

theorem writes_of_socket {state : PipeSystem} {left : Nat}
    (writing : state.loop = .writing (left + 1)) (atSocket : state.connection = .socket true)
    (holds : 0 < state.notify) (within : state.notify ≤ capacity) : Writes capacity state := by
  let message : CString := { text := [], noNul := List.not_mem_nil }
  let next : PipeSystem :=
    { state with system := { state.system with inbox := state.system.inbox ++ [message] } }
  have taken : pipeStep capacity state (.other (.deliver message)) = some next := by
    have place : state.system.car.connection = .socket true := atSocket
    have delivered : carStep state.system (.deliver message) =
        some { state.system with inbox := state.system.inbox ++ [message] } := by
      apply if_pos
      rw [place]
      decide
    simp only [pipeStep, delivered]
    exact if_pos ⟨id, False.elim⟩
  have arrived : next.system.inbox ≠ [] :=
    List.append_ne_nil_of_right_ne_nil _ (List.cons_ne_nil _ _)
  exact Writes.of_step taken (writes_of_message writing atSocket holds within arrived)

theorem writes_of_polling {state : PipeSystem} {left : Nat}
    (writing : state.loop = .writing (left + 1)) (polling : state.connection = .polling)
    (holds : 0 < state.notify) (within : state.notify ≤ capacity) : Writes capacity state := by
  let next : PipeSystem :=
    { state with system := { state.system with car := state.system.car.pollReady false } }
  have taken : pipeStep capacity state (.other (.pollReady false)) = some next := by
    have polled : carStep state.system (.pollReady false) =
        some { state.system with car := state.system.car.pollReady false } :=
      if_pos ⟨polling, Or.inr holds⟩
    simp only [pipeStep, polled]
    exact if_pos ⟨id, False.elim⟩
  have atPipe : next.connection = .pipe := rfl
  exact Writes.of_step taken (writes_of_pipe writing atPipe holds within)

theorem Drains.writes {state : PipeSystem} {left : Nat}
    (writing : state.loop = .writing (left + 1)) (room : 0 < capacity)
    (within : state.notify ≤ capacity) (drains : Drains capacity state) :
    Writes capacity state := by
  by_cases fits : state.notify < capacity
  · exact writes_of_room writing drains.1 fits
  · have holds : 0 < state.notify := by omega
    have reads := drains.2.resolve_left fits
    cases place : state.connection with
    | polling => exact writes_of_polling writing place holds within
    | pipe => exact writes_of_pipe writing place holds within
    | socket pipe =>
        rw [place] at reads
        cases pipe with
        | true => exact writes_of_socket writing place holds within
        | false => exact reads.elim
    | _ =>
        rw [place] at reads
        exact reads.elim

/-- In a reachable state with an announcement to write, the write can return exactly if
the pipe has room or the connection thread is on its way to read a byte. Otherwise the
whole system stands still: the shared memory keeps its contents and its mutex is never
released, so the safety monitor, the service tool and the connection thread wait for good. -/
theorem announcement_written_iff (room : 0 < capacity) {lowestFloor : CharArray 4}
    {actions : List PipeAction} {state : PipeSystem} {left : Nat}
    (reached : run (pipeStep capacity) (PipeSystem.start lowestFloor) actions = some state)
    (writing : state.loop = .writing (left + 1)) :
    (Writes capacity state ↔ Drains capacity state) ∧
      (¬ Drains capacity state → ∀ later final,
        run (pipeStep capacity) state later = some final →
          final.loop = state.loop ∧ final.shm = state.shm ∧
            ∀ action, TakesMutex action → pipeStep capacity final (.other action) = none) := by
  have stays : ¬ Drains capacity state → ∀ later final,
      run (pipeStep capacity) state later = some final → Stuck capacity state final := by
    intro undrained later final ran
    have initial : Stuck capacity state state :=
      { loop := rfl
        shm := rfl
        undrained := undrained }
    exact invariant_run_always (fun _ _ _ => Stuck.step writing) initial ran
  constructor
  · constructor
    · rintro ⟨later, final, ran⟩
      obtain ⟨midway, before, last⟩ := run_append_eq_some.mp ran
      obtain ⟨next, taken, _⟩ := run_cons_eq_some.mp last
      obtain ⟨_, _, runs, fits, _⟩ := pipeStep_write taken
      by_contra undrained
      exact (stays undrained later midway before).undrained ⟨runs, Or.inl fits⟩
    · exact Drains.writes writing room (notify_le_run reached)
  · intro undrained later final ran
    have stuck := stays undrained later final ran
    exact ⟨stuck.loop, stuck.shm, fun action => stuck.refuses writing⟩

def fullTrace : List PipeAction :=
  [.lock, .wait, .wake .broadcast, .write, .wait, .wake .timedOut]

def pipeFull : PipeSystem :=
  (run (pipeStep 1) (PipeSystem.start (digitFloor 1).chars) fullTrace).get (by decide +kernel)

theorem announcement_written_iff_fullTrace :
    (Writes 1 pipeFull ↔ Drains 1 pipeFull) ∧
      (¬ Drains 1 pipeFull → ∀ later final, run (pipeStep 1) pipeFull later = some final →
        final.loop = pipeFull.loop ∧ final.shm = pipeFull.shm ∧
          ∀ action, TakesMutex action → pipeStep 1 final (.other action) = none) :=
  @announcement_written_iff 1 Nat.one_pos _ fullTrace pipeFull 0 (Option.some_get _).symm
    (by decide +kernel)

/-! ### Announcements that nobody reads -/

/-- The connection thread looks at the modes only while the car is out of service; without
a connection it never looks. -/
def OffDuty (state : PipeSystem) (action : PipeAction) : Prop :=
  action = .other .connectionTop → OutOfService state.shm

instance (state : PipeSystem) (action : PipeAction) : Decidable (OffDuty state action) :=
  inferInstanceAs (Decidable (_ → _))

theorem offDuty_step {state next : PipeSystem} {action : PipeAction}
    (offDuty : OffDuty state action) (taken : pipeStep capacity state action = some next) :
    state.notify + [action].count .write + readable next.connection ≤
      next.notify + readable state.connection := by
  cases action with
  | lock => obtain ⟨_, rfl⟩ := of_guarded taken; exact Nat.le_refl _
  | wait => obtain ⟨_, rfl⟩ := of_guarded taken; exact Nat.le_refl _
  | expire => obtain ⟨_, rfl⟩ := of_guarded taken; exact Nat.le_refl _
  | wake ret => obtain ⟨_, rfl⟩ := of_guarded taken; exact Nat.le_refl _
  | write =>
      obtain ⟨left, _, _, _, rfl⟩ := pipeStep_write taken
      exact Nat.le_refl _
  | other action =>
      obtain ⟨notLoop, _, system, stepped, rfl⟩ := pipeStep_other taken
      have modes : action = .connectionTop → OutOfService state.system.car.shm := by
        rintro rfl
        exact offDuty rfl
      exact (carStep_readable notLoop modes stepped).1

theorem offDuty_run {start final : PipeSystem} {actions : List PipeAction}
    (offDuty : Along (pipeStep capacity) OffDuty start actions)
    (ran : run (pipeStep capacity) start actions = some final) :
    start.notify + actions.count .write + readable final.connection ≤
      final.notify + readable start.connection := by
  induction actions generalizing start with
  | nil =>
      cases ran
      exact Nat.le_refl _
  | cons action rest ih =>
      obtain ⟨next, taken, later⟩ := run_cons_eq_some.mp ran
      have first := offDuty_step offDuty.head taken
      have others := ih (offDuty.tail taken) later
      have split : (action :: rest).count PipeAction.write =
          [action].count .write + rest.count .write := by
        rw [← List.singleton_append, List.count_append]
      omega

/-- While the connection thread never finds the car in normal mode it reads at most the one
byte it was on its way to read: from then on every announcement stays in the pipe, and the
pipe bounds how many there can be. -/
theorem offDuty_announcements {lowestFloor : CharArray 4} {before actions : List PipeAction}
    {start final : PipeSystem}
    (reached : run (pipeStep capacity) (PipeSystem.start lowestFloor) before = some start)
    (offDuty : Along (pipeStep capacity) OffDuty start actions)
    (ran : run (pipeStep capacity) start actions = some final) :
    start.notify + actions.count .write ≤ final.notify + readable start.connection ∧
      start.notify + actions.count .write ≤ capacity + readable start.connection := by
  have bytes := offDuty_run offDuty ran
  have both : run (pipeStep capacity) (PipeSystem.start lowestFloor) (before ++ actions) =
      some final :=
    run_append_eq_some.mpr ⟨start, reached, ran⟩
  have within := notify_le_run both
  omega

/-- The car goes into service mode with a status message under way. -/
def serviceTrace : List PipeAction :=
  [.other (.send true), .other (.operate .serviceOn), .other (.operate .openDoors),
    .other .connectionTop, .wake .broadcast, .write]

def reporting : PipeSystem :=
  (run (pipeStep 1) (PipeSystem.start (digitFloor 1).chars)
    [.lock, .wait, .other .connect, .other (.send true)]).get (by decide +kernel)

def inService : PipeSystem :=
  (run (pipeStep 1) reporting serviceTrace).get (by decide +kernel)

theorem offDuty_announcements_serviceTrace :
    reporting.notify + serviceTrace.count .write ≤
        inService.notify + readable reporting.connection ∧
      reporting.notify + serviceTrace.count .write ≤ 1 + readable reporting.connection :=
  offDuty_announcements (Option.some_get _).symm (by decide +kernel) (Option.some_get _).symm

def doorAfter : Status → Status
  | .closed => .opening
  | .opening => .opened
  | .opened => .closing
  | .closing => .closed
  | .between => .between

/-- The wait that moves it on: a spurious wake-up where a timeout changes nothing. -/
def waitFor : Status → WaitResult
  | .closed => .broadcast
  | _ => .timedOut

def idleShm (floor : CharArray 4) (status : Status) : CarSharedMem :=
  { resetShm floor with status := status.chars }

theorem resetShm_eq_idle {floor : CharArray 4} (terminated : floor.Terminated) :
    resetShm floor = idleShm floor .closed := by
  unfold idleShm
  rw [← resetShm_status terminated]

theorem elevatorLoop_idle (floor : CharArray 4) {status : Status} (rests : status ≠ .between) :
    (elevatorLoop (waitFor status) (idleShm floor status)).shm =
        idleShm floor (doorAfter status) ∧
      (elevatorLoop (waitFor status) (idleShm floor status)).effects.count .notify = 1 := by
  cases status with
  | between => exact absurd rfl rests
  | closed =>
      simp [elevatorLoop, idleShm, resetShm, waitFor, Iteration.normalBroadcast,
        Iteration.StatusIs, Iteration.FloorsEqual, doorAfter, Iteration.start]
  | _ =>
      simp [elevatorLoop, idleShm, resetShm, waitFor, Iteration.normalTimeout,
        Iteration.StatusIs, Iteration.FloorsEqual, doorAfter, Iteration.start]

theorem doorAfter_rests {status : Status} (rests : status ≠ .between) :
    doorAfter status ≠ .between := by
  cases status with
  | between => exact absurd rfl rests
  | _ => nofun

structure Alone (floor : CharArray 4) (status : Status) (bytes : Nat) (state : PipeSystem) :
    Prop where
  shm : state.shm = idleShm floor status
  notify : state.notify = bytes
  connection : state.connection = .outside

/-- The service tool's `service_off` broadcasts and changes nothing here. -/
def rouse : Status → List PipeAction
  | .closed => [.other (.operate .serviceOff)]
  | _ => []

theorem rouse_run {floor : CharArray 4} {status : Status} {bytes : Nat} {state : PipeSystem}
    (alone : Alone floor status bytes state) (waiting : state.loop = .waiting) :
    ∃ roused, run (pipeStep capacity) state (rouse status) = some roused ∧
      Alone floor status bytes roused ∧ roused.loop = .waiting := by
  cases status with
  | closed =>
      let roused : PipeSystem :=
        { state with
          system :=
            { state.system with
              car := state.system.car.storeAndBroadcast
                { state.shm with individualServiceMode := 0 } } }
      have taken : pipeStep capacity state (.other (.operate .serviceOff)) = some roused :=
        if_pos ⟨id, fun _ => Or.inr waiting⟩
      have same : roused.shm = idleShm floor .closed := by
        have stored : roused.shm = { state.shm with individualServiceMode := 0 } := rfl
        rw [stored, alone.shm]
        rfl
      refine ⟨roused, run_cons_eq_some.mpr ⟨roused, taken, rfl⟩, ?_, waiting⟩
      exact
        { shm := same
          notify := alone.notify
          connection := alone.connection }
  | _ => exact ⟨state, rfl, alone, waiting⟩

theorem Alone.runs {floor : CharArray 4} {status : Status} {bytes : Nat} {state : PipeSystem}
    (alone : Alone floor status bytes state) : state.Runs := by
  intro exited
  cases alone.connection.symm.trans exited

/-- One change of the doors, up to its announcement. -/
theorem Alone.wakes (capacity : Nat) {floor : CharArray 4} {status : Status} {bytes : Nat}
    {state : PipeSystem} (alone : Alone floor status bytes state) (waiting : state.loop = .waiting)
    (rests : status ≠ .between) :
    ∃ changed,
      run (pipeStep capacity) state (rouse status ++ [.wake (waitFor status)]) = some changed ∧
        Alone floor (doorAfter status) bytes changed ∧ changed.loop = .writing 1 := by
  obtain ⟨roused, ran, stillAlone, stillWaiting⟩ := rouse_run alone waiting
  obtain ⟨stored, announced⟩ := elevatorLoop_idle floor rests
  let changed := roused.iterate (waitFor status)
  have taken : pipeStep capacity roused (.wake (waitFor status)) = some changed :=
    if_pos ⟨stillAlone.runs, stillWaiting⟩
  have shm : changed.shm = idleShm floor (doorAfter status) := by
    have iterated : changed.shm = (elevatorLoop (waitFor status) roused.shm).shm := rfl
    rw [iterated, stillAlone.shm, stored]
  have loop : changed.loop = .writing 1 := by
    have iterated : changed.loop =
        .writing ((elevatorLoop (waitFor status) roused.shm).effects.count .notify) := rfl
    rw [iterated, stillAlone.shm, announced]
  refine ⟨changed, ?_, ?_, loop⟩
  · exact run_append_eq_some.mpr ⟨roused, ran, run_cons_eq_some.mpr ⟨changed, taken, rfl⟩⟩
  · exact
      { shm := shm
        notify := stillAlone.notify
        connection := stillAlone.connection }

theorem Alone.writes {floor : CharArray 4} {status : Status} {bytes : Nat} {state : PipeSystem}
    (alone : Alone floor status bytes state) (writing : state.loop = .writing 1)
    (room : bytes < capacity) :
    ∃ written, run (pipeStep capacity) state [.write, .wait] = some written ∧
      Alone floor status (bytes + 1) written ∧ written.loop = .waiting := by
  have fits : state.notify < capacity := alone.notify.trans_lt room
  have stored : pipeStep capacity state .write = some (state.writeByte 0) := by
    simp only [pipeStep, writing]
    exact if_pos ⟨alone.runs, fits⟩
  have waits : pipeStep capacity (state.writeByte 0) .wait =
      some { state.writeByte 0 with loop := .waiting } :=
    if_pos ⟨alone.runs, rfl⟩
  refine ⟨{ state.writeByte 0 with loop := .waiting }, ?_, ?_, rfl⟩
  · exact run_cons_eq_some.mpr ⟨_, stored, run_cons_eq_some.mpr ⟨_, waits, rfl⟩⟩
  · exact
      { shm := alone.shm
        notify := congrArg (· + 1) alone.notify
        connection := alone.connection }

theorem connect_not_mem_rouse (status : Status) : PipeAction.other .connect ∉ rouse status := by
  cases status <;> decide

theorem count_write_rouse (status : Status) : (rouse status).count .write = 0 := by
  cases status <;> decide

/-- Without a controller the announcements pile up, one a change of the doors. -/
theorem alone_reaches {lowestFloor : CharArray 4} (terminated : lowestFloor.Terminated)
    {bytes : Nat} (fits : bytes ≤ capacity) :
    ∃ actions state status, PipeAction.other .connect ∉ actions ∧ actions.count .write = bytes ∧
      run (pipeStep capacity) (PipeSystem.start lowestFloor) actions = some state ∧
      Alone lowestFloor status bytes state ∧ state.loop = .waiting ∧ status ≠ .between := by
  induction bytes with
  | zero =>
      refine ⟨[.lock, .wait], _, .closed, by decide, by decide, rfl, ?_, rfl, nofun⟩
      exact
        { shm := resetShm_eq_idle terminated
          notify := rfl
          connection := rfl }
  | succ bytes ih =>
      obtain ⟨actions, state, status, unconnected, written, ran, alone, waiting, rests⟩ :=
        ih (Nat.le_of_succ_le fits)
      obtain ⟨changed, changes, changedAlone, writing⟩ :=
        alone.wakes capacity waiting rests
      obtain ⟨next, writes, nextAlone, nextWaiting⟩ := changedAlone.writes writing fits
      refine ⟨actions ++ ((rouse status ++ [.wake (waitFor status)]) ++ [.write, .wait]), next,
        doorAfter status, ?_, ?_, ?_, nextAlone, nextWaiting, doorAfter_rests rests⟩
      · simp [unconnected, connect_not_mem_rouse]
      · simp [List.count_append, written, count_write_rouse]
      · exact run_append_eq_some.mpr
          ⟨state, ran, run_append_eq_some.mpr ⟨changed, changes, writes⟩⟩

theorem outside_step {state next : PipeSystem} {action : PipeAction}
    (outside : state.connection = .outside) (unconnected : action ≠ .other .connect)
    (taken : pipeStep capacity state action = some next) :
    next.connection = .outside ∧ OffDuty state action := by
  cases action with
  | lock => obtain ⟨_, rfl⟩ := of_guarded taken; exact ⟨outside, nofun⟩
  | wait => obtain ⟨_, rfl⟩ := of_guarded taken; exact ⟨outside, nofun⟩
  | expire => obtain ⟨_, rfl⟩ := of_guarded taken; exact ⟨outside, nofun⟩
  | wake ret => obtain ⟨_, rfl⟩ := of_guarded taken; exact ⟨outside, nofun⟩
  | write => obtain ⟨_, _, _, _, rfl⟩ := pipeStep_write taken; exact ⟨outside, nofun⟩
  | other action =>
      obtain ⟨_, _, system, stepped, rfl⟩ := pipeStep_other taken
      have notConnect : action = .connect → state.system.car.connection ≠ .outside := by
        rintro rfl
        exact absurd rfl unconnected
      obtain ⟨stays, notTop⟩ := carStep_away (Or.inl outside) notConnect stepped
      refine ⟨stays.trans outside, ?_⟩
      rintro ⟨⟩
      exact absurd rfl notTop

theorem unconnected_offDuty {state final : PipeSystem} {actions : List PipeAction}
    (outside : state.connection = .outside) (unconnected : PipeAction.other .connect ∉ actions)
    (ran : run (pipeStep capacity) state actions = some final) :
    Along (pipeStep capacity) OffDuty state actions := by
  induction actions generalizing state with
  | nil => trivial
  | cons action rest ih =>
      obtain ⟨next, taken, later⟩ := run_cons_eq_some.mp ran
      have notConnect : action ≠ .other .connect := by
        rintro rfl
        exact unconnected List.mem_cons_self
      obtain ⟨stays, offDuty⟩ := outside_step outside notConnect taken
      refine ⟨offDuty, ?_⟩
      rw [taken]
      exact ih stays (fun member => unconnected (List.mem_cons_of_mem action member)) later

/-- A car that never reaches a controller makes at most as many announcements as the pipe
takes, and it comes to that point: whatever the pipe's capacity, some run ends with the
loop blocked for good. (Its lowest floor has at most three characters: with four the car
starts without a status, and its doors never move.) -/
theorem unconnected_car_stops (capacity : Nat) (lowestFloor : CharArray 4)
    (terminated : lowestFloor.Terminated) :
    (∀ actions final, PipeAction.other .connect ∉ actions →
        run (pipeStep capacity) (PipeSystem.start lowestFloor) actions = some final →
          actions.count .write ≤ capacity) ∧
      ∃ actions final, PipeAction.other .connect ∉ actions ∧
        run (pipeStep capacity) (PipeSystem.start lowestFloor) actions = some final ∧
          actions.count .write = capacity ∧ final.loop = .writing 1 ∧
            ¬ Drains capacity final := by
  constructor
  · intro actions final unconnected ran
    have offDuty : Along (pipeStep capacity) OffDuty (PipeSystem.start lowestFloor) actions :=
      unconnected_offDuty rfl unconnected ran
    have bytes := offDuty_run offDuty ran
    have within := notify_le_run ran
    have empty : (PipeSystem.start lowestFloor).notify = 0 := rfl
    have unread : readable (PipeSystem.start lowestFloor).connection = 0 := rfl
    omega
  · obtain ⟨actions, state, status, unconnected, written, ran, alone, waiting, rests⟩ :=
      alone_reaches terminated (Nat.le_refl capacity)
    obtain ⟨changed, changes, changedAlone, writing⟩ :=
      alone.wakes capacity waiting rests
    refine ⟨actions ++ (rouse status ++ [.wake (waitFor status)]), changed, ?_, ?_, ?_, writing,
      ?_⟩
    · simp [unconnected, connect_not_mem_rouse]
    · exact run_append_eq_some.mpr ⟨state, ran, changes⟩
    · simp [List.count_append, written, count_write_rouse]
    · rintro ⟨_, drains⟩
      cases drains with
      | inl room => exact absurd changedAlone.notify (Nat.ne_of_lt room)
      | inr reads =>
          rw [changedAlone.connection] at reads
          exact reads

theorem unconnected_car_stops_one :
    (∀ actions final, PipeAction.other .connect ∉ actions →
        run (pipeStep 1) (PipeSystem.start (digitFloor 1).chars) actions = some final →
          actions.count .write ≤ 1) ∧
      ∃ actions final, PipeAction.other .connect ∉ actions ∧
        run (pipeStep 1) (PipeSystem.start (digitFloor 1).chars) actions = some final ∧
          actions.count .write = 1 ∧ final.loop = .writing 1 ∧ ¬ Drains 1 final :=
  unconnected_car_stops 1 (digitFloor 1).chars (by decide)

end Cab403.Elevator.NotifyPipe
