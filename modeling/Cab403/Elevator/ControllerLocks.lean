/-
The mutexes of the controller and its threads: the control loop, the thread that accepts
connections, a handler for each connection and a monitor for each car, and the SIGINT
handler on any of them. Which car a walk over the list comes to, which test succeeds and
when a call returns are left open; what is locked, given back and destroyed at each line
is as it stands there, the second `pthread_mutex_unlock(&car_list_mutex)` of
`select_best_car` included.
-/

import Cab403.Library.LockProgram

namespace Cab403.Elevator.ControllerLocks

open ActionRuns LockProgram

inductive Mutex (Car : Type) where
  | callQueue
  | carList
  | queue (car : Car)
  | data (car : Car)
  | connected (car : Car)
  deriving DecidableEq

/-- The control loop, line by line between the mutex calls. -/
inductive ControlPoint (Car : Type) where
  | lockCalls
  | testCalls
  /-- `pthread_cond_wait` gives the mutex back, sleeps and takes it again. -/
  | waitUnlock
  | asleep
  | waitLock
  | takenUnlock
  | selectLock
  /-- `current_car` is to be the next car of the list, or null. -/
  | selectNext
  | selectData (car : Car)
  | selectTest (car : Car)
  | skipUnlock (car : Car)
  | matchUnlock (car : Car)
  | matchUnlockList (car : Car)
  /-- The unlock behind the loop, which the `break` comes to as well. -/
  | strayUnlock (car : Car)
  | noneUnlock
  | insertQueue (car : Car)
  | insertData (car : Car)
  | inserting (car : Car)
  | insertUnlockData (car : Car)
  | insertUnlockQueue (car : Car)
  | answering
  deriving DecidableEq

inductive SigintPoint (Car : Type) where
  | lockList
  | nextCar
  | lockQueue (car : Car)
  | freeing (car : Car)
  | unlockQueue (car : Car)
  | destroyData (car : Car)
  | destroyQueue (car : Car)
  | unlockList
  | destroyList
  | lockCalls
  | freeingCalls
  | unlockCalls
  | destroyCalls
  | exited
  deriving DecidableEq

inductive HandlerPoint where
  | starting
  | callLock
  | callAppending
  | callUnlock
  | listLock
  | listInserting
  | listUnlock
  | connectedLock
  | connectedTest
  | goUnlock
  | breakUnlock
  | receiving
  | hangLock
  | hanging
  | hangUnlock
  | dataLock
  | storing
  | dataUnlock
  | queueLock
  | serving
  | queueUnlock
  | removeLock
  | removing
  | removeUnlock
  | closeLock
  | closing
  | closeUnlock
  | destroyData
  | destroyQueue
  | destroyConnected
  | ended
  deriving DecidableEq

inductive MonitorPoint where
  | polling
  | shutLock
  | shutting
  | shutUnlock
  | ended
  deriving DecidableEq

inductive Line (Car : Type) where
  | control (point : ControlPoint Car)
  /-- `controller_connection`, which takes no mutex. -/
  | accepting
  | handler (car : Car) (point : HandlerPoint)
  | monitor (car : Car) (point : MonitorPoint)
  deriving DecidableEq

inductive Point (Car : Type) where
  | running (line : Line Car)
  /-- SIGINT came at the line `interrupted`; its handler has given `given` back. -/
  | sigint (interrupted : Line Car) (given : List (Mutex Car)) (point : SigintPoint Car)
  deriving DecidableEq

inductive Thread (Car : Type) where
  | control
  | accepting
  | handler (car : Car)
  | monitor (car : Car)
  deriving DecidableEq

/-- What decides where control goes: the next car of a list, or which way a test falls. -/
inductive Choice (Car : Type) where
  | car (car : Car)
  | yes
  | no
  deriving DecidableEq

variable {Car : Type}

/-! ### The instructions -/

def ControlPoint.instruction : ControlPoint Car → Instruction (Mutex Car)
  | .lockCalls => .lock .callQueue
  | .waitUnlock => .unlock .callQueue
  | .waitLock => .lock .callQueue
  | .takenUnlock => .unlock .callQueue
  | .selectLock => .lock .carList
  | .selectData car => .lock (.data car)
  | .skipUnlock car => .unlock (.data car)
  | .matchUnlock car => .unlock (.data car)
  | .matchUnlockList _ => .unlock .carList
  | .strayUnlock _ => .unlock .carList
  | .noneUnlock => .unlock .carList
  | .insertQueue car => .lock (.queue car)
  | .insertData car => .lock (.data car)
  | .insertUnlockData car => .unlock (.data car)
  | .insertUnlockQueue car => .unlock (.queue car)
  | .testCalls => .other
  | .asleep => .other
  | .selectNext => .other
  | .selectTest _ => .other
  | .inserting _ => .other
  | .answering => .other

def ControlPoint.next : ControlPoint Car → Choice Car → Option (ControlPoint Car)
  | .lockCalls, _ => some .testCalls
  | .testCalls, .yes => some .takenUnlock
  | .testCalls, _ => some .waitUnlock
  | .waitUnlock, _ => some .asleep
  | .asleep, _ => some .waitLock
  | .waitLock, _ => some .testCalls
  | .takenUnlock, _ => some .selectLock
  | .selectLock, _ => some .selectNext
  | .selectNext, .car car => some (.selectData car)
  | .selectNext, _ => some .noneUnlock
  | .selectData car, _ => some (.selectTest car)
  | .selectTest car, .yes => some (.matchUnlock car)
  | .selectTest car, _ => some (.skipUnlock car)
  | .skipUnlock _, _ => some .selectNext
  | .matchUnlock car, _ => some (.matchUnlockList car)
  | .matchUnlockList car, _ => some (.strayUnlock car)
  | .strayUnlock car, _ => some (.insertQueue car)
  | .noneUnlock, _ => some .answering
  | .insertQueue car, _ => some (.insertData car)
  | .insertData car, _ => some (.inserting car)
  | .inserting car, _ => some (.insertUnlockData car)
  | .insertUnlockData car, _ => some (.insertUnlockQueue car)
  | .insertUnlockQueue _, _ => some .answering
  | .answering, _ => some .lockCalls

def ControlPoint.held : ControlPoint Car → List (Mutex Car)
  | .testCalls => [.callQueue]
  | .waitUnlock => [.callQueue]
  | .takenUnlock => [.callQueue]
  | .selectNext => [.carList]
  | .selectData _ => [.carList]
  | .selectTest car => [.data car, .carList]
  | .skipUnlock car => [.data car, .carList]
  | .matchUnlock car => [.data car, .carList]
  | .matchUnlockList _ => [.carList]
  | .noneUnlock => [.carList]
  | .insertData car => [.queue car]
  | .inserting car => [.data car, .queue car]
  | .insertUnlockData car => [.data car, .queue car]
  | .insertUnlockQueue car => [.queue car]
  | .lockCalls => []
  | .asleep => []
  | .waitLock => []
  | .selectLock => []
  | .strayUnlock _ => []
  | .insertQueue _ => []
  | .answering => []

def SigintPoint.instruction : SigintPoint Car → Instruction (Mutex Car)
  | .lockList => .lock .carList
  | .lockQueue car => .lock (.queue car)
  | .unlockQueue car => .unlock (.queue car)
  | .unlockList => .unlock .carList
  | .lockCalls => .lock .callQueue
  | .unlockCalls => .unlock .callQueue
  | .destroyData car => .destroy (.data car)
  | .destroyQueue car => .destroy (.queue car)
  | .destroyList => .destroy .carList
  | .destroyCalls => .destroy .callQueue
  | .nextCar => .other
  | .freeing _ => .other
  | .freeingCalls => .other
  | .exited => .other

def SigintPoint.next : SigintPoint Car → Choice Car → Option (SigintPoint Car)
  | .lockList, _ => some .nextCar
  | .nextCar, .car car => some (.lockQueue car)
  | .nextCar, _ => some .unlockList
  | .lockQueue car, _ => some (.freeing car)
  | .freeing car, _ => some (.unlockQueue car)
  | .unlockQueue car, _ => some (.destroyData car)
  | .destroyData car, _ => some (.destroyQueue car)
  | .destroyQueue _, _ => some .nextCar
  | .unlockList, _ => some .destroyList
  | .destroyList, _ => some .lockCalls
  | .lockCalls, _ => some .freeingCalls
  | .freeingCalls, _ => some .unlockCalls
  | .unlockCalls, _ => some .destroyCalls
  | .destroyCalls, _ => some .exited
  | .exited, _ => none

def SigintPoint.held : SigintPoint Car → List (Mutex Car)
  | .nextCar => [.carList]
  | .lockQueue _ => [.carList]
  | .freeing car => [.queue car, .carList]
  | .unlockQueue car => [.queue car, .carList]
  | .destroyData _ => [.carList]
  | .destroyQueue _ => [.carList]
  | .unlockList => [.carList]
  | .freeingCalls => [.callQueue]
  | .unlockCalls => [.callQueue]
  | .lockList => []
  | .destroyList => []
  | .lockCalls => []
  | .destroyCalls => []
  | .exited => []

def HandlerPoint.instruction (car : Car) : HandlerPoint → Instruction (Mutex Car)
  | .callLock => .lock .callQueue
  | .callUnlock => .unlock .callQueue
  | .listLock => .lock .carList
  | .listUnlock => .unlock .carList
  | .connectedLock => .lock (.connected car)
  | .goUnlock => .unlock (.connected car)
  | .breakUnlock => .unlock (.connected car)
  | .hangLock => .lock (.connected car)
  | .hangUnlock => .unlock (.connected car)
  | .dataLock => .lock (.data car)
  | .dataUnlock => .unlock (.data car)
  | .queueLock => .lock (.queue car)
  | .queueUnlock => .unlock (.queue car)
  | .removeLock => .lock .carList
  | .removeUnlock => .unlock .carList
  | .closeLock => .lock (.connected car)
  | .closeUnlock => .unlock (.connected car)
  | .destroyData => .destroy (.data car)
  | .destroyQueue => .destroy (.queue car)
  | .destroyConnected => .destroy (.connected car)
  | .starting => .other
  | .callAppending => .other
  | .listInserting => .other
  | .connectedTest => .other
  | .receiving => .other
  | .hanging => .other
  | .storing => .other
  | .serving => .other
  | .removing => .other
  | .closing => .other
  | .ended => .other

def HandlerPoint.next : HandlerPoint → Choice Car → Option HandlerPoint
  | .starting, .yes => some .listLock
  | .starting, .no => some .callLock
  | .starting, .car _ => some .ended
  | .callLock, _ => some .callAppending
  | .callAppending, _ => some .callUnlock
  | .callUnlock, _ => some .ended
  | .listLock, _ => some .listInserting
  | .listInserting, _ => some .listUnlock
  | .listUnlock, _ => some .connectedLock
  | .connectedLock, _ => some .connectedTest
  | .connectedTest, .yes => some .goUnlock
  | .connectedTest, _ => some .breakUnlock
  | .goUnlock, _ => some .receiving
  | .breakUnlock, _ => some .removeLock
  | .receiving, .yes => some .dataLock
  | .receiving, .no => some .hangLock
  | .receiving, .car _ => some .removeLock
  | .hangLock, _ => some .hanging
  | .hanging, _ => some .hangUnlock
  | .hangUnlock, _ => some .removeLock
  | .dataLock, _ => some .storing
  | .storing, _ => some .dataUnlock
  | .dataUnlock, _ => some .queueLock
  | .queueLock, _ => some .serving
  | .serving, _ => some .queueUnlock
  | .queueUnlock, _ => some .connectedLock
  | .removeLock, _ => some .removing
  | .removing, _ => some .removeUnlock
  | .removeUnlock, _ => some .closeLock
  | .closeLock, _ => some .closing
  | .closing, _ => some .closeUnlock
  | .closeUnlock, _ => some .destroyData
  | .destroyData, _ => some .destroyQueue
  | .destroyQueue, _ => some .destroyConnected
  | .destroyConnected, _ => some .ended
  | .ended, _ => none

def HandlerPoint.held (car : Car) : HandlerPoint → List (Mutex Car)
  | .callAppending => [.callQueue]
  | .callUnlock => [.callQueue]
  | .listInserting => [.carList]
  | .listUnlock => [.carList]
  | .connectedTest => [.connected car]
  | .goUnlock => [.connected car]
  | .breakUnlock => [.connected car]
  | .hanging => [.connected car]
  | .hangUnlock => [.connected car]
  | .storing => [.data car]
  | .dataUnlock => [.data car]
  | .serving => [.queue car]
  | .queueUnlock => [.queue car]
  | .removing => [.carList]
  | .removeUnlock => [.carList]
  | .closing => [.connected car]
  | .closeUnlock => [.connected car]
  | .starting => []
  | .callLock => []
  | .listLock => []
  | .connectedLock => []
  | .receiving => []
  | .hangLock => []
  | .dataLock => []
  | .queueLock => []
  | .removeLock => []
  | .closeLock => []
  | .destroyData => []
  | .destroyQueue => []
  | .destroyConnected => []
  | .ended => []

def MonitorPoint.instruction (car : Car) : MonitorPoint → Instruction (Mutex Car)
  | .shutLock => .lock (.connected car)
  | .shutUnlock => .unlock (.connected car)
  | .polling => .other
  | .shutting => .other
  | .ended => .other

def MonitorPoint.next : MonitorPoint → Choice Car → Option MonitorPoint
  | .polling, .yes => some .shutLock
  | .polling, .no => some .polling
  | .polling, .car _ => some .ended
  | .shutLock, _ => some .shutting
  | .shutting, _ => some .shutUnlock
  | .shutUnlock, _ => some .ended
  | .ended, _ => none

def MonitorPoint.held (car : Car) : MonitorPoint → List (Mutex Car)
  | .shutting => [.connected car]
  | .shutUnlock => [.connected car]
  | .polling => []
  | .shutLock => []
  | .ended => []

def givenBack : Instruction (Mutex Car) → List (Mutex Car)
  | .unlock mutex => [mutex]
  | _ => []

def Line.instruction : Line Car → Instruction (Mutex Car)
  | .control point => point.instruction
  | .accepting => .other
  | .handler car point => point.instruction car
  | .monitor car point => point.instruction car

def Line.next : Line Car → Choice Car → Option (Line Car)
  | .control point, choice => (point.next choice).map .control
  | .accepting, _ => some .accepting
  | .handler car point, choice => (point.next choice).map (.handler car)
  | .monitor car point, choice => (point.next choice).map (.monitor car)

def Line.held : Line Car → List (Mutex Car)
  | .control point => point.held
  | .accepting => []
  | .handler car point => point.held car
  | .monitor car point => point.held car

def Point.instruction : Point Car → Instruction (Mutex Car)
  | .running line => line.instruction
  | .sigint _ _ point => point.instruction

def Point.next : Point Car → Choice Car → Option (Point Car)
  | .running line, choice => (line.next choice).map .running
  | .sigint interrupted given point, choice =>
      (point.next choice).map (.sigint interrupted (given ++ givenBack point.instruction))

/-- SIGINT comes to a thread that has not ended. Its handler is not interrupted again. -/
def Point.interrupt : Point Car → Option (Point Car)
  | .running (.handler _ .ended) => none
  | .running (.monitor _ .ended) => none
  | .running line => some (.sigint line [] .lockList)
  | .sigint _ _ _ => none

/-- The SIGINT handler holds its own mutexes besides those of the line it interrupted. -/
def Point.Held : Point Car → Mutex Car → Prop
  | .running line, mutex => mutex ∈ line.held
  | .sigint interrupted given point, mutex =>
      mutex ∈ point.held ∨ (mutex ∈ interrupted.held ∧ mutex ∉ given)

/-! ### The program -/

section Coherence

variable {choice : Choice Car} {car : Car}

theorem ControlPoint.held_next {point target : ControlPoint Car}
    (passes : point.next choice = some target) (mutex : Mutex Car) :
    mutex ∈ target.held ↔ point.instruction.After (· ∈ point.held) mutex := by
  cases point <;> cases choice <;> cases passes <;> cases mutex <;>
    simp [ControlPoint.held, ControlPoint.instruction, Instruction.After]

theorem HandlerPoint.held_next {point target : HandlerPoint}
    (passes : point.next choice = some target) (mutex : Mutex Car) :
    mutex ∈ target.held car ↔ (point.instruction car).After (· ∈ point.held car) mutex := by
  cases point <;> cases choice <;> cases passes <;> cases mutex <;>
    simp [HandlerPoint.held, HandlerPoint.instruction, Instruction.After]

theorem MonitorPoint.held_next {point target : MonitorPoint}
    (passes : point.next choice = some target) (mutex : Mutex Car) :
    mutex ∈ target.held car ↔ (point.instruction car).After (· ∈ point.held car) mutex := by
  cases point <;> cases choice <;> cases passes <;> cases mutex <;>
    simp [MonitorPoint.held, MonitorPoint.instruction, Instruction.After]

theorem SigintPoint.held_next {point target : SigintPoint Car}
    (passes : point.next choice = some target) (mutex : Mutex Car) :
    mutex ∈ target.held ↔ point.instruction.After (· ∈ point.held) mutex := by
  cases point <;> cases choice <;> cases passes <;> cases mutex <;>
    simp [SigintPoint.held, SigintPoint.instruction, Instruction.After]

/-- What was held at the interrupted line stays so until the handler gives it back. -/
theorem after_or {held : List (Mutex Car)} {interrupted given : List (Mutex Car)}
    (instruction : Instruction (Mutex Car)) (mutex : Mutex Car) :
    instruction.After (· ∈ held) mutex ∨
        (mutex ∈ interrupted ∧ mutex ∉ given ++ givenBack instruction) ↔
      instruction.After
        (fun mutex => mutex ∈ held ∨ (mutex ∈ interrupted ∧ mutex ∉ given)) mutex := by
  cases instruction with
  | lock taken =>
      simp only [Instruction.After, givenBack, List.append_nil]
      exact or_assoc
  | unlock gives =>
      simp only [Instruction.After, givenBack, List.mem_append, List.mem_singleton, not_or]
      tauto
  | destroy gone => simp only [Instruction.After, givenBack, List.append_nil]
  | other => simp only [Instruction.After, givenBack, List.append_nil]

theorem Line.held_next {line target : Line Car} (passes : line.next choice = some target)
    (mutex : Mutex Car) :
    mutex ∈ target.held ↔ line.instruction.After (· ∈ line.held) mutex := by
  cases line with
  | control point =>
      obtain ⟨after, passed, rfl⟩ := Option.map_eq_some_iff.mp passes
      exact ControlPoint.held_next passed mutex
  | accepting =>
      cases passes
      exact Iff.rfl
  | handler car point =>
      obtain ⟨after, passed, rfl⟩ := Option.map_eq_some_iff.mp passes
      exact HandlerPoint.held_next passed mutex
  | monitor car point =>
      obtain ⟨after, passed, rfl⟩ := Option.map_eq_some_iff.mp passes
      exact MonitorPoint.held_next passed mutex

theorem Point.held_next {point target : Point Car} (passes : point.next choice = some target)
    (mutex : Mutex Car) : target.Held mutex ↔ point.instruction.After point.Held mutex := by
  cases point with
  | running line =>
      obtain ⟨after, passed, rfl⟩ := Option.map_eq_some_iff.mp passes
      exact Line.held_next passed mutex
  | sigint interrupted given point =>
      obtain ⟨after, passed, rfl⟩ := Option.map_eq_some_iff.mp passes
      have own := SigintPoint.held_next passed mutex
      exact (or_congr own Iff.rfl).trans (after_or point.instruction mutex)

/-- SIGINT leads from a line to the handler's first lock. -/
theorem Point.interrupt_eq_some {point target : Point Car}
    (interrupts : point.interrupt = some target) :
    ∃ line, point = .running line ∧ target = .sigint line [] .lockList := by
  cases point with
  | running line =>
      unfold Point.interrupt at interrupts
      split at interrupts
      · cases interrupts
      · cases interrupts
      · rename_i same
        cases same
        cases interrupts
        exact ⟨line, rfl, rfl⟩
      · cases interrupts
  | sigint interrupted given point => cases interrupts

theorem Point.held_interrupt {point target : Point Car} (interrupts : point.interrupt = some target)
    (mutex : Mutex Car) : target.Held mutex ↔ point.Held mutex := by
  obtain ⟨line, rfl, rfl⟩ := Point.interrupt_eq_some interrupts
  simp only [Point.Held, SigintPoint.held, List.not_mem_nil, not_false_eq_true, and_true, false_or]

end Coherence

def controller (Car : Type) : Program (Point Car) (Choice Car) (Mutex Car) where
  instruction := Point.instruction
  next := Point.next
  interrupt := Point.interrupt
  Held := Point.Held
  held_next := fun _ _ _ passes => Point.held_next passes
  held_interrupt := fun _ _ interrupts => Point.held_interrupt interrupts

def start (Car : Type) : State (Thread Car) (Point Car) (Mutex Car) where
  holder := fun _ => none
  destroyed := fun _ => false
  points := fun thread =>
    match thread with
    | .control => .running (.control .lockCalls)
    | .accepting => .running .accepting
    | .handler car => .running (.handler car .starting)
    | .monitor car => .running (.monitor car .polling)

theorem start_idle : Idle (controller Car) (start Car) where
  free := fun _ => rfl
  empty := fun thread mutex => by
    cases thread <;> exact List.not_mem_nil

/-! ### The order of the mutexes -/

/-- A car's data comes behind its queue and the list, its queue behind the list. -/
def rank : Mutex Car → Nat
  | .data _ => 2
  | .queue _ => 1
  | _ => 0

theorem rank_le (mutex : Mutex Car) : rank mutex ≤ 2 := by
  cases mutex <;> simp only [rank] <;> omega

def InterruptedHolding : Point Car → Prop
  | .sigint interrupted _ _ => interrupted.held ≠ []
  | _ => False

theorem ControlPoint.rank_lt {point : ControlPoint Car} {taken : Mutex Car}
    (locks : point.instruction = .lock taken) : ∀ mutex ∈ point.held, rank mutex < rank taken := by
  cases point <;> cases locks <;> simp [ControlPoint.held, rank]

theorem SigintPoint.rank_lt {point : SigintPoint Car} {taken : Mutex Car}
    (locks : point.instruction = .lock taken) : ∀ mutex ∈ point.held, rank mutex < rank taken := by
  cases point <;> cases locks <;> simp [SigintPoint.held, rank]

theorem HandlerPoint.held_lock {point : HandlerPoint} {car : Car} {taken : Mutex Car}
    (locks : point.instruction car = .lock taken) : point.held car = [] := by
  cases point <;> cases locks <;> rfl

theorem MonitorPoint.held_lock {point : MonitorPoint} {car : Car} {taken : Mutex Car}
    (locks : point.instruction car = .lock taken) : point.held car = [] := by
  cases point <;> cases locks
  rfl

theorem Line.rank_lt {line : Line Car} {taken : Mutex Car}
    (locks : line.instruction = .lock taken) : ∀ mutex ∈ line.held, rank mutex < rank taken := by
  intro mutex held
  cases line with
  | control point => exact ControlPoint.rank_lt locks mutex held
  | accepting => cases locks
  | handler car point =>
      rw [Line.held, HandlerPoint.held_lock locks] at held
      cases held
  | monitor car point =>
      rw [Line.held, MonitorPoint.held_lock locks] at held
      cases held

theorem orderedAt_of_clean {point : Point Car} (clean : ¬ InterruptedHolding point) :
    OrderedAt (controller Car) rank point := by
  intro taken locks mutex held
  cases point with
  | running line => exact Line.rank_lt locks mutex held
  | sigint interrupted given point =>
      rcases held with own | ⟨older, _⟩
      · exact SigintPoint.rank_lt locks mutex own
      · rw [show interrupted.held = [] from not_not.mp clean] at older
        cases older

theorem ControlPoint.held_unlock {point : ControlPoint Car} {mutex : Mutex Car}
    (gives : point.instruction = .unlock mutex) (apart : mutex ≠ .carList) :
    mutex ∈ point.held := by
  cases point <;> cases gives <;> simp [ControlPoint.held] at apart ⊢

theorem SigintPoint.held_unlock {point : SigintPoint Car} {mutex : Mutex Car}
    (gives : point.instruction = .unlock mutex) : mutex ∈ point.held := by
  cases point <;> cases gives <;> simp [SigintPoint.held]

theorem HandlerPoint.held_unlock {point : HandlerPoint} {car : Car} {mutex : Mutex Car}
    (gives : point.instruction car = .unlock mutex) : mutex ∈ point.held car := by
  cases point <;> cases gives <;> simp [HandlerPoint.held]

theorem MonitorPoint.held_unlock {point : MonitorPoint} {car : Car} {mutex : Mutex Car}
    (gives : point.instruction car = .unlock mutex) : mutex ∈ point.held car := by
  cases point <;> cases gives
  exact List.mem_singleton_self _

theorem SigintPoint.before_destroyCalls {point : SigintPoint Car} {choice : Choice Car}
    (passes : point.next choice = some .destroyCalls) : point = .unlockCalls := by
  cases point <;> cases choice <;> cases passes <;> rfl

theorem SigintPoint.before_exited {point : SigintPoint Car} {choice : Choice Car}
    (passes : point.next choice = some .exited) : point = .destroyCalls := by
  cases point <;> cases choice <;> cases passes <;> rfl

theorem Line.held_unlock {line : Line Car} {mutex : Mutex Car}
    (gives : line.instruction = .unlock mutex) (apart : mutex ≠ .carList) :
    mutex ∈ line.held := by
  cases line with
  | control point => exact ControlPoint.held_unlock gives apart
  | accepting => cases gives
  | handler car point => exact HandlerPoint.held_unlock gives
  | monitor car point => exact MonitorPoint.held_unlock gives

/-- All mutexes but that of the car list are given back by their holders only. -/
theorem proper_of_ne {mutex : Mutex Car} (apart : mutex ≠ .carList) :
    Proper (controller Car) mutex := by
  intro point gives
  cases point with
  | running line => exact Line.held_unlock gives apart
  | sigint interrupted given point => exact Or.inl (SigintPoint.held_unlock gives)

/-! ### Every run -/

section Runs

variable [DecidableEq Car] {state next : State (Thread Car) (Point Car) (Mutex Car)}
  {actions : List (Action (Thread Car) (Choice Car))}

/-- The mutexes of the controller exclude and do not deadlock. Between the lock and the
unlock of any but that of the car list, which has a stray unlock, a thread is alone; and
unless SIGINT has interrupted a line that holds a mutex, a thread at a taken mutex waits,
over other threads at taken mutexes, for one that is at none. -/
theorem controller_mutexes (ran : run (step (controller Car)) (start Car) actions = some state) :
    (∀ mutex, mutex ≠ .carList → ∀ left right, (state.points left).Held mutex →
      (state.points right).Held mutex → left = right) ∧
    ((∀ thread, ¬ InterruptedHolding (state.points thread)) →
      ∀ thread mutex, Waits (controller Car) state thread mutex →
        ∃ owner, Relation.TransGen (WaitsOn (controller Car) state) thread owner ∧
          ∀ other, ¬ Waits (controller Car) state owner other) := by
  constructor
  · intro mutex apart left right first second
    exact (owned_run (proper_of_ne apart) start_idle ran).unique first second
  · intro clean thread mutex waits
    have ordered := fun thread => orderedAt_of_clean (clean thread)
    exact waits_on_runner (believed_run start_idle ran) ordered rank_le waits

/-- The control loop has `call_queue_mutex` and a handler comes to it; another one has the
list, which SIGINT on the accepting thread waits for. -/
def lockTrace : List (Action (Thread Nat) (Choice Nat)) :=
  [.go .control .yes, .go (.handler 0) .no, .go (.handler 1) .yes, .go (.handler 1) .yes,
    .interrupt .accepting]

def lockTaken : State (Thread Nat) (Point Nat) (Mutex Nat) :=
  (run (step (controller Nat)) (start Nat) lockTrace).get (by decide +kernel)

theorem controller_mutexes_lockTrace :
    (∀ mutex, mutex ≠ .carList → ∀ left right, (lockTaken.points left).Held mutex →
      (lockTaken.points right).Held mutex → left = right) ∧
    ((∀ thread, ¬ InterruptedHolding (lockTaken.points thread)) →
      ∀ thread mutex, Waits (controller Nat) lockTaken thread mutex →
        ∃ owner, Relation.TransGen (WaitsOn (controller Nat) lockTaken) thread owner ∧
          ∀ other, ¬ Waits (controller Nat) lockTaken owner other) :=
  @controller_mutexes Nat _ lockTaken lockTrace (Option.some_get _).symm

/-! ### SIGINT at a line that holds a mutex -/

/-- The handler has not got hold of a mutex that the interrupted line holds. -/
def Barred (mutex : Mutex Car) : Point Car → Prop
  | .sigint interrupted given point =>
      mutex ∈ interrupted.held →
        mutex ∉ given ∧ mutex ∉ point.held ∧
          (mutex = .callQueue → point ≠ .destroyCalls ∧ point ≠ .exited)
  | .running _ => True

theorem barred_of_points {mutex : Mutex Car} {points : Thread Car → Point Car}
    {thread : Thread Car} {target : Point Car} (barred : ∀ thread, Barred mutex (points thread))
    (moved : Barred mutex target) :
    ∀ other, Barred mutex (Function.update points thread target other) := by
  intro other
  by_cases same : other = thread
  · subst other
    rw [Function.update_self]
    exact moved
  · rw [Function.update_of_ne same]
    exact barred other

omit [DecidableEq Car] in
/-- A line of the handler that does not take the mutex leaves it barred. -/
theorem barred_next {mutex : Mutex Car} {interrupted : Line Car}
    {given : List (Mutex Car)} {point target : SigintPoint Car} {choice : Choice Car}
    (barred : Barred mutex (.sigint interrupted given point))
    (passes : point.next choice = some target)
    (free : mutex ∈ interrupted.held → mutex ∉ given → point.instruction ≠ .lock mutex) :
    Barred mutex (.sigint interrupted (given ++ givenBack point.instruction) target) := by
  intro holds
  obtain ⟨notGiven, notHeld, unfinished⟩ := barred holds
  have notTaken := free holds notGiven
  refine ⟨?_, ?_, ?_⟩
  · rw [List.mem_append, not_or]
    refine ⟨notGiven, fun gives => ?_⟩
    cases instruction : point.instruction with
    | lock taken => rw [instruction] at gives; cases gives
    | destroy gone => rw [instruction] at gives; cases gives
    | other => rw [instruction] at gives; cases gives
    | unlock back =>
        rw [instruction] at gives
        rw [List.mem_singleton.mp gives] at notHeld
        exact notHeld (SigintPoint.held_unlock instruction)
  · rw [SigintPoint.held_next passes]
    cases instruction : point.instruction with
    | lock taken =>
        rintro (same | older)
        · rw [same] at notTaken
          exact notTaken instruction
        · exact notHeld older
    | unlock back => exact fun kept => notHeld kept.2
    | destroy gone => exact notHeld
    | other => exact notHeld
  · rintro rfl
    have early := unfinished rfl
    constructor
    · rintro rfl
      rw [SigintPoint.before_destroyCalls passes] at notHeld
      exact notHeld (List.mem_singleton_self _)
    · rintro rfl
      exact early.1 (SigintPoint.before_exited passes)

theorem barred_step {mutex : Mutex Car} {action : Action (Thread Car) (Choice Car)}
    (owned : Owned (controller Car) mutex state)
    (barred : ∀ thread, Barred mutex (state.points thread))
    (taken : step (controller Car) state action = some next) :
    ∀ thread, Barred mutex (next.points thread) := by
  obtain ⟨thread, target, points, leads⟩ := step_points taken
  rw [points]
  refine barred_of_points barred ?_
  have before := barred thread
  cases stands : state.points thread with
  | running line =>
      rw [stands] at leads
      rcases leads with ⟨choice, _, passes⟩ | interrupts
      · obtain ⟨_, _, rfl⟩ := Option.map_eq_some_iff.mp passes
        trivial
      · obtain ⟨_, _, rfl⟩ := Point.interrupt_eq_some interrupts
        exact fun _ => ⟨List.not_mem_nil, List.not_mem_nil, fun _ => ⟨nofun, nofun⟩⟩
  | sigint interrupted given point =>
      rw [stands] at leads before
      rcases leads with ⟨choice, rfl, passes⟩ | interrupts
      · obtain ⟨after, passed, rfl⟩ := Option.map_eq_some_iff.mp passes
        refine barred_next before passed fun holds notGiven => ?_
        have held : (controller Car).Held (state.points thread) mutex := by
          rw [stands]
          exact Or.inr ⟨holds, notGiven⟩
        have runs := not_lock_of_held owned taken held
        rw [stands] at runs
        exact runs
      · cases interrupts

theorem barred_run (ran : run (step (controller Car)) (start Car) actions = some state)
    (mutex : Mutex Car) (apart : mutex ≠ .carList) (thread : Thread Car) :
    Barred mutex (state.points thread) := by
  have kept (before : State (Thread Car) (Point Car) (Mutex Car))
      (action : Action (Thread Car) (Choice Car))
      (after : State (Thread Car) (Point Car) (Mutex Car))
      (both : Owned (controller Car) mutex before ∧ ∀ thread, Barred mutex (before.points thread))
      (taken : step (controller Car) before action = some after) :
      Owned (controller Car) mutex after ∧ ∀ thread, Barred mutex (after.points thread) :=
    ⟨owned_step (proper_of_ne apart) both.1 taken, barred_step both.1 both.2 taken⟩
  refine (invariant_run_always kept ⟨?_, fun thread => ?_⟩ ran).2 thread
  · have nothing : run (step (controller Car)) (start Car) [] = some (start Car) := rfl
    exact owned_run (proper_of_ne apart) start_idle nothing
  · cases thread <;> trivial

/-- A line that SIGINT has interrupted keeps its mutexes: where it holds `call_queue_mutex`
the handler never comes to its `exit`, and where it holds the `queue_mutex` of a car the
handler never frees the queue of that car. -/
theorem sigint_barred (ran : run (step (controller Car)) (start Car) actions = some state)
    {thread : Thread Car} {interrupted : Line Car} {given : List (Mutex Car)}
    {point : SigintPoint Car} (stands : state.points thread = .sigint interrupted given point) :
    (.callQueue ∈ interrupted.held → point ≠ .freeingCalls ∧ point ≠ .exited) ∧
      ∀ car, .queue car ∈ interrupted.held → point ≠ .freeing car := by
  constructor
  · intro holds
    have barred := barred_run ran .callQueue nofun thread
    rw [stands] at barred
    obtain ⟨_, notHeld, unfinished⟩ := barred holds
    refine ⟨?_, (unfinished rfl).2⟩
    rintro rfl
    exact notHeld (List.mem_singleton_self _)
  · intro car holds
    have barred := barred_run ran (.queue car) nofun thread
    rw [stands] at barred
    obtain ⟨_, notHeld, _⟩ := barred holds
    rintro rfl
    exact notHeld List.mem_cons_self

/-- SIGINT finds the control loop between its lock and its test of the list. -/
def sigintTrace : List (Action (Thread Nat) (Choice Nat)) :=
  [.go .control .yes, .interrupt .control, .go .control .yes, .go .control .no,
    .go .control .no, .go .control .no]

def sigintWaits : State (Thread Nat) (Point Nat) (Mutex Nat) :=
  (run (step (controller Nat)) (start Nat) sigintTrace).get (by decide +kernel)

theorem sigint_barred_sigintTrace :
    (.callQueue ∈ (Line.control .testCalls : Line Nat).held →
        SigintPoint.lockCalls ≠ (.freeingCalls : SigintPoint Nat) ∧
          SigintPoint.lockCalls ≠ (.exited : SigintPoint Nat)) ∧
      ∀ car, .queue car ∈ (Line.control .testCalls : Line Nat).held →
        SigintPoint.lockCalls ≠ .freeing car :=
  @sigint_barred Nat _ sigintWaits sigintTrace (Option.some_get _).symm .control
    (.control .testCalls) [.carList] .lockCalls (by decide +kernel)

end Runs

end Cab403.Elevator.ControllerLocks
