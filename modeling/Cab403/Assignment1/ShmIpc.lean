/-
The controller and the worker of shm_ipc.c. They share a data block that no lock
protects; `request_work` and `do_work` are ordered by two counting semaphores alone.
Every access to a shared field is a step of its own. Arithmetic on doubles is given.
Beside the program's variables a state records the answers that `request_work` has
returned and the operations that `do_work` has taken up.
-/

import Cab403.Library.ActionRuns

namespace Cab403.Assignment1.ShmIpc

open ActionRuns

inductive Operation where
  | add
  | sub
  | mul
  | div
  | quit
  deriving DecidableEq, Repr

structure Request (Double : Type*) where
  operation : Operation
  lhs : Double
  rhs : Double
  deriving DecidableEq, Repr

structure Arithmetic (Double : Type*) where
  zero : Double
  add : Double → Double → Double
  sub : Double → Double → Double
  mul : Double → Double → Double
  div : Double → Double → Double

structure SharedData (Double : Type*) where
  controllerSemaphore : Nat
  workerSemaphore : Nat
  operation : Operation
  lhs : Double
  rhs : Double
  result : Double
  deriving DecidableEq, Repr

/-- The worker's control structure; `data` is an address. -/
structure SharedMemory where
  fd : Int
  data : Option Nat
  deriving DecidableEq, Repr

inductive ControllerPoint where
  | operation
  | lhs
  | rhs
  | post
  | wait
  | result
  deriving DecidableEq, Repr

/-- The next statement of `do_work`, with what it has read. -/
inductive WorkerPoint (Double : Type*) where
  | wait
  | switch
  | lhs (operation : Operation)
  | rhs (operation : Operation) (lhs : Double)
  | result (value : Double)
  | post (retVal : Bool)
  | unmap
  | stopped
  deriving DecidableEq, Repr

structure State (Double : Type*) where
  data : SharedData Double
  controller : ControllerPoint
  /-- The request that is issued, and those after it. -/
  requests : List (Request Double)
  worker : WorkerPoint Double
  shm : SharedMemory
  returned : List (Request Double × Double)
  taken : List Operation

inductive Party where
  | controller
  | worker
  deriving DecidableEq, Repr

variable {Double : Type*}

/-- The `case` of an operation in the `switch`; `op_quit` has no arithmetic. -/
def Arithmetic.compute (arithmetic : Arithmetic Double) :
    Operation → Double → Double → Option Double
  | .add, lhs, rhs => some (arithmetic.add lhs rhs)
  | .sub, lhs, rhs => some (arithmetic.sub lhs rhs)
  | .mul, lhs, rhs => some (arithmetic.mul lhs rhs)
  | .div, lhs, rhs => some (arithmetic.div lhs rhs)
  | .quit, _, _ => none

def requestWork (state : State Double) : Option (State Double) :=
  match state.requests with
  | [] => none
  | request :: rest =>
      match state.controller with
      | .operation =>
          some { state with
            data := { state.data with operation := request.operation }
            controller := .lhs }
      | .lhs =>
          some { state with
            data := { state.data with lhs := request.lhs }
            controller := .rhs }
      | .rhs =>
          some { state with
            data := { state.data with rhs := request.rhs }
            controller := .post }
      | .post =>
          some { state with
            data := { state.data with
              controllerSemaphore := state.data.controllerSemaphore + 1 }
            controller := .wait }
      | .wait =>
          if 0 < state.data.workerSemaphore then
            some { state with
              data := { state.data with workerSemaphore := state.data.workerSemaphore - 1 }
              controller := .result }
          else none
      | .result =>
          some { state with
            controller := .operation
            requests := rest
            returned := state.returned ++ [(request, state.data.result)] }

/-- `do_work` in its loop: while it returns true, it is called again. -/
def doWork (arithmetic : Arithmetic Double) (state : State Double) : Option (State Double) :=
  match state.worker with
  | .wait =>
      if 0 < state.data.controllerSemaphore then
        some { state with
          data := { state.data with controllerSemaphore := state.data.controllerSemaphore - 1 }
          worker := .switch }
      else none
  | .switch =>
      some { state with
        worker := if state.data.operation = .quit then .post false else .lhs state.data.operation
        taken := state.taken ++ [state.data.operation] }
  | .lhs operation => some { state with worker := .rhs operation state.data.lhs }
  | .rhs operation lhs =>
      (arithmetic.compute operation lhs state.data.rhs).map fun value =>
        { state with worker := .result value }
  | .result value =>
      some { state with data := { state.data with result := value }, worker := .post true }
  | .post retVal =>
      some { state with
        data := { state.data with workerSemaphore := state.data.workerSemaphore + 1 }
        worker := if retVal then .wait else .unmap }
  | .unmap => some { state with worker := .stopped, shm := { fd := -1, data := none } }
  | .stopped => none

def step (arithmetic : Arithmetic Double) (state : State Double) : Party → Option (State Double)
  | .controller => requestWork state
  | .worker => doWork arithmetic state

/-- The requests of `controller_main`: some work, and `request_work(&shm, op_quit, 0, 0)`. -/
def Arithmetic.requests (arithmetic : Arithmetic Double) (work : List (Request Double)) :
    List (Request Double) :=
  work ++ [{ operation := .quit, lhs := arithmetic.zero, rhs := arithmetic.zero }]

/-- Both have the object; `create_shared_object` has initialised the semaphores. -/
def State.initial (data : SharedData Double) (shm : SharedMemory)
    (requests : List (Request Double)) : State Double where
  data := { data with controllerSemaphore := 0, workerSemaphore := 0 }
  controller := .operation
  requests := requests
  worker := .wait
  shm := shm
  returned := []
  taken := []

/-! ### Where the two can stand -/

def Arithmetic.answer (arithmetic : Arithmetic Double) (request : Request Double) :
    Option Double :=
  arithmetic.compute request.operation request.lhs request.rhs

def SharedData.Carries (data : SharedData Double) (request : Request Double) : Prop :=
  data.operation = request.operation ∧ data.lhs = request.lhs ∧ data.rhs = request.rhs

def SharedData.Posted (data : SharedData Double) (controller worker : Nat) : Prop :=
  data.controllerSemaphore = controller ∧ data.workerSemaphore = worker

/-- What the worker has done about a request: the result is there, or it has left its loop. -/
def Answered (arithmetic : Arithmetic Double) (request : Request Double)
    (worker : WorkerPoint Double) (data : SharedData Double) : Prop :=
  (worker = .wait ∧ arithmetic.answer request = some data.result) ∨
    ((worker = .unmap ∨ worker = .stopped) ∧ request.operation = .quit)

/-- The two points, the fields and semaphores that go with them, and whether the worker
has taken up the request. -/
inductive Joint (arithmetic : Arithmetic Double) (request : Request Double) :
    ControllerPoint → WorkerPoint Double → SharedData Double → Bool → Prop
  | operation {data : SharedData Double} (posted : data.Posted 0 0) :
      Joint arithmetic request .operation .wait data false
  | lhs {data : SharedData Double} (posted : data.Posted 0 0)
      (operation : data.operation = request.operation) :
      Joint arithmetic request .lhs .wait data false
  | rhs {data : SharedData Double} (posted : data.Posted 0 0)
      (operation : data.operation = request.operation) (lhs : data.lhs = request.lhs) :
      Joint arithmetic request .rhs .wait data false
  | post {data : SharedData Double} (posted : data.Posted 0 0) (carries : data.Carries request) :
      Joint arithmetic request .post .wait data false
  | issued {data : SharedData Double} (posted : data.Posted 1 0)
      (carries : data.Carries request) :
      Joint arithmetic request .wait .wait data false
  | switch {data : SharedData Double} (posted : data.Posted 0 0)
      (carries : data.Carries request) :
      Joint arithmetic request .wait .switch data false
  | readsLhs {data : SharedData Double} (posted : data.Posted 0 0)
      (carries : data.Carries request) (computes : request.operation ≠ .quit) :
      Joint arithmetic request .wait (.lhs request.operation) data true
  | readsRhs {data : SharedData Double} (posted : data.Posted 0 0)
      (carries : data.Carries request) (computes : request.operation ≠ .quit) :
      Joint arithmetic request .wait (.rhs request.operation request.lhs) data true
  | stores {data : SharedData Double} {value : Double} (posted : data.Posted 0 0)
      (carries : data.Carries request) (answer : arithmetic.answer request = some value) :
      Joint arithmetic request .wait (.result value) data true
  | posts {data : SharedData Double} (posted : data.Posted 0 0) (carries : data.Carries request)
      (answer : arithmetic.answer request = some data.result) :
      Joint arithmetic request .wait (.post true) data true
  | leaves {data : SharedData Double} (posted : data.Posted 0 0)
      (carries : data.Carries request) (quits : request.operation = .quit) :
      Joint arithmetic request .wait (.post false) data true
  | answered {worker : WorkerPoint Double} {data : SharedData Double} (posted : data.Posted 0 1)
      (carries : data.Carries request) (answered : Answered arithmetic request worker data) :
      Joint arithmetic request .wait worker data true
  | returns {worker : WorkerPoint Double} {data : SharedData Double} (posted : data.Posted 0 0)
      (carries : data.Carries request) (answered : Answered arithmetic request worker data) :
      Joint arithmetic request .result worker data true

def Over (controller : ControllerPoint) (worker : WorkerPoint Double) (data : SharedData Double) :
    Prop :=
  controller = .operation ∧ (worker = .unmap ∨ worker = .stopped) ∧ data.Posted 0 0

/-- The current request, or the end, and the operations taken up so far. -/
def State.Current (arithmetic : Arithmetic Double) (state : State Double) : Prop :=
  match state.requests with
  | [] =>
      Over state.controller state.worker state.data ∧
        state.taken = state.returned.map (·.1.operation)
  | request :: _ =>
      ∃ begun, Joint arithmetic request state.controller state.worker state.data begun ∧
        state.taken =
          state.returned.map (·.1.operation) ++ if begun then [request.operation] else []

structure State.Invariant (arithmetic : Arithmetic Double) (work : List (Request Double))
    (shm : SharedMemory) (state : State Double) : Prop where
  issued : state.returned.map Prod.fst ++ state.requests = arithmetic.requests work
  answered : ∀ answer ∈ state.returned, answer.1.operation ≠ .quit →
    arithmetic.answer answer.1 = some answer.2
  current : state.Current arithmetic
  reset : state.worker = .stopped → state.shm = { fd := -1, data := none }
  attached : state.worker ≠ .stopped → state.shm = shm

theorem compute_isSome (arithmetic : Arithmetic Double) {operation : Operation}
    (computes : operation ≠ .quit) (lhs rhs : Double) :
    ∃ value, arithmetic.compute operation lhs rhs = some value := by
  cases operation with
  | quit => exact absurd rfl computes
  | _ => exact ⟨_, rfl⟩

theorem answer_eq_none {arithmetic : Arithmetic Double} {request : Request Double}
    (quits : request.operation = .quit) : arithmetic.answer request = none := by
  rw [Arithmetic.answer, quits]
  rfl

/-- A request for work is followed by another one, and `op_quit` by none. -/
theorem rest_eq_nil_iff {arithmetic : Arithmetic Double} {work before rest : List (Request Double)}
    {request : Request Double} (computes : ∀ request ∈ work, request.operation ≠ .quit)
    (issued : before ++ request :: rest = arithmetic.requests work) :
    rest = [] ↔ request.operation = .quit := by
  unfold Arithmetic.requests at issued
  constructor
  · rintro rfl
    have last := (List.append_inj' issued rfl).2
    rw [(List.cons.inj last).1]
  · intro quits
    by_contra more
    obtain ⟨front, last, rfl⟩ : ∃ front last, rest = front ++ [last] :=
      ⟨rest.dropLast, rest.getLast more, (List.dropLast_concat_getLast more).symm⟩
    rw [← List.cons_append, ← List.append_assoc] at issued
    have same := (List.append_inj' issued rfl).1
    exact computes request (by rw [← same]; simp) quits

section Steps

variable {arithmetic : Arithmetic Double} {work : List (Request Double)} {shm : SharedMemory}
  {state next : State Double}

theorem requestWork_waits (empty : state.data.workerSemaphore = 0)
    (waits : state.controller = .wait) : requestWork state = none := by
  unfold requestWork
  split
  · rfl
  · rw [waits]
    exact if_neg (by rw [empty]; exact Nat.lt_irrefl 0)

/-- An answer taken for quitting is none, and one taken for work ends no loop. -/
theorem Answered.cases {request : Request Double} {worker : WorkerPoint Double}
    {data : SharedData Double} (done : Answered arithmetic request worker data) :
    (request.operation ≠ .quit → worker = .wait ∧ arithmetic.answer request = some data.result) ∧
      (request.operation = .quit → worker = .unmap ∨ worker = .stopped) := by
  rcases done with ⟨waits, answer⟩ | ⟨left, quits⟩
  · refine ⟨fun _ => ⟨waits, answer⟩, fun quits => ?_⟩
    rw [answer_eq_none quits] at answer
    cases answer
  · exact ⟨fun computes => absurd quits computes, fun _ => left⟩

theorem requestWork_invariant (computes : ∀ request ∈ work, request.operation ≠ .quit)
    (held : state.Invariant arithmetic work shm) (moved : requestWork state = some next) :
    next.Invariant arithmetic work shm := by
  obtain ⟨issued, answered, current, reset, attached⟩ := held
  obtain ⟨data, controller, requests, worker, handle, returned, taken⟩ := state
  cases requests with
  | nil => cases moved
  | cons request rest =>
      obtain ⟨begun, joint, begunOperations⟩ := current
      dsimp only at joint begunOperations issued answered reset attached
      cases joint with
      | operation posted =>
          cases moved
          exact ⟨issued, answered, ⟨_, .lhs posted rfl, begunOperations⟩, reset, attached⟩
      | lhs posted operation =>
          cases moved
          exact ⟨issued, answered, ⟨_, .rhs posted operation rfl, begunOperations⟩, reset, attached⟩
      | rhs posted operation lhs =>
          cases moved
          exact ⟨issued, answered, ⟨_, .post posted ⟨operation, lhs, rfl⟩, begunOperations⟩, reset,
            attached⟩
      | post posted carries =>
          cases moved
          refine ⟨issued, answered, ⟨_, .issued ?_ carries, begunOperations⟩, reset, attached⟩
          exact ⟨congrArg (· + 1) posted.1, posted.2⟩
      | issued posted carries =>
          rw [requestWork_waits posted.2 rfl] at moved
          cases moved
      | switch posted carries =>
          rw [requestWork_waits posted.2 rfl] at moved
          cases moved
      | readsLhs posted carries works =>
          rw [requestWork_waits posted.2 rfl] at moved
          cases moved
      | readsRhs posted carries works =>
          rw [requestWork_waits posted.2 rfl] at moved
          cases moved
      | stores posted carries answer =>
          rw [requestWork_waits posted.2 rfl] at moved
          cases moved
      | posts posted carries answer =>
          rw [requestWork_waits posted.2 rfl] at moved
          cases moved
      | leaves posted carries quits =>
          rw [requestWork_waits posted.2 rfl] at moved
          cases moved
      | answered posted carries done =>
          obtain ⟨_, rfl⟩ := of_guarded moved
          refine ⟨issued, answered, ⟨_, .returns ?_ carries done, begunOperations⟩, reset, attached⟩
          exact ⟨posted.1, congrArg (· - 1) posted.2⟩
      | returns posted carries done =>
          cases moved
          have whole := rest_eq_nil_iff computes issued
          refine ⟨?_, ?_, ?_, reset, attached⟩
          · rw [List.map_append, List.append_assoc]
            exact issued
          · intro answer member works
            rcases List.mem_append.mp member with earlier | new
            · exact answered answer earlier works
            · rw [List.mem_singleton] at new
              subst new
              exact (done.cases.1 works).2
          · have begunAll : taken = (returned ++ [(request, data.result)]).map (·.1.operation) := by
              rw [List.map_append]
              exact begunOperations
            cases rest with
            | nil => exact ⟨⟨rfl, done.cases.2 (whole.mp rfl), posted⟩, begunAll⟩
            | cons later rest =>
                have works : request.operation ≠ .quit := fun quits => nomatch whole.mpr quits
                obtain ⟨rfl, _⟩ := done.cases.1 works
                exact ⟨false, .operation posted, by rw [begunAll]; exact (List.append_nil _).symm⟩

theorem doWork_waits (empty : state.data.controllerSemaphore = 0) (waits : state.worker = .wait) :
    doWork arithmetic state = none := by
  unfold doWork
  rw [waits]
  exact if_neg (by rw [empty]; exact Nat.lt_irrefl 0)

/-- A worker that is done with a request can only unmap the object. -/
theorem doWork_answered {request : Request Double}
    (done : Answered arithmetic request state.worker state.data)
    (empty : state.data.controllerSemaphore = 0) (moved : doWork arithmetic state = some next) :
    request.operation = .quit ∧
      next = { state with worker := .stopped, shm := { fd := -1, data := none } } := by
  rcases done with ⟨waits, _⟩ | ⟨left | left, quits⟩
  · rw [doWork_waits empty waits] at moved
    cases moved
  · rw [doWork, left] at moved
    exact ⟨quits, (Option.some.inj moved).symm⟩
  · rw [doWork, left] at moved
    cases moved

theorem doWork_invariant (held : state.Invariant arithmetic work shm)
    (moved : doWork arithmetic state = some next) : next.Invariant arithmetic work shm := by
  obtain ⟨issued, answered, current, reset, attached⟩ := held
  obtain ⟨data, controller, requests, worker, handle, returned, taken⟩ := state
  cases requests with
  | nil =>
      obtain ⟨⟨ends, left, posted⟩, begunOperations⟩ := current
      dsimp only at ends left posted begunOperations issued answered reset attached
      rcases left with rfl | rfl
      · cases moved
        exact ⟨issued, answered, ⟨⟨ends, Or.inr rfl, posted⟩, begunOperations⟩, fun _ => rfl,
          fun running => absurd rfl running⟩
      · cases moved
  | cons request rest =>
      obtain ⟨begun, joint, begunOperations⟩ := current
      dsimp only at joint begunOperations issued answered reset attached
      cases joint with
      | operation posted =>
          rw [doWork_waits posted.1 rfl] at moved
          cases moved
      | lhs posted operation =>
          rw [doWork_waits posted.1 rfl] at moved
          cases moved
      | rhs posted operation lhs =>
          rw [doWork_waits posted.1 rfl] at moved
          cases moved
      | post posted carries =>
          rw [doWork_waits posted.1 rfl] at moved
          cases moved
      | issued posted carries =>
          obtain ⟨_, rfl⟩ := of_guarded moved
          refine ⟨issued, answered, ⟨_, .switch ?_ carries, begunOperations⟩, nofun,
            fun _ => attached nofun⟩
          exact ⟨congrArg (· - 1) posted.1, posted.2⟩
      | switch posted carries =>
          cases moved
          have begunNext : taken ++ [data.operation] =
              returned.map (·.1.operation) ++ [request.operation] := by
            rw [begunOperations, carries.1]
            exact congrArg (· ++ _) (List.append_nil _)
          by_cases quits : data.operation = .quit
          · rw [if_pos quits]
            exact ⟨issued, answered, ⟨_, .leaves posted carries (carries.1 ▸ quits), begunNext⟩,
              nofun, fun _ => attached nofun⟩
          · rw [if_neg quits]
            refine ⟨issued, answered, ⟨true, ?_, begunNext⟩, nofun, fun _ => attached nofun⟩
            rw [carries.1] at quits
            have reads : Joint arithmetic request .wait (.lhs request.operation) data true :=
              .readsLhs posted carries quits
            rwa [← carries.1] at reads
      | readsLhs posted carries works =>
          cases moved
          refine ⟨issued, answered, ⟨true, ?_, begunOperations⟩, nofun, fun _ => attached nofun⟩
          have reads :
              Joint arithmetic request .wait (.rhs request.operation request.lhs) data true :=
            .readsRhs posted carries works
          rwa [← carries.2.1] at reads
      | readsRhs posted carries works =>
          obtain ⟨value, computed, rfl⟩ := Option.map_eq_some_iff.mp moved
          rw [carries.2.2] at computed
          exact ⟨issued, answered, ⟨_, .stores posted carries computed, begunOperations⟩, nofun,
            fun _ => attached nofun⟩
      | stores posted carries answer =>
          cases moved
          exact ⟨issued, answered, ⟨_, .posts posted carries answer, begunOperations⟩, nofun,
            fun _ => attached nofun⟩
      | posts posted carries answer =>
          cases moved
          refine ⟨issued, answered, ⟨_, .answered ?_ carries (Or.inl ⟨rfl, answer⟩),
            begunOperations⟩, nofun, fun _ => attached nofun⟩
          exact ⟨posted.1, congrArg (· + 1) posted.2⟩
      | leaves posted carries quits =>
          cases moved
          refine ⟨issued, answered, ⟨_, .answered ?_ carries (Or.inr ⟨Or.inl rfl, quits⟩),
            begunOperations⟩, nofun, fun _ => attached nofun⟩
          exact ⟨posted.1, congrArg (· + 1) posted.2⟩
      | answered posted carries done =>
          obtain ⟨quits, rfl⟩ := doWork_answered done posted.1 moved
          exact ⟨issued, answered, ⟨_, .answered posted carries (Or.inr ⟨Or.inr rfl, quits⟩),
            begunOperations⟩, fun _ => rfl, fun running => absurd rfl running⟩
      | returns posted carries done =>
          obtain ⟨quits, rfl⟩ := doWork_answered done posted.1 moved
          exact ⟨issued, answered, ⟨_, .returns posted carries (Or.inr ⟨Or.inr rfl, quits⟩),
            begunOperations⟩, fun _ => rfl, fun running => absurd rfl running⟩

theorem invariant_initial (data : SharedData Double) (shm : SharedMemory) :
    (State.initial data shm (arithmetic.requests work)).Invariant arithmetic work shm where
  issued := rfl
  answered _ member := nomatch member
  current := by
    unfold State.Current
    split
    · rename_i none_
      exact absurd none_ (List.append_ne_nil_of_right_ne_nil work (List.cons_ne_nil _ _))
    · exact ⟨false, .operation ⟨rfl, rfl⟩, rfl⟩
  reset stopped := nomatch stopped
  attached _ := rfl

theorem invariant_step (computes : ∀ request ∈ work, request.operation ≠ .quit)
    (held : state.Invariant arithmetic work shm) {party : Party}
    (moved : step arithmetic state party = some next) : next.Invariant arithmetic work shm := by
  cases party with
  | controller => exact requestWork_invariant computes held moved
  | worker => exact doWork_invariant held moved

/-! ### The end of a run -/

def ControllerPoint.done : ControllerPoint → Nat
  | .operation => 0
  | .lhs => 1
  | .rhs => 2
  | .post => 3
  | .wait => 4
  | .result => 5

/-- The steps the worker can still take, when it has `left` requests to take up. -/
def WorkerPoint.rank (left : Nat) : WorkerPoint Double → Nat
  | .wait => 7 * left
  | .switch => 7 * left - 1
  | .lhs _ => 7 * left + 5
  | .rhs _ _ => 7 * left + 4
  | .result _ => 7 * left + 3
  | .post _ => 7 * left + 2
  | .unmap => 7 * left + 1
  | .stopped => 7 * left

def State.rank (total : Nat) (state : State Double) : Nat :=
  6 * state.requests.length - state.controller.done +
    state.worker.rank (total - state.taken.length)

theorem Answered.not_ready {request : Request Double} {worker : WorkerPoint Double}
    {data : SharedData Double} (done : Answered arithmetic request worker data)
    (empty : data.controllerSemaphore = 0) :
    ¬ (worker = .switch ∨ (worker = .wait ∧ 0 < data.controllerSemaphore)) := by
  rintro (rfl | ⟨rfl, positive⟩)
  · rcases done with ⟨waits, _⟩ | ⟨left | left, _⟩
    · cases waits
    · cases left
    · cases left
  · rw [empty] at positive
    exact Nat.lt_irrefl 0 positive

/-- A worker about to take up a request has not taken up the current one. -/
theorem Joint.fresh {request : Request Double} {controller : ControllerPoint}
    {worker : WorkerPoint Double} {data : SharedData Double} {begun : Bool}
    (joint : Joint arithmetic request controller worker data begun)
    (ready : worker = .switch ∨ (worker = .wait ∧ 0 < data.controllerSemaphore)) :
    begun = false := by
  cases joint with
  | operation | lhs | rhs | post | issued | switch => rfl
  | readsLhs | readsRhs | stores | posts | leaves =>
      rcases ready with ready | ⟨ready, _⟩ <;> cases ready
  | answered posted carries done => exact absurd ready (done.not_ready posted.1)
  | returns posted carries done => exact absurd ready (done.not_ready posted.1)

theorem State.Invariant.taken_lt (held : state.Invariant arithmetic work shm)
    (ready : state.worker = .switch ∨
      (state.worker = .wait ∧ 0 < state.data.controllerSemaphore)) :
    state.taken.length < (arithmetic.requests work).length := by
  have current := held.current
  have total := congrArg List.length held.issued
  rw [List.length_append, List.length_map] at total
  unfold State.Current at current
  split at current
  · rcases current.1.2.1 with left | left
    · rw [left] at ready
      rcases ready with ready | ⟨ready, _⟩ <;> cases ready
    · rw [left] at ready
      rcases ready with ready | ⟨ready, _⟩ <;> cases ready
  · rename_i request rest requests
    obtain ⟨begun, joint, begunOperations⟩ := current
    rw [joint.fresh ready] at begunOperations
    rw [requests, List.length_cons] at total
    rw [begunOperations, List.length_append, List.length_map]
    change _ + 0 < _
    omega

theorem ControllerPoint.done_lt (point : ControllerPoint) : point.done < 6 := by
  cases point with
  | _ => decide

/-- The controller goes on with its request. -/
theorem rank_lt_of_done {total : Nat} (requests : next.requests = state.requests)
    (worker : next.worker = state.worker) (taken : next.taken = state.taken)
    (pending : state.requests ≠ []) (ahead : state.controller.done < next.controller.done) :
    next.rank total < state.rank total := by
  have positive : 0 < state.requests.length := List.length_pos_iff.mpr pending
  have bounded := next.controller.done_lt
  rw [State.rank, State.rank, requests, worker, taken]
  omega

/-- The worker goes on with the request that it has taken up. -/
theorem rank_lt_of_worker {total : Nat} (requests : next.requests = state.requests)
    (controller : next.controller = state.controller) (taken : next.taken = state.taken)
    (lower : next.worker.rank (total - state.taken.length) <
      state.worker.rank (total - state.taken.length)) :
    next.rank total < state.rank total := by
  rw [State.rank, State.rank, requests, controller, taken]
  exact Nat.add_lt_add_left lower _

theorem requestWork_lowers (total : Nat) (moved : requestWork state = some next) :
    next.rank total < state.rank total := by
  obtain ⟨request, rest, requests⟩ : ∃ request rest, state.requests = request :: rest := by
    cases requests : state.requests with
    | nil =>
        simp only [requestWork, requests] at moved
        cases moved
    | cons request rest => exact ⟨request, rest, rfl⟩
  have pending : state.requests ≠ [] := by
    rw [requests]
    exact List.cons_ne_nil request rest
  simp only [requestWork, requests] at moved
  cases point : state.controller with
  | operation =>
      simp only [point] at moved
      cases moved
      refine rank_lt_of_done requests.symm rfl rfl pending ?_
      rw [point]
      exact Nat.lt_succ_self _
  | lhs =>
      simp only [point] at moved
      cases moved
      refine rank_lt_of_done requests.symm rfl rfl pending ?_
      rw [point]
      exact Nat.lt_succ_self _
  | rhs =>
      simp only [point] at moved
      cases moved
      refine rank_lt_of_done requests.symm rfl rfl pending ?_
      rw [point]
      exact Nat.lt_succ_self _
  | post =>
      simp only [point] at moved
      cases moved
      refine rank_lt_of_done requests.symm rfl rfl pending ?_
      rw [point]
      exact Nat.lt_succ_self _
  | wait =>
      simp only [point] at moved
      obtain ⟨_, rfl⟩ := of_guarded moved
      refine rank_lt_of_done requests.symm rfl rfl pending ?_
      rw [point]
      exact Nat.lt_succ_self _
  | result =>
      simp only [point] at moved
      cases moved
      simp only [State.rank, requests, point, ControllerPoint.done, List.length_cons]
      omega

theorem doWork_lowers (held : state.Invariant arithmetic work shm)
    (moved : doWork arithmetic state = some next) :
    next.rank (arithmetic.requests work).length < state.rank (arithmetic.requests work).length := by
  have ready := held.taken_lt
  unfold doWork at moved
  cases point : state.worker with
  | wait =>
      simp only [point] at moved ready
      obtain ⟨positive, rfl⟩ := of_guarded moved
      have more := ready (Or.inr ⟨trivial, positive⟩)
      refine rank_lt_of_worker rfl rfl rfl ?_
      rw [point]
      exact Nat.sub_one_lt_of_lt (Nat.mul_pos (by decide) (Nat.sub_pos_of_lt more))
  | switch =>
      simp only [point] at moved ready
      have more := ready (Or.inl trivial)
      cases moved
      simp only [State.rank, point]
      split
      · simp only [WorkerPoint.rank, List.length_append, List.length_singleton]
        omega
      · simp only [WorkerPoint.rank, List.length_append, List.length_singleton]
        omega
  | lhs operation =>
      simp only [point] at moved
      cases moved
      refine rank_lt_of_worker rfl rfl rfl ?_
      rw [point]
      exact Nat.lt_succ_self _
  | rhs operation lhs =>
      simp only [point] at moved
      obtain ⟨value, _, rfl⟩ := Option.map_eq_some_iff.mp moved
      refine rank_lt_of_worker rfl rfl rfl ?_
      rw [point]
      exact Nat.lt_succ_self _
  | result value =>
      simp only [point] at moved
      cases moved
      refine rank_lt_of_worker rfl rfl rfl ?_
      rw [point]
      exact Nat.lt_succ_self _
  | post retVal =>
      simp only [point] at moved
      cases moved
      refine rank_lt_of_worker rfl rfl rfl ?_
      rw [point]
      cases retVal with
      | false => exact Nat.lt_succ_self _
      | true => exact Nat.lt_add_of_pos_right (by decide)
  | unmap =>
      simp only [point] at moved
      cases moved
      refine rank_lt_of_worker rfl rfl rfl ?_
      rw [point]
      exact Nat.lt_succ_self _
  | stopped =>
      simp only [point] at moved
      cases moved

theorem rank_lowers (held : state.Invariant arithmetic work shm) {party : Party}
    (moved : step arithmetic state party = some next) :
    next.rank (arithmetic.requests work).length < state.rank (arithmetic.requests work).length := by
  cases party with
  | controller => exact requestWork_lowers _ moved
  | worker => exact doWork_lowers held moved

/-- Until both are through, one of them is not waiting. -/
theorem State.Invariant.continues (held : state.Invariant arithmetic work shm)
    (unfinished : state.requests ≠ [] ∨ state.worker ≠ .stopped) :
    ∃ party next, step arithmetic state party = some next := by
  obtain ⟨_, _, current, _, _⟩ := held
  obtain ⟨data, controller, requests, worker, handle, returned, taken⟩ := state
  cases requests with
  | nil =>
      obtain ⟨⟨_, left, _⟩, _⟩ := current
      dsimp only at left unfinished
      rcases left with rfl | rfl
      · exact ⟨.worker, _, rfl⟩
      · rcases unfinished with unfinished | unfinished
        · exact absurd rfl unfinished
        · exact absurd rfl unfinished
  | cons request rest =>
      obtain ⟨begun, joint, _⟩ := current
      dsimp only at joint
      cases joint with
      | operation | lhs | rhs | post | returns => exact ⟨.controller, _, rfl⟩
      | issued posted carries =>
          exact ⟨.worker, _, if_pos (show 0 < data.controllerSemaphore by rw [posted.1]; decide)⟩
      | switch | readsLhs | stores | posts | leaves => exact ⟨.worker, _, rfl⟩
      | readsRhs posted carries works =>
          obtain ⟨value, computed⟩ := compute_isSome arithmetic works request.lhs data.rhs
          exact ⟨.worker, _, Option.map_eq_some_iff.mpr ⟨value, computed, rfl⟩⟩
      | answered posted carries done =>
          exact ⟨.controller, _, if_pos (show 0 < data.workerSemaphore by rw [posted.2]; decide)⟩

/-! ### Whole runs -/

structure State.Paired (arithmetic : Arithmetic Double) (work : List (Request Double))
    (shm : SharedMemory) (state : State Double) : Prop where
  issued : state.returned.map Prod.fst ++ state.requests = arithmetic.requests work
  answered : ∀ answer ∈ state.returned, answer.1.operation ≠ .quit →
    arithmetic.answer answer.1 = some answer.2
  /-- The worker takes up every request once, and before its answer is returned. -/
  taken : state.taken <+: (arithmetic.requests work).map Request.operation
  inTurn : state.returned.length ≤ state.taken.length ∧
    state.taken.length ≤ state.returned.length + 1
  undisturbed : ∀ next, doWork arithmetic state = some next →
    next.data.operation = state.data.operation ∧ next.data.lhs = state.data.lhs ∧
      next.data.rhs = state.data.rhs
  leaves : .quit ∈ state.taken ↔
    state.worker = .post false ∨ state.worker = .unmap ∨ state.worker = .stopped
  reset : state.worker = .stopped → state.shm = { fd := -1, data := none }
  attached : state.worker ≠ .stopped → state.shm = shm
  /-- The controller has its answer, or can have it without the worker. -/
  released : state.worker = .unmap ∨ state.worker = .stopped →
    state.requests = [] ∨ state.controller = .result ∨
      (state.controller = .wait ∧ 0 < state.data.workerSemaphore)
  continues : state.requests ≠ [] ∨ state.worker ≠ .stopped →
    ∃ party next, step arithmetic state party = some next

theorem doWork_undisturbed (moved : doWork arithmetic state = some next) :
    next.data.operation = state.data.operation ∧ next.data.lhs = state.data.lhs ∧
      next.data.rhs = state.data.rhs := by
  unfold doWork at moved
  split at moved
  case h_1 =>
    obtain ⟨_, rfl⟩ := of_guarded moved
    exact ⟨rfl, rfl, rfl⟩
  case h_4 =>
    obtain ⟨_, _, rfl⟩ := Option.map_eq_some_iff.mp moved
    exact ⟨rfl, rfl, rfl⟩
  all_goals cases moved
  all_goals exact ⟨rfl, rfl, rfl⟩

/-- The worker is past its `switch` for quitting just when that is what it took up. -/
theorem Joint.leaves_iff {request : Request Double} {controller : ControllerPoint}
    {worker : WorkerPoint Double} {data : SharedData Double} {begun : Bool}
    (joint : Joint arithmetic request controller worker data begun) :
    begun = true ∧ request.operation = .quit ↔
      worker = .post false ∨ worker = .unmap ∨ worker = .stopped := by
  have finished (done : Answered arithmetic request worker data) :
      request.operation = .quit ↔
        worker = .post false ∨ worker = .unmap ∨ worker = .stopped := by
    constructor
    · exact fun quits => Or.inr (done.cases.2 quits)
    · intro left
      by_contra works
      rw [(done.cases.1 works).1] at left
      simp at left
  cases joint with
  | operation | lhs | rhs | post | issued | switch => simp
  | readsLhs posted carries works => simp [works]
  | readsRhs posted carries works => simp [works]
  | stores posted carries answer =>
      have works : request.operation ≠ .quit := fun quits => by
        rw [answer_eq_none quits] at answer
        cases answer
      simp [works]
  | posts posted carries answer =>
      have works : request.operation ≠ .quit := fun quits => by
        rw [answer_eq_none quits] at answer
        cases answer
      simp [works]
  | leaves posted carries quits => simp [quits]
  | answered posted carries done => simpa using finished done
  | returns posted carries done => simpa using finished done

/-- Answers before the last request are answers to work. -/
theorem State.Invariant.returned_work (computes : ∀ request ∈ work, request.operation ≠ .quit)
    (held : state.Invariant arithmetic work shm) {request : Request Double}
    {rest : List (Request Double)} (requests : state.requests = request :: rest) :
    .quit ∉ state.returned.map (·.1.operation) := by
  have issued := held.issued
  have total := congrArg List.length issued
  rw [requests] at issued total
  simp only [Arithmetic.requests, List.length_append, List.length_map, List.length_cons,
    List.length_nil] at total
  have within : state.returned.map Prod.fst <+: work :=
    List.prefix_of_prefix_length_le ⟨_, issued⟩ (List.prefix_append work _)
      (by rw [List.length_map]; omega)
  intro member
  obtain ⟨answer, returned, quits⟩ := List.mem_map.mp member
  exact computes answer.1 (within.subset (List.mem_map_of_mem returned)) quits

/-- The operations taken up are those returned, and perhaps that of the current request. -/
theorem State.Invariant.taken_eq (held : state.Invariant arithmetic work shm) :
    ∃ begun, state.taken = state.returned.map (·.1.operation) ++ begun ∧ begun.length ≤ 1 ∧
      begun <+: state.requests.map Request.operation := by
  have current := held.current
  unfold State.Current at current
  split at current
  · exact ⟨[], by rw [current.2, List.append_nil], Nat.zero_le _, List.nil_prefix⟩
  · rename_i request rest requests
    obtain ⟨begun, _, taken⟩ := current
    cases begun with
    | false => exact ⟨[], taken, Nat.zero_le _, List.nil_prefix⟩
    | true =>
        refine ⟨[request.operation], taken, Nat.le_refl _, rest.map Request.operation, ?_⟩
        rw [requests]
        rfl

theorem State.Invariant.leaves_iff (computes : ∀ request ∈ work, request.operation ≠ .quit)
    (held : state.Invariant arithmetic work shm) :
    .quit ∈ state.taken ↔
      state.worker = .post false ∨ state.worker = .unmap ∨ state.worker = .stopped := by
  have current := held.current
  unfold State.Current at current
  split at current
  · rename_i requests
    have issued := held.issued
    rw [requests, List.append_nil] at issued
    obtain ⟨⟨_, left, _⟩, taken⟩ := current
    refine iff_of_true ?_ (Or.inr left)
    have operations := congrArg (List.map Request.operation) issued
    rw [List.map_map] at operations
    rw [taken, show state.returned.map (·.1.operation) = _ from operations]
    simp [Arithmetic.requests]
  · rename_i request rest requests
    obtain ⟨begun, joint, taken⟩ := current
    have working := held.returned_work computes requests
    rw [taken, ← joint.leaves_iff, List.mem_append, or_iff_right working]
    cases begun with
    | false => simp
    | true => simp [eq_comm]

theorem State.Invariant.released (held : state.Invariant arithmetic work shm)
    (left : state.worker = .unmap ∨ state.worker = .stopped) :
    state.requests = [] ∨ state.controller = .result ∨
      (state.controller = .wait ∧ 0 < state.data.workerSemaphore) := by
  have current := held.current
  unfold State.Current at current
  split at current
  · rename_i requests
    exact Or.inl requests
  · obtain ⟨begun, joint, _⟩ := current
    right
    generalize state.controller = controller, state.worker = worker at joint left
    cases joint with
    | answered posted carries done =>
        exact Or.inr ⟨rfl, by rw [posted.2]; exact Nat.succ_pos 0⟩
    | returns posted carries done => exact Or.inl rfl
    | _ => rcases left with left | left <;> cases left

theorem State.Invariant.paired (computes : ∀ request ∈ work, request.operation ≠ .quit)
    (held : state.Invariant arithmetic work shm) : state.Paired arithmetic work shm := by
  obtain ⟨begun, taken, short, isNext⟩ := held.taken_eq
  have operations := congrArg (List.map Request.operation) held.issued
  rw [List.map_append, List.map_map] at operations
  constructor
  case issued => exact held.issued
  case answered => exact held.answered
  case taken =>
    rw [taken, ← operations]
    exact (List.prefix_append_right_inj _).mpr isNext
  case inTurn =>
    rw [taken, List.length_append, List.length_map]
    omega
  case undisturbed => exact fun next moved => doWork_undisturbed moved
  case leaves => exact held.leaves_iff computes
  case reset => exact held.reset
  case attached => exact held.attached
  case released => exact held.released
  case continues => exact held.continues

/-- However the two interleave, every answer is the right one, the worker stops at the
quit request and releases the controller, and both are through after boundedly many
steps. -/
theorem requestWork_paired (arithmetic : Arithmetic Double) (work : List (Request Double))
    (computes : ∀ request ∈ work, request.operation ≠ .quit) (data : SharedData Double)
    (shm : SharedMemory) (parties : List Party) (reached : State Double)
    (ran : run (step arithmetic) (State.initial data shm (arithmetic.requests work)) parties =
      some reached) :
    reached.Paired arithmetic work shm ∧ parties.length ≤ 13 * (work.length + 1) := by
  have initial :
      (State.initial data shm (arithmetic.requests work)).Invariant arithmetic work shm :=
    invariant_initial data shm
  have held : reached.Invariant arithmetic work shm :=
    invariant_run_always (fun _ _ _ held moved => invariant_step computes held moved) initial ran
  have bounded := run_length_le (fun _ _ _ held moved => invariant_step computes held moved)
    (fun _ _ _ held moved => rank_lowers held moved) initial ran
  refine ⟨held.paired computes, ?_⟩
  have start : (State.initial data shm (arithmetic.requests work)).rank
      (arithmetic.requests work).length = 13 * (work.length + 1) := by
    simp only [State.rank, State.initial, ControllerPoint.done, WorkerPoint.rank,
      Arithmetic.requests, List.length_append, List.length_singleton, List.length_nil]
    omega
  omega

end Steps

/-- Arithmetic on integers in the place of doubles. -/
def integers : Arithmetic Int where
  zero := 0
  add := (· + ·)
  sub := (· - ·)
  mul := (· * ·)
  div := (· / ·)

def sevenMinusTwo : Request Int := { operation := .sub, lhs := 7, rhs := 2 }

def dirtyData : SharedData Int where
  controllerSemaphore := 0
  workerSemaphore := 0
  operation := .add
  lhs := 0
  rhs := 0
  result := 9

def attachedShm : SharedMemory := { fd := 3, data := some 4096 }

def workThenQuit : List Party :=
  List.replicate 4 .controller ++ List.replicate 6 .worker ++ List.replicate 6 .controller ++
    List.replicate 4 .worker ++ List.replicate 2 .controller

theorem requestWork_paired_workThenQuit :
    ((run (step integers) (State.initial dirtyData attachedShm (integers.requests [sevenMinusTwo]))
        workThenQuit).get (by decide +kernel)).Paired integers [sevenMinusTwo] attachedShm ∧
      workThenQuit.length ≤ 13 * ([sevenMinusTwo].length + 1) :=
  requestWork_paired integers [sevenMinusTwo] (by decide) dirtyData attachedShm workThenQuit _
    (Option.some_get _).symm

end Cab403.Assignment1.ShmIpc
