/-
The two processes of shm_ipc.c from the fork on. The controller unlinks the share name,
creates, sizes, maps and initialises the object; the worker opens whatever object the name
stands for. Nothing orders the two but `sleep(1)`, so the worker may open too early: no
object, one that an earlier run has left, or the controller's before it is ready.
-/

import Cab403.Assignment1.ShmIpc

namespace Cab403.Assignment1.ShmIpc

open ActionRuns

inductive ObjectId where
  /-- Left by an earlier run. -/
  | stale
  | created
  deriving DecidableEq, Repr

structure SharedObject (Double : Type*) where
  /-- `ftruncate` has given it memory. -/
  sized : Bool
  /-- `controller_semaphore` is initialised. -/
  ready : Bool
  data : SharedData Double
  deriving DecidableEq, Repr

inductive CreatorAt where
  | unlink
  | openObject
  | truncate
  | map
  | initController
  | initWorker
  | requests
  | unmap
  | unlinkLast
  | finished
  | failed
  deriving DecidableEq, Repr

inductive OpenerAt where
  | openObject
  | map (object : ObjectId)
  | working (object : ObjectId)
  | failed
  /-- Ended by `SIGBUS`: the object had no memory yet. -/
  | killed
  /-- The wait on a semaphore before its `sem_init` has no defined outcome. -/
  | undefined
  deriving DecidableEq, Repr

structure Program (Double : Type*) where
  /-- The object that the share name stands for. -/
  name : Option ObjectId
  stale : SharedObject Double
  sized : Bool
  ready : Bool
  /-- The data of the controller's object, and the two parties. -/
  state : State Double
  /-- The controller's control structure. -/
  control : SharedMemory
  creator : CreatorAt
  opener : OpenerAt

/-- A step of either process; the result is that of its system call, `none` for an error. -/
inductive ProcessAction where
  | controller (result : Option Nat)
  | worker (result : Option Nat)
  deriving DecidableEq, Repr

variable {Double : Type*}

def mapFailed : Nat := 18446744073709551615

def detachedShm : SharedMemory := { fd := -1, data := none }

/-- `create_shared_object`, the loop of `controller_main` and `destroy_shared_object`. -/
def controllerMain (program : Program Double) (result : Option Nat) : Option (Program Double) :=
  match program.creator with
  -- a name that stands for an object is the user's own, so `shm_unlink` removes it
  | .unlink =>
      if program.name = none ∨ result ≠ none then
        some { program with name := none, creator := .openObject }
      else none
  | .openObject =>
      match result with
      -- the name is free, so `O_CREAT` makes a new object
      | some fd =>
          some { program with
            name := some .created
            control := { program.control with fd := fd }
            creator := .truncate }
      | none => some { program with control := detachedShm, creator := .failed }
  | .truncate =>
      match result with
      | some _ => some { program with sized := true, creator := .map }
      | none =>
          some { program with control := { program.control with data := none }, creator := .failed }
  | .map =>
      match result with
      | some address =>
          some { program with
            control := { program.control with data := some address }
            creator := .initController }
      | none =>
          some { program with
            control := { program.control with data := some mapFailed }
            creator := .failed }
  | .initController =>
      some { program with
        ready := true
        state := { program.state with
          data := { program.state.data with controllerSemaphore := 0 } }
        creator := .initWorker }
  | .initWorker =>
      some { program with
        state := { program.state with
          data := { program.state.data with workerSemaphore := 0 } }
        creator := .requests }
  | .requests =>
      match program.state.requests with
      | [] => some { program with creator := .unmap }
      | _ :: _ => (requestWork program.state).map fun next => { program with state := next }
  | .unmap => some { program with control := detachedShm, creator := .unlinkLast }
  | .unlinkLast =>
      if program.name = none ∨ result ≠ none then
        some { program with name := none, creator := .finished }
      else none
  | .finished | .failed => none

/-- `do_work` on either object; only the controller's shares its data with `request_work`. -/
def workOn (arithmetic : Arithmetic Double) (program : Program Double) :
    ObjectId → Option (Program Double)
  | .created =>
      if program.sized = false then some { program with opener := .killed }
      else if program.ready = false then some { program with opener := .undefined }
      else (doWork arithmetic program.state).map fun next => { program with state := next }
  | .stale =>
      if program.stale.sized = false then some { program with opener := .killed }
      else if program.stale.ready = false then some { program with opener := .undefined }
      else
        (doWork arithmetic { program.state with data := program.stale.data }).map fun next =>
          { program with
            stale := { program.stale with data := next.data }
            state := { next with data := program.state.data } }

/-- `get_shared_object` and the loop of `worker_main`. -/
def workerMain (arithmetic : Arithmetic Double) (program : Program Double) (result : Option Nat) :
    Option (Program Double) :=
  match program.opener with
  | .openObject =>
      match program.name, result with
      | some object, some fd =>
          some { program with
            state := { program.state with shm := { program.state.shm with fd := fd } }
            opener := .map object }
      | _, _ =>
          some { program with
            state := { program.state with shm := detachedShm }
            opener := .failed }
  | .map object =>
      match result with
      | some address =>
          some { program with
            state := { program.state with shm := { program.state.shm with data := some address } }
            opener := .working object }
      | none =>
          some { program with
            state := { program.state with shm := { program.state.shm with data := some mapFailed } }
            opener := .failed }
  | .working object => workOn arithmetic program object
  | .failed | .killed | .undefined => none

def processStep (arithmetic : Arithmetic Double) (program : Program Double) :
    ProcessAction → Option (Program Double)
  | .controller result => controllerMain program result
  | .worker result => workerMain arithmetic program result

/-! ### What the controller asks and prints -/

def nextOp (draw : Nat) : Operation :=
  match draw % 4 with
  | 0 => .add
  | 1 => .sub
  | 2 => .mul
  | _ => .div

/-- The twenty requests of `controller_main`, with three draws of `rand` each. -/
def drawnWork (nextRand : Nat → Double) (rand : Nat → Nat) : List (Request Double) :=
  (List.range 20).map fun i =>
    { operation := nextOp (rand (3 * i))
      lhs := nextRand (rand (3 * i + 1))
      rhs := nextRand (rand (3 * i + 2)) }

def Operation.name : Operation → String
  | .add => "add"
  | .sub => "sub"
  | .mul => "mul"
  | .div => "div"
  | .quit => "quit"

inductive Line (Double : Type*) where
  | starting
  | answer (name : String) (lhs rhs result : Double)
  | finished
  | creationFailed
  deriving DecidableEq, Repr

def Request.line (request : Request Double) (result : Double) : Line Double :=
  .answer request.operation.name request.lhs request.rhs result

def Program.printed (program : Program Double) : List (Line Double) :=
  .starting ::
    (program.state.returned.filterMap fun answer =>
      if answer.1.operation = .quit then none else some (answer.1.line answer.2)) ++
    match program.creator with
    | .unmap | .unlinkLast | .finished => [.finished]
    | .failed => [.creationFailed]
    | _ => []

def zeroData (arithmetic : Arithmetic Double) : SharedData Double where
  controllerSemaphore := 0
  workerSemaphore := 0
  operation := .add
  lhs := arithmetic.zero
  rhs := arithmetic.zero
  result := arithmetic.zero

/-- After the fork; the control structures are not initialised. -/
def Program.initial (arithmetic : Arithmetic Double) (work : List (Request Double))
    (present : Bool) (stale : SharedObject Double) (shm control : SharedMemory) :
    Program Double where
  name := if present then some .stale else none
  stale := stale
  sized := false
  ready := false
  state := State.initial (zeroData arithmetic) shm (arithmetic.requests work)
  control := control
  creator := .unlink
  opener := .openObject

/-! ### One invariant of both processes -/

/-- The opener is past getting hold of the controller's object. -/
def OpenerAt.Missed : OpenerAt → Prop
  | .map .stale | .working .stale | .failed | .killed | .undefined => True
  | .openObject | .map .created | .working .created => False

/-- How far the object is: 3 and it has memory, 6 and it is ready. -/
def CreatorAt.stage : CreatorAt → Nat
  | .unlink | .failed => 0
  | .openObject => 1
  | .truncate => 2
  | .map => 3
  | .initController => 4
  | .initWorker => 5
  | .requests => 6
  | .unmap => 7
  | .unlinkLast => 8
  | .finished => 9

/-- No request has been answered, and none will be unless the worker posts. -/
structure State.Unserved (arithmetic : Arithmetic Double) (work : List (Request Double))
    (state : State Double) : Prop where
  requests : state.requests = arithmetic.requests work
  returned : state.returned = []
  unanswered : state.controller ≠ .result
  unposted : state.data.workerSemaphore = 0

structure Program.Invariant (arithmetic : Arithmetic Double) (work : List (Request Double))
    (program : Program Double) : Prop where
  sized : 3 ≤ program.creator.stage → program.sized = true
  ready : 5 ≤ program.creator.stage → program.ready = true
  untouched : program.creator.stage < 6 →
    program.state.controller = .operation ∧ program.state.data.Posted 0 0
  unserved : program.opener ≠ .working .created ∨ program.creator.stage < 6 →
    program.state.Unserved arithmetic work
  idle : (program.opener = .openObject ∨ ∃ object, program.opener = .map object) →
    program.state.worker = .wait ∧ program.state.taken = []
  joint : ¬ program.opener.Missed → ∃ shm, program.state.Invariant arithmetic work shm
  named : 2 ≤ program.creator.stage → program.creator.stage ≤ 8 → program.name = some .created
  freed : program.creator.stage = 9 → program.name = none
  done : 7 ≤ program.creator.stage → program.state.requests = []
  detached : 8 ≤ program.creator.stage → program.control = detachedShm

section Invariants

variable {arithmetic : Arithmetic Double} {work : List (Request Double)} {state next : State Double}
  {program after : Program Double}

/-- What `request_work` leaves alone. -/
theorem requestWork_frame (moved : requestWork state = some next) :
    next.worker = state.worker ∧ next.taken = state.taken ∧ next.shm = state.shm := by
  unfold requestWork at moved
  split at moved
  · cases moved
  · split at moved
    case h_5 =>
      obtain ⟨_, rfl⟩ := of_guarded moved
      exact ⟨rfl, rfl, rfl⟩
    all_goals cases moved
    all_goals exact ⟨rfl, rfl, rfl⟩

/-- What `do_work` leaves alone. -/
theorem doWork_frame (moved : doWork arithmetic state = some next) :
    next.controller = state.controller ∧ next.requests = state.requests ∧
      next.returned = state.returned := by
  unfold doWork at moved
  split at moved
  case h_1 =>
    obtain ⟨_, rfl⟩ := of_guarded moved
    exact ⟨rfl, rfl, rfl⟩
  case h_4 =>
    obtain ⟨_, _, rfl⟩ := Option.map_eq_some_iff.mp moved
    exact ⟨rfl, rfl, rfl⟩
  all_goals cases moved
  all_goals exact ⟨rfl, rfl, rfl⟩

theorem State.Unserved.requestWork (unserved : state.Unserved arithmetic work)
    (moved : requestWork state = some next) : next.Unserved arithmetic work := by
  obtain ⟨requests, returned, unanswered, unposted⟩ := unserved
  unfold ShmIpc.requestWork at moved
  split at moved
  · cases moved
  · split at moved
    case h_5 =>
      obtain ⟨positive, _⟩ := of_guarded moved
      rw [unposted] at positive
      exact absurd positive (Nat.lt_irrefl 0)
    case h_6 result =>
      exact absurd result unanswered
    all_goals cases moved
    all_goals exact ⟨requests, returned, nofun, unposted⟩

/-- The object is mapped anew, while the worker has not left. -/
theorem State.Invariant.withShm {shm : SharedMemory} (held : state.Invariant arithmetic work shm)
    (running : state.worker ≠ .stopped) (mapped : SharedMemory) :
    State.Invariant arithmetic work mapped { state with shm := mapped } :=
  { issued := held.issued
    answered := held.answered
    current := held.current
    reset := fun stopped => absurd stopped running
    attached := fun _ => rfl }

/-- Before its first request the controller has the semaphores at zero already. -/
theorem withSemaphores_eq (posted : state.data.Posted 0 0) :
    { state with data := { state.data with controllerSemaphore := 0 } } = state ∧
      { state with data := { state.data with workerSemaphore := 0 } } = state := by
  obtain ⟨data, _, _, _, _, _, _⟩ := state
  obtain ⟨controllerSemaphore, workerSemaphore, _, _, _, _⟩ := data
  obtain ⟨rfl, rfl⟩ := posted
  exact ⟨rfl, rfl⟩

theorem invariant_start (present : Bool) (stale : SharedObject Double)
    (shm control : SharedMemory) :
    (Program.initial arithmetic work present stale shm control).Invariant arithmetic work where
  sized late := absurd late (by decide : ¬ 3 ≤ 0)
  ready late := absurd late (by decide : ¬ 5 ≤ 0)
  untouched _ := ⟨rfl, rfl, rfl⟩
  unserved _ := ⟨rfl, rfl, nofun, rfl⟩
  idle _ := ⟨rfl, rfl⟩
  joint _ := ⟨shm, invariant_initial _ shm⟩
  named late := absurd late (by decide : ¬ 2 ≤ 0)
  freed late := absurd late (by decide : ¬ 0 = 9)
  done late := absurd late (by decide : ¬ 7 ≤ 0)
  detached late := absurd late (by decide : ¬ 8 ≤ 0)

/-- A step of `create_shared_object` or `destroy_shared_object` that leaves the data alone. -/
theorem Program.Invariant.ofStage (held : program.Invariant arithmetic work)
    (state : after.state = program.state) (opener : after.opener = program.opener)
    (sized : 3 ≤ after.creator.stage → after.sized = true)
    (ready : 5 ≤ after.creator.stage → after.ready = true)
    (begun : after.creator.stage < 6 → program.creator.stage < 6)
    (named : 2 ≤ after.creator.stage → after.creator.stage ≤ 8 → after.name = some .created)
    (freed : after.creator.stage = 9 → after.name = none)
    (done : 7 ≤ after.creator.stage → program.state.requests = [])
    (detached : 8 ≤ after.creator.stage → after.control = detachedShm) :
    after.Invariant arithmetic work := by
  constructor
  case sized => exact sized
  case ready => exact ready
  case untouched =>
    rw [state]
    exact fun early => held.untouched (begun early)
  case unserved =>
    rw [state, opener]
    exact fun missed => held.unserved (missed.imp_right begun)
  case idle =>
    rw [state, opener]
    exact held.idle
  case joint =>
    rw [state, opener]
    exact held.joint
  case named => exact named
  case freed => exact freed
  case done => exact state ▸ done
  case detached => exact detached

theorem Program.Invariant.requestWork (computes : ∀ request ∈ work, request.operation ≠ .quit)
    (held : program.Invariant arithmetic work) (place : program.creator = .requests)
    (worked : requestWork program.state = some next) :
    ({ program with state := next } : Program Double).Invariant arithmetic work := by
  obtain ⟨worker, taken, _⟩ := requestWork_frame worked
  exact { held with
    untouched := fun early => by
      rw [place] at early
      exact absurd early (by decide)
    unserved := fun missed => (held.unserved missed).requestWork worked
    idle := by
      dsimp only
      rw [worker, taken]
      exact held.idle
    joint := fun served =>
      (held.joint served).imp fun shm joint => requestWork_invariant computes joint worked
    done := fun late => by
      rw [place] at late
      exact absurd late (by decide) }

theorem controllerMain_invariant (computes : ∀ request ∈ work, request.operation ≠ .quit)
    (held : program.Invariant arithmetic work) {result : Option Nat}
    (moved : controllerMain program result = some after) : after.Invariant arithmetic work := by
  have sized := held.sized
  have ready := held.ready
  have named := held.named
  have done := held.done
  have detached := held.detached
  unfold controllerMain at moved
  cases place : program.creator with
  | unlink =>
      simp only [place] at moved
      obtain ⟨_, rfl⟩ := of_guarded moved
      refine held.ofStage rfl rfl ?_ ?_ ?_ ?_ ?_ ?_ ?_ <;> simp [place, CreatorAt.stage]
  | openObject | truncate | map =>
      simp only [place, CreatorAt.stage] at moved sized named
      cases result with
      | none =>
          cases moved
          refine held.ofStage rfl rfl ?_ ?_ ?_ ?_ ?_ ?_ ?_ <;> simp [place, CreatorAt.stage]
      | some _ =>
          cases moved
          refine held.ofStage rfl rfl ?_ ?_ ?_ ?_ ?_ ?_ ?_ <;> simp_all [CreatorAt.stage]
  | initController =>
      simp only [place, CreatorAt.stage] at moved sized named
      cases moved
      have posted := (held.untouched (by rw [place]; decide)).2
      refine held.ofStage (withSemaphores_eq posted).1 rfl ?_ ?_ ?_ ?_ ?_ ?_ ?_ <;>
        simp_all [CreatorAt.stage]
  | initWorker =>
      simp only [place, CreatorAt.stage] at moved sized ready named
      cases moved
      have posted := (held.untouched (by rw [place]; decide)).2
      refine held.ofStage (withSemaphores_eq posted).2 rfl ?_ ?_ ?_ ?_ ?_ ?_ ?_ <;>
        simp_all [CreatorAt.stage]
  | requests =>
      simp only [place, CreatorAt.stage] at moved sized ready named
      cases pending : program.state.requests with
      | nil =>
          simp only [pending] at moved
          cases moved
          refine held.ofStage rfl rfl ?_ ?_ ?_ ?_ ?_ ?_ ?_ <;> simp_all [CreatorAt.stage]
      | cons request rest =>
          simp only [pending] at moved
          obtain ⟨next, worked, rfl⟩ := Option.map_eq_some_iff.mp moved
          have later := held.requestWork computes place worked
          rw [place] at later
          exact later
  | unmap =>
      simp only [place, CreatorAt.stage] at moved sized ready named done
      cases moved
      refine held.ofStage rfl rfl ?_ ?_ ?_ ?_ ?_ ?_ ?_ <;> simp_all [CreatorAt.stage]
  | unlinkLast =>
      simp only [place, CreatorAt.stage] at moved sized ready done detached
      obtain ⟨_, rfl⟩ := of_guarded moved
      refine held.ofStage rfl rfl ?_ ?_ ?_ ?_ ?_ ?_ ?_ <;> simp_all [CreatorAt.stage]
  | finished | failed =>
      simp only [place] at moved
      cases moved

/-- A step of `get_shared_object`: the worker's control structure is all it writes. -/
theorem Program.Invariant.ofOpening (held : program.Invariant arithmetic work)
    (opening : program.opener = .openObject ∨ ∃ object, program.opener = .map object)
    (shm : SharedMemory) {opener : OpenerAt}
    (served : ¬ opener.Missed → ¬ program.opener.Missed) :
    ({ program with state := { program.state with shm := shm }, opener := opener } :
      Program Double).Invariant arithmetic work := by
  obtain ⟨worker, taken⟩ := held.idle opening
  have running : program.state.worker ≠ .stopped := by
    rw [worker]
    exact nofun
  have unserved : program.state.Unserved arithmetic work := by
    refine held.unserved (Or.inl ?_)
    rintro working
    rcases opening with atOpen | ⟨object, atMap⟩
    · rw [atOpen] at working
      cases working
    · rw [atMap] at working
      cases working
  exact { held with
    unserved := fun _ => { unserved with }
    idle := fun _ => ⟨worker, taken⟩
    joint := fun still =>
      (held.joint (served still)).elim fun _ joint => ⟨shm, joint.withShm running shm⟩ }

/-- The worker ends at its first access to the object. -/
theorem Program.Invariant.ofEnded (held : program.Invariant arithmetic work) {opener : OpenerAt}
    (unserved : program.state.Unserved arithmetic work) (missed : opener.Missed)
    (ended : ¬ (opener = .openObject ∨ ∃ object, opener = .map object)) :
    ({ program with opener := opener } : Program Double).Invariant arithmetic work :=
  { held with
    unserved := fun _ => unserved
    idle := fun opening => absurd opening ended
    joint := fun served => absurd missed served }

/-- Until the controller issues a request, there is nothing to take up. -/
theorem Program.Invariant.doWork_early (held : program.Invariant arithmetic work)
    (served : ¬ program.opener.Missed) (early : program.creator.stage < 6) :
    doWork arithmetic program.state = none := by
  obtain ⟨shm, joint⟩ := held.joint served
  have unserved := held.unserved (Or.inr early)
  obtain ⟨begins, posted⟩ := held.untouched early
  have current := joint.current
  unfold State.Current at current
  rw [unserved.requests] at current
  split at current
  · rename_i none_
    exact absurd none_ (List.append_ne_nil_of_right_ne_nil work (List.cons_ne_nil _ _))
  · obtain ⟨begun, current, _⟩ := current
    rw [begins] at current
    generalize point : program.state.worker = worker at current
    cases current
    exact doWork_waits posted.1 point

theorem workOn_invariant (held : program.Invariant arithmetic work) {object : ObjectId}
    (working : program.opener = .working object)
    (moved : workOn arithmetic program object = some after) :
    after.Invariant arithmetic work := by
  cases object with
  | created =>
      have served : ¬ program.opener.Missed := by
        rw [working]
        exact id
      simp only [workOn] at moved
      split_ifs at moved with unsized unready
      · cases moved
        refine held.ofEnded (held.unserved (Or.inr ?_)) trivial (by simp)
        by_contra late
        rw [held.sized (by omega)] at unsized
        cases unsized
      · cases moved
        refine held.ofEnded (held.unserved (Or.inr ?_)) trivial (by simp)
        by_contra late
        exact absurd (held.ready (by omega)) (by rw [unready]; decide)
      · obtain ⟨next, worked, rfl⟩ := Option.map_eq_some_iff.mp moved
        have late : ¬ program.creator.stage < 6 := by
          intro early
          rw [held.doWork_early served early] at worked
          cases worked
        obtain ⟨_, requests, _⟩ := doWork_frame worked
        exact { held with
          untouched := fun early => absurd early late
          unserved := fun missed => missed.elim (absurd working) fun early => absurd early late
          idle := fun opening => by
            dsimp only at opening
            rw [working] at opening
            simp at opening
          joint := fun still =>
            (held.joint still).imp fun shm joint => doWork_invariant joint worked
          done := requests ▸ held.done }
  | stale =>
      have missed : program.opener.Missed := by
        rw [working]
        trivial
      have unserved : program.state.Unserved arithmetic work := by
        refine held.unserved (Or.inl ?_)
        rw [working]
        exact nofun
      simp only [workOn] at moved
      split_ifs at moved with unsized unready
      · cases moved
        exact held.ofEnded unserved trivial (by simp)
      · cases moved
        exact held.ofEnded unserved trivial (by simp)
      · obtain ⟨next, worked, rfl⟩ := Option.map_eq_some_iff.mp moved
        obtain ⟨controller, requests, returned⟩ := doWork_frame worked
        dsimp only at controller requests returned
        exact { held with
          untouched := controller ▸ held.untouched
          unserved := fun _ =>
            { requests := requests.trans unserved.requests
              returned := returned.trans unserved.returned
              unanswered := controller ▸ unserved.unanswered
              unposted := unserved.unposted }
          idle := fun opening => by
            dsimp only at opening
            rw [working] at opening
            simp at opening
          joint := fun served => absurd missed served
          done := requests ▸ held.done }

theorem workerMain_invariant (held : program.Invariant arithmetic work) {result : Option Nat}
    (moved : workerMain arithmetic program result = some after) :
    after.Invariant arithmetic work := by
  unfold workerMain at moved
  cases place : program.opener with
  | openObject =>
      simp only [place] at moved
      split at moved
      · cases moved
        exact held.ofOpening (Or.inl place) _ (by rw [place]; exact fun _ => id)
      · cases moved
        exact held.ofOpening (Or.inl place) _ (by rw [place]; exact fun _ => id)
  | map object =>
      simp only [place] at moved
      have opening : ∃ object, program.opener = .map object := ⟨object, place⟩
      cases result with
      | none =>
          cases moved
          exact held.ofOpening (Or.inr opening) _ fun missed => absurd trivial missed
      | some address =>
          cases moved
          refine held.ofOpening (Or.inr opening) _ ?_
          rw [place]
          cases object with
          | stale => exact id
          | created => exact id
  | working object =>
      simp only [place] at moved
      exact workOn_invariant held place moved
  | failed | killed | undefined =>
      simp only [place] at moved
      cases moved

theorem processStep_invariant (computes : ∀ request ∈ work, request.operation ≠ .quit)
    (held : program.Invariant arithmetic work) {action : ProcessAction}
    (moved : processStep arithmetic program action = some after) :
    after.Invariant arithmetic work := by
  cases action with
  | controller result => exact controllerMain_invariant computes held moved
  | worker result => exact workerMain_invariant held moved

end Invariants

/-! ### Every run ends -/

def CreatorAt.left : CreatorAt → Nat
  | .unlink => 9
  | .openObject => 8
  | .truncate => 7
  | .map => 6
  | .initController => 5
  | .initWorker => 4
  | .requests => 3
  | .unmap => 2
  | .unlinkLast => 1
  | .finished | .failed => 0

/-- What is left of one `do_work` on the stale object. -/
def WorkerPoint.left : WorkerPoint Double → Nat
  | .wait | .stopped => 0
  | .switch => 6
  | .lhs _ => 5
  | .rhs _ _ => 4
  | .result _ => 3
  | .post _ => 2
  | .unmap => 1

/-- The steps the worker can still take: the stale object has only the posts left in it. -/
def Program.workerLeft (total : Nat) (program : Program Double) : Nat :=
  match program.opener with
  | .openObject => 7 * total + 7 * program.stale.data.controllerSemaphore + 3
  | .map _ => 7 * total + 7 * program.stale.data.controllerSemaphore + 2
  | .working .created => program.state.worker.rank (total - program.state.taken.length) + 1
  | .working .stale =>
      7 * program.stale.data.controllerSemaphore + program.state.worker.left + 1
  | .failed | .killed | .undefined => 0

def Program.rank (total : Nat) (program : Program Double) : Nat :=
  program.creator.left + (6 * program.state.requests.length - program.state.controller.done) +
    program.workerLeft total

section Ranks

variable {arithmetic : Arithmetic Double} {work : List (Request Double)} {state next : State Double}
  {program after : Program Double}

end Ranks

/-! ### How a run ends -/

def Arithmetic.lines (arithmetic : Arithmetic Double) (work : List (Request Double)) :
    List (Line Double) :=
  .starting :: (work.filterMap fun request => (arithmetic.answer request).map request.line) ++
    [.finished]

structure Completed (arithmetic : Arithmetic Double) (work : List (Request Double))
    (program : Program Double) : Prop where
  served : program.opener = .working .created
  stopped : program.state.worker = .stopped
  finished : program.creator = .finished
  freed : program.name = none
  detached : program.control = detachedShm ∧ program.state.shm = detachedShm
  printed : program.printed = arithmetic.lines work

inductive Outcome (arithmetic : Arithmetic Double) (work : List (Request Double))
    (program : Program Double) : Prop
  | completed (completed : Completed arithmetic work program)
  | notCreated (failed : program.creator = .failed)
      (printed : program.printed = [.starting, .creationFailed])
  /-- The controller waits for its first answer for ever. -/
  | missed (missed : program.opener.Missed) (place : program.creator = .requests)
      (waits : program.state.controller = .wait) (named : program.name = some .created)
      (printed : program.printed = [.starting])

section Outcomes

variable {arithmetic : Arithmetic Double} {work : List (Request Double)} {state : State Double}
  {program : Program Double}

theorem State.Invariant.answers_eq {shm : SharedMemory}
    (held : state.Invariant arithmetic work shm) (answeredAll : state.requests = []) :
    (state.returned.filterMap fun answer =>
        if answer.1.operation = .quit then none else some (answer.1.line answer.2)) =
      work.filterMap fun request => (arithmetic.answer request).map request.line := by
  have issued := held.issued
  rw [answeredAll, List.append_nil] at issued
  calc
    _ = state.returned.filterMap fun answer =>
          (arithmetic.answer answer.1).map answer.1.line := by
      apply List.filterMap_congr
      intro answer member
      by_cases quits : answer.1.operation = .quit
      · rw [if_pos quits, answer_eq_none quits]
        rfl
      · rw [if_neg quits, held.answered answer member quits]
        rfl
    _ = (state.returned.map Prod.fst).filterMap fun request =>
          (arithmetic.answer request).map request.line := by
      rw [List.filterMap_map]
      rfl
    _ = _ := by
      rw [issued, Arithmetic.requests, List.filterMap_append, List.filterMap_cons,
        answer_eq_none rfl]
      exact List.append_nil _

theorem wait_of_requestWork_none (pending : state.requests ≠ [])
    (blocked : requestWork state = none) : state.controller = .wait := by
  unfold requestWork at blocked
  split at blocked
  · rename_i empty
    exact absurd empty pending
  · split at blocked
    case h_5 waits => exact waits
    all_goals cases blocked

theorem printed_of_unserved (unserved : program.state.Unserved arithmetic work)
    (place : program.creator = .requests) : program.printed = [.starting] := by
  rw [Program.printed, unserved.returned, place]
  rfl

/-- Where the controller is when it can take no step. -/
theorem controller_stopped
    (stopped : ∀ result, controllerMain program result = none) :
    (program.creator = .requests ∧ program.state.requests ≠ [] ∧
        requestWork program.state = none) ∨
      program.creator = .finished ∨ program.creator = .failed := by
  have blocked := stopped (some 0)
  unfold controllerMain at blocked
  cases place : program.creator with
  | requests =>
      simp only [place] at blocked
      cases pending : program.state.requests with
      | nil =>
          simp only [pending] at blocked
          cases blocked
      | cons request rest =>
          simp only [pending, Option.map_eq_none_iff] at blocked
          exact Or.inl ⟨rfl, nofun, blocked⟩
  | finished => exact Or.inr (Or.inl rfl)
  | failed => exact Or.inr (Or.inr rfl)
  | unlink | unlinkLast =>
      simp only [place] at blocked
      cases (if_pos (Or.inr nofun)).symm.trans blocked
  | openObject | truncate | map | initController | initWorker | unmap =>
      simp only [place] at blocked
      cases blocked

/-- Where the worker is when it can take no step and the controller's object is ready. -/
theorem worker_stopped (held : program.Invariant arithmetic work)
    (ready : 5 ≤ program.creator.stage)
    (stopped : ∀ result, workerMain arithmetic program result = none) :
    program.opener.Missed ∨
      (program.opener = .working .created ∧ doWork arithmetic program.state = none) := by
  have blocked := stopped none
  unfold workerMain at blocked
  cases place : program.opener with
  | openObject =>
      simp only [place] at blocked
      split at blocked
      · cases blocked
      · cases blocked
  | map object =>
      simp only [place] at blocked
      cases blocked
  | working object =>
      cases object with
      | stale => exact Or.inl trivial
      | created =>
          have unsized : program.sized ≠ false := by
            rw [held.sized (by omega)]
            decide
          have unready : program.ready ≠ false := by
            rw [held.ready ready]
            decide
          simp only [place, workOn, if_neg unsized, if_neg unready,
            Option.map_eq_none_iff] at blocked
          exact Or.inr ⟨rfl, blocked⟩
  | failed | killed | undefined => exact Or.inl trivial

theorem outcome_of_stopped (held : program.Invariant arithmetic work)
    (stopped : ∀ action, processStep arithmetic program action = none) :
    Outcome arithmetic work program := by
  have worker (ready : 5 ≤ program.creator.stage) :=
    worker_stopped held ready fun result => stopped (.worker result)
  rcases controller_stopped fun result => stopped (.controller result) with
    ⟨place, pending, blocked⟩ | place | place
  · rcases worker (by rw [place]; decide) with missed | ⟨working, waits⟩
    · have unserved : program.state.Unserved arithmetic work := by
        refine held.unserved (Or.inl ?_)
        rintro working
        rw [working] at missed
        exact missed
      exact .missed missed place (wait_of_requestWork_none pending blocked)
        (held.named (by rw [place]; decide) (by rw [place]; decide))
        (printed_of_unserved unserved place)
    · obtain ⟨shm, joint⟩ := held.joint (by rw [working]; exact id)
      obtain ⟨party, next, moved⟩ := joint.continues (Or.inl pending)
      cases party with
      | controller => exact absurd (moved.symm.trans blocked) nofun
      | worker => exact absurd (moved.symm.trans waits) nofun
  · have answeredAll := held.done (by rw [place]; decide)
    have working : program.opener = .working .created := by
      by_contra elsewhere
      have all := (held.unserved (Or.inl elsewhere)).requests
      rw [answeredAll] at all
      exact List.append_ne_nil_of_right_ne_nil work (List.cons_ne_nil _ _) all.symm
    obtain ⟨shm, joint⟩ := held.joint (by rw [working]; exact id)
    rcases worker (by rw [place]; decide) with missed | ⟨_, waits⟩
    · rw [working] at missed
      exact absurd missed id
    · have ended : program.state.worker = .stopped := by
        have current := joint.current
        unfold State.Current at current
        rw [answeredAll] at current
        refine current.1.2.1.resolve_left fun unmaps => ?_
        unfold doWork at waits
        rw [unmaps] at waits
        cases waits
      have printed : program.printed = arithmetic.lines work := by
        rw [Program.printed, place, joint.answers_eq answeredAll]
        rfl
      exact .completed
        { served := working
          stopped := ended
          finished := place
          freed := held.freed (by rw [place]; rfl)
          detached := ⟨held.detached (by rw [place]; decide), joint.reset ended⟩
          printed := printed }
  · have unserved := held.unserved (Or.inr (by rw [place]; decide))
    refine .notCreated place ?_
    rw [Program.printed, unserved.returned, place]
    rfl

end Outcomes

/-! ### In time or not -/

def ProcessAction.Succeeds : ProcessAction → Prop
  | .controller result | .worker result => result ≠ none

instance (action : ProcessAction) : Decidable action.Succeeds :=
  match action with
  | .controller result | .worker result => inferInstanceAs (Decidable (result ≠ none))

/-- The worker opens the object once the controller has created it, and waits on its
semaphore once that is initialised. -/
def InTime (program : Program Double) : ProcessAction → Prop
  | .controller _ => True
  | .worker _ =>
      match program.opener with
      | .openObject => program.name = some .created
      | .working .created => program.ready = true
      | _ => True

instance (program : Program Double) (action : ProcessAction) :
    Decidable (InTime program action) := by
  unfold InTime
  split
  · infer_instance
  · split <;> infer_instance

section Timing

variable {arithmetic : Arithmetic Double} {work : List (Request Double)}
  {program after : Program Double} {action : ProcessAction}

/-- The worker has the controller's object, or will have it. -/
structure Timely (program : Program Double) : Prop where
  served : ¬ program.opener.Missed
  created : program.creator ≠ .failed
  sized : program.ready = true → program.sized = true

theorem controllerMain_opener {result : Option Nat}
    (moved : controllerMain program result = some after) : after.opener = program.opener := by
  unfold controllerMain at moved
  cases place : program.creator with
  | requests =>
      simp only [place] at moved
      split at moved
      · cases moved
        rfl
      · obtain ⟨_, _, rfl⟩ := Option.map_eq_some_iff.mp moved
        rfl
  | openObject | truncate | map =>
      simp only [place] at moved
      cases result with
      | none | some _ =>
          cases moved
          rfl
  | unlink | unlinkLast =>
      simp only [place] at moved
      obtain ⟨_, rfl⟩ := of_guarded moved
      rfl
  | initController | initWorker | unmap | finished | failed =>
      simp only [place] at moved
      cases moved
      all_goals rfl

theorem missed_step (missed : program.opener.Missed)
    (moved : processStep arithmetic program action = some after) : after.opener.Missed := by
  cases action with
  | controller result =>
      rw [controllerMain_opener moved]
      exact missed
  | worker result =>
      simp only [processStep, workerMain] at moved
      cases place : program.opener with
      | openObject =>
          rw [place] at missed
          exact absurd missed id
      | map object =>
          rw [place] at missed
          simp only [place] at moved
          cases object with
          | created => exact absurd missed id
          | stale =>
              cases result with
              | none | some _ =>
                  cases moved
                  trivial
      | working object =>
          rw [place] at missed
          simp only [place] at moved
          cases object with
          | created => exact absurd missed id
          | stale =>
              simp only [workOn] at moved
              split_ifs at moved
              · cases moved
                trivial
              · cases moved
                trivial
              · obtain ⟨_, _, rfl⟩ := Option.map_eq_some_iff.mp moved
                dsimp only
                rw [place]
                trivial
      | failed | killed | undefined =>
          simp only [place] at moved
          cases moved

/-- A step out of time loses the object. -/
theorem missed_of_not_inTime (late : ¬ InTime program action)
    (moved : processStep arithmetic program action = some after) : after.opener.Missed := by
  cases action with
  | controller result => exact absurd trivial late
  | worker result =>
      simp only [processStep, workerMain] at moved
      cases place : program.opener with
      | openObject =>
          simp only [InTime, place] at late
          simp only [place] at moved
          split at moved
          · rename_i object fd named
            cases moved
            cases object with
            | stale => trivial
            | created => exact absurd named late
          · cases moved
            trivial
      | working object =>
          simp only [InTime, place] at late
          cases object with
          | stale => exact absurd trivial late
          | created =>
              have unready : program.ready = false := Bool.eq_false_iff.mpr late
              simp only [place, workOn, if_pos unready] at moved
              split_ifs at moved <;> cases moved <;> trivial
      | map _ | failed | killed | undefined =>
          simp only [InTime, place] at late
          exact absurd trivial late

theorem Timely.controllerMain (timely : Timely program) (held : program.Invariant arithmetic work)
    {result : Option Nat} (succeeds : result ≠ none)
    (moved : controllerMain program result = some after) : Timely after := by
  have opener := controllerMain_opener moved
  obtain ⟨served, created, sized⟩ := timely
  obtain ⟨value, rfl⟩ := Option.ne_none_iff_exists'.mp succeeds
  unfold ShmIpc.controllerMain at moved
  cases place : program.creator with
  | requests =>
      simp only [place] at moved
      split at moved
      · cases moved
        exact ⟨served, nofun, sized⟩
      · obtain ⟨_, _, rfl⟩ := Option.map_eq_some_iff.mp moved
        exact ⟨served, nofun, sized⟩
  | initController =>
      simp only [place] at moved
      cases moved
      exact ⟨served, nofun, fun _ => held.sized (by rw [place]; decide)⟩
  | truncate =>
      simp only [place] at moved
      cases moved
      exact ⟨served, nofun, fun _ => rfl⟩
  | unlink | unlinkLast =>
      simp only [place] at moved
      obtain ⟨_, rfl⟩ := of_guarded moved
      exact ⟨served, nofun, sized⟩
  | openObject | map | initWorker | unmap =>
      simp only [place] at moved
      cases moved
      exact ⟨served, nofun, sized⟩
  | finished | failed =>
      simp only [place] at moved
      cases moved

theorem Timely.workerMain (timely : Timely program) {result : Option Nat}
    (succeeds : result ≠ none) (inTime : InTime program (.worker result))
    (moved : workerMain arithmetic program result = some after) : Timely after := by
  obtain ⟨served, created, sized⟩ := timely
  obtain ⟨value, rfl⟩ := Option.ne_none_iff_exists'.mp succeeds
  unfold ShmIpc.workerMain at moved
  cases place : program.opener with
  | openObject =>
      simp only [InTime, place] at inTime
      simp only [place, inTime] at moved
      cases moved
      exact ⟨id, created, sized⟩
  | map object =>
      rw [place] at served
      simp only [place] at moved
      cases object with
      | stale => exact absurd trivial served
      | created =>
          cases moved
          exact ⟨id, created, sized⟩
  | working object =>
      rw [place] at served
      simp only [InTime, place] at inTime
      cases object with
      | stale => exact absurd trivial served
      | created =>
          have unsized : program.sized ≠ false := by
            rw [sized inTime]
            decide
          have unready : program.ready ≠ false := by
            rw [inTime]
            decide
          simp only [place, workOn, if_neg unsized, if_neg unready] at moved
          obtain ⟨_, _, rfl⟩ := Option.map_eq_some_iff.mp moved
          exact ⟨id, created, sized⟩
  | failed | killed | undefined =>
      simp only [place] at moved
      cases moved

theorem timely_step (computes : ∀ request ∈ work, request.operation ≠ .quit)
    (held : program.Invariant arithmetic work ∧ Timely program) (succeeds : action.Succeeds)
    (inTime : InTime program action) (moved : processStep arithmetic program action = some after) :
    after.Invariant arithmetic work ∧ Timely after := by
  refine ⟨processStep_invariant computes held.1 moved, ?_⟩
  cases action with
  | controller result => exact held.2.controllerMain held.1 succeeds moved
  | worker result => exact held.2.workerMain succeeds inTime moved

/-- Along a run, a worker that is ever out of time has lost the object in the end. -/
theorem inTime_or_missed {start final : Program Double} {actions : List ProcessAction}
    (ran : run (processStep arithmetic) start actions = some final) :
    Along (processStep arithmetic) InTime start actions ∨ final.opener.Missed := by
  induction actions generalizing start with
  | nil => exact Or.inl trivial
  | cons action rest ih =>
      obtain ⟨next, moved, later⟩ := run_cons_eq_some.mp ran
      by_cases inTime : InTime start action
      · refine (ih later).imp_left fun along => ⟨inTime, ?_⟩
        rw [moved]
        exact along
      · exact Or.inr (invariant_run_always (fun _ _ _ missed moved => missed_step missed moved)
          (missed_of_not_inTime inTime moved) later)

/-- Once both are through, neither takes a step. -/
theorem processStep_eq_none (finished : program.creator = .finished)
    (served : program.opener = .working .created) (sized : program.sized = true)
    (ready : program.ready = true) (stopped : program.state.worker = .stopped) :
    processStep arithmetic program action = none := by
  cases action with
  | controller result => simp only [processStep, controllerMain, finished]
  | worker result => simp [processStep, workerMain, served, workOn, sized, ready, doWork, stopped]

end Timing

/-! ### The program -/

theorem nextOp_ne_quit (draw : Nat) : nextOp draw ≠ .quit := by
  unfold nextOp
  split <;> nofun

theorem drawnWork_computes (nextRand : Nat → Double) (rand : Nat → Nat) :
    ∀ request ∈ drawnWork nextRand rand, request.operation ≠ .quit := by
  intro request member
  obtain ⟨i, _, rfl⟩ := List.mem_map.mp member
  exact nextOp_ne_quit _

/-- Where the system calls succeed, `sleep(1)` decides: a run that has ended is complete
exactly if the worker opened the object after its creation, and waited on its semaphore
after the initialisation. -/
theorem main_completes_iff (arithmetic : Arithmetic Double) (nextRand : Nat → Double)
    (rand : Nat → Nat) (present : Bool) (stale : SharedObject Double) (shm control : SharedMemory)
    (actions : List ProcessAction) (reached : Program Double)
    (succeeds : ∀ action ∈ actions, action.Succeeds)
    (ran : run (processStep arithmetic)
      (.initial arithmetic (drawnWork nextRand rand) present stale shm control) actions =
        some reached)
    (stopped : ∀ action, processStep arithmetic reached action = none) :
    Completed arithmetic (drawnWork nextRand rand) reached ↔
      Along (processStep arithmetic) InTime
        (.initial arithmetic (drawnWork nextRand rand) present stale shm control) actions := by
  have computes := drawnWork_computes nextRand rand
  constructor
  · intro completed
    refine (inTime_or_missed ran).resolve_right fun missed => ?_
    rw [completed.served] at missed
    exact missed
  · intro inTime
    have start : Timely (Program.initial arithmetic (drawnWork nextRand rand) present stale shm
        control) := ⟨id, nofun, nofun⟩
    have timely := invariant_run
      (fun _ _ _ held allowed moved => timely_step computes held allowed.1 allowed.2 moved)
      ⟨invariant_start present stale shm control, start⟩
      ((along_of_forall succeeds).and inTime) ran
    cases outcome_of_stopped timely.1 stopped with
    | completed completed => exact completed
    | notCreated failed => exact absurd failed timely.2.created
    | missed missed => exact absurd missed timely.2.served

def unsetShm : SharedMemory := { fd := 0, data := none }

/-- Nothing is there of an earlier run; the draws count up. -/
def forked : Program Int :=
  .initial integers (drawnWork Int.ofNat id) false
    { sized := false, ready := false, data := dirtyData } unsetShm unsetShm

def answeredRequest : List ProcessAction :=
  List.replicate 4 (.controller (some 3)) ++ List.replicate 6 (.worker (some 3)) ++
    List.replicate 2 (.controller (some 3))

def asSlept : List ProcessAction :=
  List.replicate 6 (.controller (some 3)) ++ List.replicate 2 (.worker (some 3)) ++
    (List.replicate 20 answeredRequest).flatten ++ List.replicate 4 (.controller (some 3)) ++
    List.replicate 4 (.worker (some 3)) ++ List.replicate 5 (.controller (some 3))

theorem main_completes_iff_asSlept :
    Completed integers (drawnWork Int.ofNat id)
      ((run (processStep integers) forked asSlept).get (by decide +kernel)) :=
  (main_completes_iff integers Int.ofNat id false _ unsetShm unsetShm asSlept _ (by decide +kernel)
    (Option.some_get _).symm
    (fun _ => processStep_eq_none (by decide +kernel) (by decide +kernel) (by decide +kernel)
      (by decide +kernel) (by decide +kernel))).mpr (by decide +kernel)

end Cab403.Assignment1.ShmIpc
