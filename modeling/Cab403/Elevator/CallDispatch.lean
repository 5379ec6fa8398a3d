/-
Dispatch of the queued calls over whole runs of the controller. A log keeps, next to
the state, the calls in the order they were appended, the call in the hands of the
control loop with the cars listed at its selection, and the answers. A failed send or
a freed record ends the process, and the log counts no answer there.
-/

import Cab403.Elevator.PeerIsolation

namespace Cab403.Elevator.Peers

open CText ActionRuns Controller Framing CarRegistry

/-! ### The log -/

structure Answer where
  call : Call
  /-- The connection whose descriptor number, kept with the call, was written to. -/
  caller : PeerId
  text : CString
  /-- The names and ranges of the cars in the list at the selection. -/
  listed : List (Token 255 × CarRange)

structure DispatchLog where
  controller : ControllerState
  appended : List (Call × PeerId)
  current : Option (Call × PeerId)
  listed : List (Token 255 × CarRange)
  answers : List Answer

def DispatchLog.start (record : CarRecord) : DispatchLog :=
  { controller := controllerStart record
    appended := []
    current := none
    listed := []
    answers := [] }

def ControllerState.listing (state : ControllerState) : List (Token 255 × CarRange) :=
  state.cars.map fun car => ((state.record car).name, (state.record car).range)

def ControllerState.answer? (state : ControllerState) : Option (PeerId × CString) :=
  match state.control with
  | .replying caller none => some (caller, unavailable)
  | .replying caller (some car) => some (caller, carReply (state.record car).name)
  | _ => none

def DispatchLog.answer? (log : DispatchLog) : Option Answer := do
  let (call, _) ← log.current
  let (caller, text) ← log.controller.answer?
  return { call := call, caller := caller, text := text, listed := log.listed }

/-- A step of the controller; `next.calls` beyond its former length was appended by it. -/
def logStep (log : DispatchLog) (action : PeerAction) : Option DispatchLog :=
  (peerStep log.controller action).map fun next =>
    let logged :=
      { log with
        controller := next
        appended := log.appended ++ next.calls.drop log.controller.calls.length }
    match action with
    | .take => { logged with current := log.controller.calls.head? }
    | .select => { logged with listed := log.controller.listing }
    | .reply _ =>
        if next.outcome = .running then
          { logged with current := none, answers := log.answers ++ log.answer?.toList }
        else logged
    | _ => logged

/-! ### Exact dispatch -/

/-- `CAR n` names a listed car that reaches both floors, `UNAVAILABLE` says that none did. -/
structure Answer.Justified (answer : Answer) : Prop where
  either : answer.text = unavailable ∨ ∃ name, answer.text = carReply name
  offered : ∀ name, answer.text = carReply name →
    ∃ range, (name, range) ∈ answer.listed ∧ canAccessFloors range answer.call
  refused : answer.text = unavailable →
    ∀ car ∈ answer.listed, ¬ canAccessFloors car.2 answer.call

structure DispatchExact (log : DispatchLog) : Prop where
  inOrder : log.answers.map (fun answer => (answer.call, answer.caller)) ++
    log.current.toList ++ log.controller.calls = log.appended
  once : (log.appended.map Prod.snd).Nodup
  justified : ∀ answer ∈ log.answers, answer.Justified

theorem carReply_inj {left right : Token 255} (same : carReply left = carReply right) :
    left = right := by
  have text : bytes "CAR " ++ left.text = bytes "CAR " ++ right.text := congrArg CString.text same
  exact Token.ext (List.append_cancel_left text)

theorem carReply_ne_unavailable (name : Token 255) : carReply name ≠ unavailable := by
  intro same
  have text : bytes "CAR " ++ name.text = bytes "UNAVAILABLE" := congrArg CString.text same
  have heads := congrArg List.head? text
  rw [List.head?_append_of_ne_nil _ (by decide)] at heads
  exact absurd heads (by decide)

/-! ### How far a thread has come -/

def ThreadAt.Registered : ThreadAt → Prop
  | .absent | .accepted | .greeted _ _ | .created => False
  | _ => True

def CarRecord.SameCar (before after : CarRecord) : Prop :=
  after.name = before.name ∧ after.range = before.range

/-- A thread that has ended stays so, and a registered car keeps its name and range. -/
structure Progresses (before after : ControllerState) : Prop where
  ended : ∀ peer, before.thread peer = .ended → after.thread peer = .ended
  registered : ∀ peer, (before.thread peer).Registered →
    (after.thread peer).Registered ∧ (before.record peer).SameCar (after.record peer)
  listed : ∀ car ∈ after.cars, car ∈ before.cars ∨ (after.thread car).Registered

section Progress

variable {state next : ControllerState} {peer : PeerId} {origin point : ThreadAt}

theorem progresses_of_same (thread : next.thread = state.thread)
    (record : ∀ other, (state.record other).SameCar (next.record other))
    (cars : next.cars = state.cars) : Progresses state next := by
  refine ⟨?_, ?_, ?_⟩
  · rw [thread]
    exact fun _ => id
  · rw [thread]
    exact fun other registered => ⟨registered, record other⟩
  · rw [cars]
    exact fun _ => Or.inl

theorem progresses_of_move (thread : next.thread = Function.update state.thread peer point)
    (stands : state.thread peer = origin) (started : origin ≠ .ended)
    (still : origin.Registered → point.Registered)
    (record : ∀ other, (state.thread other).Registered →
      (state.record other).SameCar (next.record other))
    (cars : ∀ car ∈ next.cars, car ∈ state.cars ∨ car = peer ∧ point.Registered) :
    Progresses state next := by
  refine ⟨?_, ?_, ?_⟩
  · intro other ended
    have apart : other ≠ peer := by
      intro own
      rw [own, stands] at ended
      exact started ended
    rw [thread, Function.update_of_ne apart]
    exact ended
  · intro other registered
    refine ⟨?_, record other registered⟩
    rw [thread]
    by_cases own : other = peer
    · subst own
      rw [Function.update_self]
      rw [stands] at registered
      exact still registered
    · rw [Function.update_of_ne own]
      exact registered
  · intro car member
    rcases cars car member with before | ⟨rfl, registered⟩
    · exact Or.inl before
    · right
      rw [thread, Function.update_self]
      exact registered

/-! ### Steps of the handlers -/

/-- A handler appends at most its own call to the queue, and returns then. -/
structure HandlerStep (before after : ControllerState) (queued : List (Call × PeerId)) : Prop
    extends Progresses before after where
  control : after.control = before.control
  calls : after.calls = before.calls ++ queued
  once : (queued.map Prod.snd).Nodup
  fresh : ∀ node ∈ queued,
    before.thread node.2 ≠ .ended ∧ after.thread node.2 = .ended

theorem Progresses.handlerStep (progresses : Progresses state next)
    (control : next.control = state.control) (calls : next.calls = state.calls) :
    HandlerStep state next [] :=
  { progresses with
    control := control
    calls := by rw [calls, List.append_nil]
    once := List.nodup_nil
    fresh := by intro node member; cases member }

theorem consume_eq (connFd : Nat) (later : List UInt8) :
    state.consume connFd later =
      { state with incoming := (state.consume connFd later).incoming } := by
  unfold ControllerState.consume
  split <;> rfl

theorem send_eq (writes : List WriteResult) (sent : Option CString) :
    state.send writes sent = { state with outcome := (state.send writes sent).outcome } := by
  unfold ControllerState.send
  split
  · split <;> rfl
  · rfl

theorem handlerStep_same (thread : next.thread = state.thread)
    (record : next.record = state.record) (cars : next.cars = state.cars)
    (control : next.control = state.control) (calls : next.calls = state.calls) :
    HandlerStep state next [] := by
  apply Progresses.handlerStep _ control calls
  apply progresses_of_same thread _ cars
  rw [record]
  exact fun _ => ⟨rfl, rfl⟩

theorem handlerStep_crash : HandlerStep state { state with outcome := .crashed } [] :=
  handlerStep_same rfl rfl rfl rfl rfl

theorem handlerStep_of_move (thread : next.thread = Function.update state.thread peer point)
    (stands : state.thread peer = origin) (started : origin ≠ .ended)
    (still : origin.Registered → point.Registered) (record : next.record = state.record)
    (cars : next.cars = state.cars) (control : next.control = state.control)
    (calls : next.calls = state.calls) : HandlerStep state next [] := by
  apply Progresses.handlerStep _ control calls
  apply progresses_of_move thread stands started still
  · rw [record]
    exact fun _ _ => ⟨rfl, rfl⟩
  · rw [cars]
    exact fun _ => Or.inl

theorem handlerStep_move (stands : state.thread peer = origin) (started : origin ≠ .ended)
    (still : origin.Registered → point.Registered) :
    HandlerStep state (state.moveThread peer point) [] :=
  handlerStep_of_move rfl stands started still rfl rfl rfl rfl

theorem handlerStep_closeAndReturn (stands : state.thread peer = origin)
    (started : origin ≠ .ended) : HandlerStep state (state.closeAndReturn peer) [] :=
  handlerStep_of_move rfl stands started (fun _ => trivial) rfl rfl rfl rfl

theorem handlerStep_initialMessage (accepted : state.thread peer = .accepted)
    (message : List UInt8) :
    ∃ queued, HandlerStep state (state.initialMessage peer message) queued := by
  have closes : HandlerStep state (state.closeAndReturn peer) [] :=
    handlerStep_closeAndReturn accepted nofun
  unfold ControllerState.initialMessage
  split
  · split
    · rename_i call _
      have progresses : Progresses state (state.queueCall peer call) :=
        progresses_of_move rfl accepted nofun (fun _ => trivial) (fun _ _ => ⟨rfl, rfl⟩)
          (fun _ => Or.inl)
      refine ⟨[(call, peer)],
        { progresses with
          control := rfl
          calls := rfl
          once := List.nodup_singleton peer
          fresh := ?_ }⟩
      intro node member
      rw [List.mem_singleton.mp member, accepted]
      exact ⟨nofun, Function.update_self _ _ _⟩
    · exact ⟨[], closes⟩
  · split
    · split
      · exact ⟨[], handlerStep_move accepted nofun False.elim⟩
      · exact ⟨[], closes⟩
    · exact ⟨[], closes⟩

/-- The record is made before the car is put into the list. -/
theorem handlerStep_created {name : Token 255} {range : CarRange} {record : CarRecord}
    (greeted : state.thread peer = .greeted name range) :
    HandlerStep state ((state.moveThread peer .created).storeRecord peer record) [] := by
  refine Progresses.handlerStep
    (progresses_of_move rfl greeted nofun False.elim ?_ (fun _ => Or.inl)) rfl rfl
  intro other registered
  have apart : other ≠ peer := by
    intro own
    rw [own, greeted] at registered
    exact registered
  simp only [ControllerState.storeRecord, Function.update_of_ne apart]
  exact ⟨rfl, rfl⟩

theorem handlerStep_received {result : Received} (received : ReceivedCase state peer result next) :
    ∃ queued, HandlerStep state next queued := by
  cases received with
  | initial accepted => exact handlerStep_initialMessage accepted _
  | initialNull accepted => exact ⟨[], handlerStep_crash⟩
  | created greeted found => exact ⟨[], handlerStep_created greeted⟩
  | noStatus greeted unclear => exact ⟨[], handlerStep_closeAndReturn greeted nofun⟩
  | statusNull greeted => exact ⟨[], handlerStep_closeAndReturn greeted nofun⟩
  | reported serving found => exact ⟨[], handlerStep_move serving nofun (fun _ => trivial)⟩
  | farewell serving unclear => exact ⟨[], handlerStep_move serving nofun (fun _ => trivial)⟩
  | lost serving => exact ⟨[], handlerStep_move serving nofun (fun _ => trivial)⟩
  | overrun => exact ⟨[], handlerStep_crash⟩

def PeerAction.OfHandler : PeerAction → Prop
  | .take | .select | .insert _ | .reply _ => False
  | _ => True

theorem handlerStep_monitorSocket (eof : Bool) :
    HandlerStep state (state.monitorSocket peer eof) [] := by
  unfold ControllerState.monitorSocket
  dsimp only
  rw [shutdown_eq]
  split_ifs <;> exact handlerStep_same rfl rfl rfl rfl rfl

theorem handlerStep_breakOff (lost : state.thread peer = .lost) :
    HandlerStep state (state.breakOff peer) [] := by
  unfold ControllerState.breakOff
  rw [shutdown_eq]
  exact handlerStep_of_move rfl lost nofun (fun _ => trivial) rfl rfl rfl rfl

theorem handlerStep_hangUp (unlinked : state.thread peer = .unlinked) :
    HandlerStep state (state.hangUp peer) [] := by
  unfold ControllerState.hangUp
  rw [shutdown_eq]
  split
  · exact handlerStep_of_move rfl unlinked nofun (fun _ => trivial) rfl rfl rfl rfl
  · exact handlerStep_move unlinked nofun (fun _ => trivial)

theorem handlerStep_link (created : state.thread peer = .created) :
    HandlerStep state (state.linkCar peer) [] := by
  refine Progresses.handlerStep
    (progresses_of_move rfl created nofun (fun _ => trivial) (fun _ _ => ⟨rfl, rfl⟩) ?_) rfl rfl
  intro car member
  rcases List.mem_cons.mp member with own | before
  · exact Or.inr ⟨own, trivial⟩
  · exact Or.inl before

theorem handlerStep_unlink (leaving : state.thread peer = .leaving) :
    HandlerStep state (state.unlinkCar peer) [] := by
  refine Progresses.handlerStep
    (progresses_of_move rfl leaving nofun (fun _ => trivial) (fun _ _ => ⟨rfl, rfl⟩) ?_) rfl rfl
  exact fun car member => Or.inl (List.mem_of_mem_erase member)

/-- Stores into the record of a car leave its name and range. -/
theorem sameCar_update {records : PeerId → CarRecord} {record : CarRecord}
    (same : (records peer).SameCar record) (other : PeerId) :
    (records other).SameCar (Function.update records peer record other) := by
  by_cases own : other = peer
  · subst own
    rw [Function.update_self]
    exact same
  · rw [Function.update_of_ne own]
    exact ⟨rfl, rfl⟩

/-- A thread moves on and stores into the record of its car. -/
theorem handlerStep_store {record : CarRecord} (stands : state.thread peer = origin)
    (started : origin ≠ .ended) (still : origin.Registered → point.Registered)
    (same : (state.record peer).SameCar record) :
    HandlerStep state ((state.moveThread peer point).storeRecord peer record) [] :=
  Progresses.handlerStep
    (progresses_of_move rfl stands started still (fun other _ => sameCar_update same other)
      (fun _ => Or.inl)) rfl rfl

theorem handlerStep_of_ofHandler {action : PeerAction}
    (taken : peerStep state action = some next) (handler : action.OfHandler) :
    ∃ queued, HandlerStep state next queued := by
  obtain ⟨_, step⟩ := peerStep_cases taken
  cases step with
  | connect absent free =>
      exact ⟨[], handlerStep_of_move rfl absent nofun False.elim rfl rfl rfl rfl⟩
  | sends opened => exact ⟨[], handlerStep_same rfl rfl rfl rfl rfl⟩
  | closes => exact ⟨[], handlerStep_same rfl rfl rfl rfl rfl⟩
  | receive returns computed handled =>
      rw [consume_eq] at handled
      obtain ⟨queued, step⟩ := handlerStep_received handled
      exact ⟨queued, { step with }⟩
  | monitor watched present => exact ⟨[], handlerStep_monitorSocket _⟩
  | monitorFreed watched freed => exact ⟨[], handlerStep_crash⟩
  | drop serving disconnected => exact ⟨[], handlerStep_move serving nofun (fun _ => trivial)⟩
  | breakOff lost => exact ⟨[], handlerStep_breakOff lost⟩
  | link created => exact ⟨[], handlerStep_link created⟩
  | update reported =>
      exact ⟨[], handlerStep_store reported nofun (fun _ => trivial) ⟨rfl, rfl⟩⟩
  | serve updated computed fits =>
      rename_i peer writes update
      have stored : HandlerStep state
          ((state.moveThread peer .serving).storeRecord peer
            { state.record peer with queue := update.queue }) [] :=
        handlerStep_store updated nofun (fun _ => trivial) ⟨rfl, rfl⟩
      rw [send_eq]
      exact ⟨[], { stored with }⟩
  | unlink leaving => exact ⟨[], handlerStep_unlink leaving⟩
  | hangUp unlinked => exact ⟨[], handlerStep_hangUp unlinked⟩
  | free hungUp => exact ⟨[], handlerStep_move hungUp nofun (fun _ => trivial)⟩
  | control step => cases step <;> exact absurd handler id

theorem controlCase_of_taken {action : PeerAction} (taken : peerStep state action = some next)
    (control : ¬ action.OfHandler) : ControlCase state action next := by
  obtain ⟨_, step⟩ := peerStep_cases taken
  cases step with
  | control step => exact step
  | _ => exact absurd trivial control

end Progress

/-! ### The call in hand -/

structure Chosen (log : DispatchLog) (call : Call) (car : PeerId) : Prop where
  registered : (log.controller.thread car).Registered
  listed : ((log.controller.record car).name, (log.controller.record car).range) ∈ log.listed
  reaches : canAccessFloors (log.controller.record car).range call

def InHand (log : DispatchLog) : Prop :=
  match log.controller.control with
  | .waiting => log.current = none
  | .taken call caller => log.current = some (call, caller)
  | .selected call caller car => log.current = some (call, caller) ∧ Chosen log call car
  | .replying caller none =>
      ∃ call, log.current = some (call, caller) ∧
        ∀ car ∈ log.listed, ¬ canAccessFloors car.2 call
  | .replying caller (some car) =>
      ∃ call, log.current = some (call, caller) ∧ Chosen log call car

/-- While the process runs, the log is exact and the loop knows the call it handles. -/
structure Logged (log : DispatchLog) : Prop where
  dispatch : DispatchExact log
  returned : ∀ node ∈ log.appended, log.controller.thread node.2 = .ended
  registered : ∀ car ∈ log.controller.cars, (log.controller.thread car).Registered
  inHand : log.controller.outcome = .running → InHand log

section Steps

variable {log : DispatchLog} {next : ControllerState}

theorem Chosen.progress {call : Call} {car : PeerId} (chosen : Chosen log call car)
    (progresses : Progresses log.controller next) {appended : List (Call × PeerId)} :
    Chosen { log with controller := next, appended := appended } call car := by
  obtain ⟨registered, name, range⟩ := progresses.registered car chosen.registered
  refine ⟨registered, ?_, ?_⟩
  · change ((next.record car).name, (next.record car).range) ∈ log.listed
    rw [name, range]
    exact chosen.listed
  · change canAccessFloors (next.record car).range call
    rw [range]
    exact chosen.reaches

theorem InHand.progress (inHand : InHand log) (progresses : Progresses log.controller next)
    (control : next.control = log.controller.control) {appended : List (Call × PeerId)} :
    InHand { log with controller := next, appended := appended } := by
  unfold InHand at inHand ⊢
  dsimp only
  rw [control]
  cases at_ : log.controller.control with
  | waiting =>
      rw [at_] at inHand
      exact inHand
  | taken call caller =>
      rw [at_] at inHand
      exact inHand
  | selected call caller car =>
      rw [at_] at inHand
      exact ⟨inHand.1, inHand.2.progress progresses⟩
  | replying caller car =>
      rw [at_] at inHand
      cases car with
      | none => exact inHand
      | some car =>
          obtain ⟨call, current, chosen⟩ := inHand
          exact ⟨call, current, chosen.progress progresses⟩

/-- A handler may append its call, which is not in the log yet. -/
theorem logged_handler {queued : List (Call × PeerId)} (logged : Logged log)
    (running : log.controller.outcome = .running)
    (handled : HandlerStep log.controller next queued) :
    Logged { log with
      controller := next
      appended := log.appended ++ next.calls.drop log.controller.calls.length } := by
  have appended : next.calls.drop log.controller.calls.length = queued := by
    rw [handled.calls, List.drop_left]
  have apart : (log.appended.map Prod.snd).Disjoint (queued.map Prod.snd) := by
    intro caller before after
    obtain ⟨node, member, rfl⟩ := List.mem_map.mp before
    obtain ⟨fresh, memberFresh, same⟩ := List.mem_map.mp after
    apply (handled.fresh fresh memberFresh).1
    rw [same]
    exact logged.returned node member
  rw [appended]
  refine ⟨⟨?_, ?_, logged.dispatch.justified⟩, ?_, ?_, ?_⟩
  · change _ ++ _ ++ next.calls = log.appended ++ queued
    rw [handled.calls, ← List.append_assoc, logged.dispatch.inOrder]
  · change ((log.appended ++ queued).map Prod.snd).Nodup
    rw [List.map_append]
    exact List.nodup_append'.mpr ⟨logged.dispatch.once, handled.once, apart⟩
  · intro node member
    rcases List.mem_append.mp member with before | fresh
    · exact handled.ended node.2 (logged.returned node before)
    · exact (handled.fresh node fresh).2
  · intro car member
    rcases handled.listed car member with before | fresh
    · exact (handled.registered car (logged.registered car before)).1
    · exact fresh
  · exact fun _ => (logged.inHand running).progress handled.toProgresses handled.control

/-! ### Steps of the control loop -/

theorem Logged.ofControl (logged : Logged log) {after : DispatchLog}
    (thread : after.controller.thread = log.controller.thread)
    (cars : after.controller.cars = log.controller.cars) (appended : after.appended = log.appended)
    (inOrder : after.answers.map (fun answer => (answer.call, answer.caller)) ++
      after.current.toList ++ after.controller.calls = after.appended)
    (justified : ∀ answer ∈ after.answers, answer.Justified)
    (inHand : after.controller.outcome = .running → InHand after) : Logged after := by
  refine ⟨⟨inOrder, ?_, justified⟩, ?_, ?_, inHand⟩
  · rw [appended]
    exact logged.dispatch.once
  · rw [appended, thread]
    exact logged.returned
  · rw [cars, thread]
    exact logged.registered

theorem appended_same {calls : List (Call × PeerId)} (appended : List (Call × PeerId)) :
    appended ++ calls.drop calls.length = appended := by
  rw [List.drop_length, List.append_nil]

theorem Logged.ofSameCalls (logged : Logged log) {after : DispatchLog}
    (thread : after.controller.thread = log.controller.thread)
    (cars : after.controller.cars = log.controller.cars)
    (calls : after.controller.calls = log.controller.calls)
    (appended : after.appended =
      log.appended ++ after.controller.calls.drop log.controller.calls.length)
    (answers : after.answers = log.answers) (current : after.current = log.current)
    (inHand : after.controller.outcome = .running → InHand after) : Logged after := by
  have same : after.appended = log.appended := by rw [appended, calls, appended_same]
  refine logged.ofControl thread cars same ?_ ?_ inHand
  · rw [answers, current, calls, same]
    exact logged.dispatch.inOrder
  · rw [answers]
    exact logged.dispatch.justified

theorem logged_take {after : DispatchLog} (logged : Logged log)
    (running : log.controller.outcome = .running) (taken : logStep log .take = some after) :
    Logged after := by
  obtain ⟨next, stepped, rfl⟩ := Option.map_eq_some_iff.mp taken
  have inHand := logged.inHand running
  cases controlCase_of_taken stepped id with
  | take waiting queued =>
      rename_i call caller calls
      unfold InHand at inHand
      rw [waiting] at inHand
      have inOrder := logged.dispatch.inOrder
      rw [show log.current = none from inHand, queued] at inOrder
      have same : log.appended ++ calls.drop log.controller.calls.length = log.appended := by
        rw [queued, List.drop_eq_nil_of_le (by simp), List.append_nil]
      refine logged.ofControl rfl rfl same ?_ logged.dispatch.justified (fun _ => ?_)
      · dsimp only
        rw [same, queued]
        simpa using inOrder
      · change log.controller.calls.head? = some (call, caller)
        rw [queued]
        rfl

theorem logged_select {after : DispatchLog} (logged : Logged log)
    (running : log.controller.outcome = .running) (taken : logStep log .select = some after) :
    Logged after := by
  obtain ⟨next, stepped, rfl⟩ := Option.map_eq_some_iff.mp taken
  have inHand := logged.inHand running
  unfold InHand at inHand
  cases controlCase_of_taken stepped id with
  | select selecting found =>
      rename_i call caller car
      rw [selecting] at inHand
      have member := List.mem_of_find?_eq_some found
      have reaches : canAccessFloors (log.controller.record car).range call := by
        have fits := List.find?_some found
        exact of_decide_eq_true fits
      exact logged.ofSameCalls rfl rfl rfl rfl rfl rfl
        (fun _ => ⟨inHand, logged.registered car member, List.mem_map_of_mem member, reaches⟩)
  | selectNone selecting missing =>
      rename_i call caller
      rw [selecting] at inHand
      refine logged.ofSameCalls rfl rfl rfl rfl rfl rfl (fun _ => ⟨call, inHand, ?_⟩)
      intro listed member
      obtain ⟨car, among, rfl⟩ := List.mem_map.mp member
      exact fun reaches => List.find?_eq_none.mp missing car among (decide_eq_true reaches)

theorem logged_insert {after : DispatchLog} {writes : List WriteResult} (logged : Logged log)
    (running : log.controller.outcome = .running)
    (taken : logStep log (.insert writes) = some after) : Logged after := by
  obtain ⟨next, stepped, rfl⟩ := Option.map_eq_some_iff.mp taken
  have inHand := logged.inHand running
  unfold InHand at inHand
  cases controlCase_of_taken stepped id with
  | insert selected present computed fits =>
      rename_i call caller car update
      rw [selected] at inHand
      obtain ⟨current, chosen⟩ := inHand
      have same : (log.controller.record car).SameCar
          { log.controller.record car with queue := update.queue } := ⟨rfl, rfl⟩
      rw [send_eq]
      refine logged.ofSameCalls rfl rfl rfl rfl rfl rfl
        (fun _ => ⟨call, current, chosen.progress ?_⟩)
      exact progresses_of_same rfl (fun other => sameCar_update same other) rfl
  | insertFreed selected freed =>
      exact logged.ofSameCalls rfl rfl rfl rfl rfl rfl nofun

/-- The caller is answered with a justified text, unless the send ends the process. -/
theorem logged_answered {call : Call} {caller : PeerId} {text : CString}
    {writes : List WriteResult} (logged : Logged log) (current : log.current = some (call, caller))
    (answer : log.controller.answer? = some (caller, text))
    (justified : Answer.Justified
      { call := call, caller := caller, text := text, listed := log.listed }) :
    Logged
      (let next := (log.controller.answered caller).send writes (some text)
        let logged :=
          { log with
            controller := next
            appended := log.appended ++ next.calls.drop log.controller.calls.length }
        if next.outcome = .running then
          { logged with current := none, answers := log.answers ++ log.answer?.toList }
        else logged) := by
  have answered : log.answer? =
      some { call := call, caller := caller, text := text, listed := log.listed } := by
    simp only [DispatchLog.answer?, current, answer]
    rfl
  have inOrder := logged.dispatch.inOrder
  rw [send_eq]
  dsimp only
  split
  · refine logged.ofControl rfl rfl (appended_same _) ?_ ?_ (fun _ => rfl)
    · dsimp only
      rw [current] at inOrder
      rw [answered]
      change _ = log.appended ++ log.controller.calls.drop log.controller.calls.length
      rw [appended_same, ← inOrder]
      simp [ControllerState.answered, ControllerState.close]
    · intro other member
      rcases List.mem_append.mp member with before | new
      · exact logged.dispatch.justified other before
      · rw [answered] at new
        rw [List.mem_singleton.mp new]
        exact justified
  · rename_i stopped
    exact logged.ofSameCalls rfl rfl rfl rfl rfl rfl (fun running => absurd running stopped)

variable {call : Call} {caller : PeerId} {listed : List (Token 255 × CarRange)}

theorem justified_unavailable (refused : ∀ car ∈ listed, ¬ canAccessFloors car.2 call) :
    Answer.Justified { call := call, caller := caller, text := unavailable, listed := listed } :=
  { either := Or.inl rfl
    offered := fun name same => absurd same.symm (carReply_ne_unavailable name)
    refused := fun _ => refused }

theorem justified_carReply {name : Token 255} {range : CarRange} (among : (name, range) ∈ listed)
    (reaches : canAccessFloors range call) :
    Answer.Justified
      { call := call, caller := caller, text := carReply name, listed := listed } :=
  { either := Or.inr ⟨name, rfl⟩
    offered := by
      intro other same
      obtain rfl := carReply_inj same
      exact ⟨range, among, reaches⟩
    refused := fun same => absurd same (carReply_ne_unavailable name) }

theorem logged_reply {after : DispatchLog} {writes : List WriteResult} (logged : Logged log)
    (running : log.controller.outcome = .running)
    (taken : logStep log (.reply writes) = some after) : Logged after := by
  obtain ⟨next, stepped, rfl⟩ := Option.map_eq_some_iff.mp taken
  have inHand := logged.inHand running
  unfold InHand at inHand
  cases controlCase_of_taken stepped id with
  | refuse replying fits =>
      rw [replying] at inHand
      obtain ⟨call, current, refused⟩ := inHand
      apply logged_answered logged current _ (justified_unavailable refused)
      simp only [ControllerState.answer?, replying]
  | reply replying present fits =>
      rw [replying] at inHand
      obtain ⟨call, current, chosen⟩ := inHand
      apply logged_answered logged current _ (justified_carReply chosen.listed chosen.reaches)
      simp only [ControllerState.answer?, replying]
  | replyFreed replying freed =>
      exact logged.ofSameCalls rfl rfl rfl rfl rfl rfl nofun

theorem logged_step {action : PeerAction} {after : DispatchLog} (logged : Logged log)
    (taken : logStep log action = some after) : Logged after := by
  have running : log.controller.outcome = .running := by
    obtain ⟨next, stepped, _⟩ := Option.map_eq_some_iff.mp taken
    exact (peerStep_cases stepped).1
  cases action with
  | take => exact logged_take logged running taken
  | select => exact logged_select logged running taken
  | insert writes => exact logged_insert logged running taken
  | reply writes => exact logged_reply logged running taken
  | connect | sends | closes | receive | monitor | drop | breakOff | link | update | serve | unlink
  | hangUp | free =>
      obtain ⟨next, stepped, rfl⟩ := Option.map_eq_some_iff.mp taken
      obtain ⟨queued, handled⟩ := handlerStep_of_ofHandler stepped trivial
      exact logged_handler logged running handled

end Steps

/-! ### Whole runs -/

end Cab403.Elevator.Peers
