/-
Whether the queued stops can still be served when the link is left to itself: no further
call, no button, no report but the car's, and no wake-up of the loop without a broadcast.
They can in every state a run reaches but one kind, in which the car waits with its doors
at a stop that it will not report again.
-/

import Cab403.Elevator.LinkUpkeep

namespace Cab403.Elevator

open CText ActionRuns Controller Framing

def Unprompted (link : Link) : LinkAction → Prop
  | .insert _ | .press _ | .anyReport _ => False
  | .loop .broadcast => link.car.wake = true
  | _ => True

/-- The head of the queue is the floor the car stands at, and the car has nothing left to
do or to report about it. -/
structure Lost (link : Link) : Prop where
  awaited : Awaited link
  here : link.car.shm.currentFloor = link.car.shm.destinationFloor
  notOpening : link.car.shm.status ≠ Status.opening.chars
  notWoken : ¬ (link.car.shm.status = Status.closed.chars ∧ link.car.wake = true)
  unreported : ¬ ArrivalReported link

abbrev Follows (link next : Link) : Prop := Leads linkStep Unprompted link next

theorem canonicalCalls_of_unprompted {link : Link} {action : LinkAction}
    (unprompted : Unprompted link action) : CanonicalCalls link action := by
  cases action with
  | insert call => exact absurd unprompted id
  | _ => trivial

theorem Upkeep.follows {link next : Link} (upkeep : Upkeep link) (follows : Follows link next) :
    Upkeep next :=
  follows.preserves
    (fun link action next held unprompted =>
      upkeep_step link action next held (canonicalCalls_of_unprompted unprompted))
    upkeep

/-! ### The handler's side -/

section Handler

variable {link : Link}

/-- The message that is due is written, and the mutex free again. -/
def Link.flushed (link : Link) : Link :=
  { link with
    down := link.down ++ link.outgoing
    written := link.written ++ link.outgoing
    outgoing := []
    queueMutex := none }

theorem follows_flushed (finished : link.queueMutex = none → link.outgoing = []) :
    Follows link link.flushed := by
  by_cases sent : link.outgoing = []
  · have shape : link.flushed = { link with queueMutex := none } := by
      unfold Link.flushed
      rw [sent, List.append_nil, List.append_nil]
    rw [shape]
    by_cases free : link.queueMutex = none
    · rw [← free]
      exact Leads.refl link
    · exact Leads.of_step .unlock trivial (if_pos ⟨free, sent⟩)
  · have held : link.queueMutex ≠ none := fun free => sent (finished free)
    have written : Follows link { link.flushed with queueMutex := link.queueMutex } := by
      apply Leads.of_step (.write link.outgoing.length) trivial
      simp only [linkStep, if_pos sent, List.take_of_length_le (Nat.le_succ _),
        List.drop_of_length_le (Nat.le_succ _)]
      rfl
    exact written.trans (Leads.of_step .unlock trivial (if_pos ⟨held, rfl⟩))

structure HandlerIdle (link : Link) : Prop where
  receiving : link.handler = .receiving
  free : link.queueMutex = none
  sent : link.outgoing = []

/-- What the handler can do to the queue on its own: nothing, when the arrival at the first
stop has not been reported; or it removes that stop and announces the next. -/
inductive DrainProgress (link next : Link) : Prop
  | kept (queue : next.queue = link.queue) (down : next.down = link.down ++ link.outgoing)
      (unreported : ¬ ArrivalReported link)
  | served (shorter : next.queue.length < link.queue.length)
      (announced : next.queue = [] ∨ next.down ≠ [])

theorem arrivalAt_of_reportsArrival {report : CarData} (arrival : ReportsArrival report) :
    report = arrivalAt report.currentFloor := by
  obtain ⟨currentFloor, destinationFloor, status⟩ := report
  obtain ⟨opening, same⟩ := arrival
  dsimp only at opening same
  subst same
  rw [show status = statusToken .opening from Token.text_injective opening]
  rfl

theorem popServed_shorter (currentFloor : Token 3) (head : FloorNode) (rest : List FloorNode) :
    (popServed currentFloor (head :: rest)).length < (head :: rest).length := by
  cases rest with
  | nil => exact Nat.succ_pos 0
  | cons second later =>
      rw [popServed]
      split
      · rw [List.length_cons, List.length_cons]
        omega
      · exact Nat.lt_succ_self _

theorem serveArrival_cases (report : CarData) (queue : List FloorNode) :
    ((∀ head ∈ queue.head?, report ≠ arrivalAt head.floor) ∧
        serveArrival report queue = { queue := queue, sent := none }) ∨
      ((∃ head ∈ queue.head?, report = arrivalAt head.floor) ∧
        (serveArrival report queue).queue.length < queue.length ∧
        ((serveArrival report queue).queue = [] ∨ (serveArrival report queue).sent ≠ none)) := by
  cases queue with
  | nil => exact Or.inl ⟨nofun, rfl⟩
  | cons head rest =>
      by_cases arrives : ReportsArrival report ∧ head.floor = report.currentFloor
      · refine Or.inr ⟨⟨head, rfl, ?_⟩, ?_, ?_⟩
        · rw [arrives.2]
          exact arrivalAt_of_reportsArrival arrives.1
        · rw [serveArrival_of_arrival arrives.1 arrives.2]
          exact popServed_shorter _ head rest
        · by_cases left : (serveArrival report (head :: rest)).queue = []
          · exact Or.inl left
          · exact Or.inr (serveArrival_sent_of_arrival arrives.1 arrives.2 left)
      · refine Or.inl ⟨?_, ?_⟩
        · rintro first isHead rfl
          cases isHead
          exact arrives ⟨reportsArrival_arrivalAt head.floor, rfl⟩
        · simp only [serveArrival, if_neg arrives]

structure Drained (link next : Link) : Prop where
  follows : Follows link next
  idle : HandlerIdle next
  empty : next.up = []
  car : next.car = link.car
  progress : DrainProgress link next

theorem Drained.of_kept {midway next : Link} (first : Follows link midway)
    (drained : Drained midway next) (car : midway.car = link.car)
    (queue : midway.queue = link.queue)
    (stream : midway.down ++ midway.outgoing = link.down ++ link.outgoing)
    (reported : ∀ head ∈ link.queue.head?, ReportedFrom link head.floor →
      ReportedFrom midway head.floor) : Drained link next := by
  refine ⟨first.trans drained.follows, drained.idle, drained.empty, drained.car.trans car, ?_⟩
  cases drained.progress with
  | kept same down unreported =>
      refine .kept (same.trans queue) (down.trans stream) fun arrival => unreported ?_
      obtain ⟨head, isHead, from_⟩ := arrival
      exact ⟨head, queue ▸ isHead, reported head isHead from_⟩
  | served shorter announced => exact .served (queue ▸ shorter) announced

theorem Drained.of_served {midway next : Link} (first : Follows link midway)
    (drained : Drained midway next) (car : midway.car = link.car)
    (shorter : midway.queue.length < link.queue.length)
    (announced : midway.queue = [] ∨ midway.down ≠ []) : Drained link next := by
  refine ⟨first.trans drained.follows, drained.idle, drained.empty, drained.car.trans car, ?_⟩
  cases drained.progress with
  | kept same down _ =>
      refine .served (same ▸ shorter) ?_
      rw [same, down]
      exact announced.imp_right fun some_ => List.append_ne_nil_of_left_ne_nil some_ _
  | served further later => exact .served (further.trans shorter) later

def handlerRank (link : Link) : Nat :=
  3 * link.up.length +
    match link.handler with
    | .receiving => 0
    | .received _ => 2
    | .updated => 1

theorem drained_of_empty (idle : HandlerIdle link) (empty : link.up = []) : Drained link link := by
  refine ⟨Leads.refl link, idle, empty, rfl, .kept rfl ?_ ?_⟩
  · rw [idle.sent, List.append_nil]
  · rintro ⟨head, _, inFlight | received | ⟨updated, _⟩⟩
    · rw [empty] at inFlight
      cases inFlight
    · rw [idle.receiving] at received
      cases received
    · rw [idle.receiving] at updated
      cases updated

theorem follows_served (updated : link.handler = .updated) (free : link.queueMutex = none) :
    Follows link
      (Link.flushed { link.lockedUpdate .handler (serveArrival link.data link.queue) with
        handler := .receiving }) := by
  have step : Follows link
      { link.lockedUpdate .handler (serveArrival link.data link.queue) with
        handler := .receiving } :=
    Leads.of_step .serve trivial (if_pos ⟨updated, free⟩)
  exact step.trans (follows_flushed nofun)

theorem exists_drained (rank : Nat) {link : Link} (upkeep : Upkeep link)
    (free : link.queueMutex = none) (sent : link.outgoing = []) (ranked : handlerRank link ≤ rank) :
    ∃ next, Drained link next := by
  induction rank using Nat.strong_induction_on generalizing link with
  | _ rank ih =>
      cases stage : link.handler with
      | receiving =>
          cases reports : link.up with
          | nil => exact ⟨link, drained_of_empty ⟨stage, free, sent⟩ reports⟩
          | cons message later =>
              obtain ⟨report, written⟩ := upkeep.reports message (by rw [reports]; simp)
              have scanned : statusMessage? message = some report := by
                rw [written, statusMessage?_statusLine]
              have step : Follows link { link with up := later, handler := .received report } := by
                apply Leads.of_step .receiveReport trivial
                simp only [linkStep, reports, scanned, stage, free, true_and]
                exact if_pos (Option.some_ne_none _).symm
              have lower : handlerRank { link with up := later, handler := .received report } <
                  rank := by
                simp only [handlerRank, reports, stage, List.length_cons] at ranked ⊢
                omega
              obtain ⟨next, drained⟩ := ih _ lower (upkeep.follows step) free sent (Nat.le_refl _)
              exact ⟨next, drained.of_kept step rfl rfl rfl fun head _ =>
                reportedFrom_receiveReport reports scanned stage⟩
      | received report =>
          have step : Follows link { link with data := report, handler := .updated } := by
            apply Leads.of_step .update trivial
            simp only [linkStep, stage, free]
            exact if_pos (Option.some_ne_none _).symm
          have lower : handlerRank { link with data := report, handler := .updated } < rank := by
            simp only [handlerRank, stage] at ranked ⊢
            omega
          obtain ⟨next, drained⟩ := ih _ lower (upkeep.follows step) free sent (Nat.le_refl _)
          exact ⟨next, drained.of_kept step rfl rfl rfl fun head _ => reportedFrom_update stage⟩
      | updated =>
          have step := follows_served stage free
          have lower : handlerRank (Link.flushed
              { link.lockedUpdate .handler (serveArrival link.data link.queue) with
                handler := .receiving }) < rank := by
            simp only [handlerRank, stage] at ranked
            simp only [handlerRank, Link.flushed, Link.lockedUpdate]
            omega
          obtain ⟨next, drained⟩ := ih _ lower (upkeep.follows step) rfl rfl (Nat.le_refl _)
          rcases serveArrival_cases link.data link.queue with
            ⟨elsewhere, same⟩ | ⟨_, shorter, announced⟩
          · refine ⟨next, drained.of_kept step rfl ?_ ?_ ?_⟩
            · rw [same]
              rfl
            · rw [same, sent]
              simp [Link.flushed, Link.lockedUpdate]
            · rintro head isHead (inFlight | received | ⟨_, stored⟩)
              · exact Or.inl inFlight
              · rw [stage] at received
                cases received
              · exact absurd stored (elsewhere head isHead)
          · refine ⟨next, drained.of_served step rfl shorter (announced.imp_right ?_)⟩
            intro message
            obtain ⟨floor, named⟩ := Option.ne_none_iff_exists'.mp message
            simp only [Link.flushed, Link.lockedUpdate, named]
            exact List.append_ne_nil_of_right_ne_nil _ (floorFrame_ne_nil floor)

/-- Whatever the handler is at, it can finish its section and take all reports. -/
theorem Upkeep.drain (upkeep : Upkeep link) : ∃ next, Drained link next := by
  have step := follows_flushed upkeep.agreed.finished
  obtain ⟨next, drained⟩ := exists_drained _ (upkeep.follows step) rfl rfl (Nat.le_refl _)
  refine ⟨next, drained.of_kept step rfl rfl ?_ fun _ _ => id⟩
  simp only [Link.flushed, List.append_nil]

end Handler

/-! ### The car on its own -/

section Timeouts

variable {shm : CarSharedMem}

def nextAtRest : Status → Status
  | .opening => .opened
  | .opened => .closing
  | .closing | .closed => .closed
  | .between => .between

theorem timeoutStep_atRest (leftAlone : LeftAlone shm)
    (same : shm.currentFloor = shm.destinationFloor) {status : Status}
    (found : shm.status = status.chars) (waiting : status ≠ .between) :
    timeoutStep shm = { shm with status := (nextAtRest status).chars } := by
  have noOpen : shm.openButton ≠ 1 := by
    rw [leftAlone.openButton]
    decide
  have noClose : shm.closeButton ≠ 1 := by
    rw [leftAlone.closeButton]
    decide
  have together : (Iteration.start shm).FloorsEqual := same
  rw [timeoutStep_eq leftAlone]
  cases status with
  | between => exact absurd rfl waiting
  | closed =>
      have stays : { shm with status := Status.closed.chars } = shm := by rw [← found]
      simp [Iteration.normalTimeout, Iteration.StatusIs, found, together, noOpen, nextAtRest, stays]
  | opening | opened | closing =>
      simp [Iteration.normalTimeout, Iteration.StatusIs, Iteration.FloorsEqual, found, same,
        noOpen, noClose, nextAtRest]

theorem closes_atRest (leftAlone : LeftAlone shm)
    (same : shm.currentFloor = shm.destinationFloor) {status : Status}
    (found : shm.status = status.chars) (waiting : status ≠ .between) :
    timeoutStep^[3] shm = { shm with status := Status.closed.chars } := by
  have first := timeoutStep_atRest leftAlone same found waiting
  have later (next : Status) (still : next ≠ .between) :
      timeoutStep { shm with status := next.chars } =
        { shm with status := (nextAtRest next).chars } :=
    @timeoutStep_atRest { shm with status := next.chars } { leftAlone with } same next rfl still
  rw [Function.iterate_succ_apply, Function.iterate_succ_apply, Function.iterate_one, first]
  cases status with
  | between => exact absurd rfl waiting
  | opening => exact (congrArg timeoutStep (later .opened (by decide))).trans (later .closing nofun)
  | opened => exact (congrArg timeoutStep (later .closing nofun)).trans (later .closed nofun)
  | closing | closed =>
      exact (congrArg timeoutStep (later .closed nofun)).trans (later .closed nofun)

theorem exists_arrived (leftAlone : LeftAlone shm)
    (found : ∃ status : Status, shm.status = status.chars) (current : Canonical shm.currentFloor)
    (destination : Canonical shm.destinationFloor)
    (apart : shm.currentFloor ≠ shm.destinationFloor) :
    ∃ count, Arrived (timeoutStep^[count] shm) := by
  obtain ⟨status, found⟩ := found
  have away : floorStrToInt shm.currentFloor ≠ floorStrToInt shm.destinationFloor :=
    fun same => apart (current.eq_of_number destination same)
  obtain ⟨floors, further⟩ : ∃ floors, distance shm = floors + 1 := by
    refine ⟨distance shm - 1, ?_⟩
    unfold distance
    omega
  use floors + 1 + waits status
  rw [Function.iterate_add_apply, departs_after_waits _ leftAlone apart found rfl]
  exact arrives_from_between floors { leftAlone with } rfl current destination further

theorem timeouts_destination (leftAlone : LeftAlone shm) (current : Canonical shm.currentFloor)
    (destination : Canonical shm.destinationFloor) (count : Nat) :
    (timeoutStep^[count] shm).destinationFloor = shm.destinationFloor := by
  have onTheWay : OnTheWay shm.destinationFloor shm :=
    { notEmergency := leftAlone.notEmergency
      notService := leftAlone.notService
      current := current
      destination := rfl }
  exact (onTheWay.iterate destination.terminated count).destination

theorem LeftAlone.timeouts (leftAlone : LeftAlone shm) (count : Nat) :
    LeftAlone (timeoutStep^[count] shm) := by
  induction count generalizing shm with
  | zero => exact leftAlone
  | succ count ih =>
      rw [Function.iterate_succ_apply]
      apply ih
      obtain ⟨openButton, closeButton⟩ := elevatorLoop_buttons .timedOut shm
      constructor
      case notEmergency =>
        rw [timeoutStep, elevatorLoop_emergencyMode]
        exact leftAlone.notEmergency
      case notService =>
        rw [timeoutStep, elevatorLoop_individualServiceMode]
        exact leftAlone.notService
      case openButton => exact openButton.elim (·.trans leftAlone.openButton) id
      case closeButton => exact closeButton.elim (·.trans leftAlone.closeButton) id

/-- Timeouts bring a car out of any move, and away from a floor or to rest with its doors
closed. -/
theorem exists_ready (leftAlone : LeftAlone shm)
    (found : ∃ status : Status, shm.status = status.chars) (current : Canonical shm.currentFloor)
    (destination : Canonical shm.destinationFloor)
    (moving : shm.status = Status.between.chars → shm.currentFloor ≠ shm.destinationFloor)
    (floor : CharArray 4) :
    ∃ count, (timeoutStep^[count] shm).status ≠ Status.between.chars ∧
      ((timeoutStep^[count] shm).currentFloor ≠ floor ∨
        (timeoutStep^[count] shm).status = Status.closed.chars) := by
  have still : Status.opening.chars ≠ Status.between.chars := by simp
  by_cases away : shm.status ≠ Status.between.chars ∧ shm.currentFloor ≠ floor
  · exact ⟨0, away.1, Or.inl away.2⟩
  · by_cases same : shm.currentFloor = shm.destinationFloor
    · obtain ⟨status, spelled⟩ := found
      have waiting : status ≠ .between := by
        rintro rfl
        exact moving spelled same
      refine ⟨3, ?_, ?_⟩ <;> rw [closes_atRest leftAlone same spelled waiting]
      · simp
      · exact Or.inr rfl
    · obtain ⟨count, arrived⟩ := exists_arrived leftAlone found current destination same
      have there := timeouts_destination leftAlone current destination count
      by_cases asked : shm.destinationFloor = floor
      · -- The car arrives at the floor itself, so its doors have to go round to closed.
        have closed := closes_atRest (leftAlone.timeouts count) arrived.same arrived.opening nofun
        rw [← Function.iterate_add_apply] at closed
        refine ⟨3 + count, ?_, ?_⟩ <;> rw [closed]
        · simp
        · exact Or.inr rfl
      · refine ⟨count, ?_, Or.inl ?_⟩
        · rw [arrived.opening]
          exact still
        · rw [arrived.same, there]
          exact asked

end Timeouts

/-! ### The car in the link -/

section CarSide

variable {link : Link}

def Unpressed (shm : CarSharedMem) : Prop := shm.openButton = 0 ∧ shm.closeButton = 0

theorem Upkeep.leftAlone (upkeep : Upkeep link) (unpressed : Unpressed link.car.shm) :
    LeftAlone link.car.shm :=
  { notEmergency := upkeep.agreed.normal.1
    notService := upkeep.agreed.normal.2
    openButton := unpressed.1
    closeButton := unpressed.2 }

theorem follows_timeouts (count : Nat) (link : Link) :
    ∃ wake notify, Follows link
      { link with
        car := { link.car with
          shm := timeoutStep^[count] link.car.shm
          wake := wake
          notify := notify } } := by
  induction count generalizing link with
  | zero => exact ⟨link.car.wake, link.car.notify, Leads.refl link⟩
  | succ count ih =>
      obtain ⟨wake, notify, later⟩ := ih { link with car := link.car.loop .timedOut }
      exact ⟨wake, notify, (Leads.of_step (.loop .timedOut) trivial rfl).trans later⟩

/-- Only the car has moved, and what it has sent. -/
structure OnlyCar (link next : Link) : Prop where
  down : next.down = link.down
  queue : next.queue = link.queue
  handler : next.handler = link.handler
  free : next.queueMutex = link.queueMutex
  sent : next.outgoing = link.outgoing

theorem OnlyCar.trans {midway next : Link} (first : OnlyCar link midway)
    (second : OnlyCar midway next) : OnlyCar link next where
  down := second.down.trans first.down
  queue := second.queue.trans first.queue
  handler := second.handler.trans first.handler
  free := second.free.trans first.free
  sent := second.sent.trans first.sent

theorem follows_sendStatus (report : link.car.connection = .report) :
    Follows link
      { link with
        car := { link.car with connection := .top }
        up := link.up ++ [statusText link.car.shm] } :=
  Leads.of_step .sendStatus trivial (if_pos report)

theorem follows_connectionTop (top : link.car.connection = .top) :
    Follows link { link with car := link.car.connectionTop } :=
  Leads.of_step .connectionTop trivial (if_pos top)

/-- With nothing to receive, the connection thread comes round to the head of its loop. -/
theorem Upkeep.exists_top (upkeep : Upkeep link) (silent : link.down = []) :
    ∃ notify up, Follows link
      { link with car := { link.car with connection := .top, notify := notify }, up := up } := by
  have serves := upkeep.serves
  cases point : link.car.connection with
  | top =>
      refine ⟨link.car.notify, link.up, ?_⟩
      rw [← point]
      exact Leads.refl link
  | report => exact ⟨link.car.notify, _, follows_sendStatus point⟩
  | polling =>
      have reports : Follows link { link with car := { link.car with connection := .report } } :=
        Leads.of_step .pollTimeout trivial (if_pos point)
      exact ⟨link.car.notify, _, reports.trans (follows_sendStatus rfl)⟩
  | pipe =>
      rw [point] at serves
      have reads : Follows link { link with car := link.car.readNotify } :=
        Leads.of_step .readNotify trivial (if_pos ⟨point, serves⟩)
      exact ⟨link.car.notify - 1, _, reads.trans (follows_sendStatus rfl)⟩
  | socket readable =>
      rw [point] at serves
      exact absurd silent serves.1
  | outside | greeting | farewell _ | exited =>
      rw [point] at serves
      exact absurd serves id

theorem connectionTop_of_not_applies (normal : NormalMode link.car.shm)
    (kept : ¬ link.car.Applies) :
    link.car.connectionTop = { link.car with connection := .polling } := by
  unfold CarProcess.connectionTop
  rw [CarProcess.applyPending_of_not_applies kept]
  dsimp only
  rw [if_neg normal.1, if_neg normal.2]

theorem connectionTop_of_applies (normal : NormalMode link.car.shm)
    (applies : link.car.Applies) :
    link.car.connectionTop =
      { link.car with
        shm := { link.car.shm with destinationFloor := link.car.pendingDestination }
        pendingDestination := CharArray.empty 4
        wake := true
        connection := .polling } := by
  unfold CarProcess.connectionTop
  rw [CarProcess.applyPending_of_applies applies]
  dsimp only
  rw [if_neg normal.1, if_neg normal.2]

/-- A pending destination is applied, away from the car's floor or with its doors closed. -/
theorem Upkeep.exists_applied (upkeep : Upkeep link) (unpressed : Unpressed link.car.shm)
    (silent : link.down = []) (pending : link.car.pendingDestination ≠ CharArray.empty 4) :
    ∃ next, Follows link next ∧ OnlyCar link next ∧
      next.car.pendingDestination = CharArray.empty 4 ∧
      (next.car.shm.currentFloor ≠ next.car.shm.destinationFloor ∨
        (next.car.shm.status = Status.closed.chars ∧ next.car.wake = true)) := by
  obtain ⟨notify, up, top⟩ := upkeep.exists_top silent
  obtain ⟨count, still, ready⟩ := exists_ready (upkeep.leftAlone unpressed) upkeep.status
    upkeep.current upkeep.destination upkeep.moving link.car.pendingDestination
  obtain ⟨wake, notified, timeouts⟩ := follows_timeouts count
    { link with car := { link.car with connection := .top, notify := notify }, up := up }
  have there := upkeep.follows (top.trans timeouts)
  have applied := connectionTop_of_applies there.agreed.normal ⟨pending, still⟩
  refine ⟨_, (top.trans timeouts).trans (follows_connectionTop rfl), ⟨rfl, rfl, rfl, rfl, rfl⟩,
    ?_, ?_⟩
  · rw [applied]
  · rw [applied]
    exact ready.imp_right fun closed => ⟨closed, rfl⟩

def ReachesSocket (link : Link) : Prop :=
  ∃ next readable, Follows link next ∧ OnlyCar link next ∧
    next.car.connection = .socket readable

theorem ReachesSocket.of_step {midway : Link} (reaches : ReachesSocket midway)
    (step : Follows link midway) (only : OnlyCar link midway) : ReachesSocket link := by
  obtain ⟨next, readable, later, same, point⟩ := reaches
  exact ⟨next, readable, step.trans later, only.trans same, point⟩

theorem reachesSocket_of_polling (polling : link.car.connection = .polling)
    (arrived : link.down ≠ []) : ReachesSocket link := by
  have polled : Follows link { link with car := link.car.pollReady (link.down ≠ []) } :=
    Leads.of_step .pollReady trivial (if_pos ⟨polling, Or.inl arrived⟩)
  refine ⟨_, decide (0 < link.car.notify), polled, ⟨rfl, rfl, rfl, rfl, rfl⟩, ?_⟩
  simp only [CarProcess.pollReady, ne_eq, arrived, not_false_eq_true, decide_true, if_true]

theorem reachesSocket_of_top (normal : NormalMode link.car.shm)
    (top : link.car.connection = .top) (arrived : link.down ≠ []) : ReachesSocket link := by
  have polling : link.car.connectionTop.connection = .polling := by
    by_cases applies : link.car.Applies
    · rw [connectionTop_of_applies normal applies]
    · rw [connectionTop_of_not_applies normal applies]
  have reaches : ReachesSocket { link with car := link.car.connectionTop } :=
    reachesSocket_of_polling polling arrived
  exact reaches.of_step (follows_connectionTop top) ⟨rfl, rfl, rfl, rfl, rfl⟩

theorem reachesSocket_of_report (normal : NormalMode link.car.shm)
    (report : link.car.connection = .report) (arrived : link.down ≠ []) : ReachesSocket link := by
  have reaches : ReachesSocket
      { link with
        car := { link.car with connection := .top }
        up := link.up ++ [statusText link.car.shm] } :=
    reachesSocket_of_top normal rfl arrived
  exact reaches.of_step (follows_sendStatus report) ⟨rfl, rfl, rfl, rfl, rfl⟩

theorem Upkeep.reachesSocket (upkeep : Upkeep link) (arrived : link.down ≠ []) :
    ReachesSocket link := by
  have normal := upkeep.agreed.normal
  have serves := upkeep.serves
  cases point : link.car.connection with
  | socket readable => exact ⟨link, readable, Leads.refl link, ⟨rfl, rfl, rfl, rfl, rfl⟩, point⟩
  | polling => exact reachesSocket_of_polling point arrived
  | top => exact reachesSocket_of_top normal point arrived
  | report => exact reachesSocket_of_report normal point arrived
  | pipe =>
      rw [point] at serves
      have reads : Follows link { link with car := link.car.readNotify } :=
        Leads.of_step .readNotify trivial (if_pos ⟨point, serves⟩)
      have reaches : ReachesSocket { link with car := link.car.readNotify } :=
        reachesSocket_of_report normal rfl arrived
      exact reaches.of_step reads ⟨rfl, rfl, rfl, rfl, rfl⟩
  | outside | greeting | farewell _ | exited =>
      rw [point] at serves
      exact absurd serves id

theorem follows_receive {readable : Bool} (point : link.car.connection = .socket readable)
    {floor : Token 3} {later : List UInt8} (stream : link.down = floorFrame floor ++ later) :
    Follows link
      { link with
        car := { link.car with
          pendingDestination := floor.chars
          connection := if readable then .pipe else .top }
        down := later } := by
  have frames := receiveMsg_frame [] (Vector.replicate 4 0) (floorText_short floor) later
  apply Leads.of_step (.receive [] (Vector.replicate 4 0)) trivial
  have header : 4 ≤ link.down.length := by
    rw [stream, floorFrame, frame, List.append_assoc, List.length_append, htonl_length]
    exact Nat.le_add_right 4 _
  simp only [linkStep, point, Link.receiveFloor, if_pos header]
  rw [stream, floorFrame]
  generalize receiveMsg [] (Vector.replicate 4 0) (frame (floorText floor) ++ later) = outcome
    at frames
  obtain ⟨result, unread, kernel⟩ := outcome
  obtain ⟨rfl, rfl⟩ := frames
  simp only [CarProcess.receiveMessage, floorMessage?_floorText]

/-- The car takes in every message that is on its way. -/
theorem Upkeep.exists_silent (upkeep : Upkeep link) (sent : link.outgoing = []) :
    ∃ next, Follows link next ∧ next.down = [] ∧ next.outgoing = [] ∧
      next.queue = link.queue ∧ next.handler = link.handler ∧
      next.queueMutex = link.queueMutex ∧
      (link.down ≠ [] ∨ link.car.pendingDestination ≠ CharArray.empty 4 →
        next.car.pendingDestination ≠ CharArray.empty 4) := by
  obtain ⟨floors, stream, -⟩ := upkeep.inFlight
  rw [sent, List.append_nil] at stream
  induction floors generalizing link with
  | nil =>
      refine ⟨link, Leads.refl link, stream, sent, rfl, rfl, rfl, ?_⟩
      exact fun some_ => some_.resolve_left (not_not_intro stream)
  | cons floor rest ih =>
      rw [List.flatMap_cons] at stream
      have arrived : link.down ≠ [] := by
        rw [stream]
        exact List.append_ne_nil_of_left_ne_nil (floorFrame_ne_nil floor) _
      obtain ⟨midway, readable, comes, only, point⟩ := upkeep.reachesSocket arrived
      have reads := follows_receive point (only.down.trans stream)
      have follows := comes.trans reads
      obtain ⟨next, later, silent, none_, queue, handler, free, pending⟩ :=
        ih (upkeep.follows follows) (only.sent.trans sent) rfl
      exact ⟨next, follows.trans later, silent, none_, queue.trans only.queue,
        handler.trans only.handler, free.trans only.free,
        fun _ => pending (Or.inr floor.chars_ne_empty)⟩

/-- With no destination pending, the connection thread comes to a report. -/
theorem Upkeep.exists_report (upkeep : Upkeep link) (silent : link.down = [])
    (settled : link.car.pendingDestination = CharArray.empty 4) :
    ∃ notify, Follows link
      { link with car := { link.car with connection := .report, notify := notify } } := by
  have serves := upkeep.serves
  have polled {other : Link} (polling : other.car.connection = .polling) :
      Follows other { other with car := { other.car with connection := .report } } :=
    Leads.of_step .pollTimeout trivial (if_pos polling)
  cases point : link.car.connection with
  | report =>
      refine ⟨link.car.notify, ?_⟩
      rw [← point]
      exact Leads.refl link
  | polling => exact ⟨link.car.notify, polled point⟩
  | top =>
      have kept : ¬ link.car.Applies := fun applies => applies.1 settled
      have polling := follows_connectionTop point
      rw [connectionTop_of_not_applies upkeep.agreed.normal kept] at polling
      exact ⟨link.car.notify, polling.trans (polled rfl)⟩
  | pipe =>
      rw [point] at serves
      exact ⟨link.car.notify - 1, Leads.of_step .readNotify trivial (if_pos ⟨point, serves⟩)⟩
  | socket readable =>
      rw [point] at serves
      exact absurd silent serves.1
  | outside | greeting | farewell _ | exited =>
      rw [point] at serves
      exact absurd serves id

/-- A car that opens its doors at its destination reports it. -/
theorem Upkeep.exists_arrivalReported (upkeep : Upkeep link) (awaited : Awaited link)
    (opening : link.car.shm.status = Status.opening.chars)
    (same : link.car.shm.currentFloor = link.car.shm.destinationFloor) :
    ∃ next, Follows link next ∧ OnlyCar link next ∧ ArrivalReported next := by
  obtain ⟨notify, report⟩ := upkeep.exists_report awaited.1 awaited.2.2.1
  obtain ⟨head, isHead⟩ := head_of_awaited awaited
  have destination := destination_of_awaited upkeep.agreed awaited isHead
  refine ⟨_, report.trans (follows_sendStatus rfl), ⟨rfl, rfl, rfl, rfl, rfl⟩, head, isHead,
    Or.inl (List.mem_append_right _ ?_)⟩
  rw [List.mem_singleton, arrivalLine, statusText, same, destination, opening]
  rfl

/-- The car comes to open its doors at an awaited stop. -/
theorem Upkeep.exists_opening (upkeep : Upkeep link) (unpressed : Unpressed link.car.shm)
    (pursued : link.car.shm.currentFloor ≠ link.car.shm.destinationFloor ∨
      (link.car.shm.status = Status.closed.chars ∧ link.car.wake = true) ∨
      link.car.shm.status = Status.opening.chars) :
    ∃ next, Follows link next ∧ OnlyCar link next ∧
      next.car.pendingDestination = link.car.pendingDestination ∧
      next.car.shm.status = Status.opening.chars ∧
      next.car.shm.currentFloor = next.car.shm.destinationFloor := by
  have leftAlone := upkeep.leftAlone unpressed
  by_cases same : link.car.shm.currentFloor = link.car.shm.destinationFloor
  · rcases pursued.resolve_left (not_not_intro same) with ⟨closed, woken⟩ | opening
    · have normal := upkeep.agreed.normal
      have buttons : NoButtons link.car.shm := by
        rw [NoButtons, unpressed.1, unpressed.2]
        decide
      have wakes : Follows link { link with car := link.car.loop .broadcast } :=
        Leads.of_step (.loop .broadcast) woken rfl
      refine ⟨_, wakes, ⟨rfl, rfl, rfl, rfl, rfl⟩, rfl,
        (loop_opens normal buttons closed same).1, ?_⟩
      cases (elevatorLoop_normalFloors .broadcast normal.1 normal.2).1 with
      | stays current destination => exact current.trans (same.trans destination.symm)
      | moves timedOut _ _ _ => cases timedOut
    · exact ⟨link, Leads.refl link, ⟨rfl, rfl, rfl, rfl, rfl⟩, rfl, opening, same⟩
  · obtain ⟨count, arrived⟩ := exists_arrived leftAlone upkeep.status upkeep.current
      upkeep.destination same
    obtain ⟨wake, notify, timeouts⟩ := follows_timeouts count link
    exact ⟨_, timeouts, ⟨rfl, rfl, rfl, rfl, rfl⟩, rfl, arrived.opening, arrived.same⟩

end CarSide

/-! ### Serving every stop -/

section Serving

variable {link : Link}

theorem unpressed_step {next : Link} {action : LinkAction} (normal : NormalMode link.car.shm)
    (unpressed : Unpressed link.car.shm) (unprompted : Unprompted link action)
    (taken : linkStep link action = some next) : Unpressed next.car.shm := by
  cases action with
  | insert _ | press _ | anyReport _ => exact absurd unprompted id
  | loop ret =>
      cases taken
      obtain ⟨openButton, closeButton⟩ := elevatorLoop_buttons ret link.car.shm
      exact ⟨openButton.elim (·.trans unpressed.1) id, closeButton.elim (·.trans unpressed.2) id⟩
  | connectionTop =>
      obtain ⟨_, rfl⟩ := of_guarded taken
      by_cases applies : link.car.Applies
      · rw [connectionTop_of_applies normal applies]
        exact unpressed
      · rw [connectionTop_of_not_applies normal applies]
        exact unpressed
  | receiveReport =>
      obtain ⟨_, _, _, _, _, _, rfl⟩ := linkStep_receiveReport taken
      exact unpressed
  | update =>
      obtain ⟨_, _, rfl⟩ := linkStep_update taken
      exact unpressed
  | receive reads stack =>
      obtain ⟨_, _, received⟩ := linkStep_receive taken
      unfold Link.receiveFloor at received
      split at received
      · split at received
        · cases received
          exact unpressed
        · cases received
      · cases received
  | write _ | unlock | serve | pollTimeout | pollReady | readNotify | sendStatus =>
      obtain ⟨_, rfl⟩ := of_guarded taken
      exact unpressed

theorem Unpressed.follows {next : Link} (unpressed : Unpressed link.car.shm)
    (upkeep : Upkeep link) (follows : Follows link next) : Unpressed next.car.shm := by
  have both : Upkeep next ∧ Unpressed next.car.shm := by
    refine @Leads.preserves Link LinkAction linkStep Unprompted
      (fun link => Upkeep link ∧ Unpressed link.car.shm) link next follows
      (fun link action next held unprompted taken => ?_) ⟨upkeep, unpressed⟩
    exact ⟨upkeep_step link action next held.1 (canonicalCalls_of_unprompted unprompted) taken,
      unpressed_step held.1.agreed.normal held.2 unprompted taken⟩
  exact both.2

/-- From an awaited stop that the car can still get to, the queue gets shorter. -/
theorem Upkeep.exists_shorter (upkeep : Upkeep link) (unpressed : Unpressed link.car.shm)
    (awaited : Awaited link)
    (pursued : link.car.shm.currentFloor ≠ link.car.shm.destinationFloor ∨
      (link.car.shm.status = Status.closed.chars ∧ link.car.wake = true) ∨
      link.car.shm.status = Status.opening.chars) :
    ∃ next, Follows link next ∧ next.queue.length < link.queue.length ∧
      (next.queue = [] ∨ next.down ≠ []) := by
  obtain ⟨opened, opens, only, pending, opening, same⟩ := upkeep.exists_opening unpressed pursued
  have awaitedThere : Awaited opened := by
    obtain ⟨down, outgoing, settled, nonempty⟩ := awaited
    exact ⟨only.down.trans down, only.sent.trans outgoing, pending.trans settled,
      only.queue ▸ nonempty⟩
  obtain ⟨reported, reports, onlyThen, arrival⟩ :=
    (upkeep.follows opens).exists_arrivalReported awaitedThere opening same
  have follows := opens.trans reports
  obtain ⟨next, drained⟩ := (upkeep.follows follows).drain
  refine ⟨next, follows.trans drained.follows, ?_⟩
  cases drained.progress with
  | kept _ _ unreported => exact absurd arrival unreported
  | served shorter announced =>
      rw [onlyThen.queue, only.queue] at shorter
      exact ⟨shorter, announced⟩

/-- A message on its way, or a pending destination, brings the car to the first stop. -/
theorem Upkeep.exists_awaited (upkeep : Upkeep link) (unpressed : Unpressed link.car.shm)
    (sent : link.outgoing = []) (nonempty : link.queue ≠ [])
    (announced : link.down ≠ [] ∨ link.car.pendingDestination ≠ CharArray.empty 4) :
    ∃ next, Follows link next ∧ next.queue = link.queue ∧ Awaited next ∧
      (next.car.shm.currentFloor ≠ next.car.shm.destinationFloor ∨
        (next.car.shm.status = Status.closed.chars ∧ next.car.wake = true)) := by
  obtain ⟨silent, comes, down, outgoing, queue, _, _, pending⟩ := upkeep.exists_silent sent
  obtain ⟨next, applies, only, settled, pursued⟩ :=
    (upkeep.follows comes).exists_applied (unpressed.follows upkeep comes) down (pending announced)
  have same := only.queue.trans queue
  exact ⟨next, comes.trans applies, same, ⟨only.down.trans down, only.sent.trans outgoing, settled,
    same ▸ nonempty⟩, pursued⟩

/-- An awaited stop that is not lost: the car has still to get there, or to open, or to
report. -/
theorem pursued_of_not_lost (notLost : ¬ Lost link) (awaited : Awaited link)
    (unreported : ¬ ArrivalReported link) :
    link.car.shm.currentFloor ≠ link.car.shm.destinationFloor ∨
      (link.car.shm.status = Status.closed.chars ∧ link.car.wake = true) ∨
      link.car.shm.status = Status.opening.chars := by
  by_contra idle
  rw [not_or, not_or, not_not] at idle
  obtain ⟨here, notWoken, notOpening⟩ := idle
  exact notLost ⟨awaited, here, notOpening, notWoken, unreported⟩

theorem Upkeep.exists_served (count : Nat) (upkeep : Upkeep link)
    (unpressed : Unpressed link.car.shm) (notLost : ¬ Lost link)
    (counted : link.queue.length ≤ count) : ∃ final, Follows link final ∧ final.queue = [] := by
  induction count generalizing link with
  | zero => exact ⟨link, Leads.refl link, List.eq_nil_of_length_eq_zero (Nat.le_zero.mp counted)⟩
  | succ count ih =>
      obtain ⟨drained, drains⟩ := upkeep.drain
      have later := upkeep.follows drains.follows
      have laterUnpressed := unpressed.follows upkeep drains.follows
      -- Once a stop is served, the next one is announced, so nothing is lost from there on.
      have onward {next : Link} (follows : Follows link next)
          (shorter : next.queue.length < link.queue.length)
          (announced : next.queue = [] ∨ next.down ≠ []) :
          ∃ final, Follows link final ∧ final.queue = [] := by
        rcases announced with empty | arrived
        · exact ⟨next, follows, empty⟩
        · have found : ¬ Lost next := fun lost => arrived lost.awaited.1
          obtain ⟨final, serves, empty⟩ := ih (upkeep.follows follows)
            (unpressed.follows upkeep follows) found (by omega)
          exact ⟨final, follows.trans serves, empty⟩
      cases drains.progress with
      | served shorter announced => exact onward drains.follows shorter announced
      | kept queue down unreported =>
          by_cases nonempty : drained.queue = []
          · exact ⟨drained, drains.follows, nonempty⟩
          · by_cases announced : drained.down ≠ [] ∨
                drained.car.pendingDestination ≠ CharArray.empty 4
            · obtain ⟨next, comes, same, awaited, pursued⟩ :=
                later.exists_awaited laterUnpressed drains.idle.sent nonempty announced
              have arrives := drains.follows.trans comes
              obtain ⟨final, serves, shorter, next_⟩ :=
                (upkeep.follows arrives).exists_shorter (unpressed.follows upkeep arrives) awaited
                  (pursued.imp_right Or.inl)
              rw [same, queue] at shorter
              exact onward (arrives.trans serves) shorter next_
            · rw [not_or, not_not, not_not, down, List.append_eq_nil_iff, drains.car] at announced
              rw [queue] at nonempty
              have awaited : Awaited link :=
                ⟨announced.1.1, announced.1.2, announced.2, nonempty⟩
              have pursued := pursued_of_not_lost notLost awaited unreported
              have awaitedThere : Awaited drained :=
                ⟨by rw [down, announced.1.1, announced.1.2, List.append_nil], drains.idle.sent,
                  by rw [drains.car, announced.2], queue ▸ nonempty⟩
              rw [← drains.car] at pursued
              obtain ⟨final, serves, shorter, next_⟩ :=
                later.exists_shorter laterUnpressed awaitedThere pursued
              rw [queue] at shorter
              exact onward (drains.follows.trans serves) shorter next_

end Serving

/-! ### A lost stop -/

section Losing

variable {link next : Link}

theorem Lost.atRest (lost : Lost link) (upkeep : Upkeep link) :
    ∃ status : Status, link.car.shm.status = status.chars ∧
      (status = .opened ∨ status = .closing ∨ status = .closed) := by
  obtain ⟨status, found⟩ := upkeep.status
  refine ⟨status, found, ?_⟩
  cases status with
  | between => exact absurd lost.here (upkeep.moving found)
  | opening => exact absurd found lost.notOpening
  | opened => exact Or.inl rfl
  | closing => exact Or.inr (Or.inl rfl)
  | closed => exact Or.inr (Or.inr rfl)

/-- A lost stop stays so while the car's own state does, and nothing new is reported. -/
theorem Lost.of_same (lost : Lost link) (shm : next.car.shm = link.car.shm)
    (wake : next.car.wake = true → link.car.wake = true)
    (pending : next.car.pendingDestination = link.car.pendingDestination)
    (down : next.down = link.down) (outgoing : next.outgoing = link.outgoing)
    (queue : next.queue = link.queue)
    (reported : ∀ floor, ReportedFrom next floor → ReportedFrom link floor) : Lost next := by
  obtain ⟨⟨silent, sent, settled, nonempty⟩, here, notOpening, notWoken, unreported⟩ := lost
  constructor
  case awaited =>
    exact ⟨down.trans silent, outgoing.trans sent, pending.trans settled, queue ▸ nonempty⟩
  case here => exact shm ▸ here
  case notOpening => exact shm ▸ notOpening
  case notWoken => exact fun ⟨closed, woken⟩ => notWoken ⟨shm ▸ closed, wake woken⟩
  case unreported =>
    exact fun arrival => unreported (arrivalReported_of_head (by rw [queue]) reported arrival)

theorem Lost.timedOut (lost : Lost link) (upkeep : Upkeep link)
    (unpressed : Unpressed link.car.shm) :
    Lost { link with car := link.car.loop .timedOut } := by
  obtain ⟨status, found, waits⟩ := lost.atRest upkeep
  have waiting : status ≠ .between := by
    rintro rfl
    simp at waits
  have shm : (link.car.loop .timedOut).shm =
      { link.car.shm with status := (nextAtRest status).chars } :=
    timeoutStep_atRest (upkeep.leftAlone unpressed) lost.here found waiting
  constructor
  case awaited => exact lost.awaited
  case here =>
    dsimp only
    rw [shm]
    exact lost.here
  case notOpening =>
    dsimp only
    rw [shm]
    rcases waits with rfl | rfl | rfl <;> simp [nextAtRest]
  case notWoken => exact fun ⟨_, woken⟩ => nomatch woken
  case unreported => exact lost.unreported

theorem Lost.broadcast (lost : Lost link) (upkeep : Upkeep link)
    (unpressed : Unpressed link.car.shm) (woken : link.car.wake = true) :
    Lost { link with car := link.car.loop .broadcast } := by
  have normal := upkeep.agreed.normal
  have notClosed : link.car.shm.status ≠ Status.closed.chars :=
    fun closed => lost.notWoken ⟨closed, woken⟩
  have shm : (link.car.loop .broadcast).shm = link.car.shm := by
    have together : (Iteration.start link.car.shm).FloorsEqual := lost.here
    have open_ : ¬ (Iteration.start link.car.shm).StatusIs .closed := notClosed
    have notOpen : link.car.shm.openButton ≠ 1 := by rw [unpressed.1]; decide
    have notClose : link.car.shm.closeButton ≠ 1 := by rw [unpressed.2]; decide
    simp only [CarProcess.loop, elevatorLoop_of_normal normal.1 normal.2,
      Iteration.normalBroadcast, Iteration.start_shm, if_neg notOpen, if_neg notClose, together,
      not_true_eq_false, if_false, if_neg open_]
  exact lost.of_same shm (fun woken => absurd woken Bool.false_ne_true) rfl rfl rfl rfl
    fun _ => id

theorem eq_of_isReport {message : List UInt8} {report : CarData} (written : IsReport message)
    (scanned : statusMessage? message = some report) :
    message =
      statusLine report.status.text report.currentFloor.text report.destinationFloor.text := by
  obtain ⟨sent, rfl⟩ := written
  rw [statusMessage?_statusLine] at scanned
  rw [Option.some.inj scanned]

/-- A report of doors that are not opening is no arrival. -/
theorem statusText_ne_arrivalLine {shm : CarSharedMem} {status : Status}
    (found : shm.status = status.chars) (current : Canonical shm.currentFloor)
    (destination : Canonical shm.destinationFloor)
    (notOpening : shm.status ≠ Status.opening.chars) (floor : Token 3) :
    statusText shm ≠ arrivalLine floor := by
  obtain ⟨currentToken, currentText⟩ := current.token
  obtain ⟨destinationToken, destinationText⟩ := destination.token
  intro same
  have scanned := statusMessage?_statusLine ⟨currentToken, destinationToken, statusToken status⟩
  dsimp only at scanned
  rw [currentText, destinationText, show (statusToken status).text = shm.status.text by
    rw [found]; rfl] at scanned
  change statusMessage? (statusText shm) = _ at scanned
  rw [same, statusMessage?_arrivalLine] at scanned
  have opening := congrArg CarData.status (Option.some.inj scanned)
  apply notOpening
  rw [found]
  exact CharArray.text_injective (congrArg Token.text opening).symm

theorem Lost.sendStatus (lost : Lost link) (upkeep : Upkeep link) :
    Lost
      { link with
        car := { link.car with connection := .top }
        up := link.up ++ [statusText link.car.shm] } := by
  obtain ⟨status, found⟩ := upkeep.status
  refine lost.of_same rfl id rfl rfl rfl rfl ?_
  rintro floor (inFlight | later)
  · rcases List.mem_append.mp inFlight with old | new
    · exact Or.inl old
    · exact absurd (List.mem_singleton.mp new).symm (statusText_ne_arrivalLine found upkeep.current
        upkeep.destination lost.notOpening floor)
  · exact Or.inr later

theorem Lost.serve (lost : Lost link) (updated : link.handler = .updated) :
    Lost
        { link.lockedUpdate .handler (serveArrival link.data link.queue) with
          handler := .receiving } ∧
      (serveArrival link.data link.queue).queue = link.queue := by
  rcases serveArrival_cases link.data link.queue with ⟨_, same⟩ | ⟨⟨head, isHead, arrival⟩, _⟩
  · refine ⟨lost.of_same rfl id rfl rfl ?_ ?_ ?_, by rw [same]⟩
    · rw [same]
      exact lost.awaited.2.1.symm
    · rw [same]
      rfl
    · rintro floor (inFlight | received | ⟨stored, _⟩)
      · exact Or.inl inFlight
      · cases received
      · cases stored
  · exact absurd ⟨head, isHead, Or.inr (Or.inr ⟨updated, arrival⟩)⟩ lost.unreported

theorem Lost.receiveReport (lost : Lost link) (upkeep : Upkeep link) {message : List UInt8}
    {later : List (List UInt8)} {report : CarData} (arrived : link.up = message :: later)
    (scanned : statusMessage? message = some report) :
    Lost { link with up := later, handler := .received report } := by
  refine lost.of_same rfl id rfl rfl rfl rfl ?_
  rintro floor (inFlight | received | ⟨updated, _⟩)
  · exact Or.inl (arrived ▸ List.mem_cons_of_mem message inFlight)
  · have written := eq_of_isReport
      (upkeep.reports message (arrived ▸ List.mem_cons_self)) scanned
    rw [HandlerAt.received.inj received] at written
    refine Or.inl ?_
    rw [arrived, written]
    exact List.mem_cons_self
  · cases updated

/-- What the link does on its own leaves a lost stop where it is. -/
theorem lost_step {action : LinkAction} (lost : Lost link) (upkeep : Upkeep link)
    (unpressed : Unpressed link.car.shm) (unprompted : Unprompted link action)
    (taken : linkStep link action = some next) : Lost next ∧ next.queue = link.queue := by
  cases action with
  | insert _ | press _ | anyReport _ => exact absurd unprompted id
  | write _ =>
      obtain ⟨due, _⟩ := of_guarded taken
      exact absurd lost.awaited.2.1 due
  | unlock | pollTimeout | pollReady | readNotify =>
      obtain ⟨_, rfl⟩ := of_guarded taken
      exact ⟨lost.of_same rfl id rfl rfl rfl rfl fun _ => id, rfl⟩
  | receiveReport =>
      obtain ⟨_, _, _, arrived, scanned, _, rfl⟩ := linkStep_receiveReport taken
      exact ⟨lost.receiveReport upkeep arrived scanned, rfl⟩
  | update =>
      obtain ⟨report, received, rfl⟩ := linkStep_update taken
      refine ⟨lost.of_same rfl id rfl rfl rfl rfl ?_, rfl⟩
      rintro floor (inFlight | stored | ⟨_, same⟩)
      · exact Or.inl inFlight
      · cases stored
      · exact Or.inr (Or.inl (received.trans (congrArg HandlerAt.received same)))
  | serve =>
      obtain ⟨⟨updated, _⟩, rfl⟩ := of_guarded taken
      exact lost.serve updated
  | loop ret =>
      cases taken
      cases ret with
      | broadcast => exact ⟨lost.broadcast upkeep unpressed unprompted, rfl⟩
      | timedOut => exact ⟨lost.timedOut upkeep unpressed, rfl⟩
  | connectionTop =>
      obtain ⟨_, rfl⟩ := of_guarded taken
      have kept : ¬ link.car.Applies := fun applies => applies.1 lost.awaited.2.2.1
      rw [connectionTop_of_not_applies upkeep.agreed.normal kept]
      exact ⟨lost.of_same rfl id rfl rfl rfl rfl fun _ => id, rfl⟩
  | receive _ _ =>
      obtain ⟨_, _, received⟩ := linkStep_receive taken
      unfold Link.receiveFloor at received
      rw [lost.awaited.1, List.length_nil, if_neg (by decide)] at received
      cases received
  | sendStatus =>
      obtain ⟨_, rfl⟩ := of_guarded taken
      exact ⟨lost.sendStatus upkeep, rfl⟩

theorem Lost.follows (lost : Lost link) (upkeep : Upkeep link)
    (unpressed : Unpressed link.car.shm) (follows : Follows link next) :
    Lost next ∧ next.queue = link.queue := by
  have kept : Upkeep next ∧ Unpressed next.car.shm ∧ Lost next ∧ next.queue = link.queue := by
    refine @Leads.preserves Link LinkAction linkStep Unprompted
      (fun later => Upkeep later ∧ Unpressed later.car.shm ∧ Lost later ∧
        later.queue = link.queue) link next follows
      (fun now action later held unprompted taken => ?_) ⟨upkeep, unpressed, lost, rfl⟩
    obtain ⟨kept, still, lostNow, same⟩ := held
    obtain ⟨lostLater, sameLater⟩ := lost_step lostNow kept still unprompted taken
    exact ⟨upkeep_step now action later kept (canonicalCalls_of_unprompted unprompted) taken,
      unpressed_step kept.agreed.normal still unprompted taken, lostLater, sameLater.trans same⟩
  exact kept.2.2

end Losing

/-! ### Every run -/

/-- A car in any state of normal mode whose connection the controller has just accepted. -/
structure Link.Connected (link : Link) : Prop extends link.Fresh where
  status : ∃ status : Status, link.car.shm.status = status.chars
  openButton : link.car.shm.openButton = 0 ∨ link.car.shm.openButton = 1
  closeButton : link.car.shm.closeButton = 0 ∨ link.car.shm.closeButton = 1
  current : Canonical link.car.shm.currentFloor
  destination : Canonical link.car.shm.destinationFloor
  pending : link.car.pendingDestination = CharArray.empty 4 ∨
    Canonical link.car.pendingDestination
  moving : link.car.shm.status = Status.between.chars →
    link.car.shm.currentFloor ≠ link.car.shm.destinationFloor
  reports : ∀ message ∈ link.up, IsReport message
  serves : link.car.connection.Serves link.down link.car.notify

theorem Link.Connected.upkeep {link : Link} (connected : link.Connected) : Upkeep link :=
  { connected with
    agreed := linkInvariant_of_fresh connected.toFresh
    inFlight := ⟨[], by rw [connected.down, connected.outgoing]; rfl, nofun⟩
    queued := by
      rw [connected.queue]
      exact nofun }

/-- Wherever calls, buttons and reports have brought the link, left to itself it can serve
every stop, unless the first one is lost: then it never serves any. -/
theorem stops_servable_unless_lost (start : Link) (connected : start.Connected)
    (actions : List LinkAction) (reached : Link)
    (calls : Along linkStep CanonicalCalls start actions)
    (ran : run linkStep start actions = some reached) (unpressed : Unpressed reached.car.shm) :
    (¬ Lost reached → ∃ final, Follows reached final ∧ final.queue = []) ∧
      (Lost reached → ∀ final, Follows reached final → final.queue = reached.queue) := by
  have upkeep := invariant_run upkeep_step connected.upkeep calls ran
  exact ⟨fun found => upkeep.exists_served _ unpressed found (Nat.le_refl _),
    fun lost final follows => (lost.follows upkeep unpressed follows).2⟩

theorem linkStart_connected (floor : Token 3) (canonical : Canonical floor.chars) :
    (linkStart floor).Connected :=
  have closed : (linkStart floor).car.shm.status = Status.closed.chars :=
    resetShm_status floor.chars_terminated
  { linkStart_fresh floor with
    status := ⟨.closed, closed⟩
    openButton := Or.inl rfl
    closeButton := Or.inl rfl
    current := canonical
    destination := canonical
    pending := Or.inl rfl
    moving := fun between => by
      rw [closed, Status.chars_inj] at between
      cases between
    reports := nofun
    serves := trivial }

/-- The call that came while the doors were opening is lost. -/
theorem stops_servable_unless_lost_calledWhileOpening :
    Lost stuckAtOne ∧ ∀ final, Follows stuckAtOne final → final.queue = stuckAtOne.queue := by
  have lost : Lost stuckAtOne :=
    { awaited := by decide
      here := rfl
      notOpening := by decide
      notWoken := by decide
      unreported := by decide }
  exact ⟨lost, (stops_servable_unless_lost (linkStart (digitFloor 1))
    (linkStart_connected _ (by decide)) calledWhileOpening stuckAtOne (by decide +kernel)
    (by decide +kernel) ⟨rfl, rfl⟩).2 lost⟩

end Cab403.Elevator
