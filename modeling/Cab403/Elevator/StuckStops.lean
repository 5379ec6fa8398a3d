/-
Whether a stop can get stuck: a call is removed from the queue only when the car
reports opening doors at the stop. A stop that has reached the car is pursued as
long as the car still travels, a broadcast will open the doors, or the opening is
about to be reported.
-/

import Cab403.Elevator.StopLink

namespace Cab403.Elevator

open CText ActionRuns Controller

def arrivalAt (floor : Token 3) : CarData :=
  { currentFloor := floor
    destinationFloor := floor
    status := statusToken .opening }

def arrivalLine (floor : Token 3) : List UInt8 :=
  statusLine Status.opening.text floor.text floor.text

/-- The arrival at `floor` is on its way to the served section. -/
def ReportedFrom (link : Link) (floor : Token 3) : Prop :=
  arrivalLine floor ∈ link.up ∨ link.handler = .received (arrivalAt floor) ∨
    (link.handler = .updated ∧ link.data = arrivalAt floor)

instance (link : Link) (floor : Token 3) : Decidable (ReportedFrom link floor) :=
  inferInstanceAs (Decidable (_ ∨ _))

def ArrivalReported (link : Link) : Prop :=
  ∃ head ∈ link.queue.head?, ReportedFrom link head.floor

instance (link : Link) : Decidable (ArrivalReported link) := by
  unfold ArrivalReported
  infer_instance

/-- The head of the queue has become the car's destination. -/
def Awaited (link : Link) : Prop :=
  link.down = [] ∧ link.outgoing = [] ∧ link.car.pendingDestination = CharArray.empty 4 ∧
    link.queue ≠ []

instance (link : Link) : Decidable (Awaited link) := inferInstanceAs (Decidable (_ ∧ _))

/-- A status report is due: a notify byte is unread, or the report comes next. -/
def ReportDue (car : CarProcess) : Prop := 0 < car.notify ∨ car.connection = .report

instance (car : CarProcess) : Decidable (ReportDue car) := inferInstanceAs (Decidable (_ ∨ _))

inductive Pursued (link : Link) : Prop
  | travels (apart : link.car.shm.currentFloor ≠ link.car.shm.destinationFloor)
  | opens (closed : link.car.shm.status = Status.closed.chars) (woken : link.car.wake = true)
  | reports (opening : link.car.shm.status = Status.opening.chars) (due : ReportDue link.car)
  | reported (arrival : ArrivalReported link)

/-- Calls, frames, car and handler work; nobody presses a button, and every report
comes from the car. -/
def Undisturbed (_ : Link) : LinkAction → Prop
  | .press _ | .anyReport _ => False
  | _ => True

instance (link : Link) (action : LinkAction) : Decidable (Undisturbed link action) := by
  unfold Undisturbed
  split <;> infer_instance

/-- The pending destination is about to be applied at the very floor it names. -/
def AppliesHere (link : Link) : Prop :=
  link.car.Applies ∧ link.down = [] ∧ link.outgoing = [] ∧ link.queue ≠ [] ∧
    link.car.pendingDestination = link.car.shm.currentFloor

instance (link : Link) : Decidable (AppliesHere link) := inferInstanceAs (Decidable (_ ∧ _))

/-- A standing car takes a stop at its own floor while the doors are closed or still
to be reported as opening, and no timeout comes before the broadcast that opens
them or before that report. -/
def TakenInTime (link : Link) : LinkAction → Prop
  | .loop .timedOut =>
      Awaited link → link.car.shm.currentFloor = link.car.shm.destinationFloor →
        ¬ ArrivalReported link →
          ¬ (link.car.shm.status = Status.closed.chars ∧ link.car.wake = true) ∧
            ¬ (link.car.shm.status = Status.opening.chars ∧ ReportDue link.car)
  | .connectionTop =>
      AppliesHere link →
        link.car.shm.status = Status.closed.chars ∨
          (link.car.shm.status = Status.opening.chars ∧ 0 < link.car.notify) ∨
          ArrivalReported link
  | _ => True

instance (link : Link) (action : LinkAction) : Decidable (TakenInTime link action) := by
  unfold TakenInTime
  split <;> infer_instance

structure Quiescent (link : Link) : Prop where
  down : link.down = []
  outgoing : link.outgoing = []
  up : link.up = []
  handler : link.handler = .receiving
  notify : link.car.notify = 0
  pending : link.car.pendingDestination = CharArray.empty 4
  closed : link.car.shm.status = Status.closed.chars
  arrived : link.car.shm.currentFloor = link.car.shm.destinationFloor
  handled : link.car.wake = false

/-! ### The loop without buttons -/

def NoButtons (shm : CarSharedMem) : Prop := shm.openButton ≠ 1 ∧ shm.closeButton ≠ 1

instance (shm : CarSharedMem) : Decidable (NoButtons shm) := inferInstanceAs (Decidable (_ ∧ _))

theorem loop_noButtons {car : CarProcess} (ret : WaitResult) (normal : NormalMode car.shm)
    (buttons : NoButtons car.shm) : NoButtons (car.loop ret).shm := by
  change NoButtons (elevatorLoop ret car.shm).shm
  obtain ⟨notOpen, notClose⟩ := buttons
  rw [elevatorLoop_of_normal normal.1 normal.2]
  cases ret with
  | broadcast =>
      unfold Iteration.normalBroadcast
      dsimp only
      split_ifs <;> constructor <;> simp [notOpen, notClose]
  | timedOut =>
      unfold Iteration.normalTimeout
      dsimp only
      split_ifs <;> constructor <;> simp [notOpen, notClose]

theorem loop_opens {car : CarProcess} (normal : NormalMode car.shm) (buttons : NoButtons car.shm)
    (closed : car.shm.status = Status.closed.chars)
    (arrived : car.shm.currentFloor = car.shm.destinationFloor) :
    (car.loop .broadcast).shm.status = Status.opening.chars ∧ 0 < (car.loop .broadcast).notify := by
  have iteration : elevatorLoop .broadcast car.shm =
      ((Iteration.start car.shm).calculateAbsoluteTimeout.strcpyStatus .opening
        |>.notifyStatusChange |>.broadcast) := by
    rw [elevatorLoop_of_normal normal.1 normal.2]
    have together : (Iteration.start car.shm).FloorsEqual := arrived
    have standing : (Iteration.start car.shm).StatusIs .closed := closed
    simp only [Iteration.normalBroadcast, Iteration.start_shm, if_neg buttons.1,
      if_neg buttons.2, not_true_eq_false, if_false, together, if_pos standing]
  simp only [CarProcess.loop, iteration]
  exact ⟨rfl, by simp [Iteration.start]⟩

theorem loop_keepsOpening {car : CarProcess} (normal : NormalMode car.shm)
    (buttons : NoButtons car.shm) (opening : car.shm.status = Status.opening.chars) :
    (car.loop .broadcast).shm = car.shm ∧ (car.loop .broadcast).notify = car.notify := by
  have iteration : elevatorLoop .broadcast car.shm = Iteration.start car.shm := by
    rw [elevatorLoop_of_normal normal.1 normal.2]
    have notClosed : ¬ (Iteration.start car.shm).StatusIs .closed := by
      intro closed
      have same : Status.opening.chars = Status.closed.chars := opening.symm.trans closed
      simp at same
    simp only [Iteration.normalBroadcast, Iteration.start_shm, if_neg buttons.1,
      if_neg buttons.2, if_neg notClosed, ite_self]
  simp only [CarProcess.loop, iteration]
  exact ⟨rfl, by simp [Iteration.start]⟩

theorem loop_arrives {car : CarProcess} (normal : NormalMode car.shm)
    (between : car.shm.status = Status.between.chars)
    (arrived : moveFloor car.shm.currentFloor car.shm.destinationFloor =
      car.shm.destinationFloor) :
    (car.loop .timedOut).shm.status = Status.opening.chars ∧ 0 < (car.loop .timedOut).notify := by
  have iteration : elevatorLoop .timedOut car.shm =
      ((Iteration.start car.shm).moveFloor.strcpyStatus .closed |>.strcpyStatus .opening
        |>.calculateAbsoluteTimeout |>.notifyStatusChange |>.broadcast) := by
    rw [elevatorLoop_of_normal normal.1 normal.2]
    have moving : (Iteration.start car.shm).StatusIs .between := between
    have together : ((Iteration.start car.shm).moveFloor.strcpyStatus .closed).FloorsEqual :=
      arrived
    simp only [Iteration.normalTimeout, if_pos moving, together, not_true_eq_false, if_false]
  simp only [CarProcess.loop, iteration]
  exact ⟨rfl, by simp [Iteration.start]⟩

/-! ### One step -/

structure StopInvariant (link : Link) : Prop where
  agreed : LinkInvariant link
  buttons : NoButtons link.car.shm
  pursued : Awaited link → Pursued link

theorem floorFrame_ne_nil (floor : Token 3) : floorFrame floor ≠ [] := List.cons_ne_nil _ _

theorem destination_of_awaited {link : Link} (invariant : LinkInvariant link)
    (awaited : Awaited link) {head : FloorNode} (isHead : head ∈ link.queue.head?) :
    link.car.shm.destinationFloor = head.floor.chars := by
  obtain ⟨down, outgoing, pending, _⟩ := awaited
  obtain ⟨inFlight, stream, announced⟩ := invariant.nextStop
  rw [down, outgoing, List.append_nil] at stream
  have nothing : inFlight = [] := by
    cases inFlight with
    | nil => rfl
    | cons floor rest =>
        rw [List.flatMap_cons] at stream
        exact absurd (List.append_eq_nil_iff.mp stream.symm).1 (floorFrame_ne_nil floor)
  have text := announced head isHead
  rw [nothing, lastAnnounced, List.getLast?_nil] at text
  dsimp only at text
  rw [if_pos pending] at text
  exact CharArray.text_injective text

theorem head_of_awaited {link : Link} (awaited : Awaited link) :
    ∃ head, head ∈ link.queue.head? := by
  cases shape : link.queue with
  | nil => exact absurd shape awaited.2.2.2
  | cons head rest => exact ⟨head, rfl⟩

theorem pursued_withCar {link : Link} {car : CarProcess} (pursued : Awaited link → Pursued link)
    (pending : car.pendingDestination = link.car.pendingDestination)
    (travels : link.car.shm.currentFloor ≠ link.car.shm.destinationFloor →
      Pursued { link with car := car })
    (opens : link.car.shm.status = Status.closed.chars → link.car.wake = true →
      Pursued { link with car := car })
    (reports : link.car.shm.status = Status.opening.chars → ReportDue link.car →
      Pursued { link with car := car })
    (awaited : Awaited { link with car := car }) : Pursued { link with car := car } := by
  obtain ⟨down, outgoing, empty, nonempty⟩ := awaited
  have before : Awaited link := ⟨down, outgoing, pending ▸ empty, nonempty⟩
  cases pursued before with
  | travels apart => exact travels apart
  | opens closed woken => exact opens closed woken
  | reports opening due => exact reports opening due
  | reported arrival => exact .reported arrival

theorem pursued_loop_broadcast {link : Link} (invariant : StopInvariant link)
    (awaited : Awaited { link with car := link.car.loop .broadcast }) :
    Pursued { link with car := link.car.loop .broadcast } := by
  have normal := invariant.agreed.normal
  by_cases arrived : link.car.shm.currentFloor = link.car.shm.destinationFloor
  · refine pursued_withCar invariant.pursued rfl (fun apart => absurd arrived apart)
      (fun closed _ => ?_) (fun opening due => ?_) awaited
    · obtain ⟨opening, announced⟩ := loop_opens normal invariant.buttons closed arrived
      exact .reports opening (Or.inl announced)
    · obtain ⟨same, notify⟩ := loop_keepsOpening normal invariant.buttons opening
      refine .reports (by rw [same]; exact opening) ?_
      exact due.imp (fun unread => by rw [notify]; exact unread) id
  · apply Pursued.travels
    cases (elevatorLoop_normalFloors .broadcast normal.1 normal.2).1 with
    | stays current destination =>
        change (elevatorLoop .broadcast link.car.shm).shm.currentFloor ≠
          (elevatorLoop .broadcast link.car.shm).shm.destinationFloor
        rw [current, destination]
        exact arrived
    | moves timedOut _ _ _ => cases timedOut

theorem pursued_loop_timedOut {link : Link} (invariant : StopInvariant link)
    (inTime : TakenInTime link (.loop .timedOut))
    (awaited : Awaited { link with car := link.car.loop .timedOut }) :
    Pursued { link with car := link.car.loop .timedOut } := by
  have normal := invariant.agreed.normal
  have before : Awaited link := awaited
  by_cases arrived : link.car.shm.currentFloor = link.car.shm.destinationFloor
  · by_cases reported : ArrivalReported link
    · exact .reported reported
    · obtain ⟨notWoken, notDue⟩ := inTime before arrived reported
      cases invariant.pursued before with
      | travels apart => exact absurd arrived apart
      | opens closed woken => exact absurd ⟨closed, woken⟩ notWoken
      | reports opening due => exact absurd ⟨opening, due⟩ notDue
      | reported arrival => exact absurd arrival reported
  · obtain ⟨floors, _, kept⟩ := elevatorLoop_normalFloors .timedOut normal.1 normal.2
    cases floors with
    | stays current destination =>
        apply Pursued.travels
        change (elevatorLoop .timedOut link.car.shm).shm.currentFloor ≠
          (elevatorLoop .timedOut link.car.shm).shm.destinationFloor
        rw [current, destination]
        exact arrived
    | moves _ between current _ =>
        by_cases reached : moveFloor link.car.shm.currentFloor link.car.shm.destinationFloor =
            link.car.shm.destinationFloor
        · obtain ⟨opening, announced⟩ := loop_arrives normal between reached
          exact .reports opening (Or.inl announced)
        · apply Pursued.travels
          change (elevatorLoop .timedOut link.car.shm).shm.currentFloor ≠
            (elevatorLoop .timedOut link.car.shm).shm.destinationFloor
          rw [current, kept]
          exact reached

theorem pursued_connectionTop {link : Link} (invariant : StopInvariant link)
    (top : link.car.connection = .top) (inTime : TakenInTime link .connectionTop)
    (awaited : Awaited { link with car := link.car.connectionTop }) :
    Pursued { link with car := link.car.connectionTop } := by
  have shm := CarProcess.connectionTop_shm link.car
  have wake : link.car.connectionTop.wake = link.car.applyPending.wake := by
    rw [CarProcess.connectionTop_eq]
  have notify : link.car.connectionTop.notify = link.car.notify := by
    rw [CarProcess.connectionTop_eq]
    unfold CarProcess.applyPending
    split <;> rfl
  by_cases applies : link.car.Applies
  · rw [CarProcess.applyPending_of_applies applies] at shm wake
    by_cases here : link.car.pendingDestination = link.car.shm.currentFloor
    · rcases inTime ⟨applies, awaited.1, awaited.2.1, awaited.2.2.2, here⟩ with
        closed | ⟨opening, unread⟩ | arrival
      · exact .opens (by rw [shm]; exact closed) wake
      · exact .reports (by rw [shm]; exact opening) (Or.inl (by rw [notify]; exact unread))
      · exact .reported arrival
    · apply Pursued.travels
      rw [shm]
      exact fun same => here same.symm
  · rw [CarProcess.applyPending_of_not_applies applies] at shm wake
    have pending : link.car.connectionTop.pendingDestination = link.car.pendingDestination := by
      rw [CarProcess.connectionTop_pendingDestination,
        CarProcess.applyPending_of_not_applies applies]
    refine pursued_withCar invariant.pursued pending (fun apart => .travels ?_)
      (fun closed woken => .opens ?_ ?_) (fun opening due => .reports ?_ ?_) awaited
    · rw [shm]
      exact apart
    · rw [shm]
      exact closed
    · rw [wake]
      exact woken
    · rw [shm]
      exact opening
    · rcases due with unread | report
      · exact Or.inl (by rw [notify]; exact unread)
      · rw [top] at report
        cases report

/-- An update under the mutex keeps an awaited head, so it stays pursued. -/
theorem awaited_before_lockedUpdate {link : Link} (holder : Holder) {update : QueueUpdate}
    (invariant : StopInvariant link) (free : link.queueMutex = none)
    (announces : Announces link.queue update)
    (awaited : Awaited (link.lockedUpdate holder update)) :
    update.sent = none ∧ Awaited link ∧
      update.queue.head?.map FloorNode.floor = link.queue.head?.map FloorNode.floor := by
  obtain ⟨down, outgoing, pending, nonempty⟩ := awaited
  have silent : update.sent = none := by
    cases sent : update.sent with
    | none => rfl
    | some floor =>
        simp only [Link.lockedUpdate, sent, Option.map_some, Option.getD_some] at outgoing
        exact absurd outgoing (floorFrame_ne_nil floor)
  have kept := announces.kept silent nonempty
  refine ⟨silent, ⟨down, invariant.agreed.finished free, pending, ?_⟩, kept⟩
  intro empty
  rw [empty, List.head?_nil, Option.map_none, Option.map_eq_none_iff,
    List.head?_eq_none_iff] at kept
  exact nonempty kept

theorem arrivalReported_of_head {link next : Link}
    (heads : next.queue.head?.map FloorNode.floor = link.queue.head?.map FloorNode.floor)
    (reported : ∀ floor, ReportedFrom link floor → ReportedFrom next floor)
    (arrival : ArrivalReported link) : ArrivalReported next := by
  obtain ⟨head, isHead, from_⟩ := arrival
  rw [Option.mem_def.mp isHead, Option.map_some] at heads
  obtain ⟨newHead, isNewHead, same⟩ := Option.map_eq_some_iff.mp heads
  exact ⟨newHead, isNewHead, reported newHead.floor (by rw [same]; exact from_)⟩

theorem pursued_insert {link : Link} {call : Call} (invariant : StopInvariant link)
    (free : link.queueMutex = none)
    (awaited : Awaited
      (link.lockedUpdate .control (insertFloorsIntoQueue link.data link.queue call))) :
    Pursued (link.lockedUpdate .control (insertFloorsIntoQueue link.data link.queue call)) := by
  obtain ⟨_, before, heads⟩ := awaited_before_lockedUpdate .control invariant free
    (insertFloorsIntoQueue_announces link.data link.queue call) awaited
  cases invariant.pursued before with
  | travels apart => exact .travels apart
  | opens closed woken => exact .opens closed woken
  | reports opening due => exact .reports opening due
  | reported arrival => exact .reported (arrivalReported_of_head heads (fun _ => id) arrival)

theorem reportsArrival_arrivalAt (floor : Token 3) : ReportsArrival (arrivalAt floor) :=
  ⟨rfl, rfl⟩

theorem serveArrival_of_silent {data : CarData} {queue : List FloorNode}
    (silent : (serveArrival data queue).sent = none) (left : (serveArrival data queue).queue ≠ []) :
    ∀ head ∈ queue.head?, ¬ (ReportsArrival data ∧ head.floor = data.currentFloor) := by
  intro head isHead ⟨arrival, served⟩
  cases queue with
  | nil => cases isHead
  | cons first rest =>
      cases isHead
      exact serveArrival_sent_of_arrival arrival served left silent

theorem pursued_serve {link : Link} (invariant : StopInvariant link)
    (updated : link.handler = .updated) (free : link.queueMutex = none)
    (awaited : Awaited
      { link.lockedUpdate .handler (serveArrival link.data link.queue) with
        handler := .receiving }) :
    Pursued
      { link.lockedUpdate .handler (serveArrival link.data link.queue) with
        handler := .receiving } := by
  have nonempty : (serveArrival link.data link.queue).queue ≠ [] := awaited.2.2.2
  obtain ⟨silent, before, heads⟩ := awaited_before_lockedUpdate .handler invariant free
    (serveArrival_announces link.data link.queue) awaited
  cases invariant.pursued before with
  | travels apart => exact .travels apart
  | opens closed woken => exact .opens closed woken
  | reports opening due => exact .reports opening due
  | reported arrival =>
      obtain ⟨head, isHead, reported⟩ := arrival
      have unserved := serveArrival_of_silent silent nonempty head isHead
      rcases reported with inFlight | received | ⟨_, stored⟩
      · apply Pursued.reported
        rw [Option.mem_def.mp isHead, Option.map_some] at heads
        obtain ⟨newHead, isNewHead, same⟩ := Option.map_eq_some_iff.mp heads
        exact ⟨newHead, isNewHead, Or.inl (by rw [same]; exact inFlight)⟩
      · rw [updated] at received
        cases received
      · rw [stored] at unserved
        exact absurd ⟨reportsArrival_arrivalAt head.floor, rfl⟩ unserved

theorem pursued_handler {link next : Link} (pursued : Awaited link → Pursued link)
    (car : next.car = link.car) (down : next.down = link.down)
    (outgoing : next.outgoing = link.outgoing) (queue : next.queue = link.queue)
    (reported : ∀ floor, ReportedFrom link floor → ReportedFrom next floor)
    (awaited : Awaited next) : Pursued next := by
  have before : Awaited link := by
    rw [Awaited, car, down, outgoing, queue] at awaited
    exact awaited
  cases pursued before with
  | travels apart => exact .travels (by rw [car]; exact apart)
  | opens closed woken =>
      exact .opens (by rw [car]; exact closed) (by rw [car]; exact woken)
  | reports opening due =>
      exact .reports (by rw [car]; exact opening) (by rw [car]; exact due)
  | reported arrival =>
      exact .reported (arrivalReported_of_head (by rw [queue]) reported arrival)

theorem statusMessage?_arrivalLine (floor : Token 3) :
    statusMessage? (arrivalLine floor) = some (arrivalAt floor) :=
  statusMessage?_statusLine (arrivalAt floor)

theorem reportedFrom_receiveReport {link : Link} {message : List UInt8}
    {later : List (List UInt8)} {report : CarData} (arrived : link.up = message :: later)
    (scanned : statusMessage? message = some report) (receiving : link.handler = .receiving)
    {floor : Token 3} (reported : ReportedFrom link floor) :
    ReportedFrom { link with up := later, handler := .received report } floor := by
  rcases reported with inFlight | received | ⟨updated, _⟩
  · rw [arrived] at inFlight
    rcases List.mem_cons.mp inFlight with first | rest
    · rw [← first, statusMessage?_arrivalLine] at scanned
      exact Or.inr (Or.inl (by rw [Option.some.inj scanned]))
    · exact Or.inl rest
  · rw [receiving] at received
    cases received
  · rw [receiving] at updated
    cases updated

theorem reportedFrom_update {link : Link} {report : CarData}
    (received : link.handler = .received report) {floor : Token 3}
    (reported : ReportedFrom link floor) :
    ReportedFrom { link with data := report, handler := .updated } floor := by
  rcases reported with inFlight | arrival | ⟨updated, _⟩
  · exact Or.inl inFlight
  · rw [received] at arrival
    exact Or.inr (Or.inr ⟨rfl, HandlerAt.received.inj arrival⟩)
  · rw [received] at updated
    cases updated

theorem pursued_sendStatus {link : Link} (invariant : StopInvariant link)
    (awaited : Awaited
      { link with
        car := { link.car with connection := .top }
        up := link.up ++ [statusText link.car.shm] }) :
    Pursued
      { link with
        car := { link.car with connection := .top }
        up := link.up ++ [statusText link.car.shm] } := by
  have before : Awaited link := awaited
  by_cases apart : link.car.shm.currentFloor = link.car.shm.destinationFloor
  · cases invariant.pursued before with
    | travels travelling => exact absurd apart travelling
    | opens closed woken => exact .opens closed woken
    | reports opening _ =>
        obtain ⟨head, isHead⟩ := head_of_awaited before
        have destination := destination_of_awaited invariant.agreed before isHead
        refine .reported ⟨head, isHead, Or.inl (List.mem_append_right _ ?_)⟩
        rw [List.mem_singleton, arrivalLine, statusText, apart, destination, opening]
        rfl
    | reported arrival =>
        obtain ⟨head, isHead, reported⟩ := arrival
        exact .reported ⟨head, isHead, reported.imp_left (List.mem_append_left _)⟩
  · exact .travels apart

theorem stopInvariant_step (link : Link) (action : LinkAction) (next : Link)
    (invariant : StopInvariant link) (allowed : Undisturbed link action ∧ TakenInTime link action)
    (taken : linkStep link action = some next) : StopInvariant next := by
  obtain ⟨undisturbed, inTime⟩ := allowed
  have agreed := linkInvariant_step link action next invariant.agreed taken
  cases action with
  | insert call =>
      obtain ⟨free, rfl⟩ := of_guarded taken
      exact ⟨agreed, invariant.buttons, pursued_insert invariant free⟩
  | serve =>
      obtain ⟨⟨updated, free⟩, rfl⟩ := of_guarded taken
      exact ⟨agreed, invariant.buttons, pursued_serve invariant updated free⟩
  | write extra =>
      obtain ⟨due, rfl⟩ := of_guarded taken
      refine ⟨agreed, invariant.buttons, fun awaited => absurd ?_ due⟩
      have sent := (List.append_eq_nil_iff.mp awaited.1).2
      have left : link.outgoing.drop (extra + 1) = [] := awaited.2.1
      rw [← List.take_append_drop (extra + 1) link.outgoing, sent, left]
      rfl
  | unlock =>
      obtain ⟨_, rfl⟩ := of_guarded taken
      exact ⟨agreed, invariant.buttons,
        pursued_handler invariant.pursued rfl rfl rfl rfl (fun _ => id)⟩
  | receiveReport =>
      obtain ⟨message, later, report, arrived, scanned, receiving, rfl⟩ :=
        linkStep_receiveReport taken
      exact ⟨agreed, invariant.buttons, pursued_handler invariant.pursued rfl rfl rfl rfl
        (fun floor => reportedFrom_receiveReport arrived scanned receiving)⟩
  | anyReport report => exact absurd undisturbed id
  | update =>
      obtain ⟨report, received, rfl⟩ := linkStep_update taken
      exact ⟨agreed, invariant.buttons, pursued_handler invariant.pursued rfl rfl rfl rfl
        (fun floor => reportedFrom_update received)⟩
  | loop ret =>
      cases taken
      refine ⟨agreed, loop_noButtons ret invariant.agreed.normal invariant.buttons, ?_⟩
      cases ret with
      | broadcast => exact pursued_loop_broadcast invariant
      | timedOut => exact pursued_loop_timedOut invariant inTime
  | connectionTop =>
      obtain ⟨top, rfl⟩ := of_guarded taken
      refine ⟨agreed, ?_, pursued_connectionTop invariant top inTime⟩
      rw [CarProcess.connectionTop_shm]
      unfold CarProcess.applyPending
      split <;> exact invariant.buttons
  | pollTimeout =>
      obtain ⟨_, rfl⟩ := of_guarded taken
      exact ⟨agreed, invariant.buttons, pursued_withCar invariant.pursued rfl
        (fun apart => .travels apart) (fun closed woken => .opens closed woken)
        (fun opening _ => .reports opening (Or.inr rfl))⟩
  | pollReady =>
      obtain ⟨⟨polling, _⟩, rfl⟩ := of_guarded taken
      refine ⟨agreed, invariant.buttons, pursued_withCar invariant.pursued rfl
        (fun apart => .travels apart) (fun closed woken => .opens closed woken)
        (fun opening due => .reports opening (Or.inl ?_))⟩
      rcases due with unread | report
      · exact unread
      · rw [polling] at report
        cases report
  | receive reads stack =>
      obtain ⟨inFlight, stream, _⟩ := invariant.agreed.nextStop
      obtain ⟨floor, rest, pipe, unread, _, _, rfl⟩ := linkStep_receiveFloor stream taken
      exact ⟨agreed, invariant.buttons, fun awaited =>
        absurd awaited.2.2.1 floor.chars_ne_empty⟩
  | readNotify =>
      obtain ⟨_, rfl⟩ := of_guarded taken
      exact ⟨agreed, invariant.buttons, pursued_withCar invariant.pursued rfl
        (fun apart => .travels apart) (fun closed woken => .opens closed woken)
        (fun opening _ => .reports opening (Or.inr rfl))⟩
  | sendStatus =>
      obtain ⟨_, rfl⟩ := of_guarded taken
      exact ⟨agreed, invariant.buttons, pursued_sendStatus invariant⟩
  | press openDoors => exact absurd undisturbed id

/-! ### Whole runs -/

/-- With nothing in flight every pursued stop is still to be served, so a quiet car has
none left. -/
theorem queue_empty_of_quiescent {link : Link} (invariant : StopInvariant link)
    (quiescent : Quiescent link) : link.queue = [] := by
  by_contra nonempty
  have awaited : Awaited link :=
    ⟨quiescent.down, quiescent.outgoing, quiescent.pending, nonempty⟩
  cases invariant.pursued awaited with
  | travels apart => exact apart quiescent.arrived
  | opens _ woken =>
      rw [quiescent.handled] at woken
      cases woken
  | reports opening _ =>
      rw [quiescent.closed] at opening
      simp at opening
  | reported arrival =>
      obtain ⟨head, _, inFlight | received | ⟨updated, _⟩⟩ := arrival
      · rw [quiescent.up] at inFlight
        cases inFlight
      · rw [quiescent.handler] at received
        cases received
      · rw [quiescent.handler] at updated
        cases updated

/-- In every run in which stops are taken in time, a quiet car has no stop left. -/
theorem stops_not_stuck (start : Link) (fresh : start.Fresh) (buttons : NoButtons start.car.shm)
    (actions : List LinkAction) (reached : Link)
    (undisturbed : Along linkStep Undisturbed start actions)
    (inTime : Along linkStep TakenInTime start actions)
    (ran : run linkStep start actions = some reached) (quiescent : Quiescent reached) :
    reached.queue = [] := by
  have initial : StopInvariant start :=
    ⟨linkInvariant_of_fresh fresh, buttons, fun awaited => absurd fresh.queue awaited.2.2.2⟩
  have invariant := invariant_run stopInvariant_step initial (undisturbed.and inTime) ran
  exact queue_empty_of_quiescent invariant quiescent

/-! ### A call from the floor where the doors already open -/

def callOneTwo : List LinkAction :=
  [.insert
      { currentFloor := digitFloor 1
        destinationFloor := digitFloor 2 },
    .write 20, .unlock]

def takeFloor : List LinkAction :=
  [.pollReady, .receive [] (Vector.replicate 4 0), .connectionTop]

def reportStatus : List LinkAction :=
  [.pollReady, .readNotify, .sendStatus, .connectionTop, .receiveReport, .update, .serve]

def servedAtOne : List LinkAction :=
  [.connectionTop] ++ callOneTwo ++ takeFloor ++ [.loop .broadcast] ++ reportStatus ++
    [.write 20, .unlock]

/-- A second call from `1` comes while the doors are still opening. -/
def calledWhileOpening : List LinkAction :=
  servedAtOne ++ callOneTwo ++ takeFloor ++ takeFloor ++
    [.loop .broadcast, .loop .timedOut, .loop .timedOut, .loop .timedOut] ++
    reportStatus ++ [.unlock] ++ reportStatus ++ [.unlock] ++ reportStatus ++ [.unlock]

def stuckAtOne : Link :=
  { linkStart (digitFloor 1) with
    car :=
      { CarProcess.start (digitFloor 1).chars with
        connection := .polling }
    queue :=
      [{ direction := .up, floor := digitFloor 1 },
        { direction := .up, floor := digitFloor 2 }]
    written :=
      floorFrame (digitFloor 1) ++
        floorFrame (digitFloor 2) ++
        floorFrame (digitFloor 1) }

theorem stop_stuck_calledWhileOpening :
    ¬ ∀ (start : Link) (actions : List LinkAction) (reached : Link),
      start.Fresh → NoButtons start.car.shm → Along linkStep Undisturbed start actions →
      run linkStep start actions = some reached → Quiescent reached → reached.queue = [] := by
  intro always
  have empty := always (linkStart (digitFloor 1))
    calledWhileOpening stuckAtOne (linkStart_fresh _) (by decide) (by decide +kernel)
    (by decide +kernel)
    { down := rfl
      outgoing := rfl
      up := rfl
      handler := rfl
      notify := rfl
      pending := rfl
      closed := rfl
      arrived := rfl
      handled := rfl }
  cases empty

def servedAtTwo : List LinkAction :=
  servedAtOne ++ takeFloor ++ [.loop .broadcast, .loop .timedOut] ++
    reportStatus ++ [.unlock, .loop .timedOut, .loop .timedOut] ++
    reportStatus ++ [.unlock] ++ reportStatus ++ [.unlock] ++ reportStatus ++
    [.unlock, .loop .timedOut] ++ reportStatus ++ [.unlock, .loop .timedOut] ++
    reportStatus ++ [.unlock, .loop .timedOut] ++ reportStatus ++ [.unlock, .loop .timedOut] ++
    reportStatus ++ [.unlock]

def quietAtTwo : Link :=
  { linkStart (digitFloor 2) with
    car :=
      { CarProcess.start (digitFloor 2).chars with
        connection := .polling }
    written :=
      floorFrame (digitFloor 1) ++
        floorFrame (digitFloor 2) }

theorem stops_not_stuck_servedAtTwo : quietAtTwo.queue = [] :=
  stops_not_stuck (linkStart (digitFloor 1)) (linkStart_fresh _)
    (by decide) servedAtTwo quietAtTwo (by decide +kernel) (by decide +kernel) (by decide +kernel)
    { down := rfl
      outgoing := rfl
      up := rfl
      handler := rfl
      notify := rfl
      pending := rfl
      closed := rfl
      arrived := rfl
      handled := rfl }

end Cab403.Elevator
