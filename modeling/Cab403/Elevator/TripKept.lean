/-
What a call does to the trip of a moving car. The direction comes from the car's report,
but the place of the new stops is found among the queued ones alone, so the head of the
queue may become a floor that the car has passed.
-/

import Cab403.Elevator.CallKept

namespace Cab403.Elevator.Controller

open CText

def OnTrip (car : CarData) (number : Int) : Prop :=
  match directionTo (tokenFloorNumber car.currentFloor) (tokenFloorNumber car.destinationFloor) with
  | .up =>
      tokenFloorNumber car.currentFloor < number ∧ number < tokenFloorNumber car.destinationFloor
  | .down =>
      tokenFloorNumber car.destinationFloor < number ∧ number < tokenFloorNumber car.currentFloor

instance (car : CarData) (number : Int) : Decidable (OnTrip car number) := by
  unfold OnTrip
  split <;> infer_instance

structure Travelling (car : CarData) (head : FloorNode) : Prop where
  between : car.status.text = Status.between.text
  destination : tokenFloorNumber head.floor = tokenFloorNumber car.destinationFloor

/-- The queue is headed by the floor of the old head or by one on the rest of the trip. -/
def KeepsTrip (car : CarData) (head : FloorNode) (queue : List FloorNode) : Prop :=
  ∃ first, queue.head? = some first ∧
    (tokenFloorNumber first.floor = tokenFloorNumber head.floor ∨
      OnTrip car (tokenFloorNumber first.floor))

/-- A call in the direction of travel whose pick-up is neither ahead on the trip nor, behind
a head of that direction, beyond its end. -/
structure TurnsRound (car : CarData) (head : FloorNode) (call : Call) : Prop where
  along : directionTo (tokenFloorNumber car.currentFloor) (tokenFloorNumber car.destinationFloor) =
    callDirection call
  notOnTrip : ¬ OnTrip car (tokenFloorNumber call.currentFloor)
  notEnd : tokenFloorNumber call.currentFloor ≠ tokenFloorNumber head.floor
  inFront : head.direction = callDirection call → Reaches (callDirection call) head call.fromNode

/-! ### The head after an insertion -/

/-- From `from_node` to `to_node` the way goes on, or the floors have one number. -/
theorem number_of_reaches {call : Call}
    (reaches : Reaches (callDirection call) call.fromNode call.toNode) :
    tokenFloorNumber call.destinationFloor = tokenFloorNumber call.currentFloor := by
  by_cases rising : tokenFloorNumber call.destinationFloor > tokenFloorNumber call.currentFloor
  · have up : callDirection call = .up := if_pos rising
    rw [up] at reaches
    have beyond : tokenFloorNumber call.currentFloor ≥ tokenFloorNumber call.destinationFloor :=
      reaches
    omega
  · have down : callDirection call = .down := if_neg rising
    rw [down] at reaches
    have beyond : tokenFloorNumber call.currentFloor ≤ tokenFloorNumber call.destinationFloor :=
      reaches
    omega

theorem ToPlaced.head {call : Call} {rest grown : List FloorNode}
    (placed : ToPlaced (callDirection call) call.toNode (call.fromNode :: rest) grown) :
    ∃ first later, grown = first :: later ∧
      tokenFloorNumber first.floor = tokenFloorNumber call.currentFloor := by
  generalize run : call.fromNode :: rest = whole at placed
  cases placed with
  | @linked between after place short reaches apart =>
      cases between with
      | nil =>
          obtain ⟨rfl, rfl⟩ := List.cons.inj run
          exact ⟨_, _, rfl, number_of_reaches reaches⟩
      | cons node more =>
          obtain ⟨rfl, _⟩ := List.cons.inj run
          exact ⟨_, _, rfl, rfl⟩
  | @same between after short =>
      cases between with
      | nil =>
          obtain ⟨same, rfl⟩ := List.cons.inj run
          exact ⟨_, _, rfl, congrArg (fun node => tokenFloorNumber node.floor) same.symm⟩
      | cons node more =>
          obtain ⟨rfl, _⟩ := List.cons.inj run
          exact ⟨_, _, rfl, rfl⟩

/-- The run is headed by the floor of `from_node` where its head reaches that, and else by
its head. -/
theorem RunInserted.head {call : Call} {head : FloorNode} {rest grown : List FloorNode}
    (inserted : RunInserted (callDirection call) call.fromNode call.toNode (head :: rest) grown) :
    ∃ first later, grown = first :: later ∧
      (Reaches (callDirection call) head call.fromNode →
        tokenFloorNumber first.floor = tokenFloorNumber call.currentFloor) ∧
      (¬ Reaches (callDirection call) head call.fromNode → first = head) := by
  -- a node in front of the place of `from_node` does not reach it
  have kept {before : List FloorNode} {node : FloorNode} {more later : List FloorNode}
      (short : ∀ item ∈ node :: before, ¬ Reaches (callDirection call) item call.fromNode)
      (same : head :: rest = node :: more) :
      ∃ first behind, node :: later = first :: behind ∧
        (Reaches (callDirection call) head call.fromNode →
          tokenFloorNumber first.floor = tokenFloorNumber call.currentFloor) ∧
        (¬ Reaches (callDirection call) head call.fromNode → first = head) := by
    obtain ⟨rfl, _⟩ := List.cons.inj same
    exact ⟨_, _, rfl, fun reaches => absurd reaches (short head List.mem_cons_self), fun _ => rfl⟩
  generalize run : head :: rest = whole at inserted
  cases inserted with
  | behind short =>
      subst run
      exact kept short rfl
  | @linked before more grown place short reaches apart placed =>
      cases before with
      | nil =>
          obtain ⟨rfl, _⟩ := List.cons.inj run
          exact ⟨_, _, rfl, fun _ => rfl, fun not => absurd reaches not⟩
      | cons node before => exact kept short run
  | @same before more grown short placed =>
      cases before with
      | nil =>
          obtain ⟨rfl, _⟩ := List.cons.inj run
          obtain ⟨first, later, rfl, number⟩ := placed.head
          exact ⟨first, later, rfl, fun _ => number,
            fun not => absurd (reaches_refl _ call.fromNode) not⟩
      | cons node before => exact kept short run
  | @cut before more place short reaches past =>
      cases before with
      | nil =>
          obtain ⟨rfl, _⟩ := List.cons.inj run
          exact ⟨_, _, rfl, fun _ => rfl, fun not => absurd reaches not⟩
      | cons node before => exact kept short run
  | @lost before more short past =>
      cases before with
      | nil =>
          obtain ⟨rfl, _⟩ := List.cons.inj run
          exact ⟨_, _, rfl, fun _ => rfl, fun not => absurd (reaches_refl _ call.fromNode) not⟩
      | cons node before => exact kept short run

section Insertion

variable {car : CarData} {head : FloorNode} {rest : List FloorNode} {call : Call}

/-- The new head is the pick-up, if the call goes along and the old head is of the other
direction or not in front of it; and else the old head. -/
theorem insertFloors_head :
    ∃ first later, insertFloors car (head :: rest) call = first :: later ∧
      (carDirection car (head :: rest) (callDirection call) = callDirection call →
        (head.direction = callDirection call →
          Reaches (callDirection call) head call.fromNode) →
        tokenFloorNumber first.floor = tokenFloorNumber call.currentFloor) ∧
      (¬ (carDirection car (head :: rest) (callDirection call) = callDirection call ∧
          (head.direction = callDirection call →
            Reaches (callDirection call) head call.fromNode)) →
        first = head) := by
  by_cases along : carDirection car (head :: rest) (callDirection call) = callDirection call
  · obtain ⟨run, later, grown, split, inRun, ends, inserted, result⟩ := insertFloors_along along
    cases run with
    | nil =>
        rw [List.nil_append] at split
        have differs : head.direction ≠ callDirection call := by
          apply ends head
          rw [← split]
          rfl
        have behind : insertFloors car (head :: rest) call =
            call.fromNode :: call.toNode :: head :: rest := by
          rw [result, ← split]
          generalize empty : ([] : List FloorNode) = run at inserted
          cases inserted with
          | behind short =>
              subst empty
              rfl
          | linked | same | cut | lost => simp at empty
        exact ⟨_, _, behind, fun _ _ => rfl,
          fun not => absurd ⟨along, fun same => absurd same differs⟩ not⟩
    | cons node run =>
        obtain ⟨rfl, _⟩ := List.cons.inj split
        have sameDirection : head.direction = callDirection call := inRun head List.mem_cons_self
        obtain ⟨first, more, rfl, reaches, short⟩ := inserted.head
        exact ⟨first, more ++ later, result, fun _ inFront => reaches (inFront sameDirection),
          fun not => short fun reached => not ⟨along, fun _ => reached⟩⟩
  · exact ⟨head, _, insertFloors_against along, fun same => absurd same along, fun _ => rfl⟩

theorem carDirection_of_between (between : car.status.text = Status.between.text)
    (queue : List FloorNode) (other : Direction) :
    carDirection car queue other =
      directionTo (tokenFloorNumber car.currentFloor) (tokenFloorNumber car.destinationFloor) :=
  if_pos between

end Insertion

/-- A call leaves a moving car its trip, unless it goes along and its pick-up is neither on
the rest of the trip nor beyond a head of the same direction. -/
theorem insertFloors_keeps_trip_iff (car : CarData) (head : FloorNode) (rest : List FloorNode)
    (call : Call) (travelling : Travelling car head) :
    KeepsTrip car head (insertFloorsIntoQueue car (head :: rest) call).queue ↔
      ¬ TurnsRound car head call := by
  obtain ⟨first, later, result, pickUp, kept⟩ :=
    @insertFloors_head car head rest call
  rw [carDirection_of_between travelling.between] at pickUp kept
  have headed : (insertFloorsIntoQueue car (head :: rest) call).queue.head? = some first :=
    congrArg List.head? result
  constructor
  · rintro ⟨other, found, position⟩ turns
    rw [headed] at found
    cases found
    rw [pickUp turns.along turns.inFront] at position
    rcases position with atEnd | onTrip
    · exact turns.notEnd atEnd
    · exact turns.notOnTrip onTrip
  · intro straight
    refine ⟨first, headed, ?_⟩
    by_cases along :
        directionTo (tokenFloorNumber car.currentFloor) (tokenFloorNumber car.destinationFloor) =
            callDirection call ∧
          (head.direction = callDirection call →
            Reaches (callDirection call) head call.fromNode)
    · rw [pickUp along.1 along.2]
      by_contra position
      rw [not_or] at position
      exact straight ⟨along.1, position.2, position.1, along.2⟩
    · rw [kept along]
      exact Or.inl rfl

def fourToEight : CarData :=
  { currentFloor := digitFloor 4
    destinationFloor := digitFloor 8
    status := statusToken .between }

theorem insertFloors_keeps_trip_sixToSeven :
    KeepsTrip fourToEight { direction := .up, floor := digitFloor 8 }
        (insertFloorsIntoQueue fourToEight [{ direction := .up, floor := digitFloor 8 }]
          { currentFloor := digitFloor 6, destinationFloor := digitFloor 7 }).queue ↔
      ¬ TurnsRound fourToEight { direction := .up, floor := digitFloor 8 }
        { currentFloor := digitFloor 6, destinationFloor := digitFloor 7 } :=
  insertFloors_keeps_trip_iff fourToEight { direction := .up, floor := digitFloor 8 } []
    { currentFloor := digitFloor 6, destinationFloor := digitFloor 7 } ⟨rfl, rfl⟩

/-- A call from floor 2 up to 6 becomes the head of the queue. -/
theorem insertFloors_turns_twoToSix :
    ¬ ∀ car head rest call, Travelling car head →
      KeepsTrip car head (insertFloorsIntoQueue car (head :: rest) call).queue := by
  intro always
  obtain ⟨first, found, position⟩ := always fourToEight
    { direction := .up, floor := digitFloor 8 } []
    { currentFloor := digitFloor 2, destinationFloor := digitFloor 6 } ⟨rfl, rfl⟩
  have pickUp : { direction := .up, floor := digitFloor 2 } = first := Option.some.inj found
  subst pickUp
  rcases position with atEnd | onTrip
  · exact absurd atEnd (by decide)
  · exact absurd onTrip (by decide)

end Cab403.Elevator.Controller
