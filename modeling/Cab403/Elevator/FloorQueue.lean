/-
The floor queue the controller keeps for a car: insertion of a call, removal of a
stop that has been served, and the `FLOOR` message either may send. The list is the
chain of nodes from `floor_queue_head`; a node that is never linked is left out.
-/

import Cab403.Elevator.Floors
import Cab403.Elevator.SharedMemory

namespace Cab403.Elevator.Controller

open CText

inductive Direction where
  | up
  | down
  deriving DecidableEq, Repr

@[ext] structure FloorNode where
  direction : Direction
  floor : Token 3
  deriving DecidableEq

structure CarData where
  currentFloor : Token 3
  destinationFloor : Token 3
  status : Token 7
  deriving DecidableEq

structure Call where
  currentFloor : Token 3
  destinationFloor : Token 3
  deriving DecidableEq

def statusToken (status : Status) : Token 7 :=
  Token.ofText status.text (by cases status <;> decide)

def tokenFloorNumber (floor : Token 3) : Int := floorNumber floor.text

def directionTo (fromFloor toFloor : Int) : Direction :=
  if toFloor > fromFloor then .up else .down

def callDirection (call : Call) : Direction :=
  directionTo (tokenFloorNumber call.currentFloor) (tokenFloorNumber call.destinationFloor)

structure QueueUpdate where
  queue : List FloorNode
  sent : Option (Token 3)
  deriving DecidableEq

/-! ### Inserting a call -/

/-- Whether `from_node` has been dealt with: linked in behind the nodes of `upTo`,
which end with it, or dropped as a duplicate of a node that is there. -/
inductive FromInserted where
  | no
  | duplicate
  | linked (upTo : List FloorNode)
  deriving DecidableEq

/-- The walk along the leading run: the nodes passed, and those from `curr` on. -/
structure Walk where
  passed : List FloorNode
  fromInserted : FromInserted
  toInserted : Bool
  rest : List FloorNode
  deriving DecidableEq

def Reaches (direction : Direction) (curr node : FloorNode) : Prop :=
  match direction with
  | .up => tokenFloorNumber curr.floor ≥ tokenFloorNumber node.floor
  | .down => tokenFloorNumber curr.floor ≤ tokenFloorNumber node.floor

instance (direction : Direction) (curr node : FloorNode) :
    Decidable (Reaches direction curr node) := by
  unfold Reaches
  split <;> infer_instance

def insertFrom (direction : Direction) (fromNode curr : FloorNode)
    (passed : List FloorNode) (fromInserted : FromInserted) : List FloorNode × FromInserted :=
  if fromInserted = .no ∧ Reaches direction curr fromNode then
    if curr = fromNode then (passed, .duplicate)
    else (passed ++ [fromNode], .linked (passed ++ [fromNode]))
  else (passed, fromInserted)

def walk (direction : Direction) (fromNode toNode : FloorNode) :
    List FloorNode → FromInserted → List FloorNode → Walk
  | passed, fromInserted, [] =>
      { passed := passed, fromInserted := fromInserted, toInserted := false, rest := [] }
  | passed, fromInserted, curr :: next =>
      if curr.direction ≠ direction then
        { passed := passed
          fromInserted := fromInserted
          toInserted := false
          rest := curr :: next }
      else
        let (passed, fromInserted) := insertFrom direction fromNode curr passed fromInserted
        if fromInserted ≠ .no ∧ Reaches direction curr toNode then
          { passed := if curr = toNode then passed else passed ++ [toNode]
            fromInserted := fromInserted
            toInserted := true
            rest := curr :: next }
        else walk direction fromNode toNode (passed ++ [curr]) fromInserted next

/-- What follows the loop. A `to_node` that found no place is linked behind
`from_node` and in front of `rest`; behind a dropped `from_node` it is lost. -/
def finishWalk (fromNode toNode : FloorNode) (walked : Walk) : List FloorNode :=
  match walked.fromInserted with
  | .no => walked.passed ++ fromNode :: toNode :: walked.rest
  | .duplicate => walked.passed ++ walked.rest
  | .linked upTo =>
      if walked.toInserted then walked.passed ++ walked.rest
      else upTo ++ toNode :: walked.rest

def carDirection (car : CarData) (queue : List FloorNode) (callDirection : Direction) :
    Direction :=
  if car.status.text = Status.between.text then
    directionTo (tokenFloorNumber car.currentFloor) (tokenFloorNumber car.destinationFloor)
  else
    match queue with
    | head :: _ =>
        directionTo (tokenFloorNumber car.currentFloor) (tokenFloorNumber head.floor)
    | [] => callDirection

def insertFloors (car : CarData) (queue : List FloorNode) (call : Call) : List FloorNode :=
  let direction := callDirection call
  let fromNode : FloorNode := { direction := direction, floor := call.currentFloor }
  let toNode : FloorNode := { direction := direction, floor := call.destinationFloor }
  if carDirection car queue direction = direction then
    finishWalk fromNode toNode (walk direction fromNode toNode [] .no queue)
  else queue ++ [fromNode, toNode]

/-- `insert_floors_into_queue`: the new head is sent when its floor string differs
from the old head's, or is the floor the car has reported. -/
def insertFloorsIntoQueue (car : CarData) (queue : List FloorNode) (call : Call) :
    QueueUpdate :=
  let inserted := insertFloors car queue call
  { queue := inserted
    sent :=
      match inserted with
      | [] => none
      | head :: _ =>
          if queue.head?.map FloorNode.floor ≠ some head.floor ∨ car.currentFloor = head.floor then
            some head.floor
          else none }

/-! ### Removing a served stop -/

def popServed (currentFloor : Token 3) : List FloorNode → List FloorNode
  | _ :: next :: rest => if next.floor = currentFloor then rest else next :: rest
  | _ => []

def ReportsArrival (car : CarData) : Prop :=
  car.status.text = Status.opening.text ∧ car.currentFloor = car.destinationFloor

instance (car : CarData) : Decidable (ReportsArrival car) := inferInstanceAs (Decidable (_ ∧ _))

/-- The locked section of `handle_car_connection` after a report. -/
def serveArrival (car : CarData) (queue : List FloorNode) : QueueUpdate :=
  match queue with
  | [] => { queue := [], sent := none }
  | head :: _ =>
      if ReportsArrival car ∧ head.floor = car.currentFloor then
        let remaining := popServed car.currentFloor queue
        { queue := remaining
          sent := remaining.head?.map FloorNode.floor }
      else { queue := queue, sent := none }

/-! ### When the head is announced -/

/-- An update keeps the floor of the head unless it sends the new one. -/
structure Announces (before : List FloorNode) (update : QueueUpdate) : Prop where
  sent : ∀ floor, update.sent = some floor →
    update.queue.head?.map FloorNode.floor = some floor
  kept : update.sent = none → update.queue ≠ [] →
    update.queue.head?.map FloorNode.floor = before.head?.map FloorNode.floor

theorem insertFloorsIntoQueue_announces (car : CarData) (queue : List FloorNode) (call : Call) :
    Announces queue (insertFloorsIntoQueue car queue call) := by
  unfold insertFloorsIntoQueue
  dsimp only
  cases inserted : insertFloors car queue call with
  | nil => exact ⟨nofun, fun _ nonempty => absurd rfl nonempty⟩
  | cons head rest =>
      dsimp only
      split
      · exact ⟨fun floor sent => sent, nofun⟩
      · rename_i same
        rw [not_or, not_not] at same
        exact ⟨nofun, fun _ _ => same.1.symm⟩

theorem serveArrival_announces (car : CarData) (queue : List FloorNode) :
    Announces queue (serveArrival car queue) := by
  cases queue with
  | nil => exact ⟨nofun, fun _ _ => rfl⟩
  | cons head rest =>
      unfold serveArrival
      dsimp only
      split
      · refine ⟨fun floor sent => sent, fun silent nonempty => absurd ?_ nonempty⟩
        exact List.head?_eq_none_iff.mp (Option.map_eq_none_iff.mp silent)
      · exact ⟨nofun, fun _ _ => rfl⟩

theorem serveArrival_of_arrival {car : CarData} {head : FloorNode} {rest : List FloorNode}
    (arrival : ReportsArrival car) (served : head.floor = car.currentFloor) :
    (serveArrival car (head :: rest)).queue = popServed car.currentFloor (head :: rest) := by
  simp only [serveArrival, if_pos (And.intro arrival served)]

theorem serveArrival_sent_of_arrival {car : CarData} {head : FloorNode} {rest : List FloorNode}
    (arrival : ReportsArrival car) (served : head.floor = car.currentFloor)
    (left : (serveArrival car (head :: rest)).queue ≠ []) :
    (serveArrival car (head :: rest)).sent ≠ none := by
  rw [serveArrival_of_arrival arrival served] at left
  simp only [serveArrival, if_pos (And.intro arrival served), ne_eq, Option.map_eq_none_iff,
    List.head?_eq_none_iff]
  exact left

end Cab403.Elevator.Controller
