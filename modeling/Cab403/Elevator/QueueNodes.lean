/-
The floor queues of all cars as the nodes the controller allocates, links and frees.
`insert_floors_into_queue` walks with `prev` and `curr` and stores through `prev`;
the served head is freed, and a car that leaves frees what is left. A program that
touched a node that is not allocated would yield `none`. An insertion does to the
nodes what the list insertion does to the stops.
-/

import Cab403.Elevator.FloorQueue
import Cab403.Library.NodeHeap

namespace Cab403.Elevator.QueueNodes

open Controller CText LinkedChain

abbrev QueueHeap (Car Node : Type) := NodeHeap Car Node FloorNode

structure Cursor (Node : Type) where
  prev : Option Node
  curr : Option Node
  fromInserted : Bool
  toInserted : Bool
  deriving DecidableEq

variable {Car Node : Type} [DecidableEq Car] [DecidableEq Node]

/-! ### The program -/

def placeFrom (heap : QueueHeap Car Node) (car : Car) (direction : Direction)
    (fromStop stop : FloorNode) (fromNode curr : Node) (cursor : Cursor Node) :
    Option (QueueHeap Car Node × Cursor Node) :=
  if cursor.fromInserted = false ∧ Reaches direction stop fromStop then
    if stop = fromStop then some (heap, { cursor with fromInserted := true })
    else do
      let heap ← heap.linkIn car fromNode cursor.prev (some curr)
      return (heap, { cursor with prev := some fromNode, fromInserted := true })
  else some (heap, cursor)

/-- What the second test does before its `break`. -/
def placeTo (heap : QueueHeap Car Node) (car : Car) (toStop stop : FloorNode)
    (toNode curr : Node) (cursor : Cursor Node) :
    Option (QueueHeap Car Node × Cursor Node) :=
  if stop = toStop then some (heap, { cursor with toInserted := true })
  else do
    let heap ← heap.linkIn car toNode cursor.prev (some curr)
    return (heap, { cursor with prev := some toNode, toInserted := true })

def insertLoop (car : Car) (direction : Direction) (fromStop toStop : FloorNode)
    (fromNode toNode : Node) :
    Nat → QueueHeap Car Node → Cursor Node → Option (QueueHeap Car Node × Cursor Node)
  | 0, _, _ => none
  | fuel + 1, heap, cursor =>
      match cursor.curr with
      | none => some (heap, cursor)
      | some curr => do
          let stop ← heap.load curr
          if stop.direction ≠ direction then return (heap, cursor)
          else
            let (heap, cursor) ← placeFrom heap car direction fromStop stop fromNode curr cursor
            if cursor.fromInserted = true ∧ cursor.toInserted = false ∧
                Reaches direction stop toStop then
              placeTo heap car toStop stop toNode curr cursor
            else
              let next ← heap.follow curr
              insertLoop car direction fromStop toStop fromNode toNode fuel heap
                { cursor with prev := some curr, curr := next }

def finishInsert (heap : QueueHeap Car Node) (car : Car) (fromNode toNode : Node)
    (cursor : Cursor Node) : Option (QueueHeap Car Node) := do
  let heap ←
    if cursor.fromInserted = false then heap.store car (some fromNode) cursor.prev else some heap
  if cursor.toInserted = false then heap.linkAfter car fromNode toNode cursor.curr else some heap

/-- The branch for a car that travels the other way. -/
def appendBoth (heap : QueueHeap Car Node) (car : Car) (fromNode toNode : Node) :
    Option (QueueHeap Car Node) := do
  let heap ← heap.append car fromNode
  heap.store car (some toNode) (some fromNode)

def headStop (heap : QueueHeap Car Node) (car : Car) : Option (Option FloorNode) :=
  match heap.head car with
  | none => some none
  | some node => (heap.load node).map some

def fromStopOf (call : Call) : FloorNode :=
  { direction := callDirection call, floor := call.currentFloor }

def toStopOf (call : Call) : FloorNode :=
  { direction := callDirection call, floor := call.destinationFloor }

def linkFloors (heap : QueueHeap Car Node) (car : Car) (carDirection : Direction) (call : Call)
    (fromNode toNode : Node) : Option (QueueHeap Car Node) :=
  if carDirection = callDirection call then do
    let (heap, cursor) ← insertLoop car carDirection (fromStopOf call) (toStopOf call)
      fromNode toNode (heap.live.card + 1) heap
      { prev := none, curr := heap.head car, fromInserted := false, toInserted := false }
    finishInsert heap car fromNode toNode cursor
  else appendBoth heap car fromNode toNode

def insertFloorsIntoQueue (heap : QueueHeap Car Node) (car : Car) (data : CarData) (call : Call)
    (fromNode toNode : Node) : Option (QueueHeap Car Node × Option (Token 3)) := do
  let first ← headStop heap car
  let carDirection := carDirection data first.toList (callDirection call)
  let heap := (heap.malloc fromNode (fromStopOf call)).malloc toNode (toStopOf call)
  let heap ← linkFloors heap car carDirection call fromNode toNode
  match ← headStop heap car with
  | none => return (heap, none)
  | some head =>
      if first.map FloorNode.floor ≠ some head.floor ∨ data.currentFloor = head.floor then
        return (heap, some head.floor)
      else return (heap, none)

def popHead (heap : QueueHeap Car Node) (car : Car) (completed : Node) :
    Option (QueueHeap Car Node) := do
  let next ← heap.follow completed
  (heap.setHead car next).free completed

/-- The second removal, when the new head stops at the same floor. -/
def popSame (heap : QueueHeap Car Node) (car : Car) (currentFloor : Token 3) :
    Option (QueueHeap Car Node) :=
  match heap.head car with
  | none => some heap
  | some completed => do
      let stop ← heap.load completed
      if stop.floor = currentFloor then popHead heap car completed else return heap

/-- The section of `handle_car_connection` under `queue_mutex`. -/
def serveReport (heap : QueueHeap Car Node) (car : Car) (data : CarData) :
    Option (QueueHeap Car Node × Option (Token 3)) :=
  if ReportsArrival data then
    match heap.head car with
    | none => some (heap, none)
    | some completed => do
        let stop ← heap.load completed
        if stop.floor = data.currentFloor then
          let heap ← popHead heap car completed
          let heap ← popSame heap car data.currentFloor
          let head ← headStop heap car
          return (heap, head.map FloorNode.floor)
        else return (heap, none)
  else some (heap, none)

/-- `free_floor_queue(new_car->floor_queue_head)`, which leaves the head as it is. -/
def freeFloorQueue (heap : QueueHeap Car Node) (car : Car) : Option (QueueHeap Car Node) :=
  heap.freeList heap.live.card (heap.head car)

/-! ### The walk -/

/-- Where `from_node` stands: in no list, with a null pointer as long as it is to be
placed, or at the end of the nodes that are behind it. -/
def Placed (heap : QueueHeap Car Node) (fromNode : Node) (passed rest : List Node) :
    FromInserted → Prop
  | .no => fromNode ∉ passed ++ rest ∧ heap.next fromNode = none
  | .duplicate => fromNode ∉ passed ++ rest
  | .linked upTo => ∃ front back, passed = front ++ back ∧ front.getLast? = some fromNode ∧
      front.map heap.item = upTo

structure Allocated (heap : QueueHeap Car Node) (queues : Car → List Node) (car : Car)
    (node : Node) (stop : FloorNode) : Prop where
  live : node ∈ heap.live
  item : heap.item node = stop
  foreign : ∀ other, other ≠ car → node ∉ queues other

theorem Allocated.of_same {Car Node : Type} {heap other : QueueHeap Car Node}
    {queues : Car → List Node} {car : Car} {node : Node} {stop : FloorNode}
    (allocated : Allocated heap queues car node stop) (same : NodeHeap.SameNodes other heap) :
    Allocated other queues car node stop :=
  { live := by
      rw [same.live]
      exact allocated.live
    item := by
      rw [same.item]
      exact allocated.item
    foreign := allocated.foreign }

/-- The cursor and the links of the car stand for a walk over lists. -/
structure Walking (heap : QueueHeap Car Node) (queues : Car → List Node) (car : Car)
    (fromNode toNode : Node) (cursor : Cursor Node) (passed rest : List Node)
    (walked : Walk) : Prop where
  keeps : heap.Keeps (Function.update queues car (passed ++ rest))
  passedItems : passed.map heap.item = walked.passed
  restItems : rest.map heap.item = walked.rest
  prev : cursor.prev = passed.getLast?
  curr : cursor.curr = rest.head?
  fromInserted : cursor.fromInserted = true ↔ walked.fromInserted ≠ .no
  toInserted : cursor.toInserted = walked.toInserted
  placed : Placed heap fromNode passed rest walked.fromInserted
  toOutside : walked.toInserted = false → toNode ∉ passed ++ rest ∧ heap.next toNode = none
  order : walked.toInserted = true → walked.fromInserted ≠ .no
  within : ∀ node ∈ passed ++ rest, node ∈ fromNode :: toNode :: queues car

theorem mem_insert_cases {Node : Type} {before after : List Node} {node other : Node}
    (member : other ∈ before ++ node :: after) : other = node ∨ other ∈ before ++ after := by
  simp only [List.mem_append, List.mem_cons] at member ⊢
  tauto

section Walk

variable {heap : QueueHeap Car Node} {queues : Car → List Node} {car : Car}
  {fromNode toNode : Node} {fromStop toStop stop : FloorNode}
  {cursor : Cursor Node} {passed after : List Node} {curr : Node}

theorem placeFrom_walking {front following : List FloorNode} {fromInserted : FromInserted}
    (direction : Direction)
    (allocated : Allocated heap queues car fromNode fromStop) (different : fromNode ≠ toNode)
    (walking : Walking heap queues car fromNode toNode cursor passed (curr :: after)
      { passed := front, fromInserted := fromInserted, toInserted := false
        rest := stop :: following }) :
    ∃ placed next nodes,
      placeFrom heap car direction fromStop stop fromNode curr cursor = some (placed, next) ∧
      NodeHeap.SameNodes placed heap ∧
      Walking placed queues car fromNode toNode next nodes (curr :: after)
        { passed := (insertFrom direction fromStop stop front fromInserted).1
          fromInserted := (insertFrom direction fromStop stop front fromInserted).2
          toInserted := false
          rest := stop :: following } := by
  have flag : cursor.fromInserted = false ↔ fromInserted = .no := by
    rw [← Bool.not_eq_true, walking.fromInserted, not_not]
  by_cases reached : fromInserted = .no ∧ Reaches direction stop fromStop
  · have taken : cursor.fromInserted = false ∧ Reaches direction stop fromStop :=
      ⟨flag.mpr reached.1, reached.2⟩
    have placed := walking.placed
    dsimp only at placed
    rw [reached.1] at placed
    obtain ⟨outside, null⟩ := placed
    rw [placeFrom, if_pos taken, insertFrom, if_pos reached]
    by_cases same : stop = fromStop
    · rw [if_pos same, if_pos same]
      refine ⟨heap, { cursor with fromInserted := true }, passed, rfl, ⟨rfl, rfl⟩, ?_⟩
      exact
        { walking with
          fromInserted := ⟨fun _ => nofun, fun _ => rfl⟩
          placed := outside
          order := fun _ => nofun }
    · rw [if_neg same, if_neg same]
      obtain ⟨linked, made, keeps, sameNodes, frame⟩ :=
        walking.keeps.linkIn_eq allocated.live outside allocated.foreign
      obtain ⟨toOutside, toNull⟩ := walking.toOutside rfl
      have atEnd : (passed ++ [fromNode]).getLast? = some fromNode := by
        rw [List.getLast?_append, List.getLast?_singleton, Option.some_or]
      have passedItems : (passed ++ [fromNode]).map linked.item = front ++ [fromStop] := by
        rw [sameNodes.item, List.map_append, walking.passedItems, List.map_singleton,
          allocated.item]
      have rejoined : passed ++ fromNode :: curr :: after =
          passed ++ [fromNode] ++ curr :: after := by
        rw [List.append_assoc, List.singleton_append]
      rw [List.head?_cons] at made
      rw [walking.prev, made]
      refine ⟨linked, { cursor with prev := some fromNode, fromInserted := true },
        passed ++ [fromNode], rfl, sameNodes, ?_⟩
      exact
        { keeps := by
            rw [← rejoined]
            exact keeps
          passedItems := passedItems
          restItems := by
            rw [sameNodes.item]
            exact walking.restItems
          prev := atEnd.symm
          curr := walking.curr
          fromInserted := ⟨fun _ => nofun, fun _ => rfl⟩
          toInserted := walking.toInserted
          placed := ⟨passed ++ [fromNode], [], (List.append_nil _).symm, atEnd, passedItems⟩
          toOutside := fun _ => by
            rw [← rejoined]
            refine ⟨?_, ?_⟩
            · simp only [List.mem_append, List.mem_cons, not_or] at toOutside ⊢
              exact ⟨toOutside.1, different.symm, toOutside.2⟩
            · rw [frame toNode different.symm
                (fun member => toOutside (List.mem_append_left _ member))]
              exact toNull
          order := fun _ => nofun
          within := fun node member => by
            rw [← rejoined] at member
            rcases mem_insert_cases member with rfl | old
            · exact List.mem_cons_self
            · exact walking.within node old }
  · have skipped : ¬(cursor.fromInserted = false ∧ Reaches direction stop fromStop) := by
      rw [flag]
      exact reached
    rw [placeFrom, if_neg skipped, insertFrom, if_neg reached]
    exact ⟨heap, cursor, passed, rfl, ⟨rfl, rfl⟩, walking⟩

theorem placeTo_walking {front following : List FloorNode} {fromInserted : FromInserted}
    (allocated : Allocated heap queues car toNode toStop) (different : fromNode ≠ toNode)
    (dealt : fromInserted ≠ .no)
    (walking : Walking heap queues car fromNode toNode cursor passed (curr :: after)
      { passed := front, fromInserted := fromInserted, toInserted := false
        rest := stop :: following }) :
    ∃ placed next nodes,
      placeTo heap car toStop stop toNode curr cursor = some (placed, next) ∧
      NodeHeap.SameNodes placed heap ∧
      Walking placed queues car fromNode toNode next nodes (curr :: after)
        { passed := if stop = toStop then front else front ++ [toStop]
          fromInserted := fromInserted
          toInserted := true
          rest := stop :: following } := by
  by_cases same : stop = toStop
  · rw [placeTo, if_pos same, if_pos same]
    refine ⟨heap, { cursor with toInserted := true }, passed, rfl, ⟨rfl, rfl⟩, ?_⟩
    exact { walking with toInserted := rfl, toOutside := nofun, order := fun _ => dealt }
  · obtain ⟨outside, _⟩ := walking.toOutside rfl
    obtain ⟨linked, made, keeps, sameNodes, _⟩ :=
      walking.keeps.linkIn_eq allocated.live outside allocated.foreign
    have rejoined : passed ++ toNode :: curr :: after = passed ++ [toNode] ++ curr :: after := by
      rw [List.append_assoc, List.singleton_append]
    rw [List.head?_cons] at made
    rw [placeTo, if_neg same, if_neg same, walking.prev, made]
    refine ⟨linked, { cursor with prev := some toNode, toInserted := true },
      passed ++ [toNode], rfl, sameNodes, ?_⟩
    exact
      { keeps := by
          rw [← rejoined]
          exact keeps
        passedItems := by
          rw [sameNodes.item, List.map_append, walking.passedItems, List.map_singleton,
            allocated.item]
        restItems := by
          rw [sameNodes.item]
          exact walking.restItems
        prev := by rw [List.getLast?_append, List.getLast?_singleton, Option.some_or]
        curr := walking.curr
        fromInserted := walking.fromInserted
        toInserted := rfl
        placed := by
          have placed := walking.placed
          cases fromInserted with
          | no => exact absurd rfl dealt
          | duplicate =>
              rw [Placed, ← rejoined]
              simp only [Placed, List.mem_append, List.mem_cons, not_or] at placed ⊢
              exact ⟨placed.1, different, placed.2⟩
          | linked upTo =>
              obtain ⟨first, second, split, last, items⟩ := placed
              refine ⟨first, second ++ [toNode], ?_, last, ?_⟩
              · rw [split, List.append_assoc]
              · rw [sameNodes.item]
                exact items
        toOutside := nofun
        order := fun _ => dealt
        within := fun node member => by
          rw [← rejoined] at member
          rcases mem_insert_cases member with rfl | old
          · exact List.mem_cons_of_mem fromNode List.mem_cons_self
          · exact walking.within node old }

/-- One round of the loop that goes on. -/
theorem walking_advance {front following : List FloorNode} {fromInserted : FromInserted}
    (walking : Walking heap queues car fromNode toNode cursor passed (curr :: after)
      { passed := front, fromInserted := fromInserted, toInserted := false
        rest := stop :: following }) :
    heap.follow curr = some after.head? ∧
      Walking heap queues car fromNode toNode
        { cursor with prev := some curr, curr := after.head? } (passed ++ [curr]) after
        { passed := front ++ [stop], fromInserted := fromInserted, toInserted := false
          rest := following } := by
  have rejoined : passed ++ [curr] ++ after = passed ++ curr :: after := by
    rw [List.append_assoc, List.singleton_append]
  have items := walking.restItems
  rw [List.map_cons, List.cons.injEq] at items
  refine ⟨walking.keeps.follow_eq (Function.update_self _ _ _), ?_⟩
  exact
    { keeps := by
        rw [rejoined]
        exact walking.keeps
      passedItems := by
        rw [List.map_append, walking.passedItems, List.map_singleton, items.1]
      restItems := items.2
      prev := by rw [List.getLast?_append, List.getLast?_singleton, Option.some_or]
      curr := rfl
      fromInserted := walking.fromInserted
      toInserted := walking.toInserted
      placed := by
        have placed := walking.placed
        cases fromInserted with
        | no =>
            rw [Placed, rejoined]
            exact placed
        | duplicate =>
            rw [Placed, rejoined]
            exact placed
        | linked upTo =>
            obtain ⟨first, second, split, last, items⟩ := placed
            exact ⟨first, second ++ [curr], by rw [split, List.append_assoc], last, items⟩
      toOutside := fun still => by
        rw [rejoined]
        exact walking.toOutside still
      order := nofun
      within := by
        rw [rejoined]
        exact walking.within }

/-- The loop over pointers walks as the recursion over the list does. -/
theorem insertLoop_walking {rest : List Node} {front : List FloorNode}
    {fromInserted : FromInserted} {fuel : Nat} (direction : Direction)
    (fromAllocated : Allocated heap queues car fromNode fromStop)
    (toAllocated : Allocated heap queues car toNode toStop) (different : fromNode ≠ toNode)
    (walking : Walking heap queues car fromNode toNode cursor passed rest
      { passed := front, fromInserted := fromInserted, toInserted := false
        rest := rest.map heap.item }) (enough : rest.length < fuel) :
    ∃ walked next nodes left,
      insertLoop car direction fromStop toStop fromNode toNode fuel heap cursor =
        some (walked, next) ∧
      NodeHeap.SameNodes walked heap ∧
      Walking walked queues car fromNode toNode next nodes left
        (walk direction fromStop toStop front fromInserted (rest.map heap.item)) := by
  induction rest generalizing heap cursor passed front fromInserted fuel with
  | nil =>
      obtain ⟨fuel, rfl⟩ := Nat.exists_eq_add_one_of_ne_zero (Nat.ne_of_gt enough)
      rw [insertLoop, walking.curr]
      exact ⟨heap, cursor, passed, [], rfl, ⟨rfl, rfl⟩, walking⟩
  | cons curr after ih =>
      obtain ⟨fuel, rfl⟩ := Nat.exists_eq_add_one_of_ne_zero
        (Nat.ne_of_gt (Nat.zero_lt_of_lt enough))
      have loaded : heap.load curr = some (heap.item curr) := by
        apply @NodeHeap.Keeps.load_eq _ _ _ _ _ _ car walking.keeps
        rw [Function.update_self]
        exact List.mem_append_right passed List.mem_cons_self
      rw [insertLoop, walking.curr, List.map_cons, walk]
      simp only [List.head?_cons, loaded, Option.bind_eq_bind, Option.bind_some]
      by_cases other : (heap.item curr).direction ≠ direction
      · rw [if_pos other, if_pos other]
        exact ⟨heap, cursor, passed, curr :: after, rfl, ⟨rfl, rfl⟩, walking⟩
      · rw [if_neg other, if_neg other]
        obtain ⟨placed, moved, nodes, made, same, walkingOn⟩ :=
          placeFrom_walking direction fromAllocated different walking
        generalize insertFrom direction fromStop (heap.item curr) front fromInserted = outcome
          at walkingOn ⊢
        simp only [made, Option.bind_some]
        have flag := walkingOn.fromInserted
        have pending := walkingOn.toInserted
        dsimp only at flag pending
        by_cases breaks : outcome.2 ≠ .no ∧ Reaches direction (heap.item curr) toStop
        · rw [if_pos ⟨flag.mpr breaks.1, pending, breaks.2⟩, if_pos breaks]
          obtain ⟨last, final, left, placedTo, sameTo, ends⟩ :=
            placeTo_walking (toAllocated.of_same same) different breaks.1 walkingOn
          refine ⟨last, final, left, curr :: after, placedTo, ?_, ends⟩
          exact ⟨sameTo.live.trans same.live, sameTo.item.trans same.item⟩
        · have continues : ¬(moved.fromInserted = true ∧ moved.toInserted = false ∧
              Reaches direction (heap.item curr) toStop) :=
            fun taken => breaks ⟨flag.mp taken.1, taken.2.2⟩
          rw [if_neg continues, if_neg breaks]
          obtain ⟨followed, onward⟩ := walking_advance walkingOn
          rw [List.length_cons] at enough
          rw [← same.item] at onward ⊢
          simp only [followed, Option.bind_some]
          obtain ⟨last, final, left, rest, looped, sameOn, ends⟩ :=
            ih (fromAllocated.of_same same) (toAllocated.of_same same) onward
              (Nat.lt_of_succ_lt_succ enough)
          refine ⟨last, final, left, rest, looped, ?_, ends⟩
          exact ⟨sameOn.live.trans same.live, sameOn.item.trans same.item⟩

/-- `to_node` is still to be placed: it and the rest can follow any node passed. -/
structure Unplaced (heap : QueueHeap Car Node) (queues : Car → List Node) (car : Car)
    (toNode : Node) (passed rest : List Node) : Prop where
  null : heap.next toNode = none
  leads : Segment heap.next rest.head? rest none
  live : ∀ node ∈ toNode :: rest, node ∈ heap.live
  outside : ∀ node ∈ toNode :: rest, node ∉ passed
  separate : toNode ∉ rest
  foreign : ∀ node ∈ toNode :: rest, ∀ other, other ≠ car → node ∉ queues other

omit [DecidableEq Node] in
theorem Walking.unplaced {rest : List Node} {walked : Walk}
    (walking : Walking heap queues car fromNode toNode cursor passed rest walked)
    (toAllocated : Allocated heap queues car toNode toStop)
    (pending : walked.toInserted = false) : Unplaced heap queues car toNode passed rest := by
  obtain ⟨outside, null⟩ := walking.toOutside pending
  obtain ⟨_, behind⟩ := walking.keeps.segment_of_split (Function.update_self car _ queues)
  have distinct := walking.keeps.nodup car
  rw [Function.update_self] at distinct
  refine
    { null := null
      leads := behind
      live := fun node member => ?_
      outside := fun node member inPassed => ?_
      separate := fun member => outside (List.mem_append_right passed member)
      foreign := fun node member => ?_ }
  · rcases List.mem_cons.mp member with rfl | inRest
    · exact toAllocated.live
    · exact walking.keeps.live_of_mem (List.mem_append_right passed inRest)
  · rcases List.mem_cons.mp member with rfl | inRest
    · exact outside (List.mem_append_left rest inPassed)
    · exact List.disjoint_of_nodup_append distinct inPassed inRest
  · rcases List.mem_cons.mp member with rfl | inRest
    · exact toAllocated.foreign
    · exact walking.keeps.foreign_of_mem (List.mem_append_right passed inRest)

/-- What `finishInsert` leaves: the list of the walk, made of the old nodes and the two. -/
def Finishes (heap : QueueHeap Car Node) (queues : Car → List Node) (car : Car)
    (fromNode toNode : Node) (result : Option (QueueHeap Car Node))
    (stops : List FloorNode) : Prop :=
  ∃ done nodes, result = some done ∧ done.Keeps (Function.update queues car nodes) ∧
    NodeHeap.SameNodes done heap ∧ nodes.map heap.item = stops ∧
    ∀ node ∈ nodes, node ∈ fromNode :: toNode :: queues car

theorem finishInsert_placed {rest : List Node} {walked : Walk}
    (walking : Walking heap queues car fromNode toNode cursor passed rest walked)
    (done : walked.toInserted = true) :
    Finishes heap queues car fromNode toNode (finishInsert heap car fromNode toNode cursor)
      (finishWalk fromStop toStop walked) := by
  have dealt := walking.order done
  have pending := walking.toInserted.trans done
  refine ⟨heap, passed ++ rest, ?_, walking.keeps, ⟨rfl, rfl⟩, ?_, walking.within⟩
  · simp only [finishInsert, walking.fromInserted.mpr dealt, pending, Bool.true_eq_false,
      if_false, Option.bind_eq_bind, Option.bind_some]
  · rw [List.map_append, walking.passedItems, walking.restItems, finishWalk]
    cases outcome : walked.fromInserted with
    | no => exact absurd outcome dealt
    | duplicate => rfl
    | linked upTo => exact (if_pos done).symm

/-- Neither was placed: both are linked in behind the nodes passed. -/
theorem finishInsert_no {front following : List FloorNode} {rest : List Node}
    (fromAllocated : Allocated heap queues car fromNode fromStop)
    (toAllocated : Allocated heap queues car toNode toStop) (different : fromNode ≠ toNode)
    (walking : Walking heap queues car fromNode toNode cursor passed rest
      { passed := front, fromInserted := .no, toInserted := false, rest := following }) :
    Finishes heap queues car fromNode toNode (finishInsert heap car fromNode toNode cursor)
      (front ++ fromStop :: toStop :: following) := by
  have unplaced := walking.unplaced toAllocated rfl
  have unflagged : cursor.fromInserted = false := by
    rw [← Bool.not_eq_true, walking.fromInserted, not_not]
  obtain ⟨fromOutside, fromNull⟩ := walking.placed
  have fromNotPassed : fromNode ∉ passed := fun member =>
    fromOutside (List.mem_append_left rest member)
  obtain ⟨stored, attached⟩ := walking.keeps.attach fromNull fromAllocated.live fromNotPassed
    fromAllocated.foreign
  have notLast (node : Node) (member : node ∈ toNode :: rest) : passed.getLast? ≠ some node :=
    fun last => unplaced.outside node member (List.mem_of_getLast? last)
  have fromNotTail : fromNode ∉ toNode :: rest := by
    intro member
    rcases List.mem_cons.mp member with same | inRest
    · exact different same
    · exact fromOutside (List.mem_append_right passed inRest)
  have atEnd : (passed ++ [fromNode]).getLast? = some fromNode := by
    rw [List.getLast?_append, List.getLast?_singleton, Option.some_or]
  rw [← List.append_nil (passed ++ [fromNode])] at attached
  obtain ⟨linked, made, keeps, same⟩ := attached.linkAfter_eq atEnd
    (by
      rw [NodeHeap.write_next_of_ne (notLast toNode List.mem_cons_self)]
      exact unplaced.null)
    (NodeHeap.segment_write unplaced.leads
      fun node member => notLast node (List.mem_cons_of_mem toNode member))
    (fun node member => by
      rw [NodeHeap.write_live]
      exact unplaced.live node member)
    (fun node member inFront => by
      rcases List.mem_append.mp inFront with old | new
      · exact unplaced.outside node member old
      · rw [List.mem_singleton.mp new] at member
        exact fromNotTail member)
    unplaced.separate unplaced.foreign
  have joined : passed ++ [fromNode] ++ toNode :: rest = passed ++ fromNode :: toNode :: rest := by
    rw [List.append_assoc, List.singleton_append]
  rw [joined] at keeps
  refine ⟨linked, _, ?_, keeps, ⟨same.live.trans (NodeHeap.write_live _ _),
    same.item.trans (NodeHeap.write_item _ _)⟩, ?_, fun node member => ?_⟩
  · have pending : cursor.toInserted = false := walking.toInserted
    simp only [finishInsert, unflagged, pending, if_true, walking.prev, walking.curr, stored,
      Option.bind_eq_bind, Option.bind_some]
    exact made
  · rw [List.map_append, List.map_cons, List.map_cons, walking.passedItems, walking.restItems,
      fromAllocated.item, toAllocated.item]
  · rcases mem_insert_cases member with rfl | old
    · exact List.mem_cons_self
    · rcases mem_insert_cases old with rfl | older
      · exact List.mem_cons_of_mem fromNode List.mem_cons_self
      · exact walking.within node older

/-- `from_node` was dropped: the two are linked to each other and to no list. -/
theorem finishInsert_duplicate {front following : List FloorNode} {rest : List Node}
    (fromAllocated : Allocated heap queues car fromNode fromStop)
    (toAllocated : Allocated heap queues car toNode toStop)
    (walking : Walking heap queues car fromNode toNode cursor passed rest
      { passed := front, fromInserted := .duplicate, toInserted := false, rest := following }) :
    Finishes heap queues car fromNode toNode (finishInsert heap car fromNode toNode cursor)
      (front ++ following) := by
  have flagged : cursor.fromInserted = true := walking.fromInserted.mpr nofun
  have pending : cursor.toInserted = false := walking.toInserted
  have nowhere (node : Node) (outside : node ∉ passed ++ rest)
      (foreign : ∀ other, other ≠ car → node ∉ queues other) :
      Outside (Function.update queues car (passed ++ rest)) node := by
    intro other
    by_cases same : other = car
    · subst other
      rw [Function.update_self]
      exact outside
    · rw [Function.update_of_ne same]
      exact foreign other same
  obtain ⟨toOutside, _⟩ := walking.toOutside rfl
  have first := walking.keeps.setNext_outside (some toNode)
    (nowhere fromNode walking.placed fromAllocated.foreign)
  have second := first.setNext_outside rest.head? (nowhere toNode toOutside toAllocated.foreign)
  refine ⟨_, passed ++ rest, ?_, second, ⟨rfl, rfl⟩, ?_, walking.within⟩
  · have storeFrom : heap.store car (some toNode) (some fromNode) =
        some (heap.setNext fromNode (some toNode)) := if_pos fromAllocated.live
    simp only [finishInsert, flagged, pending, Bool.true_eq_false, if_false, if_true,
      walking.curr, NodeHeap.linkAfter, storeFrom, Option.bind_eq_bind, Option.bind_some]
    exact if_pos toAllocated.live
  · rw [List.map_append, walking.passedItems, walking.restItems]

/-- `from_node` was placed and `to_node` was not: what stands between is cut off. -/
theorem finishInsert_linked {front following upTo : List FloorNode} {rest : List Node}
    (toAllocated : Allocated heap queues car toNode toStop)
    (walking : Walking heap queues car fromNode toNode cursor passed rest
      { passed := front, fromInserted := .linked upTo, toInserted := false, rest := following }) :
    Finishes heap queues car fromNode toNode (finishInsert heap car fromNode toNode cursor)
      (upTo ++ toStop :: following) := by
  have unplaced := walking.unplaced toAllocated rfl
  have flagged : cursor.fromInserted = true := walking.fromInserted.mpr nofun
  have pending : cursor.toInserted = false := walking.toInserted
  obtain ⟨first, second, rfl, last, items⟩ := walking.placed
  have keeps := walking.keeps
  rw [List.append_assoc] at keeps
  obtain ⟨linked, made, linkedKeeps, same⟩ := keeps.linkAfter_eq last unplaced.null unplaced.leads
    unplaced.live
    (fun node member inFirst =>
      unplaced.outside node member (List.mem_append_left second inFirst))
    unplaced.separate unplaced.foreign
  refine ⟨linked, first ++ toNode :: rest, ?_, linkedKeeps, same, ?_, fun node member => ?_⟩
  · simp only [finishInsert, flagged, pending, walking.curr, Bool.true_eq_false, if_false,
      if_true, Option.bind_eq_bind, Option.bind_some]
    exact made
  · rw [List.map_append, List.map_cons, items, toAllocated.item, walking.restItems]
  · rcases mem_insert_cases member with rfl | old
    · exact List.mem_cons_of_mem fromNode List.mem_cons_self
    · apply walking.within
      rw [List.append_assoc]
      rcases List.mem_append.mp old with inFirst | inRest
      · exact List.mem_append_left _ inFirst
      · exact List.mem_append_right first (List.mem_append_right second inRest)

theorem finishInsert_eq {rest : List Node} {walked : Walk}
    (fromAllocated : Allocated heap queues car fromNode fromStop)
    (toAllocated : Allocated heap queues car toNode toStop) (different : fromNode ≠ toNode)
    (walking : Walking heap queues car fromNode toNode cursor passed rest walked) :
    Finishes heap queues car fromNode toNode (finishInsert heap car fromNode toNode cursor)
      (finishWalk fromStop toStop walked) := by
  obtain ⟨front, fromInserted, toInserted, following⟩ := walked
  cases toInserted with
  | true => exact finishInsert_placed walking rfl
  | false =>
      cases fromInserted with
      | no => exact finishInsert_no fromAllocated toAllocated different walking
      | duplicate => exact finishInsert_duplicate fromAllocated toAllocated walking
      | linked upTo => exact finishInsert_linked toAllocated walking

omit [DecidableEq Car] in
theorem headStop_eq (car : Car) (keeps : heap.Keeps queues) :
    headStop heap car = some ((queues car).map heap.item).head? := by
  rw [headStop, keeps.head_eq]
  cases entries : queues car with
  | nil => rfl
  | cons node rest =>
      have member : node ∈ queues car := by
        rw [entries]
        exact List.mem_cons_self
      rw [List.head?_cons]
      dsimp only
      rw [keeps.load_eq member]
      rfl

/-- The car travels the other way: both nodes go to the end of the queue. -/
theorem appendBoth_eq (keeps : heap.Keeps queues)
    (fromAllocated : Allocated heap queues car fromNode fromStop)
    (toAllocated : Allocated heap queues car toNode toStop) (different : fromNode ≠ toNode)
    (fromOutside : fromNode ∉ queues car) (toOutside : toNode ∉ queues car)
    (fromNull : heap.next fromNode = none) (toNull : heap.next toNode = none) :
    Finishes heap queues car fromNode toNode (appendBoth heap car fromNode toNode)
      ((queues car).map heap.item ++ [fromStop, toStop]) := by
  have whole : heap.Keeps (Function.update queues car (queues car ++ [])) := by
    rw [List.append_nil, Function.update_eq_self]
    exact keeps
  obtain ⟨storedFrom, attachedFrom⟩ :=
    whole.attach fromNull fromAllocated.live fromOutside fromAllocated.foreign
  have toOutsideBoth : toNode ∉ queues car ++ [fromNode] := by
    intro member
    rcases List.mem_append.mp member with old | new
    · exact toOutside old
    · exact different (List.mem_singleton.mp new).symm
  rw [← List.append_nil (queues car ++ [fromNode])] at attachedFrom
  obtain ⟨storedTo, attachedTo⟩ := attachedFrom.attach
    (by
      rw [NodeHeap.write_next_of_ne fun last => toOutside (List.mem_of_getLast? last)]
      exact toNull)
    (by
      rw [NodeHeap.write_live]
      exact toAllocated.live)
    toOutsideBoth toAllocated.foreign
  have atEnd : (queues car ++ [fromNode]).getLast? = some fromNode := by
    rw [List.getLast?_append, List.getLast?_singleton, Option.some_or]
  rw [atEnd] at storedTo attachedTo
  refine ⟨_, _, ?_, attachedTo, ?_, ?_, fun node member => ?_⟩
  · rw [appendBoth, keeps.append_eq, storedFrom]
    exact storedTo
  · exact ⟨(NodeHeap.write_live _ _).trans (NodeHeap.write_live _ _),
      (NodeHeap.write_item _ _).trans (NodeHeap.write_item _ _)⟩
  · simp only [List.map_append, List.map_cons, List.map_nil, fromAllocated.item,
      toAllocated.item, List.append_assoc, List.singleton_append]
  · simp only [List.mem_append, List.mem_cons] at member ⊢
    tauto

structure Supplied (before heap : QueueHeap Car Node) (queues : Car → List Node) (car : Car)
    (fromNode toNode : Node) (fromStop toStop : FloorNode) : Prop where
  keeps : heap.Keeps queues
  fromAllocated : Allocated heap queues car fromNode fromStop
  toAllocated : Allocated heap queues car toNode toStop
  fromOutside : Outside queues fromNode
  toOutside : Outside queues toNode
  fromNull : heap.next fromNode = none
  toNull : heap.next toNode = none
  item : ∀ node, node ≠ fromNode → node ≠ toNode → heap.item node = before.item node
  live : heap.live = insert toNode (insert fromNode before.live)

omit [DecidableEq Car] in
theorem malloc_supplied (keeps : heap.Keeps queues) (fromFresh : fromNode ∉ heap.live)
    (toFresh : toNode ∉ heap.live) (different : fromNode ≠ toNode) :
    Supplied heap ((heap.malloc fromNode fromStop).malloc toNode toStop) queues car
      fromNode toNode fromStop toStop := by
  have toStillFresh : toNode ∉ (heap.malloc fromNode fromStop).live := by
    intro member
    rcases Finset.mem_insert.mp member with same | old
    · exact different same.symm
    · exact toFresh old
  have fromOutside := keeps.outside_of_fresh fromFresh
  have toOutside := keeps.outside_of_fresh toFresh
  exact
    { keeps := (keeps.malloc fromStop fromFresh).malloc toStop toStillFresh
      fromAllocated :=
        { live := Finset.mem_insert_of_mem (Finset.mem_insert_self _ _)
          item := by
            rw [NodeHeap.malloc_item_of_ne different]
            exact Function.update_self _ _ _
          foreign := fun other _ => fromOutside other }
      toAllocated :=
        { live := Finset.mem_insert_self _ _
          item := Function.update_self _ _ _
          foreign := fun other _ => toOutside other }
      fromOutside := fromOutside
      toOutside := toOutside
      fromNull := by
        rw [NodeHeap.malloc_next_of_ne different]
        exact Function.update_self _ _ _
      toNull := Function.update_self _ _ _
      item := fun node notFrom notTo => by
        rw [NodeHeap.malloc_item_of_ne notTo, NodeHeap.malloc_item_of_ne notFrom]
      live := rfl }

omit [DecidableEq Car] in
theorem Supplied.items {before : QueueHeap Car Node}
    (supplied : Supplied before heap queues car fromNode toNode fromStop toStop) (other : Car) :
    (queues other).map heap.item = (queues other).map before.item := by
  apply List.map_congr_left
  intro node member
  apply supplied.item
  · rintro rfl
    exact supplied.fromOutside other member
  · rintro rfl
    exact supplied.toOutside other member

/-- Both ways of insertion leave the queue that the lists give. -/
theorem linkFloors_finishes {before : QueueHeap Car Node} {data : CarData} {call : Call}
    (supplied : Supplied before heap queues car fromNode toNode (fromStopOf call)
      (toStopOf call)) (different : fromNode ≠ toNode) :
    Finishes heap queues car fromNode toNode
      (linkFloors heap car
        (carDirection data ((queues car).map before.item) (callDirection call)) call
        fromNode toNode)
      (insertFloors data ((queues car).map before.item) call) := by
  rw [insertFloors, linkFloors]
  by_cases along : carDirection data ((queues car).map before.item) (callDirection call) =
      callDirection call
  · rw [if_pos along, if_pos along, along, ← supplied.items car]
    have start : Walking heap queues car fromNode toNode
        { prev := none, curr := heap.head car, fromInserted := false, toInserted := false }
        [] (queues car)
        { passed := [], fromInserted := .no, toInserted := false
          rest := (queues car).map heap.item } :=
      { keeps := by
          rw [List.nil_append, Function.update_eq_self]
          exact supplied.keeps
        passedItems := rfl
        restItems := rfl
        prev := rfl
        curr := supplied.keeps.head_eq car
        fromInserted := ⟨nofun, fun dealt => absurd rfl dealt⟩
        toInserted := rfl
        placed := ⟨supplied.fromOutside car, supplied.fromNull⟩
        toOutside := fun _ => ⟨supplied.toOutside car, supplied.toNull⟩
        order := nofun
        within := fun node member =>
          List.mem_cons_of_mem fromNode (List.mem_cons_of_mem toNode member) }
    have enough : (queues car).length < heap.live.card + 1 :=
      Nat.lt_succ_of_le (supplied.keeps.length_le car)
    obtain ⟨walked, next, passed, rest, looped, same, walking⟩ :=
      insertLoop_walking (callDirection call) supplied.fromAllocated supplied.toAllocated
        different start enough
    obtain ⟨done, nodes, made, keeps, sameDone, items, within⟩ :=
      finishInsert_eq (supplied.fromAllocated.of_same same) (supplied.toAllocated.of_same same)
        different walking
    simp only [looped, Option.bind_eq_bind, Option.bind_some]
    rw [same.item] at items
    refine ⟨done, nodes, made, keeps, ?_, items, within⟩
    exact ⟨sameDone.live.trans same.live, sameDone.item.trans same.item⟩
  · rw [if_neg along, if_neg along, ← supplied.items car]
    exact appendBoth_eq supplied.keeps supplied.fromAllocated supplied.toAllocated different
      (supplied.fromOutside car) (supplied.toOutside car) supplied.fromNull supplied.toNull

theorem carDirection_toList {data : CarData} {stops : List FloorNode} {direction : Direction} :
    carDirection data stops.head?.toList direction = carDirection data stops direction := by
  cases stops <;> rfl

/-- The pointer program sends what the list program sends and leaves its queue. -/
theorem insertFloorsIntoQueue_eq (car : Car) (data : CarData) (call : Call)
    (keeps : heap.Keeps queues)
    (fromFresh : fromNode ∉ heap.live) (toFresh : toNode ∉ heap.live)
    (different : fromNode ≠ toNode) :
    ∃ done nodes,
      insertFloorsIntoQueue heap car data call fromNode toNode =
        some (done,
          (Controller.insertFloorsIntoQueue data ((queues car).map heap.item) call).sent) ∧
      done.Keeps (Function.update queues car nodes) ∧
      nodes.map done.item =
        (Controller.insertFloorsIntoQueue data ((queues car).map heap.item) call).queue ∧
      (∀ other, (queues other).map done.item = (queues other).map heap.item) ∧
      done.live = insert toNode (insert fromNode heap.live) ∧
      ∀ node ∈ nodes, node ∈ fromNode :: toNode :: queues car := by
  have supplied := @malloc_supplied _ _ _ heap queues car fromNode toNode (fromStopOf call)
    (toStopOf call) keeps fromFresh toFresh different
  obtain ⟨done, nodes, made, doneKeeps, same, items, within⟩ :=
    @linkFloors_finishes _ _ _ _ _ queues car fromNode toNode heap data call supplied different
  rw [← same.item] at items
  have announced : headStop done car =
      some (insertFloors data ((queues car).map heap.item) call).head? := by
    rw [headStop_eq car doneKeeps, Function.update_self, items]
  refine ⟨done, nodes, ?_, doneKeeps, items, fun other => ?_, same.live.trans supplied.live, within⟩
  · unfold insertFloorsIntoQueue Controller.insertFloorsIntoQueue
    simp only [headStop_eq car keeps, carDirection_toList, made, announced, Option.bind_eq_bind,
      Option.bind_some]
    cases insertFloors data ((queues car).map heap.item) call with
    | nil => rfl
    | cons head rest =>
        rw [List.head?_cons]
        dsimp only
        split <;> rfl
  · rw [same.item]
    exact supplied.items other

end Walk

end Cab403.Elevator.QueueNodes
