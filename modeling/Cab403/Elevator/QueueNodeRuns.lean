/-
Runs of the queue sections over one heap: calls for any car, reports of any car and
cars that leave, in any order. Insertions and reports run under the `queue_mutex` of
their car. A handler that leaves frees the queue and the record without it, and without
asking whether the control loop has selected the car: an access to such a record yields
`none`. Where no car leaves while it is selected, the heap always holds the queues as
lists that share no node; what is allocated besides are nodes that an insertion left in
no queue.
-/

import Cab403.Elevator.QueueNodes
import Cab403.Library.ActionRuns

namespace Cab403.Elevator.QueueNodes

open ActionRuns Controller CText LinkedChain

variable {Car Node : Type} [DecidableEq Car] [DecidableEq Node]

/-! ### The system -/

structure Queues (Car Node : Type) where
  heap : QueueHeap Car Node
  sent : List (Car × Token 3)
  /-- The records that their handlers have freed. -/
  freed : Finset Car
  /-- `selected_car` of the control loop. -/
  selected : Option Car

inductive QueueAction (Car Node : Type) where
  /-- `select_best_car` returns this car. -/
  | select (car : Car)
  /-- The insertion, with the addresses that its two `malloc` return. -/
  | call (car : Car) (data : CarData) (call : Call) (fromNode toNode : Node)
  /-- The answer names the car. -/
  | reply (car : Car)
  | report (car : Car) (data : CarData)
  | leave (car : Car)

def sentTo (car : Car) (sent : Option (Token 3)) : List (Car × Token 3) :=
  (sent.map fun floor => (car, floor)).toList

/-- The memory, for a section that goes through the record of `car`. -/
def Queues.access (state : Queues Car Node) (car : Car) : Option (QueueHeap Car Node) :=
  if car ∈ state.freed then none else some state.heap

def queueStep (state : Queues Car Node) : QueueAction Car Node → Option (Queues Car Node)
  | .select car => do
      let _ ← state.access car
      return { state with selected := some car }
  | .call car data call fromNode toNode => do
      let heap ← state.access car
      let (heap, sent) ← insertFloorsIntoQueue heap car data call fromNode toNode
      return { state with heap := heap, sent := state.sent ++ sentTo car sent }
  | .reply car => do
      let _ ← state.access car
      return { state with selected := none }
  | .report car data => do
      let heap ← state.access car
      let (heap, sent) ← serveReport heap car data
      return { state with heap := heap, sent := state.sent ++ sentTo car sent }
  | .leave car => do
      let heap ← state.access car
      let heap ← freeFloorQueue heap car
      -- the dangling head goes with the record
      return { state with heap := heap.setHead car none, freed := insert car state.freed }

def FreshNodes (state : Queues Car Node) : QueueAction Car Node → Prop
  | .call _ _ _ fromNode toNode =>
      fromNode ∉ state.heap.live ∧ toNode ∉ state.heap.live ∧ fromNode ≠ toNode
  | _ => True

/-- The control loop selects a car that is still there, inserts into its queue and answers;
the handler of a car ends when the car leaves. -/
def InOrder (state : Queues Car Node) : QueueAction Car Node → Prop
  | .select car => state.selected = none ∧ car ∉ state.freed
  | .call car _ _ _ _ => state.selected = some car
  | .reply car => state.selected = some car
  | .report car _ => car ∉ state.freed
  | .leave car => car ∉ state.freed

/-- No car leaves between its selection and the answer. -/
def KeepsSelected (state : Queues Car Node) : QueueAction Car Node → Prop
  | .leave car => state.selected ≠ some car
  | _ => True

instance (state : Queues Car Node) (action : QueueAction Car Node) :
    Decidable (FreshNodes state action) := by
  unfold FreshNodes
  split <;> infer_instance

instance (state : Queues Car Node) (action : QueueAction Car Node) :
    Decidable (InOrder state action) := by
  unfold InOrder
  split <;> infer_instance

instance (state : Queues Car Node) (action : QueueAction Car Node) :
    Decidable (KeepsSelected state action) := by
  unfold KeepsSelected
  split <;> infer_instance

/-- Nothing allocated, over any contents of the memory. -/
def emptyQueues (next : Node → Option Node) (item : Node → FloorNode) : Queues Car Node :=
  { heap := { head := fun _ => none, next := next, item := item, live := ∅ }
    sent := []
    freed := ∅
    selected := none }

/-- The queues as lists, with the number of nodes that no list holds any more. -/
structure Stops (Car : Type) where
  queue : Car → List FloorNode
  sent : List (Car × Token 3)
  lost : Nat

def Stops.update (stops : Stops Car) (car : Car) (result : QueueUpdate) (lost : Nat) : Stops Car :=
  { queue := Function.update stops.queue car result.queue
    sent := stops.sent ++ sentTo car result.sent
    lost := stops.lost + lost }

def stopsStep (stops : Stops Car) : QueueAction Car Node → Stops Car
  | .call car data call _ _ =>
      let result := Controller.insertFloorsIntoQueue data (stops.queue car) call
      stops.update car result ((stops.queue car).length + 2 - result.queue.length)
  | .report car data => stops.update car (serveArrival data (stops.queue car)) 0
  | .leave car => { stops with queue := Function.update stops.queue car [] }
  | _ => stops

def noStops : Stops Car := { queue := fun _ => [], sent := [], lost := 0 }

omit [DecidableEq Node] in
theorem access_eq {state : Queues Car Node} {car : Car} (there : car ∉ state.freed) :
    state.access car = some state.heap :=
  if_neg there

/-! ### Removing and freeing -/

section Removing

variable {heap : QueueHeap Car Node} {queues : Car → List Node} {car : Car}

theorem popHead_eq {node : Node} {rest : List Node} (keeps : heap.Keeps queues)
    (entries : queues car = node :: rest) :
    ∃ done, popHead heap car node = some done ∧ done.Keeps (Function.update queues car rest) ∧
      done.item = heap.item ∧ done.live = heap.live.erase node := by
  have member : node ∈ queues car := by
    rw [entries]
    exact List.mem_cons_self
  have whole : heap.Keeps (Function.update queues car (node :: rest)) := by
    rw [← entries, Function.update_eq_self]
    exact keeps
  obtain ⟨popped, outside⟩ := whole.pop
  have split : queues car = [] ++ node :: rest := entries
  have freed : (heap.setHead car rest.head?).free node =
      some { heap.setHead car rest.head? with live := heap.live.erase node } :=
    if_pos (keeps.allocated car node member)
  refine ⟨_, ?_, popped.erase_outside outside, rfl, rfl⟩
  rw [popHead, keeps.follow_eq split]
  exact freed

/-- What a section leaves of a queue: its nodes are old ones, the others are freed. -/
structure Leaves (heap : QueueHeap Car Node) (queues : Car → List Node) (car : Car)
    (done : QueueHeap Car Node) (nodes : List Node) : Prop where
  keeps : done.Keeps (Function.update queues car nodes)
  item : done.item = heap.item
  live : ∀ node, node ∈ done.live ↔ node ∈ heap.live ∧ (node ∈ queues car → node ∈ nodes)
  within : ∀ node ∈ nodes, node ∈ queues car

omit [DecidableEq Node] in
theorem leaves_self (keeps : heap.Keeps queues) : Leaves heap queues car heap (queues car) := by
  refine ⟨?_, rfl, fun node => ⟨fun live => ⟨live, id⟩, And.left⟩, fun node => id⟩
  rw [Function.update_eq_self]
  exact keeps

theorem Leaves.pop {done : QueueHeap Car Node} {node : Node} {rest : List Node}
    (leaves : Leaves heap queues car done (node :: rest)) :
    ∃ next, popHead done car node = some next ∧ Leaves heap queues car next rest := by
  obtain ⟨next, popped, keeps, item, live⟩ :=
    popHead_eq leaves.keeps (Function.update_self car (node :: rest) queues)
  have distinct := leaves.keeps.nodup car
  rw [Function.update_self, List.nodup_cons] at distinct
  rw [Function.update_idem] at keeps
  refine ⟨next, popped, keeps, item.trans leaves.item, fun other => ?_, fun other member =>
    leaves.within other (List.mem_cons_of_mem node member)⟩
  rw [live, Finset.mem_erase, leaves.live]
  constructor
  · intro kept
    rcases kept with ⟨different, alive, inside⟩
    refine ⟨alive, fun old => ?_⟩
    exact (List.mem_cons.mp (inside old)).resolve_left different
  · intro kept
    rcases kept with ⟨alive, inside⟩
    refine ⟨?_, alive, fun old => List.mem_cons_of_mem node (inside old)⟩
    rintro rfl
    exact distinct.1 (inside (leaves.within other List.mem_cons_self))

theorem popSame_leaves {done : QueueHeap Car Node} {nodes : List Node} {currentFloor : Token 3}
    {head : FloorNode} (leaves : Leaves heap queues car done nodes) :
    ∃ next left, popSame done car currentFloor = some next ∧ Leaves heap queues car next left ∧
      left.map heap.item = popServed currentFloor (head :: nodes.map heap.item) := by
  have first := leaves.keeps.head_eq car
  rw [Function.update_self] at first
  cases nodes with
  | nil =>
      rw [popSame, first]
      exact ⟨done, [], rfl, leaves, rfl⟩
  | cons node rest =>
      have loaded : done.load node = some (heap.item node) := by
        rw [← leaves.item]
        exact if_pos (leaves.keeps.live_of_mem List.mem_cons_self)
      rw [popSame, first, List.head?_cons]
      simp only [loaded, Option.bind_eq_bind, Option.bind_some]
      rw [List.map_cons, popServed]
      by_cases same : (heap.item node).floor = currentFloor
      · rw [if_pos same, if_pos same]
        obtain ⟨next, popped, leavesNext⟩ := leaves.pop
        exact ⟨next, rest, popped, leavesNext, rfl⟩
      · rw [if_neg same, if_neg same]
        exact ⟨done, node :: rest, rfl, leaves, rfl⟩

theorem serveReport_eq (car : Car) (data : CarData) (keeps : heap.Keeps queues) :
    ∃ done nodes,
      serveReport heap car data =
        some (done, (serveArrival data ((queues car).map heap.item)).sent) ∧
      Leaves heap queues car done nodes ∧
      nodes.map heap.item = (serveArrival data ((queues car).map heap.item)).queue := by
  by_cases arrival : ReportsArrival data
  · rw [serveReport, if_pos arrival, keeps.head_eq]
    cases entries : queues car with
    | nil =>
        refine ⟨heap, [], rfl, ?_, rfl⟩
        rw [← entries]
        exact leaves_self keeps
    | cons node rest =>
        have start : Leaves heap queues car heap (node :: rest) := by
          rw [← entries]
          exact leaves_self keeps
        have loaded : heap.load node = some (heap.item node) :=
          if_pos (start.keeps.live_of_mem List.mem_cons_self)
        rw [List.head?_cons, List.map_cons, serveArrival]
        simp only [loaded, Option.bind_eq_bind, Option.bind_some]
        by_cases served : (heap.item node).floor = data.currentFloor
        · rw [if_pos served, if_pos ⟨arrival, served⟩]
          obtain ⟨popped, made, leaves⟩ := start.pop
          obtain ⟨done, left, madeSame, leavesDone, items⟩ :=
            @popSame_leaves _ _ _ _ _ _ _ _ _ data.currentFloor (heap.item node) leaves
          refine ⟨done, left, ?_, leavesDone, items⟩
          have announced := headStop_eq car leavesDone.keeps
          rw [Function.update_self, leavesDone.item, items] at announced
          simp only [made, madeSame, announced, Option.bind_some]
          rfl
        · rw [if_neg served, if_neg (fun both => served both.2)]
          exact ⟨heap, node :: rest, rfl, start, rfl⟩
  · rw [serveReport, if_neg arrival]
    have idle : serveArrival data ((queues car).map heap.item) =
        { queue := (queues car).map heap.item, sent := none } := by
      cases (queues car).map heap.item with
      | nil => rfl
      | cons head rest => exact if_neg fun both => arrival both.1
    rw [idle]
    exact ⟨heap, queues car, rfl, leaves_self keeps, rfl⟩

theorem freeFloorQueue_leaves (car : Car) (keeps : heap.Keeps queues) :
    ∃ done, freeFloorQueue heap car = some done ∧
      Leaves heap queues car (done.setHead car none) [] := by
  have whole : heap.Keeps (Function.update queues car (queues car)) := by
    rw [Function.update_eq_self]
    exact keeps
  have freed := NodeHeap.freeList_eq (keeps.visits car)
    (fun node member => keeps.allocated car node member) (keeps.length_le car)
  refine ⟨_, freed, whole.drop, rfl, fun node => ?_, nofun⟩
  change node ∈ heap.live \ (queues car).toFinset ↔ _
  rw [Finset.mem_sdiff, List.mem_toFinset]
  simp only [List.not_mem_nil, imp_false]

end Removing

/-! ### Every run -/

/-- The nodes of each queue, and those that are allocated and in no queue. -/
structure Represents (state : Queues Car Node) (stops : Stops Car) (nodes : Car → List Node)
    (leaked : Finset Node) : Prop where
  keeps : state.heap.Keeps nodes
  items : ∀ car, (nodes car).map state.heap.item = stops.queue car
  sent : state.sent = stops.sent
  lost : leaked.card = stops.lost
  live : ∀ node, node ∈ state.heap.live ↔ node ∈ leaked ∨ ∃ car, node ∈ nodes car
  outside : ∀ node ∈ leaked, Outside nodes node

section Runs

variable {state : Queues Car Node} {stops : Stops Car} {nodes : Car → List Node}
  {leaked : Finset Node}

omit [DecidableEq Node] in
theorem mem_update_iff {queues : Car → List Node} {car : Car} {left : List Node} {node : Node} :
    (∃ other, node ∈ Function.update queues car left other) ↔
      node ∈ left ∨ ∃ other, other ≠ car ∧ node ∈ queues other := by
  constructor
  · intro somewhere
    rcases somewhere with ⟨other, member⟩
    by_cases same : other = car
    · subst other
      rw [Function.update_self] at member
      exact Or.inl member
    · rw [Function.update_of_ne same] at member
      exact Or.inr ⟨other, same, member⟩
  · intro somewhere
    rcases somewhere with inLeft | ⟨other, same, member⟩
    · refine ⟨car, ?_⟩
      rw [Function.update_self]
      exact inLeft
    · refine ⟨other, ?_⟩
      rw [Function.update_of_ne same]
      exact member

omit [DecidableEq Node] in
/-- A queue that keeps some of its nodes, the others freed, leaks nothing. -/
theorem Represents.leaves {car : Car} {done : QueueHeap Car Node} {left : List Node}
    {queue : List FloorNode} (represents : Represents state stops nodes leaked)
    (leaves : Leaves state.heap nodes car done left) (items : left.map state.heap.item = queue)
    (sent : List (Car × Token 3)) (freed : Finset Car) (selected : Option Car) :
    Represents { heap := done, sent := state.sent ++ sent, freed := freed, selected := selected }
      { queue := Function.update stops.queue car queue, sent := stops.sent ++ sent
        lost := stops.lost } (Function.update nodes car left) leaked :=
  { keeps := leaves.keeps
    items := fun other => by
      dsimp only
      rw [leaves.item]
      by_cases same : other = car
      · subst other
        rw [Function.update_self, Function.update_self]
        exact items
      · rw [Function.update_of_ne same, Function.update_of_ne same]
        exact represents.items other
    sent := by rw [represents.sent]
    lost := represents.lost
    live := fun node => by
      dsimp only
      rw [leaves.live, represents.live, mem_update_iff]
      constructor
      · intro kept
        rcases kept with ⟨inLeaked | ⟨other, member⟩, inside⟩
        · exact Or.inl inLeaked
        · by_cases same : other = car
          · subst other
            exact Or.inr (Or.inl (inside member))
          · exact Or.inr (Or.inr ⟨other, same, member⟩)
      · intro somewhere
        rcases somewhere with inLeaked | inLeft | ⟨other, same, member⟩
        · exact ⟨Or.inl inLeaked, fun old => absurd old (represents.outside node inLeaked car)⟩
        · exact ⟨Or.inr ⟨car, leaves.within node inLeft⟩, fun _ => inLeft⟩
        · exact ⟨Or.inr ⟨other, member⟩,
            fun old => absurd old (represents.keeps.apart other car same node member)⟩
    outside := fun node member other => by
      by_cases same : other = car
      · subst other
        rw [Function.update_self]
        exact fun inLeft => represents.outside node member _ (leaves.within node inLeft)
      · rw [Function.update_of_ne same]
        exact represents.outside node member other }

def dropped (fromNode toNode : Node) (old new : List Node) : Finset Node :=
  (fromNode :: toNode :: old).toFinset \ new.toFinset

omit [DecidableEq Car] in
theorem mem_dropped {fromNode toNode node : Node} {old new : List Node} :
    node ∈ dropped fromNode toNode old new ↔
      (node = fromNode ∨ node = toNode ∨ node ∈ old) ∧ node ∉ new := by
  rw [dropped, Finset.mem_sdiff, List.mem_toFinset, List.mem_toFinset, List.mem_cons,
    List.mem_cons]

omit [DecidableEq Car] in
theorem card_dropped {fromNode toNode : Node} {old new : List Node}
    (distinct : (fromNode :: toNode :: old).Nodup) (distinctNew : new.Nodup)
    (within : ∀ node ∈ new, node ∈ fromNode :: toNode :: old) :
    (dropped fromNode toNode old new).card = old.length + 2 - new.length := by
  have inside : new.toFinset ⊆ (fromNode :: toNode :: old).toFinset := fun node member =>
    List.mem_toFinset.mpr (within node (List.mem_toFinset.mp member))
  rw [dropped, Finset.card_sdiff_of_subset inside, List.toFinset_card_of_nodup distinct,
    List.toFinset_card_of_nodup distinctNew]
  rfl

omit [DecidableEq Node] in
/-- A node of a queue, or one of the two new ones, is dropped or in the new queue. -/
theorem kept_or_dropped {queues : Car → List Node} {car : Car} {left : List Node}
    {fromNode toNode node : Node}
    (within : ∀ node ∈ left, node ∈ fromNode :: toNode :: queues car) :
    (node = toNode ∨ node = fromNode ∨ ∃ other, node ∈ queues other) ↔
      ((node = fromNode ∨ node = toNode ∨ node ∈ queues car) ∧ node ∉ left) ∨
        ∃ other, node ∈ Function.update queues car left other := by
  have elsewhere : (∃ other, node ∈ queues other) ↔
      node ∈ queues car ∨ ∃ other, other ≠ car ∧ node ∈ queues other := by
    rw [← mem_update_iff, Function.update_eq_self]
  have offered := within node
  rw [List.mem_cons, List.mem_cons] at offered
  rw [mem_update_iff, elsewhere]
  tauto

/-- The nodes dropped are in no queue afterwards. -/
theorem dropped_outside {queues : Car → List Node} {car : Car} {left : List Node}
    {fromNode toNode : Node} (fromOutside : Outside queues fromNode)
    (toOutside : Outside queues toNode) (apart : Apart queues) :
    ∀ node ∈ dropped fromNode toNode (queues car) left,
      Outside (Function.update queues car left) node := by
  intro node member other
  obtain ⟨inside, notLeft⟩ := mem_dropped.mp member
  by_cases same : other = car
  · subst other
    rw [Function.update_self]
    exact notLeft
  · rw [Function.update_of_ne same]
    rcases inside with rfl | rfl | inOld
    · exact fromOutside other
    · exact toOutside other
    · exact apart car other (Ne.symm same) node inOld

theorem Represents.call {car : Car} {fromNode toNode : Node}
    (represents : Represents state stops nodes leaked) (there : car ∉ state.freed)
    (data : CarData) (call : Call)
    (fromFresh : fromNode ∉ state.heap.live) (toFresh : toNode ∉ state.heap.live)
    (different : fromNode ≠ toNode) :
    ∃ next left, queueStep state (.call car data call fromNode toNode) = some next ∧
      next.freed = state.freed ∧ next.selected = state.selected ∧
      Represents next (stopsStep stops (.call car data call fromNode toNode))
        (Function.update nodes car left)
        (leaked ∪ dropped fromNode toNode (nodes car) left) := by
  obtain ⟨done, left, made, keeps, items, others, live, within⟩ :=
    insertFloorsIntoQueue_eq car data call represents.keeps fromFresh toFresh different
  have fromOutside := represents.keeps.outside_of_fresh fromFresh
  have toOutside := represents.keeps.outside_of_fresh toFresh
  have distinct : (fromNode :: toNode :: nodes car).Nodup := by
    simp only [List.nodup_cons, List.mem_cons, not_or]
    exact ⟨⟨different, fromOutside car⟩, toOutside car, represents.keeps.nodup car⟩
  have distinctLeft := keeps.nodup car
  rw [Function.update_self] at distinctLeft
  have fresh (node : Node) (inLeaked : node ∈ leaked) :
      node ≠ fromNode ∧ node ≠ toNode ∧ node ∉ nodes car := by
    have alive := (represents.live node).mpr (Or.inl inLeaked)
    refine ⟨?_, ?_, represents.outside node inLeaked car⟩
    · rintro rfl
      exact fromFresh alive
    · rintro rfl
      exact toFresh alive
  rw [represents.items car] at made items
  have sends : queueStep state (.call car data call fromNode toNode) =
      some
        { state with
          heap := done
          sent := state.sent ++
            sentTo car (Controller.insertFloorsIntoQueue data (stops.queue car) call).sent } := by
    rw [queueStep, access_eq there, Option.bind_eq_bind, Option.bind_some, made]
    rfl
  have length : (nodes car).length = (stops.queue car).length := by
    rw [← represents.items car, List.length_map]
  have lengthLeft : left.length =
      (Controller.insertFloorsIntoQueue data (stops.queue car) call).queue.length := by
    rw [← items, List.length_map]
  have disjoint : Disjoint leaked (dropped fromNode toNode (nodes car) left) := by
    refine Finset.disjoint_left.mpr fun node inLeaked inDropped => ?_
    obtain ⟨notFrom, notTo, notOld⟩ := fresh node inLeaked
    rcases (mem_dropped.mp inDropped).1 with isFrom | isTo | isOld
    · exact notFrom isFrom
    · exact notTo isTo
    · exact notOld isOld
  refine ⟨_, left, sends, rfl, rfl, ?_⟩
  exact
    { keeps := keeps
      items := fun other => by
        by_cases same : other = car
        · subst other
          rw [Function.update_self, items, stopsStep, Stops.update]
          dsimp only
          rw [Function.update_self]
        · rw [Function.update_of_ne same, others other, represents.items other, stopsStep,
            Stops.update]
          dsimp only
          rw [Function.update_of_ne same]
      sent := by
        rw [represents.sent]
        rfl
      lost := by
        rw [Finset.card_union_of_disjoint disjoint, card_dropped distinct distinctLeft within,
          represents.lost, length, lengthLeft]
        rfl
      live := fun node => by
        rw [Finset.mem_union, mem_dropped, or_assoc, ← kept_or_dropped within]
        dsimp only
        rw [live, Finset.mem_insert, Finset.mem_insert, represents.live]
        simp only [or_left_comm]
      outside := fun node member => by
        rcases Finset.mem_union.mp member with inLeaked | inDropped
        · intro other inList
          obtain ⟨notFrom, notTo, notOld⟩ := fresh node inLeaked
          rcases mem_update_iff.mp ⟨other, inList⟩ with inLeft | ⟨owner, _, inOld⟩
          · have inside := within node inLeft
            rw [List.mem_cons, List.mem_cons] at inside
            exact inside.elim notFrom (fun later => later.elim notTo notOld)
          · exact represents.outside node inLeaked owner inOld
        · exact dropped_outside fromOutside toOutside represents.keeps.apart node inDropped }

def Stands (state : Queues Car Node) (stops : Stops Car) : Prop :=
  (∀ car, state.selected = some car → car ∉ state.freed) ∧
    ∃ nodes leaked, Represents state stops nodes leaked

def Allowed (state : Queues Car Node) (action : QueueAction Car Node) : Prop :=
  FreshNodes state action ∧ InOrder state action ∧ KeepsSelected state action

theorem stands_step {action : QueueAction Car Node} (stands : Stands state stops)
    (allowed : Allowed state action) :
    ∃ next, queueStep state action = some next ∧ Stands next (stopsStep stops action) := by
  obtain ⟨there, nodes, leaked, represents⟩ := stands
  obtain ⟨fresh, inOrder, kept⟩ := allowed
  cases action with
  | select car =>
      obtain ⟨_, present⟩ := inOrder
      refine ⟨{ state with selected := some car }, ?_, ?_, nodes, leaked, { represents with }⟩
      · rw [queueStep, access_eq present]
        rfl
      · rintro other ⟨⟩
        exact present
  | call car data call fromNode toNode =>
      obtain ⟨fromFresh, toFresh, different⟩ := fresh
      obtain ⟨next, left, taken, freed, selected, after⟩ :=
        represents.call (there car inOrder) data call fromFresh toFresh different
      refine ⟨next, taken, ?_, _, _, after⟩
      rw [freed, selected]
      exact there
  | reply car =>
      refine ⟨{ state with selected := none }, ?_, nofun, nodes, leaked, { represents with }⟩
      rw [queueStep, access_eq (there car inOrder)]
      rfl
  | report car data =>
      obtain ⟨done, left, made, leaves, items⟩ :=
        serveReport_eq car data represents.keeps
      rw [represents.items car] at made items
      have after := represents.leaves leaves items
        (sentTo car (serveArrival data (stops.queue car)).sent) state.freed state.selected
      refine ⟨_, ?_, ?_, _, leaked, after⟩
      · rw [queueStep, access_eq inOrder, Option.bind_eq_bind, Option.bind_some, made]
        rfl
      · exact there
  | leave car =>
      obtain ⟨done, freed, leaves⟩ := freeFloorQueue_leaves car represents.keeps
      have after :=
        represents.leaves leaves List.map_nil [] (insert car state.freed) state.selected
      rw [List.append_nil, List.append_nil] at after
      refine ⟨_, ?_, fun other selected => ?_, _, leaked, after⟩
      · rw [queueStep, access_eq inOrder, Option.bind_eq_bind, Option.bind_some, freed]
        rfl
      · rw [Finset.mem_insert, not_or]
        refine ⟨?_, there other selected⟩
        rintro rfl
        exact kept selected

omit [DecidableEq Car] [DecidableEq Node] in
theorem stands_empty (next : Node → Option Node) (item : Node → FloorNode) :
    Stands (emptyQueues next item : Queues Car Node) (noStops : Stops Car) :=
  ⟨nofun, fun _ => [], ∅,
    { keeps := ⟨fun _ => rfl, nofun, nofun⟩
      items := fun _ => rfl
      sent := rfl
      lost := rfl
      live := fun node => by simp only [emptyQueues, Finset.notMem_empty, List.not_mem_nil,
        exists_false, or_self]
      outside := nofun }⟩

/-- Where no car leaves while it is selected, no run touches a record or a node that is not
allocated or frees a node twice. After it every queue is the list that the list program
computes, no two share a node, and the allocated nodes are those of the queues and the
ones lost on the way. -/
theorem queueNodes_refine_lists (next : Node → Option Node) (item : Node → FloorNode)
    (actions : List (QueueAction Car Node))
    (fresh : Along queueStep FreshNodes (emptyQueues next item) actions)
    (inOrder : Along queueStep InOrder (emptyQueues next item) actions)
    (kept : Along queueStep KeepsSelected (emptyQueues next item) actions) :
    ∃ final nodes leaked, run queueStep (emptyQueues next item) actions = some final ∧
      Represents final (actions.foldl stopsStep noStops) nodes leaked := by
  obtain ⟨final, ran, _, nodes, leaked, represents⟩ :=
    refines_run (fun state stops action => stands_step) (stands_empty next item)
      (fresh.and (inOrder.and kept))
  exact ⟨final, nodes, leaked, ran, represents⟩

def waitingAtOne : CarData :=
  { currentFloor := digitFloor 1, destinationFloor := digitFloor 1
    status := statusToken .closed }

def callTwoFive : Call :=
  { currentFloor := digitFloor 2, destinationFloor := digitFloor 5 }

def callThreeSeven : Call :=
  { currentFloor := digitFloor 3, destinationFloor := digitFloor 7 }

/-- Two calls for a car, the second of which cuts off a stop, an arrival, and the end. -/
def queueTrace : List (QueueAction Nat Nat) :=
  let arrived : CarData :=
    { currentFloor := digitFloor 2, destinationFloor := digitFloor 2
      status := statusToken .opening }
  [.select 0, .call 0 waitingAtOne callTwoFive 0 1, .reply 0, .select 0,
    .call 0 waitingAtOne callThreeSeven 2 3, .reply 0, .report 0 arrived, .leave 0]

example : (queueTrace.foldl stopsStep noStops).lost = 1 := by
  decide +kernel

theorem queueNodes_refine_lists_trace :
    ∃ final nodes leaked, run queueStep
        (emptyQueues (fun _ => none) fun _ => { direction := .up, floor := digitFloor 1 })
        queueTrace = some final ∧
      Represents final (queueTrace.foldl stopsStep noStops) nodes leaked :=
  queueNodes_refine_lists _ _ queueTrace (by decide +kernel) (by decide +kernel)
    (by decide +kernel)

/-- The car leaves between its selection and the insertion. -/
def leavesSelected : List (QueueAction Nat Nat) :=
  [.select 0, .call 0 waitingAtOne callTwoFive 0 1, .reply 0, .select 0, .leave 0,
    .call 0 waitingAtOne callThreeSeven 2 3]

example : (run queueStep
    (emptyQueues (fun _ => none) fun _ => { direction := .up, floor := digitFloor 1 })
    leavesSelected).isNone := by
  decide +kernel

end Runs

end Cab403.Elevator.QueueNodes
