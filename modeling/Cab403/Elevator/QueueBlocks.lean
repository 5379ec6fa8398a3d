/-
The blocks of a floor queue: its maximal runs of one direction. A queue of at most
three sorted blocks keeps this shape when stops are removed, and when a call is
inserted that fits. An insertion along the direction of the car may put a fourth
block in front; one against it goes behind the last block without a look at it.
-/

import Cab403.Elevator.FloorInsertion
import Cab403.Library.ActionRuns
import Mathlib.Data.List.SplitBy

namespace Cab403.Elevator.Controller

open CText ActionRuns

/-! ### Blocks -/

def sameDirection (left right : FloorNode) : Bool := left.direction = right.direction

def blocks (queue : List FloorNode) : List (List FloorNode) := queue.splitBy sameDirection

def Precedes (direction : Direction) (left right : FloorNode) : Prop :=
  match direction with
  | .up => tokenFloorNumber left.floor < tokenFloorNumber right.floor
  | .down => tokenFloorNumber left.floor > tokenFloorNumber right.floor

instance (direction : Direction) (left right : FloorNode) :
    Decidable (Precedes direction left right) := by
  unfold Precedes
  split <;> infer_instance

def SortedBlock (block : List FloorNode) : Prop :=
  block.Pairwise fun left right => Precedes left.direction left right

instance : DecidablePred SortedBlock := fun block =>
  inferInstanceAs (Decidable (block.Pairwise _))

@[mk_iff] structure BlockShape (queue : List FloorNode) : Prop where
  few : (blocks queue).length ≤ 3
  sorted : ∀ block ∈ blocks queue, SortedBlock block

instance : DecidablePred BlockShape := fun queue => decidable_of_iff' _ (blockShape_iff queue)

/-! ### The queue in time -/

structure StopQueue where
  data : CarData
  queue : List FloorNode
  deriving DecidableEq

inductive QueueAction where
  | insert (call : Call)
  | report (data : CarData)
  /-- The removal of stops that the latest report has reached. -/
  | serve
  deriving DecidableEq

def queueStep (state : StopQueue) : QueueAction → Option StopQueue
  | .insert call =>
      some { state with queue := (insertFloorsIntoQueue state.data state.queue call).queue }
  | .report data => some { state with data := data }
  | .serve => some { state with queue := (serveArrival state.data state.queue).queue }

/-- A report finds the car where it was or closer to the head of the queue. -/
def TowardsHead (state : StopQueue) : QueueAction → Prop
  | .report data =>
      match state.queue with
      | [] => tokenFloorNumber data.currentFloor = tokenFloorNumber state.data.currentFloor
      | head :: _ =>
          let before := tokenFloorNumber state.data.currentFloor
          let after := tokenFloorNumber data.currentFloor
          let goal := tokenFloorNumber head.floor
          (before ≤ after ∧ after ≤ goal) ∨ (goal ≤ after ∧ after ≤ before)
  | _ => True

instance (state : StopQueue) (action : QueueAction) : Decidable (TowardsHead state action) := by
  unfold TowardsHead
  split
  · split <;> infer_instance
  · infer_instance

/-- The call has two floor numbers, and the queue has room for it where it goes. Along
the direction of the car: the leading run names a floor number of the call by the same
string, and a new run in front finds at most two. Against it: the queue ends with a
node of the call's direction that is passed before the call, or has at most two runs. -/
def Fits (state : StopQueue) : QueueAction → Prop
  | .insert call =>
      tokenFloorNumber call.currentFloor ≠ tokenFloorNumber call.destinationFloor ∧
        if carDirection state.data state.queue (callDirection call) = callDirection call then
          (∀ node ∈ state.queue.takeWhile (fun node => node.direction = callDirection call),
            (tokenFloorNumber node.floor = tokenFloorNumber call.currentFloor →
              node.floor = call.currentFloor) ∧
            (tokenFloorNumber node.floor = tokenFloorNumber call.destinationFloor →
              node.floor = call.destinationFloor)) ∧
          (EndsRun (callDirection call) state.queue → (blocks state.queue).length ≤ 2)
        else
          ∀ last ∈ state.queue.getLast?,
            if last.direction = callDirection call then
              Precedes (callDirection call) last call.fromNode
            else (blocks state.queue).length ≤ 2
  | _ => True

instance (direction : Direction) (later : List FloorNode) : Decidable (EndsRun direction later) :=
  inferInstanceAs (Decidable (∀ node ∈ later.head?, _))

instance (state : StopQueue) (action : QueueAction) : Decidable (Fits state action) := by
  unfold Fits
  split <;> infer_instance

section Blocks

variable {direction : Direction} {left middle right node : FloorNode}
  {front run later grown : List FloorNode}

theorem Precedes.trans (first : Precedes direction left middle)
    (second : Precedes direction middle right) : Precedes direction left right := by
  cases direction with
  | up => exact lt_trans (show tokenFloorNumber left.floor < _ from first) second
  | down => exact gt_trans (show tokenFloorNumber left.floor > _ from first) second

theorem precedes_of_not_reaches (short : ¬ Reaches direction left right) :
    Precedes direction left right := by
  cases direction with
  | up => exact not_le.mp short
  | down => exact not_le.mp short

theorem precedes_of_reaches (reaches : Reaches direction left right)
    (apart : tokenFloorNumber left.floor ≠ tokenFloorNumber right.floor) :
    Precedes direction right left := by
  cases direction with
  | up => exact lt_of_le_of_ne reaches apart.symm
  | down => exact lt_of_le_of_ne reaches apart

theorem sortedBlock_iff (along : ∀ node ∈ run, node.direction = direction) :
    SortedBlock run ↔ run.Pairwise (Precedes direction) := by
  apply List.Pairwise.iff_of_mem
  intro left right member _
  rw [along left member]

theorem sameDirection_chain (along : ∀ node ∈ run, node.direction = direction) :
    run.IsChain (fun left right => sameDirection left right = true) := by
  apply List.Pairwise.isChain
  apply List.pairwise_of_forall_mem_list
  intro left memberLeft right memberRight
  rw [sameDirection, along left memberLeft, along right memberRight, decide_eq_true_eq]

theorem blocks_of_run (nonempty : run ≠ []) (along : ∀ node ∈ run, node.direction = direction) :
    blocks run = [run] :=
  List.splitBy_of_isChain nonempty (sameDirection_chain along)

/-- A run in front is a block of its own. -/
theorem blocks_run_append (nonempty : run ≠ []) (along : ∀ node ∈ run, node.direction = direction)
    (ends : EndsRun direction later) : blocks (run ++ later) = run :: blocks later := by
  have split : blocks (run ++ later) = blocks run ++ blocks later := by
    apply List.splitBy_append
    intro last memberLast next memberNext
    have lastAlong := along last (List.mem_of_mem_getLast? memberLast)
    rw [sameDirection, lastAlong, decide_eq_false_iff_not]
    exact (ends next memberNext).symm
  rw [split, blocks_of_run nonempty along, List.singleton_append]

/-- A run behind is a block of its own. -/
theorem blocks_append_run (nonempty : run ≠ []) (along : ∀ node ∈ run, node.direction = direction)
    (ends : ∀ last ∈ front.getLast?, last.direction ≠ direction) :
    blocks (front ++ run) = blocks front ++ [run] := by
  have split : blocks (front ++ run) = blocks front ++ blocks run := by
    apply List.splitBy_append
    intro last memberLast next memberNext
    have nextAlong := along next (List.mem_of_mem_head? memberNext)
    rw [sameDirection, nextAlong, decide_eq_false_iff_not]
    exact ends last memberLast
  rw [split, blocks_of_run nonempty along]

/-! ### Sorted insertion -/

/-- The nodes of the run with the floor number of `stop` are `stop` itself. -/
def Names (run : List FloorNode) (stop : FloorNode) : Prop :=
  ∀ node ∈ run, tokenFloorNumber node.floor = tokenFloorNumber stop.floor → node = stop

theorem pairwise_insert {relation : FloorNode → FloorNode → Prop} {item : FloorNode}
    (sorted : (front ++ later).Pairwise relation) (before : ∀ node ∈ front, relation node item)
    (after : ∀ node ∈ later, relation item node) : (front ++ item :: later).Pairwise relation := by
  obtain ⟨sortedFront, sortedLater, across⟩ := List.pairwise_append.mp sorted
  refine List.pairwise_append.mpr ⟨sortedFront, List.pairwise_cons.mpr ⟨after, sortedLater⟩, ?_⟩
  intro left memberLeft right memberRight
  rcases List.mem_cons.mp memberRight with rfl | old
  · exact before left memberLeft
  · exact across left memberLeft right old

/-- What `place` reaches, the nodes behind it lie beyond. -/
theorem precedes_rest {place stop : FloorNode} {rest : List FloorNode}
    (sorted : (place :: rest).Pairwise (Precedes direction))
    (reaches : Reaches direction place stop) (apart : place ≠ stop)
    (names : Names (place :: rest) stop) :
    ∀ node ∈ place :: rest, Precedes direction stop node := by
  have first : Precedes direction stop place :=
    precedes_of_reaches reaches (fun same => apart (names place List.mem_cons_self same))
  intro node member
  rcases List.mem_cons.mp member with rfl | behind
  · exact first
  · exact first.trans ((List.pairwise_cons.mp sorted).1 node behind)

theorem ToPlaced.sorted {toNode : FloorNode} (placed : ToPlaced direction toNode run grown)
    (sorted : run.Pairwise (Precedes direction)) (names : Names run toNode) :
    grown.Pairwise (Precedes direction) := by
  cases placed with
  | linked short reaches apart =>
      apply pairwise_insert sorted
      · exact fun node member => precedes_of_not_reaches (short node member)
      · apply precedes_rest (List.pairwise_append.mp sorted).2.1 reaches apart
        exact fun node member => names node (List.mem_append_right _ member)
  | same short => exact sorted

theorem RunInserted.sorted {fromNode toNode : FloorNode}
    (inserted : RunInserted direction fromNode toNode run grown)
    (ordered : Precedes direction fromNode toNode) (sorted : run.Pairwise (Precedes direction))
    (namesFrom : Names run fromNode) (namesTo : Names run toNode) :
    grown.Pairwise (Precedes direction) := by
  have pair : [fromNode, toNode].Pairwise (Precedes direction) := List.pairwise_pair.mpr ordered
  cases inserted with
  | behind short =>
      refine List.pairwise_append.mpr ⟨sorted, pair, ?_⟩
      intro node member stop memberStop
      have before := precedes_of_not_reaches (short node member)
      rcases List.mem_pair.mp memberStop with rfl | rfl
      · exact before
      · exact before.trans ordered
  | @linked before rest placedRest place short reaches apart placed =>
      obtain ⟨sortedBefore, sortedRest, across⟩ := List.pairwise_append.mp sorted
      have beyond := precedes_rest sortedRest reaches apart
        (fun node member => namesFrom node (List.mem_append_right _ member))
      have sortedGrown := placed.sorted sortedRest
        (fun node member => namesTo node (List.mem_append_right _ member))
      have afterFrom : ∀ node ∈ placedRest, Precedes direction fromNode node := by
        intro node member
        rcases placed.subset node member with old | rfl
        · exact beyond node old
        · exact ordered
      refine List.pairwise_append.mpr
        ⟨sortedBefore, List.pairwise_cons.mpr ⟨afterFrom, sortedGrown⟩, ?_⟩
      intro node member other memberOther
      have before := precedes_of_not_reaches (short node member)
      rcases List.mem_cons.mp memberOther with rfl | later
      · exact before
      · exact before.trans (afterFrom other later)
  | same short placed =>
      obtain ⟨sortedBefore, sortedRest, across⟩ := List.pairwise_append.mp sorted
      have sortedGrown := placed.sorted sortedRest
        (fun node member => namesTo node (List.mem_append_right _ member))
      refine List.pairwise_append.mpr ⟨sortedBefore, sortedGrown, ?_⟩
      intro node member other memberOther
      rcases placed.subset other memberOther with old | rfl
      · exact across node member other old
      · exact (precedes_of_not_reaches (short node member)).trans ordered
  | cut short reaches past =>
      refine List.pairwise_append.mpr ⟨(List.pairwise_append.mp sorted).1, pair, ?_⟩
      intro node member stop memberStop
      have before := precedes_of_not_reaches (short node member)
      rcases List.mem_pair.mp memberStop with rfl | rfl
      · exact before
      · exact before.trans ordered
  | lost short past => exact sorted

theorem ToPlaced.ne_nil {toNode : FloorNode} (placed : ToPlaced direction toNode run grown) :
    grown ≠ [] := by
  cases placed <;> simp

theorem RunInserted.ne_nil {fromNode toNode : FloorNode}
    (inserted : RunInserted direction fromNode toNode run grown) : grown ≠ [] := by
  cases inserted with
  | behind | linked | cut | lost => simp
  | same short placed => simp [placed.ne_nil]

/-! ### Runs at the two ends -/

theorem blockShape_run_append (nonempty : run ≠ [])
    (along : ∀ node ∈ run, node.direction = direction) (ends : EndsRun direction later) :
    BlockShape (run ++ later) ↔
      (blocks later).length ≤ 2 ∧ run.Pairwise (Precedes direction) ∧
        ∀ block ∈ blocks later, SortedBlock block := by
  rw [blockShape_iff, blocks_run_append nonempty along ends, List.length_cons,
    List.forall_mem_cons, sortedBlock_iff along, Nat.succ_le_succ_iff]

theorem blockShape_append_run (nonempty : run ≠ [])
    (along : ∀ node ∈ run, node.direction = direction)
    (ends : ∀ last ∈ front.getLast?, last.direction ≠ direction) :
    BlockShape (front ++ run) ↔
      (blocks front).length ≤ 2 ∧ run.Pairwise (Precedes direction) ∧
        ∀ block ∈ blocks front, SortedBlock block := by
  rw [blockShape_iff, blocks_append_run nonempty along ends, List.length_append,
    List.length_singleton, List.forall_mem_append, List.forall_mem_singleton, sortedBlock_iff along,
    Nat.succ_le_succ_iff]
  exact and_congr_right fun _ => and_comm

theorem exists_last_run (direction : Direction) (queue : List FloorNode) :
    ∃ front run, queue = front ++ run ∧ (∀ node ∈ run, node.direction = direction) ∧
      ∀ last ∈ front.getLast?, last.direction ≠ direction := by
  induction queue using List.reverseRecOn with
  | nil =>
      refine ⟨[], [], rfl, ?_, ?_⟩
      · intro node member
        cases member
      · intro last none_
        cases none_
  | append_singleton rest last ih =>
      by_cases same : last.direction = direction
      · obtain ⟨front, run, rfl, along, ends⟩ := ih
        refine ⟨front, run ++ [last], List.append_assoc _ _ _, ?_, ends⟩
        exact List.forall_mem_append.mpr ⟨along, List.forall_mem_singleton.mpr same⟩
      · refine ⟨rest ++ [last], [], (List.append_nil _).symm, ?_, ?_⟩
        · intro node member
          cases member
        · rw [List.getLast?_concat]
          rintro _ ⟨⟩
          exact same

theorem takeWhile_run (along : ∀ node ∈ run, node.direction = direction)
    (ends : EndsRun direction later) :
    (run ++ later).takeWhile (fun node => node.direction = direction) = run := by
  rw [List.takeWhile_append_of_pos (fun node member => decide_eq_true (along node member))]
  cases later with
  | nil => rw [List.takeWhile_nil, List.append_nil]
  | cons node rest =>
      have differs : ¬ decide (node.direction = direction) = true := by
        simpa using ends node rfl
      rw [List.takeWhile_cons, if_neg differs, List.append_nil]

theorem blockShape_nil : BlockShape [] := by decide

/-- Removing the head leaves the shape. -/
theorem BlockShape.tail {rest : List FloorNode} (shape : BlockShape (node :: rest)) :
    BlockShape rest := by
  obtain ⟨run, later, rfl, along, ends⟩ := exists_first_run node.direction rest
  have alongCons : ∀ other ∈ node :: run, other.direction = node.direction :=
    List.forall_mem_cons.mpr ⟨rfl, along⟩
  rw [← List.cons_append, blockShape_run_append (List.cons_ne_nil _ _) alongCons ends] at shape
  obtain ⟨few, sorted, later⟩ := shape
  by_cases empty : run = []
  · subst empty
    exact ⟨by simpa using Nat.le_succ_of_le few, later⟩
  · rw [blockShape_run_append empty along ends]
    exact ⟨few, (List.pairwise_cons.mp sorted).2, later⟩

end Blocks

/-! ### Steps -/

section Steps

variable {state : StopQueue} {call : Call}

theorem names_of_fits {stop : FloorNode} {run : List FloorNode}
    (along : ∀ node ∈ run, node.direction = stop.direction)
    (named : ∀ node ∈ run, tokenFloorNumber node.floor = tokenFloorNumber stop.floor →
      node.floor = stop.floor) : Names run stop := by
  intro node member same
  exact FloorNode.ext (along node member) (named node member same)

/-- The two floors of a call lie in its direction if their numbers differ. -/
theorem precedes_call
    (differ : tokenFloorNumber call.currentFloor ≠ tokenFloorNumber call.destinationFloor) :
    Precedes (callDirection call) call.fromNode call.toNode := by
  unfold callDirection directionTo Precedes
  split
  · rename_i up
    split at up
    · assumption
    · cases up
  · rename_i down
    split at down
    · cases down
    · rename_i notAbove
      exact lt_of_le_of_ne (not_lt.mp notAbove) differ.symm

theorem blockShape_along (shape : BlockShape state.queue) (fits : Fits state (.insert call))
    (same : carDirection state.data state.queue (callDirection call) = callDirection call) :
    BlockShape (insertFloors state.data state.queue call) := by
  obtain ⟨differ, room⟩ := fits
  rw [if_pos same] at room
  obtain ⟨named, few⟩ := room
  obtain ⟨run, later, grown, split, along, ends, inserted, result⟩ := insertFloors_along same
  rw [split, takeWhile_run along ends] at named
  have alongGrown : ∀ node ∈ grown, node.direction = callDirection call := by
    intro node member
    rcases inserted.subset node member with old | rfl | rfl
    · exact along node old
    · rfl
    · rfl
  have namesFrom : Names run call.fromNode :=
    names_of_fits along (fun node member => (named node member).1)
  have namesTo : Names run call.toNode :=
    names_of_fits along (fun node member => (named node member).2)
  rw [result, blockShape_run_append inserted.ne_nil alongGrown ends]
  rw [split] at shape few
  by_cases empty : run = []
  · subst empty
    rw [List.nil_append] at shape few
    exact ⟨few ends,
      inserted.sorted (precedes_call differ) List.Pairwise.nil namesFrom namesTo, shape.sorted⟩
  · obtain ⟨fewLater, sorted, sortedLater⟩ := (blockShape_run_append empty along ends).mp shape
    exact ⟨fewLater, inserted.sorted (precedes_call differ) sorted namesFrom namesTo, sortedLater⟩

theorem blockShape_against (shape : BlockShape state.queue) (fits : Fits state (.insert call))
    (against : carDirection state.data state.queue (callDirection call) ≠ callDirection call) :
    BlockShape (insertFloors state.data state.queue call) := by
  obtain ⟨differ, room⟩ := fits
  rw [if_neg against] at room
  obtain ⟨front, run, split, along, ends⟩ := exists_last_run (callDirection call) state.queue
  have alongGrown : ∀ node ∈ run ++ [call.fromNode, call.toNode],
      node.direction = callDirection call := by
    refine List.forall_mem_append.mpr ⟨along, ?_⟩
    intro node member
    rcases List.mem_pair.mp member with rfl | rfl <;> rfl
  have pair : [call.fromNode, call.toNode].Pairwise (Precedes (callDirection call)) :=
    List.pairwise_pair.mpr (precedes_call differ)
  rw [insertFloors_against against, split, List.append_assoc,
    blockShape_append_run (by simp) alongGrown ends]
  rw [split] at shape room
  by_cases empty : run = []
  · subst empty
    rw [List.append_nil] at shape room
    refine ⟨?_, pair, shape.sorted⟩
    cases last : front.getLast? with
    | none =>
        rw [List.getLast?_eq_none_iff.mp last]
        exact Nat.zero_le 2
    | some node =>
        have few := room node last
        rw [if_neg (ends node last)] at few
        exact few
  · obtain ⟨fewFront, sorted, sortedFront⟩ := (blockShape_append_run empty along ends).mp shape
    refine ⟨fewFront, ?_, sortedFront⟩
    -- the last node of the run is passed before the call, and the others before it
    obtain ⟨before, last, rfl⟩ := (List.eq_nil_or_concat' run).resolve_left empty
    have lastBefore := room last (by simp)
    rw [if_pos (along last (by simp))] at lastBefore
    refine List.pairwise_append.mpr ⟨sorted, pair, ?_⟩
    have runBefore : ∀ node ∈ before ++ [last],
        Precedes (callDirection call) node call.fromNode := by
      intro node member
      rcases List.mem_append.mp member with earlier | final
      · exact ((List.pairwise_append.mp sorted).2.2 node earlier last (by simp)).trans lastBefore
      · rw [List.mem_singleton.mp final]
        exact lastBefore
    intro node member stop memberStop
    rcases List.mem_pair.mp memberStop with rfl | rfl
    · exact runBefore node member
    · exact (runBefore node member).trans (precedes_call differ)

theorem blockShape_popServed {queue : List FloorNode} (currentFloor : Token 3)
    (shape : BlockShape queue) : BlockShape (popServed currentFloor queue) := by
  unfold popServed
  split
  · split
    · exact shape.tail.tail
    · exact shape.tail
  · exact blockShape_nil

theorem blockShape_step {next : StopQueue} {action : QueueAction} (shape : BlockShape state.queue)
    (fits : Fits state action) (taken : queueStep state action = some next) :
    BlockShape next.queue := by
  cases action with
  | insert call =>
      cases taken
      by_cases same : carDirection state.data state.queue (callDirection call) = callDirection call
      · exact blockShape_along shape fits same
      · exact blockShape_against shape fits same
  | report data =>
      cases taken
      exact shape
  | serve =>
      cases taken
      change BlockShape (serveArrival state.data state.queue).queue
      unfold serveArrival
      split
      · rename_i empty
        rw [empty] at shape
        exact shape
      · dsimp only
        split
        · exact blockShape_popServed _ shape
        · exact shape

end Steps

/-! ### Whole runs -/

def StopQueue.start (data : CarData) : StopQueue :=
  { data := data
    queue := [] }

/-- In every run whose calls fit, the queue has at most three blocks, each sorted. -/
theorem queue_keeps_blocks (data : CarData) (actions : List QueueAction) (reached : StopQueue)
    (fits : Along queueStep Fits (StopQueue.start data) actions)
    (ran : run queueStep (StopQueue.start data) actions = some reached) :
    BlockShape reached.queue := by
  have preserved : ∀ state action next, BlockShape state.queue → Fits state action →
      queueStep state action = some next → BlockShape next.queue := by
    intro state action next shape fits taken
    exact blockShape_step shape fits taken
  exact invariant_run preserved blockShape_nil fits ran

/-! ### A second block behind the first -/

def callBetween (fromFloor toFloor : Nat) : Call :=
  { currentFloor := digitFloor fromFloor
    destinationFloor := digitFloor toFloor }

def waitingAtOne : CarData :=
  { currentFloor := digitFloor 1
    destinationFloor := digitFloor 1
    status := statusToken .closed }

/-- A car at rest below its first stop gets an upward and two downward calls. -/
def secondCallDown : List QueueAction :=
  [.insert (callBetween 2 5), .insert (callBetween 4 3), .insert (callBetween 9 6)]

/-- The second downward call is linked behind the first, from floor 9 behind floor 3. -/
theorem queue_blocks_unsorted :
    ¬ ∀ (data : CarData) (actions : List QueueAction) (reached : StopQueue),
      Along queueStep TowardsHead (StopQueue.start data) actions →
      run queueStep (StopQueue.start data) actions = some reached → BlockShape reached.queue := by
  intro keeps
  have shape := keeps waitingAtOne secondCallDown
    ((run queueStep (StopQueue.start waitingAtOne) secondCallDown).get (by decide)) (by decide)
    (Option.some_get _).symm
  exact absurd shape (by decide)

def arrivingAtTwo : CarData :=
  { currentFloor := digitFloor 2
    destinationFloor := digitFloor 2
    status := statusToken .opening }

def upThenDown : List QueueAction :=
  [.insert (callBetween 2 5), .insert (callBetween 4 3), .report arrivingAtTwo, .serve]

theorem queue_keeps_blocks_upThenDown :
    BlockShape
      ((run queueStep (StopQueue.start waitingAtOne) upThenDown).get (by decide)).queue :=
  queue_keeps_blocks waitingAtOne upThenDown _ (by decide) (Option.some_get _).symm

end Cab403.Elevator.Controller
