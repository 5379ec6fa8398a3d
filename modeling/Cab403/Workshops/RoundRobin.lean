/-
The round-robin scheduler of roundRobinScheduling_Skeleton.c. The job queue and the
ready queue are threaded through the same `nextNode` fields, and the last slice of a
process is not recorded. Nodes are addresses, and a process is the node it starts with.
Beside the program's variables a state records the process of every slice granted.
-/

import Cab403.Library.LinkedChain
import Mathlib.Algebra.BigOperators.Group.List.Basic
import Mathlib.Algebra.Order.Ring.Int
import Mathlib.Data.List.Chain

namespace Cab403.Workshops.RoundRobin

open LinkedChain

def quantum : Int := 20

structure State (Node : Type*) where
  burstTime : Node → Int
  nextNode : Node → Option Node
  jobQueueHead : Option Node
  jobQueueTail : Option Node
  readyQueueHead : Option Node
  readyQueueTail : Option Node
  slices : List Node

/-- Processes for the first loop of `main`: one freshly allocated node each. -/
structure Processes (Node : Type*) where
  nodes : List Node
  distinct : nodes.Nodup
  processID : Node → UInt8
  burstTime : Node → Int
  positive : ∀ node ∈ nodes, 0 < burstTime node

section Code

variable {Node : Type*} [DecidableEq Node]

def insertNodeJobQueue (state : State Node) (jobQueueNode : Node) : State Node :=
  match state.jobQueueTail with
  | none =>
      { state with jobQueueHead := some jobQueueNode, jobQueueTail := some jobQueueNode }
  | some tail =>
      { state with
        nextNode := Function.update state.nextNode tail (some jobQueueNode)
        jobQueueTail := some jobQueueNode }

def removeJobQueueHeadNode (state : State Node) : Option Node × State Node :=
  match state.jobQueueHead with
  | none => (none, state)
  | some head =>
      if state.jobQueueHead = state.jobQueueTail then
        (some head, { state with jobQueueHead := none, jobQueueTail := none })
      else (some head, { state with jobQueueHead := state.nextNode head })

def insertNodeToReadyQueue (state : State Node) (newReadyQueueNode : Node) : State Node :=
  match state.readyQueueTail with
  | none =>
      { state with
        readyQueueHead := some newReadyQueueNode
        readyQueueTail := some newReadyQueueNode }
  | some tail =>
      { state with
        nextNode := Function.update state.nextNode tail (some newReadyQueueNode)
        readyQueueTail := some newReadyQueueNode }

/-- The globals as they start, and nodes with no next node. -/
def Processes.unqueued (processes : Processes Node) : State Node where
  burstTime := processes.burstTime
  nextNode := fun _ => none
  jobQueueHead := none
  jobQueueTail := none
  readyQueueHead := none
  readyQueueTail := none
  slices := []

def Processes.initial (processes : Processes Node) : State Node :=
  processes.nodes.foldl insertNodeJobQueue processes.unqueued

def grant (state : State Node) (process : Node) : State Node :=
  { state with
    burstTime := Function.update state.burstTime process (state.burstTime process - quantum)
    slices := state.slices ++ [process] }

/-- The body of the scheduling loop; `none` is a null pointer that is followed. -/
def slice (state : State Node) : Option (State Node) :=
  match removeJobQueueHeadNode state with
  | (none, _) => none
  | (some process, removed) =>
      let ran := grant removed process
      if ran.burstTime process > 0 then
        some (insertNodeToReadyQueue (insertNodeJobQueue ran process) process)
      else some ran

/-- The scheduling loop, `none` while it is not over. -/
def schedule : Nat → State Node → Option (State Node)
  | 0, _ => none
  | fuel + 1, state =>
      if state.jobQueueHead = none then some state else (slice state).bind (schedule fuel)

def printLinkedList (processes : Processes Node) (state : State Node) :
    Nat → Option Node → Option (List (UInt8 × Int))
  | _, none => some []
  | 0, some _ => none
  | fuel + 1, some node =>
      (printLinkedList processes state fuel (state.nextNode node)).map fun later =>
        (processes.processID node, state.burstTime node) :: later

end Code

/-! ### The job queue -/

section Queue

variable {Node : Type*} [DecidableEq Node] {state : State Node} {queue : List Node}

/-- The nodes from head to tail; what the tail points at does not matter. -/
structure Queued (nextNode : Node → Option Node) (head tail : Option Node) (queue : List Node) :
    Prop where
  distinct : queue.Nodup
  tail : tail = queue.getLast?
  linked : Segment nextNode head queue.dropLast queue.getLast?

def State.Queued (state : State Node) (queue : List Node) : Prop :=
  RoundRobin.Queued state.nextNode state.jobQueueHead state.jobQueueTail queue

omit [DecidableEq Node] in
theorem Queued.head {nextNode : Node → Option Node} {head tail : Option Node}
    (queued : Queued nextNode head tail queue) : head = queue.head? := by
  have linked := queued.linked
  match queue with
  | [] => exact linked
  | [_] => exact linked
  | _ :: _ :: _ => exact linked.1

/-- Inserting behind the tail, whose pointer is set to the new node. -/
theorem Queued.append {nextNode : Node → Option Node} {head tail : Option Node}
    (queued : Queued nextNode head tail queue) {node last : Node} (isTail : tail = some last)
    (new : node ∉ queue) :
    Queued (Function.update nextNode last (some node)) head (some node) (queue ++ [node]) where
  distinct := by
    rw [List.nodup_append_comm, List.singleton_append, List.nodup_cons]
    exact ⟨new, queued.distinct⟩
  tail := List.getLast?_concat.symm
  linked := by
    rw [List.dropLast_concat, List.getLast?_concat]
    have isLast := queued.tail
    have linked := queued.linked
    have distinct := queued.distinct
    rw [isTail] at isLast
    rw [← isLast] at linked
    obtain ⟨front, rfl⟩ : ∃ front, queue = front ++ [last] := by
      obtain ⟨front, same⟩ := List.getLast?_eq_some_iff.mp isLast.symm
      exact ⟨front, same⟩
    rw [List.dropLast_concat] at linked
    refine segment_append.mpr ⟨some last, linked.congr fun other member => ?_, rfl, ?_⟩
    · apply Function.update_of_ne
      rintro rfl
      exact List.disjoint_of_nodup_append distinct member (List.mem_singleton_self _)
    · exact Function.update_self ..

omit [DecidableEq Node] in
theorem Queued.remove {nextNode : Node → Option Node} {head tail : Option Node} {node : Node}
    {rest : List Node} (queued : Queued nextNode head tail (node :: rest)) (more : rest ≠ []) :
    Queued nextNode (nextNode node) tail rest where
  distinct := (List.nodup_cons.mp queued.distinct).2
  tail := by
    rw [queued.tail, List.getLast?_cons]
    cases last : rest.getLast? with
    | none => exact absurd (List.getLast?_eq_none_iff.mp last) more
    | some last => rfl
  linked := by
    have linked := queued.linked
    obtain ⟨second, later, rfl⟩ := List.exists_cons_of_ne_nil more
    rw [List.dropLast_cons_cons, List.getLast?_cons_cons] at linked
    exact linked.2

theorem insertNodeJobQueue_queued (queued : state.Queued queue) {node : Node} (new : node ∉ queue) :
    (insertNodeJobQueue state node).Queued (queue ++ [node]) := by
  unfold insertNodeJobQueue
  split
  · rename_i empty
    have none_ := queued.tail
    rw [empty] at none_
    rw [List.getLast?_eq_none_iff.mp none_.symm]
    exact ⟨List.nodup_singleton node, rfl, rfl⟩
  · rename_i last isTail
    exact Queued.append queued isTail new

theorem update_leads {nextNode : Node → Option Node} {last node other found : Node}
    (leads : Function.update nextNode last (some node) other = some found) :
    found = node ∨ nextNode other = some found := by
  by_cases same : other = last
  · rw [same, Function.update_self] at leads
    exact Or.inl (Option.some.inj leads).symm
  · rw [Function.update_of_ne same] at leads
    exact Or.inr leads

/-- What else an insertion into the job queue does. -/
theorem insertNodeJobQueue_frame (state : State Node) (node : Node) :
    ∃ nextNode head, insertNodeJobQueue state node = { state with
        nextNode := nextNode
        jobQueueHead := head
        jobQueueTail := some node } ∧
      (∀ other found, nextNode other = some found →
        found = node ∨ state.nextNode other = some found) ∧
      ∀ last, state.jobQueueTail = some last → nextNode last = some node := by
  unfold insertNodeJobQueue
  split
  · rename_i empty
    exact ⟨state.nextNode, some node, rfl, fun _ _ leads => Or.inr leads,
      fun last isTail => by rw [empty] at isTail; cases isTail⟩
  · rename_i last isTail
    refine ⟨_, state.jobQueueHead, rfl, fun _ _ => update_leads, fun other isOther => ?_⟩
    rw [isTail] at isOther
    cases isOther
    exact Function.update_self ..

theorem insertNodeToReadyQueue_frame (state : State Node) (node : Node) :
    ∃ nextNode head, insertNodeToReadyQueue state node = { state with
        nextNode := nextNode
        readyQueueHead := head
        readyQueueTail := some node } ∧
      (nextNode = state.nextNode ∨ ∃ last, state.readyQueueTail = some last ∧
        nextNode = Function.update state.nextNode last (some node)) ∧
      ∀ found, head = some found → found = node ∨ state.readyQueueHead = some found := by
  unfold insertNodeToReadyQueue
  split
  · exact ⟨state.nextNode, some node, rfl, Or.inl rfl,
      fun found same => Or.inl (Option.some.inj same).symm⟩
  · rename_i last isTail
    exact ⟨_, state.readyQueueHead, rfl, Or.inr ⟨last, isTail, rfl⟩, fun _ same => Or.inr same⟩

/-- Removing the head of the job queue, which is not empty. -/
theorem removeJobQueueHeadNode_queued {process : Node} {rest : List Node}
    (queued : state.Queued (process :: rest)) :
    ∃ head tail, removeJobQueueHeadNode state =
        (some process, { state with jobQueueHead := head, jobQueueTail := tail }) ∧
      Queued state.nextNode head tail rest ∧ (rest ≠ [] → tail = state.jobQueueTail) := by
  have isHead : state.jobQueueHead = some process := queued.head
  have isTail := queued.tail
  unfold removeJobQueueHeadNode
  rw [isHead]
  dsimp only
  by_cases more : rest = []
  · subst more
    rw [isTail, if_pos (by rfl)]
    exact ⟨none, none, rfl, ⟨List.nodup_nil, rfl, rfl⟩, fun more => absurd rfl more⟩
  · have apart : ¬ some process = state.jobQueueTail := by
      intro same
      have within := (queued.remove more).tail
      rw [← same] at within
      exact (List.nodup_cons.mp queued.distinct).1 (List.mem_of_getLast? within.symm)
    rw [if_neg apart]
    exact ⟨_, state.jobQueueTail, rfl, queued.remove more, fun _ => rfl⟩

end Queue

/-! ### The scheduling loop -/

section Loop

variable {Node : Type*} {processes : Processes Node} {state next : State Node} {queue : List Node}

structure Invariant (processes : Processes Node) (state : State Node) (queue : List Node) :
    Prop where
  queued : state.Queued queue
  members : ∀ node ∈ queue, node ∈ processes.nodes
  positive : ∀ node ∈ queue, 0 < state.burstTime node
  /-- The process that ran last and was not finished is at the tail of both queues. -/
  shared : queue ≠ [] → state.readyQueueTail = none ∨ state.readyQueueTail = state.jobQueueTail
  headWithin : ∀ node, state.readyQueueHead = some node → node ∈ processes.nodes
  nextWithin : ∀ node other, state.nextNode node = some other → other ∈ processes.nodes
  granted : processes.nodes.length ≤ state.slices.length + queue.length
  repeated : state.readyQueueHead ≠ none →
    processes.nodes.length < state.slices.length + queue.length

def remaining (state : State Node) (queue : List Node) : Nat :=
  (queue.map fun node => (state.burstTime node).toNat).sum

variable [DecidableEq Node]

theorem remaining_others {burstTime : Node → Int} {process : Node} {rest : List Node}
    (new : process ∉ rest) (time : Int) :
    (rest.map fun node => (Function.update burstTime process time node).toNat) =
      rest.map fun node => (burstTime node).toNat := by
  refine List.map_congr_left fun node member => ?_
  rw [Function.update_of_ne]
  rintro rfl
  exact new member

def State.ran (state : State Node) (head tail : Option Node) (process : Node) : State Node :=
  grant { state with jobQueueHead := head, jobQueueTail := tail } process

theorem Invariant.ran_burstTime {process node : Node} {rest : List Node} {head tail : Option Node}
    (held : Invariant processes state (process :: rest)) (waits : node ∈ rest) :
    (state.ran head tail process).burstTime node = state.burstTime node := by
  apply Function.update_of_ne
  rintro rfl
  exact (List.nodup_cons.mp held.queued.distinct).1 waits

/-- The process has run out, and nothing else happens to it. -/
theorem Invariant.finish {process : Node} {rest : List Node} {head tail : Option Node}
    (held : Invariant processes state (process :: rest))
    (queued : Queued state.nextNode head tail rest)
    (same : rest ≠ [] → tail = state.jobQueueTail) :
    Invariant processes (state.ran head tail process) rest := by
  have granted := held.granted
  have repeated := held.repeated
  rw [List.length_cons] at granted repeated
  have slices : (state.ran head tail process).slices.length = state.slices.length + 1 :=
    List.length_append
  constructor
  case queued => exact queued
  case members => exact fun node member => held.members node (List.mem_cons_of_mem _ member)
  case positive =>
    intro node member
    rw [held.ran_burstTime member]
    exact held.positive node (List.mem_cons_of_mem _ member)
  case shared =>
    intro more
    have before := held.shared (List.cons_ne_nil _ _)
    rwa [← same more] at before
  case headWithin => exact held.headWithin
  case nextWithin => exact held.nextWithin
  case granted => omega
  case repeated =>
    intro recorded
    have more := repeated recorded
    omega

/-- The store behind the tail of the ready queue repeats the store behind the tail of the job
queue, if the latter held another node. -/
theorem Invariant.requeue_queued {process : Node} {rest : List Node} {head tail : Option Node}
    {jobNext readyNext : Node → Option Node} (held : Invariant processes state (process :: rest))
    (same : rest ≠ [] → tail = state.jobQueueTail)
    (inserted : Queued jobNext head (some process) (rest ++ [process]))
    (behind : ∀ last, tail = some last → jobNext last = some process)
    (stored : readyNext = jobNext ∨ ∃ last, state.readyQueueTail = some last ∧
      readyNext = Function.update jobNext last (some process)) :
    Queued readyNext head (some process) (rest ++ [process]) := by
  rcases stored with rfl | ⟨last, isTail, rfl⟩
  · exact inserted
  · by_cases more : rest = []
    · subst more
      exact ⟨List.nodup_singleton process, rfl, inserted.linked⟩
    · have shared : state.readyQueueTail = state.jobQueueTail := by
        refine (held.shared (List.cons_ne_nil process rest)).resolve_left ?_
        rw [isTail]
        exact nofun
      have pointed : jobNext last = some process := by
        refine behind last ?_
        rw [same more, ← shared]
        exact isTail
      have twice : Function.update jobNext last (some process) = jobNext := by
        rw [← pointed, Function.update_eq_self]
      rw [twice]
      exact inserted

/-- The process goes to the tail of both queues. -/
theorem Invariant.requeue {process : Node} {rest : List Node} {head tail : Option Node}
    (held : Invariant processes state (process :: rest))
    (queued : Queued state.nextNode head tail rest)
    (same : rest ≠ [] → tail = state.jobQueueTail)
    (left : 0 < (state.ran head tail process).burstTime process) :
    Invariant processes
      (insertNodeToReadyQueue (insertNodeJobQueue (state.ran head tail process) process) process)
      (rest ++ [process]) := by
  have new := (List.nodup_cons.mp held.queued.distinct).1
  have granted := held.granted
  rw [List.length_cons] at granted
  have slices : (state.ran head tail process).slices.length = state.slices.length + 1 :=
    List.length_append
  have member : process ∈ processes.nodes := held.members process List.mem_cons_self
  have ranQueued : (state.ran head tail process).Queued rest := queued
  have inserted := insertNodeJobQueue_queued ranQueued new
  obtain ⟨jobNext, jobHead, jobInserted, jobLeads, behind⟩ :=
    insertNodeJobQueue_frame (state.ran head tail process) process
  obtain ⟨readyNext, readyHead, readyInserted, stored, recorded⟩ :=
    insertNodeToReadyQueue_frame (insertNodeJobQueue (state.ran head tail process) process) process
  rw [readyInserted]
  rw [jobInserted] at inserted stored recorded ⊢
  constructor
  case queued =>
    change Queued readyNext jobHead (some process) (rest ++ [process])
    exact held.requeue_queued same inserted behind stored
  case members =>
    intro node among
    rcases List.mem_append.mp among with among | among
    · exact held.members node (List.mem_cons_of_mem _ among)
    · rw [List.mem_singleton.mp among]
      exact member
  case positive =>
    intro node among
    change 0 < (state.ran head tail process).burstTime node
    rcases List.mem_append.mp among with earlier | last
    · rw [held.ran_burstTime earlier]
      exact held.positive node (List.mem_cons_of_mem _ earlier)
    · rw [List.mem_singleton.mp last]
      exact left
  case shared => exact fun _ => Or.inr rfl
  case headWithin =>
    intro node isHead
    rcases recorded node isHead with rfl | before
    · exact member
    · exact held.headWithin node before
  case nextWithin =>
    intro node other leads
    have fromJob : other = process ∨ jobNext node = some other := by
      rcases stored with rfl | ⟨last, _, rfl⟩
      · exact Or.inr leads
      · exact update_leads leads
    rcases fromJob with rfl | leads
    · exact member
    · rcases jobLeads node other leads with rfl | leads
      · exact member
      · exact held.nextWithin node other leads
  case granted =>
    change _ ≤ (state.ran head tail process).slices.length + _
    rw [List.length_append, List.length_singleton]
    omega
  case repeated =>
    intro _
    change _ < (state.ran head tail process).slices.length + _
    rw [List.length_append, List.length_singleton]
    omega

theorem insertNode_burstTime (state : State Node) (node : Node) :
    (insertNodeToReadyQueue (insertNodeJobQueue state node) node).burstTime = state.burstTime := by
  obtain ⟨_, _, jobInserted, _, _⟩ := insertNodeJobQueue_frame state node
  obtain ⟨_, _, readyInserted, _, _⟩ :=
    insertNodeToReadyQueue_frame (insertNodeJobQueue state node) node
  rw [readyInserted, jobInserted]

theorem quantum_pos : 0 < quantum := by decide

/-- One iteration follows no null pointer, and there is less to do after it. -/
theorem Invariant.slice {process : Node} {rest : List Node}
    (held : Invariant processes state (process :: rest)) :
    ∃ next queue, slice state = some next ∧ Invariant processes next queue ∧
      remaining next queue < remaining state (process :: rest) := by
  obtain ⟨head, tail, removed, queued, same⟩ := removeJobQueueHeadNode_queued held.queued
  have new := (List.nodup_cons.mp held.queued.distinct).1
  have positive := held.positive process List.mem_cons_self
  have shorter := quantum_pos
  have own : (state.ran head tail process).burstTime process =
      state.burstTime process - quantum := Function.update_self ..
  have others : (rest.map fun node => ((state.ran head tail process).burstTime node).toNat) =
      rest.map fun node => (state.burstTime node).toNat := remaining_others new _
  have ran : RoundRobin.slice state =
      if (state.ran head tail process).burstTime process > 0 then
        some (insertNodeToReadyQueue
          (insertNodeJobQueue (state.ran head tail process) process) process)
      else some (state.ran head tail process) := by
    rw [RoundRobin.slice, removed]
    rfl
  rw [ran]
  by_cases left : 0 < (state.ran head tail process).burstTime process
  · refine ⟨_, _, if_pos left, held.requeue queued same left, ?_⟩
    unfold remaining
    rw [insertNode_burstTime, List.map_append, List.sum_append, others]
    simp only [List.map_cons, List.map_nil, List.sum_cons, List.sum_nil, own]
    rw [own] at left
    omega
  · refine ⟨_, _, if_neg left, held.finish queued same, ?_⟩
    unfold remaining
    rw [others, List.map_cons, List.sum_cons]
    omega

omit [DecidableEq Node] in
theorem Invariant.head_eq_none {queue : List Node} (held : Invariant processes state queue) :
    state.jobQueueHead = none ↔ queue = [] := by
  rw [held.queued.head, List.head?_eq_none_iff]

/-- The loop ends, with an empty job queue. -/
theorem Invariant.terminates (held : Invariant processes state queue) :
    ∃ fuel final, schedule fuel state = some final ∧ Invariant processes final [] := by
  obtain ⟨bound, measure⟩ : ∃ bound, remaining state queue < bound := ⟨_, Nat.lt_succ_self _⟩
  induction bound generalizing state queue with
  | zero => exact absurd measure (Nat.not_lt_zero _)
  | succ bound ih =>
      cases queue with
      | nil => exact ⟨1, state, if_pos (held.head_eq_none.mpr rfl), held⟩
      | cons process rest =>
          obtain ⟨next, later, sliced, heldNext, less⟩ := held.slice
          obtain ⟨fuel, final, ended, heldFinal⟩ := ih heldNext (by omega)
          refine ⟨fuel + 1, final, ?_, heldFinal⟩
          have more : ¬ state.jobQueueHead = none := fun empty =>
            List.cons_ne_nil _ _ (held.head_eq_none.mp empty)
          rw [schedule, if_neg more, sliced, Option.bind_some, ended]

/-- Whenever the loop has ended, all invariants hold of an empty job queue. -/
theorem Invariant.of_schedule (held : Invariant processes state queue) {fuel : Nat}
    {final : State Node} (ended : schedule fuel state = some final) :
    Invariant processes final [] := by
  induction fuel generalizing state queue with
  | zero => cases ended
  | succ fuel ih =>
      rw [schedule] at ended
      cases queue with
      | nil =>
          rw [if_pos (held.head_eq_none.mpr rfl)] at ended
          cases ended
          exact held
      | cons process rest =>
          obtain ⟨next, later, sliced, heldNext, _⟩ := held.slice
          have more : ¬ state.jobQueueHead = none := fun empty =>
            List.cons_ne_nil _ _ (held.head_eq_none.mp empty)
          rw [if_neg more, sliced, Option.bind_some] at ended
          exact ih heldNext ended

/-! ### The initial job queue -/

theorem insertNodes_queued {inserted new : List Node} (queued : state.Queued inserted)
    (distinct : (inserted ++ new).Nodup) :
    (new.foldl insertNodeJobQueue state).Queued (inserted ++ new) ∧
      (∃ nextNode head tail, new.foldl insertNodeJobQueue state = { state with
        nextNode := nextNode
        jobQueueHead := head
        jobQueueTail := tail }) ∧
      ∀ node other, (new.foldl insertNodeJobQueue state).nextNode node = some other →
        other ∈ new ∨ state.nextNode node = some other := by
  induction new generalizing state inserted with
  | nil =>
      rw [List.append_nil]
      exact ⟨queued, ⟨_, _, _, rfl⟩, fun _ _ leads => Or.inr leads⟩
  | cons first new ih =>
      have apart : first ∉ inserted := fun member =>
        List.disjoint_of_nodup_append distinct member List.mem_cons_self
      obtain ⟨nextNode, head, frame, leads, _⟩ := insertNodeJobQueue_frame state first
      obtain ⟨whole, ⟨laterNext, laterHead, laterTail, later⟩, within⟩ :=
        ih (insertNodeJobQueue_queued queued apart) (by simpa using distinct)
      rw [List.append_assoc, List.singleton_append] at whole
      rw [List.foldl_cons]
      refine ⟨whole, ⟨laterNext, laterHead, laterTail, by rw [later, frame]⟩, ?_⟩
      intro node other leadsNow
      rcases within node other leadsNow with member | before
      · exact Or.inl (List.mem_cons_of_mem _ member)
      · rw [frame] at before
        rcases leads node other before with rfl | before
        · exact Or.inl List.mem_cons_self
        · exact Or.inr before

theorem invariant_initial (processes : Processes Node) :
    Invariant processes processes.initial processes.nodes := by
  have queued : processes.unqueued.Queued [] := ⟨List.nodup_nil, rfl, rfl⟩
  obtain ⟨whole, ⟨nextNode, head, tail, frame⟩, within⟩ :=
    insertNodes_queued queued (show ([] ++ processes.nodes).Nodup from processes.distinct)
  rw [← Processes.initial] at whole frame within
  constructor
  case queued => exact whole
  case members => exact fun _ member => member
  case positive =>
    intro node member
    rw [frame]
    exact processes.positive node member
  case shared =>
    intro _
    rw [frame]
    exact Or.inl rfl
  case headWithin =>
    intro node isHead
    rw [frame] at isHead
    cases isHead
  case nextWithin =>
    intro node other leads
    rcases within node other leads with member | before
    · exact member
    · cases before
  case granted => exact Nat.le_add_left _ _
  case repeated =>
    intro recorded
    rw [frame] at recorded
    exact absurd rfl recorded

/-- The scheduling loop comes to its end for every job queue. -/
theorem schedule_terminates (processes : Processes Node) :
    ∃ fuel final, schedule fuel processes.initial = some final ∧ final.jobQueueHead = none := by
  obtain ⟨fuel, final, ended, held⟩ := (invariant_initial processes).terminates
  exact ⟨fuel, final, ended, held.head_eq_none.mpr rfl⟩

/-! ### The record -/

/-- The claim of the header comment: the loop ends with an empty job queue, and the ready
queue is a list with one entry for each slice, in order, that adds up to the burst times. -/
structure Recorded (processes : Processes Node) (final : State Node) : Prop where
  finished : final.jobQueueHead = none
  entries : ∃ entries, Segment final.nextNode final.readyQueueHead entries none ∧
    entries.map processes.processID = final.slices.map processes.processID ∧
    ∀ processID, ((entries.filter (processes.processID · = processID)).map final.burstTime).sum =
      ((processes.nodes.filter (processes.processID · = processID)).map processes.burstTime).sum
  prints : ∃ fuel printed,
    printLinkedList processes final fuel final.readyQueueHead = some printed

def Schedules (processes : Processes Node) : Prop :=
  ∃ fuel final, schedule fuel processes.initial = some final ∧ Recorded processes final

omit [DecidableEq Node] in
/-- The nodes of a list that ends are distinct, and there are as many slices as
processes, or more. -/
theorem Invariant.not_recorded {final : State Node} (held : Invariant processes final [])
    (some_ : processes.nodes ≠ []) : ¬ Recorded processes final := by
  intro recorded
  obtain ⟨entries, ends, slices, _⟩ := recorded.entries
  have lengths := congrArg List.length slices
  rw [List.length_map, List.length_map] at lengths
  have granted := held.granted
  have repeated := held.repeated
  have positive := List.length_pos_of_ne_nil some_
  rw [List.length_nil, Nat.add_zero] at granted repeated
  by_cases started : final.readyQueueHead = none
  · rw [started] at ends
    have none_ : entries = [] := Segment.unique ends rfl
    rw [none_, List.length_nil] at lengths
    omega
  · have more := repeated started
    have visits : Links.Visits ⟨final.readyQueueHead, final.nextNode⟩ entries := ends
    have inside : entries ⊆ processes.nodes := visits.within (· ∈ processes.nodes)
      held.headWithin fun node other _ leads => held.nextWithin node other leads
    have few := (List.subperm_of_subset ends.nodup inside).length_le
    omega

theorem not_schedules (processes : Processes Node) (some_ : processes.nodes ≠ []) :
    ¬ Schedules processes := by
  rintro ⟨fuel, final, ended, recorded⟩
  exact ((invariant_initial processes).of_schedule ended).not_recorded some_ recorded

/-- The ready queue is a record of the schedule just when there is nothing to schedule. -/
theorem roundRobin_recorded_iff (processes : Processes Node) :
    Schedules processes ↔ processes.nodes = [] := by
  constructor
  · intro schedules
    by_contra some_
    exact not_schedules processes some_ schedules
  · intro none_
    have initial : processes.initial = processes.unqueued := by
      rw [Processes.initial, none_, List.foldl_nil]
    refine ⟨1, processes.unqueued, by rw [initial]; rfl, rfl, ?_, 0, [], rfl⟩
    exact ⟨[], rfl, rfl, fun processID => by rw [none_]; rfl⟩

def onlyThirty : Processes (Fin 1) where
  nodes := [0]
  distinct := List.nodup_singleton 0
  processID := fun _ => 65
  burstTime := fun _ => 30
  positive := fun _ _ => by decide

theorem roundRobin_recorded_onlyThirty : ¬ Schedules onlyThirty :=
  not_schedules onlyThirty (List.cons_ne_nil _ _)

end Loop

end Cab403.Workshops.RoundRobin
