/-
The queue of calls between the connection handlers and the control loop, on the nodes
they allocate and free. A handler walks to the tail under `call_queue_mutex`, links its
node and signals; the control loop takes the head, or waits on the condition variable
while the list is empty. Any number of handlers run, and a wait may end by itself. To
answer a call is one step, taken when the answer returns; a failed `write` ends the process.
-/

import Cab403.Elevator.FloorQueue
import Cab403.Library.ActionRuns
import Cab403.Library.CriticalSection
import Cab403.Library.Custody
import Cab403.Library.NodeHeap

namespace Cab403.Elevator.CallQueue

open ActionRuns Controller CriticalSection LinkedChain

structure QueuedCall where
  call : Call
  fd : Nat
  deriving DecidableEq

inductive Thread (Handler : Type) where
  | control
  | handler (name : Handler)
  deriving DecidableEq

/-- Where a thread stands. The control loop goes from `locking` to `answering`, with
`waiting` inside `pthread_cond_wait` and `woken` with the mutex still to be had; a
handler goes from `ready` to `unlocking`. -/
inductive Point (Node : Type) where
  | locking
  | testing
  | waiting
  | woken
  | taken (current : Node)
  | answering (current : Node)
  | idle
  | ready (newCall : Node)
  | appending (newCall : Node)
  | signalling
  | unlocking
  deriving DecidableEq

def Point.call {Node : Type} : Point Node → Option Node
  | .taken node => some node
  | .answering node => some node
  | .ready node => some node
  | .appending node => some node
  | _ => none

def Inside {Node : Type} : Point Node → Prop
  | .testing => True
  | .taken _ => True
  | .appending _ => True
  | .signalling => True
  | .unlocking => True
  | _ => False

instance {Node : Type} (point : Point Node) : Decidable (Inside point) := by
  unfold Inside
  split <;> infer_instance

def OfControl {Node : Type} : Point Node → Prop
  | .locking => True
  | .testing => True
  | .waiting => True
  | .woken => True
  | .taken _ => True
  | .answering _ => True
  | _ => False

structure State (Handler Node : Type) where
  /-- The list at `call_queue_head`. -/
  calls : NodeHeap Unit Node QueuedCall
  mutex : Option (Thread Handler)
  points : Thread Handler → Point Node
  /-- The calls linked in and the calls answered so far, in order. -/
  arrived : List QueuedCall
  answered : List QueuedCall
  /-- A failed `write` has ended the process. -/
  exited : Bool

inductive Action (Handler Node : Type) where
  /-- A handler has read a `CALL` message and its `malloc` returned `node`. -/
  | receive (name : Handler) (call : QueuedCall) (node : Node)
  | step (thread : Thread Handler)
  /-- `pthread_cond_wait` returns without a signal. -/
  | spurious
  /-- The `write` of an answer, or of a `FLOOR` message before it, fails. -/
  | fail

section Steps

variable {Handler Node : Type} [DecidableEq Handler] [DecidableEq Node]

def State.stand (state : State Handler Node) (thread : Thread Handler) (point : Point Node) :
    State Handler Node :=
  { state with points := Function.update state.points thread point }

/-- `pthread_mutex_lock`, in a thread that goes on at `point`. -/
def State.lock (state : State Handler Node) (thread : Thread Handler) (point : Point Node) :
    Option (State Handler Node) :=
  if state.mutex = none then some { state.stand thread point with mutex := some thread } else none

def advance (state : State Handler Node) (thread : Thread Handler) :
    Option (State Handler Node) :=
  match state.points thread with
  | .locking => state.lock thread .testing
  | .testing =>
      match state.calls.head () with
      | none => some { state.stand thread .waiting with mutex := none }
      | some node => do
          let next ← state.calls.follow node
          return { state.stand thread (.taken node) with calls := state.calls.setHead () next }
  | .waiting => none
  | .woken => state.lock thread .testing
  | .taken node => some { state.stand thread (.answering node) with mutex := none }
  | .answering node => do
      let call ← state.calls.load node
      let calls ← state.calls.free node
      return { state.stand thread .locking with
        calls := calls, answered := state.answered ++ [call] }
  | .idle => none
  | .ready node => state.lock thread (.appending node)
  | .appending node => do
      let call ← state.calls.load node
      let calls ← state.calls.append () node
      return { state.stand thread .signalling with
        calls := calls, arrived := state.arrived ++ [call] }
  | .signalling =>
      let state := state.stand thread .unlocking
      some (if state.points .control = .waiting then state.stand .control .woken else state)
  | .unlocking => some { state.stand thread .idle with mutex := none }

def perform (state : State Handler Node) : Action Handler Node → Option (State Handler Node)
  | .receive name call node =>
      if state.points (.handler name) = .idle then
        some { state.stand (.handler name) (.ready node) with
          calls := state.calls.malloc node call }
      else none
  | .step thread => advance state thread
  | .spurious =>
      if state.points .control = .waiting then some (state.stand .control .woken) else none
  | .fail =>
      match state.points .control with
      | .answering _ => some { state with exited := true }
      | _ => none

def step (state : State Handler Node) (action : Action Handler Node) :
    Option (State Handler Node) :=
  if state.exited = false then perform state action else none

def start (next : Node → Option Node) (item : Node → QueuedCall) : State Handler Node :=
  { calls := { head := fun _ => none, next := next, item := item, live := ∅ }
    mutex := none
    points := fun thread => if thread = .control then .locking else .idle
    arrived := []
    answered := []
    exited := false }

/-- `malloc` returns memory that is not in use. -/
def FreshCall (state : State Handler Node) : Action Handler Node → Prop
  | .receive _ _ node => node ∉ state.calls.live
  | _ => True

def Blocked (state : State Handler Node) (thread : Thread Handler) : Prop :=
  match state.points thread with
  | .waiting => True
  | .idle => True
  | .locking => state.mutex ≠ none
  | .woken => state.mutex ≠ none
  | .ready _ => state.mutex ≠ none
  | _ => False

end Steps

/-! ### Safety -/

section Safety

variable {Handler Node : Type} [DecidableEq Handler] {state : State Handler Node}
  {pending : List Node} {thread : Thread Handler} {origin point : Point Node} {node : Node}

def hands (points : Thread Handler → Point Node) (thread : Thread Handler) : Option Node :=
  (points thread).call

/-- The list is `pending`, every other node is in the hand of one thread, and the calls
that have arrived are those answered, the one in hand and those pending, in order. -/
structure Queued (state : State Handler Node) (pending : List Node) : Prop where
  keeps : state.calls.Keeps fun _ => pending
  custody : Custody state.calls.live pending (hands state.points)
  null : ∀ thread node, state.points thread = .ready node ∨ state.points thread = .appending node →
    state.calls.next node = none
  inOrder : state.arrived =
    state.answered ++ ((state.points .control).call.toList ++ pending).map state.calls.item
  control : OfControl (state.points .control)
  handlers : ∀ name, ¬ OfControl (state.points (.handler name))
  exclusive : Exclusive Inside state.points state.mutex

theorem start_queued (following : Node → Option Node) (item : Node → QueuedCall) :
    Queued (start following item : State Handler Node) [] := by
  have empty : hands (start following item : State Handler Node).points = fun _ => none := by
    funext thread
    cases thread <;> rfl
  refine
    { keeps := ⟨fun _ => rfl, nofun, nofun⟩
      custody := by
        rw [empty]
        exact Custody.initial
      null := fun thread node stands => ?_
      inOrder := rfl
      control := trivial
      handlers := fun name => id
      exclusive := Exclusive.free fun thread => ?_ }
  · cases thread <;> rcases stands with stands | stands <;> cases stands
  · cases thread <;> exact id

theorem hands_update (points : Thread Handler → Point Node) (thread : Thread Handler)
    (point : Point Node) :
    hands (Function.update points thread point) =
      Function.update (hands points) thread point.call :=
  Function.comp_update Point.call points thread point

theorem update_handler (points : Thread Handler → Point Node) (name : Handler)
    (point : Point Node) :
    Function.update points (.handler name) point .control = points .control := by
  apply Function.update_of_ne
  nofun

/-- A thread moves to a point, with what it does to the list and to what it has in hand. -/
theorem Queued.act {after : State Handler Node} {left : List Node}
    (queued : Queued state pending) (side : OfControl point ↔ OfControl (state.points thread))
    (points : after.points = Function.update state.points thread point)
    (keeps : after.calls.Keeps fun _ => left)
    (custody :
      Custody after.calls.live left (Function.update (hands state.points) thread point.call))
    (null : ∀ node, point = .ready node ∨ point = .appending node → after.calls.next node = none)
    (frame : ∀ other node, other ≠ thread → hands state.points other = some node →
      after.calls.next node = state.calls.next node)
    (inOrder : after.arrived =
      after.answered ++ ((after.points .control).call.toList ++ left).map after.calls.item)
    (exclusive : Exclusive Inside after.points after.mutex) : Queued after left where
  keeps := keeps
  custody := by
    rw [points, hands_update]
    exact custody
  null := by
    intro other node stands
    rw [points] at stands
    by_cases moves : other = thread
    · subst other
      rw [Function.update_self] at stands
      exact null node stands
    · rw [Function.update_of_ne moves] at stands
      have inHand : hands state.points other = some node := by
        rcases stands with stands | stands <;> rw [hands, stands] <;> rfl
      rw [frame other node moves inHand]
      exact queued.null other node stands
  inOrder := inOrder
  control := by
    rw [points]
    by_cases moves : Thread.control = thread
    · subst thread
      rw [Function.update_self, side]
      exact queued.control
    · rw [Function.update_of_ne moves]
      exact queued.control
  handlers := by
    intro name
    rw [points]
    by_cases moves : Thread.handler name = thread
    · subst thread
      rw [Function.update_self, side]
      exact queued.handlers name
    · rw [Function.update_of_ne moves]
      exact queued.handlers name
  exclusive := exclusive

/-- A thread moves on with what it has in hand. -/
theorem Queued.move (queued : Queued state pending) (stands : state.points thread = origin)
    {mutex : Option (Thread Handler)} (same : point.call = origin.call)
    (side : OfControl point ↔ OfControl origin)
    (unready : ∀ node, point = .ready node ∨ point = .appending node → origin = .ready node)
    (exclusive : Exclusive Inside (Function.update state.points thread point) mutex) :
    Queued { state.stand thread point with mutex := mutex } pending := by
  subst stands
  have kept : Function.update (hands state.points) thread point.call = hands state.points := by
    rw [same]
    exact Function.update_eq_self _ _
  refine queued.act side rfl queued.keeps ?_ ?_ (fun _ _ _ _ => rfl) ?_ exclusive
  · rw [kept]
    exact queued.custody
  · intro node ready
    exact queued.null thread node (Or.inl (unready node ready))
  · have atControl : (Function.update state.points thread point .control).call =
        (state.points .control).call := by
      have same := congrFun kept .control
      rw [← hands_update] at same
      exact same
    simp only [State.stand, atControl]
    exact queued.inOrder

theorem Queued.lock (queued : Queued state pending) (free : state.mutex = none)
    (stands : state.points thread = origin) (same : point.call = origin.call)
    (side : OfControl point ↔ OfControl origin)
    (unready : ∀ node, point = .ready node ∨ point = .appending node → origin = .ready node)
    (enters : Inside point) :
    state.lock thread point = some { state.stand thread point with mutex := some thread } ∧
      Queued { state.stand thread point with mutex := some thread } pending := by
  have exclusive := queued.exclusive
  rw [free] at exclusive
  exact ⟨if_pos free, queued.move stands same side unready (exclusive.lock enters)⟩

theorem Queued.unlock (queued : Queued state pending) (stands : state.points thread = origin)
    (same : point.call = origin.call) (side : OfControl point ↔ OfControl origin)
    (unready : ∀ node, point = .ready node ∨ point = .appending node → origin = .ready node)
    (within : Inside origin) (leaves : ¬ Inside point) :
    Queued { state.stand thread point with mutex := none } pending := by
  refine queued.move stands same side unready (queued.exclusive.unlock ?_ leaves)
  rw [stands]
  exact within

/-- A wake-up of the control loop, by a signal or by none. -/
theorem Queued.wake (queued : Queued state pending) (stands : state.points .control = .waiting) :
    Queued (state.stand .control .woken) pending := by
  refine queued.move stands rfl Iff.rfl nofun (queued.exclusive.move ?_)
  rw [stands]
  exact Iff.rfl

omit [DecidableEq Handler] in
theorem Queued.is_control (queued : Queued state pending) (stands : state.points thread = origin)
    (side : OfControl origin) : thread = .control := by
  cases thread with
  | control => rfl
  | handler name =>
      rw [← stands] at side
      exact absurd side (queued.handlers name)

omit [DecidableEq Handler] in
theorem Queued.is_handler (queued : Queued state pending) (stands : state.points thread = origin)
    (side : ¬ OfControl origin) : ∃ name, thread = .handler name := by
  cases thread with
  | control =>
      rw [← stands] at side
      exact absurd queued.control side
  | handler name => exact ⟨name, rfl⟩

variable [DecidableEq Node]

theorem update_unit {Value : Type} (base : Unit → Value) (value : Value) :
    Function.update base () value = fun _ => value := by
  funext anchor
  exact Function.update_self _ _ _

/-- A handler signals the control loop, which may or may not wait. -/
theorem Queued.signal {name : Handler} (queued : Queued state pending)
    (stands : state.points (.handler name) = .signalling) :
    ∃ after, advance state (.handler name) = some after ∧ Queued after pending := by
  have moved : Queued (state.stand (.handler name) .unlocking) pending := by
    refine queued.move stands rfl Iff.rfl nofun (queued.exclusive.move ?_)
    rw [stands]
    exact Iff.rfl
  rw [advance, stands]
  refine ⟨_, rfl, ?_⟩
  split
  · rename_i waits
    exact moved.wake waits
  · exact moved

/-- The control loop takes the head of the list. -/
theorem Queued.take {rest : List Node} (queued : Queued state (node :: rest))
    (stands : state.points .control = .testing) :
    advance state .control = some { state.stand .control (.taken node) with
        calls := state.calls.setHead () rest.head? } ∧
      Queued { state.stand .control (.taken node) with
        calls := state.calls.setHead () rest.head? } rest := by
  have whole : state.calls.Keeps (Function.update (fun _ => node :: rest) () (node :: rest)) := by
    rw [update_unit]
    exact queued.keeps
  have popped := whole.pop.1
  rw [update_unit] at popped
  have first : state.calls.head () = some node := queued.keeps.head_eq ()
  have followed : state.calls.follow node = some rest.head? :=
    @NodeHeap.Keeps.follow_eq _ _ _ _ _ _ () queued.keeps [] rest node rfl
  have alive : node ∈ state.calls.live := queued.keeps.allocated () node List.mem_cons_self
  have distinct := List.nodup_cons.mp (queued.keeps.nodup ())
  have empty : hands state.points .control = none := by
    rw [hands, stands]
    rfl
  constructor
  · simp only [advance, stands, first, followed, Option.bind_eq_bind, Option.bind_some]
    rfl
  refine queued.act ?_ rfl popped ?_ ?_ (fun _ _ _ _ => rfl) ?_ ?_
  · rw [stands]
    exact Iff.rfl
  · exact queued.custody.take empty alive distinct.1 fun other => List.mem_cons
  · intro kept stand
    rcases stand with stand | stand <;> cases stand
  · have before := queued.inOrder
    rw [stands] at before
    simp only [State.stand, Function.update_self]
    exact before
  · refine queued.exclusive.move ?_
    rw [stands]
    exact Iff.rfl

/-- The control loop finds no call and gives up the mutex to wait. -/
theorem Queued.wait (queued : Queued state []) (stands : state.points .control = .testing) :
    advance state .control = some { state.stand .control .waiting with mutex := none } ∧
      Queued { state.stand .control .waiting with mutex := none } [] := by
  have empty : state.calls.head () = none := queued.keeps.head_eq ()
  constructor
  · rw [advance, stands]
    simp only [empty]
  · exact queued.unlock stands rfl Iff.rfl nofun trivial id

/-- The control loop answers the call it has in hand and frees it. -/
theorem Queued.answer (queued : Queued state pending)
    (stands : state.points .control = .answering node) :
    advance state .control = some { state.stand .control .locking with
        calls := { state.calls with live := state.calls.live.erase node }
        answered := state.answered ++ [state.calls.item node] } ∧
      Queued { state.stand .control .locking with
        calls := { state.calls with live := state.calls.live.erase node }
        answered := state.answered ++ [state.calls.item node] } pending := by
  have has : hands state.points .control = some node := by
    rw [hands, stands]
    rfl
  obtain ⟨alive, outside⟩ := queued.custody.held .control node has
  have loaded : state.calls.load node = some (state.calls.item node) := if_pos alive
  have freed : state.calls.free node =
      some { state.calls with live := state.calls.live.erase node } := if_pos alive
  constructor
  · simp only [advance, stands, loaded, freed, Option.bind_eq_bind, Option.bind_some]
    rfl
  refine queued.act ?_ rfl (queued.keeps.erase_outside fun _ => outside) ?_ ?_
    (fun _ _ _ _ => rfl) ?_ ?_
  · rw [stands]
    exact Iff.rfl
  · exact queued.custody.release has
  · intro kept stand
    rcases stand with stand | stand <;> cases stand
  · have before := queued.inOrder
    rw [stands] at before
    simp only [State.stand, Function.update_self]
    rw [before, List.append_assoc]
    rfl
  · refine queued.exclusive.move ?_
    rw [stands]
    exact Iff.rfl

/-- A handler links its node behind the last one. -/
theorem Queued.append {name : Handler} (queued : Queued state pending)
    (stands : state.points (.handler name) = .appending node) :
    ∃ after, advance state (.handler name) = some after ∧ Queued after (pending ++ [node]) := by
  have has : hands state.points (.handler name) = some node := by
    rw [hands, stands]
    rfl
  obtain ⟨alive, outside⟩ := queued.custody.held (.handler name) node has
  have null := queued.null (.handler name) node (Or.inr stands)
  have whole : state.calls.Keeps (Function.update (fun _ => pending) () (pending ++ [])) := by
    rw [update_unit, List.append_nil]
    exact queued.keeps
  obtain ⟨stored, attached⟩ := whole.attach null alive outside fun other apart =>
    absurd (Subsingleton.elim other ()) apart
  rw [update_unit] at attached
  have loaded : state.calls.load node = some (state.calls.item node) := if_pos alive
  have linked : state.calls.append () node =
      some (state.calls.write () (some node) pending.getLast?) := by
    rw [queued.keeps.append_eq]
    exact stored
  have appended : advance state (.handler name) =
      some { state.stand (.handler name) .signalling with
        calls := state.calls.write () (some node) pending.getLast?
        arrived := state.arrived ++ [state.calls.item node] } := by
    simp only [advance, stands, loaded, linked, Option.bind_eq_bind, Option.bind_some]
    rfl
  refine ⟨_, appended, ?_⟩
  refine queued.act ?_ rfl attached ?_ ?_ ?_ ?_ ?_
  · rw [stands]
    exact Iff.rfl
  · rw [NodeHeap.write_live]
    exact queued.custody.append has fun other => by rw [List.mem_append, List.mem_singleton]
  · intro kept stand
    rcases stand with stand | stand <;> cases stand
  · intro other kept _ inHand
    refine NodeHeap.write_next_of_ne fun last => ?_
    exact (queued.custody.held other kept inHand).2 (List.mem_of_getLast? last)
  · have before := queued.inOrder
    simp only [State.stand, NodeHeap.write_item]
    rw [update_handler, before]
    simp only [List.map_append, List.append_assoc, List.map_cons, List.map_nil]
  · refine queued.exclusive.move ?_
    rw [stands]
    exact Iff.rfl

/-- A handler has a new node for the call it has read. -/
theorem Queued.receive {name : Handler} (queued : Queued state pending)
    (stands : state.points (.handler name) = .idle) (call : QueuedCall)
    (fresh : node ∉ state.calls.live) :
    Queued { state.stand (.handler name) (.ready node) with
      calls := state.calls.malloc node call } pending := by
  have empty : hands state.points (.handler name) = none := by
    rw [hands, stands]
    rfl
  have within : ∀ other ∈ pending, other ∈ state.calls.live := queued.keeps.allocated ()
  refine queued.act ?_ rfl (queued.keeps.malloc call fresh) ?_ ?_ ?_ ?_ ?_
  · rw [stands]
    exact Iff.rfl
  · exact queued.custody.receive within empty fresh
  · intro kept stand
    rcases stand with stand | stand
    · cases stand
      exact Function.update_self _ _ _
    · cases stand
  · intro other kept _ inHand
    apply NodeHeap.malloc_next_of_ne
    rintro rfl
    exact fresh (queued.custody.held other kept inHand).1
  · simp only [State.stand]
    rw [update_handler, queued.inOrder]
    congr 1
    apply List.map_congr_left
    intro other member
    refine (NodeHeap.malloc_item_of_ne ?_).symm
    rintro rfl
    rcases List.mem_append.mp member with inHand | inList
    · exact fresh (queued.custody.held .control other (Option.mem_toList.mp inHand)).1
    · exact fresh (within other inList)
  · refine queued.exclusive.move ?_
    rw [stands]
    exact Iff.rfl

/-- A thread that is not blocked takes its step, and none touches memory it must not. -/
theorem Queued.advance_eq (queued : Queued state pending) (thread : Thread Handler)
    (ready : ¬ Blocked state thread) :
    ∃ after left, advance state thread = some after ∧ Queued after left := by
  unfold Blocked at ready
  cases stands : state.points thread with
  | locking =>
      rw [stands, not_not] at ready
      obtain ⟨locked, queuedAfter⟩ :=
        @Queued.lock _ _ _ _ _ _ _ .testing queued ready stands rfl Iff.rfl nofun trivial
      exact ⟨_, pending, by rw [advance, stands]; exact locked, queuedAfter⟩
  | testing =>
      obtain rfl := queued.is_control stands trivial
      cases pending with
      | nil =>
          obtain ⟨waits, queuedAfter⟩ := queued.wait stands
          exact ⟨_, [], waits, queuedAfter⟩
      | cons node rest =>
          obtain ⟨taken, queuedAfter⟩ := queued.take stands
          exact ⟨_, rest, taken, queuedAfter⟩
  | waiting =>
      rw [stands] at ready
      exact absurd trivial ready
  | woken =>
      rw [stands, not_not] at ready
      obtain ⟨locked, queuedAfter⟩ :=
        @Queued.lock _ _ _ _ _ _ _ .testing queued ready stands rfl Iff.rfl nofun trivial
      exact ⟨_, pending, by rw [advance, stands]; exact locked, queuedAfter⟩
  | taken node =>
      refine ⟨_, pending, by rw [advance, stands], ?_⟩
      exact queued.unlock stands rfl Iff.rfl nofun trivial id
  | answering node =>
      obtain rfl := queued.is_control stands trivial
      obtain ⟨answered, queuedAfter⟩ := queued.answer stands
      exact ⟨_, pending, answered, queuedAfter⟩
  | idle =>
      rw [stands] at ready
      exact absurd trivial ready
  | ready node =>
      rw [stands, not_not] at ready
      have unready (kept : Node) : Point.appending node = .ready kept ∨
          Point.appending node = .appending kept → Point.ready node = .ready kept := by
        intro same
        rcases same with same | same <;> cases same
        rfl
      obtain ⟨locked, queuedAfter⟩ :=
        @Queued.lock _ _ _ _ _ _ _ (.appending node) queued ready stands rfl Iff.rfl unready trivial
      exact ⟨_, pending, by rw [advance, stands]; exact locked, queuedAfter⟩
  | appending node =>
      obtain ⟨name, rfl⟩ := queued.is_handler stands id
      obtain ⟨after, appended, queuedAfter⟩ := queued.append stands
      exact ⟨after, _, appended, queuedAfter⟩
  | signalling =>
      obtain ⟨name, rfl⟩ := queued.is_handler stands id
      obtain ⟨after, signalled, queuedAfter⟩ := queued.signal stands
      exact ⟨after, pending, signalled, queuedAfter⟩
  | unlocking =>
      refine ⟨_, pending, by rw [advance, stands], ?_⟩
      exact queued.unlock stands rfl Iff.rfl nofun trivial id

theorem advance_blocked (blocked : Blocked state thread) : advance state thread = none := by
  unfold Blocked at blocked
  cases stands : state.points thread with
  | waiting => rw [advance, stands]
  | idle => rw [advance, stands]
  | locking =>
      rw [stands] at blocked
      rw [advance, stands]
      exact if_neg blocked
  | woken =>
      rw [stands] at blocked
      rw [advance, stands]
      exact if_neg blocked
  | ready node =>
      rw [stands] at blocked
      rw [advance, stands]
      exact if_neg blocked
  | testing => rw [stands] at blocked; cases blocked
  | taken node => rw [stands] at blocked; cases blocked
  | answering node => rw [stands] at blocked; cases blocked
  | appending node => rw [stands] at blocked; cases blocked
  | signalling => rw [stands] at blocked; cases blocked
  | unlocking => rw [stands] at blocked; cases blocked

theorem Queued.after_step {action : Action Handler Node} {next : State Handler Node}
    (queued : Queued state pending) (fresh : FreshCall state action)
    (stepped : step state action = some next) : ∃ left, Queued next left := by
  obtain ⟨_, taken⟩ := Option.ite_none_right_eq_some.mp stepped
  cases action with
  | receive name call node =>
      obtain ⟨stands, rfl⟩ := of_guarded taken
      exact ⟨pending, queued.receive stands call fresh⟩
  | step thread =>
      change advance state thread = some next at taken
      have ready : ¬ Blocked state thread := by
        intro blocked
        rw [advance_blocked blocked] at taken
        cases taken
      obtain ⟨after, left, advanced, queuedAfter⟩ := queued.advance_eq thread ready
      rw [taken] at advanced
      cases advanced
      exact ⟨left, queuedAfter⟩
  | spurious =>
      obtain ⟨stands, rfl⟩ := of_guarded taken
      exact ⟨pending, queued.wake stands⟩
  | fail =>
      simp only [perform] at taken
      split at taken
      · cases taken
        exact ⟨pending, { queued with }⟩
      · cases taken

end Safety

/-! ### No wake-up is lost -/

section Waking

variable {Handler Node : Type} [DecidableEq Handler] [DecidableEq Node]
  {state next : State Handler Node} {pending : List Node} {thread : Thread Handler}

/-- While the control loop waits without a wake-up, a call in the list has a handler
that is still to signal. -/
def Awake (state : State Handler Node) : Prop :=
  state.points .control = .waiting → state.calls.head () ≠ none →
    ∃ name, state.points (.handler name) = .signalling

omit [DecidableEq Handler] [DecidableEq Node] in
theorem awake_of_ne (point : next.points .control ≠ .waiting) : Awake next :=
  fun waits => absurd waits point

omit [DecidableEq Node] in
theorem awake_control {point : Point Node}
    (points : next.points = Function.update state.points .control point)
    (wakeful : point ≠ .waiting) : Awake next := by
  apply awake_of_ne
  rw [points, Function.update_self]
  exact wakeful

omit [DecidableEq Node] in
/-- A handler that was not to signal moves on, and the list stays. -/
theorem Awake.handler {name : Handler} {point : Point Node} (awake : Awake state)
    (silent : state.points (.handler name) ≠ .signalling)
    (points : next.points = Function.update state.points (.handler name) point)
    (head : next.calls.head () = state.calls.head ()) : Awake next := by
  intro waits nonempty
  rw [points, update_handler] at waits
  rw [head] at nonempty
  obtain ⟨other, signals⟩ := awake waits nonempty
  refine ⟨other, ?_⟩
  rw [points, Function.update_of_ne ?_, signals]
  rintro same
  cases same
  exact silent signals

theorem Queued.advance_awake (queued : Queued state pending) (awake : Awake state)
    (taken : advance state thread = some next) : Awake next := by
  cases stands : state.points thread with
  | locking =>
      obtain rfl := queued.is_control stands trivial
      rw [advance, stands] at taken
      obtain ⟨_, rfl⟩ := of_guarded taken
      exact awake_control rfl nofun
  | testing =>
      obtain rfl := queued.is_control stands trivial
      cases pending with
      | nil =>
          have empty : state.calls.head () = none := queued.keeps.head_eq ()
          rw [advance, stands] at taken
          simp only [empty] at taken
          cases taken
          exact fun _ nonempty => absurd empty nonempty
      | cons node rest =>
          rw [(queued.take stands).1] at taken
          cases taken
          exact awake_control rfl nofun
  | waiting => rw [advance, stands] at taken; cases taken
  | woken =>
      obtain rfl := queued.is_control stands trivial
      rw [advance, stands] at taken
      obtain ⟨_, rfl⟩ := of_guarded taken
      exact awake_control rfl nofun
  | taken node =>
      obtain rfl := queued.is_control stands trivial
      rw [advance, stands] at taken
      cases taken
      exact awake_control rfl nofun
  | answering node =>
      obtain rfl := queued.is_control stands trivial
      rw [(queued.answer stands).1] at taken
      cases taken
      exact awake_control rfl nofun
  | idle => rw [advance, stands] at taken; cases taken
  | ready node =>
      obtain ⟨name, rfl⟩ := queued.is_handler stands id
      rw [advance, stands] at taken
      obtain ⟨_, rfl⟩ := of_guarded taken
      refine awake.handler ?_ rfl rfl
      rw [stands]
      nofun
  | appending node =>
      obtain ⟨name, rfl⟩ := queued.is_handler stands id
      rw [advance, stands] at taken
      obtain ⟨_, _, taken⟩ := Option.bind_eq_some_iff.mp taken
      obtain ⟨_, _, taken⟩ := Option.bind_eq_some_iff.mp taken
      cases taken
      exact fun _ _ => ⟨name, Function.update_self _ _ _⟩
  | signalling =>
      obtain ⟨name, rfl⟩ := queued.is_handler stands id
      rw [advance, stands] at taken
      cases taken
      split
      · exact awake_control rfl nofun
      · rename_i waits
        exact awake_of_ne waits
  | unlocking =>
      obtain ⟨name, rfl⟩ := queued.is_handler stands id
      rw [advance, stands] at taken
      cases taken
      refine awake.handler ?_ rfl rfl
      rw [stands]
      nofun

theorem Awake.after_step {action : Action Handler Node} (awake : Awake state)
    (queued : Queued state pending) (stepped : step state action = some next) : Awake next := by
  obtain ⟨_, taken⟩ := Option.ite_none_right_eq_some.mp stepped
  cases action with
  | receive name call node =>
      obtain ⟨stands, rfl⟩ := of_guarded taken
      refine awake.handler ?_ rfl rfl
      rw [stands]
      nofun
  | step thread => exact queued.advance_awake awake taken
  | spurious =>
      obtain ⟨stands, rfl⟩ := of_guarded taken
      exact awake_control rfl nofun
  | fail =>
      simp only [perform] at taken
      split at taken
      · cases taken
        exact awake
      · cases taken

instance (state : State Handler Node) (action : Action Handler Node) :
    Decidable (FreshCall state action) := by
  unfold FreshCall
  split <;> infer_instance

def Reached (state : State Handler Node) : Prop :=
  (∃ pending, Queued state pending) ∧ Awake state

theorem reached_run {following : Node → Option Node} {item : Node → QueuedCall}
    {actions : List (Action Handler Node)}
    (fresh : Along step FreshCall (start following item) actions)
    (ran : run step (start following item) actions = some state) : Reached state := by
  refine invariant_run (fun before action after reached fresh taken => ?_)
    ⟨⟨[], start_queued following item⟩, nofun⟩ fresh ran
  obtain ⟨⟨pending, queued⟩, awake⟩ := reached
  exact ⟨queued.after_step fresh taken, awake.after_step queued taken⟩

/-! ### The control loop alone -/

def stepsLeft (left : Nat) : Point Node → Nat
  | .taken _ => 4 * left + 4
  | .answering _ => 4 * left + 3
  | .locking => 4 * left + 2
  | .woken => 4 * left + 2
  | .testing => 4 * left + 1
  | _ => 0

omit [DecidableEq Node] in
theorem stepsLeft_le (left : Nat) (point : Point Node) : stepsLeft left point ≤ 4 * left + 4 := by
  cases point <;> simp only [stepsLeft] <;> omega

def HandlersOutside (state : State Handler Node) : Prop :=
  ∀ name, ¬ Inside (state.points (.handler name))

/-- What a step of the control loop leaves as it is, and that it comes closer to a wait. -/
structure Nears (state after : State Handler Node) (pending left : List Node) : Prop where
  queued : Queued after left
  handlers : ∀ name, after.points (.handler name) = state.points (.handler name)
  arrived : after.arrived = state.arrived
  exited : after.exited = state.exited
  closer : stepsLeft left.length (after.points .control) + 1 ≤
    stepsLeft pending.length (state.points .control)
  drained : after.points .control = .waiting → left = []

omit [DecidableEq Handler] [DecidableEq Node] in
theorem Queued.mutex_free (queued : Queued state pending) (outside : HandlersOutside state)
    (waits : ¬ Inside (state.points .control)) : state.mutex = none := by
  cases held : state.mutex with
  | none => rfl
  | some holder =>
      have within := (queued.exclusive holder).mpr held
      cases holder with
      | control => exact absurd within waits
      | handler name => exact absurd within (outside name)

omit [DecidableEq Node] in
theorem nears_of_control {after : State Handler Node} {left : List Node}
    {origin point : Point Node} (stands : state.points .control = origin)
    (queued : Queued after left)
    (points : after.points = Function.update state.points .control point)
    (arrived : after.arrived = state.arrived) (exited : after.exited = state.exited)
    (closer : stepsLeft left.length point + 1 ≤ stepsLeft pending.length origin)
    (drained : point = .waiting → left = []) : Nears state after pending left where
  queued := queued
  handlers := by
    intro name
    rw [points]
    apply Function.update_of_ne
    nofun
  arrived := arrived
  exited := exited
  closer := by
    rw [points, Function.update_self, stands]
    exact closer
  drained := by
    rw [points, Function.update_self]
    exact drained

theorem Queued.control_step (queued : Queued state pending) (outside : HandlersOutside state)
    (busy : state.points .control ≠ .waiting) :
    ∃ after left, advance state .control = some after ∧ Nears state after pending left := by
  have side := queued.control
  cases stands : state.points .control with
  | locking =>
      have free := queued.mutex_free outside (by rw [stands]; exact id)
      obtain ⟨locked, queuedAfter⟩ :=
        @Queued.lock _ _ _ _ _ _ _ .testing queued free stands rfl Iff.rfl nofun trivial
      exact ⟨_, pending, by rw [advance, stands]; exact locked,
        nears_of_control stands queuedAfter rfl rfl rfl (Nat.le_refl _) nofun⟩
  | testing =>
      cases pending with
      | nil =>
          obtain ⟨waits, queuedAfter⟩ := queued.wait stands
          exact ⟨_, [], waits,
            nears_of_control stands queuedAfter rfl rfl rfl (Nat.le_refl _) fun _ => rfl⟩
      | cons node rest =>
          obtain ⟨taken, queuedAfter⟩ := queued.take stands
          refine ⟨_, rest, taken, nears_of_control stands queuedAfter rfl rfl rfl ?_ nofun⟩
          simp only [stepsLeft, List.length_cons]
          omega
  | waiting => exact absurd stands busy
  | woken =>
      have free := queued.mutex_free outside (by rw [stands]; exact id)
      obtain ⟨locked, queuedAfter⟩ :=
        @Queued.lock _ _ _ _ _ _ _ .testing queued free stands rfl Iff.rfl nofun trivial
      exact ⟨_, pending, by rw [advance, stands]; exact locked,
        nears_of_control stands queuedAfter rfl rfl rfl (Nat.le_refl _) nofun⟩
  | taken node =>
      refine ⟨_, pending, by rw [advance, stands], ?_⟩
      exact nears_of_control stands (queued.unlock stands rfl Iff.rfl nofun trivial id) rfl rfl
        rfl (Nat.le_refl _) nofun
  | answering node =>
      obtain ⟨answered, queuedAfter⟩ := queued.answer stands
      exact ⟨_, pending, answered,
        nears_of_control stands queuedAfter rfl rfl rfl (Nat.le_refl _) nofun⟩
  | idle => rw [stands] at side; cases side
  | ready node => rw [stands] at side; cases side
  | appending node => rw [stands] at side; cases side
  | signalling => rw [stands] at side; cases side
  | unlocking => rw [stands] at side; cases side

/-- Run alone, the control loop reaches its wait, all calls answered. -/
theorem Queued.drains (queued : Queued state pending) (outside : HandlersOutside state)
    (running : state.exited = false)
    (asleep : state.points .control = .waiting → pending = []) :
    ∃ steps final, steps ≤ stepsLeft pending.length (state.points .control) ∧
      run step state (List.replicate steps (Action.step .control)) = some final ∧
      final.points .control = .waiting ∧ final.answered = state.arrived := by
  generalize bound : stepsLeft pending.length (state.points .control) = rank
  induction rank using Nat.strong_induction_on generalizing state pending with
  | _ rank ih =>
      by_cases waits : state.points .control = .waiting
      · refine ⟨0, state, Nat.zero_le _, rfl, waits, ?_⟩
        have inOrder := queued.inOrder
        rw [waits, asleep waits] at inOrder
        rw [inOrder]
        exact (List.append_nil _).symm
      · obtain ⟨after, left, taken, nears⟩ := queued.control_step outside waits
        have closer := nears.closer
        rw [bound] at closer
        have outsideAfter : HandlersOutside after := by
          intro name
          rw [nears.handlers name]
          exact outside name
        obtain ⟨steps, final, within, ran, rests, answered⟩ :=
          ih _ (Nat.lt_of_succ_le closer) nears.queued outsideAfter
            (nears.exited.trans running) nears.drained rfl
        refine ⟨steps + 1, final, by omega, ?_, rests, answered.trans nears.arrived⟩
        have stepped : step state (.step .control) = some after := (if_pos running).trans taken
        exact run_cons_eq_some.mpr ⟨after, stepped, ran⟩

/-! ### Main results -/

def callAtOne : QueuedCall :=
  { call :=
      { currentFloor := digitFloor 1
        destinationFloor := digitFloor 2 }
    fd := 7 }

/-- The control loop waits; two handlers get in one after the other. -/
def callTrace : List (Action Bool Nat) :=
  [.step .control, .step .control, .receive false callAtOne 10, .receive true callAtOne 11,
    .step (.handler true), .step (.handler true), .spurious, .step (.handler true),
    .step (.handler true), .step (.handler false), .step (.handler false),
    .step (.handler false), .step (.handler false)]

def callsLinked : State Bool Nat :=
  (run step (start (fun _ => none) fun _ => callAtOne) callTrace).get (by decide +kernel)

/-- In every run no step of a thread touches a call that is not allocated or frees one
twice: a thread that cannot go on waits for the mutex, for a signal or for a client.
The calls are answered in the order in which they were linked in, each once, and every
allocated call is in the list or in the hand of one thread. -/
theorem calls_answered_in_order (following : Node → Option Node) (item : Node → QueuedCall)
    (actions : List (Action Handler Node))
    (fresh : Along step FreshCall (start following item) actions)
    (ran : run step (start following item) actions = some state) :
    (∀ thread, advance state thread = none ↔ Blocked state thread) ∧
      ∃ pending, (state.calls.links ()).Visits pending ∧
        state.arrived = state.answered ++
          ((state.points .control).call.toList ++ pending).map state.calls.item ∧
        Custody state.calls.live pending (hands state.points) := by
  obtain ⟨⟨pending, queued⟩, _⟩ := reached_run fresh ran
  refine ⟨fun thread => ⟨fun stuck => ?_, advance_blocked⟩, pending, queued.keeps.visits (),
    queued.inOrder, queued.custody⟩
  by_contra ready
  obtain ⟨after, left, advanced, _⟩ := queued.advance_eq thread ready
  rw [stuck] at advanced
  cases advanced

theorem calls_answered_in_order_callTrace :
    (∀ thread, advance callsLinked thread = none ↔ Blocked callsLinked thread) ∧
      ∃ pending, (callsLinked.calls.links ()).Visits pending ∧
        callsLinked.arrived = callsLinked.answered ++
          ((callsLinked.points .control).call.toList ++ pending).map callsLinked.calls.item ∧
        Custody callsLinked.calls.live pending (hands callsLinked.points) :=
  calls_answered_in_order _ _ callTrace (by decide +kernel) (Option.some_get _).symm

/-- No signal is lost: from every state that a run reaches with no handler inside its
critical section, the control loop alone, if each of its answers returns, comes to its
wait and has then answered every call that was linked in. -/
theorem control_answers_every_call (following : Node → Option Node) (item : Node → QueuedCall)
    (actions : List (Action Handler Node))
    (fresh : Along step FreshCall (start following item) actions)
    (ran : run step (start following item) actions = some state)
    (outside : HandlersOutside state) (running : state.exited = false) :
    ∃ steps final, steps ≤ 4 * (state.arrived.length - state.answered.length) + 4 ∧
      run step state (List.replicate steps (Action.step .control)) = some final ∧
      final.points .control = .waiting ∧ final.answered = state.arrived := by
  obtain ⟨⟨pending, queued⟩, awake⟩ := reached_run fresh ran
  have asleep : state.points .control = .waiting → pending = [] := by
    intro waits
    by_contra nonempty
    obtain ⟨name, signals⟩ := awake waits (by
      rw [queued.keeps.head_eq ()]
      exact fun empty => nonempty (List.head?_eq_none_iff.mp empty))
    have inside := outside name
    rw [signals] at inside
    exact inside trivial
  obtain ⟨steps, final, within, ran, waits, answered⟩ := queued.drains outside running asleep
  refine ⟨steps, final, within.trans ?_, ran, waits, answered⟩
  have count := congrArg List.length queued.inOrder
  rw [List.length_append, List.length_map, List.length_append] at count
  have most := stepsLeft_le pending.length (state.points .control)
  omega

theorem control_answers_every_call_callTrace :
    ∃ steps final, steps ≤ 4 * (callsLinked.arrived.length - callsLinked.answered.length) + 4 ∧
      run step callsLinked (List.replicate steps (Action.step .control)) = some final ∧
      final.points .control = .waiting ∧ final.answered = callsLinked.arrived :=
  control_answers_every_call _ _ callTrace (by decide +kernel) (Option.some_get _).symm
    (by unfold HandlersOutside; decide +kernel) (by decide +kernel)

end Waking

end Cab403.Elevator.CallQueue
