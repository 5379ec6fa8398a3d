/-
The processes of print_pid.c. `splitProcess` forks a child for each number and waits for
them; `work` formats a line into the buffer in shared memory and prints it a character at
a time, between `sem_wait` and `sem_post`. The model starts where `main` calls
`splitProcess`: the object is new, so its bytes are zero.
-/

import Cab403.Library.ActionRuns
import Cab403.Library.CDecimal
import Cab403.Library.CriticalSection
import Cab403.Library.Tally

namespace Cab403.Workshops.PrintPid

open ActionRuns CDecimal CText CriticalSection Tally

def BUFFER_SIZE : Nat := 1024

inductive ChildAt where
  | unborn
  | semWait
  | format
  /-- At the test of `*ptr`; `ptr` counts from the start of the buffer. -/
  | print (ptr : Nat)
  | newline
  | semPost
  | leaving
  | exited
  | reaped
  deriving DecidableEq, Repr

inductive ParentAt where
  | forking (i : Nat)
  | waiting (i : Nat)
  | allDone
  | returned
  /-- `fork` has failed, and the parent has left its children behind. -/
  | failed (i : Nat)
  deriving DecidableEq, Repr

structure State (childNumber : Nat) where
  childProcessLock : Nat
  buffer : CharArray BUFFER_SIZE
  parent : ParentAt
  children : Fin childNumber → ChildAt
  stdout : List UInt8

inductive Action (childNumber : Nat) where
  | fork (succeeds : Bool)
  /-- What `wait(0)` returns: a child that has exited, or none if there is no child. -/
  | wait (child : Option (Fin childNumber))
  | allDone
  | work (id : Fin childNumber)

variable {childNumber : Nat}

section Code

/-- After `sem_init(&(data->child_process_lock), 1, 1)`. -/
def splitProcess : State childNumber :=
  { childProcessLock := 1
    buffer := CharArray.empty BUFFER_SIZE
    parent := .forking 0
    children := fun _ => .unborn
    stdout := [] }

def formatted (id pid : Nat) : List UInt8 :=
  bytes "This is child number " ++ decimal id ++ bytes ": - Process ID: " ++ decimal pid

theorem formatted_noNul (id pid : Nat) : (0 : UInt8) ∉ formatted id pid := by
  have idNoNul := formatInt_noNul (id : Int)
  have pidNoNul := formatInt_noNul (pid : Int)
  rw [formatInt_natCast] at idNoNul pidNoNul
  simp only [formatted, List.mem_append, not_or]
  exact ⟨⟨⟨by decide, idNoNul⟩, by decide⟩, pidNoNul⟩

def closing : List UInt8 := bytes "\n\nAll children done\n"

/-- A step of `splitProcess` in the parent. Only `printf` at its end writes to stdout. -/
def parentStep (state : State childNumber) : Action childNumber → Option (State childNumber)
  | .fork succeeds =>
      match state.parent with
      | .forking i =>
          if inside : i < childNumber then
            if succeeds then
              some { state with
                parent := .forking (i + 1)
                children := Function.update state.children ⟨i, inside⟩ .semWait }
            else some { state with parent := .failed i }
          else some { state with parent := .waiting 0 }
      | _ => none
  | .wait child =>
      match state.parent, child with
      | .waiting i, some id =>
          if i < childNumber ∧ state.children id = .exited then
            some { state with
              parent := .waiting (i + 1)
              children := Function.update state.children id .reaped }
          else none
      | .waiting i, none =>
          -- `ECHILD`; the result of `wait` is not looked at
          if i < childNumber ∧ ∀ id, state.children id = .unborn ∨ state.children id = .reaped then
            some { state with parent := .waiting (i + 1) }
          else none
      | _, _ => none
  | .allDone =>
      match state.parent with
      | .waiting i =>
          if i < childNumber then none else some { state with parent := .allDone }
      | .allDone => some { state with parent := .returned, stdout := state.stdout ++ closing }
      | _ => none
  | .work _ => none

/-- A step of `work`; what follows it in the child, up to its exit, is one more. With
`setbuf(stdout, NULL)` a byte is written at once. -/
def work (pid : Fin childNumber → Nat) (state : State childNumber) (id : Fin childNumber) :
    Option (State childNumber) :=
  let stand (point : ChildAt) := Function.update state.children id point
  match state.children id with
  | .unborn | .exited | .reaped => none
  | .semWait =>
      if 0 < state.childProcessLock then
        some { state with
          childProcessLock := state.childProcessLock - 1
          children := stand .format }
      else none
  | .format =>
      some { state with
        buffer := CharArray.format BUFFER_SIZE (formatted id (pid id)) (formatted_noNul id (pid id))
        children := stand (.print 0) }
  | .print ptr =>
      match state.buffer.text[ptr]? with
      | some byte =>
          some { state with
            stdout := state.stdout ++ [byte]
            children := stand (.print (ptr + 1)) }
      | none => some { state with children := stand .newline }
  | .newline => some { state with stdout := state.stdout ++ [10], children := stand .semPost }
  | .semPost =>
      some { state with
        childProcessLock := state.childProcessLock + 1
        children := stand .leaving }
  | .leaving => some { state with children := stand .exited }

def step (pid : Fin childNumber → Nat) (state : State childNumber) :
    Action childNumber → Option (State childNumber)
  | .work id => work pid state id
  | action => parentStep state action

end Code

/-! ### Who holds the semaphore, and what is on paper -/

def ChildAt.Inside : ChildAt → Prop
  | .format | .print _ | .newline | .semPost => True
  | _ => False

def ChildAt.Printed : ChildAt → Prop
  | .semPost | .leaving | .exited | .reaped => True
  | _ => False

def message (pid : Fin childNumber → Nat) (id : Fin childNumber) : List UInt8 :=
  snprintf BUFFER_SIZE (formatted id (pid id))

def line (pid : Fin childNumber → Nat) (id : Fin childNumber) : List UInt8 :=
  message pid id ++ [10]

/-- How many bytes of a line that is not out yet have been written. -/
def ChildAt.written (length : Nat) : ChildAt → Nat
  | .print ptr => ptr
  | .newline => length
  | _ => 0

/-- The beginning of the holder's line; none once the line counts as printed. -/
def unfinished (pid : Fin childNumber → Nat) (children : Fin childNumber → ChildAt) :
    Option (Fin childNumber) → List UInt8
  | some id => (message pid id).take ((children id).written (message pid id).length)
  | none => []

def ParentAt.closed : ParentAt → List UInt8
  | .returned => closing
  | _ => []

/-- The child prints from a buffer with its own text. -/
def ChildAt.Reads (text own : List UInt8) : ChildAt → Prop
  | .print ptr => text = own ∧ ptr ≤ own.length
  | .newline => text = own
  | _ => True

structure Orderly (pid : Fin childNumber → Nat) (state : State childNumber)
    (holder : Option (Fin childNumber)) (order : List (Fin childNumber)) : Prop where
  exclusive : Exclusive ChildAt.Inside state.children holder
  lock : state.childProcessLock = if holder = none then 1 else 0
  reads : ∀ id, (state.children id).Reads state.buffer.text (message pid id)
  distinct : order.Nodup
  printed : ∀ id, id ∈ order ↔ (state.children id).Printed
  paper : state.stdout =
    order.flatMap (line pid) ++ unfinished pid state.children holder ++ state.parent.closed

section Moves

variable {pid : Fin childNumber → Nat} {state next : State childNumber}
  {holder : Option (Fin childNumber)} {order : List (Fin childNumber)} {id : Fin childNumber}
  {point : ChildAt}

theorem ChildAt.reads_of_outside {text own : List UInt8} (outside : ¬ point.Inside) :
    point.Reads text own := by
  cases point with
  | print ptr => exact absurd trivial outside
  | newline => exact absurd trivial outside
  | unborn | semWait | format | semPost | leaving | exited | reaped => trivial

theorem unfinished_update_of_outside {children : Fin childNumber → ChildAt}
    (exclusive : Exclusive ChildAt.Inside children holder) (outside : ¬ (children id).Inside) :
    unfinished pid (Function.update children id point) holder = unfinished pid children holder := by
  cases holder with
  | none => rfl
  | some other =>
      have different : other ≠ id := by
        rintro rfl
        exact outside ((exclusive other).mpr rfl)
      simp only [unfinished, Function.update_of_ne different]

theorem unfinished_update_self (children : Fin childNumber → ChildAt) :
    unfinished pid (Function.update children id point) (some id) =
      (message pid id).take (point.written (message pid id).length) := by
  simp only [unfinished, Function.update_self]

theorem Orderly.reads_update (orderly : Orderly pid state holder order)
    (reads : point.Reads state.buffer.text (message pid id)) :
    ∀ other, (Function.update state.children id point other).Reads state.buffer.text
      (message pid other) := by
  refine (Function.forall_update_iff state.children fun other place =>
    place.Reads state.buffer.text (message pid other)).mpr ⟨reads, ?_⟩
  exact fun other _ => orderly.reads other

theorem Orderly.printed_update (orderly : Orderly pid state holder order)
    (same : point.Printed ↔ (state.children id).Printed) :
    ∀ other, other ∈ order ↔ (Function.update state.children id point other).Printed := by
  refine (Function.forall_update_iff state.children fun other place =>
    other ∈ order ↔ place.Printed).mpr ⟨?_, ?_⟩
  · rw [same]
    exact orderly.printed id
  · exact fun other _ => orderly.printed other

/-- A child moves outside of the section, by its own step or by one of its parent. -/
theorem Orderly.outside (orderly : Orderly pid state holder order) (parent : ParentAt)
    (before : ¬ (state.children id).Inside) (after : ¬ point.Inside)
    (same : point.Printed ↔ (state.children id).Printed)
    (closed : parent.closed = state.parent.closed) :
    Orderly pid { state with
      parent := parent, children := Function.update state.children id point } holder order :=
  { orderly with
    exclusive := orderly.exclusive.move (iff_of_false after before)
    reads := orderly.reads_update (ChildAt.reads_of_outside after)
    printed := orderly.printed_update same
    paper := by
      change state.stdout = _ ++ unfinished pid (Function.update _ _ _) holder ++ parent.closed
      rw [unfinished_update_of_outside orderly.exclusive before, closed]
      exact orderly.paper }

/-- The parent moves, and no child. -/
theorem Orderly.parent (orderly : Orderly pid state holder order) (parent : ParentAt)
    (closed : parent.closed = state.parent.closed) :
    Orderly pid { state with parent := parent } holder order :=
  { orderly with
    paper := by
      change state.stdout = _ ++ _ ++ parent.closed
      rw [closed]
      exact orderly.paper }

theorem Orderly.semWait (orderly : Orderly pid state holder order)
    (waits : state.children id = .semWait) (free : 0 < state.childProcessLock) :
    Orderly pid { state with
      childProcessLock := state.childProcessLock - 1
      children := Function.update state.children id .format } (some id) order := by
  have nobody : holder = none := by
    by_contra held
    rw [orderly.lock, if_neg held] at free
    exact Nat.lt_irrefl 0 free
  subst nobody
  constructor
  case exclusive => exact orderly.exclusive.lock trivial
  case lock =>
    change state.childProcessLock - 1 = 0
    rw [orderly.lock, if_pos rfl]
  case reads => exact orderly.reads_update trivial
  case distinct => exact orderly.distinct
  case printed =>
    refine orderly.printed_update ?_
    rw [waits]
    exact Iff.rfl
  case paper =>
    have before := orderly.paper
    change state.stdout = _ ++ unfinished pid (Function.update _ _ _) (some id) ++ _
    rw [unfinished_update_self]
    exact before

/-- The holder moves to a later point of its line. -/
theorem Orderly.writes (orderly : Orderly pid state (some id) order) (point : ChildAt)
    (buffer : CharArray BUFFER_SIZE) (more : List UInt8) (stays : point.Inside)
    (reads : point.Reads buffer.text (message pid id))
    (same : point.Printed ↔ (state.children id).Printed)
    (grows : (message pid id).take (point.written (message pid id).length) =
      (message pid id).take ((state.children id).written (message pid id).length) ++ more)
    (running : state.parent.closed = []) :
    Orderly pid { state with
      buffer := buffer
      stdout := state.stdout ++ more
      children := Function.update state.children id point } (some id) order := by
  have isInside := (orderly.exclusive id).mpr rfl
  constructor
  case exclusive => exact orderly.exclusive.move (iff_of_true stays isInside)
  case lock => exact orderly.lock
  case reads =>
    refine (Function.forall_update_iff state.children fun other place =>
      place.Reads buffer.text (message pid other)).mpr ⟨reads, fun other different => ?_⟩
    -- whoever else is in the loop would hold the semaphore too
    exact ChildAt.reads_of_outside fun within =>
      different (orderly.exclusive.unique within isInside)
  case distinct => exact orderly.distinct
  case printed => exact orderly.printed_update same
  case paper =>
    have before := orderly.paper
    rw [running, List.append_nil] at before
    change state.stdout ++ more =
      _ ++ unfinished pid (Function.update _ _ _) (some id) ++ state.parent.closed
    rw [unfinished_update_self, running, List.append_nil, grows, before, List.append_assoc]
    rfl

theorem Orderly.newline (orderly : Orderly pid state (some id) order)
    (ends : state.children id = .newline) (running : state.parent.closed = []) :
    Orderly pid { state with
      stdout := state.stdout ++ [10]
      children := Function.update state.children id .semPost } (some id) (order ++ [id]) := by
  have absent : id ∉ order := by
    rw [orderly.printed id, ends]
    exact not_false
  constructor
  case exclusive =>
    exact orderly.exclusive.move (iff_of_true trivial ((orderly.exclusive id).mpr rfl))
  case lock => exact orderly.lock
  case reads => exact orderly.reads_update trivial
  case distinct =>
    exact orderly.distinct.append (List.nodup_singleton id) (List.disjoint_singleton.mpr absent)
  case printed =>
    refine (Function.forall_update_iff state.children fun other place =>
      other ∈ order ++ [id] ↔ place.Printed).mpr ⟨?_, fun other different => ?_⟩
    · exact iff_of_true (List.mem_append_right order (List.mem_singleton_self id)) trivial
    · rw [List.mem_append, List.mem_singleton, or_iff_left different]
      exact orderly.printed other
  case paper =>
    have before := orderly.paper
    simp only [unfinished, ends, ChildAt.written, List.take_length, running, List.append_nil]
      at before
    change state.stdout ++ [10] = _ ++ unfinished pid (Function.update _ _ _) _ ++ _
    rw [unfinished_update_self, before, running, List.flatMap_append, List.flatMap_singleton]
    simp only [ChildAt.written, List.take_zero, List.append_nil, line, List.append_assoc]

theorem Orderly.semPost (orderly : Orderly pid state (some id) order)
    (posts : state.children id = .semPost) :
    Orderly pid { state with
      childProcessLock := state.childProcessLock + 1
      children := Function.update state.children id .leaving } none order := by
  constructor
  case exclusive =>
    exact orderly.exclusive.unlock ((orderly.exclusive id).mpr rfl) not_false
  case lock =>
    change state.childProcessLock + 1 = 1
    rw [orderly.lock, if_neg (Option.some_ne_none id)]
  case reads => exact orderly.reads_update trivial
  case distinct => exact orderly.distinct
  case printed =>
    refine orderly.printed_update ?_
    rw [posts]
    exact Iff.rfl
  case paper =>
    have before := orderly.paper
    simp only [unfinished, posts, ChildAt.written, List.take_zero] at before
    exact before

/-- A step of a child keeps the lines apart. -/
theorem Orderly.work (orderly : Orderly pid state holder order)
    (running : state.parent.closed = []) (taken : work pid state id = some next) :
    ∃ holder order, Orderly pid next holder order := by
  unfold PrintPid.work at taken
  have inside : (state.children id).Inside → holder = some id := (orderly.exclusive id).mp
  cases place : state.children id with
  | unborn | exited | reaped =>
      rw [place] at taken
      cases taken
  | semWait =>
      rw [place] at taken
      obtain ⟨free, rfl⟩ := of_guarded taken
      exact ⟨_, _, orderly.semWait place free⟩
  | format =>
      rw [place] at taken inside
      cases inside trivial
      cases taken
      have moved := orderly.writes (.print 0)
        (CharArray.format BUFFER_SIZE (formatted id (pid id)) (formatted_noNul id (pid id))) []
        trivial ⟨rfl, Nat.zero_le _⟩ (by rw [place]; exact Iff.rfl) (by rw [place]; rfl) running
      rw [List.append_nil] at moved
      exact ⟨some id, order, moved⟩
  | print ptr =>
      have reads := orderly.reads id
      rw [place] at taken inside reads
      cases inside trivial
      obtain ⟨text, bounded⟩ := reads
      cases byteAt : state.buffer.text[ptr]? with
      | some byte =>
          simp only [byteAt] at taken
          cases taken
          rw [text] at byteAt
          obtain ⟨more, _⟩ := List.getElem?_eq_some_iff.mp byteAt
          refine ⟨_, _, orderly.writes (.print (ptr + 1)) state.buffer [byte] trivial
            ⟨text, more⟩ (by rw [place]; exact Iff.rfl) ?_ running⟩
          simp only [place, ChildAt.written, List.take_add_one, byteAt, Option.toList_some]
      | none =>
          simp only [byteAt] at taken
          cases taken
          rw [text, List.getElem?_eq_none_iff] at byteAt
          have moved := orderly.writes .newline state.buffer [] trivial text
            (by rw [place]; exact Iff.rfl)
            (by simp only [place, ChildAt.written, List.append_nil, Nat.le_antisymm bounded byteAt])
            running
          rw [List.append_nil] at moved
          exact ⟨some id, order, moved⟩
  | newline =>
      rw [place] at taken inside
      cases inside trivial
      cases taken
      exact ⟨_, _, orderly.newline place running⟩
  | semPost =>
      rw [place] at taken inside
      cases inside trivial
      cases taken
      exact ⟨_, _, orderly.semPost place⟩
  | leaving =>
      rw [place] at taken
      cases taken
      exact ⟨_, _, orderly.outside state.parent (by rw [place]; exact not_false) not_false
        (by rw [place]; exact Iff.rfl) rfl⟩

end Moves

/-! ### The children and their parent -/

def ChildAt.Alive (point : ChildAt) : Prop := point ≠ .unborn ∧ point ≠ .reaped

/-- The children below `i` have been forked, and none has been waited for. -/
structure Forked (i : Nat) (children : Fin childNumber → ChildAt) : Prop where
  unborn : ∀ id, children id = .unborn ↔ i ≤ id.val
  unreaped : ∀ id, children id ≠ .reaped

/-- The share of a child that is still to be waited for. -/
def unreapedShare (_ : Fin childNumber) (point : ChildAt) : Nat :=
  if point = .reaped then 0 else 1

structure Waited (i : Nat) (children : Fin childNumber → ChildAt) : Prop where
  born : ∀ id, children id ≠ .unborn
  left : i + tally unreapedShare children = childNumber

def Family (children : Fin childNumber → ChildAt) : ParentAt → Prop
  | .forking i => i ≤ childNumber ∧ Forked i children
  | .waiting i => Waited i children
  | .allDone | .returned => ∀ id, children id = .reaped
  | .failed i => i < childNumber ∧ Forked i children

section Families

variable {children : Fin childNumber → ChildAt} {id : Fin childNumber} {point : ChildAt}
  {i : Nat}

theorem Forked.move (forked : Forked i children) (before : (children id).Alive)
    (after : point.Alive) : Forked i (Function.update children id point) := by
  constructor
  case unborn =>
    refine (Function.forall_update_iff children fun other place =>
      place = .unborn ↔ i ≤ other.val).mpr ⟨?_, fun other _ => forked.unborn other⟩
    exact iff_of_false after.1 fun later => before.1 ((forked.unborn id).mpr later)
  case unreaped =>
    refine (Function.forall_update_iff children fun _ place => place ≠ .reaped).mpr ?_
    exact ⟨after.2, fun other _ => forked.unreaped other⟩

theorem Forked.fork (forked : Forked i children) (inside : i < childNumber) :
    Forked (i + 1) (Function.update children ⟨i, inside⟩ .semWait) := by
  constructor
  case unborn =>
    refine (Function.forall_update_iff children fun other place =>
      place = .unborn ↔ i + 1 ≤ other.val).mpr ⟨?_, fun other different => ?_⟩
    · exact iff_of_false ChildAt.noConfusion (Nat.not_succ_le_self i)
    · have apart : other.val ≠ i := fun same => different (Fin.ext same)
      rw [forked.unborn other]
      omega
  case unreaped =>
    refine (Function.forall_update_iff children fun _ place => place ≠ .reaped).mpr ?_
    exact ⟨ChildAt.noConfusion, fun other _ => forked.unreaped other⟩

/-- All children have been forked. -/
theorem Forked.waited (forked : Forked i children) (all : childNumber ≤ i) :
    Waited 0 children := by
  constructor
  case born =>
    intro id isUnborn
    have later := (forked.unborn id).mp isUnborn
    omega
  case left =>
    have ones : ∀ id, unreapedShare id (children id) = 1 := fun id => if_neg (forked.unreaped id)
    simp only [tally, ones]
    rw [← Finset.card_eq_sum_ones, Finset.card_univ, Fintype.card_fin, Nat.zero_add]

theorem Waited.move (waited : Waited i children) (before : children id ≠ .reaped)
    (after : point.Alive) : Waited i (Function.update children id point) := by
  constructor
  case born =>
    refine (Function.forall_update_iff children fun _ place => place ≠ .unborn).mpr ?_
    exact ⟨after.1, fun other _ => waited.born other⟩
  case left =>
    rw [tally_update_eq]
    · exact waited.left
    · unfold unreapedShare
      rw [if_neg after.2, if_neg before]

theorem Waited.reap (waited : Waited i children) (exited : children id = .exited) :
    Waited (i + 1) (Function.update children id .reaped) := by
  constructor
  case born =>
    refine (Function.forall_update_iff children fun _ place => place ≠ .unborn).mpr ?_
    exact ⟨ChildAt.noConfusion, fun other _ => waited.born other⟩
  case left =>
    have moved := tally_update unreapedShare children id .reaped
    have left := waited.left
    simp only [unreapedShare, exited] at moved
    simp only [reduceCtorEq, if_false, if_true] at moved
    omega

/-- Nobody is left. -/
theorem Waited.all_reaped (waited : Waited i children) (all : childNumber ≤ i) (id) :
    children id = .reaped := by
  have left := waited.left
  have share := share_le_tally unreapedShare children id
  by_contra isLeft
  rw [unreapedShare, if_neg isLeft] at share
  omega

/-- While somebody is left there is a child to wait for. -/
theorem Waited.some_left (waited : Waited i children) (early : i < childNumber) :
    ∃ id, (children id).Alive := by
  by_contra nobody
  have reaped : ∀ id, unreapedShare id (children id) = 0 := by
    intro id
    by_contra isLeft
    exact nobody ⟨id, waited.born id, fun gone => isLeft (if_pos gone)⟩
  have left := waited.left
  rw [tally_eq_zero reaped] at left
  omega

theorem Family.move {parent : ParentAt} (family : Family children parent)
    (before : (children id).Alive) (after : point.Alive) :
    Family (Function.update children id point) parent := by
  cases parent with
  | forking i => exact ⟨family.1, family.2.move before after⟩
  | waiting i => exact Waited.move family before.2 after
  | allDone => exact absurd (family id) before.2
  | returned => exact absurd (family id) before.2
  | failed i => exact ⟨family.1, family.2.move before after⟩

end Families

/-! ### Every step -/

def ChildAt.rank : ChildAt → Nat
  | .unborn | .semWait => BUFFER_SIZE + 6
  | .format => BUFFER_SIZE + 5
  | .print ptr => BUFFER_SIZE - ptr + 4
  | .newline => 3
  | .semPost => 2
  | .leaving => 1
  | .exited | .reaped => 0

def ParentAt.rank (childNumber : Nat) : ParentAt → Nat
  | .forking i => childNumber - i + childNumber + 3
  | .waiting i => childNumber - i + 2
  | .allDone => 1
  | .returned | .failed _ => 0

def State.rank (state : State childNumber) : Nat :=
  state.parent.rank childNumber + tally (fun _ point => point.rank) state.children

section Steps

variable {pid : Fin childNumber → Nat} {state next : State childNumber}
  {holder : Option (Fin childNumber)} {order : List (Fin childNumber)} {id : Fin childNumber}

/-- A child moves itself and nobody else, towards its end. -/
theorem work_moves (taken : work pid state id = some next) :
    ∃ point, next.children = Function.update state.children id point ∧
      next.parent = state.parent ∧ ((state.children id).Alive ∧ point.Alive) ∧
      point.rank < (state.children id).rank := by
  unfold work at taken
  unfold ChildAt.Alive
  cases place : state.children id with
  | unborn | exited | reaped =>
      rw [place] at taken
      cases taken
  | semWait =>
      rw [place] at taken
      obtain ⟨_, rfl⟩ := of_guarded taken
      exact ⟨.format, rfl, rfl, by decide, by decide⟩
  | print ptr =>
      rw [place] at taken
      dsimp only at taken
      split at taken
      · rename_i byteAt
        cases taken
        obtain ⟨inside, _⟩ := List.getElem?_eq_some_iff.mp byteAt
        have fits := state.buffer.fits
        refine ⟨.print (ptr + 1), rfl, rfl, ⟨⟨ChildAt.noConfusion, ChildAt.noConfusion⟩,
          ChildAt.noConfusion, ChildAt.noConfusion⟩, ?_⟩
        simp only [ChildAt.rank]
        omega
      · cases taken
        refine ⟨.newline, rfl, rfl, ⟨⟨ChildAt.noConfusion, ChildAt.noConfusion⟩, by decide⟩, ?_⟩
        simp only [ChildAt.rank]
        omega
  | format =>
      rw [place] at taken
      cases taken
      exact ⟨.print 0, rfl, rfl, by decide, by decide⟩
  | newline =>
      rw [place] at taken
      cases taken
      exact ⟨.semPost, rfl, rfl, by decide, by decide⟩
  | semPost =>
      rw [place] at taken
      cases taken
      exact ⟨.leaving, rfl, rfl, by decide, by decide⟩
  | leaving =>
      rw [place] at taken
      cases taken
      exact ⟨.exited, rfl, rfl, by decide, by decide⟩

structure Invariant (pid : Fin childNumber → Nat) (state : State childNumber) : Prop where
  family : Family state.children state.parent
  orderly : ∃ holder order, Orderly pid state holder order

theorem Family.running {children : Fin childNumber → ChildAt} {parent : ParentAt}
    (family : Family children parent) (alive : (children id).Alive) : parent.closed = [] := by
  cases parent with
  | returned => exact absurd (family id) alive.2
  | forking i | waiting i | allDone | failed i => rfl

theorem Invariant.work (invariant : Invariant pid state) (taken : work pid state id = some next) :
    Invariant pid next := by
  obtain ⟨point, children, parent, ⟨before, after⟩, _⟩ := work_moves taken
  obtain ⟨holder, order, orderly⟩ := invariant.orderly
  constructor
  case family =>
    rw [children, parent]
    exact invariant.family.move before after
  case orderly => exact orderly.work (invariant.family.running before) taken

inductive ParentCase (state : State childNumber) : State childNumber → Prop where
  | forks (i : Nat) (inside : i < childNumber) (place : state.parent = .forking i) :
      ParentCase state { state with
        parent := .forking (i + 1)
        children := Function.update state.children ⟨i, inside⟩ .semWait }
  | fails (i : Nat) (inside : i < childNumber) (place : state.parent = .forking i) :
      ParentCase state { state with parent := .failed i }
  | forked (i : Nat) (all : childNumber ≤ i) (place : state.parent = .forking i) :
      ParentCase state { state with parent := .waiting 0 }
  | reaps (i : Nat) (early : i < childNumber) (id : Fin childNumber)
      (place : state.parent = .waiting i) (exited : state.children id = .exited) :
      ParentCase state { state with
        parent := .waiting (i + 1)
        children := Function.update state.children id .reaped }
  | alone (i : Nat) (early : i < childNumber) (place : state.parent = .waiting i)
      (nobody : ∀ id, state.children id = .unborn ∨ state.children id = .reaped) :
      ParentCase state { state with parent := .waiting (i + 1) }
  | waited (i : Nat) (all : childNumber ≤ i) (place : state.parent = .waiting i) :
      ParentCase state { state with parent := .allDone }
  | prints (place : state.parent = .allDone) :
      ParentCase state { state with parent := .returned, stdout := state.stdout ++ closing }

theorem parentStep_cases (action : Action childNumber)
    (taken : parentStep state action = some next) : ParentCase state next := by
  unfold parentStep at taken
  cases action with
  | fork succeeds =>
      cases place : state.parent with
      | forking i =>
          simp only [place] at taken
          split at taken
          · rename_i inside
            split at taken
            · cases taken
              exact .forks i inside place
            · cases taken
              exact .fails i inside place
          · rename_i all
            cases taken
            exact .forked i (Nat.not_lt.mp all) place
      | waiting i | allDone | returned | failed i =>
          simp only [place] at taken
          cases taken
  | wait child =>
      cases place : state.parent with
      | waiting i =>
          cases child with
          | some id =>
              simp only [place] at taken
              obtain ⟨⟨early, exited⟩, rfl⟩ := of_guarded taken
              exact .reaps i early id place exited
          | none =>
              simp only [place] at taken
              obtain ⟨⟨early, nobody⟩, rfl⟩ := of_guarded taken
              exact .alone i early place nobody
      | forking i | allDone | returned | failed i =>
          simp only [place] at taken
          cases taken
  | allDone =>
      cases place : state.parent with
      | waiting i =>
          simp only [place] at taken
          split at taken
          · cases taken
          · rename_i all
            cases taken
            exact .waited i (Nat.not_lt.mp all) place
      | allDone =>
          simp only [place] at taken
          cases taken
          exact .prints place
      | forking i | returned | failed i =>
          simp only [place] at taken
          cases taken
  | work id => cases taken

theorem Invariant.parent (invariant : Invariant pid state) (parentCase : ParentCase state next) :
    Invariant pid next := by
  obtain ⟨holder, order, orderly⟩ := invariant.orderly
  have family := invariant.family
  cases parentCase with
  | forks i inside place =>
      rw [place] at family
      have unborn := (family.2.unborn ⟨i, inside⟩).mpr (Nat.le_refl i)
      refine ⟨⟨inside, family.2.fork inside⟩, holder, order, ?_⟩
      exact orderly.outside (.forking (i + 1)) (by rw [unborn]; exact not_false) not_false
        (by rw [unborn]; exact Iff.rfl) (by rw [place]; rfl)
  | fails i inside place =>
      rw [place] at family
      exact ⟨⟨inside, family.2⟩, holder, order, orderly.parent _ (by rw [place]; rfl)⟩
  | forked i all place =>
      rw [place] at family
      exact ⟨family.2.waited all, holder, order, orderly.parent _ (by rw [place]; rfl)⟩
  | reaps i early id place exited =>
      rw [place] at family
      refine ⟨Waited.reap family exited, holder, order, ?_⟩
      exact orderly.outside (.waiting (i + 1)) (by rw [exited]; exact not_false) not_false
        (by rw [exited]; exact Iff.rfl) (by rw [place]; rfl)
  | alone i early place nobody =>
      rw [place] at family
      obtain ⟨id, born, unreaped⟩ := Waited.some_left family early
      rcases nobody id with unborn | reaped
      · exact absurd unborn born
      · exact absurd reaped unreaped
  | waited i all place =>
      rw [place] at family
      exact ⟨Waited.all_reaped family all, holder, order, orderly.parent _ (by rw [place]; rfl)⟩
  | prints place =>
      rw [place] at family
      have nobody : holder = none := by
        by_contra held
        obtain ⟨id, rfl⟩ := Option.ne_none_iff_exists'.mp held
        have inside := (orderly.exclusive id).mpr rfl
        rw [family id] at inside
        exact inside
      subst nobody
      refine ⟨family, none, order, { orderly with paper := ?_ }⟩
      have before := orderly.paper
      simp only [place, ParentAt.closed, List.append_nil] at before
      change state.stdout ++ closing = _ ++ closing
      rw [before]

/-- Also a step of the parent lowers the rank. -/
theorem ParentCase.lowers (invariant : Invariant pid state) (parentCase : ParentCase state next) :
    next.rank < state.rank := by
  have family := invariant.family
  unfold State.rank
  cases parentCase with
  | forks i inside place =>
      rw [place] at family ⊢
      have unborn := (family.2.unborn ⟨i, inside⟩).mpr (Nat.le_refl i)
      rw [tally_update_eq (by rw [unborn]; rfl)]
      simp only [ParentAt.rank]
      omega
  | fails i inside place =>
      rw [place]
      simp only [ParentAt.rank]
      omega
  | forked i all place =>
      rw [place]
      simp only [ParentAt.rank]
      omega
  | reaps i early id place exited =>
      rw [place, tally_update_eq (by rw [exited]; rfl)]
      simp only [ParentAt.rank]
      omega
  | alone i early place nobody =>
      rw [place]
      simp only [ParentAt.rank]
      omega
  | waited i all place =>
      rw [place]
      simp only [ParentAt.rank]
      omega
  | prints place =>
      rw [place]
      simp only [ParentAt.rank]
      omega

theorem work_lowers (taken : work pid state id = some next) : next.rank < state.rank := by
  obtain ⟨point, children, parent, _, lower⟩ := work_moves taken
  have moved := tally_update (fun _ point => point.rank) state.children id point
  unfold State.rank
  rw [children, parent]
  omega

/-! ### Runs -/

/-- A step is one of a child or one of the parent. -/
theorem step_cases {action : Action childNumber} (taken : step pid state action = some next) :
    (∃ id, work pid state id = some next) ∨ ParentCase state next := by
  cases action with
  | work id => exact Or.inl ⟨id, taken⟩
  | fork succeeds => exact Or.inr (parentStep_cases (.fork succeeds) taken)
  | wait child => exact Or.inr (parentStep_cases (.wait child) taken)
  | allDone => exact Or.inr (parentStep_cases .allDone taken)

theorem Invariant.step {action : Action childNumber} (invariant : Invariant pid state)
    (taken : step pid state action = some next) : Invariant pid next := by
  rcases step_cases taken with ⟨id, worked⟩ | parentCase
  · exact invariant.work worked
  · exact invariant.parent parentCase

theorem Invariant.lowers {action : Action childNumber} (invariant : Invariant pid state)
    (taken : PrintPid.step pid state action = some next) : next.rank < state.rank := by
  rcases step_cases taken with ⟨id, worked⟩ | parentCase
  · exact work_lowers worked
  · exact parentCase.lowers invariant

theorem splitProcess_invariant (pid : Fin childNumber → Nat) : Invariant pid splitProcess := by
  refine ⟨⟨Nat.zero_le _, ⟨?_, ?_⟩⟩, none, [], ?_⟩
  · exact fun id => iff_of_true rfl (Nat.zero_le _)
  · exact fun id => ChildAt.noConfusion
  · constructor
    case exclusive => exact Exclusive.free fun _ => not_false
    case lock => rfl
    case reads => exact fun _ => trivial
    case distinct => exact List.nodup_nil
    case printed => exact fun _ => iff_of_false List.not_mem_nil not_false
    case paper => rfl

theorem splitProcess_rank :
    (splitProcess : State childNumber).rank = 1032 * childNumber + 3 := by
  have all : tally (fun _ point => point.rank) (fun _ : Fin childNumber => ChildAt.unborn) =
      childNumber * 1030 := by
    rw [tally, Finset.sum_const_nat (fun _ _ => rfl), Finset.card_univ, Fintype.card_fin]
    rfl
  simp only [State.rank, splitProcess, all, ParentAt.rank]
  omega

theorem invariant_of_run {actions : List (Action childNumber)} {final : State childNumber}
    (ran : run (step pid) splitProcess actions = some final) : Invariant pid final :=
  invariant_run_always (fun _ _ _ invariant taken => invariant.step taken)
    (splitProcess_invariant pid) ran

theorem ChildAt.Reads.written_le {text own : List UInt8} {point : ChildAt}
    (reads : point.Reads text own) : point.written own.length ≤ own.length := by
  cases point with
  | print ptr => exact reads.2
  | newline => exact Nat.le_refl own.length
  | unborn | semWait | format | semPost | leaving | exited | reaped => exact Nat.zero_le _

/-- At any moment stdout holds whole lines of different children, then the beginning of one
more line, or, once all the lines are there, the last words of the parent. -/
theorem stdout_whole_lines {actions : List (Action childNumber)} {final : State childNumber}
    (ran : run (step pid) splitProcess actions = some final) :
    ∃ order : List (Fin childNumber), order.Nodup ∧
      (final.stdout = order.flatMap (line pid) ∨
        (∃ id ∉ order, ∃ count ≤ (message pid id).length,
          final.stdout = order.flatMap (line pid) ++ (message pid id).take count) ∨
        (∀ id, id ∈ order) ∧ final.stdout = order.flatMap (line pid) ++ closing) := by
  have invariant := invariant_of_run ran
  obtain ⟨holder, order, orderly⟩ := invariant.orderly
  have paper := orderly.paper
  refine ⟨order, orderly.distinct, ?_⟩
  cases holder with
  | none =>
      simp only [unfinished, List.append_nil] at paper
      cases place : final.parent with
      | returned =>
          have family := invariant.family
          rw [place] at family paper
          refine Or.inr (Or.inr ⟨fun id => ?_, paper⟩)
          rw [orderly.printed id, family id]
          trivial
      | forking i | waiting i | allDone | failed i =>
          simp only [place, ParentAt.closed, List.append_nil] at paper
          exact Or.inl paper
  | some id =>
      have inside := (orderly.exclusive id).mpr rfl
      have alive : (final.children id).Alive := by
        constructor
        · intro unborn
          rw [unborn] at inside
          exact inside
        · intro reaped
          rw [reaped] at inside
          exact inside
      rw [invariant.family.running alive, List.append_nil] at paper
      by_cases printed : (final.children id).Printed
      · left
        rw [paper]
        have nothing : (final.children id).written (message pid id).length = 0 := by
          cases place : final.children id with
          | semPost | leaving | exited | reaped => rfl
          | unborn | semWait | format | print ptr | newline =>
              rw [place] at printed
              exact printed.elim
        simp only [unfinished, nothing, List.take_zero, List.append_nil]
      · right
        left
        exact ⟨id, fun member => printed ((orderly.printed id).mp member), _,
          (orderly.reads id).written_le, paper⟩

def twoPids (id : Fin 2) : Nat := 41 + id.val

def secondFirst : List (Action 2) :=
  .fork true :: .fork true :: List.replicate 4 (.work ⟨1, Nat.one_lt_two⟩)

def secondPrints : State 2 :=
  (run (step twoPids) splitProcess secondFirst).get (by decide +kernel)

theorem stdout_whole_lines_secondFirst :
    ∃ order : List (Fin 2), order.Nodup ∧
      (secondPrints.stdout = order.flatMap (line twoPids) ∨
        (∃ id ∉ order, ∃ count ≤ (message twoPids id).length,
          secondPrints.stdout = order.flatMap (line twoPids) ++ (message twoPids id).take count) ∨
        (∀ id, id ∈ order) ∧ secondPrints.stdout = order.flatMap (line twoPids) ++ closing) :=
  stdout_whole_lines (Option.some_get _).symm

/-! ### The end -/

/-- The holder of the semaphore is never stuck. -/
theorem work_of_inside (pid : Fin childNumber → Nat) (inside : (state.children id).Inside) :
    ∃ next, work pid state id = some next := by
  unfold PrintPid.work
  cases place : state.children id with
  | print ptr =>
      dsimp only
      split
      · exact ⟨_, rfl⟩
      · exact ⟨_, rfl⟩
  | format | newline | semPost => exact ⟨_, rfl⟩
  | unborn | semWait | leaving | exited | reaped =>
      rw [place] at inside
      exact inside.elim

/-- If no child can move, the semaphore is free and none is at work. -/
theorem Orderly.idle (orderly : Orderly pid state holder order)
    (stuck : ∀ id, PrintPid.work pid state id = none) :
    holder = none ∧
      ∀ id, (state.children id).Alive → state.children id = .exited := by
  have free : holder = none := by
    by_contra held
    obtain ⟨id, rfl⟩ := Option.ne_none_iff_exists'.mp held
    obtain ⟨next, taken⟩ := work_of_inside pid ((orderly.exclusive id).mpr rfl)
    rw [stuck id] at taken
    cases taken
  subst free
  refine ⟨rfl, fun id alive => ?_⟩
  have none_ := stuck id
  have outside := orderly.exclusive.outside id
  unfold PrintPid.work at none_
  cases place : state.children id with
  | unborn => exact absurd place alive.1
  | semWait =>
      rw [place, orderly.lock] at none_
      cases none_
  | format | print ptr | newline | semPost =>
      rw [place] at outside
      exact absurd trivial outside
  | leaving =>
      rw [place] at none_
      cases none_
  | exited => rfl
  | reaped => exact absurd place alive.2

/-- The program comes to an end, with all the lines and the last words, or with the lines of
the children that were forked before `fork` failed. -/
theorem splitProcess_ends {actions : List (Action childNumber)} {final : State childNumber}
    (ran : run (step pid) splitProcess actions = some final) :
    actions.length ≤ 1032 * childNumber + 3 ∧
      ((∀ action, step pid final action = none) →
        ∃ order : List (Fin childNumber), order.Nodup ∧
          (final.parent = .returned ∧ (∀ id, id ∈ order) ∧
              final.stdout = order.flatMap (line pid) ++ closing ∨
            ∃ i < childNumber, final.parent = .failed i ∧ (∀ id, id ∈ order ↔ id.val < i) ∧
              final.stdout = order.flatMap (line pid))) := by
  constructor
  · have shorter := @run_length_le _ _ (step pid) (Invariant pid) State.rank
      (fun _ _ _ invariant taken => invariant.step taken)
      (fun _ _ _ invariant taken => invariant.lowers taken) _ _ _
      (splitProcess_invariant pid) ran
    rw [splitProcess_rank] at shorter
    omega
  · intro stuck
    have invariant := invariant_of_run ran
    have family := invariant.family
    obtain ⟨holder, order, orderly⟩ := invariant.orderly
    obtain ⟨rfl, exited⟩ := orderly.idle fun id => stuck (.work id)
    have paper := orderly.paper
    simp only [unfinished, List.append_nil] at paper
    refine ⟨order, orderly.distinct, ?_⟩
    cases place : final.parent with
    | forking i =>
        have blocked := stuck (.fork true)
        simp only [step, parentStep, place] at blocked
        split at blocked <;> cases blocked
    | waiting i =>
        rw [place] at family
        by_cases early : i < childNumber
        · obtain ⟨id, alive⟩ := Waited.some_left family early
          have blocked := stuck (.wait (some id))
          simp only [step, parentStep, place, if_pos (And.intro early (exited id alive))] at blocked
          cases blocked
        · have blocked := stuck .allDone
          simp only [step, parentStep, place, if_neg early] at blocked
          cases blocked
    | allDone =>
        have blocked := stuck .allDone
        simp only [step, parentStep, place] at blocked
        cases blocked
    | returned =>
        rw [place] at family paper
        refine Or.inl ⟨rfl, fun id => ?_, paper⟩
        rw [orderly.printed id, family id]
        trivial
    | failed i =>
        rw [place] at family paper
        simp only [ParentAt.closed, List.append_nil] at paper
        refine Or.inr ⟨i, family.1, rfl, fun id => ?_, paper⟩
        rw [orderly.printed id]
        by_cases forked : id.val < i
        · refine iff_of_true ?_ forked
          rw [exited id ⟨fun unborn => Nat.not_le_of_lt forked ((family.2.unborn id).mp unborn),
            family.2.unreaped id⟩]
          trivial
        · refine iff_of_false ?_ forked
          rw [(family.2.unborn id).mpr (Nat.le_of_not_lt forked)]
          exact not_false

end Steps

def forkFails : List (Action 2) :=
  .fork true :: .fork false :: List.replicate 46 (.work ⟨0, Nat.zero_lt_two⟩)

def leftBehind : State 2 :=
  (run (step twoPids) splitProcess forkFails).get (by decide +kernel)

theorem splitProcess_ends_forkFails :
    forkFails.length ≤ 1032 * 2 + 3 ∧ ∃ order : List (Fin 2), order.Nodup ∧
      (leftBehind.parent = .returned ∧ (∀ id, id ∈ order) ∧
          leftBehind.stdout = order.flatMap (line twoPids) ++ closing ∨
        ∃ i < 2, leftBehind.parent = .failed i ∧ (∀ id, id ∈ order ↔ id.val < i) ∧
          leftBehind.stdout = order.flatMap (line twoPids)) := by
  obtain ⟨short, ends⟩ := splitProcess_ends (Option.some_get
    (show (run (step twoPids) splitProcess forkFails).isSome from by decide +kernel)).symm
  refine ⟨short, ends fun action => ?_⟩
  change step twoPids leftBehind action = none
  have place : leftBehind.parent = .failed 1 := by decide +kernel
  have children : ∀ id, leftBehind.children id = .exited ∨ leftBehind.children id = .unborn := by
    decide +kernel
  cases action with
  | fork succeeds => simp only [step, parentStep, place]
  | wait child => simp only [step, parentStep, place]
  | allDone => simp only [step, parentStep, place]
  | work id =>
      simp only [step, work]
      rcases children id with exited | unborn
      · rw [exited]
      · rw [unborn]

end Cab403.Workshops.PrintPid
