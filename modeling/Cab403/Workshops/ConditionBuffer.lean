/-
The ring buffer of condition.c, which uses a mutex and two condition variables. The
producer and the consumer loop are one loop with the roles exchanged: a producer
waits while the ring is full, marks `buffer[in]` and moves `in`; a consumer waits
while it is empty, clears `buffer[out]` and moves `out`; either signals the other
kind. One of the five slots is always left empty.
-/

import Cab403.Workshops.BoundedBuffer

namespace Cab403.Workshops.ConditionBuffer

open ActionRuns CriticalSection Tally
open BoundedBuffer (Kind)

def bufferSize : Nat := 5

/-- Where a thread stands in its loop: `waiting` is inside `pthread_cond_wait` with no
wake-up delivered, `woken` with one, and the mutex still to be had. -/
inductive Point where
  | outside
  | testing
  | waiting
  | woken
  | storing
  | advancing
  | signalling
  | unlocking
  deriving DecidableEq, Repr

structure State (Thread : Type*) where
  buffer : Vector Int bufferSize
  /-- `in` and `out`. -/
  index : Kind → Nat
  mutex : Option Thread
  points : Thread → Point

/-! ### The loops -/

def blocked (index : Kind → Nat) : Kind → Prop
  | .producer => (index .producer + 1) % bufferSize = index .consumer
  | .consumer => index .producer = index .consumer

instance (index : Kind → Nat) : (kind : Kind) → Decidable (blocked index kind)
  | .producer => inferInstanceAs (Decidable (_ = _))
  | .consumer => inferInstanceAs (Decidable (_ = _))

def mark : Kind → Int
  | .producer => 1
  | .consumer => 0

def advance (index : Kind → Nat) (kind : Kind) : Kind → Nat :=
  Function.update index kind ((index kind + 1) % bufferSize)

section Steps

variable {Thread : Type*} [DecidableEq Thread]

/-- The next step of a thread that is not in `pthread_cond_wait` without a wake-up and
not about to signal. -/
def loop (kind : Kind) (state : State Thread) (thread : Thread) : Option (State Thread) :=
  let stand (point : Point) := Function.update state.points thread point
  match state.points thread with
  | .outside =>
      if state.mutex = none then
        some { state with mutex := some thread, points := stand .testing }
      else none
  | .testing =>
      if blocked state.index kind then
        some { state with mutex := none, points := stand .waiting }
      else some { state with points := stand .storing }
  | .waiting => none
  | .woken =>
      if state.mutex = none then
        some { state with mutex := some thread, points := stand .testing }
      else none
  | .storing =>
      if state.index kind < bufferSize then
        some { state with
          buffer := state.buffer.setIfInBounds (state.index kind) (mark kind)
          points := stand .advancing }
      else none
  | .advancing =>
      some { state with index := advance state.index kind, points := stand .signalling }
  | .signalling => none
  | .unlocking => some { state with mutex := none, points := stand .outside }

def producer (state : State Thread) (thread : Thread) : Option (State Thread) :=
  loop .producer state thread

def consumer (state : State Thread) (thread : Thread) : Option (State Thread) :=
  loop .consumer state thread

inductive Action (Thread : Type*) where
  | next (thread : Thread)
  /-- `pthread_cond_signal` and the waiter it wakes, if any. -/
  | signal (thread : Thread) (waiter : Option Thread)
  /-- A wake-up that no signal sent. -/
  | spurious (thread : Thread)
  deriving DecidableEq, Repr

variable [Fintype Thread]

def step (kind : Thread → Kind) (state : State Thread) : Action Thread → Option (State Thread)
  | .next thread =>
      match kind thread with
      | .producer => producer state thread
      | .consumer => consumer state thread
  | .signal thread (some waiter) =>
      if state.points thread = .signalling ∧ kind waiter = (kind thread).other ∧
          state.points waiter = .waiting then
        some { state with
          points := Function.update (Function.update state.points waiter .woken) thread
            .unlocking }
      else none
  | .signal thread none =>
      if state.points thread = .signalling ∧
          ∀ other, kind other = (kind thread).other → state.points other ≠ .waiting then
        some { state with points := Function.update state.points thread .unlocking }
      else none
  | .spurious thread =>
      if state.points thread = .waiting then
        some { state with points := Function.update state.points thread .woken }
      else none

inductive Steps (kind : Thread → Kind) (state : State Thread) : State Thread → Prop
  | locked {thread : Thread}
      (stands : state.points thread = .outside ∨ state.points thread = .woken)
      (free : state.mutex = none) :
      Steps kind state { state with
        mutex := some thread
        points := Function.update state.points thread .testing }
  | blocked {thread : Thread} (stands : state.points thread = .testing)
      (full : blocked state.index (kind thread)) :
      Steps kind state { state with
        mutex := none
        points := Function.update state.points thread .waiting }
  | passed {thread : Thread} (stands : state.points thread = .testing)
      (room : ¬ blocked state.index (kind thread)) :
      Steps kind state { state with points := Function.update state.points thread .storing }
  | stored {thread : Thread} (stands : state.points thread = .storing) :
      Steps kind state { state with
        buffer := state.buffer.setIfInBounds (state.index (kind thread)) (mark (kind thread))
        points := Function.update state.points thread .advancing }
  | advanced {thread : Thread} (stands : state.points thread = .advancing) :
      Steps kind state { state with
        index := advance state.index (kind thread)
        points := Function.update state.points thread .signalling }
  | signalled {thread waiter : Thread} (stands : state.points thread = .signalling)
      (other : kind waiter = (kind thread).other) (waits : state.points waiter = .waiting) :
      Steps kind state { state with
        points := Function.update (Function.update state.points waiter .woken) thread
          .unlocking }
  | unheard {thread : Thread} (stands : state.points thread = .signalling)
      (none_ : ∀ other, kind other = (kind thread).other → state.points other ≠ .waiting) :
      Steps kind state { state with points := Function.update state.points thread .unlocking }
  | unlocked {thread : Thread} (stands : state.points thread = .unlocking) :
      Steps kind state { state with
        mutex := none
        points := Function.update state.points thread .outside }
  | spurious {thread : Thread} (waits : state.points thread = .waiting) :
      Steps kind state { state with points := Function.update state.points thread .woken }

omit [Fintype Thread] in
theorem loop_steps {kind : Thread → Kind} {state next : State Thread} {thread : Thread}
    (taken : loop (kind thread) state thread = some next) : Steps kind state next := by
  unfold loop at taken
  dsimp only at taken
  split at taken
  · rename_i stands
    obtain ⟨free, rfl⟩ := of_guarded taken
    exact .locked (Or.inl stands) free
  · rename_i stands
    split at taken
    · rename_i full
      cases taken
      exact .blocked stands full
    · rename_i room
      cases taken
      exact .passed stands room
  · cases taken
  · rename_i stands
    obtain ⟨free, rfl⟩ := of_guarded taken
    exact .locked (Or.inr stands) free
  · rename_i stands
    obtain ⟨_, rfl⟩ := of_guarded taken
    exact .stored stands
  · rename_i stands
    cases taken
    exact .advanced stands
  · cases taken
  · rename_i stands
    cases taken
    exact .unlocked stands

theorem step_cases {kind : Thread → Kind} {state next : State Thread} {action : Action Thread}
    (taken : step kind state action = some next) : Steps kind state next := by
  cases action with
  | next thread =>
      have looped : loop (kind thread) state thread = some next := by
        unfold step at taken
        dsimp only at taken
        split at taken
        · rename_i producer
          rwa [producer]
        · rename_i consumer
          rwa [consumer]
      exact loop_steps looped
  | signal thread waiter =>
      cases waiter with
      | some waiter =>
          obtain ⟨⟨stands, other, waits⟩, rfl⟩ := of_guarded taken
          exact .signalled stands other waits
      | none =>
          obtain ⟨⟨stands, none_⟩, rfl⟩ := of_guarded taken
          exact .unheard stands none_
  | spurious thread =>
      obtain ⟨waits, rfl⟩ := of_guarded taken
      exact .spurious waits

end Steps

def State.initial (Thread : Type*) : State Thread where
  buffer := Vector.replicate bufferSize 0
  index := fun _ => 0
  mutex := none
  points := fun _ => .outside

/-! ### The ring -/

def stored (index : Kind → Nat) : Nat :=
  (index .producer + bufferSize - index .consumer) % bufferSize

def InRange (index : Kind → Nat) (slot : Nat) : Prop :=
  slot < bufferSize ∧ (slot + bufferSize - index .consumer) % bufferSize < stored index

/-- How often a thread of the kind could go on before it would wait. -/
def room (index : Kind → Nat) : Kind → Nat
  | .producer => bufferSize - 1 - stored index
  | .consumer => stored index

def Marks (buffer : Vector Int bufferSize) (index : Kind → Nat) : Prop :=
  ∀ slot, buffer[slot]? = some 1 ↔ InRange index slot

section Ring

variable {index : Kind → Nat} {kind : Kind}

theorem advance_self : advance index kind kind = (index kind + 1) % bufferSize :=
  Function.update_self ..

theorem advance_producer : advance index .producer .consumer = index .consumer := rfl

theorem advance_consumer : advance index .consumer .producer = index .producer := rfl

variable (within : ∀ side, index side < bufferSize)

include within

theorem blocked_iff_room : blocked index kind ↔ room index kind = 0 := by
  have produced := within .producer
  have consumed := within .consumer
  cases kind with
  | producer =>
      simp only [blocked, room, stored, bufferSize] at *
      omega
  | consumer =>
      simp only [blocked, room, stored, bufferSize] at *
      omega

theorem room_add_room (kind : Kind) : room index kind + room index kind.other = bufferSize - 1 := by
  have produced := within .producer
  have consumed := within .consumer
  cases kind with
  | producer =>
      simp only [room, Kind.other, stored, bufferSize] at *
      omega
  | consumer =>
      simp only [room, Kind.other, stored, bufferSize] at *
      omega

theorem advance_within (side : Kind) : advance index kind side < bufferSize := by
  unfold advance
  by_cases same : side = kind
  · rw [same, Function.update_self]
    exact Nat.mod_lt _ (Nat.succ_pos _)
  · rw [Function.update_of_ne same]
    exact within side

theorem room_advance (positive : 0 < room index kind) :
    room (advance index kind) kind + 1 = room index kind ∧
      room (advance index kind) kind.other = room index kind.other + 1 := by
  have produced := within .producer
  have consumed := within .consumer
  cases kind with
  | producer =>
      simp only [room, Kind.other, stored, bufferSize, advance_self, advance_producer] at *
      omega
  | consumer =>
      simp only [room, Kind.other, stored, bufferSize, advance_self, advance_consumer] at *
      omega

/-- The range gains the slot that a producer moves past and loses the one that a consumer
moves past. -/
theorem inRange_advance (positive : 0 < room index kind) (slot : Nat) :
    InRange (advance index kind) slot ↔
      if index kind = slot then kind = .producer else InRange index slot := by
  have produced := within .producer
  have consumed := within .consumer
  cases kind with
  | producer =>
      simp only [InRange, room, stored, bufferSize, advance_self, advance_producer] at *
      split
      · rw [iff_true]
        omega
      · omega
  | consumer =>
      simp only [InRange, room, stored, bufferSize, advance_self, advance_consumer, reduceCtorEq]
        at *
      split
      · rw [iff_false]
        omega
      · omega

/-- A store makes the ring what it is once the index has moved. -/
theorem Marks.store {buffer : Vector Int bufferSize} (marks : Marks buffer index)
    (positive : 0 < room index kind) :
    Marks (buffer.setIfInBounds (index kind) (mark kind)) (advance index kind) := by
  intro slot
  rw [inRange_advance within positive, Vector.getElem?_setIfInBounds]
  by_cases same : index kind = slot
  · rw [if_pos same, if_pos same, if_pos (within kind), Option.some.injEq]
    cases kind with
    | producer => exact iff_of_true rfl rfl
    | consumer => exact iff_of_false (by decide) nofun
  · rw [if_neg same, if_neg same]
    exact marks slot

end Ring

/-! ### The mutex -/

def Point.InSection : Point → Prop
  | .testing | .storing | .advancing | .signalling | .unlocking => True
  | .outside | .waiting | .woken => False

section Invariant

variable {Thread : Type*} {kind : Thread → Kind}

def State.Exclusive (state : State Thread) : Prop :=
  CriticalSection.Exclusive Point.InSection state.points state.mutex

/-- What the mutex protects: the indices, room for whoever passed the test, and the
marks, which are ahead of the index between the store and its increment. -/
structure State.Protected (kind : Thread → Kind) (state : State Thread) : Prop where
  exclusive : state.Exclusive
  within : ∀ side, state.index side < bufferSize
  passed : ∀ thread, state.points thread = .storing ∨ state.points thread = .advancing →
    0 < room state.index (kind thread)
  clean : (∀ thread, state.points thread ≠ .advancing) → Marks state.buffer state.index
  ahead : ∀ thread, state.points thread = .advancing →
    Marks state.buffer (advance state.index (kind thread))

theorem protected_initial : (State.initial Thread).Protected kind where
  exclusive := Exclusive.free fun _ within => within
  within _ := Nat.succ_pos _
  passed _ stands := by
    rcases stands with stands | stands <;> cases stands
  clean _ slot := by
    simp [State.initial, Vector.getElem?_replicate, InRange, stored]
  ahead _ stands := nomatch stands

variable [DecidableEq Thread]

def Point.Quiet : Point → Prop
  | .storing | .advancing => False
  | _ => True

theorem update_stands {points : Thread → Point} {thread other : Thread} {point sought : Point}
    (before : points thread ≠ sought) (after : point ≠ sought) :
    Function.update points thread point other = sought ↔ points other = sought := by
  by_cases same : other = thread
  · subst same
    rw [Function.update_self]
    exact iff_of_false after before
  · rw [Function.update_of_ne same]

/-- A step that leaves the ring alone. -/
theorem State.Protected.move {state : State Thread} (held : state.Protected kind)
    {thread : Thread} {point : Point} {mutex : Option Thread}
    (exclusive : CriticalSection.Exclusive Point.InSection
      (Function.update state.points thread point) mutex)
    (before : (state.points thread).Quiet) (after : point.Quiet) :
    State.Protected kind { state with
      mutex := mutex
      points := Function.update state.points thread point } := by
  have quiet (sought : Point) (loud : ¬ sought.Quiet) (other : Thread) :
      Function.update state.points thread point other = sought ↔ state.points other = sought :=
    update_stands (fun same => loud (same ▸ before)) fun same => loud (same ▸ after)
  have storing := quiet .storing not_false
  have advancing := quiet .advancing not_false
  constructor
  case exclusive => exact exclusive
  case within => exact held.within
  case passed =>
    intro other stands
    exact held.passed other (stands.imp (storing other).mp (advancing other).mp)
  case clean =>
    intro none_
    exact held.clean fun other stands => none_ other ((advancing other).mpr stands)
  case ahead =>
    intro other stands
    exact held.ahead other ((advancing other).mp stands)

theorem Point.inSection_of_loud {point : Point} (loud : point = .storing ∨ point = .advancing) :
    point.InSection := by
  rcases loud with rfl | rfl
  · trivial
  · trivial

theorem State.Protected.pass {state : State Thread} (held : state.Protected kind) {thread : Thread}
    (stands : state.points thread = .testing) (free : ¬ blocked state.index (kind thread)) :
    State.Protected kind { state with
      points := Function.update state.points thread .storing } := by
  have advancing (other : Thread) :
      Function.update state.points thread .storing other = .advancing ↔
        state.points other = .advancing :=
    update_stands (by rw [stands]; exact nofun) nofun
  constructor
  case exclusive => exact Exclusive.move held.exclusive (by rw [stands]; exact Iff.rfl)
  case within => exact held.within
  case passed =>
    intro other loud
    by_cases same : other = thread
    · rw [same]
      rw [blocked_iff_room held.within] at free
      exact Nat.pos_of_ne_zero free
    · refine held.passed other ?_
      dsimp only at loud
      rwa [Function.update_of_ne same] at loud
  case clean =>
    intro none_
    exact held.clean fun other stands => none_ other ((advancing other).mpr stands)
  case ahead =>
    intro other stands
    exact held.ahead other ((advancing other).mp stands)

theorem State.Protected.store {state : State Thread} (held : state.Protected kind)
    {thread : Thread} (stands : state.points thread = .storing) :
    State.Protected kind { state with
      buffer := state.buffer.setIfInBounds (state.index (kind thread)) (mark (kind thread))
      points := Function.update state.points thread .advancing } := by
  have within : (state.points thread).InSection := Point.inSection_of_loud (Or.inl stands)
  have unlike (other : Thread) (loud : state.points other = .advancing) : False := by
    have same := held.exclusive.unique within (Point.inSection_of_loud (Or.inr loud))
    rw [← same, stands] at loud
    cases loud
  have positive := held.passed thread (Or.inl stands)
  constructor
  case exclusive => exact Exclusive.move held.exclusive (by rw [stands]; exact Iff.rfl)
  case within => exact held.within
  case passed =>
    intro other loud
    by_cases same : other = thread
    · rw [same]
      exact positive
    · refine held.passed other ?_
      dsimp only at loud
      rwa [Function.update_of_ne same] at loud
  case clean =>
    intro none_
    exact absurd (Function.update_self _ _ _) (none_ thread)
  case ahead =>
    intro other loud
    by_cases same : other = thread
    · rw [same]
      exact (held.clean unlike).store held.within positive
    · dsimp only at loud
      rw [Function.update_of_ne same] at loud
      exact (unlike other loud).elim

theorem State.Protected.advance {state : State Thread} (held : state.Protected kind)
    {thread : Thread} (stands : state.points thread = .advancing) :
    State.Protected kind { state with
      index := ConditionBuffer.advance state.index (kind thread)
      points := Function.update state.points thread .signalling } := by
  have within : (state.points thread).InSection := Point.inSection_of_loud (Or.inr stands)
  have quiet (other : Thread)
      (loud : Function.update state.points thread .signalling other = .storing ∨
        Function.update state.points thread .signalling other = .advancing) : False := by
    by_cases same : other = thread
    · subst same
      rw [Function.update_self] at loud
      rcases loud with loud | loud <;> cases loud
    · rw [Function.update_of_ne same] at loud
      exact same (held.exclusive.unique (Point.inSection_of_loud loud) within)
  constructor
  case exclusive => exact Exclusive.move held.exclusive (by rw [stands]; exact Iff.rfl)
  case within => exact advance_within held.within
  case passed => exact fun other loud => (quiet other loud).elim
  case clean => exact fun _ => held.ahead thread stands
  case ahead => exact fun other loud => (quiet other (Or.inr loud)).elim

theorem protected_step {state next : State Thread} (held : state.Protected kind)
    (stepped : Steps kind state next) : next.Protected kind := by
  have exclusive := held.exclusive
  unfold State.Exclusive at exclusive
  cases stepped with
  | @locked thread stands free =>
      rw [free] at exclusive
      refine held.move (exclusive.lock trivial) ?_ trivial
      rcases stands with stands | stands <;> rw [stands] <;> trivial
  | @blocked thread stands full =>
      exact held.move (exclusive.unlock (by rw [stands]; trivial) not_false)
        (by rw [stands]; trivial) trivial
  | passed stands room => exact held.pass stands room
  | stored stands => exact held.store stands
  | advanced stands => exact held.advance stands
  | @signalled thread waiter stands other waits =>
      have apart : thread ≠ waiter := by
        rintro rfl
        rw [stands] at waits
        cases waits
      have still : Function.update state.points waiter .woken thread = .signalling := by
        rw [Function.update_of_ne apart, stands]
      have woken := held.move (exclusive.move (by rw [waits]; exact Iff.rfl) :
        CriticalSection.Exclusive Point.InSection (Function.update state.points waiter .woken) _)
        (by rw [waits]; trivial) trivial
      exact woken.move (Exclusive.move woken.exclusive (by dsimp only; rw [still]; exact Iff.rfl))
        (by dsimp only; rw [still]; trivial) trivial
  | @unheard thread stands none_ =>
      exact held.move (exclusive.move (by rw [stands]; exact Iff.rfl)) (by rw [stands]; trivial)
        trivial
  | @unlocked thread stands =>
      exact held.move (exclusive.unlock (by rw [stands]; trivial) not_false)
        (by rw [stands]; trivial) trivial
  | @spurious thread waits =>
      exact held.move (exclusive.move (by rw [waits]; exact Iff.rfl)) (by rw [waits]; trivial)
        trivial

end Invariant

/-! ### Wake-ups -/

section WakeUps

variable {Thread : Type*} {kind : Thread → Kind}

/-- Woken, or at work, and its own kind's room not used yet. -/
def Point.claims : Point → Nat
  | .woken | .testing | .storing | .advancing => 1
  | _ => 0

/-- Room was made for the other kind, and the signal not sent yet. -/
def Point.announces : Point → Nat
  | .signalling => 1
  | _ => 0

def share (kind : Thread → Kind) (side : Kind) (thread : Thread) (point : Point) : Nat :=
  if kind thread = side then point.claims else point.announces

@[simp] theorem share_own (thread : Thread) (point : Point) :
    share kind (kind thread) thread point = point.claims := if_pos rfl

@[simp] theorem share_other (thread : Thread) (point : Point) :
    share kind (kind thread).other thread point = point.announces := if_neg (Kind.ne_other _)

def SomeWaits (kind : Thread → Kind) (side : Kind) (points : Thread → Point) : Prop :=
  ∃ thread, kind thread = side ∧ points thread = .waiting

theorem SomeWaits.before [DecidableEq Thread] {points : Thread → Point} {thread : Thread}
    {point : Point} {side : Kind}
    (waits : SomeWaits kind side (Function.update points thread point))
    (leaves : point ≠ .waiting) : SomeWaits kind side points := by
  obtain ⟨other, same, stands⟩ := waits
  by_cases moves : other = thread
  · subst moves
    rw [Function.update_self] at stands
    exact absurd stands leaves
  · rw [Function.update_of_ne moves] at stands
    exact ⟨other, same, stands⟩

variable [Fintype Thread]

/-- While a thread waits, all the room for its kind is claimed or about to be signalled. -/
def Claimed (kind : Thread → Kind) (index : Kind → Nat) (points : Thread → Point) : Prop :=
  ∀ side, SomeWaits kind side points → room index side ≤ tally (share kind side) points

def State.Claimed (kind : Thread → Kind) (state : State Thread) : Prop :=
  ConditionBuffer.Claimed kind state.index state.points

theorem claimed_initial : (State.initial Thread).Claimed kind := by
  rintro side ⟨thread, _, waits⟩
  cases waits

variable [DecidableEq Thread] {index : Kind → Nat} {points : Thread → Point}

/-- A move after which a thread claims and announces at least what it did before. -/
theorem Claimed.move (claimed : Claimed kind index points) {thread : Thread} {point : Point}
    (leaves : point ≠ .waiting) (claims : (points thread).claims ≤ point.claims)
    (announces : (points thread).announces ≤ point.announces) :
    Claimed kind index (Function.update points thread point) := by
  intro side waits
  have before := claimed side (waits.before leaves)
  have change := tally_update (share kind side) points thread point
  have more : share kind side thread (points thread) ≤ share kind side thread point := by
    unfold share
    split
    · exact claims
    · exact announces
  omega

/-- Who finds no room leaves none unclaimed. -/
theorem Claimed.block (claimed : Claimed kind index points) {thread : Thread}
    (stands : points thread = .testing) (full : room index (kind thread) = 0) :
    Claimed kind index (Function.update points thread .waiting) := by
  intro side waits
  rcases (kind thread).eq_or_other side with rfl | rfl
  · rw [full]
    exact Nat.zero_le _
  · have before := claimed (kind thread).other (by
      obtain ⟨other, same, waiting⟩ := waits
      have moves : other ≠ thread := fun moves => Kind.ne_other _ (moves ▸ same)
      rw [Function.update_of_ne moves] at waiting
      exact ⟨other, same, waiting⟩)
    have change := tally_update (share kind (kind thread).other) points thread .waiting
    simp only [share_other, stands, Point.announces] at change
    omega

/-- The room that a move of the index takes was claimed, and what it makes is announced. -/
theorem Claimed.advance (claimed : Claimed kind index points) {thread : Thread}
    (stands : points thread = .advancing) (within : ∀ side, index side < bufferSize)
    (positive : 0 < room index (kind thread)) :
    Claimed kind (ConditionBuffer.advance index (kind thread))
      (Function.update points thread .signalling) := by
  intro side waits
  have before := claimed side (waits.before nofun)
  have change := tally_update (share kind side) points thread .signalling
  obtain ⟨taken, made⟩ := room_advance within positive
  rcases (kind thread).eq_or_other side with rfl | rfl
  · simp only [share_own, stands, Point.claims] at change
    omega
  · simp only [share_other, stands, Point.announces] at change
    omega

/-- The waiter's claim takes the place of the announcement. -/
theorem Claimed.signal (claimed : Claimed kind index points) {thread waiter : Thread}
    (stands : points thread = .signalling) (other : kind waiter = (kind thread).other)
    (waits : points waiter = .waiting) :
    Claimed kind index (Function.update (Function.update points waiter .woken) thread
      .unlocking) := by
  intro side someWaits
  have before := claimed side ((someWaits.before nofun).before nofun)
  have apart : thread ≠ waiter := by
    rintro rfl
    exact Kind.ne_other _ other
  have wakes := tally_update (share kind side) points waiter .woken
  have unlocks := tally_update (share kind side) (Function.update points waiter .woken) thread
    .unlocking
  rw [Function.update_of_ne apart, stands] at unlocks
  rw [waits] at wakes
  rcases (kind thread).eq_or_other side with rfl | rfl
  · have apartKind : ¬ kind waiter = kind thread := by
      rw [other]
      exact Kind.other_ne _
    simp only [share_own, Point.claims] at unlocks
    simp only [share, if_neg apartKind, Point.announces] at wakes
    omega
  · simp only [share_other, Point.announces] at unlocks
    simp only [share, if_pos other, Point.claims] at wakes
    omega

/-- Without a waiter nobody relies on the announcement. -/
theorem Claimed.unheard (claimed : Claimed kind index points) {thread : Thread}
    (stands : points thread = .signalling)
    (none_ : ∀ other, kind other = (kind thread).other → points other ≠ .waiting) :
    Claimed kind index (Function.update points thread .unlocking) := by
  intro side waits
  have waited := waits.before nofun
  have before := claimed side waited
  have change := tally_update (share kind side) points thread .unlocking
  rcases (kind thread).eq_or_other side with rfl | rfl
  · simp only [share_own, stands, Point.claims] at change
    omega
  · obtain ⟨other, same, waiting⟩ := waited
    exact absurd waiting (none_ other same)

theorem claimed_step {state next : State Thread} (held : state.Protected kind)
    (claimed : state.Claimed kind) (stepped : Steps kind state next) : next.Claimed kind := by
  cases stepped with
  | locked stands free =>
      refine Claimed.move claimed nofun ?_ ?_
      · rcases stands with stands | stands <;> simp [stands, Point.claims]
      · rcases stands with stands | stands <;> simp [stands, Point.announces]
  | blocked stands full =>
      exact Claimed.block claimed stands ((blocked_iff_room held.within).mp full)
  | passed stands room =>
      exact Claimed.move claimed nofun (by rw [stands]; exact Nat.le_refl _)
        (by rw [stands]; exact Nat.le_refl _)
  | stored stands =>
      exact Claimed.move claimed nofun (by rw [stands]; exact Nat.le_refl _)
        (by rw [stands]; exact Nat.le_refl _)
  | advanced stands =>
      exact Claimed.advance claimed stands held.within (held.passed _ (Or.inr stands))
  | signalled stands other waits => exact Claimed.signal claimed stands other waits
  | unheard stands none_ => exact Claimed.unheard claimed stands none_
  | unlocked stands =>
      exact Claimed.move claimed nofun (by rw [stands]; exact Nat.zero_le _)
        (by rw [stands]; exact Nat.zero_le _)
  | spurious waits =>
      exact Claimed.move claimed nofun (by rw [waits]; exact Nat.zero_le _)
        (by rw [waits]; exact Nat.zero_le _)

/-! ### Whole runs -/

/-- What holds in every state: the marks agree with the indices whenever the mutex is
free, and some thread can still go on. -/
structure State.Sound (state : State Thread) : Prop where
  marks : state.mutex = none → ∀ slot, slot < bufferSize →
    (state.buffer[slot]? = some 1 ↔ InRange state.index slot)
  inRange : ∀ side, state.index side < bufferSize
  awake : ¬ ∀ thread, state.points thread = .waiting

structure State.Invariant (kind : Thread → Kind) (state : State Thread) : Prop where
  guarded : state.Protected kind
  claimed : state.Claimed kind

omit [DecidableEq Thread] in
theorem State.Protected.sound {state : State Thread} (held : state.Protected kind)
    (claimed : state.Claimed kind) (producers : ∃ thread, kind thread = .producer)
    (consumers : ∃ thread, kind thread = .consumer) : state.Sound where
  marks free slot _ := by
    have exclusive := held.exclusive
    unfold State.Exclusive at exclusive
    rw [free] at exclusive
    exact held.clean (fun thread stands => exclusive.outside thread (by rw [stands]; trivial)) slot
  inRange := held.within
  awake := by
    intro waiting
    have nobody (side : Kind) : tally (share kind side) state.points = 0 :=
      tally_eq_zero fun thread => by
        rw [waiting thread, share]
        split <;> rfl
    have someWaits (side : Kind) : SomeWaits kind side state.points := by
      cases side with
      | producer => exact producers.imp fun thread same => ⟨same, waiting thread⟩
      | consumer => exact consumers.imp fun thread same => ⟨same, waiting thread⟩
    have free := claimed .producer (someWaits _)
    have used := claimed .consumer (someWaits _)
    have whole := room_add_room held.within .producer
    rw [nobody] at free used
    simp only [Kind.other, bufferSize] at whole
    omega

/-- However the loops of any positive numbers of producers and consumers interleave,
whichever waiter a signal wakes and whoever wakes up unasked. -/
theorem conditionBuffer_sound (kind : Thread → Kind)
    (producers : ∃ thread, kind thread = .producer) (consumers : ∃ thread, kind thread = .consumer)
    (actions : List (Action Thread)) (reached : State Thread)
    (ran : run (step kind) (State.initial Thread) actions = some reached) : reached.Sound := by
  have invariant : reached.Invariant kind :=
    invariant_run_always (fun _ _ _ held taken =>
      have stepped := step_cases taken
      ⟨protected_step held.guarded stepped, claimed_step held.guarded held.claimed stepped⟩)
      ⟨protected_initial, claimed_initial⟩ ran
  exact invariant.guarded.sound invariant.claimed producers consumers

end WakeUps

/-- The consumer waits, the producer stores an item and wakes it. -/
def waitsForItem : List (Action Bool) :=
  [.next false, .next false, .next true, .next true, .next true, .next true,
    .signal true (some false), .next true, .next false]

theorem conditionBuffer_sound_waitsForItem :
    ((run (step BoundedBuffer.trueProduces) (State.initial Bool) waitsForItem).get
      (by decide +kernel)).Sound :=
  conditionBuffer_sound BoundedBuffer.trueProduces ⟨true, rfl⟩ ⟨false, rfl⟩ waitsForItem _
    (Option.some_get _).symm

end Cab403.Workshops.ConditionBuffer
