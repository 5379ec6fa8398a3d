/-
The bounded buffer of buffer.c: `insert_item` and `remove_item` under two counting
semaphores and a mutex. The two are one operation with the roles exchanged, so what
they use is indexed by the kind of the caller: a producer waits on `empty`, moves
`insertPointer` and posts `full`; a consumer waits on `full`, moves `removePointer`
and posts `empty`. Beside the program's variables a state records the items moved
in the critical sections and the slots not read since they were written.
-/

import Cab403.Library.ActionRuns
import Cab403.Library.CriticalSection
import Cab403.Library.Tally

namespace Cab403.Workshops.BoundedBuffer

open ActionRuns CriticalSection Tally

def bufferSize : Nat := 5

inductive Kind where
  | producer
  | consumer
  deriving DecidableEq, Repr

def Kind.other : Kind → Kind
  | .producer => .consumer
  | .consumer => .producer

@[simp] theorem Kind.other_other (kind : Kind) : kind.other.other = kind := by
  cases kind with
  | producer => rfl
  | consumer => rfl

@[simp] theorem Kind.other_ne (kind : Kind) : kind.other ≠ kind := by
  cases kind with
  | producer => exact nofun
  | consumer => exact nofun

@[simp] theorem Kind.ne_other (kind : Kind) : kind ≠ kind.other := (Kind.other_ne kind).symm

theorem Kind.eq_or_other (kind waiter : Kind) : waiter = kind ∨ waiter = kind.other := by
  cases kind with
  | producer => cases waiter <;> simp [Kind.other]
  | consumer => cases waiter <;> simp [Kind.other]

/-- How far a thread has come in its call; `item` is the argument, or what the pointer
of `remove_item` refers to. -/
inductive Point (Item : Type*) where
  | outside
  | called (item : Item)
  | waited (item : Item)
  | locked (item : Item)
  | moved (item : Item)
  | wrapped (item : Item)
  | unlocked (item : Item)
  deriving DecidableEq, Repr

structure State (Thread Item : Type*) where
  buffer : Vector Item bufferSize
  /-- `insertPointer` and `removePointer`. -/
  pointer : Kind → Nat
  mutex : Option Thread
  /-- `empty` and `full`: what a caller of this kind waits on. -/
  semaphore : Kind → Nat
  points : Thread → Point Item
  /-- The items inserted and the items removed, in the order of the critical sections. -/
  items : Kind → List Item
  unread : Vector Bool bufferSize

section Steps

variable {Thread Item : Type*} [DecidableEq Thread]

def State.at (state : State Thread Item) (thread : Thread) (point : Point Item) :
    State Thread Item :=
  { state with points := Function.update state.points thread point }

@[simp] theorem State.at_points (state : State Thread Item) (thread : Thread)
    (point : Point Item) :
    (state.at thread point).points = Function.update state.points thread point := rfl

/-- `buffer[insertPointer] = item` or `*item = buffer[removePointer]`, with the item
moved; `none` outside the array. -/
def State.access (state : State Thread Item) (kind : Kind) (item : Item) :
    Option (State Thread Item × Item) :=
  match kind with
  | .producer =>
      if state.pointer .producer < bufferSize then
        some ({ state with
          buffer := state.buffer.setIfInBounds (state.pointer .producer) item
          unread := state.unread.setIfInBounds (state.pointer .producer) true }, item)
      else none
  | .consumer =>
      state.buffer[state.pointer .consumer]?.map fun held =>
        ({ state with unread := state.unread.setIfInBounds (state.pointer .consumer) false }, held)

def operation (kind : Kind) (state : State Thread Item) (thread : Thread) :
    Option (State Thread Item) :=
  match state.points thread with
  | .outside => none
  | .called item =>
      if 0 < state.semaphore kind then
        some ({ state with
          semaphore := Function.update state.semaphore kind (state.semaphore kind - 1) }.at thread
            (.waited item))
      else none
  | .waited item =>
      if state.mutex = none then
        some ({ state with mutex := some thread }.at thread (.locked item))
      else none
  | .locked item =>
      (state.access kind item).map fun accessed =>
        { accessed.1 with
          pointer := Function.update state.pointer kind (state.pointer kind + 1)
          items := Function.update state.items kind (state.items kind ++ [accessed.2]) }.at thread
            (.moved accessed.2)
  | .moved item =>
      some ({ state with
        pointer := Function.update state.pointer kind (state.pointer kind % bufferSize) }.at thread
          (.wrapped item))
  | .wrapped item => some ({ state with mutex := none }.at thread (.unlocked item))
  | .unlocked _ =>
      some ({ state with
        semaphore := Function.update state.semaphore kind.other
          (state.semaphore kind.other + 1) }.at thread .outside)

def insertItem (state : State Thread Item) (thread : Thread) : Option (State Thread Item) :=
  operation .producer state thread

def removeItem (state : State Thread Item) (thread : Thread) : Option (State Thread Item) :=
  operation .consumer state thread

inductive Action (Thread Item : Type*) where
  /-- A call of the thread's operation with this argument. -/
  | call (thread : Thread) (item : Item)
  | advance (thread : Thread)
  deriving DecidableEq, Repr

def step (kind : Thread → Kind) (state : State Thread Item) :
    Action Thread Item → Option (State Thread Item)
  | .call thread item =>
      match state.points thread with
      | .outside => some (state.at thread (.called item))
      | _ => none
  | .advance thread =>
      match kind thread with
      | .producer => insertItem state thread
      | .consumer => removeItem state thread

inductive Steps (kind : Thread → Kind) (state : State Thread Item) : State Thread Item → Prop
  | called {thread : Thread} (item : Item) (stands : state.points thread = .outside) :
      Steps kind state (state.at thread (.called item))
  | waited {thread : Thread} {item : Item} (stands : state.points thread = .called item)
      (positive : 0 < state.semaphore (kind thread)) :
      Steps kind state ({ state with
        semaphore := Function.update state.semaphore (kind thread)
          (state.semaphore (kind thread) - 1) }.at thread (.waited item))
  | locked {thread : Thread} {item : Item} (stands : state.points thread = .waited item)
      (free : state.mutex = none) :
      Steps kind state ({ state with mutex := some thread }.at thread (.locked item))
  | moved {thread : Thread} {item moved : Item} {after : State Thread Item}
      (stands : state.points thread = .locked item)
      (accessed : state.access (kind thread) item = some (after, moved)) :
      Steps kind state ({ after with
        pointer := Function.update state.pointer (kind thread) (state.pointer (kind thread) + 1)
        items := Function.update state.items (kind thread)
          (state.items (kind thread) ++ [moved]) }.at thread (.moved moved))
  | wrapped {thread : Thread} {item : Item} (stands : state.points thread = .moved item) :
      Steps kind state ({ state with
        pointer := Function.update state.pointer (kind thread)
          (state.pointer (kind thread) % bufferSize) }.at thread (.wrapped item))
  | unlocked {thread : Thread} {item : Item} (stands : state.points thread = .wrapped item) :
      Steps kind state ({ state with mutex := none }.at thread (.unlocked item))
  | posted {thread : Thread} {item : Item} (stands : state.points thread = .unlocked item) :
      Steps kind state ({ state with
        semaphore := Function.update state.semaphore (kind thread).other
          (state.semaphore (kind thread).other + 1) }.at thread .outside)

theorem operation_steps {kind : Thread → Kind} {state next : State Thread Item} {thread : Thread}
    (taken : operation (kind thread) state thread = some next) : Steps kind state next := by
  unfold operation at taken
  split at taken
  · cases taken
  · rename_i item stands
    obtain ⟨positive, rfl⟩ := of_guarded taken
    exact .waited stands positive
  · rename_i item stands
    obtain ⟨free, rfl⟩ := of_guarded taken
    exact .locked stands free
  · rename_i item stands
    obtain ⟨⟨after, moved⟩, accessed, rfl⟩ := Option.map_eq_some_iff.mp taken
    exact .moved stands accessed
  · rename_i item stands
    cases taken
    exact .wrapped stands
  · rename_i item stands
    cases taken
    exact .unlocked stands
  · rename_i item stands
    cases taken
    exact .posted stands

theorem step_cases {kind : Thread → Kind} {state next : State Thread Item}
    {action : Action Thread Item} (taken : step kind state action = some next) :
    Steps kind state next := by
  cases action with
  | call thread item =>
      unfold step at taken
      dsimp only at taken
      split at taken
      · rename_i stands
        cases taken
        exact .called item stands
      · cases taken
  | advance thread =>
      have operated : operation (kind thread) state thread = some next := by
        unfold step at taken
        dsimp only at taken
        split at taken
        · rename_i producer
          rwa [producer]
        · rename_i consumer
          rwa [consumer]
      exact operation_steps operated

omit [DecidableEq Thread] in
theorem access_frame {state after : State Thread Item} {kind : Kind} {item moved : Item}
    (accessed : state.access kind item = some (after, moved)) :
    ∃ buffer unread, after = { state with buffer := buffer, unread := unread } := by
  cases kind with
  | producer =>
      obtain ⟨_, same⟩ := of_guarded accessed
      cases same
      exact ⟨_, _, rfl⟩
  | consumer =>
      obtain ⟨held, _, same⟩ := Option.map_eq_some_iff.mp accessed
      cases same
      exact ⟨_, _, rfl⟩

end Steps

/-- `main` before it creates the threads: `sem_init(&empty, 0, BUFFER_SIZE)` and
`sem_init(&full, 0, 0)`. -/
def State.initial (Thread : Type*) {Item : Type*} (buffer : Vector Item bufferSize) :
    State Thread Item where
  buffer := buffer
  pointer := fun _ => 0
  mutex := none
  semaphore
    | .producer => bufferSize
    | .consumer => 0
  points := fun _ => .outside
  items := fun _ => []
  unread := Vector.replicate bufferSize false

/-! ### The mutex -/

section Mutex

variable {Thread Item : Type*}

def Point.InSection : Point Item → Prop
  | .locked _ | .moved _ | .wrapped _ => True
  | _ => False

def State.Exclusive (state : State Thread Item) : Prop :=
  CriticalSection.Exclusive Point.InSection state.points state.mutex

theorem exclusive_initial (buffer : Vector Item bufferSize) :
    (State.initial Thread buffer).Exclusive := Exclusive.free fun _ within => within

variable [DecidableEq Thread]

theorem exclusive_step {kind : Thread → Kind} {state next : State Thread Item}
    (exclusive : state.Exclusive) (stepped : Steps kind state next) : next.Exclusive := by
  cases stepped with
  | called item stands => exact exclusive.move (by rw [stands]; exact Iff.rfl)
  | waited stands positive => exact exclusive.move (by rw [stands]; exact Iff.rfl)
  | locked stands free =>
      unfold State.Exclusive at exclusive
      rw [free] at exclusive
      exact exclusive.lock trivial
  | moved stands accessed =>
      obtain ⟨buffer, unread, rfl⟩ := access_frame accessed
      exact exclusive.move (by rw [stands]; exact Iff.rfl)
  | wrapped stands => exact exclusive.move (by rw [stands]; exact Iff.rfl)
  | unlocked stands => exact exclusive.unlock (by rw [stands]; trivial) not_false
  | posted stands => exact exclusive.move (by rw [stands]; exact Iff.rfl)

end Mutex

/-! ### The semaphores -/

section Permits

variable {Thread Item : Type*} {kind : Thread → Kind}

def Point.permits : Point Item → Nat
  | .waited _ | .locked _ => 1
  | _ => 0

def Point.debts : Point Item → Nat
  | .moved _ | .wrapped _ | .unlocked _ => 1
  | _ => 0

/-- What a thread at a point withholds from the semaphore for threads of kind `waiter`. -/
def share (kind : Thread → Kind) (waiter : Kind) (thread : Thread) (point : Point Item) : Nat :=
  if kind thread = waiter then point.permits else point.debts

@[simp] theorem share_own (thread : Thread) (point : Point Item) :
    share kind (kind thread) thread point = point.permits := if_pos rfl

@[simp] theorem share_other (thread : Thread) (point : Point Item) :
    share kind (kind thread).other thread point = point.debts := if_neg (Kind.ne_other _)

def Kind.supply : Kind → Nat
  | .producer => bufferSize
  | .consumer => 0

variable [Fintype Thread]

/-- A semaphore and the threads that withhold from it make up what its waiters could
move: the free slots, or the items that are in the buffer. -/
def State.Balanced (kind : Thread → Kind) (state : State Thread Item) : Prop :=
  ∀ waiter, state.semaphore waiter + tally (share kind waiter) state.points +
      (state.items waiter).length = waiter.supply + (state.items waiter.other).length

theorem balanced_initial (kind : Thread → Kind) (buffer : Vector Item bufferSize) :
    (State.initial Thread buffer).Balanced kind := by
  intro waiter
  have none_ : tally (share kind waiter) (State.initial Thread buffer).points = 0 :=
    tally_eq_zero fun thread => by
      unfold share
      split <;> rfl
  rw [none_]
  cases waiter with
  | producer => rfl
  | consumer => rfl

variable [DecidableEq Thread]

/-- A move between points that withhold the same. -/
theorem tally_quiet {points : Thread → Point Item} {thread : Thread} {point : Point Item}
    (waiter : Kind) (permits : point.permits = (points thread).permits)
    (debts : point.debts = (points thread).debts) :
    tally (share kind waiter) (Function.update points thread point) =
      tally (share kind waiter) points :=
  tally_update_eq (by rw [share, share, permits, debts])

theorem balanced_step {state next : State Thread Item} (balanced : state.Balanced kind)
    (stepped : Steps kind state next) : next.Balanced kind := by
  intro waiter
  have before := balanced waiter
  have shift (thread : Thread) (point : Point Item) :=
    tally_update (share kind waiter) state.points thread point
  cases stepped with
  | called item stands =>
      rw [State.at, tally_quiet waiter (by rw [stands]; rfl) (by rw [stands]; rfl)]
      exact before
  | @waited thread item stands positive =>
      have change := shift thread (.waited item)
      rcases (kind thread).eq_or_other waiter with rfl | rfl
      · simp only [State.at, stands, share_own, Point.permits, Function.update_self] at change ⊢
        omega
      · simp only [State.at, stands, share_other, Point.debts, Nat.add_zero, ne_eq, Kind.other_ne,
          not_false_eq_true, Function.update_of_ne] at change ⊢
        rw [change]
        exact before
  | locked stands free =>
      rw [State.at, tally_quiet waiter (by rw [stands]; rfl) (by rw [stands]; rfl)]
      exact before
  | @moved thread item moved after stands accessed =>
      obtain ⟨buffer, unread, rfl⟩ := access_frame accessed
      have change := shift thread (.moved moved)
      rcases (kind thread).eq_or_other waiter with rfl | rfl
      · simp only [State.at, stands, share_own, Point.permits, Function.update_self, ne_eq,
          Kind.other_ne, not_false_eq_true, Function.update_of_ne, List.length_append,
          List.length_singleton] at change ⊢
        omega
      · simp only [State.at, stands, share_other, Point.debts, Function.update_self, ne_eq,
          Kind.other_ne, Kind.other_other, not_false_eq_true, Function.update_of_ne,
          List.length_append, List.length_singleton] at change before ⊢
        omega
  | wrapped stands =>
      rw [State.at, tally_quiet waiter (by rw [stands]; rfl) (by rw [stands]; rfl)]
      exact before
  | unlocked stands =>
      rw [State.at, tally_quiet waiter (by rw [stands]; rfl) (by rw [stands]; rfl)]
      exact before
  | @posted thread item stands =>
      have change := shift thread .outside
      rcases (kind thread).eq_or_other waiter with rfl | rfl
      · simp only [State.at, stands, share_own, Point.permits, Nat.add_zero, ne_eq, Kind.ne_other,
          not_false_eq_true, Function.update_of_ne] at change ⊢
        rw [change]
        exact before
      · simp only [State.at, stands, share_other, Point.debts, Function.update_self] at change ⊢
        omega

end Permits

theorem State.Balanced.bounded {Thread Item : Type*} [Fintype Thread] {kind : Thread → Kind}
    {state : State Thread Item} (balanced : state.Balanced kind) (waiter : Kind) :
    (state.items waiter).length ≤ waiter.supply + (state.items waiter.other).length := by
  have before := balanced waiter
  omega

/-- A thread that holds a permit has something to move. -/
theorem State.Balanced.can_move {Thread Item : Type*} [Fintype Thread] {kind : Thread → Kind}
    {state : State Thread Item} (balanced : state.Balanced kind) {thread : Thread} {item : Item}
    (stands : state.points thread = .locked item) :
    (state.items (kind thread)).length <
      (kind thread).supply + (state.items (kind thread).other).length := by
  have before := balanced (kind thread)
  have holds := share_le_tally (share kind (kind thread)) state.points thread
  rw [stands, share_own, Point.permits] at holds
  omega

/-! ### The pointers -/

section Pointers

variable {Thread Item : Type*} {kind : Thread → Kind}

/-- Between the increment and the reduction of the pointer. -/
def Point.Unwrapped : Point Item → Prop
  | .moved _ => True
  | _ => False

structure Pointed (kind : Thread → Kind) (points : Thread → Point Item) (pointer : Kind → Nat)
    (items : Kind → List Item) : Prop where
  position : ∀ side, pointer side % bufferSize = (items side).length % bufferSize
  within : ∀ side, (∀ thread, kind thread = side → ¬ (points thread).Unwrapped) →
    pointer side < bufferSize

def State.Pointed (kind : Thread → Kind) (state : State Thread Item) : Prop :=
  BoundedBuffer.Pointed kind state.points state.pointer state.items

theorem pointed_initial (buffer : Vector Item bufferSize) :
    (State.initial Thread buffer).Pointed kind where
  position _ := rfl
  within _ _ := Nat.succ_pos _

/-- Whoever is past the increment holds the mutex. -/
theorem State.Pointed.inRange {state : State Thread Item} (pointed : state.Pointed kind)
    (exclusive : state.Exclusive) {thread : Thread} {item : Item}
    (stands : state.points thread = .locked item) (side : Kind) :
    state.pointer side < bufferSize ∧
      state.pointer side = (state.items side).length % bufferSize := by
  have below : state.pointer side < bufferSize := by
    refine pointed.within side fun other _ unwrapped => ?_
    have inside : (state.points other).InSection := by
      cases point : state.points other with
      | moved item => trivial
      | _ => simp [point, Point.Unwrapped] at unwrapped
    have same := exclusive.unique (by rw [stands]; trivial) inside
    rw [← same, stands] at unwrapped
    exact unwrapped
  exact ⟨below, by rw [← pointed.position side, Nat.mod_eq_of_lt below]⟩

variable [DecidableEq Thread] {points : Thread → Point Item} {pointer : Kind → Nat}
  {items : Kind → List Item} {thread : Thread}

theorem Pointed.move {point : Point Item} (pointed : Pointed kind points pointer items)
    (before : ¬ (points thread).Unwrapped) :
    Pointed kind (Function.update points thread point) pointer items where
  position := pointed.position
  within side none_ := by
    refine pointed.within side fun other same => ?_
    by_cases moves : other = thread
    · rwa [moves]
    · have still := none_ other same
      rwa [Function.update_of_ne moves] at still

theorem Pointed.increment {moved item : Item} (pointed : Pointed kind points pointer items)
    (before : points thread = .locked item) :
    Pointed kind (Function.update points thread (.moved moved))
      (Function.update pointer (kind thread) (pointer (kind thread) + 1))
      (Function.update items (kind thread) (items (kind thread) ++ [moved])) where
  position side := by
    have position := pointed.position side
    rcases (kind thread).eq_or_other side with rfl | rfl
    · simp only [Function.update_self, List.length_append, List.length_singleton]
      rw [Nat.add_mod, position, ← Nat.add_mod]
    · simp only [ne_eq, Kind.other_ne, not_false_eq_true, Function.update_of_ne, position]
  within side none_ := by
    rcases (kind thread).eq_or_other side with rfl | rfl
    · have unwrapped := none_ thread rfl
      rw [Function.update_self] at unwrapped
      exact absurd trivial unwrapped
    · have still : Pointed kind (Function.update points thread (.moved moved)) pointer items :=
        pointed.move (by rw [before]; exact not_false)
      rw [Function.update_of_ne (Kind.other_ne _)]
      exact still.within _ none_

theorem Pointed.wrap (pointed : Pointed kind points pointer items) (item : Item) :
    Pointed kind (Function.update points thread (.wrapped item))
      (Function.update pointer (kind thread) (pointer (kind thread) % bufferSize)) items where
  position side := by
    have position := pointed.position side
    rcases (kind thread).eq_or_other side with rfl | rfl
    · rw [Function.update_self, Nat.mod_mod, position]
    · rw [Function.update_of_ne (Kind.other_ne _), position]
  within side none_ := by
    rcases (kind thread).eq_or_other side with rfl | rfl
    · rw [Function.update_self]
      exact Nat.mod_lt _ (Nat.succ_pos _)
    · rw [Function.update_of_ne (Kind.other_ne _)]
      refine pointed.within _ fun other same => ?_
      have apart : other ≠ thread := fun moves => Kind.ne_other _ (moves ▸ same)
      have still := none_ other same
      rwa [Function.update_of_ne apart] at still

theorem pointed_step {state next : State Thread Item} (pointed : state.Pointed kind)
    (stepped : Steps kind state next) : next.Pointed kind := by
  cases stepped with
  | called item stands => exact Pointed.move pointed (by rw [stands]; exact not_false)
  | waited stands positive => exact Pointed.move pointed (by rw [stands]; exact not_false)
  | locked stands free => exact Pointed.move pointed (by rw [stands]; exact not_false)
  | moved stands accessed =>
      obtain ⟨buffer, unread, rfl⟩ := access_frame accessed
      exact Pointed.increment pointed stands
  | wrapped stands => exact Pointed.wrap pointed _
  | unlocked stands => exact Pointed.move pointed (by rw [stands]; exact not_false)
  | posted stands => exact Pointed.move pointed (by rw [stands]; exact not_false)

end Pointers

/-! ### The items -/

section Items

variable {Thread Item : Type*} {kind : Thread → Kind}

/-- The slots hold the inserted items that have not been removed, and only those are
marked as unread. -/
structure Ordered (buffer : Vector Item bufferSize) (unread : Vector Bool bufferSize)
    (inserted removed : List Item) : Prop where
  inOrder : removed <+: inserted
  held : ∀ index, removed.length ≤ index → index < inserted.length →
    buffer[index % bufferSize]? = inserted[index]?
  marked : ∀ slot, unread[slot]? = some true ↔
    ∃ index, removed.length ≤ index ∧ index < inserted.length ∧ index % bufferSize = slot

def State.Ordered (state : State Thread Item) : Prop :=
  BoundedBuffer.Ordered state.buffer state.unread (state.items .producer) (state.items .consumer)

theorem ordered_initial (buffer : Vector Item bufferSize) :
    (State.initial Thread buffer).Ordered where
  inOrder := List.prefix_rfl
  held index _ below := nomatch below
  marked slot := by
    simp [State.initial, Vector.getElem?_replicate]

/-- Positions that are less than a round apart have different slots. -/
theorem slot_ne {first second : Nat} (before : first < second)
    (near : second < bufferSize + first) : first % bufferSize ≠ second % bufferSize := by
  unfold bufferSize at *
  omega

theorem slot_lt (position : Nat) : position % bufferSize < bufferSize :=
  Nat.mod_lt position (Nat.succ_pos _)

variable {buffer : Vector Item bufferSize} {unread : Vector Bool bufferSize}
  {inserted removed : List Item}

theorem Ordered.insert (ordered : Ordered buffer unread inserted removed) (item : Item)
    (room : inserted.length < bufferSize + removed.length) :
    Ordered (buffer.setIfInBounds (inserted.length % bufferSize) item)
      (unread.setIfInBounds (inserted.length % bufferSize) true) (inserted ++ [item]) removed where
  inOrder := ordered.inOrder.trans (List.prefix_append _ _)
  held index above within := by
    rw [List.length_append, List.length_singleton, Nat.lt_succ_iff_lt_or_eq] at within
    rw [Vector.getElem?_setIfInBounds]
    rcases within with earlier | rfl
    · rw [if_neg (slot_ne earlier (by omega)).symm, List.getElem?_append_left earlier]
      exact ordered.held index above earlier
    · rw [if_pos rfl, if_pos (slot_lt _), List.getElem?_concat_length]
  marked slot := by
    rw [Vector.getElem?_setIfInBounds, List.length_append, List.length_singleton]
    split
    · rename_i newest
      rw [if_pos (slot_lt _)]
      exact iff_of_true rfl ⟨_, ordered.inOrder.length_le, Nat.lt_succ_self _, newest⟩
    · rename_i apart
      rw [ordered.marked slot]
      refine exists_congr fun index => and_congr_right fun _ => and_congr_left fun same => ?_
      rw [Nat.lt_succ_iff_lt_or_eq, or_iff_left]
      rintro rfl
      exact apart same

theorem Ordered.remove (ordered : Ordered buffer unread inserted removed) {item : Item}
    (room : inserted.length ≤ bufferSize + removed.length)
    (present : removed.length < inserted.length)
    (read : buffer[removed.length % bufferSize]? = some item) :
    Ordered buffer (unread.setIfInBounds (removed.length % bufferSize) false) inserted
      (removed ++ [item]) where
  inOrder := by
    rw [ordered.held _ (Nat.le_refl _) present] at read
    obtain ⟨pending, rfl⟩ := ordered.inOrder
    rw [List.getElem?_append_right (Nat.le_refl _), Nat.sub_self] at read
    cases pending with
    | nil => cases read
    | cons first later =>
        cases read
        exact ⟨later, by rw [List.append_assoc, List.singleton_append]⟩
  held index above within := by
    rw [List.length_append, List.length_singleton] at above
    exact ordered.held index (Nat.le_of_succ_le above) within
  marked slot := by
    rw [Vector.getElem?_setIfInBounds, List.length_append, List.length_singleton]
    split
    · rename_i oldest
      rw [if_pos (slot_lt _)]
      refine iff_of_false nofun ?_
      rintro ⟨index, above, within, same⟩
      exact slot_ne above (by omega) (oldest.trans same.symm)
    · rename_i apart
      rw [ordered.marked slot]
      refine exists_congr fun index => and_congr_left fun ⟨_, same⟩ => ?_
      rw [Nat.succ_le_iff, Nat.lt_iff_le_and_ne, and_iff_left]
      rintro rfl
      exact apart same

variable [Fintype Thread] [DecidableEq Thread] {state next : State Thread Item}

theorem ordered_step (exclusive : state.Exclusive) (balanced : state.Balanced kind)
    (pointed : state.Pointed kind) (ordered : state.Ordered) (stepped : Steps kind state next) :
    next.Ordered := by
  cases stepped with
  | @moved thread item moved after stands accessed =>
      obtain ⟨within, position⟩ := pointed.inRange exclusive stands (kind thread)
      have room := balanced.can_move stands
      cases side : kind thread with
      | producer =>
          rw [side] at accessed position room
          obtain ⟨_, same⟩ := of_guarded accessed
          cases same
          rw [position]
          exact Ordered.insert ordered item room
      | consumer =>
          rw [side] at accessed position room
          obtain ⟨held, read, same⟩ := Option.map_eq_some_iff.mp accessed
          cases same
          rw [position] at read ⊢
          have present : (state.items .consumer).length < (state.items .producer).length := by
            simpa [Kind.supply, Kind.other] using room
          exact Ordered.remove ordered (balanced.bounded .producer) present read
  | _ => exact ordered

end Items

/-! ### Whole runs -/

section Runs

variable {Thread Item : Type*} {kind : Thread → Kind}

/-- Nothing is lost, doubled or overtaken on the way through the buffer. -/
structure State.Faithful (kind : Thread → Kind) (state : State Thread Item) : Prop where
  inOrder : state.items .consumer <+: state.items .producer
  /-- A store finds its slot in the array and read. -/
  storesRead : ∀ thread item, kind thread = .producer → state.points thread = .locked item →
    state.pointer .producer < bufferSize ∧ state.unread[state.pointer .producer]? = some false
  /-- A load finds its slot in the array and not read before. -/
  loadsUnread : ∀ thread item, kind thread = .consumer → state.points thread = .locked item →
    state.pointer .consumer < bufferSize ∧ state.unread[state.pointer .consumer]? = some true
  bounded : (state.items .producer).length ≤ (state.items .consumer).length + bufferSize
  inRange : state.mutex = none → ∀ side, state.pointer side < bufferSize

variable [Fintype Thread]

structure State.Invariant (kind : Thread → Kind) (state : State Thread Item) : Prop where
  exclusive : state.Exclusive
  balanced : state.Balanced kind
  pointed : state.Pointed kind
  ordered : state.Ordered

theorem invariant_initial (buffer : Vector Item bufferSize) :
    (State.initial Thread buffer).Invariant kind where
  exclusive := exclusive_initial buffer
  balanced := balanced_initial kind buffer
  pointed := pointed_initial buffer
  ordered := ordered_initial buffer

theorem State.Invariant.faithful {state : State Thread Item} (invariant : state.Invariant kind) :
    state.Faithful kind where
  inOrder := invariant.ordered.inOrder
  storesRead thread item produces stands := by
    obtain ⟨within, position⟩ := invariant.pointed.inRange invariant.exclusive stands .producer
    have room := invariant.balanced.can_move stands
    rw [produces] at room
    refine ⟨within, ?_⟩
    rw [Vector.getElem?_eq_getElem within, Option.some.injEq, ← Bool.not_eq_true]
    intro unread
    obtain ⟨index, above, below, same⟩ := (invariant.ordered.marked _).mp
      (by rw [Vector.getElem?_eq_getElem within, unread])
    rw [position] at same
    exact slot_ne below (Nat.lt_of_lt_of_le room (Nat.add_le_add_left above _)) same
  loadsUnread thread item consumes stands := by
    obtain ⟨within, position⟩ := invariant.pointed.inRange invariant.exclusive stands .consumer
    have room := invariant.balanced.can_move stands
    rw [consumes] at room
    refine ⟨within, (invariant.ordered.marked _).mpr ?_⟩
    exact ⟨_, Nat.le_refl _, by simpa [Kind.supply, Kind.other] using room, position.symm⟩
  bounded := by
    have most := invariant.balanced.bounded .producer
    rwa [Nat.add_comm]
  inRange free side := by
    have exclusive := invariant.exclusive
    unfold State.Exclusive at exclusive
    rw [free] at exclusive
    refine invariant.pointed.within side fun thread _ unwrapped => exclusive.outside thread ?_
    cases point : state.points thread with
    | moved item => trivial
    | _ => simp [point, Point.Unwrapped] at unwrapped

variable [DecidableEq Thread]

theorem invariant_step {state next : State Thread Item} {action : Action Thread Item}
    (invariant : state.Invariant kind) (taken : step kind state action = some next) :
    next.Invariant kind :=
  have stepped := step_cases taken
  { exclusive := exclusive_step invariant.exclusive stepped
    balanced := balanced_step invariant.balanced stepped
    pointed := pointed_step invariant.pointed stepped
    ordered := ordered_step invariant.exclusive invariant.balanced invariant.pointed
      invariant.ordered stepped }

/-- However the calls of any number of producers and consumers interleave. -/
theorem boundedBuffer_faithful (kind : Thread → Kind) (buffer : Vector Item bufferSize)
    (actions : List (Action Thread Item)) (reached : State Thread Item)
    (ran : run (step kind) (State.initial Thread buffer) actions = some reached) :
    reached.Faithful kind :=
  (invariant_run_always (fun _ _ _ held taken => invariant_step held taken)
    (invariant_initial buffer) ran).faithful

end Runs

def trueProduces (thread : Bool) : Kind := if thread then .producer else .consumer

def insertsThenRemoves : List (Action Bool Nat) :=
  [.call true 7, .call false 0, .advance true, .advance true, .advance true, .advance true,
    .advance true, .advance true, .advance false, .advance false, .advance false]

theorem boundedBuffer_faithful_insertsThenRemoves :
    ((run (step trueProduces) (State.initial Bool (Vector.replicate bufferSize 0))
      insertsThenRemoves).get (by decide +kernel)).Faithful trueProduces :=
  boundedBuffer_faithful trueProduces (Vector.replicate bufferSize 0) insertsThenRemoves _
    (Option.some_get _).symm

end Cab403.Workshops.BoundedBuffer
