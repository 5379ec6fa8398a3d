/-
Threads that take, give back and destroy mutexes. A program gives each point its
instruction, the points control can pass to and the mutexes that are held there. The
holder of a mutex believes so; a mutex that only its holders give back has one holder;
and where mutexes are taken in the order of a rank, who waits waits for a thread that
does not.
-/

import Cab403.Library.ActionRuns
import Cab403.Library.CriticalSection
import Mathlib.Logic.Relation

namespace Cab403.LockProgram

open ActionRuns CriticalSection

inductive Instruction (Mutex : Type*) where
  | lock (mutex : Mutex)
  | unlock (mutex : Mutex)
  | destroy (mutex : Mutex)
  | other

/-- What is held after an instruction. An unlock of a mutex that is not held changes
nothing here. -/
def Instruction.After {Mutex : Type*} (held : Mutex → Prop) : Instruction Mutex → Mutex → Prop
  | .lock taken => fun mutex => mutex = taken ∨ held mutex
  | .unlock given => fun mutex => mutex ≠ given ∧ held mutex
  | .destroy _ => held
  | .other => held

structure Program (Point Choice Mutex : Type*) where
  instruction : Point → Instruction Mutex
  /-- Where control goes after the instruction. -/
  next : Point → Choice → Option Point
  /-- Where it goes instead of executing the instruction. -/
  interrupt : Point → Option Point
  Held : Point → Mutex → Prop
  held_next : ∀ point choice target, next point choice = some target →
    ∀ mutex, Held target mutex ↔ (instruction point).After (Held point) mutex
  held_interrupt : ∀ point target, interrupt point = some target →
    ∀ mutex, Held target mutex ↔ Held point mutex

structure State (Thread Point Mutex : Type*) where
  holder : Mutex → Option Thread
  destroyed : Mutex → Bool
  points : Thread → Point

inductive Action (Thread Choice : Type*) where
  | go (thread : Thread) (choice : Choice)
  | interrupt (thread : Thread)

variable {Thread Point Choice Mutex : Type*}

section Steps

variable [DecidableEq Thread] [DecidableEq Mutex]

/-- The thread executes an instruction and arrives at `target`. To lock a destroyed mutex
or to destroy one that is taken is undefined, and no run does it. -/
def execute (state : State Thread Point Mutex) (thread : Thread) (target : Point) :
    Instruction Mutex → Option (State Thread Point Mutex)
  | .lock mutex =>
      if state.holder mutex = none ∧ state.destroyed mutex = false then
        some
          { state with
            holder := Function.update state.holder mutex (some thread)
            points := Function.update state.points thread target }
      else none
  | .unlock mutex =>
      some
        { state with
          holder := Function.update state.holder mutex none
          points := Function.update state.points thread target }
  | .destroy mutex =>
      if state.holder mutex = none then
        some
          { state with
            destroyed := Function.update state.destroyed mutex true
            points := Function.update state.points thread target }
      else none
  | .other => some { state with points := Function.update state.points thread target }

def step (program : Program Point Choice Mutex) (state : State Thread Point Mutex) :
    Action Thread Choice → Option (State Thread Point Mutex)
  | .go thread choice =>
      (program.next (state.points thread) choice).bind fun target =>
        execute state thread target (program.instruction (state.points thread))
  | .interrupt thread =>
      (program.interrupt (state.points thread)).map fun target =>
        { state with points := Function.update state.points thread target }

end Steps

/-- One thread moves, to a point its program or an interrupt leads to. -/
theorem step_points [DecidableEq Thread] [DecidableEq Mutex]
    {program : Program Point Choice Mutex} {state next : State Thread Point Mutex}
    {action : Action Thread Choice} (taken : step program state action = some next) :
    ∃ thread target, next.points = Function.update state.points thread target ∧
      ((∃ choice, action = .go thread choice ∧
          program.next (state.points thread) choice = some target) ∨
        program.interrupt (state.points thread) = some target) := by
  cases action with
  | go thread choice =>
      obtain ⟨target, passes, executed⟩ := Option.bind_eq_some_iff.mp taken
      refine ⟨thread, target, ?_, Or.inl ⟨choice, rfl, passes⟩⟩
      cases instruction : program.instruction (state.points thread) with
      | lock given =>
          rw [instruction] at executed
          obtain ⟨_, rfl⟩ := of_guarded executed
          rfl
      | unlock given =>
          rw [instruction] at executed
          cases executed
          rfl
      | destroy given =>
          rw [instruction] at executed
          obtain ⟨_, rfl⟩ := of_guarded executed
          rfl
      | other =>
          rw [instruction] at executed
          cases executed
          rfl
  | interrupt thread =>
      obtain ⟨target, interrupts, rfl⟩ := Option.map_eq_some_iff.mp taken
      exact ⟨thread, target, rfl, Or.inr interrupts⟩

/-! ### The holder of a mutex -/

/-- The recorded holder stands where the mutex is held. -/
def Believed (program : Program Point Choice Mutex) (state : State Thread Point Mutex) : Prop :=
  ∀ mutex thread, state.holder mutex = some thread → program.Held (state.points thread) mutex

structure Idle (program : Program Point Choice Mutex) (state : State Thread Point Mutex) :
    Prop where
  free : ∀ mutex, state.holder mutex = none
  empty : ∀ thread mutex, ¬ program.Held (state.points thread) mutex

def Proper (program : Program Point Choice Mutex) (mutex : Mutex) : Prop :=
  ∀ point, program.instruction point = .unlock mutex → program.Held point mutex

/-- One thread stands where the mutex is held, and it is the holder. -/
def Owned (program : Program Point Choice Mutex) (mutex : Mutex)
    (state : State Thread Point Mutex) : Prop :=
  Exclusive (fun point => program.Held point mutex) state.points (state.holder mutex)

section Holders

variable [DecidableEq Thread] [DecidableEq Mutex] {program : Program Point Choice Mutex}
  {state next : State Thread Point Mutex} {action : Action Thread Choice} {mutex : Mutex}

omit [DecidableEq Mutex] in
theorem believed_move {holder : Mutex → Option Thread} {destroyed : Mutex → Bool}
    {thread : Thread} {target : Point} (believed : Believed program state)
    (kept : ∀ mutex other, holder mutex = some other → other ≠ thread →
      state.holder mutex = some other)
    (own : ∀ mutex, holder mutex = some thread → program.Held target mutex) :
    Believed program
      { holder := holder
        destroyed := destroyed
        points := Function.update state.points thread target } := by
  intro mutex other holds
  dsimp only at holds ⊢
  by_cases moves : other = thread
  · subst other
    rw [Function.update_self]
    exact own mutex holds
  · rw [Function.update_of_ne moves]
    exact believed mutex other (kept mutex other holds moves)

theorem believed_step (believed : Believed program state)
    (taken : step program state action = some next) : Believed program next := by
  cases action with
  | go thread choice =>
      obtain ⟨target, passes, executed⟩ := Option.bind_eq_some_iff.mp taken
      have after := program.held_next _ _ _ passes
      cases instruction : program.instruction (state.points thread) with
      | lock given =>
          rw [instruction] at executed after
          obtain ⟨⟨free, _⟩, rfl⟩ := of_guarded executed
          refine believed_move believed (fun mutex other holds apart => ?_) fun mutex holds => ?_
          · by_cases same : mutex = given
            · subst mutex
              rw [Function.update_self] at holds
              exact absurd (Option.some.inj holds).symm apart
            · rw [Function.update_of_ne same] at holds
              exact holds
          · rw [after]
            by_cases same : mutex = given
            · exact Or.inl same
            · rw [Function.update_of_ne same] at holds
              exact Or.inr (believed mutex thread holds)
      | unlock given =>
          rw [instruction] at executed after
          cases executed
          have apart (mutex : Mutex) (other : Thread)
              (holds : Function.update state.holder given none mutex = some other) :
              mutex ≠ given ∧ state.holder mutex = some other := by
            by_cases same : mutex = given
            · subst mutex
              rw [Function.update_self] at holds
              cases holds
            · rw [Function.update_of_ne same] at holds
              exact ⟨same, holds⟩
          refine believed_move believed (fun mutex other holds _ => (apart mutex other holds).2)
            fun mutex holds => ?_
          rw [after]
          obtain ⟨different, held⟩ := apart mutex thread holds
          exact ⟨different, believed mutex thread held⟩
      | destroy given =>
          rw [instruction] at executed after
          obtain ⟨_, rfl⟩ := of_guarded executed
          refine believed_move believed (fun mutex other holds _ => holds) fun mutex holds => ?_
          rw [after]
          exact believed mutex thread holds
      | other =>
          rw [instruction] at executed after
          cases executed
          refine believed_move believed (fun mutex other holds _ => holds) fun mutex holds => ?_
          rw [after]
          exact believed mutex thread holds
  | interrupt thread =>
      obtain ⟨target, interrupts, rfl⟩ := Option.map_eq_some_iff.mp taken
      refine believed_move believed (fun mutex other holds _ => holds) fun mutex holds => ?_
      rw [program.held_interrupt _ _ interrupts]
      exact believed mutex thread holds

/-- A mutex given back by its holders only has one holder, over every step. -/
theorem owned_step (proper : Proper program mutex) (owned : Owned program mutex state)
    (taken : step program state action = some next) : Owned program mutex next := by
  cases action with
  | go thread choice =>
      obtain ⟨target, passes, executed⟩ := Option.bind_eq_some_iff.mp taken
      have after := program.held_next _ _ _ passes mutex
      cases instruction : program.instruction (state.points thread) with
      | lock given =>
          rw [instruction] at executed after
          obtain ⟨⟨free, _⟩, rfl⟩ := of_guarded executed
          by_cases same : mutex = given
          · subst mutex
            unfold Owned at owned ⊢
            dsimp only
            rw [free] at owned
            rw [Function.update_self]
            exact owned.lock (after.mpr (Or.inl rfl))
          · unfold Owned at owned ⊢
            dsimp only
            rw [Function.update_of_ne same]
            refine owned.move (after.trans ?_)
            exact ⟨fun held => held.resolve_left same, Or.inr⟩
      | unlock given =>
          rw [instruction] at executed after
          cases executed
          by_cases same : mutex = given
          · subst mutex
            unfold Owned at owned ⊢
            dsimp only
            rw [Function.update_self]
            refine owned.unlock (proper _ instruction) ?_
            exact fun held => (after.mp held).1 rfl
          · unfold Owned at owned ⊢
            dsimp only
            rw [Function.update_of_ne same]
            refine owned.move (after.trans ?_)
            exact ⟨And.right, fun held => ⟨same, held⟩⟩
      | destroy given =>
          rw [instruction] at executed after
          obtain ⟨_, rfl⟩ := of_guarded executed
          exact owned.move after
      | other =>
          rw [instruction] at executed after
          cases executed
          exact owned.move after
  | interrupt thread =>
      obtain ⟨target, interrupts, rfl⟩ := Option.map_eq_some_iff.mp taken
      exact owned.move (program.held_interrupt _ _ interrupts mutex)

/-- A thread does not get past the lock of a mutex it holds. -/
theorem not_lock_of_held {thread : Thread} {choice : Choice} (owned : Owned program mutex state)
    (taken : step program state (.go thread choice) = some next)
    (held : program.Held (state.points thread) mutex) :
    program.instruction (state.points thread) ≠ .lock mutex := by
  intro locks
  obtain ⟨target, _, executed⟩ := Option.bind_eq_some_iff.mp taken
  rw [locks] at executed
  obtain ⟨⟨free, _⟩, _⟩ := of_guarded executed
  have holder : state.holder mutex = some thread := (owned thread).mp held
  rw [free] at holder
  cases holder

variable {final : State Thread Point Mutex} {actions : List (Action Thread Choice)}

theorem believed_run (idle : Idle program state)
    (ran : run (step program) state actions = some final) : Believed program final := by
  refine invariant_run_always (fun _ _ _ => believed_step) ?_ ran
  intro mutex thread holds
  rw [idle.free mutex] at holds
  cases holds

theorem owned_run (proper : Proper program mutex) (idle : Idle program state)
    (ran : run (step program) state actions = some final) : Owned program mutex final := by
  refine invariant_run_always (fun _ _ _ => owned_step proper) ?_ ran
  unfold Owned
  rw [idle.free mutex]
  exact Exclusive.free fun thread => idle.empty thread mutex

end Holders

/-! ### Waiting -/

def Waits (program : Program Point Choice Mutex) (state : State Thread Point Mutex)
    (thread : Thread) (mutex : Mutex) : Prop :=
  program.instruction (state.points thread) = .lock mutex ∧ state.holder mutex ≠ none

def WaitsOn (program : Program Point Choice Mutex) (state : State Thread Point Mutex)
    (thread owner : Thread) : Prop :=
  ∃ mutex, Waits program state thread mutex ∧ state.holder mutex = some owner

def OrderedAt (program : Program Point Choice Mutex) (rank : Mutex → Nat) (point : Point) : Prop :=
  ∀ taken, program.instruction point = .lock taken →
    ∀ mutex, program.Held point mutex → rank mutex < rank taken

/-- A thread that waits waits, over other threads that wait, for one that does not. -/
theorem waits_on_runner {program : Program Point Choice Mutex}
    {state : State Thread Point Mutex} {rank : Mutex → Nat} {top : Nat}
    (believed : Believed program state)
    (ordered : ∀ thread, OrderedAt program rank (state.points thread))
    (bounded : ∀ mutex, rank mutex ≤ top) {thread : Thread} {mutex : Mutex}
    (waits : Waits program state thread mutex) :
    ∃ owner, Relation.TransGen (WaitsOn program state) thread owner ∧
      ∀ other, ¬ Waits program state owner other := by
  generalize distance : top - rank mutex = gap
  induction gap using Nat.strongRecOn generalizing thread mutex with
  | _ gap ih =>
      obtain ⟨owner, holds⟩ := Option.ne_none_iff_exists'.mp waits.2
      have first : WaitsOn program state thread owner := ⟨mutex, waits, holds⟩
      by_cases rests : ∃ other, Waits program state owner other
      · obtain ⟨other, waitsOther⟩ := rests
        have higher := ordered owner other waitsOther.1 mutex (believed mutex owner holds)
        have within := bounded other
        obtain ⟨last, chain, runs⟩ := ih (top - rank other) (by omega) waitsOther rfl
        exact ⟨last, Relation.TransGen.head first chain, runs⟩
      · exact ⟨owner, Relation.TransGen.single first, fun other waitsOther =>
          rests ⟨other, waitsOther⟩⟩

end Cab403.LockProgram
