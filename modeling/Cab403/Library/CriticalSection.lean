/-
A mutex and the threads between lock and unlock. A predicate on points says which
ones lie inside; the discipline is that the thread inside is the holder.
-/

import Mathlib.Logic.Function.Basic

namespace Cab403.CriticalSection

variable {Thread Point : Type*} {inside : Point → Prop} {points : Thread → Point}
  {holder : Option Thread} {thread : Thread} {point : Point}

/-- Inside the section is the thread that holds the mutex, and no other. -/
def Exclusive (inside : Point → Prop) (points : Thread → Point) (holder : Option Thread) : Prop :=
  ∀ thread, inside (points thread) ↔ holder = some thread

theorem Exclusive.free (outside : ∀ thread, ¬ inside (points thread)) :
    Exclusive inside points none :=
  fun thread => iff_of_false (outside thread) nofun

theorem Exclusive.unique (exclusive : Exclusive inside points holder) {other : Thread}
    (first : inside (points thread)) (second : inside (points other)) : thread = other := by
  have held := (exclusive thread).mp first
  rw [(exclusive other).mp second] at held
  exact (Option.some.inj held).symm

theorem Exclusive.outside (exclusive : Exclusive inside points none) (thread : Thread) :
    ¬ inside (points thread) := fun within => nomatch (exclusive thread).mp within

variable [DecidableEq Thread]

/-- A move that neither enters nor leaves the section. -/
theorem Exclusive.move (exclusive : Exclusive inside points holder)
    (same : inside point ↔ inside (points thread)) :
    Exclusive inside (Function.update points thread point) holder := by
  intro other
  by_cases moves : other = thread
  · subst moves
    rw [Function.update_self, same, exclusive other]
  · rw [Function.update_of_ne moves, exclusive other]

theorem Exclusive.lock (exclusive : Exclusive inside points none) (enters : inside point) :
    Exclusive inside (Function.update points thread point) (some thread) := by
  intro other
  by_cases moves : other = thread
  · subst moves
    rw [Function.update_self]
    exact iff_of_true enters rfl
  · rw [Function.update_of_ne moves]
    exact iff_of_false (exclusive.outside other) fun same => moves (Option.some.inj same).symm

theorem Exclusive.unlock (exclusive : Exclusive inside points holder)
    (within : inside (points thread)) (leaves : ¬ inside point) :
    Exclusive inside (Function.update points thread point) none := by
  intro other
  by_cases moves : other = thread
  · subst moves
    rw [Function.update_self]
    exact iff_of_false leaves nofun
  · rw [Function.update_of_ne moves]
    exact iff_of_false (fun also => moves (exclusive.unique also within)) nofun

end Cab403.CriticalSection
