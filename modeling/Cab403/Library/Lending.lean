/-
Names that an environment lends out and may lend again once they are returned, as a
kernel does with descriptor numbers. A table says to which user each name is lent at
present; a user keeps its name in mind until it retires, lent or not.
-/

import Mathlib.Logic.Function.Basic

namespace Cab403.Lending

variable {Name User : Type*} {table : Name → Option User} {name : User → Name}
  {live started retired : User → Prop} {user : User} {key : Name}

/-- What is lent is lent to a live user under the name it has in mind, and no two live
users have one name in mind. -/
structure Leases (table : Name → Option User) (name : User → Name) (live : User → Prop) :
    Prop where
  lent : ∀ key user, table key = some user → live user ∧ name user = key
  apart : ∀ user other, live user → live other → name user = name other → user = other
  holder : ∀ user, live user → table (name user) = some user ∨ table (name user) = none

theorem Leases.empty (idle : ∀ user, ¬ live user) : Leases (fun _ => none) name live where
  lent := fun _ _ => nofun
  apart := fun user _ isLive => absurd isLive (idle user)
  holder := fun user isLive => absurd isLive (idle user)

theorem Leases.congr (leases : Leases table name live)
    (same : ∀ other, retired other ↔ live other) : Leases table name retired := by
  have equal : retired = live := funext fun other => propext (same other)
  rwa [equal]

/-- A user whose name is not lent to it retires. -/
theorem Leases.retire (leases : Leases table name live) (returned : table (name user) = none)
    (same : ∀ other, retired other ↔ other ≠ user ∧ live other) :
    Leases table name retired where
  lent := by
    intro key other held
    obtain ⟨isLive, rfl⟩ := leases.lent key other held
    refine ⟨(same other).mpr ⟨?_, isLive⟩, rfl⟩
    rintro rfl
    rw [returned] at held
    cases held
  apart := fun first second firstLive secondLive =>
    leases.apart first second ((same first).mp firstLive).2 ((same second).mp secondLive).2
  holder := fun other isLive => leases.holder other ((same other).mp isLive).2

section Updates

variable [DecidableEq Name]

theorem Leases.release (leases : Leases table name live) (isLive : live user) :
    Leases (Function.update table (name user) none) name live where
  lent := by
    intro key other held
    by_cases same : key = name user
    · rw [same, Function.update_self] at held
      cases held
    · rw [Function.update_of_ne same] at held
      exact leases.lent key other held
  apart := leases.apart
  holder := by
    intro other otherLive
    by_cases same : other = user
    · rw [same, Function.update_self]
      exact Or.inr rfl
    · have others : name other ≠ name user := fun equal =>
        same (leases.apart other user otherLive isLive equal)
      rw [Function.update_of_ne others]
      exact leases.holder other otherLive

/-- A name that no live user has in mind is lent to a new one. -/
theorem Leases.lease [DecidableEq User] (leases : Leases table name live) (idle : ¬ live user)
    (unused : ∀ other, live other → name other ≠ key)
    (same : ∀ other, started other ↔ other = user ∨ live other) :
    Leases (Function.update table key (some user)) (Function.update name user key) started := by
  have old {other : User} (otherLive : live other) :
      Function.update name user key other = name other := by
    apply Function.update_of_ne
    rintro rfl
    exact idle otherLive
  constructor
  case lent =>
    intro asked other held
    by_cases isKey : asked = key
    · subst isKey
      rw [Function.update_self] at held
      cases held
      exact ⟨(same user).mpr (Or.inl rfl), Function.update_self ..⟩
    · rw [Function.update_of_ne isKey] at held
      obtain ⟨isLive, named⟩ := leases.lent asked other held
      exact ⟨(same other).mpr (Or.inr isLive), (old isLive).trans named⟩
  case apart =>
    intro first second firstLive secondLive equal
    rcases (same first).mp firstLive with rfl | firstOld
    · rcases (same second).mp secondLive with rfl | secondOld
      · rfl
      · rw [Function.update_self, old secondOld] at equal
        exact absurd equal.symm (unused second secondOld)
    · rw [old firstOld] at equal
      rcases (same second).mp secondLive with rfl | secondOld
      · rw [Function.update_self] at equal
        exact absurd equal (unused first firstOld)
      · rw [old secondOld] at equal
        exact leases.apart first second firstOld secondOld equal
  case holder =>
    intro other isLive
    rcases (same other).mp isLive with rfl | otherOld
    · rw [Function.update_self, Function.update_self]
      exact Or.inl rfl
    · rw [old otherOld, Function.update_of_ne (unused other otherOld)]
      exact leases.holder other otherOld

end Updates

end Cab403.Lending
