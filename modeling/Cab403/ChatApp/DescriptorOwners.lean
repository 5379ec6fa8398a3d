/-
The chat server as a system of threads: `main` accepts connections and starts a handler
for each, the handlers receive, broadcast and leave in any order, and the kernel may use
the number of a closed descriptor for the next connection. Connections and handlers are
numbered in the order in which they were accepted.
-/

import Cab403.ChatApp.LineStream
import Cab403.Library.ActionRuns
import Cab403.Library.CriticalSection
import Cab403.Library.Lending

namespace Cab403.ChatApp

open ActionRuns CriticalSection Lending

def maxClients : Nat := 50

/-- Where a handler is in `handle_client`, or in `broadcast_msg` at a slot. -/
inductive Phase where
  | naming
  | refusing
  | joining
  | receiving
  | speaking
  | broadcasting (index : Nat)
  | dropping (index : Nat)
  | leaving
  | unregistering
  | returned
  deriving DecidableEq

/-- An entry of `client_sockets`, free when its number is 0. The owner is the handler
whose record was copied there. -/
structure Slot where
  fd : Nat
  owner : Nat
  deriving DecidableEq

structure State where
  serverfd : Nat
  /-- The connection behind a number. -/
  descriptors : Nat → Option Nat
  accepted : Nat
  /-- `client->fd` of each handler. -/
  fd : Nat → Nat
  phases : Nat → Phase
  slots : Nat → Slot
  mutex : Option Nat
  /-- Each `close`: the handler that made it and the connection that it closed. -/
  closed : List (Nat × Option Nat)
  /-- Each slot that was cleared: the handler that did it and the owner of the slot. -/
  cleared : List (Nat × Nat)
  /-- The connections that the latest broadcast was sent to. -/
  sent : List Nat

inductive Action where
  | accept (fd : Nat)
  | receive (handler : Nat) (received : Option (List UInt8))
  | send (handler : Nat) (delivered : Bool)
  | proceed (handler : Nat)

namespace State

def initial (serverfd : Nat) : State :=
  { serverfd := serverfd
    descriptors := fun _ => none
    accepted := 0
    fd := fun _ => 0
    phases := fun _ => .returned
    slots := fun _ => { fd := 0, owner := 0 }
    mutex := none
    closed := []
    cleared := []
    sent := [] }

def move (state : State) (handler : Nat) (phase : Phase) : State :=
  { state with phases := Function.update state.phases handler phase }

def close (state : State) (handler fd : Nat) : State :=
  { state with
    descriptors := Function.update state.descriptors fd none
    closed := (handler, state.descriptors fd) :: state.closed }

def clear (state : State) (handler index : Nat) : State :=
  { state with
    slots := Function.update state.slots index { fd := 0, owner := 0 }
    cleared := (handler, (state.slots index).owner) :: state.cleared }

def findSlot (state : State) (fd : Nat) : Option Nat :=
  (List.range maxClients).find? fun index => (state.slots index).fd == fd

def register (state : State) (handler : Nat) : State :=
  match state.findSlot 0 with
  | some index =>
      { state with
        slots := Function.update state.slots index { fd := state.fd handler, owner := handler } }
  | none => state

def unregister (state : State) (handler : Nat) : State :=
  match state.findSlot (state.fd handler) with
  | some index => state.clear handler index
  | none => state

/-- The steps of a handler in which the kernel has no say. The loops over the slots
in `handle_client` are made under the mutex, as one step with its lock and unlock. -/
def proceed (state : State) (handler : Nat) : Phase → Option State
  | .refusing => some ((state.close handler (state.fd handler)).move handler .returned)
  | .joining =>
      if state.mutex = none then some ((state.register handler).move handler .receiving) else none
  | .speaking =>
      if state.mutex = none then
        some ({ state with mutex := some handler, sent := [] }.move handler (.broadcasting 0))
      else none
  | .broadcasting index =>
      if index < maxClients then
        if (state.slots index).fd = 0 then some (state.move handler (.broadcasting (index + 1)))
        else none
      else some ({ state with mutex := none }.move handler .receiving)
  | .dropping index =>
      some (((state.close handler (state.slots index).fd).clear handler index).move handler
        (.broadcasting (index + 1)))
  | .leaving => some ((state.close handler (state.fd handler)).move handler .unregistering)
  | .unregistering =>
      if state.mutex = none then some ((state.unregister handler).move handler .returned) else none
  | .naming | .receiving | .returned => none

/-- One `send` of a broadcast, to the connection that is behind the number now. -/
def trySend (state : State) (handler index : Nat) (delivered : Bool) : Option State :=
  let next := { state with sent := (state.descriptors (state.slots index).fd).toList ++ state.sent }
  if delivered then
    if (state.descriptors (state.slots index).fd).isSome then
      some (next.move handler (.broadcasting (index + 1)))
    else none
  else some (next.move handler (.dropping index))

end State

def step (state : State) : Action → Option State
  -- The standard streams and the listening socket are open throughout.
  | .accept fd =>
      if state.descriptors fd = none ∧ 2 < fd ∧ fd ≠ state.serverfd then
        some { state with
          descriptors := Function.update state.descriptors fd (some state.accepted)
          accepted := state.accepted + 1
          fd := Function.update state.fd state.accepted fd
          phases := Function.update state.phases state.accepted .naming }
      else none
  | .receive handler received =>
      match state.phases handler with
      | .naming =>
          some (state.move handler (if NameTooLong received then .refusing else .joining))
      | .receiving => some (state.move handler (if Leaves received then .leaving else .speaking))
      | _ => none
  | .send handler delivered =>
      match state.phases handler with
      | .broadcasting index =>
          if index < maxClients ∧ (state.slots index).fd ≠ 0 then
            state.trySend handler index delivered
          else none
      | _ => none
  | .proceed handler => state.proceed handler (state.phases handler)

def OwnSlot (state : State) (handler : Nat) : Phase → Prop
  | .broadcasting index => (state.slots index).fd = state.fd handler
  | _ => True

instance (state : State) (handler : Nat) : ∀ phase, Decidable (OwnSlot state handler phase)
  | .broadcasting _ => inferInstanceAs (Decidable (_ = _))
  | .naming | .refusing | .joining | .receiving | .speaking | .dropping _ | .leaving
  | .unregistering | .returned => inferInstanceAs (Decidable True)

/-- A send of a broadcast fails only for the slot with the number of its own handler, and
`accept` returns no number that a handler still has. -/
def Benign (state : State) : Action → Prop
  | .accept fd =>
      ∀ handler < state.accepted, state.phases handler ≠ .returned → state.fd handler ≠ fd
  | .send handler false => OwnSlot state handler (state.phases handler)
  | _ => True

instance (state : State) : ∀ action, Decidable (Benign state action)
  | .accept fd =>
      inferInstanceAs (Decidable
        (∀ handler < state.accepted, state.phases handler ≠ .returned → state.fd handler ≠ fd))
  | .send handler false =>
      inferInstanceAs (Decidable (OwnSlot state handler (state.phases handler)))
  | .send _ true | .receive _ _ | .proceed _ => inferInstanceAs (Decidable True)

structure OneOwner (state : State) : Prop where
  numbers : ∀ handler other, state.phases handler ≠ .returned → state.phases other ≠ .returned →
    state.fd handler = state.fd other → handler = other
  closes : ∀ entry ∈ state.closed, entry.2 = some entry.1 ∨ entry.2 = none
  clears : ∀ entry ∈ state.cleared, entry.2 = entry.1
  sends : state.sent.Nodup

/-! ### Phases -/

def Live (phase : Phase) : Prop := phase ≠ .returned

/-- The handler may have a slot. -/
def Registered : Phase → Prop
  | .receiving | .speaking | .broadcasting _ | .dropping _ | .leaving | .unregistering => True
  | .naming | .refusing | .joining | .returned => False

def Sending : Phase → Prop
  | .broadcasting _ | .dropping _ => True
  | _ => False

theorem Registered.live {phase : Phase} (registered : Registered phase) : Live phase := by
  rintro rfl
  exact registered

theorem Sending.registered {phase : Phase} (sending : Sending phase) : Registered phase := by
  cases phase with
  | broadcasting index => trivial
  | dropping index => trivial
  | _ => exact sending.elim

section Moves

variable {phases : Nat → Phase} {handler : Nat} {phase : Phase}

theorem live_update (wasLive : Live (phases handler)) (isLive : Live phase) (other : Nat) :
    Live (Function.update phases handler phase other) ↔ Live (phases other) := by
  by_cases same : other = handler
  · subst same
    rw [Function.update_self]
    exact iff_of_true isLive wasLive
  · rw [Function.update_of_ne same]

theorem live_return (other : Nat) :
    Live (Function.update phases handler .returned other) ↔
      other ≠ handler ∧ Live (phases other) := by
  by_cases same : other = handler
  · subst same
    rw [Function.update_self]
    exact iff_of_false (fun isLive => isLive rfl) fun both => both.1 rfl
  · rw [Function.update_of_ne same]
    exact (and_iff_right same).symm

theorem live_start (isLive : Live phase) (other : Nat) :
    Live (Function.update phases handler phase other) ↔
      other = handler ∨ Live (phases other) := by
  by_cases same : other = handler
  · subst same
    rw [Function.update_self]
    exact iff_of_true isLive (Or.inl rfl)
  · rw [Function.update_of_ne same]
    exact (or_iff_right same).symm

end Moves

/-! ### The slots -/

/-- Every slot in use is the only one of a registered handler, with its number. -/
structure SlotsOwned (slots : Nat → Slot) (fd : Nat → Nat) (phases : Nat → Phase) : Prop where
  inTable : ∀ index, (slots index).fd ≠ 0 → index < maxClients
  registered : ∀ index, (slots index).fd ≠ 0 → Registered (phases (slots index).owner)
  number : ∀ index, (slots index).fd ≠ 0 → fd (slots index).owner = (slots index).fd
  apart : ∀ index other, (slots index).fd ≠ 0 → (slots other).fd ≠ 0 →
    (slots index).owner = (slots other).owner → index = other

section Slots

variable {slots : Nat → Slot} {fd : Nat → Nat} {phases : Nat → Phase} {handler : Nat}
  {phase : Phase}

theorem SlotsOwned.move (owned : SlotsOwned slots fd phases)
    (stays : Registered (phases handler) → Registered phase) :
    SlotsOwned slots fd (Function.update phases handler phase) where
  inTable := owned.inTable
  registered := by
    intro index inUse
    have registered := owned.registered index inUse
    by_cases same : (slots index).owner = handler
    · rw [same] at registered ⊢
      rw [Function.update_self]
      exact stays registered
    · rwa [Function.update_of_ne same]
  number := owned.number
  apart := owned.apart

/-- A handler leaves the table without a slot. -/
theorem SlotsOwned.leave (owned : SlotsOwned slots fd phases)
    (without : ∀ index, (slots index).fd ≠ 0 → (slots index).owner ≠ handler) :
    SlotsOwned slots fd (Function.update phases handler phase) where
  inTable := owned.inTable
  registered := by
    intro index inUse
    rw [Function.update_of_ne (without index inUse)]
    exact owned.registered index inUse
  number := owned.number
  apart := owned.apart

theorem SlotsOwned.renumber {fd' : Nat → Nat} (owned : SlotsOwned slots fd phases)
    (same : ∀ index, (slots index).fd ≠ 0 → fd' (slots index).owner = fd (slots index).owner) :
    SlotsOwned slots fd' phases where
  inTable := owned.inTable
  registered := owned.registered
  number := fun index inUse => (same index inUse).trans (owned.number index inUse)
  apart := owned.apart

theorem SlotsOwned.clear (owned : SlotsOwned slots fd phases) (index : Nat) :
    SlotsOwned (Function.update slots index { fd := 0, owner := 0 }) fd phases := by
  have old {other : Nat}
      (inUse : (Function.update slots index { fd := 0, owner := 0 } other).fd ≠ 0) :
      Function.update slots index { fd := 0, owner := 0 } other = slots other ∧
        (slots other).fd ≠ 0 := by
    by_cases same : other = index
    · rw [same, Function.update_self] at inUse
      exact absurd rfl inUse
    · rw [Function.update_of_ne same] at inUse ⊢
      exact ⟨rfl, inUse⟩
  constructor
  case inTable => exact fun other inUse => owned.inTable other (old inUse).2
  case registered =>
    intro other inUse
    rw [(old inUse).1]
    exact owned.registered other (old inUse).2
  case number =>
    intro other inUse
    rw [(old inUse).1]
    exact owned.number other (old inUse).2
  case apart =>
    intro first second firstUsed secondUsed same
    rw [(old firstUsed).1, (old secondUsed).1] at same
    exact owned.apart first second (old firstUsed).2 (old secondUsed).2 same

/-- A handler without a slot takes a free one. -/
theorem SlotsOwned.put (owned : SlotsOwned slots fd phases) {index : Nat}
    (inTable : index < maxClients) (isNew : ¬ Registered (phases handler))
    (registered : Registered phase) :
    SlotsOwned (Function.update slots index { fd := fd handler, owner := handler }) fd
      (Function.update phases handler phase) := by
  have old {other : Nat} (inUse : (slots other).fd ≠ 0) : (slots other).owner ≠ handler := by
    rintro rfl
    exact isNew (owned.registered other inUse)
  have which (other : Nat)
      (inUse : (Function.update slots index { fd := fd handler, owner := handler } other).fd ≠ 0) :
      (other = index ∧ Function.update slots index { fd := fd handler, owner := handler } other =
          { fd := fd handler, owner := handler }) ∨
        (Function.update slots index { fd := fd handler, owner := handler } other = slots other ∧
          (slots other).fd ≠ 0) := by
    by_cases same : other = index
    · subst same
      exact Or.inl ⟨rfl, Function.update_self ..⟩
    · rw [Function.update_of_ne same] at inUse ⊢
      exact Or.inr ⟨rfl, inUse⟩
  constructor
  case inTable =>
    intro other inUse
    rcases which other inUse with ⟨rfl, _⟩ | ⟨_, oldUse⟩
    · exact inTable
    · exact owned.inTable other oldUse
  case registered =>
    intro other inUse
    rcases which other inUse with ⟨_, taken⟩ | ⟨same, oldUse⟩
    · rw [taken]
      dsimp only
      rwa [Function.update_self]
    · rw [same, Function.update_of_ne (old oldUse)]
      exact owned.registered other oldUse
  case number =>
    intro other inUse
    rcases which other inUse with ⟨_, taken⟩ | ⟨same, oldUse⟩
    · rw [taken]
    · rw [same]
      exact owned.number other oldUse
  case apart =>
    intro first second firstUsed secondUsed same
    rcases which first firstUsed with ⟨rfl, taken⟩ | ⟨oldFirst, firstOld⟩
    · rcases which second secondUsed with ⟨rfl, _⟩ | ⟨oldSecond, secondOld⟩
      · rfl
      · rw [taken, oldSecond] at same
        exact absurd same.symm (old secondOld)
    · rcases which second secondUsed with ⟨rfl, taken⟩ | ⟨oldSecond, secondOld⟩
      · rw [taken, oldFirst] at same
        exact absurd same (old firstOld)
      · rw [oldFirst, oldSecond] at same
        exact owned.apart first second firstOld secondOld same

/-- A number is found in the slot of the handler that has it. -/
theorem SlotsOwned.owner_eq (owned : SlotsOwned slots fd phases)
    (apart : ∀ first second, Live (phases first) → Live (phases second) →
      fd first = fd second → first = second)
    {index : Nat} (isLive : Live (phases handler)) (positive : fd handler ≠ 0)
    (same : (slots index).fd = fd handler) : (slots index).owner = handler := by
  have inUse : (slots index).fd ≠ 0 := same ▸ positive
  exact apart _ _ (owned.registered index inUse).live isLive ((owned.number index inUse).trans same)

end Slots

/-! ### The handlers -/

/-- From a slot on, no slot is of a connection that the broadcast was sent to. -/
def Unsent (slots : Nat → Slot) (sent : List Nat) (index : Nat) : Prop :=
  ∀ connection ∈ sent, ∀ later, index ≤ later → (slots later).fd ≠ 0 →
    (slots later).owner ≠ connection

/-- What is known where a handler is. -/
def PhaseOwned (descriptors : Nat → Option Nat) (slots : Nat → Slot) (sent : List Nat)
    (number : Nat) : Phase → Prop
  | .unregistering => descriptors number = none
  | .broadcasting index => Unsent slots sent index
  | .dropping index => (slots index).fd = number ∧ Unsent slots sent (index + 1)
  | _ => True

structure Owned (state : State) : Prop where
  leases : Leases state.descriptors state.fd fun handler => Live (state.phases handler)
  started : ∀ handler, Live (state.phases handler) →
    handler < state.accepted ∧ state.fd handler ≠ 0
  slots : SlotsOwned state.slots state.fd state.phases
  exclusive : Exclusive Sending state.phases state.mutex
  phases : ∀ handler, PhaseOwned state.descriptors state.slots state.sent (state.fd handler)
    (state.phases handler)
  once : state.sent.Nodup
  closes : ∀ entry ∈ state.closed, entry.2 = some entry.1 ∨ entry.2 = none
  clears : ∀ entry ∈ state.cleared, entry.2 = entry.1

theorem Owned.oneOwner {state : State} (owned : Owned state) : OneOwner state where
  numbers := owned.leases.apart
  closes := owned.closes
  clears := owned.clears
  sends := owned.once

theorem owned_initial (serverfd : Nat) : Owned (State.initial serverfd) where
  leases := Leases.empty fun _ isLive => isLive rfl
  started := fun _ isLive => absurd rfl isLive
  slots :=
    { inTable := fun _ inUse => absurd rfl inUse
      registered := fun _ inUse => absurd rfl inUse
      number := fun _ inUse => absurd rfl inUse
      apart := fun _ _ inUse => absurd rfl inUse }
  exclusive := Exclusive.free fun _ sending => sending
  phases := fun _ => trivial
  once := List.nodup_nil
  closes := nofun
  clears := nofun

section Steps

variable {state : State} {handler : Nat} {phase : Phase}

theorem PhaseOwned.of_not_sending {descriptors : Nat → Option Nat} {slots slots' : Nat → Slot}
    {sent sent' : List Nat} {number : Nat} (owned : PhaseOwned descriptors slots sent number phase)
    (outside : ¬ Sending phase) : PhaseOwned descriptors slots' sent' number phase := by
  cases phase with
  | broadcasting index => exact absurd trivial outside
  | dropping index => exact absurd trivial outside
  | unregistering => exact owned
  | _ => trivial

theorem PhaseOwned.release {descriptors : Nat → Option Nat} {slots : Nat → Slot}
    {sent : List Nat} {number : Nat} (owned : PhaseOwned descriptors slots sent number phase)
    (fd : Nat) : PhaseOwned (Function.update descriptors fd none) slots sent number phase := by
  cases phase with
  | unregistering =>
      change Function.update descriptors fd none number = none
      by_cases same : number = fd
      · rw [same, Function.update_self]
      · rw [Function.update_of_ne same]
        exact owned
  | _ => exact owned

/-- One handler moves and the others keep what is known. -/
theorem forall_update {known : Nat → Phase → Prop} (here : known handler phase)
    (others : ∀ other, other ≠ handler → known other (state.phases other)) (other : Nat) :
    known other (Function.update state.phases handler phase other) := by
  by_cases same : other = handler
  · subst same
    rwa [Function.update_self]
  · rw [Function.update_of_ne same]
    exact others other same

theorem started_update {fd : Nat → Nat} {phases : Nat → Phase} {accepted : Nat}
    (started : ∀ handler, Live (phases handler) → handler < accepted ∧ fd handler ≠ 0)
    (wasLive : Live (phases handler)) (other : Nat)
    (isLive : Live (Function.update phases handler phase other)) :
    other < accepted ∧ fd other ≠ 0 := by
  by_cases same : other = handler
  · subst same
    exact started other wasLive
  · rw [Function.update_of_ne same] at isLive
    exact started other isLive

/-- A step that only moves a handler. -/
theorem Owned.move (owned : Owned state) (wasLive : Live (state.phases handler))
    (isLive : Live phase) (stays : Registered (state.phases handler) → Registered phase)
    (same : Sending phase ↔ Sending (state.phases handler))
    (known : PhaseOwned state.descriptors state.slots state.sent (state.fd handler) phase) :
    Owned (state.move handler phase) where
  leases := owned.leases.congr (live_update wasLive isLive)
  started := started_update owned.started wasLive
  slots := owned.slots.move stays
  exclusive := owned.exclusive.move same
  phases := forall_update known fun other _ => owned.phases other
  once := owned.once
  closes := owned.closes
  clears := owned.clears

theorem Owned.receive (owned : Owned state) {received : Option (List UInt8)} {next : State}
    (taken : step state (.receive handler received) = some next) : Owned next := by
  rw [step] at taken
  split at taken
  case h_1 stands =>
    cases taken
    have wasLive : Live (state.phases handler) := stands ▸ nofun
    have notYet : ¬ Registered (state.phases handler) := stands ▸ id
    have outside : ¬ Sending (state.phases handler) := stands ▸ id
    by_cases long : NameTooLong received
    · rw [if_pos long]
      exact owned.move wasLive nofun (absurd · notYet) (iff_of_false id outside) trivial
    · rw [if_neg long]
      exact owned.move wasLive nofun (absurd · notYet) (iff_of_false id outside) trivial
  case h_2 stands =>
    cases taken
    have wasLive : Live (state.phases handler) := stands ▸ nofun
    have outside : ¬ Sending (state.phases handler) := stands ▸ id
    by_cases leaves : Leaves received
    · rw [if_pos leaves]
      exact owned.move wasLive nofun (fun _ => trivial) (iff_of_false id outside) trivial
    · rw [if_neg leaves]
      exact owned.move wasLive nofun (fun _ => trivial) (iff_of_false id outside) trivial
  case h_3 => cases taken

theorem Owned.accept (owned : Owned state) {number : Nat} {next : State}
    (unused : Benign state (.accept number)) (taken : step state (.accept number) = some next) :
    Owned next := by
  obtain ⟨⟨free, large, _⟩, rfl⟩ := of_guarded taken
  have idle : ¬ Live (state.phases state.accepted) := fun isLive =>
    Nat.lt_irrefl _ (owned.started _ isLive).1
  have notYet : ¬ Registered (state.phases state.accepted) := fun registered =>
    idle registered.live
  have old {other : Nat} (isLive : Live (state.phases other)) : other ≠ state.accepted := by
    rintro rfl
    exact idle isLive
  have naming : Live .naming := nofun
  constructor
  case leases =>
    exact owned.leases.lease idle
      (fun other isLive => unused other (owned.started other isLive).1 isLive)
      (live_start naming)
  case started =>
    intro other isLive
    dsimp only at isLive ⊢
    rcases (live_start naming other).mp isLive with rfl | wasLive
    · refine ⟨Nat.lt_succ_self _, ?_⟩
      rw [Function.update_self]
      omega
    · obtain ⟨earlier, positive⟩ := owned.started other wasLive
      rw [Function.update_of_ne (old wasLive)]
      exact ⟨Nat.lt_succ_of_lt earlier, positive⟩
  case slots =>
    refine (owned.slots.renumber fun index inUse => ?_).move (absurd · notYet)
    exact Function.update_of_ne (old (owned.slots.registered index inUse).live) _ _
  case exclusive =>
    exact owned.exclusive.move (iff_of_false id fun sending => notYet sending.registered)
  case phases =>
    refine forall_update trivial fun other apart => ?_
    dsimp only
    rw [Function.update_of_ne apart]
    have known := owned.phases other
    cases stands : state.phases other with
    | unregistering =>
        rw [stands] at known
        have isLive : Live (state.phases other) := stands ▸ nofun
        change Function.update state.descriptors number (some state.accepted)
          (state.fd other) = none
        rw [Function.update_of_ne (unused other (owned.started other isLive).1 isLive)]
        exact known
    | _ =>
        rw [stands] at known
        exact known
  case once => exact owned.once
  case closes => exact owned.closes
  case clears => exact owned.clears

/-- What a handler closes is its own connection, or none. -/
theorem Owned.closes_cons (owned : Owned state) (isLive : Live (state.phases handler)) :
    ∀ entry ∈ (handler, state.descriptors (state.fd handler)) :: state.closed,
      entry.2 = some entry.1 ∨ entry.2 = none :=
  List.forall_mem_cons.mpr ⟨owned.leases.holder handler isLive, owned.closes⟩

theorem Owned.refuse (owned : Owned state) (stands : state.phases handler = .refusing) :
    Owned ((state.close handler (state.fd handler)).move handler .returned) := by
  have isLive : Live (state.phases handler) := stands ▸ nofun
  constructor
  case leases =>
    exact (owned.leases.release isLive).retire (Function.update_self ..) live_return
  case started => exact started_update owned.started isLive
  case slots => exact owned.slots.move fun registered => absurd registered (stands ▸ id)
  case exclusive => exact owned.exclusive.move (iff_of_false id (stands ▸ id))
  case phases => exact forall_update trivial fun other _ => (owned.phases other).release _
  case once => exact owned.once
  case closes => exact owned.closes_cons isLive
  case clears => exact owned.clears

theorem Owned.leave (owned : Owned state) (stands : state.phases handler = .leaving) :
    Owned ((state.close handler (state.fd handler)).move handler .unregistering) := by
  have isLive : Live (state.phases handler) := stands ▸ nofun
  constructor
  case leases => exact (owned.leases.release isLive).congr (live_update isLive nofun)
  case started => exact started_update owned.started isLive
  case slots => exact owned.slots.move fun _ => trivial
  case exclusive => exact owned.exclusive.move (iff_of_false id (stands ▸ id))
  case phases =>
    exact forall_update (Function.update_self ..) fun other _ => (owned.phases other).release _
  case once => exact owned.once
  case closes => exact owned.closes_cons isLive
  case clears => exact owned.clears

theorem findSlot_some {number index : Nat} (found : state.findSlot number = some index) :
    index < maxClients ∧ (state.slots index).fd = number := by
  have matched := List.find?_some found
  exact ⟨List.mem_range.mp (List.mem_of_find?_eq_some found), beq_iff_eq.mp matched⟩

theorem findSlot_none {number index : Nat} (found : state.findSlot number = none)
    (inTable : index < maxClients) : (state.slots index).fd ≠ number := fun same =>
  List.find?_eq_none.mp found index (List.mem_range.mpr inTable) (beq_iff_eq.mpr same)

/-- With the mutex free no handler is broadcasting. -/
theorem Owned.phases_free (owned : Owned state) (free : state.mutex = none)
    {slots : Nat → Slot} {sent : List Nat} (other : Nat) :
    PhaseOwned state.descriptors slots sent (state.fd other) (state.phases other) := by
  have outside : ¬ Sending (state.phases other) := by
    have exclusive := owned.exclusive
    rw [free] at exclusive
    exact exclusive.outside other
  exact (owned.phases other).of_not_sending outside

theorem Owned.register (owned : Owned state) (stands : state.phases handler = .joining)
    (free : state.mutex = none) :
    Owned ((state.register handler).move handler .receiving) := by
  have isLive : Live (state.phases handler) := stands ▸ nofun
  have outside : ¬ Sending (state.phases handler) := stands ▸ id
  have notYet : ¬ Registered (state.phases handler) := stands ▸ id
  rw [State.register]
  cases found : state.findSlot 0 with
  | none =>
      exact owned.move isLive nofun (absurd · notYet) (iff_of_false id outside) trivial
  | some index =>
      constructor
      case leases => exact owned.leases.congr (live_update isLive nofun)
      case started => exact started_update owned.started isLive
      case slots => exact owned.slots.put (findSlot_some found).1 notYet trivial
      case exclusive => exact owned.exclusive.move (iff_of_false id outside)
      case phases => exact forall_update trivial fun other _ => owned.phases_free free other
      case once => exact owned.once
      case closes => exact owned.closes
      case clears => exact owned.clears

/-- Whoever broadcasts is the only one. -/
theorem Owned.phases_others (owned : Owned state) (within : Sending (state.phases handler))
    {slots : Nat → Slot} {sent : List Nat} {other : Nat} (apart : other ≠ handler) :
    PhaseOwned state.descriptors slots sent (state.fd other) (state.phases other) :=
  (owned.phases other).of_not_sending fun also => apart (owned.exclusive.unique also within)

theorem Unsent.later {slots : Nat → Slot} {sent : List Nat} {index : Nat}
    (unsent : Unsent slots sent index) : Unsent slots sent (index + 1) :=
  fun connection member later above => unsent connection member later (Nat.le_of_succ_le above)

theorem Owned.lock (owned : Owned state) (stands : state.phases handler = .speaking)
    (free : state.mutex = none) :
    Owned ({ state with mutex := some handler, sent := [] }.move handler (.broadcasting 0)) := by
  have isLive : Live (state.phases handler) := stands ▸ nofun
  constructor
  case leases => exact owned.leases.congr (live_update isLive nofun)
  case started => exact started_update owned.started isLive
  case slots => exact owned.slots.move fun _ => trivial
  case exclusive =>
    have exclusive := owned.exclusive
    rw [free] at exclusive
    exact exclusive.lock trivial
  case phases =>
    exact forall_update (fun connection member => nomatch member) fun other _ =>
      owned.phases_free free other
  case once => exact List.nodup_nil
  case closes => exact owned.closes
  case clears => exact owned.clears

theorem Owned.unlock (owned : Owned state) {index : Nat}
    (stands : state.phases handler = .broadcasting index) :
    Owned ({ state with mutex := none }.move handler .receiving) := by
  have isLive : Live (state.phases handler) := stands ▸ nofun
  have within : Sending (state.phases handler) := stands ▸ trivial
  constructor
  case leases => exact owned.leases.congr (live_update isLive nofun)
  case started => exact started_update owned.started isLive
  case slots => exact owned.slots.move fun _ => trivial
  case exclusive => exact owned.exclusive.unlock within id
  case phases => exact forall_update trivial fun other _ => owned.phases other
  case once => exact owned.once
  case closes => exact owned.closes
  case clears => exact owned.clears

theorem Owned.skip (owned : Owned state) {index : Nat}
    (stands : state.phases handler = .broadcasting index) :
    Owned (state.move handler (.broadcasting (index + 1))) := by
  have known := owned.phases handler
  rw [stands] at known
  have unsent : Unsent state.slots state.sent index := known
  exact owned.move (stands ▸ nofun) nofun (fun _ => trivial)
    (iff_of_true trivial (stands ▸ trivial)) unsent.later

theorem Owned.unregister (owned : Owned state) (stands : state.phases handler = .unregistering)
    (free : state.mutex = none) :
    Owned ((state.unregister handler).move handler .returned) := by
  have isLive : Live (state.phases handler) := stands ▸ nofun
  have outside : ¬ Sending (state.phases handler) := stands ▸ id
  have known := owned.phases handler
  rw [stands] at known
  have positive := (owned.started handler isLive).2
  have retired := owned.leases.retire known live_return
  rw [State.unregister]
  cases found : state.findSlot (state.fd handler) with
  | none =>
      constructor
      case leases => exact retired
      case started => exact started_update owned.started isLive
      case slots =>
        refine owned.slots.leave fun index inUse same => ?_
        have number := owned.slots.number index inUse
        rw [same] at number
        exact findSlot_none found (owned.slots.inTable index inUse) number.symm
      case exclusive => exact owned.exclusive.move (iff_of_false id outside)
      case phases => exact forall_update trivial fun other _ => owned.phases other
      case once => exact owned.once
      case closes => exact owned.closes
      case clears => exact owned.clears
  | some index =>
      have number := (findSlot_some found).2
      have own : (state.slots index).owner = handler :=
        owned.slots.owner_eq owned.leases.apart isLive positive number
      constructor
      case leases => exact retired
      case started => exact started_update owned.started isLive
      case slots =>
        refine (owned.slots.clear index).leave fun other inUse same => ?_
        by_cases here : other = index
        · rw [here, Function.update_self] at inUse
          exact inUse rfl
        · rw [Function.update_of_ne here] at inUse same
          exact here (owned.slots.apart other index inUse (number ▸ positive)
            (same.trans own.symm))
      case exclusive => exact owned.exclusive.move (iff_of_false id outside)
      case phases => exact forall_update trivial fun other _ => owned.phases_free free other
      case once => exact owned.once
      case closes => exact owned.closes
      case clears => exact List.forall_mem_cons.mpr ⟨own, owned.clears⟩

theorem Owned.drop (owned : Owned state) {index : Nat}
    (stands : state.phases handler = .dropping index) :
    Owned (((state.close handler (state.slots index).fd).clear handler index).move handler
      (.broadcasting (index + 1))) := by
  have isLive : Live (state.phases handler) := stands ▸ nofun
  have within : Sending (state.phases handler) := stands ▸ trivial
  have known := owned.phases handler
  rw [stands] at known
  obtain ⟨number, unsent⟩ := known
  have own : (state.slots index).owner = handler :=
    owned.slots.owner_eq owned.leases.apart isLive (owned.started handler isLive).2 number
  rw [number]
  constructor
  case leases => exact (owned.leases.release isLive).congr (live_update isLive nofun)
  case started => exact started_update owned.started isLive
  case slots => exact (owned.slots.clear index).move fun _ => trivial
  case exclusive => exact owned.exclusive.move (iff_of_true trivial within)
  case phases =>
    refine forall_update ?_ fun other apart => (owned.phases_others within apart).release _
    intro connection member later above inUse
    have others : later ≠ index := by omega
    have same : Function.update state.slots index { fd := 0, owner := 0 } later =
        state.slots later := Function.update_of_ne others _ _
    change (Function.update state.slots index { fd := 0, owner := 0 } later).fd ≠ 0 at inUse
    change (Function.update state.slots index { fd := 0, owner := 0 } later).owner ≠ connection
    rw [same] at inUse ⊢
    exact unsent connection member later above inUse
  case once => exact owned.once
  case closes => exact owned.closes_cons isLive
  case clears => exact List.forall_mem_cons.mpr ⟨own, owned.clears⟩

/-- The connection behind the number of a slot is that of the owner. -/
theorem Owned.connection_eq (owned : Owned state) {index connection : Nat}
    (inUse : (state.slots index).fd ≠ 0)
    (behind : state.descriptors (state.slots index).fd = some connection) :
    (state.slots index).owner = connection := by
  obtain ⟨isLive, number⟩ := owned.leases.lent _ connection behind
  have registered := owned.slots.registered index inUse
  exact owned.leases.apart _ _ registered.live isLive
    ((owned.slots.number index inUse).trans number.symm)

theorem Owned.attempt (owned : Owned state) {index : Nat} (inUse : (state.slots index).fd ≠ 0)
    (unsent : Unsent state.slots state.sent index) :
    ((state.descriptors (state.slots index).fd).toList ++ state.sent).Nodup ∧
      Unsent state.slots ((state.descriptors (state.slots index).fd).toList ++ state.sent)
        (index + 1) := by
  cases behind : state.descriptors (state.slots index).fd with
  | none => exact ⟨owned.once, unsent.later⟩
  | some connection =>
      have own := owned.connection_eq inUse behind
      constructor
      · refine List.nodup_cons.mpr ⟨fun member => ?_, owned.once⟩
        exact unsent connection member index (Nat.le_refl index) inUse own
      · intro other member later above laterUse same
        rcases List.mem_cons.mp member with rfl | earlier
        · have here := owned.slots.apart later index laterUse inUse (same.trans own.symm)
          omega
        · exact unsent.later other earlier later above laterUse same

/-- A move within a broadcast after one more `send`. -/
theorem Owned.sending (owned : Owned state) {sent : List Nat}
    (within : Sending (state.phases handler)) (once : sent.Nodup) (sending : Sending phase)
    (known : PhaseOwned state.descriptors state.slots sent (state.fd handler) phase) :
    Owned ({ state with sent := sent }.move handler phase) := by
  have isLive : Live (state.phases handler) := within.registered.live
  constructor
  case leases => exact owned.leases.congr (live_update isLive sending.registered.live)
  case started => exact started_update owned.started isLive
  case slots => exact owned.slots.move fun _ => sending.registered
  case exclusive => exact owned.exclusive.move (iff_of_true sending within)
  case phases => exact forall_update known fun other apart => owned.phases_others within apart
  case once => exact once
  case closes => exact owned.closes
  case clears => exact owned.clears

theorem Owned.send (owned : Owned state) {delivered : Bool} {next : State}
    (benign : Benign state (.send handler delivered))
    (taken : step state (.send handler delivered) = some next) : Owned next := by
  rw [step] at taken
  split at taken
  case h_1 index stands =>
    obtain ⟨⟨_, inUse⟩, sent⟩ := Option.ite_none_right_eq_some.mp taken
    have within : Sending (state.phases handler) := stands ▸ trivial
    have known := owned.phases handler
    rw [stands] at known
    obtain ⟨once, unsent⟩ := owned.attempt inUse known
    cases delivered with
    | true =>
        obtain ⟨_, rfl⟩ := of_guarded sent
        exact owned.sending within once trivial unsent
    | false =>
        cases sent
        have number : (state.slots index).fd = state.fd handler := by
          rw [Benign, stands] at benign
          exact benign
        exact owned.sending within once trivial ⟨number, unsent⟩
  case h_2 => cases taken

theorem Owned.proceed (owned : Owned state) {next : State}
    (taken : step state (.proceed handler) = some next) : Owned next := by
  rw [step] at taken
  cases stands : state.phases handler with
  | refusing =>
      rw [stands] at taken
      cases taken
      exact owned.refuse stands
  | joining =>
      rw [stands] at taken
      obtain ⟨free, rfl⟩ := of_guarded taken
      exact owned.register stands free
  | speaking =>
      rw [stands] at taken
      obtain ⟨free, rfl⟩ := of_guarded taken
      exact owned.lock stands free
  | broadcasting index =>
      rw [stands, State.proceed] at taken
      split at taken
      case isTrue =>
        obtain ⟨_, rfl⟩ := of_guarded taken
        exact owned.skip stands
      case isFalse =>
        cases taken
        exact owned.unlock stands
  | dropping index =>
      rw [stands] at taken
      cases taken
      exact owned.drop stands
  | leaving =>
      rw [stands] at taken
      cases taken
      exact owned.leave stands
  | unregistering =>
      rw [stands] at taken
      obtain ⟨free, rfl⟩ := of_guarded taken
      exact owned.unregister stands free
  | _ =>
      rw [stands] at taken
      cases taken

theorem Owned.step (owned : Owned state) {action : Action} {next : State}
    (benign : Benign state action) (taken : ChatApp.step state action = some next) :
    Owned next := by
  cases action with
  | accept fd => exact owned.accept benign taken
  | receive handler received => exact owned.receive taken
  | send handler delivered => exact owned.send benign taken
  | proceed handler => exact owned.proceed taken

end Steps

/-- The kernel reports a failed send only for the sender's own number and lends no number
that a handler still has: then every connection has one owner, in every state reached. -/
theorem chatServer_oneOwner (serverfd : Nat) (actions : List Action) (reached : State)
    (benign : Along step Benign (State.initial serverfd) actions)
    (ran : run step (State.initial serverfd) actions = some reached) : OneOwner reached := by
  have owned : Owned reached :=
    invariant_run (fun _ _ _ held allowed taken => Owned.step held allowed taken)
      (owned_initial serverfd) benign ran
  exact owned.oneOwner

def named (handler : Nat) (clientName : String) : List Action :=
  [.receive handler (some (CText.bytes clientName)), .proceed handler]

/-- A connection fails while its own handler broadcasts. The handler drops its slot, goes
over the free ones, finds its connection gone, and its number is used again after that. -/
def ownFailure : List Action :=
  [.accept 4, .accept 5] ++ named 0 "ann" ++ named 1 "bob" ++
    [.receive 1 (some (CText.bytes "hi")), .proceed 1, .send 1 true, .send 1 false] ++
    List.replicate 50 (.proceed 1) ++ [.receive 1 none, .proceed 1, .proceed 1, .accept 5]

theorem chatServer_oneOwner_ownFailure :
    OneOwner ((run step (State.initial 3) ownFailure).get (by decide +kernel)) :=
  chatServer_oneOwner 3 ownFailure _ (by decide +kernel) (Option.some_get _).symm

/-- A connection fails while another handler broadcasts. That handler closes it, its number
goes to a new connection, and the first handler closes the number once more. -/
def foreignFailure : List Action :=
  [.accept 4, .accept 5] ++ named 0 "ann" ++ named 1 "bob" ++
    [.receive 1 (some (CText.bytes "hi")), .proceed 1, .send 1 false, .proceed 1, .accept 4,
      .receive 0 none, .proceed 0]

theorem chatServer_oneOwner_foreignFailure :
    ¬ ∀ (serverfd : Nat) (actions : List Action) (reached : State),
      run step (State.initial serverfd) actions = some reached → OneOwner reached := by
  intro claim
  have owned := claim 3 foreignFailure
    ((run step (State.initial 3) foreignFailure).get (by decide +kernel)) (Option.some_get _).symm
  have closes : (0, some 2) ∈
      ((run step (State.initial 3) foreignFailure).get (by decide +kernel)).closed := by
    decide +kernel
  rcases owned.closes _ closes with other | nothing
  · cases other
  · cases nothing

end Cab403.ChatApp
