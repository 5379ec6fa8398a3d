/-
The list of cars in the controller, at the level of its pointers. Every handler
links its car at the head of the list, serves it, unlinks it through a pointer to a
link and frees it; the control loop selects a car under the list mutex and goes on
to use it after the mutex is free. A step is one lock, one unlock or one access to
the list; an unlock releases the mutex whoever holds it.
-/

import Cab403.Elevator.FloorQueue
import Cab403.Library.ActionRuns
import Cab403.Library.LinkedChain

namespace Cab403.Elevator.CarRegistry

open CText ActionRuns LinkedChain Controller

/-- A car record, named by the connection that allocated it. -/
abbrev CarId := Nat

structure CarRange where
  lowestFloor : Token 3
  highestFloor : Token 3
  deriving DecidableEq

def canAccessFloors (car : CarRange) (call : Call) : Prop :=
  ((tokenFloorNumber car.lowestFloor ≤ tokenFloorNumber call.currentFloor ∧
      tokenFloorNumber car.highestFloor ≥ tokenFloorNumber call.currentFloor) ∧
    tokenFloorNumber car.lowestFloor ≤ tokenFloorNumber call.destinationFloor) ∧
    tokenFloorNumber car.highestFloor ≥ tokenFloorNumber call.destinationFloor

instance (car : CarRange) (call : Call) : Decidable (canAccessFloors car call) :=
  inferInstanceAs (Decidable (_ ∧ _))

inductive Thread where
  | control
  | handler (car : CarId)
  deriving DecidableEq, Repr

inductive HandlerAt where
  | absent
  | created
  | linkLocked
  | linkPointed
  | linkWritten
  | serving
  | leaving
  | unlinkWalk (indirect : Option CarId)
  | unlinkWrite (indirect : Option CarId)
  | unlinkWritten
  | unlinked
  | freed
  deriving DecidableEq, Repr

inductive Stage where
  | lockQueue
  | insertFloors
  | unlockQueue
  | readName
  deriving DecidableEq, Repr

inductive ControlAt where
  | idle
  | selecting (call : Call)
  | locked (call : Call)
  | scanning (call : Call) (current : Option CarId)
  /-- A car was found, the unlock inside the loop is next. -/
  | firstUnlock (call : Call) (car : CarId)
  /-- The unlock behind the loop is next. -/
  | lastUnlock (call : Call) (result : Option CarId)
  | dispatching (call : Call) (car : CarId) (stage : Stage)
  deriving DecidableEq

structure Registry where
  links : Links CarId
  range : CarId → CarRange
  mutex : Option Thread
  handler : CarId → HandlerAt
  control : ControlAt

inductive RegistryAction where
  | connect (car : CarId) (range : CarRange)
  | handler (car : CarId)
  | call (call : Call)
  | control
  deriving DecidableEq

def registryStart (range : CarRange) : Registry :=
  { links := Links.empty
    range := fun _ => range
    mutex := none
    handler := fun _ => .absent
    control := .idle }

def Registry.moveHandler (state : Registry) (car : CarId) (point : HandlerAt) : Registry :=
  { state with handler := Function.update state.handler car point }

def Registry.lock (state : Registry) (thread : Thread) : Option Registry :=
  if state.mutex = none then some { state with mutex := some thread } else none

def Registry.unlock (state : Registry) : Registry := { state with mutex := none }

/-- `handle_car_connection`, from the allocation of the record to its release. -/
def handlerStep (state : Registry) (car : CarId) : Option Registry :=
  match state.handler car with
  | .absent | .freed => none
  | .created => (state.lock (.handler car)).map fun state => state.moveHandler car .linkLocked
  | .linkLocked =>
      some
        { state.moveHandler car .linkPointed with
          links := state.links.write state.links.head (some car) }
  | .linkPointed =>
      some
        { state.moveHandler car .linkWritten with
          links := { state.links with head := some car } }
  | .linkWritten => some (state.unlock.moveHandler car .serving)
  | .serving => some (state.moveHandler car .leaving)
  | .leaving =>
      (state.lock (.handler car)).map fun state => state.moveHandler car (.unlinkWalk none)
  | .unlinkWalk indirect =>
      match state.links.read indirect with
      | none => some (state.moveHandler car .unlinkWritten)
      | some found =>
          if found = car then some (state.moveHandler car (.unlinkWrite indirect))
          else some (state.moveHandler car (.unlinkWalk (some found)))
  | .unlinkWrite indirect =>
      some
        { state.moveHandler car .unlinkWritten with
          links := state.links.write (state.links.next car) indirect }
  | .unlinkWritten => some (state.unlock.moveHandler car .unlinked)
  | .unlinked => some (state.moveHandler car .freed)

/-- `select_best_car` and the rest of the control loop. -/
def controlStep (state : Registry) : Option Registry :=
  match state.control with
  | .idle => none
  | .selecting call => (state.lock .control).map fun state => { state with control := .locked call }
  | .locked call => some { state with control := .scanning call state.links.head }
  | .scanning call none => some { state with control := .lastUnlock call none }
  | .scanning call (some car) =>
      if canAccessFloors (state.range car) call then
        some { state with control := .firstUnlock call car }
      else some { state with control := .scanning call (state.links.next car) }
  | .firstUnlock call car => some { state.unlock with control := .lastUnlock call (some car) }
  | .lastUnlock _ none => some { state.unlock with control := .idle }
  | .lastUnlock call (some car) =>
      some { state.unlock with control := .dispatching call car .lockQueue }
  | .dispatching call car .lockQueue =>
      some { state with control := .dispatching call car .insertFloors }
  | .dispatching call car .insertFloors =>
      some { state with control := .dispatching call car .unlockQueue }
  | .dispatching call car .unlockQueue =>
      some { state with control := .dispatching call car .readName }
  | .dispatching _ _ .readName => some { state with control := .idle }

def registryStep (state : Registry) : RegistryAction → Option Registry
  | .connect car range =>
      if state.handler car = .absent then
        some
          { state.moveHandler car .created with
            range := Function.update state.range car range }
      else none
  | .handler car => handlerStep state car
  | .call call =>
      if state.control = .idle then some { state with control := .selecting call } else none
  | .control => controlStep state

/-! ### What the control loop relies on -/

def ControlAt.Uses : ControlAt → CarId → Prop
  | .firstUnlock _ used, car => used = car
  | .lastUnlock _ (some used), car => used = car
  | .dispatching _ used _, car => used = car
  | _, _ => False

instance (control : ControlAt) (car : CarId) : Decidable (control.Uses car) := by
  unfold ControlAt.Uses
  split <;> infer_instance

def CarLinked (state : Registry) (car : CarId) : Prop :=
  ∃ nodes, state.links.Visits nodes ∧ car ∈ nodes

/-- The second unlock of a selection that found a car finds the mutex free, and no
handler unlinks the car the control loop uses. -/
def Sheltered (state : Registry) : RegistryAction → Prop
  | .control =>
      match state.control with
      | .lastUnlock _ (some _) => state.mutex = none
      | _ => True
  | .handler car =>
      match state.handler car with
      | .unlinkWrite _ => ¬ state.control.Uses car
      | _ => True
  | _ => True

instance (state : Registry) (action : RegistryAction) : Decidable (Sheltered state action) := by
  unfold Sheltered
  split
  · split <;> infer_instance
  · split <;> infer_instance
  · infer_instance

/-! ### The invariant -/

def HandlerAt.InList : HandlerAt → Prop
  | .linkWritten | .serving | .leaving | .unlinkWalk _ | .unlinkWrite _ => True
  | _ => False

def HandlerAt.Holds : HandlerAt → Prop
  | .linkLocked | .linkPointed | .linkWritten | .unlinkWalk _ | .unlinkWrite _
  | .unlinkWritten => True
  | _ => False

def ControlAt.Holds : ControlAt → Prop
  | .locked _ | .scanning _ _ | .firstUnlock _ _ | .lastUnlock _ none => True
  | _ => False

def PointersAt (links : Links CarId) (nodes : List CarId) (car : CarId) : HandlerAt → Prop
  | .linkPointed => links.next car = links.head
  | .unlinkWalk indirect =>
      ∃ before after, nodes = before ++ after ∧ car ∈ after ∧ indirect = before.getLast?
  | .unlinkWrite indirect =>
      ∃ before after, nodes = before ++ car :: after ∧ indirect = before.getLast?
  | _ => True

/-- The list visits the cars of the handlers that are in it, sections are exclusive,
and the control loop points into the list. -/
structure RegistryInvariant (state : Registry) (nodes : List CarId) : Prop where
  visits : state.links.Visits nodes
  distinct : nodes.Nodup
  members : ∀ car, car ∈ nodes ↔ (state.handler car).InList
  handlerHolds : ∀ car, (state.handler car).Holds → state.mutex = some (.handler car)
  controlHolds : state.control.Holds → state.mutex = some .control
  pointers : ∀ car, PointersAt state.links nodes car (state.handler car)
  scanned : ∀ call car, state.control = .scanning call (some car) → car ∈ nodes
  used : ∀ car, state.control.Uses car → car ∈ nodes

theorem pointersAt_of_not_holds {links : Links CarId} {nodes : List CarId} {car : CarId}
    {point : HandlerAt} (free : ¬ point.Holds) : PointersAt links nodes car point := by
  cases point <;> first | trivial | exact absurd trivial free

section Handlers

variable {state : Registry} {nodes : List CarId} {car : CarId} {point : HandlerAt}

@[simp] theorem moveHandler_handler_self :
    (state.moveHandler car point).handler car = point := by
  simp only [Registry.moveHandler, Function.update_self]

theorem moveHandler_handler_of_ne {other : CarId} (apart : other ≠ car) :
    (state.moveHandler car point).handler other = state.handler other := by
  simp only [Registry.moveHandler, Function.update_of_ne apart]

theorem RegistryInvariant.moveHandler (invariant : RegistryInvariant state nodes)
    (same : (state.handler car).InList ↔ point.InList) (free : ¬ point.Holds) :
    RegistryInvariant (state.moveHandler car point) nodes := by
  refine ⟨invariant.visits, invariant.distinct, ?_, ?_, invariant.controlHolds, ?_,
    invariant.scanned, invariant.used⟩
  · intro other
    by_cases own : other = car
    · subst own
      rw [moveHandler_handler_self, ← same]
      exact invariant.members other
    · rw [moveHandler_handler_of_ne own]
      exact invariant.members other
  · intro other
    by_cases own : other = car
    · subst own
      rw [moveHandler_handler_self]
      exact fun holds => absurd holds free
    · rw [moveHandler_handler_of_ne own]
      exact invariant.handlerHolds other
  · intro other
    by_cases own : other = car
    · subst own
      rw [moveHandler_handler_self]
      exact pointersAt_of_not_holds free
    · rw [moveHandler_handler_of_ne own]
      exact invariant.pointers other

def OnlyHandler (state : Registry) (car : CarId) : Prop :=
  (∀ other, other ≠ car → ¬ (state.handler other).Holds) ∧ ¬ state.control.Holds

theorem RegistryInvariant.onlyHandler (invariant : RegistryInvariant state nodes)
    (holds : (state.handler car).Holds) : OnlyHandler state car := by
  have owner := invariant.handlerHolds car holds
  refine ⟨fun other apart otherHolds => ?_, fun controlHolds => ?_⟩
  · have second := invariant.handlerHolds other otherHolds
    rw [owner] at second
    exact apart (Thread.handler.inj (Option.some.inj second)).symm
  · have second := invariant.controlHolds controlHolds
    rw [owner] at second
    cases second

theorem RegistryInvariant.onlyHandler_of_free (invariant : RegistryInvariant state nodes)
    (free : state.mutex = none) : OnlyHandler state car := by
  refine ⟨fun other _ holds => ?_, fun holds => ?_⟩
  · have owner := invariant.handlerHolds other holds
    rw [free] at owner
    cases owner
  · have owner := invariant.controlHolds holds
    rw [free] at owner
    cases owner

theorem RegistryInvariant.alone (invariant : RegistryInvariant state nodes)
    (only : OnlyHandler state car) {links : Links CarId} {mutex : Option Thread}
    {newNodes : List CarId} (visits : links.Visits newNodes) (distinct : newNodes.Nodup)
    (own : car ∈ newNodes ↔ point.InList)
    (others : ∀ other, other ≠ car → (other ∈ newNodes ↔ other ∈ nodes))
    (holds : point.Holds → mutex = some (.handler car))
    (pointers : PointersAt links newNodes car point)
    (used : ∀ other, state.control.Uses other → other ∈ newNodes) :
    RegistryInvariant
      { state with
        links := links
        mutex := mutex
        handler := Function.update state.handler car point } newNodes := by
  have moved (other : CarId) (apart : other ≠ car) :
      Function.update state.handler car point other = state.handler other :=
    Function.update_of_ne apart point state.handler
  refine ⟨visits, distinct, ?_, ?_, fun control => absurd control only.2, ?_, ?_, used⟩
  · intro other
    by_cases same : other = car
    · subst same
      simpa only [Function.update_self] using own
    · change other ∈ newNodes ↔ (Function.update state.handler car point other).InList
      rw [moved other same, others other same]
      exact invariant.members other
  · intro other
    by_cases same : other = car
    · subst same
      simpa only [Function.update_self] using holds
    · change (Function.update state.handler car point other).Holds → _
      rw [moved other same]
      exact fun otherHolds => absurd otherHolds (only.1 other same)
  · intro other
    by_cases same : other = car
    · subst same
      simpa only [Function.update_self] using pointers
    · change PointersAt links newNodes other (Function.update state.handler car point other)
      rw [moved other same]
      exact pointersAt_of_not_holds (only.1 other same)
  · intro call other scanning
    have holdsControl : state.control.Holds := by
      change state.control = _ at scanning
      rw [scanning]
      trivial
    exact absurd holdsControl only.2

end Handlers

/-! ### One step -/

section Steps

variable {state next : Registry} {nodes : List CarId} {car : CarId}

theorem lock_eq_some {thread : Thread} (locked : state.lock thread = some next) :
    state.mutex = none ∧ next = { state with mutex := some thread } := by
  obtain ⟨free, rfl⟩ := of_guarded locked
  exact ⟨free, rfl⟩

theorem invariant_lock (point : HandlerAt) (invariant : RegistryInvariant state nodes)
    (same : car ∈ nodes ↔ point.InList)
    (pointers : PointersAt state.links nodes car point)
    (taken : (state.lock (.handler car)).map (fun locked => locked.moveHandler car point) =
      some next) : RegistryInvariant next nodes := by
  obtain ⟨locked, lockTaken, rfl⟩ := Option.map_eq_some_iff.mp taken
  obtain ⟨free, rfl⟩ := lock_eq_some lockTaken
  exact invariant.alone (invariant.onlyHandler_of_free free) invariant.visits
    invariant.distinct same (fun _ _ => Iff.rfl) (fun _ => rfl) pointers invariant.used

theorem invariant_linkLocked (invariant : RegistryInvariant state nodes)
    (at_ : state.handler car = .linkLocked) :
    RegistryInvariant
      { state.moveHandler car .linkPointed with
        links := state.links.write state.links.head (some car) } nodes := by
  have holds : (state.handler car).Holds := by rw [at_]; trivial
  have outside : car ∉ nodes := by
    rw [invariant.members car, at_]
    exact id
  exact invariant.alone (invariant.onlyHandler holds) (invariant.visits.write_outside outside)
    invariant.distinct (iff_of_false outside id) (fun _ _ => Iff.rfl)
    (fun _ => invariant.handlerHolds car holds) (Links.write_next_self _ car) invariant.used

theorem invariant_linkPointed (invariant : RegistryInvariant state nodes)
    (at_ : state.handler car = .linkPointed) :
    RegistryInvariant
      { state.moveHandler car .linkWritten with
        links := { state.links with head := some car } } (car :: nodes) := by
  have holds : (state.handler car).Holds := by rw [at_]; trivial
  have outside : car ∉ nodes := by
    rw [invariant.members car, at_]
    exact id
  have pointed : state.links.next car = state.links.head := by
    have place := invariant.pointers car
    rw [at_] at place
    exact place
  refine invariant.alone (invariant.onlyHandler holds) (invariant.visits.push pointed)
    (List.nodup_cons.mpr ⟨outside, invariant.distinct⟩)
    (iff_of_true List.mem_cons_self trivial) (fun other apart => ?_)
    (fun _ => invariant.handlerHolds car holds) trivial
    (fun other uses => List.mem_cons_of_mem car (invariant.used other uses))
  rw [List.mem_cons, or_iff_right apart]

theorem invariant_unlock {point : HandlerAt} (invariant : RegistryInvariant state nodes)
    (holds : (state.handler car).Holds) (same : (state.handler car).InList ↔ point.InList)
    (free : ¬ point.Holds) : RegistryInvariant (state.unlock.moveHandler car point) nodes :=
  invariant.alone (invariant.onlyHandler holds) invariant.visits invariant.distinct
    ((invariant.members car).trans same) (fun _ _ => Iff.rfl) (fun inside => absurd inside free)
    (pointersAt_of_not_holds free) invariant.used

theorem invariant_walk {point : HandlerAt} (invariant : RegistryInvariant state nodes)
    (holds : (state.handler car).Holds) (same : (state.handler car).InList ↔ point.InList)
    (pointers : PointersAt state.links nodes car point) :
    RegistryInvariant (state.moveHandler car point) nodes :=
  invariant.alone (invariant.onlyHandler holds) invariant.visits invariant.distinct
    ((invariant.members car).trans same) (fun _ _ => Iff.rfl)
    (fun _ => invariant.handlerHolds car holds) pointers invariant.used

/-- The walk meets the car before the list ends. -/
theorem invariant_unlinkWalk {indirect : Option CarId} (invariant : RegistryInvariant state nodes)
    (at_ : state.handler car = .unlinkWalk indirect) :
    ∃ found, state.links.read indirect = some found ∧
      RegistryInvariant
        (state.moveHandler car
          (if found = car then .unlinkWrite indirect else .unlinkWalk (some found))) nodes := by
  have holds : (state.handler car).Holds := by rw [at_]; trivial
  have place := invariant.pointers car
  rw [at_] at place
  obtain ⟨before, after, rfl, member, rfl⟩ := place
  cases after with
  | nil => cases member
  | cons found later =>
      refine ⟨found, invariant.visits.read, ?_⟩
      split
      · rename_i reached
        refine invariant_walk invariant holds (by rw [at_]; rfl) ⟨before, later, ?_, rfl⟩
        rw [reached]
      · rename_i onward
        refine invariant_walk invariant holds (by rw [at_]; rfl)
          ⟨before ++ [found], later, ?_, ?_, ?_⟩
        · rw [List.append_assoc, List.singleton_append]
        · exact (List.mem_cons.mp member).resolve_left (fun same => onward same.symm)
        · rw [List.getLast?_append, List.getLast?_singleton, Option.some_or]

theorem invariant_unlinkWrite {indirect : Option CarId} (invariant : RegistryInvariant state nodes)
    (at_ : state.handler car = .unlinkWrite indirect) (unused : ¬ state.control.Uses car) :
    ∃ newNodes, RegistryInvariant
      { state.moveHandler car .unlinkWritten with
        links := state.links.write (state.links.next car) indirect } newNodes := by
  have holds : (state.handler car).Holds := by rw [at_]; trivial
  have place := invariant.pointers car
  rw [at_] at place
  obtain ⟨before, after, rfl, rfl⟩ := place
  have distinct := invariant.distinct
  rw [List.nodup_middle, List.nodup_cons] at distinct
  have kept (other : CarId) (apart : other ≠ car) :
      other ∈ before ++ after ↔ other ∈ before ++ car :: after := by
    rw [List.mem_append, List.mem_append, List.mem_cons, or_iff_right apart]
  refine ⟨before ++ after, invariant.alone (invariant.onlyHandler holds)
    (invariant.visits.unlink invariant.distinct) distinct.2 (iff_of_false distinct.1 id) kept
    (fun _ => invariant.handlerHolds car holds) trivial (fun other uses => ?_)⟩
  have apart : other ≠ car := by
    rintro rfl
    exact unused uses
  exact (kept other apart).mpr (invariant.used other uses)

theorem invariant_handlerStep (invariant : RegistryInvariant state nodes)
    (sheltered : Sheltered state (.handler car)) (taken : handlerStep state car = some next) :
    ∃ newNodes, RegistryInvariant next newNodes := by
  unfold handlerStep at taken
  have members := invariant.members car
  cases at_ : state.handler car with
  | absent | freed =>
      rw [at_] at taken
      cases taken
  | created =>
      rw [at_] at taken members
      exact ⟨nodes, invariant_lock .linkLocked invariant members trivial taken⟩
  | linkLocked =>
      rw [at_] at taken
      cases taken
      exact ⟨nodes, invariant_linkLocked invariant at_⟩
  | linkPointed =>
      rw [at_] at taken
      cases taken
      exact ⟨car :: nodes, invariant_linkPointed invariant at_⟩
  | linkWritten =>
      rw [at_] at taken
      cases taken
      exact ⟨nodes, invariant_unlock invariant (by rw [at_]; trivial) (by rw [at_]; rfl) id⟩
  | serving =>
      rw [at_] at taken
      cases taken
      exact ⟨nodes, invariant.moveHandler (by rw [at_]; rfl) id⟩
  | leaving =>
      rw [at_] at taken members
      exact ⟨nodes, invariant_lock (.unlinkWalk none) invariant members
        ⟨[], nodes, rfl, members.mpr trivial, rfl⟩ taken⟩
  | unlinkWalk indirect =>
      rw [at_] at taken
      obtain ⟨found, reads, kept⟩ := invariant_unlinkWalk invariant at_
      simp only [reads] at taken
      split at taken
      · rename_i reached
        cases taken
        rw [if_pos reached] at kept
        exact ⟨nodes, kept⟩
      · rename_i onward
        cases taken
        rw [if_neg onward] at kept
        exact ⟨nodes, kept⟩
  | unlinkWrite indirect =>
      rw [at_] at taken
      cases taken
      simp only [Sheltered, at_] at sheltered
      exact invariant_unlinkWrite invariant at_ sheltered
  | unlinkWritten =>
      rw [at_] at taken
      cases taken
      exact ⟨nodes, invariant_unlock invariant (by rw [at_]; trivial) (by rw [at_]; rfl) id⟩
  | unlinked =>
      rw [at_] at taken
      cases taken
      exact ⟨nodes, invariant.moveHandler (by rw [at_]; rfl) id⟩

theorem RegistryInvariant.moveControl (invariant : RegistryInvariant state nodes)
    {control : ControlAt} {mutex : Option Thread}
    (handlers : ∀ car, (state.handler car).Holds → mutex = some (.handler car))
    (holds : control.Holds → mutex = some .control)
    (scanned : ∀ call car, control = .scanning call (some car) → car ∈ nodes)
    (used : ∀ car, control.Uses car → car ∈ nodes) :
    RegistryInvariant { state with mutex := mutex, control := control } nodes :=
  { visits := invariant.visits
    distinct := invariant.distinct
    members := invariant.members
    handlerHolds := handlers
    controlHolds := holds
    pointers := invariant.pointers
    scanned := scanned
    used := used }

theorem RegistryInvariant.noHandler (invariant : RegistryInvariant state nodes)
    (owner : state.mutex = some .control ∨ state.mutex = none) (car : CarId) :
    ¬ (state.handler car).Holds := by
  intro holds
  have mutex := invariant.handlerHolds car holds
  rcases owner with control | free
  · rw [control] at mutex
    cases mutex
  · rw [free] at mutex
    cases mutex

theorem invariant_controlStep (invariant : RegistryInvariant state nodes)
    (sheltered : Sheltered state .control) (taken : controlStep state = some next) :
    RegistryInvariant next nodes := by
  unfold controlStep at taken
  have used := invariant.used
  have holds := invariant.controlHolds
  cases at_ : state.control with
  | idle =>
      rw [at_] at taken
      cases taken
  | selecting call =>
      rw [at_] at taken
      obtain ⟨locked, lockTaken, rfl⟩ := Option.map_eq_some_iff.mp taken
      obtain ⟨free, rfl⟩ := lock_eq_some lockTaken
      exact invariant.moveControl
        (fun car inside => absurd inside (invariant.noHandler (Or.inr free) car))
        (fun _ => rfl) nofun nofun
  | locked call =>
      rw [at_] at taken holds
      cases taken
      refine invariant.moveControl invariant.handlerHolds (fun _ => holds trivial) ?_ nofun
      rintro _ car same
      exact invariant.visits.head_mem (ControlAt.scanning.inj same).2
  | scanning call current =>
      rw [at_] at holds
      cases current with
      | none =>
          rw [at_] at taken
          cases taken
          exact invariant.moveControl invariant.handlerHolds (fun _ => holds trivial) nofun nofun
      | some car =>
          have member := invariant.scanned call car at_
          rw [at_] at taken
          dsimp only at taken
          split at taken
          · cases taken
            refine invariant.moveControl invariant.handlerHolds (fun _ => holds trivial) nofun ?_
            rintro _ rfl
            exact member
          · cases taken
            refine invariant.moveControl invariant.handlerHolds (fun _ => holds trivial) ?_ nofun
            rintro _ other same
            exact invariant.visits.next_mem member (ControlAt.scanning.inj same).2
  | firstUnlock call car =>
      rw [at_] at taken used holds
      cases taken
      exact invariant.moveControl
        (fun other inside =>
          absurd inside (invariant.noHandler (Or.inl (holds trivial)) other)) nofun nofun used
  | lastUnlock call result =>
      cases result with
      | none =>
          rw [at_] at taken holds
          cases taken
          exact invariant.moveControl
            (fun other inside =>
              absurd inside (invariant.noHandler (Or.inl (holds trivial)) other)) nofun nofun nofun
      | some car =>
          rw [at_] at taken used
          cases taken
          simp only [Sheltered, at_] at sheltered
          exact invariant.moveControl
            (fun other inside =>
              absurd inside (invariant.noHandler (Or.inr sheltered) other)) nofun nofun used
  | dispatching call car stage =>
      rw [at_] at used
      cases stage with
      | lockQueue | insertFloors | unlockQueue =>
          rw [at_] at taken
          cases taken
          exact invariant.moveControl invariant.handlerHolds nofun nofun used
      | readName =>
          rw [at_] at taken
          cases taken
          exact invariant.moveControl invariant.handlerHolds nofun nofun nofun

theorem registryInvariant_step (state : Registry) (action : RegistryAction) (next : Registry)
    (held : ∃ nodes, RegistryInvariant state nodes) (sheltered : Sheltered state action)
    (taken : registryStep state action = some next) :
    ∃ nodes, RegistryInvariant next nodes := by
  obtain ⟨nodes, invariant⟩ := held
  cases action with
  | connect car range =>
      obtain ⟨absent, rfl⟩ := of_guarded taken
      have created : RegistryInvariant (state.moveHandler car .created) nodes :=
        invariant.moveHandler (by rw [absent]; rfl) id
      exact ⟨nodes, created.visits, created.distinct, created.members, created.handlerHolds,
        created.controlHolds, created.pointers, created.scanned, created.used⟩
  | handler car => exact invariant_handlerStep invariant sheltered taken
  | call call =>
      obtain ⟨idle, rfl⟩ := of_guarded taken
      exact ⟨nodes, invariant.moveControl invariant.handlerHolds nofun nofun nofun⟩
  | control => exact ⟨nodes, invariant_controlStep invariant sheltered taken⟩

end Steps

/-! ### Whole runs -/

theorem registryInvariant_start (range : CarRange) :
    RegistryInvariant (registryStart range) [] :=
  { visits := Links.visits_empty
    distinct := List.nodup_nil
    members := fun _ => iff_of_false List.not_mem_nil id
    handlerHolds := nofun
    controlHolds := nofun
    pointers := fun _ => trivial
    scanned := nofun
    used := nofun }

/-- In every run in which the second unlock meets a free mutex and the car in use is not
unlinked, each car the control loop dispatches to is linked and not freed. -/
theorem dispatched_car_linked (range : CarRange) (actions : List RegistryAction)
    (reached : Registry)
    (sheltered : Along registryStep Sheltered (registryStart range) actions)
    (ran : run registryStep (registryStart range) actions = some reached)
    (call : Call) (car : CarId) (stage : Stage)
    (dispatches : reached.control = .dispatching call car stage) :
    CarLinked reached car ∧ reached.handler car ≠ .freed := by
  obtain ⟨nodes, invariant⟩ :=
    invariant_run registryInvariant_step ⟨[], registryInvariant_start range⟩ sheltered ran
  have member : car ∈ nodes := by
    apply invariant.used car
    rw [dispatches]
    rfl
  refine ⟨⟨nodes, invariant.visits, member⟩, fun freed => ?_⟩
  have inList := (invariant.members car).mp member
  rw [freed] at inList
  exact inList

/-! ### A car that disconnects after its selection -/

def oneToNine : CarRange :=
  { lowestFloor := digitFloor 1
    highestFloor := digitFloor 9 }

def callTwoThree : Call :=
  { currentFloor := digitFloor 2
    destinationFloor := digitFloor 3 }

def selectedCar : List RegistryAction :=
  [.connect 0 oneToNine, .handler 0, .handler 0, .handler 0, .handler 0,
    .call callTwoThree, .control, .control, .control, .control, .control]

/-- Before the control loop locks the queue of the car, its handler frees it. -/
def freedAfterSelection : List RegistryAction :=
  selectedCar ++ List.replicate 6 (.handler 0)

theorem dispatched_car_freed :
    ¬ ∀ (range : CarRange) (actions : List RegistryAction) (reached : Registry),
      run registryStep (registryStart range) actions = some reached →
      ∀ call car stage, reached.control = .dispatching call car stage →
        CarLinked reached car ∧ reached.handler car ≠ .freed := by
  intro always
  have kept := (always oneToNine freedAfterSelection
    ((run registryStep (registryStart oneToNine) freedAfterSelection).get (by decide))
    (Option.some_get _).symm callTwoThree 0 .lockQueue (by decide)).2
  exact absurd kept (by decide)

theorem dispatched_car_linked_selected :
    CarLinked ((run registryStep (registryStart oneToNine) selectedCar).get (by decide)) 0 ∧
      ((run registryStep (registryStart oneToNine) selectedCar).get (by decide)).handler 0 ≠
        .freed :=
  dispatched_car_linked oneToNine selectedCar _ (by decide) (Option.some_get _).symm
    callTwoThree 0 .lockQueue (by decide)

end Cab403.Elevator.CarRegistry
