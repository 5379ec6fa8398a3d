/-
What `car_list_mutex` protects. The sections of the control loop and of the handlers
exclude each other, and no car gets lost from the list, as long as the unlock behind
the loop of `select_best_car` finds the mutex free when it comes for a second time.
What the control loop does with a selected car is of no concern here: the list
invariant is that of CarRegistry once the control loop has forgotten the car.
-/

import Cab403.Elevator.CarRegistry

namespace Cab403.Elevator.CarRegistry

open CText ActionRuns LinkedChain Controller

instance (point : HandlerAt) : Decidable point.Holds := by
  unfold HandlerAt.Holds
  split <;> infer_instance

instance (point : HandlerAt) : Decidable point.InList := by
  unfold HandlerAt.InList
  split <;> infer_instance

def Registry.Inside (state : Registry) : Thread → Prop
  | .control => state.control.Holds
  | .handler car => (state.handler car).Holds

def Registry.Exclusive (state : Registry) : Prop :=
  ∀ left right, state.Inside left → state.Inside right → left = right

/-- Every handler that has linked its car, and not unlinked it, finds it in the list. -/
def Registry.NoneLost (state : Registry) : Prop :=
  ∀ car, (state.handler car).InList → CarLinked state car

/-- The second unlock of a selection that found a car comes while no thread holds the
mutex. -/
def UnlockedFree (state : Registry) : RegistryAction → Prop
  | .control =>
      match state.control with
      | .lastUnlock _ (some _) => state.mutex = none
      | _ => True
  | _ => True

instance (state : Registry) : DecidablePred (UnlockedFree state)
  | .control => inferInstanceAs (Decidable (Sheltered state .control))
  | .connect _ _ | .handler _ | .call _ => .isTrue trivial

/-! ### The list invariant -/

/-- The control loop keeps its section and forgets the cars it points to. -/
def ControlAt.forgetCar : ControlAt → ControlAt
  | .locked call | .scanning call _ | .firstUnlock call _ | .lastUnlock call none => .locked call
  | _ => .idle

def Registry.withControl (state : Registry) (control : ControlAt) : Registry :=
  { state with control := control }

def ListInvariant (state : Registry) (nodes : List CarId) : Prop :=
  RegistryInvariant (state.withControl state.control.forgetCar) nodes

theorem forgetCar_holds (control : ControlAt) : control.forgetCar.Holds ↔ control.Holds := by
  cases control with
  | lastUnlock call result => cases result <;> rfl
  | _ => rfl

theorem forgetCar_uses (control : ControlAt) (car : CarId) : ¬ control.forgetCar.Uses car := by
  cases control with
  | lastUnlock call result => cases result <;> exact id
  | _ => exact id

theorem forgetCar_scanning (control : ControlAt) (call : Call) (current : Option CarId) :
    control.forgetCar ≠ .scanning call current := by
  intro scanning
  cases control with
  | lastUnlock call result => cases result <;> cases scanning
  | _ => cases scanning

section Steps

variable {state next : Registry} {nodes : List CarId} {car : CarId}

theorem lock_withControl (control : ControlAt) (thread : Thread) :
    (state.withControl control).lock thread =
      (state.lock thread).map fun locked => locked.withControl control := by
  unfold Registry.lock Registry.withControl
  split <;> rfl

/-- A handler neither reads nor writes what the control loop is at. -/
theorem handlerStep_withControl (control : ControlAt) :
    handlerStep (state.withControl control) car =
      (handlerStep state car).map fun next => next.withControl control := by
  unfold handlerStep
  rw [show (state.withControl control).handler car = state.handler car from rfl]
  cases state.handler car with
  | created | leaving =>
      dsimp only
      rw [lock_withControl, Option.map_map, Option.map_map]
      rfl
  | unlinkWalk indirect =>
      dsimp only
      rw [show (state.withControl control).links = state.links from rfl]
      cases state.links.read indirect with
      | none => rfl
      | some found =>
          dsimp only
          split <;> rfl
  | _ => rfl

theorem handlerStep_control (taken : handlerStep state car = some next) :
    next.control = state.control := by
  have same : handlerStep (state.withControl state.control) car =
      (handlerStep state car).map fun next => next.withControl state.control :=
    handlerStep_withControl state.control
  rw [show state.withControl state.control = state from rfl, taken, Option.map_some] at same
  rw [Option.some.inj same]
  rfl

/-- A step of the control loop locks the free mutex, leaves it as it is, or unlocks it. -/
theorem controlStep_cases (taken : controlStep state = some next) :
    next = { state with mutex := next.mutex, control := next.control } ∧
      (state.mutex = none ∧ next.mutex = some .control ∨
        next.mutex = state.mutex ∧ (next.control.Holds ↔ state.control.Holds) ∨
        next.mutex = none ∧ ¬ next.control.Holds ∧
          (state.control.Holds ∨ ∃ call car, state.control = .lastUnlock call (some car))) := by
  unfold controlStep at taken
  cases at_ : state.control with
  | idle =>
      rw [at_] at taken
      cases taken
  | selecting call =>
      rw [at_] at taken
      obtain ⟨locked, lockTaken, rfl⟩ := Option.map_eq_some_iff.mp taken
      obtain ⟨free, rfl⟩ := lock_eq_some lockTaken
      exact ⟨rfl, Or.inl ⟨free, rfl⟩⟩
  | locked call =>
      rw [at_] at taken
      cases taken
      exact ⟨rfl, Or.inr (Or.inl ⟨rfl, Iff.rfl⟩)⟩
  | scanning call current =>
      cases current with
      | none =>
          rw [at_] at taken
          cases taken
          exact ⟨rfl, Or.inr (Or.inl ⟨rfl, Iff.rfl⟩)⟩
      | some car =>
          rw [at_] at taken
          dsimp only at taken
          split at taken
          · cases taken
            exact ⟨rfl, Or.inr (Or.inl ⟨rfl, Iff.rfl⟩)⟩
          · cases taken
            exact ⟨rfl, Or.inr (Or.inl ⟨rfl, Iff.rfl⟩)⟩
  | firstUnlock call car =>
      rw [at_] at taken
      cases taken
      exact ⟨rfl, Or.inr (Or.inr ⟨rfl, id, Or.inl trivial⟩)⟩
  | lastUnlock call result =>
      cases result with
      | none =>
          rw [at_] at taken
          cases taken
          exact ⟨rfl, Or.inr (Or.inr ⟨rfl, id, Or.inl trivial⟩)⟩
      | some car =>
          rw [at_] at taken
          cases taken
          exact ⟨rfl, Or.inr (Or.inr ⟨rfl, id, Or.inr ⟨call, car, rfl⟩⟩)⟩
  | dispatching call car stage =>
      rw [at_] at taken
      cases stage with
      | lockQueue | insertFloors | unlockQueue | readName =>
          cases taken
          exact ⟨rfl, Or.inr (Or.inl ⟨rfl, Iff.rfl⟩)⟩

theorem ListInvariant.moveControl (invariant : ListInvariant state nodes)
    {control : ControlAt} {mutex : Option Thread}
    (handlers : ∀ car, (state.handler car).Holds → mutex = some (.handler car))
    (holds : control.Holds → mutex = some .control) :
    ListInvariant { state with mutex := mutex, control := control } nodes :=
  RegistryInvariant.moveControl invariant handlers
    (fun inside => holds ((forgetCar_holds control).mp inside))
    (fun call car scanning => absurd scanning (forgetCar_scanning control call (some car)))
    (fun car uses => absurd uses (forgetCar_uses control car))

theorem listInvariant_controlStep (invariant : ListInvariant state nodes)
    (free : UnlockedFree state .control) (taken : controlStep state = some next) :
    ListInvariant next nodes := by
  have noHandler := RegistryInvariant.noHandler invariant
  have holds : state.control.Holds → state.mutex = some .control := fun inside =>
    invariant.controlHolds ((forgetCar_holds state.control).mpr inside)
  obtain ⟨same, locks | ⟨kept, alike⟩ | ⟨unlocked, outside, at_⟩⟩ := controlStep_cases taken
  · rw [same]
    exact invariant.moveControl (fun car inside => absurd inside (noHandler (Or.inr locks.1) car))
      (fun _ => locks.2)
  · rw [same, kept]
    exact invariant.moveControl invariant.handlerHolds (fun inside => holds (alike.mp inside))
  · have owner : state.mutex = some .control ∨ state.mutex = none := by
      rcases at_ with inside | ⟨call, car, last⟩
      · exact Or.inl (holds inside)
      · simp only [UnlockedFree, last] at free
        exact Or.inr free
    rw [same]
    exact invariant.moveControl (fun car inside => absurd inside (noHandler owner car))
      (fun inside => absurd inside outside)

theorem listInvariant_handlerStep (invariant : ListInvariant state nodes)
    (taken : handlerStep state car = some next) : ∃ newNodes, ListInvariant next newNodes := by
  have sheltered :
      Sheltered (state.withControl state.control.forgetCar) (.handler car) := by
    dsimp only [Sheltered]
    split
    · exact forgetCar_uses state.control car
    · trivial
  unfold ListInvariant
  rw [handlerStep_control taken]
  apply invariant_handlerStep invariant sheltered
  rw [handlerStep_withControl, taken, Option.map_some]

theorem listInvariant_step (state : Registry) (action : RegistryAction) (next : Registry)
    (held : ∃ nodes, ListInvariant state nodes) (free : UnlockedFree state action)
    (taken : registryStep state action = some next) : ∃ nodes, ListInvariant next nodes := by
  obtain ⟨nodes, invariant⟩ := held
  cases action with
  | connect car range =>
      obtain ⟨absent, rfl⟩ := of_guarded taken
      have same : (state.handler car).InList ↔ HandlerAt.created.InList := by rw [absent]; rfl
      have created := RegistryInvariant.moveHandler invariant same id
      exact ⟨nodes, created.visits, created.distinct, created.members, created.handlerHolds,
        created.controlHolds, created.pointers, created.scanned, created.used⟩
  | handler car => exact listInvariant_handlerStep invariant taken
  | call call =>
      obtain ⟨idle, rfl⟩ := of_guarded taken
      exact ⟨nodes, invariant.moveControl invariant.handlerHolds nofun⟩
  | control => exact ⟨nodes, listInvariant_controlStep invariant free taken⟩

theorem ListInvariant.exclusive (invariant : ListInvariant state nodes) : state.Exclusive := by
  have owner (thread : Thread) (inside : state.Inside thread) : state.mutex = some thread := by
    cases thread with
    | control => exact invariant.controlHolds ((forgetCar_holds state.control).mpr inside)
    | handler car => exact invariant.handlerHolds car inside
  intro left right leftInside rightInside
  exact Option.some.inj ((owner left leftInside).symm.trans (owner right rightInside))

theorem ListInvariant.noneLost (invariant : ListInvariant state nodes) : state.NoneLost :=
  fun car inList => ⟨nodes, invariant.visits, (invariant.members car).mpr inList⟩

end Steps

/-- In every run in which the second unlock of a selection meets a free mutex, at most
one thread is inside a section of the mutex and no linked car is lost. -/
theorem car_list_protected (range : CarRange) (actions : List RegistryAction)
    (reached : Registry) (free : Along registryStep UnlockedFree (registryStart range) actions)
    (ran : run registryStep (registryStart range) actions = some reached) :
    reached.Exclusive ∧ reached.NoneLost := by
  have initial : ListInvariant (registryStart range) [] := registryInvariant_start range
  obtain ⟨nodes, invariant⟩ := invariant_run listInvariant_step ⟨[], initial⟩ free ran
  exact ⟨invariant.exclusive, invariant.noneLost⟩

/-! ### A second unlock that releases the mutex of a handler -/

/-- Car 1 locks between the two unlocks of a selection, and car 2 after them. -/
def unlockedByControl : List RegistryAction :=
  [.connect 0 oneToNine, .handler 0, .handler 0, .handler 0, .handler 0,
    .connect 1 oneToNine, .connect 2 oneToNine,
    .call callTwoThree, .control, .control, .control, .control,
    .handler 1, .control, .handler 2]

/-- Both write the old head into their next pointer, and the later store of the head
loses the car of the earlier. -/
def lostCar : List RegistryAction :=
  unlockedByControl ++ [.handler 1, .handler 2, .handler 1, .handler 2]

def unlockedReached : Registry :=
  (run registryStep (registryStart oneToNine) unlockedByControl).get (by decide)

def lostReached : Registry :=
  (run registryStep (registryStart oneToNine) lostCar).get (by decide)

theorem car_list_unprotected :
    (¬ ∀ (range : CarRange) (actions : List RegistryAction) (reached : Registry),
      run registryStep (registryStart range) actions = some reached → reached.Exclusive) ∧
    ¬ ∀ (range : CarRange) (actions : List RegistryAction) (reached : Registry),
      run registryStep (registryStart range) actions = some reached → reached.NoneLost := by
  constructor
  · intro always
    have exclusive := always oneToNine unlockedByControl unlockedReached (Option.some_get _).symm
    have first : (unlockedReached.handler 1).Holds := by decide
    have second : (unlockedReached.handler 2).Holds := by decide
    cases exclusive (.handler 1) (.handler 2) first second
  · intro always
    have noneLost := always oneToNine lostCar lostReached (Option.some_get _).symm
    obtain ⟨nodes, visits, member⟩ := noneLost 1 (by decide)
    have headIs : lostReached.links.head = some 2 := by decide
    have nextOfTwo : lostReached.links.next 2 = some 0 := by decide
    have nextOfZero : lostReached.links.next 0 = none := by decide
    have left : ∀ car ∈ nodes, car = 2 ∨ car = 0 := by
      apply visits.within (fun car => car = 2 ∨ car = 0)
      · intro car first
        rw [headIs] at first
        exact Or.inl (Option.some.inj first).symm
      · rintro car other (rfl | rfl) leads
        · rw [nextOfTwo] at leads
          exact Or.inr (Option.some.inj leads).symm
        · rw [nextOfZero] at leads
          cases leads
    rcases left 1 member with same | same
    · exact absurd same (by decide)
    · exact absurd same (by decide)

theorem car_list_protected_selected :
    ((run registryStep (registryStart oneToNine) selectedCar).get (by decide)).Exclusive ∧
      ((run registryStep (registryStart oneToNine) selectedCar).get (by decide)).NoneLost :=
  car_list_protected oneToNine selectedCar _ (by decide) (Option.some_get _).symm

end Cab403.Elevator.CarRegistry
