/-
When inserting a call loses no stop. In the leading run of the car's direction the
walk looks for a place for `to_node` among the nodes from the first one on that
reaches `from_node`. Finding none, it goes on as if that part had been empty.
-/

import Cab403.Elevator.FloorInsertion

namespace Cab403.Elevator.Controller

open CText

/-- Nothing is lost, the two stops of the call are there in order, and nothing else is. -/
structure KeepsCall (queue : List FloorNode) (call : Call) (inserted : List FloorNode) :
    Prop where
  kept : queue.Sublist inserted
  served : [call.fromNode, call.toNode].Sublist inserted
  added : ∃ added, added.Sublist [call.fromNode, call.toNode] ∧ inserted.Perm (queue ++ added)

def leadingRun (direction : Direction) (queue : List FloorNode) : List FloorNode :=
  queue.takeWhile fun node => node.direction = direction

def behindRun (direction : Direction) (queue : List FloorNode) : List FloorNode :=
  queue.dropWhile fun node => node.direction = direction

def beyondFrom (direction : Direction) (queue : List FloorNode) (fromNode : FloorNode) :
    List FloorNode :=
  (leadingRun direction queue).dropWhile fun node => ¬ Reaches direction node fromNode

/-- The run goes on beyond `from_node` and ends before `to_node`, which is not among the
nodes behind the run either when `from_node` is a stop of the run. -/
def OverlooksStop (queue : List FloorNode) (call : Call) : Prop :=
  beyondFrom (callDirection call) queue call.fromNode ≠ [] ∧
    (∀ node ∈ beyondFrom (callDirection call) queue call.fromNode,
      ¬ Reaches (callDirection call) node call.toNode) ∧
    ((beyondFrom (callDirection call) queue call.fromNode).head? = some call.fromNode →
      call.toNode ∉ behindRun (callDirection call) queue)

instance (queue : List FloorNode) (call : Call) : Decidable (OverlooksStop queue call) :=
  inferInstanceAs (Decidable (_ ∧ _ ∧ (_ → _)))

/-! ### The parts of a queue -/

theorem leadingRun_append {direction : Direction} {run later : List FloorNode}
    (along : ∀ node ∈ run, node.direction = direction) (ends : EndsRun direction later) :
    leadingRun direction (run ++ later) = run ∧ behindRun direction (run ++ later) = later := by
  have inRun : ∀ node ∈ run, decide (node.direction = direction) = true :=
    fun node member => decide_eq_true (along node member)
  rw [leadingRun, behindRun, List.takeWhile_append_of_pos inRun, List.dropWhile_append_of_pos inRun]
  cases later with
  | nil => exact ⟨List.append_nil run, rfl⟩
  | cons first rest =>
      have differs := ends first rfl
      rw [List.takeWhile_cons_of_neg (by simpa using differs),
        List.dropWhile_cons_of_neg (by simpa using differs), List.append_nil]
      exact ⟨rfl, rfl⟩

theorem beyondFrom_behind {direction : Direction} {fromNode : FloorNode}
    {run later : List FloorNode} (along : ∀ node ∈ run, node.direction = direction)
    (ends : EndsRun direction later) (short : ∀ node ∈ run, ¬ Reaches direction node fromNode) :
    beyondFrom direction (run ++ later) fromNode = [] := by
  rw [beyondFrom, (leadingRun_append along ends).1, List.dropWhile_eq_nil_iff]
  exact fun node member => decide_eq_true (short node member)

theorem beyondFrom_place {direction : Direction} {fromNode place : FloorNode}
    {before rest later : List FloorNode}
    (along : ∀ node ∈ before ++ place :: rest, node.direction = direction)
    (ends : EndsRun direction later) (short : ∀ node ∈ before, ¬ Reaches direction node fromNode)
    (reaches : Reaches direction place fromNode) :
    beyondFrom direction (before ++ place :: rest ++ later) fromNode = place :: rest := by
  rw [beyondFrom, (leadingRun_append along ends).1,
    List.dropWhile_append_of_pos fun node member => decide_eq_true (short node member),
    List.dropWhile_cons_of_neg (by simpa using reaches)]

/-! ### The stops of a call -/

theorem reaches_refl (direction : Direction) (node : FloorNode) : Reaches direction node node := by
  cases direction with
  | up => exact Int.le_refl _
  | down => exact Int.le_refl _

theorem fromNode_not_reaches {call : Call}
    (distinct : tokenFloorNumber call.currentFloor ≠ tokenFloorNumber call.destinationFloor) :
    ¬ Reaches (callDirection call) call.fromNode call.toNode := by
  unfold callDirection directionTo
  split
  · rename_i above
    exact fun reached => absurd above (Int.not_lt.mpr reached)
  · rename_i below
    intro reached
    exact distinct (Int.le_antisymm reached (Int.not_lt.mp below))

/-! ### Insertions that keep everything -/

/-- What is inserted in one part of the queue decides for the whole. -/
theorem KeepsCall.of_part {call : Call} {part grown : List FloorNode}
    (before later : List FloorNode) (keeps : KeepsCall part call grown) :
    KeepsCall (before ++ part ++ later) call (before ++ grown ++ later) where
  kept := (keeps.kept.append_left before).append_right later
  served := keeps.served.trans
    ((List.sublist_append_right before grown).trans (List.sublist_append_left _ later))
  added := by
    obtain ⟨added, allowed, same⟩ := keeps.added
    refine ⟨added, allowed, ?_⟩
    have moved : (before ++ (part ++ added) ++ later).Perm (before ++ part ++ later ++ added) := by
      simp only [List.append_assoc, List.perm_append_left_iff]
      exact List.perm_append_comm
    exact ((same.append_left before).append_right later).trans moved

theorem keepsCall_both (call : Call) : KeepsCall [] call [call.fromNode, call.toNode] where
  kept := List.nil_sublist _
  served := List.Sublist.refl _
  added := ⟨_, List.Sublist.refl _, List.Perm.refl _⟩

theorem ToPlaced.keeps {direction : Direction} {toNode : FloorNode} {run grown : List FloorNode}
    (placed : ToPlaced direction toNode run grown) :
    run.Sublist grown ∧ toNode ∈ grown ∧
      ∃ added, added.Sublist [toNode] ∧ grown.Perm (run ++ added) := by
  cases placed with
  | @linked between after place short reaches apart =>
      refine ⟨((List.sublist_cons_self _ _).append_left _), by simp, [toNode],
        List.Sublist.refl _, ?_⟩
      exact (List.perm_middle.trans (List.perm_append_singleton _ _).symm)
  | same short => exact ⟨List.Sublist.refl _, by simp, [], List.nil_sublist _, by simp⟩

theorem ToPlaced.reached {direction : Direction} {toNode : FloorNode} {run grown : List FloorNode}
    (placed : ToPlaced direction toNode run grown) :
    ∃ node ∈ run, Reaches direction node toNode := by
  cases placed with
  | linked short reaches apart => exact ⟨_, by simp, reaches⟩
  | same short => exact ⟨toNode, by simp, reaches_refl direction toNode⟩

/-- `to_node` goes behind a first node that does not reach it. -/
theorem ToPlaced.behind_first {direction : Direction} {first toNode : FloorNode}
    {rest grown : List FloorNode} (placed : ToPlaced direction toNode (first :: rest) grown)
    (short : ¬ Reaches direction first toNode) :
    ∃ later, grown = first :: later ∧ toNode ∈ later := by
  generalize same : first :: rest = run at placed
  cases placed with
  | @linked between after place before reaches apart =>
      cases between with
      | nil => exact absurd ((List.cons.inj same).1 ▸ reaches) short
      | cons head between =>
          refine ⟨between ++ toNode :: place :: after, ?_, by simp⟩
          rw [(List.cons.inj same).1, List.cons_append]
  | @same between after before =>
      cases between with
      | nil => exact absurd ((List.cons.inj same).1 ▸ reaches_refl direction first) short
      | cons head between =>
          refine ⟨between ++ toNode :: after, ?_, by simp⟩
          rw [(List.cons.inj same).1, List.cons_append]

section Distinct

variable {call : Call}
  (distinct : tokenFloorNumber call.currentFloor ≠ tokenFloorNumber call.destinationFloor)

include distinct

theorem keepsCall_placed {place : FloorNode} {rest grown : List FloorNode}
    (placed : ToPlaced (callDirection call) call.toNode (place :: rest) grown) :
    KeepsCall (place :: rest) call
      (if place = call.fromNode then grown else call.fromNode :: grown) := by
  obtain ⟨kept, member, added, allowed, perm⟩ := placed.keeps
  split
  · rename_i same
    subst same
    obtain ⟨later, rfl, behind⟩ := placed.behind_first (fromNode_not_reaches distinct)
    exact {
      kept := kept
      served := (List.singleton_sublist.mpr behind).cons_cons _
      added := ⟨added, allowed.cons _, perm⟩ }
  · exact {
      kept := kept.cons _
      served := (List.singleton_sublist.mpr member).cons_cons _
      added := ⟨call.fromNode :: added, allowed.cons_cons _,
        (perm.cons _).trans List.perm_middle.symm⟩ }

end Distinct

/-! ### Insertions that lose something -/

/-- The first node of the part that is cut off is neither of the two that replace it. -/
theorem not_keepsCall_cut {call : Call} {before rest later : List FloorNode} {place : FloorNode}
    (apart : place ≠ call.fromNode) (short : ¬ Reaches (callDirection call) place call.toNode) :
    ¬ KeepsCall (before ++ place :: rest ++ later) call
      (before ++ [call.fromNode, call.toNode] ++ later) := by
  intro keeps
  have kept := keeps.kept
  rw [List.append_sublist_append_right, List.append_sublist_append_left] at kept
  rcases List.mem_cons.mp (kept.subset List.mem_cons_self) with fromNode | toNode
  · exact apart fromNode
  · rw [List.mem_singleton] at toNode
    subst toNode
    exact short (reaches_refl _ _)

theorem sublist_of_not_mem_append {α : Type*} {item : α} {list before after : List α}
    (absent : item ∉ before) (within : (item :: list).Sublist (before ++ after)) :
    (item :: list).Sublist after := by
  induction before with
  | nil => exact within
  | cons first before ih =>
      rw [List.mem_cons, not_or] at absent
      cases within with
      | cons _ within => exact ih absent.2 within
      | cons_cons _ within => exact absurd rfl absent.1

/-- A dropped `from_node` takes `to_node` with it, and only a stop behind the run can
stand in for that. -/
theorem keepsCall_unchanged_iff {call : Call} {before rest later : List FloorNode}
    (short : ∀ node ∈ before, ¬ Reaches (callDirection call) node call.fromNode)
    (past : ∀ node ∈ call.fromNode :: rest, ¬ Reaches (callDirection call) node call.toNode) :
    KeepsCall (before ++ call.fromNode :: rest ++ later) call
        (before ++ call.fromNode :: rest ++ later) ↔ call.toNode ∈ later := by
  constructor
  · intro keeps
    have served := keeps.served
    rw [List.append_assoc] at served
    have behind := sublist_of_not_mem_append
      (fun member => short _ member (reaches_refl _ _)) served
    rw [List.cons_append, List.cons_sublist_cons, List.singleton_sublist] at behind
    rcases List.mem_append.mp behind with inRun | behind
    · exact absurd (reaches_refl _ _) (past _ (List.mem_cons_of_mem _ inRun))
    · exact behind
  · intro behind
    have served : [call.fromNode, call.toNode].Sublist (call.fromNode :: (rest ++ later)) :=
      (List.singleton_sublist.mpr (List.mem_append_right rest behind)).cons_cons _
    refine ⟨List.Sublist.refl _, ?_, [], List.nil_sublist _, by simp⟩
    rw [List.append_assoc, List.cons_append]
    exact served.trans (List.sublist_append_right before _)

/-! ### Every call -/

theorem insertFloors_of_along {car : CarData} {queue : List FloorNode} {call : Call}
    (same : carDirection car queue (callDirection call) = callDirection call) :
    insertFloors car queue call =
      finishWalk call.fromNode call.toNode
        (walk (callDirection call) call.fromNode call.toNode [] .no queue) := if_pos same

theorem finishWalk_keeps_iff {call : Call}
    (distinct : tokenFloorNumber call.currentFloor ≠ tokenFloorNumber call.destinationFloor)
    (queue : List FloorNode) :
    KeepsCall queue call
        (finishWalk call.fromNode call.toNode
          (walk (callDirection call) call.fromNode call.toNode [] .no queue)) ↔
      ¬ OverlooksStop queue call := by
  obtain ⟨run, later, rfl, along, ends⟩ := exists_first_run (callDirection call) queue
  rcases none_or_first (fun node => Reaches (callDirection call) node call.fromNode) run with
    short | ⟨before, place, rest, rfl, short, reaches⟩
  · have behind := KeepsCall.of_part run later (keepsCall_both call)
    rw [List.append_nil] at behind
    rw [finishWalk_behind _ _ along short ends, OverlooksStop, beyondFrom_behind along ends short]
    exact iff_of_true behind fun overlooks => overlooks.1 rfl
  · have beyond := beyondFrom_place along ends short reaches
    have alongBefore : ∀ node ∈ before, node.direction = callDirection call :=
      fun node member => along node (List.mem_append_left _ member)
    have alongRest : ∀ node ∈ place :: rest, node.direction = callDirection call :=
      fun node member => along node (List.mem_append_right _ member)
    rw [OverlooksStop, beyond, (leadingRun_append along ends).2]
    rcases finishWalk_beyond call.toNode alongBefore short reaches alongRest ends with
      ⟨grown, placed, finished⟩ | ⟨past, finished⟩
    · rw [finished]
      refine iff_of_true (KeepsCall.of_part before later (keepsCall_placed distinct placed)) ?_
      rintro ⟨_, past, _⟩
      obtain ⟨node, member, reached⟩ := placed.reached
      exact past node member reached
    · rw [finished]
      by_cases same : place = call.fromNode
      · subst same
        rw [if_pos rfl, keepsCall_unchanged_iff short past]
        constructor
        · intro behind overlooks
          exact overlooks.2.2 rfl behind
        · intro kept
          by_contra absent
          exact kept ⟨List.cons_ne_nil _ _, past, fun _ => absent⟩
      · rw [if_neg same]
        refine iff_of_false (not_keepsCall_cut same (past place List.mem_cons_self)) ?_
        refine not_not_intro ⟨List.cons_ne_nil _ _, past, fun first => ?_⟩
        exact absurd (Option.some.inj first) same

theorem insertFloorsIntoQueue_keeps_iff (car : CarData) (queue : List FloorNode) (call : Call)
    (distinct : tokenFloorNumber call.currentFloor ≠ tokenFloorNumber call.destinationFloor) :
    KeepsCall queue call (insertFloorsIntoQueue car queue call).queue ↔
      ¬ (carDirection car queue (callDirection call) = callDirection call ∧
        OverlooksStop queue call) := by
  change KeepsCall queue call (insertFloors car queue call) ↔ _
  by_cases same : carDirection car queue (callDirection call) = callDirection call
  · rw [insertFloors_of_along same, finishWalk_keeps_iff distinct]
    simp only [same, true_and]
  · have appended := KeepsCall.of_part queue [] (keepsCall_both call)
    simp only [List.append_nil] at appended
    rw [insertFloors_against same]
    exact iff_of_true appended fun lost => same lost.1

def stopAtThree : List FloorNode := [{ direction := .up, floor := Token.ofText (bytes "3") }]

def twoToFive : Call where
  currentFloor := Token.ofText (bytes "2")
  destinationFloor := Token.ofText (bytes "5")

def closedAtOne : CarData where
  currentFloor := Token.ofText (bytes "1")
  destinationFloor := Token.ofText (bytes "1")
  status := statusToken .closed

theorem insertFloorsIntoQueue_keeps_twoToFive :
    KeepsCall stopAtThree twoToFive
        (insertFloorsIntoQueue closedAtOne stopAtThree twoToFive).queue ↔
      ¬ (carDirection closedAtOne stopAtThree (callDirection twoToFive) =
          callDirection twoToFive ∧ OverlooksStop stopAtThree twoToFive) :=
  insertFloorsIntoQueue_keeps_iff closedAtOne stopAtThree twoToFive (by decide +kernel)

/-- The stop at 3 is gone. -/
theorem insertFloorsIntoQueue_drops_stop :
    ¬ KeepsCall stopAtThree twoToFive
      (insertFloorsIntoQueue closedAtOne stopAtThree twoToFive).queue :=
  fun keeps => absurd keeps.kept (by decide +kernel)

end Cab403.Elevator.Controller
