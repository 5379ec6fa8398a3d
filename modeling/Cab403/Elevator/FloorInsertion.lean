/-
What inserting a call makes of a floor queue. Against the direction of the car the
two nodes go behind the queue. Along it they go into the leading run of that
direction: each in front of the first node at or beyond it, unless that node is the
same stop. A `to_node` without such a node cuts off what the run held behind
`from_node`, or is lost with it.
-/

import Cab403.Elevator.FloorQueue

namespace Cab403.Elevator.Controller

open CText

def Call.fromNode (call : Call) : FloorNode :=
  { direction := callDirection call, floor := call.currentFloor }

def Call.toNode (call : Call) : FloorNode :=
  { direction := callDirection call, floor := call.destinationFloor }

/-! ### The leading run -/

/-- `to_node` finds its place in what is left of the run, or is there already. -/
inductive ToPlaced (direction : Direction) (toNode : FloorNode) :
    List FloorNode → List FloorNode → Prop
  | linked {between after : List FloorNode} {place : FloorNode}
      (short : ∀ node ∈ between, ¬ Reaches direction node toNode)
      (reaches : Reaches direction place toNode) (apart : place ≠ toNode) :
      ToPlaced direction toNode (between ++ place :: after) (between ++ toNode :: place :: after)
  | same {between after : List FloorNode}
      (short : ∀ node ∈ between, ¬ Reaches direction node toNode) :
      ToPlaced direction toNode (between ++ toNode :: after) (between ++ toNode :: after)

inductive RunInserted (direction : Direction) (fromNode toNode : FloorNode) :
    List FloorNode → List FloorNode → Prop
  | behind {run : List FloorNode} (short : ∀ node ∈ run, ¬ Reaches direction node fromNode) :
      RunInserted direction fromNode toNode run (run ++ [fromNode, toNode])
  | linked {before rest grown : List FloorNode} {place : FloorNode}
      (short : ∀ node ∈ before, ¬ Reaches direction node fromNode)
      (reaches : Reaches direction place fromNode) (apart : place ≠ fromNode)
      (placed : ToPlaced direction toNode (place :: rest) grown) :
      RunInserted direction fromNode toNode (before ++ place :: rest) (before ++ fromNode :: grown)
  | same {before rest grown : List FloorNode}
      (short : ∀ node ∈ before, ¬ Reaches direction node fromNode)
      (placed : ToPlaced direction toNode (fromNode :: rest) grown) :
      RunInserted direction fromNode toNode (before ++ fromNode :: rest) (before ++ grown)
  /-- The nodes from `place` on are no longer linked. -/
  | cut {before rest : List FloorNode} {place : FloorNode}
      (short : ∀ node ∈ before, ¬ Reaches direction node fromNode)
      (reaches : Reaches direction place fromNode)
      (past : ∀ node ∈ place :: rest, ¬ Reaches direction node toNode) :
      RunInserted direction fromNode toNode (before ++ place :: rest)
        (before ++ [fromNode, toNode])
  /-- `to_node` is linked behind a node that is not in the queue. -/
  | lost {before rest : List FloorNode}
      (short : ∀ node ∈ before, ¬ Reaches direction node fromNode)
      (past : ∀ node ∈ fromNode :: rest, ¬ Reaches direction node toNode) :
      RunInserted direction fromNode toNode (before ++ fromNode :: rest)
        (before ++ fromNode :: rest)

/-- A list has no element with a property, or a first one. -/
theorem none_or_first {α : Type*} (property : α → Prop) [DecidablePred property] (list : List α) :
    (∀ item ∈ list, ¬ property item) ∨
      ∃ before first after, list = before ++ first :: after ∧
        (∀ item ∈ before, ¬ property item) ∧ property first := by
  cases found : list.find? (fun item => decide (property item)) with
  | none =>
      left
      intro item member
      simpa using List.find?_eq_none.mp found item member
  | some first =>
      right
      obtain ⟨held, before, after, same, none_⟩ := List.find?_eq_some_iff_append.mp found
      refine ⟨before, first, after, same, ?_, of_decide_eq_true held⟩
      intro item member
      simpa using none_ item member

section Walking

variable {direction : Direction} {fromNode toNode : FloorNode}

/-- The nodes that `to_node` passes; `from_node` has been dealt with. -/
theorem walk_passes_to {fromInserted : FromInserted} (done : fromInserted ≠ .no)
    {between : List FloorNode} (along : ∀ node ∈ between, node.direction = direction)
    (short : ∀ node ∈ between, ¬ Reaches direction node toNode) (passed later : List FloorNode) :
    walk direction fromNode toNode passed fromInserted (between ++ later) =
      walk direction fromNode toNode (passed ++ between) fromInserted later := by
  induction between generalizing passed with
  | nil => rw [List.nil_append, List.append_nil]
  | cons node rest ih =>
      obtain ⟨alongHead, alongRest⟩ := List.forall_mem_cons.mp along
      obtain ⟨shortHead, shortRest⟩ := List.forall_mem_cons.mp short
      have kept : insertFrom direction fromNode node passed fromInserted =
          (passed, fromInserted) := if_neg fun no => done no.1
      rw [List.cons_append, walk, if_neg (not_not_intro alongHead), kept]
      dsimp only
      rw [if_neg (fun reached => shortHead reached.2), ih alongRest shortRest, List.append_assoc,
        List.singleton_append]

theorem walk_passes_from {before : List FloorNode}
    (along : ∀ node ∈ before, node.direction = direction)
    (short : ∀ node ∈ before, ¬ Reaches direction node fromNode) (passed later : List FloorNode) :
    walk direction fromNode toNode passed .no (before ++ later) =
      walk direction fromNode toNode (passed ++ before) .no later := by
  induction before generalizing passed with
  | nil => rw [List.nil_append, List.append_nil]
  | cons node rest ih =>
      obtain ⟨alongHead, alongRest⟩ := List.forall_mem_cons.mp along
      obtain ⟨shortHead, shortRest⟩ := List.forall_mem_cons.mp short
      have kept : insertFrom direction fromNode node passed .no = (passed, .no) :=
        if_neg fun reached => shortHead reached.2
      rw [List.cons_append, walk, if_neg (not_not_intro alongHead), kept]
      dsimp only
      rw [if_neg (fun reached => reached.1 rfl), ih alongRest shortRest, List.append_assoc,
        List.singleton_append]

theorem walk_links_from {place : FloorNode} (along : place.direction = direction)
    (reaches : Reaches direction place fromNode) (apart : place ≠ fromNode)
    (passed rest : List FloorNode) :
    walk direction fromNode toNode passed .no (place :: rest) =
      walk direction fromNode toNode (passed ++ [fromNode]) (.linked (passed ++ [fromNode]))
        (place :: rest) := by
  have linked : insertFrom direction fromNode place passed .no =
      (passed ++ [fromNode], .linked (passed ++ [fromNode])) := by
    rw [insertFrom, if_pos ⟨rfl, reaches⟩, if_neg apart]
  have kept : insertFrom direction fromNode place (passed ++ [fromNode])
      (.linked (passed ++ [fromNode])) = (passed ++ [fromNode], .linked (passed ++ [fromNode])) :=
    if_neg fun no => by cases no.1
  simp only [walk, along, linked, kept, ne_eq, not_true_eq_false, if_false]

theorem walk_drops_from (along : fromNode.direction = direction)
    (reaches : Reaches direction fromNode fromNode) (passed rest : List FloorNode) :
    walk direction fromNode toNode passed .no (fromNode :: rest) =
      walk direction fromNode toNode passed .duplicate (fromNode :: rest) := by
  have dropped : insertFrom direction fromNode fromNode passed .no = (passed, .duplicate) := by
    rw [insertFrom, if_pos ⟨rfl, reaches⟩, if_pos rfl]
  have kept : insertFrom direction fromNode fromNode passed .duplicate = (passed, .duplicate) :=
    if_neg fun no => by cases no.1
  simp only [walk, along, dropped, kept, ne_eq, not_true_eq_false, if_false]

theorem walk_places_to {fromInserted : FromInserted} (done : fromInserted ≠ .no)
    {place : FloorNode} (along : place.direction = direction)
    (reaches : Reaches direction place toNode) (passed rest : List FloorNode) :
    walk direction fromNode toNode passed fromInserted (place :: rest) =
      { passed := if place = toNode then passed else passed ++ [toNode]
        fromInserted := fromInserted
        toInserted := true
        rest := place :: rest } := by
  have kept : insertFrom direction fromNode place passed fromInserted = (passed, fromInserted) :=
    if_neg fun no => done no.1
  rw [walk, if_neg (not_not_intro along), kept]
  dsimp only
  rw [if_pos ⟨done, reaches⟩]

/-- No node, or one of the other direction, ends the leading run. -/
def EndsRun (direction : Direction) (later : List FloorNode) : Prop :=
  ∀ node ∈ later.head?, node.direction ≠ direction

theorem exists_first_run (direction : Direction) (queue : List FloorNode) :
    ∃ run later, queue = run ++ later ∧ (∀ node ∈ run, node.direction = direction) ∧
      EndsRun direction later := by
  rcases none_or_first (fun node : FloorNode => node.direction ≠ direction) queue with
    all | ⟨run, first, after, split, along, differs⟩
  · refine ⟨queue, [], (List.append_nil queue).symm,
      fun node member => not_not.mp (all node member), ?_⟩
    intro node none_
    cases none_
  · refine ⟨run, first :: after, split, fun node member => not_not.mp (along node member), ?_⟩
    intro node head
    cases head
    exact differs

theorem walk_ends {later : List FloorNode} (ends : EndsRun direction later)
    (passed : List FloorNode) (fromInserted : FromInserted) :
    walk direction fromNode toNode passed fromInserted later =
      { passed := passed, fromInserted := fromInserted, toInserted := false, rest := later } := by
  cases later with
  | nil => rfl
  | cons node rest => rw [walk, if_pos (ends node rfl)]

/-- Where `to_node` ends up once `from_node` has been dealt with. -/
theorem walk_to (fromNode toNode : FloorNode) (fromInserted : FromInserted)
    (done : fromInserted ≠ .no) {run : List FloorNode}
    (along : ∀ node ∈ run, node.direction = direction) {later : List FloorNode}
    (ends : EndsRun direction later) (passed : List FloorNode) :
    (∃ grown, ToPlaced direction toNode run grown ∧
        finishWalk fromNode toNode
            (walk direction fromNode toNode passed fromInserted (run ++ later)) =
          passed ++ grown ++ later) ∨
      (∀ node ∈ run, ¬ Reaches direction node toNode) ∧
        walk direction fromNode toNode passed fromInserted (run ++ later) =
          { passed := passed ++ run
            fromInserted := fromInserted
            toInserted := false
            rest := later } := by
  have finished (passed : List FloorNode) (rest : List FloorNode) :
      finishWalk fromNode toNode
          { passed := passed
            fromInserted := fromInserted
            toInserted := true
            rest := rest } = passed ++ rest := by
    cases fromInserted with
    | no => exact absurd rfl done
    | duplicate => rfl
    | linked upTo => rfl
  rcases none_or_first (fun node => Reaches direction node toNode) run with
    past | ⟨between, place, after, rfl, short, reaches⟩
  · right
    refine ⟨past, ?_⟩
    rw [walk_passes_to done along past, walk_ends ends]
  · left
    have alongBetween : ∀ node ∈ between, node.direction = direction :=
      fun node member => along node (List.mem_append_left _ member)
    have alongPlace : place.direction = direction :=
      along place (List.mem_append_right _ List.mem_cons_self)
    rw [List.append_assoc, walk_passes_to done alongBetween short, List.cons_append,
      walk_places_to done alongPlace reaches, finished]
    by_cases same : place = toNode
    · subst same
      rw [if_pos rfl]
      exact ⟨_, .same short, by simp⟩
    · rw [if_neg same]
      exact ⟨_, .linked short reaches same, by simp⟩

/-- The nodes from the first one on that reaches `from_node`: `to_node` finds its place
among them, or they are cut off unless the first is `from_node` already. -/
theorem finishWalk_beyond (toNode : FloorNode) {before rest : List FloorNode} {place : FloorNode}
    (alongBefore : ∀ node ∈ before, node.direction = direction)
    (short : ∀ node ∈ before, ¬ Reaches direction node fromNode)
    (reaches : Reaches direction place fromNode)
    (alongRest : ∀ node ∈ place :: rest, node.direction = direction)
    {later : List FloorNode} (ends : EndsRun direction later) :
    (∃ grown, ToPlaced direction toNode (place :: rest) grown ∧
        finishWalk fromNode toNode
            (walk direction fromNode toNode [] .no (before ++ place :: rest ++ later)) =
          before ++ (if place = fromNode then grown else fromNode :: grown) ++ later) ∨
      (∀ node ∈ place :: rest, ¬ Reaches direction node toNode) ∧
        finishWalk fromNode toNode
            (walk direction fromNode toNode [] .no (before ++ place :: rest ++ later)) =
          before ++ (if place = fromNode then place :: rest else [fromNode, toNode]) ++ later := by
  have alongPlace := alongRest place List.mem_cons_self
  rw [List.append_assoc, walk_passes_from alongBefore short, List.nil_append, List.cons_append]
  by_cases same : place = fromNode
  · subst same
    rw [walk_drops_from alongPlace reaches, if_pos rfl, ← List.cons_append]
    rcases walk_to place toNode .duplicate (by simp) alongRest ends before with
      ⟨grown, placed, finished⟩ | ⟨past, walked⟩
    · exact Or.inl ⟨grown, placed, by rw [finished, if_pos rfl]⟩
    · refine Or.inr ⟨past, ?_⟩
      rw [walked]
      rfl
  · rw [walk_links_from alongPlace reaches same, if_neg same, ← List.cons_append]
    rcases walk_to fromNode toNode (.linked (before ++ [fromNode])) (by simp) alongRest ends
      (before ++ [fromNode]) with ⟨grown, placed, finished⟩ | ⟨past, walked⟩
    · refine Or.inl ⟨grown, placed, ?_⟩
      rw [finished, if_neg same]
      simp
    · refine Or.inr ⟨past, ?_⟩
      rw [walked]
      simp [finishWalk]

theorem finishWalk_behind (fromNode toNode : FloorNode) {run : List FloorNode}
    (alongRun : ∀ node ∈ run, node.direction = direction)
    (short : ∀ node ∈ run, ¬ Reaches direction node fromNode)
    {later : List FloorNode} (ends : EndsRun direction later) :
    finishWalk fromNode toNode (walk direction fromNode toNode [] .no (run ++ later)) =
      run ++ [fromNode, toNode] ++ later := by
  rw [walk_passes_from alongRun short, walk_ends ends]
  simp [finishWalk]

theorem finishWalk_inserted (toNode : FloorNode) {run : List FloorNode}
    (alongRun : ∀ node ∈ run, node.direction = direction)
    {later : List FloorNode} (ends : EndsRun direction later) :
    ∃ grown, RunInserted direction fromNode toNode run grown ∧
      finishWalk fromNode toNode (walk direction fromNode toNode [] .no (run ++ later)) =
        grown ++ later := by
  rcases none_or_first (fun node => Reaches direction node fromNode) run with
    short | ⟨before, place, rest, rfl, short, reaches⟩
  · exact ⟨_, .behind short, finishWalk_behind fromNode toNode alongRun short ends⟩
  · have alongBefore : ∀ node ∈ before, node.direction = direction :=
      fun node member => alongRun node (List.mem_append_left _ member)
    have alongRest : ∀ node ∈ place :: rest, node.direction = direction :=
      fun node member => alongRun node (List.mem_append_right _ member)
    rcases finishWalk_beyond toNode alongBefore short reaches alongRest ends with
      ⟨grown, placed, finished⟩ | ⟨past, finished⟩
    · by_cases same : place = fromNode
      · subst same
        exact ⟨_, .same short placed, by rw [finished, if_pos rfl]⟩
      · exact ⟨_, .linked short reaches same placed, by rw [finished, if_neg same]⟩
    · by_cases same : place = fromNode
      · subst same
        exact ⟨_, .lost short past, by rw [finished, if_pos rfl]⟩
      · exact ⟨_, .cut short reaches past, by rw [finished, if_neg same]⟩

end Walking

/-! ### The whole queue -/

variable {car : CarData} {queue : List FloorNode} {call : Call}

theorem insertFloors_against
    (against : carDirection car queue (callDirection call) ≠ callDirection call) :
    insertFloors car queue call = queue ++ [call.fromNode, call.toNode] :=
  if_neg against

theorem insertFloors_along
    (same : carDirection car queue (callDirection call) = callDirection call) :
    ∃ run later grown, queue = run ++ later ∧
      (∀ node ∈ run, node.direction = callDirection call) ∧ EndsRun (callDirection call) later ∧
      RunInserted (callDirection call) call.fromNode call.toNode run grown ∧
      insertFloors car queue call = grown ++ later := by
  obtain ⟨run, later, rfl, along, ends⟩ := exists_first_run (callDirection call) queue
  obtain ⟨grown, inserted, finished⟩ :=
    finishWalk_inserted call.toNode along ends
  refine ⟨run, later, grown, rfl, along, ends, inserted, ?_⟩
  unfold insertFloors
  dsimp only
  rw [if_pos same]
  exact finished

/-! ### The stops of a queue -/

theorem ToPlaced.subset {direction : Direction} {toNode : FloorNode} {run grown : List FloorNode}
    (placed : ToPlaced direction toNode run grown) :
    ∀ node ∈ grown, node ∈ run ∨ node = toNode := by
  intro node member
  cases placed with
  | linked short reaches apart =>
      simp only [List.mem_append, List.mem_cons] at member ⊢
      tauto
  | same short => exact Or.inl member

theorem RunInserted.subset {direction : Direction} {fromNode toNode : FloorNode}
    {run grown : List FloorNode} (inserted : RunInserted direction fromNode toNode run grown) :
    ∀ node ∈ grown, node ∈ run ∨ node = fromNode ∨ node = toNode := by
  intro node member
  cases inserted with
  | behind short =>
      simp only [List.mem_append, List.mem_cons, List.not_mem_nil, or_false] at member ⊢
      exact member
  | linked short reaches apart placed =>
      have old := placed.subset node
      simp only [List.mem_append, List.mem_cons] at member old ⊢
      tauto
  | same short placed =>
      have old := placed.subset node
      simp only [List.mem_append, List.mem_cons] at member old ⊢
      tauto
  | cut short reaches past =>
      simp only [List.mem_append, List.mem_cons, List.not_mem_nil, or_false] at member ⊢
      tauto
  | lost short past => exact Or.inl member

/-- An insertion brings in no stop but those of the call. -/
theorem mem_insertFloors {node : FloorNode} (member : node ∈ insertFloors car queue call) :
    node ∈ queue ∨ node = call.fromNode ∨ node = call.toNode := by
  by_cases same : carDirection car queue (callDirection call) = callDirection call
  · obtain ⟨run, later, grown, rfl, _, _, inserted, result⟩ := insertFloors_along same
    rw [result] at member
    rcases List.mem_append.mp member with inGrown | inLater
    · rcases inserted.subset node inGrown with old | new
      · exact Or.inl (List.mem_append_left later old)
      · exact Or.inr new
    · exact Or.inl (List.mem_append_right run inLater)
  · rw [insertFloors_against same] at member
    simpa using member

theorem popServed_sublist (currentFloor : Token 3) (queue : List FloorNode) :
    (popServed currentFloor queue).Sublist queue := by
  unfold popServed
  split
  · split
    · exact ((List.Sublist.refl _).cons _).cons _
    · exact (List.Sublist.refl _).cons _
  · exact List.nil_sublist queue

theorem serveArrival_sublist (car : CarData) (queue : List FloorNode) :
    (serveArrival car queue).queue.Sublist queue := by
  unfold serveArrival
  split
  · exact List.Sublist.refl _
  · dsimp only
    split
    · exact popServed_sublist _ _
    · exact List.Sublist.refl _

end Cab403.Elevator.Controller
