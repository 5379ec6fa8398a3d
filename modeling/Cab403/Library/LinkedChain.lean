/-
Singly linked lists as programs hold them: a head pointer and one next pointer in
each node. A pointer to a link is the node whose next field it is, or none for the
head. Pushing at the head and unlinking through such a pointer are described by
the list of nodes the pointers visit.
-/

import Mathlib.Data.List.Nodup
import Mathlib.Logic.Function.Basic

namespace Cab403.LinkedChain

variable {Node : Type*}

structure Links (Node : Type*) where
  head : Option Node
  next : Node → Option Node

/-- Following `next` from `start` visits exactly `nodes` and arrives at `stop`. -/
def Segment (next : Node → Option Node) (start : Option Node) :
    List Node → Option Node → Prop
  | [], stop => start = stop
  | node :: rest, stop => start = some node ∧ Segment next (next node) rest stop

namespace Links

def empty : Links Node := { head := none, next := fun _ => none }

def Visits (links : Links Node) (nodes : List Node) : Prop :=
  Segment links.next links.head nodes none

def read (links : Links Node) : Option Node → Option Node
  | none => links.head
  | some node => links.next node

def write [DecidableEq Node] (links : Links Node) (value : Option Node) : Option Node → Links Node
  | none => { links with head := value }
  | some node => { links with next := Function.update links.next node value }

end Links

/-! ### Segments -/

section Segments

variable {next other : Node → Option Node} {start stop : Option Node}

theorem Segment.congr {nodes : List Node} (segment : Segment next start nodes stop)
    (agree : ∀ node ∈ nodes, other node = next node) : Segment other start nodes stop := by
  induction nodes generalizing start with
  | nil => exact segment
  | cons node rest ih =>
      obtain ⟨first, later⟩ := segment
      refine ⟨first, ?_⟩
      rw [agree node List.mem_cons_self]
      exact ih later (fun other member => agree other (List.mem_cons_of_mem node member))

theorem segment_append {before after : List Node} :
    Segment next start (before ++ after) stop ↔
      ∃ middle, Segment next start before middle ∧ Segment next middle after stop := by
  induction before generalizing start with
  | nil =>
      constructor
      · intro segment
        exact ⟨start, rfl, segment⟩
      · intro split
        rcases split with ⟨middle, rfl, segment⟩
        exact segment
  | cons node rest ih =>
      constructor
      · intro whole
        rcases whole with ⟨first, later⟩
        obtain ⟨middle, left, right⟩ := ih.mp later
        exact ⟨middle, ⟨first, left⟩, right⟩
      · intro parts
        rcases parts with ⟨middle, ⟨first, left⟩, right⟩
        exact ⟨first, ih.mpr ⟨middle, left, right⟩⟩

/-- A pointer leads to the end in one way only. -/
theorem Segment.unique {nodes others : List Node} (segment : Segment next start nodes none)
    (same : Segment next start others none) : nodes = others := by
  induction nodes generalizing start others with
  | nil =>
      cases others with
      | nil => rfl
      | cons other rest =>
          rw [show start = none from segment] at same
          cases same.1
  | cons node rest ih =>
      obtain ⟨rfl, later⟩ := segment
      cases others with
      | nil => cases same
      | cons other others =>
          obtain ⟨first, laterOther⟩ := same
          cases first
          rw [ih later laterOther]

/-- A list that ends does not come back to a node. -/
theorem Segment.nodup {nodes : List Node} (segment : Segment next start nodes none) :
    nodes.Nodup := by
  induction nodes generalizing start with
  | nil => exact List.nodup_nil
  | cons node rest ih =>
      obtain ⟨rfl, later⟩ := segment
      refine List.nodup_cons.mpr ⟨fun again => ?_, ih later⟩
      obtain ⟨before, after, rfl⟩ := List.append_of_mem again
      obtain ⟨middle, _, back⟩ := segment_append.mp later
      have long : Segment next (some node) (node :: (before ++ node :: after)) none := ⟨rfl, later⟩
      have short : Segment next (some node) (node :: after) none := ⟨rfl, back.2⟩
      have lengths := congrArg List.length (long.unique short)
      simp only [List.length_cons, List.length_append] at lengths
      omega

theorem segment_singleton {node : Node} :
    Segment next start [node] stop ↔ start = some node ∧ next node = stop :=
  Iff.rfl

theorem Segment.start_eq_head {nodes : List Node} (segment : Segment next start nodes none) :
    start = nodes.head? := by
  cases nodes with
  | nil => exact segment
  | cons node rest => exact segment.1

end Segments

/-! ### Reading and writing links -/

namespace Links

variable {links : Links Node}

theorem visits_empty : (empty : Links Node).Visits [] := rfl

theorem read_getLast? {before : List Node} {middle : Option Node}
    (segment : Segment links.next links.head before middle) :
    links.read before.getLast? = middle := by
  rcases List.eq_nil_or_concat before with rfl | ⟨earlier, last, rfl⟩
  · exact segment
  · rw [List.concat_eq_append] at segment ⊢
    obtain ⟨_, _, atLast⟩ := segment_append.mp segment
    rw [List.getLast?_append, List.getLast?_singleton]
    exact (segment_singleton.mp atLast).2

theorem Visits.read {before after : List Node} (visits : links.Visits (before ++ after)) :
    links.read before.getLast? = after.head? := by
  obtain ⟨middle, left, right⟩ := segment_append.mp visits
  rw [read_getLast? left, right.start_eq_head]

theorem Visits.head_mem {nodes : List Node} {node : Node} (visits : links.Visits nodes)
    (first : links.head = some node) : node ∈ nodes := by
  have isHead := visits.start_eq_head
  rw [first] at isHead
  exact List.mem_of_head? isHead.symm

theorem Visits.next_mem {nodes : List Node} {node other : Node} (visits : links.Visits nodes)
    (member : node ∈ nodes) (leads : links.next node = some other) : other ∈ nodes := by
  obtain ⟨before, after, rfl⟩ := List.append_of_mem member
  obtain ⟨_, _, _, later⟩ := segment_append.mp visits
  have isHead := later.start_eq_head
  rw [leads] at isHead
  exact List.mem_append_right _ (List.mem_cons_of_mem _ (List.mem_of_head? isHead.symm))

/-- The list stays within a set that its head and the next pointers stay in. -/
theorem Visits.within {nodes : List Node} (visits : links.Visits nodes) (inside : Node → Prop)
    (first : ∀ node, links.head = some node → inside node)
    (closed : ∀ node other, inside node → links.next node = some other → inside other) :
    ∀ node ∈ nodes, inside node := by
  have walked (start : Option Node) (segment : Segment links.next start nodes none)
      (enters : ∀ node, start = some node → inside node) : ∀ node ∈ nodes, inside node := by
    clear visits
    induction nodes generalizing start with
    | nil =>
        intro node member
        cases member
    | cons head rest ih =>
        obtain ⟨begins, later⟩ := segment
        intro node member
        rcases List.mem_cons.mp member with rfl | behind
        · exact enters node begins
        · exact ih (links.next head) later
            (fun other leads => closed head other (enters head begins) leads) node behind
  exact walked links.head visits first

/-- A node whose next pointer is the head becomes the new head. -/
theorem Visits.push {nodes : List Node} {node : Node} (visits : links.Visits nodes)
    (pointed : links.next node = links.head) :
    Links.Visits { links with head := some node } (node :: nodes) := by
  refine ⟨rfl, ?_⟩
  change Segment links.next (links.next node) nodes none
  rw [pointed]
  exact visits

variable [DecidableEq Node]

@[simp] theorem write_next_self (value : Option Node) (node : Node) :
    (links.write value (some node)).next node = value := by
  simp only [write, Function.update_self]

theorem write_next_of_ne {value : Option Node} {node other : Node} (apart : other ≠ node) :
    (links.write value (some node)).next other = links.next other := by
  simp only [write, Function.update_of_ne apart]

theorem Visits.write_outside {nodes : List Node} {node : Node} {value : Option Node}
    (visits : links.Visits nodes) (outside : node ∉ nodes) :
    (links.write value (some node)).Visits nodes := by
  apply Segment.congr visits
  intro other member
  apply write_next_of_ne
  rintro rfl
  exact outside member

/-- A store through the link behind `before` redirects the end of that segment. -/
theorem segment_write_getLast? {before : List Node} {middle value : Option Node}
    (distinct : before.Nodup) (segment : Segment links.next links.head before middle) :
    Segment (links.write value before.getLast?).next (links.write value before.getLast?).head
      before value := by
  rcases List.eq_nil_or_concat before with rfl | ⟨earlier, last, rfl⟩
  · rfl
  · rw [List.concat_eq_append] at segment distinct ⊢
    rw [List.getLast?_append, List.getLast?_singleton, Option.some_or]
    obtain ⟨point, left, atLast⟩ := segment_append.mp segment
    have apart : last ∉ earlier := fun member =>
      List.disjoint_of_nodup_append distinct member (List.mem_singleton_self last)
    refine segment_append.mpr ⟨point, ?_, ?_⟩
    · apply Segment.congr left
      intro node member
      apply write_next_of_ne
      rintro rfl
      exact apart member
    · exact ⟨atLast.1, write_next_self value last⟩

/-- Unlinking: a store of the node's next pointer through the link that leads to it. -/
theorem Visits.unlink {before after : List Node} {node : Node}
    (visits : links.Visits (before ++ node :: after))
    (distinct : (before ++ node :: after).Nodup) :
    (links.write (links.next node) before.getLast?).Visits (before ++ after) := by
  obtain ⟨middle, left, _, right⟩ := segment_append.mp visits
  refine segment_append.mpr ⟨links.next node,
    segment_write_getLast? (List.Nodup.of_append_left distinct) left, ?_⟩
  rcases List.eq_nil_or_concat before with rfl | ⟨earlier, last, rfl⟩
  · exact right
  · rw [List.concat_eq_append] at distinct ⊢
    rw [List.getLast?_append, List.getLast?_singleton, Option.some_or]
    apply Segment.congr right
    intro other member
    have apart : last ∉ after := fun again =>
      List.disjoint_of_nodup_append distinct
        (List.mem_append_right earlier (List.mem_singleton_self last))
        (List.mem_cons_of_mem node again)
    apply write_next_of_ne
    rintro rfl
    exact apart member

end Links

end Cab403.LinkedChain
