/-
Who has an allocated node: the list, or one of the threads, each of which has at most
one in hand. Nodes pass from a thread to the list and back and are lost nowhere.
-/

import Mathlib.Data.Finset.Basic
import Mathlib.Logic.Function.Basic

namespace Cab403

variable {Thread Node : Type*}

structure Custody (live : Finset Node) (listed : List Node) (hands : Thread → Option Node) :
    Prop where
  held : ∀ thread node, hands thread = some node → node ∈ live ∧ node ∉ listed
  alone : ∀ left right node, hands left = some node → hands right = some node → left = right
  every : ∀ node ∈ live, node ∈ listed ∨ ∃ thread, hands thread = some node

namespace Custody

theorem initial : Custody (∅ : Finset Node) [] (fun _ : Thread => none) :=
  ⟨nofun, nofun, nofun⟩

variable [DecidableEq Thread] {live : Finset Node} {listed : List Node}
  {hands : Thread → Option Node} {thread : Thread} {node : Node}

theorem update_eq_some {value : Option Node} {other : Thread} {kept : Node} :
    Function.update hands thread value other = some kept ↔
      (other = thread ∧ value = some kept) ∨ (other ≠ thread ∧ hands other = some kept) := by
  by_cases same : other = thread
  · subst other
    rw [Function.update_self]
    simp only [true_and, ne_eq, not_true, false_and, or_false]
  · rw [Function.update_of_ne same]
    simp only [same, false_and, false_or, ne_eq, not_false_eq_true, true_and]

theorem update_none_eq_some {other : Thread} {kept : Node} :
    Function.update hands thread none other = some kept ↔
      other ≠ thread ∧ hands other = some kept := by
  rw [update_eq_some]
  simp only [reduceCtorEq, and_false, false_or]

theorem still_held {value : Option Node} {other : Thread} {kept : Node}
    (empty : hands thread = none) (has : hands other = some kept) :
    Function.update hands thread value other = some kept := by
  refine update_eq_some.mpr (Or.inr ⟨?_, has⟩)
  rintro rfl
  rw [empty] at has
  cases has

/-- What one thread has put down or taken up, no other has. -/
theorem alone_update (custody : Custody live listed hands) {value : Option Node}
    (unheld : ∀ other, value = some node → hands other ≠ some node) {left right : Thread}
    (atLeft : Function.update hands thread value left = some node)
    (atRight : Function.update hands thread value right = some node) : left = right := by
  rcases update_eq_some.mp atLeft with ⟨isLeft, same⟩ | ⟨_, leftHas⟩
  · rcases update_eq_some.mp atRight with ⟨isRight, _⟩ | ⟨_, rightHas⟩
    · exact isLeft.trans isRight.symm
    · exact absurd rightHas (unheld right same)
  · rcases update_eq_some.mp atRight with ⟨_, same⟩ | ⟨_, rightHas⟩
    · exact absurd leftHas (unheld left same)
    · exact custody.alone left right node leftHas rightHas

/-- A thread with empty hands gets a new node. -/
theorem receive [DecidableEq Node] (custody : Custody live listed hands)
    (within : ∀ other ∈ listed, other ∈ live) (empty : hands thread = none)
    (fresh : node ∉ live) :
    Custody (insert node live) listed (Function.update hands thread (some node)) := by
  refine ⟨fun other kept has => ?_, fun left right kept => ?_, fun kept member => ?_⟩
  · rcases update_eq_some.mp has with ⟨_, same⟩ | ⟨_, before⟩
    · cases same
      exact ⟨Finset.mem_insert_self _ _, fun inside => fresh (within _ inside)⟩
    · obtain ⟨alive, outside⟩ := custody.held other kept before
      exact ⟨Finset.mem_insert_of_mem alive, outside⟩
  · apply custody.alone_update
    intro other same has
    cases same
    exact fresh (custody.held other node has).1
  · rcases Finset.mem_insert.mp member with rfl | old
    · exact Or.inr ⟨thread, update_eq_some.mpr (Or.inl ⟨rfl, rfl⟩)⟩
    · rcases custody.every kept old with inList | ⟨other, has⟩
      · exact Or.inl inList
      · exact Or.inr ⟨other, still_held empty has⟩

/-- A thread puts its node into the list. -/
theorem append (custody : Custody live listed hands) (has : hands thread = some node)
    {listing : List Node} (members : ∀ other, other ∈ listing ↔ other ∈ listed ∨ other = node) :
    Custody live listing (Function.update hands thread none) := by
  refine ⟨fun other kept atOther => ?_, fun left right kept => ?_, fun kept member => ?_⟩
  · obtain ⟨apart, before⟩ := update_none_eq_some.mp atOther
    obtain ⟨alive, outside⟩ := custody.held other kept before
    refine ⟨alive, fun inside => ?_⟩
    rcases (members kept).mp inside with old | rfl
    · exact outside old
    · exact apart (custody.alone other thread kept before has)
  · have nothing : ∀ other, (none : Option Node) = some kept → hands other ≠ some kept := nofun
    exact custody.alone_update nothing
  · rcases custody.every kept member with inList | ⟨other, hasOther⟩
    · exact Or.inl ((members kept).mpr (Or.inl inList))
    · by_cases same : other = thread
      · subst other
        rw [has] at hasOther
        exact Or.inl ((members kept).mpr (Or.inr (Option.some.inj hasOther).symm))
      · exact Or.inr ⟨other, update_none_eq_some.mpr ⟨same, hasOther⟩⟩

/-- A thread with empty hands takes a node off the list. -/
theorem take (custody : Custody live listed hands) (empty : hands thread = none)
    (alive : node ∈ live) {listing : List Node} (gone : node ∉ listing)
    (members : ∀ other, other ∈ listed ↔ other = node ∨ other ∈ listing) :
    Custody live listing (Function.update hands thread (some node)) := by
  refine ⟨fun other kept has => ?_, fun left right kept => ?_, fun kept member => ?_⟩
  · rcases update_eq_some.mp has with ⟨_, same⟩ | ⟨_, before⟩
    · cases same
      exact ⟨alive, gone⟩
    · obtain ⟨aliveKept, outside⟩ := custody.held other kept before
      exact ⟨aliveKept, fun inside => outside ((members kept).mpr (Or.inr inside))⟩
  · apply custody.alone_update
    intro other same has
    cases same
    exact (custody.held other node has).2 ((members node).mpr (Or.inl rfl))
  · rcases custody.every kept member with listedKept | ⟨other, has⟩
    · rcases (members kept).mp listedKept with rfl | still
      · exact Or.inr ⟨thread, update_eq_some.mpr (Or.inl ⟨rfl, rfl⟩)⟩
      · exact Or.inl still
    · exact Or.inr ⟨other, still_held empty has⟩

/-- A thread gives its node back to the allocator. -/
theorem release [DecidableEq Node] (custody : Custody live listed hands)
    (has : hands thread = some node) :
    Custody (live.erase node) listed (Function.update hands thread none) := by
  refine ⟨fun other kept atOther => ?_, fun left right kept => ?_, fun kept member => ?_⟩
  · obtain ⟨apart, before⟩ := update_none_eq_some.mp atOther
    obtain ⟨alive, outside⟩ := custody.held other kept before
    refine ⟨Finset.mem_erase.mpr ⟨?_, alive⟩, outside⟩
    rintro rfl
    exact apart (custody.alone other thread kept before has)
  · have nothing : ∀ other, (none : Option Node) = some kept → hands other ≠ some kept := nofun
    exact custody.alone_update nothing
  · obtain ⟨different, alive⟩ := Finset.mem_erase.mp member
    rcases custody.every kept alive with inList | ⟨other, hasOther⟩
    · exact Or.inl inList
    · refine Or.inr ⟨other, update_none_eq_some.mpr ⟨?_, hasOther⟩⟩
      rintro rfl
      rw [has] at hasOther
      exact different (Option.some.inj hasOther).symm

end Custody

end Cab403
