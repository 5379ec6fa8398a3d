/-
Several singly linked lists in one heap. Each anchor is a variable that holds the
first pointer of its list; a program reads and writes links, allocates nodes and
frees them. An access to a node that is not allocated yields `none`, as does a
second free, so a program that returns a heap has made neither.
-/

import Cab403.Library.LinkedChain
import Mathlib.Data.Finset.Card

namespace Cab403.LinkedChain

structure NodeHeap (Anchor Node Item : Type*) where
  head : Anchor → Option Node
  next : Node → Option Node
  item : Node → Item
  live : Finset Node

def Outside {Anchor Node : Type*} (lists : Anchor → List Node) (node : Node) : Prop :=
  ∀ anchor, node ∉ lists anchor

def Apart {Anchor Node : Type*} (lists : Anchor → List Node) : Prop :=
  ∀ left right, left ≠ right → ∀ node ∈ lists left, node ∉ lists right

theorem Apart.update {Anchor Node : Type*} [DecidableEq Anchor] {lists : Anchor → List Node}
    {anchor : Anchor} {old nodes : List Node}
    (apart : Apart (Function.update lists anchor old))
    (foreign : ∀ node ∈ nodes, ∀ other, other ≠ anchor → node ∉ lists other) :
    Apart (Function.update lists anchor nodes) := by
  intro left right different node member
  by_cases atLeft : left = anchor
  · subst left
    rw [Function.update_self] at member
    rw [Function.update_of_ne (Ne.symm different)]
    exact foreign node member right (Ne.symm different)
  · rw [Function.update_of_ne atLeft] at member
    by_cases atRight : right = anchor
    · subst right
      rw [Function.update_self]
      exact fun inNodes => foreign node inNodes left atLeft member
    · have separate := apart left right different node
      rw [Function.update_of_ne atLeft, Function.update_of_ne atRight] at separate
      rw [Function.update_of_ne atRight]
      exact separate member

namespace NodeHeap

variable {Anchor Node Item : Type*}

def links (heap : NodeHeap Anchor Node Item) (anchor : Anchor) : Links Node :=
  { head := heap.head anchor, next := heap.next }

/-- The lists of all anchors: each is of allocated nodes. -/
structure Keeps (heap : NodeHeap Anchor Node Item) (lists : Anchor → List Node) : Prop where
  visits : ∀ anchor, (heap.links anchor).Visits (lists anchor)
  allocated : ∀ anchor, ∀ node ∈ lists anchor, node ∈ heap.live
  apart : Apart lists

section Lists

variable {heap : NodeHeap Anchor Node Item} {lists : Anchor → List Node}

theorem Keeps.nodup (keeps : heap.Keeps lists) (anchor : Anchor) : (lists anchor).Nodup :=
  Segment.nodup (keeps.visits anchor)

theorem Keeps.head_eq (keeps : heap.Keeps lists) (anchor : Anchor) :
    heap.head anchor = (lists anchor).head? :=
  (keeps.visits anchor).start_eq_head

theorem Keeps.outside_of_fresh (keeps : heap.Keeps lists) {node : Node}
    (fresh : node ∉ heap.live) : Outside lists node :=
  fun anchor member => fresh (keeps.allocated anchor node member)

theorem Keeps.segment_of_split (keeps : heap.Keeps lists) {anchor : Anchor}
    {before after : List Node} (split : lists anchor = before ++ after) :
    Segment heap.next (heap.head anchor) before after.head? ∧
      Segment heap.next after.head? after none := by
  have visits := keeps.visits anchor
  rw [split] at visits
  obtain ⟨middle, left, right⟩ := segment_append.mp visits
  rw [← right.start_eq_head]
  exact ⟨left, right⟩

variable [DecidableEq Anchor] {anchor : Anchor}

theorem Keeps.live_of_mem {nodes : List Node} {node : Node}
    (keeps : heap.Keeps (Function.update lists anchor nodes)) (member : node ∈ nodes) :
    node ∈ heap.live := by
  apply keeps.allocated anchor
  rw [Function.update_self]
  exact member

theorem Keeps.foreign_of_mem {nodes : List Node} {node : Node}
    (keeps : heap.Keeps (Function.update lists anchor nodes)) (member : node ∈ nodes) :
    ∀ other, other ≠ anchor → node ∉ lists other := by
  intro other different
  have separate := keeps.apart anchor other (Ne.symm different) node
  rw [Function.update_self, Function.update_of_ne different] at separate
  exact separate member

end Lists

/-! ### Reading and allocating -/

variable [DecidableEq Node]

def load (heap : NodeHeap Anchor Node Item) (node : Node) : Option Item :=
  if node ∈ heap.live then some (heap.item node) else none

def follow (heap : NodeHeap Anchor Node Item) (node : Node) : Option (Option Node) :=
  if node ∈ heap.live then some (heap.next node) else none

def malloc (heap : NodeHeap Anchor Node Item) (node : Node) (item : Item) :
    NodeHeap Anchor Node Item :=
  { heap with
    next := Function.update heap.next node none
    item := Function.update heap.item node item
    live := insert node heap.live }

def free (heap : NodeHeap Anchor Node Item) (node : Node) : Option (NodeHeap Anchor Node Item) :=
  if node ∈ heap.live then some { heap with live := heap.live.erase node } else none

def setNext (heap : NodeHeap Anchor Node Item) (node : Node) (value : Option Node) :
    NodeHeap Anchor Node Item :=
  { heap with next := Function.update heap.next node value }

/-- `while (last->next != NULL) last = last->next`. -/
def lastNode (heap : NodeHeap Anchor Node Item) : Nat → Node → Option Node
  | 0, _ => none
  | fuel + 1, last =>
      match heap.follow last with
      | none => none
      | some none => some last
      | some (some next) => heap.lastNode fuel next

/-- `while (head != NULL) { temp = head; head = head->next; free(temp); }`. -/
def freeList (heap : NodeHeap Anchor Node Item) : Nat → Option Node →
    Option (NodeHeap Anchor Node Item)
  | _, none => some heap
  | 0, some _ => none
  | fuel + 1, some temp =>
      (heap.follow temp).bind fun head =>
        (heap.free temp).bind fun heap => heap.freeList fuel head

theorem Keeps.length_le {heap : NodeHeap Anchor Node Item} {lists : Anchor → List Node}
    (keeps : heap.Keeps lists) (anchor : Anchor) : (lists anchor).length ≤ heap.live.card := by
  rw [← List.toFinset_card_of_nodup (keeps.nodup anchor)]
  apply Finset.card_le_card
  intro node member
  exact keeps.allocated anchor node (List.mem_toFinset.mp member)

section Reading

variable {heap : NodeHeap Anchor Node Item} {lists : Anchor → List Node} {anchor : Anchor}

theorem Keeps.load_eq (keeps : heap.Keeps lists) {node : Node} (member : node ∈ lists anchor) :
    heap.load node = some (heap.item node) :=
  if_pos (keeps.allocated anchor node member)

theorem Keeps.follow_eq (keeps : heap.Keeps lists) {before after : List Node} {node : Node}
    (split : lists anchor = before ++ node :: after) : heap.follow node = some after.head? := by
  have member : node ∈ lists anchor := by
    rw [split]
    exact List.mem_append_right before List.mem_cons_self
  obtain ⟨_, _, later⟩ := keeps.segment_of_split split
  rw [follow, if_pos (keeps.allocated anchor node member)]
  exact congrArg some later.start_eq_head

theorem malloc_item_of_ne {node other : Node} {item : Item} (apart : other ≠ node) :
    (heap.malloc node item).item other = heap.item other :=
  Function.update_of_ne apart _ _

theorem malloc_next_of_ne {node other : Node} {item : Item} (apart : other ≠ node) :
    (heap.malloc node item).next other = heap.next other :=
  Function.update_of_ne apart _ _

theorem Keeps.malloc (keeps : heap.Keeps lists) {node : Node} (item : Item)
    (fresh : node ∉ heap.live) : (heap.malloc node item).Keeps lists := by
  have outside := keeps.outside_of_fresh fresh
  refine ⟨fun anchor => ?_, fun anchor other member => ?_, keeps.apart⟩
  · apply Segment.congr (keeps.visits anchor)
    intro other member
    apply Function.update_of_ne
    rintro rfl
    exact outside anchor member
  · exact Finset.mem_insert_of_mem (keeps.allocated anchor other member)

theorem Keeps.setNext_outside (keeps : heap.Keeps lists) {node : Node} (value : Option Node)
    (outside : Outside lists node) : (heap.setNext node value).Keeps lists := by
  refine ⟨fun anchor => ?_, keeps.allocated, keeps.apart⟩
  apply Segment.congr (keeps.visits anchor)
  intro other member
  apply Function.update_of_ne
  rintro rfl
  exact outside anchor member

theorem Keeps.erase_outside (keeps : heap.Keeps lists) {node : Node}
    (outside : Outside lists node) :
    NodeHeap.Keeps { heap with live := heap.live.erase node } lists := by
  refine ⟨keeps.visits, fun anchor other member => ?_, keeps.apart⟩
  refine Finset.mem_erase.mpr ⟨?_, keeps.allocated anchor other member⟩
  rintro rfl
  exact outside anchor member

/-- The walk to the tail ends at the last node of the list. -/
theorem Keeps.lastNode_eq (keeps : heap.Keeps lists) {before after : List Node} {node : Node}
    (split : lists anchor = before ++ node :: after) {fuel : Nat} (enough : after.length < fuel) :
    heap.lastNode fuel node = (node :: after).getLast? := by
  induction after generalizing before node fuel with
  | nil =>
      obtain ⟨fuel, rfl⟩ := Nat.exists_eq_add_one_of_ne_zero (Nat.ne_of_gt enough)
      rw [lastNode, keeps.follow_eq split]
      rfl
  | cons following after ih =>
      obtain ⟨fuel, rfl⟩ := Nat.exists_eq_add_one_of_ne_zero
        (Nat.ne_of_gt (Nat.zero_lt_of_lt enough))
      rw [lastNode, keeps.follow_eq split, List.getLast?_cons_cons]
      apply @ih (before ++ [node])
      · rw [split, List.append_assoc, List.singleton_append]
      · rw [List.length_cons] at enough
        omega

/-- The loop frees the nodes of the list and no others. -/
theorem freeList_eq {nodes : List Node} {start : Option Node} {fuel : Nat}
    (segment : Segment heap.next start nodes none) (allocated : ∀ node ∈ nodes, node ∈ heap.live)
    (enough : nodes.length ≤ fuel) :
    heap.freeList fuel start = some { heap with live := heap.live \ nodes.toFinset } := by
  have distinct := segment.nodup
  induction nodes generalizing heap start fuel with
  | nil =>
      rw [show start = none from segment, List.toFinset_nil, Finset.sdiff_empty]
      cases fuel <;> rfl
  | cons node rest ih =>
      obtain ⟨rfl, later⟩ := segment
      rw [List.length_cons] at enough
      obtain ⟨fuel, rfl⟩ := Nat.exists_eq_add_one_of_ne_zero
        (Nat.ne_of_gt (Nat.lt_of_lt_of_le (Nat.succ_pos _) enough))
      obtain ⟨notAgain, distinctRest⟩ := List.nodup_cons.mp distinct
      have alive := allocated node List.mem_cons_self
      have freed : heap.free node = some { heap with live := heap.live.erase node } := if_pos alive
      have followed : heap.follow node = some (heap.next node) := if_pos alive
      rw [freeList, followed, Option.bind_some, freed, Option.bind_some,
        @ih { heap with live := heap.live.erase node } _ fuel later ?_
          (Nat.le_of_succ_le_succ enough) distinctRest]
      · rw [List.toFinset_cons, Finset.erase_sdiff_comm, Finset.sdiff_insert]
      · intro other member
        refine Finset.mem_erase.mpr ⟨?_, allocated other (List.mem_cons_of_mem node member)⟩
        rintro rfl
        exact notAgain member

end Reading

/-! ### Storing links -/

variable [DecidableEq Anchor]

def setHead (heap : NodeHeap Anchor Node Item) (anchor : Anchor) (value : Option Node) :
    NodeHeap Anchor Node Item :=
  { heap with head := Function.update heap.head anchor value }

/-- A store through a pointer to a link: the next field of a node, or the anchor. -/
def store (heap : NodeHeap Anchor Node Item) (anchor : Anchor) (value : Option Node) :
    Option Node → Option (NodeHeap Anchor Node Item)
  | none => some (heap.setHead anchor value)
  | some node => if node ∈ heap.live then some (heap.setNext node value) else none

def write (heap : NodeHeap Anchor Node Item) (anchor : Anchor) (value : Option Node) :
    Option Node → NodeHeap Anchor Node Item
  | none => heap.setHead anchor value
  | some node => heap.setNext node value

/-- `node->next = value`, then `node` stored through `link`. -/
def linkIn (heap : NodeHeap Anchor Node Item) (anchor : Anchor) (node : Node)
    (link value : Option Node) : Option (NodeHeap Anchor Node Item) :=
  (heap.store anchor value (some node)).bind fun heap => heap.store anchor (some node) link

/-- `before->next = node`, then `node->next = value`. -/
def linkAfter (heap : NodeHeap Anchor Node Item) (anchor : Anchor) (before node : Node)
    (value : Option Node) : Option (NodeHeap Anchor Node Item) :=
  (heap.store anchor (some node) (some before)).bind fun heap => heap.store anchor value (some node)

/-- A node behind the last one of the list, or as its first. -/
def append (heap : NodeHeap Anchor Node Item) (anchor : Anchor) (node : Node) :
    Option (NodeHeap Anchor Node Item) :=
  match heap.head anchor with
  | none => heap.store anchor (some node) none
  | some head =>
      (heap.lastNode heap.live.card head).bind fun last => heap.store anchor (some node) (some last)

/-- The heap has the nodes and the items of another one; links may differ. -/
structure SameNodes (heap other : NodeHeap Anchor Node Item) : Prop where
  live : heap.live = other.live
  item : heap.item = other.item

section Storing

variable {heap : NodeHeap Anchor Node Item} {base : Anchor → List Node} {anchor : Anchor}

theorem links_write_self (value link : Option Node) :
    (heap.write anchor value link).links anchor = (heap.links anchor).write value link := by
  cases link with
  | none => simp only [write, links, setHead, Links.write, Function.update_self]
  | some node => rfl

theorem links_write_of_ne {other : Anchor} (apart : other ≠ anchor) (value : Option Node)
    {link : Option Node} {nodes : List Node} (visits : (heap.links other).Visits nodes)
    (outside : ∀ node, link = some node → node ∉ nodes) :
    ((heap.write anchor value link).links other).Visits nodes := by
  cases link with
  | none =>
      have same : (heap.write anchor value none).links other = heap.links other := by
        simp only [write, links, setHead, Function.update_of_ne apart]
      rw [same]
      exact visits
  | some node => exact Links.Visits.write_outside visits (outside node rfl)

@[simp] theorem write_live (value link : Option Node) :
    (heap.write anchor value link).live = heap.live := by
  cases link <;> rfl

@[simp] theorem write_item (value link : Option Node) :
    (heap.write anchor value link).item = heap.item := by
  cases link <;> rfl

theorem write_next_of_ne {node : Node} {value link : Option Node} (apart : link ≠ some node) :
    (heap.write anchor value link).next node = heap.next node := by
  cases link with
  | none => rfl
  | some other =>
      apply Function.update_of_ne
      rintro rfl
      exact apart rfl

/-- The link behind a prefix of a list can be stored to. -/
theorem Keeps.store_getLast? {lists : Anchor → List Node} (keeps : heap.Keeps lists)
    {before dropped : List Node} (split : lists anchor = before ++ dropped)
    (value : Option Node) :
    heap.store anchor value before.getLast? = some (heap.write anchor value before.getLast?) := by
  cases last : before.getLast? with
  | none => rfl
  | some node =>
      refine if_pos (keeps.allocated anchor node ?_)
      rw [split]
      exact List.mem_append_left dropped (List.mem_of_getLast? last)

/-- A store through the link behind `before`, of a pointer that leads through `inserted`
to the end, makes the list `before ++ inserted`; the other lists stay. -/
theorem Keeps.redirect {before dropped inserted : List Node} {value : Option Node}
    (keeps : heap.Keeps (Function.update base anchor (before ++ dropped)))
    (leads : Segment heap.next value inserted none)
    (allocated : ∀ node ∈ inserted, node ∈ heap.live)
    (disjoint : ∀ node ∈ inserted, node ∉ before)
    (foreign : ∀ node ∈ inserted, ∀ other, other ≠ anchor → node ∉ base other) :
    (heap.write anchor value before.getLast?).Keeps
      (Function.update base anchor (before ++ inserted)) := by
  have atAnchor : Function.update base anchor (before ++ dropped) anchor = before ++ dropped :=
    Function.update_self _ _ _
  have others (other : Anchor) (apart : other ≠ anchor) :
      Function.update base anchor (before ++ dropped) other = base other :=
    Function.update_of_ne apart _ _
  have inPrefix (node : Node) (last : before.getLast? = some node) : node ∈ before :=
    List.mem_of_getLast? last
  have prefixForeign (node : Node) (member : node ∈ before) :
      ∀ other, other ≠ anchor → node ∉ base other :=
    keeps.foreign_of_mem (List.mem_append_left dropped member)
  refine ⟨fun other => ?_, fun other node member => ?_, keeps.apart.update ?_⟩
  · by_cases same : other = anchor
    · subst other
      rw [Function.update_self, links_write_self]
      have distinct := keeps.nodup anchor
      rw [atAnchor] at distinct
      obtain ⟨left, _⟩ := keeps.segment_of_split atAnchor
      refine segment_append.mpr ⟨value, ?_, ?_⟩
      · exact @Links.segment_write_getLast? _ (heap.links anchor) _ _ _ value
          (List.Nodup.of_append_left distinct) left
      · apply Segment.congr leads
        intro node member
        rw [← links_write_self]
        apply write_next_of_ne
        intro last
        exact disjoint node member (inPrefix node last)
    · rw [Function.update_of_ne same]
      have visits := keeps.visits other
      rw [others other same] at visits
      refine links_write_of_ne same value visits ?_
      intro node last
      exact prefixForeign node (inPrefix node last) other same
  · rw [write_live]
    by_cases same : other = anchor
    · subst other
      rw [Function.update_self] at member
      rcases List.mem_append.mp member with old | new
      · exact keeps.live_of_mem (List.mem_append_left dropped old)
      · exact allocated node new
    · rw [Function.update_of_ne same] at member
      apply keeps.allocated other
      rw [others other same]
      exact member
  · intro node member other apart
    rcases List.mem_append.mp member with old | new
    · exact prefixForeign node old other apart
    · exact foreign node new other apart

/-- A pointer that leads past nodes none of which is stored to leads on as before. -/
theorem segment_write {value link start : Option Node} {nodes : List Node}
    (leads : Segment heap.next start nodes none) (outside : ∀ node ∈ nodes, link ≠ some node) :
    Segment (heap.write anchor value link).next start nodes none :=
  leads.congr fun node member => write_next_of_ne (outside node member)

/-- A node with a null pointer becomes the end of the list, behind `before`. -/
theorem Keeps.attach {before dropped : List Node} {node : Node}
    (keeps : heap.Keeps (Function.update base anchor (before ++ dropped)))
    (null : heap.next node = none) (allocated : node ∈ heap.live) (outside : node ∉ before)
    (foreign : ∀ other, other ≠ anchor → node ∉ base other) :
    heap.store anchor (some node) before.getLast? =
        some (heap.write anchor (some node) before.getLast?) ∧
      (heap.write anchor (some node) before.getLast?).Keeps
        (Function.update base anchor (before ++ [node])) := by
  refine ⟨keeps.store_getLast? (Function.update_self _ _ _) (some node), ?_⟩
  refine keeps.redirect (segment_singleton.mpr ⟨rfl, null⟩) ?_ ?_ ?_
  · intro other member
    rw [List.mem_singleton.mp member]
    exact allocated
  · intro other member
    rw [List.mem_singleton.mp member]
    exact outside
  · intro other member
    rw [List.mem_singleton.mp member]
    exact foreign

theorem Keeps.append_eq {lists : Anchor → List Node} (keeps : heap.Keeps lists) (anchor : Anchor)
    (node : Node) :
    heap.append anchor node = heap.store anchor (some node) (lists anchor).getLast? := by
  rw [append, keeps.head_eq]
  cases entries : lists anchor with
  | nil => rfl
  | cons head rest =>
      have split : lists anchor = [] ++ head :: rest := entries
      have within := keeps.length_le anchor
      rw [entries, List.length_cons] at within
      rw [List.head?_cons]
      dsimp only
      rw [keeps.lastNode_eq split within, List.getLast?_cons]
      rfl

/-- A node is linked in front of the rest of the list; no link outside is stored to. -/
theorem Keeps.linkIn_eq {before after : List Node} {node : Node}
    (keeps : heap.Keeps (Function.update base anchor (before ++ after)))
    (allocated : node ∈ heap.live) (outside : node ∉ before ++ after)
    (foreign : ∀ other, other ≠ anchor → node ∉ base other) :
    ∃ linked, heap.linkIn anchor node before.getLast? after.head? = some linked ∧
      linked.Keeps (Function.update base anchor (before ++ node :: after)) ∧
      SameNodes linked heap ∧
      ∀ other, other ≠ node → other ∉ before → linked.next other = heap.next other := by
  have atAnchor : Function.update base anchor (before ++ after) anchor = before ++ after :=
    Function.update_self _ _ _
  have nowhere : Outside (Function.update base anchor (before ++ after)) node := by
    intro other
    by_cases same : other = anchor
    · subst other
      rw [atAnchor]
      exact outside
    · rw [Function.update_of_ne same]
      exact foreign other same
  have pointed : (heap.setNext node after.head?).Keeps _ :=
    keeps.setNext_outside after.head? nowhere
  obtain ⟨_, right⟩ := pointed.segment_of_split atAnchor
  have stored : heap.store anchor after.head? (some node) = some (heap.setNext node after.head?) :=
    if_pos allocated
  rw [linkIn, stored, Option.bind_some, pointed.store_getLast? atAnchor]
  refine ⟨_, rfl, pointed.redirect ⟨rfl, ?_⟩ ?_ ?_ ?_, ⟨write_live _ _, write_item _ _⟩, ?_⟩
  · rw [show (heap.setNext node after.head?).next node = after.head? from
      Function.update_self _ _ _]
    exact right
  · intro other member
    rcases List.mem_cons.mp member with rfl | behind
    · exact allocated
    · exact keeps.live_of_mem (List.mem_append_right before behind)
  · intro other member inBefore
    rcases List.mem_cons.mp member with rfl | behind
    · exact outside (List.mem_append_left after inBefore)
    · have distinct := keeps.nodup anchor
      rw [atAnchor] at distinct
      exact List.disjoint_of_nodup_append distinct inBefore behind
  · intro other member
    rcases List.mem_cons.mp member with rfl | behind
    · exact foreign
    · exact keeps.foreign_of_mem (List.mem_append_right before behind)
  · intro other apart notBefore
    rw [write_next_of_ne fun last => notBefore (List.mem_of_getLast? last)]
    exact Function.update_of_ne apart _ _

/-- The list up to `before` goes on with a node whose pointer was null and then with
the nodes that `rest` holds; what stood behind `before` is cut off. -/
theorem Keeps.linkAfter_eq {front dropped rest : List Node} {before node : Node}
    (keeps : heap.Keeps (Function.update base anchor (front ++ dropped)))
    (last : front.getLast? = some before) (null : heap.next node = none)
    (leads : Segment heap.next rest.head? rest none)
    (allocated : ∀ other ∈ node :: rest, other ∈ heap.live)
    (disjoint : ∀ other ∈ node :: rest, other ∉ front) (separate : node ∉ rest)
    (foreign : ∀ kept ∈ node :: rest, ∀ other, other ≠ anchor → kept ∉ base other) :
    ∃ linked, heap.linkAfter anchor before node rest.head? = some linked ∧
      linked.Keeps (Function.update base anchor (front ++ node :: rest)) ∧
      SameNodes linked heap := by
  have inFront : before ∈ front := List.mem_of_getLast? last
  obtain ⟨stored, attached⟩ := keeps.attach null (allocated node List.mem_cons_self)
    (disjoint node List.mem_cons_self) (foreign node List.mem_cons_self)
  rw [last] at stored attached
  have onward :
      Segment (heap.write anchor (some node) (some before)).next rest.head? rest none := by
    refine segment_write leads ?_
    intro other member same
    cases same
    exact disjoint before (List.mem_cons_of_mem node member) inFront
  have tail : (front ++ [node]).getLast? = some node := by
    rw [List.getLast?_append, List.getLast?_singleton, Option.some_or]
  rw [← List.append_nil (front ++ [node])] at attached
  have storable := attached.store_getLast? (Function.update_self _ _ _) rest.head?
  rw [tail] at storable
  rw [linkAfter, stored, Option.bind_some, storable]
  refine ⟨_, rfl, ?_, ?_⟩
  · have joined := attached.redirect onward ?_ ?_ ?_
    · rw [tail, List.append_assoc, List.singleton_append] at joined
      exact joined
    · intro other member
      rw [write_live]
      exact allocated other (List.mem_cons_of_mem node member)
    · intro other member inside
      rcases List.mem_append.mp inside with old | new
      · exact disjoint other (List.mem_cons_of_mem node member) old
      · rw [List.mem_singleton.mp new] at member
        exact separate member
    · exact fun kept member => foreign kept (List.mem_cons_of_mem node member)
  · exact ⟨(write_live _ _).trans (write_live _ _), (write_item _ _).trans (write_item _ _)⟩

/-- A list that loses its first node, which the heap frees. -/
theorem Keeps.pop {node : Node} {rest : List Node}
    (keeps : heap.Keeps (Function.update base anchor (node :: rest))) :
    (heap.setHead anchor rest.head?).Keeps (Function.update base anchor rest) ∧
      Outside (Function.update base anchor rest) node := by
  have atAnchor : Function.update base anchor (node :: rest) anchor = [] ++ node :: rest :=
    Function.update_self _ _ _
  have distinct := keeps.nodup anchor
  rw [atAnchor, List.nil_append, List.nodup_cons] at distinct
  refine ⟨?_, fun other => ?_⟩
  · obtain ⟨_, _, later⟩ := keeps.segment_of_split atAnchor
    rw [later.start_eq_head] at later
    refine @redirect _ _ _ _ _ _ base anchor [] (node :: rest) rest rest.head? keeps later ?_
      (fun kept _ => List.not_mem_nil) ?_
    · exact fun kept member => keeps.live_of_mem (List.mem_cons_of_mem node member)
    · exact fun kept member => keeps.foreign_of_mem (List.mem_cons_of_mem node member)
  · by_cases same : other = anchor
    · subst other
      rw [Function.update_self]
      exact distinct.1
    · rw [Function.update_of_ne same]
      exact keeps.foreign_of_mem List.mem_cons_self other same

/-- An anchor that goes away with its list, once the nodes are freed. -/
theorem Keeps.drop {nodes : List Node}
    (keeps : heap.Keeps (Function.update base anchor nodes)) :
    NodeHeap.Keeps { heap.setHead anchor none with live := heap.live \ nodes.toFinset }
      (Function.update base anchor []) := by
  have atAnchor : Function.update base anchor nodes anchor = nodes := Function.update_self _ _ _
  refine ⟨fun other => ?_, fun other node member => ?_, keeps.apart.update nofun⟩
  · by_cases same : other = anchor
    · subst other
      rw [Function.update_self]
      exact Function.update_self _ _ _
    · have visits : ((heap.write anchor none none).links other).Visits _ :=
        links_write_of_ne same none (keeps.visits other) nofun
      rw [Function.update_of_ne same] at visits
      rw [Function.update_of_ne same]
      exact visits
  · by_cases same : other = anchor
    · subst other
      rw [Function.update_self] at member
      cases member
    · have inOther : node ∈ Function.update base anchor nodes other := by
        rw [Function.update_of_ne same] at member ⊢
        exact member
      refine Finset.mem_sdiff.mpr ⟨keeps.allocated other node inOther, fun inNodes => ?_⟩
      have separate := keeps.apart anchor other (Ne.symm same) node
      rw [atAnchor] at separate
      exact separate (List.mem_toFinset.mp inNodes) inOther

end Storing

end NodeHeap

end Cab403.LinkedChain
