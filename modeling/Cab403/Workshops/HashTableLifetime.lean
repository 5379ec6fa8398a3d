/-
What the hash table of hashtable_search.c holds in memory. The array of buckets is one
block and each item another; `htab_destroy` frees them all. A free of what is not
allocated yields `none`, so a table that is destroyed has freed nothing twice. Additions
are under no condition on the keys here, so a bucket may hold a key more than once.
-/

import Cab403.Library.NodeHeap
import Cab403.Workshops.HashTable

namespace Cab403.Workshops.HashTable

open ActionRuns LinkedChain

section Code

variable {Address : Type*} [DecidableEq Address]

/-- `htab_init`, with the result of its `calloc`. -/
def htabInitAt (n : Nat) (array : Option Address) (memory : Table Address) :
    Bool × Table Address :=
  match array with
  | none => (false, htabInit n memory)
  | some array =>
      (true, { htabInit n memory with allocated := Function.update memory.allocated array true })

def Table.free (table : Table Address) (address : Address) : Option (Table Address) :=
  if table.allocated address then
    some { table with allocated := Function.update table.allocated address false }
  else none

/-- The inner loop of `htab_destroy`: the link is read before its item is freed. -/
def freeFrom (table : Table Address) : Nat → Option Address → Option (Table Address)
  | _, none => some table
  | 0, some _ => none
  | fuel + 1, some bucket =>
      let next := table.next bucket
      (table.free bucket).bind fun table => freeFrom table fuel next

def freeBuckets (fuel : Nat) : Table Address → List Nat → Option (Table Address)
  | table, [] => some table
  | table, i :: rest =>
      (freeFrom table fuel (table.buckets i)).bind fun table => freeBuckets fuel table rest

def htabDestroy (fuel : Nat) (table : Table Address) (array : Address) : Option (Table Address) :=
  (freeBuckets fuel table (List.range table.size)).bind fun emptied =>
    (emptied.free array).map fun freed => { freed with size := 0, buckets := fun _ => none }

/-- What `malloc` promises, whatever the caller of `htab_add` has made sure of. -/
def Supplied (table : Table Address) : Operation Address → Prop
  | .add _ _ newhead => ∀ item ∈ newhead, table.allocated item = false
  | .delete _ => True

instance (table : Table Address) : ∀ operation, Decidable (Supplied table operation)
  | .add _ _ newhead =>
      inferInstanceAs (Decidable (∀ item ∈ newhead, table.allocated item = false))
  | .delete _ => inferInstanceAs (Decidable True)

end Code

/-! ### The blocks of a table -/

section Blocks

variable {Address : Type*} [DecidableEq Address] {memory : Address → Bool} {table : Table Address}
  {chains : Nat → List Address} {items : Finset Address}

def heldWith (memory : Address → Bool) (items : Finset Address) (address : Address) : Bool :=
  memory address || decide (address ∈ items)

def Table.nodes (table : Table Address) (items : Finset Address) : NodeHeap Nat Address Unit :=
  { head := table.buckets
    next := table.next
    item := fun _ => ()
    live := items }

/-- Every item is in the list of a bucket, and nothing else was allocated. -/
structure Owns (memory : Address → Bool) (table : Table Address) (chains : Nat → List Address)
    (items : Finset Address) : Prop where
  lists : (table.nodes items).Keeps chains
  held : table.allocated = heldWith memory items
  apart : ∀ item ∈ items, memory item = false
  reached : ∀ item ∈ items, ∃ bucket < table.size, item ∈ chains bucket

theorem heldWith_insert (memory : Address → Bool) (items : Finset Address) (item : Address) :
    Function.update (heldWith memory items) item true = heldWith memory (insert item items) := by
  funext address
  unfold heldWith
  by_cases same : address = item
  · subst same
    rw [Function.update_self]
    simp
  · rw [Function.update_of_ne same]
    simp [same]

theorem heldWith_erase {item : Address} (free : memory item = false) (items : Finset Address) :
    Function.update (heldWith memory items) item false = heldWith memory (items.erase item) := by
  funext address
  unfold heldWith
  by_cases same : address = item
  · subst same
    rw [Function.update_self]
    simp [free]
  · rw [Function.update_of_ne same]
    simp [same]

theorem heldWith_empty (memory : Address → Bool) : heldWith memory ∅ = memory := by
  funext address
  simp [heldWith]

theorem Owns.fresh (owns : Owns memory table chains items) {address : Address}
    (free : table.allocated address = false) : address ∉ items ∧ memory address = false := by
  rw [owns.held, heldWith, Bool.or_eq_false_iff, decide_eq_false_iff_not] at free
  exact ⟨free.2, free.1⟩

theorem owns_htabInit (n : Nat) (allocated : Address → Bool) (memory : Table Address) :
    Owns allocated { htabInit n memory with allocated := allocated } (fun _ => []) ∅ where
  lists :=
    { visits := fun _ => rfl
      allocated := fun _ _ => nofun
      apart := fun _ _ _ _ => nofun }
  held := (heldWith_empty allocated).symm
  apart := fun _ member => absurd member (Finset.notMem_empty _)
  reached := fun _ member => absurd member (Finset.notMem_empty _)

/-! ### Additions and deletions -/

/-- The new item is allocated, pointed at the bucket's first item and stored as its first. -/
theorem push_nodes (table : Table Address) (key : Key) (value : Int) (newhead : Address)
    (items : Finset Address) :
    (table.push key value newhead).nodes (insert newhead items) =
      (((table.nodes items).malloc newhead ()).setNext newhead
        (table.buckets (htabIndex table key))).setHead (htabIndex table key) (some newhead) := by
  simp only [Table.nodes, Table.push, htabAdd, NodeHeap.malloc, NodeHeap.setNext,
    NodeHeap.setHead, Function.update_idem]

theorem Owns.push (owns : Owns memory table chains items) (key : Key) (value : Int)
    {newhead : Address} (free : table.allocated newhead = false) (inside : 0 < table.size) :
    Owns memory (table.push key value newhead) (pushed table chains key newhead)
      (insert newhead items) := by
  obtain ⟨new, unheld⟩ := owns.fresh free
  constructor
  case lists =>
    have outside := owns.lists.outside_of_fresh new
    have pointed := (owns.lists.malloc () new).setNext_outside
      (table.buckets (htabIndex table key)) outside
    have pointed' := pointed
    rw [← Function.update_eq_self (htabIndex table key) chains,
      ← List.nil_append (chains (htabIndex table key))] at pointed
    rw [push_nodes, pushed, ← List.nil_append (newhead :: _)]
    refine pointed.redirect ⟨rfl, ?_⟩ ?_ (fun _ _ => List.not_mem_nil) ?_
    · rw [show NodeHeap.next _ newhead = _ from Function.update_self _ _ _]
      exact pointed'.visits (htabIndex table key)
    · intro item member
      rcases List.mem_cons.mp member with rfl | behind
      · exact Finset.mem_insert_self _ _
      · exact Finset.mem_insert_of_mem (owns.lists.allocated _ item behind)
    · intro item member other different inOther
      rcases List.mem_cons.mp member with rfl | behind
      · exact outside other inOther
      · exact owns.lists.apart _ other different.symm item behind inOther
  case held =>
    change Function.update table.allocated newhead true = _
    rw [owns.held, heldWith_insert]
  case apart =>
    intro item member
    rcases Finset.mem_insert.mp member with rfl | old
    · exact unheld
    · exact owns.apart item old
  case reached =>
    intro item member
    rcases Finset.mem_insert.mp member with rfl | old
    · exact ⟨htabIndex table key, Nat.mod_lt _ inside, mem_pushed.mpr (Or.inl ⟨rfl, rfl⟩)⟩
    · obtain ⟨bucket, within, placed⟩ := owns.reached item old
      exact ⟨bucket, within, mem_pushed.mpr (Or.inr placed)⟩

/-- The unlinked item is freed after a store through the link to it. -/
theorem remove_nodes (table : Table Address) (key : Key) (previous : Option Address)
    (current : Address) (items : Finset Address) :
    (table.remove key previous current).nodes (items.erase current) =
      { (table.nodes items).write (htabIndex table key) (table.next current) previous with
        live := items.erase current } := by
  cases previous with
  | none => rfl
  | some previous => rfl

theorem remove_size (previous : Option Address) (key : Key) (current : Address) :
    (table.remove key previous current).size = table.size := by
  cases previous with
  | none => rfl
  | some previous => rfl

theorem Owns.remove (owns : Owns memory table chains items) {key : Key}
    {before after : List Address} {current : Address}
    (split : chains (htabIndex table key) = before ++ current :: after) :
    Owns memory (table.remove key before.getLast? current)
      (unlinked table chains key before after) (items.erase current) := by
  have whole : chains =
      Function.update chains (htabIndex table key) (before ++ current :: after) := by
    rw [← split, Function.update_eq_self]
  have here : current ∈ chains (htabIndex table key) := by
    rw [split]
    exact List.mem_append_right before List.mem_cons_self
  have distinct := owns.lists.nodup (htabIndex table key)
  rw [split] at distinct
  have elsewhere := (List.nodup_middle.mp distinct).notMem
  have outside : Outside (unlinked table chains key before after) current := by
    intro other member
    rw [unlinked] at member
    by_cases same : other = htabIndex table key
    · subst same
      rw [Function.update_self] at member
      exact elsewhere member
    · rw [Function.update_of_ne same] at member
      exact owns.lists.apart _ other (Ne.symm same) current here member
  constructor
  case lists =>
    have lists := owns.lists
    obtain ⟨_, _, leads⟩ := lists.segment_of_split split
    rw [whole] at lists
    rw [remove_nodes]
    have shorter := lists.redirect leads
      (fun item member => lists.live_of_mem
        (List.mem_append_right before (List.mem_cons_of_mem current member)))
      (fun item member inBefore => List.disjoint_of_nodup_append distinct inBefore
        (List.mem_cons_of_mem current member))
      (fun item member => lists.foreign_of_mem
        (List.mem_append_right before (List.mem_cons_of_mem current member)))
    have erased := shorter.erase_outside outside
    rw [NodeHeap.write_live] at erased
    exact erased
  case held =>
    rw [remove_allocated, owns.held, heldWith_erase]
    exact owns.apart current (owns.lists.allocated _ current here)
  case apart => exact fun item member => owns.apart item (Finset.mem_of_mem_erase member)
  case reached =>
    intro item member
    obtain ⟨other, old⟩ := Finset.mem_erase.mp member
    obtain ⟨bucket, within, placed⟩ := owns.reached item old
    refine ⟨bucket, Nat.lt_of_lt_of_eq within (remove_size _ _ _).symm, ?_⟩
    rw [unlinked]
    by_cases same : bucket = htabIndex table key
    · subst same
      rw [split, List.mem_append, List.mem_cons] at placed
      rw [Function.update_self, List.mem_append]
      tauto
    · rw [Function.update_of_ne same]
      exact placed

/-! ### Whole runs -/

theorem Owns.step {fuel : Nat} (owns : Owns memory table chains items) (inside : 0 < table.size)
    (enough : items.card < fuel) {operation : Operation Address}
    (supplied : Supplied table operation) :
    ∃ after chains' items', HashTable.step fuel table operation = some after ∧
      Owns memory after chains' items' ∧ after.size = table.size ∧
      items'.card ≤ items.card + 1 := by
  cases operation with
  | add key value newhead =>
      cases newhead with
      | none => exact ⟨table, chains, items, rfl, owns, rfl, Nat.le_succ _⟩
      | some newhead =>
          exact ⟨_, _, _, rfl, owns.push key value (supplied newhead rfl) inside, rfl,
            Finset.card_insert_le _ _⟩
  | delete key =>
      have short := Nat.lt_of_le_of_lt (owns.lists.length_le (htabIndex table key)) enough
      have walked := @deleteFrom_segment Address table key _ [] _ _ fuel
        (owns.lists.visits (htabIndex table key)) short
      rcases walked with ⟨_, same⟩ | ⟨before, current, rest, split, _, removed⟩
      · exact ⟨table, chains, items, same, owns, rfl, Nat.le_succ _⟩
      · exact ⟨_, _, _, removed, owns.remove split, remove_size _ _ _,
          Nat.le_succ_of_le (Finset.card_le_card (Finset.erase_subset _ _))⟩

theorem Owns.run {fuel : Nat} {operations : List (Operation Address)}
    (owns : Owns memory table chains items) (inside : 0 < table.size)
    (enough : items.card + operations.length ≤ fuel)
    (along : Along (HashTable.step fuel) Supplied table operations) :
    ∃ reached chains' items', ActionRuns.run (HashTable.step fuel) table operations = some reached ∧
      Owns memory reached chains' items' ∧ reached.size = table.size ∧
      items'.card ≤ items.card + operations.length := by
  induction operations generalizing table chains items with
  | nil => exact ⟨table, chains, items, rfl, owns, rfl, Nat.le_refl _⟩
  | cons operation rest ih =>
      rw [List.length_cons] at enough ⊢
      obtain ⟨next, nextChains, nextItems, taken, nextOwns, size, more⟩ :=
        owns.step inside (Nat.lt_of_lt_of_le (Nat.lt_add_of_pos_right (Nat.succ_pos _)) enough)
          along.head
      obtain ⟨reached, chains', items', ran, final, same, bound⟩ :=
        ih nextOwns (size ▸ inside) (by omega) (along.tail taken)
      exact ⟨reached, chains', items', run_cons_eq_some.mpr ⟨next, taken, ran⟩, final,
        same.trans size, by omega⟩

/-! ### The end -/

/-- The loop frees what the same loop over the lists does. -/
theorem freeFrom_of_freeList {start : Option Address} {fuel : Nat}
    {freed : NodeHeap Nat Address Unit} (apart : ∀ item ∈ items, memory item = false)
    (loop : (table.nodes items).freeList fuel start = some freed) :
    freeFrom { table with allocated := heldWith memory items } fuel start =
      some { table with allocated := heldWith memory freed.live } := by
  induction fuel generalizing start items with
  | zero =>
      cases start with
      | none =>
          cases loop
          rfl
      | some item => cases loop
  | succ fuel ih =>
      cases start with
      | none =>
          cases loop
          rfl
      | some item =>
          obtain ⟨next, followed, later⟩ := Option.bind_eq_some_iff.mp loop
          obtain ⟨erased, removed, later⟩ := Option.bind_eq_some_iff.mp later
          obtain ⟨live, rfl⟩ := of_guarded followed
          obtain ⟨_, rfl⟩ := of_guarded removed
          have held : heldWith memory items item = true := by
            have member : item ∈ items := live
            rw [heldWith, decide_eq_true member, Bool.or_true]
          rw [freeFrom, Table.free, if_pos held, Option.bind_some]
          dsimp only
          rw [heldWith_erase (apart item live)]
          exact ih (fun other member => apart other (Finset.mem_of_mem_erase member)) later

theorem freeBuckets_eq {fuel : Nat} {live : Finset Address} {buckets : List Nat}
    (lists : (table.nodes items).Keeps chains) (apart : ∀ item ∈ live, memory item = false)
    (enough : items.card ≤ fuel) (distinct : buckets.Nodup)
    (there : ∀ bucket ∈ buckets, ∀ item ∈ chains bucket, item ∈ live) :
    freeBuckets fuel { table with allocated := heldWith memory live } buckets =
      some { table with
        allocated := heldWith memory (live \ (buckets.flatMap chains).toFinset) } := by
  induction buckets generalizing live with
  | nil =>
      rw [List.flatMap_nil, List.toFinset_nil, Finset.sdiff_empty]
      rfl
  | cons bucket rest ih =>
      obtain ⟨notAgain, distinctRest⟩ := List.nodup_cons.mp distinct
      have freed : freeFrom { table with allocated := heldWith memory live } fuel
            (table.buckets bucket) =
          some { table with allocated := heldWith memory (live \ (chains bucket).toFinset) } :=
        freeFrom_of_freeList apart (@NodeHeap.freeList_eq _ _ _ _ (table.nodes live) _ _
          fuel (lists.visits bucket) (there bucket List.mem_cons_self)
          ((lists.length_le bucket).trans enough))
      have onward : ∀ other ∈ rest, ∀ item ∈ chains other,
          item ∈ live \ (chains bucket).toFinset := by
        intro other member item inOther
        refine Finset.mem_sdiff.mpr
          ⟨there other (List.mem_cons_of_mem bucket member) item inOther, fun again => ?_⟩
        have different : other ≠ bucket := fun same => notAgain (same ▸ member)
        exact lists.apart other bucket different item inOther (List.mem_toFinset.mp again)
      rw [freeBuckets, freed, Option.bind_some,
        ih (fun item member => apart item (Finset.mem_sdiff.mp member).1) distinctRest onward,
        List.flatMap_cons, List.toFinset_append, sdiff_sdiff_left, Finset.sup_eq_union]

theorem Owns.destroyed {fuel : Nat} {array : Address}
    (owns : Owns (Function.update memory array true) table chains items)
    (enough : items.card ≤ fuel) (unheld : memory array = false) :
    htabDestroy fuel table array =
      some { table with size := 0, buckets := fun _ => none, allocated := memory } := by
  have all : items \ ((List.range table.size).flatMap chains).toFinset = ∅ := by
    rw [Finset.sdiff_eq_empty_iff_subset]
    intro item member
    obtain ⟨bucket, inside, placed⟩ := owns.reached item member
    exact List.mem_toFinset.mpr
      (List.mem_flatMap.mpr ⟨bucket, List.mem_range.mpr inside, placed⟩)
  have emptied := freeBuckets_eq owns.lists owns.apart enough
    (List.nodup_range (n := table.size)) (fun bucket _ => owns.lists.allocated bucket)
  rw [← owns.held, all, heldWith_empty] at emptied
  have array_held : Function.update memory array true array = true := Function.update_self ..
  rw [htabDestroy, emptied, Option.bind_some, Table.free, if_pos array_held, Option.map_some]
  dsimp only
  rw [Function.update_idem, ← unheld, Function.update_eq_self]

structure Sound (memory : Address → Bool) (table : Table Address)
    (chains : Nat → List Address) : Prop where
  linked : ∀ bucket, Segment table.next (table.buckets bucket) (chains bucket) none
  apart : Apart chains
  held : ∀ address, table.allocated address = true ↔
    memory address = true ∨ ∃ bucket < table.size, address ∈ chains bucket
  own : ∀ bucket, ∀ item ∈ chains bucket, memory item = false

theorem Owns.sound (owns : Owns memory table chains items) : Sound memory table chains where
  linked := owns.lists.visits
  apart := owns.lists.apart
  held := by
    intro address
    rw [owns.held, heldWith, Bool.or_eq_true, decide_eq_true_eq]
    refine or_congr_right ⟨owns.reached address, ?_⟩
    rintro ⟨bucket, _, member⟩
    exact owns.lists.allocated bucket address member
  own := fun bucket item member => owns.apart item (owns.lists.allocated bucket item member)

/-- Whatever is added and deleted, the blocks allocated are those of before, the array and
the items in the buckets, and `htab_destroy` frees each of its own once. -/
theorem htabDestroy_releases {fuel n : Nat} (inside : 0 < n) {memory : Table Address}
    {array : Address} (unheld : memory.allocated array = false)
    {operations : List (Operation Address)} (enough : operations.length ≤ fuel)
    (supplied : Along (HashTable.step fuel) Supplied (htabInitAt n (some array) memory).2
      operations) :
    ∃ reached chains,
      run (HashTable.step fuel) (htabInitAt n (some array) memory).2 operations = some reached ∧
        Sound (Function.update memory.allocated array true) reached chains ∧
        ∃ released, htabDestroy fuel reached array = some released ∧
          released.size = 0 ∧ released.allocated = memory.allocated := by
  have first := owns_htabInit n (Function.update memory.allocated array true) memory
  obtain ⟨reached, chains, items, ran, owns, _, bound⟩ :=
    first.run inside (by rw [Finset.card_empty]; omega) supplied
  rw [Finset.card_empty] at bound
  exact ⟨reached, chains, ran, owns.sound, _, owns.destroyed (by omega) unheld, rfl, rfl⟩

end Blocks

/-- A key that is there already is added in front of itself, and its first item deleted. -/
def keyTwice : List (Operation Nat) :=
  [.add ada 1 (some 0), .add bob 2 (some 3), .add ada 4 (some 1), .delete ada, .add ada 5 none]

theorem htabDestroy_releases_keyTwice :
    ∃ reached chains, run (step 5) (htabInitAt 2 (some 9) freshMemory).2 keyTwice = some reached ∧
      Sound (Function.update freshMemory.allocated 9 true) reached chains ∧
      ∃ released, htabDestroy 5 reached 9 = some released ∧
        released.size = 0 ∧ released.allocated = freshMemory.allocated :=
  htabDestroy_releases (by decide) (by decide) (by decide) (by decide +kernel)

end Cab403.Workshops.HashTable
