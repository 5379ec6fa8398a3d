/-
The hash table of hashtable_search.c: an array of buckets, each a linked list of items
with a key of four characters. Items are addresses; `malloc` yields any address that is
not in use, also one that has been freed, or none. A walk along a bucket takes fuel,
one unit for each item and one for the end.
-/

import Cab403.Library.ActionRuns
import Cab403.Library.CText
import Cab403.Library.LinkedChain
import Mathlib.Algebra.Order.Ring.Int

namespace Cab403.Workshops.HashTable

open ActionRuns CText LinkedChain

abbrev Key := CharArray 3

structure Table (Address : Type*) where
  size : Nat
  buckets : Nat → Option Address
  key : Address → Vector UInt8 4
  value : Address → Int
  next : Address → Option Address
  allocated : Address → Bool

/-- `char` is signed. -/
def charValue (byte : UInt8) : Int :=
  if byte.toNat < 128 then byte.toNat else byte.toNat - 256

/-- `djb_hash`, with the arithmetic of a 64-bit `size_t`. -/
def djbHash (s : List UInt8) : Nat :=
  s.foldl (fun hash c => (((((hash <<< 5) + hash : Nat) : Int) + charValue c) % 2 ^ 64).toNat) 5381

section Code

variable {Address : Type*}

def htabIndex (table : Table Address) (key : Key) : Nat := djbHash key.text % table.size

def Table.HasKey (table : Table Address) (item : Address) (key : Key) : Prop :=
  stringAt (table.key item).toList = key.text

instance (table : Table Address) (item : Address) (key : Key) :
    Decidable (table.HasKey item key) :=
  inferInstanceAs (Decidable (_ = _))

def htabInit (n : Nat) (memory : Table Address) : Table Address :=
  { memory with size := n, buckets := fun _ => none }

/-- The loop of `htab_find`, `none` while it is not over. -/
def findFrom (table : Table Address) (key : Key) : Nat → Option Address → Option (Option Address)
  | 0, _ => none
  | _ + 1, none => some none
  | fuel + 1, some item =>
      if table.HasKey item key then some (some item)
      else findFrom table key fuel (table.next item)

def htabFind (fuel : Nat) (table : Table Address) (key : Key) : Option (Option Address) :=
  findFrom table key fuel (table.buckets (htabIndex table key))

variable [DecidableEq Address]

/-- `htab_add`, with the result of its `malloc`. -/
def htabAdd (table : Table Address) (key : Key) (value : Int) (newhead : Option Address) :
    Bool × Table Address :=
  match newhead with
  | none => (false, table)
  | some newhead =>
      let bucket := htabIndex table key
      (true, { table with
        key := Function.update table.key newhead (strncpy (table.key newhead) key.text 4)
        value := Function.update table.value newhead value
        next := Function.update table.next newhead (table.buckets bucket)
        buckets := Function.update table.buckets bucket (some newhead)
        allocated := Function.update table.allocated newhead true })

/-- The branch of `htab_delete` that has found the item: it is unlinked and freed. -/
def Table.remove (table : Table Address) (key : Key) (previous : Option Address)
    (current : Address) : Table Address :=
  match previous with
  | none =>
      { table with
        buckets := Function.update table.buckets (htabIndex table key) (table.next current)
        allocated := Function.update table.allocated current false }
  | some previous =>
      { table with
        next := Function.update table.next previous (table.next current)
        allocated := Function.update table.allocated current false }

/-- The loop of `htab_delete`, with `previous` and `current`. -/
def deleteFrom (table : Table Address) (key : Key) :
    Nat → Option Address → Option Address → Option (Table Address)
  | 0, _, _ => none
  | _ + 1, _, none => some table
  | fuel + 1, previous, some current =>
      if table.HasKey current key then some (table.remove key previous current)
      else deleteFrom table key fuel (some current) (table.next current)

def htabDelete (fuel : Nat) (table : Table Address) (key : Key) : Option (Table Address) :=
  deleteFrom table key fuel none (table.buckets (htabIndex table key))

end Code

inductive Operation (Address : Type*) where
  | add (key : Key) (value : Int) (newhead : Option Address)
  | delete (key : Key)

def step {Address : Type*} [DecidableEq Address] (fuel : Nat) (table : Table Address) :
    Operation Address → Option (Table Address)
  | .add key value newhead => some (htabAdd table key value newhead).2
  | .delete key => htabDelete fuel table key

/-- The map that the operations describe. An addition whose allocation fails does nothing. -/
def apply {Address : Type*} (map : Key → Option Int) : Operation Address → Key → Option Int
  | .add key value (some _) => fun other => if other = key then some value else map other
  | .add _ _ none => map
  | .delete key => fun other => if other = key then none else map other

/-- What the caller of `htab_add` has made sure of, and what `malloc` promises. -/
def Allowed {Address : Type*} (fuel : Nat) (table : Table Address) : Operation Address → Prop
  | .add key _ newhead =>
      htabFind fuel table key = some none ∧ ∀ item ∈ newhead, table.allocated item = false
  | .delete _ => True

instance {Address : Type*} [DecidableEq Address] (fuel : Nat) (table : Table Address) :
    ∀ operation, Decidable (Allowed fuel table operation)
  | .add key _ newhead =>
      inferInstanceAs (Decidable (htabFind fuel table key = some none ∧
        ∀ item ∈ newhead, table.allocated item = false))
  | .delete _ => inferInstanceAs (Decidable True)

/-! ### Walking along a bucket -/

section Walks

variable {Address : Type*} {table : Table Address} {key : Key}

theorem findFrom_segment {start : Option Address} {items : List Address} {fuel : Nat}
    (segment : Segment table.next start items none) (enough : items.length < fuel) :
    findFrom table key fuel start = some (items.find? fun item => table.HasKey item key) := by
  induction items generalizing start fuel with
  | nil =>
      obtain ⟨fuel, rfl⟩ := Nat.exists_eq_succ_of_ne_zero (Nat.ne_of_gt enough)
      rw [show start = none from segment]
      rfl
  | cons item items ih =>
      obtain ⟨fuel, rfl⟩ := Nat.exists_eq_succ_of_ne_zero (Nat.ne_of_gt (Nat.zero_lt_of_lt enough))
      obtain ⟨rfl, later⟩ := segment
      rw [List.length_cons] at enough
      rw [findFrom]
      by_cases found : table.HasKey item key
      · rw [if_pos found]
        simp [found]
      · rw [if_neg found, ih later (by omega)]
        simp [found]

variable [DecidableEq Address]

theorem deleteFrom_segment {passed items : List Address} {start : Option Address} {fuel : Nat}
    (segment : Segment table.next start items none) (enough : items.length < fuel) :
    ((∀ item ∈ items, ¬ table.HasKey item key) ∧
        deleteFrom table key fuel passed.getLast? start = some table) ∨
      ∃ before item after, items = before ++ item :: after ∧ table.HasKey item key ∧
        deleteFrom table key fuel passed.getLast? start =
          some (table.remove key (passed ++ before).getLast? item) := by
  induction items generalizing passed start fuel with
  | nil =>
      obtain ⟨fuel, rfl⟩ := Nat.exists_eq_succ_of_ne_zero (Nat.ne_of_gt enough)
      rw [show start = none from segment]
      exact Or.inl ⟨nofun, rfl⟩
  | cons item items ih =>
      obtain ⟨fuel, rfl⟩ := Nat.exists_eq_succ_of_ne_zero (Nat.ne_of_gt (Nat.zero_lt_of_lt enough))
      obtain ⟨rfl, later⟩ := segment
      rw [List.length_cons] at enough
      by_cases found : table.HasKey item key
      · refine Or.inr ⟨[], item, items, rfl, found, ?_⟩
        rw [deleteFrom, if_pos found, List.append_nil]
      · have last : (passed ++ [item]).getLast? = some item := List.getLast?_concat
        rw [deleteFrom, if_neg found, ← last]
        have shorter : items.length < fuel := by omega
        rcases ih later shorter with ⟨lacking, same⟩ | ⟨before, other, after, rfl, found, removed⟩
        · exact Or.inl ⟨List.forall_mem_cons.mpr ⟨found, lacking⟩, same⟩
        · refine Or.inr ⟨item :: before, other, after, rfl, found, ?_⟩
          rw [removed, List.append_assoc, List.singleton_append]

end Walks

/-! ### What a table holds -/

section Contents

variable {Address : Type*} {table : Table Address} {chains : Nat → List Address}
  {map : Key → Option Int}

/-- The items of each bucket, in its list, with the map they stand for. -/
structure Holds (table : Table Address) (chains : Nat → List Address) (map : Key → Option Int) :
    Prop where
  positive : 0 < table.size
  linked : ∀ bucket, Segment table.next (table.buckets bucket) (chains bucket) none
  placed : ∀ bucket, ∀ item ∈ chains bucket, ∃ key, table.HasKey item key ∧
    htabIndex table key = bucket
  used : ∀ bucket, ∀ item ∈ chains bucket, table.allocated item = true
  unique : ∀ bucket, ∀ item ∈ chains bucket, ∀ other ∈ chains bucket, ∀ key,
    table.HasKey item key → table.HasKey other key → item = other
  stored : ∀ key value, map key = some value ↔
    ∃ item ∈ chains (htabIndex table key), table.HasKey item key ∧ table.value item = value

theorem Table.HasKey.unique {item : Address} {key other : Key} (first : table.HasKey item key)
    (second : table.HasKey item other) : key = other :=
  CharArray.text_injective (first.symm.trans second)

theorem Holds.bucket_eq (holds : Holds table chains map) {bucket : Nat} {item : Address}
    {key : Key} (member : item ∈ chains bucket) (has : table.HasKey item key) :
    htabIndex table key = bucket := by
  obtain ⟨other, hasOther, index⟩ := holds.placed bucket item member
  rw [has.unique hasOther, index]

theorem Holds.find_eq (holds : Holds table chains map) {fuel : Nat} (key : Key)
    (enough : (chains (htabIndex table key)).length < fuel) :
    htabFind fuel table key =
      some ((chains (htabIndex table key)).find? fun item => table.HasKey item key) :=
  findFrom_segment (holds.linked _) enough

theorem Holds.none_iff (holds : Holds table chains map) {key : Key} :
    map key = none ↔ ∀ item ∈ chains (htabIndex table key), ¬ table.HasKey item key := by
  constructor
  · intro absent item member has
    have present := (holds.stored key (table.value item)).mpr ⟨item, member, has, rfl⟩
    rw [absent] at present
    cases present
  · intro absent
    cases found : map key with
    | none => rfl
    | some value =>
        obtain ⟨item, member, has, _⟩ := (holds.stored key value).mp found
        exact absurd has (absent item member)

section Adding

variable [DecidableEq Address] {key : Key} {value : Int} {newhead : Address}

def Table.push (table : Table Address) (key : Key) (value : Int) (newhead : Address) :
    Table Address :=
  (htabAdd table key value (some newhead)).2

theorem push_hasKey_new : (table.push key value newhead).HasKey newhead key := by
  change stringAt (Function.update table.key newhead _ newhead).toList = key.text
  rw [Function.update_self]
  have copied := stringAt_strncpy (table.key newhead) key.noNul
    (Nat.lt_succ_of_le key.fits) (Nat.le_refl 4) []
  rwa [List.append_nil] at copied

theorem push_hasKey_old {item : Address} (apart : item ≠ newhead) (other : Key) :
    (table.push key value newhead).HasKey item other ↔ table.HasKey item other := by
  change stringAt (Function.update table.key newhead _ item).toList = other.text ↔ _
  rw [Function.update_of_ne apart]
  rfl

def pushed (table : Table Address) (chains : Nat → List Address) (key : Key)
    (newhead : Address) : Nat → List Address :=
  Function.update chains (htabIndex table key) (newhead :: chains (htabIndex table key))

omit [DecidableEq Address] in
theorem mem_pushed {bucket : Nat} {item : Address} :
    item ∈ pushed table chains key newhead bucket ↔
      (bucket = htabIndex table key ∧ item = newhead) ∨ item ∈ chains bucket := by
  rw [pushed]
  by_cases same : bucket = htabIndex table key
  · subst same
    simp
  · simp [same]

omit [DecidableEq Address] in
theorem Holds.ne_fresh (holds : Holds table chains map) (fresh : table.allocated newhead = false)
    {bucket : Nat} {item : Address} (member : item ∈ chains bucket) : item ≠ newhead := by
  rintro rfl
  have used := holds.used bucket item member
  rw [fresh] at used
  cases used

theorem Holds.push_linked (holds : Holds table chains map)
    (fresh : table.allocated newhead = false) (bucket : Nat) :
    Segment (table.push key value newhead).next ((table.push key value newhead).buckets bucket)
      (pushed table chains key newhead bucket) none := by
  have segment (bucket : Nat) :
      Segment (table.push key value newhead).next (table.buckets bucket) (chains bucket) none :=
    (holds.linked bucket).congr fun item member =>
      Function.update_of_ne (holds.ne_fresh fresh member) _ _
  rw [pushed]
  by_cases same : bucket = htabIndex table key
  · subst same
    rw [Function.update_self]
    change Segment _ (Function.update table.buckets _ (some newhead) _) _ none
    rw [Function.update_self]
    refine ⟨rfl, ?_⟩
    change Segment _ (Function.update table.next newhead _ newhead) _ none
    rw [Function.update_self]
    exact segment _
  · rw [Function.update_of_ne same]
    change Segment _ (Function.update table.buckets _ (some newhead) _) _ none
    rw [Function.update_of_ne same]
    exact segment bucket

/-- An earlier item with the new key would have been found. -/
theorem Holds.push_lacks (holds : Holds table chains map)
    (fresh : table.allocated newhead = false) (absent : map key = none) {item : Address}
    (member : item ∈ chains (htabIndex table key)) :
    ¬ (table.push key value newhead).HasKey item key := fun has =>
  holds.none_iff.mp absent item member
    ((push_hasKey_old (holds.ne_fresh fresh member) key).mp has)

theorem Holds.push_unique (holds : Holds table chains map)
    (fresh : table.allocated newhead = false) (absent : map key = none) (bucket : Nat)
    (item : Address) (member : item ∈ pushed table chains key newhead bucket) (other : Address)
    (memberOther : other ∈ pushed table chains key newhead bucket) (sought : Key)
    (has : (table.push key value newhead).HasKey item sought)
    (hasOther : (table.push key value newhead).HasKey other sought) : item = other := by
  rcases mem_pushed.mp member with ⟨rfl, rfl⟩ | earlier
  · rcases mem_pushed.mp memberOther with ⟨_, rfl⟩ | earlierOther
    · rfl
    · rw [has.unique push_hasKey_new] at hasOther
      exact absurd hasOther (holds.push_lacks fresh absent earlierOther)
  · rcases mem_pushed.mp memberOther with ⟨rfl, rfl⟩ | earlierOther
    · rw [hasOther.unique push_hasKey_new] at has
      exact absurd has (holds.push_lacks fresh absent earlier)
    · exact holds.unique bucket item earlier other earlierOther sought
        ((push_hasKey_old (holds.ne_fresh fresh earlier) sought).mp has)
        ((push_hasKey_old (holds.ne_fresh fresh earlierOther) sought).mp hasOther)

theorem Holds.push_stored (holds : Holds table chains map)
    (fresh : table.allocated newhead = false) (absent : map key = none) (sought : Key)
    (found : Int) :
    (if sought = key then some value else map sought) = some found ↔
      ∃ item ∈ pushed table chains key newhead (htabIndex table sought),
        (table.push key value newhead).HasKey item sought ∧
          (table.push key value newhead).value item = found := by
  by_cases same : sought = key
  · subst same
    rw [if_pos rfl, Option.some.injEq]
    constructor
    · rintro rfl
      exact ⟨newhead, mem_pushed.mpr (Or.inl ⟨rfl, rfl⟩), push_hasKey_new,
        Function.update_self ..⟩
    · rintro ⟨item, member, has, rfl⟩
      rcases mem_pushed.mp member with ⟨_, rfl⟩ | earlier
      · exact (Function.update_self item value table.value).symm
      · exact absurd has (holds.push_lacks fresh absent earlier)
  · rw [if_neg same, holds.stored]
    refine exists_congr fun item => ?_
    constructor
    · rintro ⟨member, has, rfl⟩
      have old := holds.ne_fresh fresh member
      exact ⟨mem_pushed.mpr (Or.inr member), (push_hasKey_old old sought).mpr has,
        Function.update_of_ne old _ _⟩
    · rintro ⟨member, has, rfl⟩
      rcases mem_pushed.mp member with ⟨_, rfl⟩ | earlier
      · exact absurd (has.unique push_hasKey_new) same
      · have old := holds.ne_fresh fresh earlier
        exact ⟨earlier, (push_hasKey_old old sought).mp has,
          (Function.update_of_ne old _ _).symm⟩

theorem Holds.push (holds : Holds table chains map) (fresh : table.allocated newhead = false)
    (absent : map key = none) :
    Holds (table.push key value newhead) (pushed table chains key newhead)
      (apply map (Operation.add key value (some newhead))) := by
  constructor
  case positive => exact holds.positive
  case linked => exact holds.push_linked fresh
  case placed =>
    intro bucket item member
    rcases mem_pushed.mp member with ⟨rfl, rfl⟩ | earlier
    · exact ⟨key, push_hasKey_new, rfl⟩
    · obtain ⟨other, has, index⟩ := holds.placed bucket item earlier
      exact ⟨other, (push_hasKey_old (holds.ne_fresh fresh earlier) other).mpr has, index⟩
  case used =>
    intro bucket item member
    change Function.update table.allocated newhead true item = true
    rcases mem_pushed.mp member with ⟨rfl, rfl⟩ | earlier
    · rw [Function.update_self]
    · rw [Function.update_of_ne (holds.ne_fresh fresh earlier)]
      exact holds.used bucket item earlier
  case unique => exact holds.push_unique fresh absent
  case stored => exact holds.push_stored fresh absent

end Adding

section Deleting

variable [DecidableEq Address] {key : Key} {before after : List Address} {current : Address}

theorem remove_hasKey (previous : Option Address) (item : Address) (other : Key) :
    (table.remove key previous current).HasKey item other ↔ table.HasKey item other := by
  cases previous with
  | none => exact Iff.rfl
  | some previous => exact Iff.rfl

theorem remove_value (previous : Option Address) :
    (table.remove key previous current).value = table.value := by
  cases previous with
  | none => rfl
  | some previous => rfl

theorem remove_index (previous : Option Address) (other : Key) :
    htabIndex (table.remove key previous current) other = htabIndex table other := by
  cases previous with
  | none => rfl
  | some previous => rfl

theorem remove_allocated (previous : Option Address) :
    (table.remove key previous current).allocated =
      Function.update table.allocated current false := by
  cases previous with
  | none => rfl
  | some previous => rfl

/-- The bucket of the key is written through the link to the item. -/
theorem remove_links (previous : Option Address) :
    Links.mk ((table.remove key previous current).buckets (htabIndex table key))
        (table.remove key previous current).next =
      (Links.mk (table.buckets (htabIndex table key)) table.next).write (table.next current)
        previous := by
  cases previous with
  | none =>
      simp only [Table.remove, Links.write, Function.update_self]
  | some previous => rfl

theorem remove_buckets_of_ne {bucket : Nat} (other : bucket ≠ htabIndex table key)
    (previous : Option Address) :
    (table.remove key previous current).buckets bucket = table.buckets bucket := by
  cases previous with
  | none => exact Function.update_of_ne other _ _
  | some previous => rfl

theorem remove_next_of_ne {previous : Option Address} {item : Address}
    (other : previous ≠ some item) :
    (table.remove key previous current).next item = table.next item := by
  cases previous with
  | none => rfl
  | some previous => exact Function.update_of_ne (fun same => other (congrArg some same.symm)) _ _

/-- The lists of the buckets without the item, which was between `before` and `after`. -/
def unlinked (table : Table Address) (chains : Nat → List Address) (key : Key)
    (before after : List Address) : Nat → List Address :=
  Function.update chains (htabIndex table key) (before ++ after)

omit [DecidableEq Address] in
theorem Holds.mem_unlinked (holds : Holds table chains map)
    (split : chains (htabIndex table key) = before ++ current :: after)
    (has : table.HasKey current key) {bucket : Nat} {item : Address} :
    item ∈ unlinked table chains key before after bucket ↔
      item ∈ chains bucket ∧ item ≠ current := by
  have distinct : (before ++ current :: after).Nodup := split ▸ (holds.linked _).nodup
  have apart : current ∉ before ++ after := (List.nodup_middle.mp distinct).notMem
  rw [unlinked]
  by_cases same : bucket = htabIndex table key
  · subst same
    rw [Function.update_self, split, List.perm_middle.mem_iff, List.mem_cons]
    constructor
    · intro member
      exact ⟨Or.inr member, fun same => apart (same ▸ member)⟩
    · rintro ⟨same | member, other⟩
      · exact absurd same other
      · exact member
  · rw [Function.update_of_ne same]
    refine ⟨fun member => ⟨member, ?_⟩, And.left⟩
    rintro rfl
    exact same (holds.bucket_eq member has).symm

theorem Holds.remove_linked (holds : Holds table chains map)
    (split : chains (htabIndex table key) = before ++ current :: after) (bucket : Nat) :
    Segment (table.remove key before.getLast? current).next
      ((table.remove key before.getLast? current).buckets bucket)
      (unlinked table chains key before after bucket) none := by
  rw [unlinked]
  by_cases same : bucket = htabIndex table key
  · subst same
    have visits : (Links.mk (table.buckets (htabIndex table key)) table.next).Visits
        (before ++ current :: after) := split ▸ holds.linked (htabIndex table key)
    have shorter := visits.unlink (split ▸ (holds.linked _).nodup)
    rw [← remove_links] at shorter
    rw [Function.update_self]
    exact shorter
  · rw [Function.update_of_ne same, remove_buckets_of_ne same]
    -- The item whose link is written is in the key's bucket, hence in no other.
    refine (holds.linked bucket).congr fun item member => remove_next_of_ne fun last => ?_
    have earlier : item ∈ chains (htabIndex table key) := by
      rw [split]
      exact List.mem_append_left _ (List.mem_of_getLast? last)
    obtain ⟨other, hasOther, index⟩ := holds.placed bucket item member
    exact same (index.symm.trans (holds.bucket_eq earlier hasOther))

omit [DecidableEq Address] in
theorem Holds.remove_stored (holds : Holds table chains map)
    (split : chains (htabIndex table key) = before ++ current :: after)
    (has : table.HasKey current key) (sought : Key) (found : Int) :
    (if sought = key then none else map sought) = some found ↔
      ∃ item ∈ unlinked table chains key before after (htabIndex table sought),
        table.HasKey item sought ∧ table.value item = found := by
  by_cases same : sought = key
  · subst same
    have here : current ∈ chains (htabIndex table sought) := by
      rw [split]
      exact List.mem_append_right before List.mem_cons_self
    rw [if_pos rfl]
    refine ⟨nofun, ?_⟩
    rintro ⟨item, member, hasItem, _⟩
    obtain ⟨earlier, other⟩ := (holds.mem_unlinked split has).mp member
    exact absurd (holds.unique _ item earlier current here sought hasItem has) other
  · rw [if_neg same, holds.stored]
    refine exists_congr fun item => ?_
    rw [holds.mem_unlinked split has]
    constructor
    · rintro ⟨member, hasItem, stored⟩
      refine ⟨⟨member, ?_⟩, hasItem, stored⟩
      rintro rfl
      exact same (hasItem.unique has)
    · rintro ⟨⟨member, _⟩, hasItem, stored⟩
      exact ⟨member, hasItem, stored⟩

theorem Holds.remove (holds : Holds table chains map)
    (split : chains (htabIndex table key) = before ++ current :: after)
    (has : table.HasKey current key) :
    Holds (table.remove key before.getLast? current) (unlinked table chains key before after)
      (apply map (Operation.delete key : Operation Address)) := by
  constructor
  case positive =>
    have positive := holds.positive
    cases before.getLast? with
    | none => exact positive
    | some previous => exact positive
  case linked => exact holds.remove_linked split
  case placed =>
    intro bucket item member
    obtain ⟨other, hasOther, index⟩ :=
      holds.placed bucket item ((holds.mem_unlinked split has).mp member).1
    exact ⟨other, (remove_hasKey _ item other).mpr hasOther, (remove_index _ other).trans index⟩
  case used =>
    intro bucket item member
    obtain ⟨earlier, other⟩ := (holds.mem_unlinked split has).mp member
    rw [remove_allocated, Function.update_of_ne other]
    exact holds.used bucket item earlier
  case unique =>
    intro bucket item member other memberOther sought hasItem hasOther
    exact holds.unique bucket item ((holds.mem_unlinked split has).mp member).1 other
      ((holds.mem_unlinked split has).mp memberOther).1 sought
      ((remove_hasKey _ item sought).mp hasItem) ((remove_hasKey _ other sought).mp hasOther)
  case stored =>
    intro sought found
    rw [remove_index, remove_value]
    simp only [remove_hasKey]
    exact holds.remove_stored split has sought found

omit [DecidableEq Address] in
theorem find_after_unlink {other : Key} (lacks : ¬ table.HasKey current other) :
    ((before ++ after).find? fun item => table.HasKey item other) =
      (before ++ current :: after).find? fun item => table.HasKey item other := by
  rw [List.find?_append, List.find?_append, List.find?_cons_of_neg]
  simpa using lacks

structure Deleted (fuel : Nat) (table after : Table Address) (key : Key) : Prop where
  gone : htabFind fuel after key = some none
  others : ∀ other, other ≠ key → htabFind fuel after other = htabFind fuel table other
  values : after.value = table.value

theorem Holds.delete {fuel bound : Nat} (holds : Holds table chains map)
    (short : ∀ bucket, (chains bucket).length ≤ bound) (enough : bound < fuel) (key : Key) :
    ∃ after, htabDelete fuel table key = some after ∧ Deleted fuel table after key ∧
      ∃ chains', Holds after chains' (apply map (Operation.delete key : Operation Address)) ∧
        ∀ bucket, (chains' bucket).length ≤ bound := by
  have walked := @deleteFrom_segment Address table key _ [] _ _ fuel
    (holds.linked (htabIndex table key)) (Nat.lt_of_le_of_lt (short _) enough)
  rcases walked with ⟨absent, same⟩ | ⟨before, current, after, split, has, removed⟩
  · have unchanged : apply map (Operation.delete key : Operation Address) = map := by
      funext other
      change (if other = key then none else map other) = map other
      by_cases same : other = key
      · rw [if_pos same, same, holds.none_iff.mpr absent]
      · rw [if_neg same]
    refine ⟨table, same, ⟨?_, fun other _ => rfl, rfl⟩, chains, unchanged.symm ▸ holds, short⟩
    rw [holds.find_eq key (Nat.lt_of_le_of_lt (short _) enough), List.find?_eq_none.mpr]
    intro item member
    simpa using absent item member
  · have kept := holds.remove split has
    have shorter (bucket : Nat) :
        (unlinked table chains key before after bucket).length ≤ bound := by
      have bounded := short bucket
      rw [unlinked]
      by_cases same : bucket = htabIndex table key
      · subst same
        rw [split] at bounded
        rw [Function.update_self]
        simp only [List.length_append, List.length_cons] at bounded ⊢
        omega
      · rwa [Function.update_of_ne same]
    have found (other : Key) := kept.find_eq other (Nat.lt_of_le_of_lt (shorter _) enough)
    refine ⟨_, removed, ⟨?_, fun other apart => ?_, remove_value _⟩, _, kept, shorter⟩
    · rw [List.nil_append, found, List.find?_eq_none.mpr]
      have absent : apply map (Operation.delete key : Operation Address) key = none := if_pos rfl
      intro item member
      simpa using kept.none_iff.mp absent item member
    · rw [List.nil_append, found, holds.find_eq other (Nat.lt_of_le_of_lt (short _) enough),
        remove_index]
      simp only [remove_hasKey, unlinked]
      by_cases same : htabIndex table other = htabIndex table key
      · rw [same, Function.update_self, split,
          find_after_unlink fun hasOther => apart (hasOther.unique has)]
      · rw [Function.update_of_ne same]

end Deleting

theorem Holds.found_iff (holds : Holds table chains map) {fuel : Nat} {key : Key} {value : Int}
    (enough : (chains (htabIndex table key)).length < fuel) :
    map key = some value ↔
      ∃ item, htabFind fuel table key = some (some item) ∧ table.HasKey item key ∧
        table.value item = value := by
  rw [holds.find_eq key enough, holds.stored]
  constructor
  · rintro ⟨item, member, has, stored⟩
    cases first : (chains (htabIndex table key)).find? fun item => table.HasKey item key with
    | none => exact absurd (decide_eq_true has) (List.find?_eq_none.mp first item member)
    | some other =>
        have hasOther : table.HasKey other key := by simpa using List.find?_some first
        have same := holds.unique _ item member other (List.mem_of_find?_eq_some first) key has
          hasOther
        exact ⟨other, rfl, hasOther, same ▸ stored⟩
  · rintro ⟨item, first, has, stored⟩
    exact ⟨item, List.mem_of_find?_eq_some (Option.some.inj first), has, stored⟩

theorem Holds.absent_iff (holds : Holds table chains map) {fuel : Nat} {key : Key}
    (enough : (chains (htabIndex table key)).length < fuel) :
    map key = none ↔ htabFind fuel table key = some none := by
  rw [holds.find_eq key enough, holds.none_iff, Option.some.injEq, List.find?_eq_none]
  simp only [decide_eq_true_eq]

theorem holds_htabInit {n : Nat} (positive : 0 < n) (memory : Table Address) :
    Holds (htabInit n memory) (fun _ => []) (fun _ => none) where
  positive := positive
  linked := fun _ => rfl
  placed := fun _ _ => nofun
  used := fun _ _ => nofun
  unique := fun _ _ => nofun
  stored := fun _ _ => ⟨nofun, fun ⟨_, member, _⟩ => nomatch member⟩

end Contents

/-! ### Runs -/

section Runs

variable {Address : Type*} [DecidableEq Address] {fuel : Nat} {table : Table Address}
  {chains : Nat → List Address} {map : Key → Option Int}

theorem Holds.step {bound : Nat} (holds : Holds table chains map)
    (short : ∀ bucket, (chains bucket).length ≤ bound) (enough : bound < fuel)
    {operation : Operation Address} (allowed : Allowed fuel table operation) :
    ∃ after, HashTable.step fuel table operation = some after ∧
      ∃ chains', Holds after chains' (apply map operation) ∧
        ∀ bucket, (chains' bucket).length ≤ bound + 1 := by
  cases operation with
  | add key value newhead =>
      obtain ⟨missing, fresh⟩ := allowed
      cases newhead with
      | none => exact ⟨table, rfl, chains, holds, fun bucket => Nat.le_succ_of_le (short bucket)⟩
      | some newhead =>
          have absent := (holds.absent_iff (Nat.lt_of_le_of_lt (short _) enough)).mpr missing
          refine ⟨_, rfl, _, holds.push (fresh newhead rfl) absent, fun bucket => ?_⟩
          have bounded := short bucket
          rw [pushed]
          by_cases same : bucket = htabIndex table key
          · subst same
            rw [Function.update_self, List.length_cons]
            omega
          · rw [Function.update_of_ne same]
            omega
  | delete key =>
      obtain ⟨after, deleted, _, chains', kept, shorter⟩ := holds.delete short enough key
      exact ⟨after, deleted, chains', kept, fun bucket => Nat.le_succ_of_le (shorter bucket)⟩

theorem Holds.run {bound : Nat} (holds : Holds table chains map)
    (short : ∀ bucket, (chains bucket).length ≤ bound) {operations : List (Operation Address)}
    (enough : bound + operations.length ≤ fuel)
    (along : Along (HashTable.step fuel) (Allowed fuel) table operations) :
    ∃ reached, ActionRuns.run (HashTable.step fuel) table operations = some reached ∧
      ∃ chains', Holds reached chains' (operations.foldl apply map) ∧
        ∀ bucket, (chains' bucket).length ≤ bound + operations.length := by
  induction operations generalizing table chains map bound with
  | nil => exact ⟨table, rfl, chains, holds, short⟩
  | cons operation rest ih =>
      rw [List.length_cons] at enough ⊢
      obtain ⟨next, taken, chains', kept, shorter⟩ := holds.step short (by omega) along.head
      obtain ⟨reached, ran, last, final, bounded⟩ :=
        ih kept shorter (by omega) (along.tail taken)
      refine ⟨reached, run_cons_eq_some.mpr ⟨next, taken, ran⟩, last, final, fun bucket => ?_⟩
      have length := bounded bucket
      omega

/-- The lists of the buckets, each item where its key hashes to and no key twice. -/
structure Placed (table : Table Address) (chains : Nat → List Address) : Prop where
  inRange : ∀ key, htabIndex table key < table.size
  linked : ∀ bucket, Segment table.next (table.buckets bucket) (chains bucket) none
  hashed : ∀ bucket, ∀ item ∈ chains bucket, ∃ key, table.HasKey item key ∧
    htabIndex table key = bucket
  once : ∀ key bucket other, ∀ item ∈ chains bucket, ∀ item' ∈ chains other,
    table.HasKey item key → table.HasKey item' key → bucket = other ∧ item = item'

structure IsMap (fuel : Nat) (table : Table Address) (map : Key → Option Int) : Prop where
  found : ∀ key value, map key = some value ↔
    ∃ item, htabFind fuel table key = some (some item) ∧ table.HasKey item key ∧
      table.value item = value
  absent : ∀ key, map key = none ↔ htabFind fuel table key = some none
  placed : ∃ chains, Placed table chains
  deletes : ∀ key, ∃ after, htabDelete fuel table key = some after ∧
    Deleted fuel table after key
  failedAdd : ∀ key value, htabAdd table key value none = (false, table)

theorem Holds.isMap (holds : Holds table chains map)
    (short : ∀ bucket, (chains bucket).length < fuel) : IsMap fuel table map := by
  have positive : 0 < fuel := Nat.zero_lt_of_lt (short 0)
  constructor
  case found => exact fun key value => holds.found_iff (short _)
  case absent => exact fun key => holds.absent_iff (short _)
  case placed =>
    refine ⟨chains, fun key => Nat.mod_lt _ holds.positive, holds.linked, holds.placed, ?_⟩
    intro key bucket other item member item' member' has has'
    obtain rfl := holds.bucket_eq member has
    obtain rfl := holds.bucket_eq member' has'
    exact ⟨rfl, holds.unique _ item member item' member' key has has'⟩
  case deletes =>
    intro key
    obtain ⟨after, deleted, effect, _⟩ :=
      holds.delete (fun bucket => Nat.le_sub_one_of_lt (short bucket))
        (Nat.sub_one_lt_of_lt positive) key
    exact ⟨after, deleted, effect⟩
  case failedAdd => exact fun key value => rfl

theorem hashTable_isMap (n : Nat) (positive : 0 < n) (memory : Table Address)
    (operations : List (Operation Address)) (enough : operations.length < fuel)
    (along : Along (HashTable.step fuel) (Allowed fuel) (htabInit n memory) operations) :
    ∃ reached, run (HashTable.step fuel) (htabInit n memory) operations = some reached ∧
      IsMap fuel reached (operations.foldl apply fun _ => none) := by
  obtain ⟨reached, ran, chains, holds, short⟩ :=
    (holds_htabInit positive memory).run (fun _ => Nat.le_of_eq List.length_nil) (by omega) along
  refine ⟨reached, ran, holds.isMap fun bucket => ?_⟩
  have bounded := short bucket
  omega

end Runs

def ada : Key :=
  { text := bytes "ada"
    noNul := by decide
    fits := by decide }

def bob : Key :=
  { text := bytes "bob"
    noNul := by decide
    fits := by decide }

/-- An item is deleted from the end of the only list, and its address serves again after
an allocation that fails. -/
def addressReused : List (Operation Nat) :=
  [.add ada 1 (some 0), .add bob 2 (some 1), .delete ada, .add ada 3 none, .add ada 4 (some 0)]

def freshMemory : Table Nat :=
  { size := 0
    buckets := fun _ => none
    key := fun _ => Vector.replicate 4 255
    value := fun _ => 0
    next := fun _ => none
    allocated := fun item => item == 7 }

theorem hashTable_isMap_addressReused :
    ∃ reached, run (step 6) (htabInit 1 freshMemory) addressReused = some reached ∧
      IsMap 6 reached (addressReused.foldl apply fun _ => none) :=
  hashTable_isMap 1 (by decide) freshMemory addressReused (by decide) (by decide +kernel)

end Cab403.Workshops.HashTable
