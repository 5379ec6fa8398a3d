/-
The program hashtable_search.c as a whole. `main` adds items under keys that it counts up,
each with a value that `rand` draws, looks for a value in parallel, and destroys the table.
It ignores what `htab_add` returns.
-/

import Cab403.Workshops.HashTableLifetime
import Cab403.Workshops.ParallelSearch

namespace Cab403.Workshops.HashTable

open ActionRuns CText ParallelSearch

structure Draw (Address : Type*) where
  rand : Nat
  newhead : Option Address

section Code

variable {Address : Type*}

def keyLetter (n : Nat) : UInt8 := UInt8.ofNat (n % 26 + 65)

theorem keyLetter_toNat (n : Nat) : (keyLetter n).toNat = n % 26 + 65 := by
  have small := Nat.mod_lt n (show 26 > 0 by decide)
  rw [keyLetter, UInt8.toNat_ofNat', Nat.mod_eq_of_lt (by omega)]

theorem keyLetter_ne_zero (n : Nat) : (0 : UInt8) ≠ keyLetter n := by
  intro same
  have value := keyLetter_toNat n
  rw [← same] at value
  exact absurd value (Nat.ne_of_lt (Nat.succ_pos _))

def keyAt (i : Nat) : Key :=
  { text := [keyLetter i, keyLetter (i / 26), keyLetter (i / 676)]
    noNul := by simp only [List.mem_cons, List.not_mem_nil, keyLetter_ne_zero, or_self,
      not_false_eq_true]
    fits := Nat.le_refl 3 }

def keyCount : Nat := 26 ^ 3

def Draw.value (draw : Draw Address) : Int := ((draw.rand % 100 : Nat) : Int)

def Draw.operation (draw : Draw Address) (i : Nat) : Operation Address :=
  .add (keyAt i) draw.value draw.newhead

def additions : Nat → List (Draw Address) → List (Operation Address)
  | _, [] => []
  | i, draw :: rest => draw.operation i :: additions (i + 1) rest

theorem additions_length (i : Nat) (draws : List (Draw Address)) :
    (additions i draws).length = draws.length := by
  induction draws generalizing i with
  | nil => rfl
  | cons draw rest ih => rw [additions, List.length_cons, ih, List.length_cons]

end Code

/-! ### The keys -/

section Keys

variable {Address : Type*}

theorem keyAt_injective {i j : Nat} (first : i < keyCount) (second : j < keyCount)
    (same : keyAt i = keyAt j) : i = j := by
  have texts : [keyLetter i, keyLetter (i / 26), keyLetter (i / 676)] =
      [keyLetter j, keyLetter (j / 26), keyLetter (j / 676)] := congrArg CharArray.text same
  have letters (n m : Nat) (equal : keyLetter n = keyLetter m) : n % 26 = m % 26 := by
    have values := congrArg UInt8.toNat equal
    rw [keyLetter_toNat, keyLetter_toNat] at values
    exact Nat.add_right_cancel values
  simp only [List.cons.injEq, and_true] at texts
  obtain ⟨low, middle, high⟩ := texts
  have lowest := letters _ _ low
  have between := letters _ _ middle
  have highest := letters _ _ high
  unfold keyCount at first second
  omega

def Ahead (i : Nat) (map : Key → Option Int) : Prop :=
  ∀ j, i ≤ j → j < keyCount → map (keyAt j) = none

theorem Ahead.operation {i : Nat} {map : Key → Option Int} (ahead : Ahead i map)
    (inside : i < keyCount) (draw : Draw Address) :
    Ahead (i + 1) (apply map (draw.operation i)) := by
  intro j later few
  have other : keyAt j ≠ keyAt i := fun same => by
    have equal := keyAt_injective few inside same
    omega
  have before := ahead j (by omega) few
  unfold Draw.operation
  cases draw.newhead with
  | none => exact before
  | some newhead =>
      change (if keyAt j = keyAt i then some draw.value else map (keyAt j)) = none
      rw [if_neg other, before]

/-- The numbers of the turns that have stored the value. -/
def storedBy (search : Int) (draws : List (Draw Address)) (i : Nat) : List Nat :=
  ((draws.zipIdx i).filter fun turn => turn.1.newhead.isSome ∧ turn.1.value = search).map Prod.snd

theorem storedBy_cons (search : Int) (draw : Draw Address) (rest : List (Draw Address))
    (i : Nat) :
    storedBy search (draw :: rest) i =
      (if draw.newhead.isSome ∧ draw.value = search then [i] else []) ++
        storedBy search rest (i + 1) := by
  unfold storedBy
  rw [List.zipIdx_cons]
  by_cases stored : draw.newhead.isSome ∧ draw.value = search
  · rw [if_pos stored, List.filter_cons_of_pos (by simpa using stored)]
    rfl
  · rw [if_neg stored, List.filter_cons_of_neg (by simpa using stored)]
    rfl

theorem storedBy_nodup (search : Int) (draws : List (Draw Address)) (i : Nat) :
    (storedBy search draws i).Nodup := by
  have distinct : ((draws.zipIdx i).map Prod.snd).Nodup := by
    rw [List.zipIdx_map_snd]
    exact List.nodup_range'
  exact distinct.sublist (List.filter_sublist.map Prod.snd)

theorem storedBy_bounds {search : Int} {draws : List (Draw Address)} {i j : Nat}
    (member : j ∈ storedBy search draws i) : i ≤ j ∧ j < i + draws.length := by
  obtain ⟨turn, kept, rfl⟩ := List.mem_map.mp member
  have inside := List.mem_of_mem_filter kept
  exact ⟨List.le_snd_of_mem_zipIdx inside, List.snd_lt_add_of_mem_zipIdx inside⟩

/-- What the map holds after the additions. -/
theorem additions_stored {draws : List (Draw Address)} {i : Nat} {map : Key → Option Int}
    (ahead : Ahead i map) (few : i + draws.length ≤ keyCount) (key : Key) (value : Int) :
    (additions i draws).foldl apply map key = some value ↔
      map key = some value ∨ ∃ j ∈ storedBy value draws i, keyAt j = key := by
  induction draws generalizing i map with
  | nil => simp [additions, storedBy]
  | cons draw rest ih =>
      rw [List.length_cons] at few
      have inside : i < keyCount := by omega
      rw [additions, List.foldl_cons, ih (ahead.operation inside draw) (by omega), storedBy_cons]
      have here : apply map (draw.operation i) key = some value ↔
          map key = some value ∨
            (draw.newhead.isSome ∧ draw.value = value) ∧ keyAt i = key := by
        unfold Draw.operation
        cases draw.newhead with
        | none => simp [apply]
        | some newhead =>
            change (if key = keyAt i then some draw.value else map key) = some value ↔ _
            by_cases same : key = keyAt i
            · rw [if_pos same, same, ahead i (Nat.le_refl i) inside]
              simp
            · rw [if_neg same]
              simp [Ne.symm same]
      rw [here]
      by_cases stored : draw.newhead.isSome ∧ draw.value = value
      · simp [stored, or_assoc]
      · simp [stored]

end Keys

/-! ### What the search prints -/

section Printing

variable {Address : Type*} {table : Table Address} {chains : Nat → List Address}
  {map : Key → Option Int}

theorem mem_allItems {item : Address} :
    item ∈ allItems table chains ↔ ∃ bucket < table.size, item ∈ chains bucket := by
  simp only [allItems, between, List.mem_flatMap, List.mem_range'_1, Nat.zero_le, true_and,
    Nat.sub_zero, Nat.zero_add]

theorem Holds.allItems_nodup (holds : Holds table chains map) :
    (allItems table chains).Nodup := by
  rw [allItems, between, List.nodup_flatMap]
  constructor
  · exact fun bucket _ => (holds.linked bucket).nodup
  · have distinct : (List.range' 0 (table.size - 0)).Nodup := List.nodup_range'
    refine List.Pairwise.imp (fun {left right} different => ?_) distinct
    intro item inLeft inRight
    obtain ⟨key, has, index⟩ := holds.placed left item inLeft
    exact different (index.symm.trans (holds.bucket_eq inRight has))

theorem Holds.matching_nodup (holds : Holds table chains map) (search : Int) :
    (matching table search (allItems table chains)).Nodup := by
  refine (holds.allItems_nodup.filter _).map_on fun item member other memberOther same => ?_
  obtain ⟨bucket, _, placed⟩ := mem_allItems.mp (List.mem_of_mem_filter member)
  obtain ⟨otherBucket, _, otherPlaced⟩ := mem_allItems.mp (List.mem_of_mem_filter memberOther)
  obtain ⟨key, has, index⟩ := holds.placed bucket item placed
  have hasOther : table.HasKey other key := same.symm.trans has
  obtain rfl := (holds.bucket_eq otherPlaced hasOther).symm.trans index
  exact holds.unique _ item placed other otherPlaced key has hasOther

theorem Holds.mem_matching (holds : Holds table chains map) {search : Int} {text : List UInt8} :
    text ∈ matching table search (allItems table chains) ↔
      ∃ key : Key, key.text = text ∧ map key = some search := by
  constructor
  · intro member
    obtain ⟨item, kept, rfl⟩ := List.mem_map.mp member
    obtain ⟨present, stored⟩ := List.mem_filter.mp kept
    obtain ⟨bucket, _, placed⟩ := mem_allItems.mp present
    obtain ⟨key, has, rfl⟩ := holds.placed bucket item placed
    exact ⟨key, has.symm, (holds.stored key search).mpr ⟨item, placed, has, by simpa using stored⟩⟩
  · rintro ⟨key, rfl, stored⟩
    obtain ⟨item, placed, has, value⟩ := (holds.stored key search).mp stored
    refine List.mem_map.mpr ⟨item, List.mem_filter.mpr ⟨?_, by simpa using value⟩, has⟩
    exact mem_allItems.mpr ⟨_, Nat.mod_lt _ holds.positive, placed⟩

end Printing

/-! ### The whole program -/

section Main

variable {Address : Type*} [DecidableEq Address] {fuel : Nat} {table : Table Address}
  {chains : Nat → List Address} {map : Key → Option Int}

/-- The precondition of `htab_add` holds at every call: no key has come before. -/
theorem Holds.additions_allowed {bound i : Nat} {draws : List (Draw Address)}
    (holds : Holds table chains map) (short : ∀ bucket, (chains bucket).length ≤ bound)
    (ahead : Ahead i map) (few : i + draws.length ≤ keyCount)
    (enough : bound + draws.length ≤ fuel)
    (supplied : Along (HashTable.step fuel) Supplied table (additions i draws)) :
    Along (HashTable.step fuel) (Allowed fuel) table (additions i draws) := by
  induction draws generalizing table chains map bound i with
  | nil => trivial
  | cons draw rest ih =>
      rw [List.length_cons] at few enough
      have inside : i < keyCount := by omega
      have absent : htabFind fuel table (keyAt i) = some none := by
        apply (holds.absent_iff _).mp (ahead i (Nat.le_refl i) inside)
        exact Nat.lt_of_le_of_lt (short _) (by omega)
      have allowed : Allowed fuel table (draw.operation i) := ⟨absent, supplied.head⟩
      obtain ⟨next, taken, chains', kept, longer⟩ := holds.step short (by omega) allowed
      refine ⟨allowed, ?_⟩
      rw [taken]
      exact ih kept longer (ahead.operation inside draw) (by omega) (by omega)
        (supplied.tail taken)

/-- What the search prints for each schedule, when it ends as it does. -/
structure Answers (table : Table Address) (search : Int) (answer : List (List UInt8)) :
    Prop where
  ends : ∃ bound, ∀ actions final,
    run (ParallelSearch.step table search) Search.start actions = some final →
      actions.length ≤ bound
  goesOn : ∀ actions final,
    run (ParallelSearch.step table search) Search.start actions = some final →
      final.main ≠ .returned →
        ∃ action next, ParallelSearch.step table search final action = some next
  prints : ∀ actions final,
    run (ParallelSearch.step table search) Search.start actions = some final →
      final.main = .returned → final.printed.Perm answer

omit [DecidableEq Address] in
theorem Holds.answers (holds : Holds table chains map) {search : Int}
    {answer : List (List UInt8)} (distinct : answer.Nodup)
    (exact_ : ∀ text, text ∈ answer ↔ ∃ key : Key, key.text = text ∧ map key = some search) :
    Answers table search answer := by
  have first := searching_start table search chains
  have chained : Chained table chains := fun bucket _ => holds.linked bucket
  constructor
  case ends =>
    use measure (Search.start : Search Address) (rangeCost table chains)
    intro actions final ran
    obtain ⟨_, _, _, bound⟩ := first.runs chained ran
    omega
  case goesOn =>
    intro actions final ran
    obtain ⟨_, _, searching, _⟩ := first.runs chained ran
    exact searching.enabled
  case prints =>
    intro actions final ran returned
    obtain ⟨_, _, searching, _⟩ := first.runs chained ran
    refine (searching.complete returned).trans ?_
    rw [List.perm_ext_iff_of_nodup (holds.matching_nodup search) distinct]
    exact fun text => holds.mem_matching.trans (exact_ text).symm

/-- `main` calls `htab_add` as its precondition says, prints each key that it has stored
the value under once, whatever value it looks for and whatever the schedule, and leaves
nothing allocated. -/
theorem main_prints_stored {n : Nat} (inside : 0 < n) {memory : Table Address} {array : Address}
    (unheld : memory.allocated array = false) {draws : List (Draw Address)}
    (few : draws.length ≤ keyCount) (enough : draws.length ≤ fuel)
    (supplied : Along (HashTable.step fuel) Supplied (htabInitAt n (some array) memory).2
      (additions 0 draws)) (search : Int) :
    Along (HashTable.step fuel) (Allowed fuel) (htabInitAt n (some array) memory).2
        (additions 0 draws) ∧
      ∃ filled,
        run (HashTable.step fuel) (htabInitAt n (some array) memory).2 (additions 0 draws) =
          some filled ∧
        Answers filled search ((storedBy search draws 0).map fun i => (keyAt i).text) ∧
        ∃ released, htabDestroy fuel filled array = some released ∧
          released.allocated = memory.allocated := by
  have first : Holds (htabInitAt n (some array) memory).2 (fun _ => []) fun _ => none :=
    holds_htabInit inside
      { memory with allocated := Function.update memory.allocated array true }
  have empty : Ahead 0 fun _ => none := fun _ _ _ => rfl
  have allowed := first.additions_allowed (fun _ => Nat.le_refl 0) empty (by omega) (by omega)
    supplied
  refine ⟨allowed, ?_⟩
  have counted := additions_length 0 draws
  have owned := owns_htabInit n (Function.update memory.allocated array true) memory
  obtain ⟨filled, ran, chains, holds, _⟩ :=
    first.run (fun _ => Nat.le_refl 0) (by omega) allowed
  obtain ⟨reached, _, items, again, owns, _, bound⟩ :=
    owned.run inside (by rw [Finset.card_empty]; omega) supplied
  rw [Finset.card_empty] at bound
  obtain rfl := Option.some.inj (again.symm.trans ran)
  refine ⟨reached, ran, holds.answers ?_ ?_, _, owns.destroyed (by omega) unheld, rfl⟩
  · refine (storedBy_nodup _ draws 0).map_on fun i member j memberOther same => ?_
    have below := storedBy_bounds member
    have belowOther := storedBy_bounds memberOther
    exact keyAt_injective (by omega) (by omega) (CharArray.text_injective same)
  · intro text
    simp only [additions_stored empty (show 0 + draws.length ≤ keyCount by omega), List.mem_map]
    constructor
    · rintro ⟨i, member, rfl⟩
      exact ⟨keyAt i, rfl, Or.inr ⟨i, member, rfl⟩⟩
    · rintro ⟨key, rfl, none | ⟨i, member, rfl⟩⟩
      · cases none
      · exact ⟨i, member, rfl⟩

end Main

/-- The third allocation fails, and two of the others store the same value. -/
def fourDraws : List (Draw Nat) :=
  [⟨105, some 4⟩, ⟨7, some 0⟩, ⟨5, none⟩, ⟨5, some 2⟩]

theorem main_prints_stored_fourDraws :
    Along (step 4) (Allowed 4) (htabInitAt 100 (some 9) freshMemory).2 (additions 0 fourDraws) ∧
      ∃ filled,
        run (step 4) (htabInitAt 100 (some 9) freshMemory).2 (additions 0 fourDraws) =
          some filled ∧
        Answers filled 5 ((storedBy 5 fourDraws 0).map fun i => (keyAt i).text) ∧
        ∃ released, htabDestroy 4 filled 9 = some released ∧
          released.allocated = freshMemory.allocated :=
  main_prints_stored (by decide) (by decide) (by decide) (by decide) (by decide +kernel) 5

end Cab403.Workshops.HashTable
